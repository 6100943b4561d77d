import SmppGateway.Client.Id

-- The spellings of a number in hexadecimal and decimal digits, and that `normalizeID` brings them together.

namespace SmppGateway.Client

open Go

def IsDigitOf (d : Nat) (b : UInt8) : Prop :=
  b = digitByte d ∨ 10 ≤ d ∧ b = .ofNat ('A'.toNat + (d - 10))

instance (d : Nat) (b : UInt8) : Decidable (IsDigitOf d b) :=
  inferInstanceAs (Decidable (_ ∨ _))

-- A spelling of `n`: digits, with any number of zeros in front, between spaces, and NULs after all of it.
inductive Spells (base n : Nat) : Str → Prop
  | mk {front back : List Char} {ds : List Nat} {digits : Str} {nuls : Nat} (hfront : ∀ c ∈ front, isSpace c = true)
      (hback : ∀ c ∈ back, isSpace c = true) (hne : ds ≠ []) (hdigits : ∀ d ∈ ds, d < base)
      (hvalue : Nat.ofDigits base ds.reverse = n) (hspelt : List.Forall₂ IsDigitOf ds digits) :
      Spells base n (utf8 front ++ digits ++ utf8 back ++ List.replicate nuls 0x00)

theorem IsDigitOf.facts {d : Nat} {b : UInt8} (hd : d < 36) (h : IsDigitOf d b) :
    digitVal b = some d ∧ b ≠ 0x00 ∧ b < 0x80 ∧ isSpace (Char.ofNat b.toNat) = false := by
  have hlower : ∀ d : Fin 36, digitVal (digitByte d) = some d.val ∧ digitByte d ≠ 0x00 ∧ digitByte d < 0x80 ∧
      isSpace (Char.ofNat (digitByte d).toNat) = false := by decide
  have hupper : ∀ d : Fin 36, 10 ≤ d.val → let b : UInt8 := .ofNat ('A'.toNat + (d.val - 10))
      digitVal b = some d.val ∧ b ≠ 0x00 ∧ b < 0x80 ∧ isSpace (Char.ofNat b.toNat) = false := by decide
  rcases h with rfl | ⟨hten, rfl⟩
  case inl => exact hlower ⟨d, hd⟩
  case inr => exact hupper ⟨d, hd⟩ hten

section Digits

variable {ds : List Nat} {digits : Str} (hspelt : List.Forall₂ IsDigitOf ds digits)
include hspelt

theorem spelt_bytes (hd : ∀ d ∈ ds, d < 36) :
    ∀ b ∈ digits, b ≠ 0x00 ∧ b < 0x80 ∧ isSpace (Char.ofNat b.toNat) = false := by
  induction hspelt
  case nil => simp
  case cons d b ds digits hb _ hi =>
    obtain ⟨hlt, hds⟩ := List.forall_mem_cons.mp hd
    exact List.forall_mem_cons.mpr ⟨(hb.facts hlt).2, hi hds⟩

theorem spelt_digitVal (hd : ∀ d ∈ ds, d < 36) : digits.map digitVal = (ds.map digitByte).map digitVal := by
  induction hspelt
  case nil => rfl
  case cons d b ds digits hb _ hi =>
    obtain ⟨hlt, hds⟩ := List.forall_mem_cons.mp hd
    rw [List.map_cons, List.map_cons, List.map_cons, hi hds, (hb.facts hlt).1, digitVal_digitByte hlt]

theorem spelt_decimal (hd : ∀ d ∈ ds, d < 10) : digits = ds.map digitByte := by
  induction hspelt
  case nil => rfl
  case cons d b ds digits hb _ hi =>
    obtain ⟨hlt, hds⟩ := List.forall_mem_cons.mp hd
    rw [List.map_cons, ← hi hds]
    rcases hb with rfl | ⟨hten, -⟩
    case inl => rfl
    case inr => omega

end Digits

theorem isSpace_noNUL {c : Char} (h : isSpace c = true) : 0x00 ∉ String.utf8EncodeChar c := by
  have hall : ∀ n ∈ [0x09, 0x0A, 0x0B, 0x0C, 0x0D, 0x20, 0x85, 0xA0, 0x1680, 0x2028, 0x2029, 0x202F, 0x205F, 0x3000],
      0x00 ∉ String.utf8EncodeChar (Char.ofNat n) := by decide
  have hwide : ∀ n : Fin 11, 0x00 ∉ String.utf8EncodeChar (Char.ofNat (0x2000 + n.val)) := by decide
  rw [← Char.ofNat_toNat c]
  simp only [isSpace, Bool.or_eq_true, Bool.and_eq_true, decide_eq_true_eq] at h
  rcases h with h | ⟨hle, hge⟩
  case inl => exact hall _ h
  case inr =>
    have hsum : 0x2000 + (c.toNat - 0x2000) = c.toNat := by omega
    have hn := hwide ⟨c.toNat - 0x2000, by omega⟩
    rwa [hsum] at hn

theorem trimRightNUL_append {s : Str} (h : 0x00 ∉ s) (nuls : Nat) :
    trimRightNUL (s ++ List.replicate nuls 0x00) = s := by
  induction nuls
  case zero =>
    rw [List.replicate_zero, List.append_nil, trimRightNUL, List.rdropWhile_eq_self_iff]
    intro hne hlast
    exact h (of_decide_eq_true hlast ▸ List.getLast_mem hne)
  case succ nuls hi =>
    rw [List.replicate_succ', ← List.append_assoc, trimRightNUL, List.rdropWhile_concat_pos _ _ _ (by decide)]
    exact hi

theorem trimSpaceStr_between {front cs back : List Char} (hfront : ∀ c ∈ front, isSpace c = true)
    (hback : ∀ c ∈ back, isSpace c = true) (hcs : ∀ c ∈ cs, isSpace c = false) (hne : cs ≠ []) :
    trimSpaceStr (utf8 (front ++ cs ++ back)) = utf8 cs := by
  have hall : ∀ x ∈ cs.map piece, isSpace x.1 = false := by
    intro x hx
    obtain ⟨c, hc, rfl⟩ := List.mem_map.mp hx
    exact hcs c hc
  have hdrop : ((front ++ cs ++ back).map piece).dropWhile (fun x => isSpace x.1) = (cs ++ back).map piece := by
    rw [List.append_assoc, List.map_append, List.dropWhile_append_of_pos (by simpa [piece] using hfront)]
    obtain ⟨c, cs, rfl⟩ := List.exists_cons_of_ne_nil hne
    rw [List.cons_append, List.map_cons, List.dropWhile_cons_of_neg]
    simpa [piece] using hcs c List.mem_cons_self
  have hrdrop : ((cs ++ back).map piece).rdropWhile (fun x => isSpace x.1) = cs.map piece := by
    rw [List.rdropWhile, List.map_append, List.reverse_append,
      List.dropWhile_append_of_pos (by simpa [piece] using hback), ← List.rdropWhile, List.rdropWhile_eq_self_iff]
    intro hlast
    rw [hall _ (List.getLast_mem hlast)]
    decide
  rw [trimSpaceStr, pieces_utf8, hdrop, hrdrop, bytes_map_piece]

theorem trim_spelling {front back : List Char} {ds : List Nat} {digits : Str} (hfront : ∀ c ∈ front, isSpace c = true)
    (hback : ∀ c ∈ back, isSpace c = true) (hne : ds ≠ []) (hd : ∀ d ∈ ds, d < 36)
    (hspelt : List.Forall₂ IsDigitOf ds digits) (nuls : Nat) :
    trimSpaceStr (trimRightNUL (utf8 front ++ digits ++ utf8 back ++ List.replicate nuls 0x00)) = digits := by
  have hbytes := spelt_bytes hspelt hd
  have hspaces {cs : List Char} (h : ∀ c ∈ cs, isSpace c = true) : 0x00 ∉ utf8 cs := by
    intro hmem
    obtain ⟨c, hc, hnul⟩ := List.mem_flatMap.mp hmem
    exact isSpace_noNUL (h c hc) hnul
  have hnul : 0x00 ∉ utf8 front ++ digits ++ utf8 back := by
    simp only [List.mem_append, not_or]
    exact ⟨⟨hspaces hfront, fun h => (hbytes _ h).1 rfl⟩, hspaces hback⟩
  have hdigits := utf8_ascii fun b hb => (hbytes b hb).2.1
  have hsplit : utf8 front ++ digits ++ utf8 back =
      utf8 (front ++ digits.map (fun b => Char.ofNat b.toNat) ++ back) := by rw [utf8_append, utf8_append, hdigits]
  rw [trimRightNUL_append hnul, hsplit, trimSpaceStr_between hfront hback, hdigits]
  case hcs =>
    intro c hc
    obtain ⟨b, hb, rfl⟩ := List.mem_map.mp hc
    exact (hbytes b hb).2.2
  case hne =>
    intro hnil
    rw [List.map_eq_nil_iff.mp hnil, List.forall₂_nil_right_iff] at hspelt
    exact hne hspelt

def canonical (n : Nat) : Str :=
  formatUintBase (.ofNat n) 10

theorem canonical_inj {n m : Nat} (hn : n < 2 ^ 64) (hm : m < 2 ^ 64) : canonical n = canonical m ↔ n = m := by
  refine ⟨fun h => ?_, congrArg canonical⟩
  have hparse (k : Nat) : parseUint (canonical k) 10 = some (.ofNat k) := by
    have hpad := parseUint_leftpad_format (.ofNat k) (by decide : 1 < 10) (by decide) 0
    rwa [List.leftpad, Nat.zero_sub, List.replicate_zero, List.nil_append] at hpad
  have heq : UInt64.ofNat n = UInt64.ofNat m := Option.some.inj ((hparse n).symm.trans (h ▸ hparse m))
  have hnat := congrArg UInt64.toNat heq
  rwa [UInt64.toNat_ofNat', UInt64.toNat_ofNat', Nat.mod_eq_of_lt hn, Nat.mod_eq_of_lt hm] at hnat

theorem parseUint_congr {s t : Str} (h : s.map digitVal = t.map digitVal) (base : Nat) :
    parseUint s base = parseUint t base := by
  have hfold (s : Str) (n : Nat) : s.foldlM (fun n b => do
      let d ← digitVal b
      if d < base then some (n * base + d) else none) n = (s.map digitVal).foldlM (fun n o => do
        let d ← o
        if d < base then some (n * base + d) else none) n := by rw [List.foldlM_map]
  have hnil : s = [] ↔ t = [] := by
    rw [← List.map_eq_nil_iff (f := digitVal), h, List.map_eq_nil_iff]
  simp only [parseUint, hfold, h, hnil]

theorem dropWhile_zero {ds : List Nat} (hd : ∀ d ∈ ds, d < 10) :
    ds.dropWhile (· = 0) = (Nat.digits 10 (Nat.ofDigits 10 ds.reverse)).reverse := by
  have hzeros : ds.takeWhile (· = 0) = List.replicate (ds.takeWhile (· = 0)).length 0 :=
    List.eq_replicate_iff.mpr ⟨rfl, fun d hmem => by simpa using List.mem_takeWhile_imp hmem⟩
  have hvalue : Nat.ofDigits 10 ds.reverse = Nat.ofDigits 10 (ds.dropWhile (· = 0)).reverse := by
    conv_lhs => rw [← List.takeWhile_append_dropWhile (p := (· = 0)) (l := ds), hzeros]
    rw [List.reverse_append, List.reverse_replicate, Nat.ofDigits_append_replicate_zero]
  rw [hvalue, Nat.digits_ofDigits 10 (by decide), List.reverse_reverse]
  case w₁ => exact fun d hmem => hd d ((List.dropWhile_sublist _).subset (List.mem_reverse.mp hmem))
  case w₂ =>
    intro hne
    have hne : ds.dropWhile (· = 0) ≠ [] := by simpa using hne
    rw [List.getLast_reverse]
    exact of_decide_eq_false (List.head_dropWhile_not (p := (· = 0)) hne)

theorem dropWhile_map_digitByte {ds : List Nat} (hd : ∀ d ∈ ds, d < 10) :
    (ds.map digitByte).dropWhile (· = '0'.toUInt8) = (ds.dropWhile (· = 0)).map digitByte := by
  have hzero : ∀ d : Fin 10, digitByte d = '0'.toUInt8 ↔ d.val = 0 := by decide
  induction ds
  case nil => rfl
  case cons d ds hi =>
    obtain ⟨hlt, hds⟩ := List.forall_mem_cons.mp hd
    by_cases h : d = 0
    case pos =>
      have heq : digitByte d = '0'.toUInt8 := (hzero ⟨d, hlt⟩).mpr h
      rw [List.map_cons, List.dropWhile_cons_of_pos (by simpa using heq), List.dropWhile_cons_of_pos (by simpa using h)]
      exact hi hds
    case neg =>
      have hne : digitByte d ≠ '0'.toUInt8 := fun he => h ((hzero ⟨d, hlt⟩).mp he)
      simp [h, hne]

theorem normalizeID_hex {n : Nat} (hn : n < 2 ^ 64) {h : Str} (hspells : Spells 16 n h) :
    normalizeID h (lit "hex") = canonical n := by
  cases hspells
  case mk front back ds digits nuls hfront hback hne hdigits hvalue hspelt =>
    have hd : ∀ d ∈ ds, d < 36 := fun d hmem => Nat.lt_trans (hdigits d hmem) (by decide)
    have hnil : digits ≠ [] := by
      rintro rfl
      exact hne (List.forall₂_nil_right_iff.mp hspelt)
    have hparse : parseUint digits 16 = some (.ofNat n) := by
      rw [parseUint_congr (spelt_digitVal hspelt hd), parseUint_digits (by decide) hdigits hne, hvalue, if_pos hn]
    have hdec : toLower (lit "hex") ≠ lit "dec" := by decide
    have hhex : toLower (lit "hex") = lit "hex" := by decide
    simp only [normalizeID, trim_spelling hfront hback hne hd hspelt, if_neg hnil, if_neg hdec, if_pos hhex, hparse]
    rfl

theorem normalizeID_dec {m : Nat} (hm : m < 2 ^ 64) {d : Str} (hspells : Spells 10 m d) :
    normalizeID d (lit "dec") = canonical m := by
  cases hspells
  case mk front back ds digits nuls hfront hback hne hdigits hvalue hspelt =>
    have hd : ∀ d ∈ ds, d < 36 := fun d hmem => Nat.lt_trans (hdigits d hmem) (by decide)
    have hdigitBytes := spelt_decimal hspelt hdigits
    have hnil : digits ≠ [] := by
      rw [hdigitBytes]
      simpa using hne
    have htrimmed : digits.dropWhile (· = '0'.toUInt8) = ((Nat.digits 10 m).reverse).map digitByte := by
      rw [hdigitBytes, dropWhile_map_digitByte hdigits, dropWhile_zero hdigits, hvalue]
    have hdec : toLower (lit "dec") = lit "dec" := by decide
    have hnat : (UInt64.ofNat m).toNat = m := by rw [UInt64.toNat_ofNat', Nat.mod_eq_of_lt hm]
    simp only [normalizeID, trim_spelling hfront hback hne hd hspelt, if_neg hnil, if_pos hdec, htrimmed, canonical,
      formatUintBase, hnat]
    by_cases hm0 : m = 0
    case pos => subst hm0; rfl
    case neg =>
      have hne : UInt64.ofNat m ≠ 0 := fun h => hm0 (by rw [← hnat, h]; rfl)
      have hdigitsNe : ((Nat.digits 10 m).reverse).map digitByte ≠ [] := by
        simpa using Nat.digits_ne_nil_iff_ne_zero.mpr hm0
      rw [if_neg hne, if_neg hdigitsNe]

-- A hexadecimal and a decimal spelling are brought to one form exactly when they spell one number.
theorem hex_meets_dec_iff {n m : Nat} (hn : n < 2 ^ 64) (hm : m < 2 ^ 64) {h d : Str} (hh : Spells 16 n h)
    (hd : Spells 10 m d) : normalizeID h (lit "hex") = normalizeID d (lit "dec") ↔ n = m := by
  rw [normalizeID_hex hn hh, normalizeID_dec hm hd, canonical_inj hn hm]

theorem hex_meets_dec_iff_max :
    normalizeID (lit " 00FFFFffffFFFFffff\n\x00\x00") (lit "hex") =
      normalizeID (lit "018446744073709551615 ") (lit "dec") := by
  have hspelt {ds : List Nat} {digits : Str} (hlength : ds.length = digits.length)
      (h : ∀ x ∈ ds.zip digits, IsDigitOf x.1 x.2) : List.Forall₂ IsDigitOf ds digits :=
    List.forall₂_iff_zip.mpr ⟨hlength, fun hmem => h _ hmem⟩
  have hh : Spells 16 18446744073709551615 (lit " 00FFFFffffFFFFffff\n\x00\x00") :=
    @Spells.mk 16 _ [' '] ['\n'] ([0, 0] ++ List.replicate 16 15) (lit "00FFFFffffFFFFffff") 2
      (List.forall_mem_singleton.mpr (by decide)) (List.forall_mem_singleton.mpr (by decide)) (by decide) (by decide)
      (by decide +kernel) (hspelt (by decide) (by decide))
  have hd : Spells 10 18446744073709551615 (lit "018446744073709551615 ") :=
    @Spells.mk 10 _ [] [' '] [0, 1, 8, 4, 4, 6, 7, 4, 4, 0, 7, 3, 7, 0, 9, 5, 5, 1, 6, 1, 5]
      (lit "018446744073709551615") 0
      (fun _ h => absurd h List.not_mem_nil) (List.forall_mem_singleton.mpr (by decide)) (by decide) (by decide)
      (by decide +kernel) (hspelt (by decide) (by decide))
  exact (hex_meets_dec_iff (by decide) (by decide) hh hd).mpr rfl

end SmppGateway.Client
