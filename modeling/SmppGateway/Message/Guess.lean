import Mathlib.Data.List.Infix
import SmppGateway.Go.Regexp
import SmppGateway.Message.Codec

-- When `decodeSubmitText` takes a text for one that was never packed: what packed reading makes of bytes that are
-- aligned with its septets.

namespace SmppGateway

open Go

-- The septets before the one that may only fill up is dropped.
def rawSeptets (body : List UInt8) : List UInt8 :=
  (List.range (body.length * 8 / 7)).filterMap (unpackSeptet body)

section Aligned

variable {a b : List UInt8} {k : Nat} (ha : a.length = 7 * k)
include ha

theorem unpackSeptet_append_left {i : Nat} (hi : i < 8 * k) : unpackSeptet (a ++ b) i = unpackSeptet a i := by
  have hindex : i * 7 / 8 < a.length := by omega
  unfold unpackSeptet
  dsimp only
  rw [List.getElem?_append_left hindex]
  by_cases hnext : i * 7 / 8 + 1 < a.length
  case pos => rw [List.getElem?_append_left hnext]
  case neg =>
    have hshift : ¬i * 7 % 8 > 1 := by omega
    simp only [if_neg hshift]
    cases (a ++ b)[i * 7 / 8 + 1]? <;> cases a[i * 7 / 8 + 1]? <;> rfl

theorem unpackSeptet_append_right (i : Nat) : unpackSeptet (a ++ b) (8 * k + i) = unpackSeptet b i := by
  have hindex : (8 * k + i) * 7 / 8 = a.length + i * 7 / 8 := by omega
  have hshift : (8 * k + i) * 7 % 8 = i * 7 % 8 := by omega
  unfold unpackSeptet
  dsimp only
  rw [hindex, hshift, List.getElem?_append_right (Nat.le_add_right _ _), Nat.add_assoc,
    List.getElem?_append_right (Nat.le_add_right _ _), Nat.add_sub_cancel_left, Nat.add_sub_cancel_left]

theorem rawSeptets_append : rawSeptets (a ++ b) = rawSeptets a ++ rawSeptets b := by
  have hcount : (a ++ b).length * 8 / 7 = 8 * k + b.length * 8 / 7 := by
    rw [List.length_append]
    omega
  have hcountA : a.length * 8 / 7 = 8 * k := by omega
  rw [rawSeptets, rawSeptets, rawSeptets, hcount, hcountA, List.range_add, List.filterMap_append, List.filterMap_map]
  congr 1
  case e_a =>
    refine List.filterMap_congr fun i hi => ?_
    exact unpackSeptet_append_left ha (List.mem_range.mp hi)
  case e_a =>
    refine List.filterMap_congr fun i _ => ?_
    exact unpackSeptet_append_right ha i

end Aligned

theorem length_rawSeptets_le (body : List UInt8) : (rawSeptets body).length ≤ body.length * 8 / 7 :=
  (List.length_filterMap_le _ _).trans_eq List.length_range

theorem rawSeptets_ne_nil {body : List UInt8} (h : body ≠ []) : rawSeptets body ≠ [] := by
  obtain ⟨b, bs, rfl⟩ := List.exists_cons_of_ne_nil h
  have hcount : ∃ n, (b :: bs).length * 8 / 7 = n + 1 := ⟨(b :: bs).length * 8 / 7 - 1, by rw [List.length_cons]; omega⟩
  obtain ⟨n, hn⟩ := hcount
  have hfirst : ∃ s, unpackSeptet (b :: bs) 0 = some s := by
    cases bs <;> exact ⟨_, rfl⟩
  obtain ⟨s, hs⟩ := hfirst
  rw [rawSeptets, hn, List.range_succ_eq_map, List.filterMap_cons_some hs]
  exact List.cons_ne_nil _ _

theorem unpackSeptets_append {l b : List UInt8} (hb : b ≠ []) (h : rawSeptets l = a ++ rawSeptets b) :
    ∃ b', b'.length ≤ (rawSeptets b).length ∧ unpackSeptets l = a ++ b' := by
  have hdef : unpackSeptets l =
      if l.length % 7 = 0 ∧ (rawSeptets l).getLast? = some 0 then (rawSeptets l).dropLast else rawSeptets l := rfl
  rw [hdef, h]
  split
  case isTrue =>
    rw [List.dropLast_append_of_ne_nil (rawSeptets_ne_nil hb)]
    refine ⟨(rawSeptets b).dropLast, ?_, rfl⟩
    rw [List.length_dropLast]
    exact Nat.sub_le _ _
  case isFalse => exact ⟨rawSeptets b, Nat.le_refl _, rfl⟩

def gsm7Rune (code : UInt8) : List Char :=
  (gsm7DefaultRunes[code.toNat]?).toList.filter (· ≠ '\x00')

theorem decodeSeptets_of_ne {code : UInt8} (h : code ≠ 0x1B) (l : List UInt8) :
    decodeSeptets (code :: l) = gsm7Rune code ++ decodeSeptets l := by
  cases l
  case nil => simp [decodeSeptets, gsm7Rune]
  case cons next l => rw [decodeSeptets, if_neg h, gsm7Rune]

theorem decodeSeptets_append {m : List UInt8} (h : 0x1B ∉ m) (l : List UInt8) :
    decodeSeptets (m ++ l) = m.flatMap gsm7Rune ++ decodeSeptets l := by
  induction m
  case nil => rfl
  case cons code m hi =>
    rw [List.mem_cons, not_or] at h
    rw [List.cons_append, decodeSeptets_of_ne (Ne.symm h.1), hi h.2, List.flatMap_cons, List.append_assoc]

theorem decodeSeptets_suffix (a l : List UInt8) :
    decodeSeptets l <:+ decodeSeptets (a ++ l) ∨ decodeSeptets l.tail <:+ decodeSeptets (a ++ l) := by
  induction hn : a.length using Nat.strongRecOn generalizing a
  case ind n hi =>
    subst hn
    cases a
    case nil => exact .inl (List.suffix_refl _)
    case cons code a =>
      by_cases hcode : code = 0x1B
      case neg =>
        rw [List.cons_append, decodeSeptets_of_ne hcode]
        exact (hi a.length (Nat.lt_succ_self _) a rfl).imp (fun h => h.trans (List.suffix_append _ _))
          fun h => h.trans (List.suffix_append _ _)
      case pos =>
        subst hcode
        cases a
        case nil =>
          cases l
          case nil => exact .inl (List.nil_suffix)
          case cons next l =>
            rw [List.singleton_append, decodeSeptets, if_pos rfl]
            exact .inr (List.suffix_append _ _)
        case cons next a =>
          rw [List.cons_append, List.cons_append, decodeSeptets, if_pos rfl]
          have hlt : a.length < (0x1B :: next :: a).length := by simp only [List.length_cons]; omega
          exact (hi a.length hlt a rfl).imp (fun h => h.trans (List.suffix_append _ _))
            fun h => h.trans (List.suffix_append _ _)

theorem sum_decodeSeptets_le (size : Char → Nat) (hdefault : ∀ r ∈ gsm7DefaultRunes, size r ≤ 1)
    (hext : ∀ e ∈ gsm7ExtToRune, size e.2 ≤ 2) (l : List UInt8) : ((decodeSeptets l).map size).sum ≤ l.length := by
  have hrune (code : UInt8) : ((gsm7Rune code).map size).sum ≤ 1 := by
    cases h : gsm7DefaultRunes[code.toNat]?
    case none => simp [gsm7Rune, h]
    case some r =>
      have hr := hdefault r (List.mem_of_getElem? h)
      by_cases hzero : r = '\x00' <;> simp [gsm7Rune, h, hzero, hr]
  induction hn : l.length using Nat.strongRecOn generalizing l
  case ind n hi =>
    subst hn
    cases l
    case nil => exact Nat.le_refl _
    case cons code l =>
      by_cases hcode : code = 0x1B
      case neg =>
        have hfirst := hrune code
        have hrest := hi l.length (Nat.lt_succ_self _) l rfl
        rw [decodeSeptets_of_ne hcode, List.map_append, List.sum_append, List.length_cons]
        omega
      case pos =>
        subst hcode
        cases l
        case nil => simp [decodeSeptets, gsm7DefaultRunes]
        case cons next l =>
          have hrest := hi l.length (by simp only [List.length_cons]; omega) l rfl
          have hfirst : ((((gsm7ExtToRune.find? (·.1 = next)).map (·.2)).toList).map size).sum ≤ 2 := by
            cases he : gsm7ExtToRune.find? (·.1 = next)
            case none => simp
            case some e => simpa using hext e (List.mem_of_find?_eq_some he)
          rw [decodeSeptets, if_pos rfl, List.map_append, List.sum_append, List.length_cons, List.length_cons]
          omega

theorem length_decodeSeptets_le (l : List UInt8) : (decodeSeptets l).length ≤ l.length := by
  have h := sum_decodeSeptets_le (fun _ => 1) (fun _ _ => Nat.le_refl 1) (fun _ _ => Nat.le_succ 1) l
  simpa using h

def isPlainASCII (c : Nat) : Bool :=
  isASCIIControl c || isPrintableASCII c

theorem lt_of_isPlainASCII {b : UInt8} (h : isPlainASCII b.toNat = true) : b < 0x80 := by
  have hlt : b.toNat < 0x80 := by
    simp [isPlainASCII, isASCIIControl, isPrintableASCII] at h
    omega
  exact hlt

theorem toNat_ofNat_ascii {b : UInt8} (h : b < 0x80) : (Char.ofNat b.toNat).toNat = b.toNat := by
  have hall : ∀ n : Fin 128, (Char.ofNat n.val).toNat = n.val := by decide
  exact hall ⟨b.toNat, h⟩

theorem runes_ascii {s : Str} (h : ∀ b ∈ s, b < 0x80) : runes s = s.map fun b => Char.ofNat b.toNat := by
  nth_rewrite 1 [← utf8_ascii h]
  exact runes_utf8 _

theorem isMostlyPrintableASCII_iff {rs : List Char} :
    isMostlyPrintableASCII (utf8 rs) = true ↔ 9 * rs.length ≤ 10 * rs.countP fun r => isPlainASCII r.toNat := by
  cases rs
  case nil => simp [isMostlyPrintableASCII, utf8]
  case cons r rs =>
    have hne : utf8 (r :: rs) ≠ [] := by
      intro he
      cases (utf8_injective he : r :: rs = [])
    simp only [isMostlyPrintableASCII, runes_utf8, hne, decide_false, Bool.false_or, decide_eq_true_eq]
    rw [Nat.le_div_iff_mul_le (List.length_pos_of_ne_nil (List.cons_ne_nil r rs))]
    change 90 * (r :: rs).length ≤ ((r :: rs).countP fun r => isPlainASCII r.toNat) * 100 ↔ _
    omega

theorem isMostlyPrintableASCII_utf8 {rs : List Char} (h : rs.length < 10 * rs.countP fun r => !isPlainASCII r.toNat) :
    isMostlyPrintableASCII (utf8 rs) = false := by
  have hsum := List.length_eq_countP_add_countP (l := rs) fun r => isPlainASCII r.toNat
  simp only [Bool.not_eq_true, Bool.decide_eq_false] at hsum
  rw [← Bool.not_eq_true, isMostlyPrintableASCII_iff]
  omega

def midRunes (mid : List UInt8) : List Char :=
  (rawSeptets mid).tail.flatMap gsm7Rune

-- Whatever comes before and after: with enough runes that are not plain among those of `mid`, the packed reading
-- is not taken for text.
theorem not_isMostlyPrintableASCII {pre mid post : List UInt8} {j k : Nat} (hpre : pre.length = 7 * j)
    (hmid : mid.length = 7 * k) (hpost : post ≠ []) (hesc : 0x1B ∉ rawSeptets mid)
    (hodd : (pre ++ (mid ++ post)).length * 8 / 7 < 10 * (midRunes mid).countP fun r => !isPlainASCII r.toNat) :
    isMostlyPrintableASCII (decodeGSM7Packed (pre ++ (mid ++ post))) = false := by
  have hraw : rawSeptets (pre ++ (mid ++ post)) = (rawSeptets pre ++ rawSeptets mid) ++ rawSeptets post := by
    rw [rawSeptets_append hpre, rawSeptets_append hmid, List.append_assoc]
  obtain ⟨b, hb, hunpack⟩ := unpackSeptets_append hpost hraw
  have htotal : (unpackSeptets (pre ++ (mid ++ post))).length ≤ (pre ++ (mid ++ post)).length * 8 / 7 := by
    refine Nat.le_trans ?_ (length_rawSeptets_le _)
    rw [hunpack, hraw]
    simp only [List.length_append]
    omega
  have hcount : ((midRunes mid).countP fun r => !isPlainASCII r.toNat) ≤
      (decodeSeptets (unpackSeptets (pre ++ (mid ++ post)))).countP fun r => !isPlainASCII r.toNat := by
    rw [hunpack, List.append_assoc]
    have hruns : midRunes mid <:+: decodeSeptets (rawSeptets mid ++ b) ∧
        midRunes mid <:+: decodeSeptets (rawSeptets mid ++ b).tail := by
      cases hm : rawSeptets mid
      case nil => simp [midRunes, hm]
      case cons m ms =>
        have hmid : midRunes mid = ms.flatMap gsm7Rune := by rw [midRunes, hm]; rfl
        rw [hm] at hesc
        have htail : 0x1B ∉ ms := fun h => hesc (List.mem_cons_of_mem _ h)
        rw [decodeSeptets_append hesc, List.cons_append, List.tail_cons, decodeSeptets_append htail, hmid,
          List.flatMap_cons]
        exact ⟨⟨gsm7Rune m, _, rfl⟩, ⟨[], _, rfl⟩⟩
    rcases decodeSeptets_suffix (rawSeptets pre) (rawSeptets mid ++ b) with h | h
    case inl => exact (hruns.1.trans h.isInfix).sublist.countP_le
    case inr => exact (hruns.2.trans h.isInfix).sublist.countP_le
  refine isMostlyPrintableASCII_utf8 ?_
  have hle := length_decodeSeptets_le (unpackSeptets (pre ++ (mid ++ post)))
  omega

def packedRunes (body : List UInt8) : List Char :=
  decodeSeptets (unpackSeptets body)

-- The packed reading can be taken for text as well: nine tenths of it are printable, it breaks no line and has no
-- tab, and it scores at most 20 less than the bytes as they are.
structure Plausible (body : List UInt8) (rs : List Char) : Prop where
  printable : 9 * rs.length ≤ 10 * rs.countP fun r => isPrintableASCII r.toNat
  inline    : ∀ r ∈ rs, isASCIIControl r.toNat = false
  score     : textScore body ≤ textScore (utf8 rs) + 20

instance {body : List UInt8} {rs : List Char} : Decidable (Plausible body rs) :=
  decidable_of_iff (9 * rs.length ≤ 10 * (rs.countP fun r => isPrintableASCII r.toNat) ∧
      (rs.all fun r => !isASCIIControl r.toNat) ∧ textScore body ≤ textScore (utf8 rs) + 20) <| by
    rw [List.all_eq_true]
    constructor
    case mp => exact fun h => ⟨h.1, fun r hr => by simpa using h.2.1 r hr, h.2.2⟩
    case mpr => exact fun h => ⟨h.printable, fun r hr => by simp [h.inline r hr], h.score⟩

theorem countP_isPlainASCII {rs : List Char} (h : ∀ r ∈ rs, isASCIIControl r.toNat = false) :
    (rs.countP fun r => isPlainASCII r.toNat) = rs.countP fun r => isPrintableASCII r.toNat := by
  apply List.countP_congr
  intro r hr
  simp [isPlainASCII, h r hr]

section Printable

variable {body : List UInt8} (h : ∀ b ∈ body, isPrintableASCII b.toNat = true)
include h

theorem containsASCIIControl_printable : containsASCIIControl body = false := by
  have hascii : ∀ b ∈ body, b < 0x80 := fun b hb => lt_of_isPlainASCII (by simp [isPlainASCII, h b hb])
  rw [containsASCIIControl, runes_ascii hascii, List.any_map, List.any_eq_false]
  intro b hb
  have hprintable := h b hb
  simp only [Function.comp_apply, toNat_ofNat_ascii (hascii b hb)]
  simp [isPrintableASCII, isASCIIControl] at hprintable ⊢
  omega

theorem isLikelyUnpackedSubmit_printable :
    isLikelyUnpackedSubmit body (decodeGSM7Packed body) = false ↔ Plausible body (packedRunes body) := by
  have hpacked : decodeGSM7Packed body = utf8 (packedRunes body) := rfl
  have hcontrol : containsASCIIControl (utf8 (packedRunes body)) = false ↔
      ∀ r ∈ packedRunes body, isASCIIControl r.toNat = false := by
    simp [containsASCIIControl, runes_utf8]
  simp only [isLikelyUnpackedSubmit, containsASCIIControl_printable h, Bool.not_false, Bool.true_and,
    Bool.or_eq_false_iff, Bool.not_eq_false', decide_eq_false_iff_not, hpacked, isMostlyPrintableASCII_iff, hcontrol, Int.not_lt]
  constructor
  case mp =>
    rintro ⟨⟨hp, hc⟩, hs⟩
    exact ⟨countP_isPlainASCII hc ▸ hp, hc, hs⟩
  case mpr =>
    rintro ⟨hp, hc, hs⟩
    exact ⟨⟨countP_isPlainASCII hc ▸ hp, hc⟩, hs⟩

end Printable

theorem printable_submit_read {body : List UInt8} (hne : body ≠ [])
    (h : ∀ b ∈ body, 0x20 ≤ b ∧ b ≤ 0x7E) :
    decodeSubmitText body 0x00 =
      if Plausible body (packedRunes body) then utf8 (packedRunes body) else body := by
  have hprintable : ∀ b ∈ body, isPrintableASCII b.toNat = true := by
    intro b hb
    simpa [isPrintableASCII, UInt8.le_iff_toNat_le] using h b hb
  have hbytes : isLikelyUnpackedASCII body = true := by
    simp only [isLikelyUnpackedASCII, Bool.and_eq_true, decide_eq_true_eq, List.all_eq_true]
    exact ⟨hne, fun b hb => by simp [hprintable b hb]⟩
  have hdecoded : decodeText body 0x00 = decodeGSM7Packed body := rfl
  have hguess := isLikelyUnpackedSubmit_printable hprintable
  simp only [decodeSubmitText, hdecoded, hbytes, true_and]
  split
  case isTrue hunpacked =>
    rw [if_neg]
    exact fun hp => absurd hunpacked (by simp [hguess.mpr hp])
  case isFalse hpacked =>
    rw [if_pos (hguess.mp (Bool.eq_false_of_not_eq_true hpacked))]
    rfl

theorem forall_printable {s : Str} (h : (s.all fun b => 0x20 ≤ b && b ≤ 0x7E) = true) :
    ∀ b ∈ s, 0x20 ≤ b ∧ b ≤ 0x7E := by
  intro b hb
  simpa using List.all_eq_true.mp h b hb

theorem printable_submit_read_hello : decodeSubmitText (lit "hello ascii") 0x00 = lit "hello ascii" := by
  rw [printable_submit_read (by decide) (forall_printable (by decide)), if_neg (by decide +kernel)]

-- Packed, the bytes of two digits are a digit and a letter.
theorem two_digits_read_packed :
    (∀ b ∈ lit "11", 0x20 ≤ b ∧ b ≤ 0x7E) ∧ decodeSubmitText (lit "11") 0x00 = lit "1b" :=
  ⟨forall_printable (by decide), by decide +kernel⟩

end SmppGateway
