import Mathlib.Algebra.Order.BigOperators.Group.List
import Mathlib.Algebra.Order.Ring.Nat
import SmppGateway.Client.Receipt

-- Which of the gateway's receipts the client reads back.

namespace SmppGateway

open Go Search

namespace Client

theorem isPlainASCII_utf8_iff (cs : List Char) :
    (∀ b ∈ utf8 cs, isPlainASCII b.toNat = true) ↔ ∀ c ∈ cs, isPlainASCII c.toNat = true := by
  constructor
  case mp =>
    intro h c hc
    have hascii : ∀ b ∈ utf8 cs, b < 0x80 := fun b hb => lt_of_isPlainASCII (h b hb)
    have hcs : (utf8 cs).map (fun b => Char.ofNat b.toNat) = cs := utf8_injective (utf8_ascii hascii)
    rw [← hcs] at hc
    obtain ⟨b, hb, rfl⟩ := List.mem_map.mp hc
    rw [toNat_ofNat_ascii (hascii b hb)]
    exact h b hb
  case mpr =>
    intro h b hb
    obtain ⟨c, hc, hbc⟩ := List.mem_flatMap.mp hb
    have hall : ∀ n : Fin 128, String.utf8EncodeChar (Char.ofNat n.val) = [UInt8.ofNat n.val] := by decide
    have hlt : c.toNat < 128 := by
      have := h c hc
      simp [isPlainASCII, isASCIIControl, isPrintableASCII] at this
      omega
    have hencode := hall ⟨c.toNat, hlt⟩
    rw [Char.ofNat_toNat] at hencode
    rw [hencode, List.mem_singleton] at hbc
    rw [hbc, UInt8.toNat_ofNat', Nat.mod_eq_of_lt (Nat.lt_trans hlt (by decide))]
    exact h c hc

theorem isPlainASCII_of_isDigit {b : UInt8} (h : isDigit b = true) : isPlainASCII b.toNat = true := by
  simp only [isDigit, Bool.and_eq_true, decide_eq_true_eq, UInt8.le_iff_toNat_le] at h
  have hlo : 48 ≤ b.toNat := h.1
  have hhi : b.toNat ≤ 57 := h.2
  simp [isPlainASCII, isPrintableASCII]
  omega

def delivered (p : DLRParams) : Int :=
  if normalizeState p.state = lit "DELIVRD" then 1 else 0

def receiptHead (p : DLRParams) : Str :=
  lit "id:" ++ p.gatewayID ++ lit " sub:001 dlvrd:" ++ threeDigits (delivered p) ++
    lit " submit date:" ++ formatMinute p.submittedAt ++ lit " done date:" ++ formatMinute p.doneAt ++
    lit " stat:" ++ normalizeState p.state ++ lit " err:" ++ threeDigits p.errorCode ++ lit " text:"

theorem formatReceiptText_eq (p : DLRParams) :
    formatReceiptText p = receiptHead p ++ truncateRunes p.originalText 20 := rfl

theorem delivered_cases (p : DLRParams) :
    threeDigits (delivered p) = lit "000" ∨ threeDigits (delivered p) = lit "001" := by
  unfold delivered
  split
  case isTrue =>
    right
    have hone : formatUintBase 1 10 = lit "1" := by simp [formatUintBase]; decide
    have hthree : threeDigits 1 = (formatUintBase 1 10).leftpad 3 '0'.toUInt8 := rfl
    rw [hthree, hone]
    decide
  case isFalse => left; decide

def PlainStart (rs : List Char) : Prop :=
  ∀ r ∈ rs.take 20, isPlainASCII r.toNat = true

instance (rs : List Char) : Decidable (PlainStart rs) :=
  decidable_of_iff ((rs.take 20).all fun r => isPlainASCII r.toNat) List.all_eq_true

section Text

variable {p : DLRParams} {n : UInt64} {rs : List Char} (hid : encodeGatewayID n = some p.gatewayID)
  (herr : 0 ≤ p.errorCode) (herr' : p.errorCode ≤ 999) (htext : p.originalText = utf8 rs)

include hid herr herr' in
theorem length_receiptHead : (receiptHead p).length = 100 := by
  have hdelivered : (threeDigits (delivered p)).length = 3 := by
    rcases delivered_cases p with h | h <;> rw [h] <;> rfl
  have hstate : (normalizeState p.state).length = 7 := by
    have hall : ∀ s ∈ textStates, s.length = 7 := by decide
    exact hall _ (normalizeState_mem _)
  have hlit : (lit "id:").length = 3 ∧ (lit " sub:001 dlvrd:").length = 15 ∧ (lit " submit date:").length = 13 ∧
      (lit " done date:").length = 11 ∧ (lit " stat:").length = 6 ∧ (lit " err:").length = 5 ∧
      (lit " text:").length = 6 := by decide
  simp only [receiptHead, List.length_append, encodeGatewayID_length hid, hdelivered, hstate,
    (formatMinute_digits _).1, (threeDigits_digits herr herr').1, hlit]

include hid herr herr' in
theorem receiptHead_plain : ∀ b ∈ receiptHead p, isPlainASCII b.toNat = true := by
  obtain ⟨rest, -, -, hbytes⟩ := gatewayID_bytes hid
  have hidPlain : ∀ b ∈ p.gatewayID, isPlainASCII b.toNat = true := by
    intro b hb
    have := hbytes b hb
    simp only [isIDByte, Bool.and_eq_true] at this
    exact this.1.1.1.2
  have hdelivered : ∀ b ∈ threeDigits (delivered p), isPlainASCII b.toNat = true := by
    rcases delivered_cases p with h | h <;> rw [h] <;> exact List.all_eq_true.mp (by decide)
  have hstate : ∀ b ∈ normalizeState p.state, isPlainASCII b.toNat = true := by
    have hall : ∀ s ∈ textStates, (s.all fun b => isPlainASCII b.toNat) = true := by decide
    exact List.all_eq_true.mp (hall _ (normalizeState_mem _))
  have hdigits {s : Str} (h : ∀ b ∈ s, isDigit b = true) : ∀ b ∈ s, isPlainASCII b.toNat = true :=
    fun b hb => isPlainASCII_of_isDigit (h b hb)
  simp only [receiptHead, List.forall_mem_append]
  refine ⟨⟨⟨⟨⟨⟨⟨⟨⟨⟨⟨⟨?_, hidPlain⟩, ?_⟩, hdelivered⟩, ?_⟩, ?_⟩, ?_⟩, ?_⟩, ?_⟩, hstate⟩, ?_⟩, ?_⟩, ?_⟩
  case refine_4 => exact hdigits (formatMinute_digits _).2
  case refine_6 => exact hdigits (formatMinute_digits _).2
  case refine_9 => exact hdigits (threeDigits_digits herr herr').2
  all_goals exact List.all_eq_true.mp (by decide)

include htext in
theorem truncateRunes_originalText : truncateRunes p.originalText 20 = utf8 (rs.take 20) := by
  rw [htext, truncateRunes_utf8]

include hid herr herr' htext in
theorem isLikelyUnpackedASCII_receipt : isLikelyUnpackedASCII (formatReceiptText p) = true ↔ PlainStart rs := by
  have hne : formatReceiptText p ≠ [] := by
    intro he
    have hlen := congrArg List.length he
    rw [formatReceiptText_eq, List.length_append, length_receiptHead hid herr herr'] at hlen
    simp at hlen
  have hall : isLikelyUnpackedASCII (formatReceiptText p) = true ↔
      ∀ b ∈ formatReceiptText p, isPlainASCII b.toNat = true := by
    simp only [isLikelyUnpackedASCII, hne, ne_eq, not_false_eq_true, decide_true, Bool.true_and, List.all_eq_true]
    rfl
  rw [hall, formatReceiptText_eq, List.forall_mem_append, truncateRunes_originalText htext, isPlainASCII_utf8_iff]
  exact ⟨fun h => h.2, fun h => ⟨receiptHead_plain hid herr herr', h⟩⟩

include htext in
theorem length_truncated_le : (truncateRunes p.originalText 20).length ≤ 80 := by
  have hle : ∀ m ∈ (rs.take 20).map fun c => (String.utf8EncodeChar c).length, m ≤ 4 := by
    intro m hm
    obtain ⟨c, -, rfl⟩ := List.mem_map.mp hm
    rw [String.length_utf8EncodeChar]
    exact c.utf8Size_le_four
  have hsum := List.sum_le_card_nsmul _ _ hle
  rw [List.length_map, nsmul_eq_mul, Nat.cast_id] at hsum
  have hshort := List.length_take_le 20 rs
  rw [truncateRunes_originalText htext, utf8, List.length_flatMap]
  omega

def receiptTail (p : DLRParams) : Str :=
  formatMinute p.submittedAt ++ lit " done date:" ++ formatMinute p.doneAt ++ lit " stat:" ++ normalizeState p.state ++
    lit " err:" ++ threeDigits p.errorCode ++ lit " text:" ++ truncateRunes p.originalText 20

theorem formatReceiptText_split (p : DLRParams) :
    formatReceiptText p = (lit "id:" ++ p.gatewayID ++ lit " su") ++
      ((lit "b:001 dlvrd:" ++ threeDigits (delivered p) ++ lit " submit date:") ++ receiptTail p) := by
  have hlit : lit " sub:001 dlvrd:" = lit " su" ++ lit "b:001 dlvrd:" := by decide
  simp only [formatReceiptText_eq, receiptHead, receiptTail, hlit, List.append_assoc]

theorem decodeText_zero (body : Bytes) : decodeText body 0x00 = decodeGSM7Packed body := rfl

include hid herr herr' htext in
theorem decodeSubmitText_plain (hplain : PlainStart rs) :
    decodeSubmitText (formatReceiptText p) 0x00 = formatReceiptText p := by
  have hlen : (formatReceiptText p).length ≤ 120 := by
    have hascii : ∀ b ∈ utf8 (rs.take 20), b < 0x80 := fun b hb =>
      lt_of_isPlainASCII ((isPlainASCII_utf8_iff _).mpr hplain b hb)
    have hcs : (utf8 (rs.take 20)).map (fun b => Char.ofNat b.toNat) = rs.take 20 := utf8_injective (utf8_ascii hascii)
    have htruncated := congrArg List.length hcs
    rw [List.length_map] at htruncated
    have hshort := List.length_take_le 20 rs
    rw [formatReceiptText_eq, List.length_append, length_receiptHead hid herr herr', truncateRunes_originalText htext,
      htruncated]
    omega
  have hmid {d : Str} (hd : d = lit "000" ∨ d = lit "001") :
      (lit "b:001 dlvrd:" ++ d ++ lit " submit date:").length = 7 * 4 ∧
        0x1B ∉ rawSeptets (lit "b:001 dlvrd:" ++ d ++ lit " submit date:") ∧
        ((midRunes (lit "b:001 dlvrd:" ++ d ++ lit " submit date:")).countP fun r => !isPlainASCII r.toNat) = 15 := by
    rcases hd with rfl | rfl <;> decide +kernel
  obtain ⟨hlength, hescape, hcount⟩ := hmid (delivered_cases p)
  have hprintable : isMostlyPrintableASCII (decodeText (formatReceiptText p) 0x00) = false := by
    have hpre : (lit "id:" ++ p.gatewayID ++ lit " su").length = 7 * 2 := by
      simp only [List.length_append, encodeGatewayID_length hid]
      decide
    have hpost : receiptTail p ≠ [] := by
      simp [receiptTail, formatMinute, twoDigits]
    rw [decodeText_zero]
    rw [formatReceiptText_split] at hlen ⊢
    refine not_isMostlyPrintableASCII hpre hlength hpost hescape ?_
    rw [hcount]
    omega
  have hunpacked := (isLikelyUnpackedASCII_receipt hid herr herr' htext).mpr hplain
  have hsubmit : isLikelyUnpackedSubmit (formatReceiptText p) (decodeText (formatReceiptText p) 0x00) = true := by
    simp only [isLikelyUnpackedSubmit, hprintable, Bool.not_false, Bool.true_or]
  simp only [decodeSubmitText]
  rw [if_pos ⟨trivial, hunpacked, hsubmit⟩]

include hid herr herr' htext in
theorem decodeSubmitText_not_plain (hplain : ¬PlainStart rs) :
    decodeSubmitText (formatReceiptText p) 0x00 = decodeGSM7Packed (formatReceiptText p) := by
  have hunpacked : ¬(isLikelyUnpackedASCII (formatReceiptText p) = true) := fun h =>
    hplain ((isLikelyUnpackedASCII_receipt hid herr herr' htext).mp h)
  simp only [decodeSubmitText]
  rw [if_neg fun h => hunpacked h.2.1, decodeText_zero]

end Text

-- A word of bytes and the byte that ends it, where nothing starts that starts with `c` and `d`.
def passes (c d : Char) (x : Str × UInt8) : Bool :=
  x.1.all (fun b => isWordRune (Char.ofNat b.toNat)) && !isWordRune (Char.ofNat x.2.toNat) &&
    match x.1 with
    | a :: b :: _ => !(fold (Char.ofNat a.toNat) = c && fold (Char.ofNat b.toNat) = d)
    | _           => false

def spell (x : Str × UInt8) : Str :=
  x.1 ++ [x.2]

theorem passed_of_passes {c d : Char} {x : Str × UInt8} (h : passes c d x = true) :
    Passed (fun y : Piece => isWordRune y.1) (fun y => fold y.1 = c) (fun y => fold y.1 = d)
      (x.1.map bytePiece, bytePiece x.2) := by
  obtain ⟨w, sep⟩ := x
  simp only [passes, Bool.and_eq_true, List.all_eq_true, Bool.not_eq_true'] at h
  obtain ⟨⟨hword, hsep⟩, hstart⟩ := h
  refine ⟨fun y hy => ?_, ?_, hsep⟩
  case refine_1 =>
    obtain ⟨b, hb, rfl⟩ := List.mem_map.mp hy
    exact hword b hb
  case refine_2 =>
    match w, hstart with
    | a :: b :: w, hstart =>
      rw [Bool.not_eq_true'] at hstart
      exact ⟨bytePiece a, bytePiece b, w.map bytePiece, rfl, hstart⟩

theorem isWordRune_of_fold {c r : Char} (hc : c = 'd' ∨ c = 'e') (h : fold r = c) : isWordRune r = true := by
  unfold fold at h
  split_ifs at h with hupper hs hk
  case pos =>
    have hall : ∀ n : Fin 91, 65 ≤ n.val → isWordRune (Char.ofNat n.val) = true := by decide
    have hr := hall ⟨r.toNat, Nat.lt_succ_of_le hupper.2⟩ hupper.1
    rwa [Char.ofNat_toNat] at hr
  case pos => rcases hc with rfl | rfl <;> cases h
  case pos => rcases hc with rfl | rfl <;> cases h
  case neg => rcases hc with rfl | rfl <;> rw [h] <;> decide

section Search

variable {c d : Char} {more : List (Item Piece)} {group : Item Piece}

theorem findSubmatch_words (hc : c = 'd' ∨ c = 'e') {xs : List (Str × UInt8)} (hxs : ∀ x ∈ xs, passes c d x = true)
    {rest g : Str} (hascii : ∀ b ∈ xs.flatMap spell ++ rest, b < 0x80)
    (hg : ∀ before : Option Piece, before.any (fun y => isWordRune y.1) = false →
      groupAt (wordBoundary :: letter c :: letter d :: more) group ⟨before, rest.map bytePiece⟩ =
        some (g.map bytePiece)) :
    (Regexp.mk (wordBoundary :: letter c :: letter d :: more) group).findSubmatch (xs.flatMap spell ++ rest) = some g := by
  have hwords : (xs.flatMap spell).map bytePiece =
      (xs.map fun x => (x.1.map bytePiece, bytePiece x.2)).flatMap fun x => x.1 ++ [x.2] := by
    rw [List.map_flatMap, List.flatMap_map]
    refine List.flatMap_congr fun x _ => ?_
    simp [spell]
  have hpassed : ∀ x ∈ xs.map fun x => (x.1.map bytePiece, bytePiece x.2),
      Passed (fun y : Piece => isWordRune y.1) (fun y => fold y.1 = c) (fun y => fold y.1 = d) x := by
    intro x hx
    obtain ⟨x, hm, rfl⟩ := List.mem_map.mp hx
    exact passed_of_passes (hxs x hm)
  have hstart (y : Piece) (hy : decide (fold y.1 = c) = true) : isWordRune y.1 = true :=
    isWordRune_of_fold hc (of_decide_eq_true hy)
  obtain ⟨before, hbefore, heq⟩ := search_words more group hstart hpassed none rfl (rest.map bytePiece)
  have hsearch : search (wordBoundary :: letter c :: letter d :: more) group none
      ((xs.flatMap spell ++ rest).map bytePiece) = some (g.map bytePiece) := by
    rw [List.map_append, hwords]
    exact heq.trans (search_of_groupAt (hg before hbefore))
  rw [Regexp.findSubmatch, pieces_ascii hascii, hsearch, Option.map_some, bytes_map_bytePiece]

end Search

theorem digit_facts {b : UInt8} (h : isDigit b = true) :
    isWordRune (Char.ofNat b.toNat) = true ∧ isDigitRune (Char.ofNat b.toNat) = true ∧
      isSpaceRune (Char.ofNat b.toNat) = false ∧ isSpace (Char.ofNat b.toNat) = false ∧
      fold (Char.ofNat b.toNat) ≠ 'd' ∧ fold (Char.ofNat b.toNat) ≠ 'e' := by
  have hall : ∀ n : Fin 58, 48 ≤ n.val → isWordRune (Char.ofNat n.val) = true ∧ isDigitRune (Char.ofNat n.val) = true ∧
      isSpaceRune (Char.ofNat n.val) = false ∧ isSpace (Char.ofNat n.val) = false ∧
      fold (Char.ofNat n.val) ≠ 'd' ∧ fold (Char.ofNat n.val) ≠ 'e' := by decide
  simp only [isDigit, Bool.and_eq_true, decide_eq_true_eq, UInt8.le_iff_toNat_le] at h
  exact hall ⟨b.toNat, Nat.lt_succ_of_le h.2⟩ h.1

theorem passes_digits {c d : Char} (hc : c = 'd' ∨ c = 'e') {s : Str} (hlen : 2 ≤ s.length)
    (hs : ∀ b ∈ s, isDigit b = true) : passes c d (s, ' '.toUInt8) = true := by
  match s, hlen with
  | a :: b :: s, _ =>
    have ha := digit_facts (hs a List.mem_cons_self)
    have hne : fold (Char.ofNat a.toNat) ≠ c := by
      rcases hc with rfl | rfl
      case inl => exact ha.2.2.2.2.1
      case inr => exact ha.2.2.2.2.2
    simp only [passes, Bool.and_eq_true, List.all_eq_true]
    refine ⟨⟨fun b hb => (digit_facts (hs b hb)).1, by decide⟩, ?_⟩
    simp [hne]

theorem passes_gatewayID {c d : Char} (hc : c = 'd' ∨ c = 'e') {n : UInt64} {id : Str} (h : encodeGatewayID n = some id) :
    passes c d (id, ' '.toUInt8) = true := by
  obtain ⟨rest, hid, hlen, hbytes⟩ := gatewayID_bytes h
  obtain ⟨b, rest, rfl⟩ := List.exists_cons_of_length_eq_add_one hlen
  have hne : fold (Char.ofNat ('m'.toUInt8).toNat) ≠ c := by rcases hc with rfl | rfl <;> decide
  simp only [passes, Bool.and_eq_true, List.all_eq_true]
  refine ⟨⟨fun b hb => ?_, by decide⟩, ?_⟩
  case refine_1 =>
    have := hbytes b hb
    simp only [isIDByte, Bool.and_eq_true] at this
    exact this.1.1.1.1
  case refine_2 =>
    rw [hid]
    simp [hne]

def headWords (p : DLRParams) : List (Str × UInt8) :=
  [(lit "id", ':'.toUInt8), (p.gatewayID, ' '.toUInt8), (lit "sub", ':'.toUInt8), (lit "001", ' '.toUInt8),
    (lit "dlvrd", ':'.toUInt8), (threeDigits (delivered p), ' '.toUInt8), (lit "submit", ' '.toUInt8),
    (lit "date", ':'.toUInt8), (formatMinute p.submittedAt, ' '.toUInt8)]

def midWords (p : DLRParams) : List (Str × UInt8) :=
  [(lit "done", ' '.toUInt8), (lit "date", ':'.toUInt8), (formatMinute p.doneAt, ' '.toUInt8),
    (lit "stat", ':'.toUInt8), (normalizeState p.state, ' '.toUInt8)]

def fromErr (p : DLRParams) : Str :=
  lit "err:" ++ (threeDigits p.errorCode ++ (lit " text:" ++ truncateRunes p.originalText 20))

def fromDone (p : DLRParams) : Str :=
  lit "done date:" ++ (formatMinute p.doneAt ++ (lit " stat:" ++ normalizeState p.state ++ lit " " ++ fromErr p))

theorem formatReceiptText_fromErr (p : DLRParams) :
    formatReceiptText p = (headWords p ++ midWords p).flatMap spell ++ fromErr p := by
  have h₁ : lit "id:" = lit "id" ++ [':'.toUInt8] := by decide
  have h₂ : lit " sub:001 dlvrd:" = [' '.toUInt8] ++ (lit "sub" ++ ([':'.toUInt8] ++ (lit "001" ++ ([' '.toUInt8] ++
    (lit "dlvrd" ++ [':'.toUInt8]))))) := by decide
  have h₃ : lit " submit date:" = [' '.toUInt8] ++ (lit "submit" ++ ([' '.toUInt8] ++ (lit "date" ++ [':'.toUInt8]))) := by
    decide
  have h₄ : lit " done date:" = [' '.toUInt8] ++ (lit "done" ++ ([' '.toUInt8] ++ (lit "date" ++ [':'.toUInt8]))) := by
    decide
  have h₅ : lit " stat:" = [' '.toUInt8] ++ (lit "stat" ++ [':'.toUInt8]) := by decide
  have h₆ : lit " err:" = [' '.toUInt8] ++ lit "err:" := by decide
  simp only [formatReceiptText_eq, receiptHead, headWords, midWords, fromErr, spell, List.flatMap_append,
    List.flatMap_cons, List.flatMap_nil, List.append_assoc, List.nil_append, h₁, h₂, h₃, h₄, h₅, h₆]

theorem formatReceiptText_fromDone (p : DLRParams) :
    formatReceiptText p = (headWords p).flatMap spell ++ fromDone p := by
  have h₁ : lit "done date:" = lit "done" ++ ([' '.toUInt8] ++ (lit "date" ++ [':'.toUInt8])) := by decide
  have h₂ : lit " stat:" = [' '.toUInt8] ++ (lit "stat" ++ [':'.toUInt8]) := by decide
  have h₃ : lit " " = [' '.toUInt8] := by decide
  rw [formatReceiptText_fromErr, List.flatMap_append, List.append_assoc]
  simp only [midWords, fromDone, spell, List.flatMap_cons, List.flatMap_nil, List.append_assoc, List.nil_append, h₁, h₂, h₃]

theorem groupAt_digits {min : Nat} {max : Option Nat} {before : Option Piece} {s rest : Str}
    (hs : ∀ b ∈ s, isDigit b = true) (hne : s ≠ []) (hrest : (rest.map bytePiece).head?.any (fun y => isDigitRune y.1) = false)
    (hmin : min ≤ s.length) (hmax : ∀ n, max = some n → s.length ≤ n) :
    groupAt [runOf isSpaceRune 0] (runOf isDigitRune min max) ⟨before, (s ++ rest).map bytePiece⟩ =
      some (s.map bytePiece) := by
  -- No space comes before the digits.
  have hspace : ((s ++ rest).map bytePiece).head?.any (fun y => isSpaceRune y.1) = false := by
    obtain ⟨b, s, rfl⟩ := List.exists_cons_of_ne_nil hne
    exact (digit_facts (hs b List.mem_cons_self)).2.2.1
  have hdigits : ∀ y ∈ s.map bytePiece, isDigitRune y.1 = true := by
    intro y hy
    obtain ⟨b, hb, rfl⟩ := List.mem_map.mp hy
    exact (digit_facts (hs b hb)).2.1
  refine groupAt_run (w := []) nofun hspace (Nat.zero_le _) nofun ?_
  rw [List.map_append]
  exact groupAt_last hdigits hrest (by rwa [List.length_map]) (by rwa [List.length_map])

theorem firstSubmatch_of_digits {re : Regexp} {text s : Str} (h : re.findSubmatch text = some s)
    (hs : ∀ b ∈ s, isDigit b = true) : firstSubmatch re text = s := by
  have hascii : ∀ b ∈ s, b < 0x80 := fun b hb => lt_of_isPlainASCII (isPlainASCII_of_isDigit (hs b hb))
  have hspace : ∀ c ∈ s.map fun b => Char.ofNat b.toNat, isSpace c = false := by
    intro c hc
    obtain ⟨b, hb, rfl⟩ := List.mem_map.mp hc
    exact (digit_facts (hs b hb)).2.2.2.1
  have htrim := trimSpaceStr_eq hspace
  rw [utf8_ascii hascii] at htrim
  rw [firstSubmatch, h, Option.elim_some, htrim]

section Fields

variable {p : DLRParams} {n : UInt64} (hid : encodeGatewayID n = some p.gatewayID) {c d : Char}

include hid in
theorem passes_headWords (hc : c = 'd' ∧ d = 'o' ∨ c = 'e' ∧ d = 'r') : ∀ x ∈ headWords p, passes c d x = true := by
  have hdigits (t : Time) : passes c d (formatMinute t, ' '.toUInt8) = true :=
    passes_digits (hc.imp And.left And.left) (by rw [(formatMinute_digits t).1]; decide) (formatMinute_digits t).2
  have hdelivered : passes c d (threeDigits (delivered p), ' '.toUInt8) = true := by
    rcases delivered_cases p with h | h <;> rw [h] <;> rcases hc with ⟨rfl, rfl⟩ | ⟨rfl, rfl⟩ <;> decide
  simp only [headWords, List.forall_mem_cons]
  refine ⟨?_, passes_gatewayID (hc.imp And.left And.left) hid, ?_, ?_, ?_, hdelivered, ?_, ?_, hdigits _, nofun⟩
  all_goals rcases hc with ⟨rfl, rfl⟩ | ⟨rfl, rfl⟩ <;> decide

theorem passes_midWords : ∀ x ∈ midWords p, passes 'e' 'r' x = true := by
  have hdigits : passes 'e' 'r' (formatMinute p.doneAt, ' '.toUInt8) = true :=
    passes_digits (.inr rfl) (by rw [(formatMinute_digits _).1]; decide) (formatMinute_digits _).2
  have hstate : passes 'e' 'r' (normalizeState p.state, ' '.toUInt8) = true := by
    have hall : ∀ s ∈ textStates, passes 'e' 'r' (s, ' '.toUInt8) = true := by decide
    exact hall _ (normalizeState_mem _)
  simp only [midWords, List.forall_mem_cons]
  refine ⟨?_, ?_, hdigits, ?_, hstate, nofun⟩
  all_goals decide

variable (herr : 0 ≤ p.errorCode) (herr' : p.errorCode ≤ 999) {rs : List Char} (htext : p.originalText = utf8 rs)
  (hplain : PlainStart rs)

include hid herr herr' htext hplain in
theorem receipt_ascii : ∀ b ∈ formatReceiptText p, b < 0x80 := by
  rw [formatReceiptText_eq, List.forall_mem_append, truncateRunes_originalText htext]
  refine ⟨fun b hb => lt_of_isPlainASCII (receiptHead_plain hid herr herr' b hb), fun b hb => ?_⟩
  exact lt_of_isPlainASCII ((isPlainASCII_utf8_iff _).mpr hplain b hb)

include hid herr herr' htext hplain in
theorem readErrorCode_receipt : readErrorCode (formatReceiptText p) = p.errorCode := by
  have hfind : receiptErrRe.findSubmatch (formatReceiptText p) = some (threeDigits p.errorCode) := by
    have hascii := receipt_ascii hid herr herr' htext hplain
    rw [formatReceiptText_fromErr] at hascii ⊢
    refine findSubmatch_words (.inr rfl) (fun x hx => ?_) hascii fun before hbefore => ?_
    case refine_1 =>
      rcases List.mem_append.mp hx with hx | hx
      case inl => exact passes_headWords hid (.inr ⟨rfl, rfl⟩) x hx
      case inr => exact passes_midWords x hx
    case refine_2 =>
      have hdigits := threeDigits_digits herr herr'
      have hne : threeDigits p.errorCode ≠ [] := fun h => by rw [h] at hdigits; cases hdigits.1
      refine groupAt_cons (lengths_edge hbefore rfl) ?_
      refine groupAt_one rfl (groupAt_one rfl (groupAt_one rfl (groupAt_one rfl ?_)))
      exact groupAt_digits hdigits.2 hne rfl (by rw [hdigits.1]; decide) nofun
  rw [readErrorCode, firstSubmatch_of_digits hfind (threeDigits_digits herr herr').2, atoi_threeDigits herr herr']

include hid herr herr' htext hplain in
theorem readDoneAt_receipt (hdone : date 2000 1 1 0 0 0 ≤ p.doneAt) (hdone' : p.doneAt < date 2069 1 1 0 0 0) (now : Time) :
    readDoneAt now (formatReceiptText p) = p.doneAt / minute * minute := by
  have hdigits := formatMinute_digits p.doneAt
  have hfind : receiptDoneRe.findSubmatch (formatReceiptText p) = some (formatMinute p.doneAt) := by
    have hascii := receipt_ascii hid herr herr' htext hplain
    rw [formatReceiptText_fromDone] at hascii ⊢
    refine findSubmatch_words (.inl rfl) (passes_headWords hid (.inl ⟨rfl, rfl⟩)) hascii fun before hbefore => ?_
    have hne : formatMinute p.doneAt ≠ [] := fun h => by rw [h] at hdigits; cases hdigits.1
    refine groupAt_cons (lengths_edge hbefore rfl) ?_
    refine groupAt_one rfl (groupAt_one rfl (groupAt_one rfl (groupAt_one rfl ?_)))
    refine groupAt_run (w := [bytePiece ' '.toUInt8]) (by decide) rfl (Nat.le_refl _) nofun ?_
    refine groupAt_one rfl (groupAt_one rfl (groupAt_one rfl (groupAt_one rfl (groupAt_one rfl ?_))))
    exact groupAt_digits hdigits.2 hne rfl (by rw [hdigits.1]) (by rw [hdigits.1]; decide)
  have hne : formatMinute p.doneAt ≠ [] := fun h => by rw [h] at hdigits; cases hdigits.1
  have hparse : parseDoneAt (formatMinute p.doneAt) = p.doneAt / minute * minute := by
    rw [parseDoneAt, if_neg hne, parseMinute_formatMinute hdone hdone', Option.some_or, Option.getD_some]
  have hzero : p.doneAt / minute * minute ≠ 0 := by
    have hlarge (t : Int) (h : 60000000000 ≤ t) : t / 60000000000 * 60000000000 ≠ 0 := by omega
    exact hlarge p.doneAt (le_trans (by decide) hdone)
  rw [readDoneAt, firstSubmatch_of_digits hfind hdigits.2, hparse, if_neg hzero]

end Fields

def ReadsBack (now : Time) (p : DLRParams) (text : Str) : Prop :=
  readErrorCode text = p.errorCode ∧ readDoneAt now text = p.doneAt / minute * minute

-- Id and state always come back. The error code and the time come back when the receipt shows plain characters only;
-- otherwise its bytes are read as packed septets, and nothing but chance puts the same fields there.
theorem receipt_read_back_iff {p : DLRParams} {n : UInt64} {rs : List Char} (now : Time)
    (hid : encodeGatewayID n = some p.gatewayID) (hsource : 0x00 ∉ p.sourceAddr) (hdest : 0x00 ∉ p.destAddr)
    (hstate : p.state ∈ receiptStates) (herr : 0 ≤ p.errorCode) (herr' : p.errorCode ≤ 999)
    (hdone : date 2000 1 1 0 0 0 ≤ p.doneAt) (hdone' : p.doneAt < date 2069 1 1 0 0 0)
    (htext : p.originalText = utf8 rs) :
    ∃ dlr, parseDeliverSM now (buildDLR p).body (lit "auto") (lit "auto") = (dlr, true, true) ∧
      dlr.providerID = p.gatewayID ∧ dlr.state = p.state ∧
      (PlainStart rs → dlr.errorCode = p.errorCode ∧ dlr.doneAt = p.doneAt / minute * minute) ∧
      (¬PlainStart rs → (dlr.errorCode = p.errorCode ∧ dlr.doneAt = p.doneAt / minute * minute ↔
        ReadsBack now p (decodeGSM7Packed (formatReceiptText p)))) := by
  have hlen : (formatReceiptText p).length ≤ 255 := by
    have htruncated := length_truncated_le htext
    rw [formatReceiptText_eq, List.length_append, length_receiptHead hid herr herr']
    omega
  refine ⟨_, parseDeliverSM_buildDLR hid hsource hdest hlen hstate now, rfl, rfl, fun hplain => ?_, fun hplain => ?_⟩
  case refine_1 =>
    simp only [decodeSubmitText_plain hid herr herr' htext hplain]
    refine ⟨?_, ?_⟩
    case refine_1 => exact readErrorCode_receipt hid herr herr' htext hplain
    case refine_2 => exact readDoneAt_receipt hid herr herr' htext hplain hdone hdone' now
  case refine_2 =>
    simp only [decodeSubmitText_not_plain hid herr herr' htext hplain]
    exact Iff.rfl

def sampleReceipt (rs : List Char) : DLRParams where
  gatewayID    := lit "m0000001"
  sourceAddr   := lit "1000"
  destAddr     := lit "2000"
  submittedAt  := date 2025 1 31 23 59 0
  doneAt       := date 2025 2 1 0 3 20
  state        := lit "UNDELIV"
  errorCode    := 5
  originalText := utf8 rs

theorem sampleReceipt_id : encodeGatewayID 1 = some (lit "m0000001") := by
  have hone : formatUintBase 1 36 = lit "1" := by simp [formatUintBase]; decide
  rw [encodeGatewayID, hone]
  decide

theorem receipt_read_back_iff_plain :
    ∃ dlr, parseDeliverSM 7 (buildDLR (sampleReceipt ['h', 'i'])).body (lit "auto") (lit "auto") = (dlr, true, true) ∧
      dlr.errorCode = 5 ∧ dlr.doneAt = date 2025 2 1 0 3 0 := by
  obtain ⟨dlr, hparse, -, -, hfields, -⟩ := receipt_read_back_iff (p := sampleReceipt ['h', 'i']) 7 sampleReceipt_id
    (by decide) (by decide) (by decide) (by decide) (by decide) (by decide) (by decide) rfl
  obtain ⟨herr, hdone⟩ := hfields (by decide)
  exact ⟨dlr, hparse, herr, hdone.trans (by decide)⟩

-- One letter with an accent, and neither the error code nor the time comes back: the clock is taken for the time.
theorem accent_loses_fields :
    parseDeliverSM 7 (buildDLR (sampleReceipt ['é'])).body (lit "auto") (lit "auto") =
      ({ providerID := lit "m0000001", state := lit "UNDELIV", errorCode := 0, doneAt := 7 }, true, true) := by
  decide +kernel

end Client

end SmppGateway
