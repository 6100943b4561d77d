import Mathlib.Data.List.Sort
import SmppGateway.Message.Split

-- `Join` of `internal/message/message.go`, and that it undoes `Split` whatever order the segments arrive in.

namespace SmppGateway

open Go

-- The inner loop of `Join`: the segment sinks past those of a higher part. The segments before it are held
-- last one first.
def sink (segment : Segment) : List Segment → List Segment
  | []             => [segment]
  | other :: above =>
    if segment.part < other.part then other :: sink segment above else segment :: other :: above

def ordered (segments : List Segment) : List Segment :=
  (segments.foldl (fun before segment => sink segment before) []).reverse

def join (segments : List Segment) : Str :=
  (ordered segments).flatMap (·.text)

theorem sink_eq_orderedInsert (segment : Segment) (l : List Segment) :
    sink segment l = l.orderedInsert (fun a b => b.part ≤ a.part) segment := by
  induction l
  case nil => rfl
  case cons other above hi =>
    rw [sink, List.orderedInsert_cons, hi]
    by_cases h : segment.part < other.part
    case pos => rw [if_pos h, if_neg (by omega)]
    case neg => rw [if_neg h, if_pos (by omega)]

theorem ordered_eq_insertionSort (segments : List Segment) :
    ordered segments = (segments.reverse.insertionSort fun a b => b.part ≤ a.part).reverse := by
  simp only [ordered, List.insertionSort, sink_eq_orderedInsert, List.foldr_reverse]

theorem ordered_perm (segments : List Segment) : (ordered segments).Perm segments := by
  rw [ordered_eq_insertionSort]
  exact (List.reverse_perm _).trans ((List.perm_insertionSort _ _).trans (List.reverse_perm _))

theorem ordered_sorted (segments : List Segment) : (ordered segments).Pairwise (·.part ≤ ·.part) := by
  have : Std.Total fun a b : Segment => b.part ≤ a.part := ⟨fun a b => Nat.le_total b.part a.part⟩
  have : IsTrans Segment fun a b => b.part ≤ a.part := ⟨fun _ _ _ h h' => Nat.le_trans h' h⟩
  rw [ordered_eq_insertionSort, List.pairwise_reverse]
  exact List.pairwise_insertionSort _ _

theorem ordered_eq_of_numbered {segments shuffled : List Segment} (hperm : shuffled.Perm segments)
    (hnumbered : ∀ i segment, segments[i]? = some segment → segment.part = i + 1) : ordered shuffled = segments := by
  have hsorted : segments.Pairwise (·.part ≤ ·.part) := by
    rw [List.pairwise_iff_getElem]
    intro i j hi hj hlt
    rw [hnumbered i _ (List.getElem?_eq_getElem hi), hnumbered j _ (List.getElem?_eq_getElem hj)]
    omega
  have hdistinct : ∀ a b, a ∈ segments → b ∈ segments → a.part = b.part → a = b := by
    intro a b ha hb heq
    obtain ⟨i, hi⟩ := List.getElem?_of_mem ha
    obtain ⟨j, hj⟩ := List.getElem?_of_mem hb
    rw [hnumbered i a hi, hnumbered j b hj] at heq
    obtain rfl : i = j := by omega
    exact Option.some.inj (hi.symm.trans hj)
  have hall := (ordered_perm shuffled).trans hperm
  refine hall.eq_of_pairwise (fun a b ha hb hab hba => ?_) (ordered_sorted shuffled) hsorted
  exact hdistinct a b (hall.mem_iff.mp ha) hb (Nat.le_antisymm hab hba)

inductive Coding
  | gsm7
  | ucs2
  | eightBit
  deriving DecidableEq, Repr

namespace Coding

def name : Coding → Str
  | gsm7     => lit "gsm7"
  | ucs2     => lit "ucs2"
  | eightBit => lit "8bit"

-- What a rune is sent as: septets, with the escape in front of an extension character, UTF-16 units, one octet.
def units : Coding → Char → List Nat
  | gsm7, r     => (gsm7Septets r).map UInt8.toNat
  | ucs2, r     => utf16Units r
  | eightBit, r => [r.toNat]

def Opens : Coding → Nat → Prop
  | gsm7, u     => u = 0x1B
  | ucs2, u     => isHighSurrogate u
  | eightBit, _ => False

def singleLimit : Coding → Nat
  | gsm7     => 160
  | ucs2     => 70
  | eightBit => 140

def concatLimit : Coding → Nat
  | gsm7     => 153
  | ucs2     => 67
  | eightBit => 134

def Chosen (coding : Coding) (encoding text : Str) : Prop :=
  equalFold encoding coding.name ∨ encoding = lit "auto" ∧ detectEncoding text = coding.name

end Coding

theorem equalFold_congr {s t : Str} (h : equalFold s t) (u : Str) : equalFold s u = equalFold t u := by
  have hmap : (runes s).map fold = (runes t).map fold := of_decide_eq_true h
  simp only [equalFold, hmap]

theorem splitRule_congr {s t : Str} (h : equalFold s t) : splitRule s = splitRule t := by
  simp only [splitRule, equalFold_congr h]

theorem runeLen_name (coding : Coding) (r : Char) : runeLen coding.name r = (coding.units r).length := by
  cases coding
  case gsm7 =>
    change gsm7RuneLen r = _
    rw [Coding.units, List.length_map, length_gsm7Septets, gsm7RuneLen]
  case ucs2 =>
    change utf16RuneLen r = _
    simp only [utf16RuneLen, Coding.units, utf16Units]
    split <;> rfl
  case eightBit => rfl

theorem singleLimit_name (coding : Coding) : (splitRule coding.name).singleLimit = coding.singleLimit := by
  cases coding <;> rfl

theorem concatLimit_name (coding : Coding) : (splitRule coding.name).concatLimit = coding.concatLimit := by
  cases coding <;> rfl

theorem Coding.Chosen.equalFold {coding : Coding} {encoding text : Str} (h : coding.Chosen encoding text) :
    equalFold (resolveEncoding encoding text) coding.name := by
  unfold resolveEncoding
  rcases h with h | ⟨rfl, h⟩
  case inl =>
    have hgiven : ¬(encoding = [] ∨ encoding = lit "auto") := by
      rintro (rfl | rfl)
      case inl => cases coding <;> revert h <;> decide
      case inr => cases coding <;> revert h <;> decide
    rwa [if_neg hgiven]
  case inr => rw [if_pos (.inr rfl), h]; simp [Go.equalFold]

theorem split_short {ref : UInt16} {text encoding : Str} (h : (splitRule (resolveEncoding encoding text)).textLen text ≤
      (splitRule (resolveEncoding encoding text)).singleLimit) :
    split ref text { forceEncoding := encoding } = [{ part := 1, total := 1, text }] := by
  simp only [split, if_pos h]

theorem mem_split_long {ref : UInt16} {text encoding : Str} {segment : Segment}
    (h : ¬(splitRule (resolveEncoding encoding text)).textLen text ≤
      (splitRule (resolveEncoding encoding text)).singleLimit)
    (hm : segment ∈ split ref text { forceEncoding := encoding }) :
    segment.text ∈ (splitRule (resolveEncoding encoding text)).chunk text
      (splitRule (resolveEncoding encoding text)).concatLimit := by
  simp only [split, if_neg h] at hm
  obtain ⟨⟨chunk, i⟩, hi, rfl⟩ := List.mem_map.mp hm
  exact List.fst_mem_of_mem_zipIdx hi

theorem ChunkLoop.foldl_chunks_ne_nil {size : Char → Nat} {limit : Nat} (rs : List Char) (l : ChunkLoop)
    (hused : l.used = unitLen size l.b) (hl : ∀ c ∈ l.chunks, c ≠ []) :
    ∀ c ∈ (rs.foldl (ChunkLoop.next size limit) l).chunks, c ≠ [] := by
  induction rs generalizing l
  case nil => exact hl
  case cons r rs hi =>
    refine hi _ ?_ ?_
    case refine_1 =>
      unfold ChunkLoop.next
      split <;> simp [unitLen, hused]
    case refine_2 =>
      unfold ChunkLoop.next
      split
      case isFalse => exact hl
      case isTrue hfull =>
        -- The buffer that is put away has been used.
        have hb : l.b ≠ [] := by
          rintro hb
          rw [hused, hb] at hfull
          exact absurd hfull.1 (by simp [unitLen])
        exact List.forall_mem_append.mpr ⟨hl, List.forall_mem_singleton.mpr hb⟩

theorem chunkBy_ne_nil {size : Char → Nat} {limit : Nat} {text c : Str} (hc : c ∈ chunkBy size limit text) :
    runes c ≠ [] := by
  have hchunks := @ChunkLoop.foldl_chunks_ne_nil size limit (runes text) {} rfl (by simp)
  obtain ⟨rs, hm, rfl⟩ := List.mem_map.mp hc
  rw [runes_utf8]
  split at hm
  case isFalse => exact hchunks rs hm
  case isTrue hb =>
    rcases List.mem_append.mp hm with hm | hm
    case inl => exact hchunks rs hm
    case inr => rwa [List.mem_singleton.mp hm]

theorem chunkRunes.go_ne_nil {limit fuel : Nat} (hlimit : 0 < limit) {rs c : List Char}
    (hc : c ∈ chunkRunes.go limit fuel rs) : c ≠ [] := by
  induction fuel generalizing rs
  case zero => simp [chunkRunes.go] at hc
  case succ fuel hi =>
    cases rs
    case nil => simp [chunkRunes.go] at hc
    case cons r rs =>
      rcases List.mem_cons.mp hc with rfl | hc
      case inl => simp [List.take_eq_nil_iff]; omega
      case inr => exact hi hc

theorem chunk_runes {coding : Coding} {text c : Str}
    (hc : c ∈ (splitRule coding.name).chunk text (splitRule coding.name).concatLimit) :
    c = utf8 (runes c) ∧ runes c ≠ [] := by
  have hutf8 {rs : List (List Char)} (hm : c ∈ rs.map utf8) : c = utf8 (runes c) := by
    obtain ⟨rs, -, rfl⟩ := List.mem_map.mp hm
    rw [runes_utf8]
  cases coding
  case gsm7 => exact ⟨hutf8 hc, chunkBy_ne_nil hc⟩
  case ucs2 => exact ⟨hutf8 hc, chunkBy_ne_nil hc⟩
  case eightBit =>
    refine ⟨hutf8 hc, ?_⟩
    obtain ⟨rs, hm, rfl⟩ := List.mem_map.mp hc
    rw [runes_utf8]
    exact chunkRunes.go_ne_nil (by decide) hm

theorem gsm7Septets_getLast (r : Char) : (gsm7Septets r).getLast? ≠ some 0x1B := by
  have hext : ∀ e ∈ gsm7ExtToRune, e.1 ≠ 0x1B := by decide
  unfold gsm7Septets
  cases hcode : gsm7DefaultCodes r
  case some code => simpa using ne_escape_of_code hcode
  case none =>
    cases hr : gsm7RuneToExt r
    case none => decide
    case some code =>
      obtain ⟨e, he, rfl⟩ := Option.map_eq_some_iff.mp hr
      simpa using hext e (List.mem_of_find?_eq_some he)

theorem units_getLast (coding : Coding) {r : Char} {u : Nat} (h : (coding.units r).getLast? = some u) :
    ¬coding.Opens u := by
  cases coding
  case eightBit => exact id
  case gsm7 =>
    rintro rfl
    simp only [Coding.units, List.getLast?_map] at h
    obtain ⟨code, hcode, heq⟩ := Option.map_eq_some_iff.mp h
    obtain rfl : code = 0x1B := UInt8.toNat_inj.mp heq
    exact gsm7Septets_getLast r hcode
  case ucs2 =>
    have hvalid : r.toNat < 0xD800 ∨ 0xDFFF < r.toNat ∧ r.toNat < 0x110000 := r.valid
    simp only [Coding.units, utf16Units] at h
    simp only [Coding.Opens, isHighSurrogate, Bool.and_eq_true, decide_eq_true_eq]
    split at h
    case isTrue => simp at h; omega
    case isFalse => simp at h; omega

theorem units_ne_nil (coding : Coding) (r : Char) : coding.units r ≠ [] := by
  rw [← List.length_pos_iff, ← runeLen_name]
  exact runeLen_pos coding.name r

theorem flatMap_units_getLast (coding : Coding) (rs : List Char) {u : Nat}
    (h : (rs.flatMap coding.units).getLast? = some u) : ¬coding.Opens u := by
  rcases List.eq_nil_or_concat' rs with rfl | ⟨front, r, rfl⟩
  case inl => cases h
  case inr =>
    rw [List.flatMap_append, List.flatMap_singleton, List.getLast?_append_of_ne_nil _ (units_ne_nil coding r)] at h
    exact units_getLast coding h

def Coding.size (coding : Coding) (rs : List Char) : Nat :=
  (rs.flatMap coding.units).length

structure Part (coding : Coding) (ref : UInt16) (segment : Segment) : Prop where
  text      : segment.text ≠ []
  size      : coding.size (runes segment.text) ≤ coding.concatLimit
  udh       : segment.udh.length = 6
  reference : segment.reference = ref ∧ segment.udh[3]? = some ref.toUInt8
  whole     : ∀ u, ((runes segment.text).flatMap coding.units).getLast? = some u → ¬coding.Opens u

structure Segmented (coding : Coding) (ref : UInt16) (rs : List Char) (segments : List Segment) : Prop where
  nonempty : 1 ≤ segments.length
  numbered : ∀ i segment, segments[i]? = some segment → segment.part = i + 1 ∧ segment.total = segments.length
  joins    : ∀ shuffled, shuffled.Perm segments → join shuffled = utf8 rs
  single   : segments.length = 1 ↔ coding.size rs ≤ coding.singleLimit
  units    : segments.flatMap (fun segment => (runes segment.text).flatMap coding.units) = rs.flatMap coding.units
  parts    : segments.length ≠ 1 → ∀ segment ∈ segments, Part coding ref segment

theorem Coding.size_eq (coding : Coding) (rs : List Char) : coding.size rs = unitLen (runeLen coding.name) rs := by
  simp only [Coding.size, unitLen, List.length_flatMap, ← runeLen_name]

theorem utf8_flatMap {α : Type} (f : α → List Char) (l : List α) : utf8 (l.flatMap f) = l.flatMap fun x => utf8 (f x) := by
  simp only [utf8, List.flatMap_assoc]

section Split

variable {coding : Coding} {encoding : Str} {rs : List Char} (h : coding.Chosen encoding (utf8 rs)) (ref : UInt16)
include h

theorem Coding.Chosen.rule : splitRule (resolveEncoding encoding (utf8 rs)) = splitRule coding.name :=
  splitRule_congr h.equalFold

theorem Coding.Chosen.cuts :
    (splitRule (resolveEncoding encoding (utf8 rs))).Cuts (runeLen coding.name) := by
  rw [h.rule]
  exact splitRule_cuts coding.name

theorem Coding.Chosen.textLen :
    (splitRule (resolveEncoding encoding (utf8 rs))).textLen (utf8 rs) = coding.size rs := by
  rw [h.cuts.textLen, runes_utf8, coding.size_eq]

theorem length_split_eq_one :
    (split ref (utf8 rs) { forceEncoding := encoding }).length = 1 ↔ coding.size rs ≤ coding.singleLimit := by
  rw [length_split_eq_one_iff, h.textLen, h.rule, singleLimit_name]

theorem split_one (hone : (split ref (utf8 rs) { forceEncoding := encoding }).length = 1) :
    split ref (utf8 rs) { forceEncoding := encoding } = [{ part := 1, total := 1, text := utf8 rs }] := by
  apply split_short
  rw [h.textLen, h.rule, singleLimit_name]
  exact (length_split_eq_one h ref).mp hone

theorem split_several (hmany : (split ref (utf8 rs) { forceEncoding := encoding }).length ≠ 1) {segment : Segment}
    (hm : segment ∈ split ref (utf8 rs) { forceEncoding := encoding }) :
    segment.text = utf8 (runes segment.text) ∧ runes segment.text ≠ [] := by
  have hlong : ¬(splitRule (resolveEncoding encoding (utf8 rs))).textLen (utf8 rs) ≤
      (splitRule (resolveEncoding encoding (utf8 rs))).singleLimit := by
    rw [h.textLen, h.rule, singleLimit_name]
    exact mt (length_split_eq_one h ref).mpr hmany
  have hchunk := mem_split_long hlong hm
  rw [h.rule] at hchunk
  exact chunk_runes hchunk

theorem split_parts_numbered {i : Nat} {segment : Segment}
    (hi : (split ref (utf8 rs) { forceEncoding := encoding })[i]? = some segment) :
    segment.part = i + 1 ∧ segment.total = (split ref (utf8 rs) { forceEncoding := encoding }).length := by
  by_cases hone : (split ref (utf8 rs) { forceEncoding := encoding }).length = 1
  case pos =>
    rw [split_one h ref hone] at hi ⊢
    cases i
    case zero => cases hi; exact ⟨rfl, rfl⟩
    case succ => cases hi
  case neg =>
    have hpos := List.length_pos_iff.mpr (split_ne_nil ref (utf8 rs) { forceEncoding := encoding })
    obtain ⟨-, hpart, htotal, -⟩ := split_numbered (by omega) hi
    exact ⟨hpart, htotal⟩

theorem flatMap_text_split :
    (split ref (utf8 rs) { forceEncoding := encoding }).flatMap (·.text) = utf8 rs := by
  by_cases hone : (split ref (utf8 rs) { forceEncoding := encoding }).length = 1
  case pos =>
    rw [split_one h ref hone]
    exact List.flatMap_singleton ..
  case neg =>
    have hwhole := @flatMap_runes_split ref _ _ _ h.cuts
    have htext := List.flatMap_congr fun segment hm => (@split_several _ _ _ h ref hone segment hm).1
    rw [htext, ← utf8_flatMap, hwhole, runes_utf8]

theorem join_split {shuffled : List Segment} (hperm : shuffled.Perm (split ref (utf8 rs) { forceEncoding := encoding })) :
    join shuffled = utf8 rs := by
  have hordered := ordered_eq_of_numbered hperm fun i segment hi => (split_parts_numbered h ref hi).1
  rw [join, hordered, flatMap_text_split h ref]

theorem split_part (hmany : (split ref (utf8 rs) { forceEncoding := encoding }).length ≠ 1) {segment : Segment}
    (hm : segment ∈ split ref (utf8 rs) { forceEncoding := encoding }) : Part coding ref segment := by
  obtain ⟨htext, hrunes⟩ := split_several h ref hmany hm
  have hpos := List.length_pos_iff.mpr (split_ne_nil ref (utf8 rs) { forceEncoding := encoding })
  have hlen : 1 < (split ref (utf8 rs) { forceEncoding := encoding }).length := by omega
  obtain ⟨i, hi⟩ := List.getElem?_of_mem hm
  obtain ⟨href, -, -, hudh⟩ := split_numbered hlen hi
  refine ⟨?_, ?_, by rw [hudh]; rfl, ⟨href, by rw [hudh]; rfl⟩, fun u => flatMap_units_getLast coding _⟩
  case refine_1 =>
    rintro hnil
    rw [hnil] at hrunes
    exact hrunes rfl
  case refine_2 =>
    have hle := unitLen_part h.cuts hlen hm
    rwa [← coding.size_eq, h.rule, concatLimit_name] at hle

end Split

theorem split_segmented {coding : Coding} {encoding : Str} {rs : List Char} (h : coding.Chosen encoding (utf8 rs))
    (ref : UInt16) : Segmented coding ref rs (split ref (utf8 rs) { forceEncoding := encoding }) where
  nonempty := List.length_pos_iff.mpr (split_ne_nil ref (utf8 rs) { forceEncoding := encoding })
  numbered i segment hi := split_parts_numbered h ref hi
  joins shuffled hperm := join_split h ref hperm
  single := length_split_eq_one h ref
  units := by
    have hwhole := @flatMap_runes_split ref _ _ _ h.cuts
    rw [runes_utf8] at hwhole
    rw [← List.flatMap_assoc, hwhole]
  parts hmany segment hm := split_part h ref hmany hm

theorem split_segmented_euros :
    Segmented .ucs2 7 (List.replicate 200 '€') (split 7 (utf8 (List.replicate 200 '€')) { forceEncoding := lit "Ucs2" }) :=
  split_segmented (.inl (by decide)) 7

end SmppGateway
