import Mathlib.Algebra.Order.BigOperators.Group.List
import Mathlib.Algebra.Order.Ring.Nat
import SmppGateway.Message.Basic
import SmppGateway.Message.Codec

-- Splitting a text into segments (`internal/message/message.go`).

namespace SmppGateway

open Go

def isGSM7Basic (r : Char) : Bool :=
  (gsm7DefaultCodes r).isSome || (gsm7RuneToExt r).isSome

def detectEncoding (text : Str) : Str :=
  if (runes text).all isGSM7Basic then lit "gsm7" else lit "ucs2"

def gsm7RuneLen (r : Char) : Nat :=
  if (gsm7RuneToExt r).isSome then 2 else 1

-- `utf16.RuneLen` of a rune that is not a surrogate
def utf16RuneLen (r : Char) : Nat :=
  if r.toNat < 0x10000 then 1 else 2

def gsm7SeptetLen (text : Str) : Nat :=
  ((runes text).map gsm7RuneLen).sum

def ucs2UnitLen (text : Str) : Nat :=
  ((runes text).map utf16RuneLen).sum

structure ChunkLoop where
  chunks : List (List Char) := []
  b      : List Char := []
  used   : Nat := 0

def ChunkLoop.next (size : Char → Nat) (limit : Nat) (l : ChunkLoop) (r : Char) : ChunkLoop :=
  let l := if 0 < l.used ∧ limit < l.used + size r then { chunks := l.chunks ++ [l.b] } else l
  { l with b := l.b ++ [r], used := l.used + size r }

def chunkBy (size : Char → Nat) (limit : Nat) (text : Str) : List Str :=
  let l := (runes text).foldl (ChunkLoop.next size limit) {}
  (if l.b ≠ [] then l.chunks ++ [l.b] else l.chunks).map utf8

def chunkGSM7 (text : Str) (limit : Nat) : List Str :=
  chunkBy gsm7RuneLen limit text

def chunkUCS2 (text : Str) (limit : Nat) : List Str :=
  chunkBy utf16RuneLen limit text

def chunkRunes (text : Str) (limit : Nat) : List Str :=
  (go (runes text).length (runes text)).map utf8
where
  go : Nat → List Char → List (List Char)
    | 0, _ | _, []      => []
    | fuel + 1, r :: rs => (r :: rs).take limit :: go fuel ((r :: rs).drop limit)

def concatUDH (ref : UInt16) (part total : Nat) : List UInt8 :=
  [0x05, 0x00, 0x03, ref.toUInt8, UInt8.ofNat total, UInt8.ofNat part]

structure SplitOptions where
  forceEncoding : Str := []

structure SplitRule where
  singleLimit : Nat
  concatLimit : Nat
  textLen     : Str → Nat
  chunk       : Str → Nat → List Str

def splitRule (encoding : Str) : SplitRule where
  singleLimit :=
    if equalFold encoding (lit "8bit") then 140 else if equalFold encoding (lit "ucs2") then 70 else 160
  concatLimit :=
    if equalFold encoding (lit "8bit") then 134 else if equalFold encoding (lit "ucs2") then 67 else 153
  textLen text :=
    if equalFold encoding (lit "gsm7") then
      gsm7SeptetLen text
    else if equalFold encoding (lit "ucs2") then
      ucs2UnitLen text
    else
      (runes text).length
  chunk text limit :=
    if equalFold encoding (lit "gsm7") then
      chunkGSM7 text limit
    else if equalFold encoding (lit "ucs2") then
      chunkUCS2 text limit
    else
      chunkRunes text limit

def resolveEncoding (encoding text : Str) : Str :=
  if encoding = [] ∨ encoding = lit "auto" then detectEncoding text else encoding

def split (ref : UInt16) (text : Str) (opts : SplitOptions) : List Segment :=
  let rule := splitRule (resolveEncoding opts.forceEncoding text)
  if rule.textLen text ≤ rule.singleLimit then
    [{ part := 1, total := 1, text }]
  else
    let chunks := rule.chunk text rule.concatLimit
    chunks.zipIdx.map fun (chunk, i) =>
      { reference := ref, part := i + 1, total := chunks.length, text := chunk
        udh := concatUDH ref (i + 1) chunks.length }

def unitLen (size : Char → Nat) (rs : List Char) : Nat :=
  (rs.map size).sum

structure ChunkLoop.Within (size : Char → Nat) (limit : Nat) (l : ChunkLoop) : Prop where
  used   : l.used = unitLen size l.b
  b      : l.used ≤ limit
  chunks : ∀ c ∈ l.chunks, unitLen size c ≤ limit

theorem ChunkLoop.Within.next {size : Char → Nat} {limit : Nat} {l : ChunkLoop} {r : Char}
    (h : l.Within size limit) (hr : size r ≤ limit) : (l.next size limit r).Within size limit := by
  unfold ChunkLoop.next
  have hu := h.used
  split
  case isTrue hc =>
    refine ⟨by simp [unitLen], by simpa using hr, fun c hm => ?_⟩
    rcases List.mem_append.mp hm with hm | hm
    case inl => exact h.chunks c hm
    case inr => rw [List.mem_singleton.mp hm, ← hu]; exact h.b
  case isFalse hc =>
    refine ⟨by simp [unitLen, hu], ?_, h.chunks⟩
    simp only
    omega

theorem unitLen_chunkBy {size : Char → Nat} {limit : Nat} {text : Str} (hs : ∀ r, size r ≤ limit)
    {c : Str} (hc : c ∈ chunkBy size limit text) : unitLen size (runes c) ≤ limit := by
  have h : ∀ (rs : List Char) (l : ChunkLoop), l.Within size limit →
      (rs.foldl (ChunkLoop.next size limit) l).Within size limit := by
    intro rs
    induction rs
    case nil => exact fun l h => h
    case cons r rs hi => exact fun l h => hi _ (h.next (hs r))
  have hw := h (runes text) {} ⟨rfl, Nat.zero_le _, by simp⟩
  obtain ⟨rs, hm, rfl⟩ := List.mem_map.mp hc
  rw [runes_utf8]
  split at hm
  case isTrue =>
    rcases List.mem_append.mp hm with hm | hm
    case inl => exact hw.chunks rs hm
    case inr => rw [List.mem_singleton.mp hm, ← hw.used]; exact hw.b
  case isFalse => exact hw.chunks rs hm

def ChunkLoop.read (l : ChunkLoop) : List Char :=
  l.chunks.flatten ++ l.b

theorem ChunkLoop.read_next {size : Char → Nat} {limit : Nat} {l : ChunkLoop} {r : Char} :
    (l.next size limit r).read = l.read ++ [r] := by
  unfold ChunkLoop.next
  split <;> simp [read]

theorem flatMap_runes_chunkBy (size : Char → Nat) (limit : Nat) (text : Str) :
    (chunkBy size limit text).flatMap runes = runes text := by
  have h (rs : List Char) (l : ChunkLoop) :
      (rs.foldl (ChunkLoop.next size limit) l).read = l.read ++ rs := by
    induction rs generalizing l
    case nil => simp
    case cons r rs hi => rw [List.foldl_cons, hi, ChunkLoop.read_next, List.append_assoc, List.singleton_append]
  have hread := h (runes text) {}
  simp only [ChunkLoop.read, List.flatten_nil, List.nil_append] at hread
  rw [chunkBy]
  simp only [List.flatMap_map, runes_utf8]
  split
  case isTrue => simpa using hread
  case isFalse hb => rw [not_not.mp hb, List.append_nil] at hread; simpa using hread

theorem unitLen_flatMap {α : Type} (size : Char → Nat) (f : α → List Char) (l : List α) :
    unitLen size (l.flatMap f) = (l.map fun x => unitLen size (f x)).sum := by
  induction l
  case nil => rfl
  case cons x l hi => rw [List.flatMap_cons, List.map_cons, List.sum_cons, ← hi]; simp [unitLen]

theorem unitLen_gsm7 (text : Str) :
    unitLen gsm7RuneLen (runes text) = (encodeGSM7Unpacked text).length := by
  simp only [unitLen, encodeGSM7Unpacked, List.length_flatMap, length_gsm7Septets]
  rfl

theorem unitLen_ucs2 (text : Str) :
    2 * unitLen utf16RuneLen (runes text) = (encodeText text 0x08).length := by
  rw [encodeText, if_pos rfl, length_flatMap_bytesOfUnit, List.length_flatMap, unitLen]
  congr 3
  funext r
  unfold utf16RuneLen utf16Units
  split <;> rfl

structure SplitRule.Counts (rule : SplitRule) (size : Char → Nat) : Prop where
  textLen : ∀ text, rule.textLen text = unitLen size (runes text)
  chunk   : ∀ text limit, rule.chunk text limit = chunkBy size limit text
  fits    : ∀ r, size r ≤ rule.concatLimit
  limits  : rule.concatLimit ≤ rule.singleLimit

theorem splitRule_gsm7 (text : Str) :
    (splitRule (resolveEncoding (lit "gsm7") text)).Counts gsm7RuneLen := by
  change (splitRule (lit "gsm7")).Counts gsm7RuneLen
  exact {
    textLen := fun _ => rfl
    chunk   := fun _ _ => rfl
    fits    := fun r => by unfold gsm7RuneLen; split <;> decide
    limits  := by decide }

theorem singleLimit_gsm7 (text : Str) : (splitRule (resolveEncoding (lit "gsm7") text)).singleLimit = 160 := by
  change (splitRule (lit "gsm7")).singleLimit = 160
  decide

theorem splitRule_ucs2 (text : Str) :
    (splitRule (resolveEncoding (lit "ucs2") text)).Counts utf16RuneLen := by
  change (splitRule (lit "ucs2")).Counts utf16RuneLen
  exact {
    textLen := fun _ => rfl
    chunk   := fun _ _ => rfl
    fits    := fun r => by unfold utf16RuneLen; split <;> decide
    limits  := by decide }

theorem chunkRunes.go_flatten {limit : Nat} (hl : 0 < limit) (fuel : Nat) (rs : List Char) (hf : rs.length ≤ fuel) :
    (chunkRunes.go limit fuel rs).flatten = rs := by
  induction fuel generalizing rs
  case zero => simp [chunkRunes.go, List.length_eq_zero_iff.mp (Nat.le_zero.mp hf)]
  case succ fuel hi =>
    cases rs
    case nil => rfl
    case cons r rs =>
      have hlen : ((r :: rs).drop limit).length ≤ fuel := by
        simp only [List.length_drop, List.length_cons] at hf ⊢
        omega
      rw [chunkRunes.go, List.flatten_cons, hi _ hlen, List.take_append_drop]

theorem chunkRunes.go_length {limit fuel : Nat} {rs c : List Char} (hc : c ∈ chunkRunes.go limit fuel rs) :
    c.length ≤ limit := by
  induction fuel generalizing rs
  case zero => simp [chunkRunes.go] at hc
  case succ fuel hi =>
    cases rs
    case nil => simp [chunkRunes.go] at hc
    case cons r rs =>
      rcases List.mem_cons.mp hc with rfl | hc
      case inl => exact List.length_take_le _ _
      case inr => exact hi hc

def runeLen (encoding : Str) : Char → Nat :=
  if equalFold encoding (lit "gsm7") then
    gsm7RuneLen
  else if equalFold encoding (lit "ucs2") then
    utf16RuneLen
  else
    fun _ => 1

theorem runeLen_pos (encoding : Str) (r : Char) : 1 ≤ runeLen encoding r := by
  unfold runeLen
  split
  case isTrue => unfold gsm7RuneLen; split <;> omega
  case isFalse =>
    split
    case isTrue => unfold utf16RuneLen; split <;> omega
    case isFalse => exact Nat.le_refl 1

structure SplitRule.Cuts (rule : SplitRule) (size : Char → Nat) : Prop where
  textLen : ∀ text, rule.textLen text = unitLen size (runes text)
  whole   : ∀ text, (rule.chunk text rule.concatLimit).flatMap runes = runes text
  within  : ∀ text, ∀ c ∈ rule.chunk text rule.concatLimit, unitLen size (runes c) ≤ rule.concatLimit
  limits  : rule.concatLimit ≤ rule.singleLimit

theorem SplitRule.Counts.cuts {rule : SplitRule} {size : Char → Nat} (h : rule.Counts size) : rule.Cuts size where
  textLen        := h.textLen
  whole text     := by rw [h.chunk, flatMap_runes_chunkBy]
  within text c  := by
    rw [h.chunk]
    exact unitLen_chunkBy h.fits
  limits         := h.limits

theorem splitRule_limits (encoding : Str) :
    2 ≤ (splitRule encoding).concatLimit ∧ (splitRule encoding).concatLimit ≤ (splitRule encoding).singleLimit ∧
      (splitRule encoding).singleLimit ≤ 160 := by
  unfold splitRule
  dsimp only
  split_ifs <;> decide

theorem splitRule_cuts (encoding : Str) : (splitRule encoding).Cuts (runeLen encoding) := by
  obtain ⟨hpos, hlimits, -⟩ := splitRule_limits encoding
  by_cases hg : equalFold encoding (lit "gsm7")
  case pos =>
    refine SplitRule.Counts.cuts ⟨fun text => ?_, fun text limit => ?_, fun r => ?_, hlimits⟩
    case refine_1 => simp only [splitRule, runeLen, hg, if_true, gsm7SeptetLen, unitLen]
    case refine_2 => simp only [splitRule, runeLen, hg, if_true, chunkGSM7]
    case refine_3 =>
      simp only [runeLen, hg, if_true, gsm7RuneLen]
      split <;> omega
  case neg =>
    by_cases hu : equalFold encoding (lit "ucs2")
    case pos =>
      refine SplitRule.Counts.cuts ⟨fun text => ?_, fun text limit => ?_, fun r => ?_, hlimits⟩
      case refine_1 => simp only [splitRule, runeLen, if_neg hg, hu, if_true, ucs2UnitLen, unitLen]
      case refine_2 => simp only [splitRule, runeLen, if_neg hg, hu, if_true, chunkUCS2]
      case refine_3 =>
        simp only [runeLen, if_neg hg, hu, if_true, utf16RuneLen]
        split <;> omega
    case neg =>
      have hone (rs : List Char) : unitLen (fun _ => 1) rs = rs.length := by simp [unitLen]
      have hchunk (text : Str) (limit : Nat) : (splitRule encoding).chunk text limit = chunkRunes text limit := by
        simp only [splitRule, if_neg hg, if_neg hu]
      have hsize : runeLen encoding = fun _ => 1 := by simp only [runeLen, if_neg hg, if_neg hu]
      refine ⟨fun text => ?_, fun text => ?_, fun text c hc => ?_, hlimits⟩
      case refine_1 => simp only [splitRule, hsize, if_neg hg, if_neg hu, hone]
      case refine_2 =>
        rw [hchunk, chunkRunes, List.flatMap_map]
        simp only [runes_utf8, List.flatMap_id']
        exact chunkRunes.go_flatten (by omega) _ _ (Nat.le_refl _)
      case refine_3 =>
        rw [hchunk] at hc
        obtain ⟨rs, hrs, rfl⟩ := List.mem_map.mp hc
        rw [hsize, hone, runes_utf8]
        exact chunkRunes.go_length hrs

theorem detectEncoding_cases (text : Str) :
    detectEncoding text = lit "gsm7" ∨ detectEncoding text = lit "ucs2" := by
  unfold detectEncoding
  split
  case isTrue => exact .inl rfl
  case isFalse => exact .inr rfl

theorem length_split (ref ref' : UInt16) (text : Str) (opts : SplitOptions) :
    (split ref text opts).length = (split ref' text opts).length := by
  unfold split
  simp only
  split <;> simp

theorem split_numbered {ref : UInt16} {text : Str} {opts : SplitOptions} {i : Nat} {segment : Segment}
    (h : 1 < (split ref text opts).length) (hi : (split ref text opts)[i]? = some segment) :
    segment.reference = ref ∧ segment.part = i + 1 ∧ segment.total = (split ref text opts).length ∧
    segment.udh = concatUDH ref (i + 1) (split ref text opts).length := by
  revert h hi
  unfold split
  simp only
  split
  case isTrue => simp
  case isFalse =>
    intro _ hi
    rw [List.getElem?_map] at hi
    obtain ⟨⟨chunk, j⟩, hj, rfl⟩ := Option.map_eq_some_iff.mp hi
    rw [List.getElem?_zipIdx] at hj
    obtain ⟨_, _, he⟩ := Option.map_eq_some_iff.mp hj
    cases he
    simp

section Split

variable {ref : UInt16} {text : Str} {encoding : Str} {size : Char → Nat}
  (hc : (splitRule (resolveEncoding encoding text)).Cuts size)
include hc

theorem unitLen_segment {segment : Segment} (hs : segment ∈ split ref text { forceEncoding := encoding }) :
    unitLen size (runes segment.text) ≤ (splitRule (resolveEncoding encoding text)).singleLimit := by
  unfold split at hs
  simp only at hs
  split at hs
  case isTrue h => rw [List.mem_singleton.mp hs, ← hc.textLen]; exact h
  case isFalse =>
    obtain ⟨⟨chunk, i⟩, hm, rfl⟩ := List.mem_map.mp hs
    exact (hc.within text _ (List.fst_mem_of_mem_zipIdx hm)).trans hc.limits

theorem unitLen_part (hlen : 1 < (split ref text { forceEncoding := encoding }).length) {segment : Segment}
    (hs : segment ∈ split ref text { forceEncoding := encoding }) :
    unitLen size (runes segment.text) ≤ (splitRule (resolveEncoding encoding text)).concatLimit := by
  unfold split at hlen hs
  simp only at hlen hs
  split at hs
  case isTrue h => simp [if_pos h] at hlen
  case isFalse =>
    obtain ⟨⟨chunk, i⟩, hm, rfl⟩ := List.mem_map.mp hs
    exact hc.within text _ (List.fst_mem_of_mem_zipIdx hm)

theorem flatMap_runes_split :
    (split ref text { forceEncoding := encoding }).flatMap (fun segment => runes segment.text) = runes text := by
  unfold split
  simp only
  split
  case isTrue => simp
  case isFalse =>
    rw [List.flatMap_map]
    generalize hl : (splitRule (resolveEncoding encoding text)).chunk text
      (splitRule (resolveEncoding encoding text)).concatLimit = chunks
    have hfst : (chunks.zipIdx.map Prod.fst).flatMap runes = runes text := by
      rw [List.zipIdx_map_fst, ← hl, hc.whole]
    rwa [List.flatMap_map] at hfst

theorem unitLen_le_split :
    unitLen size (runes text) ≤ (split ref text { forceEncoding := encoding }).length *
      (splitRule (resolveEncoding encoding text)).singleLimit := by
  have hle : ∀ n ∈ (split ref text { forceEncoding := encoding }).map fun segment => unitLen size (runes segment.text),
      n ≤ (splitRule (resolveEncoding encoding text)).singleLimit := by
    intro n hn
    obtain ⟨segment, hs, rfl⟩ := List.mem_map.mp hn
    exact unitLen_segment hc hs
  have hsum := List.sum_le_card_nsmul _ _ hle
  have hwhole : (split ref text { forceEncoding := encoding }).flatMap (fun segment => runes segment.text) = runes text :=
    flatMap_runes_split hc
  rw [List.length_map, nsmul_eq_mul, Nat.cast_id, ← unitLen_flatMap, hwhole] at hsum
  exact hsum

end Split

theorem chunk_ne_nil (encoding : Str) {text : Str} (limit : Nat) (h : runes text ≠ []) :
    (splitRule encoding).chunk text limit ≠ [] := by
  have hby (size : Char → Nat) : chunkBy size limit text ≠ [] := by
    intro he
    have hr := flatMap_runes_chunkBy size limit text
    rw [he] at hr
    exact h hr.symm
  have hrunes : chunkRunes text limit ≠ [] := by
    obtain ⟨r, rs, hr⟩ := List.exists_cons_of_ne_nil h
    simp [chunkRunes, hr, chunkRunes.go]
  simp only [splitRule]
  split
  case isTrue => exact hby gsm7RuneLen
  case isFalse =>
    split
    case isTrue => exact hby utf16RuneLen
    case isFalse => exact hrunes

theorem split_ne_nil (ref : UInt16) (text : Str) (opts : SplitOptions) : split ref text opts ≠ [] := by
  unfold split
  simp only
  generalize resolveEncoding opts.forceEncoding text = encoding
  split
  case isTrue => simp
  case isFalse h =>
    have hr : runes text ≠ [] := by
      intro he
      simp [splitRule, gsm7SeptetLen, ucs2UnitLen, he] at h
    rw [ne_eq, List.map_eq_nil_iff, List.zipIdx_eq_nil_iff]
    exact chunk_ne_nil encoding _ hr

theorem length_split_eq_one_iff {ref : UInt16} {text encoding : Str} :
    (split ref text { forceEncoding := encoding }).length = 1 ↔
      (splitRule (resolveEncoding encoding text)).textLen text ≤
        (splitRule (resolveEncoding encoding text)).singleLimit := by
  have hcuts := splitRule_cuts (resolveEncoding encoding text)
  constructor
  case mp =>
    intro h
    have hle : _ ≤ (split ref text { forceEncoding := encoding }).length * _ := unitLen_le_split hcuts
    rwa [h, Nat.one_mul, ← hcuts.textLen] at hle
  case mpr =>
    intro h
    simp only [split]
    rw [if_pos h]
    rfl

end SmppGateway
