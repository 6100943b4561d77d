import SmppGateway.Go.Str

-- The text as the rules of the filter see it, and where its bytes come from (`internal/filter/normalize.go`).
-- `unicode.ToLower` is a parameter.

namespace SmppGateway

open Go

namespace Filter

structure NormalizeConfig where
  lowercase      : Bool := false
  fullToHalf     : Bool := false
  stripZeroWidth : Bool := false
  deriving DecidableEq, Repr

def isZeroWidth (r : Char) : Bool :=
  r.toNat ∈ [0x200b, 0x200c, 0x200d, 0xfeff]

def fullToHalf (r : Char) : Char :=
  if r.toNat = 0x3000 then
    ' '
  else if 0xff01 ≤ r.toNat ∧ r.toNat ≤ 0xff5e then
    Char.ofNat (r.toNat - 0xfee0)
  else
    r

structure Normalized where
  text       : Str := []
  normToOrig : List Nat := [0]
  deriving DecidableEq, Repr

namespace NormalizeConfig

variable (cfg : NormalizeConfig) (toLower : Char → Char)

def strips (r : Char) : Bool :=
  cfg.stripZeroWidth && isZeroWidth r

def rune (r : Char) : Char :=
  let r := if cfg.fullToHalf then Filter.fullToHalf r else r
  if cfg.lowercase then toLower r else r

def step (n : Normalized) (x : Nat × Char) : Normalized :=
  let (origStart, r) := x
  let origEnd := origStart + r.utf8Size
  if cfg.strips r then
    n
  else
    let written := String.utf8EncodeChar (cfg.rune toLower r)
    { text       := n.text ++ written
      normToOrig := n.normToOrig ++ List.replicate (written.length - 1) origStart ++ [origEnd] }

def runes (cs : List Char) : List Char :=
  (cs.filter fun r => !cfg.strips r).map (cfg.rune toLower)

end NormalizeConfig

def normalizeTextWithMap (toLower : Char → Char) (text : Str) (cfg : NormalizeConfig) : Normalized :=
  (range text).foldl (cfg.step toLower) {}

def normalizeText (toLower : Char → Char) (text : Str) (cfg : NormalizeConfig) : Str :=
  (normalizeTextWithMap toLower text cfg).text

-- The map has a place for every place of the text and its end, in the same order, up to `stop`.
structure Normalized.WF (n : Normalized) (stop : Nat) : Prop where
  length  : n.normToOrig.length = n.text.length + 1
  sorted  : n.normToOrig.Pairwise (· ≤ ·)
  bounded : ∀ k ∈ n.normToOrig, k ≤ stop

theorem Normalized.WF.init : WF {} 0 where
  length  := rfl
  sorted  := List.pairwise_singleton _ _
  bounded := by simp

theorem NormalizeConfig.step_wf {cfg : NormalizeConfig} {toLower : Char → Char} {n : Normalized} {origStart : Nat}
    (wf : n.WF origStart) (r : Char) : (cfg.step toLower n (origStart, r)).WF (origStart + r.utf8Size) := by
  unfold step
  simp only
  split_ifs
  case pos => exact { wf with bounded := fun k hk => Nat.le_add_right_of_le (wf.bounded k hk) }
  case neg =>
    have hpos := (cfg.rune toLower r).utf8Size_pos
    constructor
    case length =>
      simp only [List.length_append, List.length_replicate, List.length_singleton, String.length_utf8EncodeChar, wf.length]
      omega
    case sorted =>
      rw [List.pairwise_append, List.pairwise_append]
      refine ⟨⟨wf.sorted, List.pairwise_replicate.mpr (.inr (Nat.le_refl _)), fun a ha b hb => ?_⟩,
        List.pairwise_singleton _ _, fun a ha b hb => ?_⟩
      case refine_1 => exact (List.mem_replicate.mp hb).2 ▸ wf.bounded a ha
      case refine_2 =>
        rw [List.mem_singleton.mp hb]
        rcases List.mem_append.mp ha with ha | ha
        case inl => exact Nat.le_add_right_of_le (wf.bounded a ha)
        case inr => exact (List.mem_replicate.mp ha).2 ▸ Nat.le_add_right _ _
    case bounded =>
      intro k hk
      rcases List.mem_append.mp hk with hk | hk
      case inr => exact Nat.le_of_eq (List.mem_singleton.mp hk)
      case inl =>
        rcases List.mem_append.mp hk with hk | hk
        case inl => exact Nat.le_add_right_of_le (wf.bounded k hk)
        case inr => exact (List.mem_replicate.mp hk).2 ▸ Nat.le_add_right _ _

theorem range_utf8_concat (cs : List Char) (c : Char) :
    range (utf8 (cs ++ [c])) = range (utf8 cs) ++ [((utf8 cs).length, c)] := by
  rw [range_utf8, range_utf8, List.zipIdx_append, List.map_append]
  congr 1
  case e_a =>
    refine List.map_congr_left fun x hx => ?_
    have hle : x.2 ≤ cs.length := Nat.le_of_lt (List.snd_lt_of_mem_zipIdx hx)
    simp only [List.take_append_of_le_length hle]
  case e_a => simp

section Utf8

variable (toLower : Char → Char) (cfg : NormalizeConfig)

theorem normalize_concat (cs : List Char) (c : Char) :
    normalizeTextWithMap toLower (utf8 (cs ++ [c])) cfg =
      cfg.step toLower (normalizeTextWithMap toLower (utf8 cs) cfg) ((utf8 cs).length, c) := by
  rw [normalizeTextWithMap, range_utf8_concat, List.foldl_append]
  rfl

theorem normalize_wf (cs : List Char) : (normalizeTextWithMap toLower (utf8 cs) cfg).WF (utf8 cs).length := by
  induction cs using List.reverseRecOn
  case nil => exact .init
  case append_singleton cs c ih =>
    have hlength : (utf8 (cs ++ [c])).length = (utf8 cs).length + c.utf8Size := by simp
    rw [normalize_concat, hlength]
    exact NormalizeConfig.step_wf ih c

theorem normalizeText_utf8 (cs : List Char) :
    normalizeText toLower (utf8 cs) cfg = utf8 (cfg.runes toLower cs) := by
  induction cs using List.reverseRecOn
  case nil => rfl
  case append_singleton cs c ih =>
    rw [normalizeText] at ih ⊢
    rw [normalize_concat, NormalizeConfig.step, NormalizeConfig.runes, List.filter_append, List.map_append, utf8_append,
      ← NormalizeConfig.runes, ← ih]
    by_cases hstrip : cfg.strips c <;> simp [hstrip]

end Utf8

namespace Normalized.WF

variable {n : Normalized} {stop : Nat} (wf : n.WF stop) {i j : Nat}
include wf

theorem lookup (hi : i ≤ n.text.length) : ∃ k, n.normToOrig[i]? = some k ∧ k ≤ stop := by
  have hlt : i < n.normToOrig.length := by
    rw [wf.length]
    omega
  exact ⟨n.normToOrig[i], List.getElem?_eq_getElem hlt, wf.bounded _ (List.getElem_mem hlt)⟩

theorem mono (hij : i ≤ j) {a b : Nat} (ha : n.normToOrig[i]? = some a) (hb : n.normToOrig[j]? = some b) : a ≤ b := by
  obtain ⟨hi, rfl⟩ := List.getElem?_eq_some_iff.mp ha
  obtain ⟨hj, rfl⟩ := List.getElem?_eq_some_iff.mp hb
  rcases Nat.eq_or_lt_of_le hij with rfl | hlt
  case inl => exact Nat.le_refl _
  case inr => exact List.pairwise_iff_getElem.mp wf.sorted i j hi hj hlt

end Normalized.WF

end Filter

end SmppGateway
