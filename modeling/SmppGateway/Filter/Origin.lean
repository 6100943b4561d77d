import SmppGateway.Filter.Normalize

-- Where the runes of the normalised text come from, for texts of any bytes.

namespace SmppGateway

open Go

def runeWidth (text : Str) (off : Nat) : Nat :=
  (decodeRune (text.drop off)).2

theorem go_drop {text : Str} {off : Nat} (h : text.drop off ≠ []) (fuel : Nat) :
    range.go (fuel + 1) off (text.drop off) = (off, (decodeRune (text.drop off)).1) ::
      range.go fuel (off + runeWidth text off) (text.drop (off + runeWidth text off)) := by
  obtain ⟨b, bs, hs⟩ := List.exists_cons_of_ne_nil h
  rw [← List.drop_drop, runeWidth, hs, range.go]

theorem decodeRune_of_mem_go {text : Str} {fuel off : Nat} {x : Nat × Char}
    (h : x ∈ range.go fuel off (text.drop off)) : (decodeRune (text.drop x.1)).1 = x.2 := by
  induction fuel generalizing off
  case zero => simp [range.go] at h
  case succ fuel hi =>
    by_cases hs : text.drop off = []
    case pos => simp [hs, range.go] at h
    case neg =>
      rw [go_drop hs, List.mem_cons] at h
      rcases h with rfl | h
      case inl => rfl
      case inr => exact hi h

theorem decodeRune_of_mem_range {text : Str} {x : Nat × Char} (h : x ∈ range text) :
    (decodeRune (text.drop x.1)).1 = x.2 :=
  @decodeRune_of_mem_go text text.length 0 x h

theorem runeWidth_cases {text : Str} {x : Nat × Char} (h : x ∈ range text) :
    runeWidth text x.1 = x.2.utf8Size ∨ x.2 = runeError ∧ runeWidth text x.1 = 1 := by
  have hrune := decodeRune_of_mem_range h
  rw [runeWidth]
  rcases decodeRune_cases (text.drop x.1) with ⟨c, he, -⟩ | he
  case inl => rw [he] at hrune ⊢; exact .inl (congrArg Char.utf8Size hrune)
  case inr => rw [he] at hrune ⊢; exact .inr ⟨hrune.symm, rfl⟩

theorem utf8_go_of_widths {text : Str} {fuel off : Nat} (hf : (text.drop off).length ≤ fuel)
    (h : ∀ x ∈ range.go fuel off (text.drop off), runeWidth text x.1 = x.2.utf8Size) :
    utf8 ((range.go fuel off (text.drop off)).map Prod.snd) = text.drop off := by
  induction fuel generalizing off
  case zero => rw [List.length_eq_zero_iff.mp (Nat.le_zero.mp hf)]; rfl
  case succ fuel hi =>
    by_cases hs : text.drop off = []
    case pos => rw [hs]; rfl
    case neg =>
      rw [go_drop hs] at h
      rw [go_drop hs, List.map_cons, utf8_cons]
      have hwidth : runeWidth text off = (decodeRune (text.drop off)).1.utf8Size := h _ List.mem_cons_self
      rcases decodeRune_cases (text.drop off) with ⟨c, he, hsplit⟩ | he
      case inr =>
        rw [runeWidth, he] at hwidth
        exact absurd hwidth (by decide)
      case inl =>
        have hpos := c.utf8Size_pos
        have hcons := List.length_pos_of_ne_nil hs
        have hwidth : runeWidth text off = c.utf8Size := by rw [hwidth, he]
        have hlen : (text.drop (off + runeWidth text off)).length ≤ fuel := by
          rw [← List.drop_drop, List.length_drop, hwidth]
          omega
        rw [hi hlen fun x hx => h x (List.mem_cons_of_mem _ hx), hwidth, ← List.drop_drop, he]
        exact hsplit.symm

theorem utf8_of_widths {text : Str} (h : ∀ x ∈ range text, runeWidth text x.1 = x.2.utf8Size) :
    utf8 (runes text) = text :=
  @utf8_go_of_widths text text.length 0 (Nat.le_refl _) h

theorem runeWidth_utf8 {cs : List Char} {x : Nat × Char} (h : x ∈ range (utf8 cs)) :
    runeWidth (utf8 cs) x.1 = x.2.utf8Size := by
  rw [range_utf8] at h
  obtain ⟨⟨c, i⟩, hm, rfl⟩ := List.mem_map.mp h
  obtain ⟨hlt, rfl⟩ := List.getElem?_eq_some_iff.mp (List.mk_mem_zipIdx_iff_getElem?.mp hm)
  have hsplit : utf8 cs = utf8 (cs.take i) ++ (String.utf8EncodeChar cs[i] ++ utf8 (cs.drop (i + 1))) := by
    rw [← utf8_cons, ← utf8_append, ← List.drop_eq_getElem_cons, List.take_append_drop]
  simp only [runeWidth]
  rw [hsplit, List.drop_left, decodeRune_utf8]

namespace Filter

variable {cfg : NormalizeConfig} {toLower : Char → Char}

namespace NormalizeConfig

def kept (cfg : NormalizeConfig) (xs : List (Nat × Char)) : List (Nat × Char) :=
  xs.filter fun x => !cfg.strips x.2

def written (cfg : NormalizeConfig) (toLower : Char → Char) (xs : List (Nat × Char)) : Str :=
  utf8 (xs.map fun x => cfg.rune toLower x.2)

theorem written_concat (xs : List (Nat × Char)) (x : Nat × Char) :
    (cfg.written toLower (xs ++ [x])).length = (cfg.written toLower xs).length + (cfg.rune toLower x.2).utf8Size := by
  simp [written]

end NormalizeConfig

open NormalizeConfig

-- After some runes: the text has those kept, the map one place more than the text, and it starts at 0.
structure Normalized.Built (cfg : NormalizeConfig) (toLower : Char → Char) (xs : List (Nat × Char)) (n : Normalized) :
    Prop where
  text   : n.text = cfg.written toLower (cfg.kept xs)
  length : n.normToOrig.length = n.text.length + 1
  start  : n.normToOrig[0]? = some 0

theorem step_extends (n : Normalized) (x : Nat × Char) : n.normToOrig <+: (cfg.step toLower n x).normToOrig := by
  unfold step
  simp only
  split
  case isTrue => exact List.prefix_rfl
  case isFalse => rw [List.append_assoc]; exact List.prefix_append _ _

theorem foldl_extends (xs : List (Nat × Char)) (n : Normalized) :
    n.normToOrig <+: (xs.foldl (cfg.step toLower) n).normToOrig := by
  induction xs generalizing n
  case nil => exact List.prefix_rfl
  case cons x xs hi => exact (step_extends n x).trans (hi _)

theorem Normalized.Built.step {xs : List (Nat × Char)} {n : Normalized} (h : n.Built cfg toLower xs) (x : Nat × Char) :
    (cfg.step toLower n x).Built cfg toLower (xs ++ [x]) := by
  have hstart : (cfg.step toLower n x).normToOrig[0]? = some 0 := by
    obtain ⟨more, hmore⟩ := @step_extends cfg toLower n x
    rw [← hmore, List.getElem?_append_left (by have := h.length; omega), h.start]
  have hpos := (cfg.rune toLower x.2).utf8Size_pos
  have hkept : cfg.kept (xs ++ [x]) = cfg.kept xs ++ if cfg.strips x.2 then [] else [x] := by
    by_cases hs : cfg.strips x.2 <;> simp [kept, hs]
  refine ⟨?text, ?length, hstart⟩
  all_goals
    unfold NormalizeConfig.step
    simp only
    split
  case text.isTrue hs => simp [hkept, hs, h.text]
  case text.isFalse hs => simp [hkept, hs, h.text, written]
  case length.isTrue => exact h.length
  case length.isFalse =>
    simp only [List.length_append, List.length_replicate, List.length_singleton, String.length_utf8EncodeChar, h.length]
    omega

theorem Normalized.Built.foldl (xs : List (Nat × Char)) :
    (xs.foldl (cfg.step toLower) {}).Built cfg toLower xs := by
  induction xs using List.reverseRecOn
  case nil => exact ⟨rfl, rfl, rfl⟩
  case append_singleton xs x ih =>
    rw [List.foldl_append]
    exact ih.step x

theorem foldl_end {xs before after : List (Nat × Char)} {x : Nat × Char} (h : cfg.kept xs = before ++ x :: after) :
    (xs.foldl (cfg.step toLower) {}).normToOrig[(cfg.written toLower (before ++ [x])).length]? =
      some (x.1 + x.2.utf8Size) := by
  obtain ⟨xs₁, xs₂', rfl, hbefore, h₂⟩ := List.filter_eq_append_iff.mp h
  obtain ⟨gone, xs₂, rfl, hgone, hx, -⟩ := List.filter_eq_cons_iff.mp h₂
  have hkept : cfg.kept (xs₁ ++ gone) = before := by
    rw [kept, List.filter_append, hbefore, List.filter_eq_nil_iff.mpr hgone, List.append_nil]
  have hx : cfg.strips x.2 = false := by simpa using hx
  have hbuilt := @Normalized.Built.foldl cfg toLower (xs₁ ++ gone)
  rw [← List.append_assoc, List.foldl_append, List.foldl_cons]
  generalize (xs₁ ++ gone).foldl (cfg.step toLower) {} = n at hbuilt
  obtain ⟨more, hmore⟩ := @foldl_extends cfg toLower xs₂ (cfg.step toLower n x)
  have hpos := (cfg.rune toLower x.2).utf8Size_pos
  have hlen : (cfg.step toLower n x).normToOrig = (n.normToOrig ++
      List.replicate ((cfg.rune toLower x.2).utf8Size - 1) x.1) ++ [x.1 + x.2.utf8Size] := by
    simp [NormalizeConfig.step, hx]
  have hlast : (cfg.written toLower (before ++ [x])).length =
      (n.normToOrig ++ List.replicate ((cfg.rune toLower x.2).utf8Size - 1) x.1).length := by
    rw [written_concat, List.length_append, List.length_replicate, hbuilt.length, hbuilt.text, hkept]
    omega
  rw [← hmore, hlen, hlast, List.append_assoc, List.getElem?_append_right (Nat.le_refl _), Nat.sub_self]
  rfl

structure Normalized.PointsBack (n : Normalized) (toLower : Char → Char) (text : Str) (cfg : NormalizeConfig) :
    Prop where
  length  : n.normToOrig.length = n.text.length + 1
  start   : n.normToOrig[0]? = some 0
  sorted  : n.normToOrig.Pairwise (· ≤ ·)
  bounded : ∀ k ∈ n.normToOrig, k ≤ text.length
  -- The runes that are kept end in the normalised text where those before them and they themselves are written.
  ends    : ∀ before x after, cfg.kept (range text) = before ++ x :: after →
    n.normToOrig[(cfg.written toLower (before ++ [x])).length]? = some (x.1 + runeWidth text x.1)

theorem strips_runeError : cfg.strips runeError = false := by
  have h : isZeroWidth runeError = false := by decide
  rw [strips, h, Bool.and_false]

-- The map is right exactly for the texts that are valid UTF-8.
theorem normalize_points_back_iff (toLower : Char → Char) (text : Str) (cfg : NormalizeConfig) :
    (normalizeTextWithMap toLower text cfg).PointsBack toLower text cfg ↔ ∃ cs, text = utf8 cs := by
  constructor
  case mp =>
    intro h
    refine ⟨runes text, (utf8_of_widths fun x hx => ?_).symm⟩
    rcases runeWidth_cases hx with hwidth | ⟨herror, hone⟩
    case inl => exact hwidth
    case inr =>
      have hkept : x ∈ cfg.kept (range text) := List.mem_filter.mpr ⟨hx, by rw [herror, strips_runeError]; rfl⟩
      obtain ⟨before, after, hsplit⟩ := List.append_of_mem hkept
      have hends := (h.ends before x after hsplit).symm.trans (foldl_end hsplit)
      exact Nat.add_left_cancel (Option.some.inj hends)
  case mpr =>
    rintro ⟨cs, rfl⟩
    have wf := normalize_wf toLower cfg cs
    refine ⟨wf.length, (Normalized.Built.foldl _).start, wf.sorted, wf.bounded, fun before x after hsplit => ?_⟩
    have hmem : x ∈ cfg.kept (range (utf8 cs)) := by rw [hsplit]; simp
    rw [runeWidth_utf8 (List.mem_filter.mp hmem).1]
    exact foldl_end hsplit

-- One byte that is not UTF-8, of which the map says that it ends two bytes after the text.
theorem normalize_overruns :
    normalizeTextWithMap id [0xFF] {} = { text := [0xEF, 0xBF, 0xBD], normToOrig := [0, 0, 0, 3] } ∧
    ¬(normalizeTextWithMap id [0xFF] {}).PointsBack id [0xFF] {} := by
  have heq : normalizeTextWithMap id [0xFF] {} = { text := [0xEF, 0xBF, 0xBD], normToOrig := [0, 0, 0, 3] } := by
    decide +kernel
  refine ⟨heq, fun h => ?_⟩
  have hbounded := h.bounded 3 (by rw [heq]; decide)
  exact absurd hbounded (by decide)

end Filter

end SmppGateway
