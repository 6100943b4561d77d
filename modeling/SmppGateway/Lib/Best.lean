import Mathlib.Data.List.MinMax

-- The first of the best elements of a list, taken from its parts.

namespace Best

variable {α β γ : Type} [LinearOrder β] (f : α → β)

def better : Option α → Option α → Option α
  | none,   b      => b
  | some a, none   => some a
  | some a, some b => if f a < f b then some b else some a

@[simp] theorem better_none (a : Option α) : better f a none = a := by
  cases a <;> rfl

theorem better_assoc (a b c : Option α) : better f (better f a b) c = better f a (better f b c) := by
  cases a
  case none => rfl
  case some a =>
    cases b
    case none => rfl
    case some b =>
      cases c
      case none => simp
      case some c =>
        by_cases hab : f a < f b
        case pos =>
          by_cases hbc : f b < f c
          case pos => simp [better, hab, hbc, hab.trans hbc]
          case neg => simp [better, hab, hbc]
        case neg =>
          by_cases hbc : f b < f c
          case pos => simp [better, hab, hbc]
          case neg =>
            have hac : ¬f a < f c := fun h => hab (h.trans_le (not_lt.mp hbc))
            simp [better, hab, hbc, hac]

def foremost (l : List α) : Option α :=
  l.argmax f

variable {f} in
theorem foremost_mem {l : List α} {a : α} (h : foremost f l = some a) : a ∈ l :=
  List.argmax_mem h

variable {f} in
theorem le_of_mem_foremost {l : List α} {a b : α} (ha : a ∈ l) (h : foremost f l = some b) : f a ≤ f b :=
  List.le_of_mem_argmax ha h

variable {f} in
theorem foremost_eq_none {l : List α} : foremost f l = none ↔ l = [] :=
  List.argmax_eq_none

@[simp] theorem foremost_nil : foremost f [] = none := rfl

@[simp] theorem foremost_singleton (a : α) : foremost f [a] = some a := rfl

theorem foremost_concat (a : α) (l : List α) : foremost f (l ++ [a]) = better f (foremost f l) (some a) := by
  rw [foremost, List.argmax_concat, foremost]
  cases l.argmax f <;> rfl

theorem foremost_append (l m : List α) : foremost f (l ++ m) = better f (foremost f l) (foremost f m) := by
  induction m using List.reverseRecOn
  case nil => simp
  case append_singleton m a hi => rw [← List.append_assoc, foremost_concat, hi, better_assoc, foremost_concat]

theorem foremost_map {δ : Type} [LinearOrder δ] (g : γ → α) (f' : γ → δ) (h : ∀ a b, f (g a) < f (g b) ↔ f' a < f' b)
    (l : List γ) : foremost f (l.map g) = (foremost f' l).map g := by
  induction l using List.reverseRecOn
  case nil => rfl
  case append_singleton l a hi =>
    rw [List.map_append, List.map_singleton, foremost_concat, foremost_concat, hi]
    cases foremost f' l
    case none => rfl
    case some c => simp only [Option.map_some, better, h]; split <;> rfl

theorem foremost_id_eq_some {l : List β} {b : β} : foremost id l = some b ↔ b ∈ l ∧ ∀ a ∈ l, a ≤ b := by
  constructor
  case mp => exact fun h => ⟨foremost_mem h, fun a ha => le_of_mem_foremost ha h⟩
  case mpr =>
    rintro ⟨hmem, hle⟩
    cases h : foremost id l
    case none => rw [foremost_eq_none.mp h] at hmem; cases hmem
    case some c => rw [le_antisymm (hle c (foremost_mem h)) (le_of_mem_foremost hmem h)]

end Best
