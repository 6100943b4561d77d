import Mathlib.Data.List.Infix

-- Reading a text letter by letter against a set of words that holds every beginning of its words. The state is the word
-- that has been read last; where it has no continuation the reader falls back to a shorter end of it. Here the end is
-- one letter at most, which is enough for sets of words in which no longer word ends another one.

namespace Fallback

variable {α : Type} {T : List α → Prop} {s : List α}

structure Closed (T : List α → Prop) : Prop where
  nil  : T []
  init : ∀ s a, T (s ++ [a]) → T s

theorem Closed.of_append (h : Closed T) {s t : List α} (ht : T (s ++ t)) : T s := by
  induction t using List.reverseRecOn
  case nil => rwa [List.append_nil] at ht
  case append_singleton t a hi =>
    rw [← List.append_assoc] at ht
    exact hi (h.init _ a ht)

def Apart (T : List α → Prop) : Prop :=
  ∀ s w, T s → T w → w <:+ s → w ≠ s → w.length ≤ 1

theorem not_apart_iff (h : Closed T) : ¬Apart T ↔ ∃ s a b, s ≠ [] ∧ T (s ++ [a, b]) ∧ T [a, b] := by
  constructor
  case mp =>
    intro hn
    simp only [Apart, not_forall, not_le] at hn
    obtain ⟨s, w, hs, hw, ⟨t, rfl⟩, hne, hlen⟩ := hn
    match w, hlen with
    | a :: b :: w, _ =>
      refine ⟨t, a, b, ?_, ?_, ?_⟩
      case refine_1 =>
        rintro rfl
        exact hne rfl
      case refine_2 =>
        refine h.of_append (t := w) ?_
        rwa [List.append_assoc]
      case refine_3 => exact h.of_append (t := w) hw
  case mpr =>
    rintro ⟨s, a, b, hs, hlong, hshort⟩ hapart
    have hle := hapart _ _ hlong hshort (List.suffix_append _ _) fun heq => hs ?_
    case refine_1 =>
      have := congrArg List.length heq
      rw [List.length_append] at this
      exact List.length_eq_zero_iff.mp (by omega)
    exact absurd hle (by simp)

section Fall

variable [DecidablePred T]

-- The end that is fallen back to, together with the word: nothing for a single letter, and nothing where the end of
-- the word before goes on with the new letter.
def fallStep (T : List α → Prop) [DecidablePred T] (x : List α × List α) (a : α) : List α × List α :=
  (x.1 ++ [a], if x.1 = [] ∨ x.2 ≠ [] ∧ T (x.2 ++ [a]) then [] else if T [a] then [a] else [])

def fall (T : List α → Prop) [DecidablePred T] (s : List α) : List α :=
  (s.foldl (fallStep T) ([], [])).2

theorem foldl_fallStep (s : List α) : s.foldl (fallStep T) ([], []) = (s, fall T s) := by
  have hfst : (s.foldl (fallStep T) ([], [])).1 = s := by
    induction s using List.reverseRecOn
    case nil => rfl
    case append_singleton s a hi => rw [List.foldl_append, List.foldl_cons, List.foldl_nil, fallStep, hi]
  exact Prod.ext hfst rfl

theorem fall_append (s : List α) (a : α) :
    fall T (s ++ [a]) =
      if s = [] ∨ fall T s ≠ [] ∧ T (fall T s ++ [a]) then [] else if T [a] then [a] else [] := by
  rw [fall, List.foldl_append, foldl_fallStep]
  rfl

theorem fall_cases (s : List α) :
    fall T s = [] ∨ ∃ t a, t ≠ [] ∧ s = t ++ [a] ∧ fall T s = [a] ∧ T [a] := by
  rcases List.eq_nil_or_concat' s with rfl | ⟨s, a, rfl⟩
  case inl => exact .inl rfl
  case inr =>
    rw [fall_append]
    split
    case isTrue => exact .inl rfl
    case isFalse hs =>
      rw [not_or] at hs
      split
      case isTrue ha => exact .inr ⟨s, a, hs.1, rfl, rfl, ha⟩
      case isFalse => exact .inl rfl

theorem length_fall_le (s : List α) : (fall T s).length ≤ 1 := by
  rcases fall_cases (T := T) s with h | ⟨t, a, -, -, h, -⟩ <;> rw [h] <;> simp

theorem fall_of_length_le (h : s.length ≤ 1) : fall T s = [] := by
  rcases fall_cases (T := T) s with hs | ⟨t, a, ht, rfl, -⟩
  case inl => exact hs
  case inr =>
    rw [List.length_append, List.length_singleton] at h
    exact absurd (List.length_eq_zero_iff.mp (by omega)) ht

theorem fall_of_apart (hapart : Apart T) {a : α} (hs : s ≠ []) (hT : T (s ++ [a])) (ha : T [a]) :
    fall T (s ++ [a]) = [a] := by
  have hcond : ¬(s = [] ∨ fall T s ≠ [] ∧ T (fall T s ++ [a])) := by
    rintro (hnil | ⟨hne, hcont⟩)
    case inl => exact hs hnil
    case inr =>
      rcases fall_cases (T := T) s with hf | ⟨t, b, ht, rfl, hf, -⟩
      case inl => exact hne hf
      case inr =>
        rw [hf] at hcont
        have hsuffix : [b] ++ [a] <:+ t ++ [b] ++ [a] := by
          rw [List.append_assoc]
          exact List.suffix_append _ _
        have hle := hapart _ _ hT hcont hsuffix fun heq => ht ?_
        case refine_1 =>
          have := congrArg List.length heq
          simp only [List.length_append, List.length_singleton] at this
          exact List.length_eq_zero_iff.mp (by omega)
        exact absurd hle (by simp)
  rw [fall_append, if_neg hcond, if_pos ha]

def next (T : List α → Prop) [DecidablePred T] (s : List α) (a : α) : List α :=
  if T (s ++ [a]) then s ++ [a] else if T (fall T s ++ [a]) then fall T s ++ [a] else if T [a] then [a] else []

def reached (T : List α → Prop) [DecidablePred T] (w : List α) : List α :=
  w.foldl (next T) []

theorem reached_append (w : List α) (a : α) : reached T (w ++ [a]) = next T (reached T w) a := by
  rw [reached, List.foldl_append]
  rfl

theorem next_cases (s : List α) (a : α) :
    T (s ++ [a]) ∧ next T s a = s ++ [a] ∨ ¬T (s ++ [a]) ∧ (next T s a).length ≤ 2 := by
  have hfall := length_fall_le (T := T) s
  unfold next
  split
  case isTrue h => exact .inl ⟨h, rfl⟩
  case isFalse h =>
    refine .inr ⟨h, ?_⟩
    split
    case isTrue => rw [List.length_append, List.length_singleton]; omega
    case isFalse => split <;> simp

theorem T_next (h : Closed T) (s : List α) (a : α) : T (next T s a) := by
  unfold next
  split
  case isTrue hT => exact hT
  case isFalse =>
    split
    case isTrue hT => exact hT
    case isFalse =>
      split
      case isTrue hT => exact hT
      case isFalse => exact h.nil

theorem reached_of_T (h : Closed T) {w : List α} (hw : T w) : reached T w = w := by
  induction w using List.reverseRecOn
  case nil => rfl
  case append_singleton w a hi => rw [reached_append, hi (h.init w a hw), next, if_pos hw]

structure Longest (T : List α → Prop) (w s : List α) : Prop where
  suffix : s <:+ w
  mem    : T s
  max    : ∀ t, T t → t <:+ w → t <:+ s

theorem suffix_concat {t w : List α} {a : α} (h : t <:+ w ++ [a]) (hne : t ≠ []) : ∃ t', t = t' ++ [a] ∧ t' <:+ w := by
  obtain ⟨u, hu⟩ := h
  rcases List.eq_nil_or_concat' t with rfl | ⟨t, b, rfl⟩
  case inl => exact absurd rfl hne
  case inr =>
    rw [← List.append_assoc] at hu
    obtain ⟨hw, hb⟩ := List.append_inj' hu rfl
    cases hb
    exact ⟨t, rfl, ⟨u, hw⟩⟩

theorem suffix_append_right {s t : List α} (h : s <:+ t) (u : List α) : s ++ u <:+ t ++ u := by
  obtain ⟨v, rfl⟩ := h
  exact ⟨v, by rw [List.append_assoc]⟩

theorem Longest.next (hc : Closed T) (hapart : Apart T) {w s : List α} (h : Longest T w s) (a : α) :
    Longest T (w ++ [a]) (next T s a) := by
  have hfall : fall T s <:+ s := by
    rcases fall_cases (T := T) s with hf | ⟨t, b, -, rfl, hf, -⟩
    case inl => rw [hf]; exact List.nil_suffix
    case inr => rw [hf]; exact List.suffix_append _ _
  -- A word that ends the longer text continues a word that ends the text before.
  have hcont {t : List α} (ht : T t) (hsuf : t <:+ w ++ [a]) (hne : t ≠ []) :
      ∃ t', t = t' ++ [a] ∧ T t' ∧ t' <:+ s := by
    obtain ⟨t', rfl, hsuf'⟩ := suffix_concat hsuf hne
    have ht' := hc.init t' a ht
    exact ⟨t', rfl, ht', h.max t' ht' hsuf'⟩
  refine ⟨?_, T_next hc s a, fun t ht hsuf => ?_⟩
  case refine_1 =>
    unfold Fallback.next
    split
    case isTrue => exact suffix_append_right h.suffix _
    case isFalse =>
      split
      case isTrue => exact suffix_append_right (hfall.trans h.suffix) _
      case isFalse =>
        split
        case isTrue => exact List.suffix_append _ _
        case isFalse => exact List.nil_suffix
  case refine_2 =>
    by_cases hne : t = []
    case pos => rw [hne]; exact List.nil_suffix
    case neg =>
      obtain ⟨t', rfl, ht', hsuf'⟩ := hcont ht hsuf hne
      by_cases hT : T (s ++ [a])
      case pos =>
        rw [Fallback.next, if_pos hT]
        exact suffix_append_right hsuf' _
      case neg =>
        -- What continues is a proper end of the state, one letter or none.
        have hproper : t' ≠ s := by
          rintro rfl
          exact hT ht
        have hshort : t' = [] ∨ t' = fall T s := by
          have hle := hapart s t' h.mem ht' hsuf' hproper
          match t', hle with
          | [], _ => exact .inl rfl
          | [b], _ =>
            obtain ⟨u, rfl⟩ := hsuf'
            have hu : u ≠ [] := by
              rintro rfl
              exact hproper rfl
            exact .inr (fall_of_apart hapart hu h.mem ht').symm
        rw [Fallback.next, if_neg hT]
        rcases hshort with rfl | rfl
        case inl =>
          rw [List.nil_append] at ht ⊢
          split
          case isTrue => exact List.suffix_append _ _
          case isFalse => exact List.suffix_refl _
        case inr => rw [if_pos ht]

theorem longest_reached (hc : Closed T) (hapart : Apart T) (w : List α) : Longest T w (reached T w) := by
  induction w using List.reverseRecOn
  case nil => exact ⟨List.suffix_refl _, hc.nil, fun t _ ht => ht⟩
  case append_singleton w a hi =>
    rw [reached_append]
    exact hi.next hc hapart a

theorem suffix_iff_of_apart (hc : Closed T) (hapart : Apart T) {w t : List α} (ht : T t) (hne : t ≠ []) :
    t <:+ w ↔ t = reached T w ∨ t = fall T (reached T w) := by
  have hlongest := longest_reached hc hapart w
  generalize reached T w = s at hlongest ⊢
  constructor
  case mp =>
    intro hsuf
    have hs := hlongest.max t ht hsuf
    by_cases heq : t = s
    case pos => exact .inl heq
    case neg =>
      have hle := hapart s t hlongest.mem ht hs heq
      match t, hle with
      | [b], _ =>
        obtain ⟨u, rfl⟩ := hs
        have hu : u ≠ [] := by
          rintro rfl
          exact heq rfl
        exact .inr (fall_of_apart hapart hu hlongest.mem ht).symm
  case mpr =>
    rintro (rfl | rfl)
    case inl => exact hlongest.suffix
    case inr =>
      rcases fall_cases (T := T) s with hf | ⟨u, b, -, rfl, hf, -⟩
      case inl => exact absurd hf hne
      case inr =>
        rw [hf]
        exact (List.suffix_append _ _).trans hlongest.suffix

-- After a beginning the reader is still at it, or what it holds starts behind the first two letters of its end.
theorem reached_after (hc : Closed T) {a b : α} (hlong : T (s ++ [a, b])) (w : List α) :
    reached T (s ++ [a, b] ++ w) = s ++ [a, b] ++ w ∨ (reached T (s ++ [a, b] ++ w)).length ≤ w.length + 1 := by
  induction w using List.reverseRecOn
  case nil =>
    rw [List.append_nil]
    exact .inl (reached_of_T hc hlong)
  case append_singleton w c hi =>
    rw [← List.append_assoc, reached_append, List.length_append, List.length_singleton]
    rcases hi with hi | hi
    case inl =>
      rw [hi]
      rcases next_cases (T := T) (s ++ [a, b] ++ w) c with ⟨-, h⟩ | ⟨-, h⟩
      case inl => exact .inl h
      case inr => exact .inr (by omega)
    case inr =>
      rcases next_cases (T := T) (reached T (s ++ [a, b] ++ w)) c with ⟨-, h⟩ | ⟨-, h⟩
      case inl =>
        rw [h, List.length_append, List.length_singleton]
        exact .inr (by omega)
      case inr => exact .inr (by omega)

theorem reached_ne_of_not_apart (hc : Closed T) {a b : α} (hs : s ≠ []) (hlong : T (s ++ [a, b])) (w : List α) :
    a :: b :: w ≠ reached T (s ++ a :: b :: w) ∧ a :: b :: w ≠ fall T (reached T (s ++ a :: b :: w)) := by
  have htext : s ++ a :: b :: w = s ++ [a, b] ++ w := by rw [List.append_assoc]; rfl
  have hpos : 0 < s.length := List.length_pos_iff.mpr hs
  constructor
  case left =>
    intro heq
    have hlen := congrArg List.length heq
    rw [htext] at hlen
    rcases reached_after hc hlong w with h | h
    case inl =>
      rw [h] at hlen
      simp only [List.length_append, List.length_cons, List.length_nil] at hlen
      omega
    case inr =>
      simp only [List.length_cons] at hlen
      omega
  case right =>
    intro heq
    have hlen := length_fall_le (T := T) (reached T (s ++ a :: b :: w))
    rw [← heq] at hlen
    simp only [List.length_cons] at hlen
    omega

end Fall

end Fallback
