import Mathlib.Data.List.Basic
import Mathlib.Data.List.Nodup
import Mathlib.Data.List.Pairwise

-- Replacing pieces of a list from left to right.

namespace Splice

variable {α β : Type}

structure Cut (α : Type) where
  start : Nat
  stop  : Nat
  fill  : List α
  deriving DecidableEq, Repr

namespace Cut

def map (f : α → β) (c : Cut α) : Cut β where
  start := c.start
  stop  := c.stop
  fill  := c.fill.map f

def Holds (c : Cut α) (i : Nat) : Prop :=
  c.start ≤ i ∧ i < c.stop

instance (c : Cut α) (i : Nat) : Decidable (c.Holds i) :=
  inferInstanceAs (Decidable (_ ∧ _))

-- It starts before `pos`, or does not lie in a list of length `n`.
def Skipped (n pos : Nat) (c : Cut α) : Prop :=
  c.start < pos ∨ n < c.start ∨ n < c.stop

instance (n pos : Nat) (c : Cut α) : Decidable (c.Skipped n pos) :=
  inferInstanceAs (Decidable (_ ∨ _))

end Cut

variable {n pos : Nat} {l : List α} {c : Cut α} {cs : List (Cut α)}

-- A cut that starts before `pos`, where the last one ended, or does not lie in the list is left out.
def splice (l : List α) : (pos : Nat) → List (Cut α) → List α
  | pos, []      => l.drop pos
  | pos, c :: cs =>
    if c.start < pos then
      splice l pos cs
    else if l.length < c.start ∨ l.length < c.stop then
      splice l pos cs
    else
      (l.drop pos).take (c.start - pos) ++ c.fill ++ splice l c.stop cs

def made (n : Nat) : (pos : Nat) → List (Cut α) → List (Cut α)
  | _, []        => []
  | pos, c :: cs =>
    if c.Skipped n pos then
      made n pos cs
    else
      c :: made n c.stop cs

theorem splice_skip (h : c.Skipped l.length pos) (cs : List (Cut α)) : splice l pos (c :: cs) = splice l pos cs := by
  rw [splice]
  split_ifs with hbefore houtside
  case pos => rfl
  case pos => rfl
  case neg => exact (h.elim hbefore houtside).elim

theorem splice_cut (h : ¬c.Skipped l.length pos) (cs : List (Cut α)) :
    splice l pos (c :: cs) = (l.drop pos).take (c.start - pos) ++ c.fill ++ splice l c.stop cs := by
  obtain ⟨hbefore, houtside⟩ := not_or.mp h
  rw [splice, if_neg hbefore, if_neg houtside]

theorem splice_map (f : α → β) (l : List α) (pos : Nat) (cs : List (Cut α)) :
    (splice l pos cs).map f = splice (l.map f) pos (cs.map (·.map f)) := by
  induction cs generalizing pos
  case nil => simp [splice]
  case cons c cs hi =>
    rw [List.map_cons, splice, splice]
    simp only [Cut.map, List.length_map]
    split_ifs
    case pos => exact hi pos
    case pos => exact hi pos
    case neg => rw [List.map_append, List.map_append, hi, List.map_take, List.map_drop]; rfl

theorem made_sublist (n pos : Nat) (cs : List (Cut α)) : (made n pos cs).Sublist cs := by
  induction cs generalizing pos
  case nil => exact .slnil
  case cons c cs hi =>
    rw [made]
    split_ifs
    case pos => exact (hi pos).cons c
    case neg => exact (hi c.stop).cons_cons c

theorem le_start_of_mem_made (h : ∀ c ∈ cs, c.start ≤ c.stop) (hm : c ∈ made n pos cs) : pos ≤ c.start := by
  induction cs generalizing pos
  case nil => simp [made] at hm
  case cons c' cs hi =>
    obtain ⟨hc', hcs⟩ := List.forall_mem_cons.mp h
    rw [made] at hm
    split_ifs at hm with hskip
    case pos => exact hi hcs hm
    case neg =>
      have hle : pos ≤ c'.start := Nat.le_of_not_lt (not_or.mp hskip).1
      rcases List.mem_cons.mp hm with rfl | hm
      case inl => exact hle
      case inr => exact Nat.le_trans (Nat.le_trans hle hc') (hi hcs hm)

def mark (l : List α) : List (α × Option Nat) :=
  l.zipIdx.map fun x => (x.1, some x.2)

-- What stands in for a cut comes from nowhere.
def unmarked (a : α) : α × Option Nat := (a, none)

def survivors (l : List (α × Option Nat)) : List (α × Nat) :=
  l.filterMap fun x => x.2.map (x.1, ·)

def trace (l : List α) (cs : List (Cut α)) : List (α × Option Nat) :=
  splice (mark l) 0 (cs.map (·.map unmarked))

theorem trace_map_fst (l : List α) (cs : List (Cut α)) : (trace l cs).map Prod.fst = splice l 0 cs := by
  have hmark : (mark l).map Prod.fst = l := by
    rw [mark, List.map_map]
    exact List.zipIdx_map_fst 0 l
  have hcuts : (cs.map (·.map unmarked)).map (·.map Prod.fst) = cs := by
    rw [List.map_map]
    refine List.map_id'' (fun c => ?_) cs
    simp [Cut.map, unmarked, Function.comp_def]
  rw [trace, splice_map, hmark, hcuts]

@[simp]
theorem survivors_append (l₁ l₂ : List (α × Option Nat)) : survivors (l₁ ++ l₂) = survivors l₁ ++ survivors l₂ :=
  List.filterMap_append

@[simp]
theorem survivors_unmarked (l : List α) : survivors (l.map unmarked) = [] := by
  simp [survivors, unmarked]

theorem survivors_drop (l : List α) (pos : Nat) : survivors ((mark l).drop pos) = l.zipIdx.drop pos := by
  rw [survivors, mark, ← List.map_drop, List.filterMap_map]
  exact List.filterMap_some

theorem survivors_drop_take (l : List α) (pos k : Nat) :
    survivors (((mark l).drop pos).take k) = (l.zipIdx.drop pos).take k := by
  rw [survivors, mark, ← List.map_drop, ← List.map_take, List.filterMap_map]
  exact List.filterMap_some

theorem le_of_mem_drop {x : α × Nat} (h : x ∈ l.zipIdx.drop pos) : pos ≤ x.2 := by
  obtain ⟨i, hi, rfl⟩ := List.mem_iff_getElem.mp h
  simp

theorem lt_of_mem_drop_take {pos k : Nat} {x : α × Nat} (h : x ∈ (l.zipIdx.drop pos).take k) : x.2 < pos + k := by
  obtain ⟨i, hi, rfl⟩ := List.mem_iff_getElem.mp h
  simp only [List.length_take] at hi
  simp
  omega

theorem drop_eq_take_append_drop (l : List α) {pos k : Nat} (h : pos ≤ k) :
    l.drop pos = (l.drop pos).take (k - pos) ++ l.drop k := by
  conv_lhs => rw [← List.take_append_drop (k - pos) (l.drop pos), List.drop_drop, Nat.add_sub_cancel' h]

theorem filter_cut (l : List α) (hpos : pos ≤ c.start) (hc : c.start ≤ c.stop) (hcs : ∀ c' ∈ cs, c.stop ≤ c'.start) :
    (l.zipIdx.drop pos).filter (fun x => ∀ c' ∈ c :: cs, ¬c'.Holds x.2) =
      (l.zipIdx.drop pos).take (c.start - pos) ++
        (l.zipIdx.drop c.stop).filter (fun x => ∀ c' ∈ cs, ¬c'.Holds x.2) := by
  have hbefore : ((l.zipIdx.drop pos).take (c.start - pos)).filter (fun x => ∀ c' ∈ c :: cs, ¬c'.Holds x.2) =
      (l.zipIdx.drop pos).take (c.start - pos) := by
    refine List.filter_eq_self.mpr fun x hx => decide_eq_true fun c' hm hholds => ?_
    have hlt := lt_of_mem_drop_take hx
    have hle : c'.start ≤ x.2 := hholds.1
    rcases List.mem_cons.mp hm with rfl | hm
    case inl => omega
    case inr =>
      have := hcs c' hm
      omega
  have hin : ((l.zipIdx.drop c.start).take (c.stop - c.start)).filter (fun x => ∀ c' ∈ c :: cs, ¬c'.Holds x.2) =
      [] := by
    refine List.filter_eq_nil_iff.mpr fun x hx hnone => ?_
    have hlt := lt_of_mem_drop_take hx
    have hle := le_of_mem_drop (List.mem_of_mem_take hx)
    exact of_decide_eq_true hnone c List.mem_cons_self ⟨hle, by omega⟩
  have hafter : (l.zipIdx.drop c.stop).filter (fun x => ∀ c' ∈ c :: cs, ¬c'.Holds x.2) =
      (l.zipIdx.drop c.stop).filter (fun x => ∀ c' ∈ cs, ¬c'.Holds x.2) := by
    refine List.filter_congr fun x hx => decide_eq_decide.mpr ?_
    have hle := le_of_mem_drop hx
    rw [List.forall_mem_cons, and_iff_right]
    exact fun hholds => absurd hholds.2 (Nat.not_lt.mpr hle)
  have hparts : l.zipIdx.drop pos = (l.zipIdx.drop pos).take (c.start - pos) ++
      ((l.zipIdx.drop c.start).take (c.stop - c.start) ++ l.zipIdx.drop c.stop) := by
    rw [← drop_eq_take_append_drop _ hc, ← drop_eq_take_append_drop _ hpos]
  conv_lhs => rw [hparts, List.filter_append, List.filter_append, hbefore, hin, hafter, List.nil_append]

theorem survivors_splice (h : ∀ c ∈ cs, c.start ≤ c.stop) :
    survivors (splice (mark l) pos (cs.map (·.map unmarked))) =
      (l.zipIdx.drop pos).filter fun x => ∀ c ∈ made l.length pos cs, ¬c.Holds x.2 := by
  have hlength : (mark l).length = l.length := by simp [mark]
  induction cs generalizing pos
  case nil => simp [splice, made, survivors_drop]
  case cons c cs hi =>
    obtain ⟨hc, hcs⟩ := List.forall_mem_cons.mp h
    have hsame : (c.map unmarked).Skipped (mark l).length pos ↔ c.Skipped l.length pos := by rw [hlength]; rfl
    rw [List.map_cons, made]
    by_cases hskip : c.Skipped l.length pos
    case pos => rw [if_pos hskip, splice_skip (hsame.mpr hskip), hi hcs]
    case neg =>
      have hpos : pos ≤ c.start := Nat.le_of_not_lt (not_or.mp hskip).1
      have hbehind : ∀ c' ∈ made l.length c.stop cs, c.stop ≤ c'.start := fun c' hm => le_start_of_mem_made hcs hm
      rw [if_neg hskip, splice_cut (mt hsame.mp hskip), filter_cut l hpos hc hbehind, ← hi hcs]
      simp [Cut.map, survivors_drop_take]

theorem survivors_trace (h : ∀ c ∈ cs, c.start ≤ c.stop) :
    survivors (trace l cs) = l.zipIdx.filter fun x => ∀ c ∈ made l.length 0 cs, ¬c.Holds x.2 :=
  survivors_splice h

theorem made_disjoint (h : ∀ c ∈ cs, c.start ≤ c.stop) : (made n pos cs).Pairwise (·.stop ≤ ·.start) := by
  induction cs generalizing pos
  case nil => exact .nil
  case cons c cs hi =>
    obtain ⟨-, hcs⟩ := List.forall_mem_cons.mp h
    rw [made]
    split_ifs
    case pos => exact hi hcs
    case neg => exact List.pairwise_cons.mpr ⟨fun c' hm => le_start_of_mem_made hcs hm, hi hcs⟩

-- A cut is made, or it starts inside one that stands before it and is made.
theorem made_or_inside (pos : Nat) {r : Cut α → Cut α → Prop} (hr : cs.Pairwise r)
    (hin : ∀ c ∈ cs, c.start ≤ c.stop ∧ c.stop ≤ n) (hm : c ∈ cs) :
    c.start < pos ∨ c ∈ made n pos cs ∨ ∃ k ∈ made n pos cs, r k c ∧ c.start < k.stop := by
  induction cs generalizing pos
  case nil => cases hm
  case cons c₀ cs hi =>
    obtain ⟨hfirst, hrest⟩ := List.pairwise_cons.mp hr
    obtain ⟨⟨hle, hstop⟩, hin'⟩ := List.forall_mem_cons.mp hin
    rw [made]
    split_ifs with hskip
    case pos =>
      have hbefore : c₀.start < pos := by
        rcases hskip with h | h | h <;> omega
      rcases List.mem_cons.mp hm with rfl | hm
      case inl => exact .inl hbefore
      case inr => exact hi pos hrest hin' hm
    case neg =>
      rcases List.mem_cons.mp hm with rfl | hm
      case inl => exact .inr (.inl List.mem_cons_self)
      case inr =>
        refine .inr ?_
        rcases hi c₀.stop hrest hin' hm with hlt | hmade | ⟨k, hk, hinside⟩
        case inl => exact .inr ⟨c₀, List.mem_cons_self, hfirst c hm, hlt⟩
        case inr.inl => exact .inl (List.mem_cons_of_mem _ hmade)
        case inr.inr => exact .inr ⟨k, List.mem_cons_of_mem _ hk, hinside⟩

theorem made_congr {n pos pos' : Nat} (h : ∀ c ∈ cs, pos ≤ c.start ∧ pos' ≤ c.start) :
    made n pos cs = made n pos' cs := by
  induction cs
  case nil => rfl
  case cons c cs hi =>
    obtain ⟨hc, hcs⟩ := List.forall_mem_cons.mp h
    have hsame : c.Skipped n pos ↔ c.Skipped n pos' := by
      unfold Cut.Skipped
      omega
    rw [made, made, hi hcs]
    simp only [hsame]

theorem filter_made (hsorted : cs.Pairwise (·.start ≤ ·.start)) (h : ∀ c ∈ cs, c.start ≤ c.stop) :
    (made n pos cs).filter (fun c => c.start < c.stop) = made n pos (cs.filter fun c => c.start < c.stop) := by
  induction cs generalizing pos
  case nil => rfl
  case cons c cs hi =>
    obtain ⟨hfirst, hrest⟩ := List.pairwise_cons.mp hsorted
    obtain ⟨hc, hcs⟩ := List.forall_mem_cons.mp h
    by_cases hempty : c.start < c.stop
    case pos =>
      rw [List.filter_cons_of_pos (by simpa using hempty), made, made]
      split_ifs
      case pos => exact hi hrest hcs
      case neg => rw [List.filter_cons_of_pos (by simpa using hempty), hi hrest hcs]
    case neg =>
      rw [List.filter_cons_of_neg (by simpa using hempty), made]
      split_ifs with hskip
      case pos => exact hi hrest hcs
      case neg =>
        rw [List.filter_cons_of_neg (by simpa using hempty), hi hrest hcs]
        -- All that is left starts where the empty cut stands, or behind it.
        refine made_congr fun c' hm => ?_
        have hle := hfirst c' (List.mem_filter.mp hm).1
        have hpos : pos ≤ c.start := Nat.le_of_not_lt (not_or.mp hskip).1
        omega

def Spans (cs : List (Cut α)) (a b : Nat) : Prop :=
  a < b ∧ ∃ c ∈ cs, c.start = a ∧ c.stop = b

-- The places where one can end by going from the start of the list to the next span that starts there or later, to
-- its end, and so on, with the spans on the way. Of several next spans any may be taken.
inductive Route (R : Nat → Nat → Prop) : List (Nat × Nat) → Nat → Prop
  | start : Route R [] 0
  | next {l : List (Nat × Nat)} {p a b : Nat} (route : Route R l p) (ahead : p ≤ a) (span : R a b)
      (first : ∀ a' b', R a' b' → p ≤ a' → a ≤ a') : Route R ((a, b) :: l) b

namespace Route

variable {R : Nat → Nat → Prop} {l : List (Nat × Nat)} {p : Nat}

theorem span_of_mem (h : Route R l p) (hlt : ∀ a b, R a b → a < b) : ∀ x ∈ l, x.1 < x.2 ∧ x.2 ≤ p := by
  induction h
  case start => nofun
  case next p a b route ahead span first hi =>
    have hab := hlt a b span
    refine List.forall_mem_cons.mpr ⟨⟨hab, Nat.le_refl b⟩, fun x hx => ?_⟩
    have := hi x hx
    omega

theorem stop_unique (h : Route R l p) (hlt : ∀ a b, R a b → a < b) {a b b' : Nat} (hb : (a, b) ∈ l) (hb' : (a, b') ∈ l) :
    b = b' := by
  induction h
  case start => cases hb
  case next l p a₀ b₀ route ahead span first hi =>
    have hbehind : ∀ x ∈ l, x.1 < a₀ := fun x hx => by
      have := route.span_of_mem hlt x hx
      omega
    rcases List.mem_cons.mp hb with heq | hm <;> rcases List.mem_cons.mp hb' with heq' | hm'
    case inl.inl => cases heq; cases heq'; rfl
    case inl.inr => cases heq; exact absurd (hbehind (a, b') hm') (Nat.lt_irrefl a)
    case inr.inl => cases heq'; exact absurd (hbehind (a, b) hm) (Nat.lt_irrefl a)
    case inr.inr => exact hi hm hm'

-- Where a span that starts inside another one ends inside it, none reaches over the end of a route.
theorem stop_le (h : Route R l p) (hlt : ∀ a b, R a b → a < b)
    (hnested : ∀ a b a' b', R a b → R a' b' → a ≤ a' → a' < b → b' ≤ b) : ∀ a b, R a b → a < p → b ≤ p := by
  induction h
  case start => exact fun a _ _ hpos => absurd hpos (Nat.not_lt_zero a)
  case next p a₀ b₀ route ahead span first hi =>
    intro a b hspan hpos
    rcases Nat.lt_or_ge a p with hbefore | hbehind
    case inl =>
      have hp := hi a b hspan hbefore
      have := hlt a₀ b₀ span
      omega
    case inr => exact hnested a₀ b₀ a b span hspan (first a b hspan hbehind) hpos

end Route

section Cover

variable {n : Nat} {all : List (Cut α)} (hin : ∀ c ∈ all, c.start < c.stop ∧ c.stop ≤ n)
include hin

-- Where every route that ends inside a cut ends at the start of one, the cuts that are made hold all that is to be cut.
theorem exists_made_of_joined
    (hjoined : ∀ l p, Route (Spans all) l p → (∃ c ∈ all, c.Holds p) → ∃ b, Spans all p b) {l : List (Nat × Nat)}
    {pos : Nat} (hroute : Route (Spans all) l pos) {cs : List (Cut α)} (hsorted : cs.Pairwise (·.start ≤ ·.start))
    (hsub : ∀ c ∈ cs, c ∈ all) (hsplit : ∀ c ∈ all, c ∈ cs ∨ c.start < pos) {i : Nat} (hpos : pos ≤ i)
    (hi : ∃ c ∈ all, c.Holds i) : ∃ k ∈ made n pos cs, k.Holds i := by
  -- Nothing reaches over the end of a route unless something starts there.
  have hover {l : List (Nat × Nat)} {p : Nat} (hroute : Route (Spans all) l p) (hp : p ≤ i) :
      ∀ c ∈ all, c.Holds i → c.start < p → ∃ c' ∈ all, c'.start = p := by
    intro c hm hholds hlt
    obtain ⟨b, -, c', hm', hstart, -⟩ := hjoined l p hroute ⟨c, hm, Nat.le_of_lt hlt, Nat.lt_of_le_of_lt hp hholds.2⟩
    exact ⟨c', hm', hstart⟩
  induction cs generalizing l pos
  case nil =>
    obtain ⟨c, hm, hholds⟩ := hi
    obtain ⟨c', hm', heq⟩ := hover hroute hpos c hm hholds ((hsplit c hm).resolve_left (by simp))
    exact absurd ((hsplit c' hm').resolve_left (by simp)) (heq ▸ Nat.lt_irrefl _)
  case cons c₀ cs ih =>
    obtain ⟨hfirst, hrest⟩ := List.pairwise_cons.mp hsorted
    obtain ⟨hm₀, hsub'⟩ := List.forall_mem_cons.mp hsub
    obtain ⟨hlt₀, hstop₀⟩ := hin c₀ hm₀
    have hahead : ∀ c ∈ all, pos ≤ c.start → c₀.start ≤ c.start := by
      intro c hm hle
      rcases List.mem_cons.mp ((hsplit c hm).resolve_right (Nat.not_lt.mpr hle)) with rfl | hm
      case inl => exact Nat.le_refl _
      case inr => exact hfirst c hm
    have hsplit' {p : Nat} (hp : pos ≤ p) (hbefore : c₀.start < p) : ∀ c ∈ all, c ∈ cs ∨ c.start < p := by
      intro c hm
      rcases hsplit c hm with hm | hlt
      case inl => exact (List.mem_cons.mp hm).elim (fun heq => .inr (heq ▸ hbefore)) .inl
      case inr => exact .inr (Nat.lt_of_lt_of_le hlt hp)
    rw [made]
    split_ifs with hskip
    case pos =>
      have hbefore : c₀.start < pos := by
        rcases hskip with h | h | h <;> omega
      exact ih hroute hrest hsub' (hsplit' (Nat.le_refl pos) hbefore) hpos
    case neg =>
      have hle : pos ≤ c₀.start := Nat.le_of_not_lt (not_or.mp hskip).1
      obtain ⟨c, hm, hholds⟩ := hi
      have hreach : c₀.start ≤ i := by
        rcases Nat.lt_or_ge c.start pos with hlt | hge
        case inl =>
          obtain ⟨c', hm', heq⟩ := hover hroute hpos c hm hholds hlt
          exact Nat.le_trans (heq ▸ hahead c' hm' (Nat.le_of_eq heq.symm)) hpos
        case inr => exact Nat.le_trans (hahead c hm hge) hholds.1
      rcases Nat.lt_or_ge i c₀.stop with hlt | hge
      case inl => exact ⟨c₀, List.mem_cons_self, hreach, hlt⟩
      case inr =>
        have hroute' : Route (Spans all) ((c₀.start, c₀.stop) :: l) c₀.stop := by
          refine hroute.next hle ⟨hlt₀, c₀, hm₀, rfl, rfl⟩ fun a' b' hspan hle' => ?_
          obtain ⟨-, c', hm', rfl, -⟩ := hspan
          exact hahead c' hm' hle'
        have hpos' : pos ≤ c₀.stop := Nat.le_trans hle (Nat.le_of_lt hlt₀)
        obtain ⟨k, hk, hholds⟩ := ih hroute' hrest hsub' (hsplit' hpos' hlt₀) hge
        exact ⟨k, List.mem_cons_of_mem _ hk, hholds⟩

-- Of two cuts that are made, one that reaches over the end of the other starts behind it.
theorem made_behind {pos : Nat} {k₀ k : Cut α} (hk₀ : k₀ ∈ made n pos all) (hk : k ∈ made n pos all)
    (hover : k₀.stop < k.stop) : k₀.stop ≤ k.start := by
  have hle : ∀ c ∈ all, c.start ≤ c.stop := fun c hm => Nat.le_of_lt (hin c hm).1
  have hapart : (made n pos all).Pairwise fun x y => x.stop ≤ y.start ∨ y.stop ≤ x.start := (made_disjoint hle).imp .inl
  have hsymm : Std.Symm fun x y : Cut α => x.stop ≤ y.start ∨ y.stop ≤ x.start := ⟨fun _ _ => Or.symm⟩
  have hne : k₀ ≠ k := fun heq => Nat.lt_irrefl _ (heq ▸ hover)
  have hlt₀ := (hin k₀ ((made_sublist _ _ _).subset hk₀)).1
  rcases hapart.forall hk₀ hk hne with h | h <;> omega

-- Where the spans of a route stand in front of all others that start in the same place, it ends where a cut is made.
theorem stop_of_route {l l₀ : List (Nat × Nat)} {p : Nat} (hroute : Route (Spans all) l p) (hsub : l ⊆ l₀)
    (hfirst : all.Pairwise fun x y => x.start ≤ y.start ∧ (x.start = y.start → (y.start, y.stop) ∈ l₀ → x.stop = y.stop)) :
    p = 0 ∨ ∃ k ∈ made n 0 all, k.stop = p := by
  induction hroute
  case start => exact .inl rfl
  case next l p a b route ahead span first hi =>
    obtain ⟨hmem, hsub'⟩ := List.cons_subset.mp hsub
    obtain ⟨-, c, hm, rfl, rfl⟩ := span
    have hle : ∀ c ∈ all, c.start ≤ c.stop := fun c hm => Nat.le_of_lt (hin c hm).1
    rcases made_or_inside 0 hfirst (fun c hm => ⟨hle c hm, (hin c hm).2⟩) hm with
      hlt | hmade | ⟨k, hk, ⟨hstart, htie⟩, hinside⟩
    case inl => exact absurd hlt (Nat.not_lt_zero _)
    case inr.inl => exact .inr ⟨c, hmade, rfl⟩
    case inr.inr =>
      have hkm : k ∈ all := (made_sublist _ _ _).subset hk
      -- The cut that was made instead starts behind the route so far, hence in the same place.
      have hbehind : p ≤ k.start := by
        rcases hi hsub' with rfl | ⟨k₀, hk₀, rfl⟩
        case inl => exact Nat.zero_le _
        case inr => exact made_behind hin hk₀ hk (Nat.lt_of_le_of_lt ahead hinside)
      have heq : k.start = c.start := Nat.le_antisymm hstart (first _ _ ⟨(hin k hkm).1, k, hkm, rfl, rfl⟩ hbehind)
      exact .inr ⟨k, hk, htie heq hmem⟩

end Cover

def proper (cs : List (Cut α)) : List (Cut α) :=
  cs.filter fun c => c.start < c.stop

section Proper

variable {n : Nat} {cs : List (Cut α)} {i : Nat}

theorem mem_proper {c : Cut α} : c ∈ proper cs ↔ c ∈ cs ∧ c.start < c.stop := by
  simp [proper]

theorem spans_proper (cs : List (Cut α)) : Spans (proper cs) = Spans cs := by
  funext a b
  refine propext (and_congr_right fun hab => exists_congr fun c => ?_)
  rw [mem_proper, and_assoc]
  refine and_congr_right fun _ => and_iff_right_of_imp ?_
  rintro ⟨rfl, rfl⟩
  exact hab

theorem holds_proper : (∃ c ∈ proper cs, c.Holds i) ↔ ∃ c ∈ cs, c.Holds i := by
  refine exists_congr fun c => ?_
  rw [mem_proper, and_assoc]
  exact and_congr_right fun _ => and_iff_right_of_imp fun h => Nat.lt_of_le_of_lt h.1 h.2

theorem proper_inside (hin : ∀ c ∈ cs, c.start ≤ c.stop ∧ c.stop ≤ n) :
    ∀ c ∈ proper cs, c.start < c.stop ∧ c.stop ≤ n := fun c hm =>
  ⟨(mem_proper.mp hm).2, (hin c (mem_proper.mp hm).1).2⟩

variable (hsorted : cs.Pairwise (·.start ≤ ·.start)) (hin : ∀ c ∈ cs, c.start ≤ c.stop ∧ c.stop ≤ n)
include hsorted hin

theorem holds_made : (∃ k ∈ made n 0 (proper cs), k.Holds i) ↔ ∃ k ∈ made n 0 cs, k.Holds i := by
  rw [proper, ← filter_made hsorted fun c hm => (hin c hm).1]
  exact holds_proper

theorem covers_of_joined (hjoined : ∀ l p, Route (Spans cs) l p → (∃ c ∈ cs, c.Holds p) → ∃ b, Spans cs p b)
    (hi : ∃ c ∈ cs, c.Holds i) : ∃ k ∈ made n 0 cs, k.Holds i := by
  have hjoined' : ∀ l p, Route (Spans (proper cs)) l p → (∃ c ∈ proper cs, c.Holds p) → ∃ b, Spans (proper cs) p b := by
    simpa only [spans_proper, holds_proper] using hjoined
  refine (holds_made hsorted hin).mp ?_
  exact exists_made_of_joined (proper_inside hin) hjoined' .start (hsorted.filter _) (fun _ hm => hm)
    (fun _ hm => .inl hm) (Nat.zero_le i) (holds_proper.mpr hi)

theorem joined_of_covers {l : List (Nat × Nat)} {p : Nat}
    (hfirst : (proper cs).Pairwise fun x y => x.start = y.start → (y.start, y.stop) ∈ l → x.stop = y.stop)
    (hroute : Route (Spans cs) l p) (hcover : ∃ k ∈ made n 0 cs, k.Holds p) : ∃ b, Spans cs p b := by
  rw [← spans_proper] at hroute ⊢
  obtain ⟨k, hk, hholds⟩ := (holds_made hsorted hin).mpr hcover
  have hinside := proper_inside hin
  have hkm : k ∈ proper cs := (made_sublist _ _ _).subset hk
  have hstart : k.start = p := by
    refine Nat.le_antisymm hholds.1 ?_
    rcases stop_of_route hinside hroute (List.Subset.refl l) ((hsorted.filter _).and hfirst) with rfl | ⟨k₀, hk₀, rfl⟩
    case inl => exact Nat.zero_le _
    case inr => exact made_behind hinside hk₀ hk hholds.2
  exact ⟨k.stop, hholds.2, k, hkm, hstart, rfl⟩

end Proper

end Splice
