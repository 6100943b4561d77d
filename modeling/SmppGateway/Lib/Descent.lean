import Mathlib.Data.List.Basic
import Mathlib.Logic.Function.Iterate

-- A function on the numbers below a bound that lowers a rank until it comes to 0. Ranks may be of any size: what it
-- takes to come to 0 is bounded by the number of numbers.

namespace Descent

structure Lowers (n : Nat) (next rank : Nat → Nat) : Prop where
  lt   : ∀ i < n, next i < n
  rank : ∀ i < n, i ≠ 0 → rank (next i) < rank i

variable {n : Nat} {next rank : Nat → Nat}

def below (n : Nat) (rank : Nat → Nat) (i : Nat) : Nat :=
  (List.range n).countP (rank · < rank i)

theorem below_lt {i : Nat} (hi : i < n) : below n rank i < n := by
  have hle : below n rank i ≤ (List.range n).length := List.countP_le_length
  rw [List.length_range] at hle
  refine Nat.lt_of_le_of_ne hle fun heq => ?_
  have hall := List.countP_eq_length.mp (heq.trans List.length_range.symm) i (List.mem_range.mpr hi)
  simp at hall

theorem below_mono {i j : Nat} (hj : j < n) (h : rank j < rank i) : below n rank j < below n rank i := by
  obtain ⟨before, after, hsplit⟩ := List.append_of_mem (List.mem_range.mpr hj)
  have hle (l : List Nat) : l.countP (rank · < rank j) ≤ l.countP (rank · < rank i) :=
    List.countP_mono_left fun k _ hk => by
      simp only [decide_eq_true_eq] at hk ⊢
      exact Nat.lt_trans hk h
  have hbefore := hle before
  have hafter := hle after
  simp only [below, hsplit, List.countP_append, List.countP_cons, Nat.lt_irrefl, h]
  simp
  omega

theorem Lowers.reaches (hl : Lowers n next rank) {i : Nat} (hi : i < n) : ∃ k < n, next^[k] i = 0 := by
  have hsteps : ∀ b i, i < n → below n rank i ≤ b → ∃ k ≤ b, next^[k] i = 0 := by
    intro b
    induction b
    case zero =>
      intro i hi hb
      by_cases h₀ : i = 0
      case pos => exact ⟨0, Nat.le_refl 0, h₀⟩
      case neg => exact absurd (below_mono (hl.lt i hi) (hl.rank i hi h₀)) (by omega)
    case succ b ih =>
      intro i hi hb
      by_cases h₀ : i = 0
      case pos => exact ⟨0, Nat.zero_le _, h₀⟩
      case neg =>
        have hlower := below_mono (hl.lt i hi) (hl.rank i hi h₀)
        obtain ⟨k, hk, hzero⟩ := ih (next i) (hl.lt i hi) (by omega)
        exact ⟨k + 1, Nat.succ_le_succ hk, hzero⟩
  obtain ⟨k, hk, hzero⟩ := hsteps _ i hi (Nat.le_refl _)
  exact ⟨k, Nat.lt_of_le_of_lt hk (below_lt hi), hzero⟩

end Descent
