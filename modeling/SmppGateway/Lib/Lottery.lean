import Mathlib.Algebra.Order.Ring.Int
import Mathlib.Data.List.GetD
import Mathlib.Order.Interval.Finset.Nat

-- Drawing by weights: every ticket below the sum of the weights belongs to one of them.

namespace Lottery

def draw : List Nat → Nat → Option Nat
  | [], _      => none
  | w :: ws, n => if n < w then some 0 else (draw ws (n - w)).map (· + 1)

theorem draw_isSome {ws : List Nat} {n : Nat} (h : n < ws.sum) : (draw ws n).isSome := by
  induction ws generalizing n
  case nil => simp at h
  case cons w ws hi =>
    rw [List.sum_cons] at h
    unfold draw
    split
    case isTrue => rfl
    case isFalse => rw [Option.isSome_map]; exact hi (by omega)

theorem draw_eq_some {ws : List Nat} {n i : Nat} :
    draw ws n = some i ↔ i < ws.length ∧ (ws.take i).sum ≤ n ∧ n < (ws.take i).sum + ws.getD i 0 := by
  induction ws generalizing n i
  case nil => simp [draw]
  case cons w ws hi =>
    unfold draw
    cases i
    case zero => by_cases h : n < w <;> simp [h]
    case succ i =>
      by_cases h : n < w
      case pos => simp [h]; omega
      case neg =>
        simp only [if_neg h, Option.map_eq_some_iff, Nat.add_right_cancel_iff, exists_eq_right, hi, List.length_cons,
          List.take_succ_cons, List.sum_cons, List.getD_cons_succ]
        omega

theorem sum_take_add_le (ws : List Nat) (i : Nat) : (ws.take i).sum + ws.getD i 0 ≤ ws.sum := by
  induction ws generalizing i
  case nil => simp
  case cons w ws hi =>
    cases i
    case zero => simp
    case succ i =>
      have := hi i
      simp only [List.take_succ_cons, List.sum_cons, List.getD_cons_succ]
      omega

theorem card_draw {ws : List Nat} {i : Nat} (h : i < ws.length) :
    ((Finset.range ws.sum).filter fun n => draw ws n = some i).card = ws.getD i 0 := by
  have hsum := sum_take_add_le ws i
  have htickets : (Finset.range ws.sum).filter (fun n => draw ws n = some i) =
      Finset.Ico (ws.take i).sum ((ws.take i).sum + ws.getD i 0) := by
    ext n
    simp only [Finset.mem_filter, Finset.mem_range, Finset.mem_Ico, draw_eq_some]
    omega
  rw [htickets, Nat.card_Ico, Nat.add_sub_cancel_left]

end Lottery
