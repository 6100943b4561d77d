import Mathlib.Algebra.Group.Hom.Defs
import Mathlib.Algebra.Order.Monoid.Defs
import SmppGateway.Lib.Machine

-- What the steps of a run cost, and the potential that pays for them.

namespace Machine

variable {σ ε β : Type} [AddCommMonoid β]

def spent (step : σ → ε → σ) (cost : σ → ε → β) : σ → List ε → β
  | _, []      => 0
  | s, e :: es => cost s e + spent step cost (step s e) es

theorem map_spent {γ : Type} [AddCommMonoid γ] (f : β →+ γ) (step : σ → ε → σ) (cost : σ → ε → β) (s : σ)
    (es : List ε) : f (spent step cost s es) = spent step (fun s e => f (cost s e)) s es := by
  induction es generalizing s
  case nil => exact map_zero f
  case cons e es hi => rw [spent, spent, map_add, hi]

variable {step : σ → ε → σ} {cost : σ → ε → β} {G : σ → ε → Prop} {P : σ → Prop} {s : σ} {es : List ε}

theorem spent_add_le [PartialOrder β] [IsOrderedAddMonoid β] {Φ : σ → β} (hs : P s) (h : Along step G s es)
    (hinv : ∀ s e, P s → G s e → P (step s e)) (hpays : ∀ s e, P s → G s e → cost s e + Φ (step s e) ≤ Φ s) :
    spent step cost s es + Φ (run step s es) ≤ Φ s := by
  induction es generalizing s
  case nil => simp [spent]
  case cons e es hi =>
    rw [spent, run_cons, add_assoc]
    calc
      cost s e + (spent step cost (step s e) es + Φ (run step (step s e) es))
      _ ≤ cost s e + Φ (step s e) := add_le_add_right (hi (hinv s e hs h.1) h.2) _
      _ ≤ Φ s                     := hpays s e hs h.1

end Machine
