import Mathlib.Data.Set.Insert
import Mathlib.Logic.Relation

-- Numbers that are taken off a counter in ranges, by holders that issue them one by one. The counter is saved
-- now and then, and after a crash it goes on from the value that was saved.

namespace Ledger

variable {ι : Type}

-- Taking from the counter and saving it are apart: a holder may issue its range once the counter is saved.
structure State (ι : Type) where
  counter  : Nat
  saved    : Nat
  -- what a holder has taken while the counter is not saved yet, and what it may issue
  reserved : ι → Set Nat
  granted  : ι → Set Nat
  issued   : List Nat

variable {L L' : State ι}

-- Numbers may get lost in every step.
structure Drops (L L' : State ι) (i : ι) : Prop where
  reserved : L'.reserved i ⊆ L.reserved i
  granted  : L'.granted i ⊆ L.granted i

inductive Step (L L' : State ι) : Prop
  | drop (counter : L'.counter = L.counter) (saved : L'.saved = L.saved) (issued : L'.issued = L.issued)
    (drops : ∀ i, Drops L L' i)
  | reserve (i : ι) (counter : L.counter ≤ L'.counter) (saved : L'.saved = L.saved) (issued : L'.issued = L.issued)
    (range : ∀ n ∈ L'.reserved i, L.counter < n ∧ n ≤ L'.counter) (granted : L'.granted i ⊆ L.granted i)
    (drops : ∀ j, j ≠ i → Drops L L' j)
  | save (counter : L'.counter = L.counter) (saved : L.counter ≤ L'.saved) (issued : L'.issued = L.issued)
    (drops : ∀ i, Drops L L' i)
  | grant (i : ι) (counter : L'.counter = L.counter) (saved : L.counter ≤ L'.saved) (issued : L'.issued = L.issued)
    (reserved : L'.reserved i = ∅) (granted : L'.granted i ⊆ L.reserved i) (drops : ∀ j, j ≠ i → Drops L L' j)
  | issue (i : ι) (n : Nat) (counter : L'.counter = L.counter) (saved : L'.saved = L.saved)
    (held : n ∈ L.granted i) (issued : L'.issued = n :: L.issued) (fresh : n ∉ L'.reserved i ∪ L'.granted i)
    (drops : ∀ j, Drops L L' j)
  | crash (counter : L'.counter = L.saved) (saved : L'.saved = L.saved) (issued : L'.issued = L.issued)
    (reserved : ∀ i, L'.reserved i = ∅) (granted : ∀ i, L'.granted i = ∅)

def held (L : State ι) (i : ι) : Set Nat :=
  L.reserved i ∪ L.granted i

theorem Drops.held {i : ι} (h : Drops L L' i) : held L' i ⊆ held L i :=
  Set.union_subset_union h.reserved h.granted

-- Nothing is in two hands, nothing is beyond the counter, and what can have left the holders is saved.
structure Inv (L : State ι) : Prop where
  bounded  : ∀ {i n}, n ∈ held L i → n ≤ L.counter
  saved    : ∀ {i n}, n ∈ L.granted i → n ≤ L.saved
  disjoint : ∀ {i j n}, n ∈ held L i → n ∈ held L j → i = j
  issued   : ∀ {n}, n ∈ L.issued → n ≤ L.counter ∧ n ≤ L.saved ∧ ∀ i, n ∉ held L i
  nodup    : L.issued.Nodup

theorem Inv.shrink (hi : Inv L) (hcounter : L'.counter = L.counter) (hheld : ∀ i, held L' i ⊆ held L i)
    (hsaved : ∀ {n}, n ≤ L.counter → n ≤ L.saved → n ≤ L'.saved) (hgranted : ∀ {i n}, n ∈ L'.granted i → n ≤ L'.saved)
    (hissued : L'.issued = L.issued) : Inv L' where
  bounded h := hcounter ▸ hi.bounded (hheld _ h)
  saved h := hgranted h
  disjoint h h' := hi.disjoint (hheld _ h) (hheld _ h')
  issued {n} h := by
    obtain ⟨hc, hs, hno⟩ := hi.issued (hissued ▸ h)
    exact ⟨hcounter ▸ hc, hsaved hc hs, fun i hn => hno i (hheld i hn)⟩
  nodup := hissued ▸ hi.nodup

theorem Inv.step (hi : Inv L) (h : Step L L') : Inv L' := by
  cases h
  case drop counter saved issued drops =>
    refine hi.shrink counter (fun i => (drops i).held) (fun _ h => saved ▸ h) (fun h => ?_) issued
    exact saved ▸ hi.saved ((drops _).granted h)
  case save counter saved issued drops =>
    refine hi.shrink counter (fun i => (drops i).held) (fun h _ => h.trans saved) (fun h => ?_) issued
    exact (hi.bounded (.inr ((drops _).granted h))).trans saved
  case grant i counter saved issued reserved granted drops =>
    have hheld : ∀ j, held L' j ⊆ held L j := by
      intro j
      by_cases hj : j = i
      case neg => exact (drops j hj).held
      case pos =>
        subst hj
        rw [held, reserved, Set.empty_union]
        exact granted.trans Set.subset_union_left
    refine hi.shrink counter hheld (fun h _ => h.trans saved) (fun h => ?_) issued
    exact (hi.bounded (hheld _ (.inr h))).trans saved
  case reserve i counter saved issued range granted drops =>
    -- What is new lies above the counter, so nobody has had it.
    have hnew : ∀ {j n}, n ∈ held L' j → n ∈ held L j ∨ j = i ∧ L.counter < n ∧ n ≤ L'.counter := by
      intro j n hn
      by_cases hj : j = i
      case neg => exact .inl ((drops j hj).held hn)
      case pos =>
        subst hj
        rcases hn with hn | hn
        case inl => exact .inr ⟨rfl, range n hn⟩
        case inr => exact .inl (.inr (granted hn))
    constructor
    case bounded =>
      intro j n hn
      rcases hnew hn with hold | ⟨-, -, hle⟩
      case inl => exact (hi.bounded hold).trans counter
      case inr => exact hle
    case saved =>
      intro j n hn
      rw [saved]
      by_cases hj : j = i
      case neg => exact hi.saved ((drops j hj).granted hn)
      case pos => subst hj; exact hi.saved (granted hn)
    case disjoint =>
      intro j j' n hn hn'
      rcases hnew hn with hold | ⟨hj, hlt, -⟩ <;> rcases hnew hn' with hold' | ⟨hj', hlt', -⟩
      case inl.inl => exact hi.disjoint hold hold'
      case inl.inr => exact absurd (hi.bounded hold) hlt'.not_ge
      case inr.inl => exact absurd (hi.bounded hold') hlt.not_ge
      case inr.inr => rw [hj, hj']
    case issued =>
      intro n hn
      obtain ⟨hc, hs, hno⟩ := hi.issued (issued ▸ hn)
      refine ⟨hc.trans counter, saved ▸ hs, fun j hj => ?_⟩
      rcases hnew hj with hold | ⟨-, hlt, -⟩
      case inl => exact hno j hold
      case inr => exact absurd hc hlt.not_ge
    case nodup => exact issued ▸ hi.nodup
  case issue i n counter saved held issued fresh drops =>
    have hshrunk : Inv { L' with issued := L.issued } := by
      refine hi.shrink counter (fun j => (drops j).held) (fun _ h => saved ▸ h) (fun h => ?_) rfl
      exact saved ▸ hi.saved ((drops _).granted h)
    refine ⟨hshrunk.bounded, hshrunk.saved, hshrunk.disjoint, ?_, ?_⟩
    case refine_1 =>
      intro n' hn'
      rw [issued] at hn'
      rcases List.mem_cons.mp hn' with rfl | hold
      case inr => exact hshrunk.issued hold
      case inl =>
        refine ⟨counter ▸ hi.bounded (.inr held), saved ▸ hi.saved held, fun j hj => ?_⟩
        cases hi.disjoint (.inr held) ((drops j).held hj)
        exact fresh hj
    case refine_2 =>
      rw [issued]
      exact List.nodup_cons.mpr ⟨fun hn => (hi.issued hn).2.2 i (.inr held), hi.nodup⟩
  case crash counter saved issued reserved granted =>
    have hnone : ∀ i, Ledger.held L' i = ∅ := fun i => by rw [Ledger.held, reserved, granted, Set.union_empty]
    constructor
    case bounded => intro i n hn; rw [hnone] at hn; cases hn
    case saved => intro i n hn; rw [granted] at hn; cases hn
    case disjoint => intro i j n hn; rw [hnone] at hn; cases hn
    case issued =>
      intro n hn
      obtain ⟨-, hs, -⟩ := hi.issued (issued ▸ hn)
      exact ⟨counter ▸ hs, saved ▸ hs, fun i h => by rw [hnone] at h; cases h⟩
    case nodup => exact issued ▸ hi.nodup

theorem issued_nodup (hi : Inv L) (h : Relation.ReflTransGen Step L L') : L'.issued.Nodup := by
  have hinv : Inv L' := by
    induction h
    case refl => exact hi
    case tail _ hstep ih => exact ih.step hstep
  exact hinv.nodup

end Ledger
