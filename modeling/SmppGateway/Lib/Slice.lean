import SmppGateway.Lib.Parse

-- Reading a list by offsets, where a read outside of it is a fault, and when such a reader does the same as
-- one that takes its input off the front of the list.

namespace Slice

open Parse

variable {α β γ ε : Type}

inductive Fault (ε : Type)
  | outOfRange
  | failed (e : ε)
  deriving DecidableEq, Repr

def index (l : List α) (i : Nat) : Except (Fault ε) α :=
  match l[i]? with
  | some a => .ok a
  | none   => .error .outOfRange

def slice (l : List α) (i j : Nat) : Except (Fault ε) (List α) :=
  if i ≤ j ∧ j ≤ l.length then .ok ((l.take j).drop i) else .error .outOfRange

theorem index_of_lt {l : List α} {i : Nat} (h : i < l.length) : index l i = (.ok l[i] : Except (Fault ε) α) := by
  simp only [index, List.getElem?_eq_getElem h]

@[simp]
theorem index_zero (a : α) (l : List α) : index (a :: l) 0 = (.ok a : Except (Fault ε) α) := rfl

@[simp]
theorem index_succ (a : α) (l : List α) (i : Nat) :
    index (a :: l) (i + 1) = (index l i : Except (Fault ε) α) := rfl

theorem index_of_drop {l rest : List α} {i : Nat} (h : l.drop i = rest) (j : Nat) :
    index l (i + j) = (index rest j : Except (Fault ε) α) := by
  simp only [← h, index, List.getElem?_drop]

theorem slice_of_le {l : List α} {i j : Nat} (hij : i ≤ j) (hj : j ≤ l.length) :
    slice l i j = (.ok ((l.take j).drop i) : Except (Fault ε) (List α)) :=
  if_pos ⟨hij, hj⟩

def lift (x : Except ε β) : Except (Fault ε) β :=
  x.mapError .failed

@[simp] theorem lift_ok (b : β) : lift (.ok b : Except ε β) = .ok b := rfl

@[simp] theorem lift_error (e : ε) : lift (.error e : Except ε β) = .error (.failed e) := rfl

theorem lift_bind (x : Except ε β) (next : β → Except ε γ) :
    lift (x >>= next) = lift x >>= fun b => lift (next b) := by
  cases x <;> rfl

theorem lift_ne_outOfRange (x : Except ε β) : lift x ≠ .error .outOfRange := by
  cases x <;> simp

theorem lift_eq_ok {x : Except ε β} {b : β} : lift x = .ok b ↔ x = .ok b := by
  cases x <;> simp

theorem many_lift {item : Parse.Reader α β ε} {item' : Parse.Reader α β (Fault ε)}
    (h : ∀ l, item' l = lift (item l)) (l : List α) : many item' l = lift (many item l) := by
  have hgo (n : Nat) (l : List α) : many.go item' n l = lift (many.go item n l) := by
    induction n generalizing l
    case zero => cases l <;> rfl
    case succ n hi =>
      cases l
      case nil => rfl
      case cons a l =>
        simp only [many.go, h]
        cases item (a :: l)
        case error e => rfl
        case ok r =>
          simp only [lift_ok, hi]
          cases many.go item n r.2 <;> rfl
  exact hgo l.length l

def place (l : List α) : Except ε (β × List α) → Except (Fault ε) (β × Nat)
  | .ok (b, rest) => .ok (b, l.length - rest.length)
  | .error e      => .error (.failed e)

-- At every offset into `l`, the reader does what the other one does with the rest of `l`.
structure Follows (l : List α) (c : Nat → Except (Fault ε) (β × Nat)) (r : Parse.Reader α β ε) : Prop where
  suffix : ∀ {l' b rest}, r l' = .ok (b, rest) → rest <:+ l'
  agrees : ∀ {i}, i ≤ l.length → c i = place l (r (l.drop i))

theorem drop_of_suffix {l rest : List α} (h : rest <:+ l) : l.drop (l.length - rest.length) = rest := by
  obtain ⟨front, rfl⟩ := h
  simp

theorem place_ok {l : List α} (b : β) {j : Nat} (hj : j ≤ l.length) :
    place l (.ok (b, l.drop j) : Except ε (β × List α)) = .ok (b, j) := by
  simp only [place, List.length_drop]
  congr 2
  omega

theorem Follows.bind {l : List α} {c : Nat → Except (Fault ε) (β × Nat)} {r : Parse.Reader α β ε} (h : Follows l c r)
    {i : Nat} (hi : i ≤ l.length) {next : β × Nat → Except (Fault ε) (γ × Nat)}
    {next' : β × List α → Except ε (γ × List α)}
    (hnext : ∀ b j, j ≤ l.length → next (b, j) = place l (next' (b, l.drop j))) :
    (c i >>= next) = place l (r (l.drop i) >>= next') := by
  rw [h.agrees hi]
  cases hr : r (l.drop i)
  case error e => rfl
  case ok p =>
    obtain ⟨b, rest⟩ := p
    have hsuffix : rest <:+ l := (h.suffix hr).trans (List.drop_suffix i l)
    change next (b, l.length - rest.length) = place l (next' (b, rest))
    rw [hnext b _ (Nat.sub_le ..), drop_of_suffix hsuffix]

end Slice
