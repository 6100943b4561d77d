import Mathlib.Data.List.Basic

-- Reading a sequence of items off a list, one after the other, until nothing is left.

namespace Parse

variable {α β ε : Type} {x : Except ε α} {l : List α} {b : β} {bs : List β} {write : β → List α}

theorem bind_eq_ok {next : α → Except ε β} : (x >>= next) = .ok b ↔ ∃ a, x = .ok a ∧ next a = .ok b := by
  cases x
  case error e => exact ⟨nofun, nofun⟩
  case ok a => exact ⟨fun h => ⟨a, rfl, h⟩, fun ⟨_, rfl, h⟩ => h⟩

theorem bind_eq_error {next : α → Except ε β} {e : ε} :
    (x >>= next) = .error e ↔ x = .error e ∨ ∃ a, x = .ok a ∧ next a = .error e := by
  cases x
  case error e' =>
    change Except.error e' = Except.error e ↔ _
    simp
  case ok a =>
    change next a = .error e ↔ _
    simp

theorem bind_of_ok {a : α} (h : x = .ok a) (next : α → Except ε β) : (x >>= next) = next a := by
  rw [h]
  rfl

theorem map_eq_ok {f : α → β} : x.map f = .ok b ↔ ∃ a, x = .ok a ∧ f a = b := by
  cases x
  case error e => exact ⟨nofun, nofun⟩
  case ok a => exact ⟨fun h => ⟨a, rfl, Except.ok.inj h⟩, fun ⟨_, rfl, h⟩ => congrArg _ h⟩

abbrev Reader (α β ε : Type) := List α → Except ε (β × List α)

def Consumes (item : Reader α β ε) : Prop :=
  ∀ {l b rest}, item l = .ok (b, rest) → rest.length < l.length

def many (item : Reader α β ε) (l : List α) : Except ε (List β) :=
  go l.length l
where
  go : Nat → List α → Except ε (List β)
    | _, [] => .ok []
    | 0, _  => .ok []
    | fuel + 1, a :: l =>
      match item (a :: l) with
      | .error e      => .error e
      | .ok (b, rest) => (go fuel rest).map (b :: ·)

variable {item : Reader α β ε}

@[simp]
theorem many_nil : many item [] = .ok [] := rfl

theorem many.go_eq (hc : Consumes item) {n : Nat} (hn : l.length ≤ n) : many.go item n l = many item l := by
  induction n using Nat.strongRecOn generalizing l
  case ind n ih =>
    cases l
    case nil => cases n <;> rfl
    case cons a l =>
      cases n
      case zero => simp at hn
      case succ n =>
        simp only [many, List.length_cons, go]
        cases hi : item (a :: l)
        case error e => rfl
        case ok r =>
          obtain ⟨b, rest⟩ := r
          have hlt : rest.length < l.length + 1 := by simpa using hc hi
          simp only [List.length_cons] at hn
          have h₁ : go item n rest = many item rest := ih n (Nat.lt_succ_self n) (by omega)
          have h₂ : go item l.length rest = many item rest := ih l.length (by omega) (by omega)
          simp only [h₁, h₂]

theorem many_ne_nil (hc : Consumes item) (hl : l ≠ []) :
    many item l = match item l with
      | .error e      => .error e
      | .ok (b, rest) => (many item rest).map (b :: ·) := by
  obtain ⟨a, l, rfl⟩ := List.exists_cons_of_ne_nil hl
  rw [many, List.length_cons, many.go]
  cases hi : item (a :: l)
  case error e => rfl
  case ok r =>
    have hlt : r.2.length < l.length + 1 := by simpa using hc hi
    simp only [many.go_eq hc (show r.2.length ≤ l.length by omega)]

theorem many_flatMap_append (hc : Consumes item) {rest : List α}
    (hr : ∀ b ∈ bs, ∀ rest, item (write b ++ rest) = .ok (b, rest)) :
    many item (bs.flatMap write ++ rest) = (many item rest).map (bs ++ ·) := by
  induction bs
  case nil => cases h : many item rest <;> simp [Except.map, h]
  case cons b bs hi =>
    have hb := hr b List.mem_cons_self (bs.flatMap write ++ rest)
    have hne : write b ++ (bs.flatMap write ++ rest) ≠ [] := by
      intro he
      have := hc hb
      rw [he] at this
      simp at this
    rw [List.flatMap_cons, List.append_assoc, many_ne_nil hc hne, hb]
    simp only
    rw [hi fun b' hm => hr b' (List.mem_cons_of_mem b hm)]
    cases many item rest <;> rfl

theorem many_flatMap (hc : Consumes item) (hr : ∀ b ∈ bs, ∀ rest, item (write b ++ rest) = .ok (b, rest)) :
    many item (bs.flatMap write) = .ok bs := by
  have h : many item (bs.flatMap write ++ []) = (many item []).map (bs ++ ·) := many_flatMap_append hc hr
  rw [List.append_nil, many_nil] at h
  rw [h]
  exact congrArg Except.ok (List.append_nil bs)

theorem many_rec (hc : Consumes item) {P : List α → List β → Prop} (nil : P [] [])
    (cons : ∀ {l b rest bs}, item l = .ok (b, rest) → P rest bs → P l (b :: bs)) (h : many item l = .ok bs) :
    P l bs := by
  induction hn : l.length using Nat.strongRecOn generalizing l bs
  case ind n ih =>
    by_cases hl : l = []
    case pos => subst hl; cases h; exact nil
    case neg =>
      rw [many_ne_nil hc hl] at h
      cases hi : item l
      case error e => rw [hi] at h; cases h
      case ok r =>
        obtain ⟨b, rest⟩ := r
        rw [hi] at h
        obtain ⟨bs', hrest, rfl⟩ := map_eq_ok.mp h
        exact cons hi (ih rest.length (hn ▸ hc hi) hrest rfl)

theorem many_forall (hc : Consumes item) {P : β → Prop} (hP : ∀ l b rest, item l = .ok (b, rest) → P b)
    (h : many item l = .ok bs) : ∀ b ∈ bs, P b := by
  apply many_rec (P := fun _ bs => ∀ b ∈ bs, P b) hc ?nil ?cons h
  case nil => simp
  case cons =>
    intro l b rest bs hi hbs
    exact List.forall_mem_cons.mpr ⟨hP l b rest hi, hbs⟩

theorem many_ok (hc : Consumes item) (hw : ∀ {l b rest}, item l = .ok (b, rest) → l = write b ++ rest)
    (h : many item l = .ok bs) : l = bs.flatMap write := by
  apply many_rec (P := fun l bs => l = bs.flatMap write) hc ?nil ?cons h
  case nil => rfl
  case cons =>
    intro l b rest bs hi hrest
    rw [hw hi, hrest, List.flatMap_cons]

def drain (item : Reader α β ε) (l : List α) : List β × Option ε :=
  go (l.length + 1) l
where
  go : Nat → List α → List β × Option ε
    | 0, _ => ([], none)
    | fuel + 1, l =>
      match item l with
      | .error e      => ([], some e)
      | .ok (b, rest) => (b :: (go fuel rest).1, (go fuel rest).2)

theorem drain.go_eq (hc : Consumes item) {n : Nat} (hn : l.length < n) : drain.go item n l = drain item l := by
  induction n using Nat.strongRecOn generalizing l
  case ind n ih =>
    cases n
    case zero => omega
    case succ n =>
      simp only [drain, go]
      cases hi : item l
      case error e => rfl
      case ok r =>
        have hlt : r.2.length < l.length := hc hi
        have h₁ : go item n r.2 = drain item r.2 := ih n (Nat.lt_succ_self n) (by omega)
        have h₂ : go item l.length r.2 = drain item r.2 := ih l.length (by omega) (by omega)
        simp only [h₁, h₂]

theorem drain_error {e : ε} (h : item l = .error e) : drain item l = ([], some e) := by
  simp only [drain, drain.go, h]

theorem drain_ok (hc : Consumes item) {l rest : List α} (h : item l = .ok (b, rest)) :
    drain item l = (b :: (drain item rest).1, (drain item rest).2) := by
  have hlt : rest.length < l.length := hc h
  simp only [drain, drain.go, h]
  rw [drain.go_eq hc hlt]
  rfl

theorem drain_flatMap_append (hc : Consumes item) {γ : Type} {write : γ → List α} {read : γ → β} {xs : List γ}
    (hr : ∀ x ∈ xs, ∀ rest, item (write x ++ rest) = .ok (read x, rest)) (rest : List α) :
    drain item (xs.flatMap write ++ rest) = (xs.map read ++ (drain item rest).1, (drain item rest).2) := by
  induction xs
  case nil => rfl
  case cons x xs hi =>
    obtain ⟨hx, hxs⟩ := List.forall_mem_cons.mp hr
    rw [List.flatMap_cons, List.append_assoc, drain_ok hc (hx _), hi hxs]
    rfl

end Parse
