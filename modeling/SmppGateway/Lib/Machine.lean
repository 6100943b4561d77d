import Mathlib.Data.List.Basic
import Mathlib.Data.List.Perm.Basic
import Mathlib.Order.OrderIsoNat

-- Runs of a machine given by its step function. What a real execution leaves open (a clock reading,
-- an iteration order, which call fails, who moves next) is part of the event.

namespace Machine

variable {σ ε : Type}

def run (step : σ → ε → σ) (s : σ) (es : List ε) : σ :=
  es.foldl step s

-- `G` holds at every step of the run: of the state before it and the event.
def Along (step : σ → ε → σ) (G : σ → ε → Prop) : σ → List ε → Prop
  | _, []      => True
  | s, e :: es => G s e ∧ Along step G (step s e) es

instance Along.decidable {step : σ → ε → σ} {G : σ → ε → Prop} [∀ s e, Decidable (G s e)] :
    (s : σ) → (es : List ε) → Decidable (Along step G s es)
  | _, []      => .isTrue trivial
  | s, e :: es => @instDecidableAnd _ _ _ (decidable (step s e) es)

variable {step : σ → ε → σ} {G : σ → ε → Prop} {P : σ → Prop} {s : σ} {es es' : List ε} {G' : σ → ε → Prop}
  {R : σ → σ → Prop}

@[simp]
theorem run_nil : run step s [] = s := rfl

@[simp]
theorem run_cons {e : ε} : run step s (e :: es) = run step (step s e) es := rfl

@[simp]
theorem run_append : run step s (es ++ es') = run step (run step s es) es' :=
  List.foldl_append

theorem Along.append :
    Along step G s (es ++ es') ↔ Along step G s es ∧ Along step G (run step s es) es' := by
  induction es generalizing s
  case nil => simp [Along]
  case cons e es hi => simp [Along, hi, and_assoc]

theorem Along.of_forall (h : ∀ s, ∀ e ∈ es, G s e) : Along step G s es := by
  induction es generalizing s
  case nil => trivial
  case cons e es hi =>
    exact ⟨h s e List.mem_cons_self, hi fun s e' he => h s e' (List.mem_cons_of_mem e he)⟩

theorem Along.mono (hm : ∀ s e, G s e → G' s e) (h : Along step G s es) : Along step G' s es := by
  induction es generalizing s
  case nil => trivial
  case cons e es hi => exact ⟨hm s e h.1, hi h.2⟩

theorem Along.and (h : Along step G s es) (h' : Along step G' s es) : Along step (fun s e => G s e ∧ G' s e) s es := by
  induction es generalizing s
  case nil => trivial
  case cons e es hi => exact ⟨⟨h.1, h'.1⟩, hi h.2 h'.2⟩

theorem invariant (hs : P s) (h : Along step G s es) (hstep : ∀ s e, P s → G s e → P (step s e)) :
    P (run step s es) := by
  induction es generalizing s
  case nil => exact hs
  case cons e es hi => exact hi (hstep s e hs h.1) h.2

theorem relates (refl : ∀ s, R s s) (trans : ∀ {s t u}, R s t → R t u → R s u) (hs : P s) (h : Along step G s es)
    (hstep : ∀ s e, P s → G s e → P (step s e) ∧ R s (step s e)) : R s (run step s es) := by
  induction es generalizing s
  case nil => exact refl s
  case cons e es hi =>
    have ⟨hp, hr⟩ := hstep s e hs h.1
    exact trans hr (hi hp h.2)

theorem Along.congr (hs : P s) (hinv : ∀ s e, P s → P (step s e)) (hiff : ∀ s e, P s → (G s e ↔ G' s e)) :
    Along step G s es ↔ Along step G' s es := by
  induction es generalizing s
  case nil => exact Iff.rfl
  case cons e es hi => exact and_congr (hiff s e hs) (hi (hinv s e hs))

theorem Along.of_invariant (hs : P s) (h : Along step G s es) (hinv : ∀ s e, P s → G s e → P (step s e))
    (hg : ∀ s e, P s → G s e → G' s e) : Along step G' s es := by
  induction es generalizing s
  case nil => trivial
  case cons e es hi => exact ⟨hg s e hs h.1, hi (hinv s e hs h.1) h.2⟩

def Always (step : σ → ε → σ) (P : σ → Prop) (s : σ) (es : List ε) : Prop :=
  ∀ pre, pre <+: es → P (run step s pre)

theorem Always.nil : Always step P s [] ↔ P s := by
  simp [Always]

theorem Always.cons {e : ε} : Always step P s (e :: es) ↔ P s ∧ Always step P (step s e) es := by
  constructor
  case mp =>
    exact fun h => ⟨h [] List.nil_prefix, fun pre hp => h (e :: pre) (List.cons_prefix_cons.mpr ⟨rfl, hp⟩)⟩
  case mpr =>
    rintro ⟨h, hs⟩ (_ | ⟨e', pre⟩) hp
    case nil => exact h
    case cons =>
      obtain ⟨rfl, hp'⟩ := List.cons_prefix_cons.mp hp
      exact hs pre hp'

theorem Always.of_along (hs : P s) (h : Along step G s es)
    (hstep : ∀ s e, P s → G s e → P (step s e)) : Always step P s es := by
  rintro pre ⟨post, rfl⟩
  exact invariant hs (Along.append.mp h).1 hstep

theorem Always.along (h : Always step P s es) : Along step (fun s _ => P s) s es := by
  induction es generalizing s
  case nil => trivial
  case cons e es hi =>
    obtain ⟨hs, h⟩ := Always.cons.mp h
    exact ⟨hs, hi h⟩

theorem Always.iff_along {I : σ → Prop} {A : ε → Prop} (hi : I s) (hp : P s) (ha : ∀ e ∈ es, A e)
    (hinv : ∀ s e, I s → A e → I (step s e))
    (hstep : ∀ s e, I s → A e → P s → (G s e ↔ P (step s e))) :
    Always step P s es ↔ Along step G s es := by
  induction es generalizing s
  case nil => simp [Always.nil, Along, hp]
  case cons e es ih =>
    have hae := ha e List.mem_cons_self
    have hst := hstep s e hi hae hp
    have ih := fun h => ih (hinv s e hi hae) h fun e' he => ha e' (List.mem_cons_of_mem e he)
    rw [Always.cons, Along]
    constructor
    case mp =>
      rintro ⟨_, h⟩
      have hp' : P (step s e) := h [] List.nil_prefix
      exact ⟨hst.mpr hp', (ih hp').mp h⟩
    case mpr => exact fun ⟨hg, h⟩ => ⟨hp, (ih (hst.mp hg)).mpr h⟩

theorem Always.iff_last {I : σ → Prop} (hi : I s) (hinv : ∀ s e, I s → I (step s e))
    (hback : ∀ s e, I s → P (step s e) → P s) : Always step P s es ↔ P (run step s es) := by
  induction es generalizing s
  case nil => exact Always.nil
  case cons e es ih =>
    rw [Always.cons, ih (hinv s e hi), run_cons]
    refine and_iff_right_of_imp fun h => hback s e hi ?_
    exact ((ih (hinv s e hi)).mpr h) [] List.nil_prefix

def Endless (R : σ → σ → Prop) (s : σ) : Prop :=
  ∃ f : Nat → σ, f 0 = s ∧ ∀ n, R (f n) (f (n + 1))

theorem Endless.of_invariant (hs : P s) (h : ∀ s, P s → ∃ t, R s t ∧ P t) : Endless R s := by
  choose next hr hp using h
  let walk : Nat → { s // P s } := fun n => Nat.rec ⟨s, hs⟩ (fun _ x => ⟨next x.1 x.2, hp x.1 x.2⟩) n
  exact ⟨fun n => (walk n).1, rfl, fun n => hr (walk n).1 (walk n).2⟩

theorem not_endless (m : σ → Nat) (hs : P s) (h : ∀ s t, P s → R s t → P t ∧ m t < m s) : ¬Endless R s := by
  rintro ⟨f, rfl, hr⟩
  have hp (n : Nat) : P (f n) := by
    induction n
    case zero => exact hs
    case succ n hi => exact (h _ _ hi (hr n)).1
  have hanti : StrictAnti fun n => m (f n) := strictAnti_nat_of_succ_lt fun n => (h _ _ (hp n) (hr n)).2
  exact not_strictAnti_of_wellFoundedLT _ hanti

-- What is due in so many steps of one kind, and stays due through all others, comes due with them.
theorem countdown {Q : Nat → σ → Prop} (mine : ε → Bool) {k : Nat} (hs : Q k s) (h : Along step G s es)
    (hstep : ∀ k s e, Q k s → G s e → Q (k - if mine e then 1 else 0) (step s e)) :
    Q (k - es.countP mine) (run step s es) := by
  induction es generalizing k s
  case nil => exact hs
  case cons e es hi =>
    rw [run_cons, List.countP_cons, Nat.add_comm, Nat.sub_add_eq]
    exact hi (hstep k s e hs h.1) h.2

theorem measure_run_le (m : σ → Nat) (hs : P s) (h : Along step G s es)
    (hstep : ∀ s e, P s → G s e → P (step s e) ∧ m (step s e) ≤ m s - 1) :
    m (run step s es) ≤ m s - es.length := by
  induction es generalizing s
  case nil => exact Nat.le_refl _
  case cons e es hi =>
    have ⟨hp, hm⟩ := hstep s e hs h.1
    have hrun := hi hp h.2
    rw [run_cons, List.length_cons]
    omega

def Alike {α : Type} (R : σ → σ → Prop) (r r' : α × σ) : Prop :=
  r.1 = r'.1 ∧ R r.2 r'.2

theorem Alike.cases {α : Type} {r r' : α × σ} (h : Alike R r r') : ∃ a s s', r = (a, s) ∧ r' = (a, s') ∧ R s s' :=
  ⟨r.1, r.2, r'.2, rfl, Prod.ext h.1.symm rfl, h.2⟩

-- A run, and the same run without its hidden events: what relates the first states relates the last ones, if a
-- hidden step changes nothing that the relation sees and every other step keeps the relation. What comes later in
-- the run may have a say in the relation.
theorem purge {I J : σ → Prop} {R : List ε → σ → σ → Prop} (hidden : ε → Bool) {t : σ} (hs : I s) (ht : J t)
    (hr : R es s t) (h : Along step G s es)
    (hinv : ∀ s e, I s → G s e → I (step s e))
    (hinv' : ∀ s t e es, I s → J t → R (e :: es) s t → G s e → hidden e = false → J (step t e))
    (hskip : ∀ s t e es, I s → J t → R (e :: es) s t → G s e → hidden e = true → R es (step s e) t)
    (hboth : ∀ s t e es, I s → J t → R (e :: es) s t → G s e → hidden e = false → R es (step s e) (step t e)) :
    R [] (run step s es) (run step t (es.filter (!hidden ·))) := by
  induction es generalizing s t
  case nil => exact hr
  case cons e es ih =>
    have hi := hinv s e hs h.1
    cases he : hidden e
    case true =>
      rw [List.filter_cons_of_neg (by simp [he])]
      exact ih hi ht (hskip s t e es hs ht hr h.1 he) h.2
    case false =>
      rw [List.filter_cons_of_pos (by simp [he])]
      exact ih hi (hinv' s t e es hs ht hr h.1 he) (hboth s t e es hs ht hr h.1 he) h.2

section Parts

variable {α : Type} {l : List α} {i j : Nat} {a x : α}

theorem getElem?_set_cases (h : (l.set i a)[j]? = some x) :
    i = j ∧ x = a ∨ i ≠ j ∧ l[j]? = some x := by
  by_cases hij : i = j
  case pos =>
    subst hij
    have hlt : i < l.length := by simpa using (List.getElem?_eq_some_iff.mp h).1
    rw [List.getElem?_set_self hlt] at h
    exact .inl ⟨rfl, (Option.some.inj h).symm⟩
  case neg => exact .inr ⟨hij, by rwa [List.getElem?_set_ne hij] at h⟩

theorem mem_set_cases (h : x ∈ l.set i a) : x = a ∨ ∃ j, i ≠ j ∧ l[j]? = some x := by
  obtain ⟨j, hj⟩ := List.mem_iff_getElem?.mp h
  rcases getElem?_set_cases hj with ⟨_, hx⟩ | hx
  case inl => exact .inl hx
  case inr => exact .inr ⟨j, hx⟩

theorem mem_set_self (h : l[i]? = some x) : a ∈ l.set i a :=
  List.mem_set (List.getElem?_eq_some_iff.mp h).1 a

theorem mem_set_of_ne (hij : i ≠ j) (h : l[j]? = some x) : x ∈ l.set i a :=
  List.mem_of_getElem? ((List.getElem?_set_ne hij).trans h)

theorem map_set_eq {β : Type} {f : α → β} (h : l[i]? = some x) (hf : f a = f x) :
    (l.set i a).map f = l.map f := by
  ext1 j
  rw [List.getElem?_map, List.getElem?_map]
  by_cases hij : i = j
  case pos =>
    subst hij
    rw [List.getElem?_set_self (List.getElem?_eq_some_iff.mp h).1, h, Option.map_some, hf,
      Option.map_some]
  case neg => rw [List.getElem?_set_ne hij]

-- Counts and sums over the parts see one part change: they are taken over what both lists are a permutation of.
theorem perm_cons_eraseIdx (h : l[i]? = some x) : l.Perm (x :: l.eraseIdx i) := by
  obtain ⟨hi, rfl⟩ := List.getElem?_eq_some_iff.mp h
  exact (List.getElem_cons_eraseIdx_perm hi).symm

theorem set_perm_cons_eraseIdx (h : l[i]? = some x) (a : α) : (l.set i a).Perm (a :: l.eraseIdx i) :=
  List.set_perm_cons_eraseIdx (List.getElem?_eq_some_iff.mp h).1 a

theorem countP_set (p : α → Bool) (h : l[i]? = some x) (a : α) :
    (l.set i a).countP p + (if p x then 1 else 0) = l.countP p + (if p a then 1 else 0) := by
  rw [(set_perm_cons_eraseIdx h a).countP_eq, (perm_cons_eraseIdx h).countP_eq, List.countP_cons, List.countP_cons]
  omega

theorem flatMap_set_perm {β : Type} (f : α → List β) (h : l[i]? = some x) (a : α) :
    ((l.set i a).flatMap f ++ f x).Perm (l.flatMap f ++ f a) := by
  have hset := (set_perm_cons_eraseIdx h a).flatMap_right f
  have hl := (perm_cons_eraseIdx h).flatMap_right f
  rw [List.flatMap_cons] at hset hl
  calc
    ((l.set i a).flatMap f ++ f x).Perm (f a ++ (l.eraseIdx i).flatMap f ++ f x) := hset.append_right _
    List.Perm _ (f a ++ (f x ++ (l.eraseIdx i).flatMap f)) := by
      rw [List.append_assoc]
      exact List.perm_append_comm.append_left _
    List.Perm _ (f x ++ (l.eraseIdx i).flatMap f ++ f a) := List.perm_append_comm
    List.Perm _ (l.flatMap f ++ f a) := hl.symm.append_right _

end Parts

end Machine
