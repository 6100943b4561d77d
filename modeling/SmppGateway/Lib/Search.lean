import Mathlib.Data.List.Basic

-- Searching a list for the first place where a sequence of items matches, with the preferences of a backtracking
-- matcher: every run is as long as it can be, and shorter only where what follows demands it.

namespace Search

variable {α : Type} {l : List α} {before : Option α} {a : α}

inductive Item (α : Type)
  | edge (word : α → Bool)                             -- one neighbour is in a word and the other one is not
  | one (p : α → Bool)
  | run (p : α → Bool) (min : Nat) (max : Option Nat)

structure Place (α : Type) where
  before : Option α
  rest   : List α

def Place.advance (s : Place α) (n : Nat) : Place α where
  before := (s.rest.take n).getLast?.or s.before
  rest   := s.rest.drop n

def Item.lengths : Item α → Place α → List Nat
  | edge word, s => if s.before.any word != s.rest.head?.any word then [0] else []
  | one p, s     => if s.rest.head?.any p then [1] else []
  | run p min max, s =>
    let longest := (s.rest.takeWhile p).length
    ((List.range (max.elim longest (Nat.min longest) + 1)).filter (min ≤ ·)).reverse

def places : List (Item α) → Place α → List (Place α)
  | [], s            => [s]
  | item :: items, s => (item.lengths s).flatMap fun n => places items (s.advance n)

def groupAt (items : List (Item α)) (last : Item α) (s : Place α) : Option (List α) :=
  ((places items s).flatMap fun s => (last.lengths s).map fun n => s.rest.take n).head?

def search (items : List (Item α)) (last : Item α) (before : Option α) : List α → Option (List α)
  | []     => groupAt items last ⟨before, []⟩
  | a :: l => (groupAt items last ⟨before, a :: l⟩).or (search items last (some a) l)

section Match

variable {items : List (Item α)} {last : Item α} {s : Place α} {g : List α} {p : α → Bool} {min : Nat}
  {max : Option Nat}

theorem groupAt_cons_nil {item : Item α} (h : item.lengths s = []) : groupAt (item :: items) last s = none := by
  simp [groupAt, places, h]

theorem groupAt_cons {item : Item α} {n : Nat} {ns : List Nat} (h : item.lengths s = n :: ns)
    (hg : groupAt items last (s.advance n) = some g) : groupAt (item :: items) last s = some g := by
  simp only [groupAt, places, h, List.flatMap_cons, List.flatMap_append, List.head?_append] at hg ⊢
  rw [hg]
  rfl

theorem groupAt_nil {n : Nat} {ns : List Nat} (h : last.lengths s = n :: ns) :
    groupAt [] last s = some (s.rest.take n) := by
  simp [groupAt, places, h]

theorem search_of_groupAt (h : groupAt items last ⟨before, l⟩ = some g) : search items last before l = some g := by
  cases l
  case nil => exact h
  case cons a l => rw [search, h, Option.some_or]

theorem search_step (h : groupAt items last ⟨before, a :: l⟩ = none) :
    search items last before (a :: l) = search items last (some a) l := by
  rw [search, h, Option.none_or]

theorem lengths_edge {word : α → Bool} (hb : s.before.any word = false) (ha : s.rest.head?.any word = true) :
    (Item.edge word).lengths s = [0] := by
  simp [Item.lengths, hb, ha]

theorem groupAt_one (h : p a = true) (hg : groupAt items last ⟨some a, l⟩ = some g) :
    groupAt (.one p :: items) last ⟨before, a :: l⟩ = some g := by
  have hlengths : (Item.one p).lengths ⟨before, a :: l⟩ = [1] := by simp [Item.lengths, h]
  exact groupAt_cons hlengths hg

theorem lengths_run {w l : List α} (hw : ∀ a ∈ w, p a = true) (hl : l.head?.any p = false) (hmin : min ≤ w.length)
    (hmax : ∀ n, max = some n → w.length ≤ n) :
    ∃ ns, (Item.run p min max).lengths ⟨before, w ++ l⟩ = w.length :: ns := by
  have hlongest : ((w ++ l).takeWhile p).length = w.length := by
    rw [List.takeWhile_append_of_pos hw]
    cases l
    case nil => simp
    case cons a l =>
      have ha : p a = false := hl
      simp [ha]
  have hbound : max.elim w.length (Nat.min w.length) = w.length := by
    cases max
    case none => rfl
    case some n => exact Nat.min_eq_left (hmax n rfl)
  rw [Item.lengths]
  simp only [hlongest, hbound, List.range_succ, List.filter_append, List.reverse_append]
  rw [List.filter_singleton, decide_eq_true hmin]
  exact ⟨_, rfl⟩

theorem groupAt_run {w l : List α} (hw : ∀ a ∈ w, p a = true) (hl : l.head?.any p = false) (hmin : min ≤ w.length)
    (hmax : ∀ n, max = some n → w.length ≤ n) (hg : groupAt items last ⟨w.getLast?.or before, l⟩ = some g) :
    groupAt (.run p min max :: items) last ⟨before, w ++ l⟩ = some g := by
  obtain ⟨ns, hns⟩ := lengths_run hw hl hmin hmax
  refine groupAt_cons hns ?_
  simpa [Place.advance] using hg

theorem groupAt_last {w l : List α} (hw : ∀ a ∈ w, p a = true) (hl : l.head?.any p = false) (hmin : min ≤ w.length)
    (hmax : ∀ n, max = some n → w.length ≤ n) : groupAt [] (.run p min max) ⟨before, w ++ l⟩ = some w := by
  obtain ⟨ns, hns⟩ := lengths_run hw hl hmin hmax
  rw [groupAt_nil hns]
  simp

end Match

section Words

variable {word p q : α → Bool} {items : List (Item α)} {last : Item α}

-- A word that does not start with what is looked for, and what ends it.
structure Passed (word p q : α → Bool) (x : List α × α) : Prop where
  inWord : ∀ a ∈ x.1, word a = true
  start  : ∃ a b w, x.1 = a :: b :: w ∧ (p a && q b) = false
  ends   : word x.2 = false

theorem groupAt_inside {b a : α} (hb : word b = true) (ha : word a = true) :
    groupAt (.edge word :: items) last ⟨some b, a :: l⟩ = none :=
  groupAt_cons_nil (by simp [Item.lengths, hb, ha])

theorem groupAt_mismatch {a b : α} (h : (p a && q b) = false) :
    groupAt (.edge word :: .one p :: .one q :: items) last ⟨before, a :: b :: l⟩ = none := by
  simp only [groupAt, places, Item.lengths, Place.advance]
  cases hp : p a
  case false => split <;> simp [hp]
  case true =>
    have hq : q b = false := by simpa [hp] using h
    split <;> simp [hp, hq]

theorem search_inside (items : List (Item α)) (last : Item α) (l : List α) {b : α} {w : List α}
    (hb : word b = true) (hw : ∀ a ∈ w, word a = true) :
    ∃ b', word b' = true ∧
      search (.edge word :: items) last (some b) (w ++ l) = search (.edge word :: items) last (some b') l := by
  induction w generalizing b
  case nil => exact ⟨b, hb, rfl⟩
  case cons a w hi =>
    obtain ⟨ha, hw⟩ := List.forall_mem_cons.mp hw
    obtain ⟨b', hb', heq⟩ := hi ha hw
    exact ⟨b', hb', by rw [List.cons_append, search_step (groupAt_inside hb ha), heq]⟩

theorem search_end (hp : ∀ a, p a = true → word a = true) (ha : word a = false) :
    search (.edge word :: .one p :: items) last before (a :: l) =
      search (.edge word :: .one p :: items) last (some a) l := by
  have hpa : p a = false := by
    rw [← Bool.not_eq_true]
    intro h
    rw [hp a h] at ha
    cases ha
  refine search_step ?_
  simp only [groupAt, places, Item.lengths, Place.advance]
  split <;> simp [hpa]

theorem search_passed (hp : ∀ a, p a = true → word a = true) {x : List α × α} (hx : Passed word p q x) :
    search (.edge word :: .one p :: .one q :: items) last before (x.1 ++ x.2 :: l) =
      search (.edge word :: .one p :: .one q :: items) last (some x.2) l := by
  obtain ⟨hw, ⟨a, b, w, heq, hne⟩, hend⟩ := hx
  rw [heq] at hw ⊢
  obtain ⟨ha, hw⟩ := List.forall_mem_cons.mp hw
  obtain ⟨b', -, hskip⟩ := search_inside (.one p :: .one q :: items) last (x.2 :: l) ha hw
  rw [List.cons_append, List.cons_append, search_step (groupAt_mismatch hne), ← List.cons_append, hskip,
    search_end hp hend]

theorem search_words (items : List (Item α)) (last : Item α) (hp : ∀ a, p a = true → word a = true)
    {xs : List (List α × α)} (hxs : ∀ x ∈ xs, Passed word p q x) (before : Option α) (hb : before.any word = false)
    (l : List α) :
    ∃ before' : Option α, before'.any word = false ∧
      search (.edge word :: .one p :: .one q :: items) last before (xs.flatMap (fun x => x.1 ++ [x.2]) ++ l) =
        search (.edge word :: .one p :: .one q :: items) last before' l := by
  induction xs generalizing before
  case nil => exact ⟨before, hb, rfl⟩
  case cons x xs hi =>
    obtain ⟨hx, hxs⟩ := List.forall_mem_cons.mp hxs
    obtain ⟨before', hb', heq⟩ := hi hxs (some x.2) hx.ends
    refine ⟨before', hb', ?_⟩
    rw [List.flatMap_cons, List.append_assoc, List.append_assoc, List.singleton_append, search_passed hp hx, heq]

end Words

end Search
