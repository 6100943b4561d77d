import Mathlib.Data.List.AList
import Mathlib.Data.List.Perm.Basic

-- A Go map, read as an association list whose keys are pairwise distinct. The order of the entries
-- stands for one possible iteration order of the map.

namespace Go

abbrev Map (K V : Type) := AList (fun _ : K => V)

namespace Map

variable {K V : Type} [DecidableEq K] {m : Map K V} {k k' : K} {v : V}

theorem lookup_insert_eq : AList.lookup k' (m.insert k v) = if k' = k then some v else m.lookup k' := by
  by_cases h : k' = k
  case pos => subst h; simp
  case neg => simp [h, AList.lookup_insert_ne h]

theorem lookup_erase_eq : AList.lookup k' (m.erase k) = if k' = k then none else m.lookup k' := by
  by_cases h : k' = k
  case pos => subst h; simp
  case neg => simp [h, AList.lookup_erase_ne h]

theorem mem_entries_iff : (⟨k, v⟩ : Sigma fun _ : K => V) ∈ m.entries ↔ m.lookup k = some v :=
  (AList.mem_lookup_iff (β := fun _ : K => V)).symm.trans Option.mem_def

theorem forall_lookup {P : K → V → Prop} (h : ∀ e ∈ m.entries, P e.1 e.2) (hv : m.lookup k = some v) : P k v :=
  h ⟨k, v⟩ (mem_entries_iff.mpr hv)

theorem entries_perm_erase (h : m.lookup k = some v) : m.entries.Perm (⟨k, v⟩ :: (m.erase k).entries) := by
  have hnot : k ∉ m.erase k := by simp [AList.mem_erase]
  rw [← AList.entries_insert_of_notMem hnot]
  apply List.lookup_ext m.nodupKeys (AList.nodupKeys _)
  intro x y
  change y ∈ m.lookup x ↔ y ∈ ((m.erase k).insert k v).lookup x
  rw [lookup_insert_eq, lookup_erase_eq]
  by_cases hx : x = k
  case pos => rw [if_pos hx, hx, h]
  case neg => rw [if_neg hx, if_neg hx]

theorem entries_insert_perm :
    List.Perm ((m.insert k v).entries ++ (m.lookup k).elim [] fun w => [⟨k, w⟩]) (⟨k, v⟩ :: m.entries) := by
  cases h : m.lookup k
  case none =>
    rw [AList.entries_insert_of_notMem (AList.lookup_eq_none.mp h), Option.elim_none, List.append_nil]
  case some w =>
    have hrest : (m.insert k v).entries = ⟨k, v⟩ :: (m.erase k).entries := AList.entries_insert
    rw [hrest, Option.elim_some, List.cons_append]
    exact ((List.perm_append_singleton _ _).trans (entries_perm_erase h).symm).cons _

-- Deletes every entry that fails `p`, as a loop `for k, v := range m { if .. { delete(m, k) } }`
-- does in whatever order it visits the entries.
def filter (p : K → V → Bool) (m : Map K V) : Map K V where
  entries := m.entries.filter fun e => p e.1 e.2
  nodupKeys := List.NodupKeys.sublist List.filter_sublist m.nodupKeys

theorem lookup_filter_eq_some {p : K → V → Bool} :
    (m.filter p).lookup k = some v ↔ m.lookup k = some v ∧ p k v = true := by
  rw [← mem_entries_iff, ← mem_entries_iff]
  exact List.mem_filter

theorem lookup_filter {p : K → V → Bool} : (m.filter p).lookup k = (m.lookup k).filter (p k) := by
  ext v
  rw [lookup_filter_eq_some, Option.filter_eq_some_iff]

-- Rebuilds a map with every value replaced, as `for k, v := range m { out[k] = f(v) }` does.
def mapVal {W : Type} (f : V → W) (m : Map K V) : Map K W where
  entries := m.entries.map fun e => ⟨e.1, f e.2⟩
  nodupKeys := by
    simpa [List.NodupKeys, List.keys, Function.comp_def] using m.nodupKeys

theorem lookup_mapVal {W : Type} {f : V → W} : (m.mapVal f).lookup k = (m.lookup k).map f := by
  ext w
  rw [← mem_entries_iff, Option.map_eq_some_iff]
  constructor
  case mp =>
    intro h
    obtain ⟨⟨k', v⟩, he, h⟩ := List.mem_map.mp h
    cases h
    exact ⟨v, mem_entries_iff.mp he, rfl⟩
  case mpr =>
    rintro ⟨v, hv, rfl⟩
    exact List.mem_map.mpr ⟨⟨k, v⟩, mem_entries_iff.mpr hv, rfl⟩

-- Storing the elements of a list one after the other, as `for _, x := range l { m[f(x)] = g(x) }`.
def insertAll {α : Type} (f : α → K) (g : α → V) (m : Map K V) (l : List α) : Map K V :=
  l.foldl (fun m x => m.insert (f x) (g x)) m

section InsertAll

variable {α : Type} {f : α → K} {g : α → V} {l : List α}

theorem lookup_insertAll_of_notMem (h : ∀ x ∈ l, f x ≠ k) : (insertAll f g m l).lookup k = m.lookup k := by
  induction l generalizing m
  case nil => rfl
  case cons x l hi =>
    have hx : k ≠ f x := (h x List.mem_cons_self).symm
    exact (hi fun y hy => h y (List.mem_cons_of_mem x hy)).trans (AList.lookup_insert_ne hx)

theorem lookup_insertAll_of_mem (hn : (l.map f).Nodup) {x : α} (hx : x ∈ l) :
    (insertAll f g m l).lookup (f x) = some (g x) := by
  induction l generalizing m
  case nil => simp at hx
  case cons y l hi =>
    obtain ⟨hy, hn⟩ := List.nodup_cons.mp hn
    cases List.mem_cons.mp hx
    case inl h =>
      subst h
      have hl : ∀ z ∈ l, f z ≠ f x := fun z hz e => hy (e ▸ List.mem_map_of_mem hz)
      exact (lookup_insertAll_of_notMem (m := m.insert (f x) (g x)) hl).trans (AList.lookup_insert m)
    case inr h => exact hi hn h

theorem lookup_insertAll_eq_some (h : (insertAll f g m l).lookup k = some v) :
    (∃ x ∈ l, f x = k ∧ g x = v) ∨ (m.lookup k = some v ∧ ∀ x ∈ l, f x ≠ k) := by
  induction l generalizing m
  case nil => exact .inr ⟨h, by simp⟩
  case cons y l hi =>
    cases hi h
    case inl h =>
      obtain ⟨x, hx, h⟩ := h
      exact .inl ⟨x, List.mem_cons_of_mem y hx, h⟩
    case inr h =>
      obtain ⟨h, hl⟩ := h
      rw [lookup_insert_eq] at h
      split at h
      case isTrue e => exact .inl ⟨y, List.mem_cons_self, e.symm, Option.some.inj h⟩
      case isFalse e =>
        refine .inr ⟨h, fun x hx => ?_⟩
        cases List.mem_cons.mp hx
        case inl hx => exact hx ▸ Ne.symm e
        case inr hx => exact hl x hx

theorem mem_insertAll : k ∈ insertAll f g m l ↔ (∃ x ∈ l, f x = k) ∨ k ∈ m := by
  induction l generalizing m
  case nil => simp [insertAll]
  case cons y l hi =>
    have h := hi (m := m.insert (f y) (g y))
    simp only [insertAll, List.foldl_cons] at h ⊢
    rw [h, AList.mem_insert, List.exists_mem_cons_iff, eq_comm (a := k), or_left_comm, or_assoc]

theorem lookup_insertAll_perm (h : (l.map fun x => (⟨f x, g x⟩ : Sigma fun _ : K => V)).Perm m.entries) :
    (insertAll f g ∅ l).lookup k = m.lookup k := by
  have hkeys : (l.map f).Nodup := by
    have hn : (m.entries.map Sigma.fst).Nodup := m.nodupKeys
    have hp := (h.map Sigma.fst).nodup_iff.mpr hn
    rwa [List.map_map] at hp
  have hmem : ∀ {v}, m.lookup k = some v ↔ ∃ x ∈ l, f x = k ∧ g x = v := by
    intro v
    rw [← mem_entries_iff, ← h.mem_iff, List.mem_map]
    exact exists_congr fun x => and_congr_right fun _ => by simp
  cases hk : m.lookup k
  case some v =>
    obtain ⟨x, hx, rfl, rfl⟩ := hmem.mp hk
    exact lookup_insertAll_of_mem hkeys hx
  case none =>
    refine (lookup_insertAll_of_notMem fun x hx he => ?_).trans (AList.lookup_empty k)
    cases hk.symm.trans (hmem.mpr ⟨x, hx, he, rfl⟩)

theorem insertAll_map {β : Type} {h : β → α} {l : List β} :
    insertAll f g m (l.map h) = insertAll (f ∘ h) (g ∘ h) m l :=
  List.foldl_map

-- Storing the entries with other keys and values gives the map back exactly when none of them is another one.
theorem lookup_insertAll_eq_iff {κ : K → K} {φ : V → V} (hκ : ∀ k, κ (κ k) = κ k) (hφ : ∀ v, φ (φ v) = φ v)
    {l : List (Sigma fun _ : K => V)} (hl : l.Perm m.entries) :
    (∀ k, (insertAll (fun e => κ e.1) (fun e => φ e.2) ∅ l).lookup k = m.lookup k) ↔
      ∀ k v, m.lookup k = some v → κ k = k ∧ φ v = v := by
  constructor
  case mp =>
    intro h k v hk
    rcases lookup_insertAll_eq_some ((h k).trans hk) with ⟨e, -, rfl, rfl⟩ | ⟨hempty, -⟩
    case inl => exact ⟨hκ e.1, hφ e.2⟩
    case inr => cases hempty
  case mpr =>
    intro h k
    refine lookup_insertAll_perm ?_
    have hsame : l.map (fun e => (⟨κ e.1, φ e.2⟩ : Sigma fun _ : K => V)) = l := by
      refine (List.map_congr_left fun e he => ?_).trans (List.map_id _)
      obtain ⟨hk, hv⟩ := h e.1 e.2 (mem_entries_iff.mp (hl.mem_iff.mp he))
      rw [hk, hv]
      rfl
    rw [hsame]
    exact hl

end InsertAll

end Map
end Go
