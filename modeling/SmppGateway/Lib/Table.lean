import Mathlib.Data.List.Sort
import Mathlib.Data.Prod.Lex
import SmppGateway.Go.Map

-- Tables with a primary key, and the statements on them that a store is made of.

namespace Table

open Go

variable {K V β : Type} {t : Map K V} {k : K}

section Update

variable [DecidableEq K]

def updateIn (ks : List K) (f : V → V) (t : Map K V) : Map K V where
  entries   := t.entries.map fun e => ⟨e.1, if e.1 ∈ ks then f e.2 else e.2⟩
  nodupKeys := by simpa [List.NodupKeys, List.keys, Function.comp_def] using t.nodupKeys

theorem lookup_updateIn {ks : List K} {f : V → V} :
    (updateIn ks f t).lookup k = (t.lookup k).map fun v => if k ∈ ks then f v else v := by
  ext v
  rw [← Map.mem_entries_iff, Option.map_eq_some_iff]
  constructor
  case mp =>
    intro h
    obtain ⟨⟨k', v'⟩, he, h⟩ := List.mem_map.mp h
    cases h
    exact ⟨v', Map.mem_entries_iff.mp he, rfl⟩
  case mpr =>
    rintro ⟨v', hv, rfl⟩
    exact List.mem_map.mpr ⟨⟨k, v'⟩, Map.mem_entries_iff.mpr hv, rfl⟩

-- `UPDATE t SET .. WHERE key = k AND ..`, with the number of rows it affects
def updateKey (k : K) (cond : V → Bool) (f : V → V) (t : Map K V) : Nat × Map K V :=
  match (t.lookup k).filter cond with
  | some v => (1, t.insert k (f v))
  | none   => (0, t)

theorem updateKey_none {cond : V → Bool} {f : V → V} (h : t.lookup k = none) : updateKey k cond f t = (0, t) := by
  rw [updateKey, h]
  rfl

theorem updateKey_some {cond : V → Bool} {f : V → V} {v : V} (h : t.lookup k = some v) :
    updateKey k cond f t = if cond v then (1, t.insert k (f v)) else (0, t) := by
  rw [updateKey, h, Option.filter_some]
  split
  case h_1 hc => split at hc <;> cases hc; simp [*]
  case h_2 hc => split at hc <;> cases hc; simp [*]

theorem updateKey_of_mem {f : V → V} (h : k ∈ t) :
    ∃ t', updateKey k (fun _ => true) f t = (1, t') ∧ ∀ k', k' ∈ t' ↔ k' ∈ t := by
  obtain ⟨v, hv⟩ := Option.isSome_iff_exists.mp (AList.lookup_isSome.mpr h)
  refine ⟨t.insert k (f v), updateKey_some hv, fun k' => (AList.mem_insert t).trans ?_⟩
  exact ⟨fun hk => hk.elim (fun e => e ▸ h) id, .inr⟩

end Update

section Select

variable [LinearOrder K] [LinearOrder β] {cond : V → Bool} {ord : V → β} {limit : Nat}

def ordered (cond : V → Bool) (ord : V → β) (t : Map K V) : List (β ×ₗ K) :=
  ((t.entries.filter fun e => cond e.2).map fun e => toLex (ord e.2, e.1)).insertionSort (· ≤ ·)

def selectKeys (cond : V → Bool) (ord : V → β) (limit : Nat) (t : Map K V) : List K :=
  ((ordered cond ord t).take limit).map fun x => (ofLex x).2

theorem mem_ordered {x : β} : toLex (x, k) ∈ ordered cond ord t ↔
    ∃ v, t.lookup k = some v ∧ cond v ∧ ord v = x := by
  rw [ordered, List.mem_insertionSort, List.mem_map]
  constructor
  case mp =>
    rintro ⟨⟨k', v⟩, he, h⟩
    obtain ⟨he, hc⟩ := List.mem_filter.mp he
    obtain ⟨hx, rfl⟩ := Prod.mk.inj (toLex.injective h)
    exact ⟨v, Map.mem_entries_iff.mp he, hc, hx⟩
  case mpr =>
    rintro ⟨v, hv, hc, rfl⟩
    exact ⟨⟨k, v⟩, List.mem_filter.mpr ⟨Map.mem_entries_iff.mpr hv, hc⟩, rfl⟩

theorem nodup_ordered : (ordered cond ord t).Nodup := by
  have hkeys : ((t.entries.filter fun e => cond e.2).map Sigma.fst).Nodup :=
    List.Nodup.sublist (List.filter_sublist.map _) t.nodupKeys
  refine ((List.perm_insertionSort (· ≤ ·) _).nodup_iff).mpr (.of_map (fun x => (ofLex x).2) ?_)
  rwa [List.map_map]

theorem length_ordered : (ordered cond ord t).length = (t.entries.filter fun e => cond e.2).length := by
  rw [ordered, List.length_insertionSort, List.length_map]

theorem ordered_congr {W : Type} {u : Map K W} {cond' : W → Bool} {ord' : W → β}
    (h : ∀ k x, (∃ v, t.lookup k = some v ∧ cond v ∧ ord v = x) ↔
      ∃ w, u.lookup k = some w ∧ cond' w ∧ ord' w = x) : ordered cond ord t = ordered cond' ord' u := by
  have hperm : (ordered cond ord t).Perm (ordered cond' ord' u) :=
    (List.perm_ext_iff_of_nodup nodup_ordered nodup_ordered).mpr fun x =>
      mem_ordered.trans ((h _ _).trans mem_ordered.symm)
  exact hperm.eq_of_pairwise' (List.pairwise_insertionSort ..) (List.pairwise_insertionSort ..)

theorem cond_of_mem_selectKeys (h : k ∈ selectKeys cond ord limit t) : ∃ v, t.lookup k = some v ∧ cond v := by
  obtain ⟨x, hx, rfl⟩ := List.mem_map.mp h
  obtain ⟨v, hv, hc, -⟩ := mem_ordered.mp (List.mem_of_mem_take hx)
  exact ⟨v, hv, hc⟩

theorem mem_selectKeys (hlimit : (t.entries.filter fun e => cond e.2).length ≤ limit) :
    k ∈ selectKeys cond ord limit t ↔ ∃ v, t.lookup k = some v ∧ cond v := by
  rw [selectKeys, List.take_of_length_le (length_ordered.trans_le hlimit), List.mem_map]
  constructor
  case mp =>
    rintro ⟨x, hx, rfl⟩
    obtain ⟨v, hv, hc, -⟩ := mem_ordered.mp hx
    exact ⟨v, hv, hc⟩
  case mpr =>
    rintro ⟨v, hv, hc⟩
    exact ⟨toLex (ord v, k), mem_ordered.mpr ⟨v, hv, hc, rfl⟩, rfl⟩

end Select

end Table
