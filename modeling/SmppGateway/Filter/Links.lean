import SmppGateway.Filter.Matcher

-- What `buildAC` makes of the failure links, as long as the second step that it takes leads nowhere: a link goes to the
-- last rune or to the root.

namespace SmppGateway

open Go Fallback

namespace Filter

-- Where two runes end a word, no pattern starts with them and the second one again.
def Steady (ps : List Pattern) : Prop :=
  ∀ s x r, s ≠ [] → Begins ps (s ++ [x, r]) → ¬Begins ps [x, r, r]

-- The nodes of the words in `linked` have their link, and the patterns of the node it goes to.
structure Linked (ps : List Pattern) (names linked : List (List Char)) (m : AcMatcher) : Prop where
  named : Named names m
  mem   : ∀ s, s ∈ names ↔ Begins ps s
  fail  : ∀ i s, names[i]? = some s → names[(m.node i).fail]? = some (if s ∈ linked then fall (Begins ps) s else [])
  out   : ∀ i s, names[i]? = some s →
    (m.node i).out = own ps s ++ if s ∈ linked then own ps (fall (Begins ps) s) else []
  long  : ∀ s ∈ linked, 2 ≤ s.length

theorem Trie.linked {ps : List Pattern} {names : List (List Char)} {m : AcMatcher} (h : Trie ps names m) :
    Linked ps names [] m where
  named      := h.named
  mem        := h.mem
  fail i s hi := by
    rw [(h.out i s hi).2, if_neg List.not_mem_nil]
    exact h.named.root
  out i s hi := by rw [(h.out i s hi).1, if_neg List.not_mem_nil, List.append_nil]
  long       := nofun

section Walk

variable {ps : List Pattern} {names linked : List (List Char)} {m : AcMatcher} {i : Nat} {s : List Char}
  (h : Linked ps names linked m)
include h

theorem Linked.child_isSome (hi : names[i]? = some s) (r : Char) :
    (m.child i r).isSome = true ↔ Begins ps (s ++ [r]) := by
  rw [← h.mem, List.mem_iff_getElem?, Option.isSome_iff_exists]
  exact exists_congr fun j => h.named.child i s hi r j

theorem Linked.eq_zero (hi : names[i]? = some []) : i = 0 :=
  h.named.inj hi h.named.root

theorem Linked.fail_of_short (hi : names[i]? = some s) (hs : s.length ≤ 1) : (m.node i).fail = 0 := by
  have hnot : s ∉ linked := fun hmem => absurd (h.long s hmem) (by omega)
  have hfail := h.fail i s hi
  rw [if_neg hnot] at hfail
  exact h.eq_zero hfail

theorem Linked.walk_short (hi : names[i]? = some s) (hs : s.length ≤ 1) (r : Char) (fuel : Nat) :
    ∃ j, m.walk r (fuel + 1) i = some j ∧ names[j]? = some (if Begins ps (s ++ [r]) then s else []) := by
  cases i
  case zero =>
    have hnil : s = [] := Option.some.inj (hi.symm.trans h.named.root)
    refine ⟨0, by rw [AcMatcher.walk], ?_⟩
    rw [hnil, ite_self]
    exact h.named.root
  case succ i =>
    rw [AcMatcher.walk]
    by_cases hchild : Begins ps (s ++ [r])
    case pos =>
      rw [if_pos ((h.child_isSome hi r).mpr hchild), if_pos hchild]
      exact ⟨i + 1, rfl, hi⟩
    case neg =>
      rw [if_neg fun hsome => hchild ((h.child_isSome hi r).mp hsome), if_neg hchild, h.fail_of_short hi hs]
      refine ⟨0, by rw [AcMatcher.walk], h.named.root⟩

theorem Linked.walk_eq {s f : List Char} (hi : names[i]? = some s) (hf : names[(m.node i).fail]? = some f)
    (hshort : f.length ≤ 1) (r : Char) :
    ∃ j, m.walk r m.length i = some j ∧
      names[j]? = some (if Begins ps (s ++ [r]) then s else if Begins ps (f ++ [r]) then f else []) := by
  have hlt := h.named.lt hi
  cases i
  case zero =>
    have hnil : s = [] := Option.some.inj (hi.symm.trans h.named.root)
    have hfail := h.fail_of_short hi (by rw [hnil]; exact Nat.zero_le _)
    have hfnil : f = [] := by
      rw [hfail] at hf
      exact Option.some.inj (hf.symm.trans h.named.root)
    refine ⟨0, by rw [AcMatcher.walk], ?_⟩
    rw [hnil, hfnil, ite_self, ite_self]
    exact h.named.root
  case succ i =>
    obtain ⟨fuel, hfuel⟩ : ∃ fuel, m.length = fuel + 2 := ⟨m.length - 2, by omega⟩
    rw [hfuel, AcMatcher.walk]
    by_cases hchild : Begins ps (s ++ [r])
    case pos =>
      rw [if_pos ((h.child_isSome hi r).mpr hchild), if_pos hchild]
      exact ⟨i + 1, rfl, hi⟩
    case neg =>
      rw [if_neg fun hsome => hchild ((h.child_isSome hi r).mp hsome), if_neg hchild]
      exact h.walk_short hf hshort r fuel

end Walk

section Link

variable {ps : List Pattern} {names linked : List (List Char)} {m : AcMatcher} (h : Linked ps names linked m)

include h in
theorem Linked.update {m' : AcMatcher} {u : Nat} {t : List Char} (hu : names[u]? = some t) (hlong : 2 ≤ t.length)
    (hnot : t ∉ linked) (hnamed : Named names m') (hother : ∀ j, j ≠ u → m'.node j = m.node j)
    (hfail : names[(m'.node u).fail]? = some (fall (Begins ps) t))
    (hout : (m'.node u).out = (m.node u).out ++ own ps (fall (Begins ps) t)) : Linked ps names (t :: linked) m' := by
  have hcases {i : Nat} {s : List Char} (hi : names[i]? = some s) :
      i = u ∧ s = t ∨ i ≠ u ∧ (s ∈ t :: linked ↔ s ∈ linked) := by
    by_cases hiu : i = u
    case pos =>
      subst hiu
      exact .inl ⟨rfl, Option.some.inj (hi.symm.trans hu)⟩
    case neg =>
      have hne : s ≠ t := by
        rintro rfl
        exact hiu (h.named.inj hi hu)
      exact .inr ⟨hiu, by simp [hne]⟩
  refine ⟨hnamed, h.mem, fun i s hi => ?_, fun i s hi => ?_, fun s hs => ?_⟩
  case refine_1 =>
    rcases hcases hi with ⟨rfl, rfl⟩ | ⟨hiu, hmem⟩
    case inl => rw [if_pos List.mem_cons_self]; exact hfail
    case inr => simp only [hother i hiu, hmem]; exact h.fail i s hi
  case refine_2 =>
    rcases hcases hi with ⟨rfl, rfl⟩ | ⟨hiu, hmem⟩
    case inl => rw [if_pos List.mem_cons_self, hout, h.out i s hi, if_neg hnot, List.append_nil]
    case inr => simp only [hother i hiu, hmem]; exact h.out i s hi
  case refine_3 =>
    rcases List.mem_cons.mp hs with rfl | hs
    case inl => exact hlong
    case inr => exact h.long s hs

variable (hsteady : Steady ps) {v u : Nat} {s : List Char} {r : Char} (hv : names[v]? = some s) (hs : s ≠ [])
  (hready : s.length = 1 ∨ s ∈ linked) (hu : names[u]? = some (s ++ [r])) (hnot : s ++ [r] ∉ linked)

include h in
theorem Linked.out_of_short {k : Nat} {t : List Char} (hk : names[k]? = some t) (ht : t.length ≤ 1) :
    (m.node k).out = own ps t := by
  have hnotk : t ∉ linked := fun hmem => absurd (h.long t hmem) (by omega)
  rw [h.out k t hk, if_neg hnotk, List.append_nil]

include h hsteady hv hs hready hu in
theorem Linked.target : ∃ stop f, m.walk r m.length (m.node v).fail = some stop ∧
    (if stop = 0 then 0 else (m.child stop r).getD 0) = f ∧
    (f = 0 ∧ fall (Begins ps) (s ++ [r]) = (if Begins ps [r] then [r] else []) ∨
      m.child f r = none ∧ fall (Begins ps) (s ++ [r]) = []) := by
  have hbegins : Begins ps (s ++ [r]) := (h.mem _).mp (List.mem_of_getElem? hu)
  have hfail : names[(m.node v).fail]? = some (fall (Begins ps) s) := by
    rw [h.fail v s hv]
    rcases hready with hone | hlinked
    case inl => rw [fall_of_length_le (Nat.le_of_eq hone), ite_self]
    case inr => rw [if_pos hlinked]
  obtain ⟨fuel, hfuel⟩ : ∃ fuel, m.length = fuel + 1 := ⟨m.length - 1, by have := h.named.lt hv; omega⟩
  obtain ⟨stop, hwalk, hstop⟩ := h.walk_short hfail (length_fall_le s) r fuel
  rw [← hfuel] at hwalk
  refine ⟨stop, _, hwalk, rfl, ?_⟩
  by_cases hcont : fall (Begins ps) s ≠ [] ∧ Begins ps (fall (Begins ps) s ++ [r])
  case pos =>
    rw [if_pos hcont.2] at hstop
    have hzero : stop ≠ 0 := by
      rintro rfl
      exact hcont.1 (Option.some.inj (hstop.symm.trans h.named.root))
    obtain ⟨k, hk⟩ := Option.isSome_iff_exists.mp ((h.child_isSome hstop r).mpr hcont.2)
    have hname := (h.named.child stop _ hstop r k).mp hk
    rw [if_neg hzero, hk, Option.getD_some]
    refine .inr ⟨?_, by rw [fall_append, if_pos (.inr hcont)]⟩
    rcases fall_cases (T := Begins ps) s with hnil | ⟨t, x, ht, rfl, hx, -⟩
    case inl => exact absurd hnil hcont.1
    case inr =>
      have hnone := hsteady t x r ht (by rw [List.append_assoc] at hbegins; exact hbegins)
      rw [hx] at hname
      rw [← Option.not_isSome_iff_eq_none]
      exact fun hsome => hnone ((h.child_isSome hname r).mp hsome)
  case neg =>
    have hnil : (if Begins ps (fall (Begins ps) s ++ [r]) then fall (Begins ps) s else []) = [] := by
      split
      case isTrue hb => exact not_not.mp fun hne => hcont ⟨hne, hb⟩
      case isFalse => rfl
    rw [hnil] at hstop
    rw [h.eq_zero hstop, if_pos rfl]
    exact .inl ⟨rfl, by rw [fall_append, if_neg (not_or.mpr ⟨hs, hcont⟩)]⟩

include h hs hu hnot in
theorem Linked.setFail {f : Nat} (hf : f = 0 ∧ fall (Begins ps) (s ++ [r]) = (if Begins ps [r] then [r] else []) ∨
      m.child f r = none ∧ fall (Begins ps) (s ++ [r]) = []) :
    Named names (m.setFail u f r) ∧ (∀ j, j ≠ u → (m.setFail u f r).node j = m.node j) ∧
      ((m.setFail u f r).node u).out = (m.node u).out ∧
      names[((m.setFail u f r).node u).fail]? = some (fall (Begins ps) (s ++ [r])) := by
  have hufail : names[(m.node u).fail]? = some [] := by rw [h.fail u _ hu, if_neg hnot]
  have hsame (hnone : m.child f r = none) (hlink : fall (Begins ps) (s ++ [r]) = []) :
      Named names (m.setFail u f r) ∧ (∀ j, j ≠ u → (m.setFail u f r).node j = m.node j) ∧
        ((m.setFail u f r).node u).out = (m.node u).out ∧
        names[((m.setFail u f r).node u).fail]? = some (fall (Begins ps) (s ++ [r])) := by
    have heq : m.setFail u f r = m := by rw [AcMatcher.setFail, hnone]
    rw [heq, hlink]
    exact ⟨h.named, fun _ _ => rfl, rfl, hufail⟩
  rcases hf with ⟨rfl, hlink⟩ | ⟨hnone, hlink⟩
  case inr => exact hsame hnone hlink
  case inl =>
    by_cases hr : Begins ps [r]
    case neg =>
      refine hsame ?_ (by rw [hlink, if_neg hr])
      rw [← Option.not_isSome_iff_eq_none]
      exact fun hsome => hr ((h.child_isSome h.named.root r).mp hsome)
    case pos =>
      obtain ⟨next, hnext⟩ := Option.isSome_iff_exists.mp ((h.child_isSome h.named.root r).mpr hr)
      have hname := (h.named.child 0 [] h.named.root r next).mp hnext
      have hne : next ≠ u := by
        rintro rfl
        have heq := congrArg List.length (Option.some.inj (hname.symm.trans hu))
        have hpos := List.length_pos_iff.mpr hs
        rw [List.length_append, List.length_append] at heq
        exact absurd heq (by simp; omega)
      have heq : m.setFail u 0 r = m.modify u fun n => { n with fail := next } := by
        simp only [AcMatcher.setFail, hnext]
        rw [if_pos hne]
      rw [heq, hlink, if_pos hr]
      refine ⟨h.named.modify fun _ => rfl, fun j hj => ?_, ?_, ?_⟩
      case refine_1 => rw [AcMatcher.node_modify, if_neg fun hc => hj hc.1.symm]
      case refine_2 => rw [AcMatcher.out_modify (f := fun n => { n with fail := next }) fun _ => rfl]
      case refine_3 =>
        rw [AcMatcher.node_modify, if_pos ⟨rfl, h.named.lt hu⟩]
        exact hname

omit h in
theorem inheritOut_fail (m : AcMatcher) (u j : Nat) : ((m.inheritOut u).node j).fail = (m.node j).fail :=
  AcMatcher.fail_modify (f := fun n => { n with out := n.out ++ (m.node (m.node u).fail).out }) fun _ => rfl

include h hsteady hv hs hready hu hnot in
theorem Linked.link : ∃ m', m.link v (r, u) = some m' ∧ Linked ps names ((s ++ [r]) :: linked) m' := by
  have hlong : 2 ≤ (s ++ [r]).length := by
    have := List.length_pos_iff.mpr hs
    rw [List.length_append, List.length_singleton]
    omega
  obtain ⟨stop, f, hwalk, hf, hcases⟩ := h.target hsteady hv hs hready hu
  obtain ⟨hnamed, hother, hout, hfail⟩ := h.setFail hs hu hnot hcases
  have hlink : m.link v (r, u) = some ((m.setFail u f r).inheritOut u) := by
    simp only [AcMatcher.link, hwalk, hf, Option.bind_eq_bind, Option.bind_some]
  refine ⟨_, hlink, h.update hu hlong hnot (hnamed.modify fun _ => rfl) (fun j hj => ?_) ?_ ?_⟩
  case refine_1 => rw [AcMatcher.inheritOut, AcMatcher.node_modify, if_neg fun hc => hj hc.1.symm, hother j hj]
  case refine_2 =>
    rw [inheritOut_fail]
    exact hfail
  case refine_3 =>
    have hshort := length_fall_le (T := Begins ps) (s ++ [r])
    have hne : ((m.setFail u f r).node u).fail ≠ u := by
      intro heq
      rw [heq] at hfail
      have := congrArg List.length (Option.some.inj (hu.symm.trans hfail))
      omega
    rw [AcMatcher.inheritOut, AcMatcher.node_modify, if_pos ⟨rfl, hnamed.lt hu⟩, hother _ hne, hout,
      h.out_of_short hfail hshort]

end Link

section Children

variable {names : List (List Char)} {v : Nat} {s : List Char} (hv : names[v]? = some s)

theorem mem_children {m : AcMatcher} (h : Named names m) (hv : names[v]? = some s) {r : Char} {u : Nat} :
    (r, u) ∈ m.children v ↔ names[u]? = some (s ++ [r]) := by
  rw [← h.child v s hv, AcMatcher.child, ← Map.mem_entries_iff, AcMatcher.children, List.mem_map]
  constructor
  case mp =>
    rintro ⟨e, he, heq⟩
    cases heq
    exact he
  case mpr => exact fun he => ⟨_, he, rfl⟩

theorem nodup_children (m : AcMatcher) (v : Nat) : ((m.children v).map (·.1)).Nodup := by
  have hkeys : ((m.node v).next.entries.map Sigma.fst).Nodup := (m.node v).next.nodupKeys
  rw [AcMatcher.children, List.map_map]
  exact hkeys

variable {I : List (List Char) → AcMatcher → Prop}

def KeptByLink (names : List (List Char)) (I : List (List Char) → AcMatcher → Prop) : Prop :=
  ∀ {linked m v s r u}, I linked m → names[v]? = some s → s ≠ [] → s.length = 1 ∨ s ∈ linked →
    names[u]? = some (s ++ [r]) → s ++ [r] ∉ linked → ∃ m', m.link v (r, u) = some m' ∧ I ((s ++ [r]) :: linked) m'

include hv in
theorem linkChildren_rule (hlink : KeptByLink names I) (hs : s ≠ []) {cs : List (Char × Nat)}
    (hcs : ∀ e ∈ cs, names[e.2]? = some (s ++ [e.1])) (hnodup : (cs.map (·.1)).Nodup) {linked : List (List Char)}
    {m : AcMatcher} (h : I linked m) (hready : s.length = 1 ∨ s ∈ linked) (hnot : ∀ e ∈ cs, s ++ [e.1] ∉ linked) :
    ∃ m' linked', cs.foldlM (AcMatcher.link v) m = some m' ∧ I linked' m' ∧
      ∀ t, t ∈ linked' ↔ t ∈ linked ∨ ∃ e ∈ cs, t = s ++ [e.1] := by
  induction cs generalizing linked m
  case nil => exact ⟨m, linked, rfl, h, by simp⟩
  case cons e cs ih =>
    obtain ⟨he, hcs⟩ := List.forall_mem_cons.mp hcs
    obtain ⟨hnote, hnot⟩ := List.forall_mem_cons.mp hnot
    rw [List.map_cons, List.nodup_cons] at hnodup
    obtain ⟨m₁, hlink₁, h₁⟩ := hlink h hv hs hready he hnote
    have hnot₁ : ∀ e' ∈ cs, s ++ [e'.1] ∉ (s ++ [e.1]) :: linked := by
      intro e' he'
      rw [List.mem_cons, not_or]
      refine ⟨fun heq => hnodup.1 ?_, hnot e' he'⟩
      have hchar : e'.1 = e.1 := by simpa using heq
      exact hchar ▸ List.mem_map_of_mem he'
    obtain ⟨m₂, linked₂, hfold, h₂, hmem⟩ :=
      ih hcs hnodup.2 h₁ (hready.imp id (List.mem_cons_of_mem _)) hnot₁
    refine ⟨m₂, linked₂, ?_, h₂, fun t => ?_⟩
    case refine_1 =>
      have hlink' : AcMatcher.link v m e = some m₁ := hlink₁
      rw [List.foldlM_cons, hlink']
      exact hfold
    case refine_2 => rw [hmem, List.mem_cons, List.exists_mem_cons_iff, or_assoc, or_left_comm]

end Children

structure Frontier (ps : List Pattern) (names linked done : List (List Char)) (queue : List Nat) : Prop where
  nodup  : (done ++ queue.filterMap (names[·]?)).Nodup
  named  : ∀ v ∈ queue, ∃ s, names[v]? = some s
  mem    : ∀ s, s ∈ done ++ queue.filterMap (names[·]?) ↔ Begins ps s ∧ s ≠ [] ∧ (s.length = 1 ∨ s ∈ linked)
  linked : ∀ s r, s ++ [r] ∈ linked ↔ s ∈ done ∧ Begins ps (s ++ [r])

section Queue

variable {ps : List Pattern} {names linked done : List (List Char)} {order : AcMatcher.Order} {m : AcMatcher} {v : Nat}
  {s : List Char} {cs : List (Char × Nat)} {queue : List Nat}
  (horder : ∀ v l, (order v l).Perm l)

theorem filterMap_children (h : Named names m) (hv : names[v]? = some s) (hcs : cs.Perm (m.children v)) :
    (cs.map (·.2)).filterMap (names[·]?) = cs.map fun e => s ++ [e.1] := by
  rw [List.filterMap_map, ← List.filterMap_eq_map]
  refine List.filterMap_congr fun e he => ?_
  exact (mem_children h hv).mp (hcs.mem_iff.mp he)

theorem Frontier.all_linked (h : Frontier ps names linked done []) (hs : Begins ps s) (hlong : 2 ≤ s.length) :
    s ∈ linked := by
  induction hn : s.length using Nat.strongRecOn generalizing s
  case ind n ih =>
    rcases List.eq_nil_or_concat' s with rfl | ⟨t, r, rfl⟩
    case inl => simp at hlong
    case inr =>
      rw [List.length_append, List.length_singleton] at hlong hn
      have ht : Begins ps t := (begins_closed ps).init t r hs
      have hne : t ≠ [] := by
        rintro rfl
        simp at hlong
      have hdone : t.length = 1 ∨ t ∈ linked := by
        by_cases hone : t.length = 1
        case pos => exact .inl hone
        case neg => exact .inr (ih t.length (by omega) ht (by omega) rfl)
      have hmem := (h.mem t).mpr ⟨ht, hne, hdone⟩
      rw [List.filterMap_nil, List.append_nil] at hmem
      exact (h.linked t r).mpr ⟨hmem, hs⟩

theorem Frontier.visit {linked linked' done : List (List Char)} (hq : Frontier ps names linked done (v :: queue))
    (hnamed : Named names m) (hwords : ∀ s, s ∈ names ↔ Begins ps s) (hv : names[v]? = some s)
    (hperm : cs.Perm (m.children v)) (hlinked : ∀ t, t ∈ linked' ↔ t ∈ linked ∨ ∃ e ∈ cs, t = s ++ [e.1]) :
    Frontier ps names linked' (done ++ [s]) (queue ++ cs.map (·.2)) := by
  have hnames : (v :: queue).filterMap (names[·]?) = s :: queue.filterMap (names[·]?) := List.filterMap_cons_some hv
  have hchildren := filterMap_children hnamed hv hperm
  have hchild {r : Char} : (∃ e ∈ cs, e.1 = r) ↔ Begins ps (s ++ [r]) := by
    rw [← hwords, List.mem_iff_getElem?]
    constructor
    case mp =>
      rintro ⟨e, he, rfl⟩
      exact ⟨e.2, (mem_children hnamed hv).mp (hperm.mem_iff.mp he)⟩
    case mpr =>
      rintro ⟨u, hu⟩
      exact ⟨(r, u), hperm.mem_iff.mpr ((mem_children hnamed hv).mpr hu), rfl⟩
  have hmem := hq.mem
  have hnodup := hq.nodup
  rw [hnames] at hmem hnodup
  have hs := (hmem s).mp (by simp)
  have hdone : s ∉ done := by
    rw [List.nodup_append] at hnodup
    exact fun hm => hnodup.2.2 s hm s List.mem_cons_self rfl
  have hnew {r : Char} : s ++ [r] ∉ done ++ s :: queue.filterMap (names[·]?) := by
    intro hm
    rcases ((hmem _).mp hm).2.2 with hone | hl
    case inl =>
      rw [List.length_append, List.length_singleton] at hone
      exact hs.2.1 (List.length_eq_zero_iff.mp (by omega))
    case inr => exact hdone ((hq.linked s r).mp hl).1
  have hsplit : done ++ [s] ++ (queue ++ cs.map (·.2)).filterMap (names[·]?) =
      (done ++ s :: queue.filterMap (names[·]?)) ++ cs.map fun e => s ++ [e.1] := by
    rw [List.filterMap_append, hchildren]
    simp only [List.append_assoc, List.cons_append, List.nil_append]
  constructor
  case nodup =>
    rw [hsplit, List.nodup_append]
    refine ⟨hnodup, ?_, fun a ha b hb => ?_⟩
    case refine_1 =>
      have hkeys : (cs.map (·.1)).Nodup := (hperm.map _).nodup_iff.mpr (nodup_children m v)
      have hinj : Function.Injective fun r : Char => s ++ [r] := fun a b hab => by simpa using hab
      have hmap := hkeys.map hinj
      rwa [List.map_map] at hmap
    case refine_2 =>
      rintro rfl
      obtain ⟨e, -, rfl⟩ := List.mem_map.mp hb
      exact hnew ha
  case named =>
    intro w hw
    rcases List.mem_append.mp hw with hw | hw
    case inl => exact hq.named w (List.mem_cons_of_mem v hw)
    case inr =>
      obtain ⟨e, he, rfl⟩ := List.mem_map.mp hw
      exact ⟨_, (mem_children hnamed hv).mp (hperm.mem_iff.mp he)⟩
  case mem =>
    intro t
    rw [hsplit, List.mem_append, hmem, hlinked, List.mem_map]
    constructor
    case mp =>
      rintro (⟨hb, hne, hone | hl⟩ | ⟨e, he, rfl⟩)
      case inl.inl => exact ⟨hb, hne, .inl hone⟩
      case inl.inr => exact ⟨hb, hne, .inr (.inl hl)⟩
      case inr => exact ⟨hchild.mp ⟨e, he, rfl⟩, by simp, .inr (.inr ⟨e, he, rfl⟩)⟩
    case mpr =>
      rintro ⟨hb, hne, hone | hl | ⟨e, he, rfl⟩⟩
      case inl => exact .inl ⟨hb, hne, .inl hone⟩
      case inr.inl => exact .inl ⟨hb, hne, .inr hl⟩
      case inr.inr => exact .inr ⟨e, he, rfl⟩
  case linked =>
    intro t r
    rw [hlinked, hq.linked, List.mem_append, List.mem_singleton]
    constructor
    case mp =>
      rintro (⟨ht, hb⟩ | ⟨e, he, heq⟩)
      case inl => exact ⟨.inl ht, hb⟩
      case inr =>
        obtain ⟨rfl, hr⟩ := List.append_inj' heq rfl
        cases hr
        exact ⟨.inr rfl, hchild.mp ⟨e, he, rfl⟩⟩
    case mpr =>
      rintro ⟨ht | rfl, hb⟩
      case inl => exact .inl ⟨ht, hb⟩
      case inr =>
        obtain ⟨e, he, rfl⟩ := hchild.mpr hb
        exact .inr ⟨e, he, rfl⟩

section Rule

variable {I : List (List Char) → AcMatcher → Prop} (hlink : KeptByLink names I)
  (hnamed : ∀ {linked m}, I linked m → Named names m)

include hlink hnamed horder

theorem Frontier.linkChildren (hq : Frontier ps names linked done (v :: queue)) (h : I linked m)
    (hcs : cs <+: order v (m.children v)) :
    ∃ s m' linked', names[v]? = some s ∧ cs.foldlM (AcMatcher.link v) m = some m' ∧ I linked' m' ∧
      ∀ t, t ∈ linked' ↔ t ∈ linked ∨ ∃ e ∈ cs, t = s ++ [e.1] := by
  obtain ⟨s, hv⟩ := hq.named v List.mem_cons_self
  have hnames : (v :: queue).filterMap (names[·]?) = s :: queue.filterMap (names[·]?) := List.filterMap_cons_some hv
  have hvisit := hq.mem s
  have hnodup := hq.nodup
  rw [hnames] at hvisit hnodup
  obtain ⟨-, hs, hready⟩ := hvisit.mp (by simp)
  have hnew : s ∉ done := by
    rw [List.nodup_append] at hnodup
    exact fun hmem => hnodup.2.2 s hmem s List.mem_cons_self rfl
  have hperm := horder v (m.children v)
  have hchildren : ∀ e ∈ cs, names[e.2]? = some (s ++ [e.1]) := fun e he =>
    (mem_children (hnamed h) hv).mp (hperm.mem_iff.mp (hcs.subset he))
  have hkeys : (cs.map (·.1)).Nodup :=
    ((hperm.map _).nodup_iff.mpr (nodup_children m v)).sublist (hcs.sublist.map _)
  have hnot : ∀ e ∈ cs, s ++ [e.1] ∉ linked := fun e _ hmem => hnew ((hq.linked s e.1).mp hmem).1
  obtain ⟨m₁, linked₁, hfold, h₁, hmem₁⟩ := linkChildren_rule hv hlink hs hchildren hkeys h hready hnot
  exact ⟨s, m₁, linked₁, hv, hfold, h₁, hmem₁⟩

variable (hwords : ∀ s, s ∈ names ↔ Begins ps s)
include hwords

theorem linkAll_rule {fuel : Nat} (h : I linked m) (hq : Frontier ps names linked done queue)
    (hfuel : fuel + done.length = names.length) :
    ∃ m' linked', m.linkAll order fuel queue = some m' ∧ I linked' m' ∧
      ∀ s, Begins ps s → 2 ≤ s.length → s ∈ linked' := by
  induction fuel generalizing linked done queue m
  case zero =>
    cases queue
    case nil => exact ⟨m, linked, by rw [AcMatcher.linkAll], h, fun s => hq.all_linked⟩
    case cons v queue =>
      -- There would be more words than nodes.
      obtain ⟨s, hs⟩ := hq.named v List.mem_cons_self
      have hsub : (done ++ (v :: queue).filterMap (names[·]?)).Subperm names :=
        List.subperm_of_subset hq.nodup fun t ht => (hwords t).mpr ((hq.mem t).mp ht).1
      have hle := hsub.length_le
      rw [List.length_append, List.filterMap_cons_some hs, List.length_cons] at hle
      omega
  case succ fuel ih =>
    cases queue
    case nil => exact ⟨m, linked, by rw [AcMatcher.linkAll], h, fun s => hq.all_linked⟩
    case cons v queue =>
      obtain ⟨s, m₁, linked₁, hv, hfold, h₁, hmem₁⟩ := hq.linkChildren horder hlink hnamed h List.prefix_rfl
      have hq₁ := hq.visit (hnamed h) hwords hv (horder v (m.children v)) hmem₁
      obtain ⟨m₂, linked₂, hlinkAll, h₂, hall⟩ := ih h₁ hq₁ (by rw [List.length_append, List.length_singleton]; omega)
      refine ⟨m₂, linked₂, ?_, h₂, hall⟩
      rw [AcMatcher.linkAll]
      simp only [hfold, Option.bind_eq_bind, Option.bind_some]
      exact hlinkAll

end Rule

structure Complete (ps : List Pattern) (names linked : List (List Char)) (m : AcMatcher) : Prop
    extends Linked ps names linked m where
  all : ∀ s, Begins ps s → 2 ≤ s.length → s ∈ linked

theorem own_nil (hps : ∀ p ∈ ps, p.text ≠ []) : own ps [] = [] := by
  rw [own, List.filter_eq_nil_iff]
  intro p hp heq
  have hruns : runes p.text = [] := of_decide_eq_true heq
  refine hps p hp ?_
  have hutf8 := utf8_runes (s := p.text) (by rw [hruns]; exact List.not_mem_nil)
  rw [hruns] at hutf8
  exact hutf8.symm

section Complete

variable {linked : List (List Char)} {m : AcMatcher} {i : Nat} {s : List Char} (h : Complete ps names linked m)
include h

theorem Complete.fall_eq_nil (hi : names[i]? = some s) (hnot : s ∉ linked) : fall (Begins ps) s = [] := by
  refine fall_of_length_le ?_
  by_contra hlong
  exact hnot (h.all s ((h.mem s).mp (List.mem_of_getElem? hi)) (by omega))

theorem Complete.fail_eq (hi : names[i]? = some s) : names[(m.node i).fail]? = some (fall (Begins ps) s) := by
  rw [h.fail i s hi]
  split
  case isTrue => rfl
  case isFalse hnot => rw [h.fall_eq_nil hi hnot]

theorem Complete.out_eq (hps : ∀ p ∈ ps, p.text ≠ []) (hi : names[i]? = some s) :
    (m.node i).out = own ps s ++ own ps (fall (Begins ps) s) := by
  rw [h.out i s hi]
  split
  case isTrue => rfl
  case isFalse hnot => rw [h.fall_eq_nil hi hnot, own_nil hps]

end Complete

theorem Trie.frontier {m : AcMatcher} (h : Trie ps names m) {cs : List (Char × Nat)} (hcs : cs.Perm (m.children 0)) :
    Frontier ps names [] [] (cs.map (·.2)) := by
  have hchildren := filterMap_children h.named h.named.root hcs
  have hmem {r : Char} {u : Nat} : (r, u) ∈ cs ↔ names[u]? = some [r] := by
    rw [hcs.mem_iff, mem_children h.named h.named.root]
    rfl
  constructor
  case nodup =>
    have hkeys : (cs.map (·.1)).Nodup := (hcs.map _).nodup_iff.mpr (nodup_children m 0)
    have hinj : Function.Injective fun r : Char => [] ++ [r] := fun a b hab => by simpa using hab
    have hmap := hkeys.map hinj
    rw [List.nil_append, hchildren]
    rwa [List.map_map] at hmap
  case named =>
    intro v hv
    obtain ⟨e, he, rfl⟩ := List.mem_map.mp hv
    exact ⟨_, hmem.mp he⟩
  case mem =>
    intro s
    rw [List.nil_append, hchildren, List.mem_map]
    constructor
    case mp =>
      rintro ⟨e, he, rfl⟩
      exact ⟨(h.mem _).mp (List.mem_of_getElem? (hmem.mp he)), by simp, .inl rfl⟩
    case mpr =>
      rintro ⟨hs, -, hone | hlinked⟩
      case inl =>
        obtain ⟨r, rfl⟩ := List.length_eq_one_iff.mp hone
        obtain ⟨u, hu⟩ := List.mem_iff_getElem?.mp ((h.mem _).mpr hs)
        exact ⟨(r, u), hmem.mpr hu, rfl⟩
      case inr => exact absurd hlinked List.not_mem_nil
  case linked => simp

include horder in
theorem buildAC_complete (hsteady : Steady ps) (hps : ∀ p ∈ ps, p.text ≠ []) :
    ∃ names linked m, buildAC order ps = some m ∧ Complete ps names linked m := by
  obtain ⟨names, htrie⟩ := exists_trie hps
  have hfrontier := htrie.frontier (horder 0 _)
  have hlink : KeptByLink names (Linked ps names) := fun h hv hs hready hu hnot => h.link hsteady hv hs hready hu hnot
  obtain ⟨m, linked, hlinkAll, hlinked, hall⟩ := linkAll_rule horder hlink (fun h => h.named) htrie.mem htrie.linked
    hfrontier (by rw [htrie.named.length]; rfl)
  exact ⟨names, linked, m, hlinkAll, hlinked, hall⟩

end Queue

end Filter

end SmppGateway
