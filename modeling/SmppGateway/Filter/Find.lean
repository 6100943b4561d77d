import SmppGateway.Filter.Links

-- What `Find` reports, compared with the places where the patterns occur.

namespace SmppGateway

open Go Fallback

namespace Filter

def offset (rs : List Char) (k : Nat) : Nat :=
  (utf8 (rs.take k)).length

def occurrence (rs : List Char) (p : Pattern) (k : Nat) : AcMatch where
  rule  := p.rule
  start := offset rs k
  stop  := offset rs (k + runeLen p.text)
  text  := p.text

def occurrences (ps : List Pattern) (rs : List Char) : List AcMatch :=
  ps.flatMap fun p =>
    ((List.range (rs.length + 1)).filter fun k => runes p.text <+: rs.drop k).map (occurrence rs p)

def Exact (order : AcMatcher.Order) (ps : List Pattern) : Prop :=
  ∀ rs : List Char, ∃ found, ((buildAC order ps).bind fun m => m.find (utf8 rs)) = some found ∧
    found.Perm (occurrences ps rs)

def reported (ps : List Pattern) (w : List Char) : List Pattern :=
  own ps (reached (Begins ps) w) ++ own ps (fall (Begins ps) (reached (Begins ps) w))

section Loop

variable {ps : List Pattern} {names linked : List (List Char)} {m : AcMatcher} (hps : ∀ p ∈ ps, p.text ≠ [])
  (h : Complete ps names linked m)

include h in
theorem Complete.step {i : Nat} {s : List Char} (hi : names[i]? = some s) (r : Char) :
    ∃ stop, m.walk r m.length i = some stop ∧
      names[(m.child stop r).getD stop]? = some (next (Begins ps) s r) := by
  obtain ⟨stop, hwalk, hstop⟩ := h.walk_eq hi (h.fail_eq hi) (length_fall_le s) r
  refine ⟨stop, hwalk, ?_⟩
  have hgo {q : List Char} (hq : names[stop]? = some q) (hb : Begins ps (q ++ [r])) :
      names[(m.child stop r).getD stop]? = some (q ++ [r]) := by
    obtain ⟨k, hk⟩ := Option.isSome_iff_exists.mp ((h.child_isSome hq r).mpr hb)
    rw [hk, Option.getD_some]
    exact (h.named.child stop q hq r k).mp hk
  unfold next
  by_cases hs : Begins ps (s ++ [r])
  case pos =>
    rw [if_pos hs] at hstop ⊢
    exact hgo hstop hs
  case neg =>
    rw [if_neg hs] at hstop ⊢
    by_cases hf : Begins ps (fall (Begins ps) s ++ [r])
    case pos =>
      rw [if_pos hf] at hstop ⊢
      exact hgo hstop hf
    case neg =>
      rw [if_neg hf] at hstop ⊢
      by_cases hr : Begins ps [r]
      case pos =>
        rw [if_pos hr]
        exact hgo hstop hr
      case neg =>
        have hnone : m.child stop r = none := by
          rw [← Option.not_isSome_iff_eq_none]
          exact fun hsome => hr ((h.child_isSome hstop r).mp hsome)
        rw [if_neg hr, hnone]
        exact hstop

include hps h in
theorem Complete.run (byteEnds : List Nat) (rs : List Char) :
    ∃ node, rs.foldlM (m.findStep byteEnds) {} = some {
        matches'  := (List.range rs.length).flatMap fun i => (reported ps (rs.take (i + 1))).filterMap (matchAt byteEnds i)
        node      := node
        runeIndex := rs.length } ∧ names[node]? = some (reached (Begins ps) rs) := by
  induction rs using List.reverseRecOn
  case nil => exact ⟨0, rfl, h.named.root⟩
  case append_singleton rs r ih =>
    obtain ⟨node, hfold, hnode⟩ := ih
    obtain ⟨stop, hwalk, hnext⟩ := h.step hnode r
    refine ⟨(m.child stop r).getD stop, ?_, by rw [reached_append]; exact hnext⟩
    have hout : (m.node ((m.child stop r).getD stop)).out = reported ps (rs ++ [r]) := by
      rw [h.out_eq hps hnext, reported, reached_append]
    have hbefore : (List.range rs.length).flatMap (fun i => (reported ps ((rs ++ [r]).take (i + 1))).filterMap
        (matchAt byteEnds i)) = (List.range rs.length).flatMap fun i => (reported ps (rs.take (i + 1))).filterMap
        (matchAt byteEnds i) := by
      refine List.flatMap_congr fun i hi => ?_
      rw [List.take_append_of_le_length (List.mem_range.mp hi)]
    have hwhole : (rs ++ [r]).take (rs.length + 1) = rs ++ [r] := List.take_of_length_le (by simp)
    rw [List.foldlM_append, hfold]
    simp only [Option.bind_eq_bind, Option.bind_some, List.foldlM_cons, List.foldlM_nil, AcMatcher.findStep, hwalk, hout,
      List.length_append, List.length_singleton, List.range_succ, List.flatMap_append, List.flatMap_singleton, hbefore,
      hwhole]
    rfl

end Loop

theorem byteEnds_utf8 (rs : List Char) :
    (range (utf8 rs)).map (·.1) ++ [(utf8 rs).length] = (List.range (rs.length + 1)).map (offset rs) := by
  have hranges : (range (utf8 rs)).map (·.1) = (List.range rs.length).map (offset rs) := by
    rw [range_utf8, List.map_map]
    have hsnd : List.range rs.length = rs.zipIdx.map Prod.snd := by rw [List.zipIdx_map_snd, List.range_eq_range']
    rw [hsnd, List.map_map]
    rfl
  rw [hranges, List.range_succ, List.map_append, List.map_singleton, offset, List.take_length]

theorem offset_inj {rs : List Char} {j k : Nat} (hj : j ≤ rs.length) (hk : k ≤ rs.length)
    (h : offset rs j = offset rs k) : j = k := by
  have hle (a b : Nat) (hab : a ≤ b) (hb : b ≤ rs.length) (hlen : offset rs a = offset rs b) : a = b := by
    have hshort : utf8 (rs.take a) <+: utf8 (rs.take b) := by
      have htake : rs.take a <+: rs.take b := List.take_prefix_take_left hab
      obtain ⟨t, ht⟩ := htake
      exact ⟨utf8 t, by rw [← utf8_append, ht]⟩
    have heq := utf8_injective (hshort.eq_of_length hlen)
    have := congrArg List.length heq
    rw [List.length_take, List.length_take] at this
    omega
  rcases Nat.le_total j k with hjk | hkj
  case inl => exact hle j k hjk hk h
  case inr => exact (hle k j hkj hj h.symm).symm

theorem matchAt_eq {rs : List Char} {i : Nat} (hi : i < rs.length) (p : Pattern) :
    matchAt ((List.range (rs.length + 1)).map (offset rs)) i p =
      if i + 1 < runeLen p.text then none
      else some { rule := p.rule, start := offset rs (i + 1 - runeLen p.text), stop := offset rs (i + 1), text := p.text } := by
  have hend {k : Nat} (hk : k ≤ rs.length) : ((List.range (rs.length + 1)).map (offset rs))[k]?.getD 0 = offset rs k := by
    rw [List.getElem?_map, List.getElem?_range (Nat.lt_succ_of_le hk)]
    rfl
  rw [matchAt, hend (by omega), hend (by omega)]

theorem suffix_take_iff {q rs : List Char} {i : Nat} (hi : i < rs.length) :
    q <:+ rs.take (i + 1) ↔ q.length ≤ i + 1 ∧ q <+: rs.drop (i + 1 - q.length) := by
  have htake : (rs.take (i + 1)).length = i + 1 := by rw [List.length_take]; omega
  constructor
  case mp =>
    intro h
    have hle : q.length ≤ i + 1 := htake ▸ h.length_le
    refine ⟨hle, ?_⟩
    rw [List.suffix_iff_eq_drop, htake, List.drop_take] at h
    rw [List.prefix_iff_eq_take]
    rwa [show i + 1 - (i + 1 - q.length) = q.length by omega] at h
  case mpr =>
    rintro ⟨hle, h⟩
    rw [List.suffix_iff_eq_drop, htake, List.drop_take, show i + 1 - (i + 1 - q.length) = q.length by omega]
    exact List.prefix_iff_eq_take.mp h

theorem starts_perm {q rs : List Char} (hq : q ≠ []) :
    (((List.range rs.length).filter fun i => q <:+ rs.take (i + 1)).map fun i => i + 1 - q.length).Perm
      ((List.range (rs.length + 1)).filter fun k => q <+: rs.drop k) := by
  have hpos : 0 < q.length := List.length_pos_iff.mpr hq
  refine (List.perm_ext_iff_of_nodup ?_ (List.nodup_range.filter _)).mpr fun k => ?_
  case refine_1 =>
    refine List.Nodup.map_on (fun i hi j hj hij => ?_) (List.nodup_range.filter _)
    simp only [List.mem_filter, List.mem_range, decide_eq_true_eq] at hi hj
    have hile := ((suffix_take_iff hi.1).mp hi.2).1
    have hjle := ((suffix_take_iff hj.1).mp hj.2).1
    omega
  case refine_2 =>
    simp only [List.mem_map, List.mem_filter, List.mem_range, decide_eq_true_eq]
    constructor
    case mp =>
      rintro ⟨i, ⟨hi, hsuf⟩, rfl⟩
      exact ⟨by omega, ((suffix_take_iff hi).mp hsuf).2⟩
    case mpr =>
      rintro ⟨hk, hpre⟩
      have hlen := hpre.length_le
      rw [List.length_drop] at hlen
      have hi : k + q.length - 1 < rs.length := by omega
      have hback : k + q.length - 1 + 1 - q.length = k := by omega
      refine ⟨k + q.length - 1, ⟨hi, (suffix_take_iff hi).mpr ⟨by omega, ?_⟩⟩, hback⟩
      rwa [hback]

theorem flatMap_swap {α β γ : Type} (l : List α) (l' : List β) (f : α → β → List γ) :
    (l.flatMap fun a => l'.flatMap (f a)).Perm (l'.flatMap fun b => l.flatMap fun a => f a b) := by
  induction l
  case nil => simp
  case cons a l ih =>
    simp only [List.flatMap_cons]
    exact (ih.append_left _).trans (List.flatMap_append_perm l' (f a) _)

theorem flatMap_ite {α β : Type} (l : List α) (P : α → Prop) [DecidablePred P] (f : α → β) :
    (l.flatMap fun a => if P a then [f a] else []) = (l.filter fun a => P a).map f := by
  induction l
  case nil => rfl
  case cons a l ih =>
    rw [List.flatMap_cons, ih]
    by_cases ha : P a
    case pos => rw [if_pos ha, List.filter_cons_of_pos (by simp [ha]), List.map_cons, List.singleton_append]
    case neg => rw [if_neg ha, List.filter_cons_of_neg (by simp [ha]), List.nil_append]

theorem filter_or_perm {α : Type} {p q : α → Bool} {l : List α} (h : ∀ a ∈ l, p a = true → q a = false) :
    (l.filter p ++ l.filter q).Perm (l.filter fun a => p a || q a) := by
  induction l
  case nil => rfl
  case cons a l ih =>
    obtain ⟨ha, hl⟩ := List.forall_mem_cons.mp h
    cases hp : p a
    case true =>
      rw [List.filter_cons_of_pos hp, List.filter_cons_of_neg (by simp [ha hp]), List.filter_cons_of_pos (by simp [hp])]
      exact (ih hl).cons a
    case false =>
      rw [List.filter_cons_of_neg (by simp [hp])]
      cases hq : q a
      case true =>
        rw [List.filter_cons_of_pos hq, List.filter_cons_of_pos (by simp [hq])]
        exact List.perm_middle.trans ((ih hl).cons a)
      case false =>
        rw [List.filter_cons_of_neg (by simp [hq]), List.filter_cons_of_neg (by simp [hp, hq])]
        exact ih hl

section Exact

variable {ps : List Pattern} (hps : ∀ p ∈ ps, p.text ≠ [])

include hps in
theorem runes_ne_nil {p : Pattern} (hp : p ∈ ps) : runes p.text ≠ [] := by
  intro hnil
  have hmem : p ∈ own ps [] := List.mem_filter.mpr ⟨hp, decide_eq_true hnil⟩
  rw [own_nil hps] at hmem
  cases hmem

include hps in
theorem reported_perm (hapart : Apart (Begins ps)) (w : List Char) :
    (reported ps w).Perm (ps.filter fun p => runes p.text <:+ w) := by
  have hsuffix : (ps.filter fun p => runes p.text <:+ w) =
      ps.filter fun p => decide (runes p.text = reached (Begins ps) w) ||
        decide (runes p.text = fall (Begins ps) (reached (Begins ps) w)) := by
    refine List.filter_congr fun p hp => ?_
    have hbegins : Begins ps (runes p.text) := .inr ⟨p, hp, List.prefix_refl _⟩
    rw [← Bool.decide_or, decide_eq_decide]
    exact suffix_iff_of_apart (begins_closed ps) hapart hbegins (runes_ne_nil hps hp)
  rw [hsuffix]
  refine filter_or_perm fun p hp heq => ?_
  have hs : runes p.text = reached (Begins ps) w := of_decide_eq_true heq
  refine decide_eq_false fun hf => ?_
  rw [← hs] at hf
  rcases fall_cases (T := Begins ps) (runes p.text) with hnil | ⟨t, a, ht, htext, hone, -⟩
  case inl => exact runes_ne_nil hps hp (hf.trans hnil)
  case inr =>
    rw [hone, htext] at hf
    exact ht (List.append_left_eq_self.mp hf)

theorem matchAt_of_suffix {p : Pattern} {rs : List Char} {i : Nat} (hi : i < rs.length)
    (hsuf : runes p.text <:+ rs.take (i + 1)) :
    matchAt ((List.range (rs.length + 1)).map (offset rs)) i p = some (occurrence rs p (i + 1 - runeLen p.text)) := by
  have hle : runeLen p.text ≤ i + 1 := ((suffix_take_iff hi).mp hsuf).1
  rw [matchAt_eq hi, if_neg (by omega), occurrence, show i + 1 - runeLen p.text + runeLen p.text = i + 1 by omega]

include hps in
theorem found_perm (hapart : Apart (Begins ps)) (rs : List Char) :
    ((List.range rs.length).flatMap fun i => (reported ps (rs.take (i + 1))).filterMap
      (matchAt ((List.range (rs.length + 1)).map (offset rs)) i)).Perm (occurrences ps rs) := by
  have hends (i : Nat) (hi : i ∈ List.range rs.length) :
      ((reported ps (rs.take (i + 1))).filterMap (matchAt ((List.range (rs.length + 1)).map (offset rs)) i)).Perm
      (ps.flatMap fun p =>
        if runes p.text <:+ rs.take (i + 1) then [occurrence rs p (i + 1 - runeLen p.text)] else []) := by
    refine ((reported_perm hps hapart _).filterMap _).trans (.of_eq ?_)
    rw [flatMap_ite]
    refine (List.filterMap_congr fun p hp => ?_).trans (congrFun List.filterMap_eq_map' _)
    exact matchAt_of_suffix (List.mem_range.mp hi) (of_decide_eq_true (List.mem_filter.mp hp).2)
  refine (List.Perm.flatMap_left _ hends).trans ((flatMap_swap _ _ _).trans ?_)
  refine List.Perm.flatMap_left _ fun p hp => ?_
  rw [flatMap_ite, ← Function.comp_def (occurrence rs p), ← List.map_map]
  exact (starts_perm (runes_ne_nil hps hp)).map _

theorem steady_of_apart (hapart : Apart (Begins ps)) : Steady ps := by
  intro s x r hs hlong hthree
  refine (not_apart_iff (begins_closed ps)).mpr ⟨s, x, r, hs, hlong, ?_⟩ hapart
  exact (begins_closed ps).init [x, r] r hthree

variable {order : AcMatcher.Order} (horder : ∀ v l, (order v l).Perm l)

include hps horder in
theorem find_eq (hsteady : Steady ps) (rs : List Char) :
    ((buildAC order ps).bind fun m => m.find (utf8 rs)) =
      some ((List.range rs.length).flatMap fun i => (reported ps (rs.take (i + 1))).filterMap
        (matchAt ((List.range (rs.length + 1)).map (offset rs)) i)) := by
  obtain ⟨names, linked, m, hbuild, hcomplete⟩ := buildAC_complete horder hsteady hps
  obtain ⟨node, hrun, -⟩ := hcomplete.run hps ((List.range (rs.length + 1)).map (offset rs)) rs
  rw [hbuild, Option.bind_some, AcMatcher.find, byteEnds_utf8, runes_utf8, hrun]
  rfl

include hps horder in
theorem exact_of_apart (hapart : Apart (Begins ps)) : Exact order ps := by
  intro rs
  exact ⟨_, find_eq hps horder (steady_of_apart hapart) rs, found_perm hps hapart rs⟩

include hps horder in
theorem apart_of_exact (hsteady : Steady ps) (hexact : Exact order ps) : Apart (Begins ps) := by
  by_contra hn
  obtain ⟨s, a, b, hs, hlong, hshort⟩ := (not_apart_iff (begins_closed ps)).mp hn
  rcases hshort with hnil | ⟨q, hq, t, ht⟩
  case inl => cases hnil
  case inr =>
    have hrunes : runes q.text = a :: b :: t := ht.symm
    have hlen : (s ++ runes q.text).length = s.length + runeLen q.text := List.length_append
    obtain ⟨found, hfind, hperm⟩ := hexact (s ++ runes q.text)
    rw [find_eq hps horder hsteady, Option.some_inj] at hfind
    subst hfind
    have hocc : occurrence (s ++ runes q.text) q s.length ∈ occurrences ps (s ++ runes q.text) := by
      refine List.mem_flatMap.mpr ⟨q, hq, List.mem_map_of_mem (List.mem_filter.mpr ⟨?_, ?_⟩)⟩
      case refine_1 => exact List.mem_range.mpr (by omega)
      case refine_2 => simp
    obtain ⟨i, hi, hmem⟩ := List.mem_flatMap.mp (hperm.mem_iff.mpr hocc)
    obtain ⟨p, hp, hmatch⟩ := List.mem_filterMap.mp hmem
    have hin : i < (s ++ runes q.text).length := List.mem_range.mp hi
    rw [matchAt_eq hin] at hmatch
    split at hmatch
    case isTrue => cases hmatch
    case isFalse =>
      rw [Option.some_inj, AcMatch.mk.injEq] at hmatch
      obtain ⟨-, -, hend, htext⟩ := hmatch
      -- The match ends where the text ends, so the pattern is reported after the whole text.
      have hlast : i + 1 = (s ++ runes q.text).length := hlen ▸ offset_inj hin (by omega) hend
      rw [hlast, List.take_length] at hp
      have hunseen := reached_ne_of_not_apart (begins_closed ps) hs hlong t
      have hsame : a :: b :: t = runes p.text := hrunes.symm.trans (congrArg runes htext).symm
      rw [hrunes] at hp
      rcases List.mem_append.mp hp with h | h
      case inl => exact hunseen.1 (hsame.trans (of_decide_eq_true (List.mem_filter.mp h).2))
      case inr => exact hunseen.2 (hsame.trans (of_decide_eq_true (List.mem_filter.mp h).2))

end Exact

def beginnings (ps : List Pattern) : List (List Char) :=
  [] :: ps.flatMap fun p => (runes p.text).inits

theorem mem_beginnings {ps : List Pattern} {s : List Char} : s ∈ beginnings ps ↔ Begins ps s := by
  simp only [beginnings, Begins, List.mem_cons, List.mem_flatMap, List.mem_inits]

instance (ps : List Pattern) : Decidable (Apart (Begins ps)) :=
  decidable_of_iff (∀ s ∈ beginnings ps, ∀ w ∈ beginnings ps, w <:+ s → w ≠ s → w.length ≤ 1) <| by
    simp only [mem_beginnings]
    exact ⟨fun h s w hs hw => h s hs w hw, fun h s hs w hw => h s w hs hw⟩

-- Every pattern is found wherever it occurs if no beginning of two or more runes ends another beginning. Where no
-- pattern starts with the last two runes of a longer beginning and the second of them again, it is so only then.
theorem find_exact_iff {ps : List Pattern} (hps : ∀ p ∈ ps, p.text ≠ []) {order : AcMatcher.Order}
    (horder : ∀ v l, (order v l).Perm l) :
    (Apart (Begins ps) → Exact order ps) ∧ (Steady ps → (Exact order ps ↔ Apart (Begins ps))) :=
  ⟨exact_of_apart hps horder, fun hsteady => ⟨apart_of_exact hps horder hsteady, exact_of_apart hps horder⟩⟩

theorem find_exact_iff_one_shared :
    let ps : List Pattern := [{ text := lit "abc", rule := 0 }, { text := lit "cd", rule := 1 }]
    ((buildAC (fun _ l => l) ps).bind fun m => m.find (lit "abcd")) =
      some [{ rule := 0, start := 0, stop := 3, text := lit "abc" }, { rule := 1, start := 2, stop := 4, text := lit "cd" }] ∧
    Exact (fun _ l => l) ps := by
  refine ⟨by decide +kernel, ?_⟩
  exact (find_exact_iff (by decide) fun _ _ => List.Perm.refl _).1 (by decide +kernel)

-- "bc" is inside "abc", and its match in the text "abc" is lost.
theorem inner_word_missed :
    ¬Exact (fun _ l => l) [{ text := lit "abc", rule := 0 }, { text := lit "bc", rule := 1 }] := by
  intro hexact
  obtain ⟨found, hfind, hperm⟩ := hexact ['a', 'b', 'c']
  have hfound : ((buildAC (fun _ l => l) [{ text := lit "abc", rule := 0 }, { text := lit "bc", rule := 1 }]).bind
      fun m => m.find (utf8 ['a', 'b', 'c'])) = some [{ rule := 0, start := 0, stop := 3, text := lit "abc" }] := by
    decide +kernel
  rw [hfound, Option.some_inj] at hfind
  subst hfind
  have hlen := hperm.length_eq
  revert hlen
  decide +kernel

end Filter

end SmppGateway
