import SmppGateway.Filter.Links
import SmppGateway.Lib.Descent

-- That the failure links lead to the root, whatever the patterns are. The inner loop of `buildAC` steps to a child and
-- then looks for a child of that one, so that a link may go to a node as deep as its own or deeper. What it cannot do
-- is close a circle: along the links the run of equal runes that ends the word gets longer, until a word is reached
-- that is one rune repeated, and from there on the words get shorter.

namespace SmppGateway

open Go

namespace Filter

def trail (r : Char) (w : List Char) : Nat :=
  (w.rtakeWhile (· = r)).length

@[simp]
theorem trail_concat (w : List Char) (r : Char) : trail r (w ++ [r]) = trail r w + 1 := by
  simp [trail]

theorem trail_concat_of_ne {r a : Char} (w : List Char) (h : a ≠ r) : trail r (w ++ [a]) = 0 := by
  simp [trail, h]

theorem trail_le (r : Char) (w : List Char) : trail r w ≤ w.length :=
  (List.rtakeWhile_suffix _ w).length_le

-- Where a link may go from the word `s`. Words that are one rune repeated only have links to shorter ones.
structure FallsTo (r : Char) (s t : List Char) : Prop where
  left  : ∃ s', s = s' ++ [r]
  right : ∃ t', t = t' ++ [r]
  pure  : trail r t = t.length → trail r s = s.length → t.length < s.length
  mixed : trail r t ≠ t.length → trail r s ≠ s.length ∧ trail r s < trail r t

namespace FallsTo

variable {r a : Char} {s t w : List Char}

theorem same_rune (h : FallsTo r s t) (h' : FallsTo a t w) : r = a := by
  obtain ⟨t₁, h₁⟩ := h.right
  obtain ⟨t₂, h₂⟩ := h'.left
  exact (List.append_inj' (h₁.symm.trans h₂) rfl).2 |> List.singleton_inj.mp

theorem trans (h : FallsTo r s t) (h' : FallsTo a t w) : FallsTo r s w := by
  obtain rfl := h.same_rune h'
  refine ⟨h.left, h'.right, fun hw hs => ?_, fun hw => ?_⟩
  case refine_1 =>
    by_cases ht : trail r t = t.length
    case pos => exact Nat.lt_trans (h'.pure hw ht) (h.pure ht hs)
    case neg => exact absurd hs (h.mixed ht).1
  case refine_2 =>
    obtain ⟨ht, hlt⟩ := h'.mixed hw
    exact ⟨(h.mixed ht).1, Nat.lt_trans (h.mixed ht).2 hlt⟩

theorem single (hs : s ≠ []) : FallsTo r (s ++ [r]) [r] := by
  have hpure : trail r [r] = 1 := trail_concat [] r
  refine ⟨⟨s, rfl⟩, ⟨[], rfl⟩, fun _ _ => ?_, fun h => absurd hpure h⟩
  have := List.length_pos_iff.mpr hs
  simp only [List.length_append, List.length_singleton]
  omega

-- The link that is found at a node below the links of the parent: its word goes on with the rune twice.
theorem twice (h : FallsTo a s t) (hne : t ++ [r] ++ [r] ≠ s ++ [r]) : FallsTo r (s ++ [r]) (t ++ [r] ++ [r]) := by
  have hrs := trail_le r s
  have hrt := trail_le r t
  refine ⟨⟨s, rfl⟩, ⟨t ++ [r], rfl⟩, fun ht hs => ?_, fun ht => ?_⟩
  all_goals simp only [trail_concat, List.length_append, List.length_singleton] at *
  case refine_1 =>
    have hlt : t.length < s.length := by
      by_cases har : a = r
      case pos =>
        subst har
        exact h.pure (by omega) (by omega)
      case neg =>
        -- The words of the parent and of the node end in another rune.
        obtain ⟨s', rfl⟩ := h.left
        rw [trail_concat_of_ne s' har, List.length_append] at hs
        simp at hs
    have hwords : t.length + 1 ≠ s.length := by
      intro hlen
      have hreplicate {w : List Char} (hw : trail r w = w.length) : w = List.replicate w.length r := by
        have hall : w.rtakeWhile (· = r) = w := (List.rtakeWhile_suffix _ w).eq_of_length hw
        refine List.eq_replicate_iff.mpr ⟨rfl, fun b hb => ?_⟩
        rw [← hall] at hb
        simpa using List.mem_rtakeWhile_imp hb
      refine hne ?_
      rw [hreplicate (w := t) (by omega), hreplicate (w := s) (by omega), ← hlen, List.replicate_succ']
    omega
  case refine_2 =>
    by_cases har : a = r
    case pos =>
      subst har
      have := h.mixed (by omega)
      omega
    case neg =>
      obtain ⟨s', rfl⟩ := h.left
      rw [trail_concat_of_ne s' har, List.length_append]
      simp

end FallsTo

def wordRank (limit : Nat) (w : List Char) : Nat :=
  match w.getLast? with
  | none   => 0
  | some r => if trail r w = w.length then w.length else 2 * limit + 1 - trail r w

theorem wordRank_concat {limit : Nat} {w : List Char} {r : Char} (h : ∃ w', w = w' ++ [r]) :
    wordRank limit w = if trail r w = w.length then w.length else 2 * limit + 1 - trail r w := by
  obtain ⟨w', rfl⟩ := h
  simp [wordRank]

theorem FallsTo.wordRank_lt {limit : Nat} {r : Char} {s t : List Char} (h : FallsTo r s t) (hs : s.length ≤ limit)
    (ht : t.length ≤ limit) : wordRank limit t < wordRank limit s := by
  have hrs := trail_le r s
  have hrt := trail_le r t
  have hpure := h.pure
  have hmixed := h.mixed
  rw [wordRank_concat h.left, wordRank_concat h.right]
  split <;> split <;> simp_all <;> omega

theorem wordRank_pos {limit : Nat} {s : List Char} (hs : s ≠ []) (hlen : s.length ≤ limit) : 0 < wordRank limit s := by
  obtain ⟨s', r, rfl⟩ := (List.eq_nil_or_concat' s).resolve_left hs
  have hle := trail_le r (s' ++ [r])
  rw [wordRank_concat ⟨s', rfl⟩]
  split
  case isTrue => simp
  case isFalse => omega

namespace AcMatcher

def follow (m : AcMatcher) (i : Nat) : Nat :=
  (m.node i).fail

def Grounded (m : AcMatcher) : Prop :=
  ∀ i < m.length, ∃ k < m.length, m.follow^[k] i = 0

variable {m : AcMatcher}

theorem walk_of_reaches {r : Char} {k fuel i : Nat} (h : m.follow^[k] i = 0) (hk : k ≤ fuel) :
    ∃ j, m.walk r fuel i = some j := by
  induction k generalizing fuel i
  case zero =>
    cases h
    exact ⟨0, by rw [walk]⟩
  case succ k ih =>
    cases i
    case zero => exact ⟨0, by rw [walk]⟩
    case succ i =>
      obtain ⟨fuel, rfl⟩ : ∃ fuel', fuel = fuel' + 1 := ⟨fuel - 1, by omega⟩
      rw [walk]
      split
      case isTrue => exact ⟨i + 1, rfl⟩
      case isFalse => exact ih h (by omega)

theorem Grounded.walk (h : m.Grounded) {i : Nat} (hi : i < m.length) (r : Char) :
    ∃ j, m.walk r m.length i = some j := by
  obtain ⟨k, hk, hzero⟩ := h i hi
  exact walk_of_reaches hzero (Nat.le_of_lt hk)

def Unlinked (m : AcMatcher) : Prop :=
  ∀ i, (m.node i).fail = 0

theorem Unlinked.grounded (h : m.Unlinked) : m.Grounded := by
  intro i hi
  by_cases h₀ : i = 0
  case pos => exact ⟨0, by omega, h₀⟩
  case neg => exact ⟨1, by omega, h i⟩

theorem Unlinked.insertRune (h : m.Unlinked) (i : Nat) (r : Char) : Unlinked (AcMatcher.insertRune (m, i) r).1 := by
  unfold AcMatcher.insertRune
  simp only
  split
  case h_1 => exact h
  case h_2 =>
    intro j
    rw [fail_modify (f := fun n => { n with next := n.next.insert r m.length }) fun _ => rfl, node_append_new]
    exact h j

theorem Unlinked.insertRunes (h : m.Unlinked) (i : Nat) (rs : List Char) :
    Unlinked (rs.foldl AcMatcher.insertRune (m, i)).1 := by
  induction rs generalizing m i
  case nil => exact h
  case cons r rs hi => exact hi (h.insertRune i r) _

theorem Unlinked.insertPattern (h : m.Unlinked) (p : Pattern) : Unlinked (m.insertPattern p) := by
  unfold AcMatcher.insertPattern
  split
  case isTrue => exact h
  case isFalse =>
    intro j
    rw [fail_modify (f := fun n => { n with out := n.out ++ [p] }) fun _ => rfl]
    exact h.insertRunes 0 (runes p.text) j

theorem Unlinked.insertPatterns (h : m.Unlinked) (ps : List Pattern) :
    Unlinked (ps.foldl AcMatcher.insertPattern m) := by
  induction ps generalizing m
  case nil => exact h
  case cons p ps hi => exact hi (h.insertPattern p)

theorem unlinked_root : Unlinked [AcNode.new] := by
  intro i
  cases i <;> rfl

end AcMatcher

structure Falling (names : List (List Char)) (m : AcMatcher) : Prop where
  named : Named names m
  fail  : ∀ i s, names[i]? = some s → ∃ t, names[(m.node i).fail]? = some t ∧ (t = [] ∨ ∃ r, FallsTo r s t)

namespace Falling

variable {names : List (List Char)} {m : AcMatcher}

theorem of_unlinked (hnamed : Named names m) (h : m.Unlinked) : Falling names m :=
  ⟨hnamed, fun i _ _ => ⟨[], by rw [h i]; exact hnamed.root, .inl rfl⟩⟩

variable (h : Falling names m) {i : Nat} {s : List Char} (hi : names[i]? = some s)
include h

theorem eq_zero (hnil : names[i]? = some []) : i = 0 :=
  h.named.inj hnil h.named.root

theorem grounded : m.Grounded := by
  -- All words are shorter than all of them together.
  let limit := names.flatten.length
  let rank := fun i : Nat => wordRank limit ((names[i]?).getD [])
  have hlen {s : List Char} (hs : s ∈ names) : s.length ≤ limit := (List.sublist_flatten_of_mem hs).length_le
  have hname {i : Nat} (hi : i < m.length) : ∃ s, names[i]? = some s := by
    rw [← h.named.length] at hi
    exact ⟨names[i], List.getElem?_eq_getElem hi⟩
  have hlowers : Descent.Lowers m.length m.follow rank := by
    refine ⟨fun i hi => ?_, fun i hi h₀ => ?_⟩
    all_goals
      obtain ⟨s, hs⟩ := hname hi
      obtain ⟨t, ht, hfalls⟩ := h.fail i s hs
    case refine_1 => exact h.named.lt ht
    case refine_2 =>
      have hne : s ≠ [] := by
        rintro rfl
        exact h₀ (h.eq_zero hs)
      have hrank : rank i = wordRank limit s := by simp only [rank, hs, Option.getD_some]
      have hrank' : rank (m.follow i) = wordRank limit t := by simp only [rank, AcMatcher.follow, ht, Option.getD_some]
      rw [hrank, hrank']
      have hslen := hlen (List.mem_of_getElem? hs)
      rcases hfalls with rfl | ⟨r, hfalls⟩
      case inl => exact wordRank_pos hne hslen
      case inr => exact hfalls.wordRank_lt hslen (hlen (List.mem_of_getElem? ht))
  exact fun i hi => hlowers.reaches hi

include hi

-- The loop along the links stops at the root, or at a node with a child for the rune that is where it started or
-- where it may fall to from there.
theorem walk_spec {r : Char} {fuel j : Nat} (hwalk : m.walk r fuel i = some j) :
    j = 0 ∨ (m.child j r).isSome = true ∧ ∃ t, names[j]? = some t ∧ (t = s ∨ ∃ a, FallsTo a s t) := by
  induction fuel generalizing i s
  case zero =>
    cases i
    case zero =>
      rw [AcMatcher.walk] at hwalk
      exact .inl (Option.some.inj hwalk).symm
    case succ => cases hwalk
  case succ fuel ih =>
    cases i
    case zero =>
      rw [AcMatcher.walk] at hwalk
      exact .inl (Option.some.inj hwalk).symm
    case succ i =>
      rw [AcMatcher.walk] at hwalk
      split at hwalk
      case isTrue hchild =>
        cases hwalk
        exact .inr ⟨hchild, s, hi, .inl rfl⟩
      case isFalse =>
        obtain ⟨t, ht, hfalls⟩ := h.fail _ s hi
        rcases ih ht hwalk with hzero | ⟨hchild, w, hw, hw'⟩
        case inl => exact .inl hzero
        case inr =>
          rcases hfalls with rfl | ⟨a, hfalls⟩
          case inl =>
            -- The link goes to the root, where the loop ends.
            rw [h.eq_zero ht] at hwalk
            cases fuel <;> rw [AcMatcher.walk] at hwalk <;> exact .inl (Option.some.inj hwalk).symm
          case inr =>
            refine .inr ⟨hchild, w, hw, .inr ⟨a, ?_⟩⟩
            rcases hw' with rfl | ⟨b, hw'⟩
            case inl => exact hfalls
            case inr => exact hfalls.trans hw'

theorem walk_name {r : Char} {j : Nat} (hwalk : m.walk r m.length i = some j) : ∃ t, names[j]? = some t := by
  rcases h.walk_spec hi hwalk with rfl | ⟨-, t, ht, -⟩
  case inl => exact ⟨[], h.named.root⟩
  case inr => exact ⟨t, ht⟩

end Falling

section Link

variable {names : List (List Char)} {m : AcMatcher} (h : Falling names m) {v u : Nat} {s : List Char} {r : Char}
  (hv : names[v]? = some s) (hs : s ≠ []) (hu : names[u]? = some (s ++ [r]))
include h hv hs hu

theorem Falling.target {stop next : Nat} (hwalk : m.walk r m.length (m.node v).fail = some stop)
    (hnext : m.child (if stop = 0 then 0 else (m.child stop r).getD 0) r = some next) (hne : next ≠ u) :
    ∃ t, names[next]? = some t ∧ FallsTo r (s ++ [r]) t := by
  by_cases hstop : stop = 0
  case pos =>
    rw [if_pos hstop] at hnext
    exact ⟨[r], (h.named.child 0 [] h.named.root r next).mp hnext, .single hs⟩
  case neg =>
    rw [if_neg hstop] at hnext
    obtain ⟨t, ht, hfalls⟩ := h.fail v s hv
    rcases h.walk_spec ht hwalk with hzero | ⟨hchild, w, hw, hw'⟩
    case inl => exact absurd hzero hstop
    case inr =>
      obtain ⟨k, hk⟩ := Option.isSome_iff_exists.mp hchild
      rw [hk, Option.getD_some] at hnext
      have hkname := (h.named.child stop w hw r k).mp hk
      have hname := (h.named.child k _ hkname r next).mp hnext
      have hwne : w ≠ [] := by
        rintro rfl
        exact hstop (h.eq_zero hw)
      have hsw : ∃ a, FallsTo a s w := by
        rcases hfalls with rfl | ⟨a, hfalls⟩
        case inl =>
          rcases hw' with rfl | ⟨b, hw'⟩
          case inl => exact absurd rfl hwne
          case inr => obtain ⟨t', ht'⟩ := hw'.left; simp at ht'
        case inr =>
          rcases hw' with rfl | ⟨b, hw'⟩
          case inl => exact ⟨a, hfalls⟩
          case inr => exact ⟨a, hfalls.trans hw'⟩
      obtain ⟨a, hsw⟩ := hsw
      refine ⟨_, hname, hsw.twice fun heq => hne ?_⟩
      rw [heq] at hname
      exact h.named.inj hname hu

theorem Falling.link : ∃ m', m.link v (r, u) = some m' ∧ Falling names m' := by
  obtain ⟨t, ht, -⟩ := h.fail v s hv
  obtain ⟨stop, hwalk⟩ := h.grounded.walk (h.named.lt ht) r
  have hlink : m.link v (r, u) =
      some ((m.setFail u (if stop = 0 then 0 else (m.child stop r).getD 0) r).inheritOut u) := by
    simp only [AcMatcher.link, hwalk, Option.bind_eq_bind, Option.bind_some]
  refine ⟨_, hlink, ?_⟩
  have hset : Falling names (m.setFail u (if stop = 0 then 0 else (m.child stop r).getD 0) r) := by
    unfold AcMatcher.setFail
    split
    case h_2 => exact h
    case h_1 next hnext =>
      split
      case isFalse => exact h
      case isTrue hne =>
        refine ⟨h.named.modify fun _ => rfl, fun j w hj => ?_⟩
        rw [AcMatcher.node_modify]
        split
        case isFalse => exact h.fail j w hj
        case isTrue hju =>
          obtain ⟨rfl, -⟩ := hju
          obtain ⟨t, ht, hfalls⟩ := h.target hv hs hu hwalk hnext hne
          cases Option.some.inj (hu.symm.trans hj)
          exact ⟨t, ht, .inr ⟨r, hfalls⟩⟩
  refine ⟨hset.named.modify fun _ => rfl, fun j w hj => ?_⟩
  rw [inheritOut_fail]
  exact hset.fail j w hj

end Link

inductive LinkPoint (order : AcMatcher.Order) : List Nat → AcMatcher → AcMatcher → Prop
  | start {queue m} : LinkPoint order queue m m
  | child {v queue m m' cs} : cs <+: order v (m.children v) → cs.foldlM (AcMatcher.link v) m = some m' →
      LinkPoint order (v :: queue) m m'
  | next {v queue m m₁ m'} : (order v (m.children v)).foldlM (AcMatcher.link v) m = some m₁ →
      LinkPoint order (queue ++ (order v (m.children v)).map (·.2)) m₁ m' → LinkPoint order (v :: queue) m m'

-- The matchers that `buildAC` goes through: a rune at a time, then a child at a time.
inductive BuildPoint (order : AcMatcher.Order) (ps : List Pattern) : AcMatcher → Prop
  | rune {before after p rs} : ps = before ++ p :: after → rs <+: runes p.text →
      BuildPoint order ps (rs.foldl AcMatcher.insertRune (before.foldl AcMatcher.insertPattern [AcNode.new], 0)).1
  | pattern {before} : before <+: ps → BuildPoint order ps (before.foldl AcMatcher.insertPattern [AcNode.new])
  | link {trie m} : trie = ps.foldl AcMatcher.insertPattern [AcNode.new] →
      LinkPoint order ((order 0 (trie.children 0)).map (·.2)) trie m → BuildPoint order ps m

section Build

variable {order : AcMatcher.Order} (horder : ∀ v l, (order v l).Perm l)

include horder in
theorem LinkPoint.falling {ps : List Pattern} {names : List (List Char)} (hwords : ∀ s, s ∈ names ↔ Begins ps s)
    {queue : List Nat} {m m' : AcMatcher} (hp : LinkPoint order queue m m') {linked done : List (List Char)}
    (hq : Frontier ps names linked done queue) (h : Falling names m) : Falling names m' := by
  have hlink : KeptByLink names fun _ => Falling names := fun h hv hs _ hu _ => h.link hv hs hu
  induction hp generalizing linked done
  case start => exact h
  case child v queue m m' cs hcs hfold =>
    obtain ⟨s, m₁, linked₁, -, hfold₁, h₁, -⟩ := hq.linkChildren horder hlink (fun h => h.named) h hcs
    cases hfold.symm.trans hfold₁
    exact h₁
  case next v queue m m₁ m' hfold _ ih =>
    obtain ⟨s, m₂, linked₂, hv, hfold₂, h₂, hmem₂⟩ := hq.linkChildren horder hlink (fun h => h.named) h List.prefix_rfl
    cases hfold.symm.trans hfold₂
    exact ih (hq.visit h.named hwords hv (horder v (m.children v)) hmem₂) h₂

theorem foldl_insertPattern_filter (ps : List Pattern) (m : AcMatcher) :
    ps.foldl AcMatcher.insertPattern m = (ps.filter (·.text ≠ [])).foldl AcMatcher.insertPattern m := by
  induction ps generalizing m
  case nil => rfl
  case cons p ps hi =>
    by_cases hp : p.text = []
    case pos =>
      have hskip : m.insertPattern p = m := if_pos hp
      rw [List.foldl_cons, hskip, hi, List.filter_cons_of_neg (by simpa using hp)]
    case neg => rw [List.foldl_cons, hi, List.filter_cons_of_pos (by simpa using hp), List.foldl_cons]

theorem exists_trie_all (ps : List Pattern) :
    ∃ qs names, Trie qs names (ps.foldl AcMatcher.insertPattern [AcNode.new]) := by
  refine ⟨ps.filter (·.text ≠ []), ?_⟩
  rw [foldl_insertPattern_filter]
  exact exists_trie fun p hp => by simpa using (List.mem_filter.mp hp).2

include horder in
theorem BuildPoint.grounded {ps : List Pattern} {m : AcMatcher} (hp : BuildPoint order ps m) : m.Grounded := by
  cases hp
  case rune before after p rs _ _ =>
    exact ((AcMatcher.unlinked_root.insertPatterns before).insertRunes 0 rs).grounded
  case pattern before _ => exact (AcMatcher.unlinked_root.insertPatterns before).grounded
  case link trie htrie hlink =>
    subst htrie
    obtain ⟨qs, names, htrie⟩ := exists_trie_all ps
    have hfalling := Falling.of_unlinked htrie.named (AcMatcher.unlinked_root.insertPatterns ps)
    exact (hlink.falling horder htrie.mem (htrie.frontier (horder 0 _)) hfalling).grounded

include horder in
theorem buildAC_falling (ps : List Pattern) : ∃ names m, buildAC order ps = some m ∧ Falling names m := by
  obtain ⟨qs, names, htrie⟩ := exists_trie_all ps
  have hfalling := Falling.of_unlinked htrie.named (AcMatcher.unlinked_root.insertPatterns ps)
  have hlink : KeptByLink names fun _ => Falling names := fun h hv hs _ hu _ => h.link hv hs hu
  obtain ⟨m, -, hbuild, hm, -⟩ := linkAll_rule horder hlink (fun h => h.named) htrie.mem hfalling
    (htrie.frontier (horder 0 _)) (by rw [htrie.named.length]; rfl)
  exact ⟨names, m, hbuild, hm⟩

end Build

section Find

variable {names : List (List Char)} {m : AcMatcher} (h : Falling names m)
include h

theorem Falling.findStep {l : FindLoop} {s : List Char} (hl : names[l.node]? = some s) (byteEnds : List Nat)
    (r : Char) : ∃ l' s', m.findStep byteEnds l r = some l' ∧ names[l'.node]? = some s' := by
  obtain ⟨stop, hwalk⟩ := h.grounded.walk (h.named.lt hl) r
  obtain ⟨t, ht⟩ := h.walk_name hl hwalk
  have hnode : ∃ s', names[(m.child stop r).getD stop]? = some s' := by
    cases hchild : m.child stop r
    case none => exact ⟨t, ht⟩
    case some next => exact ⟨_, (h.named.child stop t ht r next).mp hchild⟩
  have hstep : ∃ l', m.findStep byteEnds l r = some l' ∧ l'.node = (m.child stop r).getD stop := by
    simp only [AcMatcher.findStep, hwalk, Option.bind_eq_bind, Option.bind_some, Option.some.injEq, exists_eq_left']
  obtain ⟨s', hs'⟩ := hnode
  obtain ⟨l', hl', heq⟩ := hstep
  exact ⟨l', s', hl', by rw [heq]; exact hs'⟩

theorem Falling.find (text : Str) : ∃ found, m.find text = some found := by
  have hrun (byteEnds : List Nat) (rs : List Char) (l : FindLoop) {s : List Char} (hl : names[l.node]? = some s) :
      ∃ l', rs.foldlM (m.findStep byteEnds) l = some l' := by
    induction rs generalizing l s
    case nil => exact ⟨l, rfl⟩
    case cons r rs ih =>
      obtain ⟨l₁, s₁, hstep, hl₁⟩ := h.findStep hl byteEnds r
      obtain ⟨l₂, hfold⟩ := ih l₁ hl₁
      exact ⟨l₂, by rw [List.foldlM_cons, hstep]; exact hfold⟩
  obtain ⟨l, hfold⟩ := hrun ((range text).map (·.1) ++ [text.length]) (runes text) {} h.named.root
  exact ⟨l.matches', by simp only [AcMatcher.find, hfold, Option.map_some]⟩

end Find

-- Whatever the patterns and the order of the children: the links lead to the root while the matcher is built and
-- afterwards, `buildAC` ends, and so does every search.
theorem matcher_grounded {order : AcMatcher.Order} (horder : ∀ v l, (order v l).Perm l) (ps : List Pattern) :
    (∀ m : AcMatcher, BuildPoint order ps m → m.Grounded) ∧
    ∃ m, buildAC order ps = some m ∧ m.Grounded ∧ ∀ text, ∃ found, m.find text = some found := by
  obtain ⟨names, m, hbuild, hm⟩ := buildAC_falling horder ps
  exact ⟨fun m hp => hp.grounded horder, m, hbuild, hm.grounded, hm.find⟩

-- A link that goes down: "cab" is linked to "abb", which is as deep, and then "cabd" to "abbdd", which is deeper.
theorem matcher_grounded_deeper : ∃ m : AcMatcher,
    buildAC (fun _ l => l) [⟨lit "cabd", 0⟩, ⟨lit "abbdd", 1⟩] = some m ∧ (m.node 4).fail = 9 ∧ m.Grounded := by
  obtain ⟨m, hbuild, hground, -⟩ :=
    (matcher_grounded (fun _ l => List.Perm.refl l) [⟨lit "cabd", 0⟩, ⟨lit "abbdd", 1⟩]).2
  have hdeeper : (buildAC (fun _ l => l) [⟨lit "cabd", 0⟩, ⟨lit "abbdd", 1⟩]).map (fun m => (m.node 4).fail) =
      some 9 := by decide +kernel
  rw [hbuild] at hdeeper
  exact ⟨m, hbuild, Option.some.inj hdeeper, hground⟩

end Filter

end SmppGateway
