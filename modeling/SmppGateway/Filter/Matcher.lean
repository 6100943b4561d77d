import SmppGateway.Go.Map
import SmppGateway.Go.Str
import SmppGateway.Lib.Fallback

-- The keyword matcher of `internal/filter/ahocorasick.go`. A loop that might not end has fuel for as many rounds as
-- there are nodes, and no result beyond. The order in which `range` visits the children of a node is a parameter.

namespace SmppGateway

open Go

namespace Filter

structure Pattern where
  text : Str
  rule : Int
  deriving DecidableEq, Repr

structure AcNode where
  next : Map Char Nat := ∅
  fail : Nat := 0
  out  : List Pattern := []

def AcNode.new : AcNode := {}

structure AcMatch where
  rule  : Int
  start : Nat
  stop  : Nat  -- `End` in the source
  text  : Str
  deriving DecidableEq, Repr

abbrev AcMatcher := List AcNode

namespace AcMatcher

def node (m : AcMatcher) (i : Nat) : AcNode :=
  m[i]?.getD .new

def child (m : AcMatcher) (i : Nat) (r : Char) : Option Nat :=
  (m.node i).next.lookup r

def insertRune (x : AcMatcher × Nat) (r : Char) : AcMatcher × Nat :=
  let (m, node) := x
  match m.child node r with
  | some next => (m, next)
  | none      => ((m ++ [AcNode.new]).modify node fun n => { n with next := n.next.insert r m.length }, m.length)

def insertPattern (m : AcMatcher) (p : Pattern) : AcMatcher :=
  if p.text = [] then
    m
  else
    let x := (runes p.text).foldl insertRune (m, 0)
    x.1.modify x.2 fun n => { n with out := n.out ++ [p] }

-- The loop along the failure links, up to the root or a node that has a child for the rune.
def walk (m : AcMatcher) (r : Char) : (fuel node : Nat) → Option Nat
  | _, 0               => some 0
  | 0, _ + 1           => none
  | fuel + 1, node + 1 =>
    if (m.child (node + 1) r).isSome then some (node + 1) else m.walk r fuel (m.node (node + 1)).fail

-- The link of `u`, if the node that was found has a child for the rune that is another one.
def setFail (m : AcMatcher) (u f : Nat) (r : Char) : AcMatcher :=
  match m.child f r with
  | some next => if next ≠ u then m.modify u fun n => { n with fail := next } else m
  | none      => m

def inheritOut (m : AcMatcher) (u : Nat) : AcMatcher :=
  m.modify u fun n => { n with out := n.out ++ (m.node (m.node u).fail).out }

-- The body of the loop over the children of `v`. When the inner loop ends at a node other than the root, it has
-- already stepped to the child.
def link (v : Nat) (m : AcMatcher) (e : Char × Nat) : Option AcMatcher := do
  let (r, u) := e
  let stop ← m.walk r m.length (m.node v).fail
  let f := if stop = 0 then 0 else (m.child stop r).getD 0
  some ((m.setFail u f r).inheritOut u)

def children (m : AcMatcher) (v : Nat) : List (Char × Nat) :=
  (m.node v).next.entries.map fun e => (e.1, e.2)

abbrev Order := Nat → List (Char × Nat) → List (Char × Nat)

def linkAll (order : Order) : (fuel : Nat) → (queue : List Nat) → AcMatcher → Option AcMatcher
  | _, [], m                 => some m
  | 0, _ :: _, _             => none
  | fuel + 1, v :: queue, m => do
    let children := order v (m.children v)
    let m ← children.foldlM (link v) m
    linkAll order fuel (queue ++ children.map (·.2)) m

end AcMatcher

def buildAC (order : AcMatcher.Order) (patterns : List Pattern) : Option AcMatcher :=
  let m : AcMatcher := patterns.foldl AcMatcher.insertPattern [AcNode.new]
  m.linkAll order m.length ((order 0 (m.children 0)).map (·.2))

def runeLen (text : Str) : Nat :=
  (runes text).length

structure FindLoop where
  matches'  : List AcMatch := []
  node      : Nat := 0
  runeIndex : Nat := 0

-- The match of a pattern that ends with the rune at `runeIndex`, unless it would start before the text.
def matchAt (byteEnds : List Nat) (runeIndex : Nat) (p : Pattern) : Option AcMatch :=
  if runeIndex + 1 < runeLen p.text then
    none
  else
    some {
      rule  := p.rule
      start := byteEnds[runeIndex + 1 - runeLen p.text]?.getD 0
      stop  := byteEnds[runeIndex + 1]?.getD 0
      text  := p.text }

def AcMatcher.findStep (m : AcMatcher) (byteEnds : List Nat) (l : FindLoop) (r : Char) : Option FindLoop := do
  let stop ← m.walk r m.length l.node
  let node := (m.child stop r).getD stop
  some {
    matches'  := l.matches' ++ (m.node node).out.filterMap (matchAt byteEnds l.runeIndex)
    node      := node
    runeIndex := l.runeIndex + 1 }

def AcMatcher.find (m : AcMatcher) (text : Str) : Option (List AcMatch) :=
  let byteEnds := (range text).map (·.1) ++ [text.length]
  ((runes text).foldlM (m.findStep byteEnds) {}).map (·.matches')

def Begins (ps : List Pattern) (s : List Char) : Prop :=
  s = [] ∨ ∃ p ∈ ps, s <+: runes p.text

instance (ps : List Pattern) : DecidablePred (Begins ps) :=
  fun s => inferInstanceAs (Decidable (s = [] ∨ ∃ p ∈ ps, s <+: runes p.text))

def own (ps : List Pattern) (s : List Char) : List Pattern :=
  ps.filter fun p => runes p.text = s

theorem begins_closed (ps : List Pattern) : Fallback.Closed (Begins ps) where
  nil  := .inl rfl
  init := by
    rintro s a (h | ⟨p, hp, h⟩)
    case inl => simp at h
    case inr => exact .inr ⟨p, hp, (List.prefix_append s [a]).trans h⟩

structure Named (names : List (List Char)) (m : AcMatcher) : Prop where
  length : names.length = m.length
  nodup  : names.Nodup
  root   : names[0]? = some []
  closed : ∀ s r, s ++ [r] ∈ names → s ∈ names
  child  : ∀ i s, names[i]? = some s → ∀ r j, m.child i r = some j ↔ names[j]? = some (s ++ [r])

namespace AcMatcher

variable {m : AcMatcher} {i j : Nat} {f : AcNode → AcNode}

theorem node_modify : node (m.modify i f) j = if i = j ∧ j < m.length then f (m.node j) else m.node j := by
  unfold node
  rw [List.getElem?_modify]
  by_cases hij : i = j
  case pos =>
    subst hij
    by_cases hlt : i < m.length
    case pos => simp [hlt]
    case neg => simp [hlt]
  case neg => simp [hij]

theorem child_modify (h : ∀ n, (f n).next = n.next) (r : Char) : child (m.modify i f) j r = m.child j r := by
  unfold child
  rw [node_modify]
  split
  case isTrue => rw [h]
  case isFalse => rfl

theorem out_modify (h : ∀ n, (f n).out = n.out) : (node (m.modify i f) j).out = (m.node j).out := by
  rw [node_modify]
  split
  case isTrue => rw [h]
  case isFalse => rfl

theorem fail_modify (h : ∀ n, (f n).fail = n.fail) : (node (m.modify i f) j).fail = (m.node j).fail := by
  rw [node_modify]
  split
  case isTrue => rw [h]
  case isFalse => rfl

theorem node_of_length_le (h : m.length ≤ i) : m.node i = .new := by
  rw [node, List.getElem?_eq_none h]
  rfl

theorem node_append_new : node (m ++ [AcNode.new]) i = m.node i := by
  by_cases hlt : i < m.length
  case pos => rw [node, List.getElem?_append_left hlt, node]
  case neg =>
    rw [node_of_length_le (Nat.not_lt.mp hlt), node, List.getElem?_append_right (Nat.not_lt.mp hlt)]
    cases i - m.length <;> rfl

end AcMatcher

theorem getElem?_snoc_iff {α : Type} {l : List α} {x y : α} {k : Nat} :
    (l ++ [x])[k]? = some y ↔ l[k]? = some y ∨ k = l.length ∧ x = y := by
  rcases Nat.lt_trichotomy k l.length with hk | rfl | hk
  case inl =>
    rw [List.getElem?_append_left hk]
    exact ⟨.inl, fun h => h.resolve_right fun h => absurd h.1 (by omega)⟩
  case inr.inl => simp
  case inr.inr =>
    have hout : (l ++ [x])[k]? = none := List.getElem?_eq_none (by rw [List.length_append]; exact hk)
    have hout' : l[k]? = none := List.getElem?_eq_none (by omega)
    rw [hout, hout']
    exact ⟨nofun, fun h => by rcases h with h | ⟨h, -⟩ <;> [cases h; omega]⟩

section Insert

variable {names : List (List Char)} {m : AcMatcher} {i : Nat} {s : List Char} {r : Char}

theorem Named.lt (h : Named names m) (hi : names[i]? = some s) : i < m.length := by
  rw [← h.length]
  exact (List.getElem?_eq_some_iff.mp hi).1

theorem Named.inj (h : Named names m) {j : Nat} (hi : names[i]? = some s) (hj : names[j]? = some s) : i = j :=
  (List.getElem?_inj (List.getElem?_eq_some_iff.mp hi).1 h.nodup).mp (hi.trans hj.symm)

theorem Named.modify {f : AcNode → AcNode} (h : Named names m) (hf : ∀ n, (f n).next = n.next) :
    Named names (m.modify i f) where
  length := by rw [List.length_modify]; exact h.length
  nodup  := h.nodup
  root   := h.root
  closed := h.closed
  child  := fun j t hj r k => by rw [AcMatcher.child_modify hf]; exact h.child j t hj r k

theorem Named.insert (h : Named names m) (hi : names[i]? = some s) (hnew : s ++ [r] ∉ names) :
    Named (names ++ [s ++ [r]]) ((m ++ [AcNode.new]).modify i fun n => { n with next := n.next.insert r m.length }) := by
  have hlt := h.lt hi
  have hchild (j : Nat) (r' : Char) :
      AcMatcher.child ((m ++ [AcNode.new]).modify i fun n => { n with next := n.next.insert r m.length }) j r' =
        if j = i ∧ r' = r then some m.length else m.child j r' := by
    unfold AcMatcher.child
    rw [AcMatcher.node_modify, AcMatcher.node_append_new]
    by_cases hji : j = i
    case pos =>
      subst hji
      rw [if_pos ⟨rfl, by rw [List.length_append]; omega⟩, Map.lookup_insert_eq]
      by_cases hr : r' = r
      case pos => rw [if_pos hr, if_pos ⟨rfl, hr⟩]
      case neg => rw [if_neg hr, if_neg fun h => hr h.2]
    case neg => rw [if_neg fun h => hji h.1.symm, if_neg fun h => hji h.1]
  constructor
  case length => simp [h.length]
  case nodup =>
    rw [List.nodup_append]
    refine ⟨h.nodup, List.nodup_singleton _, fun a ha b hb => ?_⟩
    rw [List.mem_singleton.mp hb]
    rintro rfl
    exact hnew ha
  case root =>
    rw [List.getElem?_append_left (by rw [h.length]; omega)]
    exact h.root
  case closed =>
    intro t a ht
    rw [List.mem_append]
    rcases List.mem_append.mp ht with ht | ht
    case inl => exact .inl (h.closed t a ht)
    case inr =>
      obtain ⟨rfl, -⟩ := List.append_inj' (List.mem_singleton.mp ht) rfl
      exact .inl (List.mem_of_getElem? hi)
  case child =>
    intro j t ht r' k
    rw [hchild, getElem?_snoc_iff]
    rcases getElem?_snoc_iff.mp ht with hj | ⟨rfl, rfl⟩
    case inl =>
      by_cases hnewChild : j = i ∧ r' = r
      case pos =>
        obtain ⟨rfl, rfl⟩ := hnewChild
        cases Option.some.inj (hi.symm.trans hj)
        rw [if_pos ⟨rfl, rfl⟩, Option.some.injEq, h.length]
        constructor
        case mp => exact fun hk => .inr ⟨hk.symm, rfl⟩
        case mpr =>
          rintro (hk | hk)
          case inl => exact absurd (List.mem_of_getElem? hk) hnew
          case inr => exact hk.1.symm
      case neg =>
        rw [if_neg hnewChild, h.child j t hj]
        refine ⟨.inl, fun hk => hk.resolve_right ?_⟩
        rintro ⟨-, heq⟩
        obtain ⟨rfl, hr⟩ := List.append_inj' heq rfl
        cases hr
        exact hnewChild ⟨h.inj hj hi, rfl⟩
    case inr =>
      have hne : ¬(names.length = i ∧ r' = r) := fun he => by rw [h.length] at he; omega
      rw [if_neg hne, AcMatcher.child, AcMatcher.node_of_length_le (Nat.le_of_eq h.length.symm)]
      refine ⟨nofun, ?_⟩
      rintro (hk | ⟨-, hk⟩)
      case inl => exact absurd (h.closed _ _ (List.mem_of_getElem? hk)) hnew
      case inr => exact absurd (congrArg List.length hk) (by simp)

structure Stored (ps : List Pattern) (names : List (List Char)) (m : AcMatcher) : Prop where
  named : Named names m
  out   : ∀ i s, names[i]? = some s → (m.node i).out = own ps s ∧ (m.node i).fail = 0
  known : ∀ s, own ps s ≠ [] → s ∈ names

variable {ps : List Pattern}

theorem Stored.insertRune (h : Stored ps names m) (hi : names[i]? = some s) (r : Char) :
    ∃ names', Stored ps names' (AcMatcher.insertRune (m, i) r).1 ∧
      names'[(AcMatcher.insertRune (m, i) r).2]? = some (s ++ [r]) ∧ ∀ t, t ∈ names' ↔ t ∈ names ∨ t = s ++ [r] := by
  unfold AcMatcher.insertRune
  dsimp only
  split
  case h_1 next hnext =>
    have hname := (h.named.child i s hi r next).mp hnext
    refine ⟨names, h, hname, fun t => ⟨.inl, fun ht => ?_⟩⟩
    rcases ht with ht | rfl
    case inl => exact ht
    case inr => exact List.mem_of_getElem? hname
  case h_2 hnone =>
    have hnew : s ++ [r] ∉ names := by
      intro hmem
      obtain ⟨j, hj⟩ := List.mem_iff_getElem?.mp hmem
      rw [(h.named.child i s hi r j).mpr hj] at hnone
      cases hnone
    refine ⟨names ++ [s ++ [r]], ⟨h.named.insert hi hnew, fun j t hj => ?_, fun t ht => ?_⟩, ?_, fun t => ?_⟩
    case refine_1 =>
      dsimp only
      rw [AcMatcher.out_modify (f := fun n => { n with next := n.next.insert r m.length }) fun _ => rfl,
        AcMatcher.fail_modify (f := fun n => { n with next := n.next.insert r m.length }) fun _ => rfl,
        AcMatcher.node_append_new]
      rcases getElem?_snoc_iff.mp hj with hj | ⟨rfl, rfl⟩
      case inl => exact h.out j t hj
      case inr =>
        have hown : own ps (s ++ [r]) = [] := by
          by_contra hne
          exact hnew (h.known _ hne)
        rw [AcMatcher.node_of_length_le (Nat.le_of_eq h.named.length.symm), hown]
        exact ⟨rfl, rfl⟩
    case refine_2 => exact List.mem_append_left _ (h.known t ht)
    case refine_3 => exact getElem?_snoc_iff.mpr (.inr ⟨h.named.length.symm, rfl⟩)
    case refine_4 => rw [List.mem_append, List.mem_singleton]

theorem Stored.insertRunes (h : Stored ps names m) (hi : names[i]? = some s) (rs : List Char) :
    ∃ names', Stored ps names' (rs.foldl AcMatcher.insertRune (m, i)).1 ∧
      names'[(rs.foldl AcMatcher.insertRune (m, i)).2]? = some (s ++ rs) ∧
      ∀ t, t ∈ names' ↔ t ∈ names ∨ ∃ q, q <+: rs ∧ t = s ++ q := by
  induction rs generalizing m i s names
  case nil =>
    refine ⟨names, h, by rwa [List.append_nil], fun t => ⟨.inl, fun ht => ?_⟩⟩
    rcases ht with ht | ⟨q, hq, rfl⟩
    case inl => exact ht
    case inr =>
      rw [List.prefix_nil.mp hq, List.append_nil]
      exact List.mem_of_getElem? hi
  case cons r rs ih =>
    obtain ⟨names₁, h₁, hi₁, hmem₁⟩ := h.insertRune hi r
    obtain ⟨names₂, h₂, hi₂, hmem₂⟩ := ih h₁ hi₁
    refine ⟨names₂, h₂, by rwa [List.append_assoc] at hi₂, fun t => ?_⟩
    rw [hmem₂, hmem₁]
    constructor
    case mp =>
      rintro ((ht | rfl) | ⟨q, hq, rfl⟩)
      case inl.inl => exact .inl ht
      case inl.inr => exact .inr ⟨[r], List.prefix_append [r] rs, rfl⟩
      case inr => exact .inr ⟨r :: q, List.prefix_cons_inj r |>.mpr hq, by rw [List.append_assoc]; rfl⟩
    case mpr =>
      rintro (ht | ⟨q, hq, rfl⟩)
      case inl => exact .inl (.inl ht)
      case inr =>
        cases q
        case nil =>
          rw [List.append_nil]
          exact .inl (.inl (List.mem_of_getElem? hi))
        case cons a q =>
          obtain ⟨rfl, hrest⟩ := List.cons_prefix_cons.mp hq
          exact .inr ⟨q, hrest, by rw [List.append_assoc]; rfl⟩

structure Trie (ps : List Pattern) (names : List (List Char)) (m : AcMatcher) : Prop extends Stored ps names m where
  mem : ∀ s, s ∈ names ↔ Begins ps s

theorem own_append (ps : List Pattern) (p : Pattern) (s : List Char) :
    own (ps ++ [p]) s = own ps s ++ if runes p.text = s then [p] else [] := by
  rw [own, List.filter_append, own, List.filter_singleton]
  simp

theorem Trie.insertPattern (h : Trie ps names m) {p : Pattern} (hp : p.text ≠ []) :
    ∃ names', Trie (ps ++ [p]) names' (m.insertPattern p) := by
  obtain ⟨names', h', hi', hmem⟩ := h.toStored.insertRunes h.named.root (runes p.text)
  rw [List.nil_append] at hi'
  have hbegins (s : List Char) : s ∈ names' ↔ Begins (ps ++ [p]) s := by
    have hq : (∃ q, q <+: runes p.text ∧ s = [] ++ q) ↔ s <+: runes p.text :=
      ⟨fun ⟨q, hq, heq⟩ => heq ▸ hq, fun hs => ⟨s, hs, rfl⟩⟩
    rw [hmem, h.mem, hq, Begins, Begins, or_assoc]
    simp [or_and_right, exists_or]
  refine ⟨names', ⟨⟨?_, fun j t hj => ?_, fun t ht => ?_⟩, hbegins⟩⟩
  case refine_1 =>
    rw [AcMatcher.insertPattern, if_neg hp]
    exact h'.named.modify fun _ => rfl
  case refine_2 =>
    obtain ⟨hout, hfail⟩ := h'.out j t hj
    rw [AcMatcher.insertPattern, if_neg hp]
    dsimp only
    rw [AcMatcher.fail_modify (f := fun n => { n with out := n.out ++ [p] }) fun _ => rfl, AcMatcher.node_modify,
      own_append]
    refine ⟨?_, hfail⟩
    split
    case isTrue hcond =>
      have ht : runes p.text = t := by
        rw [hcond.1] at hi'
        exact Option.some.inj (hi'.symm.trans hj)
      rw [if_pos ht, ← hout]
    case isFalse hcond =>
      have ht : runes p.text ≠ t := by
        rintro rfl
        exact hcond ⟨h'.named.inj hi' hj, h'.named.lt hj⟩
      rw [if_neg ht, List.append_nil, hout]
  case refine_3 =>
    rw [own_append] at ht
    by_cases hps : own ps t = []
    case pos =>
      have hrunes : runes p.text = t := by
        by_contra hne
        rw [hps, if_neg hne] at ht
        exact ht rfl
      rw [hbegins]
      exact .inr ⟨p, by simp, by rw [hrunes]⟩
    case neg => exact h'.known t hps

theorem trie_nil : Trie [] [[]] [AcNode.new] where
  named := {
    length := rfl
    nodup  := List.nodup_singleton _
    root   := rfl
    closed := by simp
    child  := by
      intro i s hi r j
      obtain ⟨rfl, rfl⟩ : i = 0 ∧ s = [] := by
        cases i
        case zero => exact ⟨rfl, (Option.some.inj hi).symm⟩
        case succ => cases hi
      refine ⟨nofun, fun hj => ?_⟩
      cases j <;> cases hj }
  out   := by
    intro i s hi
    cases i
    case zero => exact ⟨rfl, rfl⟩
    case succ => cases hi
  known := fun s hs => absurd rfl hs
  mem   := by simp [Begins]

theorem exists_trie (hps : ∀ p ∈ ps, p.text ≠ []) :
    ∃ names, Trie ps names (ps.foldl AcMatcher.insertPattern [AcNode.new]) := by
  induction ps using List.reverseRecOn
  case nil => exact ⟨[[]], trie_nil⟩
  case append_singleton ps p ih =>
    obtain ⟨names, h⟩ := ih fun q hq => hps q (List.mem_append_left _ hq)
    rw [List.foldl_append]
    exact h.insertPattern (hps p (by simp))

end Insert

def AcMatcher.Emits (ps : List Pattern) (m : AcMatcher) : Prop :=
  ∀ i, ∀ p ∈ (m.node i).out, p ∈ ps

namespace AcMatcher.Emits

variable {ps : List Pattern} {m : AcMatcher} (h : m.Emits ps) {m' : AcMatcher}
include h

theorem modify {i : Nat} {f : AcNode → AcNode} (hf : ∀ p ∈ (f (m.node i)).out, p ∈ ps) : Emits ps (m.modify i f) := by
  intro j p hp
  rw [node_modify] at hp
  split_ifs at hp with hij
  case pos =>
    obtain ⟨rfl, -⟩ := hij
    exact hf p hp
  case neg => exact h j p hp

theorem insertRune (i : Nat) (r : Char) : Emits ps (AcMatcher.insertRune (m, i) r).1 := by
  have hnew : Emits ps (m ++ [AcNode.new]) := by
    intro j p hp
    rw [node_append_new] at hp
    exact h j p hp
  unfold AcMatcher.insertRune
  simp only
  split
  case h_1 => exact h
  case h_2 => exact hnew.modify (hnew i)

theorem insertRunes (i : Nat) (rs : List Char) : Emits ps (rs.foldl AcMatcher.insertRune (m, i)).1 := by
  induction rs generalizing m i
  case nil => exact h
  case cons r rs hi => exact hi (h.insertRune i r) _

theorem insertPattern {p : Pattern} (hp : p ∈ ps) : Emits ps (m.insertPattern p) := by
  unfold AcMatcher.insertPattern
  split_ifs
  case pos => exact h
  case neg =>
    have hrunes := h.insertRunes 0 (runes p.text)
    refine hrunes.modify fun q hq => ?_
    rcases List.mem_append.mp hq with hq | hq
    case inl => exact hrunes _ q hq
    case inr => exact List.mem_singleton.mp hq ▸ hp

theorem insertPatterns {qs : List Pattern} (hqs : qs ⊆ ps) : Emits ps (qs.foldl AcMatcher.insertPattern m) := by
  induction qs generalizing m
  case nil => exact h
  case cons q qs hi =>
    obtain ⟨hq, hqs⟩ := List.cons_subset.mp hqs
    exact hi (h.insertPattern hq) hqs

theorem link {v : Nat} {child : Char × Nat} (hlink : m.link v child = some m') : Emits ps m' := by
  obtain ⟨r, u⟩ := child
  obtain ⟨stop, -, hlink⟩ := Option.bind_eq_some_iff.mp hlink
  cases hlink
  generalize (if stop = 0 then 0 else (m.child stop r).getD 0) = f
  have hfail : Emits ps (m.setFail u f r) := by
    unfold setFail
    split
    case h_1 =>
      split_ifs
      case pos => exact h.modify (h u)
      case neg => exact h
    case h_2 => exact h
  refine hfail.modify fun q hq => ?_
  rcases List.mem_append.mp hq with hq | hq
  case inl => exact hfail u q hq
  case inr => exact hfail _ q hq

theorem linkChildren {v : Nat} {children : List (Char × Nat)} (hlink : children.foldlM (AcMatcher.link v) m = some m') :
    Emits ps m' := by
  induction children generalizing m
  case nil => cases hlink; exact h
  case cons child children hi =>
    rw [List.foldlM_cons] at hlink
    obtain ⟨next, hnext, hlink⟩ := Option.bind_eq_some_iff.mp hlink
    exact hi (h.link hnext) hlink

theorem linkAll {order : Order} {fuel : Nat} {queue : List Nat} (hlink : m.linkAll order fuel queue = some m') :
    Emits ps m' := by
  induction fuel generalizing m queue
  case zero =>
    cases queue
    case nil => cases hlink; exact h
    case cons => cases hlink
  case succ fuel hi =>
    cases queue
    case nil => cases hlink; exact h
    case cons v queue =>
      obtain ⟨next, hnext, hlink⟩ := Option.bind_eq_some_iff.mp hlink
      exact hi (h.linkChildren hnext) hlink

theorem findStep {byteEnds : List Nat} {l l' : FindLoop} {r : Char} (hstep : m.findStep byteEnds l r = some l')
    (hl : ∀ x ∈ l.matches', ∃ p ∈ ps, x.rule = p.rule) : ∀ x ∈ l'.matches', ∃ p ∈ ps, x.rule = p.rule := by
  obtain ⟨stop, -, hstep⟩ := Option.bind_eq_some_iff.mp hstep
  cases hstep
  intro x hx
  rcases List.mem_append.mp hx with hx | hx
  case inl => exact hl x hx
  case inr =>
    obtain ⟨p, hp, hmatch⟩ := List.mem_filterMap.mp hx
    unfold matchAt at hmatch
    split_ifs at hmatch
    cases hmatch
    exact ⟨p, h _ p hp, rfl⟩

theorem find {text : Str} {found : List AcMatch} (hfind : m.find text = some found) :
    ∀ x ∈ found, ∃ p ∈ ps, x.rule = p.rule := by
  obtain ⟨l, hfold, rfl⟩ := Option.map_eq_some_iff.mp hfind
  have hrun {byteEnds : List Nat} {rs : List Char} {l₀ : FindLoop} (hl : ∀ x ∈ l₀.matches', ∃ p ∈ ps, x.rule = p.rule)
      (hfold : rs.foldlM (m.findStep byteEnds) l₀ = some l) : ∀ x ∈ l.matches', ∃ p ∈ ps, x.rule = p.rule := by
    induction rs generalizing l₀
    case nil => cases hfold; exact hl
    case cons r rs hi =>
      rw [List.foldlM_cons] at hfold
      obtain ⟨next, hnext, hfold⟩ := Option.bind_eq_some_iff.mp hfold
      exact hi (h.findStep hnext hl) hfold
  exact hrun (by simp) hfold

end AcMatcher.Emits

theorem buildAC_emits {order : AcMatcher.Order} {ps : List Pattern} {m : AcMatcher} (h : buildAC order ps = some m) :
    m.Emits ps := by
  have hroot : AcMatcher.Emits ps [AcNode.new] := by
    intro i p hp
    cases i <;> cases hp
  exact (hroot.insertPatterns (List.Subset.refl ps)).linkAll h

end Filter

end SmppGateway
