import SmppGateway.Filter.Engine
import SmppGateway.Filter.Find

-- What is left of a text that is masked (`collectMaskHits` and `maskText` of `internal/filter/engine.go`).

namespace SmppGateway.Filter

open Go Splice

-- The hits as they occur in a normalised text with the given runes, for the patterns that the matcher is built from.
def Engine.occurrences (e : Engine) (patterns : List Pattern) (rs : List Char) : List RuleHit :=
  (Filter.occurrences patterns rs).map AcMatch.hit ++ e.regexps.flatMap (·.hits (utf8 rs))

def orig (normToOrig : List Nat) (k : Nat) : Nat :=
  normToOrig[k]?.getD 0

def RuleHit.Covers (normToOrig : List Nat) (hit : RuleHit) (i : Nat) : Prop :=
  orig normToOrig hit.start ≤ i ∧ i < orig normToOrig hit.stop

instance (normToOrig : List Nat) (hit : RuleHit) (i : Nat) : Decidable (hit.Covers normToOrig i) :=
  inferInstanceAs (Decidable (_ ∧ _))

namespace Engine

variable (lib : Library) (e : Engine) (text : Str) (normToOrig : List Nat) (hits : List RuleHit) (ruleName : Str)

instance (hit : RuleHit) : Decidable (e.Masks hit) :=
  inferInstanceAs (Decidable (_ = _))

def Hidden (i : Nat) : Prop :=
  ∃ hit ∈ hits, e.Masks hit ∧ hit.Covers normToOrig i

instance (i : Nat) : Decidable (e.Hidden normToOrig hits i) :=
  inferInstanceAs (Decidable (∃ hit ∈ hits, _))

def intervals : List MaskInterval :=
  lib.sortByStart (collectMaskHits e (e.sortHits hits) ruleName normToOrig)

-- The intervals that give way to a mask: none starts before the one before it has ended.
def taken : List MaskInterval :=
  made text.length 0 (e.intervals lib normToOrig hits ruleName)

-- The bytes that `maskText` writes, each with its place in the text if it is copied from there.
def written : List (UInt8 × Option Nat) :=
  trace text (e.intervals lib normToOrig hits ruleName)

-- The bytes that no mask rule wants hidden are all that is left, in their order.
def Hides : Prop :=
  survivors (e.written lib text normToOrig hits ruleName) =
    text.zipIdx.filter fun x => ¬e.Hidden normToOrig hits x.2

instance : Decidable (e.Hides lib text normToOrig hits ruleName) :=
  inferInstanceAs (Decidable (_ = _))

-- The mask rules that are hit share the name, and a hit that starts inside another one ends inside it.
structure Tidy : Prop where
  name   : ∀ hit ∈ hits, e.Masks hit → (e.ruleOf hit).name = ruleName
  nested : ∀ a ∈ hits, ∀ b ∈ hits, e.Masks a → e.Masks b → a.Covers normToOrig (orig normToOrig b.start) →
    orig normToOrig b.stop ≤ orig normToOrig a.stop

def Leads (hit : RuleHit) : Prop :=
  e.Masks hit ∧ ∀ h ∈ hits, e.Masks h → (e.ruleOf h).priority ≤ (e.ruleOf hit).priority

instance (hit : RuleHit) : Decidable (e.Leads hits hit) :=
  inferInstanceAs (Decidable (_ ∧ _))

def leader : Option RuleHit :=
  hits.find? fun hit => e.Leads hits hit

-- Some hit of a mask rule with this name reaches from `a` to `b` in the original text.
def Marks (a b : Nat) : Prop :=
  a < b ∧ ∃ hit ∈ hits, e.Masks hit ∧ (e.ruleOf hit).name = ruleName ∧
    orig normToOrig hit.start = a ∧ orig normToOrig hit.stop = b

-- All that a mask rule hits is hit by one with this name, and where one goes through the text from each of its hits
-- to the next that starts at its end or later, and comes to stand on something that is hit, a hit starts there.
structure Covered : Prop where
  named  : ∀ i, e.Hidden normToOrig hits i → ∃ a b, e.Marks normToOrig hits ruleName a b ∧ a ≤ i ∧ i < b
  joined : ∀ l p, Route (e.Marks normToOrig hits ruleName) l p → e.Hidden normToOrig hits p →
    ∃ b, e.Marks normToOrig hits ruleName p b

def Untied : Prop :=
  ∀ a b b', e.Marks normToOrig hits ruleName a b → e.Marks normToOrig hits ruleName a b' → b = b'

variable {e normToOrig hits ruleName}

theorem Tidy.marks (h : e.Tidy normToOrig hits ruleName) {hit : RuleHit} (hm : hit ∈ hits) (hmask : e.Masks hit)
    {i : Nat} (hi : hit.Covers normToOrig i) :
    e.Marks normToOrig hits ruleName (orig normToOrig hit.start) (orig normToOrig hit.stop) :=
  ⟨Nat.lt_of_le_of_lt hi.1 hi.2, hit, hm, hmask, h.name hit hm hmask, rfl, rfl⟩

theorem Tidy.covered (h : e.Tidy normToOrig hits ruleName) : e.Covered normToOrig hits ruleName where
  named := fun _ ⟨_, hm, hmask, hi⟩ => ⟨_, _, h.marks hm hmask hi, hi⟩
  joined l p hroute := by
    rintro ⟨hit, hm, hmask, hp⟩
    have hmarks := h.marks hm hmask hp
    rcases Nat.eq_or_lt_of_le hp.1 with heq | hlt
    case inl => exact ⟨_, heq ▸ hmarks⟩
    case inr =>
      refine absurd hp.2 (Nat.not_lt.mpr (hroute.stop_le (fun _ _ hm => hm.1) ?_ _ _ hmarks hlt))
      rintro _ _ _ _ ⟨-, a, ha, hma, -, rfl, rfl⟩ ⟨-, b, hb, hmb, -, rfl, rfl⟩ hle hin
      exact h.nested a ha b hb hma hmb ⟨hle, hin⟩

end Engine

def RuleHit.Inside (n : Normalized) (hit : RuleHit) : Prop :=
  hit.start ≤ hit.stop ∧ hit.stop ≤ n.text.length

theorem offset_mono (rs : List Char) {j k : Nat} (h : j ≤ k) : offset rs j ≤ offset rs k := by
  have hprefix : rs.take j <+: rs.take k := List.take_prefix_take_left h
  obtain ⟨rest, hrest⟩ := hprefix
  rw [offset, offset, ← hrest, utf8_append, List.length_append]
  exact Nat.le_add_right _ _

theorem offset_le (rs : List Char) (k : Nat) : offset rs k ≤ (utf8 rs).length := by
  conv_rhs => rw [← List.take_append_drop k rs, utf8_append, List.length_append]
  exact Nat.le_add_right _ _

theorem Engine.inside {e : Engine} {patterns : List Pattern} {rs : List Char} {n : Normalized} (hn : n.text = utf8 rs) :
    ∀ hit ∈ e.occurrences patterns rs, hit.Inside n := by
  intro hit hm
  rw [RuleHit.Inside, hn]
  rcases List.mem_append.mp hm with hm | hm
  case inl =>
    obtain ⟨x, hx, rfl⟩ := List.mem_map.mp hm
    obtain ⟨p, -, hx⟩ := List.mem_flatMap.mp hx
    obtain ⟨k, -, rfl⟩ := List.mem_map.mp hx
    exact ⟨offset_mono rs (Nat.le_add_right _ _), offset_le rs _⟩
  case inr =>
    obtain ⟨cr, -, hm⟩ := List.mem_flatMap.mp hm
    obtain ⟨loc, hloc, rfl⟩ := List.mem_map.mp hm
    exact cr.re.inside _ loc hloc

section Intervals

variable {lib : Library} {e : Engine} {n : Normalized} {stop : Nat} (wf : n.WF stop) {hits : List RuleHit}
  {ruleName : Str} (hinside : ∀ hit ∈ hits, hit.Inside n)
include wf

theorem orig_eq {k : Nat} (hk : k ≤ n.text.length) : n.normToOrig[k]? = some (orig n.normToOrig k) := by
  obtain ⟨a, ha, -⟩ := wf.lookup hk
  rw [orig, ha]
  rfl

theorem RuleHit.Inside.orig_le {hit : RuleHit} (h : hit.Inside n) :
    orig n.normToOrig hit.start ≤ orig n.normToOrig hit.stop ∧ orig n.normToOrig hit.stop ≤ stop := by
  have hstart := orig_eq wf (Nat.le_trans h.1 h.2)
  have hstop := orig_eq wf h.2
  refine ⟨wf.mono h.1 hstart hstop, ?_⟩
  exact wf.bounded _ (List.mem_of_getElem? hstop)

include hinside

theorem mem_intervals {k : MaskInterval} :
    k ∈ e.intervals lib n.normToOrig hits ruleName ↔
      ∃ hit ∈ hits, e.Masks hit ∧ (e.ruleOf hit).name = ruleName ∧
        k = ⟨orig n.normToOrig hit.start, orig n.normToOrig hit.stop, (e.ruleOf hit).maskWith⟩ := by
  rw [Engine.intervals, (lib.sort_perm _).mem_iff, collectMaskHits, List.mem_filterMap]
  refine exists_congr fun hit => ?_
  rw [(Engine.sortHits_perm hits).mem_iff]
  refine and_congr_right fun hm => ?_
  have h := hinside hit hm
  rw [orig_eq wf (Nat.le_trans h.1 h.2), orig_eq wf h.2]
  simp only [h.1, and_true, Engine.Masks]
  split_ifs with hrule
  case pos =>
    rw [and_iff_right hrule.1, and_iff_right hrule.2, Option.some_inj]
    exact eq_comm
  case neg =>
    refine iff_of_false (by simp) ?_
    rintro ⟨hmask, hname, -⟩
    exact hrule ⟨hmask, hname⟩

theorem intervals_inside :
    ∀ k ∈ e.intervals lib n.normToOrig hits ruleName, k.start ≤ k.stop ∧ k.stop ≤ stop := by
  intro k hk
  obtain ⟨hit, hm, -, -, rfl⟩ := (mem_intervals wf hinside).mp hk
  exact (hinside hit hm).orig_le wf

theorem hidden_of_holds {k : MaskInterval} (hk : k ∈ e.intervals lib n.normToOrig hits ruleName)
    {i : Nat} (hi : k.Holds i) : e.Hidden n.normToOrig hits i := by
  obtain ⟨hit, hm, hmask, -, rfl⟩ := (mem_intervals wf hinside).mp hk
  exact ⟨hit, hm, hmask, hi⟩

theorem hidden_lt {i : Nat} (hi : e.Hidden n.normToOrig hits i) : i < stop := by
  obtain ⟨hit, hm, -, -, hlt⟩ := hi
  exact Nat.lt_of_lt_of_le hlt ((hinside hit hm).orig_le wf).2

end Intervals

-- The place of an interval in an order by start in which, of those with the same start, the given ones come first.
def preference (l : List (Nat × Nat)) (k : MaskInterval) : Nat :=
  2 * k.start + if (k.start, k.stop) ∈ l then 0 else 1

def Library.preferring (lib : Library) (l : List (Nat × Nat)) : Library :=
  { lib with
    sortByStart := fun intervals => intervals.insertionSort (preference l · ≤ preference l ·)
    sort_perm   := fun intervals => List.perm_insertionSort _ intervals
    sort_sorted := fun intervals =>
      have : Std.Total fun a b : MaskInterval => preference l a ≤ preference l b := ⟨fun a b => Nat.le_total _ _⟩
      have : IsTrans MaskInterval fun a b => preference l a ≤ preference l b := ⟨fun _ _ _ => Nat.le_trans⟩
      (List.pairwise_insertionSort _ intervals).imp fun {a b} (h : preference l a ≤ preference l b) => by
        unfold preference at h
        split at h <;> split at h <;> omega }

theorem preferring_sorted (lib : Library) (l : List (Nat × Nat)) (intervals : List MaskInterval) :
    ((lib.preferring l).sortByStart intervals).Pairwise (preference l · ≤ preference l ·) := by
  have : Std.Total fun a b : MaskInterval => preference l a ≤ preference l b := ⟨fun a b => Nat.le_total _ _⟩
  have : IsTrans MaskInterval fun a b => preference l a ≤ preference l b := ⟨fun _ _ _ => Nat.le_trans⟩
  exact List.pairwise_insertionSort _ intervals

theorem mem_of_preferred {l : List (Nat × Nat)} {x y : MaskInterval} (h : preference l x ≤ preference l y)
    (heq : x.start = y.start) (hy : (y.start, y.stop) ∈ l) : (x.start, x.stop) ∈ l := by
  by_contra hx
  rw [preference, preference, if_neg hx, if_pos hy] at h
  omega

section Left

variable {lib : Library} {e : Engine} {n : Normalized} {text : Str} (wf : n.WF text.length) {hits : List RuleHit}
  {ruleName : Str} (hinside : ∀ hit ∈ hits, hit.Inside n)
include wf hinside

theorem survivors_written (ruleName : Str) :
    survivors (e.written lib text n.normToOrig hits ruleName) =
      text.zipIdx.filter fun x => ∀ k ∈ e.taken lib text n.normToOrig hits ruleName, ¬k.Holds x.2 :=
  survivors_trace fun k hk => (intervals_inside wf hinside k hk).1

theorem hides_iff (ruleName : Str) :
    e.Hides lib text n.normToOrig hits ruleName ↔
      ∀ i, e.Hidden n.normToOrig hits i → ∃ k ∈ e.taken lib text n.normToOrig hits ruleName, k.Holds i := by
  rw [Engine.Hides, survivors_written wf hinside]
  constructor
  case mp =>
    intro h i hi
    by_contra hnone
    have hlt := hidden_lt wf hinside hi
    have hplace : (text[i], i) ∈ text.zipIdx := List.mk_mem_zipIdx_iff_getElem?.mpr (List.getElem?_eq_getElem hlt)
    have hleft : (text[i], i) ∈ text.zipIdx.filter fun x =>
        ∀ k ∈ e.taken lib text n.normToOrig hits ruleName, ¬k.Holds x.2 := by
      refine List.mem_filter.mpr ⟨hplace, decide_eq_true ?_⟩
      exact fun k hk hholds => hnone ⟨k, hk, hholds⟩
    rw [h] at hleft
    exact of_decide_eq_true (List.mem_filter.mp hleft).2 hi
  case mpr =>
    intro h
    refine List.filter_congr fun x hx => decide_eq_decide.mpr ⟨fun hnone hhidden => ?_, fun hhidden k hk hholds => ?_⟩
    case refine_1 =>
      obtain ⟨k, hk, hholds⟩ := h x.2 hhidden
      exact hnone k hk hholds
    case refine_2 => exact hhidden (hidden_of_holds wf hinside ((made_sublist _ _ _).subset hk) hholds)

theorem spans_intervals (lib : Library) (ruleName : Str) :
    Spans (e.intervals lib n.normToOrig hits ruleName) = e.Marks n.normToOrig hits ruleName := by
  funext a b
  refine propext (and_congr_right fun _ => ?_)
  constructor
  case mp =>
    rintro ⟨k, hk, rfl, rfl⟩
    obtain ⟨hit, hm, hmask, hname, rfl⟩ := (mem_intervals wf hinside).mp hk
    exact ⟨hit, hm, hmask, hname, rfl, rfl⟩
  case mpr =>
    rintro ⟨hit, hm, hmask, hname, rfl, rfl⟩
    exact ⟨_, (mem_intervals wf hinside).mpr ⟨hit, hm, hmask, hname, rfl⟩, rfl, rfl⟩

theorem exists_holds_iff (lib : Library) {i : Nat} :
    (∃ k ∈ e.intervals lib n.normToOrig hits ruleName, k.Holds i) ↔
      ∃ a b, e.Marks n.normToOrig hits ruleName a b ∧ a ≤ i ∧ i < b := by
  rw [← spans_intervals wf hinside lib]
  constructor
  case mp => exact fun ⟨k, hk, hholds⟩ => ⟨_, _, ⟨Nat.lt_of_le_of_lt hholds.1 hholds.2, k, hk, rfl, rfl⟩, hholds⟩
  case mpr =>
    rintro ⟨_, _, ⟨-, k, hk, rfl, rfl⟩, hholds⟩
    exact ⟨k, hk, hholds⟩

theorem hides_of_covered (h : e.Covered n.normToOrig hits ruleName) :
    e.Hides lib text n.normToOrig hits ruleName := by
  refine (hides_iff wf hinside ruleName).mpr fun i hi => ?_
  have hholds := (exists_holds_iff wf hinside lib).mpr (h.named i hi)
  refine covers_of_joined (lib.sort_sorted _) (intervals_inside wf hinside) (fun l p hroute hp => ?_) hholds
  rw [spans_intervals wf hinside] at hroute ⊢
  obtain ⟨k, hk, hpk⟩ := hp
  exact h.joined l p hroute (hidden_of_holds wf hinside hk hpk)

-- What is hidden must be hit by the name, and a route that the sort prefers must go on.
theorem named_of_hides (h : e.Hides lib text n.normToOrig hits ruleName) {i : Nat}
    (hi : e.Hidden n.normToOrig hits i) : ∃ a b, e.Marks n.normToOrig hits ruleName a b ∧ a ≤ i ∧ i < b := by
  obtain ⟨k, hk, hholds⟩ := (hides_iff wf hinside ruleName).mp h i hi
  exact (exists_holds_iff wf hinside lib).mp ⟨k, (made_sublist _ _ _).subset hk, hholds⟩

theorem joined_of_hides (h : e.Hides lib text n.normToOrig hits ruleName) {l : List (Nat × Nat)}
    {p : Nat} (hroute : Route (e.Marks n.normToOrig hits ruleName) l p)
    (hfirst : (proper (e.intervals lib n.normToOrig hits ruleName)).Pairwise fun x y =>
      x.start = y.start → (y.start, y.stop) ∈ l → x.stop = y.stop)
    (hp : e.Hidden n.normToOrig hits p) : ∃ b, e.Marks n.normToOrig hits ruleName p b := by
  rw [← spans_intervals wf hinside lib] at hroute ⊢
  exact joined_of_covers (lib.sort_sorted _) (intervals_inside wf hinside) hfirst hroute
    ((hides_iff wf hinside ruleName).mp h p hp)

theorem covered_of_untied (hu : e.Untied n.normToOrig hits ruleName)
    (h : e.Hides lib text n.normToOrig hits ruleName) : e.Covered n.normToOrig hits ruleName where
  named _ hi := named_of_hides wf hinside h hi
  joined l p hroute hp := by
    refine joined_of_hides wf hinside h hroute (List.pairwise_of_forall_mem_list fun x hx y hy heq _ => ?_) hp
    have hmarks : ∀ k ∈ proper (e.intervals lib n.normToOrig hits ruleName),
        e.Marks n.normToOrig hits ruleName k.start k.stop := by
      intro k hk
      obtain ⟨hk, hlt⟩ := mem_proper.mp hk
      rw [← spans_intervals wf hinside lib]
      exact ⟨hlt, k, hk, rfl, rfl⟩
    exact hu _ _ _ (hmarks x hx) (heq ▸ hmarks y hy)

theorem covered_of_hides (lib : Library)
    (h : ∀ lib, e.Hides lib text n.normToOrig hits ruleName) : e.Covered n.normToOrig hits ruleName where
  named _ hi := named_of_hides wf hinside (h lib) hi
  joined l p hroute hp := by
    refine joined_of_hides wf hinside (h (lib.preferring l)) hroute ?_ hp
    refine (preferring_sorted lib l _).filter _ |>.imp fun hkey heq hy => ?_
    exact hroute.stop_unique (fun _ _ hm => hm.1) (heq ▸ mem_of_preferred hkey heq hy) hy

end Left

theorem maskText_eq (lib : Library) (e : Engine) (text : Str) (normToOrig : List Nat) (hits : List RuleHit)
    (ruleName : Str) :
    maskText lib text (collectMaskHits e (e.sortHits hits) ruleName normToOrig) =
      (e.written lib text normToOrig hits ruleName).map Prod.fst := by
  rw [Engine.written, trace_map_fst, maskText, Engine.intervals]
  split_ifs with hnil
  case pos =>
    have hempty : lib.sortByStart [] = [] := (lib.sort_perm []).eq_nil
    rw [hnil, hempty]
    rfl
  case neg => rfl

namespace Engine

variable {lib : Library} {e : Engine} {hits : List RuleHit}

-- Hits that lead are equal for the sort, which keeps their order.
theorem sortHits_filter (hits : List RuleHit) :
    (e.sortHits hits).filter (e.Leads hits ·) = hits.filter (e.Leads hits ·) := by
  have hequal : (hits.filter (e.Leads hits ·)).Pairwise fun a b => ¬e.less b a := by
    refine List.pairwise_of_forall_mem_list fun a ha b hb => not_less.mpr (.inr ?_)
    obtain ⟨hma, ha⟩ := List.mem_filter.mp ha
    obtain ⟨hmb, hb⟩ := List.mem_filter.mp hb
    have ha := of_decide_eq_true ha
    have hb := of_decide_eq_true hb
    exact ⟨hb.1.rank.trans ha.1.rank.symm, ha.2 b hmb hb.1⟩
  have hkept := (List.sublist_insertionSort hequal List.filter_sublist).filter (e.Leads hits ·)
  rw [List.filter_filter] at hkept
  simp only [Bool.and_self] at hkept
  exact (hkept.eq_of_length ((sortHits_perm hits).filter _).length_eq.symm).symm

theorem leader_of_sorted {before rest : List RuleHit} {first : RuleHit}
    (hlist : e.sortHits hits = before ++ first :: rest) (hbefore : ∀ hit ∈ before, ¬e.Masks hit)
    (hmasks : e.Masks first) : e.leader hits = some first := by
  have hleads : e.Leads hits first := by
    refine ⟨hmasks, fun hit hm hmask => ?_⟩
    have hsorted := sortHits_sorted (e := e) hits
    have hm : hit ∈ e.sortHits hits := (sortHits_perm hits).mem_iff.mpr hm
    rw [hlist] at hsorted hm
    rcases List.mem_append.mp hm with hm | hm
    case inl => exact absurd hmask (hbefore hit hm)
    case inr =>
      rcases List.mem_cons.mp hm with rfl | hm
      case inl => exact Int.le_refl _
      case inr =>
        have hahead := (List.pairwise_cons.mp (List.pairwise_append.mp hsorted).2.1).1 hit hm
        rcases hahead with hlt | ⟨-, hle⟩
        case inl => rw [hmask.rank, hmasks.rank] at hlt; exact absurd hlt (Nat.lt_irrefl _)
        case inr => exact hle
  have hnone : before.filter (e.Leads hits ·) = [] :=
    List.filter_eq_nil_iff.mpr fun hit hm h => hbefore hit hm (of_decide_eq_true h).1
  rw [leader, ← List.head?_filter, ← sortHits_filter, hlist, List.filter_append, hnone, List.nil_append,
    List.filter_cons_of_pos (by simpa using hleads)]
  rfl

theorem evaluateHits_of_mask {text : Str} {normToOrig : List Nat} {d : Decision}
    (hd : d = e.evaluateHits lib text normToOrig hits) (hmask : d.action = .mask) :
    ∃ top, e.leader hits = some top ∧ d.reason = (e.ruleOf top).name ∧
      d.newText = (e.written lib text normToOrig hits (e.ruleOf top).name).map Prod.fst := by
  rw [evaluateHits_eq] at hd
  rcases settle_cases lib e text normToOrig (e.sortHits hits)
    { action := .pass, newText := text, tags := (e.sortHits hits).foldl e.addTag [] } (e.sortHits hits) with
    ⟨-, hpass⟩ | ⟨before, first, rest, hlist, hbefore, ⟨-, hblock⟩ | ⟨hmasks, hsettled⟩⟩
  case inl => rw [hd, hpass] at hmask; cases hmask
  case inr.inl => rw [hd, hblock] at hmask; cases hmask
  case inr.inr =>
    rw [hd, hsettled]
    exact ⟨first, leader_of_sorted hlist (fun hit hm => (hbefore hit hm).2) hmasks, rfl, maskText_eq ..⟩

end Engine

-- The masked text is what was written for the name of the hit that leads. However `sort.Slice` may leave intervals
-- with the same start, it hides what the mask rules hit if and only if the hits of that name cover it. They do if the
-- hits are tidy, and where no two intervals share their start there is only one order.
theorem mask_hides_iff (lib : Library) (e : Engine) (patterns : List Pattern) (cs : List Char) {n : Normalized}
    {hits : List RuleHit} {d : Decision} (hn : n = normalizeTextWithMap lib.toLower (utf8 cs) e.normalize)
    (hhits : hits.Perm (e.occurrences patterns (e.normalize.runes lib.toLower cs)))
    (hd : d = e.evaluateHits lib (utf8 cs) n.normToOrig hits) (hmask : d.action = .mask) :
    ∃ top, e.leader hits = some top ∧
      d.newText = (e.written lib (utf8 cs) n.normToOrig hits (e.ruleOf top).name).map Prod.fst ∧
      ((∀ lib', e.Hides lib' (utf8 cs) n.normToOrig hits (e.ruleOf top).name) ↔
        e.Covered n.normToOrig hits (e.ruleOf top).name) ∧
      (e.Untied n.normToOrig hits (e.ruleOf top).name →
        (e.Hides lib (utf8 cs) n.normToOrig hits (e.ruleOf top).name ↔
          e.Covered n.normToOrig hits (e.ruleOf top).name)) ∧
      (e.Tidy n.normToOrig hits (e.ruleOf top).name → e.Covered n.normToOrig hits (e.ruleOf top).name) := by
  have wf : n.WF (utf8 cs).length := hn ▸ normalize_wf lib.toLower e.normalize cs
  have htext : n.text = utf8 (e.normalize.runes lib.toLower cs) := hn ▸ normalizeText_utf8 lib.toLower e.normalize cs
  have hinside : ∀ hit ∈ hits, hit.Inside n := fun hit hm => Engine.inside htext hit (hhits.mem_iff.mp hm)
  obtain ⟨top, htop, -, hnew⟩ := Engine.evaluateHits_of_mask hd hmask
  refine ⟨top, htop, hnew, ⟨covered_of_hides wf hinside lib, fun h lib' => hides_of_covered wf hinside h⟩, fun hu => ?_,
    Engine.Tidy.covered⟩
  exact ⟨covered_of_untied wf hinside hu, hides_of_covered wf hinside⟩

def wordsConfig (keywords : List Str) : FilterConfig where
  enabled := true
  rules   := [{ name := lit "words", keywords, action := lit "mask" }]

def wordsPatterns (keywords : List Str) : List Pattern :=
  keywords.map fun text => { text, rule := 0 }

-- "cd" starts inside "abc", but where "abc" ends another word starts.
def chainHits : List RuleHit :=
  [{ rule := 0, start := 0, stop := 3, text := lit "abc" }, { rule := 0, start := 2, stop := 4, text := lit "cd" },
    { rule := 0, start := 3, stop := 5, text := lit "de" }]

theorem mask_hides_iff_words :
    let keywords := [lit "abc", lit "cd", lit "de"]
    ∃ e, compile .plain (wordsConfig keywords) = some (.ok (some e)) ∧
      e.hits (lit "abcde") = some chainHits ∧
      evaluate .plain (some e) (lit "abcde") =
        some { action := .mask, reason := lit "words", newText := lit "**" } ∧
      ∀ lib, e.Hides lib (utf8 ['a', 'b', 'c', 'd', 'e']) [0, 1, 2, 3, 4, 5] chainHits (lit "words") := by
  intro keywords
  have hrun : (compiled .plain (wordsConfig keywords)).map (fun e => decide (
      (normalizeTextWithMap lower (utf8 ['a', 'b', 'c', 'd', 'e']) e.normalize = ⟨lit "abcde", [0, 1, 2, 3, 4, 5]⟩ ∧
      chainHits.Perm (e.occurrences (wordsPatterns keywords) (e.normalize.runes lower ['a', 'b', 'c', 'd', 'e'])) ∧
      e.evaluateHits .plain (utf8 ['a', 'b', 'c', 'd', 'e']) [0, 1, 2, 3, 4, 5] chainHits =
        { action := .mask, reason := lit "words", newText := lit "**" } ∧
      (e.leader chainHits).map (fun top => (e.ruleOf top).name) = some (lit "words") ∧
      e.Hides .plain (utf8 ['a', 'b', 'c', 'd', 'e']) [0, 1, 2, 3, 4, 5] chainHits (lit "words")) ∧
      e.hits (lit "abcde") = some chainHits ∧
      evaluate .plain (some e) (lit "abcde") =
        some { action := .mask, reason := lit "words", newText := lit "**" })) = some true := by
    decide +kernel
  obtain ⟨e, he, hfacts⟩ := Option.map_eq_some_iff.mp hrun
  obtain ⟨⟨hn, hhits, hd, hleader, hhides⟩, hfound, hevaluate⟩ := of_decide_eq_true hfacts
  refine ⟨e, compile_of_compiled he, hfound, hevaluate, ?_⟩
  obtain ⟨top, htop, -, hall, hone, -⟩ :=
    mask_hides_iff .plain e (wordsPatterns keywords) _ hn.symm hhits hd.symm rfl
  rw [htop, Option.map_some, Option.some_inj] at hleader
  rw [hleader] at hall hone
  refine hall.mpr ((hone ?_).mp hhides)
  have hstops : ∀ x ∈ chainHits, ∀ y ∈ chainHits, orig [0, 1, 2, 3, 4, 5] x.start = orig [0, 1, 2, 3, 4, 5] y.start →
      orig [0, 1, 2, 3, 4, 5] x.stop = orig [0, 1, 2, 3, 4, 5] y.stop := by decide
  rintro a b b' ⟨-, x, hx, -, -, rfl, rfl⟩ ⟨-, y, hy, -, -, heq, rfl⟩
  exact hstops x hx y hy heq.symm

-- Nothing starts where "abc" ends: what "cd" has beyond is not hidden.
def overlapHits : List RuleHit :=
  [{ rule := 0, start := 0, stop := 3, text := lit "abc" }, { rule := 0, start := 2, stop := 4, text := lit "cd" }]

theorem overlap_leaks :
    ∃ e, compile .plain (wordsConfig [lit "abc", lit "cd"]) = some (.ok (some e)) ∧ e.hits (lit "abcd") = some overlapHits ∧
      overlapHits.Perm (e.occurrences (wordsPatterns [lit "abc", lit "cd"]) (e.normalize.runes lower ['a', 'b', 'c', 'd'])) ∧
      evaluate .plain (some e) (lit "abcd") =
        some { action := .mask, reason := lit "words", newText := lit "*d" } ∧
      e.Hidden [0, 1, 2, 3, 4] overlapHits 3 ∧
      ¬e.Hides .plain (lit "abcd") [0, 1, 2, 3, 4] overlapHits (lit "words") := by
  have hrun : (compiled .plain (wordsConfig [lit "abc", lit "cd"])).map (fun e => decide (e.hits (lit "abcd") = some overlapHits ∧
      overlapHits.Perm (e.occurrences (wordsPatterns [lit "abc", lit "cd"]) (e.normalize.runes lower ['a', 'b', 'c', 'd'])) ∧
      evaluate .plain (some e) (lit "abcd") =
        some { action := .mask, reason := lit "words", newText := lit "*d" } ∧
      e.Hidden [0, 1, 2, 3, 4] overlapHits 3 ∧
      ¬e.Hides .plain (lit "abcd") [0, 1, 2, 3, 4] overlapHits (lit "words"))) = some true := by
    decide +kernel
  obtain ⟨e, he, hfacts⟩ := Option.map_eq_some_iff.mp hrun
  exact ⟨e, compile_of_compiled he, of_decide_eq_true hfacts⟩

end SmppGateway.Filter
