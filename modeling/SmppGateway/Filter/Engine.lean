import Mathlib.Data.List.Sort
import SmppGateway.Filter.Matcher
import SmppGateway.Filter.Normalize
import SmppGateway.Go.Regexp
import SmppGateway.Lib.Parse
import SmppGateway.Lib.Splice

-- The rules of the filter and what they decide about a text (`internal/filter/engine.go`).

namespace SmppGateway

open Go Parse Splice

inductive FilterAction
  | pass
  | block
  | mask
  deriving DecidableEq, Repr

structure Decision where
  action  : FilterAction
  reason  : Str := []
  newText : Str
  tags    : List Str := []
  deriving DecidableEq, Repr

namespace Filter

structure FilterRule where
  name     : Str
  enabled  : Option Bool := none
  keywords : List Str := []
  regex    : Str := []
  action   : Str
  tag      : Str := []
  maskWith : Str := []
  priority : Int := 0
  deriving DecidableEq, Repr

structure FilterConfig where
  enabled   : Bool
  normalize : NormalizeConfig := {}
  rules     : List FilterRule
  deriving DecidableEq, Repr

structure Regex where
  findAll : Str → List (Nat × Nat)
  inside  : ∀ s, ∀ loc ∈ findAll s, loc.1 ≤ loc.2 ∧ loc.2 ≤ s.length

abbrev MaskInterval := Cut UInt8

-- What the filter takes from its surroundings: `unicode.ToLower`, `regexp.Compile`, the order in which `range`
-- visits the children of a node, and `sort.Slice`, which need not be stable.
structure Library where
  toLower       : Char → Char
  compileRegexp : Str → Except Str Regex
  order         : AcMatcher.Order
  sortByStart   : List MaskInterval → List MaskInterval
  order_perm    : ∀ v l, (order v l).Perm l
  sort_perm     : ∀ l, (sortByStart l).Perm l
  sort_sorted   : ∀ l, (sortByStart l).Pairwise (·.start ≤ ·.start)

structure CompiledRule where
  name     : Str := []
  action   : Str := []
  tag      : Str := []
  maskWith : Str := []
  priority : Int := 0
  deriving DecidableEq, Repr

structure CompiledRegex where
  rule : Int
  re   : Regex

structure Engine where
  normalize : NormalizeConfig
  rules     : List CompiledRule
  ac        : AcMatcher
  regexps   : List CompiledRegex

def CompiledRule.of (rule : FilterRule) : CompiledRule where
  name     := rule.name
  action   :=
    let action := toLower (trimSpaceStr rule.action)
    if action = [] then lit "pass" else action
  tag      := rule.tag
  maskWith := if rule.maskWith = [] then lit "*" else rule.maskWith
  priority := rule.priority

structure Compiling where
  rules    : List CompiledRule := []
  patterns : List Pattern := []
  regexps  : List CompiledRegex := []

namespace Compiling

variable (lib : Library) (cfg : NormalizeConfig)

def addKeyword (idx : Nat) (patterns : List Pattern) (kw : Str) : List Pattern :=
  let kw := normalizeText lib.toLower kw cfg
  if kw ≠ [] then patterns ++ [{ text := kw, rule := idx }] else patterns

def addRule (c : Compiling) (rule : FilterRule) : Compiling :=
  { c with
    rules    := c.rules ++ [.of rule]
    patterns := rule.keywords.foldl (addKeyword lib cfg c.rules.length) c.patterns }

def addRegex (idx : Nat) (c : Compiling) (regex : Str) : Except Str Compiling :=
  if regex ≠ [] then
    (lib.compileRegexp regex).map fun re => { c with regexps := c.regexps ++ [{ rule := idx, re }] }
  else
    .ok c

def add (c : Compiling) (rule : FilterRule) : Except Str Compiling :=
  if rule.enabled = some false then
    .ok c
  else
    (c.addRule lib cfg rule).addRegex lib c.rules.length rule.regex

def engine (c : Compiling) (ac : AcMatcher) : Engine where
  normalize := cfg
  rules     := c.rules
  ac        := ac
  regexps   := c.regexps

end Compiling

def compileRules (lib : Library) (cfg : FilterConfig) : Except Str Compiling :=
  cfg.rules.foldlM (Compiling.add lib cfg.normalize) {}

-- A filter that is switched off has no engine. There is no result if the matcher is never built.
def compile (lib : Library) (cfg : FilterConfig) : Option (Except Str (Option Engine)) :=
  if !cfg.enabled then
    some (.ok none)
  else
    match compileRules lib cfg with
    | .error e => some (.error e)
    | .ok c    => (buildAC lib.order c.patterns).map fun ac => .ok (some (c.engine cfg.normalize ac))

structure RuleHit where
  rule  : Int
  start : Nat
  stop  : Nat  -- `end` in the source
  text  : Str := []
  deriving DecidableEq, Repr

def AcMatch.hit (m : AcMatch) : RuleHit where
  rule  := m.rule
  start := m.start
  stop  := m.stop
  text  := m.text

def CompiledRegex.hits (cr : CompiledRegex) (normalized : Str) : List RuleHit :=
  (cr.re.findAll normalized).map fun loc => { rule := cr.rule, start := loc.1, stop := loc.2 }

def actionRank (action : Str) : Nat :=
  if action = lit "block" then
    4
  else if action = lit "mask" then
    3
  else if action = lit "tag" then
    2
  else
    1

namespace Engine

variable (e : Engine)

-- There is no result if the matcher does not come to the end of the text.
def hits (normalized : Str) : Option (List RuleHit) :=
  (e.ac.find normalized).map fun found =>
    found.map AcMatch.hit ++ e.regexps.flatMap (·.hits normalized)

def ruleOf (hit : RuleHit) : CompiledRule :=
  e.rules[hit.rule.toNat]?.getD {}

def less (a b : RuleHit) : Bool :=
  if actionRank (e.ruleOf a).action ≠ actionRank (e.ruleOf b).action then
    actionRank (e.ruleOf b).action < actionRank (e.ruleOf a).action
  else
    (e.ruleOf b).priority < (e.ruleOf a).priority

-- `sort.SliceStable`: a hit moves in front of another one only if it is less.
def sortHits (hits : List RuleHit) : List RuleHit :=
  hits.insertionSort fun a b => ¬e.less b a

def addTag (tags : List Str) (hit : RuleHit) : List Str :=
  let rule := e.ruleOf hit
  if rule.action = lit "tag" ∧ rule.tag ≠ [] then tags.insert rule.tag else tags

end Engine

def collectMaskHits (e : Engine) (hits : List RuleHit) (ruleName : Str) (normToOrig : List Nat) :
    List MaskInterval :=
  hits.filterMap fun hit =>
    let rule := e.ruleOf hit
    if rule.action = lit "mask" ∧ rule.name = ruleName ∧ hit.start ≤ hit.stop then
      match normToOrig[hit.start]?, normToOrig[hit.stop]? with
      | some start, some stop => some { start, stop, fill := rule.maskWith }
      | _,          _         => some { start := hit.start, stop := hit.stop, fill := rule.maskWith }
    else
      none

def maskText (lib : Library) (text : Str) (intervals : List MaskInterval) : Str :=
  if intervals = [] then text else splice text 0 (lib.sortByStart intervals)

namespace Engine

variable (lib : Library) (e : Engine)

def settle (text : Str) (normToOrig : List Nat) (sorted : List RuleHit) (decision : Decision) :
    List RuleHit → Decision
  | []          => decision
  | hit :: rest =>
    let rule := e.ruleOf hit
    if rule.action = lit "block" then
      { decision with action := .block, reason := rule.name }
    else if rule.action = lit "mask" then
      { decision with
        action  := .mask
        reason  := rule.name
        newText := maskText lib text (collectMaskHits e sorted rule.name normToOrig) }
    else
      settle text normToOrig sorted decision rest

def evaluateHits (text : Str) (normToOrig : List Nat) (hits : List RuleHit) : Decision :=
  let decision : Decision := { action := .pass, newText := text }
  if hits = [] then
    decision
  else
    let sorted := e.sortHits hits
    e.settle lib text normToOrig sorted { decision with tags := sorted.foldl e.addTag [] } sorted

end Engine

def evaluate (lib : Library) (e : Option Engine) (text : Str) : Option Decision :=
  match e with
  | none   => some { action := .pass, newText := text }
  | some e =>
    let n := normalizeTextWithMap lib.toLower text e.normalize
    (e.hits n.text).map (e.evaluateHits lib text n.normToOrig)

namespace Engine

variable {lib : Library} {e : Engine}

def Ahead (e : Engine) (a b : RuleHit) : Prop :=
  actionRank (e.ruleOf b).action < actionRank (e.ruleOf a).action ∨
  (actionRank (e.ruleOf b).action = actionRank (e.ruleOf a).action ∧ (e.ruleOf b).priority ≤ (e.ruleOf a).priority)

theorem not_less {a b : RuleHit} : ¬e.less b a ↔ e.Ahead a b := by
  unfold less Ahead
  split_ifs with h
  case pos => simp only [decide_eq_true_eq]; omega
  case neg => simp only [decide_eq_true_eq]; omega

theorem sortHits_perm (hits : List RuleHit) : (e.sortHits hits).Perm hits :=
  List.perm_insertionSort _ _

theorem sortHits_sorted (hits : List RuleHit) : (e.sortHits hits).Pairwise e.Ahead := by
  have htotal : Std.Total fun a b => ¬e.less b a := ⟨fun a b => by simp only [not_less, Ahead]; omega⟩
  have htrans : IsTrans RuleHit fun a b => ¬e.less b a := ⟨fun a b c => by simp only [not_less, Ahead]; omega⟩
  exact (List.pairwise_insertionSort _ hits).imp not_less.mp

def Blocks (e : Engine) (hit : RuleHit) : Prop :=
  (e.ruleOf hit).action = lit "block"

def Masks (e : Engine) (hit : RuleHit) : Prop :=
  (e.ruleOf hit).action = lit "mask"

def Tags (e : Engine) (hit : RuleHit) (tag : Str) : Prop :=
  (e.ruleOf hit).action = lit "tag" ∧ (e.ruleOf hit).tag = tag

theorem Blocks.rank {hit : RuleHit} (h : e.Blocks hit) : actionRank (e.ruleOf hit).action = 4 := by
  rw [h]
  decide

theorem Masks.rank {hit : RuleHit} (h : e.Masks hit) : actionRank (e.ruleOf hit).action = 3 := by
  rw [h]
  decide

theorem mem_addTag {tags : List Str} {hit : RuleHit} {tag : Str} :
    tag ∈ e.addTag tags hit ↔ tag ∈ tags ∨ tag ≠ [] ∧ e.Tags hit tag := by
  unfold addTag Tags
  simp only
  split_ifs with h
  case pos =>
    obtain ⟨haction, hne⟩ := h
    rw [List.mem_insert_iff]
    grind
  case neg => grind

theorem mem_foldl_addTag {hits : List RuleHit} {tags : List Str} {tag : Str} :
    tag ∈ hits.foldl e.addTag tags ↔ tag ∈ tags ∨ tag ≠ [] ∧ ∃ hit ∈ hits, e.Tags hit tag := by
  induction hits generalizing tags
  case nil => simp
  case cons hit hits hi => rw [List.foldl_cons, hi, mem_addTag, List.exists_mem_cons_iff, and_or_left, or_assoc]

theorem nodup_foldl_addTag {hits : List RuleHit} {tags : List Str} (h : tags.Nodup) :
    (hits.foldl e.addTag tags).Nodup := by
  induction hits generalizing tags
  case nil => exact h
  case cons hit hits hi =>
    refine hi ?_
    unfold addTag
    simp only
    split_ifs
    case pos => exact h.insert
    case neg => exact h

variable (lib e)

theorem settle_cases (text : Str) (normToOrig : List Nat) (sorted : List RuleHit) (d : Decision) (l : List RuleHit) :
    ((∀ hit ∈ l, ¬e.Blocks hit ∧ ¬e.Masks hit) ∧ e.settle lib text normToOrig sorted d l = d) ∨
    ∃ before hit rest, l = before ++ hit :: rest ∧ (∀ hit ∈ before, ¬e.Blocks hit ∧ ¬e.Masks hit) ∧
      (e.Blocks hit ∧ e.settle lib text normToOrig sorted d l =
          { d with action := .block, reason := (e.ruleOf hit).name } ∨
       e.Masks hit ∧ e.settle lib text normToOrig sorted d l =
          { d with
            action  := .mask
            reason  := (e.ruleOf hit).name
            newText := maskText lib text (collectMaskHits e sorted (e.ruleOf hit).name normToOrig) }) := by
  induction l
  case nil => exact .inl ⟨by simp, rfl⟩
  case cons hit l hi =>
    rw [settle]
    by_cases hb : e.Blocks hit
    case pos => exact .inr ⟨[], hit, l, rfl, by simp, .inl ⟨hb, if_pos hb⟩⟩
    case neg =>
      by_cases hm : e.Masks hit
      case pos => exact .inr ⟨[], hit, l, rfl, by simp, .inr ⟨hm, (if_neg hb).trans (if_pos hm)⟩⟩
      case neg =>
        have hnext : e.settle lib text normToOrig sorted d (hit :: l) = e.settle lib text normToOrig sorted d l :=
          (if_neg hb).trans (if_neg hm)
        rw [settle] at hnext
        rw [hnext]
        rcases hi with ⟨hnone, hd⟩ | ⟨before, first, rest, rfl, hbefore, hd⟩
        case inl => exact .inl ⟨List.forall_mem_cons.mpr ⟨⟨hb, hm⟩, hnone⟩, hd⟩
        case inr =>
          exact .inr ⟨hit :: before, first, rest, rfl, List.forall_mem_cons.mpr ⟨⟨hb, hm⟩, hbefore⟩, hd⟩

inductive Settled (lib : Library) (e : Engine) (text : Str) (normToOrig : List Nat) (hits : List RuleHit) :
    Decision → Prop
  | pass (hblock : ¬∃ hit ∈ hits, e.Blocks hit) (hmask : ¬∃ hit ∈ hits, e.Masks hit) :
    Settled lib e text normToOrig hits {
      action  := .pass
      newText := text
      tags    := (e.sortHits hits).foldl e.addTag [] }
  | block (hit : RuleHit) (mem : hit ∈ hits) (blocks : e.Blocks hit)
      (top : ∀ h ∈ hits, e.Blocks h → (e.ruleOf h).priority ≤ (e.ruleOf hit).priority) :
    Settled lib e text normToOrig hits {
      action  := .block
      reason  := (e.ruleOf hit).name
      newText := text
      tags    := (e.sortHits hits).foldl e.addTag [] }
  | mask (hit : RuleHit) (mem : hit ∈ hits) (masks : e.Masks hit) (hblock : ¬∃ hit ∈ hits, e.Blocks hit)
      (top : ∀ h ∈ hits, e.Masks h → (e.ruleOf h).priority ≤ (e.ruleOf hit).priority) :
    Settled lib e text normToOrig hits {
      action  := .mask
      reason  := (e.ruleOf hit).name
      newText := maskText lib text (collectMaskHits e (e.sortHits hits) (e.ruleOf hit).name normToOrig)
      tags    := (e.sortHits hits).foldl e.addTag [] }

theorem Settled.tags {lib : Library} {e : Engine} {text : Str} {normToOrig : List Nat} {hits : List RuleHit}
    {d : Decision} (h : Settled lib e text normToOrig hits d) : d.tags = (e.sortHits hits).foldl e.addTag [] := by
  cases h <;> rfl

theorem evaluateHits_eq (text : Str) (normToOrig : List Nat) (hits : List RuleHit) :
    e.evaluateHits lib text normToOrig hits =
      e.settle lib text normToOrig (e.sortHits hits)
        { action := .pass, newText := text, tags := (e.sortHits hits).foldl e.addTag [] } (e.sortHits hits) := by
  unfold evaluateHits
  simp only
  split_ifs with h
  case pos => subst h; rfl
  case neg => rfl

theorem evaluateHits_settled (text : Str) (normToOrig : List Nat) (hits : List RuleHit) :
    Settled lib e text normToOrig hits (e.evaluateHits lib text normToOrig hits) := by
  have hperm := sortHits_perm (e := e) hits
  have hsorted := sortHits_sorted (e := e) hits
  rw [evaluateHits_eq]
  rcases settle_cases lib e text normToOrig (e.sortHits hits)
    { action := .pass, newText := text, tags := (e.sortHits hits).foldl e.addTag [] } (e.sortHits hits) with
    ⟨hnone, hd⟩ | ⟨before, first, rest, hlist, hbefore, hd⟩
  case inl =>
    rw [hd]
    refine .pass ?_ ?_
    all_goals
      rintro ⟨hit, hm, h⟩
      have hneither := hnone hit (hperm.mem_iff.mpr hm)
    case refine_1 => exact hneither.1 h
    case refine_2 => exact hneither.2 h
  case inr =>
    have hfirst : first ∈ hits := hperm.mem_iff.mp (hlist ▸ by simp)
    -- Any other hit of such a rule comes later.
    have hahead : ∀ hit ∈ hits, e.Blocks hit ∨ e.Masks hit → hit = first ∨ e.Ahead first hit := by
      intro hit hm hdecisive
      have hm := hperm.mem_iff.mpr hm
      rw [hlist] at hm hsorted
      rcases List.mem_append.mp hm with hm | hm
      case inl => exact (hdecisive.elim (hbefore hit hm).1 (hbefore hit hm).2).elim
      case inr =>
        rcases List.mem_cons.mp hm with rfl | hm
        case inl => exact .inl rfl
        case inr => exact .inr ((List.pairwise_cons.mp (List.pairwise_append.mp hsorted).2.1).1 hit hm)
    have htop : ∀ hit ∈ hits, e.Blocks hit ∨ e.Masks hit →
        actionRank (e.ruleOf hit).action = actionRank (e.ruleOf first).action →
        (e.ruleOf hit).priority ≤ (e.ruleOf first).priority := by
      intro hit hm hdecisive hrank
      rcases hahead hit hm hdecisive with rfl | hlt | ⟨-, hle⟩
      case inl => exact Int.le_refl _
      case inr.inl => omega
      case inr.inr => exact hle
    rcases hd with ⟨hblocks, hd⟩ | ⟨hmasks, hd⟩
    case inl =>
      rw [hd]
      exact .block first hfirst hblocks fun hit hm hb => htop hit hm (.inl hb) (hb.rank.trans hblocks.rank.symm)
    case inr =>
      have hnoblock : ¬∃ hit ∈ hits, e.Blocks hit := by
        rintro ⟨hit, hm, hb⟩
        have hrank := hb.rank
        have hrank' := hmasks.rank
        rcases hahead hit hm (.inl hb) with rfl | hlt | ⟨heq, -⟩ <;> omega
      rw [hd]
      exact .mask first hfirst hmasks hnoblock
        fun hit hm h => htop hit hm (.inr h) (h.rank.trans hmasks.rank.symm)

structure Precedence (e : Engine) (hits : List RuleHit) (d : Decision) : Prop where
  block       : d.action = .block ↔ ∃ hit ∈ hits, e.Blocks hit
  mask        : d.action = .mask ↔ (¬∃ hit ∈ hits, e.Blocks hit) ∧ ∃ hit ∈ hits, e.Masks hit
  pass        : d.action = .pass ↔ (¬∃ hit ∈ hits, e.Blocks hit) ∧ ¬∃ hit ∈ hits, e.Masks hit
  blockReason : d.action = .block → ∃ hit ∈ hits, e.Blocks hit ∧ d.reason = (e.ruleOf hit).name ∧
    ∀ h ∈ hits, e.Blocks h → (e.ruleOf h).priority ≤ (e.ruleOf hit).priority
  maskReason  : d.action = .mask → ∃ hit ∈ hits, e.Masks hit ∧ d.reason = (e.ruleOf hit).name ∧
    ∀ h ∈ hits, e.Masks h → (e.ruleOf h).priority ≤ (e.ruleOf hit).priority
  tags        : ∀ tag, tag ∈ d.tags ↔ tag ≠ [] ∧ ∃ hit ∈ hits, e.Tags hit tag
  nodup       : d.tags.Nodup

theorem evaluateHits_precedence (text : Str) (normToOrig : List Nat) (hits : List RuleHit) :
    e.Precedence hits (e.evaluateHits lib text normToOrig hits) := by
  have hsettled := evaluateHits_settled lib e text normToOrig hits
  generalize e.evaluateHits lib text normToOrig hits = d at hsettled ⊢
  have htags : ∀ tag, tag ∈ d.tags ↔ tag ≠ [] ∧ ∃ hit ∈ hits, e.Tags hit tag := by
    intro tag
    rw [hsettled.tags, mem_foldl_addTag]
    simp [(sortHits_perm hits).mem_iff]
  have hnodup : d.tags.Nodup := by
    rw [hsettled.tags]
    exact nodup_foldl_addTag .nil
  cases hsettled
  case pass hblock hmask =>
    exact {
      block       := iff_of_false (by simp) hblock
      mask        := iff_of_false (by simp) fun h => hmask h.2
      pass        := iff_of_true rfl ⟨hblock, hmask⟩
      blockReason := by simp
      maskReason  := by simp
      tags        := htags
      nodup       := hnodup }
  case block hit mem blocks top =>
    exact {
      block       := iff_of_true rfl ⟨hit, mem, blocks⟩
      mask        := iff_of_false (by simp) fun h => h.1 ⟨hit, mem, blocks⟩
      pass        := iff_of_false (by simp) fun h => h.1 ⟨hit, mem, blocks⟩
      blockReason := fun _ => ⟨hit, mem, blocks, rfl, top⟩
      maskReason  := by simp
      tags        := htags
      nodup       := hnodup }
  case mask hit mem masks hblock top =>
    exact {
      block       := iff_of_false (by simp) hblock
      mask        := iff_of_true rfl ⟨hblock, hit, mem, masks⟩
      pass        := iff_of_false (by simp) fun h => h.2 ⟨hit, mem, masks⟩
      blockReason := by simp
      maskReason  := fun _ => ⟨hit, mem, masks, rfl, top⟩
      tags        := htags
      nodup       := hnodup }

def InRange (e : Engine) (hit : RuleHit) : Prop :=
  0 ≤ hit.rule ∧ hit.rule < e.rules.length

end Engine

def Compiling.Known (c : Compiling) (rule : Int) : Prop :=
  0 ≤ rule ∧ rule < c.rules.length

structure Compiling.WF (c : Compiling) : Prop where
  patterns : ∀ p ∈ c.patterns, c.Known p.rule
  regexps  : ∀ cr ∈ c.regexps, c.Known cr.rule

namespace Compiling

variable {lib : Library} {cfg : NormalizeConfig} {c c' : Compiling}

theorem mem_addKeywords {idx : Nat} {keywords : List Str} {patterns : List Pattern} {p : Pattern}
    (h : p ∈ keywords.foldl (addKeyword lib cfg idx) patterns) : p ∈ patterns ∨ p.rule = idx := by
  induction keywords generalizing patterns
  case nil => exact .inl h
  case cons kw keywords hi =>
    rcases hi h with h | h
    case inr => exact .inr h
    case inl =>
      unfold addKeyword at h
      simp only at h
      split_ifs at h
      case neg => exact .inl h
      case pos =>
        rcases List.mem_append.mp h with h | h
        case inl => exact .inl h
        case inr => exact .inr (by rw [List.mem_singleton.mp h])

theorem WF.addRule (wf : c.WF) (rule : FilterRule) : (c.addRule lib cfg rule).WF := by
  have hlength : (c.addRule lib cfg rule).rules.length = c.rules.length + 1 := List.length_append
  constructor
  case patterns =>
    intro p hp
    rw [Known, hlength]
    rcases mem_addKeywords hp with hp | hp
    case inl =>
      obtain ⟨hle, hlt⟩ := wf.patterns p hp
      omega
    case inr => omega
  case regexps =>
    intro cr hcr
    obtain ⟨hle, hlt⟩ := wf.regexps cr hcr
    rw [Known, hlength]
    omega

theorem WF.addRegex (wf : c.WF) {idx : Nat} (hidx : idx < c.rules.length) {regex : Str}
    (h : c.addRegex lib idx regex = .ok c') : c'.WF := by
  unfold Compiling.addRegex at h
  split_ifs at h
  case neg => cases h; exact wf
  case pos =>
    obtain ⟨re, -, rfl⟩ := map_eq_ok.mp h
    refine ⟨wf.patterns, fun cr hcr => ?_⟩
    rcases List.mem_append.mp hcr with hcr | hcr
    case inl => exact wf.regexps cr hcr
    case inr =>
      rw [List.mem_singleton.mp hcr]
      exact ⟨Int.natCast_nonneg idx, Int.ofNat_lt.mpr hidx⟩

theorem WF.add (wf : c.WF) {rule : FilterRule} (h : c.add lib cfg rule = .ok c') : c'.WF := by
  unfold Compiling.add at h
  split_ifs at h
  case pos => cases h; exact wf
  case neg => exact (wf.addRule rule).addRegex (by simp [Compiling.addRule]) h

theorem WF.run (wf : c.WF) {rules : List FilterRule} (h : rules.foldlM (Compiling.add lib cfg) c = .ok c') : c'.WF := by
  induction rules generalizing c
  case nil => cases h; exact wf
  case cons rule rules hi =>
    rw [List.foldlM_cons] at h
    obtain ⟨next, hnext, h⟩ := bind_eq_ok.mp h
    exact hi (wf.add hnext) h

end Compiling

theorem compileRules_wf {lib : Library} {cfg : FilterConfig} {c : Compiling} (h : compileRules lib cfg = .ok c) : c.WF :=
  Compiling.WF.run ⟨by simp, by simp⟩ h

theorem compile_eq_some {lib : Library} {cfg : FilterConfig} {e : Engine} (h : compile lib cfg = some (.ok (some e))) :
    ∃ c ac, compileRules lib cfg = .ok c ∧ buildAC lib.order c.patterns = some ac ∧ e = c.engine cfg.normalize ac := by
  unfold compile at h
  split_ifs at h
  case pos => cases h
  case neg =>
    split at h
    case h_1 => cases h
    case h_2 c hc =>
      obtain ⟨ac, hac, heq⟩ := Option.map_eq_some_iff.mp h
      cases heq
      exact ⟨c, ac, hc, hac, rfl⟩

theorem hits_inRange {lib : Library} {cfg : FilterConfig} {e : Engine} (h : compile lib cfg = some (.ok (some e)))
    {normalized : Str} {hits : List RuleHit} (hhits : e.hits normalized = some hits) : ∀ hit ∈ hits, e.InRange hit := by
  obtain ⟨c, ac, hc, hac, rfl⟩ := compile_eq_some h
  obtain ⟨found, hfind, rfl⟩ := Option.map_eq_some_iff.mp hhits
  have wf := compileRules_wf hc
  intro hit hm
  rcases List.mem_append.mp hm with hm | hm
  case inl =>
    obtain ⟨x, hx, rfl⟩ := List.mem_map.mp hm
    obtain ⟨p, hp, hrule⟩ := (buildAC_emits hac).find hfind x hx
    have hknown := wf.patterns p hp
    rw [← hrule] at hknown
    exact hknown
  case inr =>
    obtain ⟨cr, hcr, hm⟩ := List.mem_flatMap.mp hm
    obtain ⟨loc, -, rfl⟩ := List.mem_map.mp hm
    exact wf.regexps cr hcr

-- Whatever is hit, in whatever order, the decision and its reason follow the rules that are hit, and so do the tags.
theorem evaluate_precedence (lib : Library) {cfg : FilterConfig} {e : Engine}
    (hcompile : compile lib cfg = some (.ok (some e))) (text : Str) :
    (∀ hits, (∀ hit ∈ hits, e.InRange hit) → e.Precedence hits
      (e.evaluateHits lib text (normalizeTextWithMap lib.toLower text e.normalize).normToOrig hits)) ∧
    ∀ hits, e.hits (normalizeText lib.toLower text e.normalize) = some hits →
      (∀ hit ∈ hits, e.InRange hit) ∧ evaluate lib (some e) text = some
        (e.evaluateHits lib text (normalizeTextWithMap lib.toLower text e.normalize).normToOrig hits) := by
  refine ⟨fun hits _ => e.evaluateHits_precedence lib text _ hits, fun hits hhits => ⟨hits_inRange hcompile hhits, ?_⟩⟩
  rw [normalizeText] at hhits
  rw [evaluate, hhits]
  rfl

def Library.plain : Library where
  toLower         := lower
  compileRegexp _ := .error (lit "error parsing regexp")
  order _ l       := l
  sortByStart l   := l.insertionSort (·.start ≤ ·.start)
  order_perm _ _  := .refl _
  sort_perm l     := List.perm_insertionSort _ l
  sort_sorted l   :=
    have : Std.Total fun a b : MaskInterval => a.start ≤ b.start := ⟨fun a b => Nat.le_total a.start b.start⟩
    have : IsTrans MaskInterval fun a b => a.start ≤ b.start := ⟨fun _ _ _ => Nat.le_trans⟩
    List.pairwise_insertionSort _ l

def compiled (lib : Library) (cfg : FilterConfig) : Option Engine :=
  (compile lib cfg).bind fun result => result.toOption.join

theorem compile_of_compiled {lib : Library} {cfg : FilterConfig} {e : Engine} (h : compiled lib cfg = some e) :
    compile lib cfg = some (.ok (some e)) := by
  obtain ⟨result, hresult, hok⟩ := Option.bind_eq_some_iff.mp h
  cases result
  case error => cases hok
  case ok engine => rw [hresult, show engine = some e from hok]

def promoConfig : FilterConfig where
  enabled := true
  rules   := [
    { name := lit "greet", keywords := [lit "hello"], action := lit "tag", tag := lit "greeting", priority := 9 },
    { name := lit "money", keywords := [lit "win", lit "cash"], action := lit "mask", priority := 5 },
    { name := lit "ads", keywords := [lit "promo"], action := lit " Block", priority := 1 },
    { name := lit "links", keywords := [lit "http"], action := lit "block", priority := 3 }]

def promoHits : List RuleHit :=
  [{ rule := 0, start := 0, stop := 5, text := lit "hello" }, { rule := 2, start := 6, stop := 11, text := lit "promo" },
    { rule := 1, start := 12, stop := 15, text := lit "win" }, { rule := 3, start := 16, stop := 20, text := lit "http" }]

theorem evaluate_precedence_promo :
    let text := lit "hello promo win http"
    ∃ e d, compile .plain promoConfig = some (.ok (some e)) ∧ evaluate .plain (some e) text = some d ∧
      d.action = .block ∧ d.reason = lit "links" ∧ d.tags = [lit "greeting"] ∧ e.Precedence promoHits d := by
  intro text
  have hrun : ((compiled .plain promoConfig).bind fun e => e.hits (normalizeText lower text e.normalize)) =
      some promoHits := by decide +kernel
  have hout : ((compiled .plain promoConfig).bind fun e => evaluate .plain (some e) text).map
      (fun d => (d.action, d.reason, d.tags)) = some (.block, lit "links", [lit "greeting"]) := by decide +kernel
  obtain ⟨e, he, hhits⟩ := Option.bind_eq_some_iff.mp hrun
  rw [he, Option.bind_some] at hout
  obtain ⟨d, hd, hfields⟩ := Option.map_eq_some_iff.mp hout
  simp only [Prod.mk.injEq] at hfields
  have hcompile := compile_of_compiled he
  have h := evaluate_precedence .plain hcompile text
  obtain ⟨hrange, heval⟩ := h.2 _ hhits
  cases hd.symm.trans heval
  exact ⟨e, _, hcompile, hd, hfields.1, hfields.2.1, hfields.2.2, h.1 _ hrange⟩

end Filter

end SmppGateway
