import Mathlib.Data.Finset.Card
import SmppGateway.Dispatch.Process

-- How the receipts of the segments of one message become one state: `aggregateDLR` of
-- `internal/dispatch/dispatcher.go`.

namespace SmppGateway

open Go

def finalDLRStates : List Str :=
  [lit "DELIVRD", lit "EXPIRED", lit "DELETED", lit "UNDELIV", lit "REJECTD", lit "UNKNOWN"]

def isFinalDLRState (state : Str) : Bool :=
  upperTrim state ∈ finalDLRStates

def dlrFailureRank (state : Str) : Nat :=
  if state = lit "REJECTD" then 6
  else if state = lit "UNDELIV" then 5
  else if state = lit "EXPIRED" then 4
  else if state = lit "DELETED" then 3
  else if state = lit "UNKNOWN" then 2
  else 0

structure DlrAggregate where
  state        : Str := lit "PENDING"
  errorCode    : Int := 0
  final        : Bool := false
  allDelivered : Bool := false
  deriving DecidableEq, Repr

structure AggregateLoop where
  expected    : Int := 1
  seen        : Finset Int := ∅
  failureRank : Nat := 0
  result      : DlrAggregate := { final := true, allDelivered := true }

def AggregateLoop.next (l : AggregateLoop) (segment : Pending) : AggregateLoop :=
  let state := upperTrim segment.dlrState
  let rank := dlrFailureRank state
  { expected    := if segment.segmentCount > l.expected then segment.segmentCount else l.expected
    seen        := if segment.segmentIndex > 0 then insert segment.segmentIndex l.seen else l.seen
    failureRank := if rank > l.failureRank then rank else l.failureRank
    result      :=
      { state        := if rank > l.failureRank then state else l.result.state
        errorCode    := if rank > l.failureRank then segment.dlrErrorCode else l.result.errorCode
        final        := l.result.final && isFinalDLRState state
        allDelivered := l.result.allDelivered && segment.dlrDelivered } }

def AggregateLoop.finish (l : AggregateLoop) : DlrAggregate :=
  let complete := l.expected ≤ l.seen.card
  let final := l.result.final && complete
  let allDelivered := l.result.allDelivered && complete
  if !final then
    { allDelivered }
  else if l.failureRank = 0 then
    { state := lit "DELIVRD", final, allDelivered }
  else
    { l.result with final, allDelivered }

def aggregateDLR (segments : List Pending) : DlrAggregate :=
  if segments = [] then {} else (segments.foldl AggregateLoop.next {}).finish

def Pending.verdict (p : Pending) : Str × Int :=
  (upperTrim p.dlrState, p.dlrErrorCode)

def Dlr.verdict (dlr : Dlr) : Str × Int :=
  (upperTrim dlr.state, dlr.errorCode)

structure FirstWorst (verdicts : List (Str × Int)) (i : Nat) (v : Str × Int) : Prop where
  at_i  : verdicts[i]? = some v
  worst : ∀ {j : Nat} {u : Str × Int}, verdicts[j]? = some u → dlrFailureRank u.1 ≤ dlrFailureRank v.1
  first : ∀ {j : Nat} {u : Str × Int}, verdicts[j]? = some u →
    dlrFailureRank u.1 = dlrFailureRank v.1 → i ≤ j

-- The state of a message whose segments have these verdicts: the worst one decides, and among several
-- the first. A message all of whose segments were delivered has error code 0.
def Decided (verdicts : List (Str × Int)) (state : Str) (errorCode : Int) : Prop :=
  ((∀ v ∈ verdicts, v.1 = lit "DELIVRD") ∧ state = lit "DELIVRD" ∧ errorCode = 0) ∨
  ∃ i v, FirstWorst verdicts i v ∧ v.1 ≠ lit "DELIVRD" ∧ state = v.1 ∧ errorCode = v.2

theorem isFinalDLRState_upperTrim {state : Str} :
    isFinalDLRState (upperTrim state) = isFinalDLRState state := by
  simp [isFinalDLRState]

theorem dlrFailureRank_eq_zero {state : Str} (h : isFinalDLRState state) :
    dlrFailureRank (upperTrim state) = 0 ↔ upperTrim state = lit "DELIVRD" := by
  simp only [isFinalDLRState, decide_eq_true_eq, finalDLRStates, List.mem_cons, List.not_mem_nil,
    or_false] at h
  rcases h with h | h | h | h | h | h <;> rw [h] <;> decide

theorem AggregateLoop.foldl_allDelivered {segments : List Pending} {l : AggregateLoop} :
    (segments.foldl next l).result.allDelivered ↔ l.result.allDelivered ∧ ∀ p ∈ segments, p.dlrDelivered := by
  induction segments generalizing l
  case nil => simp
  case cons p segments hi => simp [hi, next, and_assoc]

theorem allDelivered_of_aggregateDLR {segments : List Pending} (h : (aggregateDLR segments).allDelivered) :
    ∀ p ∈ segments, p.dlrDelivered := by
  unfold aggregateDLR at h
  split at h
  case isTrue hnil => simp [hnil]
  case isFalse =>
    have hloop : (segments.foldl AggregateLoop.next {}).result.allDelivered := by
      unfold AggregateLoop.finish at h
      grind
    exact (AggregateLoop.foldl_allDelivered.mp hloop).2

namespace FirstWorst

variable {vs : List (Str × Int)} {u v : Str × Int} {i : Nat}

theorem getElem?_concat {j : Nat} {x : Str × Int} (h : (vs ++ [u])[j]? = some x) :
    vs[j]? = some x ∨ j = vs.length ∧ x = u := by
  rcases Nat.lt_trichotomy j vs.length with hj | rfl | hj
  case inl => exact .inl (by rwa [List.getElem?_append_left hj] at h)
  case inr.inl => simp at h; exact .inr ⟨rfl, h.symm⟩
  case inr.inr => simp [List.getElem?_append_right (Nat.le_of_lt hj), Nat.sub_ne_zero_of_lt hj] at h

theorem concat_keep (h : FirstWorst vs i v) (hu : dlrFailureRank u.1 ≤ dlrFailureRank v.1) :
    FirstWorst (vs ++ [u]) i v where
  at_i := by rw [List.getElem?_append_left (List.getElem?_eq_some_iff.mp h.at_i).1]; exact h.at_i
  worst hj := by
    rcases getElem?_concat hj with hj | ⟨rfl, rfl⟩
    case inl => exact h.worst hj
    case inr => exact hu
  first hj hr := by
    rcases getElem?_concat hj with hj | ⟨rfl, rfl⟩
    case inl => exact h.first hj hr
    case inr => exact Nat.le_of_lt (List.getElem?_eq_some_iff.mp h.at_i).1

theorem concat_new (h : ∀ x ∈ vs, dlrFailureRank x.1 < dlrFailureRank u.1) :
    FirstWorst (vs ++ [u]) vs.length u where
  at_i := by simp
  worst hj := by
    rcases getElem?_concat hj with hj | ⟨rfl, rfl⟩
    case inl => exact Nat.le_of_lt (h _ (List.mem_of_getElem? hj))
    case inr => exact Nat.le_refl _
  first hj hr := by
    rcases getElem?_concat hj with hj | ⟨rfl, rfl⟩
    case inl => exact absurd hr (Nat.ne_of_lt (h _ (List.mem_of_getElem? hj)))
    case inr => exact Nat.le_refl _

theorem rank_le (h : FirstWorst vs i v) {x : Str × Int} (hx : x ∈ vs) :
    dlrFailureRank x.1 ≤ dlrFailureRank v.1 := by
  obtain ⟨j, hj⟩ := List.mem_iff_getElem?.mp hx
  exact h.worst hj

end FirstWorst

namespace AggregateLoop

-- The loop after the segments `done`, each of which stands at the place its index says.
structure After (n : Nat) (done : List Pending) (l : AggregateLoop) : Prop where
  expected  : l.expected = if done = [] then 1 else (n : Int)
  seen      : l.seen = (Finset.range done.length).image fun i : Nat => (i : Int) + 1
  final     : l.result.final ↔ ∀ p ∈ done, isFinalDLRState p.dlrState
  delivered : l.result.allDelivered ↔ ∀ p ∈ done, p.dlrDelivered
  verdict   : ((∀ v ∈ done.map Pending.verdict, dlrFailureRank v.1 = 0) ∧ l.failureRank = 0) ∨
    ∃ i v, FirstWorst (done.map Pending.verdict) i v ∧ l.failureRank = dlrFailureRank v.1 ∧
      l.failureRank ≠ 0 ∧ l.result.state = v.1 ∧ l.result.errorCode = v.2

variable {n : Nat} {done : List Pending} {l : AggregateLoop} {p : Pending}

theorem After.start : After n [] {} where
  expected  := rfl
  seen      := rfl
  final     := by simp
  delivered := by simp
  verdict   := .inl ⟨by simp, rfl⟩

theorem After.next (h : After n done l) (hn : 1 ≤ n) (hi : p.segmentIndex = done.length + 1)
    (hc : p.segmentCount = n) : After n (done ++ [p]) (l.next p) where
  expected := by
    have he := h.expected
    simp only [AggregateLoop.next, hc, List.append_eq_nil_iff, List.cons_ne_nil, and_false, if_false]
    split at he <;> split <;> omega
  seen := by
    have hpos : p.segmentIndex > 0 := by omega
    rw [AggregateLoop.next, if_pos hpos, h.seen, hi, List.length_append, List.length_singleton,
      Finset.range_add_one, Finset.image_insert]
  final := by simp [AggregateLoop.next, h.final, isFinalDLRState_upperTrim, or_imp, forall_and]
  delivered := by simp [AggregateLoop.next, h.delivered, or_imp, forall_and]
  verdict := by
    simp only [AggregateLoop.next, List.map_append, List.map_singleton]
    have hp : dlrFailureRank (upperTrim p.dlrState) = dlrFailureRank p.verdict.1 := rfl
    by_cases hr : dlrFailureRank (upperTrim p.dlrState) > l.failureRank
    case pos =>
      -- A segment that ranks above everything before it takes over.
      simp only [hr, if_true]
      have hbelow : ∀ v ∈ done.map Pending.verdict, dlrFailureRank v.1 < dlrFailureRank p.verdict.1 := by
        intro v hv
        rcases h.verdict with ⟨hz, hl⟩ | ⟨i, w, hw, hl, _⟩
        case inl => rw [hz v hv]; omega
        case inr => have := hw.rank_le hv; omega
      exact .inr ⟨_, p.verdict, .concat_new hbelow, hp, by omega, rfl, rfl⟩
    case neg =>
      simp only [hr, if_false]
      rcases h.verdict with ⟨hz, hl⟩ | ⟨i, w, hw, hl, hrest⟩
      case inl =>
        refine .inl ⟨fun v hv => ?_, hl⟩
        rcases List.mem_append.mp hv with hv | hv
        case inl => exact hz v hv
        case inr => rw [List.mem_singleton.mp hv]; omega
      case inr => exact .inr ⟨i, w, hw.concat_keep (by omega), hl, hrest⟩

theorem finish_complete (h : l.expected ≤ l.seen.card) :
    l.finish = if l.result.final then
        if l.failureRank = 0 then { l.result with state := lit "DELIVRD", errorCode := 0 } else l.result
      else
        { allDelivered := l.result.allDelivered } := by
  have hc : decide (l.expected ≤ l.seen.card) = true := decide_eq_true h
  simp only [finish, hc, Bool.and_true]
  cases hf : l.result.final <;> simp [← hf]

def InOrder (n : Nat) (segments : List Pending) : Prop :=
  ∀ {i : Nat} {p : Pending}, segments[i]? = some p → p.segmentIndex = i + 1 ∧ p.segmentCount = n

theorem After.foldl {segments : List Pending} (hn : 1 ≤ n) (ho : InOrder n segments) :
    After n segments (segments.foldl AggregateLoop.next {}) := by
  induction segments using List.reverseRecOn
  case nil => exact .start
  case append_singleton segments p ih =>
    rw [List.foldl_append]
    have ⟨hi, hc⟩ := ho (i := segments.length) (p := p) (by simp)
    refine (ih fun {i q} hq => ?_).next hn hi hc
    exact ho ((List.getElem?_append_left (List.getElem?_eq_some_iff.mp hq).1).trans hq)

end AggregateLoop

section Aggregate

variable {segments : List Pending} (hne : segments ≠ [])
  (ho : AggregateLoop.InOrder segments.length segments)
include hne ho

theorem aggregateDLR_after :
    AggregateLoop.After segments.length segments (segments.foldl AggregateLoop.next {}) :=
  .foldl (List.length_pos_iff.mpr hne) ho

theorem aggregateDLR_eq :
    let l := segments.foldl AggregateLoop.next {}
    aggregateDLR segments =
      if l.result.final then
        if l.failureRank = 0 then { l.result with state := lit "DELIVRD", errorCode := 0 } else l.result
      else
        { allDelivered := l.result.allDelivered } := by
  intro l
  have h : AggregateLoop.After segments.length segments l := aggregateDLR_after hne ho
  have hinj : Function.Injective fun i : Nat => (i : Int) + 1 := fun i j hij => by simp at hij; omega
  have hcard : l.seen.card = segments.length := by
    rw [h.seen, Finset.card_image_of_injective _ hinj, Finset.card_range]
  have hcomplete : l.expected ≤ l.seen.card := by rw [h.expected, if_neg hne, hcard]
  rw [aggregateDLR, if_neg hne]
  exact AggregateLoop.finish_complete hcomplete

theorem aggregateDLR_final :
    (aggregateDLR segments).final ↔ ∀ p ∈ segments, isFinalDLRState p.dlrState := by
  rw [aggregateDLR_eq hne ho, ← (aggregateDLR_after hne ho).final]
  split
  case isTrue h => split <;> simp [h]
  case isFalse h => simp [h]

theorem aggregateDLR_allDelivered :
    (aggregateDLR segments).allDelivered ↔ ∀ p ∈ segments, p.dlrDelivered := by
  rw [aggregateDLR_eq hne ho, ← (aggregateDLR_after hne ho).delivered]
  split
  case isTrue => split <;> rfl
  case isFalse => rfl

theorem aggregateDLR_decided (hf : ∀ p ∈ segments, isFinalDLRState p.dlrState) :
    Decided (segments.map Pending.verdict) (aggregateDLR segments).state
      (aggregateDLR segments).errorCode := by
  have h := aggregateDLR_after hne ho
  have hv : ∀ v ∈ segments.map Pending.verdict, (dlrFailureRank v.1 = 0 ↔ v.1 = lit "DELIVRD") := by
    intro v hv
    obtain ⟨p, hp, rfl⟩ := List.mem_map.mp hv
    exact dlrFailureRank_eq_zero (hf p hp)
  rw [aggregateDLR_eq hne ho, if_pos (h.final.mpr hf)]
  rcases h.verdict with ⟨hz, hl⟩ | ⟨i, v, hw, hl, hne, hs, he⟩
  case inl =>
    rw [if_pos hl]
    exact .inl ⟨fun v hm => (hv v hm).mp (hz v hm), rfl, rfl⟩
  case inr =>
    rw [if_neg hne]
    have hm := List.mem_of_getElem? hw.at_i
    exact .inr ⟨i, v, hw, fun hd => hne (hl.trans ((hv v hm).mpr hd)), hs, he⟩

end Aggregate

end SmppGateway
