import SmppGateway.Cdr.Writer
import SmppGateway.Go.Map
import SmppGateway.Lib.Machine

-- Detail records across configuration reloads: `emitCDR` and `Close` of `internal/dispatch/dispatcher.go`, the end of
-- `UpdateConfig` in `internal/httpgw/rules.go` and the loops of the writers, one step of the machine for each step
-- that the others can see.

namespace SmppGateway

open Go Machine

namespace Cdr

-- A call of `emitCDR` that has not returned, with the writer it has loaded.
inductive Call
  | loaded (call : Nat) (e : Event) (writer : Nat)
  | sending (r : Record) (writer : Nat)  -- it holds the read lock of the writer

inductive UpdatePlace
  | created
  | published
  | read (old : Nat)
  | swapped (old : Nat)
  | finished

structure Update where
  writer : Nat
  place  : UpdatePlace := .created

structure System where
  writers : List Writer
  sink    : Nat := 0                    -- `cdrSink` of the dispatcher
  gateway : Nat := 0                    -- `cdrWriter` of the gateway
  calls   : List Call := []
  updates : List Update := []
  files   : Map (Str × Str) { rs : List Record // rs ≠ [] } := ∅  -- the finalized ones, by cleaned directory and name
  passed  : List Event := []            -- what `emitCDR` was called with
  lost    : List (Event × Nat) := []    -- events of calls that are in no file and in no writer any more

inductive SystemEvent
  | load (e : Event)                                -- `emitCDR` loads the sink
  | enter (i : Nat) (own ts : Str)                  -- `Emit` takes the read lock
  | send (i : Nat)                                  -- it sends on the channel
  | create (cfg : CDRConfig) (host : Str)           -- `UpdateConfig` makes a writer
  | publish (j : Nat)
  | readOld (j : Nat)
  | swap (j : Nat)
  | closeOld (j : Nat)
  | shutdown                                        -- the dispatcher is closed
  | loop (k : Nat) (e : LoopEvent)

def Record.source (r : Record) : Event × Nat :=
  (r.passed, r.call)

namespace Call

def source : Call → Event × Nat
  | loaded call e _ => (e, call)
  | sending r _     => r.source

def writer : Call → Nat
  | loaded _ _ k => k
  | sending _ k  => k

def isSending : Call → Bool
  | loaded ..  => false
  | sending .. => true

end Call

namespace System

variable (s : System)

def isClosed (k : Nat) : Bool :=
  s.writers[k]?.any (·.closed)

def blocked (k : Nat) : Bool :=
  s.calls.any fun c => c.isSending && c.writer = k

def closeWriter (k : Nat) : System :=
  { s with writers := s.writers.modify k fun w => { w with closed := true } }

def writing : List (Str × Str) :=
  s.writers.filterMap fun w => w.current.map fun f => (f.dir, f.base)

-- `close(true)` of a file: one without records is removed, any other takes the place of what has its final name.
def finalize (f : CdrFile) : System :=
  if h : f.records = [] then
    s
  else
    { s with
      files := s.files.insert f.final ⟨f.records, h⟩
      lost  := s.lost ++ ((s.files.lookup f.final).elim [] (·.1.map Record.source)) }

def finalizeAll : Option CdrFile → System
  | none   => s
  | some f => s.finalize f

def step : SystemEvent → System
  | .load e =>
    { s with
      passed := s.passed ++ [e]
      calls  := s.calls ++ [.loaded s.passed.length e s.sink] }
  | .enter i own ts =>
    match s.calls[i]? with
    | some (.loaded call e k) =>
      match s.writers[k]? with
      | some w =>
        if w.closed then
          { s with calls := s.calls.eraseIdx i, lost := s.lost ++ [(e, call)] }
        else
          { s with
            writers := s.writers.set k { w with seq := w.seq + 1 }
            calls   := s.calls.set i <| .sending
              ⟨call, e, e.emitted w.cfg (w.seq + 1) own ts, _, _, _, _, rfl⟩ k }
      | none   => s
    | _ => s
  | .send i =>
    match s.calls[i]? with
    | some (.sending r k) =>
      match s.writers[k]? with
      | some w =>
        if w.queue.length < w.cfg.buffer then
          { s with
            writers := s.writers.set k { w with queue := w.queue ++ [r] }
            calls   := s.calls.eraseIdx i }
        else s
      | none   => s
    | _ => s
  | .create cfg host =>
    { s with
      writers := s.writers ++ [newWriter cfg host]
      updates := s.updates ++ [{ writer := s.writers.length }] }
  | .publish j =>
    match s.updates[j]? with
    | some ⟨k, .created⟩ => { s with sink := k, updates := s.updates.set j ⟨k, .published⟩ }
    | _                  => s
  | .readOld j =>
    match s.updates[j]? with
    | some ⟨k, .published⟩ => { s with updates := s.updates.set j ⟨k, .read s.gateway⟩ }
    | _                    => s
  | .swap j =>
    match s.updates[j]? with
    | some ⟨k, .read old⟩ => { s with gateway := k, updates := s.updates.set j ⟨k, .swapped old⟩ }
    | _                   => s
  | .closeOld j =>
    match s.updates[j]? with
    | some ⟨k, .swapped old⟩ =>
      if old = k then
        { s with updates := s.updates.set j ⟨k, .finished⟩ }
      else if s.blocked old then
        s
      else
        { s.closeWriter old with updates := s.updates.set j ⟨k, .finished⟩ }
    | _ => s
  | .shutdown =>
    if s.blocked s.sink then s else s.closeWriter s.sink
  | .loop k e =>
    match s.writers[k]? with
    | some w =>
      match w.loop s.writing e with
      | some (w', f) => { s with writers := s.writers.set k w' }.finalizeAll f
      | none         => s
    | none   => s

def closes : SystemEvent → Option Nat
  | .closeOld j =>
    match s.updates[j]? with
    | some ⟨k, .swapped old⟩ => if old ≠ k ∧ ¬s.blocked old then some old else none
    | _                      => none
  | .shutdown   => if ¬s.blocked s.sink then some s.sink else none
  | _           => none

def finalizes : SystemEvent → Option CdrFile
  | .loop k e => (s.writers[k]? >>= (·.loop s.writing e)) >>= Prod.snd
  | _         => none

-- The steps that lose no event: a call loads a writer that is open, a writer is closed when no call has it, and a
-- file gets a name of its own.
structure Keeps (e : SystemEvent) : Prop where
  load  : ∀ event, e = .load event → s.isClosed s.sink = false
  close : ∀ k, s.closes e = some k → ∀ c ∈ s.calls, c.writer ≠ k
  file  : ∀ f, s.finalizes e = some f → f.records ≠ [] → f.final ∉ s.files

def Finished : Prop :=
  s.calls = [] ∧ ∀ w ∈ s.writers, w.closed = true ∧ w.done = true

def finalized : List Record :=
  s.files.entries.flatMap (·.2.1)

-- Every event that was passed to `emitCDR` is in exactly one line of the finalized files.
def ExactlyOnce : Prop :=
  (s.finalized.map Record.source).Perm s.passed.zipIdx

def init (cfg : CDRConfig) (host : Str) : System where
  writers := [newWriter cfg host]

variable {s : System}

inductive Moves (s : System) : SystemEvent → System → Prop
  | idle {e} (close : s.closes e = none) (file : s.finalizes e = none) : Moves s e s
  | load (event) :
    Moves s (.load event)
      { s with passed := s.passed ++ [event], calls := s.calls ++ [.loaded s.passed.length event s.sink] }
  | swallow {i own ts call event k} (call_eq : s.calls[i]? = some (.loaded call event k)) (closed : s.isClosed k) :
    Moves s (.enter i own ts) { s with calls := s.calls.eraseIdx i, lost := s.lost ++ [(event, call)] }
  | enter {i own ts call event k w} {r : Record} (call_eq : s.calls[i]? = some (.loaded call event k))
      (writer : s.writers[k]? = some w) (opened : w.closed = false) (source : r.source = (event, call)) :
    Moves s (.enter i own ts)
      { s with writers := s.writers.set k { w with seq := w.seq + 1 }, calls := s.calls.set i (.sending r k) }
  | send {i r k w} (call_eq : s.calls[i]? = some (.sending r k)) (writer : s.writers[k]? = some w) :
    Moves s (.send i)
      { s with writers := s.writers.set k { w with queue := w.queue ++ [r] }, calls := s.calls.eraseIdx i }
  | create (cfg host) :
    Moves s (.create cfg host)
      { s with
        writers := s.writers ++ [newWriter cfg host]
        updates := s.updates ++ [{ writer := s.writers.length }] }
  | update {e j u} {u' : Update} {sink gateway : Nat} (close : s.closes e = none) (file : s.finalizes e = none)
      (update : s.updates[j]? = some u) (same : u'.writer = u.writer)
      (sink_eq : sink = s.sink ∨ sink = u.writer) :
    Moves s e { s with sink := sink, gateway := gateway, updates := s.updates.set j u' }
  | close {e k updates} (close : s.closes e = some k) (file : s.finalizes e = none)
      (updates_mem : ∀ u ∈ updates, ∃ u' ∈ s.updates, u.writer = u'.writer) :
    Moves s e { s.closeWriter k with updates := updates }
  | loop {k e w w' f} (writer : s.writers[k]? = some w) (turn : w.loop s.writing e = some (w', f)) :
    Moves s (.loop k e) ({ s with writers := s.writers.set k w' }.finalizeAll f)

variable {s' : System} {e : SystemEvent} {k : Nat}

theorem isClosed_of_writer {w : Writer} (h : s.writers[k]? = some w) : s.isClosed k = w.closed := by
  simp [isClosed, h]

theorem step_moves (e : SystemEvent) : s.Moves e (s.step e) := by
  cases e
  case load event => exact .load event
  case create cfg host => exact .create cfg host
  case enter i own ts =>
    simp only [step]
    split
    case h_1 call event k hc =>
      split
      case h_1 w hw =>
        split
        case isTrue h => exact .swallow hc ((isClosed_of_writer hw).trans h)
        case isFalse h => exact .enter hc hw (Bool.eq_false_iff.mpr h) rfl
      case h_2 => exact .idle rfl rfl
    case h_2 => exact .idle rfl rfl
  case send i =>
    simp only [step]
    split
    case h_1 r k hc =>
      split
      case h_1 w hw =>
        split
        case isTrue h => exact .send hc hw
        case isFalse h => exact .idle rfl rfl
      case h_2 => exact .idle rfl rfl
    case h_2 => exact .idle rfl rfl
  case publish j =>
    simp only [step]
    split
    case h_1 k hu => exact .update rfl rfl hu rfl (.inr rfl)
    case h_2 => exact .idle rfl rfl
  case readOld j =>
    simp only [step]
    split
    case h_1 k hu => exact .update rfl rfl hu rfl (.inl rfl)
    case h_2 => exact .idle rfl rfl
  case swap j =>
    simp only [step]
    split
    case h_1 k old hu => exact .update rfl rfl hu rfl (.inl rfl)
    case h_2 => exact .idle rfl rfl
  case closeOld j =>
    simp only [step]
    split
    case h_1 k old hu =>
      split
      case isTrue h => exact .update (by simp [closes, hu, h]) rfl hu rfl (.inl rfl)
      case isFalse h =>
        split
        case isTrue hb => exact .idle (by simp [closes, hu, hb]) rfl
        case isFalse hb =>
          refine .close (by simp [closes, hu, h, hb]) rfl fun u hmem => ?_
          rcases mem_set_cases hmem with rfl | ⟨_, _, hu'⟩
          case inl => exact ⟨_, List.mem_of_getElem? hu, rfl⟩
          case inr => exact ⟨u, List.mem_of_getElem? hu', rfl⟩
    case h_2 hne =>
      refine .idle ?_ rfl
      simp only [closes]
  case shutdown =>
    simp only [step]
    split
    case isTrue hb => exact .idle (by simp [closes, hb]) rfl
    case isFalse hb =>
      exact .close (by simp [closes, hb]) rfl fun u hu => ⟨u, hu, rfl⟩
  case loop k e =>
    simp only [step]
    split
    case h_1 w hw =>
      split
      case h_1 w' f ht => exact .loop hw ht
      case h_2 ht => exact .idle rfl (by simp [finalizes, hw, ht])
    case h_2 hw => exact .idle rfl (by simp [finalizes, hw])

theorem finalizeAll_frame (f : Option CdrFile) :
    s.finalizeAll f = { s with files := (s.finalizeAll f).files, lost := (s.finalizeAll f).lost } := by
  cases f
  case none => rfl
  case some f =>
    simp only [finalizeAll, finalize]
    split <;> rfl

@[simp]
theorem finalizeAll_writers (f : Option CdrFile) : (s.finalizeAll f).writers = s.writers := by
  rw [finalizeAll_frame]

@[simp]
theorem finalizeAll_sink (f : Option CdrFile) : (s.finalizeAll f).sink = s.sink := by
  rw [finalizeAll_frame]

@[simp]
theorem finalizeAll_calls (f : Option CdrFile) : (s.finalizeAll f).calls = s.calls := by
  rw [finalizeAll_frame]

@[simp]
theorem finalizeAll_updates (f : Option CdrFile) : (s.finalizeAll f).updates = s.updates := by
  rw [finalizeAll_frame]

@[simp]
theorem finalizeAll_passed (f : Option CdrFile) : (s.finalizeAll f).passed = s.passed := by
  rw [finalizeAll_frame]

-- The events of all calls: in the files, in the writers, lost, or still on their way.
def everything (s : System) : List (Event × Nat) :=
  s.files.entries.flatMap (·.2.1.map Record.source) ++ s.writers.flatMap (·.records.map Record.source) ++
    s.lost ++ s.calls.map Call.source

theorem everything_finalize (f : CdrFile) :
    (s.finalize f).everything.Perm (f.records.map Record.source ++ s.everything) := by
  rw [finalize]
  split
  case isTrue h => simp [h]
  case isFalse h =>
    have hins := (Map.entries_insert_perm (m := s.files) (k := f.final) (v := ⟨f.records, h⟩)).flatMap_right
      (·.2.1.map Record.source)
    rw [List.perm_iff_count]
    intro a
    have hcount := hins.count_eq a
    simp only [everything, List.flatMap_append, List.flatMap_cons, List.count_append] at hcount ⊢
    cases hl : s.files.lookup f.final
    case none =>
      simp only [hl, Option.elim_none, List.flatMap_nil, List.count_nil] at hcount ⊢
      omega
    case some old =>
      simp only [hl, Option.elim_some, List.flatMap_cons, List.flatMap_nil, List.append_nil] at hcount ⊢
      omega

theorem everything_finalizeAll (f : Option CdrFile) :
    (s.finalizeAll f).everything.Perm (f.elim [] (·.records.map Record.source) ++ s.everything) := by
  cases f
  case none => exact .refl _
  case some f => exact everything_finalize f

structure WF (s : System) : Prop where
  sink      : s.sink < s.writers.length
  updates   : ∀ u ∈ s.updates, u.writer < s.writers.length
  calls     : ∀ c ∈ s.calls, c.writer < s.writers.length
  sending   : ∀ c ∈ s.calls, c.isSending → s.isClosed c.writer = false
  done      : ∀ w ∈ s.writers, w.done → w.closed ∧ w.records = []
  conserved : s.everything.Perm s.passed.zipIdx

theorem Moves.conserved (h : s.Moves e s') (hs : s.everything.Perm s.passed.zipIdx) :
    s'.everything.Perm s'.passed.zipIdx := by
  cases h
  case idle => exact hs
  case update => exact hs
  case load event =>
    have hnew := hs.append_right [(event, s.passed.length)]
    simpa [everything, Call.source, List.zipIdx_append] using hnew
  case create cfg host => simpa [everything, newWriter, Writer.records] using hs
  case swallow i own ts call event k hc hclosed =>
    refine List.Perm.trans ?_ hs
    rw [List.perm_iff_count]
    intro a
    have hcount := ((perm_cons_eraseIdx hc).map Call.source).count_eq a
    simp only [everything, List.map_cons, List.count_append, List.count_cons, Call.source, List.count_nil] at hcount ⊢
    omega
  case enter i own ts call event k w r hc hw hopen hr =>
    refine List.Perm.trans ?_ hs
    rw [List.perm_iff_count]
    intro a
    have hcalls : (s.calls.set i (.sending r k)).map Call.source = s.calls.map Call.source := map_set_eq hc hr
    have hcount := (flatMap_set_perm (·.records.map Record.source) hw { w with seq := w.seq + 1 }).count_eq a
    simp only [everything, hcalls, List.count_append, Writer.records] at hcount ⊢
    omega
  case send i r k w hc hw =>
    refine List.Perm.trans ?_ hs
    rw [List.perm_iff_count]
    intro a
    have hcalls := ((perm_cons_eraseIdx hc).map Call.source).count_eq a
    have hcount := (flatMap_set_perm (·.records.map Record.source) hw { w with queue := w.queue ++ [r] }).count_eq a
    simp only [everything, List.map_append, List.map_cons, List.map_nil, List.count_append, List.count_cons,
      List.count_nil, Writer.records, Call.source] at hcalls hcount ⊢
    omega
  case close k updates _ _ _ =>
    have hw : (s.closeWriter k).writers.flatMap (·.records.map Record.source) =
        s.writers.flatMap (·.records.map Record.source) := by
      rw [List.flatMap_def, List.flatMap_def]
      congr 1
      ext1 j
      simp only [closeWriter, List.getElem?_map, List.getElem?_modify]
      cases s.writers[j]?
      case none => rfl
      case some w => by_cases hk : k = j <;> simp [hk, Writer.records]
    simp only [everything, hw]
    exact hs
  case loop k e w w' f hw hturn =>
    rw [finalizeAll_passed]
    refine (everything_finalizeAll f).trans (List.Perm.trans ?_ hs)
    rw [List.perm_iff_count]
    intro a
    have hcount := (flatMap_set_perm (·.records.map Record.source) hw w').count_eq a
    have hrecords := ((Writer.loop_spec hturn).2.map Record.source).count_eq a
    have hfile : f.elim [] (·.records.map Record.source) = (f.elim [] (·.records)).map Record.source := by
      cases f <;> rfl
    simp only [everything, hfile, List.map_append, List.count_append] at hcount hrecords ⊢
    omega

theorem isClosed_eq : s.isClosed k = (s.writers.map (·.closed))[k]?.getD false := by
  rw [isClosed, List.getElem?_map]
  cases s.writers[k]? <;> rfl

theorem isClosed_congr (h : s'.writers.map (·.closed) = s.writers.map (·.closed)) (k : Nat) :
    s'.isClosed k = s.isClosed k := by
  rw [isClosed_eq, isClosed_eq, h]

theorem Moves.isClosed_iff (h : s.Moves e s') {j : Nat} (hj : j < s.writers.length) :
    s'.isClosed j = true ↔ s.isClosed j = true ∨ s.closes e = some j := by
  have hsame (hcl : s.closes e = none) (heq : s'.isClosed j = s.isClosed j) :
      s'.isClosed j = true ↔ s.isClosed j = true ∨ s.closes e = some j := by
    simp [hcl, heq]
  cases h
  case idle hcl _ => exact hsame hcl rfl
  case update hcl _ => exact hsame hcl rfl
  case load event => exact hsame rfl rfl
  case swallow => exact hsame rfl rfl
  case enter hw _ _ =>
    refine hsame rfl (isClosed_congr ?_ j)
    exact map_set_eq hw rfl
  case send hw =>
    refine hsame rfl (isClosed_congr ?_ j)
    exact map_set_eq hw rfl
  case create cfg host =>
    refine hsame rfl ?_
    simp only [isClosed, List.getElem?_append_left hj]
  case close k updates _ hcl _ =>
    simp only [isClosed, closeWriter, List.getElem?_modify, List.getElem?_eq_getElem hj, hcl]
    by_cases hk : k = j <;> simp [hk]
  case loop hw hturn =>
    refine hsame rfl (isClosed_congr ?_ j)
    rw [finalizeAll_writers]
    exact map_set_eq hw (Writer.loop_spec hturn).1

theorem closes_free (h : s.closes e = some k) : s.blocked k = false := by
  cases e
  case closeOld j =>
    simp only [closes] at h
    split at h
    case h_1 =>
      split at h
      case isTrue hcond =>
        cases h
        exact Bool.eq_false_iff.mpr hcond.2
      case isFalse => cases h
    case h_2 => cases h
  case shutdown =>
    simp only [closes] at h
    split at h
    case isTrue hcond =>
      cases h
      exact Bool.eq_false_iff.mpr hcond
    case isFalse => cases h
  all_goals cases h

theorem Moves.length_le (h : s.Moves e s') : s.writers.length ≤ s'.writers.length := by
  cases h <;> simp [closeWriter]

theorem Moves.call_cases (h : s.Moves e s') {c : Call} (hc : c ∈ s'.calls) :
    c ∈ s.calls ∨ (∃ event call, e = .load event ∧ c = .loaded call event s.sink) ∨
      s.closes e = none ∧ s.isClosed c.writer = false ∧ ∃ c' ∈ s.calls, c'.writer = c.writer := by
  cases h
  case idle => exact .inl hc
  case update => exact .inl hc
  case create => exact .inl hc
  case close => exact .inl hc
  case load event =>
    rcases List.mem_append.mp hc with hc | hc
    case inl => exact .inl hc
    case inr => exact .inr (.inl ⟨event, _, rfl, List.mem_singleton.mp hc⟩)
  case swallow => exact .inl (List.mem_of_mem_eraseIdx hc)
  case send => exact .inl (List.mem_of_mem_eraseIdx hc)
  case enter i own ts call event k w r hcall hw hopen _ =>
    rcases mem_set_cases hc with rfl | ⟨j, _, hj⟩
    case inl =>
      exact .inr (.inr ⟨rfl, (isClosed_of_writer hw).trans hopen, _, List.mem_of_getElem? hcall, rfl⟩)
    case inr => exact .inl (List.mem_of_getElem? hj)
  case loop => exact .inl (by simpa using hc)

theorem WF.moves (hs : s.WF) (h : s.Moves e s') : s'.WF where
  sink := by
    have hle := h.length_le
    have hsink := hs.sink
    cases h
    case update u u' sink gateway hu _ hsink' _ _ =>
      rcases hsink' with rfl | rfl
      case inl => exact hsink
      case inr => exact hs.updates u (List.mem_of_getElem? hu)
    case loop => simpa using hsink
    all_goals exact Nat.lt_of_lt_of_le hsink hle
  updates := by
    have hle := h.length_le
    intro u hu
    suffices hmem : (∃ u' ∈ s.updates, u.writer = u'.writer) ∨ u.writer < s'.writers.length by
      rcases hmem with ⟨u', hu', heq⟩ | hlt
      case inl => exact heq ▸ Nat.lt_of_lt_of_le (hs.updates u' hu') hle
      case inr => exact hlt
    cases h
    case create cfg host =>
      rcases List.mem_append.mp hu with hu | hu
      case inl => exact .inl ⟨u, hu, rfl⟩
      case inr =>
        rw [List.mem_singleton.mp hu]
        exact .inr (by simp)
    case update hu' hsame _ _ _ =>
      rcases mem_set_cases hu with rfl | ⟨_, _, hj⟩
      case inl => exact .inl ⟨_, List.mem_of_getElem? hu', hsame⟩
      case inr => exact .inl ⟨u, List.mem_of_getElem? hj, rfl⟩
    case close hmem _ _ => exact .inl (hmem u hu)
    case loop => exact .inl ⟨u, by simpa using hu, rfl⟩
    all_goals exact .inl ⟨u, hu, rfl⟩
  calls := by
    intro c hc
    refine Nat.lt_of_lt_of_le ?_ h.length_le
    rcases h.call_cases hc with hc | ⟨_, _, _, rfl⟩ | ⟨_, _, c', hc', hk⟩
    case inl => exact hs.calls c hc
    case inr.inl => exact hs.sink
    case inr.inr => exact hk ▸ hs.calls c' hc'
  sending := by
    intro c hc hsend
    apply Bool.eq_false_iff.mpr
    intro hclosed
    rcases h.call_cases hc with hc | ⟨_, _, _, rfl⟩ | ⟨hnone, hopen, c', hc', hk⟩
    case inl =>
      rcases (h.isClosed_iff (hs.calls c hc)).mp hclosed with hold | hk
      case inl => exact Bool.eq_false_iff.mp (hs.sending c hc hsend) hold
      case inr =>
        have hfree := List.any_eq_false.mp (closes_free hk) c hc
        simp [hsend] at hfree
    case inr.inl => cases hsend
    case inr.inr =>
      rcases (h.isClosed_iff (hk ▸ hs.calls c' hc')).mp hclosed with hold | hk
      case inl => exact Bool.eq_false_iff.mp hopen hold
      case inr => cases hnone.symm.trans hk
  done := by
    intro x hx hd
    cases h
    case create cfg host =>
      rcases List.mem_append.mp hx with hx | hx
      case inl => exact hs.done x hx hd
      case inr =>
        rw [List.mem_singleton.mp hx] at hd
        cases hd
    case enter k w r hcall hw hopen hsource =>
      rcases mem_set_cases hx with rfl | ⟨_, _, hj⟩
      case inl => exact hs.done w (List.mem_of_getElem? hw) hd
      case inr => exact hs.done x (List.mem_of_getElem? hj) hd
    case send r k w hcall hw =>
      rcases mem_set_cases hx with rfl | ⟨_, _, hj⟩
      case inl =>
        have hopen := hs.sending _ (List.mem_of_getElem? hcall) rfl
        have hclosed := (hs.done w (List.mem_of_getElem? hw) hd).1
        cases hopen.symm.trans ((isClosed_of_writer hw).trans hclosed)
      case inr => exact hs.done x (List.mem_of_getElem? hj) hd
    case close k updates _ _ _ =>
      obtain ⟨j, hj⟩ := List.mem_iff_getElem?.mp hx
      simp only [closeWriter, List.getElem?_modify, Option.map_eq_map, Option.map_eq_some_iff] at hj
      obtain ⟨w, hw, rfl⟩ := hj
      by_cases hk : k = j
      case pos =>
        rw [if_pos hk] at hd ⊢
        exact ⟨rfl, (hs.done w (List.mem_of_getElem? hw) hd).2⟩
      case neg =>
        rw [if_neg hk] at hd ⊢
        exact hs.done w (List.mem_of_getElem? hw) hd
    case loop k e w w' f hw hturn =>
      rw [finalizeAll_writers] at hx
      rcases mem_set_cases hx with rfl | ⟨_, _, hj⟩
      case inl => exact Writer.loop_done (hs.done w (List.mem_of_getElem? hw)) hturn hd
      case inr => exact hs.done x (List.mem_of_getElem? hj) hd
    all_goals exact hs.done x hx hd
  conserved := h.conserved hs.conserved

structure Safe (s : System) : Prop where
  lost  : s.lost = []
  calls : ∀ c ∈ s.calls, s.isClosed c.writer = false

theorem finalize_lost (f : CdrFile) :
    ∃ overwritten, (s.finalize f).lost = s.lost ++ overwritten ∧
      (overwritten = [] ↔ (f.records ≠ [] → f.final ∉ s.files)) := by
  rw [finalize]
  split
  case isTrue h => exact ⟨[], (List.append_nil _).symm, by simp [h]⟩
  case isFalse h =>
    refine ⟨_, rfl, ?_⟩
    rw [← AList.lookup_eq_none]
    cases s.files.lookup f.final
    case none => simp
    case some old => simp [old.2, h]

theorem finalizeAll_lost (f : Option CdrFile) :
    ∃ overwritten, (s.finalizeAll f).lost = s.lost ++ overwritten ∧
      (overwritten = [] ↔ ∀ g, f = some g → g.records ≠ [] → g.final ∉ s.files) := by
  cases f
  case none => exact ⟨[], (List.append_nil _).symm, by simp⟩
  case some f =>
    obtain ⟨overwritten, hlost, hiff⟩ := finalize_lost (s := s) f
    exact ⟨overwritten, hlost, hiff.trans (by simp)⟩

theorem Moves.lost_iff (h : s.Moves e s') (hs : s.Safe) :
    s'.lost = [] ↔ ∀ f, s.finalizes e = some f → f.records ≠ [] → f.final ∉ s.files := by
  have hsame (hf : s.finalizes e = none) (heq : s'.lost = s.lost) :
      s'.lost = [] ↔ ∀ f, s.finalizes e = some f → f.records ≠ [] → f.final ∉ s.files := by
    simp [hf, heq, hs.lost]
  cases h
  case idle hf => exact hsame hf rfl
  case update hf => exact hsame hf rfl
  case close hf => exact hsame hf rfl
  case swallow hc hclosed => cases (hs.calls _ (List.mem_of_getElem? hc)).symm.trans hclosed
  case loop k e w w' f hw hturn =>
    have hfin : s.finalizes (.loop k e) = f := by simp [finalizes, hw, hturn]
    obtain ⟨overwritten, hlost, hiff⟩ := finalizeAll_lost (s := { s with writers := s.writers.set k w' }) f
    rw [hlost, hs.lost, List.nil_append, hiff, hfin]
  all_goals exact hsame rfl rfl

theorem Moves.calls_of_closes (h : s.Moves e s') (hcl : s.closes e = some k) : s'.calls = s.calls := by
  cases h
  case idle | update | close => rfl
  all_goals cases hcl

theorem Keeps.iff_safe (hwf : s.WF) (hs : s.Safe) (e : SystemEvent) : s.Keeps e ↔ (s.step e).Safe := by
  have h : s.Moves e (s.step e) := step_moves e
  constructor
  case mp =>
    intro hk
    refine ⟨(h.lost_iff hs).mpr hk.file, fun c hc => Bool.eq_false_iff.mpr fun hclosed => ?_⟩
    rcases h.call_cases hc with hc | ⟨event, call, rfl, rfl⟩ | ⟨hnone, hopen, c', hc', hw⟩
    case inl =>
      rcases (h.isClosed_iff (hwf.calls c hc)).mp hclosed with hold | hcl
      case inl => exact Bool.eq_false_iff.mp (hs.calls c hc) hold
      case inr => exact hk.close _ hcl c hc rfl
    case inr.inl =>
      rcases (h.isClosed_iff hwf.sink).mp hclosed with hold | hcl
      case inl => exact Bool.eq_false_iff.mp (hk.load event rfl) hold
      case inr => cases hcl
    case inr.inr =>
      rcases (h.isClosed_iff (hw ▸ hwf.calls c' hc')).mp hclosed with hold | hcl
      case inl => exact Bool.eq_false_iff.mp hopen hold
      case inr => cases hnone.symm.trans hcl
  case mpr =>
    intro hs'
    refine ⟨?_, ?_, (h.lost_iff hs).mp hs'.lost⟩
    case refine_1 =>
      rintro event rfl
      exact hs'.calls (.loaded s.passed.length event s.sink) (List.mem_append_right _ List.mem_cons_self)
    case refine_2 =>
      intro k hcl c hc hk
      have hclosed := (h.isClosed_iff (hwf.calls c hc)).mpr (.inr (hk ▸ hcl))
      exact Bool.eq_false_iff.mp (hs'.calls c (h.calls_of_closes hcl ▸ hc)) hclosed

theorem Moves.lost_grows (h : s.Moves e s') : s.lost <+: s'.lost := by
  cases h
  case swallow => exact List.prefix_append _ _
  case loop k e w w' f hw hturn =>
    obtain ⟨overwritten, hlost, _⟩ := finalizeAll_lost (s := { s with writers := s.writers.set k w' }) f
    rw [hlost]
    exact List.prefix_append _ _
  all_goals exact List.prefix_rfl

theorem Moves.call_stays (h : s.Moves e s') {c : Call} (hc : c ∈ s.calls) :
    (∃ c' ∈ s'.calls, c'.writer = c.writer) ∨ c.isSending = true ∨ s'.lost ≠ [] := by
  cases h
  case load => exact .inl ⟨c, List.mem_append_left _ hc, rfl⟩
  case swallow => exact .inr (.inr (by simp))
  case send i r k w hcall hw =>
    rcases List.mem_cons.mp ((perm_cons_eraseIdx hcall).mem_iff.mp hc) with rfl | hrest
    case inl => exact .inr (.inl rfl)
    case inr => exact .inl ⟨c, hrest, rfl⟩
  case enter i own ts call event k w r hcall _ _ _ =>
    rcases List.mem_cons.mp ((perm_cons_eraseIdx hcall).mem_iff.mp hc) with rfl | hrest
    case inl => exact .inl ⟨_, mem_set_self hcall, rfl⟩
    case inr =>
      exact .inl ⟨c, (set_perm_cons_eraseIdx hcall _).mem_iff.mpr (List.mem_cons_of_mem _ hrest), rfl⟩
  case loop => exact .inl ⟨c, by simpa using hc, rfl⟩
  all_goals exact .inl ⟨c, hc, rfl⟩

theorem Safe.of_step (hwf : s.WF) (hs : (s.step e).Safe) : s.Safe := by
  have h : s.Moves e (s.step e) := step_moves e
  refine ⟨List.prefix_nil.mp (hs.lost ▸ h.lost_grows), fun c hc => Bool.eq_false_iff.mpr fun hclosed => ?_⟩
  have hclosed' := (h.isClosed_iff (hwf.calls c hc)).mpr (.inl hclosed)
  rcases h.call_stays hc with ⟨c', hc', hw⟩ | hsend | hlost
  case inl => exact Bool.eq_false_iff.mp (hs.calls c' hc') (hw ▸ hclosed')
  case inr.inl => exact Bool.eq_false_iff.mp (hwf.sending c hc hsend) hclosed
  case inr.inr => exact hlost hs.lost

theorem WF.init (cfg : CDRConfig) (host : Str) : (init cfg host).WF where
  sink      := Nat.one_pos
  updates   := fun _ hu => absurd hu List.not_mem_nil
  calls     := fun _ hc => absurd hc List.not_mem_nil
  sending   := fun _ hc => absurd hc List.not_mem_nil
  done      := by simp [System.init, newWriter]
  conserved := by simp [everything, System.init, newWriter, Writer.records]

theorem Safe.init (cfg : CDRConfig) (host : Str) : (init cfg host).Safe where
  lost  := rfl
  calls := fun _ hc => absurd hc List.not_mem_nil

theorem exactlyOnce_iff_safe (hwf : s.WF) (hf : s.Finished) : s.ExactlyOnce ↔ s.Safe := by
  obtain ⟨hcalls, hdone⟩ := hf
  have hwriters : s.writers.flatMap (·.records.map Record.source) = [] := by
    rw [List.flatMap_eq_nil_iff]
    intro w hw
    rw [(hwf.done w hw (hdone w hw).2).2, List.map_nil]
  have hall : (s.finalized.map Record.source ++ s.lost).Perm s.passed.zipIdx := by
    simpa [everything, finalized, hwriters, hcalls, List.map_flatMap] using hwf.conserved
  constructor
  case mp =>
    intro h
    have hlen := (hall.trans h.symm).length_eq
    refine ⟨List.eq_nil_iff_length_eq_zero.mpr ?_, by simp [hcalls]⟩
    simpa using hlen
  case mpr =>
    intro h
    rw [h.lost, List.append_nil] at hall
    exact hall

-- In a run that ends with all calls returned and all writers closed, the events are exactly once in the files if and
-- only if no step of the run loses one.
theorem exactly_once_iff (cfg : CDRConfig) (host : Str) (es : List SystemEvent)
    (h : (run step (init cfg host) es).Finished) :
    (run step (init cfg host) es).ExactlyOnce ↔ Along step Keeps (init cfg host) es := by
  have hwf : (run step (init cfg host) es).WF :=
    invariant (G := fun _ _ => True) (WF.init cfg host) (.of_forall fun _ _ _ => trivial)
      fun _ e hs _ => hs.moves (step_moves e)
  have hlast : Always step Safe (init cfg host) es ↔ (run step (init cfg host) es).Safe :=
    Always.iff_last (WF.init cfg host) (fun _ e hs => hs.moves (step_moves e)) fun _ _ hs => Safe.of_step hs
  have halong : Always step Safe (init cfg host) es ↔ Along step Keeps (init cfg host) es := by
    apply Always.iff_along (I := WF) (A := fun _ => True)
    case hi => exact WF.init cfg host
    case hp => exact Safe.init cfg host
    case ha => exact fun _ _ => trivial
    case hinv => exact fun _ e hs _ => hs.moves (step_moves e)
    case hstep => exact fun _ e hwf _ hs => Keeps.iff_safe hwf hs e
  rw [exactlyOnce_iff_safe hwf h, ← hlast, halong]

def sampleConfig : CDRConfig where
  dir := lit "cdr"

theorem exactly_once_iff_sample :
    let es : List SystemEvent :=
      [.load { dest := lit "15550001" }, .enter 0 (lit "gw") (lit "t"), .send 0, .create sampleConfig (lit "host"),
        .publish 0, .readOld 0, .swap 0, .closeOld 0, .loop 0 (.write 0), .loop 0 .drained, .shutdown,
        .loop 1 .drained]
    (run step (init sampleConfig (lit "host")) es).Finished ∧
      ((run step (init sampleConfig (lit "host")) es).ExactlyOnce ↔
        Along step Keeps (init sampleConfig (lit "host")) es) := by
  intro es
  have h : (run step (init sampleConfig (lit "host")) es).Finished := ⟨rfl, by decide +kernel⟩
  exact ⟨h, exactly_once_iff sampleConfig (lit "host") es h⟩

-- `emitCDR` loads the sink, the whole reload goes by, and the old writer swallows the event.
theorem event_lost_in_reload :
    let s := run step (init sampleConfig (lit "host"))
      [.load { dest := lit "15550001" }, .create sampleConfig (lit "host"), .publish 0, .readOld 0, .swap 0,
        .closeOld 0, .enter 0 (lit "gw") (lit "t"), .loop 0 .drained, .shutdown, .loop 1 .drained]
    s.Finished ∧ s.passed.length = 1 ∧ s.finalized = [] ∧ ¬s.ExactlyOnce := by
  intro s
  have hfiles : s.finalized = [] := rfl
  have hpassed : s.passed.length = 1 := rfl
  refine ⟨⟨rfl, by decide +kernel⟩, hpassed, hfiles, fun h => ?_⟩
  have hlen := h.length_eq
  rw [hfiles, List.length_zipIdx, hpassed] at hlen
  cases hlen

end System

end Cdr

end SmppGateway
