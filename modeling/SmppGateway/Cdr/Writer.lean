import SmppGateway.Go.Date

-- The writer of call detail records: `internal/cdr/event.go` and `internal/cdr/writer.go`.

namespace SmppGateway

open Go

namespace Cdr

structure Event where
  seq        : UInt64 := 0
  ts         : Str := []
  dest       : Str := []
  text       : Str := []
  instanceID : Str := []
  deriving DecidableEq

structure CDRConfig where
  dir        : Str
  maxRecords : Int := 0
  buffer     : Int := 0
  instanceID : Str := []
  maskTo     : Bool := false
  storeText  : Bool := false

def maskMSISDN (value : Str) : Str :=
  if value.length ≤ 4 then
    List.replicate value.length '*'.toUInt8
  else
    List.replicate (value.length - 4) '*'.toUInt8 ++ value.drop (value.length - 4)

def Event.normalize (cfg : CDRConfig) (ts : Str) (e : Event) : Event where
  seq        := e.seq
  ts         := if e.ts = [] then ts else e.ts
  dest       := if cfg.maskTo then maskMSISDN e.dest else e.dest
  text       := if cfg.storeText then e.text else []
  instanceID := if cfg.instanceID ≠ [] ∧ e.instanceID = [] then cfg.instanceID else e.instanceID

-- What `Emit` puts into the channel for an event of `emitCDR`, which fills in the instance of the dispatcher first.
def Event.emitted (cfg : CDRConfig) (seq : UInt64) (own ts : Str) (e : Event) : Event :=
  { e with seq := seq, instanceID := if e.instanceID = [] then own else e.instanceID }.normalize cfg ts

structure Record where
  call    : Nat
  passed  : Event
  event   : Event
  written : ∃ cfg seq own ts, event = passed.emitted cfg seq own ts

-- A file that is still being written; its path is `dir/base.jsonl.writing`.
structure CdrFile where
  dir     : Str
  base    : Str
  records : List Record := []

-- `strconv.Itoa` and the verb `%d` for what is not negative
def decimal (n : Nat) : Str :=
  formatUintBase (.ofNat n) 10

def safeInstance (value : Str) : Str :=
  if value = [] then
    lit "default"
  else
    utf8 <| (runes value).map fun c => if c.isAlphanum ∨ c = '-' ∨ c = '_' then c else '_'

def unixNano (t : Time) : Nat :=
  (t - date 1970 1 1 0 0 0 : Int).toNat

-- One element of a path after those that are kept so far, the last one first (`filepath.Clean`).
def cleanElement (rooted : Bool) (kept : List Str) (element : Str) : List Str :=
  if element = [] ∨ element = lit "." then
    kept
  else if element = lit ".." then
    match kept with
    | []           => if rooted then [] else [element]
    | last :: rest => if last = lit ".." then element :: kept else rest
  else
    element :: kept

def cleanPath (path : Str) : Str :=
  let slash := '/'.toUInt8
  let rooted : Bool := path.head? = some slash
  let cleaned := [slash].intercalate ((path.splitOn slash).foldl (cleanElement rooted) []).reverse
  if rooted then
    slash :: cleaned
  else if cleaned = [] then
    lit "."
  else
    cleaned

example : [lit "cdr/", lit "./cdr", lit "log/../cdr", lit "/var//cdr/.", lit ""].map cleanPath =
    [lit "cdr", lit "cdr", lit "cdr", lit "/var/cdr", lit "."] := by
  decide +kernel

-- `taken` are the directories and bases of the files that are being written: the first name may be in use. The names
-- have no slash, so that `filepath.Join` puts them after the cleaned directory.
def openCDRFile (taken : List (Str × Str)) (dir instanceID : Str) (now : Time) : Option CdrFile :=
  let dir := cleanPath dir
  let base := lit "cdr-" ++ formatSecond now ++ lit "-" ++ decimal (unixNano now) ++ lit "-" ++ safeInstance instanceID
  let second := base ++ lit "-" ++ decimal (unixNano now)
  if (dir, base) ∉ taken then
    some { dir := dir, base := base }
  else if (dir, second) ∉ taken then
    some { dir := dir, base := second }
  else
    none

namespace CdrFile

def write (r : Record) (f : CdrFile) : CdrFile :=
  { f with records := f.records ++ [r] }

def final (f : CdrFile) : Str × Str :=
  (f.dir, f.base ++ lit "-" ++ decimal f.records.length ++ lit ".jsonl")

end CdrFile

structure Writer where
  cfg     : CDRConfig
  queue   : List Record := []          -- the channel `in`
  seq     : UInt64 := 0
  closed  : Bool := false
  current : Option CdrFile := none
  done    : Bool := false

def newWriter (cfg : CDRConfig) (host : Str) : Writer where
  cfg := { cfg with
    maxRecords := if cfg.maxRecords ≤ 0 then 10000 else cfg.maxRecords
    buffer     := if cfg.buffer ≤ 0 then 1 else cfg.buffer
    instanceID := if cfg.instanceID = [] then host else cfg.instanceID }

inductive LoopEvent
  | write (now : Time)  -- it takes an event from the channel
  | age                 -- the age timer fires
  | drained             -- the channel is closed and empty

namespace Writer

variable (w : Writer)

def records : List Record :=
  w.queue ++ w.current.elim [] (·.records)

-- One turn of `loop`: the writer after it and the file that is closed. No turn is possible where the channel is
-- empty, or where no file can be opened.
def loop (taken : List (Str × Str)) : LoopEvent → Option (Writer × Option CdrFile)
  | .write now =>
    match w.queue with
    | []        => none
    | r :: rest =>
      match w.current <|> openCDRFile taken w.cfg.dir w.cfg.instanceID now with
      | none   => none
      | some f =>
        let f := f.write r
        if w.cfg.maxRecords ≤ f.records.length then
          some ({ w with queue := rest, current := none }, some f)
        else
          some ({ w with queue := rest, current := some f }, none)
  | .age       => some ({ w with current := none }, w.current)
  | .drained   =>
    if w.closed ∧ w.queue = [] ∧ ¬w.done then some ({ w with current := none, done := true }, w.current) else none

variable {w : Writer}

theorem openCDRFile_spec {taken : List (Str × Str)} {dir instanceID : Str} {now : Time} {f : CdrFile}
    (h : openCDRFile taken dir instanceID now = some f) : (cleanPath dir, f.base) ∉ taken ∧ f.records = [] := by
  simp only [openCDRFile] at h
  split at h
  case isTrue hfree =>
    cases h
    exact ⟨hfree, rfl⟩
  case isFalse =>
    split at h
    case isTrue hfree =>
      cases h
      exact ⟨hfree, rfl⟩
    case isFalse => cases h

theorem target_records {taken : List (Str × Str)} {now : Time} {f : CdrFile}
    (h : (w.current <|> openCDRFile taken w.cfg.dir w.cfg.instanceID now) = some f) :
    f.records = w.current.elim [] (·.records) := by
  cases hc : w.current
  case none =>
    rw [hc] at h
    exact (openCDRFile_spec h).2
  case some g =>
    rw [hc] at h
    cases h
    rfl

theorem loop_spec {taken : List (Str × Str)} {e : LoopEvent} {w' : Writer} {f : Option CdrFile}
    (h : w.loop taken e = some (w', f)) :
    w'.closed = w.closed ∧ (w'.records ++ f.elim [] (·.records)).Perm w.records := by
  cases e
  case write now =>
    simp only [loop] at h
    split at h
    case h_1 => cases h
    case h_2 r rest hq =>
      split at h
      case h_1 => cases h
      case h_2 g hg =>
        have hperm : (rest ++ (g.records ++ [r])).Perm w.records := by
          rw [records, hq, ← target_records hg, ← List.append_assoc]
          exact List.perm_append_singleton r _
        split at h
        case isTrue =>
          cases h
          exact ⟨rfl, by simpa [records, CdrFile.write] using hperm⟩
        case isFalse =>
          cases h
          exact ⟨rfl, by simpa [records, CdrFile.write] using hperm⟩
  case age =>
    cases h
    exact ⟨rfl, by simp [records]⟩
  case drained =>
    simp only [loop] at h
    split at h
    case isTrue =>
      cases h
      exact ⟨rfl, by simp [records]⟩
    case isFalse => cases h

theorem loop_done {taken : List (Str × Str)} {e : LoopEvent} {w' : Writer} {f : Option CdrFile}
    (hw : w.done = true → w.closed = true ∧ w.records = []) (h : w.loop taken e = some (w', f)) :
    w'.done = true → w'.closed = true ∧ w'.records = [] := by
  have ⟨hclosed, hperm⟩ := loop_spec h
  intro hd
  cases hdone : w.done
  case true =>
    have ⟨hc, hr⟩ := hw hdone
    rw [hr] at hperm
    exact ⟨hclosed.trans hc, (List.append_eq_nil_iff.mp hperm.eq_nil).1⟩
  case false =>
    cases e
    case write now =>
      simp only [loop] at h
      grind
    case age =>
      cases h
      exact absurd (hdone.symm.trans hd) Bool.false_ne_true
    case drained =>
      simp only [loop] at h
      split at h
      case isTrue hcond =>
        cases h
        exact ⟨hcond.1, by simp [records, hcond.2.1]⟩
      case isFalse => cases h

end Writer

end Cdr

end SmppGateway
