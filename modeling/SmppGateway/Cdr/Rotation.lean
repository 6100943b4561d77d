import SmppGateway.Cdr.Writer
import SmppGateway.Go.Map
import SmppGateway.Lib.Machine
import SmppGateway.Lib.Parse

-- The files of a writer down to their bytes: `cdrFile` and the turns of `loop` in `internal/cdr/writer.go`, with what
-- is still in the buffer, what is in the directory and the names it has there.

namespace SmppGateway

open Go Machine

namespace Cdr

abbrev Directory := Map Str Str

namespace Directory

def rename (d : Directory) (old new : Str) : Directory :=
  match d.lookup old with
  | none         => d
  | some content => (d.erase old).insert new content

end Directory

def writingName (base : Str) : Str :=
  base ++ lit ".jsonl.writing"

def finalName (base : Str) (count : Nat) : Str :=
  base ++ lit "-" ++ decimal count ++ lit ".jsonl"

def baseOf (name : Str) : Str :=
  if lit ".jsonl.writing" <:+ name then name.take (name.length - (lit ".jsonl.writing").length) else name

structure OpenFile where
  base  : Str
  buf   : Str := []
  count : Nat := 0

def bufSize : Nat := 64 * 1024

structure Output where
  disk : Directory
  file : OpenFile

namespace Output

variable (x : Output)

def writing : Str :=
  writingName x.file.base

def append (p : Str) : Output :=
  { x with disk := x.disk.insert x.writing ((x.disk.lookup x.writing).getD [] ++ p) }

def copy (p : Str) : Output :=
  { x with file := { x.file with buf := x.file.buf ++ p } }

def flush : Output where
  disk := (x.append x.file.buf).disk
  file := { x.file with buf := [] }

-- `bufio.Writer.Write`: its loop takes at most two turns, since the buffer is empty after the first one.
def write (p : Str) : Output :=
  let room := bufSize - x.file.buf.length
  if p.length ≤ room then
    x.copy p
  else if x.file.buf = [] then
    x.append p
  else
    let y := (x.copy (p.take room)).flush
    let rest := p.drop room
    if rest.length ≤ bufSize then y.copy rest else y.append rest

def writeByte (b : UInt8) : Output :=
  if x.file.buf.length < bufSize then x.copy [b] else x.flush.copy [b]

def writeEvent (data : Str) : Output :=
  let y := (x.write data).writeByte '\n'.toUInt8
  { y with file := { y.file with count := y.file.count + 1 } }

def syncs (every : Int) : Bool :=
  0 < every ∧ (x.file.count : Int) % every = 0

def close : Directory :=
  let y := x.flush
  if y.file.count = 0 then
    y.disk.erase y.writing
  else
    y.disk.rename y.writing (finalName y.file.base y.file.count)

def content : Str :=
  (x.disk.lookup x.writing).getD [] ++ x.file.buf

-- `y` is `x` after `p` has been written to the file: in whatever way the bytes are divided between the buffer and the
-- directory, nothing else changes.
structure Emits (x : Output) (p : Str) (y : Output) : Prop where
  base    : y.file.base = x.file.base
  count   : y.file.count = x.file.count
  content : y.content = x.content ++ p
  others  : ∀ {name}, name ≠ x.writing → y.disk.lookup name = x.disk.lookup name

variable {x} {y z : Output} {p q : Str}

theorem Emits.trans (h : Emits x p y) (h' : Emits y q z) : Emits x (p ++ q) z where
  base    := h'.base.trans h.base
  count   := h'.count.trans h.count
  content := by rw [h'.content, h.content, List.append_assoc]
  others  := by
    intro name hn
    have hn' : name ≠ y.writing := by rwa [writing, h.base]
    exact (h'.others hn').trans (h.others hn)

theorem emits_copy : Emits x p (x.copy p) where
  base    := rfl
  count   := rfl
  content := (List.append_assoc ..).symm
  others  := fun _ => rfl

theorem emits_append (h : x.file.buf = []) : Emits x p (x.append p) where
  base    := rfl
  count   := rfl
  content := by
    change ((x.disk.insert x.writing _).lookup x.writing).getD [] ++ x.file.buf = _
    rw [AList.lookup_insert, Output.content, h]
    simp
  others  := fun hn => AList.lookup_insert_ne hn

theorem emits_flush : Emits x [] x.flush where
  base    := rfl
  count   := rfl
  content := by
    change ((x.disk.insert x.writing _).lookup x.writing).getD [] ++ [] = _
    rw [AList.lookup_insert]
    rfl
  others  := fun hn => AList.lookup_insert_ne hn

theorem emits_write : Emits x p (x.write p) := by
  simp only [write]
  split
  case isTrue => exact emits_copy
  case isFalse =>
    split
    case isTrue hempty => exact emits_append hempty
    case isFalse =>
      -- the bytes that fill the buffer, and the rest once it has been flushed
      have hfill := (emits_copy (p := p.take (bufSize - x.file.buf.length))).trans (emits_flush (x := x.copy _))
      have hrest : ∀ {y}, Emits x (p.take (bufSize - x.file.buf.length) ++ []) y → ∀ {z},
          Emits y (p.drop (bufSize - x.file.buf.length)) z → Emits x p z := by
        intro y hy z hz
        have h := hy.trans hz
        rwa [List.append_nil, List.take_append_drop] at h
      split
      case isTrue => exact hrest hfill emits_copy
      case isFalse => exact hrest hfill (emits_append rfl)

theorem emits_writeByte {b : UInt8} : Emits x [b] (x.writeByte b) := by
  rw [writeByte]
  split
  case isTrue => exact emits_copy
  case isFalse => exact emits_flush.trans emits_copy

end Output

def line (data : Str) : Str :=
  data ++ ['\n'.toUInt8]

namespace Output

variable {x : Output} {data name : Str}

theorem writeEvent_base : (x.writeEvent data).file.base = x.file.base :=
  (emits_write.trans emits_writeByte).base

theorem writeEvent_count : (x.writeEvent data).file.count = x.file.count + 1 :=
  congrArg (· + 1) (emits_write.trans emits_writeByte).count

theorem writeEvent_content : (x.writeEvent data).content = x.content ++ line data :=
  (emits_write.trans emits_writeByte).content

theorem writeEvent_others (h : name ≠ x.writing) : (x.writeEvent data).disk.lookup name = x.disk.lookup name :=
  (emits_write.trans emits_writeByte).others h

end Output

theorem notMem_decimal {b : UInt8} (hb : isDigit b = false) (n : Nat) : b ∉ decimal n := by
  obtain ⟨ds, hds, -, hlt, -⟩ := leftpad_format (.ofNat n) (by decide : 1 < 10) 0
  rw [List.leftpad, Nat.zero_sub, List.replicate_zero, List.nil_append] at hds
  rw [decimal, hds]
  intro hmem
  obtain ⟨d, hd, he⟩ := List.mem_map.mp hmem
  rw [← he, isDigit_digitByte (hlt d hd)] at hb
  cases hb

theorem finalName_inj {base base' : Str} {n n' : Nat} (h : finalName base n = finalName base' n') : base = base' := by
  have hcut : ∀ base n, ((finalName base n).reverse.dropWhile (· ≠ '-'.toUInt8)) = '-'.toUInt8 :: base.reverse := by
    intro base n
    have hrev : (finalName base n).reverse =
        ((lit ".jsonl").reverse ++ (decimal n).reverse) ++ '-'.toUInt8 :: base.reverse := by
      have hdash : lit "-" = ['-'.toUInt8] := by decide
      simp [finalName, hdash]
    have hnone : ∀ b ∈ (lit ".jsonl").reverse ++ (decimal n).reverse, b ≠ '-'.toUInt8 := by
      rintro b hb rfl
      rcases List.mem_append.mp hb with hb | hb
      case inl => exact absurd hb (by decide)
      case inr => exact notMem_decimal (by decide) n (List.mem_reverse.mp hb)
    rw [hrev, List.dropWhile_append_of_pos (by simpa using hnone), List.dropWhile_cons_of_neg (by simp)]
  have hrev := hcut base n
  rw [h, hcut base' n'] at hrev
  exact (List.reverse_injective (List.cons.inj hrev).2).symm

theorem finalName_not_writing {base : Str} {n : Nat} : ¬lit ".writing" <:+ finalName base n := by
  rintro ⟨front, h⟩
  have hlast := congrArg List.getLast? h
  have hwriting : (lit ".writing").getLast? = some 'g'.toUInt8 := by decide
  have hfinal : (lit ".jsonl").getLast? = some 'l'.toUInt8 := by decide
  rw [finalName, List.getLast?_append, List.getLast?_append, hwriting, hfinal] at hlast
  exact absurd (Option.some.inj hlast) (by decide)

theorem jsonl_suffix (base : Str) : lit ".jsonl.writing" <:+ writingName base :=
  List.suffix_append ..

theorem baseOf_writingName (base : Str) : baseOf (writingName base) = base := by
  rw [baseOf, if_pos (jsonl_suffix base), writingName, List.length_append, Nat.add_sub_cancel, List.take_left]

theorem eq_writingName {name : Str} (h : lit ".jsonl.writing" <:+ name) : name = writingName (baseOf name) := by
  obtain ⟨base, rfl⟩ := h
  exact congrArg (· ++ lit ".jsonl.writing") (baseOf_writingName base).symm

structure RotationConfig extends CDRConfig where
  fsyncEvery    : Int := 0
  fsyncInterval : Duration := 0

-- The state of `loop`. `created` lists the files in the order in which they were created.
structure Rotation where
  cfg      : RotationConfig
  disk     : Directory
  current  : Option OpenFile := none
  lastSync : Time := 0
  created  : List Str := []

def newRotation (cfg : RotationConfig) (host : Str) (disk : Directory) : Rotation where
  cfg  := { cfg with toCDRConfig := (newWriter cfg.toCDRConfig host).cfg }
  disk := disk

-- What `select` finds ready; `now` is the first reading of the clock in the turn and `synced` the last one.
inductive Turn
  | receive (r : Record) (now synced : Time)
  | age
  | sync (now synced : Time)

def Turn.record? : Turn → Option Record
  | receive r _ _ => some r
  | age           => none
  | sync _ _      => none

namespace Rotation

variable (s : Rotation)

def taken : List (Str × Str) :=
  s.disk.keys.filterMap fun name =>
    if lit ".jsonl.writing" <:+ name then some (cleanPath s.cfg.dir, baseOf name) else none

def opened (now synced : Time) : Option (Rotation × OpenFile) :=
  match s.current with
  | some file => some (s, file)
  | none      => do
    let f ← openCDRFile s.taken s.cfg.dir s.cfg.instanceID now
    let file : OpenFile := { base := f.base }
    let disk := s.disk.insert (writingName f.base) []
    some ({ s with disk := disk, current := some file, lastSync := synced, created := s.created ++ [f.base] }, file)

def store (file : OpenFile) (data : Str) (synced : Time) : Rotation :=
  let x := Output.writeEvent ⟨s.disk, file⟩ data
  let y := if x.syncs s.cfg.fsyncEvery then x.flush else x
  let lastSync := if x.syncs s.cfg.fsyncEvery then synced else s.lastSync
  if s.cfg.maxRecords ≤ y.file.count then
    { s with disk := y.close, current := none, lastSync := lastSync }
  else
    { s with disk := y.disk, current := some y.file, lastSync := lastSync }

def closeCurrent : Rotation :=
  match s.current with
  | none      => s
  | some file => { s with disk := Output.close ⟨s.disk, file⟩, current := none }

-- One turn of `loop`. Where no file can be opened, the record is lost.
def turn (marshal : Record → Str) (s : Rotation) : Turn → Rotation
  | .receive r now synced =>
    match s.opened now synced with
    | none           => s
    | some (t, file) => t.store file (marshal r) synced
  | .age => s.closeCurrent
  | .sync now synced =>
    match s.current with
    | none      => s
    | some file =>
      if s.cfg.fsyncInterval ≤ now - s.lastSync then
        let x := Output.flush ⟨s.disk, file⟩
        { s with disk := x.disk, current := some x.file, lastSync := synced }
      else
        s

-- A file that has to be opened can be opened, under a name that no file of this writer had before.
def Distinct (s : Rotation) : Turn → Prop
  | .receive _ now _ =>
    s.current = none → (openCDRFile s.taken s.cfg.dir s.cfg.instanceID now).any (·.base ∉ s.created) = true
  | _ => True

instance : (t : Turn) → Decidable (s.Distinct t)
  | .receive .. => inferInstanceAs (Decidable (_ → _))
  | .age        => inferInstanceAs (Decidable True)
  | .sync ..    => inferInstanceAs (Decidable True)

variable {s}

theorem store_cfg {file : OpenFile} {data : Str} {synced : Time} : (s.store file data synced).cfg = s.cfg := by
  simp only [store]
  rw [apply_ite cfg]
  exact ite_self _

theorem mem_taken {base : Str} : (cleanPath s.cfg.dir, base) ∈ s.taken ↔ writingName base ∈ s.disk := by
  rw [taken, List.mem_filterMap]
  constructor
  case mp =>
    rintro ⟨name, hname, he⟩
    split at he
    case isTrue hsuffix =>
      cases he
      rw [← eq_writingName hsuffix]
      exact AList.mem_keys.mp hname
    case isFalse => cases he
  case mpr =>
    intro hmem
    refine ⟨writingName base, AList.mem_keys.mpr hmem, ?_⟩
    rw [if_pos (jsonl_suffix base), baseOf_writingName]

end Rotation

namespace Writer

-- `all` are the records in the files that are done, in the one that is open and in the channel, one after the other.
-- No file is empty, and none has more records than it may have.
structure Keeps (all : List Record) (w : Writer) (done : List CdrFile) : Prop where
  order    : (done ++ w.current.toList).flatMap (·.records) ++ w.queue = all
  positive : 0 < w.cfg.maxRecords
  sizes    : ∀ f ∈ done, f.records ≠ [] ∧ f.records.length ≤ w.cfg.maxRecords
  begun    : ∀ f ∈ w.current, f.records ≠ [] ∧ f.records.length < w.cfg.maxRecords

variable {w w' : Writer} {all : List Record} {done : List CdrFile}

theorem Keeps.closed (h : Keeps all w done) :
    ∀ f ∈ done ++ w.current.toList, f.records ≠ [] ∧ f.records.length ≤ w.cfg.maxRecords := by
  intro f hf
  rcases List.mem_append.mp hf with hf | hf
  case inl => exact h.sizes f hf
  case inr =>
    have ⟨hne, hlt⟩ := h.begun f (Option.mem_toList.mp hf)
    exact ⟨hne, Int.le_of_lt hlt⟩

theorem Keeps.close (h : Keeps all w done) : Keeps all { w with current := none } (done ++ w.current.toList) where
  order    := by simpa using h.order
  positive := h.positive
  sizes    := h.closed
  begun    := by simp

theorem Keeps.loop {taken : List (Str × Str)} {e : LoopEvent} {f : Option CdrFile} (h : Keeps all w done)
    (hl : w.loop taken e = some (w', f)) : Keeps all w' (done ++ f.toList) := by
  cases e
  case write now =>
    simp only [Writer.loop] at hl
    split at hl
    case h_1 => cases hl
    case h_2 r rest hq =>
      split at hl
      case h_1 => cases hl
      case h_2 g hg =>
        have hrecords := target_records hg
        have hlen : (g.records.length : Int) < w.cfg.maxRecords := by
          cases hc : w.current
          case none =>
            rw [hrecords, hc]
            exact h.positive
          case some g' =>
            rw [hrecords, hc]
            exact (h.begun g' hc).2
        have hlen' : ((g.write r).records.length : Int) ≤ w.cfg.maxRecords := by
          simp only [CdrFile.write, List.length_append, List.length_singleton]
          omega
        have hne : (g.write r).records ≠ [] := by simp [CdrFile.write]
        have horder : done.flatMap (·.records) ++ ((g.write r).records ++ rest) = all := by
          rw [← h.order, hq, CdrFile.write, hrecords]
          cases w.current <;> simp
        split at hl
        case isTrue =>
          cases hl
          refine ⟨by simpa using horder, h.positive, ?_, by simp⟩
          intro f hf
          rcases List.mem_append.mp hf with hf | hf
          case inl => exact h.sizes f hf
          case inr =>
            rw [List.mem_singleton.mp hf]
            exact ⟨hne, hlen'⟩
        case isFalse hfull =>
          cases hl
          refine ⟨by simpa using horder, h.positive, by simpa using h.sizes, ?_⟩
          rintro f ⟨⟩
          exact ⟨hne, Int.lt_of_not_ge hfull⟩
  case age =>
    cases hl
    exact h.close
  case drained =>
    simp only [Writer.loop] at hl
    split at hl
    case isTrue =>
      cases hl
      exact ⟨h.close.order, h.positive, h.closed, by simp⟩
    case isFalse => cases hl

theorem loop_write {taken : List (Str × Str)} {now : Time} {r : Record} {rest : List Record} {g : CdrFile}
    (hq : w.queue = r :: rest)
    (hg : (w.current <|> openCDRFile taken w.cfg.dir w.cfg.instanceID now) = some g) :
    w.loop taken (.write now) =
      if w.cfg.maxRecords ≤ (g.write r).records.length then
        some ({ w with queue := rest, current := none }, some (g.write r))
      else
        some ({ w with queue := rest, current := some (g.write r) }, none) := by
  simp only [loop, hq, hg]

end Writer

section Bytes

variable {marshal : Record → Str} {disk d : Directory} {done : List CdrFile} {g : CdrFile} {x : Output}

def CdrFile.text (marshal : Record → Str) (f : CdrFile) : Str :=
  f.records.flatMap fun r => line (marshal r)

def finished (marshal : Record → Str) (disk : Directory) (done : List CdrFile) : Directory :=
  Map.insertAll (fun f => finalName f.base f.records.length) (CdrFile.text marshal) disk done

theorem finished_concat : finished marshal disk (done ++ [g]) =
    (finished marshal disk done).insert (finalName g.base g.records.length) (g.text marshal) :=
  List.foldl_append

structure Writes (marshal : Record → Str) (d : Directory) (g : CdrFile) (x : Output) : Prop where
  base    : x.file.base = g.base
  count   : x.file.count = g.records.length
  content : x.content = g.text marshal
  others  : ∀ {name}, name ≠ x.writing → x.disk.lookup name = d.lookup name
  unused  : d.lookup x.writing = none

theorem Writes.writeEvent (h : Writes marshal d g x) (r : Record) :
    Writes marshal d (g.write r) (x.writeEvent (marshal r)) := by
  have hwriting : (x.writeEvent (marshal r)).writing = x.writing := congrArg writingName Output.writeEvent_base
  constructor
  case base => exact Output.writeEvent_base.trans h.base
  case count => rw [Output.writeEvent_count, h.count, CdrFile.write, List.length_append, List.length_singleton]
  case content => simp [Output.writeEvent_content, h.content, CdrFile.text, CdrFile.write]
  case others =>
    intro name hn
    rw [hwriting] at hn
    exact (Output.writeEvent_others hn).trans (h.others hn)
  case unused =>
    rw [hwriting]
    exact h.unused

theorem Writes.flush (h : Writes marshal d g x) : Writes marshal d g x.flush where
  base    := h.base
  count   := h.count
  content := by rw [Output.emits_flush.content, List.append_nil, h.content]
  others  := fun hn => (Output.emits_flush (x := x).others hn).trans (h.others hn)
  unused  := h.unused

theorem Writes.close (h : Writes marshal (finished marshal disk done) g x) (hne : g.records ≠ []) (name : Str) :
    x.close.lookup name = (finished marshal disk (done ++ [g])).lookup name := by
  have hcount : x.flush.file.count ≠ 0 := by
    rw [show x.flush.file.count = x.file.count from rfl, h.count]
    exact fun he => hne (List.length_eq_zero_iff.mp he)
  have hcontent : x.flush.disk.lookup x.flush.writing = some (g.text marshal) :=
    (AList.lookup_insert _).trans (congrArg some h.content)
  rw [Output.close, if_neg hcount, Directory.rename, hcontent, finished_concat, h.flush.base, h.flush.count,
    Map.lookup_insert_eq, Map.lookup_insert_eq, Map.lookup_erase_eq]
  split
  case isTrue => rfl
  case isFalse =>
    split
    case isTrue hw => rw [hw, h.flush.unused]
    case isFalse hw => exact h.flush.others hw

end Bytes

inductive Files (marshal : Record → Str) (d : Directory) : Option CdrFile → Directory → Option OpenFile → Prop
  | idle {disk} : (∀ name, disk.lookup name = d.lookup name) → Files marshal d none disk none
  | busy {g disk file} : Writes marshal d g ⟨disk, file⟩ → Files marshal d (some g) disk (some file)

structure Represents (marshal : Record → Str) (disk : Directory) (done : List CdrFile) (current : Option CdrFile)
    (s : Rotation) : Prop where
  created : s.created = (done ++ current.toList).map (·.base)
  nodup   : s.created.Nodup
  files   : Files marshal (finished marshal disk done) current s.disk s.current

namespace Represents

variable {marshal : Record → Str} {disk : Directory} {done : List CdrFile} {current : Option CdrFile} {s : Rotation}
  {r : Record} {now synced : Time}

theorem idle_or_busy (h : Represents marshal disk done current s) :
    (current = none ∧ s.current = none ∧ ∀ name, s.disk.lookup name = (finished marshal disk done).lookup name) ∨
      ∃ g file, current = some g ∧ s.current = some file ∧
        Writes marshal (finished marshal disk done) g ⟨s.disk, file⟩ := by
  have hfiles := h.files
  generalize s.current = cur at hfiles ⊢
  cases hfiles
  case idle hsame => exact .inl ⟨rfl, rfl, hsame⟩
  case busy g file hw => exact .inr ⟨g, file, rfl, rfl, hw⟩

theorem opened (h : Represents marshal disk done current s) (hd : s.Distinct (.receive r now synced)) :
    ∃ t file g, s.opened now synced = some (t, file) ∧
      (current <|> openCDRFile s.taken s.cfg.dir s.cfg.instanceID now) = some g ∧
      t.cfg = s.cfg ∧ t.current = some file ∧ Represents marshal disk done (some g) t := by
  rcases h.idle_or_busy with ⟨rfl, hc, hsame⟩ | ⟨g, file, rfl, hc, -⟩
  case inl =>
    obtain ⟨f, hopen, hnew⟩ := Option.any_eq_true _ _ |>.mp (hd hc)
    have hnew : f.base ∉ s.created := by simpa using hnew
    have ⟨hfree, hrecords⟩ := Writer.openCDRFile_spec hopen
    have hfresh : s.disk.lookup (writingName f.base) = none := by
      rwa [AList.lookup_eq_none, ← Rotation.mem_taken]
    refine ⟨{ s with
      disk     := s.disk.insert (writingName f.base) []
      current  := some { base := f.base }
      lastSync := synced
      created  := s.created ++ [f.base] }, { base := f.base }, f, ?_, hopen, rfl, rfl, ?_⟩
    case refine_1 =>
      rw [Rotation.opened, hc, hopen]
      rfl
    constructor
    case created => simpa using h.created
    case nodup => exact List.nodup_append.mpr ⟨h.nodup, by simp, by grind⟩
    case files =>
      constructor
      constructor
      case base => rfl
      case count => rw [hrecords]; rfl
      case content => simp [Output.content, Output.writing, CdrFile.text, hrecords]
      case others => exact fun hn => (AList.lookup_insert_ne hn).trans (hsame _)
      case unused => exact (hsame _).symm.trans hfresh
  case inr => exact ⟨s, file, g, by rw [Rotation.opened, hc], rfl, rfl, hc, h⟩

theorem store {g : CdrFile} {file : OpenFile} (h : Represents marshal disk done (some g) s)
    (hfile : s.current = some file) :
    if s.cfg.maxRecords ≤ (g.write r).records.length then
      Represents marshal disk (done ++ [g.write r]) none (s.store file (marshal r) synced)
    else
      Represents marshal disk done (some (g.write r)) (s.store file (marshal r) synced) := by
  have hfiles := h.files
  rw [hfile] at hfiles
  cases hfiles
  case busy hw =>
    have hcreated : s.created = (done ++ [g.write r]).map (·.base) := by simpa [CdrFile.write] using h.created
    have hne : (g.write r).records ≠ [] := by simp [CdrFile.write]
    simp only [Rotation.store]
    generalize hx : Output.writeEvent _ _ = x
    -- whether the buffer is flushed here makes no difference to what the file holds
    have hw' : Writes marshal (finished marshal disk done) (g.write r)
        (if x.syncs s.cfg.fsyncEvery then x.flush else x) := by
      rw [← hx]
      split
      case isTrue => exact (hw.writeEvent r).flush
      case isFalse => exact hw.writeEvent r
    rw [hw'.count]
    split
    case isTrue => exact ⟨by simpa using hcreated, h.nodup, .idle (hw'.close hne)⟩
    case isFalse => exact ⟨hcreated, h.nodup, .busy hw'⟩

theorem closeCurrent (h : Represents marshal disk done current s) (hne : ∀ g ∈ current, g.records ≠ []) :
    Represents marshal disk (done ++ current.toList) none s.closeCurrent := by
  rw [Rotation.closeCurrent]
  rcases h.idle_or_busy with ⟨rfl, hc, -⟩ | ⟨g, file, rfl, hc, hw⟩
  case inl =>
    rw [hc, Option.toList_none, List.append_nil]
    exact h
  case inr =>
    rw [hc]
    exact ⟨by simpa using h.created, h.nodup, .idle (hw.close (hne g rfl))⟩

theorem sync (h : Represents marshal disk done current s) :
    Represents marshal disk done current (s.turn marshal (.sync now synced)) := by
  simp only [Rotation.turn]
  rcases h.idle_or_busy with ⟨rfl, hc, -⟩ | ⟨g, file, rfl, hc, hw⟩
  case inl =>
    rw [hc]
    exact h
  case inr =>
    rw [hc]
    dsimp only
    split
    case isTrue => exact ⟨h.created, h.nodup, .busy hw.flush⟩
    case isFalse => exact h

end Represents

-- The loop over the bytes takes the turns of the loop over the records: a writer that still has the records to come
-- in its channel does the same with them. A sync is no turn there.
structure Simulates (marshal : Record → Str) (cfg : RotationConfig) (disk : Directory) (all : List Record)
    (s : Rotation) (w : Writer) (done : List CdrFile) : Prop where
  bytes   : s.cfg = cfg
  records : w.cfg = cfg.toCDRConfig
  files   : Represents marshal disk done w.current s
  keeps   : w.Keeps all done

namespace Simulates

variable {marshal : Record → Str} {cfg : RotationConfig} {disk : Directory} {all rest : List Record} {s : Rotation}
  {w : Writer} {done : List CdrFile}

theorem receive {r : Record} {now synced : Time} (h : Simulates marshal cfg disk all s w done)
    (hq : w.queue = r :: rest) (hd : s.Distinct (.receive r now synced)) :
    ∃ w' f, w.loop s.taken (.write now) = some (w', f) ∧ w'.queue = rest ∧
      Simulates marshal cfg disk all (s.turn marshal (.receive r now synced)) w' (done ++ f.toList) := by
  obtain ⟨t, file, g, hopened, hg, hcfg, hfile, hrep⟩ := h.files.opened hd
  have hg' : (w.current <|> openCDRFile s.taken w.cfg.dir w.cfg.instanceID now) = some g := by
    rwa [h.records, ← h.bytes]
  have hturn : s.turn marshal (.receive r now synced) = t.store file (marshal r) synced := by
    simp only [Rotation.turn, hopened]
  have hstored : (t.store file (marshal r) synced).cfg = cfg := by rw [Rotation.store_cfg, hcfg, h.bytes]
  have hloop := Writer.loop_write hq hg'
  have hstore := @Represents.store _ _ _ _ r synced _ _ hrep hfile
  have hmax : t.cfg.maxRecords = w.cfg.maxRecords := by rw [hcfg, h.bytes, h.records]
  rw [hmax, ← hturn] at hstore
  rw [← hturn] at hstored
  split at hloop
  case isTrue hfull =>
    rw [if_pos hfull] at hstore
    exact ⟨_, _, hloop, rfl, hstored, h.records, hstore, h.keeps.loop hloop⟩
  case isFalse hroom =>
    rw [if_neg hroom] at hstore
    refine ⟨_, _, hloop, rfl, hstored, h.records, ?_, h.keeps.loop hloop⟩
    rwa [Option.toList_none, List.append_nil]

theorem age (h : Simulates marshal cfg disk all s w done) :
    Simulates marshal cfg disk all s.closeCurrent { w with current := none } (done ++ w.current.toList) where
  bytes   := by
    rw [Rotation.closeCurrent]
    split
    case h_1 => exact h.bytes
    case h_2 => exact h.bytes
  records := h.records
  files   := h.files.closeCurrent fun g hg => (h.keeps.begun g hg).1
  keeps   := h.keeps.close

theorem sync {now synced : Time} (h : Simulates marshal cfg disk all s w done) :
    Simulates marshal cfg disk all (s.turn marshal (.sync now synced)) w done where
  bytes   := by
    simp only [Rotation.turn]
    split
    case h_1 => exact h.bytes
    case h_2 => split <;> exact h.bytes
  records := h.records
  files   := h.files.sync
  keeps   := h.keeps

theorem turn {t : Turn} (h : Simulates marshal cfg disk all s w done) (hq : w.queue = t.record?.toList ++ rest)
    (hd : s.Distinct t) :
    ∃ w' done', w'.queue = rest ∧ Simulates marshal cfg disk all (s.turn marshal t) w' done' := by
  cases t
  case receive r now synced =>
    obtain ⟨w', f, -, hrest, hsim⟩ := h.receive hq hd
    exact ⟨w', _, hrest, hsim⟩
  case age => exact ⟨{ w with current := none }, _, hq, h.age⟩
  case sync => exact ⟨w, done, hq, h.sync⟩

theorem run {turns : List Turn} (h : Simulates marshal cfg disk all s w done)
    (hq : w.queue = turns.filterMap Turn.record?)
    (hd : Along (Rotation.turn marshal) Rotation.Distinct s turns) :
    ∃ w' done', w'.queue = [] ∧
      Simulates marshal cfg disk all (Machine.run (Rotation.turn marshal) s turns) w' done' := by
  induction turns generalizing s w done
  case nil => exact ⟨w, done, hq, h⟩
  case cons t turns hi =>
    have hq' : w.queue = t.record?.toList ++ turns.filterMap Turn.record? := by
      rw [hq]
      cases ht : t.record? <;> simp [ht]
    obtain ⟨w', done', hrest, hsim⟩ := h.turn hq' hd.1
    exact hi hsim hrest hd.2

end Simulates

def readLine : Parse.Reader UInt8 Str Unit := fun l =>
  if '\n'.toUInt8 ∈ l then
    .ok (l.takeWhile (· ≠ '\n'.toUInt8), (l.dropWhile (· ≠ '\n'.toUInt8)).tail)
  else
    .error ()

theorem readLine_line {data : Str} (h : '\n'.toUInt8 ∉ data) (rest : Str) :
    readLine (line data ++ rest) = .ok (data, rest) := by
  have hne : ∀ b ∈ data, decide (b ≠ '\n'.toUInt8) = true := by
    intro b hb
    exact decide_eq_true fun he => h (he ▸ hb)
  rw [line, List.append_assoc, List.singleton_append, readLine, if_pos (by simp), List.takeWhile_append_of_pos hne,
    List.dropWhile_append_of_pos hne]
  simp

theorem readLine_consumes : Parse.Consumes readLine := by
  intro l data rest h
  rw [readLine] at h
  split at h
  case isTrue hmem =>
    cases h
    have hpos := List.length_pos_of_mem hmem
    have hle : (l.dropWhile (· ≠ '\n'.toUInt8)).length ≤ l.length := List.length_dropWhile_le ..
    rw [List.length_tail]
    omega
  case isFalse => cases h

theorem CdrFile.read_text {marshal : Record → Str} (hmarshal : ∀ r, '\n'.toUInt8 ∉ marshal r) (f : CdrFile) :
    Parse.many readLine (f.text marshal) = .ok (f.records.map marshal) := by
  have htext : f.text marshal = (f.records.map marshal).flatMap line := by
    rw [CdrFile.text, List.flatMap_map]
  rw [htext]
  refine Parse.many_flatMap readLine_consumes fun data hd rest => readLine_line ?_ rest
  obtain ⟨r, -, rfl⟩ := List.mem_map.mp hd
  exact hmarshal r

theorem atoi_decimal {n : Nat} (h : n < 2 ^ 63) : atoi (decimal n) = n := by
  have hn : (UInt64.ofNat n).toNat = n := UInt64.toNat_ofNat_of_lt' (Nat.lt_trans h (by decide))
  have hread := atoi_leftpad_format (v := .ofNat n) (by rwa [hn]) 0
  rwa [List.leftpad, Nat.zero_sub, List.replicate_zero, List.nil_append, hn] at hread

theorem lookup_finished {marshal : Record → Str} {disk : Directory} {done : List CdrFile}
    (hnodup : (done.map (·.base)).Nodup) {f : CdrFile} (hf : f ∈ done) :
    (finished marshal disk done).lookup (finalName f.base f.records.length) = some (f.text marshal) := by
  have hnames : (done.map fun f => finalName f.base f.records.length).Nodup := by
    refine List.Nodup.map_on ?_ (List.Nodup.of_map _ hnodup)
    intro f hf g hg he
    exact List.inj_on_of_nodup_map hnodup hf hg (finalName_inj he)
  exact Map.lookup_insertAll_of_mem hnames hf

theorem simulates_new (marshal : Record → Str) (cfg : RotationConfig) (host : Str) (disk : Directory)
    (all : List Record) :
    Simulates marshal (newRotation cfg host disk).cfg disk all (newRotation cfg host disk)
      { newWriter cfg.toCDRConfig host with queue := all } [] := by
  have hpositive : 0 < (newWriter cfg.toCDRConfig host).cfg.maxRecords := by
    simp only [newWriter]
    split <;> omega
  exact ⟨rfl, rfl, ⟨rfl, List.nodup_nil, .idle fun _ => rfl⟩, rfl, hpositive, by simp, by simp [newWriter]⟩

theorem maxRecords_lt {cfg : RotationConfig} (host : Str) (disk : Directory) (h : cfg.maxRecords < 2 ^ 63) :
    (newRotation cfg host disk).cfg.maxRecords < 2 ^ 63 := by
  simp only [newRotation, newWriter]
  split
  case isTrue => decide
  case isFalse => exact h

-- However receptions, the age timer and the sync ticker take turns: once the loop has ended, the files of the writer,
-- in the order in which they were created, hold the lines of the records that were received, in their order. Each of
-- them has its final name with the number of its lines, at least one and at most `MaxRecords`, and nothing else of the
-- directory has changed, so that no file of the writer is left under its first name.
theorem rotation_keeps_every_record (cfg : RotationConfig) (host : Str) (disk : Directory) (marshal : Record → Str)
    (turns : List Turn) (hmax : cfg.maxRecords < 2 ^ 63) (hmarshal : ∀ r, '\n'.toUInt8 ∉ marshal r)
    (hdistinct : Along (Rotation.turn marshal) Rotation.Distinct (newRotation cfg host disk) turns) :
    let s := newRotation cfg host disk
    let s' := (run (Rotation.turn marshal) s turns).closeCurrent
    ∃ files : List (Str × List Str),
      files.map Prod.fst = s'.created ∧ s'.created.Nodup ∧
      files.flatMap Prod.snd = (turns.filterMap Turn.record?).map marshal ∧
      (∀ f ∈ files, 1 ≤ f.2.length ∧ f.2.length ≤ s.cfg.maxRecords ∧ atoi (decimal f.2.length) = f.2.length ∧
        ∃ content, s'.disk.lookup (finalName f.1 f.2.length) = some content ∧
          Parse.many readLine content = .ok f.2) ∧
      (∀ name, (∀ f ∈ files, name ≠ finalName f.1 f.2.length) → s'.disk.lookup name = disk.lookup name) ∧
      ∀ name ∈ s'.disk, lit ".writing" <:+ name → name ∈ disk := by
  intro s s'
  have hstart := simulates_new marshal cfg host disk (turns.filterMap Turn.record?)
  obtain ⟨w, done, hq, hrun⟩ := hstart.run rfl hdistinct
  have hend := hrun.age
  generalize done ++ w.current.toList = files at hend
  have hbases : s'.created = files.map (·.base) := by simpa using hend.files.created
  have hdisk : ∀ name, s'.disk.lookup name = (finished marshal disk files).lookup name := by
    rcases hend.files.idle_or_busy with ⟨-, -, hsame⟩ | ⟨g, file, hnone, -⟩
    case inl => exact hsame
    case inr => cases hnone
  have hothers : ∀ name, (∀ f ∈ files, name ≠ finalName f.base f.records.length) →
      s'.disk.lookup name = disk.lookup name := by
    intro name hn
    exact (hdisk name).trans (Map.lookup_insertAll_of_notMem fun f hf he => hn f hf he.symm)
  refine ⟨files.map fun f => (f.base, f.records.map marshal), ?_, hend.files.nodup, ?_, ?_, ?_, ?_⟩
  case refine_1 => simp [hbases]
  case refine_2 =>
    have horder := hend.keeps.order
    simp only [Option.toList_none, List.append_nil, hq] at horder
    rw [← horder, List.flatMap_map, List.map_flatMap]
  case refine_3 =>
    rw [List.forall_mem_map]
    intro f hf
    have ⟨hne, hle⟩ := hend.keeps.sizes f hf
    have hle : (f.records.length : Int) ≤ s.cfg.maxRecords := by rwa [← hend.records]
    have hlt : (f.records.length : Int) < 2 ^ 63 := Int.lt_of_le_of_lt hle (maxRecords_lt host disk hmax)
    dsimp only
    rw [List.length_map]
    refine ⟨List.length_pos_iff.mpr hne, hle, atoi_decimal (by omega), f.text marshal, ?_, f.read_text hmarshal⟩
    exact (hdisk _).trans (lookup_finished (hbases ▸ hend.files.nodup) hf)
  case refine_4 =>
    intro name hn
    exact hothers name (by simpa using hn)
  case refine_5 =>
    intro name hmem hsuffix
    have hsame := hothers name fun f _ he => finalName_not_writing (he ▸ hsuffix)
    rw [← AList.lookup_isSome] at hmem ⊢
    rwa [← hsame]

-- One byte of a string in `json.Marshal`. Letters outside of ASCII go through as they are.
def jsonByte (b : UInt8) : Str :=
  -- The quotation mark and the backslash.
  if b = 0x22 ∨ b = 0x5c then
    [0x5c, b]
  else if b < 0x20 ∨ b = '<'.toUInt8 ∨ b = '>'.toUInt8 ∨ b = '&'.toUInt8 then
    match [(0x08, lit "\\b"), (0x09, lit "\\t"), (0x0a, lit "\\n"), (0x0c, lit "\\f"), (0x0d, lit "\\r")].lookup b with
    | some short => short
    | none       => lit "\\u00" ++ [digitByte (b.toNat / 16), digitByte (b.toNat % 16)]
  else
    [b]

def jsonString (s : Str) : Str :=
  lit "\"" ++ s.flatMap jsonByte ++ lit "\""

def jsonOmitEmpty (name : String) (s : Str) : Str :=
  if s = [] then [] else lit "," ++ jsonString (lit name) ++ lit ":" ++ jsonString s

-- `json.Marshal` of an event of this kind whose other fields are empty.
def Event.marshal (kind : Str) (e : Event) : Str :=
  lit "\x7b\"seq\":" ++ formatUintBase e.seq 10 ++ lit ",\"ts\":" ++ jsonString e.ts ++ lit ",\"kind\":" ++
    jsonString kind ++ jsonOmitEmpty "to" e.dest ++ jsonOmitEmpty "text" e.text ++
    jsonOmitEmpty "instance" e.instanceID ++ lit "\x7d"

theorem notMem_jsonByte (b : UInt8) : '\n'.toUInt8 ∉ jsonByte b := by
  have hall : ∀ i : Fin 256, '\n'.toUInt8 ∉ jsonByte (.ofNat i) := by decide +kernel
  have h := hall ⟨b.toNat, b.toNat_lt⟩
  rwa [UInt8.ofNat_toNat] at h

theorem notMem_jsonString (s : Str) : '\n'.toUInt8 ∉ jsonString s := by
  have hquote : '\n'.toUInt8 ∉ lit "\"" := by decide
  have hbytes : '\n'.toUInt8 ∉ s.flatMap jsonByte := by
    intro h
    obtain ⟨b, -, hb⟩ := List.mem_flatMap.mp h
    exact notMem_jsonByte b hb
  simp [jsonString, hquote, hbytes]

theorem notMem_jsonOmitEmpty (name : String) (s : Str) : '\n'.toUInt8 ∉ jsonOmitEmpty name s := by
  have hcomma : '\n'.toUInt8 ∉ lit "," := by decide
  have hcolon : '\n'.toUInt8 ∉ lit ":" := by decide
  unfold jsonOmitEmpty
  split
  case isTrue => exact List.not_mem_nil
  case isFalse => simp [hcomma, hcolon, notMem_jsonString]

theorem notMem_marshal (kind : Str) (e : Event) : '\n'.toUInt8 ∉ e.marshal kind := by
  have hfixed : ∀ t ∈ [lit "\x7b\"seq\":", lit ",\"ts\":", lit ",\"kind\":", lit "\x7d"], '\n'.toUInt8 ∉ t := by decide
  have hseq : '\n'.toUInt8 ∉ formatUintBase e.seq 10 := by
    have h := notMem_decimal (b := '\n'.toUInt8) (by decide) e.seq.toNat
    rwa [decimal, UInt64.ofNat_toNat] at h
  simp only [List.forall_mem_cons] at hfixed
  simp [Event.marshal, hfixed, hseq, notMem_jsonString, notMem_jsonOmitEmpty]

def sampleRecord (n : Nat) : Record :=
  ⟨n, { dest := lit "13800138000", text := lit "a <b>" }, _, { dir := lit "cdr", maskTo := true, storeText := true },
    .ofNat n, lit "gw-1", lit "2024-01-01T00:00:00Z", rfl⟩

theorem rotation_keeps_every_record_three_files :
    let marshal (r : Record) := r.event.marshal (lit "submit")
    let received := [sampleRecord 1, sampleRecord 2, sampleRecord 3, sampleRecord 4]
    let start := date 2024 1 1 0 0 0
    let turns := [.receive (sampleRecord 1) start start, .sync (start + 5) (start + 5),
      .receive (sampleRecord 2) (start + 6) (start + 6), .age, .receive (sampleRecord 3) (start + 7) (start + 7), .age,
      .receive (sampleRecord 4) (start + 8) (start + 8)]
    let s := run (Rotation.turn marshal) (newRotation { dir := lit "cdr", maxRecords := 2 } (lit "host") ∅) turns
    marshal (sampleRecord 1) = lit ("\x7b\"seq\":1,\"ts\":\"2024-01-01T00:00:00Z\",\"kind\":\"submit\"," ++
      "\"to\":\"*******8000\",\"text\":\"a \\u003cb\\u003e\",\"instance\":\"gw-1\"\x7d") ∧
    s.created.length = 3 ∧ ∃ files : List (Str × List Str), files.map Prod.fst = s.closeCurrent.created ∧
      files.flatMap Prod.snd = received.map marshal := by
  intro marshal received start turns s
  have hdistinct : Along (Rotation.turn marshal) Rotation.Distinct
      (newRotation { dir := lit "cdr", maxRecords := 2 } (lit "host") ∅) turns := by decide +kernel
  obtain ⟨files, hcreated, -, horder, -⟩ :=
    rotation_keeps_every_record _ _ _ _ turns (by decide) (fun r => notMem_marshal _ r.event) hdistinct
  exact ⟨by decide +kernel, by decide +kernel, files, hcreated, horder⟩

end Cdr

end SmppGateway
