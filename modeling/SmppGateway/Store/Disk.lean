import SmppGateway.Store.Lifecycle

-- The files behind the store and the configuration. `FileStore.persist` and `AtomicWriteFile` replace a
-- file by the same sequence of file operations, and a crash can come after any of them. Each of them can
-- also fail, and then the process goes on.

namespace SmppGateway

open Go

-- The contents of `path`, `path.bak` and the temporary file, where they exist.
structure Dir (α : Type) where
  path : Option α := none
  bak  : Option α := none
  tmp  : Option α := none
  deriving DecidableEq, Repr

inductive FileOp (α : Type)
  | writeTmp (data : α)
  | removeBak
  | renamePathToBak
  | renameTmpToPath
  | removeTmp
  deriving DecidableEq, Repr

namespace Dir

variable {α : Type}

def apply (d : Dir α) : FileOp α → Dir α
  | .writeTmp data   => { d with tmp := some data }
  | .removeBak       => { d with bak := none }
  | .renamePathToBak => { d with bak := d.path, path := none }
  | .renameTmpToPath => { d with path := d.tmp, tmp := none }
  | .removeTmp       => { d with tmp := none }

-- What both writers do. The old content is only moved away when `os.Stat` finds it.
def replaceOps (d : Dir α) (data : α) : List (FileOp α) :=
  [.writeTmp data] ++
    (if d.path.isSome then [.removeBak, .renamePathToBak] else []) ++
    [.renameTmpToPath, .removeTmp]

def replace (d : Dir α) (data : α) : Dir α :=
  (d.replaceOps data).foldl apply d

def crash (d : Dir α) (data : α) (n : Nat) : Dir α :=
  ((d.replaceOps data).take n).foldl apply d

-- The window in which the old content has been moved away and the new one is not yet in its place.
def BetweenRenames (d : Dir α) (data : α) (n : Nat) : Prop :=
  ((d.replaceOps data).take n).getLast? = some .renamePathToBak

variable {d : Dir α} {old data : α}

theorem replace_path : (d.replace data).path = some data := by
  obtain ⟨path, bak, tmp⟩ := d
  cases path <;> rfl

theorem replaceOps_of_path (h : d.path = some old) :
    d.replaceOps data =
      [.writeTmp data, .removeBak, .renamePathToBak, .renameTmpToPath, .removeTmp] := by
  simp [replaceOps, h]

theorem betweenRenames_iff (h : d.path = some old) {n : Nat} : d.BetweenRenames data n ↔ n = 3 := by
  rw [BetweenRenames, replaceOps_of_path h]
  match n with
  | 0 | 1 | 2 | 3 | 4 => simp
  | n + 5 => simp

theorem crash_path (h : d.path = some old) (data : α) (n : Nat) :
    (d.crash data n).path = if n < 3 then some old else if n = 3 then none else some data := by
  rw [crash, replaceOps_of_path h]
  match n with
  | 0 | 1 | 2 => simp [apply, h]
  | 3 | 4 => simp [apply]
  | n + 5 => simp [apply]

end Dir

-- `NewFile` reads `path` only. A store without a file starts empty.
def newFile (d : Dir FileSnapshot) : FileStore :=
  FileStore.restart ⟨newMemory, d.path⟩

inductive ConfigStart (γ : Type)
  | loaded (cfg : γ)
  | seeded (cfg : γ)
  | failed
  deriving DecidableEq, Repr

-- `LoadStartup` up to the content it goes on with: the one at `path`, or else a copy of the seed.
def loadStartup {γ : Type} (d : Dir γ) (seed : Option γ) : ConfigStart γ × Dir γ :=
  match d.path, seed with
  | some cfg, _      => (.loaded cfg, d)
  | none,   some cfg => (.seeded cfg, { d with path := some cfg })
  | none,   none     => (.failed, d)

theorem newFile_replace (d : Dir FileSnapshot) (s : FileStore) {op : StoreOp} {ok : Bool}
    (h : s.writes op ok) :
    newFile (d.replace (op.exec s.mem).2.snapshot.json) = (s.call op ok).2.restart := by
  simp [newFile, Dir.replace_path, FileStore.restart, FileStore.call_disk, h]

-- After a write that was interrupted, the store and the configuration start from the old or the new
-- content exactly when the crash did not come between the two renames.
theorem crash_keeps_content_iff {γ : Type} (d : Dir FileSnapshot) (c : Dir γ)
    {old : FileSnapshot} {oldCfg : γ} (hd : d.path = some old) (hc : c.path = some oldCfg)
    (new : FileSnapshot) (newCfg : γ) (seed : Option γ) (n : Nat) :
    (newFile (d.crash new n) = ⟨.load old, some old⟩ ∨
      newFile (d.crash new n) = ⟨.load new, some new⟩ ↔ ¬d.BetweenRenames new n) ∧
    ((loadStartup (c.crash newCfg n) seed).1 = .loaded oldCfg ∨
      (loadStartup (c.crash newCfg n) seed).1 = .loaded newCfg ↔ ¬c.BetweenRenames newCfg n) := by
  rw [Dir.betweenRenames_iff hd, Dir.betweenRenames_iff hc]
  simp only [newFile, loadStartup, FileStore.restart, Dir.crash_path hd, Dir.crash_path hc]
  obtain h | h | h : n < 3 ∨ n = 3 ∨ 3 < n := lt_trichotomy n 3
  case inl => simp [h, h.ne]
  case inr.inl =>
    subst h
    cases seed <;> simp
  case inr.inr => simp [h.ne', h.not_gt]

theorem crash_keeps_content_early :
    let old := newMemory.snapshot
    let new := { old with nextOutbox := 1 }
    let d : Dir FileSnapshot := { path := some old }
    let c : Dir Str := { path := some (lit "old") }
    (newFile (d.crash new 2) = ⟨.load old, some old⟩ ∨
      newFile (d.crash new 2) = ⟨.load new, some new⟩) ∧
    ((loadStartup (c.crash (lit "new") 2) none).1 = .loaded (lit "old") ∨
      (loadStartup (c.crash (lit "new") 2) none).1 = .loaded (lit "new")) := by
  intro old new d c
  have h := crash_keeps_content_iff d c rfl rfl new (lit "new") none 2
  exact ⟨h.1.mpr (by simp [Dir.betweenRenames_iff (d := d) rfl]),
    h.2.mpr (by simp [Dir.betweenRenames_iff (d := c) rfl])⟩

-- Between the renames the store starts empty, and the configuration is seeded again or does not load.
theorem crash_between_renames :
    let old := newMemory.snapshot
    let new := { old with nextOutbox := 1 }
    let d : Dir FileSnapshot := { path := some old }
    let c : Dir Str := { path := some (lit "old") }
    newFile (d.crash new 3) = .empty ∧
    (loadStartup (c.crash (lit "new") 3) (some (lit "seed"))).1 = .seeded (lit "seed") ∧
    (loadStartup (c.crash (lit "new") 3) none).1 = .failed :=
  ⟨rfl, rfl, rfl⟩

-- Where `persist` returns an error: on the way to a temporary file that is complete and closed (the encoding,
-- the directory, the file, the write, the sync, the close), or at one of the renames.
inductive PersistFault
  | temporary
  | renameToBak
  | renameToPath
  deriving DecidableEq, Repr

-- There is nothing to move away while `path` does not exist.
def PersistFault.hits {α : Type} (d : Dir α) : PersistFault → Bool
  | renameToBak                => d.path.isSome
  | temporary | renameToPath => true

-- `persist` with the fault that the file system has in store for it. The temporary file is removed on the way
-- out in any case.
def Dir.persist {α : Type} (d : Dir α) (data : α) (fault : Option PersistFault) : Bool × Dir α :=
  match fault.filter (·.hits d) with
  | none               => (true, d.replace data)
  | some .temporary    => (false, d.apply .removeTmp)
  | some .renameToBak  => (false, (d.apply .removeBak).apply .removeTmp)
  | some .renameToPath =>
    let moved := if d.path.isSome then (d.apply .removeBak).apply .renamePathToBak else d
    (false, moved.apply .removeTmp)

structure FileProcess where
  mem : MemoryStore
  dir : Dir FileSnapshot

namespace FileProcess

def submitAtomic (p : FileProcess) (now : Time) (msg : Message) (item : OutboxItem) (opts : SubmitOptions)
    (fault : Option PersistFault) : FileReply × FileProcess :=
  match p.mem.submitAtomic now msg item opts with
  | (.error e, mem) => (⟨none, some e⟩, { p with mem })
  | (.ok res, mem)  =>
    if res.duplicate then
      (⟨some (.submitted res), none⟩, { p with mem })
    else
      match p.dir.persist mem.snapshot.json fault with
      | (true, dir)  => (⟨some (.submitted res), none⟩, ⟨mem, dir⟩)
      | (false, dir) => (⟨some (.submitted res), some .persist⟩, ⟨mem, dir⟩)

end FileProcess

namespace Dir

variable {α : Type} {d : Dir α} {data : α} {fault : Option PersistFault}

theorem persist_fst : (d.persist data fault).1 = (fault.filter (·.hits d)).isNone := by
  unfold persist
  cases fault.filter (·.hits d)
  case none => rfl
  case some f => cases f <;> rfl

end Dir

namespace FileProcess

variable (p : FileProcess) (now : Time) (msg : Message) (item : OutboxItem) (opts : SubmitOptions)
  (fault : Option PersistFault)

-- The file store's model, which knows only whether a write succeeds, answers the same and has the same
-- content in memory.
theorem submitAtomic_eq_call :
    let r := FileStore.call ⟨p.mem, p.dir.path⟩ (.submitAtomic now msg item opts)
      (fault.filter (·.hits p.dir)).isNone
    (p.submitAtomic now msg item opts fault).1 = r.1 ∧ (p.submitAtomic now msg item opts fault).2.mem = r.2.mem := by
  simp only [submitAtomic, FileStore.call, StoreOp.exec, StoreOp.reply]
  generalize p.mem.submitAtomic now msg item opts = r
  obtain ⟨e | res, mem⟩ := r
  case error => exact ⟨rfl, rfl⟩
  case ok =>
    simp only [Except.map, StoreReply.persists, Bool.not_not]
    split
    case isTrue => exact ⟨rfl, rfl⟩
    case isFalse =>
      have hfst : (p.dir.persist mem.snapshot.json fault).1 = (fault.filter (·.hits p.dir)).isNone := Dir.persist_fst
      rw [← hfst]
      obtain ⟨_ | _, dir⟩ := p.dir.persist mem.snapshot.json fault <;> exact ⟨rfl, rfl⟩

end FileProcess

def MemoryStore.Accepts (s : MemoryStore) (now : Time) (opts : SubmitOptions) : Prop :=
  (s.sweepLocked now).liveDuplicate now opts.idempotency = none ∧
    ∃ debited, (s.sweepLocked now).debitQuota opts.quota = .ok debited

-- A submission that returns an error leaves no more behind than the sweep that every call starts with,
-- exactly when it is not one that the store takes and then fails to write. All that later calls of the process
-- return comes from the content in memory.
theorem submit_error_leaves_nothing_iff (p : FileProcess) (now : Time) (msg : Message) (item : OutboxItem)
    (opts : SubmitOptions) (fault : Option PersistFault) :
    let r := p.submitAtomic now msg item opts fault
    (r.1.err ≠ none → r.2.mem = p.mem.sweepLocked now) ↔
      ¬(p.mem.Accepts now opts ∧ ∃ f, fault = some f ∧ f.hits p.dir) := by
  obtain ⟨hreply, hmem⟩ := p.submitAtomic_eq_call now msg item opts fault
  simp only [hreply, hmem, FileStore.call, StoreOp.exec, StoreOp.reply]
  have hfault : (fault.filter (·.hits p.dir)).isNone = true ↔ ¬∃ f, fault = some f ∧ f.hits p.dir := by
    cases fault <;> simp
  cases p.mem.submitAtomic_cases now msg item opts
  case duplicate live eq =>
    simp [eq, Except.map, StoreReply.persists, MemoryStore.Accepts, live]
  case refused debit eq =>
    simp [eq, Except.map, MemoryStore.Accepts, debit]
  case accepted d fresh debit eq =>
    have haccepts : p.mem.Accepts now opts := ⟨fresh, d, debit⟩
    simp only [haccepts, true_and, ← hfault]
    rw [eq]
    simp only [Except.map, StoreReply.persists]
    cases (fault.filter (·.hits p.dir)).isNone
    case true => simp
    case false =>
      simp only [Bool.not_false, Bool.not_true, Bool.false_eq_true, if_false, iff_false]
      intro h
      have hnext := congrArg MemoryStore.nextOutbox (h (by simp))
      simp only [MemoryStore.putOutbox, MemoryStore.putMessage_nextOutbox, MemoryStore.rememberKey_nextOutbox,
        (MemoryStore.debitQuota_outbox debit).2, MemoryStore.sweepLocked_nextOutbox] at hnext
      omega

-- The disk is full. The caller is told that the submission failed; the row is claimed, the message is there, a
-- repetition is answered as a duplicate, and the quota is used up.
theorem submit_error_leaves_row :
    let item : OutboxItem := { gatewayID := lit "m1", payload := { gatewayID := lit "m1" } }
    let quota : DailyQuotaDebit := { tenantID := lit "t", date := lit "2026-01-01", segments := 1, limit := 1 }
    let once : SubmitOptions := { idempotency := { clientID := lit "c", key := lit "k" }, quota }
    let p : FileProcess := ⟨newMemory, {}⟩
    let r := p.submitAtomic 1 { id := lit "m1" } item once (some .temporary)
    r.1.err = some .persist ∧
    (r.2.mem.claimOutbox 2 (lit "w") 1).1.toOption.map (·.map (·.gatewayID)) = some [lit "m1"] ∧
    lit "m1" ∈ r.2.mem.messageByID ∧
    (r.2.mem.submitAtomic 2 { id := lit "m2" } item once).1 = .ok ⟨0, lit "m1", true⟩ ∧
    (r.2.mem.submitAtomic 2 { id := lit "m2" } item { quota }).1 = .error .quotaExceeded := by
  decide +kernel

end SmppGateway
