import SmppGateway.Smpp.Exchange

-- The submits of one bound session on their way through the reader of the session and the submit workers: the
-- submit branch of `dispatch` in `internal/smpp/session.go` and `onSubmit` of `cmd/mysmpp/main.go`, one step of
-- the machine for each step that other goroutines can see.

namespace SmppGateway

open Go Machine

open scoped List

inductive ReaderPlace
  | idle
  | counted (pdu : PDU) (exceeds : Bool)  -- the submit is counted; was it over the window?
  | handing (msg : SubmitSM)           -- `onSubmit` is called
  | refusing (seq status : UInt32)     -- the submit is no longer counted, the response is sent next
  deriving DecidableEq

inductive Job
  | queued (msg : SubmitSM)
  | running (msg : SubmitSM)
  | answering (seq status : UInt32) (body : Bytes)
  | completing
  | finished
  deriving DecidableEq

namespace Job

def waiting : Job → Bool
  | queued _ => true
  | _        => false

def active : Job → Bool
  | finished => false
  | _        => true

end Job

structure Intake where
  inflight : Int32 := 0
  place    : ReaderPlace := .idle
  jobs     : List Job := []     -- in the order in which they were queued
  received : List UInt32 := []  -- the sequence numbers of all submits that were read
  sent     : List PDU := []
  dropped  : List PDU := []     -- what `Send` gave up because the session was closed
  closed   : Bool := false

inductive IntakeEvent
  | submit (pdu : PDU)                               -- the reader reads a submit_sm and counts it
  | reader (others : Nat)                            -- its next step; the queued jobs of other sessions
  | worker (i : Nat) (result : Except UInt32 Str)    -- the next step of a job; the status or the gateway id
  | close

def submitResp (seq status : UInt32) (body : Bytes := []) : PDU where
  commandID  := commandSubmitSMResp
  status     := status
  sequenceID := seq
  body       := body

-- How many jobs `submitJobs` can hold, for all sessions together.
def submitJobsCap (maxSessions windowSize : Int) : Nat :=
  (max 1 (maxSessions * max 1 windowSize)).toNat

namespace Intake

variable (cfg : SessionConfig) (cap : Nat) (d : Intake)

def send (resp : PDU) : Intake :=
  if d.closed then { d with dropped := d.dropped ++ [resp] } else { d with sent := d.sent ++ [resp] }

def full (others : Nat) : Bool :=
  cap ≤ d.jobs.countP Job.waiting + others

def reader (others : Nat) : Intake :=
  match d.place with
  | .idle                => d
  | .counted pdu true    => { d with
      inflight := d.inflight - 1
      place    := .refusing pdu.sequenceID statusThrottled }
  | .counted pdu false   =>
    match parseSubmitSM pdu with
    | .error _ => { d with inflight := d.inflight - 1, place := .refusing pdu.sequenceID statusInvalidCmd }
    | .ok msg  => { d with place := .handing msg }
  | .handing msg         =>
    if d.full cap others then
      { d with inflight := d.inflight - 1, place := .refusing msg.sequenceID statusThrottled }
    else
      { d with place := .idle, jobs := d.jobs ++ [.queued msg] }
  | .refusing seq status => { d.send (submitResp seq status) with place := .idle }

def worker (i : Nat) (result : Except UInt32 Str) : Intake :=
  match d.jobs[i]? with
  | none                               => d
  | some (.queued msg)                 => { d with jobs := d.jobs.set i (.running msg) }
  | some (.running msg)                => { d with
      jobs := d.jobs.set i (match result with
        | .error status => .answering msg.sequenceID status []
        | .ok gatewayID => .answering msg.sequenceID statusOK (cString gatewayID)) }
  | some (.answering seq status body)  => { d.send (submitResp seq status body) with jobs := d.jobs.set i .completing }
  | some .completing                   => { d with inflight := d.inflight - 1, jobs := d.jobs.set i .finished }
  | some .finished                     => d

def step : IntakeEvent → Intake
  | .submit pdu      =>
    if d.place = .idle then
      { d with
        inflight := d.inflight + 1
        place    := .counted pdu (Session.windowSize cfg < d.inflight + 1)
        received := d.received ++ [pdu.sequenceID] }
    else
      d
  | .reader others   => d.reader cap others
  | .worker i result => d.worker i result
  | .close           => { d with closed := true }

end Intake

-- Without a step of a worker in between, the steps of the reader are the submit branch of `dispatch` and `onSubmit`.
theorem Intake.reader_uninterrupted (cfg : SessionConfig) (cap : Nat) {s : Session} {d : Intake} (others : Nat)
    (pdu : PDU) (hbind : s.bindMode.canSubmit) (hhandler : cfg.onSubmit) (hin : d.inflight = s.inflight)
    (hp : d.place = .idle) (hopen : d.closed = false) :
    run (Intake.step cfg cap) d [.submit pdu, .reader others, .reader others, .reader others] = { d with
      inflight := if d.full cap others then s.inflight else (s.handleSubmit cfg pdu).1.inflight
      received := d.received ++ [pdu.sequenceID]
      sent     := d.sent ++ (s.handleSubmit cfg pdu).2.flatMap (Effect.sent (d.full cap others))
      jobs     := d.jobs ++ ((s.handleSubmit cfg pdu).2.flatMap (Effect.queued (d.full cap others))).map .queued } := by
  unfold Session.handleSubmit
  by_cases hover : Session.windowSize cfg < s.inflight + 1
  case pos =>
    simp [Intake.step, reader, send, hp, hin, hbind, hover, hopen, submitResp, PDU.response, Effect.sent,
      Effect.queued]
  case neg =>
    cases hparse : parseSubmitSM pdu
    case error =>
      simp [Intake.step, reader, send, hp, hin, hbind, hover, hopen, hparse, submitResp, PDU.response, Effect.sent,
        Effect.queued]
    case ok msg =>
      cases hfull : d.full cap others
      all_goals
        unfold full at hfull
        simp [Intake.step, reader, send, full, hfull, hp, hin, hbind, hover, hopen, hparse, hhandler, submitResp,
          Effect.sent, Effect.queued]

def ReaderPlace.owed : ReaderPlace → List UInt32
  | .idle           => []
  | .counted pdu _  => [pdu.sequenceID]
  | .handing msg    => [msg.sequenceID]
  | .refusing seq _ => [seq]

def Job.owed : Job → List UInt32
  | .queued msg            => [msg.sequenceID]
  | .running msg           => [msg.sequenceID]
  | .answering seq _ _     => [seq]
  | .completing | .finished => []

def Intake.owed (d : Intake) : List UInt32 :=
  d.place.owed ++ d.jobs.flatMap Job.owed

-- The steps that are left until the response is sent or the submit is handed over.
def ReaderPlace.left : ReaderPlace → Nat
  | .idle         => 0
  | .refusing _ _ => 1
  | .handing _    => 2
  | .counted _ _  => 3

def Job.left : Job → Nat
  | .queued _               => 3
  | .running _              => 2
  | .answering _ _ _        => 1
  | .completing | .finished => 0

def ReaderPlace.holds : ReaderPlace → Bool
  | .counted _ _ => true
  | .handing _   => true
  | _            => false

def ReaderPlace.admitted : ReaderPlace → Bool
  | .counted _ exceeds => !exceeds
  | .handing _         => true
  | _                  => false

def IntakeEvent.reads : IntakeEvent → Bool
  | .reader _ => true
  | _         => false

def IntakeEvent.works (i : Nat) : IntakeEvent → Bool
  | .worker j _ => j = i
  | _           => false

def Intake.active (d : Intake) : Nat :=
  d.jobs.countP Job.active

-- Everything that is received is answered once: by what is sent, what a closed session gave up and what is owed.
structure Intake.Answered (d : Intake) : Prop where
  responses : ∀ resp ∈ d.sent, resp.commandID = commandSubmitSMResp
  balance   : ((d.sent ++ d.dropped).map (·.sequenceID) ++ d.owed).Perm d.received
  kept      : d.closed = false → d.dropped = []

structure Intake.Counted (cfg : SessionConfig) (d : Intake) : Prop where
  inflight : d.inflight.toInt = d.active + if d.place.holds then 1 else 0
  room     : d.place.admitted → d.active + 1 ≤ (Session.windowSize cfg).toInt
  window   : d.active ≤ (Session.windowSize cfg).toInt

def Intake.AnsweredSince (d : Intake) (n : Nat) (seq : UInt32) : Prop :=
  ∃ resp ∈ d.sent.drop n, resp.sequenceID = seq

-- Whatever else happens while the session is open: three steps of a job answer its submit, and three steps of the
-- reader and then three of the job that it may have become answer the submit that the reader has in hand.
structure Intake.Progress (cfg : SessionConfig) (cap : Nat) (d : Intake) : Prop where
  job    : ∀ i job es, d.jobs[i]? = some job → .close ∉ es → 3 ≤ es.countP (·.works i) →
    ∀ seq ∈ job.owed, (run (Intake.step cfg cap) d es).AnsweredSince d.sent.length seq
  reader : ∀ es es', .close ∉ es ++ es' → 3 ≤ es.countP (·.reads) → 3 ≤ es'.countP (·.works d.jobs.length) →
    ∀ seq ∈ d.place.owed, (run (Intake.step cfg cap) d (es ++ es')).AnsweredSince d.sent.length seq

theorem sequenceID_of_parseSubmitSM {pdu : PDU} {msg : SubmitSM} (h : parseSubmitSM pdu = .ok msg) :
    msg.sequenceID = pdu.sequenceID := by
  obtain ⟨f, rest, tlvs, _, _, hf⟩ := parseSubmitSM_eq_ok.mp h
  obtain ⟨udh, body, concat, _, rfl⟩ := finishSubmit_eq_ok.mp hf
  rfl

namespace Intake

variable {cfg : SessionConfig} {cap : Nat} {d d' : Intake} {inflight : Int32} {place : ReaderPlace} {jobs : List Job}

@[simp]
theorem send_jobs {resp : PDU} : (d.send resp).jobs = d.jobs := by
  unfold send
  split <;> rfl

@[simp]
theorem send_place {resp : PDU} : (d.send resp).place = d.place := by
  unfold send
  split <;> rfl

@[simp]
theorem send_inflight {resp : PDU} : (d.send resp).inflight = d.inflight := by
  unfold send
  split <;> rfl

inductive Reads (d : Intake) : Intake → Prop
  | rests (idle : d.place = .idle) : Reads d d
  | hands {pdu : PDU} {msg : SubmitSM} (counted : d.place = .counted pdu false) (seq : msg.sequenceID = pdu.sequenceID) :
    Reads d { d with place := .handing msg }
  | refuses {seq status : UInt32} (holds : d.place.holds) (owed : d.place.owed = [seq]) :
    Reads d { d with inflight := d.inflight - 1, place := .refusing seq status }
  | queues {msg : SubmitSM} (handing : d.place = .handing msg) :
    Reads d { d with place := .idle, jobs := d.jobs ++ [.queued msg] }
  | answers {seq status : UInt32} (refusing : d.place = .refusing seq status) :
    Reads d { d.send (submitResp seq status) with place := .idle }

theorem reads_reader (cap : Nat) (d : Intake) (others : Nat) : d.Reads (d.reader cap others) := by
  unfold reader
  split
  case h_1 hp => exact .rests hp
  case h_2 pdu hp => exact .refuses (by rw [hp]; rfl) (by rw [hp]; rfl)
  case h_3 pdu hp =>
    split
    case h_1 => exact .refuses (by rw [hp]; rfl) (by rw [hp]; rfl)
    case h_2 msg hparse => exact .hands hp (sequenceID_of_parseSubmitSM hparse)
  case h_4 msg hp =>
    split
    case isTrue => exact .refuses (by rw [hp]; rfl) (by rw [hp]; rfl)
    case isFalse => exact .queues hp
  case h_5 seq status hp => exact .answers hp

inductive Works (d : Intake) (i : Nat) : Intake → Prop
  | rests (done : ∀ job, d.jobs[i]? = some job → job.left = 0) : Works d i d
  | goesOn {job job' : Job} (found : d.jobs[i]? = some job) (owed : job'.owed = job.owed)
      (left : job.left = job'.left + 1) (active : job.active) (active' : job'.active) :
    Works d i { d with jobs := d.jobs.set i job' }
  | answers {seq status : UInt32} {body : Bytes} (found : d.jobs[i]? = some (.answering seq status body)) :
    Works d i { d.send (submitResp seq status body) with jobs := d.jobs.set i .completing }
  | completes (found : d.jobs[i]? = some .completing) :
    Works d i { d with inflight := d.inflight - 1, jobs := d.jobs.set i .finished }

theorem works_worker (d : Intake) (i : Nat) (result : Except UInt32 Str) : d.Works i (d.worker i result) := by
  unfold worker
  split
  case h_1 hi => exact .rests fun job hj => by cases hi.symm.trans hj
  case h_2 msg hi => exact .goesOn hi rfl rfl rfl rfl
  case h_3 msg hi => cases result <;> exact .goesOn hi rfl rfl rfl rfl
  case h_4 seq status body hi => exact .answers hi
  case h_5 hi => exact .completes hi
  case h_6 hi => exact .rests fun job hj => by cases hi.symm.trans hj; rfl

theorem Answered.move (h : d.Answered) (ho : (place.owed ++ jobs.flatMap Job.owed).Perm d.owed) :
    Answered { d with inflight, place, jobs } :=
  ⟨h.responses, (ho.append_left _).trans h.balance, h.kept⟩

theorem Answered.send {seq status : UInt32} {body : Bytes} (h : d.Answered)
    (ho : (seq :: (place.owed ++ jobs.flatMap Job.owed)).Perm d.owed) :
    Answered { d.send (submitResp seq status body) with inflight, place, jobs } := by
  have hb : ((d.sent ++ d.dropped).map (·.sequenceID) ++ seq :: (place.owed ++ jobs.flatMap Job.owed)).Perm
      d.received := (ho.append_left _).trans h.balance
  unfold Intake.send
  cases hc : d.closed
  case true =>
    refine ⟨h.responses, ?_, nofun⟩
    simpa [owed, submitResp] using hb
  case false =>
    refine ⟨List.forall_mem_append.mpr ⟨h.responses, by simp [submitResp]⟩, ?_, fun _ => h.kept hc⟩
    have hd := h.kept hc
    simp only [hd, List.append_nil] at hb ⊢
    simpa [owed, submitResp] using hb

theorem Answered.reads (h : d.Answered) (hr : d.Reads d') : d'.Answered := by
  cases hr
  case rests => exact h
  case hands counted seq => exact h.move (by rw [owed, counted, ReaderPlace.owed, ReaderPlace.owed, seq])
  case refuses holds howed => exact h.move (by rw [owed, howed]; rfl)
  case queues msg handing =>
    refine h.move ?_
    rw [owed, handing, List.flatMap_append]
    exact List.perm_append_singleton msg.sequenceID _
  case answers seq status refusing => exact h.send (by rw [owed, refusing, send_jobs]; rfl)

theorem Answered.works {i : Nat} (h : d.Answered) (hw : d.Works i d') : d'.Answered := by
  cases hw
  case rests => exact h
  case goesOn job job' found howed left active active' =>
    refine h.move ?_
    rw [owed, List.flatMap_def, List.flatMap_def, map_set_eq found howed]
  case answers seq status body found =>
    refine h.send ?_
    have hset := flatMap_set_perm Job.owed found .completing
    rw [send_place, owed]
    calc seq :: (d.place.owed ++ (d.jobs.set i .completing).flatMap Job.owed)
      _ ~ d.place.owed ++ seq :: (d.jobs.set i .completing).flatMap Job.owed := List.perm_middle.symm
      _ ~ d.place.owed ++ ((d.jobs.set i .completing).flatMap Job.owed ++ [seq]) :=
        (List.perm_append_singleton seq _).symm.append_left _
      _ ~ d.place.owed ++ (d.jobs.flatMap Job.owed ++ []) := hset.append_left _
      _ = d.place.owed ++ d.jobs.flatMap Job.owed := by rw [List.append_nil]
  case completes found =>
    refine h.move ?_
    rw [owed, List.flatMap_def, List.flatMap_def, map_set_eq (a := Job.finished) (f := Job.owed) found rfl]

theorem Answered.step (h : d.Answered) (e : IntakeEvent) : (d.step cfg cap e).Answered := by
  cases e
  case submit pdu =>
    simp only [Intake.step]
    split
    case isTrue hp =>
      refine ⟨h.responses, ?_, h.kept⟩
      have hb := h.balance.cons pdu.sequenceID
      simp only [owed, hp, ReaderPlace.owed, List.nil_append, List.singleton_append] at hb ⊢
      exact (List.perm_middle.trans hb).trans (List.perm_append_singleton _ _).symm
    case isFalse => exact h
  case reader others => exact h.reads (reads_reader cap d others)
  case worker i result => exact h.works (works_worker d i result)
  case close => exact ⟨h.responses, h.balance, nofun⟩

theorem toInt_add_one {a : Int32} (h : a.toInt < 2147483647) : (a + 1).toInt = a.toInt + 1 := by
  have hlo := a.le_toInt
  rw [Int32.toInt_add, Int32.toInt_one, Int.bmod_eq_of_le] <;> omega

theorem toInt_sub_one {a : Int32} (h : 0 < a.toInt) : (a - 1).toInt = a.toInt - 1 := by
  have hhi := a.toInt_lt
  rw [Int32.toInt_sub, Int32.toInt_one, Int.bmod_eq_of_le] <;> omega

theorem Counted.reads (h : d.Counted cfg) (hr : d.Reads d') : d'.Counted cfg := by
  obtain ⟨hin, hroom, hwin⟩ := h
  cases hr
  case rests => exact ⟨hin, hroom, hwin⟩
  case hands counted _ =>
    rw [counted] at hin hroom
    exact ⟨hin, fun _ => hroom rfl, hwin⟩
  case refuses holds _ =>
    rw [if_pos holds] at hin
    refine ⟨?_, nofun, hwin⟩
    rw [toInt_sub_one (by omega), hin]
    simp [ReaderPlace.holds, active]
  case queues msg handing =>
    rw [handing] at hin hroom
    unfold active at hin hroom
    refine ⟨?_, nofun, ?_⟩
    all_goals simp only [active, List.countP_append, List.countP_singleton, Job.active]
    case refine_1 => simpa [ReaderPlace.holds] using hin
    case refine_2 => simpa using hroom rfl
  case answers refusing =>
    rw [refusing] at hin
    exact ⟨by simpa [ReaderPlace.holds, active] using hin, nofun, by simpa [active] using hwin⟩

theorem Counted.congr (h : d.Counted cfg) (hin : d'.inflight = d.inflight) (hplace : d'.place = d.place)
    (hactive : d'.active = d.active) : d'.Counted cfg := by
  refine ⟨?_, ?_, ?_⟩ <;> rw [hactive]
  case refine_1 => rw [hin, hplace, h.inflight]
  case refine_2 => rw [hplace]; exact h.room
  case refine_3 => exact h.window

theorem Counted.works {i : Nat} (h : d.Counted cfg) (hw : d.Works i d') : d'.Counted cfg := by
  cases hw
  case rests => exact h
  case goesOn job job' found _ _ hactive hactive' =>
    exact h.congr rfl rfl (by simpa [Intake.active, hactive, hactive'] using countP_set Job.active found job')
  case answers found =>
    exact h.congr send_inflight send_place (by
      simpa [Intake.active, Job.active] using countP_set Job.active found .completing)
  case completes found =>
    obtain ⟨hin, hroom, hwin⟩ := h
    unfold active at hin hroom hwin
    have hless : (d.jobs.set i .finished).countP Job.active + 1 = d.jobs.countP Job.active := by
      simpa [Job.active] using countP_set Job.active found .finished
    have hpos : 0 < d.inflight.toInt := by
      rw [hin]
      split <;> omega
    refine ⟨?_, fun ha => ?_, ?_⟩
    all_goals simp only [active]
    case refine_1 =>
      rw [toInt_sub_one hpos, hin]
      split <;> omega
    case refine_2 =>
      have := hroom ha
      omega
    case refine_3 => omega

theorem Counted.step (hW : (Session.windowSize cfg).toInt < 2147483647) (h : d.Counted cfg) (e : IntakeEvent) :
    (d.step cfg cap e).Counted cfg := by
  cases e
  case submit pdu =>
    simp only [Intake.step]
    split
    case isTrue hp =>
      have hin := h.inflight
      have hwin := h.window
      simp only [hp, ReaderPlace.holds, Bool.false_eq_true, if_false] at hin
      have hadd := toInt_add_one (a := d.inflight) (by omega)
      refine ⟨?_, fun hover => ?_, hwin⟩
      case refine_1 =>
        simp only [ReaderPlace.holds, if_true, hadd, hin]
        simp [active]
      case refine_2 =>
        simp only [ReaderPlace.admitted, Bool.not_eq_true', decide_eq_false_iff_not, Int32.lt_iff_toInt_lt] at hover
        simp only [active] at hin ⊢
        omega
    case isFalse => exact h
  case reader others => exact h.reads (reads_reader cap d others)
  case worker i result => exact h.works (works_worker d i result)
  case close => exact ⟨h.inflight, h.room, h.window⟩

theorem Counted.settled (h : d.Counted cfg) (hp : d.place = .idle) (hj : ∀ job ∈ d.jobs, job = .finished) :
    d.inflight = 0 ∧ d.owed = [] := by
  have hactive : d.active = 0 := List.countP_eq_zero.mpr fun job hm => by rw [hj job hm]; decide
  have hin := h.inflight
  rw [hp, hactive] at hin
  refine ⟨Int32.toInt_inj.mp hin, ?_⟩
  rw [owed, hp, List.flatMap_eq_nil_iff.mpr fun job hm => by rw [hj job hm]; rfl]
  rfl

theorem AnsweredSince.append {n : Nat} {seq : UInt32} (h : d.AnsweredSince n seq) (hsent : d.sent <+: d'.sent) :
    d'.AnsweredSince n seq := by
  obtain ⟨resp, hm, hseq⟩ := h
  obtain ⟨more, hmore⟩ := hsent
  refine ⟨resp, ?_, hseq⟩
  rw [← hmore, List.drop_append]
  exact List.mem_append_left _ hm

-- The submit is answered, or its job has at most `l` steps left, or the reader that has it in hand at most `k`.
structure Due (n i : Nat) (seq : UInt32) (k l : Nat) (d : Intake) : Prop where
  opened : d.closed = false
  sent   : n ≤ d.sent.length
  due    : d.AnsweredSince n seq ∨ (∃ job, d.jobs[i]? = some job ∧ seq ∈ job.owed ∧ job.left ≤ l) ∨
    (d.jobs.length = i ∧ seq ∈ d.place.owed ∧ d.place.left ≤ k)

theorem Works.frame {i : Nat} (hw : d.Works i d') :
    d'.closed = d.closed ∧ d'.place = d.place ∧ d'.jobs.length = d.jobs.length ∧ d.sent <+: d'.sent ∧
      ∀ j ≠ i, d'.jobs[j]? = d.jobs[j]? := by
  have hset {job : Job} : ∀ j ≠ i, (d.jobs.set i job)[j]? = d.jobs[j]? := fun j hj => List.getElem?_set_ne hj.symm
  cases hw
  case rests => exact ⟨rfl, rfl, rfl, List.prefix_rfl, fun _ _ => rfl⟩
  case answers =>
    refine ⟨?_, send_place, List.length_set, ?_, hset⟩ <;> unfold send <;> split
    case refine_1.isTrue | refine_1.isFalse => rfl
    case refine_2.isTrue => exact List.prefix_rfl
    case refine_2.isFalse => exact List.prefix_append _ _
  case goesOn | completes => exact ⟨rfl, rfl, List.length_set, List.prefix_rfl, hset⟩

theorem send_opened (hopen : d.closed = false) (resp : PDU) : d.send resp = { d with sent := d.sent ++ [resp] } := by
  simp [send, hopen]

namespace Due

variable {n i k l : Nat} {seq : UInt32}

theorem mono {l' : Nat} (h : d.Due n i seq k l) (hl : l ≤ l') : d.Due n i seq k l' := by
  refine ⟨h.opened, h.sent, ?_⟩
  rcases h.due with ha | ⟨job, hi, hm, hleft⟩ | hheld
  case inl => exact .inl ha
  case inr.inl => exact .inr (.inl ⟨job, hi, hm, Nat.le_trans hleft hl⟩)
  case inr.inr => exact .inr (.inr hheld)

theorem answered (h : d.Due n i seq 0 0) : d.AnsweredSince n seq := by
  rcases h.due with ha | ⟨job, -, hm, hleft⟩ | ⟨-, hm, hleft⟩
  case inl => exact ha
  case inr.inl => cases job <;> simp_all [Job.owed, Job.left]
  case inr.inr => cases hp : d.place <;> simp_all [ReaderPlace.owed, ReaderPlace.left]

theorem sends {status : UInt32} {body : Bytes} (hn : n ≤ d.sent.length) :
    AnsweredSince { d with sent := d.sent ++ [submitResp seq status body], inflight, place, jobs } n seq := by
  refine ⟨submitResp seq status body, ?_, rfl⟩
  rw [List.drop_append_of_le_length hn]
  exact List.mem_append_right _ (List.mem_singleton.mpr rfl)

theorem reads (h : d.Due n i seq k l) (hl : k = 0 ∨ 3 ≤ l) (hr : d.Reads d') : d'.Due n i seq (k - 1) l := by
  obtain ⟨hopen, hn, hdue⟩ := h
  cases hr
  case rests idle =>
    refine ⟨hopen, hn, ?_⟩
    rcases hdue with ha | hjob | ⟨-, hm, -⟩
    case inl => exact .inl ha
    case inr.inl => exact .inr (.inl hjob)
    case inr.inr => rw [idle] at hm; cases hm
  case hands pdu msg counted hseq =>
    refine ⟨hopen, hn, hdue.imp_right fun hdue => hdue.imp_right fun ⟨hlen, hm, hleft⟩ => ⟨hlen, ?_, ?_⟩⟩
    all_goals rw [counted] at hm hleft
    case refine_1 => simpa [ReaderPlace.owed, hseq] using hm
    case refine_2 => exact Nat.le_sub_of_add_le hleft
  case refuses s' status holds howed =>
    rw [howed] at hdue
    refine ⟨hopen, hn, hdue.imp_right fun hdue => hdue.imp_right fun ⟨hlen, hm, hleft⟩ => ⟨hlen, hm, ?_⟩⟩
    have htwo : 2 ≤ d.place.left := by cases hp : d.place <;> simp_all [ReaderPlace.holds, ReaderPlace.left]
    simp only [ReaderPlace.left]
    omega
  case queues msg handing =>
    refine ⟨hopen, hn, hdue.imp_right fun hdue => .inl ?_⟩
    rcases hdue with ⟨job, hi, hm, hleft⟩ | ⟨rfl, hm, hleft⟩
    case inl =>
      have hlt := (List.getElem?_eq_some_iff.mp hi).1
      exact ⟨job, by rw [List.getElem?_append_left hlt, hi], hm, hleft⟩
    case inr =>
      rw [handing] at hm hleft
      refine ⟨.queued msg, List.getElem?_concat_length, hm, ?_⟩
      rcases hl with rfl | hl
      case inl => exact absurd hleft (by simp [ReaderPlace.left])
      case inr => exact hl
  case answers s' status refusing =>
    rw [send_opened hopen]
    refine ⟨hopen, Nat.le_trans hn (by simp), ?_⟩
    rcases hdue with ha | hjob | ⟨hlen, hm, hleft⟩
    case inl => exact .inl (ha.append (List.prefix_append _ _))
    case inr.inl => exact .inr (.inl hjob)
    case inr.inr =>
      rw [refusing] at hm
      cases List.mem_singleton.mp hm
      exact .inl (sends hn)

theorem works {j : Nat} (h : d.Due n i seq k l) (hw : d.Works j d') :
    d'.Due n i seq k (l - if j = i then 1 else 0) := by
  obtain ⟨hclosed, hplace, hlength, hsent, hothers⟩ := hw.frame
  refine ⟨hclosed.trans h.opened, Nat.le_trans h.sent hsent.length_le, ?_⟩
  rcases h.due with ha | ⟨job, hi, hm, hleft⟩ | hheld
  case inl => exact .inl (ha.append hsent)
  case inr.inr => exact .inr (.inr (by rwa [hplace, hlength]))
  case inr.inl =>
    by_cases hji : j = i
    case neg =>
      rw [if_neg hji]
      exact .inr (.inl ⟨job, (hothers i (Ne.symm hji)).trans hi, hm, hleft⟩)
    case pos =>
      subst hji
      rw [if_pos rfl]
      cases hw
      case rests done => exact .inr (.inl ⟨job, hi, hm, by rw [done job hi]; exact Nat.zero_le _⟩)
      case goesOn job' found howed left _ _ =>
        cases found.symm.trans hi
        refine .inr (.inl ⟨job', List.getElem?_set_self (List.getElem?_eq_some_iff.mp hi).1, howed ▸ hm, ?_⟩)
        omega
      case answers found =>
        cases found.symm.trans hi
        cases List.mem_singleton.mp hm
        rw [send_opened h.opened]
        exact .inl (sends h.sent)
      case completes found => cases found.symm.trans hi; cases hm

theorem submits (h : d.Due n i seq k l) (pdu : PDU) : (d.step cfg cap (.submit pdu)).Due n i seq k l := by
  simp only [Intake.step]
  split
  case isFalse => exact h
  case isTrue hp =>
    refine ⟨h.opened, h.sent, h.due.imp_right fun hdue => hdue.imp_right fun ⟨_, hm, _⟩ => ?_⟩
    rw [hp] at hm
    cases hm

theorem run_reads (cfg : SessionConfig) (cap : Nat) {es : List IntakeEvent} (h : d.Due n i seq k 3) (hes : .close ∉ es) :
    (run (Intake.step cfg cap) d es).Due n i seq (k - es.countP (·.reads)) 3 := by
  refine countdown (Q := fun k (d : Intake) => d.Due n i seq k 3) (G := fun _ e => e ≠ IntakeEvent.close)
    IntakeEvent.reads h (.of_forall fun _ e he heq => hes (heq ▸ he)) fun k d e h hne => ?_
  cases e
  case submit pdu => exact h.submits pdu
  case reader others => exact h.reads (.inr (Nat.le_refl 3)) (reads_reader cap d others)
  case worker j result => exact (h.works (works_worker d j result)).mono (Nat.sub_le _ _)
  case close => exact absurd rfl hne

theorem run_works (cfg : SessionConfig) (cap : Nat) {es : List IntakeEvent} (h : d.Due n i seq 0 l) (hes : .close ∉ es) :
    (run (Intake.step cfg cap) d es).Due n i seq 0 (l - es.countP (·.works i)) := by
  refine countdown (Q := fun l (d : Intake) => d.Due n i seq 0 l) (G := fun _ e => e ≠ IntakeEvent.close)
    (IntakeEvent.works i) h (.of_forall fun _ e he heq => hes (heq ▸ he)) fun l d e h hne => ?_
  cases e
  case submit pdu => exact h.submits pdu
  case reader others => exact h.reads (.inl rfl) (reads_reader cap d others)
  case worker j result => simpa [IntakeEvent.works, Intake.step] using h.works (works_worker d j result)
  case close => exact absurd rfl hne

end Due

theorem progress (cfg : SessionConfig) (cap : Nat) (hopen : d.closed = false) : d.Progress cfg cap where
  job i job es hi hes hsteps seq hm := by
    have hleft : job.left ≤ 3 := by cases job <;> simp [Job.left]
    have hdue : d.Due d.sent.length i seq 0 3 := ⟨hopen, Nat.le_refl _, .inr (.inl ⟨job, hi, hm, hleft⟩)⟩
    have hrun := hdue.run_works cfg cap hes
    rw [Nat.sub_eq_zero_of_le hsteps] at hrun
    exact hrun.answered
  reader es es' hes hsteps hsteps' seq hm := by
    have hleft : d.place.left ≤ 3 := by cases d.place <;> simp [ReaderPlace.left]
    have hdue : d.Due d.sent.length d.jobs.length seq 3 3 := ⟨hopen, Nat.le_refl _, .inr (.inr ⟨rfl, hm, hleft⟩)⟩
    obtain ⟨hes, hes'⟩ := not_or.mp (mt List.mem_append.mpr hes)
    have hhanded := hdue.run_reads cfg cap hes
    rw [Nat.sub_eq_zero_of_le hsteps] at hhanded
    have hrun := hhanded.run_works cfg cap hes'
    rw [Nat.sub_eq_zero_of_le hsteps', ← run_append] at hrun
    exact hrun.answered

-- The window holds at most its size, every submit is answered once while the session is open, and nothing stays
-- counted when nothing is left to do.
structure Good (cfg : SessionConfig) (cap : Nat) (d : Intake) : Prop where
  answered : d.Answered
  window   : d.active ≤ (Session.windowSize cfg).toInt
  settled  : d.place = .idle → (∀ job ∈ d.jobs, job = .finished) → d.inflight = 0 ∧ d.owed = []
  progress : d.closed = false → d.Progress cfg cap

end Intake

theorem windowSize_pos (cfg : SessionConfig) : 0 < (Session.windowSize cfg).toInt := by
  unfold Session.windowSize
  split
  case isTrue => decide
  case isFalse h => simpa [Int32.le_iff_toInt_le] using h

theorem Intake.good_run {cfg : SessionConfig} {cap : Nat} (hW : (Session.windowSize cfg).toInt < 2147483647)
    (es : List IntakeEvent) : Always (Intake.step cfg cap) (Intake.Good cfg cap) {} es := by
  intro pre _
  have h : Along (Intake.step cfg cap) (fun _ _ => True) {} pre := Along.of_forall fun _ _ _ => trivial
  have hcounted : (run (Intake.step cfg cap) {} pre).Counted cfg :=
    invariant ⟨rfl, nofun, (windowSize_pos cfg).le⟩ h fun _ e hd _ => hd.step hW e
  have hanswered : (run (Intake.step cfg cap) {} pre).Answered :=
    invariant ⟨nofun, .refl _, fun _ => rfl⟩ h fun _ e hd _ => hd.step e
  exact ⟨hanswered, hcounted.window, hcounted.settled, Intake.progress cfg cap⟩

def sampleSubmit : PDU where
  commandID  := commandSubmitSM
  sequenceID := 1
  body       := cString [] ++ [1, 1] ++ cString [] ++ [1, 1] ++ cString (lit "1") ++ [0, 0, 0] ++ cString [] ++
    cString [] ++ [0, 0, 0, 0, 0]

theorem parse_sampleSubmit : ∃ msg, parseSubmitSM sampleSubmit = .ok msg := by
  have hok : (parseSubmitSM sampleSubmit).isOk := by decide +kernel
  cases h : parseSubmitSM sampleSubmit
  case ok msg => exact ⟨msg, rfl⟩
  case error => rw [h] at hok; cases hok

-- No counter is above the largest one: one job runs, and all further submits are queued as long as there is room.
theorem Intake.exists_jobs (cfg : SessionConfig) (hW : (Session.windowSize cfg).toInt = 2147483647) {cap n : Nat}
    (hpos : 0 < cap) (hn : n ≤ cap) :
    ∃ es, (run (Intake.step cfg cap) {} es).place = .idle ∧
      (run (Intake.step cfg cap) {} es).jobs.countP Job.waiting = n ∧ (run (Intake.step cfg cap) {} es).active = n + 1 := by
  obtain ⟨msg, hmsg⟩ := parse_sampleSubmit
  have hover (inflight : Int32) : ¬Session.windowSize cfg < inflight + 1 := by
    have := (inflight + 1).toInt_lt
    rw [Int32.lt_iff_toInt_lt]
    omega
  induction n
  case zero =>
    refine ⟨[.submit sampleSubmit, .reader 0, .reader 0, .worker 0 (.ok [])], ?_⟩
    have hfirst : ¬Session.windowSize cfg < 1 := hover 0
    have hroom : cap ≠ 0 := Nat.ne_of_gt hpos
    simp [Intake.step, Intake.reader, Intake.full, Intake.worker, Intake.active, hfirst, hmsg, hroom, Job.waiting,
      Job.active]
  case succ n hi =>
    obtain ⟨es, hp, hwaiting, hactive⟩ := hi (Nat.le_of_succ_le hn)
    refine ⟨es ++ [.submit sampleSubmit, .reader 0, .reader 0], ?_⟩
    rw [run_append]
    generalize run (Intake.step cfg cap) {} es = d at hp hwaiting hactive ⊢
    simp only [Intake.active] at hactive
    have hroom : ¬cap ≤ n := Nat.not_le_of_lt hn
    simp [Intake.step, Intake.reader, Intake.full, Intake.active, hp, hover, hmsg, hwaiting, hactive, hroom, Job.waiting,
      Job.active]

-- The window, the responses and the counter are right in every run if the window is not the largest one, and, where
-- the queue has room for a whole window, only then.
theorem intake_good_iff (cfg : SessionConfig) (cap : Nat) :
    ((Session.windowSize cfg).toInt < 2147483647 →
      ∀ es, Always (Intake.step cfg cap) (Intake.Good cfg cap) {} es) ∧
    ((Session.windowSize cfg).toInt ≤ cap →
      (∀ es, Always (Intake.step cfg cap) (Intake.Good cfg cap) {} es) → (Session.windowSize cfg).toInt < 2147483647) := by
  refine ⟨fun hW es => Intake.good_run hW es, fun hcap h => ?_⟩
  by_contra hW
  have hmax := (Session.windowSize cfg).toInt_lt
  have hW : (Session.windowSize cfg).toInt = 2147483647 := by omega
  obtain ⟨es, _, _, hactive⟩ := Intake.exists_jobs cfg hW (n := 2147483647) (by omega : 0 < cap) (by omega)
  have := (h es es (List.prefix_refl es)).window
  omega

theorem largest_window_overflows :
    let cfg : SessionConfig := { ownSystemID := lit "gw", windowSize := 2147483647 }
    ∃ es, (Session.windowSize cfg).toInt < (run (Intake.step cfg (submitJobsCap 128 2147483647)) {} es).active := by
  intro cfg
  obtain ⟨es, _, _, hactive⟩ :=
    Intake.exists_jobs cfg rfl (n := 2147483647) (by decide : 0 < submitJobsCap 128 2147483647) (by decide)
  exact ⟨es, by rw [hactive]; decide⟩

end SmppGateway
