import SmppGateway.Gateway.Passthrough
import SmppGateway.Go.Digits
import SmppGateway.Go.Sha256
import SmppGateway.Smpp.Framing

-- The idempotency key of a submit_sm (`smppClientMsgID` in `cmd/mysmpp/main.go`). SHA-256 is a parameter, and so is the
-- random instance that a process chooses when it starts.

namespace SmppGateway

open Go Parse

def hexEncode (src : Bytes) : Str :=
  src.flatMap fun b => [digitByte (b.toNat / 16), digitByte (b.toNat % 16)]

def writeSMPPIdempotencyField (value : Bytes) : Bytes :=
  putUint32 (.ofNat value.length) ++ value

def smppIdempotencyFields (inst : Bytes) (sessionID systemID : Str) (submit : SubmitSM) : List Bytes :=
  [inst, sessionID, systemID, submit.sender, submit.dest, [submit.dataCoding], submit.udh, submit.payload] ++
    [tagSARMsgRefNum, tagSARTotalSegments, tagSARSegmentSeqnum].map fun tag => (findTLV submit.tlvs tag).getD []

def smppIdempotencyInput (inst : Bytes) (sessionID systemID : Str) (submit : SubmitSM) : Bytes :=
  (smppIdempotencyFields inst sessionID systemID submit).flatMap writeSMPPIdempotencyField

def smppClientMsgID (sha256 : Bytes → Bytes) (inst : Bytes) (sessionID systemID : Str) (submit : SubmitSM) : Str :=
  let sum := sha256 (smppIdempotencyInput inst sessionID systemID submit)
  lit "smpp:v2:" ++ systemID ++ lit ":" ++ hexEncode (sum.take 12) ++ lit ":" ++ hexEncode (putUint32 submit.sequenceID)

def readSMPPIdempotencyField : Reader UInt8 Bytes Unit
  | b₀ :: b₁ :: b₂ :: b₃ :: rest =>
    let size := (uint32 b₀ b₁ b₂ b₃).toNat
    if rest.length < size then .error () else .ok (rest.take size, rest.drop size)
  | _ => .error ()

theorem readSMPPIdempotencyField_consumes : Consumes readSMPPIdempotencyField := by
  intro l value rest h
  unfold readSMPPIdempotencyField at h
  split at h
  case h_1 b₀ b₁ b₂ b₃ l =>
    simp only at h
    split at h
    case isTrue => cases h
    case isFalse =>
      cases h
      simp only [List.length_drop, List.length_cons]
      omega
  case h_2 => cases h

theorem readSMPPIdempotencyField_header (size : UInt32) (body : Bytes) :
    readSMPPIdempotencyField (putUint32 size ++ body) =
      if body.length < size.toNat then .error () else .ok (body.take size.toNat, body.drop size.toNat) := by
  change readSMPPIdempotencyField (_ :: _ :: _ :: _ :: body) = _
  simp only [readSMPPIdempotencyField, uint32_putUint32]

theorem readSMPPIdempotencyField_write {value : Bytes} (h : value.length < 2 ^ 32) (rest : Bytes) :
    readSMPPIdempotencyField (writeSMPPIdempotencyField value ++ rest) = .ok (value, rest) := by
  have hsize : (UInt32.ofNat value.length).toNat = value.length := by
    rw [UInt32.toNat_ofNat', Nat.mod_eq_of_lt h]
  have hlt : ¬(value ++ rest).length < value.length := by simp
  rw [writeSMPPIdempotencyField, List.append_assoc, readSMPPIdempotencyField_header, hsize, if_neg hlt, List.take_left,
    List.drop_left]

theorem writeFields_inj {fields fields' : List Bytes} (h : ∀ f ∈ fields, f.length < 2 ^ 32)
    (h' : ∀ f ∈ fields', f.length < 2 ^ 32)
    (heq : fields.flatMap writeSMPPIdempotencyField = fields'.flatMap writeSMPPIdempotencyField) :
    fields = fields' := by
  have hread {fields : List Bytes} (h : ∀ f ∈ fields, f.length < 2 ^ 32) :
      many readSMPPIdempotencyField (fields.flatMap writeSMPPIdempotencyField) = .ok fields :=
    many_flatMap readSMPPIdempotencyField_consumes fun f hf rest => readSMPPIdempotencyField_write (h f hf) rest
  exact Except.ok.inj ((hread h).symm.trans (heq ▸ hread h'))

theorem digitByte_inj {d e : Nat} (hd : d < 16) (he : e < 16) (h : digitByte d = digitByte e) : d = e := by
  have hval := congrArg digitVal h
  rw [digitVal_digitByte (by omega), digitVal_digitByte (by omega)] at hval
  exact Option.some.inj hval

@[simp]
theorem length_hexEncode (src : Bytes) : (hexEncode src).length = 2 * src.length := by
  induction src
  case nil => rfl
  case cons b src hi =>
    rw [hexEncode] at hi ⊢
    rw [List.flatMap_cons, List.length_append, hi]
    simp
    omega

theorem hexEncode_inj {src src' : Bytes} (h : hexEncode src = hexEncode src') : src = src' := by
  induction src generalizing src'
  case nil =>
    cases src'
    case nil => rfl
    case cons => cases h
  case cons b src hi =>
    cases src'
    case nil => cases h
    case cons b' src' =>
      simp only [hexEncode, List.flatMap_cons, List.cons_append, List.nil_append, List.cons.injEq] at h
      obtain ⟨hhigh, hlow, hrest⟩ := h
      have hlt := b.toNat_lt
      have hlt' := b'.toNat_lt
      have hhigh := digitByte_inj (by omega) (by omega) hhigh
      have hlow := digitByte_inj (by omega) (by omega) hlow
      rw [hi hrest, UInt8.toNat_inj.mp (by omega : b.toNat = b'.toNat)]

theorem putUint32_inj {n n' : UInt32} (h : putUint32 n = putUint32 n') : n = n' := by
  simp only [putUint32, List.cons.injEq, and_true] at h
  obtain ⟨h₀, h₁, h₂, h₃⟩ := h
  rw [← uint32_putUint32 n, h₀, h₁, h₂, h₃, uint32_putUint32]

-- The sum and the sequence number are found from the end, where their lengths are known. What stands before them,
-- colons or not, does not matter.
theorem smppClientMsgID_ends {sha256 : Bytes → Bytes} (hlen : ∀ x, (sha256 x).length = 32) {inst : Bytes}
    {sessionID sessionID' systemID systemID' : Str} {sm sm' : SubmitSM}
    (h : smppClientMsgID sha256 inst sessionID systemID sm = smppClientMsgID sha256 inst sessionID' systemID' sm') :
    (sha256 (smppIdempotencyInput inst sessionID systemID sm)).take 12 =
      (sha256 (smppIdempotencyInput inst sessionID' systemID' sm')).take 12 ∧ sm.sequenceID = sm'.sequenceID := by
  obtain ⟨hfront, hseq⟩ := List.append_inj' h (by simp [putUint32])
  obtain ⟨hfront, -⟩ := List.append_inj' hfront rfl
  obtain ⟨-, hsum⟩ := List.append_inj' hfront (by simp [hlen])
  exact ⟨hexEncode_inj hsum, putUint32_inj (hexEncode_inj hseq)⟩

structure AcceptedSubmit where
  sessionID : Str
  systemID  : Str
  pdu       : PDU
  sm        : SubmitSM
  accepted  : parseSubmitSM pdu = .ok sm

namespace AcceptedSubmit

variable (inst : Bytes) (x y : AcceptedSubmit)

def fields : List Bytes :=
  smppIdempotencyFields inst x.sessionID x.systemID x.sm

def input : Bytes :=
  smppIdempotencyInput inst x.sessionID x.systemID x.sm

def clientMsgID (sha256 : Bytes → Bytes) : Str :=
  smppClientMsgID sha256 inst x.sessionID x.systemID x.sm

structure Same (x y : AcceptedSubmit) : Prop where
  sessionID   : x.sessionID = y.sessionID
  systemID    : x.systemID = y.systemID
  sender      : x.sm.sender = y.sm.sender
  dest        : x.sm.dest = y.sm.dest
  dataCoding  : x.sm.dataCoding = y.sm.dataCoding
  udh         : x.sm.udh = y.sm.udh
  payload     : x.sm.payload = y.sm.payload
  sarRef      : findTLV x.sm.tlvs tagSARMsgRefNum = findTLV y.sm.tlvs tagSARMsgRefNum
  sarTotal    : findTLV x.sm.tlvs tagSARTotalSegments = findTLV y.sm.tlvs tagSARTotalSegments
  sarPart     : findTLV x.sm.tlvs tagSARSegmentSeqnum = findTLV y.sm.tlvs tagSARSegmentSeqnum
  sequenceID  : x.sm.sequenceID = y.sm.sequenceID

variable {inst x y}

-- A parameter that is there and empty is never accepted, so that it cannot pass for one that is not there.
theorem sar_ne_empty (x : AcceptedSubmit) {tag : UInt16} (ht : isSARTag tag) : findTLV x.sm.tlvs tag ≠ some [] := by
  obtain ⟨udh, hparsed⟩ := parseSubmitSM_parsed x.accepted
  have hcontent := hparsed.content
  generalize x.sm.concat = concat at hcontent
  cases hcontent
  case udh noSAR => rw [findTLV_of_not_hasSAR noSAR ht]; simp
  case plain noSAR => rw [findTLV_of_not_hasSAR noSAR ht]; simp
  case sar info ref total part parsed href htotal hpart =>
    intro hempty
    unfold parseSAR at parsed
    rcases isSARTag_iff.mp ht with rfl | rfl | rfl <;> rw [hempty] at parsed <;> revert parsed <;> split <;> simp_all

theorem sar_inj {tag : UInt16} (ht : isSARTag tag)
    (h : (findTLV x.sm.tlvs tag).getD [] = (findTLV y.sm.tlvs tag).getD []) :
    findTLV x.sm.tlvs tag = findTLV y.sm.tlvs tag := by
  have hx := x.sar_ne_empty ht
  have hy := y.sar_ne_empty ht
  cases hfx : findTLV x.sm.tlvs tag <;> cases hfy : findTLV y.sm.tlvs tag <;> simp_all

theorem same_of_fields (h : x.fields inst = y.fields inst) (hseq : x.sm.sequenceID = y.sm.sequenceID) : x.Same y := by
  simp only [fields, smppIdempotencyFields, List.map_cons, List.map_nil, List.cons_append, List.nil_append,
    List.cons.injEq, and_true, true_and] at h
  obtain ⟨hsession, hsystem, hsender, hdest, hcoding, hudh, hpayload, href, htotal, hpart⟩ := h
  exact {
    sessionID  := hsession
    systemID   := hsystem
    sender     := hsender
    dest       := hdest
    dataCoding := hcoding
    udh        := hudh
    payload    := hpayload
    sarRef     := sar_inj (by decide) href
    sarTotal   := sar_inj (by decide) htotal
    sarPart    := sar_inj (by decide) hpart
    sequenceID := hseq }

theorem Same.fields_eq (h : x.Same y) : x.fields inst = y.fields inst := by
  simp [fields, smppIdempotencyFields, h.sessionID, h.systemID, h.sender, h.dest, h.dataCoding, h.udh, h.payload,
    h.sarRef, h.sarTotal, h.sarPart]

theorem Same.clientMsgID_eq (h : x.Same y) {sha256 : Bytes → Bytes} :
    x.clientMsgID inst sha256 = y.clientMsgID inst sha256 := by
  have hinput : smppIdempotencyInput inst x.sessionID x.systemID x.sm =
      smppIdempotencyInput inst y.sessionID y.systemID y.sm :=
    congrArg (List.flatMap writeSMPPIdempotencyField) h.fields_eq
  rw [clientMsgID, clientMsgID, smppClientMsgID, smppClientMsgID, hinput, h.systemID, h.sequenceID]

end AcceptedSubmit

-- The key is that of one submission only, and no shift of bytes from field to field keeps it.
theorem submission_key_iff {sha256 : Bytes → Bytes} (hlen : ∀ x, (sha256 x).length = 32) {inputs : Set Bytes}
    (hinj : Set.InjOn (fun x => (sha256 x).take 12) inputs) {inst : Bytes} {x y : AcceptedSubmit}
    (hx : x.input inst ∈ inputs) (hy : y.input inst ∈ inputs) (hsx : ∀ f ∈ x.fields inst, f.length < 2 ^ 32)
    (hsy : ∀ f ∈ y.fields inst, f.length < 2 ^ 32) :
    (x.clientMsgID inst sha256 = y.clientMsgID inst sha256 ↔ x.Same y) ∧
    ((x.fields inst).flatten = (y.fields inst).flatten → x.fields inst ≠ y.fields inst →
      x.clientMsgID inst sha256 ≠ y.clientMsgID inst sha256) := by
  have hfields (h : x.clientMsgID inst sha256 = y.clientMsgID inst sha256) :
      x.fields inst = y.fields inst ∧ x.sm.sequenceID = y.sm.sequenceID := by
    obtain ⟨hsum, hseq⟩ := smppClientMsgID_ends hlen h
    exact ⟨writeFields_inj hsx hsy (hinj hx hy hsum), hseq⟩
  refine ⟨⟨fun h => ?_, fun h => ?_⟩, fun _ hne h => hne (hfields h).1⟩
  case refine_1 => exact AcceptedSubmit.same_of_fields (hfields h).1 (hfields h).2
  case refine_2 => exact h.clientMsgID_eq

def shiftedBody (sender dest : String) : Bytes :=
  [0x00, 0x00, 0x00] ++ cString (lit sender) ++ [0x00, 0x00] ++ cString (lit dest) ++ List.replicate 10 0x00

def shifted (sender dest : String) : SubmitSM where
  sequenceID           := 7
  sender               := lit sender
  dest                 := lit dest
  text                 := []
  dataCoding           := 0
  registeredDelivery   := 0
  esmClass             := 0
  protocolID           := 0
  priorityFlag         := 0
  replaceIfPresent     := 0
  smDefaultMsgID       := 0
  optionalParamsOffset := 20
  payload              := []
  udh                  := []
  concat               := none
  tlvs                 := []

theorem submission_key_iff_shifted :
    let inst := (List.range 16).map UInt8.ofNat
    ∃ x y : AcceptedSubmit, x.pdu = { sequenceID := 7, body := shiftedBody "1" "23" } ∧
      y.pdu = { sequenceID := 7, body := shiftedBody "12" "3" } ∧
      x.clientMsgID inst sha256 ≠ y.clientMsgID inst sha256 := by
  intro inst
  let x : AcceptedSubmit := ⟨lit "s", lit "esme", { sequenceID := 7, body := shiftedBody "1" "23" }, shifted "1" "23", rfl⟩
  let y : AcceptedSubmit := ⟨lit "s", lit "esme", { sequenceID := 7, body := shiftedBody "12" "3" }, shifted "12" "3", rfl⟩
  have hne : (sha256 (x.input inst)).take 12 ≠ (sha256 (y.input inst)).take 12 := by decide +kernel
  have hinj : Set.InjOn (fun z => (sha256 z).take 12) {x.input inst, y.input inst} := by
    rintro z (rfl | rfl) w (rfl | rfl) h
    case inl.inl | inr.inr => rfl
    case inl.inr => exact absurd h hne
    case inr.inl => exact absurd h.symm hne
  have hkey := (submission_key_iff length_sha256 hinj (x := x) (y := y) (.inl rfl) (.inr rfl)
    (by decide +kernel) (by decide +kernel)).2 (by decide +kernel) (by decide +kernel)
  exact ⟨x, y, rfl, rfl, hkey⟩

end SmppGateway
