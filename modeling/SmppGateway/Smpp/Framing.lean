import SmppGateway.Smpp.Submit

-- Reading and writing PDUs on a stream (`internal/smpp/pdu.go`).

namespace SmppGateway

open Parse

variable {p : PDU} {pdus : List PDU} {cut : Bytes}

inductive ReadError
  | eof                         -- EOF
  | unexpectedEOF               -- unexpected EOF
  | invalidLength               -- invalid pdu length
  | tooLarge (length : UInt32)  -- pdu too large: %d
  deriving DecidableEq, Repr

def readFull (n : Nat) (stream : Bytes) : Except ReadError (Bytes × Bytes) :=
  if n ≤ stream.length then
    .ok (stream.take n, stream.drop n)
  else if stream = [] then
    .error .eof
  else
    .error .unexpectedEOF

def uint32 (b₀ b₁ b₂ b₃ : UInt8) : UInt32 :=
  .ofNat (((b₀.toNat * 256 + b₁.toNat) * 256 + b₂.toNat) * 256 + b₃.toNat)

def headerField (header : Bytes) (i : Nat) : UInt32 :=
  uint32 (header.getD i 0) (header.getD (i + 1) 0) (header.getD (i + 2) 0) (header.getD (i + 3) 0)

def putUint32 (n : UInt32) : Bytes :=
  [.ofNat (n.toNat / 0x1000000), .ofNat (n.toNat / 0x10000), .ofNat (n.toNat / 0x100), .ofNat n.toNat]

def readPDU : Reader UInt8 PDU ReadError := fun stream => do
  let (header, stream) ← readFull 16 stream
  let length := headerField header 0
  if length < 16 then
    throw .invalidLength
  if length > 1024 * 1024 then
    throw (.tooLarge length)
  let (body, stream) ← readFull (length - 16).toNat stream
  pure ({
    length, body
    commandID  := headerField header 4
    status     := headerField header 8
    sequenceID := headerField header 12 }, stream)

-- The length is cut to 32 bits.
def PDU.wireLength (p : PDU) : UInt32 :=
  .ofNat (16 + p.body.length)

def writeHeader (p : PDU) : Bytes :=
  putUint32 p.wireLength ++ putUint32 p.commandID ++ putUint32 p.status ++ putUint32 p.sequenceID

def writePDU (p : PDU) : Bytes :=
  writeHeader p ++ p.body

def readPDUs (stream : Bytes) : List PDU × Option ReadError :=
  drain readPDU stream

def PDU.framed (p : PDU) : PDU :=
  { p with length := p.wireLength }

theorem uint32_putUint32 (n : UInt32) :
    uint32 (.ofNat (n.toNat / 0x1000000)) (.ofNat (n.toNat / 0x10000)) (.ofNat (n.toNat / 0x100)) (.ofNat n.toNat) =
      n := by
  have hn := n.toNat_lt
  apply UInt32.toNat_inj.mp
  simp only [uint32, UInt8.toNat_ofNat', UInt32.toNat_ofNat']
  omega

theorem headerField_writeHeader (p : PDU) :
    headerField (writeHeader p) 0 = p.wireLength ∧ headerField (writeHeader p) 4 = p.commandID ∧
      headerField (writeHeader p) 8 = p.status ∧ headerField (writeHeader p) 12 = p.sequenceID :=
  ⟨uint32_putUint32 _, uint32_putUint32 _, uint32_putUint32 _, uint32_putUint32 _⟩

theorem readFull_append (head rest : Bytes) : readFull head.length (head ++ rest) = .ok (head, rest) := by
  simp [readFull]

theorem readFull_ok {n : Nat} {stream head rest : Bytes} (h : readFull n stream = .ok (head, rest)) :
    head.length = n ∧ stream = head ++ rest := by
  unfold readFull at h
  split at h
  case isTrue hn => cases h; exact ⟨List.length_take_of_le hn, (List.take_append_drop n stream).symm⟩
  case isFalse => split at h <;> cases h

theorem readFull_short {n : Nat} {stream : Bytes} (h : stream.length < n) : ∃ e, readFull n stream = .error e := by
  rw [readFull, if_neg (by omega)]
  split
  case isTrue => exact ⟨_, rfl⟩
  case isFalse => exact ⟨_, rfl⟩

theorem wireLength_of_le (h : p.body.length ≤ 1048560) :
    ¬p.wireLength < 16 ∧ ¬p.wireLength > 1024 * 1024 ∧ (p.wireLength - 16).toNat = p.body.length := by
  have hlen : p.wireLength.toNat = 16 + p.body.length := by
    rw [PDU.wireLength, UInt32.toNat_ofNat', Nat.mod_eq_of_lt (by omega)]
  have hle : (16 : UInt32) ≤ p.wireLength := UInt32.le_iff_toNat_le.mpr (by rw [hlen]; simp)
  refine ⟨UInt32.not_lt.mpr hle, UInt32.not_lt.mpr (UInt32.le_iff_toNat_le.mpr ?_), ?_⟩
  case refine_1 =>
    rw [hlen]
    have : (1024 * 1024 : UInt32).toNat = 1048576 := rfl
    omega
  case refine_2 =>
    rw [UInt32.toNat_sub_of_le _ _ hle, hlen]
    exact Nat.add_sub_cancel_left ..

theorem readPDU_header (h : p.body.length ≤ 1048560) (stream : Bytes) :
    readPDU (writeHeader p ++ stream) = (readFull p.body.length stream).map fun r => ({ p.framed with body := r.1 }, r.2) := by
  obtain ⟨hmin, hmax, hbody⟩ := wireLength_of_le h
  obtain ⟨hlength, hcommand, hstatus, hsequence⟩ := headerField_writeHeader p
  have hheader : readFull 16 (writeHeader p ++ stream) = .ok (writeHeader p, stream) :=
    readFull_append (writeHeader p) stream
  rw [readPDU, bind_of_ok hheader]
  simp only [hlength, hcommand, hstatus, hsequence, if_neg hmin, if_neg hmax, hbody]
  cases readFull p.body.length stream
  case error e => rfl
  case ok r => rfl

theorem readPDU_writePDU (h : p.body.length ≤ 1048560) (rest : Bytes) :
    readPDU (writePDU p ++ rest) = .ok (p.framed, rest) := by
  rw [writePDU, List.append_assoc, readPDU_header h, readFull_append]
  rfl

theorem readPDU_consumes : Consumes readPDU := by
  intro stream p rest h
  obtain ⟨⟨header, stream'⟩, hheader, hrest⟩ := bind_eq_ok.mp h
  obtain ⟨hlen, rfl⟩ := readFull_ok hheader
  simp only at hrest
  split at hrest
  case isTrue => cases hrest
  case isFalse =>
    split at hrest
    case isTrue => cases hrest
    case isFalse =>
      obtain ⟨⟨body, rest'⟩, hbody, hpdu⟩ := bind_eq_ok.mp hrest
      obtain ⟨-, rfl⟩ := readFull_ok hbody
      cases hpdu
      simp only [List.length_append]
      omega

theorem readPDU_cut (h : p.body.length ≤ 1048560) (hcut : cut <+: writePDU p) (hne : cut ≠ writePDU p) :
    ∃ e, readPDU cut = .error e := by
  obtain ⟨missing, hmissing⟩ := hcut
  by_cases hheader : cut.length < 16
  case pos =>
    obtain ⟨e, he⟩ := readFull_short hheader
    exact ⟨e, by rw [readPDU, he]; rfl⟩
  case neg =>
    -- The header is complete, so the cut is inside the body.
    have hsplit : cut = writeHeader p ++ cut.drop 16 ∧ cut.drop 16 ++ missing = p.body := by
      have htake := congrArg (List.take 16) hmissing
      have hdrop := congrArg (List.drop 16) hmissing
      rw [List.take_append_of_le_length (by omega)] at htake
      rw [List.drop_append_of_le_length (by omega)] at hdrop
      refine ⟨?_, hdrop⟩
      conv_lhs => rw [← List.take_append_drop 16 cut, htake]
      rfl
    have hshort : (cut.drop 16).length < p.body.length := by
      rw [← hsplit.2, List.length_append]
      refine Nat.lt_add_of_pos_right (List.length_pos_iff.mpr ?_)
      rintro rfl
      exact hne (by rw [← hmissing, List.append_nil])
    obtain ⟨e, he⟩ := readFull_short hshort
    rw [hsplit.1, readPDU_header h, he]
    exact ⟨e, rfl⟩

structure Whole (pdus : List PDU) (cut : Bytes) (k : Nat) : Prop where
  le     : k ≤ pdus.length
  inside : (pdus.take k).flatMap writePDU <+: cut
  most   : ∀ j ≤ pdus.length, (pdus.take j).flatMap writePDU <+: cut → j ≤ k

theorem Whole.cons {k : Nat} (h : Whole pdus cut k) : Whole (p :: pdus) (writePDU p ++ cut) (k + 1) where
  le     := Nat.succ_le_succ h.le
  inside := by
    rw [List.take_succ_cons, List.flatMap_cons]
    exact (List.prefix_append_right_inj _).mpr h.inside
  most j hj hin := by
    cases j
    case zero => exact Nat.zero_le _
    case succ j =>
      rw [List.take_succ_cons, List.flatMap_cons, List.prefix_append_right_inj] at hin
      exact Nat.succ_le_succ (h.most j (Nat.le_of_succ_le_succ hj) hin)

theorem whole_zero (h : ¬writePDU p <+: cut) : Whole (p :: pdus) cut 0 where
  le     := Nat.zero_le _
  inside := List.nil_prefix
  most j _ hin := by
    cases j
    case zero => exact Nat.le_refl _
    case succ j =>
      rw [List.take_succ_cons, List.flatMap_cons] at hin
      exact absurd ((List.prefix_append _ _).trans hin) h

-- By induction on the PDUs: the first one is read if it is there as a whole, and ends the reading if not.
theorem readPDUs_cut (h : ∀ p ∈ pdus, p.body.length ≤ 1048560) (hcut : cut <+: pdus.flatMap writePDU) :
    ∃ k e, Whole pdus cut k ∧ readPDUs cut = ((pdus.take k).map PDU.framed, some e) := by
  induction pdus generalizing cut
  case nil =>
    rw [List.flatMap_nil, List.prefix_nil] at hcut
    subst hcut
    exact ⟨0, .eof, ⟨Nat.le_refl _, List.nil_prefix, fun _ hj _ => hj⟩, rfl⟩
  case cons p pdus hi =>
    obtain ⟨hp, hpdus⟩ := List.forall_mem_cons.mp h
    rw [List.flatMap_cons] at hcut
    by_cases hwhole : writePDU p <+: cut
    case pos =>
      obtain ⟨rest, rfl⟩ := hwhole
      obtain ⟨k, e, hk, hread⟩ := hi hpdus ((List.prefix_append_right_inj _).mp hcut)
      refine ⟨k + 1, e, hk.cons, ?_⟩
      rw [readPDUs] at hread ⊢
      rw [drain_ok readPDU_consumes (readPDU_writePDU hp rest), hread]
      rfl
    case neg =>
      have hshort : cut <+: writePDU p := by
        refine List.prefix_of_prefix_length_le hcut (List.prefix_append _ _) (Nat.le_of_not_lt fun hlt => hwhole ?_)
        exact List.prefix_of_prefix_length_le (List.prefix_append _ _) hcut hlt.le
      have hne : cut ≠ writePDU p := by
        rintro rfl
        exact hwhole (List.prefix_refl _)
      obtain ⟨e, he⟩ := readPDU_cut hp hshort hne
      exact ⟨0, e, whole_zero hwhole, drain_error he⟩

-- What was written is read, and a stream that is cut off anywhere gives the PDUs before the cut and no other.
theorem framing_synchronised {pdus : List PDU} (h : ∀ p ∈ pdus, p.body.length ≤ 1048560) :
    readPDUs (pdus.flatMap writePDU) = (pdus.map PDU.framed, some .eof) ∧
    ∀ cut, cut <+: pdus.flatMap writePDU → cut ≠ pdus.flatMap writePDU →
      ∃ k e, Whole pdus cut k ∧ readPDUs cut = ((pdus.take k).map PDU.framed, some e) := by
  refine ⟨?_, fun cut hcut _ => readPDUs_cut h hcut⟩
  have hread := drain_flatMap_append readPDU_consumes (fun p hp rest => readPDU_writePDU (h p hp) rest) []
  rw [List.append_nil] at hread
  rw [readPDUs, hread, drain_error (show readPDU [] = .error .eof from rfl), List.append_nil]

theorem framing_synchronised_two :
    readPDUs (writePDU { commandID := 0x15, sequenceID := 1, body := [] } ++
        writePDU { commandID := 4, sequenceID := 2, body := [1, 2] }) =
      ([{ length := 16, commandID := 0x15, sequenceID := 1, body := [] },
        { length := 18, commandID := 4, sequenceID := 2, body := [1, 2] }], some .eof) :=
  (@framing_synchronised [{ commandID := 0x15, sequenceID := 1, body := [] },
    { commandID := 4, sequenceID := 2, body := [1, 2] }] (by simp)).1

end SmppGateway
