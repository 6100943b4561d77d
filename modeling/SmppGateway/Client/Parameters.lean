import SmppGateway.Client.Encode
import SmppGateway.Smpp.Grammar
import SmppGateway.Smpp.Receipt

-- The two writers of optional parameters, `appendTLVBytes` (`internal/smpp/dlr.go`) and the loop at the end of
-- `buildSubmitBody` (`internal/smppclient/encode.go`), and that `parseTLVsStrict` inverts both.

namespace SmppGateway

open Go Parse Client

def appendTLVBytes (body : Bytes) (tag : UInt16) (value : Bytes) : Bytes :=
  let buf := putUint16 tag
  let buf := buf ++ putUint16 (UInt16.ofNat value.length)
  let buf := buf ++ value
  body ++ buf

def appendTLVCString (body : Bytes) (tag : UInt16) (value : Str) : Bytes :=
  appendTLVBytes body tag (cString value)

-- The last loop of `buildSubmitBody`: a header of four octets, then the value.
def appendItems (body : Bytes) (tlvs : List TLV) : Bytes :=
  tlvs.foldl (fun body item =>
    let header := putUint16 item.tag ++ putUint16 (UInt16.ofNat item.value.length)
    (body ++ header) ++ item.value) body

def appendAllTLVBytes (body : Bytes) (tlvs : List TLV) : Bytes :=
  tlvs.foldl (fun body item => appendTLVBytes body item.tag item.value) body

theorem appendAllTLVBytes_eq (body : Bytes) (tlvs : List TLV) :
    appendAllTLVBytes body tlvs = body ++ tlvs.flatMap appendTLV := by
  induction tlvs generalizing body
  case nil => simp [appendAllTLVBytes]
  case cons item tlvs hi =>
    calc appendAllTLVBytes body (item :: tlvs)
      _ = appendAllTLVBytes (body ++ appendTLV item) tlvs         := rfl
      _ = (body ++ appendTLV item) ++ tlvs.flatMap appendTLV      := hi _
      _ = body ++ (item :: tlvs).flatMap appendTLV                := by simp

theorem appendItems_eq (body : Bytes) (tlvs : List TLV) :
    appendItems body tlvs = appendAllTLVBytes body tlvs := by
  induction tlvs generalizing body
  case nil => rfl
  case cons item tlvs hi =>
    have hone : (body ++ (putUint16 item.tag ++ putUint16 (UInt16.ofNat item.value.length))) ++ item.value =
        appendTLVBytes body item.tag item.value := by simp [appendTLVBytes]
    calc appendItems body (item :: tlvs)
      _ = appendItems (appendTLVBytes body item.tag item.value) tlvs       := by rw [← hone]; rfl
      _ = appendAllTLVBytes body (item :: tlvs)                            := hi _

theorem buildDLR_body (params : DLRParams) : (buildDLR params).body =
    appendTLVBytes (appendTLVCString (buildDeliverSMBody params) tagReceiptedMessageID params.gatewayID)
      tagMessageState [stateToCode params.state] := rfl

theorem buildSubmitBody_loop (p : SubmitBodyParams) : buildSubmitBody p = appendItems p.layout.bytes p.allTLVs := by
  rw [p.buildSubmitBody_eq, appendItems_eq, appendAllTLVBytes_eq]

def FitsLengths (tlvs : List TLV) : Prop :=
  ∀ item ∈ tlvs, item.value.length ≤ 65535

theorem parseTLVsStrict_iff {body : Bytes} {tlvs : List TLV} : parseTLVsStrict body = .ok tlvs ↔
    FitsLengths tlvs ∧ appendAllTLVBytes [] tlvs = body := by
  rw [parseTLVsStrict_eq_ok, appendAllTLVBytes_eq, List.nil_append]
  constructor
  case mp =>
    rintro ⟨rfl, h⟩
    exact ⟨fun item hm => Nat.le_of_lt_succ (h item hm), rfl⟩
  case mpr =>
    rintro ⟨h, rfl⟩
    exact ⟨rfl, fun item hm => Nat.lt_succ_of_le (h item hm)⟩

theorem parameters_coded_one_to_one :
    (∀ tlvs, FitsLengths tlvs →
      parseTLVsStrict (appendAllTLVBytes [] tlvs) = .ok tlvs ∧ parseTLVsStrict (appendItems [] tlvs) = .ok tlvs) ∧
    (∀ p : SubmitBodyParams, FitsLengths p.allTLVs →
      parseTLVsStrict ((buildSubmitBody p).drop p.layout.bytes.length) = .ok p.allTLVs) ∧
    (∀ body tlvs, parseTLVsStrict body = .ok tlvs → appendAllTLVBytes [] tlvs = body ∧ appendItems [] tlvs = body) ∧
    (∀ body, (¬∃ tlvs, FitsLengths tlvs ∧ appendAllTLVBytes [] tlvs = body) →
      ∃ e, parseTLVsStrict body = .error e) := by
  refine ⟨fun tlvs h => ?written, fun p h => ?submitted, fun body tlvs h => ?accepted, fun body h => ?rejected⟩
  case written =>
    have hparse := parseTLVsStrict_iff.mpr ⟨h, rfl⟩
    rw [appendItems_eq]
    exact ⟨hparse, hparse⟩
  case submitted =>
    rw [p.buildSubmitBody_eq, List.drop_left]
    apply parseTLVsStrict_iff.mpr
    rw [appendAllTLVBytes_eq]
    exact ⟨h, rfl⟩
  case accepted =>
    rw [appendItems_eq]
    have hbody := (parseTLVsStrict_iff.mp h).2
    exact ⟨hbody, hbody⟩
  case rejected =>
    cases hparse : parseTLVsStrict body
    case ok tlvs => exact absurd ⟨tlvs, parseTLVsStrict_iff.mp hparse⟩ h
    case error e => exact ⟨e, rfl⟩

theorem parameters_coded_one_to_one_at :
    parseTLVsStrict [0x02, 0x0C, 0x00, 0x01, 0x07, 0x04, 0x24, 0x00, 0x00] =
      .ok [⟨tagSARMsgRefNum, [0x07]⟩, ⟨tagMessagePayload, []⟩] ∧
    appendItems [] [⟨tagSARMsgRefNum, [0x07]⟩, ⟨tagMessagePayload, []⟩] =
      [0x02, 0x0C, 0x00, 0x01, 0x07, 0x04, 0x24, 0x00, 0x00] :=
  have hparse := (parameters_coded_one_to_one.1 [⟨tagSARMsgRefNum, [0x07]⟩, ⟨tagMessagePayload, []⟩]
    (by simp [FitsLengths])).1
  ⟨hparse, (parameters_coded_one_to_one.2.2.1 _ _ hparse).2⟩

end SmppGateway
