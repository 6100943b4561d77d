import SmppGateway.Go.Str
import SmppGateway.Lib.Parse

-- The byte formats of SMPP that the PDU bodies are made of: C-octet strings (`internal/smpp/pdu.go`) and
-- optional parameters (`internal/smpp/tlv.go`).

namespace SmppGateway

open Go Parse

abbrev Bytes := List UInt8

inductive ParseError
  | cStringTooLong (max : Nat)  -- c-octet string exceeds %d bytes
  | unterminated                -- unterminated c-octet string
  | shortSubmit                 -- short submit_sm
  | missingDestination          -- missing destination ton/npi
  | missingFixedFields          -- missing submit_sm fixed fields
  | missingDeliveryFields       -- missing submit_sm delivery fields
  | missingLength               -- missing sm length
  | shortShortMessage           -- short short_message
  | shortTLVHeader              -- short optional parameter header
  | shortTLVValue               -- short optional parameter value
  | duplicateSAR                -- duplicate sar optional parameter
  | bothPayloads                -- short_message and message_payload cannot both be set
  | emptyUDH                    -- udh flag set but short_message empty
  | udhTooLong                  -- udh length exceeds short_message
  | malformedIE                 -- malformed udh information element
  | malformedConcat             -- malformed concatenation information element
  | malformedSAR                -- malformed sar optional parameters
  | udhAndSAR                   -- udh and sar concatenation cannot be combined
  deriving DecidableEq, Repr

def cString (value : Str) : Bytes :=
  value ++ [0x00]

def readCStringMax (max : Nat) (body : Bytes) : Except ParseError (Str × Bytes) :=
  go body max
where
  go : Bytes → Nat → Except ParseError (Str × Bytes)
    | [], _ => .error .unterminated
    | b :: rest, left =>
      if b = 0x00 then
        .ok ([], rest)
      else
        match left with
        | 0        => .error (.cStringTooLong max)
        | left + 1 => (go rest left).map fun (value, rest) => (b :: value, rest)

structure FitsCString (max : Nat) (value : Str) : Prop where
  length : value.length ≤ max
  noNUL  : 0x00 ∉ value

instance (max : Nat) (value : Str) : Decidable (FitsCString max value) :=
  decidable_of_iff (value.length ≤ max ∧ 0x00 ∉ value) ⟨fun ⟨h, h'⟩ => ⟨h, h'⟩, fun h => ⟨h.1, h.2⟩⟩

theorem readCStringMax.go_cString {max left : Nat} {value : Str} (h : FitsCString left value)
    (rest : Bytes) : go max (cString value ++ rest) left = .ok (value, rest) := by
  induction value generalizing left
  case nil => simp [cString, go]
  case cons b value hi =>
    obtain ⟨hlen, hnul⟩ := h
    rw [List.mem_cons, not_or] at hnul
    cases left
    case zero => simp at hlen
    case succ left =>
      have hb : b ≠ 0x00 := fun e => hnul.1 e.symm
      have ih := hi ⟨Nat.le_of_succ_le_succ hlen, hnul.2⟩
      rw [cString] at ih ⊢
      rw [List.cons_append, List.cons_append, go, if_neg hb]
      simp only
      rw [ih]
      rfl

theorem readCStringMax_cString {max : Nat} {value : Str} (h : FitsCString max value) (rest : Bytes) :
    readCStringMax max (cString value ++ rest) = .ok (value, rest) :=
  readCStringMax.go_cString h rest

theorem readCStringMax.go_ok {max left : Nat} {body : Bytes} {value : Str} {rest : Bytes}
    (h : go max body left = .ok (value, rest)) :
    FitsCString left value ∧ body = cString value ++ rest := by
  induction body generalizing left value
  case nil => cases h
  case cons b body hi =>
    unfold go at h
    split at h
    case isTrue hb => cases h; exact ⟨⟨Nat.zero_le _, by simp⟩, by rw [hb]; rfl⟩
    case isFalse hb =>
      cases left
      case zero => cases h
      case succ left =>
        simp only at h
        cases hg : go max body left
        case error e => rw [hg] at h; cases h
        case ok r =>
          rw [hg] at h
          cases h
          obtain ⟨⟨hlen, hnul⟩, hbody⟩ := hi hg
          refine ⟨⟨by simpa using hlen, ?_⟩, by rw [hbody]; rfl⟩
          rw [List.mem_cons, not_or]
          exact ⟨fun e => hb e.symm, hnul⟩

theorem readCStringMax_ok {max : Nat} {body : Bytes} {value : Str} {rest : Bytes}
    (h : readCStringMax max body = .ok (value, rest)) :
    FitsCString max value ∧ body = cString value ++ rest :=
  readCStringMax.go_ok h

def uint16 (high low : UInt8) : UInt16 :=
  UInt16.ofNat (high.toNat * 256 + low.toNat)

def putUint16 (n : UInt16) : Bytes :=
  [UInt8.ofNat (n.toNat / 256), UInt8.ofNat n.toNat]

theorem uint16_putUint16 (n : UInt16) :
    uint16 (UInt8.ofNat (n.toNat / 256)) (UInt8.ofNat n.toNat) = n := by
  have h := n.toNat_lt
  apply UInt16.toNat_inj.mp
  simp only [uint16, UInt8.toNat_ofNat', UInt16.toNat_ofNat']
  omega

structure TLV where
  tag   : UInt16
  value : Bytes
  deriving DecidableEq, Repr

def tagSARMsgRefNum : UInt16 := 0x020C
def tagSARTotalSegments : UInt16 := 0x020E
def tagSARSegmentSeqnum : UInt16 := 0x020F
def tagMessagePayload : UInt16 := 0x0424

def readTLV : Reader UInt8 TLV ParseError
  | t₁ :: t₂ :: l₁ :: l₂ :: rest =>
    let size := (uint16 l₁ l₂).toNat
    if rest.length < size then
      .error .shortTLVValue
    else
      .ok ({ tag := uint16 t₁ t₂, value := rest.take size }, rest.drop size)
  | _ => .error .shortTLVHeader

def parseTLVsStrict (body : Bytes) : Except ParseError (List TLV) :=
  many readTLV body

-- How `buildSubmitBody` and `appendTLVBytes` write a parameter: the length is cut to 16 bits.
def appendTLV (item : TLV) : Bytes :=
  putUint16 item.tag ++ putUint16 (UInt16.ofNat item.value.length) ++ item.value

def findTLV (tlvs : List TLV) (tag : UInt16) : Option Bytes :=
  (tlvs.find? (·.tag = tag)).map (·.value)

theorem readTLV_consumes : Consumes readTLV := by
  intro l b rest h
  unfold readTLV at h
  split at h
  case h_1 =>
    simp only at h
    split at h
    case isTrue => cases h
    case isFalse => cases h; simp; omega
  case h_2 => cases h

theorem readTLV_header (tag size : UInt16) (body : Bytes) :
    readTLV (putUint16 tag ++ putUint16 size ++ body) =
      if body.length < size.toNat then
        .error .shortTLVValue
      else
        .ok ({ tag, value := body.take size.toNat }, body.drop size.toNat) := by
  change readTLV (_ :: _ :: _ :: _ :: body) = _
  simp only [readTLV, uint16_putUint16]

theorem readTLV_appendTLV {item : TLV} (h : item.value.length < 65536) (rest : Bytes) :
    readTLV (appendTLV item ++ rest) = .ok (item, rest) := by
  have hsize : (UInt16.ofNat item.value.length).toNat = item.value.length := by
    rw [UInt16.toNat_ofNat']
    exact Nat.mod_eq_of_lt h
  have hlt : ¬(item.value ++ rest).length < item.value.length := by simp
  rw [appendTLV, List.append_assoc, readTLV_header, hsize, if_neg hlt, List.take_left, List.drop_left]

theorem parseTLVsStrict_append {tlvs : List TLV} (h : ∀ item ∈ tlvs, item.value.length < 65536)
    (rest : Bytes) :
    parseTLVsStrict (tlvs.flatMap appendTLV ++ rest) = (parseTLVsStrict rest).map (tlvs ++ ·) :=
  many_flatMap_append readTLV_consumes fun item hm rest => readTLV_appendTLV (h item hm) rest

theorem length_of_parseTLVsStrict {body : Bytes} {tlvs : List TLV} (h : parseTLVsStrict body = .ok tlvs) :
    ∀ item ∈ tlvs, item.value.length < 65536 := by
  refine many_forall readTLV_consumes (fun l item rest hi => ?_) h
  unfold readTLV at hi
  split at hi
  case h_1 t₁ t₂ l₁ l₂ rest' =>
    simp only at hi
    split at hi
    case isTrue => cases hi
    case isFalse =>
      cases hi
      have := (uint16 l₁ l₂).toNat_lt
      rw [List.length_take]
      omega
  case h_2 => cases hi

theorem mem_of_findTLV {tlvs : List TLV} {tag : UInt16} {value : Bytes}
    (h : findTLV tlvs tag = some value) : ⟨tag, value⟩ ∈ tlvs := by
  obtain ⟨item, hi, rfl⟩ := Option.map_eq_some_iff.mp h
  have ht : item.tag = tag := by simpa using List.find?_some hi
  rw [← ht]
  exact List.mem_of_find?_eq_some hi

end SmppGateway
