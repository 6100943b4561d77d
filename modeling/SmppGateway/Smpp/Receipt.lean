import SmppGateway.Go.Date
import SmppGateway.Smpp.Session

-- The delivery receipts that the gateway writes (`internal/smpp/dlr.go`).

namespace SmppGateway

open Go

structure DLRParams where
  gatewayID    : Str
  sourceAddr   : Str
  destAddr     : Str
  submittedAt  : Time
  doneAt       : Time
  state        : Str
  errorCode    : Int
  originalText : Str

def tagReceiptedMessageID : UInt16 := 0x001E
def tagMessageState : UInt16 := 0x0427

def textStates : List Str :=
  [lit "DELIVRD", lit "EXPIRED", lit "DELETED", lit "UNDELIV", lit "ACCEPTD", lit "UNKNOWN", lit "REJECTD"]

def normalizeState (state : Str) : Str :=
  if state ∈ textStates then state else lit "UNKNOWN"

def stateToCode (state : Str) : UInt8 :=
  if state = lit "ENROUTE" then 1
  else if state = lit "DELIVRD" then 2
  else if state = lit "EXPIRED" then 3
  else if state = lit "DELETED" then 4
  else if state = lit "UNDELIV" then 5
  else if state = lit "ACCEPTD" then 6
  else if state = lit "REJECTD" then 8
  else 7

def truncateRunes (value : Str) (limit : Nat) : Str :=
  if (runes value).length ≤ limit then value else utf8 ((runes value).take limit)

def threeDigits (n : Int) : Str :=
  let digits := formatUintBase (.ofNat n.natAbs) 10
  if n < 0 then '-'.toUInt8 :: digits.leftpad 2 '0'.toUInt8 else digits.leftpad 3 '0'.toUInt8

def formatReceiptText (params : DLRParams) : Str :=
  let state := normalizeState params.state
  let delivered := if state = lit "DELIVRD" then 1 else 0
  lit "id:" ++ params.gatewayID ++ lit " sub:001 dlvrd:" ++ threeDigits delivered ++
    lit " submit date:" ++ formatMinute params.submittedAt ++ lit " done date:" ++ formatMinute params.doneAt ++
    lit " stat:" ++ state ++ lit " err:" ++ threeDigits params.errorCode ++
    lit " text:" ++ truncateRunes params.originalText 20

def buildDeliverSMBody (params : DLRParams) : Bytes :=
  let receipt := formatReceiptText params
  cString [] ++ [0x00, 0x00] ++ cString params.sourceAddr ++ [0x00, 0x00] ++ cString params.destAddr ++
    [0x04, 0x00, 0x00] ++ cString [] ++ cString [] ++ [0x00, 0x00, 0x00, 0x00] ++ [UInt8.ofNat receipt.length] ++ receipt

def buildDLR (params : DLRParams) : PDU where
  commandID := commandDeliverSM
  status    := statusOK
  body      := buildDeliverSMBody params ++
    appendTLV { tag := tagReceiptedMessageID, value := cString params.gatewayID } ++
    appendTLV { tag := tagMessageState, value := [stateToCode params.state] }

theorem truncateRunes_utf8 (rs : List Char) (limit : Nat) : truncateRunes (utf8 rs) limit = utf8 (rs.take limit) := by
  unfold truncateRunes
  rw [runes_utf8]
  split
  case isTrue h => rw [List.take_of_length_le h]
  case isFalse => rfl

section ThreeDigits

variable {n : Int} (hn : 0 ≤ n) (hn' : n ≤ 999)
include hn hn'

theorem threeDigits_digits : (threeDigits n).length = 3 ∧ ∀ b ∈ threeDigits n, isDigit b = true := by
  have hvalue : (UInt64.ofNat n.natAbs).toNat < 10 ^ 3 := by
    rw [UInt64.toNat_ofNat']
    omega
  have heq : threeDigits n = (formatUintBase (.ofNat n.natAbs) 10).leftpad 3 '0'.toUInt8 := by
    rw [threeDigits, if_neg (by omega)]
  rw [heq]
  constructor
  case left =>
    have hlen := length_formatUintBase_le (by decide : 1 < 10) (by decide) hvalue
    rw [List.length_leftpad, Nat.max_eq_left hlen]
  case right =>
    obtain ⟨ds, hds, -, hlt, -⟩ := leftpad_format (.ofNat n.natAbs) (by decide : 1 < 10) 3
    rw [hds]
    intro b hb
    obtain ⟨d, hd, rfl⟩ := List.mem_map.mp hb
    exact isDigit_digitByte (hlt d hd)

theorem atoi_threeDigits : atoi (threeDigits n) = n := by
  have hvalue : (UInt64.ofNat n.natAbs).toNat = n.natAbs := by
    rw [UInt64.toNat_ofNat']
    omega
  have heq : threeDigits n = (formatUintBase (.ofNat n.natAbs) 10).leftpad 3 '0'.toUInt8 := by
    rw [threeDigits, if_neg (by omega)]
  rw [heq, atoi_leftpad_format (by omega), hvalue]
  omega

end ThreeDigits

theorem normalizeState_mem (state : Str) : normalizeState state ∈ textStates := by
  unfold normalizeState
  split
  case isTrue h => exact h
  case isFalse => decide

end SmppGateway
