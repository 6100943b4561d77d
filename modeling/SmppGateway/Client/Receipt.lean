import SmppGateway.Client.Id
import SmppGateway.Dispatch.Ids
import SmppGateway.Message.Guess
import SmppGateway.Smpp.Receipt

-- How the client reads a delivery receipt (`internal/smppclient/receipt.go`), and what it reads in the
-- receipts that the gateway itself writes.

namespace SmppGateway

open Go Search

namespace Client

structure DLR where
  providerID : Str := []
  state      : Str := []
  errorCode  : Int := 0
  doneAt     : Time := 0
  deriving DecidableEq, Repr

def receiptIDRe : Regexp where
  items := wordBoundary :: "id:".toList.map letter ++ [runOf isSpaceRune 0]
  group := runOf (fun r => !isSpaceRune r) 1

def receiptStatRe : Regexp where
  items := wordBoundary :: "stat:".toList.map letter ++ [runOf isSpaceRune 0]
  group := runOf isLetterRune 1

def receiptErrRe : Regexp where
  items := wordBoundary :: "err:".toList.map letter ++ [runOf isSpaceRune 0]
  group := runOf isDigitRune 1

def receiptDoneRe : Regexp where
  items := wordBoundary :: "done".toList.map letter ++ [runOf isSpaceRune 1] ++ "date:".toList.map letter ++
    [runOf isSpaceRune 0]
  group := runOf isDigitRune 10 (some 12)

def firstSubmatch (re : Regexp) (text : Str) : Str :=
  (re.findSubmatch text).elim [] trimSpaceStr

structure DeliverBody where
  esmClass   : UInt8
  dataCoding : UInt8
  text       : Str

def skipCString : Bytes → Option Bytes
  | []        => none
  | b :: rest => if b = 0x00 then some rest else skipCString rest

def parseDeliverBody (body : Bytes) : Option (DeliverBody × List TLV) := do
  let _ :: _ :: rest ← skipCString body | none
  let _ :: _ :: rest ← skipCString rest | none
  let esmClass :: _ :: _ :: rest ← skipCString rest | none
  let rest ← skipCString rest
  let _ :: _ :: dataCoding :: _ :: smLen :: rest ← skipCString rest | none
  if rest.length < smLen.toNat then
    none
  else
    let text := decodeSubmitText (rest.take smLen.toNat) dataCoding
    -- `ParseTLVs` has none where the strict parser has an error.
    let tlvs := match parseTLVsStrict (rest.drop smLen.toNat) with
      | .ok tlvs => tlvs
      | .error _ => []
    some ({ esmClass, dataCoding, text }, tlvs)

def stateByTLVValue (value : UInt8) : Option Str :=
  match value.toNat with
  | 1 => lit "ENROUTE"
  | 2 => lit "DELIVRD"
  | 3 => lit "EXPIRED"
  | 4 => lit "DELETED"
  | 5 => lit "UNDELIV"
  | 6 => lit "ACCEPTD"
  | 7 => lit "UNKNOWN"
  | 8 => lit "REJECTD"
  | _ => none

def parseDoneAt (value : Str) : Time :=
  if value = [] then 0 else ((parseMinute value).or (parseSecond value)).getD 0

def readErrorCode (text : Str) : Int :=
  atoi (firstSubmatch receiptErrRe text)

def readDoneAt (now : Time) (text : Str) : Time :=
  let doneAt := parseDoneAt (firstSubmatch receiptDoneRe text)
  if doneAt = 0 then now else doneAt

def receiptID (text : Str) (tlvs : List TLV) (idSource : Str) : Str :=
  let textID := firstSubmatch receiptIDRe text
  let tlvID := (findTLV tlvs tagReceiptedMessageID).elim [] trimRightNUL
  if toLower idSource = lit "tlv" then
    tlvID
  else if toLower idSource = lit "text" then
    textID
  else
    if tlvID ≠ [] then tlvID else textID

def receiptState (text : Str) (tlvs : List TLV) : Str :=
  let textState := toUpper (firstSubmatch receiptStatRe text)
  let tlvState := (findTLV tlvs tagMessageState).bind fun value => value.head?.bind stateByTLVValue
  let state := tlvState.getD textState
  if state = [] then lit "UNKNOWN" else state

-- The receipt, whether there is one, and whether the body could be read. `now` is the clock.
def parseDeliverSM (now : Time) (body : Bytes) (idSource idFormat : Str) : DLR × Bool × Bool :=
  match parseDeliverBody body with
  | none                => ({}, false, false)
  | some (parsed, tlvs) =>
    if parsed.esmClass &&& 0x04 = 0 then
      ({}, false, false)
    else
      let id := receiptID parsed.text tlvs idSource
      if id = [] then
        ({}, false, true)
      else
        ({  providerID := normalizeID id idFormat
            state      := receiptState parsed.text tlvs
            errorCode  := readErrorCode parsed.text
            doneAt     := readDoneAt now parsed.text }, true, true)

def receiptStates : List Str :=
  lit "ENROUTE" :: textStates

def isIDByte (b : UInt8) : Bool :=
  isWordRune (Char.ofNat b.toNat) && isPlainASCII b.toNat && !isSpace (Char.ofNat b.toNat) && b != 0x00 && b < 0x80

theorem gatewayID_bytes {n : UInt64} {id : Str} (h : encodeGatewayID n = some id) :
    ∃ rest, id = 'm'.toUInt8 :: rest ∧ rest.length = 7 ∧ ∀ b ∈ id, isIDByte b = true := by
  have hlen := encodeGatewayID_length h
  simp only [encodeGatewayID] at h
  split at h
  case isTrue => cases h
  case isFalse =>
    cases h
    obtain ⟨ds, hds, -, hlt, -⟩ := leftpad_format n (by decide : 1 < 36) 7
    rw [hds] at hlen ⊢
    refine ⟨ds.map digitByte, rfl, Nat.succ.inj hlen, fun b hb => ?_⟩
    have hall : ∀ d : Fin 36, isIDByte (digitByte d.val) = true := by decide
    rcases List.mem_cons.mp hb with rfl | hb
    case inl => decide
    case inr =>
      obtain ⟨d, hd, rfl⟩ := List.mem_map.mp hb
      exact hall ⟨d, hlt d hd⟩

section IDs

variable {n : UInt64} {id : Str} (h : encodeGatewayID n = some id)
include h

theorem gatewayID_ne_nil : id ≠ [] := by
  obtain ⟨rest, rfl, -⟩ := gatewayID_bytes h
  exact List.cons_ne_nil _ _

theorem gatewayID_noNUL : 0x00 ∉ id := by
  intro hnul
  obtain ⟨rest, -, -, hbytes⟩ := gatewayID_bytes h
  exact absurd (hbytes _ hnul) (by decide)

theorem trimRightNUL_gatewayID : trimRightNUL id = id := by
  rw [trimRightNUL, List.rdropWhile_eq_self_iff]
  intro hne hlast
  have hmem := List.getLast_mem hne
  rw [of_decide_eq_true hlast] at hmem
  exact gatewayID_noNUL h hmem

theorem trimRightNUL_cString_gatewayID : trimRightNUL (cString id) = id := by
  rw [trimRightNUL, cString, List.rdropWhile_concat_pos _ _ _ (by decide)]
  exact trimRightNUL_gatewayID h

theorem gatewayID_ascii : ∀ b ∈ id, b < 0x80 := by
  intro b hb
  obtain ⟨rest, -, -, hbytes⟩ := gatewayID_bytes h
  have := hbytes b hb
  simp only [isIDByte, Bool.and_eq_true, decide_eq_true_eq] at this
  exact this.2

theorem trimSpaceStr_gatewayID : trimSpaceStr id = id := by
  have hspace : ∀ c ∈ id.map fun b => Char.ofNat b.toNat, isSpace c = false := by
    intro c hc
    obtain ⟨b, hb, rfl⟩ := List.mem_map.mp hc
    obtain ⟨rest, -, -, hbytes⟩ := gatewayID_bytes h
    have := hbytes b hb
    simp only [isIDByte, Bool.and_eq_true, Bool.not_eq_true'] at this
    exact this.1.1.2
  have htrim := trimSpaceStr_eq hspace
  rwa [utf8_ascii (gatewayID_ascii h)] at htrim

theorem looksHexID_gatewayID : looksHexID id = false := by
  have hrunes : runes id = id.map fun b => Char.ofNat b.toNat := by
    conv_lhs => rw [← utf8_ascii (gatewayID_ascii h), runes_utf8]
  obtain ⟨rest, rfl, -⟩ := gatewayID_bytes h
  rw [looksHexID, hrunes]
  rfl

theorem normalizeID_gatewayID : normalizeID id (lit "auto") = id := by
  have hdec : toLower (lit "auto") ≠ lit "dec" := by decide
  have hhex : toLower (lit "auto") ≠ lit "hex" := by decide
  simp only [normalizeID, trimRightNUL_gatewayID h, trimSpaceStr_gatewayID h, if_neg (gatewayID_ne_nil h), if_neg hdec,
    if_neg hhex, looksHexID_gatewayID h]
  rfl

end IDs

theorem skipCString_cString {value : Str} (h : 0x00 ∉ value) (rest : Bytes) :
    skipCString (cString value ++ rest) = some rest := by
  induction value
  case nil => rfl
  case cons b value hi =>
    rw [List.mem_cons, not_or] at h
    have hne : b ≠ 0x00 := Ne.symm h.1
    rw [cString] at hi ⊢
    rw [List.cons_append, List.cons_append, skipCString, if_neg hne]
    exact hi h.2

def receiptTLVs (p : DLRParams) : List TLV :=
  [{ tag := tagReceiptedMessageID, value := cString p.gatewayID }, { tag := tagMessageState, value := [stateToCode p.state] }]

theorem buildDLR_body (p : DLRParams) :
    (buildDLR p).body = cString [] ++ 0x00 :: 0x00 :: (cString p.sourceAddr ++ 0x00 :: 0x00 :: (cString p.destAddr ++
      0x04 :: 0x00 :: 0x00 :: (cString [] ++ (cString [] ++ 0x00 :: 0x00 :: 0x00 :: 0x00 ::
        UInt8.ofNat (formatReceiptText p).length :: (formatReceiptText p ++ (receiptTLVs p).flatMap appendTLV))))) := by
  simp only [buildDLR, buildDeliverSMBody, receiptTLVs, List.append_assoc, List.cons_append, List.nil_append,
    List.flatMap_cons, List.flatMap_nil, List.append_nil]

section Body

variable {p : DLRParams} {n : UInt64} (hid : encodeGatewayID n = some p.gatewayID)
  (hsource : 0x00 ∉ p.sourceAddr) (hdest : 0x00 ∉ p.destAddr)
include hid hsource hdest

theorem parseDeliverBody_buildDLR (hlen : (formatReceiptText p).length ≤ 255) :
    parseDeliverBody (buildDLR p).body =
      some ({ esmClass := 0x04, dataCoding := 0x00, text := decodeSubmitText (formatReceiptText p) 0x00 },
        receiptTLVs p) := by
  have hnil : (0x00 : UInt8) ∉ ([] : Str) := List.not_mem_nil
  have hsize : (UInt8.ofNat (formatReceiptText p).length).toNat = (formatReceiptText p).length := by
    rw [UInt8.toNat_ofNat']
    omega
  have htlvs : parseTLVsStrict ((receiptTLVs p).flatMap appendTLV) = .ok (receiptTLVs p) := by
    have hfits : ∀ item ∈ receiptTLVs p, item.value.length < 65536 := by
      have hlen := encodeGatewayID_length hid
      simp [receiptTLVs, cString, hlen]
    have hread := parseTLVsStrict_append hfits []
    rw [List.append_nil] at hread
    rw [hread]
    simp [parseTLVsStrict, Except.map]
  have hrest : ¬(formatReceiptText p ++ (receiptTLVs p).flatMap appendTLV).length < (formatReceiptText p).length := by
    simp
  rw [buildDLR_body, parseDeliverBody]
  simp only [skipCString_cString hnil, skipCString_cString hsource, skipCString_cString hdest, Option.bind_eq_bind,
    Option.bind_some, hsize, if_neg hrest, List.take_left, List.drop_left, htlvs]

theorem parseDeliverSM_buildDLR (hlen : (formatReceiptText p).length ≤ 255) (hstate : p.state ∈ receiptStates)
    (now : Time) :
    parseDeliverSM now (buildDLR p).body (lit "auto") (lit "auto") =
      ({  providerID := p.gatewayID
          state      := p.state
          errorCode  := readErrorCode (decodeSubmitText (formatReceiptText p) 0x00)
          doneAt     := readDoneAt now (decodeSubmitText (formatReceiptText p) 0x00) }, true, true) := by
  generalize htext : decodeSubmitText (formatReceiptText p) 0x00 = text
  have hreceiptID : receiptID text (receiptTLVs p) (lit "auto") = p.gatewayID := by
    have htlv : toLower (lit "auto") ≠ lit "tlv" := by decide
    have htext : toLower (lit "auto") ≠ lit "text" := by decide
    have hfind : findTLV (receiptTLVs p) tagReceiptedMessageID = some (cString p.gatewayID) := rfl
    simp only [receiptID, if_neg htlv, if_neg htext, hfind, Option.elim_some, trimRightNUL_cString_gatewayID hid,
      if_pos (gatewayID_ne_nil hid)]
  have hreceiptState : receiptState text (receiptTLVs p) = p.state := by
    have hmapped : ∀ s ∈ receiptStates, stateByTLVValue (stateToCode s) = some s ∧ s ≠ [] := by decide
    obtain ⟨hcode, hne⟩ := hmapped p.state hstate
    have hfind : findTLV (receiptTLVs p) tagMessageState = some [stateToCode p.state] := rfl
    simp only [receiptState, hfind, Option.bind_some, List.head?_cons, hcode, Option.getD_some, if_neg hne]
  have hesm : ¬((0x04 : UInt8) &&& 0x04 = 0) := by decide
  rw [parseDeliverSM, parseDeliverBody_buildDLR hid hsource hdest hlen, htext]
  simp only [if_neg hesm, hreceiptID, if_neg (gatewayID_ne_nil hid), normalizeID_gatewayID hid, hreceiptState]

end Body

end Client

end SmppGateway
