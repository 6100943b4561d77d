import SmppGateway.Lib.Slice
import SmppGateway.Smpp.Submit

-- `ParseSubmitSM` as it walks the body: offsets, indexing and slicing, each of which could be out of range.
-- It does what the parser on lists does, so that no read is.

namespace SmppGateway.Cursor

open Go Parse Slice

abbrev Result := Except (Fault ParseError)

-- The loop of `readCStringMax`: where the value that starts at `start` stops.
def scan (body : Bytes) (start max : Nat) : Nat → Nat → Result Nat
  | 0, offset => .ok offset
  | fuel + 1, offset =>
    if offset < body.length then do
      let b ← index body offset
      if b = 0x00 then
        pure offset
      else if max ≤ offset - start then
        throw (.failed (.cStringTooLong max))
      else
        scan body start max fuel (offset + 1)
    else
      .ok offset

def readCStringMax (body : Bytes) (max offset : Nat) : Result (Str × Nat) := do
  let stop ← scan body offset max (body.length - offset) offset
  if body.length ≤ stop then
    throw (.failed .unterminated)
  let value ← slice body offset stop
  pure (value, stop + 1)

theorem scan_eq {body : Bytes} {start max fuel offset left : Nat} (hstart : start ≤ offset)
    (hfuel : offset + fuel = body.length) (hleft : left = max - (offset - start)) :
    scan body start max fuel offset =
      match readCStringMax.go max (body.drop offset) left with
      | .ok (value, _)       => .ok (offset + value.length)
      | .error .unterminated => .ok body.length
      | .error e             => .error (.failed e) := by
  induction fuel generalizing offset left
  case zero =>
    have hend : offset = body.length := by omega
    simp [scan, hend, SmppGateway.readCStringMax.go]
  case succ fuel hi =>
    have hlt : offset < body.length := by omega
    rw [scan, if_pos hlt, bind_of_ok (index_of_lt hlt), List.drop_eq_getElem_cons hlt]
    unfold readCStringMax.go
    by_cases hb : body[offset] = 0x00
    case pos => simp only [if_pos hb, List.length_nil, Nat.add_zero]; rfl
    case neg =>
      simp only [if_neg hb]
      by_cases hmax : max ≤ offset - start
      case pos =>
        obtain rfl : left = 0 := by omega
        simp only [if_pos hmax]
        rfl
      case neg =>
        obtain ⟨left', rfl⟩ : ∃ n, left = n + 1 := ⟨left - 1, by omega⟩
        have hleft' : left' = max - (offset + 1 - start) := by omega
        simp only [if_neg hmax]
        rw [hi (by omega) (by omega) hleft']
        cases hgo : readCStringMax.go max (body.drop (offset + 1)) left'
        case ok r => simp [Except.map]; omega
        case error e => cases e <;> rfl

theorem readCStringMax_follows (body : Bytes) (max : Nat) :
    Follows body (readCStringMax body max) (SmppGateway.readCStringMax max) where
  suffix h := by
    obtain ⟨-, rfl⟩ := readCStringMax_ok h
    exact List.suffix_append ..
  agrees {offset} hoffset := by
    unfold readCStringMax
    rw [scan_eq (Nat.le_refl offset) (by omega) (by omega : max = max - (offset - offset))]
    cases hr : readCStringMax.go max (body.drop offset) max
    case error e => cases e <;> simp [SmppGateway.readCStringMax, hr, place, bind, Except.bind, throw, throwThe,
      MonadExceptOf.throw]
    case ok r =>
      obtain ⟨value, rest⟩ := r
      obtain ⟨-, hbody⟩ := readCStringMax.go_ok hr
      have hlen : body.length - offset = value.length + (rest.length + 1) := by
        simpa [cString] using congrArg List.length hbody
      have hvalue : (body.take (offset + value.length)).drop offset = value := by
        rw [List.drop_take, Nat.add_sub_cancel_left, hbody, cString, List.append_assoc, List.take_left]
      simp only [SmppGateway.readCStringMax, hr, place]
      change (if body.length ≤ offset + value.length then _ else _) = _
      rw [if_neg (by omega)]
      change (slice body offset (offset + value.length) >>= _) = _
      rw [bind_of_ok (slice_of_le (by omega) (by omega)), hvalue]
      simp only [pure, Except.pure]
      congr 2
      omega

def skip (body : Bytes) (n : Nat) (err : ParseError) (offset : Nat) : Result Nat :=
  if body.length < offset + n then .error (.failed err) else .ok (offset + n)

def readFixed (body : Bytes) (offset : Nat) : Result (Bytes × Nat) := do
  if body.length < offset + 3 then
    throw (.failed .missingFixedFields)
  let esmClass ← index body offset
  let protocolID ← index body (offset + 1)
  let priorityFlag ← index body (offset + 2)
  pure ([esmClass, protocolID, priorityFlag], offset + 3)

def readDelivery (body : Bytes) (offset : Nat) : Result (Bytes × Nat) := do
  if body.length < offset + 5 then
    throw (.failed .missingDeliveryFields)
  let registeredDelivery ← index body offset
  let replaceIfPresent ← index body (offset + 1)
  let dataCoding ← index body (offset + 2)
  let smDefaultMsgID ← index body (offset + 3)
  if body.length ≤ offset + 4 then
    throw (.failed .missingLength)
  let smLen ← index body (offset + 4)
  pure ([registeredDelivery, replaceIfPresent, dataCoding, smDefaultMsgID, smLen], offset + 5)

def readShortMessage (body : Bytes) (smLen offset : Nat) : Result (Bytes × Nat) := do
  if body.length < offset + smLen then
    throw (.failed .shortShortMessage)
  let raw ← slice body offset (offset + smLen)
  pure (raw, offset + smLen)

theorem readBytes_suffix {n : Nat} {err : ParseError} {l field rest : Bytes}
    (h : readBytes n err l = .ok (field, rest)) : rest <:+ l := by
  obtain ⟨-, rfl⟩ := readBytes_ok h
  exact List.suffix_append ..

theorem length_drop_lt {body : Bytes} {offset n : Nat} (h : offset ≤ body.length) :
    (body.drop offset).length < n ↔ body.length < offset + n := by
  rw [List.length_drop]
  omega

theorem skip_bind {body : Bytes} {offset : Nat} (hoffset : offset ≤ body.length) {γ : Type} (n : Nat) (err : ParseError)
    {next : Nat → Result (γ × Nat)} {next' : Bytes × Bytes → Except ParseError (γ × Bytes)}
    (hnext : ∀ field j, j ≤ body.length → next j = place body (next' (field, body.drop j))) :
    (skip body n err offset >>= next) = place body (readBytes n err (body.drop offset) >>= next') := by
  unfold skip readBytes
  simp only [length_drop_lt hoffset]
  split
  case isTrue => rfl
  case isFalse hlen =>
    change next (offset + n) = place body (next' (_, (body.drop offset).drop n))
    rw [List.drop_drop, hnext _ _ (by omega)]

theorem readFixed_follows (body : Bytes) :
    Follows body (readFixed body) (readBytes 3 .missingFixedFields) where
  suffix h := readBytes_suffix h
  agrees {offset} hoffset := by
    unfold readFixed readBytes
    simp only [length_drop_lt hoffset]
    split
    case isTrue => rfl
    case isFalse hlen =>
      obtain ⟨a, b, c, hdrop⟩ : ∃ a b c, body.drop offset = a :: b :: c :: body.drop (offset + 3) := by
        refine ⟨body[offset], body[offset + 1], body[offset + 2], ?_⟩
        rw [List.drop_eq_getElem_cons (by omega), List.drop_eq_getElem_cons (by omega),
          List.drop_eq_getElem_cons (by omega)]
      have h₀ : index body offset = (.ok a : Result UInt8) := index_of_drop hdrop 0
      rw [List.drop_drop, place_ok _ (by omega), hdrop]
      change (index body offset >>= _) = _
      rw [bind_of_ok h₀, bind_of_ok (index_of_drop hdrop 1), bind_of_ok (index_of_drop hdrop 2)]
      rfl

theorem readDelivery_follows (body : Bytes) :
    Follows body (readDelivery body) (readBytes 5 .missingDeliveryFields) where
  suffix h := readBytes_suffix h
  agrees {offset} hoffset := by
    unfold readDelivery readBytes
    simp only [length_drop_lt hoffset]
    split
    case isTrue => rfl
    case isFalse hlen =>
      obtain ⟨a, b, c, d, e, hdrop⟩ :
          ∃ a b c d e, body.drop offset = a :: b :: c :: d :: e :: body.drop (offset + 5) := by
        refine ⟨body[offset], body[offset + 1], body[offset + 2], body[offset + 3], body[offset + 4], ?_⟩
        rw [List.drop_eq_getElem_cons (by omega), List.drop_eq_getElem_cons (by omega),
          List.drop_eq_getElem_cons (by omega), List.drop_eq_getElem_cons (by omega),
          List.drop_eq_getElem_cons (by omega)]
      have h₀ : index body offset = (.ok a : Result UInt8) := index_of_drop hdrop 0
      rw [List.drop_drop, place_ok _ (by omega), hdrop]
      change (index body offset >>= _) = _
      rw [bind_of_ok h₀, bind_of_ok (index_of_drop hdrop 1), bind_of_ok (index_of_drop hdrop 2),
        bind_of_ok (index_of_drop hdrop 3)]
      -- The check of the length octet on its own cannot fail here.
      rw [if_neg (show ¬body.length ≤ offset + 4 by omega)]
      change (index body (offset + 4) >>= _) = _
      rw [bind_of_ok (index_of_drop hdrop 4)]
      rfl

theorem readShortMessage_follows (body : Bytes) (smLen : Nat) :
    Follows body (readShortMessage body smLen) (readBytes smLen .shortShortMessage) where
  suffix h := readBytes_suffix h
  agrees {offset} hoffset := by
    unfold readShortMessage readBytes
    simp only [length_drop_lt hoffset]
    split
    case isTrue => rfl
    case isFalse hlen =>
      rw [List.drop_drop, place_ok _ (by omega)]
      change (slice body offset (offset + smLen) >>= _) = _
      rw [bind_of_ok (slice_of_le (by omega) (by omega)), List.drop_take, Nat.add_sub_cancel_left]
      rfl

def readSubmitFields (body : Bytes) : Result (SubmitFields × Nat) := do
  let (_, offset) ← readCStringMax body smppMaxServiceType 0
  let offset ← skip body 2 .shortSubmit offset
  let (sender, offset) ← readCStringMax body smppMaxAddress offset
  let offset ← skip body 2 .missingDestination offset
  let (dest, offset) ← readCStringMax body smppMaxAddress offset
  let (fixed, offset) ← readFixed body offset
  let (_, offset) ← readCStringMax body 16 offset
  let (_, offset) ← readCStringMax body 16 offset
  let (delivery, offset) ← readDelivery body offset
  let (shortMessage, offset) ← readShortMessage body (delivery.getD 4 0).toNat offset
  pure ({
    sender, dest, shortMessage
    esmClass           := fixed.getD 0 0
    protocolID         := fixed.getD 1 0
    priorityFlag       := fixed.getD 2 0
    registeredDelivery := delivery.getD 0 0
    replaceIfPresent   := delivery.getD 1 0
    dataCoding         := delivery.getD 2 0
    smDefaultMsgID     := delivery.getD 3 0 }, offset)

theorem readSubmitFields_eq (body : Bytes) :
    readSubmitFields body = place body (SmppGateway.readSubmitFields body) := by
  unfold readSubmitFields SmppGateway.readSubmitFields
  refine (readCStringMax_follows body _).bind (Nat.zero_le _) fun _ _ h₁ => ?_
  refine skip_bind h₁ _ _ fun _ _ h₂ => ?_
  refine (readCStringMax_follows body _).bind h₂ fun _ _ h₃ => ?_
  refine skip_bind h₃ _ _ fun _ _ h₄ => ?_
  refine (readCStringMax_follows body _).bind h₄ fun _ _ h₅ => ?_
  refine (readFixed_follows body).bind h₅ fun _ _ h₆ => ?_
  refine (readCStringMax_follows body _).bind h₆ fun _ _ h₇ => ?_
  refine (readCStringMax_follows body _).bind h₇ fun _ _ h₈ => ?_
  refine (readDelivery_follows body).bind h₈ fun _ _ h₉ => ?_
  refine (readShortMessage_follows body _).bind h₉ fun _ _ h₁₀ => ?_
  exact (place_ok _ h₁₀).symm

def bigEndianUint16 (b : Bytes) : Result UInt16 := do
  let low ← index b 1
  let high ← index b 0
  pure (uint16 high low)

def readTLV (body : Bytes) : Result (TLV × Bytes) := do
  if body.length < 4 then
    throw (.failed .shortTLVHeader)
  let tag ← bigEndianUint16 (← slice body 0 2)
  let size ← bigEndianUint16 (← slice body 2 4)
  if body.length < 4 + size.toNat then
    throw (.failed .shortTLVValue)
  let value ← slice body 4 (4 + size.toNat)
  let rest ← slice body (4 + size.toNat) body.length
  pure ({ tag, value }, rest)

def parseTLVsStrict (body : Bytes) : Result (List TLV) :=
  many readTLV body

def hasDuplicateSARTag (tlvs : List TLV) : Bool :=
  go [] tlvs
where
  go (seen : List UInt16) : List TLV → Bool
    | [] => false
    | item :: tlvs =>
      if isSARTag item.tag then
        if item.tag ∈ seen then true else go (item.tag :: seen) tlvs
      else
        go seen tlvs

theorem slice_behind {front l : Bytes} {n m : Nat} (hfront : front.length = n) (hm : m ≤ l.length) :
    slice (front ++ l) n (n + m) = (.ok (l.take m) : Result Bytes) := by
  subst hfront
  rw [slice_of_le (by omega) (by simp; omega), List.take_length_add_append, List.drop_left]

theorem slice_rest {l : Bytes} {n : Nat} (hn : n ≤ l.length) : slice l n l.length = (.ok (l.drop n) : Result Bytes) := by
  rw [slice_of_le hn (Nat.le_refl _), List.take_length]

theorem bigEndianUint16_pair (high low : UInt8) : bigEndianUint16 [high, low] = .ok (uint16 high low) := rfl

theorem readTLV_eq (body : Bytes) : readTLV body = lift (SmppGateway.readTLV body) := by
  rcases body with _ | ⟨t₁, _ | ⟨t₂, _ | ⟨l₁, _ | ⟨l₂, rest⟩⟩⟩⟩
  case cons.cons.cons.cons =>
    have hfour : ¬(t₁ :: t₂ :: l₁ :: l₂ :: rest).length < 4 := by simp
    have htag : slice (t₁ :: t₂ :: l₁ :: l₂ :: rest) 0 2 = (.ok [t₁, t₂] : Result Bytes) := slice_of_le (by omega) (by simp)
    have hsize : slice (t₁ :: t₂ :: l₁ :: l₂ :: rest) 2 4 = (.ok [l₁, l₂] : Result Bytes) :=
      slice_of_le (by omega) (by simp)
    unfold readTLV SmppGateway.readTLV
    rw [if_neg hfour]
    change (slice _ 0 2 >>= _) = _
    rw [bind_of_ok htag, bind_of_ok (bigEndianUint16_pair ..), bind_of_ok hsize, bind_of_ok (bigEndianUint16_pair ..)]
    change (if (t₁ :: t₂ :: l₁ :: l₂ :: rest).length < 4 + (uint16 l₁ l₂).toNat then _ else _) =
      lift (if rest.length < (uint16 l₁ l₂).toNat then _ else _)
    generalize (uint16 l₁ l₂).toNat = n
    have hiff : (t₁ :: t₂ :: l₁ :: l₂ :: rest).length < 4 + n ↔ rest.length < n := by simp; omega
    by_cases hlt : rest.length < n
    case pos => rw [if_pos (hiff.mpr hlt), if_pos hlt]; rfl
    case neg =>
      have hle : 4 + n ≤ (t₁ :: t₂ :: l₁ :: l₂ :: rest).length := by simp; omega
      rw [if_neg (mt hiff.mp hlt), if_neg hlt]
      have hvalue : slice (t₁ :: t₂ :: l₁ :: l₂ :: rest) 4 (4 + n) = (.ok (rest.take n) : Result Bytes) :=
        @slice_behind [t₁, t₂, l₁, l₂] rest 4 n rfl (by omega)
      change (slice _ 4 (4 + n) >>= _) = _
      rw [bind_of_ok hvalue, bind_of_ok (slice_rest hle), Nat.add_comm 4 n]
      rfl
  all_goals rfl

theorem hasDuplicateSARTag.go_eq_false {seen : List UInt16} {tlvs : List TLV} : go seen tlvs = false ↔
    ((tlvs.map (·.tag)).filter isSARTag).Nodup ∧ ∀ tag ∈ (tlvs.map (·.tag)).filter isSARTag, tag ∉ seen := by
  induction tlvs generalizing seen
  case nil => simp [go]
  case cons item tlvs hi =>
    rw [go, List.map_cons, List.filter_cons]
    by_cases hsar : isSARTag item.tag
    case neg => simp only [if_neg hsar, hi]
    case pos =>
      simp only [if_pos hsar, List.nodup_cons, List.forall_mem_cons]
      by_cases hseen : item.tag ∈ seen
      case pos => simp [hseen]
      case neg =>
        simp only [if_neg hseen, hi, List.mem_cons, not_or]
        constructor
        case mp =>
          rintro ⟨hnodup, hall⟩
          exact ⟨⟨fun hm => (hall _ hm).1 rfl, hnodup⟩, hseen, fun tag hm => (hall tag hm).2⟩
        case mpr =>
          rintro ⟨⟨hnot, hnodup⟩, -, hall⟩
          exact ⟨hnodup, fun tag hm => ⟨fun heq => hnot (heq ▸ hm), hall tag hm⟩⟩

theorem hasDuplicateSARTag_eq (tlvs : List TLV) : hasDuplicateSARTag tlvs = SmppGateway.hasDuplicateSARTag tlvs := by
  have h := @hasDuplicateSARTag.go_eq_false [] tlvs
  simp only [List.not_mem_nil, not_false_eq_true, implies_true, and_true] at h
  rw [Bool.eq_iff_iff, ← not_iff_not, Bool.not_eq_true, Bool.not_eq_true]
  simp only [SmppGateway.hasDuplicateSARTag, hasDuplicateSARTag, h, decide_eq_false_iff_not, not_not]

def checkConcat (data : Bytes) (size first : Nat) : Result Unit :=
  if data.length ≠ size then
    .error (.failed .malformedConcat)
  else do
    let total ← index data first
    let part ← index data (first + 1)
    if validConcatPart total part then pure () else throw (.failed .malformedConcat)

def checkIE (id : UInt8) (data : Bytes) : Result Unit :=
  if id = 0x00 then
    checkConcat data 3 1
  else if id = 0x08 then
    checkConcat data 4 2
  else
    .ok ()

def readIE (ies : Bytes) : Result (IE × Bytes) := do
  if ies.length < 2 then
    throw (.failed .malformedIE)
  let length ← index ies 1
  if ies.length - 2 < length.toNat then
    throw (.failed .malformedIE)
  let data ← slice ies 2 (2 + length.toNat)
  let id ← index ies 0
  checkIE id data
  let rest ← slice ies (2 + length.toNat) ies.length
  pure ({ id, data }, rest)

def splitUDH (raw : Bytes) (esmClass : UInt8) : Result (Option Bytes × Bytes) :=
  if esmClass &&& 0x40 = 0 then
    .ok (none, raw)
  else if raw.length = 0 then
    .error (.failed .emptyUDH)
  else do
    let n ← index raw 0
    if n.toNat + 1 ≤ 1 ∨ raw.length < n.toNat + 1 then
      throw (.failed .udhTooLong)
    let _ ← many readIE (← slice raw 1 (n.toNat + 1))
    let udh ← slice raw 0 (n.toNat + 1)
    let body ← slice raw (n.toNat + 1) raw.length
    pure (some udh, body)

theorem checkConcat_eq {data front : Bytes} {total part : UInt8} (h : data = front ++ [total, part]) :
    checkConcat data (front.length + 2) front.length =
      if validConcatPart total part then .ok () else .error (.failed .malformedConcat) := by
  subst h
  have hsize : ¬(front ++ [total, part]).length ≠ front.length + 2 := by simp
  have hdrop : (front ++ [total, part]).drop front.length = [total, part] := List.drop_left
  have htotal : index (front ++ [total, part]) front.length = (.ok total : Result UInt8) := index_of_drop hdrop 0
  rw [checkConcat, if_neg hsize, bind_of_ok htotal, bind_of_ok (index_of_drop hdrop 1)]
  rfl

theorem checkIE_eq (id : UInt8) (data : Bytes) :
    checkIE id data = if ({ id, data } : IE).malformed then .error (.failed .malformedConcat) else .ok () := by
  unfold checkIE
  by_cases hshort : id = 0x00
  case pos =>
    subst hshort
    rcases data with _ | ⟨ref, _ | ⟨total, _ | ⟨part, _ | ⟨x, data⟩⟩⟩⟩
    case cons.cons.cons.nil =>
      have hcheck : checkConcat [ref, total, part] 3 1 = _ := @checkConcat_eq _ [ref] total part rfl
      rw [if_pos rfl, hcheck]
      cases hv : validConcatPart total part <;> simp [IE.malformed, IE.concat?, hv]
    all_goals simp [checkConcat, IE.malformed, IE.concat?]
  case neg =>
    by_cases hlong : id = 0x08
    case pos =>
      subst hlong
      rcases data with _ | ⟨high, _ | ⟨low, _ | ⟨total, _ | ⟨part, _ | ⟨x, data⟩⟩⟩⟩⟩
      case cons.cons.cons.cons.nil =>
        have hcheck : checkConcat [high, low, total, part] 4 2 = _ := @checkConcat_eq _ [high, low] total part rfl
        rw [if_neg hshort, if_pos rfl, hcheck]
        cases hv : validConcatPart total part <;> simp [IE.malformed, IE.concat?, hv]
      all_goals simp [checkConcat, IE.malformed, IE.concat?]
    case neg =>
      simp only [IE.malformed, IE.concat?, hshort, hlong, if_false, decide_false, Bool.or_self, Bool.false_eq_true]

theorem readIE_eq (ies : Bytes) : readIE ies = lift (SmppGateway.readIE ies) := by
  rcases ies with _ | ⟨id, _ | ⟨length, rest⟩⟩
  case cons.cons =>
    have htwo : ¬(id :: length :: rest).length < 2 := by simp
    have hlength : index (id :: length :: rest) 1 = (.ok length : Result UInt8) := rfl
    have hid : index (id :: length :: rest) 0 = (.ok id : Result UInt8) := rfl
    unfold readIE SmppGateway.readIE
    rw [if_neg htwo]
    change (index _ 1 >>= _) = _
    rw [bind_of_ok hlength]
    change (if (id :: length :: rest).length - 2 < length.toNat then _ else _) =
      lift (if rest.length < length.toNat then _ else _)
    generalize length.toNat = n
    have hiff : (id :: length :: rest).length - 2 < n ↔ rest.length < n := by simp
    by_cases hlt : rest.length < n
    case pos => rw [if_pos (hiff.mpr hlt), if_pos hlt]; rfl
    case neg =>
      have hle : 2 + n ≤ (id :: length :: rest).length := by simp; omega
      have hdata : slice (id :: length :: rest) 2 (2 + n) = (.ok (rest.take n) : Result Bytes) :=
        @slice_behind [id, length] rest 2 n rfl (by omega)
      rw [if_neg (mt hiff.mp hlt), if_neg hlt]
      change (slice _ 2 (2 + n) >>= _) = _
      rw [bind_of_ok hdata, bind_of_ok hid, checkIE_eq]
      simp only
      cases ({ id, data := rest.take n } : IE).malformed
      case true => rfl
      case false =>
        change (slice _ (2 + n) _ >>= _) = _
        rw [bind_of_ok (slice_rest hle), Nat.add_comm 2 n]
        rfl
  all_goals rfl

theorem splitUDH_eq (raw : Bytes) (esmClass : UInt8) :
    splitUDH raw esmClass = lift (SmppGateway.splitUDH raw esmClass) := by
  unfold splitUDH SmppGateway.splitUDH
  by_cases hflag : esmClass &&& 0x40 = 0
  case pos => rw [if_pos hflag, if_pos hflag]; rfl
  case neg =>
    rw [if_neg hflag, if_neg hflag]
    cases raw
    case nil => rfl
    case cons n ies =>
      have hzero : index (n :: ies) 0 = (.ok n : Result UInt8) := rfl
      rw [if_neg (by simp : ¬(n :: ies).length = 0), bind_of_ok hzero]
      change (if n.toNat + 1 ≤ 1 ∨ _ then _ else _) = lift (if n.toNat + 1 ≤ 1 ∨ _ then _ else _)
      by_cases hlen : n.toNat + 1 ≤ 1 ∨ (n :: ies).length < n.toNat + 1
      case pos => rw [if_pos hlen, if_pos hlen]; rfl
      case neg =>
        obtain ⟨-, hle⟩ := not_or.mp hlen
        rw [if_neg hlen, if_neg hlen]
        change (slice _ 1 _ >>= _) = _
        rw [bind_of_ok (slice_of_le (by omega) (by omega)), many_lift readIE_eq]
        cases many SmppGateway.readIE (((n :: ies).take (n.toNat + 1)).drop 1)
        case error e => rfl
        case ok elements =>
          change (slice _ 0 _ >>= _) = _
          rw [bind_of_ok (slice_of_le (by omega) (by omega)), bind_of_ok (slice_rest (by omega))]
          rfl

def concatAt (iei : UInt8) (data : Bytes) : Result (Option (UInt16 × UInt8 × UInt8)) :=
  if iei = 0x00 then
    if data.length = 3 then do
      pure (some ((← index data 0).toUInt16, ← index data 1, ← index data 2))
    else
      .ok none
  else if iei = 0x08 then
    if data.length = 4 then do
      pure (some (uint16 (← index data 0) (← index data 1), ← index data 2, ← index data 3))
    else
      .ok none
  else
    .ok none

def parseConcat (udh : Bytes) : Result (Option ConcatInfo) :=
  if udh.length = 0 then
    .ok none
  else do
    let n ← index udh 0
    if udh.length < 1 + n.toNat then
      pure none
    else
      go n.toNat (← slice udh 1 (1 + n.toNat))
where
  go : Nat → Bytes → Result (Option ConcatInfo)
    | 0, _ => .ok none
    | fuel + 1, ies =>
      if ies.length < 2 then
        .ok none
      else do
        let iei ← index ies 0
        let iedl ← index ies 1
        if ies.length < 2 + iedl.toNat then
          pure none
        else
          let data ← slice ies 2 (2 + iedl.toNat)
          match ← concatAt iei data with
          | some (reference, total, part) => pure (newConcatInfo reference total part)
          | none                          => go fuel (← slice ies (2 + iedl.toNat) ies.length)

def parseSAR (tlvs : List TLV) : Result (Option ConcatInfo) :=
  match findTLV tlvs tagSARMsgRefNum, findTLV tlvs tagSARTotalSegments, findTLV tlvs tagSARSegmentSeqnum with
  | some ref, some total, some part =>
    if (ref.length ≠ 1 ∧ ref.length ≠ 2) ∨ total.length ≠ 1 ∨ part.length ≠ 1 then
      .ok none
    else do
      let refNum ←
        if ref.length = 1 then do
          pure (← index ref 0).toUInt16
        else do
          pure (uint16 (← index ref 0) (← index ref 1))
      pure (newConcatInfo refNum (← index total 0) (← index part 0))
  | _, _, _ => .ok none

theorem concatAt_eq (iei : UInt8) (data : Bytes) : concatAt iei data = .ok ({ id := iei, data } : IE).concat? := by
  unfold concatAt IE.concat?
  by_cases hshort : iei = 0x00
  case pos =>
    simp only [if_pos hshort]
    rcases data with _ | ⟨ref, _ | ⟨total, _ | ⟨part, _ | ⟨x, data⟩⟩⟩⟩
    case cons.cons.cons.cons => rw [if_neg (by simp)]
    all_goals rfl
  case neg =>
    simp only [if_neg hshort]
    by_cases hlong : iei = 0x08
    case pos =>
      simp only [if_pos hlong]
      rcases data with _ | ⟨high, _ | ⟨low, _ | ⟨total, _ | ⟨part, _ | ⟨x, data⟩⟩⟩⟩⟩
      case cons.cons.cons.cons.cons => rw [if_neg (by simp)]
      all_goals rfl
    case neg => simp only [if_neg hlong]

theorem parseConcat.go_eq (fuel : Nat) (ies : Bytes) : go fuel ies = .ok (SmppGateway.parseConcat.go fuel ies) := by
  induction fuel generalizing ies
  case zero => rfl
  case succ fuel hi =>
    rcases ies with _ | ⟨iei, _ | ⟨iedl, rest⟩⟩
    case cons.cons =>
      have htwo : ¬(iei :: iedl :: rest).length < 2 := by simp
      unfold go SmppGateway.parseConcat.go
      rw [if_neg htwo]
      change (if (iei :: iedl :: rest).length < 2 + iedl.toNat then _ else _) = _
      generalize iedl.toNat = n
      have hiff : (iei :: iedl :: rest).length < 2 + n ↔ rest.length < n := by simp; omega
      by_cases hlt : rest.length < n
      case pos => rw [if_pos (hiff.mpr hlt), if_pos hlt]; rfl
      case neg =>
        have hle : 2 + n ≤ (iei :: iedl :: rest).length := by simp; omega
        have hdata : slice (iei :: iedl :: rest) 2 (2 + n) = (.ok (rest.take n) : Result Bytes) :=
          @slice_behind [iei, iedl] rest 2 n rfl (by omega)
        have hrest : (iei :: iedl :: rest).drop (2 + n) = rest.drop n := by rw [Nat.add_comm]; rfl
        rw [if_neg (mt hiff.mp hlt), if_neg hlt, bind_of_ok hdata, bind_of_ok (concatAt_eq ..)]
        cases ({ id := iei, data := rest.take n } : IE).concat?
        case some found => rfl
        case none =>
          change (slice _ (2 + n) _ >>= _) = _
          rw [bind_of_ok (slice_rest hle), hi, hrest]
    all_goals rfl

theorem parseConcat_eq (udh : Bytes) : parseConcat udh = .ok (SmppGateway.parseConcat udh) := by
  unfold parseConcat SmppGateway.parseConcat
  cases udh
  case nil => rfl
  case cons n ies =>
    have hzero : index (n :: ies) 0 = (.ok n : Result UInt8) := rfl
    rw [if_neg (by simp : ¬(n :: ies).length = 0), bind_of_ok hzero]
    simp only
    have hiff : (n :: ies).length < 1 + n.toNat ↔ ies.length < n.toNat := by simp; omega
    by_cases hlt : ies.length < n.toNat
    case pos => rw [if_pos (hiff.mpr hlt), if_pos hlt]; rfl
    case neg =>
      have hies : slice (n :: ies) 1 (1 + n.toNat) = (.ok (ies.take n.toNat) : Result Bytes) :=
        @slice_behind [n] ies 1 n.toNat rfl (by omega)
      rw [if_neg (mt hiff.mp hlt), if_neg hlt, bind_of_ok hies, parseConcat.go_eq]

theorem parseSAR_eq (tlvs : List TLV) : parseSAR tlvs = .ok (SmppGateway.parseSAR tlvs) := by
  unfold parseSAR SmppGateway.parseSAR
  rcases findTLV tlvs tagSARMsgRefNum with _ | ref
  case none => rfl
  case some =>
    rcases findTLV tlvs tagSARTotalSegments with _ | total
    case none => rcases ref with _ | ⟨a, _ | ⟨b, _ | ⟨c, ref⟩⟩⟩ <;> rfl
    case some =>
      rcases findTLV tlvs tagSARSegmentSeqnum with _ | part
      case none =>
        rcases ref with _ | ⟨a, _ | ⟨b, _ | ⟨c, ref⟩⟩⟩ <;> rcases total with _ | ⟨t, _ | ⟨t', total⟩⟩ <;> rfl
      case some =>
        rcases ref with _ | ⟨a, _ | ⟨b, _ | ⟨c, ref⟩⟩⟩ <;> rcases total with _ | ⟨t, _ | ⟨t', total⟩⟩ <;>
          rcases part with _ | ⟨p, _ | ⟨p', part⟩⟩ <;> rfl

def headerConcat : Option Bytes → Result (Option ConcatInfo)
  | some udh => parseConcat udh
  | none     => .ok none

def concatInfo (udh : Option Bytes) (tlvs : List TLV) : Result (Option ConcatInfo) := do
  match ← headerConcat udh with
  | some info => pure (some info)
  | none      =>
    match ← parseSAR tlvs with
    | some info => pure (some info)
    | none      => if hasSAR tlvs then throw (.failed .malformedSAR) else pure none

def parseSubmitSM (pdu : PDU) : Result SubmitSM := do
  let (f, offset) ← readSubmitFields pdu.body
  let tlvs ← parseTLVsStrict (← slice pdu.body offset pdu.body.length)
  if hasDuplicateSARTag tlvs then
    throw (.failed .duplicateSAR)
  let raw ← lift (userData f tlvs)
  let (udh, body) ← splitUDH raw f.esmClass
  let concat ← concatInfo udh tlvs
  if udh.isSome ∧ hasSAR tlvs then
    throw (.failed .udhAndSAR)
  pure (f.submitSM pdu.sequenceID offset tlvs udh body concat)

theorem concatInfo_eq (udh : Option Bytes) (tlvs : List TLV) :
    concatInfo udh tlvs = lift (SmppGateway.concatInfo udh tlvs) := by
  unfold concatInfo SmppGateway.concatInfo
  have hconcat : headerConcat udh = .ok (udh.bind SmppGateway.parseConcat) := by
    cases udh
    case none => rfl
    case some udh => exact parseConcat_eq udh
  rw [bind_of_ok hconcat]
  cases udh.bind SmppGateway.parseConcat
  case some info => rfl
  case none =>
    simp only
    rw [bind_of_ok (parseSAR_eq tlvs)]
    cases SmppGateway.parseSAR tlvs
    case some info => rfl
    case none => cases hasSAR tlvs <;> rfl

theorem parseSubmitSM_eq (pdu : PDU) : parseSubmitSM pdu = lift (SmppGateway.parseSubmitSM pdu) := by
  unfold parseSubmitSM SmppGateway.parseSubmitSM
  rw [readSubmitFields_eq]
  cases hfields : SmppGateway.readSubmitFields pdu.body
  case error e => rfl
  case ok r =>
    obtain ⟨f, rest⟩ := r
    obtain ⟨layout, -, -, hbody⟩ := readSubmitFields_ok hfields
    have hsuffix : rest <:+ pdu.body := hbody ▸ List.suffix_append ..
    change (slice pdu.body (pdu.body.length - rest.length) pdu.body.length >>= _) = lift (SmppGateway.parseTLVsStrict rest >>= _)
    rw [bind_of_ok (slice_rest (Nat.sub_le ..)), drop_of_suffix hsuffix, parseTLVsStrict, many_lift readTLV_eq, lift_bind]
    refine bind_congr fun tlvs => ?_
    unfold finishSubmit
    rw [hasDuplicateSARTag_eq]
    cases SmppGateway.hasDuplicateSARTag tlvs
    case true => rfl
    case false =>
      change (lift (userData f tlvs) >>= _) = lift (userData f tlvs >>= _)
      rw [lift_bind]
      refine bind_congr fun raw => ?_
      rw [splitUDH_eq, lift_bind]
      refine bind_congr fun parts => ?_
      obtain ⟨udh, body⟩ := parts
      change (concatInfo udh tlvs >>= _) = lift (SmppGateway.concatInfo udh tlvs >>= _)
      rw [concatInfo_eq, lift_bind]
      refine bind_congr fun concat => ?_
      by_cases hboth : udh.isSome ∧ hasSAR tlvs
      case pos => simp only [if_pos hboth]; rfl
      case neg => simp only [if_neg hboth]; rfl

end SmppGateway.Cursor
