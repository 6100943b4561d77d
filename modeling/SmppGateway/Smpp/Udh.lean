import SmppGateway.Smpp.Pdu

-- User data headers and the two ways to number the parts of a long message (`internal/smpp/udh.go`).

namespace SmppGateway

open Parse

variable {ie : IE} {ies : List IE} {esmClass : UInt8} {info : ConcatInfo}

structure ConcatInfo where
  reference : UInt16
  total     : UInt8
  part      : UInt8
  deriving DecidableEq, Repr

def validConcatPart (total part : UInt8) : Bool :=
  0 < total && 0 < part && part ≤ total

def newConcatInfo (reference : UInt16) (total part : UInt8) : Option ConcatInfo :=
  if validConcatPart total part then some { reference, total, part } else none

structure IE where
  id   : UInt8
  data : List UInt8
  deriving DecidableEq, Repr

def IE.concat? (ie : IE) : Option (UInt16 × UInt8 × UInt8) :=
  if ie.id = 0x00 then
    match ie.data with
    | [ref, total, part] => some (ref.toUInt16, total, part)
    | _                  => none
  else if ie.id = 0x08 then
    match ie.data with
    | [high, low, total, part] => some (uint16 high low, total, part)
    | _                        => none
  else
    none

def IE.malformed (ie : IE) : Bool :=
  match ie.concat? with
  | some (_, total, part) => !validConcatPart total part
  | none                  => ie.id = 0x00 || ie.id = 0x08

def readIE : Reader UInt8 IE ParseError
  | id :: length :: rest =>
    if rest.length < length.toNat then
      .error .malformedIE
    else
      let ie : IE := { id, data := rest.take length.toNat }
      if ie.malformed then .error .malformedConcat else .ok (ie, rest.drop length.toNat)
  | _ => .error .malformedIE

def splitUDH (raw : Bytes) (esmClass : UInt8) : Except ParseError (Option Bytes × Bytes) :=
  if esmClass &&& 0x40 = 0 then
    .ok (none, raw)
  else
    match raw with
    | []     => .error .emptyUDH
    | n :: _ =>
      let udhLen := n.toNat + 1
      if udhLen ≤ 1 ∨ raw.length < udhLen then
        .error .udhTooLong
      else
        match many readIE ((raw.take udhLen).drop 1) with
        | .error e => .error e
        | .ok _    => .ok (some (raw.take udhLen), raw.drop udhLen)

def parseConcat (udh : Bytes) : Option ConcatInfo :=
  match udh with
  | []       => none
  | n :: ies => if ies.length < n.toNat then none else go n.toNat (ies.take n.toNat)
where
  -- The fuel is the number of octets left, and each element takes at least two.
  go : Nat → Bytes → Option ConcatInfo
    | fuel + 1, id :: length :: rest =>
      if rest.length < length.toNat then
        none
      else
        match ({ id, data := rest.take length.toNat } : IE).concat? with
        | some (reference, total, part) => newConcatInfo reference total part
        | none                          => go fuel (rest.drop length.toNat)
    | _, _ => none

def isSARTag (tag : UInt16) : Bool :=
  tag = tagSARMsgRefNum || tag = tagSARTotalSegments || tag = tagSARSegmentSeqnum

def parseSAR (tlvs : List TLV) : Option ConcatInfo :=
  match findTLV tlvs tagSARMsgRefNum, findTLV tlvs tagSARTotalSegments,
    findTLV tlvs tagSARSegmentSeqnum with
  | some [ref], some [total], some [part]       => newConcatInfo ref.toUInt16 total part
  | some [high, low], some [total], some [part] => newConcatInfo (uint16 high low) total part
  | _, _, _                                     => none

def hasSAR (tlvs : List TLV) : Bool :=
  tlvs.any fun item => isSARTag item.tag

def hasDuplicateSARTag (tlvs : List TLV) : Bool :=
  ¬((tlvs.map (·.tag)).filter isSARTag).Nodup

theorem parseSAR_congr {tlvs tlvs' : List TLV}
    (h : ∀ tag, isSARTag tag → findTLV tlvs tag = findTLV tlvs' tag) : parseSAR tlvs = parseSAR tlvs' := by
  unfold parseSAR
  rw [h _ (by decide), h _ (by decide), h _ (by decide)]

theorem isSARTag_iff {tag : UInt16} :
    isSARTag tag ↔ tag = tagSARMsgRefNum ∨ tag = tagSARTotalSegments ∨ tag = tagSARSegmentSeqnum := by
  simp [isSARTag, or_assoc]

theorem ne_messagePayload_of_isSARTag {tag : UInt16} (h : isSARTag tag) : tag ≠ tagMessagePayload := by
  rintro rfl
  exact absurd h (by decide)

theorem splitUDH_zero (raw : Bytes) : splitUDH raw 0 = .ok (none, raw) := by
  simp [splitUDH]

theorem splitUDH_some {raw udh body : Bytes} (h : splitUDH raw esmClass = .ok (some udh, body)) :
    esmClass &&& 0x40 ≠ 0 ∧ raw = udh ++ body ∧ udh ≠ [] := by
  unfold splitUDH at h
  split at h
  case isTrue => cases h
  case isFalse he =>
    split at h
    case h_1 => cases h
    case h_2 n rest =>
      simp only at h
      split at h
      case isTrue => cases h
      case isFalse hn =>
        split at h
        case h_1 => cases h
        case h_2 => cases h; exact ⟨he, (List.take_append_drop ..).symm, by simp⟩

theorem splitUDH_none {raw body : Bytes} (h : splitUDH raw esmClass = .ok (none, body)) :
    esmClass &&& 0x40 = 0 ∧ body = raw := by
  unfold splitUDH at h
  split at h
  case isTrue he => cases h; exact ⟨he, rfl⟩
  case isFalse =>
    split at h
    case h_1 => cases h
    case h_2 =>
      simp only at h
      split at h
      case isTrue => cases h
      case isFalse => split at h <;> cases h

theorem splitUDH_congr {raw : Bytes} {esmClass esmClass' : UInt8}
    (h : esmClass &&& 0x40 = 0 ↔ esmClass' &&& 0x40 = 0) : splitUDH raw esmClass = splitUDH raw esmClass' := by
  unfold splitUDH
  simp only [h]

def IE.bytes (ie : IE) : Bytes :=
  ie.id :: UInt8.ofNat ie.data.length :: ie.data

def IE.isConcat (ie : IE) : Bool :=
  ie.id = 0x00 || ie.id = 0x08

structure Header (udh : Bytes) (ies : List IE) : Prop where
  octets : udh = UInt8.ofNat (ies.flatMap IE.bytes).length :: ies.flatMap IE.bytes
  length : (ies.flatMap IE.bytes).length < 256
  data   : ∀ ie ∈ ies, ie.data.length < 256

inductive IE.Says : IE → ConcatInfo → Prop
  | short (ref total part : UInt8) : Says ⟨0x00, [ref, total, part]⟩ ⟨ref.toUInt16, total, part⟩
  | long (high low total part : UInt8) : Says ⟨0x08, [high, low, total, part]⟩ ⟨uint16 high low, total, part⟩

theorem ofNat_length {data : Bytes} (h : data.length < 256) : (UInt8.ofNat data.length).toNat = data.length := by
  rw [UInt8.toNat_ofNat', Nat.mod_eq_of_lt h]

theorem readIE_bytes (hdata : ie.data.length < 256) (hok : ie.malformed = false) (rest : Bytes) :
    readIE (ie.bytes ++ rest) = .ok (ie, rest) := by
  simp [IE.bytes, readIE, Nat.mod_eq_of_lt hdata, hok]

theorem readIE_ok {l rest : Bytes} (h : readIE l = .ok (ie, rest)) :
    l = ie.bytes ++ rest ∧ ie.data.length < 256 ∧ ie.malformed = false := by
  unfold readIE at h
  split at h
  case h_1 id length rest' =>
    split at h
    case isTrue => cases h
    case isFalse hlen =>
      simp only at h
      split at h
      case isTrue => cases h
      case isFalse hok =>
        cases h
        have hdata : (rest'.take length.toNat).length = length.toNat := List.length_take_of_le (Nat.le_of_not_lt hlen)
        refine ⟨?_, hdata.trans_lt length.toNat_lt, Bool.eq_false_iff.mpr hok⟩
        simp [IE.bytes, hdata]
  case h_2 => cases h

theorem readIE_consumes : Consumes readIE := by
  intro l ie rest h
  rw [(readIE_ok h).1, List.length_append]
  simp [IE.bytes]

theorem flatMap_bytes_injective {ies ies' : List IE} (h : ∀ ie ∈ ies, ie.data.length < 256)
    (h' : ∀ ie ∈ ies', ie.data.length < 256) (heq : ies.flatMap IE.bytes = ies'.flatMap IE.bytes) : ies = ies' := by
  induction ies generalizing ies'
  case nil =>
    cases ies'
    case nil => rfl
    case cons ie ies' => cases heq
  case cons ie ies hi =>
    cases ies'
    case nil => cases heq
    case cons ie' ies' =>
      obtain ⟨hie, hies⟩ := List.forall_mem_cons.mp h
      obtain ⟨hie', hies'⟩ := List.forall_mem_cons.mp h'
      simp only [List.flatMap_cons, IE.bytes, List.cons_append, List.cons.injEq] at heq
      obtain ⟨hid, hsize, htail⟩ := heq
      have hlen : ie.data.length = ie'.data.length := by
        rw [← ofNat_length hie, hsize, ofNat_length hie']
      obtain ⟨hdata, hrest⟩ := List.append_inj htail hlen
      obtain ⟨id, data⟩ := ie
      obtain ⟨id', data'⟩ := ie'
      cases hid
      cases hdata
      rw [hi hies hies' hrest]

theorem Header.unique {udh : Bytes} {ies ies' : List IE} (h : Header udh ies) (h' : Header udh ies') : ies = ies' := by
  have heq := h.octets.symm.trans h'.octets
  rw [List.cons.injEq] at heq
  exact flatMap_bytes_injective h.data h'.data heq.2

theorem IE.isConcat_iff : ie.isConcat = true ↔ ie.id = 0x00 ∨ ie.id = 0x08 := by
  simp [isConcat]

theorem validConcatPart_iff {total part : UInt8} : validConcatPart total part = true ↔ 1 ≤ part ∧ part ≤ total := by
  simp only [validConcatPart, Bool.and_eq_true, decide_eq_true_eq, UInt8.lt_iff_toNat_lt, UInt8.le_iff_toNat_le]
  simp only [UInt8.toNat_zero, UInt8.toNat_one]
  omega

def IE.WellFormed (ie : IE) : Prop :=
  ie.id = 0x00 ∨ ie.id = 0x08 → ∃ info, ie.Says info ∧ 1 ≤ info.part ∧ info.part ≤ info.total

theorem IE.Says.concat? (h : ie.Says info) : ie.concat? = some (info.reference, info.total, info.part) := by
  cases h <;> rfl

theorem IE.concat?_cases (h : ie.malformed = false) :
    (ie.isConcat = false ∧ ie.concat? = none) ∨
    ∃ info, ie.isConcat = true ∧ ie.Says info ∧ validConcatPart info.total info.part = true ∧
      ie.concat? = some (info.reference, info.total, info.part) := by
  obtain ⟨id, data⟩ := ie
  by_cases hshort : id = 0x00
  case pos =>
    subst hshort
    rcases data with _ | ⟨ref, _ | ⟨total, _ | ⟨part, _ | ⟨_, _⟩⟩⟩⟩
    case cons.cons.cons.nil =>
      exact .inr ⟨⟨ref.toUInt16, total, part⟩, rfl, .short .., by simpa [malformed, concat?] using h, rfl⟩
    all_goals cases h
  case neg =>
    by_cases hlong : id = 0x08
    case pos =>
      subst hlong
      rcases data with _ | ⟨high, _ | ⟨low, _ | ⟨total, _ | ⟨part, _ | ⟨_, _⟩⟩⟩⟩⟩
      case cons.cons.cons.cons.nil =>
        exact .inr ⟨⟨uint16 high low, total, part⟩, rfl, .long .., by simpa [malformed, concat?] using h, rfl⟩
      all_goals cases h
    case neg => exact .inl ⟨by simp [isConcat, hshort, hlong], by simp [concat?, hshort, hlong]⟩

theorem IE.malformed_eq_false : ie.malformed = false ↔ ie.WellFormed := by
  constructor
  case mp =>
    intro h hid
    rcases IE.concat?_cases h with ⟨hno, -⟩ | ⟨info, -, hmeans, hvalid, -⟩
    case inl => rw [isConcat_iff.mpr hid] at hno; cases hno
    case inr => exact ⟨info, hmeans, validConcatPart_iff.mp hvalid⟩
  case mpr =>
    intro h
    by_cases hid : ie.id = 0x00 ∨ ie.id = 0x08
    case pos =>
      obtain ⟨info, hmeans, hpart⟩ := h hid
      simp [malformed, hmeans.concat?, validConcatPart_iff.mpr hpart]
    case neg =>
      obtain ⟨hshort, hlong⟩ := not_or.mp hid
      simp [malformed, concat?, hshort, hlong]

theorem parseConcat.go_flatMap (hdata : ∀ ie ∈ ies, ie.data.length < 256) (hok : ∀ ie ∈ ies, ie.malformed = false)
    {fuel : Nat} (hfuel : (ies.flatMap IE.bytes).length ≤ fuel) :
    (go fuel (ies.flatMap IE.bytes) = none ∧ ∀ ie ∈ ies, ie.isConcat = false) ∨
    ∃ before ie after info, ies = before ++ ie :: after ∧ (∀ e ∈ before, e.isConcat = false) ∧ ie.isConcat = true ∧
      ie.Says info ∧ validConcatPart info.total info.part = true ∧ go fuel (ies.flatMap IE.bytes) = some info := by
  induction ies generalizing fuel
  case nil => exact .inl ⟨by cases fuel <;> rfl, by simp⟩
  case cons ie ies hi =>
    obtain ⟨hie, hies⟩ := List.forall_mem_cons.mp hdata
    obtain ⟨hokie, hokies⟩ := List.forall_mem_cons.mp hok
    simp only [List.flatMap_cons, List.length_append, IE.bytes, List.length_cons] at hfuel
    cases fuel
    case zero => omega
    case succ fuel =>
      rcases ie.concat?_cases hokie with ⟨hno, hnone⟩ | ⟨info, his, hmeans, hvalid, hsome⟩
      case inl =>
        have hstep : go (fuel + 1) ((ie :: ies).flatMap IE.bytes) = go fuel (ies.flatMap IE.bytes) := by
          simp [IE.bytes, go, Nat.mod_eq_of_lt hie, hnone]
        have hfuel' : (ies.flatMap IE.bytes).length ≤ fuel := by omega
        rw [hstep]
        rcases hi hies hokies hfuel' with ⟨hgo, hall⟩ | ⟨before, ie', after, info, heq, hbefore, h⟩
        case inl => exact .inl ⟨hgo, List.forall_mem_cons.mpr ⟨hno, hall⟩⟩
        case inr =>
          refine .inr ⟨ie :: before, ie', after, info, by rw [heq]; rfl, ?_, h⟩
          exact List.forall_mem_cons.mpr ⟨hno, hbefore⟩
      case inr =>
        have hstep : go (fuel + 1) ((ie :: ies).flatMap IE.bytes) = some info := by
          simp [IE.bytes, go, Nat.mod_eq_of_lt hie, hsome, newConcatInfo, hvalid]
        exact .inr ⟨[], ie, ies, info, rfl, by simp, his, hmeans, hvalid, hstep⟩

structure WellFormedHeader (udh : Bytes) (ies : List IE) : Prop extends Header udh ies where
  nonempty   : ies ≠ []
  wellFormed : ∀ ie ∈ ies, ie.WellFormed

theorem splitUDH_eq_some {raw udh body : Bytes} (hflag : esmClass &&& 0x40 ≠ 0) :
    splitUDH raw esmClass = .ok (some udh, body) ↔ raw = udh ++ body ∧ ∃ ies, WellFormedHeader udh ies := by
  constructor
  case mp =>
    intro h
    refine ⟨(splitUDH_some h).2.1, ?_⟩
    unfold splitUDH at h
    rw [if_neg hflag] at h
    split at h
    case h_1 => cases h
    case h_2 n rest =>
      simp only at h
      split at h
      case isTrue => cases h
      case isFalse hn =>
        obtain ⟨hone, hlen⟩ := not_or.mp hn
        rw [List.length_cons] at hlen
        split at h
        case h_1 => cases h
        case h_2 ies hies =>
          cases h
          rw [List.take_succ_cons, List.drop_succ_cons, List.drop_zero] at hies
          have hrest := many_ok readIE_consumes (fun hi => (readIE_ok hi).1) hies
          have hsize : (ies.flatMap IE.bytes).length = n.toNat := by
            rw [← hrest]
            exact List.length_take_of_le (by omega)
          refine ⟨ies, ⟨⟨?_, hsize ▸ n.toNat_lt, ?_⟩, ?_, ?_⟩⟩
          case refine_1 => rw [hsize, UInt8.ofNat_toNat, List.take_succ_cons, hrest]
          case refine_2 => exact many_forall readIE_consumes (fun _ _ _ hi => (readIE_ok hi).2.1) hies
          case refine_3 =>
            rintro rfl
            rw [List.flatMap_nil, List.length_nil] at hsize
            omega
          case refine_4 =>
            exact many_forall readIE_consumes (fun _ _ _ hi => IE.malformed_eq_false.mp (readIE_ok hi).2.2) hies
  case mpr =>
    rintro ⟨rfl, ies, h⟩
    have hsize : (UInt8.ofNat (ies.flatMap IE.bytes).length).toNat = (ies.flatMap IE.bytes).length :=
      ofNat_length h.length
    have hpos : 0 < (ies.flatMap IE.bytes).length := by
      obtain ⟨ie, ies, rfl⟩ := List.exists_cons_of_ne_nil h.nonempty
      simp [IE.bytes]
    have hmany : many readIE (ies.flatMap IE.bytes) = .ok ies :=
      many_flatMap readIE_consumes fun ie hie rest =>
        readIE_bytes (h.data ie hie) (IE.malformed_eq_false.mpr (h.wellFormed ie hie)) rest
    have hudh := h.octets
    generalize hoctets : ies.flatMap IE.bytes = octets at hsize hpos hmany hudh
    have hlen : ¬((octets ++ body).length + 1 < octets.length + 1) := by simp
    subst hudh
    simp only [splitUDH, if_neg hflag, List.cons_append, hsize, List.take_succ_cons, List.drop_succ_cons, List.drop_zero,
      List.take_left, List.drop_left, hmany, List.length_cons, hlen, or_false, if_neg (show ¬octets.length + 1 ≤ 1 by omega)]

structure FirstSays (ies : List IE) (info : ConcatInfo) : Prop where
  split : ∃ before ie after, ies = before ++ ie :: after ∧ (∀ e ∈ before, ¬(e.id = 0x00 ∨ e.id = 0x08)) ∧ ie.Says info
  part  : 1 ≤ info.part ∧ info.part ≤ info.total

theorem IE.Says.id (h : ie.Says info) : ie.id = 0x00 ∨ ie.id = 0x08 := by
  cases h
  case short => exact .inl rfl
  case long => exact .inr rfl

theorem FirstSays.find? (h : FirstSays ies info) : ∃ ie, ies.find? IE.isConcat = some ie ∧ ie.Says info := by
  obtain ⟨before, ie, after, rfl, hbefore, hmeans⟩ := h.split
  refine ⟨ie, List.find?_eq_some_iff_append.mpr ⟨IE.isConcat_iff.mpr hmeans.id, before, after, rfl, fun e he => ?_⟩, hmeans⟩
  have hno := hbefore e he
  rw [← IE.isConcat_iff] at hno
  simpa using hno

theorem FirstSays.unique {info info' : ConcatInfo} (h : FirstSays ies info) (h' : FirstSays ies info') :
    info = info' := by
  obtain ⟨ie, hfind, hmeans⟩ := h.find?
  obtain ⟨ie', hfind', hmeans'⟩ := h'.find?
  cases hfind.symm.trans hfind'
  have heq := hmeans.concat?.symm.trans hmeans'.concat?
  simp only [Option.some.injEq, Prod.mk.injEq] at heq
  obtain ⟨reference, total, part⟩ := info
  obtain ⟨rfl, rfl, rfl⟩ := heq
  rfl

theorem WellFormedHeader.parseConcat_cases {udh : Bytes} (h : WellFormedHeader udh ies) :
    (parseConcat udh = none ∧ ∀ ie ∈ ies, ¬(ie.id = 0x00 ∨ ie.id = 0x08)) ∨
    ∃ info, parseConcat udh = some info ∧ (∃ ie ∈ ies, ie.id = 0x00 ∨ ie.id = 0x08) ∧ FirstSays ies info := by
  have hparse : parseConcat udh = parseConcat.go (ies.flatMap IE.bytes).length (ies.flatMap IE.bytes) := by
    have hsize := ofNat_length h.length
    rw [h.octets]
    simp only [parseConcat, hsize, Nat.lt_irrefl, if_false, List.take_length]
  have hnot {ie : IE} (hie : ie.isConcat = false) : ¬(ie.id = 0x00 ∨ ie.id = 0x08) := by
    rw [← IE.isConcat_iff, hie]
    exact Bool.false_ne_true
  rw [hparse]
  have hok : ∀ ie ∈ ies, ie.malformed = false := fun ie hie => IE.malformed_eq_false.mpr (h.wellFormed ie hie)
  rcases parseConcat.go_flatMap h.data hok (Nat.le_refl _) with
    ⟨hnone, hall⟩ | ⟨before, ie, after, info, rfl, hbefore, hie, hmeans, hvalid, hsome⟩
  case inl => exact .inl ⟨hnone, fun ie hie => hnot (hall ie hie)⟩
  case inr =>
    refine .inr ⟨info, hsome, ⟨ie, by simp, IE.isConcat_iff.mp hie⟩, ?_, validConcatPart_iff.mp hvalid⟩
    exact ⟨before, ie, after, rfl, fun e he => hnot (hbefore e he), hmeans⟩

-- What the check has let pass, the extraction reads to the end, and it finds the first concatenation element.
theorem udh_walkers_agree {raw : Bytes} {esmClass : UInt8} (hflag : esmClass &&& 0x40 ≠ 0)
    {r : Option Bytes × Bytes} (h : splitUDH raw esmClass = .ok r) :
    ∃ udh body ies, r = (some udh, body) ∧ udh ++ body = raw ∧
      Header udh ies ∧ (∀ ies', Header udh ies' → ies' = ies) ∧
      ((parseConcat udh).isSome ↔ ∃ ie ∈ ies, ie.id = 0x00 ∨ ie.id = 0x08) ∧
      ∀ info, parseConcat udh = some info → FirstSays ies info := by
  obtain ⟨udh?, body⟩ := r
  cases udh?
  case none => exact absurd (splitUDH_none h).1 hflag
  case some udh =>
    obtain ⟨hraw, ies, hies⟩ := (splitUDH_eq_some hflag).mp h
    refine ⟨udh, body, ies, rfl, hraw.symm, hies.toHeader, fun ies' h' => h'.unique hies.toHeader, ?_⟩
    rcases hies.parseConcat_cases with ⟨hnone, hall⟩ | ⟨info, hsome, hexists, hfirst⟩
    case inl =>
      rw [hnone]
      refine ⟨⟨fun hsome => absurd hsome (by simp), ?_⟩, by simp⟩
      rintro ⟨ie, hie, hid⟩
      exact absurd hid (hall ie hie)
    case inr =>
      rw [hsome]
      refine ⟨⟨fun _ => hexists, fun _ => rfl⟩, fun info' heq => ?_⟩
      cases heq
      exact hfirst

theorem udh_walkers_agree_after_unknown :
    (parseConcat [0x08, 0x70, 0x01, 0xAA, 0x00, 0x03, 0x07, 0x02, 0x01]).isSome := by
  have h : splitUDH [0x08, 0x70, 0x01, 0xAA, 0x00, 0x03, 0x07, 0x02, 0x01, 0x41] 0x40 =
      .ok (some [0x08, 0x70, 0x01, 0xAA, 0x00, 0x03, 0x07, 0x02, 0x01], [0x41]) := by decide
  obtain ⟨udh, body, ies, hr, -, hheader, hunique, hiff, -⟩ := udh_walkers_agree (by decide) h
  cases hr
  refine hiff.mpr ?_
  have hies : Header [0x08, 0x70, 0x01, 0xAA, 0x00, 0x03, 0x07, 0x02, 0x01] [⟨0x70, [0xAA]⟩, ⟨0x00, [0x07, 0x02, 0x01]⟩] :=
    ⟨by decide, by decide, by simp⟩
  rw [← hunique _ hies]
  exact ⟨⟨0x00, [0x07, 0x02, 0x01]⟩, by simp, .inl rfl⟩

end SmppGateway
