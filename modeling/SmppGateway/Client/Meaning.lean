import SmppGateway.Client.Parts

-- What the parts of a text say to a receiver that reads their octets by the `data_coding` they carry.

namespace SmppGateway

open Go Parse

def decodeOctets (dataCoding : UInt8) (octets : Bytes) : List Char :=
  if dataCoding = 0x08 then
    utf16Decode (unitsOfBytes octets)
  else if dataCoding = 0x03 then
    octets.map fun b => Char.ofNat b.toNat
  else
    decodeSeptets octets

def Representable (dataCoding : UInt8) (rs : List Char) : Prop :=
  dataCoding = 0x00 ∧ (∀ r ∈ rs, isGSM7Basic r = true) ∨ dataCoding = 0x03 ∧ (∀ r ∈ rs, r.toNat ≤ 0xFF) ∨ dataCoding = 0x08

theorem Representable.mono {dataCoding : UInt8} {rs rs' : List Char} (h : Representable dataCoding rs)
    (hsub : ∀ r ∈ rs', r ∈ rs) : Representable dataCoding rs' := by
  rcases h with ⟨hdc, hgsm⟩ | ⟨hdc, hlatin⟩ | hdc
  case inl => exact .inl ⟨hdc, fun r hr => hgsm r (hsub r hr)⟩
  case inr.inl => exact .inr (.inl ⟨hdc, fun r hr => hlatin r (hsub r hr)⟩)
  case inr.inr => exact .inr (.inr hdc)

def SameInLatin1 (r : Char) : Prop :=
  gsm7Septets r = [r.toUInt8]

instance : DecidablePred SameInLatin1 :=
  fun _ => inferInstanceAs (Decidable (_ = _))

theorem ofNat_toUInt8 {r : Char} (h : r.toNat ≤ 0xFF) : Char.ofNat r.toUInt8.toNat = r := by
  have hval : r.toUInt8.toNat = r.toNat := by
    change r.val.toNat % 256 = r.val.toNat
    exact Nat.mod_eq_of_lt (Nat.lt_succ_of_le h)
  rw [hval, Char.ofNat_toNat]

theorem toUInt8_ofNat (b : UInt8) : (Char.ofNat b.toNat).toUInt8 = b := by
  have hvalid : b.toNat.isValidChar := .inl (b.toNat_lt.trans (by decide))
  apply UInt8.toNat_inj.mp
  change (Char.ofNat b.toNat).toNat % 256 = b.toNat
  have hchar : (Char.ofNat b.toNat).toNat = b.toNat := by
    rw [Char.ofNat, dif_pos hvalid]
    rfl
  rw [hchar]
  exact Nat.mod_eq_of_lt b.toNat_lt

theorem one_le_length_gsm7Septets (r : Char) : 1 ≤ (gsm7Septets r).length := by
  rw [length_gsm7Septets]
  split <;> omega

theorem length_le_flatMap_gsm7Septets (rs : List Char) : rs.length ≤ (rs.flatMap gsm7Septets).length := by
  induction rs
  case nil => exact Nat.le_refl _
  case cons r rs hi =>
    have hr := one_le_length_gsm7Septets r
    rw [List.flatMap_cons, List.length_append, List.length_cons]
    omega

theorem latin1_septets_iff {rs : List Char} (h : ∀ r ∈ rs, r.toNat ≤ 0xFF) :
    (rs.flatMap gsm7Septets).map (fun b => Char.ofNat b.toNat) = rs ↔ ∀ r ∈ rs, SameInLatin1 r := by
  induction rs
  case nil => simp
  case cons r rs hi =>
    obtain ⟨hr, hrs⟩ := List.forall_mem_cons.mp h
    rw [List.forall_mem_cons, ← hi hrs, List.flatMap_cons, List.map_append]
    constructor
    case mp =>
      intro heq
      have hlen := congrArg List.length heq
      have hle := length_le_flatMap_gsm7Septets rs
      obtain ⟨b, hb⟩ : ∃ b, gsm7Septets r = [b] := by
        rw [← List.length_eq_one_iff]
        have hpos := one_le_length_gsm7Septets r
        simp only [List.length_append, List.length_map, List.length_cons] at hlen
        omega
      rw [hb, List.map_singleton, List.singleton_append, List.cons.injEq] at heq
      refine ⟨?_, heq.2⟩
      rw [SameInLatin1, hb, ← heq.1, toUInt8_ofNat]
    case mpr =>
      rintro ⟨hsame, htail⟩
      rw [hsame, List.map_singleton, ofNat_toUInt8 hr, htail]
      rfl

namespace Client

def SubmitBodyParams.user (p : SubmitBodyParams) : Option Bytes × Bytes :=
  match splitUDH (p.shortMessage ++ p.messagePayload) p.esmClass with
  | .ok user => user
  | .error _ => (none, [])

-- A receiver reads the text, and the parts of a split one are no larger than a short message can be.
structure Means (isLetter : Char → Bool) (ref : UInt16) (msg : Message) (cfg : SMPPClientConfig) (rs : List Char) :
    Prop where
  read : ∀ p ∈ textParts isLetter ref msg cfg, ∃ concat, Carries p p.user.1 p.user.2 concat
  text : (textParts isLetter ref msg cfg).flatMap (fun p => decodeOctets p.dataCoding p.user.2) = rs
  size : 1 < (textParts isLetter ref msg cfg).length → ∀ p ∈ textParts isLetter ref msg cfg,
    p.dataCoding = 0x03 ∨ p.dataCoding = 0x08 → (p.user.1.getD []).length + p.user.2.length ≤ 140

def partTexts (ref : UInt16) (msg : Message) (cfg : SMPPClientConfig) : List Str :=
  if cfg.longMessage = lit "payload" then [msg.text] else (textSegments ref msg).map (·.text)

structure PartOf (msg : Message) (cfg : SMPPClientConfig) (p : SubmitBodyParams) (text : Str) : Prop where
  carries    : ∃ concat, Carries p p.user.1 p.user.2 concat
  dataCoding : p.dataCoding = wireDataCoding msg
  octets     : p.user.2 = encodeText text (wireDataCoding msg) cfg.gsm7Packing
  header     : (p.user.1.getD []).length ≤ 6

section Meaning

variable {isLetter : Char → Bool} {ref : UInt16} {msg : Message} {cfg : SMPPClientConfig} {p : SubmitBodyParams}
  {text : Str} {texts : List Str}

theorem Carries.user_eq {udh : Option Bytes} {octets : Bytes} {concat : Option ConcatInfo}
    (h : Carries p udh octets concat) : p.user = (udh, octets) := by
  rw [SubmitBodyParams.user, h.user]

theorem partOf_of_carries {udh : Option Bytes} {concat : Option ConcatInfo}
    (h : Carries p udh (encodeText text (wireDataCoding msg) cfg.gsm7Packing) concat) (hudh : (udh.getD []).length ≤ 6)
    (hdc : p.dataCoding = wireDataCoding msg) : PartOf msg cfg p text := by
  have huser := h.user_eq
  constructor
  case carries => exact ⟨concat, by rw [huser]; exact h⟩
  case dataCoding => exact hdc
  case octets => rw [huser]
  case header => rw [huser]; exact hudh

theorem textParts_partOf (hcount : (textSegments ref msg).length ≤ 255)
    (hoctets : (encodeText msg.text (wireDataCoding msg) cfg.gsm7Packing).length ≤ 65535) :
    List.Forall₂ (PartOf msg cfg) (textParts isLetter ref msg cfg) (partTexts ref msg cfg) := by
  unfold textParts partTexts
  dsimp only
  split
  case isTrue =>
    have hcarries : Carries { bodyParams isLetter msg cfg with
        messagePayload := encodeText msg.text (wireDataCoding msg) cfg.gsm7Packing } none
        (encodeText msg.text (wireDataCoding msg) cfg.gsm7Packing) none := by
      refine .of_params ⟨.inl rfl, nofun⟩ ?_ rfl (splitUDH_zero _) rfl nofun
      exact SubmitBodyParams.length_allTLVs nofun (Nat.zero_lt_succ _) (Nat.lt_succ_of_le hoctets)
    exact .cons (partOf_of_carries hcarries (Nat.zero_le _) rfl) .nil
  case isFalse =>
    rw [List.forall₂_map_left_iff, List.forall₂_map_right_iff, List.forall₂_same]
    intro segment hsegment
    obtain ⟨i, hi⟩ := List.mem_iff_getElem?.mp hsegment
    have hlt : i < (textSegments ref msg).length := (List.getElem?_eq_some_iff.mp hi).1
    have hv := (validConcatPart_all_iff _).mpr hcount i hlt
    obtain ⟨udh, hudh, hcarries⟩ := partParams_carries isLetter ref hi hv
    refine partOf_of_carries hcarries hudh ?_
    unfold partParams
    dsimp only
    split_ifs <;> rfl

theorem flatMap_partTexts : (partTexts ref msg cfg).flatMap runes = runes msg.text := by
  unfold partTexts
  split
  case isTrue => simp
  case isFalse =>
    rw [List.flatMap_map]
    exact flatMap_runes_split (splitRule_cuts _)

theorem decodeOctets_encodeText {dataCoding : UInt8} (hrep : Representable dataCoding (runes text))
    (hne : dataCoding ≠ 0x03) : decodeOctets dataCoding (encodeText text dataCoding (lit "unpacked")) = runes text := by
  rcases hrep with ⟨rfl, hgsm⟩ | ⟨rfl, -⟩ | rfl
  case inl =>
    have hseptets : decodeOctets 0x00 (encodeText text 0x00 (lit "unpacked")) =
        decodeSeptets ((runes text).flatMap gsm7Septets) := rfl
    rw [hseptets]
    exact decodeSeptets_flatMap fun r hr => by simpa [isGSM7Basic] using hgsm r hr
  case inr.inl => exact absurd rfl hne
  case inr.inr => exact utf16Decode_flatMap (runes text)

theorem representable_wire {rs : List Char} (h : Representable msg.dataCoding rs) :
    Representable (wireDataCoding msg) rs ∧ (wireDataCoding msg = 0x03 ↔ msg.dataCoding = 0x03) := by
  unfold wireDataCoding
  split
  case isTrue hc =>
    rw [hc.2.1]
    exact ⟨.inr (.inr rfl), by decide⟩
  case isFalse => exact ⟨h, Iff.rfl⟩

theorem flatMap_decodeOctets {parts : List SubmitBodyParams} (h : List.Forall₂ (PartOf msg cfg) parts texts) :
    parts.flatMap (fun p => decodeOctets p.dataCoding p.user.2) =
      texts.flatMap fun text =>
        decodeOctets (wireDataCoding msg) (encodeText text (wireDataCoding msg) cfg.gsm7Packing) := by
  induction h
  case nil => rfl
  case cons hp _ hi => rw [List.flatMap_cons, List.flatMap_cons, hi, hp.dataCoding, hp.octets]

theorem flatMap_decodeOctets_eq_iff {rs : List Char} (htexts : texts.flatMap runes = rs) {dataCoding : UInt8}
    (hrep : Representable dataCoding rs) :
    (texts.flatMap fun text => decodeOctets dataCoding (encodeText text dataCoding (lit "unpacked"))) = rs ↔
      (dataCoding = 0x03 → ∀ r ∈ rs, SameInLatin1 r) := by
  by_cases hdc : dataCoding = 0x03
  case pos =>
    subst hdc
    have hlatin : ∀ r ∈ rs, r.toNat ≤ 0xFF := by
      rcases hrep with ⟨h, -⟩ | ⟨-, h⟩ | h
      case inl => cases h
      case inr.inl => exact h
      case inr.inr => cases h
    have hall : (texts.flatMap fun text => decodeOctets 0x03 (encodeText text 0x03 (lit "unpacked"))) =
        (rs.flatMap gsm7Septets).map fun b => Char.ofNat b.toNat := by
      rw [← htexts, List.flatMap_assoc, List.map_flatMap]
      rfl
    rw [hall, latin1_septets_iff hlatin]
    exact ⟨fun h _ => h, fun h => h rfl⟩
  case neg =>
    refine iff_of_true ?_ fun h => absurd h hdc
    rw [← htexts]
    refine List.flatMap_congr fun text ht => decodeOctets_encodeText (hrep.mono fun r hr => ?_) hdc
    rw [← htexts]
    exact List.mem_flatMap.mpr ⟨text, ht, hr⟩

theorem exists_partOf {parts : List SubmitBodyParams} (h : List.Forall₂ (PartOf msg cfg) parts texts) (hp : p ∈ parts) :
    ∃ text ∈ texts, PartOf msg cfg p text := by
  induction h
  case nil => cases hp
  case cons q text _ _ hq _ hi =>
    rcases List.mem_cons.mp hp with rfl | hp
    case inl => exact ⟨text, List.mem_cons_self, hq⟩
    case inr =>
      obtain ⟨t, ht, hpart⟩ := hi hp
      exact ⟨t, List.mem_cons_of_mem _ ht, hpart⟩

theorem length_part (hmany : 1 < (partTexts ref msg cfg).length) (ht : text ∈ partTexts ref msg cfg)
    (hdc : wireDataCoding msg = 0x03 ∨ wireDataCoding msg = 0x08)
    (hsame : wireDataCoding msg = 0x03 → ∀ r ∈ runes text, SameInLatin1 r) :
    (encodeText text (wireDataCoding msg) (lit "unpacked")).length ≤ 134 := by
  unfold partTexts at hmany ht
  split at ht
  case isTrue hp => simp [if_pos hp] at hmany
  case isFalse hp =>
    rw [if_neg hp, List.length_map] at hmany
    obtain ⟨segment, hs, rfl⟩ := List.mem_map.mp ht
    have hpart := unitLen_part (splitRule_cuts _) hmany hs
    rcases hdc with hdc | hdc
    case inl =>
      have hencoding : wireEncoding msg = lit "8bit" := by
        rw [wireEncoding, hdc]
        rfl
      rw [hencoding] at hpart
      have hseptets : (encodeText segment.text 0x03 (lit "unpacked")).length = (runes segment.text).length := by
        have hlist : encodeText segment.text 0x03 (lit "unpacked") = (runes segment.text).flatMap gsm7Septets := rfl
        rw [hlist, List.length_flatMap,
          List.map_congr_left fun r hr => congrArg List.length (hsame hdc r hr)]
        simp
      rw [hdc, hseptets]
      exact (length_le_unitLen (runeLen_pos _) _).trans hpart
    case inr =>
      have hencoding : wireEncoding msg = lit "ucs2" := by
        rw [wireEncoding, if_pos hdc]
      rw [hencoding] at hpart
      rw [hdc, length_encodeText_ucs2]
      have hlimit : unitLen utf16RuneLen (runes segment.text) ≤ 67 := hpart
      omega

variable {rs : List Char} (h : IsPlain msg) (htext : msg.text = utf8 rs) (hrep : Representable msg.dataCoding rs)
  (hcount : (textSegments ref msg).length ≤ 255)
  (hoctets : (encodeText msg.text (wireDataCoding msg) cfg.gsm7Packing).length ≤ 65535)
  (hpacking : cfg.gsm7Packing = lit "unpacked")
include h htext hrep hcount hoctets hpacking

-- The client writes the octets of GSM 03.38 under the coding of Latin-1.
theorem text_meaning_iff :
    buildSubmitSM isLetter ref msg cfg = (textParts isLetter ref msg cfg).map buildSubmitBody ∧
      (Means isLetter ref msg cfg rs ↔ (msg.dataCoding = 0x03 → ∀ r ∈ rs, SameInLatin1 r)) := by
  refine ⟨h.buildSubmitSM_eq_map, ?_⟩
  obtain ⟨hwire, hlatin⟩ := representable_wire hrep
  have hparts : List.Forall₂ (PartOf msg cfg) (textParts isLetter ref msg cfg) (partTexts ref msg cfg) :=
    textParts_partOf hcount hoctets
  have htexts : (partTexts ref msg cfg).flatMap runes = rs := by rw [flatMap_partTexts, htext, runes_utf8]
  have hmeans : (textParts isLetter ref msg cfg).flatMap (fun p => decodeOctets p.dataCoding p.user.2) = rs ↔
      (msg.dataCoding = 0x03 → ∀ r ∈ rs, SameInLatin1 r) := by
    rw [flatMap_decodeOctets hparts, hpacking, flatMap_decodeOctets_eq_iff htexts hwire, hlatin]
  constructor
  case mp => exact fun hm => hmeans.mp hm.text
  case mpr =>
    intro hsame
    refine ⟨fun p hp => ?_, hmeans.mpr hsame, fun hmany p hp hdc => ?_⟩
    case refine_1 =>
      obtain ⟨text, -, hpart⟩ := exists_partOf hparts hp
      exact hpart.carries
    case refine_2 =>
      obtain ⟨text, ht, hpart⟩ := exists_partOf hparts hp
      rw [hpart.dataCoding] at hdc
      have hoctets := length_part (hparts.length_eq ▸ hmany) ht hdc fun hwire3 r hr => by
        refine hsame (hlatin.mp hwire3) r ?_
        rw [← htexts]
        exact List.mem_flatMap.mpr ⟨text, ht, hr⟩
      have hheader := hpart.header
      rw [hpart.octets, hpacking]
      omega

end Meaning

def latin1Message (rs : List Char) : Message where
  sourceAddr := lit "1000"
  destAddr   := lit "2000"
  dataCoding := 0x03
  text       := utf8 rs

theorem text_meaning_iff_ascii : Means (fun _ => false) 9 (latin1Message ['h', 'i']) {} ['h', 'i'] :=
  (text_meaning_iff ⟨rfl, rfl, rfl⟩ rfl (.inr (.inl ⟨rfl, by simp⟩)) (by decide) (by decide) rfl).2.mpr fun _ => by
    rw [List.forall_mem_cons, List.forall_mem_singleton]
    decide

-- Latin-1 has an octet for the commercial at, but another one than GSM 03.38.
theorem at_sign_misread :
    IsPlain (latin1Message ['a', '@', 'b']) ∧ Representable 0x03 ['a', '@', 'b'] ∧
      ¬Means (fun _ => false) 9 (latin1Message ['a', '@', 'b']) {} ['a', '@', 'b'] := by
  refine ⟨⟨rfl, rfl, rfl⟩, .inr (.inl ⟨rfl, by simp⟩), fun h => ?_⟩
  exact absurd h.text (by decide +kernel)

end Client

end SmppGateway
