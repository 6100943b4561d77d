import SmppGateway.Go.Str

-- The character codings of `internal/message/codec.go`.

namespace SmppGateway

open Go

def gsm7DefaultRunes : List Char :=
  ['@', '£', '$', '¥', 'è', 'é', 'ù', 'ì', 'ò', 'Ç', '\n', 'Ø', 'ø', '\r', 'Å', 'å',
    'Δ', '_', 'Φ', 'Γ', 'Λ', 'Ω', 'Π', 'Ψ', 'Σ', 'Θ', 'Ξ', '\x00', 'Æ', 'æ', 'ß', 'É',
    ' ', '!', '"', '#', '¤', '%', '&', '\x27', '(', ')', '*', '+', ',', '-', '.', '/',
    '0', '1', '2', '3', '4', '5', '6', '7', '8', '9', ':', ';', '<', '=', '>', '?',
    '¡', 'A', 'B', 'C', 'D', 'E', 'F', 'G', 'H', 'I', 'J', 'K', 'L', 'M', 'N', 'O',
    'P', 'Q', 'R', 'S', 'T', 'U', 'V', 'W', 'X', 'Y', 'Z', 'Ä', 'Ö', 'Ñ', 'Ü', '§',
    '¿', 'a', 'b', 'c', 'd', 'e', 'f', 'g', 'h', 'i', 'j', 'k', 'l', 'm', 'n', 'o',
    'p', 'q', 'r', 's', 't', 'u', 'v', 'w', 'x', 'y', 'z', 'ä', 'ö', 'ñ', 'ü', 'à']

def gsm7ExtToRune : List (UInt8 × Char) :=
  [(0x0A, '\x0c'), (0x14, '^'), (0x28, '\x7b'), (0x29, '\x7d'), (0x2F, '\x5c'), (0x3C, '['), (0x3D, '~'),
    (0x3E, ']'), (0x40, '|'), (0x65, '€')]

-- The maps that `init` builds from the two tables. No rune stands twice in a table.
def gsm7DefaultCodes (r : Char) : Option UInt8 :=
  if r = '\x00' then none else (gsm7DefaultRunes.idxOf? r).map UInt8.ofNat

def gsm7RuneToExt (r : Char) : Option UInt8 :=
  (gsm7ExtToRune.find? (·.2 = r)).map (·.1)

def gsm7Septets (r : Char) : List UInt8 :=
  match gsm7DefaultCodes r with
  | some code => [code]
  | none      =>
    match gsm7RuneToExt r with
    | some code => [0x1B, code]
    | none      => [(gsm7DefaultCodes '?').getD 0]

def encodeGSM7Unpacked (text : Str) : List UInt8 :=
  (runes text).flatMap gsm7Septets

-- The loop body of `encodeGSM7Packed`: septet number `i` goes to the bits from `7 * i` on.
def packSeptet (out : List UInt8) (septet : UInt8) (i : Nat) : List UInt8 :=
  let byteIndex := i * 7 / 8
  let shift := i * 7 % 8
  let out := out.modify byteIndex (· ||| septet <<< UInt8.ofNat shift)
  if shift > 1 ∧ byteIndex + 1 < out.length then
    out.modify (byteIndex + 1) (· ||| septet >>> UInt8.ofNat (8 - shift))
  else
    out

def encodeGSM7Packed (text : Str) : List UInt8 :=
  let septets := (runes text).flatMap gsm7Septets
  septets.zipIdx.foldl (fun out (septet, i) => packSeptet out septet i)
    (List.replicate ((septets.length * 7 + 7) / 8) 0)

def unpackSeptet (body : List UInt8) (i : Nat) : Option UInt8 := do
  let byteIndex := i * 7 / 8
  let shift := i * 7 % 8
  let low ← body[byteIndex]?
  let value := low >>> UInt8.ofNat shift &&& 0x7F
  match body[byteIndex + 1]? with
  | some high => if shift > 1 then value ||| high <<< UInt8.ofNat (8 - shift) &&& 0x7F else value
  | none      => value

def unpackSeptets (body : List UInt8) : List UInt8 :=
  let septets := (List.range (body.length * 8 / 7)).filterMap (unpackSeptet body)
  if body.length % 7 = 0 ∧ septets.getLast? = some 0 then septets.dropLast else septets

-- An escape at the very end is looked up in the default table, where it has no rune.
def decodeSeptets : List UInt8 → List Char
  | [] => []
  | [code] => (gsm7DefaultRunes[code.toNat]?).toList.filter (· ≠ '\x00')
  | code :: next :: rest =>
    if code = 0x1B then
      ((gsm7ExtToRune.find? (·.1 = next)).map (·.2)).toList ++ decodeSeptets rest
    else
      (gsm7DefaultRunes[code.toNat]?).toList.filter (· ≠ '\x00') ++ decodeSeptets (next :: rest)

def decodeGSM7Packed (body : List UInt8) : Str :=
  utf8 (decodeSeptets (unpackSeptets body))

def utf16Units (r : Char) : List Nat :=
  if r.toNat < 0x10000 then
    [r.toNat]
  else
    [0xD800 + (r.toNat - 0x10000) / 0x400, 0xDC00 + (r.toNat - 0x10000) % 0x400]

def isHighSurrogate (u : Nat) : Bool :=
  0xD800 ≤ u && u < 0xDC00

def isLowSurrogate (u : Nat) : Bool :=
  0xDC00 ≤ u && u < 0xE000

-- `utf16.Decode`: a surrogate without its partner becomes U+FFFD.
def utf16Decode : List Nat → List Char
  | [] => []
  | [u] => [if isHighSurrogate u || isLowSurrogate u then runeError else Char.ofNat u]
  | u :: v :: rest =>
    if isHighSurrogate u && isLowSurrogate v then
      Char.ofNat ((u - 0xD800) * 0x400 + (v - 0xDC00) + 0x10000) :: utf16Decode rest
    else if isHighSurrogate u || isLowSurrogate u then
      runeError :: utf16Decode (v :: rest)
    else
      Char.ofNat u :: utf16Decode (v :: rest)

def bytesOfUnit (u : Nat) : List UInt8 :=
  [UInt8.ofNat (u / 256), UInt8.ofNat u]

def unitsOfBytes : List UInt8 → List Nat
  | high :: low :: rest => (high.toNat * 256 + low.toNat) :: unitsOfBytes rest
  | _                   => []

def encodeText (text : Str) (dataCoding : UInt8) : List UInt8 :=
  if dataCoding = 0x08 then
    ((runes text).flatMap utf16Units).flatMap bytesOfUnit
  else if dataCoding = 0x03 then
    (runes text).map fun r => if r.toNat > 0xFF then '?'.toUInt8 else r.toUInt8
  else
    encodeGSM7Packed text

def decodeText (body : List UInt8) (dataCoding : UInt8) : Str :=
  if dataCoding = 0x08 then
    if body.length % 2 ≠ 0 then body else utf8 (utf16Decode (unitsOfBytes body))
  else if dataCoding = 0x03 then
    utf8 (body.map fun b => Char.ofNat b.toNat)
  else
    decodeGSM7Packed body

def isASCIIControl (c : Nat) : Bool :=
  c = 0x0D || c = 0x0A || c = 0x09

def isPrintableASCII (c : Nat) : Bool :=
  0x20 ≤ c && c ≤ 0x7E

def isLikelyUnpackedASCII (body : List UInt8) : Bool :=
  body ≠ [] && body.all fun b => isASCIIControl b.toNat || isPrintableASCII b.toNat

def isMostlyPrintableASCII (text : Str) : Bool :=
  let rs := runes text
  let printable := rs.countP fun r => isASCIIControl r.toNat || isPrintableASCII r.toNat
  text = [] || 90 ≤ printable * 100 / rs.length

def containsASCIIControl (text : Str) : Bool :=
  (runes text).any fun r => isASCIIControl r.toNat

def runeScore (r : Char) : Int :=
  if 'a' ≤ r ∧ r ≤ 'z' then 4
  else if 'A' ≤ r ∧ r ≤ 'Z' then 3
  else if '0' ≤ r ∧ r ≤ '9' then 2
  else if r = ' ' then 4
  else if r ∈ ['.', ',', '!', '?', '-', '_', ':', ';', '\x27', '"'] then 1
  else if isASCIIControl r.toNat then -8
  else if isPrintableASCII r.toNat then -1
  else -4

def textScore (text : Str) : Int :=
  let rs := runes text
  if text = [] then 0 else ((rs.map runeScore).sum * 100).tdiv rs.length

def isLikelyUnpackedSubmit (body : List UInt8) (packedDecoded : Str) : Bool :=
  !isMostlyPrintableASCII packedDecoded ||
    (!containsASCIIControl body && containsASCIIControl packedDecoded) ||
    textScore packedDecoded + 20 < textScore body

def decodeSubmitText (body : List UInt8) (dataCoding : UInt8) : Str :=
  let decoded := decodeText body dataCoding
  if dataCoding = 0x00 ∧ isLikelyUnpackedASCII body ∧ isLikelyUnpackedSubmit body decoded then
    body
  else
    decoded

theorem gsm7DefaultCodes_eq_none {r : Char} (h : (gsm7RuneToExt r).isSome) : gsm7DefaultCodes r = none := by
  have hdisjoint : ∀ e ∈ gsm7ExtToRune, gsm7DefaultCodes e.2 = none := by decide
  rw [gsm7RuneToExt, Option.isSome_map, List.find?_isSome] at h
  obtain ⟨e, he, hr⟩ := h
  rw [← of_decide_eq_true hr]
  exact hdisjoint e he

theorem length_gsm7Septets (r : Char) :
    (gsm7Septets r).length = if (gsm7RuneToExt r).isSome then 2 else 1 := by
  unfold gsm7Septets
  cases hext : gsm7RuneToExt r
  case none => split <;> simp
  case some code => simp [gsm7DefaultCodes_eq_none (r := r) (by simp [hext])]

theorem length_packSeptet (out : List UInt8) (septet : UInt8) (i : Nat) :
    (packSeptet out septet i).length = out.length := by
  unfold packSeptet
  simp only
  split <;> simp

theorem length_foldl_packSeptet (l : List (UInt8 × Nat)) (out : List UInt8) :
    (l.foldl (fun out (septet, i) => packSeptet out septet i) out).length = out.length := by
  induction l generalizing out
  case nil => rfl
  case cons x l hi => rw [List.foldl_cons, hi, length_packSeptet]

theorem length_encodeGSM7Packed (text : Str) :
    (encodeGSM7Packed text).length = ((encodeGSM7Unpacked text).length * 7 + 7) / 8 := by
  simp only [encodeGSM7Packed, encodeGSM7Unpacked, length_foldl_packSeptet, List.length_replicate]

theorem length_flatMap_bytesOfUnit (units : List Nat) :
    (units.flatMap bytesOfUnit).length = 2 * units.length := by
  simp [List.length_flatMap, bytesOfUnit, Nat.mul_comm]

theorem gsm7DefaultRunes_of_code {r : Char} {code : UInt8} (h : gsm7DefaultCodes r = some code) :
    gsm7DefaultRunes[code.toNat]? = some r ∧ r ≠ '\x00' := by
  unfold gsm7DefaultCodes at h
  split at h
  case isTrue => cases h
  case isFalse hr =>
    obtain ⟨i, hi, rfl⟩ := Option.map_eq_some_iff.mp h
    obtain ⟨hlt, heq, -⟩ := List.idxOf?_eq_some_iff.mp hi
    have hsize : gsm7DefaultRunes.length = 128 := rfl
    have hcode : (UInt8.ofNat i).toNat = i := by rw [UInt8.toNat_ofNat']; omega
    rw [hcode, List.getElem?_eq_getElem hlt, heq]
    exact ⟨rfl, hr⟩

theorem ne_escape_of_code {r : Char} {code : UInt8} (h : gsm7DefaultCodes r = some code) : code ≠ 0x1B := by
  rintro rfl
  obtain ⟨hrune, hr⟩ := gsm7DefaultRunes_of_code h
  have hzero : gsm7DefaultRunes[(0x1B : UInt8).toNat]? = some '\x00' := by decide
  exact hr (Option.some.inj (hrune.symm.trans hzero))

theorem gsm7ExtToRune_of_ext {r : Char} {code : UInt8} (h : gsm7RuneToExt r = some code) :
    (gsm7ExtToRune.find? (·.1 = code)).map (·.2) = some r := by
  have hall : ∀ e ∈ gsm7ExtToRune, (gsm7ExtToRune.find? (·.1 = e.1)).map (·.2) = some e.2 := by decide
  obtain ⟨e, he, rfl⟩ := Option.map_eq_some_iff.mp h
  have hr : e.2 = r := by simpa using List.find?_some he
  exact hr ▸ hall e (List.mem_of_find?_eq_some he)

theorem decodeSeptets_cons {code : UInt8} {r : Char} (hrune : gsm7DefaultRunes[code.toNat]? = some r)
    (hr : r ≠ '\x00') (hne : code ≠ 0x1B) (l : List UInt8) : decodeSeptets (code :: l) = r :: decodeSeptets l := by
  cases l <;> simp [decodeSeptets, hrune, hr, hne]

theorem decodeSeptets_gsm7Septets {r : Char} (h : (gsm7DefaultCodes r).isSome ∨ (gsm7RuneToExt r).isSome)
    (l : List UInt8) : decodeSeptets (gsm7Septets r ++ l) = r :: decodeSeptets l := by
  unfold gsm7Septets
  cases hd : gsm7DefaultCodes r
  case some code =>
    obtain ⟨hrune, hr⟩ := gsm7DefaultRunes_of_code hd
    exact decodeSeptets_cons hrune hr (ne_escape_of_code hd) l
  case none =>
    obtain ⟨code, he⟩ := Option.isSome_iff_exists.mp (h.resolve_left (by simp [hd]))
    simp [he, decodeSeptets, gsm7ExtToRune_of_ext he]

theorem decodeSeptets_flatMap {rs : List Char}
    (h : ∀ r ∈ rs, (gsm7DefaultCodes r).isSome ∨ (gsm7RuneToExt r).isSome) :
    decodeSeptets (rs.flatMap gsm7Septets) = rs := by
  induction rs
  case nil => rfl
  case cons r rs hi =>
    obtain ⟨hr, hrs⟩ := List.forall_mem_cons.mp h
    rw [List.flatMap_cons, decodeSeptets_gsm7Septets hr, hi hrs]

theorem unitsOfBytes_bytesOfUnit {units : List Nat} (h : ∀ u ∈ units, u < 65536) :
    unitsOfBytes (units.flatMap bytesOfUnit) = units := by
  induction units
  case nil => rfl
  case cons u units hi =>
    obtain ⟨hu, hs⟩ := List.forall_mem_cons.mp h
    have hval : (UInt8.ofNat (u / 256)).toNat * 256 + (UInt8.ofNat u).toNat = u := by
      simp only [UInt8.toNat_ofNat']
      omega
    rw [List.flatMap_cons, bytesOfUnit, List.cons_append, List.singleton_append, unitsOfBytes, hi hs, hval]

theorem utf16Units_lt {r : Char} : ∀ u ∈ utf16Units r, u < 65536 := by
  have hvalid : r.toNat < 0xD800 ∨ 0xDFFF < r.toNat ∧ r.toNat < 0x110000 := r.valid
  unfold utf16Units
  split
  case isTrue h => simpa using h
  case isFalse => simp; omega

theorem utf16Decode_utf16Units (r : Char) (l : List Nat) :
    utf16Decode (utf16Units r ++ l) = r :: utf16Decode l := by
  have hvalid : r.toNat < 0xD800 ∨ 0xDFFF < r.toNat ∧ r.toNat < 0x110000 := r.valid
  unfold utf16Units
  split
  case isTrue h =>
    have hhigh : isHighSurrogate r.toNat = false := by simp [isHighSurrogate]; omega
    have hlow : isLowSurrogate r.toNat = false := by simp [isLowSurrogate]; omega
    cases l <;> simp [utf16Decode, hhigh, hlow]
  case isFalse h =>
    have hhigh : isHighSurrogate (0xD800 + (r.toNat - 0x10000) / 0x400) = true := by
      simp [isHighSurrogate]; omega
    have hlow : isLowSurrogate (0xDC00 + (r.toNat - 0x10000) % 0x400) = true := by
      simp [isLowSurrogate]; omega
    have hval : (0xD800 + (r.toNat - 0x10000) / 0x400 - 0xD800) * 0x400 +
        (0xDC00 + (r.toNat - 0x10000) % 0x400 - 0xDC00) + 0x10000 = r.toNat := by omega
    rw [List.cons_append, List.singleton_append, utf16Decode, hhigh, hlow, Bool.and_self, if_pos rfl, hval,
      Char.ofNat_toNat]

theorem utf16Decode_flatMap (rs : List Char) :
    utf16Decode (unitsOfBytes ((rs.flatMap utf16Units).flatMap bytesOfUnit)) = rs := by
  have hlt : ∀ u ∈ rs.flatMap utf16Units, u < 65536 := by
    intro u hu
    obtain ⟨r, -, hr⟩ := List.mem_flatMap.mp hu
    exact utf16Units_lt u hr
  rw [unitsOfBytes_bytesOfUnit hlt]
  induction rs
  case nil => rfl
  case cons r rs hi =>
    rw [List.flatMap_cons, utf16Decode_utf16Units]
    exact congrArg (r :: ·) (hi fun u hu => hlt u (List.mem_append_right _ hu))

example : decodeGSM7Packed (encodeGSM7Packed (lit "grüße[1€]")) = lit "grüße[1€]" := by decide

end SmppGateway
