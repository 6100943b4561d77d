import SmppGateway.Go.Digits
import SmppGateway.Go.Regexp

-- The spelling of message ids that upstream providers use (`internal/smppclient/id.go`).

namespace SmppGateway.Client

open Go

def looksHexID (value : Str) : Bool :=
  let isHex := fun r : Char => isDigitRune r || 'a' ≤ r && r ≤ 'f' || 'A' ≤ r && r ≤ 'F'
  (runes value).all isHex && (runes value).any fun r => isHex r && !isDigitRune r

def normalizeID (raw format : Str) : Str :=
  let raw := trimSpaceStr (trimRightNUL raw)
  let fromHex := ((parseUint raw 16).map (formatUintBase · 10)).getD raw
  if raw = [] then
    []
  else if toLower format = lit "dec" then
    let trimmed := raw.dropWhile (· = '0'.toUInt8)
    if trimmed = [] then lit "0" else trimmed
  else if toLower format = lit "hex" then
    fromHex
  else if looksHexID raw then
    fromHex
  else
    raw

end SmppGateway.Client
