import SmppGateway.Go.Str

-- Destination addresses (`internal/dispatch/addr.go`) and the generated country rules
-- (`internal/dispatch/country_rules.go`).

namespace SmppGateway

open Go

def e164CountryCodes : List Str :=
  ["1", "7", "20", "27", "30", "31", "32", "33", "34", "36", "39", "40", "41", "43", "44", "45",
    "46", "47", "48", "49", "51", "52", "53", "54", "55", "56", "57", "58", "60", "61", "62", "63",
    "64", "65", "66", "81", "82", "84", "86", "90", "91", "92", "93", "94", "95", "98", "211",
    "212", "213", "216", "218", "220", "221", "222", "223", "224", "225", "226", "227", "228",
    "229", "230", "231", "232", "233", "234", "235", "236", "237", "238", "239", "240", "241",
    "242", "243", "244", "245", "246", "247", "248", "249", "250", "251", "252", "253", "254",
    "255", "256", "257", "258", "260", "261", "262", "263", "264", "265", "266", "267", "268",
    "269", "290", "291", "297", "298", "299", "350", "351", "352", "353", "354", "355", "356",
    "357", "358", "359", "370", "371", "372", "373", "374", "375", "376", "377", "378", "379",
    "380", "381", "382", "383", "385", "386", "387", "389", "420", "421", "423", "500", "501",
    "502", "503", "504", "505", "506", "507", "508", "509", "590", "591", "592", "593", "594",
    "595", "596", "597", "598", "599", "670", "672", "673", "674", "675", "676", "677", "678",
    "679", "680", "681", "682", "683", "685", "686", "687", "688", "689", "690", "691", "692",
    "800", "808", "850", "852", "853", "855", "856", "870", "878", "880", "881", "882", "883",
    "886", "888", "960", "961", "962", "963", "964", "965", "966", "967", "968", "970", "971",
    "972", "973", "974", "975", "976", "977", "979", "992", "993", "994", "995", "996", "998"].map lit

def countryMaxTotalLength : List (Str × Nat) :=
  [("1", 11), ("7", 11), ("31", 13), ("32", 11), ("33", 12), ("39", 12), ("44", 12), ("46", 11),
    ("48", 11), ("49", 13), ("52", 12), ("54", 13), ("55", 13), ("60", 13), ("61", 12), ("64", 11),
    ("65", 10), ("66", 11), ("81", 13), ("82", 12), ("84", 11), ("86", 13), ("91", 12), ("92", 12),
    ("95", 12), ("212", 12), ("216", 11), ("233", 12), ("243", 12), ("244", 12), ("251", 12),
    ("256", 12), ("258", 12), ("355", 12), ("374", 11), ("375", 12), ("380", 13), ("386", 11),
    ("507", 11), ("852", 15), ("853", 11), ("855", 12), ("856", 15), ("886", 13), ("966", 12),
    ("971", 12), ("992", 12), ("994", 12), ("995", 12), ("996", 12), ("998", 12)].map
    fun (code, n) => (lit code, n)

structure AddrRewriteConfig where
  stripTrunkZeroAfterCC : Bool := false
  countryCode           : Str := []
  addPrefix             : Str := []
  enforceE164Len        : Bool := false
  deriving DecidableEq, Repr

structure DestAddrConfig where
  validate          : Option Bool := none
  allowShortCode    : Bool := false
  minShortLen       : Int := 0
  maxShortLen       : Int := 0
  countryLengthMode : Str := []
  deriving DecidableEq, Repr

def DestAddrConfig.validateEnabled (c : DestAddrConfig) (global : Bool) : Bool :=
  c.validate.getD global

def digitsOnly (s : Str) : Bool :=
  s ≠ [] && s.all isDigit

def isShortCode (s : Str) (opts : DestAddrConfig) : Bool :=
  let minLen := if opts.minShortLen ≤ 0 then 3 else opts.minShortLen
  let maxLen := if opts.maxShortLen ≤ 0 then 6 else opts.maxShortLen
  minLen ≤ s.length && s.length ≤ maxLen

def splitE164CountryCode (number : Str) : Option Str :=
  ([1, 2, 3].filter (· ≤ number.length)).findSome? fun n =>
    if number.take n ∈ e164CountryCodes then some (number.take n) else none

def exceedsCountryLength (mode cc s : Str) : Bool :=
  let maxLen := (countryMaxTotalLength.find? (·.1 = cc)).map (·.2)
  if mode = lit "strict" then
    match maxLen with
    | some n => n < s.length
    | none   => true
  else if mode = lit "compat" then
    match maxLen with
    | some n => n < s.length
    | none   => false
  else
    false

-- Whether `validateDestAddr` returns no error. The options are the fields of the route's settings.
def validateDestAddr (addr : Str) (opts : DestAddrConfig) : Bool :=
  let s := trimPrefix addr (lit "+")
  if !digitsOnly s then
    false
  else if opts.allowShortCode && isShortCode s opts then
    true
  else if s.length < 4 ∨ 15 < s.length then
    false
  else
    match splitE164CountryCode s with
    | none    => false
    | some cc => !exceedsCountryLength opts.countryLengthMode cc s

def stripTrunkZero (s cc : Str) : Str :=
  if cc ≠ [] ∧ cc <+: s then cc ++ (s.drop cc.length).dropWhile (· = '0'.toUInt8) else s

def rewriteDestAddr (addr : Str) (rule : AddrRewriteConfig) : Str :=
  let s := trimPrefix addr (lit "+")
  let s :=
    if rule.stripTrunkZeroAfterCC then
      stripTrunkZero s (if rule.countryCode = [] then (splitE164CountryCode s).getD [] else rule.countryCode)
    else
      s
  if rule.addPrefix ≠ [] ∧ ¬rule.addPrefix <+: s then rule.addPrefix ++ s else s

end SmppGateway
