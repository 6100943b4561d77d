import SmppGateway.Go.Map
import SmppGateway.Go.Regexp

-- The address that a request is taken to come from (`internal/netutil/ip.go`).

namespace SmppGateway

open Go

def comma : UInt8 := ','.toUInt8

-- `net/netip` and `net.SplitHostPort`. Only the zone of an address can hold a comma or white space, and an address
-- with a zone is in no prefix.
structure Netip where
  Addr          : Type
  Prefix        : Type
  parseAddr     : Str → Option Addr
  parsePrefix   : Str → Option Prefix
  contains      : Prefix → Addr → Bool
  is4           : Addr → Bool
  prefixFrom    : Addr → Nat → Prefix
  splitHostPort : Str → Option Str
  zoneless      : ∀ {s addr p}, parseAddr s = some addr → contains p addr → comma ∉ s ∧ trimSpaceStr s = s

structure Request where
  remoteAddr : Str
  header     : Map Str (List Str)

def Request.get (r : Request) (key : Str) : Str :=
  ((r.header.lookup key).bind List.head?).getD []

namespace Netip

variable (n : Netip)

def addrPrefix (addr : n.Addr) : n.Prefix :=
  n.prefixFrom addr (if n.is4 addr then 32 else 128)

def parseTrustedProxyPrefixes (values : List Str) : List n.Prefix :=
  values.filterMap fun value =>
    match n.parsePrefix value with
    | some p => some p
    | none   => (n.parseAddr value).map n.addrPrefix

def addrInPrefixes (addr : n.Addr) (prefixes : List n.Prefix) : Bool :=
  prefixes.any fun p => n.contains p addr

def lastOutside (prefixes : List n.Prefix) : List Str → Option Str
  | []           => none
  | part :: rest =>
    let candidate := trimSpaceStr part
    match n.parseAddr candidate with
    | none      => lastOutside prefixes rest
    | some addr => if n.addrInPrefixes addr prefixes then lastOutside prefixes rest else some candidate

def forwardedFor (prefixes : List n.Prefix) (xff : Str) : Str :=
  let parts := xff.splitOn comma
  (n.lastOutside prefixes parts.reverse).getD (trimSpaceStr (parts.headD []))

def hostOf (r : Request) : Str :=
  (n.splitHostPort r.remoteAddr).getD r.remoteAddr

def clientIP (r : Request) (trustedProxies : List Str) : Str :=
  let host := n.hostOf r
  match n.parseAddr host with
  | none        => host
  | some direct =>
    let prefixes := n.parseTrustedProxyPrefixes trustedProxies
    if prefixes = [] ∨ !n.addrInPrefixes direct prefixes then
      host
    else
      let xff := r.get (lit "X-Forwarded-For")
      let realIP := trimSpaceStr (r.get (lit "X-Real-Ip"))
      if xff ≠ [] then
        n.forwardedFor prefixes xff
      else if realIP ≠ [] then
        realIP
      else
        host

def Trusted (trustedProxies : List Str) (s : Str) : Prop :=
  ∃ addr, n.parseAddr s = some addr ∧ n.addrInPrefixes addr (n.parseTrustedProxyPrefixes trustedProxies)

def Outside (trustedProxies : List Str) (s : Str) : Prop :=
  ∃ addr, n.parseAddr s = some addr ∧ ¬n.addrInPrefixes addr (n.parseTrustedProxyPrefixes trustedProxies)

variable {n} {trustedProxies : List Str}

theorem Trusted.zoneless {s : Str} (h : n.Trusted trustedProxies s) : comma ∉ s ∧ trimSpaceStr s = s := by
  obtain ⟨addr, hparse, hin⟩ := h
  obtain ⟨p, -, hcontains⟩ := List.any_eq_true.mp hin
  exact n.zoneless hparse hcontains

theorem clientIP_of_not_trusted {r : Request} (h : ¬n.Trusted trustedProxies (n.hostOf r)) :
    n.clientIP r trustedProxies = n.hostOf r := by
  unfold clientIP
  simp only
  split
  case h_1 => rfl
  case h_2 direct hparse =>
    have hout : n.addrInPrefixes direct (n.parseTrustedProxyPrefixes trustedProxies) = false := by
      rw [Bool.eq_false_iff]
      exact fun hin => h ⟨direct, hparse, hin⟩
    rw [hout]
    exact if_pos (.inr rfl)

theorem clientIP_of_trusted {r : Request} (h : n.Trusted trustedProxies (n.hostOf r))
    (hxff : r.get (lit "X-Forwarded-For") ≠ []) :
    n.clientIP r trustedProxies =
      n.forwardedFor (n.parseTrustedProxyPrefixes trustedProxies) (r.get (lit "X-Forwarded-For")) := by
  obtain ⟨direct, hparse, hin⟩ := h
  have hne : n.parseTrustedProxyPrefixes trustedProxies ≠ [] := by
    intro hnil
    rw [hnil] at hin
    cases hin
  unfold clientIP
  simp [hparse, hne, hin, hxff]

theorem lastOutside_skip {prefixes : List n.Prefix} {ts : List Str}
    (h : ∀ t ∈ ts, ∃ addr, n.parseAddr (trimSpaceStr t) = some addr ∧ n.addrInPrefixes addr prefixes)
    (rest : List Str) :
    n.lastOutside prefixes (ts ++ rest) = n.lastOutside prefixes rest := by
  induction ts
  case nil => rfl
  case cons t ts hi =>
    obtain ⟨⟨addr, hparse, hin⟩, hts⟩ := List.forall_mem_cons.mp h
    rw [List.cons_append, lastOutside, hparse]
    simp only [hin, if_true]
    exact hi hts

theorem forwardedFor_append {prefixes : List n.Prefix} {p a : Str} {ts : List Str} {addr : n.Addr}
    (hparse : n.parseAddr a = some addr) (hout : ¬n.addrInPrefixes addr prefixes) (hcomma : comma ∉ a)
    (htrim : trimSpaceStr a = a)
    (h : ∀ t ∈ ts, comma ∉ t ∧ ∃ addr, n.parseAddr (trimSpaceStr t) = some addr ∧ n.addrInPrefixes addr prefixes) :
    n.forwardedFor prefixes (p ++ comma :: [comma].intercalate (a :: ts)) = a := by
  have hparts : (p ++ comma :: [comma].intercalate (a :: ts)).splitOn comma = p.splitOn comma ++ a :: ts := by
    have hfree : ∀ l ∈ a :: ts, comma ∉ l := List.forall_mem_cons.mpr ⟨hcomma, fun t ht => (h t ht).1⟩
    have hrest := List.splitOn_intercalate comma hfree (List.cons_ne_nil a ts)
    rw [List.splitOn] at hrest ⊢
    rw [List.splitOnP_append_cons (p := fun x => x == comma) _ _ (beq_self_eq_true comma), hrest, List.splitOn]
  have hrev : (p.splitOn comma ++ a :: ts).reverse = ts.reverse ++ a :: (p.splitOn comma).reverse := by simp
  have hskip : ∀ t ∈ ts.reverse, ∃ addr, n.parseAddr (trimSpaceStr t) = some addr ∧ n.addrInPrefixes addr prefixes :=
    fun t ht => (h t (List.mem_reverse.mp ht)).2
  rw [forwardedFor, hparts, hrev, lastOutside_skip hskip, lastOutside]
  simp [htrim, hparse, hout]

-- No header of a request that comes from elsewhere than a trusted proxy is read. Of one that does, the part before
-- the last address outside the trusted prefixes is not: a client writes only that part. A comma separates and white
-- space at the ends is cut off, so an address with a zone that holds them is not returned as a whole.
theorem clientIP_not_chosen (n : Netip) (trustedProxies : List Str) :
    (∀ r r' : Request, r.remoteAddr = r'.remoteAddr → ¬n.Trusted trustedProxies (n.hostOf r) →
      n.clientIP r trustedProxies = n.clientIP r' trustedProxies) ∧
    (∀ (r : Request) (p a : Str) (ts : List Str), n.Trusted trustedProxies (n.hostOf r) →
      r.get (lit "X-Forwarded-For") = p ++ comma :: [comma].intercalate (a :: ts) →
      n.Outside trustedProxies a → comma ∉ a → trimSpaceStr a = a → (∀ t ∈ ts, n.Trusted trustedProxies t) →
      n.clientIP r trustedProxies = a) := by
  constructor
  · intro r r' hremote h
    have hhost : n.hostOf r = n.hostOf r' := by rw [hostOf, hostOf, hremote]
    rw [clientIP_of_not_trusted h, clientIP_of_not_trusted (hhost ▸ h), hhost]
  · intro r p a ts hdirect hxff hout hcomma htrim hts
    obtain ⟨addr, hparse, hin⟩ := hout
    have hskip : ∀ t ∈ ts, comma ∉ t ∧ ∃ addr, n.parseAddr (trimSpaceStr t) = some addr ∧
        n.addrInPrefixes addr (n.parseTrustedProxyPrefixes trustedProxies) := by
      intro t ht
      have htrusted := hts t ht
      obtain ⟨hfree, hsame⟩ := htrusted.zoneless
      refine ⟨hfree, ?_⟩
      rwa [hsame]
    have hne : r.get (lit "X-Forwarded-For") ≠ [] := by
      rw [hxff]
      exact List.append_ne_nil_of_right_ne_nil _ (List.cons_ne_nil _ _)
    rw [clientIP_of_trusted hdirect hne, hxff, forwardedFor_append hparse hin hcomma htrim hskip]

-- The part of `net/netip` that reads IPv4 addresses, with `fe80::1` and its zones for the others.
inductive Dotted
  | v4 (octets : List Nat)
  | linkLocal (zone : Str)
  deriving DecidableEq

namespace Dotted

def octet (s : Str) : Option Nat :=
  let value := s.foldl (fun n b => 10 * n + digit b) 0
  if s ≠ [] ∧ (s.length = 1 ∨ s.head? ≠ some '0'.toUInt8) ∧ value ≤ 255 then some value else none

def parse4 (s : Str) : Option (List Nat) :=
  let fields := s.splitOn '.'.toUInt8
  if s.all (fun b => b = '.'.toUInt8 || isDigit b) ∧ fields.length = 4 then fields.mapM octet else none

def parse (s : Str) : Option Dotted :=
  let zone := s.drop (lit "fe80::1%").length
  if lit "fe80::1%" <+: s ∧ zone ≠ [] then some (linkLocal zone) else (parse4 s).map v4

def parsePrefix (s : Str) : Option (List Nat × Nat) :=
  match s.splitOn '/'.toUInt8 with
  | [addr, bits] => (parse4 addr).bind fun octets => (octet bits).map fun n => (octets, n)
  | _            => none

def value (octets : List Nat) : Nat :=
  octets.foldl (fun n o => 256 * n + o) 0

def contains (p : List Nat × Nat) : Dotted → Bool
  | v4 octets   => value octets / 2 ^ (32 - p.2) = value p.1 / 2 ^ (32 - p.2)
  | linkLocal _ => false

def octets : Dotted → List Nat
  | v4 octets   => octets
  | linkLocal _ => []

def is4 : Dotted → Bool
  | v4 _        => true
  | linkLocal _ => false

def splitHostPort (s : Str) : Option Str :=
  match s.splitOn ':'.toUInt8 with
  | [host, _] => some host
  | _         => none

theorem parse4_zoneless {s : Str} {octets : List Nat} (h : parse4 s = some octets) :
    comma ∉ s ∧ trimSpaceStr s = s := by
  have hbytes : ∀ b ∈ s, b = '.'.toUInt8 ∨ isDigit b := by
    simp only [parse4] at h
    split at h
    case isTrue hall => simpa using hall.1
    case isFalse => cases h
  have hclass : ∀ b : UInt8, b = '.'.toUInt8 ∨ isDigit b →
      b ≠ comma ∧ b < 0x80 ∧ isSpace (Char.ofNat b.toNat) = false := by
    intro b
    have hall : ∀ n : Fin 256, UInt8.ofNat n = '.'.toUInt8 ∨ isDigit (.ofNat n) →
        UInt8.ofNat n ≠ comma ∧ UInt8.ofNat n < 0x80 ∧ isSpace (Char.ofNat (UInt8.ofNat n).toNat) = false := by
      decide +kernel
    have hb := hall ⟨b.toNat, b.toNat_lt⟩
    rwa [UInt8.ofNat_toNat] at hb
  have hspace : ∀ c ∈ s.map fun b => Char.ofNat b.toNat, isSpace c = false := by
    intro c hc
    obtain ⟨b, hb, rfl⟩ := List.mem_map.mp hc
    exact (hclass b (hbytes b hb)).2.2
  have htrim := trimSpaceStr_eq hspace
  rw [utf8_ascii fun b hb => (hclass b (hbytes b hb)).2.1] at htrim
  exact ⟨fun hmem => (hclass comma (hbytes comma hmem)).1 rfl, htrim⟩

theorem zoneless {s : Str} {addr : Dotted} {p : List Nat × Nat} (h : parse s = some addr) (hin : contains p addr) :
    comma ∉ s ∧ trimSpaceStr s = s := by
  simp only [parse] at h
  split at h
  case isTrue =>
    cases h
    cases hin
  case isFalse =>
    obtain ⟨octets, hparse, -⟩ := Option.map_eq_some_iff.mp h
    exact parse4_zoneless hparse

def netip : Netip where
  Addr          := Dotted
  Prefix        := List Nat × Nat
  parseAddr     := parse
  parsePrefix   := parsePrefix
  contains      := contains
  is4           := is4
  prefixFrom    := fun addr bits => (addr.octets, bits)
  splitHostPort := splitHostPort
  zoneless      := zoneless

instance : DecidableEq netip.Addr :=
  inferInstanceAs (DecidableEq Dotted)

end Dotted

def forwarded (xff : String) : Request where
  remoteAddr := lit "10.0.0.1:4711"
  header     := (∅ : Map Str (List Str)).insert (lit "X-Forwarded-For") [lit xff]

theorem clientIP_not_chosen_proxied :
    Dotted.netip.clientIP (forwarded "1.2.3.4, ,%,203.0.113.9,10.0.0.2") [lit "10.0.0.0/8"] = lit "203.0.113.9" :=
  (clientIP_not_chosen Dotted.netip [lit "10.0.0.0/8"]).2 (forwarded "1.2.3.4, ,%,203.0.113.9,10.0.0.2")
    (lit "1.2.3.4, ,%") (lit "203.0.113.9") [lit "10.0.0.2"] ⟨.v4 [10, 0, 0, 1], by decide +kernel, by decide +kernel⟩
    (by decide +kernel) ⟨.v4 [203, 0, 113, 9], by decide +kernel, by decide +kernel⟩ (by decide +kernel)
    (by decide +kernel)
    (List.forall_mem_singleton.mpr ⟨.v4 [10, 0, 0, 2], by decide +kernel, by decide +kernel⟩)

theorem zone_cut_at_comma :
    let r := forwarded "1.2.3.4,fe80::1%a,203.0.113.9"
    let trustedProxies := [lit "10.0.0.0/8"]
    Dotted.netip.Trusted trustedProxies (Dotted.netip.hostOf r) ∧
    r.get (lit "X-Forwarded-For") = lit "1.2.3.4" ++ comma :: [comma].intercalate [lit "fe80::1%a,203.0.113.9"] ∧
    Dotted.netip.Outside trustedProxies (lit "fe80::1%a,203.0.113.9") ∧
    Dotted.netip.clientIP r trustedProxies = lit "203.0.113.9" ∧
    lit "203.0.113.9" ≠ lit "fe80::1%a,203.0.113.9" :=
  ⟨⟨.v4 [10, 0, 0, 1], by decide +kernel, by decide +kernel⟩, by decide +kernel,
    ⟨.linkLocal (lit "a,203.0.113.9"), by decide +kernel, by decide +kernel⟩, by decide +kernel, by decide +kernel⟩

end Netip

end SmppGateway
