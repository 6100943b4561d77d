import SmppGateway.Config.Validate
import SmppGateway.Router.Select

-- What `BuildProviders` of `internal/provider/factory.go` makes of a configuration, and which of the providers that
-- the router selects it makes.

namespace SmppGateway

open Go Parse Check Routing

namespace Provider

inductive Kind
  | http (endpoint : Str) (rule : Config.HTTPRuleConfig) (timeout : Duration)
  | mock
  | smpp (endpoint systemID password : Str) (client : Config.SMPPClientConfig)

-- `RateLimitedProvider`, without the provider that it wraps
structure Limit where
  tps     : Int
  burst   : Int
  timeout : Duration

end Provider

structure Provider where
  name  : Str
  kind  : Provider.Kind
  limit : Option Provider.Limit := none

namespace Provider

def milliseconds (n : Int) : Duration :=
  n * 1000000

def newHTTPProvider (p : Config.ProviderConfig) (rule : Config.HTTPRuleConfig) : Kind :=
  let timeout := milliseconds p.httpTimeoutMS
  .http p.endpoint rule (if timeout ≤ 0 then 3 * second else timeout)

def newSMPPProvider (p : Config.ProviderConfig) : Kind :=
  .smpp p.endpoint p.systemID p.password (p.smpp.getD { defaultSMPPClientConfig with })

def newRateLimitedProvider (cfg : Config.ProviderRateLimit) : Option Limit :=
  if cfg.tps ≤ 0 then
    none
  else
    let timeout := milliseconds cfg.timeoutMS
    some {
      tps     := cfg.tps
      burst   := if cfg.burst ≤ 0 then cfg.tps else cfg.burst
      timeout := if timeout ≤ 0 then 2 * second else timeout }

def isHTTP (p : Config.ProviderConfig) : Bool :=
  toLower p.protocol = lit "http" || toLower p.protocol = lit "https"

def rulesByName (outbound : List Config.HTTPRuleConfig) : Map Str Config.HTTPRuleConfig :=
  Map.insertAll (·.name) id ∅ outbound

def buildKind (rules : Map Str Config.HTTPRuleConfig) (p : Config.ProviderConfig) : Option Kind :=
  if isHTTP p then
    (rules.lookup p.rule).map (newHTTPProvider p)
  else if toLower p.protocol = [] ∨ toLower p.protocol = lit "mock" then
    some .mock
  else if toLower p.protocol = lit "smpp" then
    some (newSMPPProvider p)
  else
    none

-- `NewNamedMock` has a name for a mock without one.
def Kind.name (kind : Kind) (name : Str) : Str :=
  match kind with
  | .mock => if name = [] then lit "mock" else name
  | _     => name

def build (rules : Map Str Config.HTTPRuleConfig) (p : Config.ProviderConfig) : Option Provider :=
  (buildKind rules p).map fun kind => {
    name  := kind.name p.name
    kind  := kind
    limit := newRateLimitedProvider p.rateLimit }

def add (rules : Map Str Config.HTTPRuleConfig) (out : Map Str Provider) (p : Config.ProviderConfig) : Map Str Provider :=
  if p.enabled then
    match build rules p with
    | some built => out.insert p.name built
    | none       => out
  else
    out

def fallback : Provider where
  name := lit "mock"
  kind := .mock

def buildProviders (cfg : Config) : Map Str Provider :=
  let out := cfg.providers.foldl (add (rulesByName cfg.outbound)) ∅
  if out.entries = [] then (∅ : Map Str Provider).insert (lit "mock") fallback else out

end Provider

namespace Config

variable {texts : Texts} {order : Str → FieldOrder} {allow : Bool} {c : Config}

def Supported (p : ProviderConfig) : Prop :=
  toLower p.protocol ∈ [[], lit "mock", lit "http", lit "https", lit "smpp"]

theorem Names.has_insert {names : Names} {k k' : Str} : Names.has (names.insert k ()) k' ↔ k' = k ∨ names.has k' := by
  unfold Names.has
  rw [Map.lookup_insert_eq]
  split <;> simp_all

theorem mapError_eq_ok {ε ε' α : Type} {x : Except ε α} {wrap : ε → ε'} {a : α} :
    x.mapError wrap = .ok a ↔ x = .ok a := by
  cases x <;> simp [Except.mapError]

theorem supported_of_validate {p : ProviderConfig} {o : FieldOrder} {u : Unit}
    (h : validateProviderProtocol texts o allow p = .ok u) : Supported p := by
  unfold validateProviderProtocol at h
  dsimp only at h
  by_cases h₁ : toLower p.protocol = [] ∨ toLower p.protocol = lit "mock"
  case pos => rcases h₁ with h₁ | h₁ <;> simp [Supported, h₁]
  case neg =>
    rw [if_neg h₁] at h
    by_cases h₂ : toLower p.protocol = lit "http" ∨ toLower p.protocol = lit "https"
    case pos => rcases h₂ with h₂ | h₂ <;> simp [Supported, h₂]
    case neg =>
      rw [if_neg h₂] at h
      by_cases h₃ : toLower p.protocol = lit "smpp"
      case pos => simp [Supported, h₃]
      case neg => rw [if_neg h₃] at h; cases h

theorem validateProvider_ok {seen seen' : ProviderNames} {p : ProviderConfig}
    (h : validateProvider texts order allow seen p = .ok seen') :
    Supported p ∧ ¬seen.names.has (providerKey p.name) ∧ seen' = seen.add p.toProviderConfig := by
  obtain ⟨_, _, h⟩ := bind_eq_ok.mp h
  obtain ⟨_, hnew, h⟩ := bind_eq_ok.mp h
  obtain ⟨_, _, h⟩ := bind_eq_ok.mp h
  obtain ⟨_, _, h⟩ := bind_eq_ok.mp h
  obtain ⟨_, _, h⟩ := bind_eq_ok.mp h
  obtain ⟨_, hprotocol, h⟩ := bind_eq_ok.mp h
  cases h
  refine ⟨supported_of_validate (mapError_eq_ok.mp hprotocol), ?_, rfl⟩
  simpa using require_eq_ok.mp hnew

theorem validateProviders_of_validate (h : validate texts order allow c = .ok ()) :
    ∃ names, validateProviders texts order allow c.providers = .ok names := by
  obtain ⟨_, _, h⟩ := bind_eq_ok.mp h
  obtain ⟨_, _, h⟩ := bind_eq_ok.mp h
  obtain ⟨_, _, h⟩ := bind_eq_ok.mp h
  obtain ⟨names, hnames, _⟩ := bind_eq_ok.mp h
  exact ⟨names, hnames⟩

structure SoundProviders (c : Config) : Prop where
  nodup     : (c.providers.map (·.name)).Nodup
  supported : ∀ p ∈ c.providers, Supported p

theorem soundProviders_of_validate (h : validate texts order allow c = .ok ()) : c.SoundProviders := by
  obtain ⟨names, h⟩ := validateProviders_of_validate h
  obtain ⟨seen, hloop, _⟩ := bind_eq_ok.mp h
  have hall := forall_of_foldlM (P := Supported) (fun _ _ _ h => (validateProvider_ok h).1) hloop
  have hkeys := (nodup_of_foldlM (fun p : ProviderConfig => providerKey p.name)
    (fun (seen : ProviderNames) k => seen.names.has k) (fun s p s' h => by
      obtain ⟨_, hnew, rfl⟩ := validateProvider_ok h
      exact ⟨hnew, fun k => Names.has_insert⟩) hloop).1
  have hmap : c.providers.map (fun p => providerKey p.name) = (c.providers.map (·.name)).map providerKey := by
    rw [List.map_map]
    rfl
  rw [hmap] at hkeys
  exact ⟨hkeys.of_map _, hall⟩

end Config

namespace Provider

variable {rules : Map Str Config.HTTPRuleConfig} {out : Map Str Provider} {ps : List Config.ProviderConfig} {name : Str}
  {p : Config.ProviderConfig}

def RuleKnown (c : Config) (p : Config.ProviderConfig) : Prop :=
  isHTTP p → ∃ rule ∈ c.outbound, rule.name = p.rule

theorem lookup_add : (add rules out p).lookup name =
    if p.name = name ∧ p.enabled ∧ (build rules p).isSome then build rules p else out.lookup name := by
  unfold add
  cases hp : p.enabled <;> cases hb : build rules p <;> simp [Map.lookup_insert_eq, eq_comm]

theorem lookup_foldl_add_of_ne (h : ∀ p ∈ ps, p.name ≠ name) : (ps.foldl (add rules) out).lookup name = out.lookup name := by
  induction ps generalizing out
  case nil => rfl
  case cons p ps ih =>
    obtain ⟨hp, hps⟩ := List.forall_mem_cons.mp h
    rw [List.foldl_cons, ih hps, lookup_add, if_neg (fun hc => hp hc.1)]

theorem lookup_foldl_add (hnodup : (ps.map (·.name)).Nodup) (hp : p ∈ ps) (hon : p.enabled)
    (hout : out.lookup p.name = none) : (ps.foldl (add rules) out).lookup p.name = build rules p := by
  induction ps generalizing out
  case nil => cases hp
  case cons q ps ih =>
    rw [List.map_cons, List.nodup_cons] at hnodup
    rw [List.foldl_cons]
    rcases List.mem_cons.mp hp with rfl | hp
    case inl =>
      have hrest : ∀ q ∈ ps, q.name ≠ p.name := fun q hq he => hnodup.1 (List.mem_map.mpr ⟨q, hq, he⟩)
      rw [lookup_foldl_add_of_ne hrest, lookup_add]
      cases hb : build rules p <;> simp [hon, hout]
    case inr =>
      refine ih hnodup.2 hp ?_
      rw [lookup_add, if_neg (fun hc => hnodup.1 (List.mem_map.mpr ⟨p, hp, hc.1.symm⟩)), hout]

theorem build_isSome_iff {c : Config} (hs : Config.Supported p) :
    (build (rulesByName c.outbound) p).isSome ↔ RuleKnown c p := by
  have hrules : ((rulesByName c.outbound).lookup p.rule).isSome ↔ ∃ rule ∈ c.outbound, rule.name = p.rule := by
    rw [AList.lookup_isSome, rulesByName, Map.mem_insertAll]
    simp
  unfold build buildKind RuleKnown
  rw [Option.isSome_map]
  by_cases hh : isHTTP p
  case pos => simp [hh, hrules]
  case neg =>
    rw [if_neg hh]
    have hnot : toLower p.protocol ≠ lit "http" ∧ toLower p.protocol ≠ lit "https" := by
      simpa [isHTTP] using hh
    simp only [Config.Supported, List.mem_cons, List.not_mem_nil, or_false] at hs
    rcases hs with h | h | h | h | h
    case inl => simp [h, hh]
    case inr.inl => simp [h, hh]
    case inr.inr.inl => exact absurd h hnot.1
    case inr.inr.inr.inl => exact absurd h hnot.2
    case inr.inr.inr.inr =>
      rw [h, if_neg (by decide), if_pos rfl]
      simp [hh]

theorem lookup_buildProviders {c : Config} (hc : c.SoundProviders) (hp : p ∈ c.providers) (hon : p.enabled) :
    (buildProviders c).lookup p.name = build (rulesByName c.outbound) p ∨
      p.name = lit "mock" ∧ build (rulesByName c.outbound) p = none ∧ (buildProviders c).lookup p.name = some fallback := by
  have hlookup : (c.providers.foldl (add (rulesByName c.outbound)) ∅).lookup p.name = build (rulesByName c.outbound) p :=
    lookup_foldl_add hc.nodup hp hon (AList.lookup_empty p.name)
  unfold buildProviders
  dsimp only
  split
  case isTrue hempty =>
    have hnone : build (rulesByName c.outbound) p = none := by
      rw [← hlookup, AList.lookup_eq_none]
      intro hm
      have hkeys : p.name ∈ (c.providers.foldl (add (rulesByName c.outbound)) ∅).entries.map Sigma.fst := hm
      rw [hempty] at hkeys
      cases hkeys
    rw [Map.lookup_insert_eq, hnone]
    split
    case isTrue hname => exact .inr ⟨hname, rfl, rfl⟩
    case isFalse => exact .inl (AList.lookup_empty _)
  case isFalse => exact .inl hlookup

end Provider

namespace Routing

variable {r : Router} {route : RouteConfig}

theorem Router.pick_enabled {n : UInt64} {l : List WeightedProvider} {i : Nat} (h : r.pick n l = some i) :
    ∃ wp, l[i]? = some wp ∧ r.providerEnabled wp.provider := by
  induction l generalizing n i
  case nil => cases h
  case cons wp l ih =>
    have later {n : UInt64} (h : (r.pick n l).map (· + 1) = some i) :
        ∃ wp', (wp :: l)[i]? = some wp' ∧ r.providerEnabled wp'.provider := by
      obtain ⟨j, hj, rfl⟩ := Option.map_eq_some_iff.mp h
      exact ih hj
    unfold pick at h
    split at h
    case isTrue hon =>
      split at h
      case isTrue => cases h; exact ⟨wp, rfl, hon⟩
      case isFalse => exact later h
    case isFalse => exact later h

theorem Router.selectByPolicy_enabled {key provider : Str} {chain : List Str}
    (h : r.selectByPolicy route key = (provider, chain)) (hne : provider ≠ []) : r.providerEnabled provider := by
  unfold selectByPolicy at h
  split at h
  case isTrue =>
    split at h
    case h_1 => cases h; exact absurd rfl hne
    case h_2 total _ =>
      split at h
      case isTrue => cases h; exact absurd rfl hne
      case isFalse =>
        split at h
        case h_1 => cases h; exact absurd rfl hne
        case h_2 i hpick =>
          obtain ⟨wp, hwp, hon⟩ := pick_enabled hpick
          rw [hwp] at h
          cases h
          exact hon
  case isFalse =>
    split at h
    case isTrue =>
      split at h
      case h_1 => cases h; exact absurd rfl hne
      case h_2 first rest hfilter =>
        cases h
        exact (List.mem_filter.mp (hfilter ▸ List.mem_cons_self)).2
    case isFalse =>
      split at h
      case isTrue hon => cases h; exact hon
      case isFalse => cases h; exact absurd rfl hne

theorem Router.selectProvider_enabled {gatewayID : Str} {result : MatchResult}
    (h : r.selectProvider route gatewayID = some result) : r.providerEnabled result.provider := by
  unfold selectProvider at h
  split at h
  case isTrue => cases h
  case isFalse =>
    generalize hpolicy : r.selectByPolicy route gatewayID = policy at h
    obtain ⟨provider, chain⟩ := policy
    dsimp only at h
    split at h
    case isTrue => cases h
    case isFalse hne =>
      cases h
      exact selectByPolicy_enabled hpolicy hne

theorem exists_of_isEnabled {providers : List ProviderConfig} {name : Str} (h : isEnabled (enabledOf providers) name) :
    ∃ p ∈ providers, p.name = name ∧ p.enabled := by
  cases hl : (enabledOf providers).lookup name
  case none => simp [isEnabled, hl] at h
  case some on =>
    have hon : on = true := by simpa [isEnabled, hl] using h
    rcases Map.lookup_insertAll_eq_some hl with ⟨p, hp, hname, henabled⟩ | ⟨hempty, _⟩
    case inl => exact ⟨p, hp, hname, henabled.trans hon⟩
    case inr => cases hempty

end Routing

end SmppGateway
