import SmppGateway.Cdr.Writer
import SmppGateway.Client.Config
import SmppGateway.Filter.Engine
import SmppGateway.Gateway.Inbound
import SmppGateway.Gateway.Risk
import SmppGateway.Router.Match

-- The configuration as `internal/config/config.go` declares it, with the fields that `Normalize`, `validate` and
-- `generateStartupSecrets` read or change, and `Normalize`.

namespace SmppGateway

open Go

namespace Config

structure ServerConfig where
  httpAddr        : Str := []
  shutdownTimeout : Str := []

structure SMPPConfig where
  addr                   : Str := []
  systemID               : Str := []
  password               : Str := []
  systemType             : Str := []
  maxSessionsPerSystemID : Int := 0
  windowSize             : Int := 0
  enquirePeriod          : Str := []

structure DispatcherConfig where
  workers              : Int := 0
  perWorkerConcurrency : Int := 0
  claimLimit           : Int := 0
  pollIntervalMS       : Int := 0
  pendingTTL           : Str := []
  maxAttempts          : Int := 0
  claimTimeout         : Str := []
  pendingSweepInterval : Str := []
  validateDestAddr     : Option Bool := none

structure ESMECred where
  systemID : Str
  password : Str
  tenantID : Str := []

structure ClientAuth where
  clientID : Str
  token    : Str
  enabled  : Bool := false
  tenantID : Str := []

structure TenantLimits where
  tps           : Int := 0
  burst         : Int := 0
  dailySegments : Int := 0
  timezone      : Str := []

structure TenantConfig where
  tenantID : Str
  limits   : TenantLimits := {}

structure CDRConfig extends Cdr.CDRConfig where
  enabled       : Bool := false
  mode          : Str := []
  maxAge        : Str := []
  onFull        : Str := []
  fsyncEvery    : Int := 0
  fsyncInterval : Str := []

structure ProviderRateLimit where
  tps       : Int := 0
  burst     : Int := 0
  timeoutMS : Int := 0

structure SMPPClientConfig extends SmppGateway.SMPPClientConfig where
  systemType : Str := []

structure ProviderConfig extends Routing.ProviderConfig where
  protocol      : Str := []
  endpoint      : Str := []
  rule          : Str := []
  systemID      : Str := []
  password      : Str := []
  httpTimeoutMS : Int := 0
  rateLimit     : ProviderRateLimit := {}
  smpp          : Option SMPPClientConfig := none

structure HTTPRuleConfig extends SmppGateway.HTTPRuleConfig where
  path        : Str := []
  contentType : Str := []

structure StorageConfig where
  driver : Str := []
  dsn    : Str := []

structure AdminConfig where
  username : Str
  password : Str

end Config

open Config in
structure Config where
  server         : Config.ServerConfig := {}
  smpp           : SMPPConfig := {}
  dispatcher     : DispatcherConfig := {}
  tenants        : List TenantConfig := []
  esmes          : List ESMECred := []
  routes         : List RouteConfig := []
  providers      : List Config.ProviderConfig := []
  inbound        : List Config.HTTPRuleConfig := []
  outbound       : List Config.HTTPRuleConfig := []
  clients        : List ClientAuth := []
  trustedProxies : List Str := []
  risk           : RiskConfig
  filter         : Filter.FilterConfig
  cdr            : Config.CDRConfig
  storage        : StorageConfig := {}
  admin          : AdminConfig

namespace Config

def orStr (value default : Str) : Str :=
  if value = [] then default else value

def orInt (value default : Int) : Int :=
  if value = 0 then default else value

@[simp]
theorem orStr_orStr (value default : Str) : orStr (orStr value default) default = orStr value default := by
  simp only [orStr]
  split <;> simp_all

@[simp]
theorem orInt_orInt (value default : Int) : orInt (orInt value default) default = orInt value default := by
  simp only [orInt]
  split <;> simp_all

def ServerConfig.normalize (c : ServerConfig) : ServerConfig where
  httpAddr        := orStr c.httpAddr (lit "127.0.0.1:19087")
  shutdownTimeout := orStr c.shutdownTimeout (lit "10s")

def SMPPConfig.normalize (c : SMPPConfig) : SMPPConfig :=
  { c with
    addr                   := orStr c.addr (lit "127.0.0.1:29175")
    maxSessionsPerSystemID := orInt c.maxSessionsPerSystemID 4
    windowSize             := orInt c.windowSize 16
    enquirePeriod          := orStr c.enquirePeriod (lit "30s") }

def DispatcherConfig.normalize (c : DispatcherConfig) : DispatcherConfig where
  workers              := orInt c.workers 10
  perWorkerConcurrency := orInt c.perWorkerConcurrency 10
  claimLimit           := orInt c.claimLimit 20
  pollIntervalMS       := orInt c.pollIntervalMS 20
  pendingTTL           := orStr c.pendingTTL (lit "30m")
  maxAttempts          := orInt c.maxAttempts 5
  claimTimeout         := orStr c.claimTimeout (lit "60s")
  pendingSweepInterval := orStr c.pendingSweepInterval (lit "1m")
  validateDestAddr     := some (c.validateDestAddr.getD true)

def normalizeRisk (c : RiskConfig) : RiskConfig :=
  { c with
    perNumberPerMinute := orInt c.perNumberPerMinute 5
    perNumberPerDay    := orInt c.perNumberPerDay 20
    perClientPerSecond := orInt c.perClientPerSecond 100 }

def CDRConfig.normalize (c : CDRConfig) : CDRConfig :=
  if c.enabled then
    { c with
      dir           := orStr c.dir (lit "data/cdr")
      mode          := orStr c.mode (lit "events")
      maxRecords    := orInt c.maxRecords 10000
      maxAge        := orStr c.maxAge (lit "1h")
      buffer        := orInt c.buffer 65536
      onFull        := orStr c.onFull (lit "block")
      fsyncInterval := orStr c.fsyncInterval (lit "2s") }
  else
    c

def normalizeInbound (rule : HTTPRuleConfig) : HTTPRuleConfig :=
  { rule with
    method        := orStr rule.method (lit "POST")
    successStatus := orInt rule.successStatus 200 }

def normalizeOutbound (rule : HTTPRuleConfig) : HTTPRuleConfig :=
  { rule with
    method      := orStr rule.method (lit "POST")
    contentType := orStr rule.contentType (lit "application/x-www-form-urlencoded") }

def SMPPClientConfig.normalize (c : SMPPClientConfig) : SMPPClientConfig :=
  { c with
    bindMode            := orStr c.bindMode (lit "transceiver")
    binds               := orInt c.binds 1
    windowSize          := orInt c.windowSize 16
    enquirePeriod       := orStr c.enquirePeriod (lit "30s")
    responseTimeoutMS   := orInt c.responseTimeoutMS 5000
    reconnectMin        := orStr c.reconnectMin (lit "1s")
    reconnectMax        := orStr c.reconnectMax (lit "60s")
    gsm7Packing         := orStr c.gsm7Packing (lit "unpacked")
    longMessage         := orStr c.longMessage (lit "udh")
    messageIDRespFormat := orStr c.messageIDRespFormat (lit "auto")
    messageIDDLRFormat  := orStr c.messageIDDLRFormat (lit "auto")
    dlrIDSource         := orStr c.dlrIDSource (lit "auto") }

def ProviderConfig.normalize (p : ProviderConfig) : ProviderConfig :=
  { p with smpp := p.smpp.map SMPPClientConfig.normalize }

def normalizeRoute (route : RouteConfig) : RouteConfig :=
  { route with
    enabled  := some (route.enabled.getD true)
    weighted := route.weighted.map fun wp => { wp with weight := if wp.weight ≤ 0 then 1 else wp.weight } }

def normalize (c : Config) : Config :=
  { c with
    server     := c.server.normalize
    smpp       := c.smpp.normalize
    dispatcher := c.dispatcher.normalize
    risk       := normalizeRisk c.risk
    cdr        := c.cdr.normalize
    inbound    := c.inbound.map normalizeInbound
    outbound   := c.outbound.map normalizeOutbound
    providers  := c.providers.map ProviderConfig.normalize
    routes     := c.routes.map normalizeRoute
    storage    := { c.storage with driver := orStr c.storage.driver (lit "memory") } }

theorem CDRConfig.normalize_normalize (c : CDRConfig) : c.normalize.normalize = c.normalize := by
  cases h : c.enabled
  case true => simp [normalize, h]
  case false => simp [normalize, h]

theorem normalizeRoute_normalizeRoute (route : RouteConfig) :
    normalizeRoute (normalizeRoute route) = normalizeRoute route := by
  have hweight (w : Int64) : (if (if w ≤ 0 then 1 else w) ≤ 0 then 1 else if w ≤ 0 then 1 else w) =
      if w ≤ 0 then 1 else w := by
    split <;> simp_all
  simp [normalizeRoute, hweight]

theorem ProviderConfig.normalize_normalize (p : ProviderConfig) : p.normalize.normalize = p.normalize := by
  simp only [normalize, Option.map_map]
  congr 2
  funext c
  simp [SMPPClientConfig.normalize]

theorem normalize_normalize (c : Config) : c.normalize.normalize = c.normalize := by
  have hmap {α : Type} {f : α → α} (l : List α) (h : ∀ a, f (f a) = f a) : (l.map f).map f = l.map f := by
    rw [List.map_map]
    exact List.map_congr_left fun a _ => h a
  simp [normalize, CDRConfig.normalize_normalize, ServerConfig.normalize, SMPPConfig.normalize, normalizeRisk,
    DispatcherConfig.normalize, hmap _ ProviderConfig.normalize_normalize, hmap _ normalizeRoute_normalizeRoute,
    hmap _ (f := normalizeInbound) (by simp [normalizeInbound]),
    hmap _ (f := normalizeOutbound) (by simp [normalizeOutbound])]

end Config

end SmppGateway
