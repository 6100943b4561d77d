import SmppGateway.Config.Types
import SmppGateway.Gateway.Http
import SmppGateway.Lib.Check

-- `validate` of `internal/config/config.go`, with one mode that accepts the placeholder for secrets that are generated
-- at the first start and one that does not.

namespace SmppGateway

open Go Check

namespace Config

def placeholderSecret : Str := lit "CHANGE_ME_BEFORE_DEPLOY"

def autoGenerateSecret : Str := lit "AUTO_GENERATE_ON_FIRST_RUN"

def isPlaceholder (value : Str) : Bool :=
  value = placeholderSecret

def isAutoGenerate (value : Str) : Bool :=
  value = autoGenerateSecret

def smppMaxSystemID : Nat := 15

def smppMaxPassword : Nat := 8

def smppMaxSystemType : Nat := 12

structure Texts where
  parseDuration  : Str → Option Duration      -- `time.ParseDuration`
  parsesPrefix   : Str → Bool                 -- `netip.ParsePrefix`
  parsesAddr     : Str → Bool                 -- `netip.ParseAddr`
  splitHostPort  : Str → Option (Str × Str)   -- `net.SplitHostPort`
  loadsLocation  : Str → Bool                 -- `time.LoadLocation`
  compilesRegexp : Str → Bool                 -- `regexp.Compile`

structure FieldOrder where
  fields   : List DurationField
  complete : ∀ field, field ∈ fields

structure TooLong where  -- %s must be at most %d bytes
  field : Str
  max   : Nat
  deriving DecidableEq, Repr

inductive ProviderError
  | httpTimeout                       -- http_timeout_ms must be non-negative
  | rateLimit                         -- rate_limit values must be non-negative
  | smppNotAllowed                    -- smpp config is only valid when protocol is smpp
  | ruleRequired                      -- rule is required for http provider
  | smppRequired                      -- smpp config is required
  | endpointRequired                  -- endpoint is required for smpp provider
  | endpoint                          -- endpoint must be host:port
  | ruleNotEmpty                      -- rule must be empty for smpp provider
  | systemIDRequired                  -- system_id is required for smpp provider
  | passwordRequired                  -- password is required for smpp provider
  | passwordPlaceholder               -- password must be changed before deploy
  | tooLong (err : TooLong)
  | client (err : ClientConfigError)
  | protocol (value : Str)            -- unsupported protocol %q
  deriving DecidableEq, Repr

inductive RouteError
  | invalidName                            -- has invalid name
  | providerRequired                       -- provider is required
  | weightedAndFailover                    -- cannot define both weighted and failover
  | weightedRequired                       -- weighted provider is required
  | weight (provider : Str)                -- weighted provider %q weight must be > 0
  | unknownWeighted (provider : Str)       -- references unknown weighted provider %q
  | unknownFailover (provider : Str)       -- references unknown failover provider %q
  | unknownProvider (provider : Str)       -- references unknown provider %q
  | invalidPrefix (value : Str)            -- has invalid prefix %q
  | invalidFromPrefix (value : Str)        -- has invalid from_prefix %q
  | window (err : WindowError)
  | countryCode                            -- addr_rewrite.country_code must contain only digits
  | addPrefix                              -- addr_rewrite.add_prefix must contain only digits
  | shortLenNegative                       -- dest_addr short code lengths must be non-negative
  | shortLenOrder                          -- dest_addr min_short_len must be <= max_short_len
  | countryLengthMode                      -- dest_addr.country_length_mode must be off, compat, or strict
  | conflict (value other value' : Str)    -- prefix %q conflicts with route %q prefix %q
  deriving DecidableEq, Repr

inductive FilterError
  | invalidName           -- has invalid name
  | action (value : Str)  -- has invalid action %q
  | empty                 -- must define keywords or regex
  | tagRequired           -- tag is required for tag action
  | regex                 -- regex is invalid: %w
  deriving DecidableEq, Repr

inductive CDRError
  | dir            -- cdr.dir is required
  | mode           -- cdr.mode must be events or settled
  | maxRecords     -- cdr.max_records must be > 0
  | maxAge         -- cdr.max_age is invalid
  | buffer         -- cdr.buffer must be non-negative
  | onFull         -- cdr.on_full must be block or drop
  | fsyncEvery     -- cdr.fsync_every must be non-negative
  | fsyncInterval  -- cdr.fsync_interval is invalid
  deriving DecidableEq, Repr

inductive TenantError
  | invalidID  -- has invalid tenant_id
  | duplicate  -- duplicate tenant %q
  | negative   -- limits must be non-negative
  | burst      -- limits.burst requires limits.tps
  | timezone   -- limits.timezone is invalid: %w
  deriving DecidableEq, Repr

inductive AccountError
  | secretRequired               -- password is required; token is required
  | secretPlaceholder            -- password must be changed before deploy; token must be changed before deploy
  | tooLong (err : TooLong)
  | duplicate                    -- duplicate esme %q; duplicate client %q
  | unknownTenant (tenant : Str) -- references unknown tenant %q
  deriving DecidableEq, Repr

inductive RuleError
  | invalidName                     -- has invalid name
  | path                            -- path must start with /
  | reserved (path : Str)           -- path %q conflicts with built-in route
  | authRequired                    -- auth_header and auth_token are required
  | fields                          -- must map from, to, and text
  | receiptFields                   -- must map provider_id and status together
  | providerRequired                -- provider is required
  | unknownProvider (provider : Str)  -- references unknown provider %q
  | outboundFields                  -- must map to and text
  deriving DecidableEq, Repr

inductive ConfigError
  | storageDSN                                       -- storage.dsn is required for postgres
  | storageDriver (driver : Str)                     -- unsupported storage.driver %q
  | adminRequired                                    -- admin username and password are required
  | adminPlaceholder                                 -- admin credentials must be changed before deploy
  | autoGenerate         -- auto-generate placeholders are only allowed during startup bootstrap
  | smppPlaceholder                                  -- smpp password must be changed before deploy
  | tooLong (err : TooLong)
  | sameAddr                                         -- server.http_addr and smpp.addr must not be the same
  | dispatcherNegative                               -- dispatcher values must be non-negative
  | dispatcherDuration (field : Str)                 -- dispatcher.%s is invalid: %w
  | trustedProxy (proxy : Str)                       -- trusted_proxies contains invalid ip or cidr %q
  | providerName                                     -- provider name is required
  | duplicateProvider (name : Str)                   -- duplicate provider %q
  | provider (name : Str) (err : ProviderError)      -- provider %q ..
  | noProviderEnabled                                -- at least one provider must be enabled
  | routeName                                        -- route name is required
  | route (name : Str) (err : RouteError)            -- route %q ..
  | filterName                                       -- filter rule name is required
  | filter (rule : Str) (err : FilterError)          -- filter rule %q ..
  | cdr (err : CDRError)
  | tenantID                                         -- tenant tenant_id is required
  | tenant (id : Str) (err : TenantError)            -- tenant %q ..
  | esmeSystemID                                     -- esme system_id is required
  | esme (id : Str) (err : AccountError)             -- esme %q ..
  | clientID                                         -- client client_id is required
  | client (id : Str) (err : AccountError)           -- client %q ..
  | inboundName                                      -- inbound rule name is required
  | inbound (rule : Str) (err : RuleError)           -- inbound rule %q .., inbound dlr rule %q ..
  | outboundName                                     -- outbound rule name is required
  | outbound (rule : Str) (err : RuleError)          -- outbound rule %q ..
  deriving DecidableEq, Repr

def validateSMPPString (name value : Str) (max : Nat) (allowAutoGenerate : Bool) : Except TooLong Unit :=
  if value = [] ∨ allowAutoGenerate ∧ isAutoGenerate value then
    .ok ()
  else if max < value.length then
    .error ⟨name, max⟩
  else
    .ok ()

def validPrefix (value : Str) : Bool :=
  value.all fun b => isDigit b || b = '+'.toUInt8 || b = '*'.toUInt8 || b = '#'.toUInt8

def isAlphanumByte (b : UInt8) : Bool :=
  isDigit b || ('a'.toUInt8 ≤ b && b ≤ 'z'.toUInt8) || ('A'.toUInt8 ≤ b && b ≤ 'Z'.toUInt8)

def validName : Str → Bool
  | []        => false
  | b :: rest =>
    isAlphanumByte b &&
      rest.all fun b => isAlphanumByte b || b = '_'.toUInt8 || b = '.'.toUInt8 || b = '-'.toUInt8

def isReservedHTTPPath (path : Str) : Bool :=
  path = lit "/healthz" || path = lit "/v1/messages" || path = lit "/v1/config" || path = lit "/ui/config" ||
    path = lit "/admin" || lit "/admin/" <+: path

def mapsTo (fields : Map Str Str) (source : String) : Bool :=
  fields.entries.any fun e => e.2 = lit source

def providerKey (name : Str) : Str :=
  lit "provider:" ++ name

-- The keys of `names`, `tenantNames` and the other maps that are used as sets
abbrev Names := Map Str Unit

def Names.has (names : Names) (name : Str) : Bool :=
  (names.lookup name).isSome

def validateStorage (c : StorageConfig) : Except ConfigError Unit :=
  let driver := toLower c.driver
  if driver = [] ∨ driver = lit "memory" ∨ driver = lit "file" ∨ driver = lit "json" then
    .ok ()
  else if driver = lit "postgres" ∨ driver = lit "pg" then
    require (c.dsn ≠ []) .storageDSN
  else
    .error (.storageDriver c.driver)

def validateCredentials (allowAutoGenerate : Bool) (admin : AdminConfig) (smpp : SMPPConfig) :
    Except ConfigError Unit := do
  require (admin.username ≠ [] && admin.password ≠ []) .adminRequired
  require (!isPlaceholder admin.username && !isPlaceholder admin.password) .adminPlaceholder
  require (allowAutoGenerate || (!isAutoGenerate admin.password && !isAutoGenerate smpp.password)) .autoGenerate
  require (!isPlaceholder smpp.password) .smppPlaceholder
  (validateSMPPString (lit "smpp.system_id") smpp.systemID smppMaxSystemID allowAutoGenerate).mapError .tooLong
  (validateSMPPString (lit "smpp.password") smpp.password smppMaxPassword allowAutoGenerate).mapError .tooLong
  (validateSMPPString (lit "smpp.system_type") smpp.systemType smppMaxSystemType allowAutoGenerate).mapError .tooLong

def validateServer (texts : Texts) (server : ServerConfig) (smpp : SMPPConfig) (d : DispatcherConfig)
    (trustedProxies : List Str) : Except ConfigError Unit := do
  require (server.httpAddr = [] || smpp.addr = [] || server.httpAddr ≠ smpp.addr) .sameAddr
  require (0 ≤ d.workers && 0 ≤ d.perWorkerConcurrency && 0 ≤ d.claimLimit && 0 ≤ d.pollIntervalMS &&
    0 ≤ d.maxAttempts) .dispatcherNegative
  require (d.pendingTTL = [] || (texts.parseDuration d.pendingTTL).isSome) (.dispatcherDuration (lit "pending_ttl"))
  require (d.claimTimeout = [] || (texts.parseDuration d.claimTimeout).isSome)
    (.dispatcherDuration (lit "claim_timeout"))
  require (d.pendingSweepInterval = [] || (texts.parseDuration d.pendingSweepInterval).isSome)
    (.dispatcherDuration (lit "pending_sweep_interval"))
  trustedProxies.forM fun proxy => require (texts.parsesPrefix proxy || texts.parsesAddr proxy) (.trustedProxy proxy)

def validateSMPPProvider (texts : Texts) (order : FieldOrder) (allowAutoGenerate : Bool) (p : ProviderConfig) :
    Except ProviderError Unit :=
  match p.smpp with
  | none      => .error .smppRequired
  | some smpp => do
    require (p.endpoint ≠ []) .endpointRequired
    require ((texts.splitHostPort p.endpoint).any fun (host, port) => host ≠ [] && port ≠ []) .endpoint
    require (p.rule = []) .ruleNotEmpty
    require (p.systemID ≠ []) .systemIDRequired
    require (p.password ≠ []) .passwordRequired
    require (!isPlaceholder p.password) .passwordPlaceholder
    (validateSMPPString (lit "provider.system_id") p.systemID smppMaxSystemID allowAutoGenerate).mapError .tooLong
    (validateSMPPString (lit "provider.password") p.password smppMaxPassword allowAutoGenerate).mapError .tooLong
    (validateSMPPString (lit "provider.smpp.system_type") smpp.systemType smppMaxSystemType
      allowAutoGenerate).mapError .tooLong
    (validateSMPPClientConfig (fun value => (texts.parseDuration value).isSome) order.fields
      smpp.toSMPPClientConfig).mapError .client

def validateProviderProtocol (texts : Texts) (order : FieldOrder) (allowAutoGenerate : Bool) (p : ProviderConfig) :
    Except ProviderError Unit :=
  let protocol := toLower p.protocol
  if protocol = [] ∨ protocol = lit "mock" then
    require p.smpp.isNone .smppNotAllowed
  else if protocol = lit "http" ∨ protocol = lit "https" then do
    require p.smpp.isNone .smppNotAllowed
    require (p.rule ≠ []) .ruleRequired
  else if protocol = lit "smpp" then
    validateSMPPProvider texts order allowAutoGenerate p
  else
    .error (.protocol p.protocol)

structure ProviderNames where
  names   : Names := ∅
  enabled : Names := ∅

def ProviderNames.add (seen : ProviderNames) (p : Routing.ProviderConfig) : ProviderNames where
  names   := seen.names.insert (providerKey p.name) ()
  enabled := if p.enabled then seen.enabled.insert p.name () else seen.enabled

def validateProvider (texts : Texts) (order : Str → FieldOrder) (allowAutoGenerate : Bool) (seen : ProviderNames)
    (p : ProviderConfig) : Except ConfigError ProviderNames := do
  require (p.name ≠ []) .providerName
  require (!seen.names.has (providerKey p.name)) (.duplicateProvider p.name)
  require (0 ≤ p.httpTimeoutMS) (.provider p.name .httpTimeout)
  require (0 ≤ p.rateLimit.tps && 0 ≤ p.rateLimit.burst && 0 ≤ p.rateLimit.timeoutMS) (.provider p.name .rateLimit)
  require (allowAutoGenerate || !isAutoGenerate p.password) .autoGenerate
  (validateProviderProtocol texts (order p.name) allowAutoGenerate p).mapError (.provider p.name)
  pure (seen.add p.toProviderConfig)

def validateProviders (texts : Texts) (order : Str → FieldOrder) (allowAutoGenerate : Bool)
    (providers : List ProviderConfig) : Except ConfigError Names := do
  let seen ← providers.foldlM (validateProvider texts order allowAutoGenerate) {}
  require (providers = [] || seen.enabled.entries ≠ []) .noProviderEnabled
  pure seen.names

def validateRoute (names : Names) (route : RouteConfig) : Except ConfigError Unit := do
  let err := ConfigError.route route.name
  let known (provider : Str) : Bool := names.has (providerKey provider)
  require (route.name ≠ []) .routeName
  require (validName route.name) (err .invalidName)
  require (route.provider ≠ [] || route.weighted ≠ [] || route.failover ≠ []) (err .providerRequired)
  require (route.weighted = [] || route.failover = []) (err .weightedAndFailover)
  route.weighted.forM fun wp => do
    require (wp.provider ≠ []) (err .weightedRequired)
    require (0 < wp.weight) (err (.weight wp.provider))
    require (known wp.provider) (err (.unknownWeighted wp.provider))
  route.failover.forM fun name => require (known name) (err (.unknownFailover name))
  require (route.provider = [] || known route.provider) (err (.unknownProvider route.provider))
  route.prefixes.forM fun value => require (validPrefix value) (err (.invalidPrefix value))
  route.senderPrefixes.forM fun value => require (validPrefix value) (err (.invalidFromPrefix value))
  route.timeWindows.forM fun window => (validateTimeWindow route.name window).mapError fun e => err (.window e)
  require (route.addrRewrite.countryCode = [] || allDigits route.addrRewrite.countryCode) (err .countryCode)
  require (route.addrRewrite.addPrefix = [] || allDigits route.addrRewrite.addPrefix) (err .addPrefix)
  require (0 ≤ route.destAddr.minShortLen && 0 ≤ route.destAddr.maxShortLen) (err .shortLenNegative)
  require (!(0 < route.destAddr.minShortLen && 0 < route.destAddr.maxShortLen &&
    route.destAddr.maxShortLen < route.destAddr.minShortLen)) (err .shortLenOrder)
  require (route.destAddr.countryLengthMode ∈ [[], lit "off", lit "compat", lit "strict"]) (err .countryLengthMode)

-- The prefixes of all routes in a row: none may be owned by a route before with the same provider and priority.
def validateRoutePrefixes (routes : List RouteConfig) : Except ConfigError Unit :=
  go [] (routes.flatMap fun route => route.prefixes.map fun value => (route, value))
where
  go (seen : List (RouteConfig × Str)) : List (RouteConfig × Str) → Except ConfigError Unit
    | []                    => .ok ()
    | (route, value) :: rest =>
      match seen.find? fun (prior, other) =>
          value = other ∧ route.provider = prior.provider ∧ route.priority = prior.priority with
      | some (prior, other) => .error (.route route.name (.conflict value prior.name other))
      | none                => go (seen ++ [(route, value)]) rest

def validateFilterRule (texts : Texts) (rule : Filter.FilterRule) : Except ConfigError Unit := do
  let action := toLower (trimSpaceStr rule.action)
  require (rule.name ≠ []) .filterName
  require (validName rule.name) (.filter rule.name .invalidName)
  require (action ∈ [lit "block", lit "mask", lit "tag", lit "pass"]) (.filter rule.name (.action rule.action))
  require (rule.keywords ≠ [] || rule.regex ≠ []) (.filter rule.name .empty)
  require (action ≠ lit "tag" || rule.tag ≠ []) (.filter rule.name .tagRequired)
  require (rule.regex = [] || texts.compilesRegexp rule.regex) (.filter rule.name .regex)

def validateFilter (texts : Texts) (cfg : Filter.FilterConfig) : Except ConfigError Unit :=
  if cfg.enabled then
    cfg.rules.forM fun rule => if rule.enabled.getD true then validateFilterRule texts rule else .ok ()
  else
    .ok ()

def validateCDR (texts : Texts) (cfg : CDRConfig) : Except CDRError Unit :=
  if cfg.enabled then do
    require (cfg.dir ≠ []) .dir
    require (cfg.mode ∈ [[], lit "events", lit "settled"]) .mode
    require (0 < cfg.maxRecords) .maxRecords
    require (cfg.maxAge = [] || (texts.parseDuration cfg.maxAge).any (0 < ·)) .maxAge
    require (0 ≤ cfg.buffer) .buffer
    require (cfg.onFull ∈ [[], lit "block", lit "drop"]) .onFull
    require (0 ≤ cfg.fsyncEvery) .fsyncEvery
    require (cfg.fsyncInterval = [] || (texts.parseDuration cfg.fsyncInterval).any (0 ≤ ·)) .fsyncInterval
  else
    .ok ()

def validateTenant (texts : Texts) (seen : Names) (tenant : TenantConfig) : Except ConfigError Names := do
  let err := ConfigError.tenant tenant.tenantID
  require (tenant.tenantID ≠ []) .tenantID
  require (validName tenant.tenantID && tenant.tenantID.length ≤ 64) (err .invalidID)
  require (!seen.has tenant.tenantID) (err .duplicate)
  require (0 ≤ tenant.limits.tps && 0 ≤ tenant.limits.burst && 0 ≤ tenant.limits.dailySegments) (err .negative)
  require (!(tenant.limits.tps = 0 && 0 < tenant.limits.burst)) (err .burst)
  require (tenant.limits.timezone = [] || texts.loadsLocation tenant.limits.timezone) (err .timezone)
  pure (seen.insert tenant.tenantID ())

def validateESME (allowAutoGenerate : Bool) (tenants seen : Names) (esme : ESMECred) : Except ConfigError Names := do
  let err := ConfigError.esme esme.systemID
  require (esme.systemID ≠ []) .esmeSystemID
  require (esme.password ≠ []) (err .secretRequired)
  require (!isPlaceholder esme.password) (err .secretPlaceholder)
  require (allowAutoGenerate || !isAutoGenerate esme.password) .autoGenerate
  (validateSMPPString (lit "esme.system_id") esme.systemID smppMaxSystemID allowAutoGenerate).mapError .tooLong
  (validateSMPPString (lit "esme.password") esme.password smppMaxPassword allowAutoGenerate).mapError
    fun e => err (.tooLong e)
  require (!seen.has esme.systemID) (err .duplicate)
  require (esme.tenantID = [] || tenants.has esme.tenantID) (err (.unknownTenant esme.tenantID))
  pure (seen.insert esme.systemID ())

def validateClient (allowAutoGenerate : Bool) (tenants seen : Names) (client : ClientAuth) :
    Except ConfigError Names := do
  let err := ConfigError.client client.clientID
  require (client.clientID ≠ []) .clientID
  require (!client.enabled || client.token ≠ []) (err .secretRequired)
  require (!isPlaceholder client.token) (err .secretPlaceholder)
  require (allowAutoGenerate || !isAutoGenerate client.token) .autoGenerate
  require (!seen.has client.clientID) (err .duplicate)
  require (client.tenantID = [] || tenants.has client.tenantID) (err (.unknownTenant client.tenantID))
  pure (seen.insert client.clientID ())

def validateInbound (allowAutoGenerate : Bool) (names : Names) (rule : HTTPRuleConfig) : Except ConfigError Unit := do
  let err := ConfigError.inbound rule.name
  let maps (key : String) : Bool := rule.field key ≠ []
  require (rule.name ≠ []) .inboundName
  require (validName rule.name) (err .invalidName)
  require (rule.path ≠ [] && lit "/" <+: rule.path) (err .path)
  require (!isReservedHTTPPath rule.path) (err (.reserved rule.path))
  require (rule.authHeader ≠ [] && rule.authToken ≠ []) (err .authRequired)
  require (allowAutoGenerate || !isAutoGenerate rule.authToken) .autoGenerate
  require ((maps "from" && maps "to" && maps "text") || (maps "provider_id" && maps "status")) (err .fields)
  if maps "provider_id" || maps "status" then do
    require (maps "provider_id" && maps "status") (err .receiptFields)
    require (rule.provider ≠ []) (err .providerRequired)
    require (names.has (providerKey rule.provider)) (err (.unknownProvider rule.provider))
  else
    .ok ()

def validateOutbound (rule : HTTPRuleConfig) : Except ConfigError Unit := do
  require (rule.name ≠ []) .outboundName
  require (mapsTo rule.fields "to" && mapsTo rule.fields "text") (.outbound rule.name .outboundFields)

-- `order` is the order in which the loops over the durations of the providers visit them.
def validate (texts : Texts) (order : Str → FieldOrder) (allowAutoGenerate : Bool) (c : Config) :
    Except ConfigError Unit := do
  validateStorage c.storage
  validateCredentials allowAutoGenerate c.admin c.smpp
  validateServer texts c.server c.smpp c.dispatcher c.trustedProxies
  let names ← validateProviders texts order allowAutoGenerate c.providers
  c.routes.forM (validateRoute names)
  validateRoutePrefixes c.routes
  validateFilter texts c.filter
  (validateCDR texts c.cdr).mapError .cdr
  let tenants ← c.tenants.foldlM (validateTenant texts) ∅
  let _ ← c.esmes.foldlM (validateESME allowAutoGenerate tenants) ∅
  let _ ← c.clients.foldlM (validateClient allowAutoGenerate tenants) ∅
  c.inbound.forM (validateInbound allowAutoGenerate names)
  c.outbound.forM validateOutbound

end Config

end SmppGateway
