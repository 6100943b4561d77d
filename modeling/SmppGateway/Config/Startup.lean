import SmppGateway.Config.Validate

-- The first start, `LoadStartup` of `internal/config/bootstrap.go`: secrets that are left to be generated are drawn at
-- random, and the configuration is checked once more without the exceptions for them.

namespace SmppGateway

open Go Check

namespace Config

def isBase64URL (b : UInt8) : Bool :=
  isAlphanumByte b || b = '-'.toUInt8 || b = '_'.toUInt8

structure Secret (n : Nat) where
  value     : Str
  length_eq : value.length = n
  alphabet  : value.all isBase64URL = true

-- The results of `randomSecret` and `randomSMPPSecret` for the fields they are called for
structure Random where
  admin     : Secret 32
  smpp      : Secret 8
  esmes     : Nat → Secret 8
  clients   : Nat → Secret 32
  inbound   : Nat → Secret 32
  providers : Nat → Secret 32

def generated {n : Nat} (value : Str) (secret : Secret n) : Str :=
  if isAutoGenerate value then secret.value else value

def ESMECred.generate (esme : ESMECred) (secret : Secret 8) : ESMECred :=
  { esme with password := generated esme.password secret }

def ClientAuth.generate (client : ClientAuth) (secret : Secret 32) : ClientAuth :=
  { client with token := generated client.token secret }

def HTTPRuleConfig.generate (rule : HTTPRuleConfig) (secret : Secret 32) : HTTPRuleConfig :=
  { rule with authToken := generated rule.authToken secret }

def ProviderConfig.generate (p : ProviderConfig) (secret : Secret 32) : ProviderConfig :=
  { p with password := generated p.password secret }

def generate (random : Random) (cfg : Config) : Config :=
  { cfg with
    admin     := { cfg.admin with password := generated cfg.admin.password random.admin }
    smpp      := { cfg.smpp with password := generated cfg.smpp.password random.smpp }
    esmes     := cfg.esmes.mapIdx fun i esme => esme.generate (random.esmes i)
    clients   := cfg.clients.mapIdx fun i client => client.generate (random.clients i)
    inbound   := cfg.inbound.mapIdx fun i rule => rule.generate (random.inbound i)
    providers := cfg.providers.mapIdx fun i p => p.generate (random.providers i) }

def credentialsOf {α : Type} {n : Nat} (kind field : String) (name secret : α → Str) (random : Nat → Secret n)
    (items : List α) (out : Map Str Str) : Map Str Str :=
  Map.insertAll (fun x => lit kind ++ lit "." ++ name x.1 ++ lit "." ++ lit field) (fun x => (random x.2).value) out
    (items.zipIdx.filter fun x => isAutoGenerate (secret x.1))

def credentials (random : Random) (cfg : Config) : Map Str Str :=
  let out := ∅
  let out :=
    if isAutoGenerate cfg.admin.password then
      (out.insert (lit "admin.username") cfg.admin.username).insert (lit "admin.password") random.admin.value
    else
      out
  let out :=
    if isAutoGenerate cfg.smpp.password then
      (out.insert (lit "smpp.system_id") cfg.smpp.systemID).insert (lit "smpp.password") random.smpp.value
    else
      out
  let out := credentialsOf "esmes" "password" ESMECred.systemID ESMECred.password random.esmes cfg.esmes out
  let out := credentialsOf "clients" "token" ClientAuth.clientID ClientAuth.token random.clients cfg.clients out
  let out := credentialsOf "inbound" "auth_token" (·.name) (·.authToken) random.inbound cfg.inbound out
  credentialsOf "providers" "password" (·.name) ProviderConfig.password random.providers cfg.providers out

def generateStartupSecrets (random : Random) (cfg : Config) : Config × Map Str Str :=
  (cfg.generate random, cfg.credentials random)

structure Paths where
  dir   : Str → Str
  join  : Str → Str → Str
  isAbs : Str → Bool

def resolveStoragePath (paths : Paths) (configPath : Str) (cfg : Config) : Config :=
  if equalFold cfg.storage.driver (lit "file") ∨ equalFold cfg.storage.driver (lit "json") then
    if cfg.storage.dsn = [] then
      { cfg with storage := { cfg.storage with dsn := paths.join (paths.dir configPath) (lit "store.json") } }
    else if paths.isAbs cfg.storage.dsn then
      cfg
    else
      { cfg with storage := { cfg.storage with dsn := paths.join (paths.dir configPath) cfg.storage.dsn } }
  else
    cfg

inductive StartupError
  | validate (err : ConfigError)   -- validate config: %w
  | generated (err : ConfigError)  -- validate generated config: %w

-- `LoadStartup` for a file that is there and has been parsed, where writing goes well. The loops of the two checks may
-- visit the durations in different orders.
def loadStartup (texts : Texts) (lenient strict : Str → FieldOrder) (paths : Paths) (path : Str) (random : Random)
    (parsed : Config) : Except StartupError Config := do
  let cfg := resolveStoragePath paths path parsed.normalize
  (validate texts lenient true cfg).mapError .validate
  let (cfg', out) := generateStartupSecrets random cfg
  if out.entries = [] then
    pure cfg
  else do
    (validate texts strict false cfg'.normalize).mapError .generated
    pure cfg'.normalize

section Secrets

variable {n : Nat} {s : Secret n} {value name : Str} {max : Nat} {allow : Bool}

theorem Secret.ne_of_length (s : Secret n) {value : Str} (h : value.length ≠ n) : s.value ≠ value := by
  rintro rfl
  exact h s.length_eq

-- A generated secret passes the checks for secrets like any other text: it is not empty and neither of the two
-- placeholders, whatever was drawn.
theorem generated_plain (value : Str) (s : Secret n) (hn : n = 8 ∨ n = 32) :
    (generated value s = [] ↔ value = []) ∧ isPlaceholder (generated value s) = isPlaceholder value ∧
      isAutoGenerate (generated value s) = false := by
  have hne {text : Str} (h8 : text.length ≠ 8) (h32 : text.length ≠ 32) : s.value ≠ text :=
    s.ne_of_length (by rcases hn with rfl | rfl <;> assumption)
  rw [generated]
  split
  case isTrue hauto =>
    rw [of_decide_eq_true hauto]
    refine ⟨iff_of_false (hne (by decide) (by decide)) (by decide), ?_, decide_eq_false (hne (by decide) (by decide))⟩
    exact (decide_eq_false (hne (by decide) (by decide))).trans (by decide)
  case isFalse h => exact ⟨Iff.rfl, rfl, Bool.eq_false_iff.mpr h⟩

theorem validateSMPPString_eq_ok : validateSMPPString name value max allow = .ok () ↔
    value = [] ∨ allow = true ∧ isAutoGenerate value = true ∨ value.length ≤ max := by
  rw [validateSMPPString]
  split
  case isTrue h => exact iff_of_true rfl (by tauto)
  case isFalse h =>
    split
    case isTrue hlong => exact iff_of_false nofun (by grind)
    case isFalse hshort => exact iff_of_true rfl (by grind)

theorem validateSMPPString_narrows (hmax : max < autoGenerateSecret.length) :
    Narrows (validateSMPPString name value max true) (validateSMPPString name value max false)
      (value ≠ autoGenerateSecret) := by
  refine .of_unit fun h => ?_
  rw [validateSMPPString_eq_ok] at h ⊢
  simp only [isAutoGenerate, decide_eq_true_eq, Bool.false_eq_true, false_and, false_or, true_and] at h ⊢
  constructor
  case mp =>
    rintro h rfl
    rcases h with h | h
    case inl => exact absurd h (by decide)
    case inr => omega
  case mpr => tauto

theorem validateSMPPString_generated :
    Narrows (validateSMPPString name value max true) (validateSMPPString name (generated value s) max false)
      (value = autoGenerateSecret → n ≤ max) := by
  refine .of_unit fun h => ?_
  rw [validateSMPPString_eq_ok] at h ⊢
  simp only [Bool.false_eq_true, false_and, false_or, true_and] at h ⊢
  cases hauto : isAutoGenerate value
  case true =>
    have hvalue : value = autoGenerateSecret := of_decide_eq_true hauto
    have hnil : s.value = [] → s.value.length ≤ max := fun hs => by simp [hs]
    rw [generated, if_pos hauto, forall_prop_of_true hvalue, or_iff_right_of_imp hnil, s.length_eq]
  case false =>
    have hvalue : value ≠ autoGenerateSecret := of_decide_eq_false hauto
    rw [generated, if_neg (by simp [hauto])]
    rw [hauto] at h
    exact iff_of_true (by simpa using h) fun he => absurd he hvalue

end Secrets

section Narrowing

variable {texts : Texts} {lenient strict : Str → FieldOrder}

theorem validateCredentials_narrows (admin : AdminConfig) (smpp : SMPPConfig) (s : Secret 32) (s' : Secret 8) :
    Narrows (validateCredentials true admin smpp)
      (validateCredentials false { admin with password := generated admin.password s }
        { smpp with password := generated smpp.password s' })
      (smpp.systemID ≠ autoGenerateSecret ∧ smpp.systemType ≠ autoGenerateSecret) := by
  have ⟨hnil, hplaceholder, hauto⟩ := generated_plain admin.password s (.inr rfl)
  have ⟨_, hplaceholder', hauto'⟩ := generated_plain smpp.password s' (.inl rfl)
  simp only [validateCredentials, ne_eq, hnil, hplaceholder, hauto, hplaceholder', hauto', Bool.true_or, Bool.false_or,
    Bool.not_false, Bool.and_true]
  refine .skip fun _ => .skip fun _ => .skip fun _ => .skip fun _ => ?_
  refine .bind (validateSMPPString_narrows (by decide)).mapError fun _ => ?_
  refine .congr (.bind validateSMPPString_generated.mapError fun _ => ?_) (and_iff_right fun _ => Nat.le_refl 8)
  exact (validateSMPPString_narrows (by decide)).mapError

theorem validateSMPPClientConfig_order (parses : Str → Bool) (o o' : FieldOrder)
    (cfg : SmppGateway.SMPPClientConfig) :
    Narrows (validateSMPPClientConfig parses o.fields cfg) (validateSMPPClientConfig parses o'.fields cfg) True := by
  simp only [validateSMPPClientConfig]
  refine .skip fun _ => .skip fun _ => .skip fun _ => .skip fun _ => .skip fun _ => ?_
  refine .congr (.bind (.of_iff fun _ => ?_) fun _ => .same) (iff_of_eq (true_and True))
  -- every order meets all the fields
  rw [forM_eq_ok, forM_eq_ok]
  exact ⟨fun h field _ => h field (o.complete field), fun h field _ => h field (o'.complete field)⟩

-- An upstream over SMPP takes a password of eight bytes only, and what is generated for a provider is longer.
def ProviderConfig.Ready (p : ProviderConfig) : Prop :=
  toLower p.protocol = lit "smpp" → p.systemID ≠ autoGenerateSecret ∧ p.password ≠ autoGenerateSecret ∧
    ∀ smpp ∈ p.smpp, smpp.systemType ≠ autoGenerateSecret

theorem validateSMPPProvider_narrows (o o' : FieldOrder) (p : ProviderConfig) (s : Secret 32) {smpp : SMPPClientConfig}
    (h : p.smpp = some smpp) :
    Narrows (validateSMPPProvider texts o true p) (validateSMPPProvider texts o' false (p.generate s))
      (p.systemID ≠ autoGenerateSecret ∧ p.password ≠ autoGenerateSecret ∧ smpp.systemType ≠ autoGenerateSecret) := by
  have ⟨hnil, hplaceholder, _⟩ := generated_plain p.password s (.inr rfl)
  simp only [validateSMPPProvider, ProviderConfig.generate, h, ne_eq, hnil, hplaceholder]
  refine .skip fun _ => .skip fun _ => .skip fun _ => .skip fun _ => .skip fun _ => .skip fun _ => ?_
  refine .bind (validateSMPPString_narrows (by decide)).mapError fun _ => ?_
  have hpassword : (p.password = autoGenerateSecret → 32 ≤ smppMaxPassword) ↔ ¬p.password = autoGenerateSecret :=
    imp_congr_right fun _ => iff_of_false (by decide) id
  refine .bind (validateSMPPString_generated.mapError.congr hpassword) fun _ => ?_
  refine .congr (.bind (validateSMPPString_narrows (by decide)).mapError fun _ => ?_) (iff_of_eq (and_true _))
  exact (validateSMPPClientConfig_order _ o o' _).mapError

theorem validateProviderProtocol_narrows (o o' : FieldOrder) (p : ProviderConfig) (s : Secret 32) :
    Narrows (validateProviderProtocol texts o true p) (validateProviderProtocol texts o' false (p.generate s))
      p.Ready := by
  have hother (h : toLower p.protocol ≠ lit "smpp") : True ↔ p.Ready := iff_of_true trivial fun he => absurd he h
  refine .ite (fun h => ?mock) fun _ => .ite (fun h => ?http) fun _ => .ite (fun h => ?smpp) fun _ => .of_error
  case mock =>
    refine Narrows.same.congr (hother ?_)
    rcases h with h | h <;> (rw [h]; decide)
  case http =>
    refine Narrows.same.congr (hother ?_)
    rcases h with h | h <;> (rw [h]; decide)
  case smpp =>
    cases hsmpp : p.smpp
    case none =>
      rw [validateSMPPProvider, hsmpp]
      exact .of_error
    case some smpp =>
      refine (validateSMPPProvider_narrows o o' p s hsmpp).congr ?_
      simp [ProviderConfig.Ready, h, hsmpp]

theorem validateProvider_narrows (seen : ProviderNames) (p : ProviderConfig) (s : Secret 32) :
    Narrows (validateProvider texts lenient true seen p) (validateProvider texts strict false seen (p.generate s))
      p.Ready := by
  have hauto : isAutoGenerate (p.generate s).password = false := (generated_plain p.password s (.inr rfl)).2.2
  simp only [validateProvider, hauto, Bool.true_or, Bool.false_or, Bool.not_false]
  refine .skip fun _ => .skip fun _ => .skip fun _ => .skip fun _ => .skip fun _ => ?_
  refine .congr (.bind (validateProviderProtocol_narrows _ _ p s).mapError fun _ => ?_) (iff_of_eq (and_true _))
  exact .same

theorem validateESME_narrows (tenants seen : Names) (esme : ESMECred) (s : Secret 8) :
    Narrows (validateESME true tenants seen esme) (validateESME false tenants seen (esme.generate s))
      (esme.systemID ≠ autoGenerateSecret) := by
  have ⟨hnil, hplaceholder, hauto⟩ := generated_plain esme.password s (.inl rfl)
  simp only [validateESME, ESMECred.generate, ne_eq, hnil, hplaceholder, hauto, Bool.true_or, Bool.false_or,
    Bool.not_false]
  refine .skip fun _ => .skip fun _ => .skip fun _ => .skip fun _ => ?_
  refine .congr (.bind (validateSMPPString_narrows (by decide)).mapError fun _ => ?_) (iff_of_eq (and_true _))
  refine .congr (.bind validateSMPPString_generated.mapError fun _ => .same) ?_
  exact iff_of_true ⟨fun _ => Nat.le_refl 8, trivial⟩ trivial

theorem validateClient_narrows (tenants seen : Names) (client : ClientAuth) (s : Secret 32) :
    Narrows (validateClient true tenants seen client) (validateClient false tenants seen (client.generate s)) True := by
  have ⟨hnil, hplaceholder, hauto⟩ := generated_plain client.token s (.inr rfl)
  simp only [validateClient, ClientAuth.generate, ne_eq, hnil, hplaceholder, hauto, Bool.true_or, Bool.false_or,
    Bool.not_false]
  exact .same

theorem validateInbound_narrows (names : Names) (rule : HTTPRuleConfig) (s : Secret 32) :
    Narrows (validateInbound true names rule) (validateInbound false names (rule.generate s)) True := by
  have ⟨hnil, _, hauto⟩ := generated_plain rule.authToken s (.inr rfl)
  simp only [validateInbound, HTTPRuleConfig.generate, ne_eq, hnil, hauto, Bool.true_or, Bool.false_or, Bool.not_false]
  exact .same

theorem validateProviders_narrows (providers : List ProviderConfig) (secrets : Nat → Secret 32) :
    Narrows (validateProviders texts lenient true providers)
      (validateProviders texts strict false (providers.mapIdx fun i p => p.generate (secrets i)))
      (∀ p ∈ providers, p.Ready) := by
  simp only [validateProviders, List.mapIdx_eq_nil_iff]
  refine .congr (.bind (.foldlM_mapIdx (fun i p seen => ?_) providers _) fun _ => .same) (iff_of_eq (and_true _))
  exact validateProvider_narrows seen p (secrets i)

end Narrowing

structure Generable (c : Config) : Prop where
  systemID   : c.smpp.systemID ≠ autoGenerateSecret
  systemType : c.smpp.systemType ≠ autoGenerateSecret
  providers  : ∀ p ∈ c.providers, p.Ready
  esmes      : ∀ esme ∈ c.esmes, esme.systemID ≠ autoGenerateSecret

theorem validate_narrows (texts : Texts) (lenient strict : Str → FieldOrder) (random : Random) (c : Config) :
    Narrows (validate texts lenient true c) (validate texts strict false (c.generate random)) c.Generable := by
  have hesmes (tenants : Names) := Narrows.foldlM_mapIdx (fun i esme seen =>
    validateESME_narrows tenants seen esme (random.esmes i)) c.esmes ∅
  have hclients (tenants : Names) := Narrows.foldlM_mapIdx (fun i client seen =>
    validateClient_narrows tenants seen client (random.clients i)) c.clients ∅
  have hinbound (names : Names) := Narrows.forM_mapIdx (fun i rule =>
    validateInbound_narrows names rule (random.inbound i)) c.inbound
  refine .congr (.skip fun _ => .bind (validateCredentials_narrows _ _ _ _) fun _ => .skip fun _ =>
    .bind (validateProviders_narrows _ _) fun names => .skip fun _ => .skip fun _ => .skip fun _ => .skip fun _ =>
    .skip fun tenants => .bind (hesmes tenants) fun _ => .bind (hclients tenants) fun _ =>
    .bind (hinbound names) fun _ => .same) ?_
  constructor
  case mp => exact fun ⟨⟨hid, htype⟩, hproviders, hesmes, _⟩ => ⟨hid, htype, hproviders, hesmes⟩
  case mpr => exact fun h => ⟨⟨h.systemID, h.systemType⟩, h.providers, h.esmes, by simp⟩

theorem normalize_generate (random : Random) (c : Config) :
    (c.generate random).normalize = c.normalize.generate random := by
  have hcomm {α : Type} {f : Nat → α → α} {g : α → α} (l : List α) (h : ∀ i a, g (f i a) = f i (g a)) :
      (l.mapIdx f).map g = (l.map g).mapIdx f :=
    List.ext_getElem (by simp) fun i _ _ => by simp [h]
  have hproviders := hcomm (f := fun i p => p.generate (random.providers i)) (g := ProviderConfig.normalize) c.providers
    fun _ _ => rfl
  have hinbound := hcomm (f := fun i rule => rule.generate (random.inbound i)) (g := normalizeInbound) c.inbound
    fun _ _ => rfl
  simp only [normalize, generate, hproviders, hinbound]
  rfl

theorem generable_normalize (c : Config) : c.normalize.Generable ↔ c.Generable := by
  have hready (p : ProviderConfig) : p.normalize.Ready ↔ p.Ready := by
    simp [ProviderConfig.Ready, ProviderConfig.normalize, SMPPClientConfig.normalize]
  have hproviders : (∀ p ∈ c.normalize.providers, p.Ready) ↔ ∀ p ∈ c.providers, p.Ready := by
    simp [normalize, hready]
  constructor
  case mp => exact fun h => ⟨h.systemID, h.systemType, hproviders.mp h.providers, h.esmes⟩
  case mpr => exact fun h => ⟨h.systemID, h.systemType, hproviders.mpr h.providers, h.esmes⟩

theorem resolveStoragePath_eq (paths : Paths) (path : Str) (c : Config) :
    ∃ dsn, resolveStoragePath paths path c = { c with storage := { c.storage with dsn := dsn } } := by
  rw [resolveStoragePath]
  split
  case isTrue =>
    split
    case isTrue => exact ⟨_, rfl⟩
    case isFalse =>
      split
      case isTrue => exact ⟨c.storage.dsn, rfl⟩
      case isFalse => exact ⟨_, rfl⟩
  case isFalse => exact ⟨c.storage.dsn, rfl⟩

theorem normalize_resolve (paths : Paths) (path : Str) (c : Config) :
    (resolveStoragePath paths path c.normalize).normalize = resolveStoragePath paths path c.normalize := by
  obtain ⟨dsn, hdsn⟩ := resolveStoragePath_eq paths path c.normalize
  rw [hdsn]
  change ({ c.normalize.normalize with storage := { c.normalize.normalize.storage with dsn := dsn } } : Config) = _
  rw [normalize_normalize]

theorem generable_resolve (paths : Paths) (path : Str) (c : Config) (h : c.Generable) :
    (resolveStoragePath paths path c).Generable := by
  obtain ⟨dsn, hdsn⟩ := resolveStoragePath_eq paths path c
  rw [hdsn]
  exact ⟨h.systemID, h.systemType, h.providers, h.esmes⟩

theorem loadStartup_ok {texts : Texts} {lenient strict : Str → FieldOrder} {random : Random} {paths : Paths}
    {path : Str} {parsed : Config}
    (hvalid : validate texts lenient true (resolveStoragePath paths path parsed.normalize) = .ok ())
    (hready : parsed.Generable) : ∃ cfg, loadStartup texts lenient strict paths path random parsed = .ok cfg := by
  have hcfg := generable_resolve paths path _ ((generable_normalize parsed).mpr hready)
  have hgenerated := ((validate_narrows texts lenient strict random _).accepts hvalid).mpr hcfg
  simp only [loadStartup, generateStartupSecrets, normalize_generate, normalize_resolve, hvalid, hgenerated]
  split
  case isTrue => exact ⟨_, rfl⟩
  case isFalse => exact ⟨_, rfl⟩

-- A template that is accepted is accepted again with its generated secrets if and only if the placeholder stands
-- nowhere but in secrets that fit: not in an identifier or a type of an SMPP system, which nobody generates, and not
-- in the password of an upstream over SMPP, which is generated too long.
theorem generated_config_valid_iff (texts : Texts) (lenient strict : Str → FieldOrder) (random : Random) (c : Config)
    (h : validate texts lenient true c.normalize = .ok ()) :
    validate texts strict false (generateStartupSecrets random c.normalize).1.normalize = .ok () ↔ c.Generable := by
  change validate texts strict false (c.normalize.generate random).normalize = .ok () ↔ _
  rw [normalize_generate, normalize_normalize, (validate_narrows texts lenient strict random c.normalize).accepts h,
    generable_normalize]

def template (providers : List ProviderConfig) : Config where
  smpp      := { systemID := lit "gateway", password := autoGenerateSecret }
  esmes     := [{ systemID := lit "esme", password := autoGenerateSecret }]
  clients   := [{ clientID := lit "shop", token := autoGenerateSecret, enabled := true }]
  providers := providers
  inbound   := [{
    name       := lit "mo"
    path       := lit "/mo"
    authHeader := lit "X-Token"
    authToken  := autoGenerateSecret
    fields     := Map.insertAll id id ∅ [lit "from", lit "to", lit "text"] }]
  risk      := { perNumberPerMinute := 0, perNumberPerDay := 0, perClientPerSecond := 0 }
  filter    := { enabled := false, rules := [] }
  cdr       := { dir := [] }
  admin     := { username := lit "admin", password := autoGenerateSecret }

def sampleTexts : Texts where
  parseDuration value := if value = [] then none else some 1
  parsesPrefix _      := false
  parsesAddr _        := true
  splitHostPort _     := some (lit "localhost", lit "2775")
  loadsLocation _     := true
  compilesRegexp _    := true

def sourceOrder (_ : Str) : FieldOrder where
  fields   := [.enquirePeriod, .reconnectMin, .reconnectMax]
  complete := by
    intro field
    cases field <;> decide

def sampleRandom : Random :=
  let long : Secret 32 := ⟨List.replicate 32 'x'.toUInt8, by decide, by decide⟩
  let short : Secret 8 := ⟨List.replicate 8 'x'.toUInt8, by decide, by decide⟩
  ⟨long, short, fun _ => short, fun _ => long, fun _ => long, fun _ => long⟩

theorem generated_config_valid_iff_http :
    let c := template [{
      name     := lit "up"
      enabled  := true
      protocol := lit "http"
      rule     := lit "out"
      password := autoGenerateSecret }]
    validate sampleTexts sourceOrder true c.normalize = .ok () ∧
      (validate sampleTexts sourceOrder false (generateStartupSecrets sampleRandom c.normalize).1.normalize = .ok () ↔
        c.Generable) := by
  intro c
  have h : validate sampleTexts sourceOrder true c.normalize = .ok () := by decide +kernel
  exact ⟨h, generated_config_valid_iff sampleTexts sourceOrder sourceOrder sampleRandom c h⟩

theorem generated_password_too_long :
    let c := template [{
      name     := lit "up"
      enabled  := true
      protocol := lit "smpp"
      endpoint := lit "localhost:2775"
      systemID := lit "me"
      password := autoGenerateSecret
      smpp     := some {} }]
    validate sampleTexts sourceOrder true c.normalize = .ok () ∧
      validate sampleTexts sourceOrder false (generateStartupSecrets sampleRandom c.normalize).1.normalize =
        .error (.provider (lit "up") (.tooLong ⟨lit "provider.password", 8⟩)) := by
  intro c
  exact ⟨by decide +kernel, by decide +kernel⟩

end Config

end SmppGateway
