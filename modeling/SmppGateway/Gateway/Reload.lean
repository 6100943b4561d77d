import SmppGateway.Config.Startup
import SmppGateway.Provider.Factory

-- Changing the configuration while the gateway runs: `UpdateConfig` of `internal/httpgw/rules.go`, which the admin pages
-- and the configuration API call without a lock, over the provider registry (`internal/provider/registry.go`) and the
-- parts of the dispatcher that are replaced. The writers of call records are a machine of their own.

namespace SmppGateway

open Go Machine Routing

-- A provider in the registry, with the call that made it: two providers of one name are the same one if one call made
-- both.
structure Installed where
  maker    : Nat
  provider : Provider

inductive ReloadPlace
  | store                              -- `g.cfg = cfg`
  | replace                            -- `Replace` up to the end of the lock
  | closing (left : List (Nat × Str))  -- the loop over the old providers
  | routes
  | filter
  | tenants
  | done
  deriving DecidableEq

structure Reload where
  cfg       : Config
  engine    : Option Filter.Engine
  providers : Map Str Provider
  place     : ReloadPlace := .store

structure Registry where
  providers : Map Str Installed := ∅
  onDLR     : Option Nat := none  -- a callback, by number

structure Runtime where
  cfg       : Config
  registry  : Registry := {}
  router    : Routing.Router
  engine    : Option Filter.Engine
  tenants   : Config
  reloads   : List Reload := []
  shutdowns : List (List (Nat × Str)) := []  -- the loops of `CloseAll`
  handlers  : Map (Nat × Str) Nat := ∅       -- the callback that a provider was given last
  closed    : List (Nat × Str) := []         -- the calls of `Close`

structure Checks where
  texts   : Config.Texts
  order   : Str → Config.FieldOrder
  library : Filter.Library

inductive RuntimeEvent
  | update (cfg : Config) (opened : Bool)  -- `UpdateConfig` up to `BuildProviders`; the writer of call records opens
  | advance (k : Nat)
  | setDLRHandler (callback : Nat)
  | closeAll                               -- up to the end of the lock
  | shutdown (k : Nat)                     -- the next turn of a loop of `CloseAll`

-- The checks of `UpdateConfig`, and what it makes before it changes anything.
def Config.prepare (checks : Checks) (cfg : Config) (opened : Bool) : Option Reload :=
  let cfg := cfg.normalize
  match cfg.validate checks.texts checks.order false, Filter.compile checks.library cfg.filter with
  | .ok _, some (.ok engine) =>
    if opened || !cfg.cdr.enabled then
      some { cfg, engine, providers := Provider.buildProviders cfg }
    else
      none
  | _, _ => none

def Config.router (cfg : Config) : Routing.Router :=
  newWithProviders cfg.routes (cfg.providers.map fun p => p.toProviderConfig)

def Registry.objects (providers : Map Str Installed) : List (Nat × Str) :=
  providers.entries.map fun e => (e.2.maker, e.1)

def Registry.dropped (old next : Map Str Installed) : List (Nat × Str) :=
  Registry.objects (old.filter fun name p => (next.lookup name).map (·.maker) ≠ some p.maker)

namespace Runtime

variable (checks : Checks) (r : Runtime)

def moveReload (k : Nat) (u : Reload) (place : ReloadPlace) : Runtime :=
  { r with reloads := r.reloads.set k { u with place } }

def tell (callback : Option Nat) (objects : List (Nat × Str)) : Runtime :=
  { r with handlers := match callback with
    | none    => r.handlers
    | some cb => r.handlers.insertAll id (fun _ => cb) objects }

def replace (k : Nat) (u : Reload) : Runtime :=
  let next := u.providers.mapVal (Installed.mk k)
  { r with registry := { r.registry with providers := next } }.tell r.registry.onDLR (Registry.objects next)

def advance (k : Nat) (u : Reload) : Runtime :=
  match u.place with
  | .store             => { r with cfg := u.cfg }.moveReload k u .replace
  | .replace           => (r.replace k u).moveReload k u
      (.closing (Registry.dropped r.registry.providers (u.providers.mapVal (Installed.mk k))))
  | .closing (x :: xs) => { r with closed := r.closed ++ [x] }.moveReload k u (.closing xs)
  | .closing []        => r.moveReload k u .routes
  | .routes            =>
    { r with router := u.cfg.router }.moveReload k u .filter
  | .filter            => { r with engine := u.engine }.moveReload k u .tenants
  | .tenants           => { r with tenants := u.cfg }.moveReload k u .done
  | .done              => r

def step : RuntimeEvent → Runtime
  | .update cfg opened =>
    match cfg.prepare checks opened with
    | some u => { r with reloads := r.reloads ++ [u] }
    | none   => r
  | .advance k =>
    match r.reloads[k]? with
    | some u => r.advance k u
    | none   => r
  | .setDLRHandler callback =>
    { r with registry := { r.registry with onDLR := some callback } }.tell (some callback)
      (Registry.objects r.registry.providers)
  | .closeAll => { r with
      registry  := { r.registry with providers := ∅ }
      shutdowns := r.shutdowns ++ [Registry.objects r.registry.providers] }
  | .shutdown k =>
    match r.shutdowns[k]? with
    | some (x :: xs) => { r with closed := r.closed ++ [x], shutdowns := r.shutdowns.set k xs }
    | _              => r

-- The state in which `main` starts to serve: its own providers are those of reload 0, and the dispatcher takes the
-- receipts.
def start (u : Reload) : Runtime :=
  let providers := u.providers.mapVal (Installed.mk 0)
  { cfg       := u.cfg
    registry  := { providers, onDLR := some 0 }
    router    := u.cfg.router
    engine    := u.engine
    tenants   := u.cfg
    reloads   := [{ u with place := .done }]
    handlers  := Map.insertAll id (fun _ => 0) ∅ (Registry.objects providers) }

end Runtime

structure Reload.Prepared (checks : Checks) (u : Reload) : Prop where
  normalized : u.cfg.normalize = u.cfg
  valid      : u.cfg.validate checks.texts checks.order false = .ok ()
  engine     : Filter.compile checks.library u.cfg.filter = some (.ok u.engine)
  providers  : u.providers = Provider.buildProviders u.cfg

theorem Config.prepare_eq_some {checks : Checks} {cfg : Config} {opened : Bool} {u : Reload}
    (h : cfg.prepare checks opened = some u) : u.place = .store ∧ u.Prepared checks := by
  unfold Config.prepare at h
  dsimp only at h
  split at h
  case h_1 hvalid hengine =>
    split at h
    case isTrue => cases h; exact ⟨rfl, normalize_normalize cfg, hvalid, hengine, rfl⟩
    case isFalse => cases h
  case h_2 => cases h

def ReloadPlace.left : ReloadPlace → List (Nat × Str)
  | .closing left => left
  | _             => []

def ReloadPlace.installs : ReloadPlace → Bool
  | .store | .replace => false
  | _                 => true

namespace Runtime

variable {checks : Checks} {r r' : Runtime} {u : Reload} {k : Nat} {x : Nat × Str}

def installed (r : Runtime) : List (Nat × Str) :=
  Registry.objects r.registry.providers

def closing (r : Runtime) : List (Nat × Str) :=
  (r.reloads.flatMap (·.place.left)) ++ r.shutdowns.flatten

def madeBy (u : Reload × Nat) : List (Nat × Str) :=
  if u.1.place.installs then u.1.providers.entries.map fun e => (u.2, e.1) else []

def made (r : Runtime) : List (Nat × Str) :=
  r.reloads.zipIdx.flatMap madeBy

structure Kept (r : Runtime) : Prop where
  places  : ∀ x, r.installed.count x + r.closing.count x + r.closed.count x = r.made.count x
  handler : ∀ cb, r.registry.onDLR = some cb → ∀ x ∈ r.installed, r.handlers.lookup x = some cb

theorem objects_mapVal (k : Nat) (m : Map Str Provider) :
    Registry.objects (m.mapVal (Installed.mk k)) = m.entries.map fun e => (k, e.1) := by
  simp [Registry.objects, Map.mapVal]

theorem nodup_objects (k : Nat) (m : Map Str Provider) : (m.entries.map fun e => (k, e.1)).Nodup := by
  have hkeys : (m.entries.map Sigma.fst).Nodup := m.nodupKeys
  have hmap : (m.entries.map fun e => (k, e.1)) = (m.entries.map Sigma.fst).map (Prod.mk k) := by
    rw [List.map_map]
    rfl
  rw [hmap]
  exact hkeys.map (Prod.mk_right_injective k)

theorem mem_madeBy {p : Reload × Nat} (h : x ∈ madeBy p) : x.1 = p.2 ∧ p.1.place.installs := by
  unfold madeBy at h
  split at h
  case isTrue hs =>
    obtain ⟨e, _, rfl⟩ := List.mem_map.mp h
    exact ⟨rfl, hs⟩
  case isFalse => cases h

theorem nodup_made (r : Runtime) : r.made.Nodup := by
  refine List.nodup_flatMap.mpr ⟨fun p _ => ?_, ?_⟩
  case refine_1 =>
    unfold madeBy
    split
    case isTrue => exact nodup_objects p.2 _
    case isFalse => exact List.nodup_nil
  case refine_2 =>
    have hnumbers : (r.reloads.zipIdx.map Prod.snd).Nodup := by
      rw [List.zipIdx_map_snd]
      exact List.nodup_range'
    refine (List.pairwise_map.mp hnumbers).imp fun {p q} hne => ?_
    rw [Function.onFun, List.disjoint_left]
    exact fun x hp hq => hne ((mem_madeBy hp).1.symm.trans (mem_madeBy hq).1)

theorem mem_made (h : x ∈ r.made) : ∃ u, r.reloads[x.1]? = some u ∧ u.place.installs := by
  obtain ⟨⟨u, k⟩, hm, hx⟩ := List.mem_flatMap.mp h
  obtain ⟨hk, hs⟩ := mem_madeBy hx
  rw [List.mem_zipIdx_iff_getElem?] at hm
  exact ⟨u, hk ▸ hm, hs⟩

theorem zipIdx_set {α : Type} (l : List α) (i : Nat) (a : α) : (l.set i a).zipIdx = l.zipIdx.set i (a, i) := by
  ext1 j
  rw [List.getElem?_zipIdx, List.getElem?_set, List.getElem?_set, List.getElem?_zipIdx, List.length_zipIdx]
  by_cases hij : i = j
  case pos => subst hij; by_cases hlt : i < l.length <;> simp [hlt]
  case neg => simp [hij]

theorem count_closing_moveReload (hk : r.reloads[k]? = some u) (place : ReloadPlace) (x : Nat × Str) :
    (r.moveReload k u place).closing.count x + u.place.left.count x = r.closing.count x + place.left.count x := by
  have hset := (flatMap_set_perm (fun u : Reload => u.place.left) hk { u with place }).count_eq x
  simp only [closing, moveReload, List.count_append] at hset ⊢
  omega

theorem count_made_moveReload (hk : r.reloads[k]? = some u) (place : ReloadPlace) (x : Nat × Str) :
    (r.moveReload k u place).made.count x + (madeBy (u, k)).count x =
      r.made.count x + (madeBy ({ u with place }, k)).count x := by
  have hz : r.reloads.zipIdx[k]? = some (u, k) := by
    rw [List.getElem?_zipIdx, hk]
    simp
  have hset := (flatMap_set_perm madeBy hz ({ u with place }, k)).count_eq x
  rwa [← zipIdx_set, List.count_append, List.count_append] at hset

theorem lookup_tell {cb : Nat} {objects : List (Nat × Str)} (hx : x ∈ objects) :
    (r.tell (some cb) objects).handlers.lookup x = some cb := by
  cases hl : (r.tell (some cb) objects).handlers.lookup x
  case none =>
    have hmem : x ∈ r.handlers.insertAll id (fun _ => cb) objects := Map.mem_insertAll.mpr (.inl ⟨x, hx, rfl⟩)
    exact absurd (AList.lookup_eq_none.mp hl) (not_not.mpr hmem)
  case some v =>
    rcases Map.lookup_insertAll_eq_some hl with ⟨y, _, _, rfl⟩ | ⟨_, hnot⟩
    case inl => rfl
    case inr => exact absurd rfl (hnot x hx)

theorem Kept.not_mem (h : r.Kept) (hk : r.reloads[k]? = some u) (hs : u.place.installs = false) (hx : x.1 = k) :
    x ∉ r.installed := by
  intro hm
  have hmade : x ∈ r.made := by
    have hplaces := h.places x
    have hpos := List.count_pos_iff.mpr hm
    exact List.count_pos_iff.mp (by omega)
  obtain ⟨u', hu', hs'⟩ := mem_made hmade
  rw [hx, hk] at hu'
  cases hu'
  rw [hs] at hs'
  cases hs'

theorem dropped_eq (h : r.Kept) (hk : r.reloads[k]? = some u) (hs : u.place.installs = false) :
    Registry.dropped r.registry.providers (u.providers.mapVal (Installed.mk k)) = r.installed := by
  unfold Registry.dropped installed Registry.objects Map.filter
  dsimp only
  congr 1
  rw [List.filter_eq_self]
  rintro ⟨name, p⟩ he
  simp only [decide_eq_true_eq, ne_eq]
  intro hsame
  obtain ⟨q, hq, hmaker⟩ := Option.map_eq_some_iff.mp hsame
  rw [Map.lookup_mapVal] at hq
  obtain ⟨_, _, rfl⟩ := Option.map_eq_some_iff.mp hq
  refine h.not_mem hk hs (x := (p.maker, name)) hmaker.symm (List.mem_map.mpr ⟨⟨name, p⟩, he, rfl⟩)

theorem Kept.moveReload (h : r.Kept) (hk : r.reloads[k]? = some u) {place : ReloadPlace} (hre : r'.reloads = r.reloads)
    (hsh : r'.shutdowns = r.shutdowns)
    (hplaces : ∀ x, r'.installed.count x + place.left.count x + r'.closed.count x + (madeBy (u, k)).count x =
      r.installed.count x + u.place.left.count x + r.closed.count x + (madeBy ({ u with place }, k)).count x)
    (hhandler : ∀ cb, r'.registry.onDLR = some cb → ∀ x ∈ r'.installed, r'.handlers.lookup x = some cb) :
    (r'.moveReload k u place).Kept := by
  refine ⟨fun x => ?_, hhandler⟩
  have hold := h.places x
  have hmoves := hplaces x
  have hclosing := count_closing_moveReload (r := r') (hre ▸ hk) place x
  have hmade := count_made_moveReload (r := r') (hre ▸ hk) place x
  have hclosing' : r'.closing = r.closing := by rw [closing, closing, hre, hsh]
  have hmade' : r'.made = r.made := by rw [made, made, hre]
  rw [hclosing'] at hclosing
  rw [hmade'] at hmade
  change r'.installed.count x + _ + r'.closed.count x = _
  omega

theorem Kept.advance (h : r.Kept) (hk : r.reloads[k]? = some u) : (r.advance k u).Kept := by
  unfold Runtime.advance
  split
  case h_2 hp =>
    have hs : u.place.installs = false := by rw [hp]; rfl
    have hbefore : madeBy (u, k) = [] := by simp [madeBy, hs]
    have hnew : (r.replace k u).installed = u.providers.entries.map fun e => (k, e.1) := objects_mapVal k u.providers
    rw [dropped_eq h hk hs]
    refine h.moveReload hk rfl rfl (fun x => ?_) fun cb hcb x hx => ?_
    case refine_1 =>
      rw [hnew, hbefore, hp]
      change List.count x _ + r.installed.count x + r.closed.count x + 0 =
        r.installed.count x + 0 + r.closed.count x + List.count x (u.providers.entries.map fun e => (k, e.1))
      omega
    case refine_2 =>
      have hcb : r.registry.onDLR = some cb := hcb
      unfold replace
      rw [hcb]
      exact lookup_tell hx
  case h_3 x xs hp =>
    refine h.moveReload hk rfl rfl (fun y => ?_) h.handler
    simp only [madeBy, hp, ReloadPlace.installs, ReloadPlace.left, installed, List.count_append, List.count_cons,
      List.count_nil]
    omega
  case h_8 => exact h
  -- the other steps move no provider
  all_goals
    rename_i hp
    refine h.moveReload hk rfl rfl (fun x => ?_) h.handler
    simp [madeBy, hp, ReloadPlace.installs, ReloadPlace.left, installed]

theorem Kept.step (h : r.Kept) (e : RuntimeEvent) : (r.step checks e).Kept := by
  cases e
  case update cfg opened =>
    simp only [Runtime.step]
    split
    case h_2 => exact h
    case h_1 u hu =>
      have hplace := (Config.prepare_eq_some hu).1
      have hclosing : Runtime.closing { r with reloads := r.reloads ++ [u] } = r.closing := by
        simp [closing, hplace, ReloadPlace.left]
      have hmade : Runtime.made { r with reloads := r.reloads ++ [u] } = r.made := by
        simp [made, List.zipIdx_append, madeBy, hplace, ReloadPlace.installs]
      refine ⟨?_, h.handler⟩
      rw [hclosing, hmade]
      exact h.places
  case advance k =>
    simp only [Runtime.step]
    split
    case h_1 u hk => exact h.advance hk
    case h_2 => exact h
  case setDLRHandler callback =>
    refine ⟨h.places, fun cb hcb x hx => ?_⟩
    cases hcb
    exact lookup_tell hx
  case closeAll =>
    refine ⟨fun x => ?_, fun cb _ x hx => by cases hx⟩
    have hold := h.places x
    change 0 + (r.reloads.flatMap (fun u : Reload => u.place.left) ++ (r.shutdowns ++ [r.installed]).flatten).count x +
      r.closed.count x = r.made.count x
    simp only [closing, List.count_append, List.flatten_append, List.flatten_cons, List.flatten_nil, List.count_nil]
      at hold ⊢
    omega
  case shutdown k =>
    simp only [Runtime.step]
    split
    case h_2 => exact h
    case h_1 x xs hk =>
      refine ⟨fun y => ?_, h.handler⟩
      have hold := h.places y
      have hset := (flatMap_set_perm id hk xs).count_eq y
      rw [List.flatMap_id, List.flatMap_id] at hset
      change r.installed.count y + (_ ++ (r.shutdowns.set k xs).flatten).count y + (r.closed ++ [x]).count y = r.made.count y
      simp only [closing, id_eq, List.count_append, List.count_cons, List.count_nil] at hold hset ⊢
      omega

theorem Kept.start (u : Reload) : (start u).Kept := by
  have hobjects := objects_mapVal 0 u.providers
  constructor
  case places =>
    intro x
    have hmade : (Runtime.start u).made = (Runtime.start u).installed := by
      change [({ u with place := .done }, 0)].flatMap madeBy = Registry.objects (u.providers.mapVal (Installed.mk 0))
      rw [hobjects]
      simp [madeBy, ReloadPlace.installs]
    rw [hmade]
    rfl
  case handler =>
    intro cb hcb x hx
    cases hcb
    exact lookup_tell (r := { Runtime.start u with handlers := ∅ }) hx

-- Every provider that was handed to the registry is installed, is waiting to be closed or has been closed, one of
-- them and once; the installed ones have the callback that the registry was given last.
structure Accounted (r : Runtime) : Prop where
  once    : (r.installed ++ r.closing ++ r.closed).Nodup
  all     : ∀ x, x ∈ r.made ↔ x ∈ r.installed ∨ x ∈ r.closing ∨ x ∈ r.closed
  handler : ∀ cb, r.registry.onDLR = some cb → ∀ x ∈ r.installed, r.handlers.lookup x = some cb

theorem Kept.accounted (h : r.Kept) : r.Accounted := by
  have hperm : (r.installed ++ r.closing ++ r.closed).Perm r.made := by
    rw [List.perm_iff_count]
    intro x
    rw [List.count_append, List.count_append, h.places]
  refine ⟨hperm.nodup_iff.mpr r.nodup_made, fun x => ?_, h.handler⟩
  rw [← hperm.mem_iff, List.mem_append, List.mem_append, or_assoc]

end Runtime

theorem providers_closed_once (checks : Checks) (u : Reload) (es : List RuntimeEvent) :
    Always (Runtime.step checks) Runtime.Accounted (Runtime.start u) es := by
  have hkept : Always (Runtime.step checks) Runtime.Kept (Runtime.start u) es :=
    Always.of_along (G := fun _ _ => True) (.start u) (.of_forall fun _ _ _ => trivial) fun _ e h _ => h.step e
  exact fun pre hpre => (hkept pre hpre).accounted

def ReloadPlace.routed : ReloadPlace → Bool
  | .filter | .tenants | .done => true
  | _                          => false

def ReloadPlace.filtered : ReloadPlace → Bool
  | .tenants | .done => true
  | _                => false

namespace Runtime

variable {checks : Checks} {r r' : Runtime} {u : Reload} {k : Nat}

-- The calls come one after the other, and the gateway is not shutting down.
def Serial (r : Runtime) : RuntimeEvent → Prop
  | .update _ _ => ∀ u ∈ r.reloads, u.place = .done
  | .closeAll   => False
  | _           => True

instance (r : Runtime) : (e : RuntimeEvent) → Decidable (r.Serial e)
  | .update _ _ => inferInstanceAs (Decidable (∀ u ∈ r.reloads, u.place = .done))
  | .closeAll   => .isFalse id
  | .advance _ | .setDLRHandler _ | .shutdown _ => .isTrue trivial

structure InForce (checks : Checks) (r : Runtime) (k : Nat) (u : Reload) : Prop where
  last      : r.reloads.length = k + 1
  call      : r.reloads[k]? = some u
  prepared  : u.Prepared checks
  others    : ∀ (j : Nat) (u' : Reload), j ≠ k → r.reloads[j]? = some u' → u'.place = .done
  cfg       : u.place ≠ .store → r.cfg = u.cfg
  providers : u.place.installs → r.registry.providers = u.providers.mapVal (Installed.mk k)
  router    : u.place.routed → r.router = u.cfg.router
  engine    : u.place.filtered → r.engine = u.engine
  tenants   : u.place = .done → r.tenants = u.cfg

theorem InForce.moved (h : r.InForce checks k u) (hre : r'.reloads = r.reloads) {place : ReloadPlace}
    (hcfg : place ≠ .store → r'.cfg = u.cfg)
    (hproviders : place.installs → r'.registry.providers = u.providers.mapVal (Installed.mk k))
    (hrouter : place.routed → r'.router = u.cfg.router) (hengine : place.filtered → r'.engine = u.engine)
    (htenants : place = .done → r'.tenants = u.cfg) : ∃ u', (r'.moveReload k u place).InForce checks k u' := by
  refine ⟨{ u with place }, ?_⟩
  have hlt : k < r.reloads.length := by rw [h.last]; exact Nat.lt_succ_self k
  constructor
  case last => rw [moveReload, List.length_set, hre, h.last]
  case call => rw [moveReload, hre]; exact List.getElem?_set_self hlt
  case prepared => exact ⟨h.prepared.normalized, h.prepared.valid, h.prepared.engine, h.prepared.providers⟩
  case others =>
    intro j u' hj hu'
    rw [moveReload, hre, List.getElem?_set_ne (Ne.symm hj)] at hu'
    exact h.others j u' hj hu'
  case cfg => exact hcfg
  case providers => exact hproviders
  case router => exact hrouter
  case engine => exact hengine
  case tenants => exact htenants

theorem InForce.advance (h : r.InForce checks k u) : ∃ u', (r.advance k u).InForce checks k u' := by
  unfold Runtime.advance
  split
  case h_1 hp =>
    apply h.moved
    case hre => rfl
    case hcfg => exact fun _ => rfl
    all_goals nofun
  case h_2 hp =>
    apply h.moved
    case hre => rfl
    case hcfg => exact fun _ => h.cfg (by rw [hp]; nofun)
    case hproviders => exact fun _ => rfl
    all_goals nofun
  case h_8 => exact ⟨u, h⟩
  all_goals
    rename_i hp
    apply h.moved
    case hre => rfl
    case hcfg => exact fun _ => h.cfg (by rw [hp]; nofun)
    case hproviders => exact fun _ => h.providers (by rw [hp]; rfl)
  case h_5.hrouter => exact fun _ => rfl
  case h_6.hrouter => exact fun _ => h.router (by rw [hp]; rfl)
  case h_6.hengine => exact fun _ => rfl
  case h_7.hrouter => exact fun _ => h.router (by rw [hp]; rfl)
  case h_7.hengine => exact fun _ => h.engine (by rw [hp]; rfl)
  case h_7.htenants => exact fun _ => rfl
  all_goals nofun

theorem InForce.step (h : r.InForce checks k u) (e : RuntimeEvent) (hs : r.Serial e) :
    ∃ k' u', (r.step checks e).InForce checks k' u' := by
  cases e
  case update cfg opened =>
    simp only [Runtime.step]
    split
    case h_2 => exact ⟨k, u, h⟩
    case h_1 u' hu' =>
      obtain ⟨hplace, hprepared⟩ := Config.prepare_eq_some hu'
      refine ⟨k + 1, u', ?_⟩
      constructor
      case last => simp [h.last]
      case call => simp [← h.last]
      case prepared => exact hprepared
      case others =>
        intro j v hj hv
        have hlt : j < r.reloads.length := by
          have hlt := (List.getElem?_eq_some_iff.mp hv).1
          simp only [List.length_append, List.length_singleton, h.last] at hlt
          rw [h.last]
          omega
        rw [List.getElem?_append_left hlt] at hv
        exact hs v (List.mem_of_getElem? hv)
      all_goals rw [hplace]
      case cfg => exact fun hne => absurd rfl hne
      all_goals nofun
  case advance j =>
    simp only [Runtime.step]
    split
    case h_2 => exact ⟨k, u, h⟩
    case h_1 v hv =>
      by_cases hj : j = k
      case pos =>
        subst hj
        cases h.call.symm.trans hv
        exact ⟨j, h.advance⟩
      case neg =>
        -- The other calls have nothing left to do.
        have hdone := h.others j v hj hv
        refine ⟨k, u, ?_⟩
        simp only [Runtime.advance, hdone]
        exact h
  case setDLRHandler callback =>
    exact ⟨k, u, h.last, h.call, h.prepared, h.others, h.cfg, h.providers, h.router, h.engine, h.tenants⟩
  case closeAll => exact absurd hs id
  case shutdown j =>
    simp only [Runtime.step]
    split
    case h_1 =>
      exact ⟨k, u, h.last, h.call, h.prepared, h.others, h.cfg, h.providers, h.router, h.engine, h.tenants⟩
    case h_2 => exact ⟨k, u, h⟩

theorem InForce.start (h : u.Prepared checks) : (start u).InForce checks 0 { u with place := .done } := by
  constructor
  case others =>
    intro j u' hj hu'
    have hlt := (List.getElem?_eq_some_iff.mp hu').1
    exact absurd (Nat.lt_one_iff.mp hlt) hj
  case prepared => exact ⟨h.normalized, h.valid, h.engine, h.providers⟩
  all_goals first | rfl | exact fun _ => rfl

def provider (r : Runtime) (name : Str) : Option Provider :=
  (r.registry.providers.lookup name).map (·.provider)

-- A provider that the router selects is the one of the configuration, unless that is an HTTP provider without a rule.
-- Such a one is not installed; if no provider is made at all, a mock is installed under the name of mock.
def Served (r : Runtime) : Prop :=
  ∀ route ∈ r.router.routes, ∀ gatewayID result, r.router.selectProvider route gatewayID = some result →
    ∃ p ∈ r.cfg.providers, p.name = result.provider ∧ p.enabled ∧
      (Provider.RuleKnown r.cfg p → ∃ built, Provider.build (Provider.rulesByName r.cfg.outbound) p = some built ∧
        r.provider result.provider = some built) ∧
      (¬Provider.RuleKnown r.cfg p → r.provider result.provider = none ∨
        result.provider = lit "mock" ∧ r.provider result.provider = some Provider.fallback)

structure Consistent (checks : Checks) (r : Runtime) : Prop where
  normalized : r.cfg.normalize = r.cfg
  valid      : r.cfg.validate checks.texts checks.order false = .ok ()
  providers  : ∀ name, r.provider name = (Provider.buildProviders r.cfg).lookup name
  router     : r.router = r.cfg.router
  engine     : Filter.compile checks.library r.cfg.filter = some (.ok r.engine)
  tenants    : r.tenants = r.cfg
  served     : r.Served

theorem served_of_eq (hvalid : r.cfg.validate checks.texts checks.order false = .ok ())
    (hproviders : ∀ name, r.provider name = (Provider.buildProviders r.cfg).lookup name)
    (hrouter : r.router = r.cfg.router) : r.Served := by
  intro route hroute gatewayID result hselect
  have hsound := Config.soundProviders_of_validate hvalid
  rw [hrouter] at hroute hselect
  have hkept := mem_newWithProviders.mp hroute
  have hon := Router.selectProvider_enabled hselect
  rw [Config.router, hkept.providerEnabled] at hon
  obtain ⟨q, hq, hname, henabled⟩ := exists_of_isEnabled hon
  obtain ⟨p, hp, rfl⟩ := List.mem_map.mp hq
  have hlookup := Provider.lookup_buildProviders hsound hp henabled
  have hbuild := Provider.build_isSome_iff (c := r.cfg) (hsound.supported p hp)
  rw [hname, ← hproviders] at hlookup
  refine ⟨p, hp, hname, henabled, fun hknown => ?_, fun hunknown => ?_⟩
  case refine_1 =>
    obtain ⟨built, hbuilt⟩ := Option.isSome_iff_exists.mp (hbuild.mpr hknown)
    rw [hbuilt] at hlookup
    exact ⟨built, hbuilt, hlookup.resolve_right fun h => nomatch h.2.1⟩
  case refine_2 =>
    have hnone : Provider.build (Provider.rulesByName r.cfg.outbound) p = none := by
      rw [← hbuild, Bool.not_eq_true, Option.isSome_eq_false_iff, Option.isNone_iff_eq_none] at hunknown
      exact hunknown
    rw [hnone] at hlookup
    exact hlookup.imp_right fun h => ⟨h.1, h.2.2⟩

theorem InForce.consistent (h : r.InForce checks k u) (hdone : u.place = .done) : r.Consistent checks := by
  have hcfg : r.cfg = u.cfg := h.cfg (by rw [hdone]; nofun)
  have hproviders (name : Str) : r.provider name = (Provider.buildProviders r.cfg).lookup name := by
    rw [provider, h.providers (by rw [hdone]; rfl), Map.lookup_mapVal, hcfg, ← h.prepared.providers, Option.map_map]
    exact Option.map_id'
  have hrouter : r.router = r.cfg.router := by rw [h.router (by rw [hdone]; rfl), hcfg]
  have hvalid : r.cfg.validate checks.texts checks.order false = .ok () := by rw [hcfg]; exact h.prepared.valid
  constructor
  case normalized => rw [hcfg]; exact h.prepared.normalized
  case valid => exact hvalid
  case providers => exact hproviders
  case router => exact hrouter
  case engine => rw [hcfg, h.engine (by rw [hdone]; rfl)]; exact h.prepared.engine
  case tenants => rw [h.tenants hdone, hcfg]
  case served => exact served_of_eq hvalid hproviders hrouter

end Runtime

theorem reload_consistent (checks : Checks) {u : Reload} (hu : u.Prepared checks) (es : List RuntimeEvent)
    (h : Along (Runtime.step checks) Runtime.Serial (.start u) es) :
    Always (Runtime.step checks) (fun r => (∀ v ∈ r.reloads, v.place = .done) → r.Consistent checks) (.start u) es := by
  have hforce : Always (Runtime.step checks) (fun r => ∃ k v, r.InForce checks k v) (.start u) es :=
    Always.of_along ⟨0, _, .start hu⟩ h fun _ e hi hs => hi.elim fun _ hi => hi.elim fun _ hi => hi.step e hs
  intro pre hpre hdone
  obtain ⟨k, v, hv⟩ := hforce pre hpre
  exact hv.consistent (hdone v (List.mem_of_getElem? hv.call))

def mockConfig (name : Str) : Config where
  providers := [{ name, enabled := true, protocol := lit "mock" }]
  routes    := [{ name := lit "all", provider := name }]
  risk      := { perNumberPerMinute := 0, perNumberPerDay := 0, perClientPerSecond := 0 }
  filter    := { enabled := false, rules := [] }
  cdr       := { dir := [] }
  admin     := { username := lit "admin", password := lit "secret" }

def sampleChecks : Checks where
  texts   := Config.sampleTexts
  order   := Config.sourceOrder
  library := .plain

def mockReload : Reload :=
  ((mockConfig (lit "a")).prepare sampleChecks true).get (by decide +kernel)

theorem reload_consistent_once :
    let es : List RuntimeEvent := .update (mockConfig (lit "b")) true :: List.replicate 7 (.advance 1)
    let r := run (Runtime.step sampleChecks) (.start mockReload) es
    Along (Runtime.step sampleChecks) Runtime.Serial (.start mockReload) es ∧ r.Consistent sampleChecks ∧
      (r.provider (lit "b")).isSome ∧ r.closed = [(0, lit "a")] := by
  intro es r
  have hprepared : mockReload.Prepared sampleChecks := (Config.prepare_eq_some (Option.some_get _).symm).2
  have hserial : Along (Runtime.step sampleChecks) Runtime.Serial (.start mockReload) es := by decide +kernel
  have hdone : ∀ v ∈ r.reloads, v.place = .done := by decide +kernel
  exact ⟨hserial, reload_consistent sampleChecks hprepared es hserial es List.prefix_rfl hdone, by decide +kernel,
    by decide +kernel⟩

theorem overlapping_reloads_disagree :
    let es : List RuntimeEvent := [.update (mockConfig (lit "b")) true, .update (mockConfig (lit "c")) true,
      .advance 1, .advance 1] ++ List.replicate 7 (.advance 2) ++ List.replicate 5 (.advance 1)
    let r := run (Runtime.step sampleChecks) (.start mockReload) es
    (∀ v ∈ r.reloads, v.place = .done) ∧
      (∃ route ∈ r.router.routes, (r.router.selectProvider route (lit "m1")).map (·.provider) = some (lit "b")) ∧
      (r.provider (lit "b")).isNone ∧ (r.provider (lit "c")).isSome := by
  decide +kernel

end SmppGateway
