import SmppGateway.Dispatch.Ids
import SmppGateway.Dispatch.Submit
import SmppGateway.Lib.Lottery
import SmppGateway.Router.Match

-- Which provider serves a route (`internal/router/router.go`).

namespace SmppGateway.Routing

open Go Lottery Parse

structure MatchResult where
  route         : RouteConfig
  provider      : Str
  failoverChain : List Str := []
  deriving DecidableEq, Repr

def stableHash (value : Str) : UInt64 :=
  value.foldl (fun h b => (h ^^^ b.toUInt64) * 1099511628211) 14695981039346656037

namespace Router

variable (r : Router)

def providerEnabled (name : Str) : Bool :=
  r.enabledProviders.entries = [] || isEnabled r.enabledProviders name

def totalWeight : UInt64 → List WeightedProvider → Option UInt64
  | total, []          => some total
  | total, wp :: rest =>
    if r.providerEnabled wp.provider then
      if wp.weight ≤ 0 then
        none
      else if 0xFFFFFFFFFFFFFFFF - wp.weight.toUInt64 < total then
        none
      else
        totalWeight (total + wp.weight.toUInt64) rest
    else
      totalWeight total rest

def pick : UInt64 → List WeightedProvider → Option Nat
  | _, []          => none
  | n, wp :: rest =>
    if r.providerEnabled wp.provider then
      if n < wp.weight.toUInt64 then some 0 else (pick (n - wp.weight.toUInt64) rest).map (· + 1)
    else
      (pick n rest).map (· + 1)

-- The provider and the chain; no name stands for no provider.
def selectByPolicy (route : RouteConfig) (key : Str) : Str × List Str :=
  if route.weighted ≠ [] then
    match r.totalWeight 0 route.weighted with
    | none       => ([], [])
    | some total =>
      if total ≤ 0 then
        ([], [])
      else
        match r.pick (stableHash key % total) route.weighted with
        | none   => ([], [])
        | some i => ((route.weighted[i]?.map (·.provider)).getD [], [])
  else if route.failover ≠ [] then
    match route.failover.filter r.providerEnabled with
    | []             => ([], [])
    | first :: chain => (first, first :: chain)
  else if r.providerEnabled route.provider then
    (route.provider, [])
  else
    ([], [])

def selectProvider (route : RouteConfig) (gatewayID : Str) : Option MatchResult :=
  if route.weighted ≠ [] ∧ gatewayID = [] then
    none
  else
    let (provider, chain) := r.selectByPolicy route gatewayID
    if provider = [] then none else some { route, provider, failoverChain := chain }

def interface (clock : Time) (zone : Time → CivilTime) : SmppGateway.Router where
  matchRoute               := r.matchRoute clock zone
  selectProvider route id := (r.selectProvider route id).map (·.provider)

-- The tickets of an entry: none for a provider that is not enabled.
def tickets (wp : WeightedProvider) : Nat :=
  if r.providerEnabled wp.provider then wp.weight.toUInt64.toNat else 0

theorem pick_eq_draw (n : UInt64) (l : List WeightedProvider) : r.pick n l = draw (l.map r.tickets) n.toNat := by
  induction l generalizing n
  case nil => rfl
  case cons wp rest hi =>
    rw [pick, List.map_cons, draw, tickets]
    by_cases henabled : r.providerEnabled wp.provider
    case neg => simp [henabled, hi]
    case pos =>
      simp only [if_pos henabled, UInt64.lt_iff_toNat_lt]
      by_cases hlt : n.toNat < wp.weight.toUInt64.toNat
      case pos => rw [if_pos hlt, if_pos hlt]
      case neg =>
        have hle : wp.weight.toUInt64 ≤ n := UInt64.le_iff_toNat_le.mpr (Nat.le_of_not_lt hlt)
        rw [if_neg hlt, if_neg hlt, hi, UInt64.toNat_sub_of_le _ _ hle]

theorem totalWeight_eq {l : List WeightedProvider} (hpos : ∀ wp ∈ l, 0 < wp.weight) {total : UInt64}
    (hsum : total.toNat + (l.map r.tickets).sum < 2 ^ 64) :
    ∃ t, r.totalWeight total l = some t ∧ t.toNat = total.toNat + (l.map r.tickets).sum := by
  induction l generalizing total
  case nil => exact ⟨total, rfl, by simp⟩
  case cons wp rest hi =>
    obtain ⟨hwp, hrest⟩ := List.forall_mem_cons.mp hpos
    rw [List.map_cons, List.sum_cons] at hsum ⊢
    unfold totalWeight
    by_cases henabled : r.providerEnabled wp.provider
    case neg =>
      have hzero : r.tickets wp = 0 := if_neg henabled
      rw [hzero, Nat.zero_add] at hsum ⊢
      rw [if_neg henabled]
      exact hi hrest hsum
    case pos =>
      have htickets : r.tickets wp = wp.weight.toUInt64.toNat := if_pos henabled
      have hweight : ¬wp.weight ≤ 0 := Int64.not_le.mpr hwp
      have hmax : (0xFFFFFFFFFFFFFFFF - wp.weight.toUInt64).toNat = 2 ^ 64 - 1 - wp.weight.toUInt64.toNat := by
        rw [UInt64.toNat_sub_of_le _ _ (UInt64.le_iff_toNat_le.mpr (by have := wp.weight.toUInt64.toNat_lt; simp; omega))]
        rfl
      have hfits : ¬0xFFFFFFFFFFFFFFFF - wp.weight.toUInt64 < total := by
        rw [UInt64.lt_iff_toNat_lt, hmax]
        omega
      have hadd : (total + wp.weight.toUInt64).toNat = total.toNat + wp.weight.toUInt64.toNat := by
        rw [UInt64.toNat_add, Nat.mod_eq_of_lt (by omega)]
      rw [if_pos henabled, if_neg hweight, if_neg hfits]
      have hsum' : (total + wp.weight.toUInt64).toNat + (rest.map r.tickets).sum < 2 ^ 64 := by omega
      obtain ⟨t, ht, htotal⟩ := hi hrest hsum'
      exact ⟨t, ht, by omega⟩

end Router

structure ValidWeights (route : RouteConfig) : Prop where
  positive : ∀ wp ∈ route.weighted, 0 < wp.weight
  sum      : (route.weighted.map (·.weight.toInt)).sum < 2 ^ 64

def Offers (route : RouteConfig) (provider : Str) : Prop :=
  if route.weighted ≠ [] then
    ∃ wp ∈ route.weighted, wp.provider = provider
  else if route.failover ≠ [] then
    provider ∈ route.failover
  else
    provider = route.provider

theorem toNat_weight {wp : WeightedProvider} (h : 0 < wp.weight) : (wp.weight.toUInt64.toNat : Int) = wp.weight.toInt := by
  have hle : 0 ≤ wp.weight := Int64.le_of_lt h
  rw [Int64.toNat_toUInt64_of_le hle]
  have hint : 0 ≤ wp.weight.toInt := Int64.le_iff_toInt_le.mp hle
  exact Int.toNat_of_nonneg hint

theorem sum_tickets_le (r : Router) {l : List WeightedProvider} (hpos : ∀ wp ∈ l, 0 < wp.weight) :
    ((l.map r.tickets).sum : Int) ≤ (l.map (·.weight.toInt)).sum := by
  induction l
  case nil => simp
  case cons wp l hi =>
    obtain ⟨hwp, hl⟩ := List.forall_mem_cons.mp hpos
    have ih := hi hl
    have hweight := toNat_weight hwp
    simp only [List.map_cons, List.sum_cons, Router.tickets]
    split <;> omega

theorem exists_offered {route : RouteConfig} {enabled : Map Str Bool} (h : routeSelectable route enabled) :
    ∃ provider, Offers route provider ∧ isEnabled enabled provider := by
  unfold routeSelectable at h
  unfold Offers
  split at h
  case isTrue hw =>
    obtain ⟨wp, hm, henabled⟩ := List.any_eq_true.mp h
    exact ⟨wp.provider, by rw [if_pos hw]; exact ⟨wp, hm, rfl⟩, henabled⟩
  case isFalse hw =>
    split at h
    case isTrue hf =>
      obtain ⟨provider, hm, henabled⟩ := List.any_eq_true.mp h
      exact ⟨provider, by rw [if_neg hw, if_pos hf]; exact hm, henabled⟩
    case isFalse hf => exact ⟨route.provider, by rw [if_neg hw, if_neg hf], h⟩

theorem Kept.providerEnabled {routes : List RouteConfig} {providers : List ProviderConfig} {route : RouteConfig}
    (h : Kept routes providers route) (name : Str) :
    (newWithProviders routes providers).providerEnabled name = isEnabled (enabledOf providers) name := by
  obtain ⟨provider, -, henabled⟩ := exists_offered h.selectable
  have hne : (enabledOf providers).entries ≠ [] := by
    intro hnil
    have hempty : enabledOf providers = ∅ := AList.ext hnil
    rw [hempty] at henabled
    cases henabled
  simp [Router.providerEnabled, newWithProviders, hne]

section Served

variable {routes : List RouteConfig} {providers : List ProviderConfig} {route : RouteConfig}
  (h : Kept routes providers route)
include h

theorem Kept.totalWeight (hw : ValidWeights route) (hne : route.weighted ≠ []) :
    ∃ total, (newWithProviders routes providers).totalWeight 0 route.weighted = some total ∧ 0 < total.toNat ∧
      total.toNat = (route.weighted.map (newWithProviders routes providers).tickets).sum := by
  have hle := sum_tickets_le (newWithProviders routes providers) hw.positive
  have hsum := hw.sum
  have hlt : (0 : UInt64).toNat + (route.weighted.map (newWithProviders routes providers).tickets).sum < 2 ^ 64 := by
    have hzero : (0 : UInt64).toNat = 0 := rfl
    omega
  obtain ⟨total, htotal, heq⟩ := (newWithProviders routes providers).totalWeight_eq hw.positive hlt
  have hzero : (0 : UInt64).toNat = 0 := rfl
  rw [hzero, Nat.zero_add] at heq
  refine ⟨total, htotal, ?_, heq⟩
  -- The entry that keeps the route has a ticket.
  obtain ⟨provider, hoffers, henabled⟩ := exists_offered h.selectable
  rw [Offers, if_pos hne] at hoffers
  obtain ⟨wp, hm, rfl⟩ := hoffers
  have hticket : (newWithProviders routes providers).tickets wp = wp.weight.toUInt64.toNat := by
    rw [Router.tickets, h.providerEnabled, if_pos henabled]
  have hpos : 0 < wp.weight.toInt := Int64.lt_iff_toInt_lt.mp (hw.positive wp hm)
  have hweight := toNat_weight (hw.positive wp hm)
  have hmem := List.single_le_sum (by simp) _ (List.mem_map_of_mem (f := (newWithProviders routes providers).tickets) hm)
  omega

theorem Kept.pick {n : UInt64}
    (hn : n.toNat < (route.weighted.map (newWithProviders routes providers).tickets).sum) :
    ∃ i wp, (newWithProviders routes providers).pick n route.weighted = some i ∧ route.weighted[i]? = some wp ∧
      isEnabled (enabledOf providers) wp.provider := by
  rw [Router.pick_eq_draw]
  obtain ⟨i, hi⟩ := Option.isSome_iff_exists.mp (draw_isSome hn)
  obtain ⟨hlt, hlow, hhigh⟩ := draw_eq_some.mp hi
  rw [List.length_map] at hlt
  refine ⟨i, route.weighted[i], hi, List.getElem?_eq_getElem hlt, ?_⟩
  rw [List.getD_eq_getElem _ _ (by simpa using hlt), List.getElem_map, Router.tickets, h.providerEnabled] at hhigh
  by_contra hdisabled
  rw [if_neg hdisabled] at hhigh
  omega

theorem Kept.tickets {wp : WeightedProvider} (hpos : 0 < wp.weight) :
    ((newWithProviders routes providers).tickets wp : Int) =
      if isEnabled (enabledOf providers) wp.provider then wp.weight.toInt else 0 := by
  rw [Router.tickets, h.providerEnabled]
  split
  case isTrue => exact toNat_weight hpos
  case isFalse => rfl

theorem Kept.sum_tickets {l : List WeightedProvider} (hpos : ∀ wp ∈ l, 0 < wp.weight) :
    ((l.map (newWithProviders routes providers).tickets).sum : Int) =
      ((l.filter fun wp => isEnabled (enabledOf providers) wp.provider).map (·.weight.toInt)).sum := by
  induction l
  case nil => rfl
  case cons wp l hi =>
    obtain ⟨hwp, hl⟩ := List.forall_mem_cons.mp hpos
    rw [List.map_cons, List.sum_cons, Nat.cast_add, hi hl, h.tickets hwp]
    by_cases henabled : isEnabled (enabledOf providers) wp.provider <;> simp [henabled]

theorem Kept.card_pick (hw : ValidWeights route) {i : Nat} {wp : WeightedProvider} (hi : route.weighted[i]? = some wp) :
    (((Finset.range (route.weighted.map (newWithProviders routes providers).tickets).sum).filter fun n =>
      (newWithProviders routes providers).pick (.ofNat n) route.weighted = some i).card : Int) =
        if isEnabled (enabledOf providers) wp.provider then wp.weight.toInt else 0 := by
  obtain ⟨hlt, hwp⟩ := List.getElem?_eq_some_iff.mp hi
  have hm : wp ∈ route.weighted := List.mem_of_getElem? hi
  have hle := sum_tickets_le (newWithProviders routes providers) hw.positive
  have hsum := hw.sum
  have hsame : ∀ n ∈ Finset.range (route.weighted.map (newWithProviders routes providers).tickets).sum,
      ((newWithProviders routes providers).pick (.ofNat n) route.weighted = some i ↔
        draw (route.weighted.map (newWithProviders routes providers).tickets) n = some i) := by
    intro n hn
    have hn := Finset.mem_range.mp hn
    rw [Router.pick_eq_draw, UInt64.toNat_ofNat_of_lt' (show n < 2 ^ 64 by omega)]
  have hlt' : i < (route.weighted.map (newWithProviders routes providers).tickets).length := by simpa using hlt
  rw [Finset.filter_congr hsame, card_draw hlt', List.getD_eq_getElem _ _ hlt', List.getElem_map, hwp,
    h.tickets (hw.positive wp hm)]

-- An enabled provider has a name, and that is what tells it from no provider.
variable (hnames : isEnabled (enabledOf providers) [] = false)
include hnames

theorem Kept.selectWeighted (hne : route.weighted ≠ []) {total : UInt64}
    (htotal : (newWithProviders routes providers).totalWeight 0 route.weighted = some total) (hpos : 0 < total.toNat)
    (hsum : total.toNat = (route.weighted.map (newWithProviders routes providers).tickets).sum) {gatewayID : Str}
    (hid : gatewayID ≠ []) :
    ∃ i wp, (newWithProviders routes providers).pick (stableHash gatewayID % total) route.weighted = some i ∧
      route.weighted[i]? = some wp ∧ isEnabled (enabledOf providers) wp.provider ∧
      (newWithProviders routes providers).selectProvider route gatewayID = some { route, provider := wp.provider } := by
  have hn : (stableHash gatewayID % total).toNat <
      (route.weighted.map (newWithProviders routes providers).tickets).sum := by
    rw [UInt64.toNat_mod, ← hsum]
    exact Nat.mod_lt _ hpos
  obtain ⟨i, wp, hpick, hwp, henabled⟩ := h.pick hn
  have hname : wp.provider ≠ [] := by
    intro hnil
    rw [hnil, hnames] at henabled
    cases henabled
  have hzero : ¬total ≤ 0 := by
    rw [UInt64.le_iff_toNat_le]
    exact Nat.not_le.mpr hpos
  refine ⟨i, wp, hpick, hwp, henabled, ?_⟩
  simp [Router.selectProvider, Router.selectByPolicy, hne, hid, htotal, hzero, hpick, hwp, hname]

theorem Kept.selectProvider (hw : ValidWeights route) {gatewayID : Str} (hid : gatewayID ≠ []) :
    ∃ result, (newWithProviders routes providers).selectProvider route gatewayID = some result ∧ result.route = route ∧
      Offers route result.provider ∧ isEnabled (enabledOf providers) result.provider := by
  have hname {name : Str} (henabled : isEnabled (enabledOf providers) name) : name ≠ [] := by
    rintro rfl
    rw [hnames] at henabled
    cases henabled
  by_cases hne : route.weighted = []
  case neg =>
    obtain ⟨total, htotal, hpos, hsum⟩ := h.totalWeight hw hne
    obtain ⟨i, wp, -, hwp, henabled, hselect⟩ := h.selectWeighted hnames hne htotal hpos hsum hid
    refine ⟨_, hselect, rfl, ?_, henabled⟩
    rw [Offers, if_pos hne]
    exact ⟨wp, List.mem_of_getElem? hwp, rfl⟩
  case pos =>
    obtain ⟨provider, hoffers, henabled⟩ := exists_offered h.selectable
    have hsame : route.failover.filter (newWithProviders routes providers).providerEnabled =
        route.failover.filter (isEnabled (enabledOf providers)) := by
      congr 1
      exact funext h.providerEnabled
    rw [Offers, if_neg (not_not.mpr hne)] at hoffers
    by_cases hf : route.failover = []
    case pos =>
      rw [if_neg (not_not.mpr hf)] at hoffers
      subst hoffers
      refine ⟨{ route, provider := route.provider }, ?_, rfl, by simp [Offers, hne, hf], henabled⟩
      simp [Router.selectProvider, Router.selectByPolicy, hne, hf, h.providerEnabled, henabled, hname henabled]
    case neg =>
      rw [if_pos hf] at hoffers
      have hmem : provider ∈ route.failover.filter (isEnabled (enabledOf providers)) :=
        List.mem_filter.mpr ⟨hoffers, henabled⟩
      obtain ⟨first, chain, hchain⟩ := List.exists_cons_of_ne_nil (List.ne_nil_of_mem hmem)
      have hfirst : first ∈ route.failover.filter (isEnabled (enabledOf providers)) := by
        rw [hchain]
        exact List.mem_cons_self
      obtain ⟨hin, hon⟩ := List.mem_filter.mp hfirst
      refine ⟨{ route, provider := first, failoverChain := first :: chain }, ?_, rfl, by simp [Offers, hne, hf, hin], hon⟩
      simp [Router.selectProvider, Router.selectByPolicy, hne, hf, hsame, hchain, hname hon]

end Served

section Submit

variable {d : Submitter} {routes : List RouteConfig} {providers : List ProviderConfig} {clock : Time}
  {zone : Time → CivilTime} (hrouter : d.router = some ((newWithProviders routes providers).interface clock zone))
include hrouter

theorem routed_kept {env env' : Envelope} {router : SmppGateway.Router} {route : RouteConfig}
    (h : d.routed env = .ok (env', router, route)) :
    router = (newWithProviders routes providers).interface clock zone ∧ Kept routes providers route := by
  obtain ⟨⟨env₁, tags⟩, -, h⟩ := bind_eq_ok.mp h
  obtain ⟨⟨router', route'⟩, hmatch, h⟩ := bind_eq_ok.mp h
  cases h
  unfold Submitter.matchRoute at hmatch
  rw [hrouter] at hmatch
  simp only at hmatch
  split at hmatch
  case h_1 => cases hmatch
  case h_2 hroute =>
    cases hmatch
    obtain ⟨-, hkept, -⟩ := matchRoute_eq_some hroute
    exact ⟨rfl, hkept⟩

omit hrouter in
theorem routed_error {env : Envelope} {name : Str} : d.routed env ≠ .error (.noProvider name) := by
  intro h
  rcases bind_eq_error.mp h with hf | ⟨⟨env', tags⟩, -, h⟩
  case inl =>
    unfold Submitter.filter at hf
    grind
  case inr =>
    rcases bind_eq_error.mp h with hm | ⟨⟨router, route⟩, -, h⟩
    case inl =>
      unfold Submitter.matchRoute at hm
      grind
    case inr => cases h

omit hrouter in
theorem checkDest_error {env : Envelope} {route : RouteConfig} {name : Str} :
    d.checkDest env route ≠ .error (.noProvider name) := by
  unfold Submitter.checkDest
  grind

variable (hnames : isEnabled (enabledOf providers) [] = false)
  (hweights : ∀ route, Kept routes providers route → ValidWeights route)
  {c : SubmitChance} (hid : c.gatewayID ≠ some [])
include hnames hweights hid

theorem prepare_served (identity : Option Identity) (env : Envelope) (name : Str) :
    d.prepare c identity env ≠ .error (.noProvider name) := by
  intro h
  rcases bind_eq_error.mp h with hr | ⟨⟨env₁, router, route⟩, hr, h⟩
  case inl => exact routed_error hr
  case inr =>
    rcases bind_eq_error.mp h with hd | ⟨env₂, -, h⟩
    case inl => exact checkDest_error hd
    case inr =>
      split at h
      case h_1 => cases h
      case h_2 gatewayID hgateway =>
        obtain ⟨rfl, hkept⟩ := routed_kept hrouter hr
        have hne : gatewayID ≠ [] := by
          rintro rfl
          exact hid hgateway
        obtain ⟨result, hselect, -⟩ := hkept.selectProvider hnames (hweights route hkept) hne
        have hsome : ((newWithProviders routes providers).interface clock zone).selectProvider route gatewayID =
            some result.provider := by
          simp [Router.interface, hselect]
        rw [hsome] at h
        cases h

theorem submit_served (s : MemoryStore) (env : Envelope) (name : Str) :
    (d.submit s c env).1 ≠ .error (.noProvider name) := by
  have hqueue (identity : Option Identity) (env : Envelope) :
      (d.queue s c identity env).1 ≠ .error (.noProvider name) := by
    have hprepare := prepare_served hrouter hnames hweights hid identity env name
    unfold Submitter.queue
    split
    case h_1 e he =>
      rw [he] at hprepare
      simpa using hprepare
    case h_2 => split <;> simp
  unfold Submitter.submit
  simp only
  split
  case h_1 => exact hqueue _ _
  case h_2 =>
    split
    case isTrue => simp
    case isFalse =>
      split
      case isTrue =>
        unfold Submitter.overRate
        split <;> simp
      case isFalse => exact hqueue _ _

end Submit

-- If no enabled provider goes without a name, every route that is kept is served by an enabled provider of
-- its own, a weighted one in proportion to its weights, and a submission does not fail for want of a provider.
theorem kept_route_served (routes : List RouteConfig) (providers : List ProviderConfig)
    (hnames : isEnabled (enabledOf providers) [] = false) :
    (∀ route, Kept routes providers route → ValidWeights route →
      (∀ gatewayID, gatewayID ≠ [] →
        ∃ result, (newWithProviders routes providers).selectProvider route gatewayID = some result ∧
          result.route = route ∧ Offers route result.provider ∧ isEnabled (enabledOf providers) result.provider) ∧
      (route.weighted ≠ [] →
        ∃ total : UInt64, 0 < total.toNat ∧
          (total.toNat : Int) = ((route.weighted.filter fun wp =>
            isEnabled (enabledOf providers) wp.provider).map (·.weight.toInt)).sum ∧
          (∀ gatewayID, gatewayID ≠ [] →
            ∃ i wp, (newWithProviders routes providers).pick (stableHash gatewayID % total) route.weighted = some i ∧
              route.weighted[i]? = some wp ∧
              (newWithProviders routes providers).selectProvider route gatewayID =
                some { route, provider := wp.provider }) ∧
          ∀ i wp, route.weighted[i]? = some wp →
            (((Finset.range total.toNat).filter fun n =>
              (newWithProviders routes providers).pick (.ofNat n) route.weighted = some i).card : Int) =
                if isEnabled (enabledOf providers) wp.provider then wp.weight.toInt else 0)) ∧
    ∀ (clock : Time) (zone : Time → CivilTime) (d : Submitter),
      d.router = some ((newWithProviders routes providers).interface clock zone) →
      (∀ route, Kept routes providers route → ValidWeights route) →
      ∀ (s : MemoryStore) (c : SubmitChance) (env : Envelope) (name : Str),
        (c.gatewayID ≠ some [] → (d.submit s c env).1 ≠ .error (.noProvider name)) ∧
        ∀ n, (d.submit s { c with gatewayID := encodeGatewayID n } env).1 ≠ .error (.noProvider name) := by
  refine ⟨fun route h hw => ⟨fun gatewayID hid => h.selectProvider hnames hw hid, fun hne => ?_⟩, ?_⟩
  case refine_1 =>
    obtain ⟨total, htotal, hpos, hsum⟩ := h.totalWeight hw hne
    refine ⟨total, hpos, ?_, fun gatewayID hid => ?_, fun i wp hi => ?_⟩
    case refine_1 => rw [hsum, h.sum_tickets hw.positive]
    case refine_2 =>
      obtain ⟨i, wp, hpick, hwp, -, hselect⟩ := h.selectWeighted hnames hne htotal hpos hsum hid
      exact ⟨i, wp, hpick, hwp, hselect⟩
    case refine_3 => rw [hsum, h.card_pick hw hi]
  case refine_2 =>
    intro clock zone d hrouter hweights s c env name
    refine ⟨fun hid => submit_served hrouter hnames hweights hid s env name, fun n => ?_⟩
    have hid : encodeGatewayID n ≠ some [] := fun h => nomatch encodeGatewayID_length h
    exact submit_served (c := { c with gatewayID := encodeGatewayID n }) hrouter hnames hweights hid s env name

theorem kept_route_served_alone :
    ∃ result, (newWithProviders [{ name := lit "cn", weighted := [⟨lit "a", 3⟩, ⟨lit "b", 1⟩] }]
        [⟨lit "a", false⟩, ⟨lit "b", true⟩]).selectProvider
          { name := lit "cn", weighted := [⟨lit "a", 3⟩, ⟨lit "b", 1⟩] } (lit "id") = some result ∧
      result.route = { name := lit "cn", weighted := [⟨lit "a", 3⟩, ⟨lit "b", 1⟩] } ∧
      Offers { name := lit "cn", weighted := [⟨lit "a", 3⟩, ⟨lit "b", 1⟩] } result.provider ∧
      isEnabled (enabledOf [⟨lit "a", false⟩, ⟨lit "b", true⟩]) result.provider :=
  ((kept_route_served _ _ (by decide)).1 _ ⟨List.mem_singleton_self _, by decide, by decide⟩
    ⟨by rw [List.forall_mem_cons, List.forall_mem_cons]; exact ⟨by decide, by decide, by simp⟩, by decide⟩).1
      (lit "id") (by decide)

-- A provider without a name keeps the route, and is taken for no provider.
theorem nameless_not_served :
    Kept [{ name := lit "any" }] [⟨[], true⟩] { name := lit "any" } ∧ ValidWeights { name := lit "any" } ∧
    (newWithProviders [{ name := lit "any" }] [⟨[], true⟩]).selectProvider { name := lit "any" } (lit "id") = none ∧
    (({ router := some ((newWithProviders [{ name := lit "any" }] [⟨[], true⟩]).interface 1
          fun _ => { day := 0, hour := 0, minute := 0 }), validateDest := false } : Submitter).submit newMemory
        { now := 1, storeNow := 1, gatewayID := some (lit "id") }
        { sender := lit "1", dest := lit "2", text := lit "hi", source := { kind := .http } }).1 =
      .error (.noProvider (lit "any")) :=
  ⟨⟨List.mem_singleton_self _, by decide, by decide⟩, ⟨by simp, by decide⟩, by decide, by decide⟩

end SmppGateway.Routing
