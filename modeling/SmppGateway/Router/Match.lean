import Mathlib.Data.List.Sort
import Mathlib.Data.Prod.Lex
import SmppGateway.Go.Map
import SmppGateway.Lib.Best
import SmppGateway.Router.Window

-- Which route a message takes (`internal/router/router.go`).

namespace SmppGateway.Routing

open Go Best

structure ProviderConfig where
  name    : Str
  enabled : Bool
  deriving DecidableEq, Repr

structure Router where
  routes           : List RouteConfig
  enabledProviders : Map Str Bool := ∅

def longestPrefix (prefixes : List Str) : Nat :=
  prefixes.foldl (fun longest p => if longest < p.length then p.length else longest) 0

def less (a b : RouteConfig) : Bool :=
  if a.priority ≠ b.priority then
    b.priority < a.priority
  else
    longestPrefix b.prefixes < longestPrefix a.prefixes

-- `sort.SliceStable`: a route moves in front of another one only if it is less.
def sortRoutes (routes : List RouteConfig) : List RouteConfig :=
  routes.insertionSort fun a b => ¬less b a

def new (routes : List RouteConfig) : Router where
  routes := sortRoutes routes

def isEnabled (enabled : Map Str Bool) (name : Str) : Bool :=
  (enabled.lookup name).getD false

def routeSelectable (route : RouteConfig) (enabled : Map Str Bool) : Bool :=
  if route.weighted ≠ [] then
    route.weighted.any fun wp => isEnabled enabled wp.provider
  else if route.failover ≠ [] then
    route.failover.any fun provider => isEnabled enabled provider
  else
    isEnabled enabled route.provider

def enabledOf (providers : List ProviderConfig) : Map Str Bool :=
  providers.foldl (fun enabled p => enabled.insert p.name p.enabled) ∅

def newWithProviders (routes : List RouteConfig) (providers : List ProviderConfig) : Router where
  routes :=
    sortRoutes (routes.filter fun route =>
      route.enabled ≠ some false && routeSelectable route (enabledOf providers))
  enabledProviders := enabledOf providers

def routeMatches (route : RouteConfig) (input : MatchInput) (now : CivilTime) : Bool :=
  route.enabled ≠ some false &&
  (route.senderPrefixes = [] || route.senderPrefixes.any (·.isPrefixOf input.sender)) &&
  (route.systemIDs = [] || route.systemIDs.contains input.systemID) &&
  (route.clientIDs = [] || route.clientIDs.contains input.clientID) &&
  route.contentTags.all (input.tags.contains ·) &&
  (route.timeWindows = [] || inAnyWindow now route.timeWindows)

def matchedPrefixLen (prefixes : List Str) (dest : Str) : Option Nat :=
  if prefixes = [] then
    some 0
  else
    let best := prefixes.foldl
      (fun (best : Int) p => if p.isPrefixOf dest ∧ best < p.length then (p.length : Int) else best) (-1)
    if 0 ≤ best then some best.toNat else none

structure Search where
  bestPrefix   : Int := -1
  bestPriority : Int := 0
  best         : Option RouteConfig := none
  deriving DecidableEq, Repr

def Search.offer (s : Search) (route : RouteConfig) (len : Nat) : Search :=
  if s.best = none ∨ s.bestPriority < route.priority ∨
      (route.priority = s.bestPriority ∧ s.bestPrefix < len) then
    { bestPrefix := len, bestPriority := route.priority, best := some route }
  else
    s

def Search.offerAny (s : Search) (route : RouteConfig) : Search :=
  if s.best = none ∨ s.bestPriority < route.priority then
    { bestPrefix := 0, bestPriority := route.priority, best := some route }
  else
    s

-- One turn of the loop of `MatchPhone` over a route's prefixes, and one over the routes.
def Search.prefixTurn (dest : Str) (route : RouteConfig) (s : Search) (p : Str) : Search :=
  if p.isPrefixOf dest then s.offer route p.length else s

def Search.phoneTurn (dest : Str) (s : Search) (route : RouteConfig) : Search :=
  if route.prefixes = [] then
    s.offerAny route
  else
    route.prefixes.foldl (prefixTurn dest route) s

def Search.routeTurn (input : MatchInput) (now : CivilTime) (s : Search) (route : RouteConfig) : Search :=
  if routeMatches route input now then
    match matchedPrefixLen route.prefixes input.dest with
    | none     => s
    | some len => s.offer route len
  else
    s

def MatchInput.civil (clock : Time) (zone : Time → CivilTime) (input : MatchInput) : CivilTime :=
  zone (if input.now = 0 then clock else input.now)

namespace Router

variable (r : Router)

def matchPhone (dest : Str) : Option RouteConfig :=
  (r.routes.foldl (Search.phoneTurn dest) {}).best

-- `clock` is what `time.Now()` says, and `zone` reads a time in its location.
def matchRoute (clock : Time) (zone : Time → CivilTime) (input : MatchInput) : Option RouteConfig :=
  (r.routes.foldl (Search.routeTurn input (MatchInput.civil clock zone input)) {}).best

end Router

variable {route : RouteConfig} {routes : List RouteConfig} {input : MatchInput} {now : CivilTime} {dest : Str}
  {len : Nat}

abbrev Candidate := RouteConfig × Nat

def Candidate.key (c : Candidate) : Int ×ₗ Nat :=
  toLex (c.1.priority, c.2)

theorem Candidate.key_lt {c d : Candidate} :
    c.key < d.key ↔ c.1.priority < d.1.priority ∨ (c.1.priority = d.1.priority ∧ c.2 < d.2) :=
  Prod.Lex.toLex_lt_toLex

theorem Candidate.key_le {c d : Candidate} :
    c.key ≤ d.key ↔ c.1.priority < d.1.priority ∨ (c.1.priority = d.1.priority ∧ c.2 ≤ d.2) :=
  Prod.Lex.toLex_le_toLex

def Search.of : Option Candidate → Search
  | none              => {}
  | some (route, len) => { bestPrefix := len, bestPriority := route.priority, best := some route }

theorem Search.best_of (o : Option Candidate) : (of o).best = o.map Prod.fst := by
  cases o <;> rfl

theorem Search.offer_of (o : Option Candidate) (route : RouteConfig) (len : Nat) :
    (of o).offer route len = of (better Candidate.key o (some (route, len))) := by
  cases o
  case none => rfl
  case some c =>
    have hiff : ((of (some c)).best = none ∨ (of (some c)).bestPriority < route.priority ∨
        (route.priority = (of (some c)).bestPriority ∧ (of (some c)).bestPrefix < len)) ↔
          Candidate.key c < Candidate.key (route, len) := by
      simp [of, Candidate.key_lt, eq_comm]
    rw [offer, better]
    simp only [hiff]
    split <;> rfl

theorem Search.offerAny_of (o : Option Candidate) (route : RouteConfig) :
    (of o).offerAny route = of (better Candidate.key o (some (route, 0))) := by
  cases o
  case none => rfl
  case some c =>
    have hiff : ((of (some c)).best = none ∨ (of (some c)).bestPriority < route.priority) ↔
        Candidate.key c < Candidate.key (route, 0) := by
      simp [of, Candidate.key_lt]
    rw [offerAny, better]
    simp only [hiff]
    split <;> rfl

theorem Search.foldl_of {γ : Type} {turn : Search → γ → Search} {offers : γ → List Candidate}
    (h : ∀ o x, turn (of o) x = of (better Candidate.key o (foremost Candidate.key (offers x)))) (l : List γ)
    (o : Option Candidate) :
    l.foldl turn (of o) = of (better Candidate.key o (foremost Candidate.key (l.flatMap offers))) := by
  induction l generalizing o
  case nil => simp
  case cons x l hi => rw [List.foldl_cons, h, hi, List.flatMap_cons, foremost_append, better_assoc]

def matchedLens (prefixes : List Str) (dest : Str) : List Nat :=
  (prefixes.filter (·.isPrefixOf dest)).map List.length

theorem matchedPrefixLen_eq (prefixes : List Str) (dest : Str) :
    matchedPrefixLen prefixes dest = if prefixes = [] then some 0 else foremost id (matchedLens prefixes dest) := by
  -- The loop holds the longest length so far, and -1 when there is none.
  let held : Option Nat → Int := fun o => (o.map Int.ofNat).getD (-1)
  have hloop (o : Option Nat) : prefixes.foldl
      (fun (best : Int) p => if p.isPrefixOf dest ∧ best < p.length then (p.length : Int) else best) (held o) =
        held (better id o (foremost id (matchedLens prefixes dest))) := by
    induction prefixes generalizing o
    case nil => simp [matchedLens]
    case cons p prefixes hi =>
      have hlens : matchedLens (p :: prefixes) dest =
          (if p.isPrefixOf dest then [p.length] else []) ++ matchedLens prefixes dest := by
        by_cases hp : p.isPrefixOf dest <;> simp [matchedLens, hp]
      have hstep : (if p.isPrefixOf dest ∧ held o < p.length then (p.length : Int) else held o) =
          held (better id o (foremost id (if p.isPrefixOf dest then [p.length] else []))) := by
        by_cases hp : p.isPrefixOf dest
        case neg => simp [hp]
        case pos =>
          cases o
          case none => simp [hp, held, better]; omega
          case some n => by_cases hlt : n < p.length <;> simp [hp, held, better, hlt]
      rw [List.foldl_cons, hstep, hi, hlens, foremost_append, better_assoc]
  unfold matchedPrefixLen
  split
  case isTrue => rfl
  case isFalse =>
    have h := hloop none
    simp only [held, Option.map_none, Option.getD_none, better] at h
    rw [h]
    cases foremost id (matchedLens prefixes dest) <;> simp

def offers (route : RouteConfig) (dest : Str) : List Candidate :=
  if route.prefixes = [] then [(route, 0)] else (matchedLens route.prefixes dest).map (route, ·)

theorem foremost_offers (route : RouteConfig) (dest : Str) :
    foremost Candidate.key (offers route dest) = (matchedPrefixLen route.prefixes dest).map (route, ·) := by
  rw [matchedPrefixLen_eq, offers]
  split
  case isTrue => rfl
  case isFalse => exact foremost_map Candidate.key (route, ·) id (by simp [Candidate.key_lt]) _

theorem Search.prefixTurn_of (dest : Str) (route : RouteConfig) (o : Option Candidate) (p : Str) :
    prefixTurn dest route (of o) p = of
      (better Candidate.key o (foremost Candidate.key (if p.isPrefixOf dest then [(route, p.length)] else []))) := by
  unfold prefixTurn
  split
  case isTrue => rw [offer_of]; rfl
  case isFalse => simp

theorem Search.phoneTurn_of (dest : Str) (o : Option Candidate) (route : RouteConfig) :
    phoneTurn dest (of o) route = of (better Candidate.key o (foremost Candidate.key (offers route dest))) := by
  unfold phoneTurn offers
  split
  case isTrue => rw [offerAny_of]; rfl
  case isFalse =>
    rw [foldl_of (prefixTurn_of dest route)]
    congr 3
    induction route.prefixes
    case nil => rfl
    case cons p prefixes hi =>
      rw [List.flatMap_cons, hi]
      by_cases hp : p.isPrefixOf dest <;> simp [matchedLens, hp]

theorem Search.routeTurn_of (input : MatchInput) (now : CivilTime) (o : Option Candidate) (route : RouteConfig) :
    routeTurn input now (of o) route = of (better Candidate.key o
      (foremost Candidate.key (if routeMatches route input now then offers route input.dest else []))) := by
  unfold routeTurn
  split
  case isFalse => simp
  case isTrue =>
    rw [foremost_offers]
    cases matchedPrefixLen route.prefixes input.dest
    case none => simp
    case some len => exact offer_of o route len

theorem Router.matchPhone_eq (r : Router) (dest : Str) :
    r.matchPhone dest = (foremost Candidate.key (r.routes.flatMap (offers · dest))).map Prod.fst := by
  have h := Search.foldl_of (Search.phoneTurn_of dest) r.routes none
  change (r.routes.foldl _ (Search.of none)).best = _
  rw [h, Search.best_of]
  rfl

def fitting (routes : List RouteConfig) (input : MatchInput) (now : CivilTime) : List Candidate :=
  routes.flatMap fun route => if routeMatches route input now then offers route input.dest else []

theorem Router.matchRoute_eq (r : Router) (clock : Time) (zone : Time → CivilTime) (input : MatchInput) :
    r.matchRoute clock zone input =
      (foremost Candidate.key (fitting r.routes input (MatchInput.civil clock zone input))).map Prod.fst := by
  have h := Search.foldl_of (Search.routeTurn_of input (MatchInput.civil clock zone input)) r.routes none
  change (r.routes.foldl _ (Search.of none)).best = _
  rw [h, Search.best_of]
  rfl

structure Satisfies (route : RouteConfig) (input : MatchInput) (now : CivilTime) : Prop where
  enabled     : route.enabled ≠ some false
  sender      : route.senderPrefixes = [] ∨ ∃ p ∈ route.senderPrefixes, p <+: input.sender
  systemIDs   : route.systemIDs = [] ∨ input.systemID ∈ route.systemIDs
  clientIDs   : route.clientIDs = [] ∨ input.clientID ∈ route.clientIDs
  contentTags : ∀ tag ∈ route.contentTags, tag ∈ input.tags
  timeWindows : route.timeWindows = [] ∨ inAnyWindow now route.timeWindows

-- The longest prefix of the route in front of the number, where no prefix at all counts as an empty one.
structure Matches (route : RouteConfig) (dest : Str) (len : Nat) : Prop where
  found   : (route.prefixes = [] ∧ len = 0) ∨ ∃ p ∈ route.prefixes, p <+: dest ∧ p.length = len
  longest : ∀ p ∈ route.prefixes, p <+: dest → p.length ≤ len

theorem routeMatches_iff : routeMatches route input now = true ↔ Satisfies route input now := by
  simp only [routeMatches, Bool.and_eq_true, Bool.or_eq_true, decide_eq_true_eq, List.any_eq_true, List.all_eq_true,
    List.contains_iff_mem, List.isPrefixOf_iff_prefix]
  constructor
  case mp =>
    rintro ⟨⟨⟨⟨⟨henabled, hsender⟩, hsystem⟩, hclient⟩, htags⟩, hwindows⟩
    exact ⟨henabled, hsender, hsystem, hclient, htags, hwindows⟩
  case mpr =>
    rintro ⟨henabled, hsender, hsystem, hclient, htags, hwindows⟩
    exact ⟨⟨⟨⟨⟨henabled, hsender⟩, hsystem⟩, hclient⟩, htags⟩, hwindows⟩

theorem mem_matchedLens {prefixes : List Str} :
    len ∈ matchedLens prefixes dest ↔ ∃ p ∈ prefixes, p <+: dest ∧ p.length = len := by
  simp [matchedLens, and_assoc]

theorem matches_iff : Matches route dest len ↔ matchedPrefixLen route.prefixes dest = some len := by
  rw [matchedPrefixLen_eq]
  split
  case isTrue hnil =>
    constructor
    case mp =>
      rintro ⟨⟨-, rfl⟩ | ⟨p, hp, -⟩, -⟩
      case inl => rfl
      case inr => rw [hnil] at hp; cases hp
    case mpr =>
      intro h
      cases h
      exact ⟨.inl ⟨hnil, rfl⟩, by simp [hnil]⟩
  case isFalse hne =>
    rw [foremost_id_eq_some, mem_matchedLens]
    constructor
    case mp =>
      rintro ⟨⟨hnil, -⟩ | hfound, hlongest⟩
      case inl => exact absurd hnil hne
      case inr =>
        refine ⟨hfound, fun n hn => ?_⟩
        obtain ⟨p, hp, hdest, rfl⟩ := mem_matchedLens.mp hn
        exact hlongest p hp hdest
    case mpr =>
      rintro ⟨hfound, hlongest⟩
      exact ⟨.inr hfound, fun p hp hdest => hlongest _ (mem_matchedLens.mpr ⟨p, hp, hdest, rfl⟩)⟩

structure Kept (routes : List RouteConfig) (providers : List ProviderConfig) (route : RouteConfig) : Prop where
  mem        : route ∈ routes
  enabled    : route.enabled ≠ some false
  selectable : routeSelectable route (enabledOf providers)

structure Fits (input : MatchInput) (now : CivilTime) (route : RouteConfig) (len : Nat) : Prop where
  satisfies : Satisfies route input now
  found     : Matches route input.dest len

theorem mem_newWithProviders {providers : List ProviderConfig} :
    route ∈ (newWithProviders routes providers).routes ↔ Kept routes providers route := by
  simp only [newWithProviders, sortRoutes, List.mem_insertionSort, List.mem_filter, Bool.and_eq_true, decide_eq_true_eq]
  constructor
  case mp => rintro ⟨hmem, henabled, hselectable⟩; exact ⟨hmem, henabled, hselectable⟩
  case mpr => rintro ⟨hmem, henabled, hselectable⟩; exact ⟨hmem, henabled, hselectable⟩

theorem mem_offers {c : Candidate} (h : c ∈ offers route dest) :
    c.1 = route ∧ ∃ len, Matches route dest len ∧ c.2 ≤ len := by
  obtain ⟨best, hbest⟩ : ∃ best, foremost Candidate.key (offers route dest) = some best := by
    cases hnone : foremost Candidate.key (offers route dest)
    case some best => exact ⟨best, rfl⟩
    case none => rw [foremost_eq_none.mp hnone] at h; cases h
  have hroute : ∀ d ∈ offers route dest, d.1 = route := by
    unfold offers
    split <;> simp
  have hle := le_of_mem_foremost h hbest
  have hbestroute := hroute best (foremost_mem hbest)
  rw [foremost_offers] at hbest
  obtain ⟨len, hlen, rfl⟩ := Option.map_eq_some_iff.mp hbest
  refine ⟨hroute c h, len, matches_iff.mpr hlen, ?_⟩
  rw [Candidate.key_le, hroute c h] at hle
  exact (hle.resolve_left (lt_irrefl _)).2

theorem offers_of_matches (h : Matches route dest len) : (route, len) ∈ offers route dest := by
  have hbest := foremost_offers route dest
  rw [matches_iff.mp h] at hbest
  exact foremost_mem hbest

theorem mem_fitting_of_fits (hm : route ∈ routes) (h : Fits input now route len) :
    (route, len) ∈ fitting routes input now := by
  refine List.mem_flatMap.mpr ⟨route, hm, ?_⟩
  rw [if_pos (routeMatches_iff.mpr h.satisfies)]
  exact offers_of_matches h.found

theorem fits_of_mem_fitting {c : Candidate} (h : c ∈ fitting routes input now) :
    c.1 ∈ routes ∧ ∃ len, Fits input now c.1 len ∧ c.2 ≤ len := by
  obtain ⟨route, hm, hc⟩ := List.mem_flatMap.mp h
  split at hc
  case isFalse => cases hc
  case isTrue hmatches =>
    obtain ⟨rfl, len, hfound, hle⟩ := mem_offers hc
    exact ⟨hm, len, ⟨routeMatches_iff.mp hmatches, hfound⟩, hle⟩

theorem foremost_fitting {c : Candidate} (h : foremost Candidate.key (fitting routes input now) = some c) :
    c.1 ∈ routes ∧ Fits input now c.1 c.2 := by
  obtain ⟨hm, len, hfits, hle⟩ := fits_of_mem_fitting (foremost_mem h)
  have hkey := le_of_mem_foremost (mem_fitting_of_fits hm hfits) h
  rw [Candidate.key_le] at hkey
  have hlen : c.2 = len := Nat.le_antisymm hle (hkey.resolve_left (lt_irrefl _)).2
  exact ⟨hm, hlen ▸ hfits⟩

structure Plain (route : RouteConfig) : Prop where
  enabled        : route.enabled ≠ some false
  senderPrefixes : route.senderPrefixes = []
  systemIDs      : route.systemIDs = []
  clientIDs      : route.clientIDs = []
  contentTags    : route.contentTags = []
  timeWindows    : route.timeWindows = []

theorem Plain.routeMatches (h : Plain route) (input : MatchInput) (now : CivilTime) :
    routeMatches route input now = true :=
  routeMatches_iff.mpr {
    enabled     := h.enabled
    sender      := .inl h.senderPrefixes
    systemIDs   := .inl h.systemIDs
    clientIDs   := .inl h.clientIDs
    contentTags := by simp [h.contentTags]
    timeWindows := .inl h.timeWindows }

theorem matchPhone_eq_matchRoute (h : ∀ route ∈ routes, Plain route) (clock : Time) (zone : Time → CivilTime)
    (input : MatchInput) : (new routes).matchPhone input.dest = (new routes).matchRoute clock zone input := by
  rw [Router.matchPhone_eq, Router.matchRoute_eq, fitting]
  congr 2
  refine List.flatMap_congr fun route hm => ?_
  have hplain := h route ((List.mem_insertionSort _).mp hm)
  rw [if_pos (hplain.routeMatches ..)]

theorem matchRoute_eq_some {providers : List ProviderConfig} {clock : Time} {zone : Time → CivilTime}
    {best : RouteConfig} (h : (newWithProviders routes providers).matchRoute clock zone input = some best) :
    ∃ len, Kept routes providers best ∧ Fits input (MatchInput.civil clock zone input) best len ∧
      ∀ route len', Kept routes providers route → Fits input (MatchInput.civil clock zone input) route len' →
        route.priority < best.priority ∨ (route.priority = best.priority ∧ len' ≤ len) := by
  rw [Router.matchRoute_eq] at h
  obtain ⟨c, hc, rfl⟩ := Option.map_eq_some_iff.mp h
  obtain ⟨hm, hfits⟩ := foremost_fitting hc
  refine ⟨c.2, mem_newWithProviders.mp hm, hfits, fun route len' hkept hfits' => ?_⟩
  exact Candidate.key_le.mp
    (le_of_mem_foremost (mem_fitting_of_fits (mem_newWithProviders.mpr hkept) hfits') hc)

-- The route that is chosen, if any fits, has the highest priority and matches most for it, and both ways of
-- matching agree where only prefixes count.
theorem route_choice_optimal (clock : Time) (zone : Time → CivilTime) (routes : List RouteConfig)
    (providers : List ProviderConfig) (input : MatchInput) :
    (((newWithProviders routes providers).matchRoute clock zone input).isSome ↔
      ∃ route len, Kept routes providers route ∧ Fits input (MatchInput.civil clock zone input) route len) ∧
    (∀ best, (newWithProviders routes providers).matchRoute clock zone input = some best →
      ∃ len, Kept routes providers best ∧ Fits input (MatchInput.civil clock zone input) best len ∧
        ∀ route len', Kept routes providers route → Fits input (MatchInput.civil clock zone input) route len' →
          route.priority < best.priority ∨ (route.priority = best.priority ∧ len' ≤ len)) ∧
    ((∀ route ∈ routes, Plain route) →
      (new routes).matchPhone input.dest = (new routes).matchRoute clock zone input) := by
  refine ⟨?_, fun best hbest => matchRoute_eq_some hbest, fun hplain => matchPhone_eq_matchRoute hplain clock zone input⟩
  constructor
  case mp =>
    intro h
    obtain ⟨best, hbest⟩ := Option.isSome_iff_exists.mp h
    obtain ⟨len, hkept, hfits, -⟩ := matchRoute_eq_some hbest
    exact ⟨best, len, hkept, hfits⟩
  case mpr =>
    rintro ⟨route, len, hkept, hfits⟩
    rw [Router.matchRoute_eq, Option.isSome_map, Option.isSome_iff_ne_none, ne_eq, foremost_eq_none]
    exact List.ne_nil_of_mem (mem_fitting_of_fits (mem_newWithProviders.mpr hkept) hfits)

theorem route_choice_optimal_prefixes :
    (new [{ name := lit "short", prefixes := [lit "138"] }, { name := lit "any" }]).matchPhone (lit "13800138000") =
      (new [{ name := lit "short", prefixes := [lit "138"] }, { name := lit "any" }]).matchRoute 1
        (fun _ => { day := 0, hour := 0, minute := 0 })
        { dest := lit "13800138000", sender := [], systemID := [], clientID := [], tags := [], now := 0 } :=
  (route_choice_optimal 1 (fun _ => { day := 0, hour := 0, minute := 0 }) _ []
    { dest := lit "13800138000", sender := [], systemID := [], clientID := [], tags := [], now := 0 }).2.2
      (by
        simp only [List.forall_mem_cons]
        exact ⟨⟨by decide, rfl, rfl, rfl, rfl, rfl⟩, ⟨by decide, rfl, rfl, rfl, rfl, rfl⟩, by simp⟩)

end SmppGateway.Routing
