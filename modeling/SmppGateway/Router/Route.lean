import SmppGateway.Dispatch.Addr
import SmppGateway.Go.Time

-- Routes as `internal/config` gives them to the router, and what a message is matched by.

namespace SmppGateway

open Go

structure WeightedProvider where
  provider : Str
  weight   : Int64
  deriving DecidableEq, Repr

structure TimeWindow where
  days  : List Str := []
  start : Str
  stop  : Str
  deriving DecidableEq, Repr

structure RouteConfig where
  name           : Str
  prefixes       : List Str := []
  provider       : Str := []
  priority       : Int := 0
  addrRewrite    : AddrRewriteConfig := {}
  destAddr       : DestAddrConfig := {}
  enabled        : Option Bool := none
  senderPrefixes : List Str := []
  systemIDs      : List Str := []
  clientIDs      : List Str := []
  contentTags    : List Str := []
  timeWindows    : List TimeWindow := []
  weighted       : List WeightedProvider := []
  failover       : List Str := []
  deriving DecidableEq, Repr

structure MatchInput where
  dest     : Str
  sender   : Str
  systemID : Str
  clientID : Str
  tags     : List Str
  now      : Time
  deriving DecidableEq, Repr

end SmppGateway
