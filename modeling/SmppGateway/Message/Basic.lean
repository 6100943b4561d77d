import SmppGateway.Go.Map
import SmppGateway.Go.Time

-- The message record of `internal/message`.

namespace SmppGateway

open Go

inductive Direction
  | mo
  | mt
  deriving DecidableEq, Repr

structure Segment where
  reference : UInt16 := 0
  part      : Nat
  total     : Nat
  text      : Str
  udh       : List UInt8 := []
  deriving DecidableEq, Repr

structure Message where
  id          : Str
  providerID  : Str := []
  tenantID    : Str := []
  accountID   : Str := []
  clientMsgID : Str := []
  direction   : Direction := .mt
  sender      : Str := []
  dest        : Str := []
  text        : Str := []
  encoding    : Str := []
  route       : Str := []
  provider    : Str := []
  sourceKind  : Str := []
  sourceID    : Str := []
  state       : Str := []
  errorCode   : Int := 0
  segments    : List Segment := []
  metadata    : Map Str Str := ∅
  submittedAt : Time := 0
  sentAt      : Time := 0
  doneAt      : Time := 0

end SmppGateway
