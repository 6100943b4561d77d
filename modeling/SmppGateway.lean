import SmppGateway.Admin.Limiter
import SmppGateway.Cdr.Reload
import SmppGateway.Cdr.Rotation
import SmppGateway.Cdr.Writer
import SmppGateway.Client.Config
import SmppGateway.Client.Encode
import SmppGateway.Client.Id
import SmppGateway.Client.Meaning
import SmppGateway.Client.Parameters
import SmppGateway.Client.Parts
import SmppGateway.Client.Pool
import SmppGateway.Client.Receipt
import SmppGateway.Client.Roundtrip
import SmppGateway.Client.Spelling
import SmppGateway.Client.Text
import SmppGateway.Client.Window
import SmppGateway.Config.Startup
import SmppGateway.Config.Types
import SmppGateway.Config.Validate
import SmppGateway.Dispatch.Acks
import SmppGateway.Dispatch.Addr
import SmppGateway.Dispatch.Aggregate
import SmppGateway.Dispatch.Apart
import SmppGateway.Dispatch.Commute
import SmppGateway.Dispatch.Completion
import SmppGateway.Dispatch.Desk
import SmppGateway.Dispatch.Failure
import SmppGateway.Dispatch.Flushing
import SmppGateway.Dispatch.Ids
import SmppGateway.Dispatch.Isolation
import SmppGateway.Dispatch.Ownership
import SmppGateway.Dispatch.Process
import SmppGateway.Dispatch.Provenance
import SmppGateway.Dispatch.Receipts
import SmppGateway.Dispatch.Submit
import SmppGateway.Dispatch.Told
import SmppGateway.Dispatch.Upstream
import SmppGateway.Dispatch.Worker
import SmppGateway.Filter.Engine
import SmppGateway.Filter.Find
import SmppGateway.Filter.Ground
import SmppGateway.Filter.Links
import SmppGateway.Filter.Mask
import SmppGateway.Filter.Matcher
import SmppGateway.Filter.Normalize
import SmppGateway.Filter.Origin
import SmppGateway.Gateway.Charge
import SmppGateway.Gateway.ClientIp
import SmppGateway.Gateway.Http
import SmppGateway.Gateway.Inbound
import SmppGateway.Gateway.Key
import SmppGateway.Gateway.Passthrough
import SmppGateway.Gateway.Reload
import SmppGateway.Gateway.Risk
import SmppGateway.Go.Date
import SmppGateway.Go.Digits
import SmppGateway.Go.Map
import SmppGateway.Go.Regexp
import SmppGateway.Go.Sha256
import SmppGateway.Go.Str
import SmppGateway.Go.Time
import SmppGateway.Lib.Best
import SmppGateway.Lib.Bits
import SmppGateway.Lib.Check
import SmppGateway.Lib.Descent
import SmppGateway.Lib.Fallback
import SmppGateway.Lib.Ledger
import SmppGateway.Lib.Lottery
import SmppGateway.Lib.Machine
import SmppGateway.Lib.Parse
import SmppGateway.Lib.Potential
import SmppGateway.Lib.Search
import SmppGateway.Lib.Slice
import SmppGateway.Lib.Splice
import SmppGateway.Lib.Table
import SmppGateway.Message.Basic
import SmppGateway.Message.Codec
import SmppGateway.Message.Guess
import SmppGateway.Message.Join
import SmppGateway.Message.Packing
import SmppGateway.Message.Split
import SmppGateway.Provider.Factory
import SmppGateway.Router.Match
import SmppGateway.Router.Route
import SmppGateway.Router.Select
import SmppGateway.Router.Window
import SmppGateway.Smpp.Cursor
import SmppGateway.Smpp.Exchange
import SmppGateway.Smpp.Framing
import SmppGateway.Smpp.Grammar
import SmppGateway.Smpp.Intake
import SmppGateway.Smpp.Pdu
import SmppGateway.Smpp.Receipt
import SmppGateway.Smpp.Server
import SmppGateway.Smpp.Session
import SmppGateway.Smpp.Submit
import SmppGateway.Smpp.Udh
import SmppGateway.Store.Attempts
import SmppGateway.Store.Disk
import SmppGateway.Store.Drivers
import SmppGateway.Store.Eviction
import SmppGateway.Store.File
import SmppGateway.Store.Index
import SmppGateway.Store.Lifecycle
import SmppGateway.Store.Log
import SmppGateway.Store.Memory
import SmppGateway.Store.Outbox
import SmppGateway.Store.Pending
import SmppGateway.Store.Postgres
import SmppGateway.Store.Reopen
import SmppGateway.Store.Submit
import SmppGateway.Store.Types
import SmppGateway.Tenant.Bucket
