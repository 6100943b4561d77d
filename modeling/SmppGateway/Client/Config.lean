import SmppGateway.Go.Str
import SmppGateway.Lib.Parse

-- The settings of an SMPP upstream and their validation (`internal/config/config.go`).

namespace SmppGateway

open Go

structure SMPPClientConfig where
  bindMode            : Str := lit "transceiver"
  binds               : Int := 1
  windowSize          : Int := 16
  enquirePeriod       : Str := lit "30s"
  responseTimeoutMS   : Int := 5000
  reconnectMin        : Str := lit "1s"
  reconnectMax        : Str := lit "60s"
  sourceTON           : Int := -1
  sourceNPI           : Int := -1
  destTON             : Int := 1
  destNPI             : Int := 1
  serviceType         : Str := []
  validityPeriod      : Str := []
  registeredDelivery  : Int := -1
  gsm7Packing         : Str := lit "unpacked"
  longMessage         : Str := lit "udh"
  messageIDRespFormat : Str := lit "auto"
  messageIDDLRFormat  : Str := lit "auto"
  dlrIDSource         : Str := lit "auto"
  retryOnTimeout      : Bool := false
  tls                 : Bool := false

def defaultSMPPClientConfig : SMPPClientConfig := {}

inductive DurationField
  | enquirePeriod
  | reconnectMin
  | reconnectMax
  deriving DecidableEq, Repr

-- Each constructor is one error text, without the provider name in front.
inductive ClientConfigError
  | bindMode                          -- smpp.bind_mode must be transceiver or tx_rx
  | txRxNotImplemented                -- smpp.bind_mode tx_rx is not implemented yet
  | binds                             -- smpp.binds must be >= 1
  | windowSize                        -- smpp.window_size must be >= 1
  | responseTimeoutMS                 -- smpp.response_timeout_ms must be >= 1
  | invalidDuration (field : DurationField)  -- smpp.%s is invalid: %w
  | sourceTON                         -- smpp.source_ton must be -1 or 0..6
  | sourceNPI                         -- smpp.source_npi must be -1 or 0..6
  | destTON                           -- smpp.dest_ton must be 0..6
  | destNPI                           -- smpp.dest_npi must be 0..6
  | registeredDelivery                -- smpp.registered_delivery must be -1, 0, or 1
  | gsm7Packing                       -- smpp.gsm7_packing must be unpacked or packed
  | longMessage                       -- smpp.long_message must be udh, payload, or sar
  | messageIDRespFormat               -- smpp.message_id_resp_format must be auto, dec, or hex
  | messageIDDLRFormat                -- smpp.message_id_dlr_format must be auto, dec, or hex
  | dlrIDSource                       -- smpp.dlr_id_source must be auto, text, or tlv
  | tlsNotImplemented                 -- smpp.tls is not implemented yet
  deriving DecidableEq, Repr

def SMPPClientConfig.duration (cfg : SMPPClientConfig) : DurationField → Str
  | .enquirePeriod => cfg.enquirePeriod
  | .reconnectMin  => cfg.reconnectMin
  | .reconnectMax  => cfg.reconnectMax

def validTONNPI (value : Int) (allowAuto : Bool) : Bool :=
  (allowAuto && value = -1) || (0 ≤ value && value ≤ 6)

def validIDFormat (value : Str) : Bool :=
  value = lit "auto" || value = lit "dec" || value = lit "hex"

def ensure (ok : Bool) (err : ClientConfigError) : Except ClientConfigError Unit :=
  if ok then .ok () else .error err

-- `order` is the order in which the loop over the map of durations visits them, and `parsesDuration`
-- says which strings `time.ParseDuration` takes.
def validateSMPPClientConfig (parsesDuration : Str → Bool) (order : List DurationField)
    (cfg : SMPPClientConfig) : Except ClientConfigError Unit := do
  ensure (cfg.bindMode = lit "transceiver" || cfg.bindMode = lit "tx_rx") .bindMode
  ensure (cfg.bindMode ≠ lit "tx_rx") .txRxNotImplemented
  ensure (1 ≤ cfg.binds) .binds
  ensure (1 ≤ cfg.windowSize) .windowSize
  ensure (1 ≤ cfg.responseTimeoutMS) .responseTimeoutMS
  order.forM fun field => ensure (parsesDuration (cfg.duration field)) (.invalidDuration field)
  ensure (validTONNPI cfg.sourceTON true) .sourceTON
  ensure (validTONNPI cfg.sourceNPI true) .sourceNPI
  ensure (validTONNPI cfg.destTON false) .destTON
  ensure (validTONNPI cfg.destNPI false) .destNPI
  ensure (-1 ≤ cfg.registeredDelivery && cfg.registeredDelivery ≤ 1) .registeredDelivery
  ensure (cfg.gsm7Packing = lit "unpacked" || cfg.gsm7Packing = lit "packed") .gsm7Packing
  ensure (cfg.longMessage = lit "udh" || cfg.longMessage = lit "payload" || cfg.longMessage = lit "sar")
    .longMessage
  ensure (validIDFormat cfg.messageIDRespFormat) .messageIDRespFormat
  ensure (validIDFormat cfg.messageIDDLRFormat) .messageIDDLRFormat
  ensure (cfg.dlrIDSource = lit "auto" || cfg.dlrIDSource = lit "text" || cfg.dlrIDSource = lit "tlv")
    .dlrIDSource
  ensure (!cfg.tls) .tlsNotImplemented

end SmppGateway
