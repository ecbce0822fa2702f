import EndCloseRelay.Engine.Errors

/-!
# What the engine tells its host

The events of `engine/hooks.ts`.  `RelayHooks.emit` isolates a handler that
throws, so emitting is appending to what the host has seen.
-/

namespace EndCloseRelay

/-- `IngestOutcome`. -/
inductive IngestOutcome
  | accepted
  | duplicate
  | filtered
  | rejectedAuth
  | rejectedSize
  | rejectedJson
  | panic
deriving DecidableEq

/-- `ForwardResult`. -/
inductive ForwardResult
  | delivered
  | retried
  | parked
deriving DecidableEq

/-- `EnrichOutcome`. -/
inductive EnrichOutcome
  | applied
  | omitted
  | failed
  | rejected
deriving DecidableEq

/-- `EngineErrorKind`. -/
inductive EngineErrorKind
  | dispatchCycle
  | ingestPersist
  | prune
  | recoverDelivering
deriving DecidableEq

/-- `RelayEvents`, an event with its payload. -/
inductive RelayEvent
  | ingest (routeId : String) (outcome : IngestOutcome) (eventType : Option String)
      (bodyBytes : Nat)
  | stored (routeId : String) (id : Nat) (filtered : Bool)
  | forward (routeId : String) (result : ForwardResult) (count : Nat)
  | settled (id : Nat) (routeId : String) (result : ForwardResult) (error : Option String)
  | delivered (routeId : String) (receivedAt deliveredAt : Int)
  | enrich (routeId : String) (id : Nat) (field enrichment : String) (result : EnrichOutcome)
      (error : Option String)
  | batchForwarded (routeId : String) (events : Nat) (bulkRequestId : Option String)
  | batchParked (routeId : String) (status events : Nat)
  | prune (wiped deleted : Nat)
  | error (kind : EngineErrorKind) (error : RelayError) (op routeId : Option String)
deriving DecidableEq

end EndCloseRelay
