import EndCloseRelay.Engine.Codec
import EndCloseRelay.Engine.Hooks
import EndCloseRelay.Engine.Store
import EndCloseRelay.Forward.Backoff
import EndCloseRelay.Forward.Client
import EndCloseRelay.Forward.Enrich
import EndCloseRelay.Interaction.Program

/-!
# The dispatcher

`forward/dispatcher.ts`.  Every await of a cycle, and every reading of the clock
or of `Math.random()`, is a call of the method `cycle`; what an instance
remembers from one cycle to the next, the summary of the cycle it is in, and
what it told its hooks are the state of the method.
-/

namespace EndCloseRelay

open Interaction

/-! ## Settings and dependencies -/

/-- `DispatchSettings`, as far as a cycle reads them, with `DEFAULT_DISPATCH`. -/
structure DispatchSettings where
  batchMax : Nat := 100
  backoffBaseMs : Nat := 1000
  backoffCapMs : Nat := 600000
  parkAfterMs : Int := 604800000
  leaseMs : Int := 600000
  recoverIntervalMs : Int := 60000
deriving DecidableEq

/-- `DispatcherDeps`, less the services that the calls of the method reach. -/
structure DispatcherDeps where
  runtime : Runtime
  dispatch : DispatchSettings := {}
  codec : PayloadCodec
  maskingKey : Bytes
  instanceId : String
  /-- The names of `enrichments`, when the host supplies any. -/
  enrichments : Option (List String) := none

/-- `IN_REQUEST_RETRIES`. -/
def inRequestRetries : Nat := 2

/-- `RESULT_POLL_ATTEMPTS`. -/
def resultPollAttempts : Nat := 5

/-- `RESULT_POLL_DELAY_MS`. -/
def resultPollDelayMs : Nat := 1000

/-- Why a cycle did not touch a due route. -/
inductive SkipReason
  | paused
  | unknownRoute
deriving DecidableEq

/-- `CycleSummary`. -/
structure CycleSummary where
  delivered : Nat := 0
  retried : Nat := 0
  parked : Nat := 0
  due : List String := []
  skipped : List (String × SkipReason) := []
  halted : Bool := false
deriving DecidableEq

namespace Dispatcher

/-! ## Calls and state -/

/-- What a cycle asks of the world.  `enrich` also says which row it is made
for, which the host is not told. -/
inductive Op
  | store (op : StoreOp)
  | getKillswitch
  | getRoute (routeId : String)
  | isRoutePaused (routeId : String)
  | enrich (id : Nat) (enrichment : String) (input : Json) (ctx : EnrichContext)
  | bulkCreateRecords (idempotencyKey : String) (records : List EndCloseRecord)
  | getBulkRequest (bulkRequestId : Option String)
  | now
  | random
  | aborted
  | sleep (ms : Nat)

/-- What the world answers. -/
def Op.Answer : Op → Type
  | store op => Except RelayError op.Result
  | getKillswitch => Except RelayError Killswitch
  | getRoute _ => Except RelayError (Option RouteConfig)
  | isRoutePaused _ => Except RelayError Bool
  | enrich .. => Except RelayError HostValue
  | bulkCreateRecords .. => HttpAnswer (Option BulkRequestSummary)
  | getBulkRequest _ => HttpAnswer (Option BulkRequestStatus)
  | now => Int
  | random => ℚ
  | aborted => Bool
  | sleep _ => Unit

/-- The fields of a `Dispatcher` a cycle writes, its summary, and the hooks emitted. -/
structure State where
  reclaimOwner : Option String
  lastSweepAt : Int := 0
  summary : CycleSummary := {}
  hooks : List RelayEvent := []

/-- The state of a new `Dispatcher`. -/
def State.initial (deps : DispatcherDeps) : State := { reclaimOwner := some deps.instanceId }

/-- A private method of the dispatcher. -/
abbrev Body := Method Op Op.Answer State RelayError

/-- One call. -/
def ask (op : Op) : Body op.Answer := Method.call op

/-- A call to the store. -/
def store (op : StoreOp) : Body op.Result := do
  Method.ofExcept (← ask (.store op))

/-- `new Date()`, and `Date.now()`. -/
def clock : Body Int := ask .now

/-- `this.hooks.emit(event)`. -/
def State.emit (event : RelayEvent) (s : State) : State := { s with hooks := s.hooks ++ [event] }

/-- `this.recordDelivered(events, deliveredAt, counts)`. -/
def State.recordDelivered (events : List EventRecord) (deliveredAt : Int) (s : State) : State :=
  match events with
  | [] => s
  | first :: _ => { s with
      summary := { s.summary with delivered := s.summary.delivered + events.length }
      hooks := s.hooks ++ .forward first.routeId .delivered events.length ::
        events.flatMap fun e => [.delivered e.routeId e.receivedAt deliveredAt,
          .settled e.id e.routeId .delivered none] }

/-- `this.recordParked(events, reason, counts)`. -/
def State.recordParked (events : List EventRecord) (reason : String) (s : State) : State :=
  match events with
  | [] => s
  | first :: _ => { s with
      summary := { s.summary with parked := s.summary.parked + events.length }
      hooks := s.hooks ++ .forward first.routeId .parked events.length ::
        events.map fun e => .settled e.id e.routeId .parked (some reason) }

/-- What `retryOne` and the failure of a batch record of the events they put off. -/
def State.recordRetried (routeId : String) (events : List EventRecord) (error : String)
    (s : State) : State :=
  { s with
    summary := { s.summary with retried := s.summary.retried + events.length }
    hooks := s.hooks ++ .forward routeId .retried events.length ::
      events.map fun e => .settled e.id routeId .retried (some error) }

/-! ## Building the records of a batch -/

/-- Which half of building a record an error came from. -/
inductive Stage
  | mapping
  | enrichment
deriving DecidableEq

def Stage.name : Stage → String
  | mapping => "mapping"
  | enrichment => "enrichment"

/-- `deps.enrichments?.[enrichment]` is there. -/
def knowsEnrichment (deps : DispatcherDeps) (enrichment : String) : Bool :=
  match deps.enrichments with
  | none => false
  | some names => names.contains enrichment || (Json.prototypeMember enrichment).isSome

/-- Decode, parse and map the payload of an event. -/
def readEvent (deps : DispatcherDeps) (route : RouteConfig) (event : EventRecord) :
    Except RelayError (Json × MappedEvent) := do
  let plaintext ← deps.codec.decode event.payload event.payloadIv
  let payload ← (deps.runtime.jsonParse plaintext).mapError .other
  let result ← mapEvent deps.runtime deps.maskingKey route payload (Js.toISOString event.receivedAt)
  pure (payload, result)

/-- The context of an enrichment call. -/
def enrichContext (event : EventRecord) (payload : Json) (field : String) : EnrichContext where
  routeId := event.routeId
  source := event.source
  eventId := event.eventId
  eventType := event.eventType
  receivedAt := Js.toISOString event.receivedAt
  field
  payload

/-- What a host function returned, checked for the field it is for. -/
def checkReturned (field : String) (returned : Except RelayError HostValue) :
    Except RelayError (Option Json) := do
  let value ← validateEnrichedValue (← returned) field
  match value with
  | none | some (.str _) => pure value
  | some _ =>
    if field = "description" then throw (.enrichment "enriched description must be a string")
    else pure value

/-- `entries[key] = value` on an own member or a new one. -/
def putMember (entries : List (String × Json)) (key : String) (value : Json) :
    List (String × Json) :=
  if key ∈ entries.map Prod.fst then
    entries.map fun entry => if entry.1 = key then (key, value) else entry
  else entries ++ [(key, value)]

/-- Put an enriched value into the field it is for. -/
def fillField (record : EndCloseRecord) (field : String) (value : Json) : EndCloseRecord :=
  if field = "description" then
    match value with
    | .str s => { record with description := some s }
    -- `checkReturned` lets no other value through for the description
    | _ => record
  else
    let key := String.ofList (field.toList.drop "metadata.".toList.length)
    { record with metadata := putMember record.metadata key value }

/-- The error `resolveEnrichments` wraps a failed call in, of the same class. -/
def wrapEnrich (field enrichment : String) (err : RelayError) : RelayError :=
  let wrapped := field ++ " (" ++ enrichment ++ "): " ++ err.message
  match err with
  | .enrichment _ => .enrichment wrapped
  | _ => .other wrapped

/-- What `emit` says of a failed call. -/
def failedOutcome : RelayError → EnrichOutcome
  | .enrichment _ => .rejected
  | _ => .failed

/-- `resolveEnrichments(event, payload, mapped)`, from the pending entries left
and the record filled so far. -/
def resolveEnrichments (deps : DispatcherDeps) (event : EventRecord) (payload : Json) :
    List PendingEnrichment → EndCloseRecord → Body EndCloseRecord
  | [], record => pure record
  | p :: pending, record => do
    let emit (result : EnrichOutcome) (error : Option String) : Body Unit :=
      modify (State.emit (.enrich event.routeId event.id p.field p.enrichment result error))
    if knowsEnrichment deps p.enrichment then do
      let returned ← ask
        (.enrich event.id p.enrichment p.input (enrichContext event payload p.field))
      match checkReturned p.field returned with
      | .error err => do
        emit (failedOutcome err) (some (p.enrichment ++ ": " ++ err.message))
        throw (wrapEnrich p.field p.enrichment err)
      | .ok none => do
        emit .omitted none
        resolveEnrichments deps event payload pending record
      | .ok (some value) => do
        emit .applied none
        resolveEnrichments deps event payload pending (fillField record p.field value)
    else do
      let message := p.field ++ " references unknown enrichment \"" ++ p.enrichment ++ "\""
      emit .rejected (some message)
      throw (.enrichment message)

/-- `nextAttemptAt(attempts, …)` with the settings of the dispatcher. -/
def scheduleAttempt (deps : DispatcherDeps) (attempts : Nat) : Body Int := do
  let now ← clock
  let random ← ask .random
  pure (nextAttemptAt now random attempts deps.dispatch.backoffBaseMs deps.dispatch.backoffCapMs)

/-- `retryOne(event, message, counts)`. -/
def retryOne (deps : DispatcherDeps) (event : EventRecord) (message : String) : Body Unit := do
  let next ← scheduleAttempt deps event.attempts
  store (.markFailed [event.id] next message)
  modify (State.recordRetried event.routeId [event] message)

/-- Park one event of a batch. -/
def parkOne (event : EventRecord) (reason : String) : Body Unit := do
  store (.markParked [event.id] reason)
  modify (State.recordParked [event] reason)

/-- The catch clause of the loop over the claimed events. -/
def settleUnmapped (deps : DispatcherDeps) (event : EventRecord) (stage : Stage) :
    RelayError → Body Unit
  | .mapping message | .enrichment message =>
    parkOne event (stage.name ++ " failed: " ++ message)
  | err =>
    match stage with
    | .enrichment => retryOne deps event ("enrichment failed: " ++ err.message)
    | .mapping => throw err

/-- One round of the loop over the claimed events: its record, unless it was settled. -/
def buildRecord (deps : DispatcherDeps) (route : RouteConfig) (event : EventRecord) :
    Body (Option EndCloseRecord) :=
  match readEvent deps route event with
  | .error err => do
    settleUnmapped deps event .mapping err
    pure none
  | .ok (payload, result) =>
    if result.pending.isEmpty then pure (some result.record)
    else
      tryCatch (some <$> resolveEnrichments deps event payload result.pending result.record)
        fun err => do
          settleUnmapped deps event .enrichment err
          pure none

/-- The loop over the claimed events: `mapped` and `records`, paired. -/
def buildRecords (deps : DispatcherDeps) (route : RouteConfig) :
    List EventRecord → Body (List (EventRecord × EndCloseRecord))
  | [] => pure []
  | event :: events => do
    let record ← buildRecord deps route event
    let built ← buildRecords deps route events
    pure ((record.map fun record => (event, record)).toList ++ built)

/-! ## Posting a batch -/

/-- The attempts of `postWithRetries`. -/
def postAttempts (deps : DispatcherDeps) (records : List EndCloseRecord) :
    List Nat → (lastErr : RelayError) → Body (Option BulkRequestSummary)
  | [], lastErr => throw lastErr
  | attempt :: attempts, _ => do
    let answer ← ask (.bulkCreateRecords (idempotencyKey deps.runtime records) records)
    match answer.read with
    | .ok accepted => pure accepted
    | .error (.transientHttp message status) => do
      ask (.sleep (500 * (attempt + 1)))
      postAttempts deps records attempts (.transientHttp message status)
    | .error err => throw err

/-- `postWithRetries(records)`. -/
def postWithRetries (deps : DispatcherDeps) (records : List EndCloseRecord) :
    Body (Option BulkRequestSummary) :=
  postAttempts deps records (List.range (inRequestRetries + 1)) (.other "undefined")

/-! ## Settling a batch -/

/-- The keys the answer reports as failed or rejected: the set `failed`. -/
def failedKeys : BulkResults → Except RelayError (List String)
  | .absent => .ok []
  | .unreadable message => .error (.other message)
  | .items items => .ok ((items.filter fun r =>
      r.status == some "failed" || r.status == some "rejected").map fun r =>
        r.externalId.getD ((r.index.map Js.Number.text).getD "undefined"))

/-- The polling loop of `settleResults`: the failed keys, `none` when it ends
without any. -/
def pollResults (bulkRequestId : Option String) : Nat → Body (Option (List String))
  | 0 => pure none
  | attempts + 1 => do
    let answer ← ask (.getBulkRequest bulkRequestId)
    match answer.read with
    | .error _ => pure none
    | .ok none => throw (.other "Cannot read properties of null (reading 'status')")
    | .ok (some status) =>
      if status.status = some "pending" ∨ status.status = some "processing" then do
        ask (.sleep resultPollDelayMs)
        pollResults bulkRequestId attempts
      else do
        let failed ← Method.ofExcept (failedKeys status.results)
        pure (if failed.isEmpty then none else some failed)

/-- `extResultKey(event, index).externalId`. -/
def externalIdKey (event : EventRecord) : String := Js.afterFirst event.eventId ':'

/-- `extResultKey(event, index).index`. -/
def indexKey (index : Nat) : String := toString index

/-- The result of an event was among the failed ones, going by its keys. -/
def isFailed (failed : List String) (entry : EventRecord × Nat) : Bool :=
  failed.contains (externalIdKey entry.1) || failed.contains (indexKey entry.2)

/-- The events of a batch to park. -/
def failedEvents (failed : List String) (mapped : List EventRecord) : List EventRecord :=
  (mapped.zipIdx.filter fun entry => isFailed failed entry).map Prod.fst

/-- The events of a batch to mark delivered. -/
def okEvents (failed : List String) (mapped : List EventRecord) : List EventRecord :=
  (mapped.zipIdx.filter fun entry => !isFailed failed entry).map Prod.fst

/-- The reason `settleResults` parks with. -/
def rejectedReason : String := "rejected by End Close bulk processing"

/-- `settleResults(bulkRequestId, mapped, counts)`. -/
def settleResults (bulkRequestId : Option String) (mapped : List EventRecord) : Body Unit := do
  let deliveredAt ← clock
  match ← pollResults bulkRequestId resultPollAttempts with
  | some failed => do
    let parked := failedEvents failed mapped
    let ok := okEvents failed mapped
    store (.markParked (parked.map fun e => e.id) rejectedReason)
    store (.markDelivered (ok.map fun e => e.id) deliveredAt bulkRequestId)
    modify (State.recordDelivered ok deliveredAt)
    modify (State.recordParked parked rejectedReason)
  | none => do
    store (.markDelivered (mapped.map fun e => e.id) deliveredAt bulkRequestId)
    modify (State.recordDelivered mapped deliveredAt)

/-- `accepted.id`. -/
def acceptedId : Option BulkRequestSummary → Except RelayError (Option String)
  | some accepted => .ok accepted.id
  | none => .error (.other "Cannot read properties of null (reading 'id')")

/-- The try block around the POST. -/
def forwardBatch (deps : DispatcherDeps) (route : RouteConfig)
    (built : List (EventRecord × EndCloseRecord)) : Body Unit := do
  let accepted ← postWithRetries deps (built.map Prod.snd)
  let bulkRequestId ← Method.ofExcept (acceptedId accepted)
  settleResults bulkRequestId (built.map Prod.fst)
  modify (State.emit (.batchForwarded route.id built.length bulkRequestId))

/-- Park a whole batch after a permanent rejection. -/
def parkBatch (route : RouteConfig) (mapped : List EventRecord) (status : Nat) (reason : String) :
    Body Unit := do
  store (.markParked (mapped.map fun e => e.id) reason)
  modify (State.recordParked mapped reason)
  modify (State.emit (.batchParked route.id status mapped.length))

/-- Put a whole batch off: its most tried event sets the backoff. -/
def retryBatch (deps : DispatcherDeps) (route : RouteConfig) (mapped : List EventRecord)
    (message : String) : Body Unit := do
  let next ← scheduleAttempt deps ((mapped.map fun e => e.attempts).foldl max 0)
  store (.markFailed (mapped.map fun e => e.id) next message)
  modify (State.recordRetried route.id mapped message)

/-- The catch clause around the POST. -/
def settleFailure (deps : DispatcherDeps) (route : RouteConfig) (mapped : List EventRecord) :
    RelayError → Body Unit
  | .permanentHttp message status body =>
    if status = 400 ∨ status = 422 then
      parkBatch route mapped status (message ++ ": " ++ body)
    else retryBatch deps route mapped message
  | err => retryBatch deps route mapped err.message

/-- `deliverBatch(route, claimed, counts)`. -/
def deliverBatch (deps : DispatcherDeps) (route : RouteConfig) (claimed : List EventRecord) :
    Body Unit := do
  let built ← buildRecords deps route claimed
  if built.isEmpty then pure ()
  else tryCatch (forwardBatch deps route built) (settleFailure deps route (built.map Prod.fst))

/-- `releaseLeftover(claimed, error)`. -/
def releaseLeftover (deps : DispatcherDeps) (claimed : List EventRecord) (error : String) :
    Body Unit :=
  tryCatch
    (do
      let now ← clock
      let _ ← store (.releaseDelivering (claimed.map fun e => e.id) now error)
      pure ())
    fun err => modify fun s =>
      { s with reclaimOwner := some deps.instanceId }.emit (.error .recoverDelivering err none none)

/-! ## A cycle -/

/-- Reclaim and sweep, at the start of a cycle. -/
def recover (deps : DispatcherDeps) (now : Int) (sweepDue : Bool) : Body Unit :=
  tryCatch
    (do
      let s ← get
      let _ ← store (.recoverDelivering now s.reclaimOwner)
      modify fun s => { s with reclaimOwner := none }
      if sweepDue then do
        let _ ← store (.parkExpired now deps.dispatch.parkAfterMs)
        let sweptAt ← clock
        modify fun s => { s with lastSweepAt := sweptAt }
      else pure ())
    fun err => modify (State.emit (.error .recoverDelivering err none none))

/-- `summary.skipped.push({ routeId, reason })`. -/
def State.skip (routeId : String) (reason : SkipReason) (s : State) : State :=
  { s with summary := { s.summary with skipped := s.summary.skipped ++ [(routeId, reason)] } }

/-- One due route. -/
def deliverRoute (deps : DispatcherDeps) (now : Int) (routeId : String) : Body Unit := do
  let route ← ask (.getRoute routeId)
  let paused ← ask (.isRoutePaused routeId)
  let route ← Method.ofExcept route
  let paused ← Method.ofExcept paused
  match route with
  | none => modify (State.skip routeId .unknownRoute)
  | some route =>
    if paused then modify (State.skip routeId .paused)
    else do
      let claimedAt ← clock
      let claimed ← store (.claimDue routeId now deps.dispatch.batchMax
        { owner := deps.instanceId, until_ := claimedAt + deps.dispatch.leaseMs })
      if claimed.isEmpty then pure ()
      else
        Method.ensuring (deliverBatch deps route claimed)
          (releaseLeftover deps claimed "left delivering after batch")

/-- The loop over the due routes. -/
def deliverDue (deps : DispatcherDeps) (now : Int) : List String → Body Unit
  | [] => pure ()
  | routeId :: due => do
    let aborted : Bool ← ask .aborted
    if aborted then pure ()
    else do
      deliverRoute deps now routeId
      deliverDue deps now due

/-- The housekeeping a cycle starts with, when it is due. -/
def housekeeping (deps : DispatcherDeps) (now : Int) : Body Unit := do
  let startedAt ← clock
  let s ← get
  let sweepDue : Bool := deps.dispatch.recoverIntervalMs ≤ startedAt - s.lastSweepAt
  if s.reclaimOwner.isSome || sweepDue then recover deps now sweepDue else pure ()

/-- The forwarding half of a cycle, unless the killswitch is on. -/
def forwardDue (deps : DispatcherDeps) (now : Int) : Body Unit := do
  let killswitch ← Method.ofExcept (← ask .getKillswitch)
  if killswitch = .none then do
    let due ← store (.routesWithDueEvents now)
    modify fun s => { s with summary := { s.summary with due } }
    deliverDue deps now due
  else modify fun s => { s with summary := { s.summary with halted := true } }

/-- `cycle(abort)`. -/
def cycle (deps : DispatcherDeps) : Body CycleSummary := do
  let now ← clock
  modify fun s => { s with summary := {} }
  housekeeping deps now
  forwardDue deps now
  return (← get).summary

/-- A cycle as `runOnce` and the background loop run it: an error is reported. -/
def runOnce (deps : DispatcherDeps) : Body CycleSummary :=
  tryCatch (cycle deps) fun err => do
    modify (State.emit (.error .dispatchCycle err err.storeOp none))
    throw err

end Dispatcher

end EndCloseRelay
