import EndCloseRelay.Engine.MemoryStore
import EndCloseRelay.Relational.Table

/-!
# The SQLite event store

`EventsRepo`, statement by statement over the table `events`, and
`SqliteEventStore` over it.  A `SELECT` without `ORDER BY` visits rows in an
order of SQLite's choice, which a `Plan` stands for.
-/

namespace EndCloseRelay

open Relational

/-! ## The table -/

/-- `EventRow`: the columns of `events`. -/
structure EventRow where
  id : Nat
  routeId : String
  source : String
  eventId : String
  eventType : Option String
  payloadEnc : Bytes
  payloadIv : Bytes
  headersJson : String
  receivedAt : Int
  status : EventStatus := .pending
  attempts : Nat := 0
  nextAttemptAt : Option Int := none
  deliveredAt : Option Int := none
  bulkRequestId : Option String := none
  lastError : Option String := none
  idempotencyKey : String
  claimedBy : Option String := none
  leaseUntil : Option Int := none
deriving DecidableEq

/-- The table `events`. -/
abbrev Events := Table EventRow String EventRow.id EventRow.idempotencyKey

/-- The order in which a query without `ORDER BY` visits rows. -/
structure Plan where
  order : List EventRow → List EventRow
  perm : ∀ rows, (order rows).Perm rows

/-- Rows are visited in the order of their ids. -/
def SqliteStore.byId : Plan := ⟨fun rows => rows, fun rows => .refl rows⟩

/-- `InsertEvent`. -/
structure InsertEvent where
  routeId : String
  source : String
  eventId : String
  eventType : Option String
  payloadEnc : Bytes
  payloadIv : Bytes
  headersJson : String
  receivedAt : Int
  status : EventStatus
  idempotencyKey : String

/-! ## Conditions -/

/-- `status IN (…)`. -/
def statusIn (statuses : List EventStatus) (r : EventRow) : Truth := some (statuses.contains r.status)

/-- `id IN (…)`. -/
def idIn (ids : List Nat) (r : EventRow) : Truth := some (ids.contains r.id)

/-- `status IN ('pending','retry') AND next_attempt_at <= ?`. -/
def dueAt (now : Int) (r : EventRow) : Truth :=
  .and (statusIn [.pending, .retry] r) (.compare (fun at_ now => decide (at_ ≤ now)) r.nextAttemptAt (some now))

/-- `route_id = ?`. -/
def routeIs (routeId : String) (r : EventRow) : Truth := some (r.routeId == routeId)

/-- `received_at < ?`. -/
def receivedBefore (cutoff : Int) (r : EventRow) : Truth := some (decide (r.receivedAt < cutoff))

/-! ## Assignments -/

namespace EventRow

/-- The row an `INSERT` adds under an id. -/
def inserted (e : InsertEvent) (id : Nat) : EventRow where
  id := id
  routeId := e.routeId
  source := e.source
  eventId := e.eventId
  eventType := e.eventType
  payloadEnc := e.payloadEnc
  payloadIv := e.payloadIv
  headersJson := e.headersJson
  receivedAt := e.receivedAt
  status := e.status
  nextAttemptAt := some e.receivedAt
  idempotencyKey := e.idempotencyKey

theorem inserted_id (e : InsertEvent) (id : Nat) : (inserted e id).id = id := rfl

def setDelivering (now : Int) (owner : String) (leaseUntil : Int) (r : EventRow) : EventRow :=
  { r with
    status := .delivering, nextAttemptAt := some now, claimedBy := some owner
    leaseUntil := some leaseUntil }

def setDelivered (deliveredAt : Int) (bulkRequestId : Option String) (r : EventRow) : EventRow :=
  { r with
    status := .delivered, deliveredAt := some deliveredAt, bulkRequestId, lastError := none
    claimedBy := none, leaseUntil := none }

def setRetry (nextAttemptAt : Int) (error : String) (r : EventRow) : EventRow :=
  { r with
    status := .retry, attempts := r.attempts + 1, nextAttemptAt := some nextAttemptAt
    lastError := some (Js.sliceTo error 500), claimedBy := none, leaseUntil := none }

def setParked (error : String) (r : EventRow) : EventRow :=
  { r with
    status := .parked, lastError := some (Js.sliceTo error 500), claimedBy := none, leaseUntil := none }

def setRecovered (now : Int) (r : EventRow) : EventRow :=
  { r with status := .retry, nextAttemptAt := some now, claimedBy := none, leaseUntil := none }

def setExpired (r : EventRow) : EventRow :=
  { r with status := .parked, lastError := some "retry window exhausted" }

def setReplayed (now : Int) (r : EventRow) : EventRow :=
  { r with status := .retry, attempts := 0, nextAttemptAt := some now, lastError := none }

def setWiped (r : EventRow) : EventRow :=
  { r with payloadEnc := [], payloadIv := [], headersJson := "\x7b\x7d" }

end EventRow

/-! ## `EventsRepo` -/

namespace EventsRepo

/-- `insert(e)`. -/
def insert (events : Events) (e : InsertEvent) : Option Nat × Events :=
  if known : e.idempotencyKey ∈ events.rows.map EventRow.idempotencyKey then (none, events)
  else
    (some events.nextRowid, events.insert (.inserted e events.nextRowid) (EventRow.inserted_id _ _) known)

/-- `claimDue(routeId, now, limit, owner, leaseUntil)`. -/
def claimDue (events : Events) (routeId : String) (now : Int) (limit : Nat) (owner : String)
    (leaseUntil : Int) : List EventRow × Events :=
  let rows := (events.select fun r => .and (routeIs routeId r) (dueAt now r)).take limit
  (rows.map (.setDelivering now owner leaseUntil),
    if rows.isEmpty then events
    else events.update (idIn (rows.map EventRow.id)) (.setDelivering now owner leaseUntil)
      (fun _ => rfl) fun _ => rfl)

/-- `markDelivered(ids, deliveredAt, bulkRequestId)`. -/
def markDelivered (events : Events) (ids : List Nat) (deliveredAt : Int)
    (bulkRequestId : Option String) : Events :=
  if ids.isEmpty then events
  else events.update (idIn ids) (.setDelivered deliveredAt bulkRequestId) (fun _ => rfl) fun _ => rfl

/-- `markFailed(ids, nextAttemptAt, error)`. -/
def markFailed (events : Events) (ids : List Nat) (nextAttemptAt : Int) (error : String) : Events :=
  if ids.isEmpty then events
  else events.update (idIn ids) (.setRetry nextAttemptAt error) (fun _ => rfl) fun _ => rfl

/-- `markParked(ids, error)`. -/
def markParked (events : Events) (ids : List Nat) (error : String) : Events :=
  if ids.isEmpty then events
  else events.update (idIn ids) (.setParked error) (fun _ => rfl) fun _ => rfl

/-- The condition of `recoverDelivering`. -/
def recoverable (now : Int) (owner : Option String) (r : EventRow) : Truth :=
  .and (statusIn [.delivering] r)
    (.or (.or (.isNull r.leaseUntil)
      (.compare (fun until_ now => decide (until_ < now)) r.leaseUntil (some now)))
      (.compare (· == ·) r.claimedBy owner))

/-- `recoverDelivering(now, owner)`. -/
def recoverDelivering (events : Events) (now : Int) (owner : Option String) : Nat × Events :=
  (events.count (recoverable now owner),
    events.update (recoverable now owner) (.setRecovered now) (fun _ => rfl) fun _ => rfl)

/-- `releaseDelivering(ids, nextAttemptAt, error)`. -/
def releaseDelivering (events : Events) (ids : List Nat) (nextAttemptAt : Int) (error : String) :
    Nat × Events :=
  let held := fun r => Truth.and (statusIn [.delivering] r) (idIn ids r)
  if ids.isEmpty then (0, events)
  else (events.count held,
    events.update held (.setRetry nextAttemptAt error) (fun _ => rfl) fun _ => rfl)

/-- `routesWithDueEvents(now)`. -/
def routesWithDueEvents (plan : Plan) (events : Events) (now : Int) : List String :=
  ((plan.order (events.select (dueAt now))).map EventRow.routeId).eraseDups

/-- The condition of `parkExpired`. -/
def expired (cutoff : Int) (r : EventRow) : Truth := .and (statusIn [.retry] r) (receivedBefore cutoff r)

/-- `parkExpired(now, maxAgeMs)`. -/
def parkExpired (events : Events) (now maxAgeMs : Int) : Nat × Events :=
  (events.count (expired (now - maxAgeMs)),
    events.update (expired (now - maxAgeMs)) .setExpired (fun _ => rfl) fun _ => rfl)

/-- `replay(id)`. -/
def replay (events : Events) (id : Nat) (now : Int) : Bool × Events :=
  let parked := fun r => Truth.and (some (r.id == id)) (statusIn [.parked] r)
  (events.count parked == 1, events.update parked (.setReplayed now) (fun _ => rfl) fun _ => rfl)

/-- `replayAllParked()`. -/
def replayAllParked (events : Events) (now : Int) : Nat × Events :=
  (events.count (statusIn [.parked]),
    events.update (statusIn [.parked]) (.setReplayed now) (fun _ => rfl) fun _ => rfl)

/-- The rows of a terminal status that a cutoff is past: `WHERE` of both queries of `pruneBatch`. -/
def ended (cutoff : Int) (r : EventRow) : Truth :=
  .and (statusIn [.delivered, .droppedByFilter] r) (receivedBefore cutoff r)

/-- The rows whose payload `pruneBatch` wipes. -/
def wipeRows (plan : Plan) (events : Events) (cutoff : Int) (limit : Nat) : List EventRow :=
  (plan.order (events.select fun r => .and (ended cutoff r) (some (0 < r.payloadEnc.length)))).take limit

/-- The rows it deletes. -/
def deleteRows (plan : Plan) (events : Events) (cutoff : Int) (limit : Nat) : List EventRow :=
  (plan.order (events.select (ended cutoff))).take limit

/-- `pruneBatch` with its cutoffs. -/
def pruneTo (plan : Plan) (events : Events) (wipeCutoff deleteCutoff : Int) (limit : Nat) :
    (Nat × Nat) × Events :=
  let wipeIds := (wipeRows plan events wipeCutoff limit).map EventRow.id
  if wipeIds.isEmpty then
    let deleteIds := (deleteRows plan events deleteCutoff limit).map EventRow.id
    if deleteIds.isEmpty then ((0, 0), events)
    else ((0, events.count (idIn deleteIds)), events.delete (idIn deleteIds))
  else
    ((events.count (idIn wipeIds), 0),
      events.update (idIn wipeIds) .setWiped (fun _ => rfl) fun _ => rfl)

/-- `pruneBatch(now, deliveredDays, ledgerDays, limit)`. -/
def pruneBatch (plan : Plan) (events : Events) (now deliveredDays ledgerDays : Int) (limit : Nat) :
    Except RelayError (Nat × Nat) × Events :=
  match MemoryStore.cutoffs now deliveredDays ledgerDays with
  | .error err => (.error err, events)
  | .ok (wipeCutoff, deleteCutoff) =>
    let (batch, events) := pruneTo plan events wipeCutoff deleteCutoff limit
    (.ok batch, events)

/-- `getById(id)`. -/
def getById (events : Events) (id : Nat) : Option EventRow := events.row? id

/-- `countByStatus()`. -/
def countByStatus (events : Events) (status : EventStatus) : Option Nat :=
  match events.count (statusIn [status]) with
  | 0 => none
  | n => some n

end EventsRepo

/-! ## `SqliteEventStore` -/

namespace SqliteStore

/-- `toRecord(row)`. -/
def toRecord (row : EventRow) : EventRecord where
  routeId := row.routeId
  source := row.source
  eventId := row.eventId
  eventType := row.eventType
  payload := row.payloadEnc
  payloadIv := if row.payloadIv.length = 0 then none else some row.payloadIv
  headersJson := row.headersJson
  receivedAt := row.receivedAt
  status := row.status
  idempotencyKey := row.idempotencyKey
  id := row.id
  attempts := row.attempts
  nextAttemptAt := row.nextAttemptAt
  deliveredAt := row.deliveredAt
  bulkRequestId := row.bulkRequestId
  lastError := row.lastError
  claimedBy := row.claimedBy
  leaseUntil := row.leaseUntil

/-- The row `insert` hands over. -/
def insertRow (e : NewEvent) : InsertEvent where
  routeId := e.routeId
  source := e.source
  eventId := e.eventId
  eventType := e.eventType
  payloadEnc := e.payload
  payloadIv := e.payloadIv.getD []
  headersJson := e.headersJson
  receivedAt := e.receivedAt
  status := e.status
  idempotencyKey := e.idempotencyKey

/-- `insert(e)`. -/
def insert (events : Events) (e : NewEvent) : InsertResult × Events :=
  match EventsRepo.insert events (insertRow e) with
  | (none, events) => (.duplicate, events)
  | (some id, events) => (.inserted id, events)

/-- One call to the store, where the database does not fail. -/
def apply (plan : Plan) (events : Events) : (op : StoreOp) → op.Result × Events
  | .insert e => insert events e
  | .routesWithDueEvents now => (EventsRepo.routesWithDueEvents plan events now, events)
  | .claimDue routeId now limit lease =>
    let (rows, events) := EventsRepo.claimDue events routeId now limit lease.owner lease.until_
    (rows.map toRecord, events)
  | .markDelivered ids deliveredAt bulkRequestId =>
    ((), EventsRepo.markDelivered events ids deliveredAt bulkRequestId)
  | .markFailed ids nextAttemptAt error => ((), EventsRepo.markFailed events ids nextAttemptAt error)
  | .markParked ids error => ((), EventsRepo.markParked events ids error)
  | .releaseDelivering ids nextAttemptAt error =>
    EventsRepo.releaseDelivering events ids nextAttemptAt error
  | .recoverDelivering now owner => EventsRepo.recoverDelivering events now owner
  | .parkExpired now maxAgeMs => EventsRepo.parkExpired events now maxAgeMs
  | .pruneBatch now deliveredDays ledgerDays limit =>
    EventsRepo.pruneBatch plan events now deliveredDays ledgerDays limit
  | .replay id now => EventsRepo.replay events id now
  | .replayAllParked now => EventsRepo.replayAllParked events now

/-- `getById(id)`. -/
def getById (events : Events) (id : Nat) : Option EventRecord :=
  (EventsRepo.getById events id).map toRecord

end SqliteStore

end EndCloseRelay
