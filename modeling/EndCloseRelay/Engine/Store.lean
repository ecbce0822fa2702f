import EndCloseRelay.Engine.Errors

/-!
# The event store

The persistence contract of `engine/store.ts`: what a row holds, and the
operations of `EventStore` and `EventStoreAdmin` that change rows.  A store id
is the number its decimal text denotes, and an ISO timestamp the millisecond it
denotes: comparing timestamps is comparing numbers, as it is for the texts of the
years 0 to 9999.
-/

namespace EndCloseRelay

/-! ## Rows -/

/-- `EventStatus`. -/
inductive EventStatus
  | pending
  | retry
  | delivering
  | delivered
  | parked
  | droppedByFilter
deriving DecidableEq

/-- A row of this status is not done with: `delivered` and `dropped_by_filter` are. -/
def EventStatus.isActive : EventStatus → Bool
  | delivered | droppedByFilter => false
  | pending | retry | delivering | parked => true

/-- `NewEvent`. -/
structure NewEvent where
  routeId : String
  source : String
  eventId : String
  eventType : Option String
  payload : Bytes
  payloadIv : Option Bytes
  headersJson : String
  receivedAt : Int
  status : EventStatus
  idempotencyKey : String
deriving DecidableEq

/-- The event, in a row of another status. -/
def NewEvent.withStatus (e : NewEvent) (status : EventStatus) : NewEvent := { e with status }

/-- `EventRecord`. -/
structure EventRecord extends NewEvent where
  id : Nat
  attempts : Nat := 0
  nextAttemptAt : Option Int
  deliveredAt : Option Int := none
  bulkRequestId : Option String := none
  lastError : Option String := none
  claimedBy : Option String := none
  leaseUntil : Option Int := none
deriving DecidableEq

/-- `Lease`. -/
structure Lease where
  owner : String
  until_ : Int
deriving DecidableEq

/-- `InsertResult`. -/
inductive InsertResult
  | duplicate
  | inserted (id : Nat)
deriving DecidableEq

/-- `Killswitch`. -/
inductive Killswitch
  | none
  | pause
  | panic
deriving DecidableEq

/-! ## Operations -/

/-- A call to the store that can change rows, or that the dispatcher makes.
`replay` and `replayAllParked` read the clock, which stands here as an argument. -/
inductive StoreOp
  | insert (e : NewEvent)
  | routesWithDueEvents (now : Int)
  | claimDue (routeId : String) (now : Int) (limit : Nat) (lease : Lease)
  | markDelivered (ids : List Nat) (deliveredAt : Int) (bulkRequestId : Option String)
  | markFailed (ids : List Nat) (nextAttemptAt : Int) (error : String)
  | markParked (ids : List Nat) (error : String)
  | releaseDelivering (ids : List Nat) (nextAttemptAt : Int) (error : String)
  | recoverDelivering (now : Int) (owner : Option String)
  | parkExpired (now : Int) (maxAgeMs : Int)
  | pruneBatch (now : Int) (deliveredDays ledgerDays : Int) (limit : Nat)
  | replay (id : Nat) (now : Int)
  | replayAllParked (now : Int)

/-- What a call to the store resolves to. -/
def StoreOp.Result : StoreOp → Type
  | insert _ => InsertResult
  | routesWithDueEvents _ => List String
  | claimDue .. => List EventRecord
  | markDelivered .. | markFailed .. | markParked .. => Unit
  | releaseDelivering .. | recoverDelivering .. | parkExpired .. | replayAllParked _ => Nat
  | pruneBatch .. => Except RelayError (Nat × Nat)
  | replay .. => Bool

/-! ## Changes to a row -/

namespace EventRecord

/-- `status` is `pending` or `retry`: the statuses `DUE`. -/
def isWaiting (r : EventRecord) : Bool := r.status == .pending || r.status == .retry

/-- `isDue(r, now)`. -/
def isDue (r : EventRecord) (now : Int) : Bool :=
  r.isWaiting && r.nextAttemptAt.any (· ≤ now)

/-- `status` is one of `TERMINAL`. -/
def isTerminal (r : EventRecord) : Bool :=
  r.status == .delivered || r.status == .droppedByFilter

theorem isTerminal_iff {r : EventRecord} : r.isTerminal ↔ r.status.isActive = false := by
  unfold isTerminal
  cases r.status <;> decide

/-- `clearLease(r)`. -/
def clearLease (r : EventRecord) : EventRecord := { r with claimedBy := none, leaseUntil := none }

/-- What `insert` makes of a new event. -/
def ofNew (e : NewEvent) (id : Nat) : EventRecord :=
  { e with id, nextAttemptAt := some e.receivedAt }

/-- What `claimDue` does to a row it picks. -/
def claim (now : Int) (lease : Lease) (r : EventRecord) : EventRecord :=
  { r with
    status := .delivering
    nextAttemptAt := some now
    claimedBy := some lease.owner
    leaseUntil := some lease.until_ }

/-- What `markDelivered` does to a row. -/
def deliver (deliveredAt : Int) (bulkRequestId : Option String) (r : EventRecord) : EventRecord :=
  clearLease { r with
    status := .delivered, deliveredAt := some deliveredAt, bulkRequestId, lastError := none }

/-- What `markFailed` does to a row, and `releaseDelivering` to one still delivering. -/
def fail (nextAttemptAt : Int) (error : String) (r : EventRecord) : EventRecord :=
  clearLease { r with
    status := .retry
    attempts := r.attempts + 1
    nextAttemptAt := some nextAttemptAt
    lastError := some (Js.sliceTo error 500) }

/-- What `markParked` does to a row. -/
def park (error : String) (r : EventRecord) : EventRecord :=
  clearLease { r with status := .parked, lastError := some (Js.sliceTo error 500) }

/-- `recoverDelivering` takes a row: its lease has expired, or the owner is the caller. -/
def recoverable (now : Int) (owner : Option String) (r : EventRecord) : Bool :=
  r.status == .delivering &&
    (r.leaseUntil.all (· < now) || (owner.isSome && r.claimedBy == owner))

/-- What `recoverDelivering` does to a row it takes. -/
def recover (now : Int) (r : EventRecord) : EventRecord :=
  clearLease { r with status := .retry, nextAttemptAt := some now }

/-- `parkExpired` takes a row. -/
def expired (cutoff : Int) (r : EventRecord) : Bool := r.status == .retry && r.receivedAt < cutoff

/-- What `parkExpired` does to a row it takes. -/
def expire (r : EventRecord) : EventRecord :=
  { r with status := .parked, lastError := some "retry window exhausted" }

/-- What the first phase of `pruneBatch` does to a row it takes. -/
def wipe (r : EventRecord) : EventRecord :=
  { r with payload := [], payloadIv := none, headersJson := "\x7b\x7d" }

/-- `requeue(r)`. -/
def requeue (now : Int) (r : EventRecord) : EventRecord :=
  { r with status := .retry, attempts := 0, nextAttemptAt := some now, lastError := none }

/-! No change touches the id of a row. -/

@[simp] theorem claim_id (now : Int) (lease : Lease) (r : EventRecord) :
    (claim now lease r).id = r.id := rfl

@[simp] theorem deliver_id (deliveredAt : Int) (bulkRequestId : Option String)
    (r : EventRecord) : (deliver deliveredAt bulkRequestId r).id = r.id := rfl

@[simp] theorem fail_id (nextAttemptAt : Int) (error : String) (r : EventRecord) :
    (fail nextAttemptAt error r).id = r.id := rfl

@[simp] theorem park_id (error : String) (r : EventRecord) : (park error r).id = r.id := rfl

@[simp] theorem recover_id (now : Int) (r : EventRecord) : (recover now r).id = r.id := rfl

@[simp] theorem expire_id (r : EventRecord) : (expire r).id = r.id := rfl

@[simp] theorem wipe_id (r : EventRecord) : (wipe r).id = r.id := rfl

@[simp] theorem requeue_id (now : Int) (r : EventRecord) : (requeue now r).id = r.id := rfl

end EventRecord

end EndCloseRelay
