import EndCloseRelay.Engine.MemoryRecords
import EndCloseRelay.Relational.Grouping

/-!
# What an operator sees of a store

`list`, `countByStatus` and `perRouteStats` of `EventStoreAdmin` as the store in
memory computes them, and what they are of its records: `listing`, `countsOf`
and `statsOf`.
-/

namespace EndCloseRelay

open Relational

/-- `EventSummary`: a record without payload, headers, key and lease. -/
structure EventSummary where
  id : Nat
  routeId : String
  source : String
  eventId : String
  eventType : Option String
  receivedAt : Int
  status : EventStatus
  attempts : Nat
  nextAttemptAt : Option Int
  deliveredAt : Option Int
  bulkRequestId : Option String
  lastError : Option String
deriving DecidableEq

/-- A record as `list` shows it. -/
def EventRecord.summary (r : EventRecord) : EventSummary where
  id := r.id
  routeId := r.routeId
  source := r.source
  eventId := r.eventId
  eventType := r.eventType
  receivedAt := r.receivedAt
  status := r.status
  attempts := r.attempts
  nextAttemptAt := r.nextAttemptAt
  deliveredAt := r.deliveredAt
  bulkRequestId := r.bulkRequestId
  lastError := r.lastError

/-- The filter of `list`. -/
structure ListFilter where
  status : Option EventStatus := none
  route : Option String := none
  limit : Option Nat := none

/-- An empty route filters as little as none. -/
def ListFilter.admits (filter : ListFilter) (r : EventRecord) : Bool :=
  filter.status.all (r.status == ·) && filter.route.all fun route => route == "" || r.routeId == route

/-- `Partial<Record<EventStatus, number>>`. -/
abbrev Counts := EventStatus → Option Nat

/-- `counts[status] = (counts[status] ?? 0) + 1`. -/
def Counts.add (counts : Counts) (status : EventStatus) : Counts :=
  fun other => if other = status then some ((counts status).getD 0 + 1) else counts other

/-- `RouteStats`. -/
structure RouteStats where
  routeId : String
  counts : Counts
  lastDeliveredAt : Option Int
  oldestPendingAt : Option Int

/-- The stats of a route nothing is known of. -/
def RouteStats.none (routeId : String) : RouteStats := ⟨routeId, fun _ => .none, .none, .none⟩

/-- One round of the loop of `perRouteStats`. -/
def RouteStats.see (s : RouteStats) (r : EventRecord) : RouteStats where
  routeId := s.routeId
  counts := s.counts.add r.status
  lastDeliveredAt :=
    match r.deliveredAt with
    | some deliveredAt =>
      if s.lastDeliveredAt.all (· < deliveredAt) then some deliveredAt else s.lastDeliveredAt
    | .none => s.lastDeliveredAt
  oldestPendingAt :=
    if r.isWaiting && s.oldestPendingAt.all (r.receivedAt < ·) then some r.receivedAt
    else s.oldestPendingAt

namespace MemoryStore

/-- `list(filter)`. -/
def list (store : MemoryStore) (filter : ListFilter) : List EventSummary :=
  (((store.rows.filter filter.admits).mergeSort fun a b => decide (b.id ≤ a.id)).take
    (filter.limit.getD 50)).map EventRecord.summary

/-- `countByStatus()`. -/
def countByStatus (store : MemoryStore) : Counts :=
  store.rows.foldl (fun out r => out.add r.status) fun _ => none

/-- `perRouteStats()`. -/
def perRouteStats (store : MemoryStore) : List RouteStats :=
  (tally (fun r : EventRecord => r.routeId) .none .see store.rows).map fun entry => entry.2

end MemoryStore

/-! ## What they are of the records -/

/-- How many records have a status. -/
def countsOf (records : List EventRecord) : Counts := fun status =>
  match records.countP fun r => r.status == status with
  | 0 => none
  | n => some n

/-- What the records of a route say of it. -/
def RouteStats.of (routeId : String) (records : List EventRecord) : RouteStats where
  routeId
  counts := countsOf records
  lastDeliveredAt := (records.filterMap fun r => r.deliveredAt).max?
  oldestPendingAt := ((records.filter EventRecord.isWaiting).map fun r => r.receivedAt).min?

section

variable {records : List EventRecord}

end

namespace MemoryStore

variable {store : MemoryStore}

end MemoryStore

end EndCloseRelay
