import EndCloseRelay.Engine.Inspection
import EndCloseRelay.Sqlite.Agreement

/-!
# What an operator sees of either store

`list`, `countByStatus` and `perRouteStats` of `EventsRepo`.  They show of the
table what those of the store in memory show of its rows, but for the order in
which `perRouteStats` lists routes.
-/

namespace EndCloseRelay

open Relational MemoryStore

/-- `counts[status] = n`. -/
def Counts.set (counts : Counts) (status : EventStatus) (n : Nat) : Counts :=
  fun other => if other = status then some n else counts other

/-- The columns that `list` selects. -/
def EventRow.summary (r : EventRow) : EventSummary where
  id := r.id
  routeId := r.routeId
  source := r.source
  eventId := r.eventId
  eventType := r.eventType
  receivedAt := r.receivedAt
  status := r.status
  attempts := r.attempts
  nextAttemptAt := r.nextAttemptAt
  deliveredAt := r.deliveredAt
  bulkRequestId := r.bulkRequestId
  lastError := r.lastError

namespace EventsRepo

/-- `GROUP BY`: the groups in an order of SQLite's choice, and the rows of each. -/
def groupBy {κ : Type} [DecidableEq κ] (plan : Plan) (events : Events) (key : EventRow → κ) :
    List (κ × List EventRow) :=
  (keysOf key (plan.order events.rows)).map fun k => (k, group key k events.rows)

/-- The clauses of `list`. -/
def listed (filter : ListFilter) (r : EventRow) : Truth :=
  .and
    (match filter.status with
    | some status => statusIn [status] r
    | none => some true)
    (match filter.route with
    | some route => if route == "" then some true else routeIs route r
    | none => some true)

/-- `list(filter)`. -/
def list (events : Events) (filter : ListFilter) : List EventSummary :=
  ((events.select (listed filter)).reverse.take (filter.limit.getD 50)).map EventRow.summary

/-- The counts of `perRouteStats`: a row for each route and status. -/
def routeCounts (plan : Plan) (events : Events) : List (String × EventStatus × Nat) :=
  (groupBy plan events fun r => (r.routeId, r.status)).map fun (k, rows) => (k.1, k.2, rows.length)

/-- `MAX` and `MIN` skip `NULL`. -/
def routeExtremes (plan : Plan) (events : Events) : List (String × Option Int × Option Int) :=
  (groupBy plan events fun r => r.routeId).map fun (routeId, rows) =>
    (routeId, (rows.filterMap fun r => r.deliveredAt).max?,
      (rows.filterMap fun r =>
        if (statusIn [.pending, .retry] r).holds then some r.receivedAt else none).min?)

/-- A row of counts, put into the stats of its route. -/
def addCount (s : RouteStats) (row : String × EventStatus × Nat) : RouteStats :=
  { s with counts := s.counts.set row.2.1 row.2.2 }

/-- A row of extremes, put into the stats of its route if there are any. -/
def addExtremes (byRoute : List (String × RouteStats)) (row : String × Option Int × Option Int) :
    List (String × RouteStats) :=
  byRoute.map fun entry =>
    if entry.1 = row.1 then
      (entry.1, { entry.2 with lastDeliveredAt := row.2.1, oldestPendingAt := row.2.2 })
    else entry

/-- `perRouteStats()`, a plan for each query. -/
def perRouteStats (plans : Plan × Plan) (events : Events) : List RouteStats :=
  let byRoute := tally (fun row : String × EventStatus × Nat => row.1) .none addCount (routeCounts plans.1 events)
  ((routeExtremes plans.2 events).foldl addExtremes byRoute).map fun entry => entry.2

end EventsRepo

/-! ## What they are of the records -/

namespace SqliteStore

open EventsRepo

variable {events : Events}

variable {plan : Plan}

end SqliteStore

/-! ## Either store -/

namespace StoreKind

/-- `list(filter)`. -/
def list : (kind : StoreKind) → kind.store.State → ListFilter → List EventSummary
  | .memory, (store : MemoryStore), filter => store.list filter
  | .sqlite, (events : Events), filter => EventsRepo.list events filter

/-- `countByStatus()`. -/
def countByStatus : (kind : StoreKind) → kind.store.State → Counts
  | .memory, (store : MemoryStore) => store.countByStatus
  | .sqlite, (events : Events) => EventsRepo.countByStatus events

/-- `perRouteStats()`, which makes two queries. -/
def perRouteStats : (kind : StoreKind) → kind.store.Choice × kind.store.Choice → kind.store.State →
    List RouteStats
  | .memory, _, (store : MemoryStore) => store.perRouteStats
  | .sqlite, (plans : Plan × Plan), (events : Events) => EventsRepo.perRouteStats plans events

variable {kind : StoreKind} {s : kind.store.State}

end StoreKind

section Rename

variable {ρ : Equiv.Perm Nat} {records : List EventRecord}

end Rename

end EndCloseRelay
