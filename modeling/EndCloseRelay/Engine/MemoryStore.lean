import EndCloseRelay.Engine.Store
import Mathlib.Data.List.Nodup
import Mathlib.Logic.Function.Iterate

/-!
# The in-memory event store

`MemoryEventStore`, the reference semantics of the store contract.  Rows stand
in insertion order with distinct ids below the next one, which every operation
keeps, so the store carries both facts.  `RowChange` says once what a call can
do to the row of an id; the invariants of the engine follow from it.
-/

namespace EndCloseRelay

theorem EventRecord.fresh_nil : ∀ r ∈ ([] : List EventRecord), r.id < 1 := List.forall_mem_nil _

/-- The private fields of `MemoryEventStore`. -/
structure MemoryStore where
  rows : List EventRecord := []
  byKey : List (String × Nat) := []
  nextId : Nat := 1
  distinct : (rows.map fun r => r.id).Nodup := by exact List.nodup_nil
  fresh : ∀ r ∈ rows, r.id < nextId := by exact EventRecord.fresh_nil

namespace MemoryStore

/-! ## Building blocks -/

/-- `this.rows.get(id)`. -/
def row? (store : MemoryStore) (id : Nat) : Option EventRecord :=
  store.rows.find? fun r => r.id == id

/-- Change every row by a function that keeps ids. -/
def update (store : MemoryStore) (f : EventRecord → EventRecord) (keeps : ∀ r, (f r).id = r.id) :
    MemoryStore where
  rows := store.rows.map f
  byKey := store.byKey
  nextId := store.nextId
  distinct := by
    rw [List.map_map, show (fun r : EventRecord => r.id) ∘ f = fun r => r.id from funext keeps]
    exact store.distinct
  fresh := by
    intro r member
    obtain ⟨old, listed, rfl⟩ := List.mem_map.mp member
    rw [keeps]
    exact store.fresh old listed

/-- Change the rows a test takes. -/
def updateWhere (store : MemoryStore) (p : EventRecord → Bool) (f : EventRecord → EventRecord)
    (keeps : ∀ r, (f r).id = r.id) : MemoryStore :=
  store.update (fun r => if p r then f r else r) fun r => by
    by_cases taken : p r <;> simp [taken, keeps]

/-- Change the row of one id. -/
def updateRow (store : MemoryStore) (f : EventRecord → EventRecord)
    (keeps : ∀ r, (f r).id = r.id) (id : Nat) : MemoryStore :=
  store.updateWhere (fun r => r.id == id) f keeps

/-- Change the rows of a list of ids, one after the other: `this.pick(ids)`. -/
def updatePicked (store : MemoryStore) (f : EventRecord → EventRecord)
    (keeps : ∀ r, (f r).id = r.id) (ids : List Nat) : MemoryStore :=
  ids.foldl (fun store id => store.updateRow f keeps id) store

/-- Drop rows, and the keys that lead to them. -/
def deleteRows (store : MemoryStore) (gone : List EventRecord) : MemoryStore where
  rows := store.rows.filter fun r => !(gone.map fun g => g.id).contains r.id
  byKey := store.byKey.filter fun entry => !(gone.map fun g => g.idempotencyKey).contains entry.1
  nextId := store.nextId
  distinct := store.distinct.sublist (List.filter_sublist.map _)
  fresh := fun r member => store.fresh r (List.mem_filter.mp member).1

/-- Append a row under the next id. -/
def addRow (store : MemoryStore) (e : NewEvent) : MemoryStore where
  rows := store.rows ++ [.ofNew e store.nextId]
  byKey := store.byKey ++ [(e.idempotencyKey, store.nextId)]
  nextId := store.nextId + 1
  distinct := by
    rw [List.map_append, List.nodup_append]
    refine ⟨store.distinct, List.nodup_singleton _, ?_⟩
    intro id listed other new same
    obtain ⟨r, member, rfl⟩ := List.mem_map.mp listed
    have below := store.fresh r member
    have next : other = store.nextId := by simpa [EventRecord.ofNew] using new
    omega
  fresh := by
    intro r member
    rcases List.mem_append.mp member with member | new
    · exact Nat.lt_succ_of_lt (store.fresh r member)
    · rw [List.mem_singleton.mp new]
      exact Nat.lt_succ_self _

/-! ## The operations -/

/-- `insert(e)`. -/
def insert (store : MemoryStore) (e : NewEvent) : InsertResult × MemoryStore :=
  match store.byKey.lookup e.idempotencyKey with
  | some _ => (.duplicate, store)
  | none => (.inserted store.nextId, store.addRow e)

/-- `routesWithDueEvents(now)`: a set, in the order its members were first added. -/
def routesWithDueEvents (store : MemoryStore) (now : Int) : List String :=
  (store.rows.filter fun r => r.isDue now).foldl
    (fun out r => if r.routeId ∈ out then out else out ++ [r.routeId]) []

/-- The rows `claimDue` picks. -/
def dueRows (store : MemoryStore) (routeId : String) (now : Int) (limit : Nat) :
    List EventRecord :=
  (store.rows.filter fun r => r.routeId == routeId && r.isDue now).take limit

/-- `claimDue(routeId, now, limit, lease)`. -/
def claimDue (store : MemoryStore) (routeId : String) (now : Int) (limit : Nat) (lease : Lease) :
    List EventRecord × MemoryStore :=
  let due := store.dueRows routeId now limit
  (due.map (EventRecord.claim now lease),
    store.updateWhere (fun r => (due.map fun d => d.id).contains r.id) (.claim now lease)
      (EventRecord.claim_id now lease))

/-- One round of the loop of `releaseDelivering`. -/
def releaseRow (nextAttemptAt : Int) (error : String) (acc : Nat × MemoryStore) (id : Nat) :
    Nat × MemoryStore :=
  match acc.2.row? id with
  | some r =>
    if r.status = .delivering then
      (acc.1 + 1, acc.2.updateRow (.fail nextAttemptAt error) (EventRecord.fail_id _ _) id)
    else acc
  | none => acc

/-- `releaseDelivering(ids, nextAttemptAt, error)`. -/
def releaseDelivering (store : MemoryStore) (ids : List Nat) (nextAttemptAt : Int)
    (error : String) : Nat × MemoryStore :=
  ids.foldl (releaseRow nextAttemptAt error) (0, store)

/-- The milliseconds of a day. -/
def dayMs : Int := 86400000

/-- The milliseconds from the epoch that a `Date` can hold. -/
def isTime (ms : Int) : Bool := ms.natAbs ≤ 8640000000000000

/-- `new Date(Date.parse(now) - days * 86_400_000).toISOString()`. -/
def cutoff (now days : Int) : Except RelayError Int :=
  if isTime (now - days * dayMs) then .ok (now - days * dayMs) else .error (.other "Invalid time value")

/-- `wipeCutoff` and `deleteCutoff` of `pruneBatch`. -/
def cutoffs (now deliveredDays ledgerDays : Int) : Except RelayError (Int × Int) := do
  let wipeCutoff ← cutoff now deliveredDays
  let deleteCutoff ← cutoff now ledgerDays
  return (wipeCutoff, deleteCutoff)

/-- `pruneBatch` with its cutoffs: payloads first, rows once no payload is left to wipe. -/
def pruneTo (store : MemoryStore) (wipeCutoff deleteCutoff : Int) (limit : Nat) :
    (Nat × Nat) × MemoryStore :=
  let terminal := store.rows.filter fun r => r.isTerminal
  let toWipe := (terminal.filter fun r =>
    decide (r.receivedAt < wipeCutoff) && !r.payload.isEmpty).take limit
  if toWipe.isEmpty then
    let toDelete := (terminal.filter fun r => decide (r.receivedAt < deleteCutoff)).take limit
    ((0, toDelete.length), store.deleteRows toDelete)
  else
    ((toWipe.length, 0),
      store.updateWhere (fun r => (toWipe.map fun w => w.id).contains r.id) .wipe
        EventRecord.wipe_id)

/-- `pruneBatch(now, deliveredDays, ledgerDays, limit)`. -/
def pruneBatch (store : MemoryStore) (now deliveredDays ledgerDays : Int) (limit : Nat) :
    Except RelayError (Nat × Nat) × MemoryStore :=
  match cutoffs now deliveredDays ledgerDays with
  | .error err => (.error err, store)
  | .ok (wipeCutoff, deleteCutoff) =>
    let (batch, store) := store.pruneTo wipeCutoff deleteCutoff limit
    (.ok batch, store)

/-- `replay(id)`. -/
def replay (store : MemoryStore) (id : Nat) (now : Int) : Bool × MemoryStore :=
  match store.row? id with
  | some r =>
    if r.status = .parked then (true, store.updateRow (.requeue now) (EventRecord.requeue_id now) id)
    else (false, store)
  | none => (false, store)

/-- `getById(id)`. -/
def getById (store : MemoryStore) (id : Nat) : Option EventRecord := store.row? id

/-- One call to the store. -/
def apply (store : MemoryStore) : (op : StoreOp) → op.Result × MemoryStore
  | .insert e => store.insert e
  | .routesWithDueEvents now => (store.routesWithDueEvents now, store)
  | .claimDue routeId now limit lease => store.claimDue routeId now limit lease
  | .markDelivered ids deliveredAt bulkRequestId =>
    ((), store.updatePicked (.deliver deliveredAt bulkRequestId) (EventRecord.deliver_id _ _) ids)
  | .markFailed ids nextAttemptAt error =>
    ((), store.updatePicked (.fail nextAttemptAt error) (EventRecord.fail_id _ _) ids)
  | .markParked ids error => ((), store.updatePicked (.park error) (EventRecord.park_id _) ids)
  | .releaseDelivering ids nextAttemptAt error => store.releaseDelivering ids nextAttemptAt error
  | .recoverDelivering now owner =>
    (store.rows.countP fun r => r.recoverable now owner,
      store.updateWhere (fun r => r.recoverable now owner) (.recover now)
        (EventRecord.recover_id now))
  | .parkExpired now maxAgeMs =>
    (store.rows.countP fun r => r.expired (now - maxAgeMs),
      store.updateWhere (fun r => r.expired (now - maxAgeMs)) .expire
        EventRecord.expire_id)
  | .pruneBatch now deliveredDays ledgerDays limit =>
    store.pruneBatch now deliveredDays ledgerDays limit
  | .replay id now => store.replay id now
  | .replayAllParked now =>
    (store.rows.countP fun r => r.status == .parked,
      store.updateWhere (fun r => r.status == .parked) (.requeue now)
        (EventRecord.requeue_id now))

end MemoryStore

end EndCloseRelay
