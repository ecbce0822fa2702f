import EndCloseRelay.Engine.RecordStore
import EndCloseRelay.Sqlite.Events

/-!
# Rows of the table as records

`toRecord` takes what a statement does to a row to what the reference store does
to its record, and the conditions of the statements to its tests; so a call to
the SQLite store changes a record as one to the reference store does, but for a
list that repeats an id and for an iv that is empty.
-/

namespace EndCloseRelay

open Relational MemoryStore

namespace SqliteStore

/-! ## Assignments and conditions -/

section

variable (r : EventRow) (now : Int)

@[simp] theorem toRecord_id : (toRecord r).id = r.id := rfl

@[simp] theorem toRecord_key : (toRecord r).idempotencyKey = r.idempotencyKey := rfl

theorem toRecord_setDelivering (lease : Lease) :
    toRecord (r.setDelivering now lease.owner lease.until_) = (toRecord r).claim now lease := rfl

theorem toRecord_setDelivered (deliveredAt : Int) (bulkRequestId : Option String) :
    toRecord (r.setDelivered deliveredAt bulkRequestId) =
      (toRecord r).deliver deliveredAt bulkRequestId := rfl

theorem toRecord_setRetry (nextAttemptAt : Int) (error : String) :
    toRecord (r.setRetry nextAttemptAt error) = (toRecord r).fail nextAttemptAt error := rfl

theorem toRecord_setParked (error : String) : toRecord (r.setParked error) = (toRecord r).park error := rfl

theorem toRecord_setRecovered : toRecord (r.setRecovered now) = (toRecord r).recover now := rfl

theorem toRecord_setExpired : toRecord r.setExpired = (toRecord r).expire := rfl

theorem toRecord_setReplayed : toRecord (r.setReplayed now) = (toRecord r).requeue now := rfl

theorem toRecord_setWiped : toRecord r.setWiped = (toRecord r).wipe := rfl

@[simp] theorem holds_statusIn (statuses : List EventStatus) :
    (statusIn statuses r).holds = statuses.contains r.status := Truth.holds_some _

@[simp] theorem holds_idIn (ids : List Nat) : (idIn ids r).holds = ids.contains r.id := Truth.holds_some _

@[simp] theorem holds_routeIs (routeId : String) : (routeIs routeId r).holds = (r.routeId == routeId) :=
  Truth.holds_some _

@[simp] theorem holds_receivedBefore (cutoff : Int) :
    (receivedBefore cutoff r).holds = decide (r.receivedAt < cutoff) := Truth.holds_some _

theorem contains_two (a b : EventStatus) : [a, b].contains r.status = (r.status == a || r.status == b) := by
  simp only [List.contains_cons, List.contains_nil, Bool.or_false]

@[simp] theorem holds_dueAt : (dueAt now r).holds = (toRecord r).isDue now := by
  unfold dueAt
  rw [Truth.holds_and, holds_statusIn, Truth.holds_compare_some, contains_two]
  rfl

@[simp] theorem holds_recoverable (owner : Option String) :
    (EventsRepo.recoverable now owner r).holds = (toRecord r).recoverable now owner := by
  unfold EventsRepo.recoverable EventRecord.recoverable
  rw [Truth.holds_and, Truth.holds_or, Truth.holds_or, holds_statusIn, Truth.holds_isNull,
    Truth.holds_compare_some]
  have single : [EventStatus.delivering].contains r.status = (r.status == .delivering) := by
    simp only [List.contains_cons, List.contains_nil, Bool.or_false]
  have expired : (r.leaseUntil.isNone || r.leaseUntil.any fun u => decide (u < now)) =
      r.leaseUntil.all fun u => decide (u < now) := by
    cases r.leaseUntil <;> rfl
  have mine : (Truth.compare (· == ·) r.claimedBy owner).holds = (owner.isSome && r.claimedBy == owner) := by
    cases owner with
    | none => exact Truth.holds_compare_none _ _
    | some owner =>
      rw [Truth.holds_compare_some]
      cases r.claimedBy <;> simp
  rw [single, expired, mine]
  rfl

@[simp] theorem holds_expired (cutoff : Int) :
    (EventsRepo.expired cutoff r).holds = (toRecord r).expired cutoff := by
  unfold EventsRepo.expired
  rw [Truth.holds_and, holds_statusIn, holds_receivedBefore]
  simp only [List.contains_cons, List.contains_nil, Bool.or_false]
  rfl

@[simp] theorem holds_ended (cutoff : Int) : (EventsRepo.ended cutoff r).holds =
    ((toRecord r).isTerminal && decide (r.receivedAt < cutoff)) := by
  unfold EventsRepo.ended
  rw [Truth.holds_and, holds_statusIn, holds_receivedBefore, contains_two]
  rfl

@[simp] theorem holds_parked : (statusIn [.parked] r).holds = ((toRecord r).status == .parked) := by
  rw [holds_statusIn]
  simp only [List.contains_cons, List.contains_nil, Bool.or_false]
  rfl

end

/-! ## What a call does to a record -/

/-- The record of an id. -/
def record? (events : Events) (id : Nat) : Option EventRecord := (events.row? id).map toRecord

variable {events : Events}

/-- A conditional assignment changes a record, or leaves it. -/
theorem Moves.of_update {op : StoreOp} {id : Nat} {p : EventRow → Truth} {set : EventRow → EventRow}
    {ids : ∀ r, (set r).id = r.id} {keys : ∀ r, (set r).idempotencyKey = r.idempotencyKey}
    (step : ∀ r, events.row? id = some r → (p r).holds →
      Moves op (some (toRecord r)) (some (toRecord (set r)))) :
    Moves op (record? events id) (record? (events.update p set ids keys) id) := by
  unfold record?
  rw [Table.row?_update]
  cases found : events.row? id with
  | none => exact .change (.same _ _)
  | some r =>
    rw [Option.map_some, Option.map_some, Option.map_some]
    split
    · rename_i taken
      exact step r found taken
    · exact .change (.same _ _)

/-- The row of an id in a list of rows of the table. -/
theorem row_of_mem_ids {rows : List EventRow} (sub : ∀ r ∈ rows, r ∈ events.rows) {id : Nat}
    {r : EventRow} (found : events.row? id = some r)
    (listed : (idIn (rows.map EventRow.id) r).holds) : r ∈ rows := by
  rw [holds_idIn, List.contains_iff_mem] at listed
  obtain ⟨r', member, same⟩ := List.mem_map.mp listed
  have there := Table.row?_of_mem (sub r' member)
  rw [same, Table.row?_of_mem (Table.row?_mem found).1] at there
  rw [Option.some.inj there]
  exact member

theorem mem_wipeRows {plan : Plan} {cutoff : Int} {limit : Nat} {r : EventRow}
    (picked : r ∈ EventsRepo.wipeRows plan events cutoff limit) :
    r ∈ events.rows ∧ (toRecord r).isTerminal ∧ r.receivedAt < cutoff ∧ r.payloadEnc ≠ [] := by
  obtain ⟨member, taken⟩ := Table.mem_select.mp ((plan.perm _).mem_iff.mp (List.mem_of_mem_take picked))
  rw [Truth.holds_and, holds_ended, Truth.holds_some, Bool.and_eq_true, Bool.and_eq_true,
    decide_eq_true_iff, decide_eq_true_iff, List.length_pos_iff] at taken
  exact ⟨member, taken.1.1, taken.1.2, taken.2⟩

theorem mem_deleteRows {plan : Plan} {cutoff : Int} {limit : Nat} {r : EventRow}
    (picked : r ∈ EventsRepo.deleteRows plan events cutoff limit) :
    r ∈ events.rows ∧ (toRecord r).isTerminal ∧ r.receivedAt < cutoff := by
  obtain ⟨member, taken⟩ := Table.mem_select.mp ((plan.perm _).mem_iff.mp (List.mem_of_mem_take picked))
  rw [holds_ended, Bool.and_eq_true, decide_eq_true_iff] at taken
  exact ⟨member, taken.1, taken.2⟩

/-- The record of a new row. -/
theorem toRecord_inserted (e : NewEvent) (id : Nat) : toRecord (.inserted (insertRow e) id) =
    .ofNew (if e.payloadIv = some [] then { e with payloadIv := none } else e) id := by
  obtain ⟨routeId, source, eventId, eventType, payload, payloadIv, headersJson, receivedAt, status, key⟩ := e
  rcases payloadIv with _ | _ | ⟨b, bytes⟩
  · rw [if_neg (by simp)]
    rfl
  · rw [if_pos rfl]
    rfl
  · rw [if_neg (fun same => List.cons_ne_nil b bytes (Option.some.inj same))]
    rfl

/-- An insert finds its key, or adds a row under the next id. -/
theorem insert_cases (events : Events) (e : NewEvent) :
    (e.idempotencyKey ∈ events.rows.map EventRow.idempotencyKey ∧
        insert events e = (.duplicate, events)) ∨
      ∃ fresh : (EventRow.inserted (insertRow e) events.nextRowid).idempotencyKey ∉
          events.rows.map EventRow.idempotencyKey,
        insert events e = (.inserted events.nextRowid,
          Table.insert events (.inserted (insertRow e) events.nextRowid)
            (EventRow.inserted_id _ _) fresh) := by
  unfold insert EventsRepo.insert
  by_cases known : (insertRow e).idempotencyKey ∈ events.rows.map EventRow.idempotencyKey
  · rw [dif_pos known]
    exact .inl ⟨known, rfl⟩
  · rw [dif_neg known]
    exact .inr ⟨known, rfl⟩

theorem insert_moves (events : Events) (e : NewEvent) (id : Nat) :
    Moves (.insert e) (record? events id) (record? (insert events e).2 id) := by
  rcases insert_cases events e with ⟨-, same⟩ | ⟨fresh, added⟩
  · rw [same]
    exact .change (.same _ _)
  · rw [added]
    simp only [record?]
    rw [Table.row?_insert]
    by_cases next : id = events.nextRowid
    · have absent : events.row? id = none := by
        cases found : events.row? id with
        | none => rfl
        | some r =>
          obtain ⟨member, same⟩ := Table.row?_mem found
          have below := events.lt_nextRowid member
          omega
      rw [if_pos next, absent, Option.map_some, Option.map_none, toRecord_inserted]
      split
      · rename_i blank
        exact .blankIv blank
      · exact .change .inserted
    · rw [if_neg next]
      exact .change (.same _ _)

theorem pruneBatch_moves (plan : Plan) (events : Events) (now deliveredDays ledgerDays : Int) (limit id : Nat) :
    Moves (.pruneBatch now deliveredDays ledgerDays limit) (record? events id)
      (record? (EventsRepo.pruneBatch plan events now deliveredDays ledgerDays limit).2 id) := by
  unfold EventsRepo.pruneBatch
  split
  · exact .change (.same _ _)
  rename_i wipeCutoff deleteCutoff _
  show Moves _ _ (record? (EventsRepo.pruneTo plan events wipeCutoff deleteCutoff limit).2 id)
  unfold EventsRepo.pruneTo
  simp only
  split
  · split
    · exact .change (.same _ _)
    · unfold record?
      rw [Table.row?_delete]
      cases found : events.row? id with
      | none => exact .change (.same _ _)
      | some r =>
        rw [Option.filter_some]
        split
        · exact .change (.same _ _)
        · rename_i taken
          have listed : (idIn ((EventsRepo.deleteRows plan events
              deleteCutoff limit).map EventRow.id) r).holds := by
            simpa using taken
          have picked := row_of_mem_ids (fun r member => (mem_deleteRows member).1) found listed
          exact .change (.deleted (mem_deleteRows picked).2.1)
  · show Moves _ _ (record? (events.update (idIn ((EventsRepo.wipeRows plan events
      wipeCutoff limit).map EventRow.id)) .setWiped
      (fun _ => rfl) fun _ => rfl) id)
    refine Moves.of_update fun r found taken => ?_
    have picked := row_of_mem_ids (fun r member => (mem_wipeRows member).1) found taken
    exact .change (.step (.wipe (mem_wipeRows picked).2.1))

/-- What any call does to the record of an id. -/
theorem record?_apply (plan : Plan) (events : Events) (op : StoreOp) (id : Nat) :
    Moves op (record? events id) (record? (apply plan events op).2 id) := by
  cases op with
  | insert e => exact insert_moves events e id
  | routesWithDueEvents now => exact .change (.same _ _)
  | claimDue routeId now limit lease =>
    show Moves _ _ (record? (EventsRepo.claimDue events routeId now limit lease.owner lease.until_).2 id)
    unfold EventsRepo.claimDue
    simp only
    split
    · exact .change (.same _ _)
    · refine Moves.of_update fun r found taken => ?_
      have picked := row_of_mem_ids (fun r member => (Table.mem_select.mp (List.mem_of_mem_take member)).1)
        found taken
      have due := (Table.mem_select.mp (List.mem_of_mem_take picked)).2
      rw [Truth.holds_and, holds_routeIs, holds_dueAt, Bool.and_eq_true, beq_iff_eq] at due
      exact .change (.step (.claim due.2 due.1))
  | markDelivered ids deliveredAt bulkRequestId =>
    show Moves _ _ (record? (EventsRepo.markDelivered events ids deliveredAt bulkRequestId) id)
    unfold EventsRepo.markDelivered
    split
    · exact .change (.same _ _)
    · refine Moves.of_update fun r found taken => ?_
      rw [holds_idIn, List.contains_iff_mem] at taken
      exact .change (.step (.deliver taken))
  | markFailed ids nextAttemptAt error =>
    show Moves _ _ (record? (EventsRepo.markFailed events ids nextAttemptAt error) id)
    unfold EventsRepo.markFailed
    split
    · exact .change (.same _ _)
    · refine Moves.of_update fun r found taken => ?_
      rw [holds_idIn, List.contains_iff_mem] at taken
      exact .failOnce taken
  | markParked ids error =>
    show Moves _ _ (record? (EventsRepo.markParked events ids error) id)
    unfold EventsRepo.markParked
    split
    · exact .change (.same _ _)
    · refine Moves.of_update fun r found taken => ?_
      rw [holds_idIn, List.contains_iff_mem] at taken
      exact .change (.step (.park taken))
  | releaseDelivering ids nextAttemptAt error =>
    show Moves _ _ (record? (EventsRepo.releaseDelivering events ids nextAttemptAt error).2 id)
    unfold EventsRepo.releaseDelivering
    simp only
    split
    · exact .change (.same _ _)
    · show Moves _ _ (record? (events.update
        (fun r => Truth.and (statusIn [.delivering] r) (idIn ids r)) (.setRetry nextAttemptAt error)
        (fun _ => rfl) fun _ => rfl) id)
      refine Moves.of_update fun r found taken => ?_
      rw [Truth.holds_and, holds_statusIn, holds_idIn, Bool.and_eq_true, List.contains_iff_mem,
        List.contains_iff_mem, List.mem_singleton] at taken
      exact .change (.step (.release taken.2 taken.1))
  | recoverDelivering now owner =>
    show Moves _ _ (record? (events.update (EventsRepo.recoverable now owner) (.setRecovered now)
      (fun _ => rfl) fun _ => rfl) id)
    refine Moves.of_update fun r found taken => ?_
    rw [holds_recoverable] at taken
    exact .change (.step (.recover taken))
  | parkExpired now maxAgeMs =>
    show Moves _ _ (record? (events.update (EventsRepo.expired (now - maxAgeMs)) .setExpired
      (fun _ => rfl) fun _ => rfl) id)
    refine Moves.of_update fun r found taken => ?_
    rw [holds_expired] at taken
    exact .change (.step (.expire taken))
  | pruneBatch now deliveredDays ledgerDays limit =>
    exact pruneBatch_moves plan events now deliveredDays ledgerDays limit id
  | replay id' now =>
    show Moves _ _ (record? (events.update
      (fun r => Truth.and (some (r.id == id')) (statusIn [.parked] r)) (.setReplayed now)
      (fun _ => rfl) fun _ => rfl) id)
    refine Moves.of_update fun r found taken => ?_
    rw [Truth.holds_and, Truth.holds_some, holds_parked, Bool.and_eq_true, beq_iff_eq,
      beq_iff_eq] at taken
    obtain ⟨rfl, parked⟩ := taken
    exact .change (.step (.requeue (r := toRecord r) parked))
  | replayAllParked now =>
    show Moves _ _ (record? (events.update (statusIn [.parked]) (.setReplayed now)
      (fun _ => rfl) fun _ => rfl) id)
    refine Moves.of_update fun r found taken => ?_
    rw [holds_parked, beq_iff_eq] at taken
    exact .change (.step (.requeueAll taken))

/-! ## What calls answer -/

/-- The records of the table. -/
def records (events : Events) : List EventRecord := events.rows.map toRecord

theorem record?_eq (events : Events) (id : Nat) :
    record? events id = (records events).find? fun r => r.id == id := by
  unfold record? records Table.row?
  rw [List.find?_map]
  rfl

theorem insert_inserted_iff (events : Events) (e : NewEvent) (id : Nat) :
    (insert events e).1 = .inserted id ↔
      record? events id = none ∧ (record? (insert events e).2 id).isSome := by
  rcases insert_cases events e with ⟨-, same⟩ | ⟨fresh, added⟩
  · rw [same]
    refine iff_of_false (fun same => by cases same) ?_
    rintro ⟨absent, present⟩
    rw [absent] at present
    cases present
  · rw [added]
    simp only [record?]
    rw [Table.row?_insert]
    constructor
    · intro same
      cases same
      rw [if_pos rfl]
      refine ⟨?_, rfl⟩
      cases found : events.row? events.nextRowid with
      | none => rfl
      | some r =>
        obtain ⟨member, same⟩ := Table.row?_mem found
        have below := events.lt_nextRowid member
        omega
    · rintro ⟨absent, present⟩
      by_cases next : id = events.nextRowid
      · rw [next]
      · rw [if_neg next, absent] at present
        cases present

/-- After an insert its key is one of a record. -/
theorem known_insert (events : Events) (e : NewEvent) :
    e.idempotencyKey ∈ (records (insert events e).2).map fun r => r.idempotencyKey := by
  unfold records
  rw [List.map_map]
  rcases insert_cases events e with ⟨known, same⟩ | ⟨fresh, added⟩
  · rw [same]
    exact known
  · rw [added]
    exact List.mem_map.mpr ⟨.inserted (insertRow e) events.nextRowid,
      List.mem_append_right _ (List.mem_singleton.mpr rfl), rfl⟩

/-- The rows `claimDue` selects. -/
def dueRows (events : Events) (routeId : String) (now : Int) (limit : Nat) : List EventRow :=
  (events.select fun r => .and (routeIs routeId r) (dueAt now r)).take limit

theorem dueRows_records (events : Events) (routeId : String) (now : Int) (limit : Nat) :
    (dueRows events routeId now limit).map toRecord =
      ((records events).filter (EventRecord.claimable routeId now)).take limit := by
  unfold dueRows Table.select records
  rw [List.filter_map, List.map_take]
  congr 2
  refine List.filter_congr fun r _ => ?_
  rw [Truth.holds_and, holds_routeIs, holds_dueAt]
  rfl

theorem claimed_records (events : Events) (routeId : String) (now : Int) (limit : Nat) (lease : Lease) :
    (EventsRepo.claimDue events routeId now limit lease.owner lease.until_).1.map toRecord =
      (((records events).filter (EventRecord.claimable routeId now)).take limit).map
        (.claim now lease) := by
  rw [← dueRows_records, List.map_map]
  show ((dueRows events routeId now limit).map _).map toRecord = _
  rw [List.map_map]
  rfl

/-- A claimed record is what the table holds then. -/
theorem record?_of_claimed {routeId : String} {now : Int} {limit : Nat} {lease : Lease}
    {r : EventRecord}
    (member : r ∈ (((records events).filter (EventRecord.claimable routeId now)).take limit).map
      (.claim now lease)) :
    record? (EventsRepo.claimDue events routeId now limit lease.owner lease.until_).2 r.id = some r := by
  rw [← dueRows_records, List.map_map] at member
  obtain ⟨row, picked, rfl⟩ := List.mem_map.mp member
  have there : row ∈ events.rows := (Table.mem_select.mp (List.mem_of_mem_take picked)).1
  have some_ : ¬ (dueRows events routeId now limit).isEmpty := by
    rw [List.isEmpty_iff]
    exact List.ne_nil_of_mem picked
  unfold EventsRepo.claimDue
  refine (congrArg (fun events => record? events row.id) (if_neg some_)).trans ?_
  refine (congrArg (Option.map toRecord) (Table.row?_update _ _ _ _ row.id)).trans ?_
  rw [Table.row?_of_mem there, Option.map_some, Option.map_some, holds_idIn]
  have listed : ((dueRows events routeId now limit).map EventRow.id).contains row.id :=
    List.contains_iff_mem.mpr (List.mem_map_of_mem picked)
  exact congrArg (fun r => some (toRecord r)) (if_pos listed)

/-- The rows a limited query returns, in whatever order it visits them. -/
theorem Picks.visited (plan : Plan) (events : Events) (limit : Nat) {p : EventRow → Truth}
    {test : EventRecord → Bool} (same : ∀ r, (p r).holds = test (toRecord r)) :
    Picks limit test (records events)
      (((plan.order (events.select p)).take limit).map toRecord) where
  distinct := by
    rw [List.map_map]
    show (((plan.order (events.select p)).take limit).map EventRow.id).Nodup
    have visited : ((plan.order (events.select p)).map EventRow.id).Nodup :=
      ((plan.perm _).map _).nodup_iff.mpr (Table.ids_nodup.sublist (List.filter_sublist.map _))
    exact visited.sublist ((List.take_sublist _ _).map _)
  taken r picked := by
    obtain ⟨row, taken, rfl⟩ := List.mem_map.mp picked
    obtain ⟨there, holds⟩ := Table.mem_select.mp ((plan.perm _).mem_iff.mp (List.mem_of_mem_take taken))
    rw [same] at holds
    exact ⟨List.mem_map_of_mem there, holds⟩
  count := by
    rw [List.length_map, List.length_take, (plan.perm _).length_eq]
    unfold Table.select records
    rw [← List.countP_eq_length_filter, List.countP_map]
    congr 2
    funext r
    exact same r

/-- A statement over the ids of some rows counts each of them once. -/
theorem count_idIn {rows : List EventRow} (sub : ∀ r ∈ rows, r ∈ events.rows)
    (distinct : (rows.map EventRow.id).Nodup) :
    events.count (idIn (rows.map EventRow.id)) = rows.length := by
  have listed : ((events.rows.map EventRow.id).filter fun n => (rows.map EventRow.id).contains n).Perm
      (rows.map EventRow.id) := by
    refine (List.perm_ext_iff_of_nodup (Table.ids_nodup.filter _) distinct).mpr fun n => ?_
    rw [List.mem_filter, List.contains_iff_mem, and_iff_right_iff_imp]
    intro member
    obtain ⟨r, there, rfl⟩ := List.mem_map.mp member
    exact List.mem_map_of_mem (sub r there)
  have length := listed.length_eq
  rw [List.filter_map, List.length_map, List.length_map, ← List.countP_eq_length_filter] at length
  rw [← length]
  unfold Table.count
  congr 1
  funext r
  exact holds_idIn r _

theorem ids_toRecord (rows : List EventRow) :
    ((rows.map toRecord).map fun p => p.id) = rows.map EventRow.id := List.map_map

/-- What deleting by ids leaves. -/
theorem records_delete (events : Events) (rows : List EventRow) :
    records (events.delete (idIn (rows.map EventRow.id))) =
      (records events).filter fun r => r.id ∉ (rows.map toRecord).map fun p => p.id := by
  unfold records Table.delete
  rw [List.filter_map]
  refine congrArg (List.map toRecord) (List.filter_congr fun r _ => ?_)
  rw [holds_idIn, ids_toRecord, Function.comp_apply, toRecord_id, Bool.eq_iff_iff, decide_eq_true_iff,
    Bool.not_eq_true', ← List.contains_iff_mem, Bool.not_eq_true]

/-- What wiping by ids leaves. -/
theorem records_wipe (events : Events) (rows : List EventRow) (ids : ∀ r : EventRow, r.setWiped.id = r.id)
    (keys : ∀ r : EventRow, r.setWiped.idempotencyKey = r.idempotencyKey) :
    records (events.update (idIn (rows.map EventRow.id)) .setWiped ids keys) =
      (records events).map fun r =>
        if r.id ∈ (rows.map toRecord).map fun p => p.id then r.wipe else r := by
  unfold records Table.update
  rw [List.map_map, List.map_map]
  refine List.map_congr_left fun r _ => ?_
  rw [ids_toRecord, Function.comp_apply, Function.comp_apply, holds_idIn, toRecord_id]
  simp only [List.contains_iff_mem]
  split
  · exact toRecord_setWiped r
  · rfl

theorem prunes_pruneTo (plan : Plan) (events : Events) (wipeCutoff deleteCutoff : Int) (limit : Nat) :
    Prunes wipeCutoff deleteCutoff limit (records events)
      (EventsRepo.pruneTo plan events wipeCutoff deleteCutoff limit).1
      (records (EventsRepo.pruneTo plan events wipeCutoff deleteCutoff limit).2) := by
  have wipes : Picks limit (EventRecord.wipeable wipeCutoff) (records events)
      ((EventsRepo.wipeRows plan events wipeCutoff limit).map toRecord) := by
    refine Picks.visited plan events limit fun r => ?_
    rw [Truth.holds_and, holds_ended, Truth.holds_some]
    unfold EventRecord.wipeable EventRecord.endedBefore
    congr 1
    show decide (0 < r.payloadEnc.length) = !r.payloadEnc.isEmpty
    cases r.payloadEnc <;> simp
  have deletes : Picks limit (EventRecord.endedBefore deleteCutoff) (records events)
      ((EventsRepo.deleteRows plan events deleteCutoff limit).map toRecord) :=
    Picks.visited plan events limit fun r => holds_ended r _
  unfold EventsRepo.pruneTo
  simp only
  split
  · rename_i none_
    have nothing : min limit ((records events).countP
        (EventRecord.wipeable wipeCutoff)) = 0 := by
      rw [← wipes.count, List.length_map, ← List.length_map EventRow.id, List.isEmpty_iff.mp none_,
        List.length_nil]
    split
    · rename_i kept
      have picked : EventsRepo.deleteRows plan events deleteCutoff limit = [] :=
        List.map_eq_nil_iff.mp (List.isEmpty_iff.mp kept)
      have result := Prunes.delete nothing deletes
      rw [picked] at result
      simpa using result
    · have result := Prunes.delete nothing deletes
      rw [List.length_map, ← records_delete, ← count_idIn (fun r member => (mem_deleteRows member).1)
        (by simpa [Function.comp_def] using deletes.distinct)] at result
      exact result
  · rename_i some_
    have result := @Prunes.wipe _ deleteCutoff _ _ _ wipes (by simpa using some_)
    rw [List.length_map, ← records_wipe events _ (fun _ => rfl) (fun _ => rfl),
      ← count_idIn (fun r member => (mem_wipeRows member).1)
        (by simpa [Function.comp_def] using wipes.distinct)] at result
    exact result

theorem prunes_pruneBatch (plan : Plan) (events : Events) (now deliveredDays ledgerDays : Int)
    (limit : Nat) :
    PruneBatch now deliveredDays ledgerDays limit (records events)
      (EventsRepo.pruneBatch plan events now deliveredDays ledgerDays limit).1
      (records (EventsRepo.pruneBatch plan events now deliveredDays ledgerDays limit).2) := by
  unfold EventsRepo.pruneBatch
  split
  · rename_i undated
    exact .undated undated
  · rename_i dated
    exact .pruned dated (prunes_pruneTo plan events _ _ limit)

end SqliteStore

/-- `SqliteEventStore` as its callers see it. -/
def sqliteRecords : RecordStore where
  State := Events
  Choice := Plan
  empty := .empty
  apply := SqliteStore.apply
  getById := SqliteStore.getById
  records := SqliteStore.records
  Sound _ := True
  sound_empty := trivial
  sound_apply _ _ _ _ := trivial
  records_empty := rfl
  sorted events _ := List.pairwise_map.mpr events.sorted
  keys events _ := by
    unfold SqliteStore.records
    rw [List.map_map]
    exact events.unique
  getById_eq events id _ := SqliteStore.record?_eq events id
  moves plan events op id _ := SqliteStore.record?_apply plan events op id
  inserted _ events e id _ := SqliteStore.insert_inserted_iff events e id
  known _ events e _ := SqliteStore.known_insert events e
  claimed _ events routeId now limit lease _ := SqliteStore.claimed_records events routeId now limit lease
  holds _ _ _ _ _ _ _ _ member := SqliteStore.record?_of_claimed member
  prunes plan events now deliveredDays ledgerDays limit _ :=
    SqliteStore.prunes_pruneBatch plan events now deliveredDays ledgerDays limit

end EndCloseRelay
