import EndCloseRelay.Engine.Accounting
import EndCloseRelay.Engine.StoreContract
import EndCloseRelay.Relational.Grouping
import EndCloseRelay.Sqlite.Stores

/-!
# The two stores agree

Each call to either store answers and leaves what the contract allows, and so
the two hold the same records under corresponding ids, and answer alike,
whatever calls are made to both.
-/

namespace EndCloseRelay

open Interaction MemoryStore Relational

/-- A call as the engine makes it: no id twice, and no iv that is empty. -/
def StoreOp.Sane : StoreOp → Prop
  | .insert e => e.payloadIv ≠ some []
  | .markDelivered ids _ _ | .markFailed ids _ _ | .markParked ids _ | .releaseDelivering ids _ _ => ids.Nodup
  | _ => True

/-! ## The store in memory -/

/-- The records of one id that meet a test: one, if any does. -/
theorem countP_named {records : List EventRecord} (distinct : (records.map fun r => r.id).Nodup)
    (test : EventRecord → Bool) (id : Nat) :
    (records.countP fun r => test r && r.id == id) =
      if records.any fun r => r.id == id && test r then 1 else 0 := by
  induction records with
  | nil => rfl
  | cons r records ih =>
    rw [List.map_cons, List.nodup_cons] at distinct
    rw [List.countP_cons, List.any_cons, ih distinct.2]
    by_cases same : r.id = id
    · have none_ : (records.any fun r' => r'.id == id && test r') = false := by
        rw [List.any_eq_false]
        rintro r' member passes
        refine distinct.1 ?_
        rw [same, ← beq_iff_eq.mp (Bool.and_eq_true_iff.mp passes).1]
        exact List.mem_map_of_mem member
      rw [none_, beq_iff_eq.mpr same, Bool.and_true, Bool.true_and, Bool.or_false]
      simp
    · have other : (r.id == id) = false := by
        rw [Bool.eq_false_iff, Ne, beq_iff_eq]
        exact same
      rw [other, Bool.and_false, Bool.false_and, Bool.false_or]
      simp

namespace MemoryStore

variable {store : MemoryStore}

theorem mem_routesWithDueEvents (now : Int) (routeId : String) :
    routeId ∈ store.routesWithDueEvents now ↔ ∃ r ∈ store.rows, r.routeId = routeId ∧ r.isDue now := by
  have every : ∀ (rows : List EventRecord) (out : List String),
      routeId ∈ rows.foldl (fun out r => if r.routeId ∈ out then out else out ++ [r.routeId]) out ↔
        routeId ∈ out ∨ ∃ r ∈ rows, r.routeId = routeId := by
    intro rows
    induction rows with
    | nil => simp
    | cons r rows ih =>
      intro out
      rw [List.foldl_cons, ih]
      have grown : routeId ∈ (if r.routeId ∈ out then out else out ++ [r.routeId]) ↔
          routeId ∈ out ∨ r.routeId = routeId := by
        split
        · rename_i listed
          exact ⟨.inl, fun there => there.elim id fun same => same ▸ listed⟩
        · rw [List.mem_append, List.mem_singleton, @eq_comm _ routeId]
      rw [grown, or_assoc, List.exists_mem_cons_iff]
  unfold routesWithDueEvents
  rw [every]
  constructor
  · rintro (none_ | ⟨r, member, of⟩)
    · cases none_
    · obtain ⟨there, due⟩ := List.mem_filter.mp member
      exact ⟨r, there, of, due⟩
  · rintro ⟨r, there, of, due⟩
    exact .inr ⟨r, List.mem_filter.mpr ⟨there, due⟩, of⟩

/-- Changing rows by the test of one id and then by that of others. -/
theorem changeWhere_ids {f : EventRecord → EventRecord} (keeps : ∀ r, (f r).id = r.id) {first : Nat}
    {ids : List Nat} (absent : first ∉ ids) (rows : List EventRecord) :
    changeWhere (fun r => ids.contains r.id) f (changeWhere (fun r => r.id == first) f rows) =
      changeWhere (fun r => (first :: ids).contains r.id) f rows := by
  unfold changeWhere
  rw [List.map_map]
  refine List.map_congr_left fun r _ => ?_
  simp only [Function.comp_apply, List.contains_cons, Bool.or_eq_true, beq_iff_eq, List.contains_iff_mem]
  by_cases same : r.id = first
  · have elsewhere : (f r).id ∉ ids := by
      rw [keeps, same]
      exact absent
    rw [if_pos same, if_neg elsewhere, if_pos (.inl same)]
  · rw [if_neg same]
    simp only [same, false_or]

theorem rows_updatePicked {f : EventRecord → EventRecord} (keeps : ∀ r, (f r).id = r.id) {ids : List Nat}
    (nodup : ids.Nodup) :
    (store.updatePicked f keeps ids).rows = changeWhere (fun r => ids.contains r.id) f store.rows := by
  unfold updatePicked
  induction ids generalizing store with
  | nil => exact (List.map_id _).symm
  | cons first ids ih =>
    obtain ⟨absent, nodup⟩ := List.nodup_cons.mp nodup
    rw [List.foldl_cons, ih nodup]
    exact changeWhere_ids keeps absent store.rows

/-- Looking a row up and testing it, as a test of all rows. -/
theorem any_row? (test : EventRecord → Bool) (id : Nat) :
    (store.row? id).any test = store.rows.any fun r => r.id == id && test r := by
  rw [Bool.eq_iff_iff, List.any_eq_true]
  constructor
  · intro passes
    cases found : store.row? id with
    | none =>
      rw [found] at passes
      cases passes
    | some r =>
      rw [found] at passes
      obtain ⟨member, named⟩ := row?_mem found
      exact ⟨r, member, Bool.and_eq_true_iff.mpr ⟨beq_iff_eq.mpr named, passes⟩⟩
  · rintro ⟨r, member, passes⟩
    obtain ⟨named, passes⟩ := Bool.and_eq_true_iff.mp passes
    have found := row?_of_mem member
    rw [beq_iff_eq.mp named] at found
    rw [found]
    exact passes

/-- The rows of one id that meet a test: one, if the row does. -/
theorem countP_id (test : EventRecord → Bool) (id : Nat) :
    (store.rows.countP fun r => test r && r.id == id) =
      if (store.row? id).any test then 1 else 0 := by
  rw [countP_named store.distinct]
  exact if_congr (by rw [any_row?]) rfl rfl

/-- The rows two tests take, that no row meets both of. -/
theorem countP_either {p q : EventRecord → Bool} {rows : List EventRecord}
    (apart : ∀ r ∈ rows, p r → ¬ q r) :
    (rows.countP fun r => p r || q r) = rows.countP p + rows.countP q := by
  induction rows with
  | nil => rfl
  | cons r rows ih =>
    have here := apart r List.mem_cons_self
    rw [List.countP_cons, List.countP_cons, List.countP_cons,
      ih fun r member => apart r (List.mem_cons_of_mem _ member)]
    by_cases p r <;> by_cases q r <;> simp_all <;> omega

/-- What one round of `releaseDelivering` counts and leaves. -/
theorem releaseRow_eq (nextAttemptAt : Int) (error : String) (count : Nat) (id : Nat) :
    (releaseRow nextAttemptAt error (count, store) id).1 =
      count + (store.rows.countP fun r => r.status == .delivering && r.id == id) ∧
    (releaseRow nextAttemptAt error (count, store) id).2.rows =
      changeWhere (fun r => r.id == id)
        (fun r => if r.status = .delivering then r.fail nextAttemptAt error else r) store.rows := by
  rw [countP_id (fun r => r.status == .delivering)]
  unfold releaseRow
  cases found : store.row? id with
  | none =>
    refine ⟨rfl, (List.map_id _).symm.trans (List.map_congr_left fun r member => ?_)⟩
    have other := List.find?_eq_none.mp found r member
    rw [if_neg other]
    rfl
  | some r =>
    have only : ∀ r' ∈ store.rows, (r'.id == id) → r' = r := by
      intro r' member named
      have there := row?_of_mem member
      rw [beq_iff_eq.mp named, found] at there
      exact (Option.some.inj there).symm
    by_cases held : r.status = .delivering
    · simp only [held, if_true, Option.any_some, beq_self_eq_true]
      refine ⟨trivial, List.map_congr_left fun r' member => ?_⟩
      split
      · rename_i named
        rw [only r' member named]
        exact (if_pos held).symm
      · rfl
    · simp only [held, if_false, Option.any_some]
      refine ⟨by simp [held], (List.map_id _).symm.trans (List.map_congr_left fun r' member => ?_)⟩
      split
      · rename_i named
        rw [only r' member named]
        exact (if_neg held).symm
      · rfl

theorem releaseDelivering_eq {ids : List Nat} (nodup : ids.Nodup) (nextAttemptAt : Int) (error : String) :
    (store.releaseDelivering ids nextAttemptAt error).1 =
      (store.rows.countP fun r => r.status == .delivering && ids.contains r.id) ∧
    (store.releaseDelivering ids nextAttemptAt error).2.rows =
      changeWhere (fun r => ids.contains r.id)
        (fun r => if r.status = .delivering then r.fail nextAttemptAt error else r) store.rows := by
  suffices every : ∀ count, (ids.foldl (releaseRow nextAttemptAt error) (count, store)).1 =
      count + (store.rows.countP fun r => r.status == .delivering && ids.contains r.id) ∧
    (ids.foldl (releaseRow nextAttemptAt error) (count, store)).2.rows =
      changeWhere (fun r => ids.contains r.id)
        (fun r => if r.status = .delivering then r.fail nextAttemptAt error else r) store.rows by
    have from_ := every 0
    rw [Nat.zero_add] at from_
    exact from_
  have keeps : ∀ r : EventRecord,
      (if r.status = .delivering then r.fail nextAttemptAt error else r).id = r.id := by
    intro r
    split <;> rfl
  induction ids generalizing store with
  | nil =>
    intro count
    exact ⟨by simp, (List.map_id _).symm⟩
  | cons first ids ih =>
    intro count
    obtain ⟨absent, nodup⟩ := List.nodup_cons.mp nodup
    have one := @releaseRow_eq store nextAttemptAt error count first
    rw [List.foldl_cons]
    generalize releaseRow nextAttemptAt error (count, store) first = next at one ⊢
    obtain ⟨count', store'⟩ := next
    obtain ⟨counted, left⟩ := one
    obtain ⟨rest, leaves⟩ := @ih store' nodup count'
    have others : (store'.rows.countP fun r => r.status == .delivering && ids.contains r.id) =
        store.rows.countP fun r => r.status == .delivering && ids.contains r.id := by
      simp only at left
      rw [left]
      unfold changeWhere
      rw [List.countP_map]
      refine List.countP_congr fun r _ => ?_
      simp only [Function.comp_apply]
      split
      · rename_i named
        have elsewhere : ids.contains r.id = false := by
          rw [beq_iff_eq.mp named, Bool.eq_false_iff, Ne, List.contains_iff_mem]
          exact absent
        rw [keeps, elsewhere, Bool.and_false, Bool.and_false]
      · rfl
    refine ⟨?_, ?_⟩
    · refine rest.trans ?_
      rw [others]
      simp only at counted
      rw [counted, Nat.add_assoc, ← countP_either]
      · refine congrArg (count + ·) (List.countP_congr fun r _ => ?_)
        rw [List.contains_cons, Bool.and_or_distrib_left]
      · intro r _ one another
        rw [Bool.and_eq_true, beq_iff_eq, beq_iff_eq] at one
        rw [Bool.and_eq_true, List.contains_iff_mem, one.2] at another
        exact absent another.2
    · refine leaves.trans ?_
      simp only at left
      rw [left]
      exact changeWhere_ids keeps absent store.rows

theorem replay_rows (id : Nat) (now : Int) : (store.replay id now).2.rows =
    changeWhere (fun r => r.id == id && r.status == .parked) (.requeue now) store.rows := by
  unfold MemoryStore.replay
  cases found : store.row? id with
  | none =>
    refine (List.map_id _).symm.trans (List.map_congr_left fun r member => ?_)
    have other := List.find?_eq_none.mp found r member
    rw [if_neg fun passes => other (Bool.and_eq_true_iff.mp passes).1]
    rfl
  | some r =>
    have only : ∀ r' ∈ store.rows, (r'.id == id) → r' = r := by
      intro r' member named
      have there := row?_of_mem member
      rw [beq_iff_eq.mp named, found] at there
      exact (Option.some.inj there).symm
    by_cases held : r.status = .parked
    · simp only [held, if_true]
      refine List.map_congr_left fun r' member => if_congr ?_ rfl rfl
      rw [Bool.and_eq_true]
      refine ⟨fun named => ⟨named, ?_⟩, And.left⟩
      rw [only r' member named, held]
      rfl
    · simp only [held, if_false]
      refine (List.map_id _).symm.trans (List.map_congr_left fun r' member => ?_)
      rw [if_neg fun passes => ?_]
      · rfl
      · obtain ⟨named, parked⟩ := Bool.and_eq_true_iff.mp passes
        rw [only r' member named] at parked
        exact held (beq_iff_eq.mp parked)

theorem replay_answer (id : Nat) (now : Int) :
    (store.replay id now).1 = (store.row? id).any fun r => r.status == .parked := by
  unfold MemoryStore.replay
  cases store.row? id with
  | none => rfl
  | some r => by_cases held : r.status = .parked <;> simp [held]

/-- Each call to the store in memory is served as the contract says. -/
theorem serves (sound : store.Sound) {op : StoreOp} (sane : op.Sane) :
    Serves store.rows op (store.apply op).1 (store.apply op).2.rows := by
  cases op with
  | insert e =>
    show Serves store.rows (.insert e) (store.insert e).1 (store.insert e).2.rows
    unfold MemoryStore.insert
    cases known : store.byKey.lookup e.idempotencyKey with
    | none => exact .inserted (sound.lookup_none.mp known) store.fresh
    | some id =>
      refine .duplicate (by_contra fun fresh => ?_)
      rw [sound.lookup_none.mpr fresh] at known
      cases known
  | routesWithDueEvents now =>
    exact .due (store.nodup_routesWithDueEvents now) (mem_routesWithDueEvents now)
  | claimDue routeId now limit lease => exact .claimed
  | markDelivered ids deliveredAt bulkRequestId =>
    have left := @rows_updatePicked store _ (EventRecord.deliver_id deliveredAt bulkRequestId) ids sane
    show Serves store.rows (.markDelivered ids deliveredAt bulkRequestId) () (store.updatePicked _ _ ids).rows
    rw [left]
    exact .delivered
  | markFailed ids nextAttemptAt error =>
    have left := @rows_updatePicked store _ (EventRecord.fail_id nextAttemptAt error) ids sane
    show Serves store.rows (.markFailed ids nextAttemptAt error) () (store.updatePicked _ _ ids).rows
    rw [left]
    exact .failed
  | markParked ids error =>
    have left := @rows_updatePicked store _ (EventRecord.park_id error) ids sane
    show Serves store.rows (.markParked ids error) () (store.updatePicked _ _ ids).rows
    rw [left]
    exact .parked
  | releaseDelivering ids nextAttemptAt error =>
    obtain ⟨count, left⟩ := @releaseDelivering_eq store ids sane nextAttemptAt error
    have same : changeWhere (fun r => ids.contains r.id)
        (fun r => if r.status = .delivering then r.fail nextAttemptAt error else r) store.rows =
        changeWhere (fun r => r.status == .delivering && ids.contains r.id) (.fail nextAttemptAt error)
          store.rows := by
      refine List.map_congr_left fun r _ => ?_
      by_cases held : r.status = .delivering <;> simp [held]
    show Serves store.rows (.releaseDelivering ids nextAttemptAt error)
      (store.releaseDelivering ids nextAttemptAt error).1
      (store.releaseDelivering ids nextAttemptAt error).2.rows
    rw [count, left, same]
    exact .released
  | recoverDelivering now owner => exact .recovered
  | parkExpired now maxAgeMs => exact .expired
  | pruneBatch now deliveredDays ledgerDays limit =>
    exact .pruned (prunes_pruneBatch now deliveredDays ledgerDays limit)
  | replay id now =>
    show Serves store.rows (.replay id now) (store.replay id now).1 (store.replay id now).2.rows
    rw [replay_answer, any_row?, replay_rows]
    exact .replayed
  | replayAllParked now => exact .replayedAll

end MemoryStore

/-! ## The SQLite store -/

namespace SqliteStore

variable {events : Events} {plan : Plan}

theorem records_update {p : EventRow → Truth} {set : EventRow → EventRow}
    {ids : ∀ r, (set r).id = r.id} {keys : ∀ r, (set r).idempotencyKey = r.idempotencyKey}
    {test : EventRecord → Bool} {change : EventRecord → EventRecord}
    (tests : ∀ r, (p r).holds = test (toRecord r)) (changes : ∀ r, toRecord (set r) = change (toRecord r)) :
    records (events.update p set ids keys) = changeWhere test change (records events) := by
  unfold records Table.update changeWhere
  rw [List.map_map, List.map_map]
  refine List.map_congr_left fun r _ => ?_
  rw [Function.comp_apply, Function.comp_apply, tests]
  split
  · exact changes r
  · rfl

theorem count_eq {p : EventRow → Truth} {test : EventRecord → Bool}
    (tests : ∀ r, (p r).holds = test (toRecord r)) : events.count p = (records events).countP test := by
  unfold Table.count records
  rw [List.countP_map]
  exact List.countP_congr fun r _ => by rw [tests, Function.comp_apply]

/-- A statement over no ids changes nothing. -/
theorem changeWhere_nil {ids : List Nat} (none_ : ids.isEmpty) (test : EventRecord → Bool)
    (change : EventRecord → EventRecord) (rows : List EventRecord) :
    changeWhere (fun r => test r && ids.contains r.id) change rows = rows := by
  rw [List.isEmpty_iff.mp none_]
  unfold changeWhere
  simp

theorem holds_named (ids : List Nat) (r : EventRow) :
    (idIn ids r).holds = ids.contains (toRecord r).id := holds_idIn r ids

/-- What a mark of some rows by their ids leaves. -/
theorem records_marked (ids : List Nat) (set : EventRow → EventRow) (change : EventRecord → EventRecord)
    (setIds : ∀ r, (set r).id = r.id) (setKeys : ∀ r, (set r).idempotencyKey = r.idempotencyKey)
    (changes : ∀ r, toRecord (set r) = change (toRecord r)) :
    records (if ids.isEmpty then events else events.update (idIn ids) set setIds setKeys) =
      changeWhere (fun r => ids.contains r.id) change (records events) := by
  split
  · rename_i none_
    have same := changeWhere_nil none_ (fun _ => true) change (records events)
    simp only [Bool.true_and] at same
    exact same.symm
  · exact records_update (holds_named ids) changes

theorem serves_insert {e : NewEvent} (sane : (StoreOp.insert e).Sane) :
    Serves (records events) (.insert e) (apply plan events (.insert e)).1
      (records (apply plan events (.insert e)).2) := by
  show Serves (records events) (.insert e) (insert events e).1 (records (insert events e).2)
  rcases insert_cases events e with ⟨known, same⟩ | ⟨fresh, added⟩
  · rw [same]
    refine .duplicate ?_
    unfold records
    rw [List.map_map]
    exact known
  · rw [added]
    have row : toRecord (.inserted (insertRow e) events.nextRowid) = .ofNew e events.nextRowid := by
      rw [toRecord_inserted, if_neg sane]
    have left : records (Table.insert events (.inserted (insertRow e) events.nextRowid)
        (EventRow.inserted_id _ _) fresh) = records events ++ [.ofNew e events.nextRowid] := by
      unfold records Table.insert
      rw [List.map_append, List.map_singleton, row]
    rw [left]
    refine .inserted ?_ fun r member => ?_
    · unfold records
      rw [List.map_map]
      exact fresh
    · obtain ⟨row, there, rfl⟩ := List.mem_map.mp member
      exact events.lt_nextRowid there

theorem serves_routesWithDueEvents (now : Int) :
    Serves (records events) (.routesWithDueEvents now) (apply plan events (.routesWithDueEvents now)).1
      (records (apply plan events (.routesWithDueEvents now)).2) := by
  refine .due (nodup_eraseDups _) fun routeId => ?_
  show routeId ∈ List.eraseDups _ ↔ _
  rw [List.mem_eraseDups, List.mem_map]
  constructor
  · rintro ⟨r, visited, of⟩
    obtain ⟨there, due⟩ := Table.mem_select.mp ((plan.perm _).mem_iff.mp visited)
    rw [holds_dueAt] at due
    exact ⟨toRecord r, List.mem_map_of_mem there, of, due⟩
  · rintro ⟨record, member, of, due⟩
    obtain ⟨r, there, rfl⟩ := List.mem_map.mp member
    refine ⟨r, (plan.perm _).mem_iff.mpr (Table.mem_select.mpr ⟨there, ?_⟩), of⟩
    rw [holds_dueAt]
    exact due

theorem serves_claimDue (routeId : String) (now : Int) (limit : Nat) (lease : Lease) :
    Serves (records events) (.claimDue routeId now limit lease)
      (apply plan events (.claimDue routeId now limit lease)).1
      (records (apply plan events (.claimDue routeId now limit lease)).2) := by
  have picked : (dueRows events routeId now limit).map toRecord =
      claimOf routeId now limit (records events) := dueRows_records events routeId now limit
  have ids : (claimOf routeId now limit (records events)).map (fun p => p.id) =
      (dueRows events routeId now limit).map EventRow.id := by
    rw [← picked, ids_toRecord]
  have left : records (EventsRepo.claimDue events routeId now limit lease.owner lease.until_).2 =
      changeWhere (fun r => ((claimOf routeId now limit (records events)).map fun p => p.id).contains r.id)
        (.claim now lease) (records events) := by
    rw [ids]
    show records (if (dueRows events routeId now limit).isEmpty then events else events.update
      (idIn ((dueRows events routeId now limit).map EventRow.id)) _ _ _) = _
    have empty : ((dueRows events routeId now limit).map EventRow.id).isEmpty =
        (dueRows events routeId now limit).isEmpty := List.isEmpty_map
    rw [← empty]
    exact records_marked _ _ (.claim now lease) _ _ fun r => toRecord_setDelivering r now lease
  have answer := claimed_records events routeId now limit lease
  show Serves (records events) (.claimDue routeId now limit lease)
    ((EventsRepo.claimDue events routeId now limit lease.owner lease.until_).1.map toRecord)
    (records (EventsRepo.claimDue events routeId now limit lease.owner lease.until_).2)
  rw [left, answer]
  exact .claimed

theorem serves_releaseDelivering (ids : List Nat) (nextAttemptAt : Int) (error : String) :
    Serves (records events) (.releaseDelivering ids nextAttemptAt error)
      (apply plan events (.releaseDelivering ids nextAttemptAt error)).1
      (records (apply plan events (.releaseDelivering ids nextAttemptAt error)).2) := by
  have tests : ∀ r, (Truth.and (statusIn [.delivering] r) (idIn ids r)).holds =
      ((toRecord r).status == .delivering && ids.contains (toRecord r).id) := by
    intro r
    rw [Truth.holds_and, holds_statusIn, holds_idIn]
    simp only [List.contains_cons, List.contains_nil, Bool.or_false]
    rfl
  show Serves (records events) (.releaseDelivering ids nextAttemptAt error)
    (EventsRepo.releaseDelivering events ids nextAttemptAt error).1
    (records (EventsRepo.releaseDelivering events ids nextAttemptAt error).2)
  have answer : EventsRepo.releaseDelivering events ids nextAttemptAt error =
      (events.count fun r => .and (statusIn [.delivering] r) (idIn ids r),
        if ids.isEmpty then events else events.update (fun r => .and (statusIn [.delivering] r) (idIn ids r))
          (.setRetry nextAttemptAt error) (fun _ => rfl) fun _ => rfl) := by
    unfold EventsRepo.releaseDelivering
    simp only
    split
    · rename_i none_
      refine Prod.ext (Eq.symm ?_) rfl
      have named : ∀ r, (idIn ids r).holds = false := by
        intro r
        rw [holds_idIn, List.isEmpty_iff.mp none_]
        rfl
      simp only [Table.count, Truth.holds_and, named, Bool.and_false]
      exact congrFun List.countP_false events.rows
    · rfl
  have counted := @count_eq events _ (fun r => r.status == .delivering && ids.contains r.id) tests
  rw [answer, counted]
  simp only
  split
  · rename_i none_
    have same := changeWhere_nil none_ (fun r => r.status == .delivering) (.fail nextAttemptAt error)
      (records events)
    have serves : Serves (records events) (.releaseDelivering ids nextAttemptAt error) _
      (changeWhere (fun r => r.status == .delivering && ids.contains r.id) _ (records events)) := .released
    rw [same] at serves
    exact serves
  · have left := @records_update events _ (.setRetry nextAttemptAt error) (fun _ => rfl) (fun _ => rfl)
      (fun r => r.status == .delivering && ids.contains r.id) (.fail nextAttemptAt error) tests
      fun r => toRecord_setRetry r nextAttemptAt error
    rw [left]
    exact .released

theorem serves_replay (id : Nat) (now : Int) :
    Serves (records events) (.replay id now) (apply plan events (.replay id now)).1
      (records (apply plan events (.replay id now)).2) := by
  have distinct : ((records events).map fun r => r.id).Nodup := by
    unfold records
    rw [List.map_map]
    exact Table.ids_nodup
  have tests : ∀ r : EventRow, (Truth.and (some (r.id == id)) (statusIn [.parked] r)).holds =
      ((toRecord r).id == id && (toRecord r).status == .parked) := by
    intro r
    rw [Truth.holds_and, Truth.holds_some, holds_parked]
    rfl
  have once : (events.count (fun r => .and (some (r.id == id)) (statusIn [.parked] r)) == 1) =
      (records events).any fun r => r.id == id && r.status == .parked := by
    have counted := @count_eq events _ (fun r => r.id == id && r.status == .parked) tests
    have order : (fun r : EventRecord => r.id == id && r.status == .parked) =
        fun r => r.status == .parked && r.id == id := funext fun r => Bool.and_comm _ _
    rw [counted, order, countP_named distinct, ← order]
    split
    · rename_i found
      rw [found]
      rfl
    · rename_i absent
      rw [Bool.not_eq_true] at absent
      rw [absent]
      rfl
  show Serves (records events) (.replay id now)
    (events.count (fun r => .and (some (r.id == id)) (statusIn [.parked] r)) == 1)
    (records (events.update (fun r => .and (some (r.id == id)) (statusIn [.parked] r)) (.setReplayed now)
      (fun _ => rfl) fun _ => rfl))
  have left := @records_update events _ (.setReplayed now) (fun _ => rfl) (fun _ => rfl)
    (fun r => r.id == id && r.status == .parked) (.requeue now) tests fun r => toRecord_setReplayed r now
  rw [once, left]
  exact .replayed

/-- Each call to the SQLite store is served as the contract says. -/
theorem serves {op : StoreOp} (sane : op.Sane) :
    Serves (records events) op (apply plan events op).1 (records (apply plan events op).2) := by
  cases op with
  | insert e => exact serves_insert sane
  | routesWithDueEvents now => exact serves_routesWithDueEvents now
  | claimDue routeId now limit lease => exact serves_claimDue routeId now limit lease
  | markDelivered ids deliveredAt bulkRequestId =>
    show Serves (records events) (.markDelivered ids deliveredAt bulkRequestId) ()
      (records (EventsRepo.markDelivered events ids deliveredAt bulkRequestId))
    have left := @records_marked events ids (.setDelivered deliveredAt bulkRequestId)
      (.deliver deliveredAt bulkRequestId) (fun _ => rfl) (fun _ => rfl) fun r => toRecord_setDelivered r _ _
    unfold EventsRepo.markDelivered
    rw [left]
    exact .delivered
  | markFailed ids nextAttemptAt error =>
    show Serves (records events) (.markFailed ids nextAttemptAt error) ()
      (records (EventsRepo.markFailed events ids nextAttemptAt error))
    have left := @records_marked events ids (.setRetry nextAttemptAt error) (.fail nextAttemptAt error)
      (fun _ => rfl) (fun _ => rfl) fun r => toRecord_setRetry r _ _
    unfold EventsRepo.markFailed
    rw [left]
    exact .failed
  | markParked ids error =>
    show Serves (records events) (.markParked ids error) ()
      (records (EventsRepo.markParked events ids error))
    have left := @records_marked events ids (.setParked error) (.park error)
      (fun _ => rfl) (fun _ => rfl) fun r => toRecord_setParked r _
    unfold EventsRepo.markParked
    rw [left]
    exact .parked
  | releaseDelivering ids nextAttemptAt error => exact serves_releaseDelivering ids nextAttemptAt error
  | recoverDelivering now owner =>
    show Serves (records events) (.recoverDelivering now owner)
      (events.count (EventsRepo.recoverable now owner))
      (records (events.update (EventsRepo.recoverable now owner) (.setRecovered now) (fun _ => rfl) fun _ => rfl))
    have left := @records_update events _ (.setRecovered now) (fun _ => rfl) (fun _ => rfl)
      (fun r => r.recoverable now owner) (.recover now) (fun r => holds_recoverable r now owner)
      fun r => toRecord_setRecovered r now
    have counted := @count_eq events _ (fun r => r.recoverable now owner) fun r => holds_recoverable r now owner
    rw [left, counted]
    exact .recovered
  | parkExpired now maxAgeMs =>
    show Serves (records events) (.parkExpired now maxAgeMs)
      (events.count (EventsRepo.expired (now - maxAgeMs)))
      (records (events.update (EventsRepo.expired (now - maxAgeMs)) .setExpired (fun _ => rfl) fun _ => rfl))
    have left := @records_update events _ .setExpired (fun _ => rfl) (fun _ => rfl)
      (fun r => r.expired (now - maxAgeMs)) .expire (fun r => holds_expired r (now - maxAgeMs))
      toRecord_setExpired
    have counted := @count_eq events _ (fun r => r.expired (now - maxAgeMs))
      fun r => holds_expired r (now - maxAgeMs)
    rw [left, counted]
    exact .expired
  | pruneBatch now deliveredDays ledgerDays limit =>
    exact .pruned (prunes_pruneBatch plan events now deliveredDays ledgerDays limit)
  | replay id now => exact serves_replay id now
  | replayAllParked now =>
    show Serves (records events) (.replayAllParked now) (events.count (statusIn [.parked]))
      (records (events.update (statusIn [.parked]) (.setReplayed now) (fun _ => rfl) fun _ => rfl))
    have left := @records_update events _ (.setReplayed now) (fun _ => rfl) (fun _ => rfl)
      (fun r => r.status == .parked) (.requeue now) holds_parked fun r => toRecord_setReplayed r now
    have counted := @count_eq events _ (fun r => r.status == .parked) holds_parked
    rw [left, counted]
    exact .replayedAll

end SqliteStore

/-! ## Calls to both -/

/-- Each call to a store is served as the contract says. -/
theorem StoreKind.serves (kind : StoreKind) (choice : kind.store.Choice) {s : kind.store.State}
    (sound : kind.store.Sound s) {op : StoreOp} (sane : op.Sane) :
    Serves (kind.store.records s) op (kind.store.apply choice s op).1
      (kind.store.records (kind.store.apply choice s op).2) := by
  cases kind with
  | memory => exact MemoryStore.serves sound sane
  | sqlite => exact SqliteStore.serves sane

/-- Two stores the same calls were made to, each with the ids it gave and none of
them twice.  A `pruneBatch` that its limit cut short took corresponding records. -/
inductive Twins (S S' : RecordStore) : Equiv.Perm Nat → S.State → S'.State → Prop
  | start : Twins S S' (.refl Nat) S.empty S'.empty
  | call {ρ s s'} (twins : Twins S S' ρ s s') (op : StoreOp) (sane : op.Sane) (choice : S.Choice)
      (choice' : S'.Choice)
      (prunes : ∀ now deliveredDays ledgerDays limit,
        op = .pruneBatch now deliveredDays ledgerDays limit →
        CoversPrune now deliveredDays ledgerDays limit (S.records s) ∨
          ∀ r ∈ S.records s, r ∈ S.records (S.apply choice s op).2 ↔
            r.rename ρ ∈ S'.records (S'.apply choice' s' (op.rename ρ)).2) :
      Twins S S'
        (op.renameAfter ρ (S.apply choice s op).1 (S'.apply choice' s' (op.rename ρ)).1)
        (S.apply choice s op).2 (S'.apply choice' s' (op.rename ρ)).2

theorem StoreOp.Sane.rename {op : StoreOp} (sane : op.Sane) (ρ : Equiv.Perm Nat) : (op.rename ρ).Sane := by
  cases op with
  | markDelivered ids deliveredAt bulkRequestId => exact List.Nodup.map ρ.injective sane
  | markFailed ids nextAttemptAt error => exact List.Nodup.map ρ.injective sane
  | markParked ids error => exact List.Nodup.map ρ.injective sane
  | releaseDelivering ids nextAttemptAt error => exact List.Nodup.map ρ.injective sane
  | insert e => exact sane
  | _ => trivial

namespace Twins

variable {kind kind' : StoreKind} {ρ : Equiv.Perm Nat} {s : kind.store.State} {s' : kind'.store.State}

theorem sound (twins : Twins kind.store kind'.store ρ s s') :
    kind.store.Sound s ∧ kind'.store.Sound s' := by
  induction twins with
  | start => exact ⟨kind.store.sound_empty, kind'.store.sound_empty⟩
  | call _ op _ choice choice' _ ih =>
    exact ⟨kind.store.sound_apply choice _ op ih.1, kind'.store.sound_apply choice' _ _ ih.2⟩

theorem distinct {s : kind.store.State} (sound : kind.store.Sound s) :
    ((kind.store.records s).map fun r => r.id).Nodup :=
  List.nodup_iff_pairwise_ne.mpr
    (List.pairwise_map.mpr ((kind.store.sorted s sound).imp fun less => Nat.ne_of_lt less))

/-- The stores hold the same records but for their ids. -/
theorem records_eq (twins : Twins kind.store kind'.store ρ s s') :
    kind'.store.records s' = (kind.store.records s).map (.rename ρ) := by
  induction twins with
  | start => rw [kind.store.records_empty, kind'.store.records_empty, List.map_nil]
  | @call ρ s s' before op sane choice choice' prunes ih =>
    obtain ⟨sound, sound'⟩ := before.sound
    have serves := kind.serves choice sound sane
    have serves' := kind'.serves choice' sound' (sane.rename ρ)
    rw [ih] at serves'
    exact (serves.agree (distinct sound) serves').2 prunes

theorem getById_eq (twins : Twins kind.store kind'.store ρ s s') (id : Nat) :
    kind'.store.getById s' (ρ id) = (kind.store.getById s id).map (.rename ρ) := by
  obtain ⟨sound, sound'⟩ := twins.sound
  rw [kind.store.getById_eq s id sound, kind'.store.getById_eq s' (ρ id) sound', twins.records_eq,
    List.find?_map]
  refine congrArg (Option.map _) (congrArg (fun test => (kind.store.records s).find? test) ?_)
  funext r
  show (ρ r.id == ρ id) = (r.id == id)
  rw [Bool.eq_iff_iff, beq_iff_eq, beq_iff_eq, ρ.injective.eq_iff]

end Twins

end EndCloseRelay
