import EndCloseRelay.Engine.MemoryStore

/-!
# What a call does to a row

One inversion lemma for the whole store: `RowStep` lists the changes a call can
make to one row, with the guard each carries, and `row?_apply` shows that
beyond them a call only adds a fresh row or deletes a terminal one.
-/

namespace EndCloseRelay

namespace MemoryStore

/-! ## Cutoffs -/

theorem cutoffs_ok {now deliveredDays ledgerDays wipeCutoff deleteCutoff : Int}
    (dated : cutoffs now deliveredDays ledgerDays = .ok (wipeCutoff, deleteCutoff)) :
    isTime wipeCutoff ∧ isTime deleteCutoff ∧
      wipeCutoff = now - deliveredDays * dayMs ∧ deleteCutoff = now - ledgerDays * dayMs := by
  unfold cutoffs cutoff at dated
  by_cases wipes : isTime (now - deliveredDays * dayMs)
  · by_cases deletes : isTime (now - ledgerDays * dayMs)
    · rw [if_pos wipes, if_pos deletes] at dated
      obtain ⟨rfl, rfl⟩ := Prod.mk.inj (Except.ok.inj dated)
      exact ⟨wipes, deletes, rfl, rfl⟩
    · rw [if_pos wipes, if_neg deletes] at dated
      cases dated
  · rw [if_neg wipes] at dated
    cases dated

theorem cutoffs_of_isTime {now deliveredDays ledgerDays : Int}
    (wipes : isTime (now - deliveredDays * dayMs)) (deletes : isTime (now - ledgerDays * dayMs)) :
    cutoffs now deliveredDays ledgerDays =
      .ok (now - deliveredDays * dayMs, now - ledgerDays * dayMs) := by
  unfold cutoffs cutoff
  rw [if_pos wipes, if_pos deletes]
  rfl

/-! ## Looking a row up -/

variable {store : MemoryStore}

theorem row?_mem {id : Nat} {r : EventRecord} (found : store.row? id = some r) :
    r ∈ store.rows ∧ r.id = id := by
  unfold row? at found
  exact ⟨List.mem_of_find?_eq_some found, by simpa using List.find?_some found⟩

theorem row?_lt {id : Nat} {r : EventRecord} (found : store.row? id = some r) :
    id < store.nextId := by
  obtain ⟨member, rfl⟩ := row?_mem found
  exact store.fresh r member

/-- In a list without two events of one id each is found under its own. -/
theorem find?_id {rows : List EventRecord} (distinct : (rows.map fun r => r.id).Nodup)
    {r : EventRecord} (member : r ∈ rows) : (rows.find? fun other => other.id == r.id) = some r := by
  induction rows with
  | nil => cases member
  | cons head rows ih =>
    rw [List.map_cons, List.nodup_cons] at distinct
    rcases List.mem_cons.mp member with rfl | member
    · rw [List.find?_cons_of_pos (by simp)]
    · have other : ¬ (head.id == r.id) := by
        intro same
        apply distinct.1
        rw [beq_iff_eq.mp same]
        exact List.mem_map_of_mem member
      rw [List.find?_cons_of_neg (by exact other)]
      exact ih distinct.2 member

/-- Rows are found under their ids. -/
theorem row?_of_mem {r : EventRecord} (member : r ∈ store.rows) : store.row? r.id = some r :=
  find?_id store.distinct member

theorem row?_update (f : EventRecord → EventRecord) (keeps : ∀ r, (f r).id = r.id) (id : Nat) :
    (store.update f keeps).row? id = (store.row? id).map f := by
  unfold row? update
  simp only [List.find?_map, Function.comp_def, keeps]

theorem row?_updateWhere (p : EventRecord → Bool) (f : EventRecord → EventRecord)
    (keeps : ∀ r, (f r).id = r.id) (id : Nat) :
    (store.updateWhere p f keeps).row? id =
      (store.row? id).map fun r => if p r then f r else r :=
  row?_update _ _ id

theorem row?_updateRow (f : EventRecord → EventRecord) (keeps : ∀ r, (f r).id = r.id)
    (id id' : Nat) :
    (store.updateRow f keeps id).row? id' =
      if id' = id then (store.row? id').map f else store.row? id' := by
  unfold updateRow
  rw [row?_updateWhere]
  cases found : store.row? id' with
  | none => simp
  | some r =>
    obtain ⟨-, rfl⟩ := row?_mem found
    by_cases same : r.id = id <;> simp [same]

/-- Picking ids changes a row as often as its id is picked. -/
theorem row?_updatePicked (f : EventRecord → EventRecord) (keeps : ∀ r, (f r).id = r.id)
    (ids : List Nat) (id : Nat) :
    (store.updatePicked f keeps ids).row? id = (store.row? id).map f^[ids.count id] := by
  unfold updatePicked
  induction ids generalizing store with
  | nil => rw [List.foldl_nil, List.count_nil, Function.iterate_zero, Option.map_id, id_eq]
  | cons first ids ih =>
    rw [List.foldl_cons, ih, row?_updateRow]
    by_cases same : id = first
    · subst same
      rw [if_pos rfl, List.count_cons_self, Option.map_map, Function.iterate_succ]
    · rw [if_neg same, List.count_cons_of_ne (Ne.symm same)]

theorem row?_deleteRows (gone : List EventRecord) (id : Nat) :
    (store.deleteRows gone).row? id =
      (store.row? id).filter fun _ => !(gone.map fun g => g.id).contains id := by
  have tests : (store.deleteRows gone).row? id =
      store.rows.find? fun r => !(gone.map fun g => g.id).contains r.id && r.id == id := by
    unfold row? deleteRows
    rw [List.find?_filter]
    congr 1
    funext r
    rw [Bool.decide_and, Bool.decide_eq_true, Bool.decide_eq_true]
  rw [tests]
  cases kept : !(gone.map fun g => g.id).contains id with
  | true =>
    have same : (fun r : EventRecord => !(gone.map fun g => g.id).contains r.id && r.id == id) =
        fun r => r.id == id := by
      funext r
      by_cases named : r.id = id
      · rw [named, kept, Bool.true_and]
      · simp [named]
    rw [same]
    unfold row?
    cases store.rows.find? fun r => r.id == id <;> rfl
  | false =>
    have none_ : store.rows.find?
        (fun r => !(gone.map fun g => g.id).contains r.id && r.id == id) = none := by
      rw [List.find?_eq_none]
      intro r _
      by_cases named : r.id = id
      · rw [named, kept]
        exact Bool.false_ne_true
      · simp [named]
    rw [none_]
    cases store.row? id <;> rfl

theorem row?_addRow (e : NewEvent) (id : Nat) :
    (store.addRow e).row? id =
      if id = store.nextId then some (.ofNew e id) else store.row? id := by
  unfold row? addRow
  rw [List.find?_append]
  by_cases new : id = store.nextId
  · subst new
    have absent : store.rows.find? (fun r => r.id == store.nextId) = none := by
      rw [List.find?_eq_none]
      intro r member same
      have below := store.fresh r member
      rw [beq_iff_eq.mp same] at below
      omega
    simp [absent, EventRecord.ofNew]
  · have other : ¬ ((EventRecord.ofNew e store.nextId).id == id) := by
      intro same
      exact new (beq_iff_eq.mp same).symm
    rw [if_neg new, List.find?_cons_of_neg (by exact other), List.find?_nil, Option.or_none]

theorem row?_releaseRow (nextAttemptAt : Int) (error : String) (acc : Nat × MemoryStore)
    (first id : Nat) :
    (releaseRow nextAttemptAt error acc first).2.row? id =
      (acc.2.row? id).map fun r =>
        if id = first ∧ r.status = .delivering then r.fail nextAttemptAt error else r := by
  unfold releaseRow
  cases found : acc.2.row? first with
  | none =>
    by_cases same : id = first
    · rw [same, found]
      rfl
    · simp [same]
  | some r =>
    by_cases delivering : r.status = .delivering
    · simp only [if_pos delivering]
      rw [row?_updateRow]
      by_cases same : id = first
      · subst same
        simp [found, delivering]
      · simp [same]
    · simp only [if_neg delivering]
      by_cases same : id = first
      · subst same
        simp [found, delivering]
      · simp [same]

/-- The loop of `releaseDelivering` changes the rows of its ids that are delivering. -/
theorem row?_releaseRows (nextAttemptAt : Int) (error : String) (ids : List Nat)
    (acc : Nat × MemoryStore) (id : Nat) :
    (ids.foldl (releaseRow nextAttemptAt error) acc).2.row? id =
      (acc.2.row? id).map fun r =>
        if id ∈ ids ∧ r.status = .delivering then r.fail nextAttemptAt error else r := by
  induction ids generalizing acc with
  | nil => simp
  | cons first ids ih =>
    rw [List.foldl_cons, ih, row?_releaseRow, Option.map_map]
    congr 1
    funext r
    by_cases same : id = first
    · subst same
      by_cases delivering : r.status = .delivering
      · simp [delivering, EventRecord.fail, EventRecord.clearLease]
      · simp [delivering]
    · simp [same]

/-! ## One call -/

/-- What a call can do to a row that is there. -/
inductive RowStep : StoreOp → EventRecord → EventRecord → Prop
  | claim {routeId now limit lease r} (due : r.isDue now) (route : r.routeId = routeId) :
      RowStep (.claimDue routeId now limit lease) r (r.claim now lease)
  | deliver {ids deliveredAt bulkRequestId r} (member : r.id ∈ ids) :
      RowStep (.markDelivered ids deliveredAt bulkRequestId) r (r.deliver deliveredAt bulkRequestId)
  | fail {ids nextAttemptAt error r} (member : r.id ∈ ids) :
      RowStep (.markFailed ids nextAttemptAt error) r
        ((EventRecord.fail nextAttemptAt error)^[ids.count r.id] r)
  | park {ids error r} (member : r.id ∈ ids) : RowStep (.markParked ids error) r (r.park error)
  | release {ids nextAttemptAt error r} (member : r.id ∈ ids) (delivering : r.status = .delivering) :
      RowStep (.releaseDelivering ids nextAttemptAt error) r (r.fail nextAttemptAt error)
  | recover {now owner r} (taken : r.recoverable now owner) :
      RowStep (.recoverDelivering now owner) r (r.recover now)
  | expire {now maxAgeMs r} (taken : r.expired (now - maxAgeMs)) :
      RowStep (.parkExpired now maxAgeMs) r r.expire
  | wipe {now deliveredDays ledgerDays limit r} (terminal : r.isTerminal) :
      RowStep (.pruneBatch now deliveredDays ledgerDays limit) r r.wipe
  | requeue {now r} (parked : r.status = .parked) : RowStep (.replay r.id now) r (r.requeue now)
  | requeueAll {now r} (parked : r.status = .parked) :
      RowStep (.replayAllParked now) r (r.requeue now)

/-- What a call can do to what stands under an id. -/
inductive RowChange : StoreOp → Option EventRecord → Option EventRecord → Prop
  | same (op) (r) : RowChange op r r
  | inserted {e id} : RowChange (.insert e) none (some (.ofNew e id))
  | step {op r r'} (step : RowStep op r r') : RowChange op (some r) (some r')
  | deleted {now deliveredDays ledgerDays limit r} (terminal : r.isTerminal) :
      RowChange (.pruneBatch now deliveredDays ledgerDays limit) (some r) none

/-- A conditional change of a row is no change or the step it stands for. -/
theorem RowChange.of_ite {op : StoreOp} {found : Option EventRecord} {p : EventRecord → Prop}
    [DecidablePred p] {f : EventRecord → EventRecord}
    (step : ∀ r, found = some r → p r → RowStep op r (f r)) :
    RowChange op found (found.map fun r => if p r then f r else r) := by
  cases found with
  | none => exact .same op none
  | some r =>
    rw [Option.map_some]
    by_cases taken : p r
    · rw [if_pos taken]
      exact .step (step r rfl taken)
    · rw [if_neg taken]
      exact .same op (some r)

theorem iterate_of_idem {α : Type} {f : α → α} (idem : ∀ a, f (f a) = f a) {n : Nat} (a : α)
    (positive : 0 < n) : f^[n] a = f a := by
  induction n with
  | zero => omega
  | succ n ih =>
    rw [Function.iterate_succ_apply']
    cases n with
    | zero => rfl
    | succ n => rw [ih (by omega), idem]

/-- The change picking ids makes, for the step one pick stands for. -/
theorem RowChange.of_picked {op : StoreOp} {id : Nat} {f : EventRecord → EventRecord}
    {keeps : ∀ r, (f r).id = r.id} {ids : List Nat}
    (step : ∀ r, store.row? id = some r → r.id ∈ ids → RowStep op r (f^[ids.count r.id] r)) :
    RowChange op (store.row? id) ((store.updatePicked f keeps ids).row? id) := by
  rw [row?_updatePicked]
  cases found : store.row? id with
  | none => exact .same op none
  | some r =>
    obtain ⟨-, rfl⟩ := row?_mem found
    rw [Option.map_some]
    by_cases member : r.id ∈ ids
    · exact .step (step r found member)
    · rw [List.count_eq_zero_of_not_mem member, Function.iterate_zero_apply]
      exact .same op (some r)

theorem mem_dueRows {routeId : String} {now : Int} {limit : Nat} {r : EventRecord}
    (picked : r ∈ store.dueRows routeId now limit) :
    r ∈ store.rows ∧ r.routeId = routeId ∧ r.isDue now := by
  have member := List.mem_filter.mp (List.mem_of_mem_take picked)
  simpa using member

/-- The row under an id that a list of rows contains is the row of the list. -/
theorem row?_of_mem_ids {rows : List EventRecord} (sub : ∀ r ∈ rows, r ∈ store.rows) {id : Nat}
    {r : EventRecord} (found : store.row? id = some r) (listed : (rows.map fun r => r.id).contains r.id) :
    r ∈ rows := by
  rw [List.contains_iff_mem] at listed
  obtain ⟨r', member, same⟩ := List.mem_map.mp listed
  have there := row?_of_mem (sub r' member)
  rw [same, row?_of_mem (row?_mem found).1] at there
  rw [Option.some.inj there]
  exact member

/-- The rows a prune picks are terminal. -/
theorem terminal_of_picked {p : EventRecord → Bool} {limit : Nat} {id : Nat} {r : EventRecord}
    (found : store.row? id = some r)
    (listed : ((((store.rows.filter fun r => r.isTerminal).filter p).take limit).map
      fun r => r.id).contains r.id) :
    r.isTerminal := by
  have picked := row?_of_mem_ids
    (fun r member => (List.mem_filter.mp (List.mem_filter.mp (List.mem_of_mem_take member)).1).1)
    found listed
  exact (List.mem_filter.mp (List.mem_filter.mp (List.mem_of_mem_take picked)).1).2

/-- The inversion lemma of the store: what any call does to what stands under an id. -/
theorem row?_apply (op : StoreOp) (id : Nat) :
    RowChange op (store.row? id) ((store.apply op).2.row? id) := by
  cases op with
  | insert e =>
    simp only [apply, insert]
    cases known : store.byKey.lookup e.idempotencyKey with
    | some _ => exact .same _ _
    | none =>
      simp only [row?_addRow]
      by_cases new : id = store.nextId
      · have absent : store.row? id = none := by
          cases found : store.row? id with
          | none => rfl
          | some r =>
            have below := row?_lt found
            omega
        rw [if_pos new, absent]
        exact .inserted
      · rw [if_neg new]
        exact .same _ _
  | routesWithDueEvents now => exact .same _ _
  | claimDue routeId now limit lease =>
    simp only [apply, claimDue, row?_updateWhere]
    refine RowChange.of_ite fun r found taken => ?_
    have picked := row?_of_mem_ids (fun r member => (mem_dueRows member).1) found taken
    exact .claim (mem_dueRows picked).2.2 (mem_dueRows picked).2.1
  | markDelivered ids deliveredAt bulkRequestId =>
    refine RowChange.of_picked fun r _ member => ?_
    rw [iterate_of_idem (f := EventRecord.deliver deliveredAt bulkRequestId) (fun _ => rfl) r
      (List.count_pos_iff.mpr member)]
    exact .deliver member
  | markFailed ids nextAttemptAt error => exact RowChange.of_picked fun r _ member => .fail member
  | markParked ids error =>
    refine RowChange.of_picked fun r _ member => ?_
    rw [iterate_of_idem (f := EventRecord.park error) (fun _ => rfl) r
      (List.count_pos_iff.mpr member)]
    exact .park member
  | releaseDelivering ids nextAttemptAt error =>
    simp only [apply, releaseDelivering, row?_releaseRows]
    refine RowChange.of_ite fun r found taken => ?_
    obtain ⟨-, rfl⟩ := row?_mem found
    exact .release taken.1 taken.2
  | recoverDelivering now owner =>
    simp only [apply, row?_updateWhere]
    exact RowChange.of_ite fun r _ taken => .recover taken
  | parkExpired now maxAgeMs =>
    simp only [apply, row?_updateWhere]
    exact RowChange.of_ite fun r _ taken => .expire taken
  | pruneBatch now deliveredDays ledgerDays limit =>
    simp only [apply, pruneBatch]
    split
    · exact .same _ _
    simp only [pruneTo]
    split
    · simp only [row?_deleteRows]
      cases found : store.row? id with
      | none => exact .same _ _
      | some r =>
        obtain ⟨-, rfl⟩ := row?_mem found
        cases listed : List.contains _ r.id with
        | false => exact .same _ _
        | true => exact .deleted (terminal_of_picked found listed)
    · simp only [row?_updateWhere]
      exact RowChange.of_ite fun r found taken => .wipe (terminal_of_picked found taken)
  | replay id' now =>
    simp only [apply, replay]
    cases found : store.row? id' with
    | none => exact .same _ _
    | some r =>
      by_cases parked : r.status = .parked
      · simp only [if_pos parked, row?_updateRow]
        by_cases same : id = id'
        · subst same
          obtain ⟨-, rfl⟩ := row?_mem found
          rw [if_pos rfl, found]
          exact .step (.requeue parked)
        · rw [if_neg same]
          exact .same _ _
      · simp only [if_neg parked]
        exact .same _ _
  | replayAllParked now =>
    simp only [apply, row?_updateWhere]
    exact RowChange.of_ite fun r _ taken => .requeueAll (beq_iff_eq.mp taken)

/-! ## What stays of a row -/

/-- Failing a row at least once makes it a retry and leaves the event alone. -/
theorem fail_iterate (nextAttemptAt : Int) (error : String) (n : Nat) (r : EventRecord) :
    ((EventRecord.fail nextAttemptAt error)^[n + 1] r).status = .retry ∧
      ((EventRecord.fail nextAttemptAt error)^[n + 1] r).toNewEvent =
        r.toNewEvent.withStatus .retry := by
  induction n with
  | zero => exact ⟨rfl, rfl⟩
  | succ n ih =>
    rw [Function.iterate_succ_apply']
    refine ⟨rfl, ?_⟩
    show ((EventRecord.fail nextAttemptAt error)^[n + 1] r).toNewEvent.withStatus .retry = _
    rw [ih.2]
    rfl

/-- A step on an active row leaves the event alone; only marking it delivered
makes the row terminal. -/
theorem RowStep.keeps {op : StoreOp} {r r' : EventRecord} (step : RowStep op r r')
    (active : r.status.isActive) :
    r'.toNewEvent = r.toNewEvent.withStatus r'.status ∧
      (r'.status.isActive ∨ ∃ ids deliveredAt bulkRequestId,
        op = .markDelivered ids deliveredAt bulkRequestId ∧ r.id ∈ ids) := by
  cases step with
  | claim _ _ => exact ⟨rfl, .inl rfl⟩
  | deliver member => exact ⟨rfl, .inr ⟨_, _, _, rfl, member⟩⟩
  | @fail ids nextAttemptAt error _ member =>
    have picked : 0 < ids.count r.id := List.count_pos_iff.mpr member
    obtain ⟨n, count⟩ := Nat.exists_eq_succ_of_ne_zero (Nat.ne_of_gt picked)
    rw [count]
    rw [(fail_iterate nextAttemptAt error n r).2]
    exact ⟨rfl, .inl rfl⟩
  | park _ => exact ⟨rfl, .inl rfl⟩
  | release _ _ => exact ⟨rfl, .inl rfl⟩
  | recover _ => exact ⟨rfl, .inl rfl⟩
  | expire _ => exact ⟨rfl, .inl rfl⟩
  | wipe terminal =>
    rw [EventRecord.isTerminal_iff, active] at terminal
    cases terminal
  | requeue _ => exact ⟨rfl, .inl rfl⟩
  | requeueAll _ => exact ⟨rfl, .inl rfl⟩

/-- Picking an id leaves its row in the status the change gives. -/
theorem status_updatePicked (status : EventStatus) {f : EventRecord → EventRecord}
    {keeps : ∀ r, (f r).id = r.id} {ids : List Nat} (gives : ∀ r, (f r).status = status) {id : Nat}
    {r : EventRecord} (listed : id ∈ ids)
    (found : (store.updatePicked f keeps ids).row? id = some r) : r.status = status := by
  rw [row?_updatePicked] at found
  obtain ⟨old, -, rfl⟩ := Option.map_eq_some_iff.mp found
  have picked : 0 < ids.count id := List.count_pos_iff.mpr listed
  obtain ⟨n, count⟩ := Nat.exists_eq_succ_of_ne_zero (Nat.ne_of_gt picked)
  rw [count, Function.iterate_succ_apply']
  exact gives _

/-- An insert adds a row under the next id, or does nothing. -/
theorem row?_insert (store : MemoryStore) (e : NewEvent) (id : Nat) :
    (store.insert e).2.row? id = store.row? id ∨
      (id = store.nextId ∧ (store.insert e).2.row? id = some (.ofNew e id)) := by
  unfold insert
  split
  · exact .inl rfl
  · rw [row?_addRow]
    split
    · rename_i new
      exact .inr ⟨new, rfl⟩
    · exact .inl rfl

/-- A claim changes the rows it picks. -/
theorem row?_claimDue (routeId : String) (now : Int) (limit : Nat) (lease : Lease) {id : Nat}
    {r : EventRecord} (found : store.row? id = some r) :
    (store.claimDue routeId now limit lease).2.row? id =
      some (if r ∈ store.dueRows routeId now limit then r.claim now lease else r) := by
  have picks : ((store.dueRows routeId now limit).map fun d => d.id).contains r.id ↔
      r ∈ store.dueRows routeId now limit := by
    constructor
    · intro listed
      exact row?_of_mem_ids (fun r member => (mem_dueRows member).1) found listed
    · intro member
      rw [List.contains_iff_mem]
      exact List.mem_map_of_mem member
  simp only [claimDue, row?_updateWhere, found, Option.map_some, picks]

/-! ## Ids only grow -/

theorem nextId_updatePicked (f : EventRecord → EventRecord) (keeps : ∀ r, (f r).id = r.id)
    (ids : List Nat) : (store.updatePicked f keeps ids).nextId = store.nextId := by
  unfold updatePicked
  induction ids generalizing store with
  | nil => rfl
  | cons first ids ih => exact ih

theorem nextId_releaseRows (nextAttemptAt : Int) (error : String) (ids : List Nat)
    (acc : Nat × MemoryStore) :
    (ids.foldl (releaseRow nextAttemptAt error) acc).2.nextId = acc.2.nextId := by
  induction ids generalizing acc with
  | nil => rfl
  | cons first ids ih =>
    rw [List.foldl_cons, ih]
    unfold releaseRow
    split
    · split <;> rfl
    · rfl

theorem nextId_insert (e : NewEvent) : store.nextId ≤ (store.insert e).2.nextId := by
  unfold insert
  split
  · exact Nat.le_refl _
  · exact Nat.le_succ _

theorem nextId_le_apply (op : StoreOp) : store.nextId ≤ (store.apply op).2.nextId := by
  cases op with
  | insert e => exact nextId_insert e
  | markDelivered ids deliveredAt bulkRequestId => exact Nat.le_of_eq (nextId_updatePicked _ _ ids).symm
  | markFailed ids nextAttemptAt error => exact Nat.le_of_eq (nextId_updatePicked _ _ ids).symm
  | markParked ids error => exact Nat.le_of_eq (nextId_updatePicked _ _ ids).symm
  | releaseDelivering ids nextAttemptAt error =>
    exact Nat.le_of_eq (nextId_releaseRows nextAttemptAt error ids (0, store)).symm
  | pruneBatch now deliveredDays ledgerDays limit =>
    simp only [apply, pruneBatch]
    split
    · exact Nat.le_refl _
    · simp only [pruneTo]
      split <;> exact Nat.le_refl _
  | replay id now =>
    simp only [apply, replay]
    split
    · split <;> exact Nat.le_refl _
    · exact Nat.le_refl _
  | _ => exact Nat.le_refl _

/-! ## Keys are those of inserted events -/

theorem byKey_updatePicked (f : EventRecord → EventRecord) (keeps : ∀ r, (f r).id = r.id)
    (ids : List Nat) : (store.updatePicked f keeps ids).byKey = store.byKey := by
  unfold updatePicked
  induction ids generalizing store with
  | nil => rfl
  | cons first ids ih => exact ih

theorem byKey_releaseRows (nextAttemptAt : Int) (error : String) (ids : List Nat)
    (acc : Nat × MemoryStore) :
    (ids.foldl (releaseRow nextAttemptAt error) acc).2.byKey = acc.2.byKey := by
  induction ids generalizing acc with
  | nil => rfl
  | cons first ids ih =>
    rw [List.foldl_cons, ih]
    unfold releaseRow
    split
    · split <;> rfl
    · rfl

theorem mem_of_lookup {entries : List (String × Nat)} {key : String} {id : Nat}
    (known : entries.lookup key = some id) : (key, id) ∈ entries := by
  induction entries with
  | nil => cases known
  | cons entry entries ih =>
    rw [List.lookup_cons] at known
    split at known
    · rename_i same
      obtain rfl := Option.some.inj known
      rw [beq_iff_eq.mp same]
      exact List.mem_cons_self ..
    · exact List.mem_cons_of_mem _ (ih known)

/-- An insert is new under its key exactly when it says so. -/
theorem insert_cases (e : NewEvent) :
    ((store.insert e).1 = .duplicate ∧ (store.insert e).2 = store ∧
      ∃ id, (e.idempotencyKey, id) ∈ store.byKey) ∨
    ((store.insert e).1 = .inserted store.nextId ∧
      (store.insert e).2 = store.addRow e) := by
  unfold insert
  cases known : store.byKey.lookup e.idempotencyKey with
  | none => exact .inr ⟨rfl, rfl⟩
  | some id => exact .inl ⟨rfl, rfl, id, mem_of_lookup known⟩

/-- Only an insert adds a key. -/
theorem byKey_apply {op : StoreOp} (notInsert : ∀ e, op ≠ .insert e) :
    (store.apply op).2.byKey ⊆ store.byKey := by
  cases op with
  | insert e => exact absurd rfl (notInsert e)
  | markDelivered ids deliveredAt bulkRequestId =>
    exact fun _ member => byKey_updatePicked _ _ ids ▸ member
  | markFailed ids nextAttemptAt error =>
    exact fun _ member => byKey_updatePicked _ _ ids ▸ member
  | markParked ids error =>
    exact fun _ member => byKey_updatePicked _ _ ids ▸ member
  | releaseDelivering ids nextAttemptAt error =>
    exact fun _ member => byKey_releaseRows nextAttemptAt error ids (0, store) ▸ member
  | pruneBatch now deliveredDays ledgerDays limit =>
    simp only [apply, pruneBatch]
    split
    · exact List.Subset.refl _
    · simp only [pruneTo]
      split
      · exact List.filter_subset_self _
      · exact List.Subset.refl _
  | replay id now =>
    simp only [apply, replay]
    split
    · split <;> exact List.Subset.refl _
    · exact List.Subset.refl _
  | _ => exact List.Subset.refl _

end MemoryStore

end EndCloseRelay
