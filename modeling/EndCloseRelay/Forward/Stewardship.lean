import EndCloseRelay.Forward.Accounts

/-!
# Who reclaims what is left behind

`reclaimOwner` is what an instance remembers of rows it may have left
delivering.  `ownerAfter` reads it off the calls of a cycle; `runOnce_minds`
says that the dispatcher's field agrees with it, that it is the owner every
recovery is made for, and that marks and releases are of the batch in flight.
-/

namespace EndCloseRelay.Dispatcher

open Interaction

/-- The owner to reclaim for after the calls of a cycle: cleared by a recovery,
set by a release that fails. -/
def ownerAfter (deps : DispatcherDeps) (init : Option String) : Calls → Option String
  | [] => init
  | ⟨.store (.recoverDelivering ..), .ok _⟩ :: _ => none
  | ⟨.store (.releaseDelivering ..), .error _⟩ :: _ => some deps.instanceId
  | _ :: calls => ownerAfter deps init calls

/-- The ids are those of rows of the batch in flight. -/
def OfBatch (calls : Calls) (ids : List Nat) : Prop :=
  ids ⊆ (inFlight calls).map fun e => e.id

/-- What a call to the store requires of the calls before it. -/
def stewardAllowed (deps : DispatcherDeps) (init : Option String) (calls : Calls) : StoreOp → Prop
  | .recoverDelivering _ owner =>
    inFlight calls = [] ∧ claims calls = [] ∧ owner = ownerAfter deps init calls
  | .claimDue _ _ _ lease => inFlight calls = [] ∧ lease.owner = deps.instanceId
  | .markDelivered ids _ _ | .markFailed ids _ _ | .markParked ids _ => OfBatch calls ids
  | .releaseDelivering ids _ _ => ids = (inFlight calls).map fun e => e.id
  | .routesWithDueEvents _ | .parkExpired .. => True
  | .insert _ | .pruneBatch .. | .replay .. | .replayAllParked _ => False

/-- What an instance keeps to in a cycle, whatever it is answered. -/
def stewardship (deps : DispatcherDeps) (init : Option String) : Discipline Op Op.Answer where
  allowed calls
    | .store op => stewardAllowed deps init calls op
    | _ => True
  admits _ _ _ := True

/-- The batch in flight is the given one, and the field is what the calls say. -/
structure Minds (deps : DispatcherDeps) (init : Option String) (batch : List EventRecord)
    (calls : Calls) (s : State) : Prop where
  flying : inFlight calls = batch
  owner : s.reclaimOwner = ownerAfter deps init calls

/-- The call is neither of those that begin or end a batch or set the owner. -/
structure Minor (deps : DispatcherDeps) (init : Option String) (op : Op) : Prop where
  allowed : ∀ calls, (stewardship deps init).allowed calls op
  flying : ∀ calls answer, inFlight (⟨op, answer⟩ :: calls) = inFlight calls
  owner : ∀ calls answer, ownerAfter deps init (⟨op, answer⟩ :: calls) = ownerAfter deps init calls

section

variable {deps : DispatcherDeps} {init : Option String} {batch : List EventRecord}
  {calls : Calls} {s s' : State} {op : Op} {event : EventRecord} {reason message : String}
  {route : RouteConfig}

theorem Minds.minor (minds : Minds deps init batch calls s) (minor : Minor deps init op)
    (answer : op.Answer) : Minds deps init batch (⟨op, answer⟩ :: calls) s :=
  ⟨(minor.flying calls answer).trans minds.flying, minds.owner.trans (minor.owner calls answer).symm⟩

theorem Minds.restate (minds : Minds deps init batch calls s)
    (same : s'.reclaimOwner = s.reclaimOwner) : Minds deps init batch calls s' :=
  ⟨minds.flying, same.trans minds.owner⟩

/-- Keeping the batch in flight and the owner, until the method ends. -/
abbrev Steady (deps : DispatcherDeps) (init : Option String) (batch : List EventRecord) {α : Type}
    (m : Body α) (returns : α → Prop) : Prop :=
  Method.Keeps (stewardship deps init) (Minds deps init batch) m returns

theorem steady_ask (minor : Minor deps init op) :
    Steady deps init batch (ask op) fun _ => True :=
  Method.Keeps.call (fun calls _ _ => minor.allowed calls) fun _ _ answer minds _ =>
    minds.minor minor answer

theorem steady_modify {f : State → State} (same : ∀ s, (f s).reclaimOwner = s.reclaimOwner) :
    Steady deps init batch (modify f) fun _ => True :=
  Method.Keeps.modify fun _ s minds => minds.restate (same s)

/-! ## Marks of the batch -/

/-- A mark of rows of the batch in flight. -/
theorem steady_mark {op : StoreOp} {ids : List Nat} (within : ids ⊆ batch.map fun e => e.id)
    (allowed : ∀ calls, OfBatch calls ids → stewardAllowed deps init calls op)
    (flying : ∀ calls answer, inFlight (⟨.store op, answer⟩ :: calls) = inFlight calls)
    (owner : ∀ calls answer,
      ownerAfter deps init (⟨.store op, answer⟩ :: calls) = ownerAfter deps init calls) :
    Steady deps init batch (store op) fun _ => True := by
  have asked : Steady deps init batch (ask (.store op)) fun _ => True := by
    refine Method.Keeps.call (fun calls s minds => allowed calls ?_) fun calls s answer minds _ => ?_
    · unfold OfBatch
      rw [minds.flying]
      exact within
    · exact ⟨(flying calls answer).trans minds.flying, minds.owner.trans (owner calls answer).symm⟩
  exact asked.bind fun answer _ => Method.Keeps.ofExcept.mono fun _ _ => trivial

theorem steady_markDelivered {ids : List Nat} {deliveredAt : Int} {bulkRequestId : Option String}
    (within : ids ⊆ batch.map fun e => e.id) :
    Steady deps init batch (store (.markDelivered ids deliveredAt bulkRequestId)) fun _ => True :=
  steady_mark within (fun _ ofBatch => ofBatch) (fun _ answer => by cases answer <;> rfl)
    fun _ answer => by cases answer <;> rfl

theorem steady_markFailed {ids : List Nat} {nextAttemptAt : Int} {error : String}
    (within : ids ⊆ batch.map fun e => e.id) :
    Steady deps init batch (store (.markFailed ids nextAttemptAt error)) fun _ => True :=
  steady_mark within (fun _ ofBatch => ofBatch) (fun _ answer => by cases answer <;> rfl)
    fun _ answer => by cases answer <;> rfl

theorem steady_markParked {ids : List Nat} {error : String}
    (within : ids ⊆ batch.map fun e => e.id) :
    Steady deps init batch (store (.markParked ids error)) fun _ => True :=
  steady_mark within (fun _ ofBatch => ofBatch) (fun _ answer => by cases answer <;> rfl)
    fun _ answer => by cases answer <;> rfl

theorem minor_now : Minor deps init .now := ⟨fun _ => trivial, fun _ _ => rfl, fun _ _ => rfl⟩

theorem minor_random : Minor deps init .random := ⟨fun _ => trivial, fun _ _ => rfl, fun _ _ => rfl⟩

theorem recordParked_owner (events : List EventRecord) (reason : String) (s : State) :
    (s.recordParked events reason).reclaimOwner = s.reclaimOwner := by
  cases events <;> rfl

theorem recordDelivered_owner (events : List EventRecord) (deliveredAt : Int) (s : State) :
    (s.recordDelivered events deliveredAt).reclaimOwner = s.reclaimOwner := by
  cases events <;> rfl

/-- Parking rows of the batch and recording it. -/
theorem steady_park (events : List EventRecord)
    (within : events.map (fun e => e.id) ⊆ batch.map fun e => e.id) :
    Steady deps init batch (do
      store (.markParked (events.map fun e => e.id) reason)
      modify (State.recordParked events reason)) fun _ => True :=
  (steady_markParked within).bind fun _ _ => steady_modify (recordParked_owner events reason)

/-- Putting rows of the batch off and recording it. -/
theorem steady_retry (events : List EventRecord) {routeId error : String} {attempts : Nat}
    (within : events.map (fun e => e.id) ⊆ batch.map fun e => e.id) :
    Steady deps init batch (do
      let next ← scheduleAttempt deps attempts
      store (.markFailed (events.map fun e => e.id) next error)
      modify (State.recordRetried routeId events error)) fun _ => True := by
  have scheduled : Steady deps init batch (scheduleAttempt deps attempts) fun _ => True :=
    (steady_ask minor_now).bind fun _ _ => (steady_ask minor_random).bind fun _ _ =>
      Method.Keeps.pure trivial
  exact scheduled.bind fun _ _ => (steady_markFailed within).bind fun _ _ =>
    steady_modify fun _ => rfl

/-! ## The methods of a batch -/

theorem settleUnmapped_steady {stage : Stage} {err : RelayError} (member : event ∈ batch) :
    Steady deps init batch (settleUnmapped deps event stage err) fun _ => True := by
  have within : [event].map (fun e => e.id) ⊆ batch.map fun e => e.id := by
    intro id listed
    rcases List.mem_map.mp listed with ⟨e, here, rfl⟩
    rw [List.mem_singleton.mp here]
    exact List.mem_map_of_mem member
  unfold settleUnmapped
  split
  · exact steady_park [event] within
  · exact steady_park [event] within
  · cases stage with
    | enrichment => exact steady_retry [event] within
    | mapping => exact Method.Keeps.throw

theorem resolveEnrichments_steady {payload : Json} {pending : List PendingEnrichment}
    {record : EndCloseRecord} :
    Steady deps init batch (resolveEnrichments deps event payload pending record) fun _ => True := by
  induction pending generalizing record with
  | nil => exact Method.Keeps.pure trivial
  | cons p pending ih =>
    have emits : ∀ result error, Steady deps init batch (modify (State.emit
        (.enrich event.routeId event.id p.field p.enrichment result error))) fun _ => True :=
      fun _ _ => steady_modify fun _ => rfl
    unfold resolveEnrichments
    split
    · have asks : Minor deps init (.enrich event.id p.enrichment p.input
          (enrichContext event payload p.field)) :=
        ⟨fun _ => trivial, fun _ _ => rfl, fun _ _ => rfl⟩
      refine (steady_ask asks).bind fun returned _ => ?_
      cases checkReturned p.field returned with
      | error err => exact (emits _ _).bind fun _ _ => Method.Keeps.throw
      | ok value =>
        cases value with
        | none => exact (emits _ _).bind fun _ _ => ih
        | some value => exact (emits _ _).bind fun _ _ => ih
    · exact (emits _ _).bind fun _ _ => Method.Keeps.throw

theorem buildRecord_steady (member : event ∈ batch) :
    Steady deps init batch (buildRecord deps route event) fun _ => True := by
  have settles : ∀ stage err, Steady deps init batch (do
      settleUnmapped deps event stage err
      pure (none : Option EndCloseRecord)) fun _ => True := by
    intro stage err
    exact (settleUnmapped_steady member).bind fun _ _ => Method.Keeps.pure trivial
  unfold buildRecord
  cases readEvent deps route event with
  | error err => exact settles .mapping err
  | ok out =>
    obtain ⟨payload, result⟩ := out
    simp only []
    split
    · exact Method.Keeps.pure trivial
    · refine Method.Keeps.tryCatch ?_ (settles .enrichment)
      rw [map_eq_pure_bind]
      exact resolveEnrichments_steady.bind fun _ _ => Method.Keeps.pure trivial

/-- The events of a batch that records were built of are events of the batch. -/
theorem buildRecords_steady {events : List EventRecord} (within : ∀ e ∈ events, e ∈ batch) :
    Steady deps init batch (buildRecords deps route events) fun built =>
      ∀ b ∈ built, b.1 ∈ batch := by
  induction events with
  | nil => exact Method.Keeps.pure fun b listed => by cases listed
  | cons event events ih =>
    have here := within event (List.mem_cons_self ..)
    refine (buildRecord_steady here).bind fun record _ => ?_
    refine (ih fun e member => within e (List.mem_cons_of_mem _ member)).bind fun built rest => ?_
    refine Method.Keeps.pure fun b listed => ?_
    cases record with
    | none => exact rest b listed
    | some record =>
      rcases List.mem_cons.mp listed with rfl | listed
      · exact here
      · exact rest b listed

theorem postAttempts_steady {records : List EndCloseRecord} {attempts : List Nat}
    {lastErr : RelayError} :
    Steady deps init batch (postAttempts deps records attempts lastErr) fun _ => True := by
  induction attempts generalizing lastErr with
  | nil => exact Method.Keeps.throw
  | cons attempt attempts ih =>
    have posts : Minor deps init
        (.bulkCreateRecords (idempotencyKey deps.runtime records) records) :=
      ⟨fun _ => trivial, fun _ _ => rfl, fun _ _ => rfl⟩
    have sleeps : Minor deps init (.sleep (500 * (attempt + 1))) :=
      ⟨fun _ => trivial, fun _ _ => rfl, fun _ _ => rfl⟩
    refine (steady_ask posts).bind fun answer _ => ?_
    split
    · exact Method.Keeps.pure trivial
    · exact (steady_ask sleeps).bind fun _ _ => ih
    · exact Method.Keeps.throw

theorem pollResults_steady {bulkRequestId : Option String} {attempts : Nat} :
    Steady deps init batch (pollResults bulkRequestId attempts) fun _ => True := by
  induction attempts with
  | zero => exact Method.Keeps.pure trivial
  | succ attempts ih =>
    have polls : Minor deps init (.getBulkRequest bulkRequestId) :=
      ⟨fun _ => trivial, fun _ _ => rfl, fun _ _ => rfl⟩
    have sleeps : Minor deps init (.sleep resultPollDelayMs) :=
      ⟨fun _ => trivial, fun _ _ => rfl, fun _ _ => rfl⟩
    refine (steady_ask polls).bind fun answer _ => ?_
    split
    · exact Method.Keeps.pure trivial
    · exact Method.Keeps.throw
    · split
      · exact (steady_ask sleeps).bind fun _ _ => ih
      · exact Method.Keeps.ofExcept.bind fun _ _ => Method.Keeps.pure trivial

theorem settleResults_steady {bulkRequestId : Option String} {mapped : List EventRecord}
    (within : mapped.map (fun e => e.id) ⊆ batch.map fun e => e.id) :
    Steady deps init batch (settleResults bulkRequestId mapped) fun _ => True := by
  refine (steady_ask minor_now).bind fun deliveredAt _ => ?_
  refine pollResults_steady.bind fun failed _ => ?_
  cases failed with
  | none =>
    exact (steady_markDelivered within).bind fun _ _ =>
      steady_modify (recordDelivered_owner mapped deliveredAt)
  | some failed =>
    have ok : (okEvents failed mapped).map (fun e => e.id) ⊆ batch.map fun e => e.id :=
      fun id listed => within (((okEvents_sublist failed mapped).map _).subset listed)
    have parked : (failedEvents failed mapped).map (fun e => e.id) ⊆ batch.map fun e => e.id :=
      fun id listed => within (((failedEvents_sublist failed mapped).map _).subset listed)
    refine (steady_markParked parked).bind fun _ _ => (steady_markDelivered ok).bind fun _ _ => ?_
    exact (steady_modify (recordDelivered_owner _ deliveredAt)).bind fun _ _ =>
      steady_modify (recordParked_owner _ rejectedReason)

theorem settleFailure_steady {mapped : List EventRecord} {err : RelayError}
    (within : mapped.map (fun e => e.id) ⊆ batch.map fun e => e.id) :
    Steady deps init batch (settleFailure deps route mapped err) fun _ => True := by
  unfold settleFailure
  split
  · split
    · refine (steady_markParked within).bind fun _ _ => ?_
      exact (steady_modify (recordParked_owner mapped _)).bind fun _ _ => steady_modify fun _ => rfl
    · exact steady_retry mapped within
  · exact steady_retry mapped within

theorem deliverBatch_steady : Steady deps init batch (deliverBatch deps route batch) fun _ => True := by
  refine (buildRecords_steady fun e member => member).bind fun built ofBatch => ?_
  have within : (built.map Prod.fst).map (fun e => e.id) ⊆ batch.map fun e => e.id := by
    intro id listed
    rcases List.mem_map.mp listed with ⟨e, member, rfl⟩
    rcases List.mem_map.mp member with ⟨b, here, rfl⟩
    exact List.mem_map_of_mem (ofBatch b here)
  split
  · exact Method.Keeps.pure trivial
  · refine Method.Keeps.tryCatch ?_ fun err => settleFailure_steady within
    refine postAttempts_steady.bind fun accepted _ => Method.Keeps.ofExcept.bind fun id _ => ?_
    exact (settleResults_steady within).bind fun _ _ => steady_modify fun _ => rfl

/-! ## A whole cycle -/

/-- A release ends the batch; when it fails, the instance has to reclaim it. -/
theorem releaseLeftover_minds {error : String} (minds : Minds deps init batch calls s) :
    (releaseLeftover deps batch error).Sat (stewardship deps init) calls s
      fun calls s _ => Minds deps init [] calls s := by
  refine Method.Sat.tryCatch (fun calls s r => inFlight calls = [] ∧
    (∀ a, r = .ok a → s.reclaimOwner = ownerAfter deps init calls) ∧
    ∀ e, r = .error e → ownerAfter deps init calls = some deps.instanceId) ?_ ?_ ?_
  · refine Method.sat_call_bind trivial fun now _ => ?_
    have timed := minds.minor minor_now now
    refine sat_storeCall_bind ?_ (fun _ _ => ?_) fun _ _ => ⟨rfl, ?_, fun _ _ => rfl⟩
    · show batch.map (fun e => e.id) = (inFlight _).map _
      rw [timed.flying]
    · refine Method.Sat.pure ⟨rfl, fun _ _ => timed.owner, ?_⟩
      intro e same
      cases same
    · intro a same
      cases same
  · intro calls s a holds
    exact ⟨holds.1, holds.2.1 a rfl⟩
  · intro calls s err holds
    exact Method.Sat.modify ⟨holds.1, (holds.2.2 err rfl).symm⟩

theorem deliverRoute_minds {now : Int} {routeId : String} (minds : Minds deps init [] calls s) :
    (deliverRoute deps now routeId).Sat (stewardship deps init) calls s
      fun calls s _ => Minds deps init [] calls s := by
  have given : ∀ routeId, Minor deps init (.getRoute routeId) :=
    fun _ => ⟨fun _ => trivial, fun _ _ => rfl, fun _ _ => rfl⟩
  have paused : ∀ routeId, Minor deps init (.isRoutePaused routeId) :=
    fun _ => ⟨fun _ => trivial, fun _ _ => rfl, fun _ _ => rfl⟩
  refine Method.sat_call_bind trivial fun route _ => Method.sat_call_bind trivial fun stopped _ => ?_
  have asked := (minds.minor (given routeId) route).minor (paused routeId) stopped
  refine Method.sat_ofExcept_bind (fun found _ => ?_) fun _ _ => asked
  refine Method.sat_ofExcept_bind (fun stopped _ => ?_) fun _ _ => asked
  cases found with
  | none => exact Method.Sat.modify (asked.restate rfl)
  | some found =>
    simp only []
    split
    · exact Method.Sat.modify (asked.restate rfl)
    · refine Method.sat_call_bind trivial fun claimedAt _ => ?_
      have timed := asked.minor minor_now claimedAt
      refine sat_storeCall_bind ⟨timed.flying, rfl⟩ (fun claimed _ => ?_)
        fun _ _ => ⟨timed.flying, timed.owner⟩
      split
      · rename_i none_
        exact Method.Sat.pure ⟨List.isEmpty_iff.mp none_, timed.owner⟩
      · refine Method.Sat.ensuring _ (deliverBatch_steady _ _ ⟨rfl, timed.owner⟩) ?_
        intro calls s r left
        refine (releaseLeftover_minds left.1).mono fun _ _ c minds => ?_
        cases c <;> exact minds

theorem deliverDue_minds {now : Int} {due : List String} (minds : Minds deps init [] calls s) :
    (deliverDue deps now due).Sat (stewardship deps init) calls s
      fun calls s _ => Minds deps init [] calls s := by
  induction due generalizing calls s with
  | nil => exact Method.Sat.pure minds
  | cons routeId due ih =>
    refine Method.sat_call_bind trivial fun aborted _ => ?_
    have minor : Minor deps init .aborted := ⟨fun _ => trivial, fun _ _ => rfl, fun _ _ => rfl⟩
    have asked := minds.minor minor aborted
    split
    · exact Method.Sat.pure asked
    · exact Method.Sat.bind _ (deliverRoute_minds asked) (fun _ _ _ minds => ih minds)
        fun _ _ _ minds => minds

/-- Housekeeping recovers for the remembered owner, and forgets it when that succeeds. -/
theorem housekeeping_minds {now : Int} (minds : Minds deps init [] calls s)
    (unclaimed : claims calls = []) :
    (housekeeping deps now).Sat (stewardship deps init) calls s
      fun calls s _ => Minds deps init [] calls s := by
  refine Method.sat_call_bind trivial fun startedAt _ => Method.sat_get_bind ?_
  have timed := minds.minor minor_now startedAt
  extract_lets sweepDue
  split
  · refine Method.Sat.tryCatch (fun calls s _ => Minds deps init [] calls s) ?_
      (fun _ _ _ minds => minds) fun _ _ _ minds => Method.Sat.modify (minds.restate rfl)
    refine Method.sat_get_bind (sat_storeCall_bind ⟨timed.flying, unclaimed, timed.owner⟩
      (fun count _ => ?_) fun _ _ => ⟨timed.flying, timed.owner⟩)
    refine Method.sat_modify_bind ?_
    have recovered : Minds deps init [] (⟨.store (.recoverDelivering now s.reclaimOwner), .ok count⟩ ::
        ⟨.now, startedAt⟩ :: calls) { s with reclaimOwner := none } := ⟨timed.flying, rfl⟩
    split
    · refine sat_storeCall_bind trivial (fun expired _ => ?_)
        fun _ _ => ⟨recovered.flying, recovered.owner⟩
      refine Method.sat_call_bind trivial fun sweptAt _ => Method.Sat.modify ?_
      exact ⟨recovered.flying, recovered.owner⟩
    · exact Method.Sat.pure recovered
  · exact Method.Sat.pure timed

/-- Whatever it is answered, a cycle recovers for the owner its calls give, marks
and releases only rows of its batch, and ends with no batch in flight and the
field as its calls say. -/
theorem runOnce_minds (deps : DispatcherDeps) (s : State) :
    (runOnce deps).Sat (stewardship deps s.reclaimOwner) [] s
      fun calls s' _ => Minds deps s.reclaimOwner [] calls s' := by
  refine Method.Sat.tryCatch (fun calls s' _ => Minds deps s.reclaimOwner [] calls s') ?_
    (fun _ _ _ minds => minds)
    fun _ _ _ minds => Method.sat_modify_bind (Method.Sat.throw (minds.restate rfl))
  refine Method.sat_call_bind trivial fun now _ => Method.sat_modify_bind ?_
  have started : Minds deps s.reclaimOwner [] [⟨.now, now⟩] { s with summary := {} } := ⟨rfl, rfl⟩
  refine Method.Sat.bind _ (housekeeping_minds started rfl) (fun calls s' _ ready => ?_)
    fun _ _ _ minds => minds
  refine Method.Sat.bind (fun calls s' _ => Minds deps s.reclaimOwner [] calls s') ?_
    (fun _ _ _ minds => Method.sat_get_bind (Method.Sat.pure minds)) fun _ _ _ minds => minds
  refine Method.sat_call_bind trivial fun killswitch _ => ?_
  have minor : Minor deps s.reclaimOwner .getKillswitch :=
    ⟨fun _ => trivial, fun _ _ => rfl, fun _ _ => rfl⟩
  have read := ready.minor minor killswitch
  refine Method.sat_ofExcept_bind (fun killswitch _ => ?_) fun _ _ => read
  split
  · refine sat_storeCall_bind trivial (fun due _ => ?_) fun _ _ => ⟨read.flying, read.owner⟩
    exact Method.sat_modify_bind (deliverDue_minds ⟨read.flying, read.owner⟩)
  · exact Method.Sat.modify (read.restate rfl)

end

end EndCloseRelay.Dispatcher
