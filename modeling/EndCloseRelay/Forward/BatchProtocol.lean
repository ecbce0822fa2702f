import EndCloseRelay.Forward.Dispatcher
import Mathlib.Data.List.Nodup

/-!
# What a cycle may call when

The calls an instance has made in its current cycle, latest first, tell which
batch it has in flight and which rows of it are still open.  `protocol` says
what each call of a cycle requires of them, and `runOnce_sat` that the
dispatcher keeps to it, whatever the world answers.
-/

namespace EndCloseRelay.Dispatcher

open Interaction

/-- The calls of a cycle with their answers, latest first. -/
abbrev Calls := List (Exchange Op.Answer)

/-! ## Reading the calls -/

/-- What an exchange means for the batch in flight. -/
inductive BatchEvent
  | claimed (events : List EventRecord)
  | settled (ids : List Nat)
  | released
  | quiet

/-- Only a successful claim or mark counts; a release ends the batch either way. -/
def batchEvent : Exchange Op.Answer → BatchEvent
  | ⟨.store (.claimDue ..), .ok events⟩ => .claimed events
  | ⟨.store (.markDelivered ids _ _), .ok _⟩ => .settled ids
  | ⟨.store (.markFailed ids _ _), .ok _⟩ => .settled ids
  | ⟨.store (.markParked ids _), .ok _⟩ => .settled ids
  | ⟨.store (.releaseDelivering ..), _⟩ => .released
  | _ => .quiet

/-- Only the rows of a successful claim become a batch. -/
theorem claimed_of_batchEvent {x : Exchange Op.Answer} {events : List EventRecord}
    (claims : batchEvent x = .claimed events) :
    ∃ routeId now limit lease, x = ⟨.store (.claimDue routeId now limit lease), .ok events⟩ := by
  unfold batchEvent at claims
  split at claims <;> cases claims
  exact ⟨_, _, _, _, rfl⟩

/-- Only a successful call settles. -/
theorem settled_of_batchEvent {x : Exchange Op.Answer} {ids : List Nat}
    (settles : batchEvent x = .settled ids) : ∃ op answer, x = ⟨.store op, .ok answer⟩ := by
  unfold batchEvent at settles
  split at settles <;> cases settles <;> exact ⟨_, _, rfl⟩

/-- The batch in flight: claimed, and not yet released. -/
def inFlight : Calls → List EventRecord
  | [] => []
  | x :: calls =>
    match batchEvent x with
    | .claimed events => events
    | .released => []
    | .settled _ | .quiet => inFlight calls

/-- The ids of the batch in flight that no successful call has settled. -/
def opens : Calls → List Nat
  | [] => []
  | x :: calls =>
    match batchEvent x with
    | .claimed events => events.map fun e => e.id
    | .released => []
    | .settled ids => (opens calls).filter (· ∉ ids)
    | .quiet => opens calls

/-- The rejected rows of the batch were parked, and the call that should have
marked the others delivered failed. -/
def halfSettled : Calls → Bool
  | ⟨.store (.markDelivered ..), .error _⟩ :: ⟨.store (.markParked ids _), .ok _⟩ :: _ =>
    !ids.isEmpty
  | _ => false

/-- The catch clause is about to settle the whole of a half settled batch again. -/
def slipping : Calls → Bool
  | ⟨.random, _⟩ :: ⟨.now, _⟩ :: calls => halfSettled calls
  | _ => false

/-- How the pending fields of a record were filled, from calls the cycle made. -/
inductive Filled (event : EventRecord) (payload : Json) (calls : Calls) :
    List PendingEnrichment → EndCloseRecord → EndCloseRecord → Prop
  | done {record} : Filled event payload calls [] record record
  | omitted {p pending record filled returned}
      (asked : ⟨.enrich event.id p.enrichment p.input (enrichContext event payload p.field),
        returned⟩ ∈ calls)
      (checked : checkReturned p.field returned = .ok none)
      (rest : Filled event payload calls pending record filled) :
      Filled event payload calls (p :: pending) record filled
  | applied {p pending record filled returned value}
      (asked : ⟨.enrich event.id p.enrichment p.input (enrichContext event payload p.field),
        returned⟩ ∈ calls)
      (checked : checkReturned p.field returned = .ok (some value))
      (rest : Filled event payload calls pending (fillField record p.field value) filled) :
      Filled event payload calls (p :: pending) record filled

/-- The record was built from the event: read and mapped under the route the
cycle was given for it, and filled with what the host answered. -/
def BuiltFrom (deps : DispatcherDeps) (calls : Calls) (event : EventRecord)
    (record : EndCloseRecord) : Prop :=
  ∃ route payload result, (⟨.getRoute event.routeId, .ok (some route)⟩ : Exchange Op.Answer) ∈ calls ∧
    readEvent deps route event = .ok (payload, result) ∧
    Filled event payload calls result.pending result.record record

/-- End Close answered a POST that held the record of the event with success. -/
def Posted (deps : DispatcherDeps) (calls : Calls) (event : EventRecord) : Prop :=
  ∃ key records answer,
    (⟨.bulkCreateRecords key records, answer⟩ : Exchange Op.Answer) ∈ calls ∧
    HttpAnswer.isSuccess answer ∧ ∃ record ∈ records, BuiltFrom deps calls event record

/-! ## The protocol -/

/-- What a call to the store requires of the calls before it. -/
def storeAllowed (deps : DispatcherDeps) (calls : Calls) : StoreOp → Prop
  | .routesWithDueEvents _ | .recoverDelivering .. | .parkExpired .. => inFlight calls = []
  | .claimDue _ _ _ lease => inFlight calls = [] ∧ lease.owner = deps.instanceId
  | .markDelivered ids _ _ =>
    (∀ id ∈ ids, id ∈ opens calls) ∧
      ∀ event ∈ inFlight calls, event.id ∈ ids → Posted deps calls event
  | .markFailed ids _ _ => (∀ id ∈ ids, id ∈ opens calls) ∨ slipping calls
  | .markParked ids _ => ∀ id ∈ ids, id ∈ opens calls
  | .releaseDelivering ids _ _ => ids = (inFlight calls).map fun e => e.id
  | .insert _ | .pruneBatch .. | .replay .. | .replayAllParked _ => False

/-- The records are those of open events of the batch, in their order. -/
def Postable (deps : DispatcherDeps) (calls : Calls) (records : List EndCloseRecord) : Prop :=
  ∃ built : List (EventRecord × EndCloseRecord), records = built.map Prod.snd ∧
    (built.map Prod.fst).Sublist (inFlight calls) ∧
    ∀ b ∈ built, b.1.id ∈ opens calls ∧ BuiltFrom deps calls b.1 b.2

/-- What a call requires of the calls before it. -/
def allowed (deps : DispatcherDeps) (calls : Calls) : Op → Prop
  | .store op => storeAllowed deps calls op
  | .bulkCreateRecords _ records => Postable deps calls records
  | _ => True

/-- Every record of a POST is that of an open event. -/
theorem Postable.each {deps : DispatcherDeps} {calls : Calls} {records : List EndCloseRecord}
    (postable : Postable deps calls records) : ∀ record ∈ records,
      ∃ event ∈ inFlight calls, event.id ∈ opens calls ∧ BuiltFrom deps calls event record := by
  obtain ⟨built, rfl, sublist, each⟩ := postable
  intro record member
  obtain ⟨b, there, rfl⟩ := List.mem_map.mp member
  exact ⟨b.1, sublist.subset (List.mem_map_of_mem there), each b there⟩

/-- The error is one of the HTTP client's refusals. -/
def isRefusal : RelayError → Bool
  | .permanentHttp .. => true
  | _ => false

/-- The rows a claim may return: distinct ones of the route. -/
structure IsClaim (routeId : String) (claimed : List EventRecord) : Prop where
  nodup : (claimed.map fun e => e.id).Nodup
  route : ∀ e ∈ claimed, e.routeId = routeId

/-- What a store answers: never an error of the HTTP client. -/
def storeAdmits : (op : StoreOp) → Except RelayError op.Result → Prop
  | _, .error err => isRefusal err = false
  | .claimDue routeId _ _ _, .ok claimed => IsClaim routeId claimed
  | _, .ok _ => True

/-- What the world answers. -/
def admits : (op : Op) → op.Answer → Prop
  | .store op, answer => storeAdmits op answer
  | _, _ => True

/-- What an instance keeps to in a cycle, as long as its store is one. -/
def protocol (deps : DispatcherDeps) : Discipline Op Op.Answer where
  allowed := allowed deps
  admits _ op answer := admits op answer

/-! ## Going on within a batch -/

theorem Filled.mono {event : EventRecord} {payload : Json} {calls calls' : Calls}
    (more : calls ⊆ calls') {pending : List PendingEnrichment} {record filled : EndCloseRecord}
    (fills : Filled event payload calls pending record filled) :
    Filled event payload calls' pending record filled := by
  induction fills with
  | done => exact .done
  | omitted asked checked _ ih => exact .omitted (more asked) checked ih
  | applied asked checked _ ih => exact .applied (more asked) checked ih

theorem BuiltFrom.mono {deps : DispatcherDeps} {calls calls' : Calls} (more : calls ⊆ calls')
    {event : EventRecord} {record : EndCloseRecord} (built : BuiltFrom deps calls event record) :
    BuiltFrom deps calls' event record := by
  obtain ⟨route, payload, result, given, read, fills⟩ := built
  exact ⟨route, payload, result, more given, read, fills.mono more⟩

theorem Posted.mono {deps : DispatcherDeps} {calls calls' : Calls} (more : calls ⊆ calls')
    {event : EventRecord} (posted : Posted deps calls event) : Posted deps calls' event := by
  obtain ⟨key, records, answer, sent, success, record, member, built⟩ := posted
  exact ⟨key, records, answer, more sent, success, record, member, built.mono more⟩

/-- The calls have gone on with the same batch in flight, settling at most the
rows of the given ids. -/
structure Onward (settled : List Nat) (old calls : Calls) : Prop where
  recorded : old ⊆ calls
  flying : inFlight calls = inFlight old
  kept : ∀ id ∈ opens old, id ∉ settled → id ∈ opens calls

namespace Onward

variable {settled settled' : List Nat} {old mid calls : Calls}

theorem refl (calls : Calls) : Onward [] calls calls :=
  ⟨fun _ member => member, rfl, fun _ isOpen _ => isOpen⟩

theorem trans (first : Onward settled old mid) (second : Onward settled' mid calls) :
    Onward (settled ++ settled') old calls where
  recorded := fun _ member => second.recorded (first.recorded member)
  flying := second.flying.trans first.flying
  kept id isOpen spared := by
    rw [List.mem_append, not_or] at spared
    exact second.kept id (first.kept id isOpen spared.1) spared.2

theorem mono (onward : Onward settled old calls) (more : settled ⊆ settled') :
    Onward settled' old calls where
  recorded := onward.recorded
  flying := onward.flying
  kept id isOpen spared := onward.kept id isOpen fun listed => spared (more listed)

/-- A call that neither claims, settles nor releases. -/
theorem quiet {x : Exchange Op.Answer} (onward : Onward settled old calls)
    (flying : inFlight (x :: calls) = inFlight calls) (open_ : opens (x :: calls) = opens calls) :
    Onward settled old (x :: calls) where
  recorded := fun _ member => List.mem_cons_of_mem _ (onward.recorded member)
  flying := flying.trans onward.flying
  kept id isOpen spared := by
    rw [open_]
    exact onward.kept id isOpen spared

/-- A call that settles rows of the batch. -/
theorem settle {x : Exchange Op.Answer} {ids : List Nat} (onward : Onward settled old calls)
    (flying : inFlight (x :: calls) = inFlight calls)
    (open_ : opens (x :: calls) = (opens calls).filter (· ∉ ids)) (within : ids ⊆ settled) :
    Onward settled old (x :: calls) where
  recorded := fun _ member => List.mem_cons_of_mem _ (onward.recorded member)
  flying := flying.trans onward.flying
  kept id isOpen spared := by
    rw [open_, List.mem_filter, decide_eq_true_iff]
    exact ⟨onward.kept id isOpen spared, fun listed => spared (within listed)⟩

end Onward

/-- What is open is of the batch in flight. -/
theorem mem_inFlight_of_opens {calls : Calls} {id : Nat} (isOpen : id ∈ opens calls) :
    ∃ e ∈ inFlight calls, e.id = id := by
  induction calls with
  | nil => cases isOpen
  | cons x calls ih =>
    unfold opens at isOpen
    unfold inFlight
    cases event : batchEvent x with
    | claimed events =>
      rw [event] at isOpen
      exact List.mem_map.mp isOpen
    | released =>
      rw [event] at isOpen
      cases isOpen
    | settled ids =>
      rw [event] at isOpen
      exact ih (List.mem_filter.mp isOpen).1
    | quiet =>
      rw [event] at isOpen
      exact ih isOpen

/-! ## The methods keep to the protocol -/

section

variable {deps : DispatcherDeps} {calls : Calls} {s : State}

/-- A call to the store, under any discipline. -/
theorem sat_storeCall_bind {D : Discipline Op Op.Answer} {β : Type} {op : StoreOp}
    {f : op.Result → Body β} {post : Method.Post Op.Answer State RelayError β}
    (allowed : D.allowed calls (.store op))
    (onward : ∀ a, D.admits calls (.store op) (.ok a) →
      (f a).Sat D (⟨.store op, .ok a⟩ :: calls) s post)
    (stop : ∀ err, D.admits calls (.store op) (.error err) →
      post (⟨.store op, .error err⟩ :: calls) s (.error err)) :
    (store op >>= f).Sat D calls s post := by
  refine ⟨allowed, ?_⟩
  intro answer admitted
  cases answer with
  | ok a => exact onward a admitted
  | error err => exact stop err admitted

theorem sat_store_bind {β : Type} {op : StoreOp} {f : op.Result → Body β}
    {post : Method.Post Op.Answer State RelayError β} (allowed : storeAllowed deps calls op)
    (onward : ∀ a, storeAdmits op (.ok a) →
      (f a).Sat (protocol deps) (⟨.store op, .ok a⟩ :: calls) s post)
    (stop : ∀ err, isRefusal err = false →
      post (⟨.store op, .error err⟩ :: calls) s (.error err)) :
    (store op >>= f).Sat (protocol deps) calls s post :=
  sat_storeCall_bind allowed onward stop

/-- The backoff of a row or a batch reads the clock and draws a number. -/
theorem sat_scheduleAttempt_bind {β : Type} {attempts : Nat} {f : Int → Body β}
    {post : Method.Post Op.Answer State RelayError β}
    (onward : ∀ now random next,
      (f next).Sat (protocol deps) (⟨.random, random⟩ :: ⟨.now, now⟩ :: calls) s post) :
    (scheduleAttempt deps attempts >>= f).Sat (protocol deps) calls s post :=
  ⟨trivial, fun now _ => ⟨trivial, fun random _ => onward now random _⟩⟩

theorem parkOne_sat {event : EventRecord} {reason : String} (isOpen : event.id ∈ opens calls) :
    (parkOne event reason).Sat (protocol deps) calls s
      fun calls' _ _ => Onward [event.id] calls calls' := by
  have start : Onward [event.id] calls calls := (Onward.refl calls).mono (by simp)
  refine sat_store_bind (fun id listed => ?_) (fun _ _ => ?_) (fun err _ => ?_)
  · rw [List.mem_singleton.mp listed]
    exact isOpen
  · exact Method.Sat.modify (start.settle rfl rfl (List.Subset.refl _))
  · exact start.quiet rfl rfl

theorem retryOne_sat {event : EventRecord} {message : String} (isOpen : event.id ∈ opens calls) :
    (retryOne deps event message).Sat (protocol deps) calls s
      fun calls' _ _ => Onward [event.id] calls calls' := by
  refine sat_scheduleAttempt_bind fun now random next => ?_
  have start : Onward [event.id] calls (⟨.random, random⟩ :: ⟨.now, now⟩ :: calls) :=
    (((Onward.refl calls).mono (by simp)).quiet rfl rfl).quiet rfl rfl
  refine sat_store_bind (.inl fun id listed => ?_) (fun _ _ => ?_) (fun err _ => ?_)
  · rw [List.mem_singleton.mp listed]
    exact isOpen
  · exact Method.Sat.modify (start.settle rfl rfl (List.Subset.refl _))
  · exact start.quiet rfl rfl

theorem settleUnmapped_sat {event : EventRecord} {stage : Stage} {err : RelayError}
    (isOpen : event.id ∈ opens calls) :
    (settleUnmapped deps event stage err).Sat (protocol deps) calls s
      fun calls' _ _ => Onward [event.id] calls calls' := by
  unfold settleUnmapped
  split
  · exact parkOne_sat isOpen
  · exact parkOne_sat isOpen
  · cases stage with
    | enrichment => exact retryOne_sat isOpen
    | mapping => exact Method.Sat.throw ((Onward.refl calls).mono (by simp))

theorem resolveEnrichments_sat {event : EventRecord} {payload : Json}
    {pending : List PendingEnrichment} {record : EndCloseRecord} :
    (resolveEnrichments deps event payload pending record).Sat (protocol deps) calls s
      fun calls' _ r => Onward [] calls calls' ∧
        ∀ filled, r = .ok filled → Filled event payload calls' pending record filled := by
  induction pending generalizing calls s record with
  | nil =>
    refine Method.Sat.pure ⟨Onward.refl calls, fun filled same => ?_⟩
    cases same
    exact .done
  | cons p pending ih =>
    unfold resolveEnrichments
    split
    · refine Method.sat_call_bind trivial fun returned _ => ?_
      have asked : Onward [] calls (⟨.enrich event.id p.enrichment p.input
          (enrichContext event payload p.field), returned⟩ :: calls) :=
        (Onward.refl calls).quiet rfl rfl
      cases checked : checkReturned p.field returned with
      | error err =>
        refine Method.sat_modify_bind (Method.Sat.throw ⟨asked, fun filled same => ?_⟩)
        cases same
      | ok value =>
        cases value with
        | none =>
          refine Method.sat_modify_bind (ih.mono fun calls' _ r holds => ?_)
          refine ⟨asked.trans holds.1, fun filled same => ?_⟩
          exact .omitted (holds.1.recorded (List.mem_cons_self ..)) checked (holds.2 filled same)
        | some value =>
          refine Method.sat_modify_bind (ih.mono fun calls' _ r holds => ?_)
          refine ⟨asked.trans holds.1, fun filled same => ?_⟩
          exact .applied (holds.1.recorded (List.mem_cons_self ..)) checked (holds.2 filled same)
    · refine Method.sat_modify_bind (Method.Sat.throw ⟨Onward.refl calls, fun filled same => ?_⟩)
      cases same

theorem buildRecord_sat {route : RouteConfig} {event : EventRecord}
    (given : ⟨.getRoute event.routeId, .ok (some route)⟩ ∈ calls)
    (isOpen : event.id ∈ opens calls) :
    (buildRecord deps route event).Sat (protocol deps) calls s fun calls' _ r =>
      Onward [event.id] calls calls' ∧ ∀ record, r = .ok (some record) →
        event.id ∈ opens calls' ∧ BuiltFrom deps calls' event record := by
  have start : Onward [event.id] calls calls := (Onward.refl calls).mono (by simp)
  unfold buildRecord
  cases read : readEvent deps route event with
  | error err =>
    refine Method.Sat.bind _ (settleUnmapped_sat isOpen) (fun calls' _ _ holds => ?_)
      (fun calls' _ _ holds => ?_)
    · refine Method.Sat.pure ⟨holds, fun record same => ?_⟩
      cases same
    · refine ⟨holds, fun record same => ?_⟩
      cases same
  | ok out =>
    obtain ⟨payload, result⟩ := out
    simp only []
    split
    · rename_i none_
      refine Method.Sat.pure ⟨start, fun record same => ?_⟩
      cases same
      refine ⟨isOpen, route, payload, result, given, read, ?_⟩
      rw [List.isEmpty_iff.mp none_]
      exact .done
    · refine Method.Sat.tryCatch (fun calls' _ r => Onward [] calls calls' ∧
        ∀ record, r = .ok (some record) → BuiltFrom deps calls' event record) ?_ ?_ ?_
      · rw [map_eq_pure_bind]
        refine Method.Sat.bind _ resolveEnrichments_sat (fun calls' _ filled holds => ?_)
          (fun calls' _ _ holds => ⟨holds.1, fun record same => by cases same⟩)
        refine Method.Sat.pure ⟨holds.1, fun record same => ?_⟩
        cases same
        exact ⟨route, payload, result, holds.1.recorded given, read, holds.2 _ rfl⟩
      · intro calls' _ out holds
        refine ⟨holds.1.mono (by simp), fun record same => ?_⟩
        exact ⟨holds.1.kept event.id isOpen (List.not_mem_nil), holds.2 record same⟩
      · intro calls' _ err holds
        have still : event.id ∈ opens calls' := holds.1.kept event.id isOpen List.not_mem_nil
        refine Method.Sat.bind _ (settleUnmapped_sat still) (fun calls'' _ _ after => ?_)
          (fun calls'' _ _ after => ⟨holds.1.trans after, fun record same => by cases same⟩)
        exact Method.Sat.pure ⟨holds.1.trans after, fun record same => by cases same⟩

/-- What the loop over the claimed events leaves for the POST. -/
structure Built (deps : DispatcherDeps) (calls : Calls) (events : List EventRecord)
    (built : List (EventRecord × EndCloseRecord)) : Prop where
  sublist : (built.map Prod.fst).Sublist events
  isOpen : ∀ b ∈ built, b.1.id ∈ opens calls
  built : ∀ b ∈ built, BuiltFrom deps calls b.1 b.2

theorem buildRecords_sat {route : RouteConfig} {events : List EventRecord}
    (given : ∀ e ∈ events, ⟨.getRoute e.routeId, .ok (some route)⟩ ∈ calls)
    (isOpen : ∀ e ∈ events, e.id ∈ opens calls) (nodup : (events.map fun e => e.id).Nodup) :
    (buildRecords deps route events).Sat (protocol deps) calls s fun calls' _ r =>
      Onward (events.map fun e => e.id) calls calls' ∧
        ∀ built, r = .ok built → Built deps calls' events built := by
  induction events generalizing calls s with
  | nil =>
    refine Method.Sat.pure ⟨Onward.refl calls, fun built same => ?_⟩
    cases same
    exact ⟨List.nil_sublist _, by simp, by simp⟩
  | cons event events ih =>
    rw [List.map_cons, List.nodup_cons] at nodup
    refine Method.Sat.bind _
      (buildRecord_sat (given event (List.mem_cons_self ..)) (isOpen event (List.mem_cons_self ..)))
      (fun mid _ record first => ?_)
      (fun mid _ err first => ⟨first.1.mono (by simp), fun built same => by cases same⟩)
    refine Method.Sat.bind _ (ih
        (fun e member => first.1.recorded (given e (List.mem_cons_of_mem _ member)))
        (fun e member => first.1.kept e.id (isOpen e (List.mem_cons_of_mem _ member)) ?_) nodup.2)
      (fun calls' _ built rest => ?_)
      (fun calls' _ err rest => ⟨first.1.trans rest.1, fun built same => by cases same⟩)
    · intro same
      rw [List.mem_singleton] at same
      exact nodup.1 (same ▸ List.mem_map_of_mem member)
    · refine Method.Sat.pure ⟨first.1.trans rest.1, fun out same => ?_⟩
      obtain rfl := Except.ok.inj same
      obtain ⟨sublist, stillOpen, fromCalls⟩ := rest.2 built rfl
      cases record with
      | none => exact ⟨sublist.cons _, stillOpen, fromCalls⟩
      | some record =>
        obtain ⟨eventOpen, eventBuilt⟩ := first.2 record rfl
        refine ⟨sublist.cons_cons _, fun b member => ?_, fun b member => ?_⟩
        · rcases List.mem_cons.mp member with rfl | member
          · exact rest.1.kept event.id eventOpen nodup.1
          · exact stillOpen b member
        · rcases List.mem_cons.mp member with rfl | member
          · exact eventBuilt.mono rest.1.recorded
          · exact fromCalls b member

theorem Postable.onward {records : List EndCloseRecord} {calls' : Calls}
    (postable : Postable deps calls records) (onward : Onward [] calls calls') :
    Postable deps calls' records := by
  obtain ⟨built, rfl, sublist, each⟩ := postable
  refine ⟨built, rfl, onward.flying ▸ sublist, fun b member => ?_⟩
  obtain ⟨isOpen, from_⟩ := each b member
  exact ⟨onward.kept b.1.id isOpen List.not_mem_nil, from_.mono onward.recorded⟩

theorem postAttempts_sat {records : List EndCloseRecord} {attempts : List Nat}
    {lastErr : RelayError} (postable : Postable deps calls records) :
    (postAttempts deps records attempts lastErr).Sat (protocol deps) calls s fun calls' _ r =>
      Onward [] calls calls' ∧ ∀ accepted, r = .ok accepted → ∃ key answer,
        (⟨.bulkCreateRecords key records, answer⟩ : Exchange Op.Answer) ∈ calls' ∧
          HttpAnswer.isSuccess answer := by
  induction attempts generalizing calls s lastErr with
  | nil => exact Method.Sat.throw ⟨Onward.refl calls, fun accepted same => by cases same⟩
  | cons attempt attempts ih =>
    refine Method.sat_call_bind postable fun answer _ => ?_
    have sent : Onward [] calls
        (⟨.bulkCreateRecords (idempotencyKey deps.runtime records) records, answer⟩ :: calls) :=
      (Onward.refl calls).quiet rfl rfl
    split
    · rename_i accepted read
      refine Method.Sat.pure ⟨sent, fun accepted' _ => ?_⟩
      exact ⟨_, answer, List.mem_cons_self .., HttpAnswer.isSuccess_of_read read⟩
    · refine Method.sat_call_bind trivial fun _ _ => ?_
      have slept := sent.quiet (x := ⟨.sleep (500 * (attempt + 1)), ()⟩) rfl rfl
      exact (ih (postable.onward slept)).mono fun calls' _ r holds =>
        ⟨slept.trans holds.1, holds.2⟩
    · exact Method.Sat.throw ⟨sent, fun accepted same => by cases same⟩

theorem pollResults_sat {bulkRequestId : Option String} {attempts : Nat} :
    (pollResults bulkRequestId attempts).Sat (protocol deps) calls s
      fun calls' _ _ => Onward [] calls calls' := by
  induction attempts generalizing calls s with
  | zero => exact Method.Sat.pure (Onward.refl calls)
  | succ attempts ih =>
    refine Method.sat_call_bind trivial fun answer _ => ?_
    have polled : Onward [] calls (⟨.getBulkRequest bulkRequestId, answer⟩ :: calls) :=
      (Onward.refl calls).quiet rfl rfl
    split
    · exact Method.Sat.pure polled
    · exact Method.Sat.throw polled
    · split
      · refine Method.sat_call_bind trivial fun _ _ => ?_
        have slept := polled.quiet (x := ⟨.sleep resultPollDelayMs, ()⟩) rfl rfl
        exact ih.mono fun calls' _ r holds => slept.trans holds
      · exact Method.sat_ofExcept_bind (fun _ _ => Method.Sat.pure polled) fun _ _ => polled

/-- The events of a batch that is about to be settled: distinct, open, and
posted when they are of the batch in flight. -/
structure Settleable (deps : DispatcherDeps) (calls : Calls) (mapped : List EventRecord) :
    Prop where
  nodup : (mapped.map fun e => e.id).Nodup
  isOpen : ∀ e ∈ mapped, e.id ∈ opens calls
  posted : ∀ e ∈ inFlight calls, e.id ∈ mapped.map (fun e => e.id) → Posted deps calls e

theorem Settleable.onward {mapped : List EventRecord} {calls' : Calls}
    (settleable : Settleable deps calls mapped) (onward : Onward [] calls calls') :
    Settleable deps calls' mapped where
  nodup := settleable.nodup
  isOpen e member := onward.kept e.id (settleable.isOpen e member) List.not_mem_nil
  posted e flying listed :=
    (settleable.posted e (onward.flying ▸ flying) listed).mono onward.recorded

theorem okEvents_sublist (failed : List String) (mapped : List EventRecord) :
    (okEvents failed mapped).Sublist mapped := by
  unfold okEvents
  have sub := (List.filter_sublist
    (p := fun entry => !isFailed failed entry) (l := mapped.zipIdx)).map Prod.fst
  rwa [List.zipIdx_map_fst] at sub

theorem failedEvents_sublist (failed : List String) (mapped : List EventRecord) :
    (failedEvents failed mapped).Sublist mapped := by
  unfold failedEvents
  have sub := (List.filter_sublist
    (p := fun entry => isFailed failed entry) (l := mapped.zipIdx)).map Prod.fst
  rwa [List.zipIdx_map_fst] at sub

theorem mem_failedEvents {failed : List String} {mapped : List EventRecord} {e : EventRecord} :
    e ∈ failedEvents failed mapped ↔ ∃ i, mapped[i]? = some e ∧ isFailed failed (e, i) := by
  simp [failedEvents, List.mem_zipIdx_iff_getElem?]

theorem mem_okEvents {failed : List String} {mapped : List EventRecord} {e : EventRecord} :
    e ∈ okEvents failed mapped ↔ ∃ i, mapped[i]? = some e ∧ ¬ isFailed failed (e, i) := by
  simp [okEvents, List.mem_zipIdx_iff_getElem?]

/-- The entries of a batch with distinct ids are told apart by their ids. -/
theorem index_eq_of_id {mapped : List EventRecord} (nodup : (mapped.map fun e => e.id).Nodup)
    {e e' : EventRecord} {i j : Nat} (atI : mapped[i]? = some e) (atJ : mapped[j]? = some e')
    (same : e.id = e'.id) : i = j := by
  have below : i < (mapped.map fun e => e.id).length := by
    rw [List.length_map]
    exact (List.getElem?_eq_some_iff.mp atI).1
  apply (List.getElem?_inj below nodup).mp
  rw [List.getElem?_map, List.getElem?_map, atI, atJ, Option.map_some, Option.map_some, same]

/-- No row is both parked and marked delivered. -/
theorem not_mem_failedEvents {failed : List String} {mapped : List EventRecord}
    (nodup : (mapped.map fun e => e.id).Nodup) {e : EventRecord} (ok : e ∈ okEvents failed mapped) :
    e.id ∉ (failedEvents failed mapped).map fun e => e.id := by
  intro listed
  obtain ⟨e', parked, same⟩ := List.mem_map.mp listed
  obtain ⟨i, atI, spared⟩ := mem_okEvents.mp ok
  obtain ⟨j, atJ, hit⟩ := mem_failedEvents.mp parked
  obtain rfl := index_eq_of_id nodup atI atJ same.symm
  rw [atI] at atJ
  obtain rfl := Option.some.inj atJ
  exact spared hit

/-- How a settlement can end: with an error of no refusal, after which the
whole batch is still open or it is half settled. -/
def SettleFailed (mapped : List EventRecord) (calls : Calls) (err : RelayError) : Prop :=
  (∀ e ∈ mapped, e.id ∈ opens calls) ∨ (halfSettled calls ∧ isRefusal err = false)

theorem settleResults_sat {bulkRequestId : Option String} {mapped : List EventRecord}
    (settleable : Settleable deps calls mapped) :
    (settleResults bulkRequestId mapped).Sat (protocol deps) calls s fun calls' _ r =>
      Onward (mapped.map fun e => e.id) calls calls' ∧
        ∀ err, r = .error err → SettleFailed mapped calls' err := by
  refine Method.sat_call_bind trivial fun deliveredAt _ => ?_
  have timed : Onward [] calls (⟨.now, deliveredAt⟩ :: calls) :=
    (Onward.refl calls).quiet rfl rfl
  refine Method.Sat.bind _ pollResults_sat (fun mid _ failed polled => ?_)
    (fun mid _ err polled => ?_)
  · have onward := timed.trans polled
    have ready := settleable.onward onward
    have spared : Onward (mapped.map fun e => e.id) calls mid := onward.mono (by simp)
    cases failed with
    | none =>
      refine sat_store_bind ⟨fun id listed => ?_, fun e flying listed => ?_⟩ (fun _ _ => ?_)
        (fun err _ => ?_)
      · obtain ⟨e, member, rfl⟩ := List.mem_map.mp listed
        exact ready.isOpen e member
      · exact ready.posted e flying listed
      · exact Method.Sat.modify
          ⟨spared.settle rfl rfl (List.Subset.refl _), fun err same => by cases same⟩
      · exact ⟨spared.quiet rfl rfl, fun err' _ => .inl ready.isOpen⟩
    | some failed =>
      have within : (failedEvents failed mapped).map (fun e => e.id) ⊆ mapped.map fun e => e.id :=
        ((failedEvents_sublist failed mapped).map _).subset
      refine sat_store_bind (fun id listed => ?_) (fun _ _ => ?_) (fun err _ => ?_)
      · obtain ⟨e, member, rfl⟩ := List.mem_map.mp (within listed)
        exact ready.isOpen e member
      · have parked := spared.settle (x := ⟨.store (.markParked
          ((failedEvents failed mapped).map fun e => e.id) rejectedReason), .ok ()⟩)
          rfl rfl within
        have okWithin : (okEvents failed mapped).map (fun e => e.id) ⊆ mapped.map fun e => e.id :=
          ((okEvents_sublist failed mapped).map _).subset
        refine sat_store_bind ⟨fun id listed => ?_, fun e flying listed => ?_⟩ (fun _ _ => ?_)
          (fun err gentle => ?_)
        · obtain ⟨e, member, rfl⟩ := List.mem_map.mp listed
          show e.id ∈ (opens mid).filter _
          rw [List.mem_filter, decide_eq_true_iff]
          exact ⟨ready.isOpen e ((okEvents_sublist failed mapped).subset member),
            not_mem_failedEvents settleable.nodup member⟩
        · exact (ready.posted e flying (okWithin listed)).mono
            (List.subset_cons_self _ _)
        · refine Method.sat_modify_bind (Method.Sat.modify ?_)
          exact ⟨parked.settle rfl rfl okWithin, fun err same => by cases same⟩
        · refine ⟨parked.quiet rfl rfl, fun err' same => ?_⟩
          cases same
          cases none_ : ((failedEvents failed mapped).map fun e => e.id).isEmpty with
          | true =>
            refine .inl fun e member => ?_
            show e.id ∈ (opens mid).filter _
            rw [List.isEmpty_iff.mp none_]
            simpa using ready.isOpen e member
          | false =>
            refine .inr ⟨?_, gentle⟩
            show (!List.isEmpty _) = true
            rw [none_]
            rfl
      · exact ⟨spared.quiet rfl rfl, fun err' _ => .inl ready.isOpen⟩
  · exact ⟨(timed.trans polled).mono (by simp),
      fun err' _ => .inl (settleable.onward (timed.trans polled)).isOpen⟩

theorem forwardBatch_sat {route : RouteConfig} {events : List EventRecord}
    {built : List (EventRecord × EndCloseRecord)} (flying : inFlight calls = events)
    (nodup : (events.map fun e => e.id).Nodup) (ready : Built deps calls events built) :
    (forwardBatch deps route built).Sat (protocol deps) calls s fun calls' _ r =>
      inFlight calls' = events ∧
        ∀ err, r = .error err → SettleFailed (built.map Prod.fst) calls' err := by
  have postable : Postable deps calls (built.map Prod.snd) :=
    ⟨built, rfl, flying ▸ ready.sublist, fun b listed => ⟨ready.isOpen b listed, ready.built b listed⟩⟩
  have stillOpen : ∀ {calls' : Calls}, Onward [] calls calls' →
      ∀ e ∈ built.map Prod.fst, e.id ∈ opens calls' := by
    intro calls' onward e member
    obtain ⟨b, listed, rfl⟩ := List.mem_map.mp member
    exact onward.kept b.1.id (ready.isOpen b listed) List.not_mem_nil
  refine Method.Sat.bind _ (postAttempts_sat postable) (fun mid _ accepted posted => ?_)
    (fun mid _ err posted => ⟨posted.1.flying.trans flying, fun _ _ => .inl (stillOpen posted.1)⟩)
  obtain ⟨key, answer, sent, success⟩ := posted.2 accepted rfl
  refine Method.sat_ofExcept_bind (fun bulkRequestId _ => ?_)
    (fun err _ => ⟨posted.1.flying.trans flying, fun _ _ => .inl (stillOpen posted.1)⟩)
  have settleable : Settleable deps mid (built.map Prod.fst) := by
    refine ⟨nodup.sublist (ready.sublist.map _), stillOpen posted.1, ?_⟩
    intro e there listed
    rw [posted.1.flying, flying] at there
    obtain ⟨e', member, same⟩ := List.mem_map.mp listed
    obtain ⟨b, bMember, rfl⟩ := List.mem_map.mp member
    obtain rfl : b.1 = e :=
      List.inj_on_of_nodup_map nodup (ready.sublist.subset member) there same
    exact ⟨key, _, answer, sent, success, b.2, List.mem_map_of_mem bMember,
      (ready.built b bMember).mono posted.1.recorded⟩
  refine Method.Sat.bind _ (settleResults_sat settleable) (fun calls' _ _ holds => ?_)
    (fun calls' _ err holds => ⟨holds.1.flying.trans (posted.1.flying.trans flying), holds.2⟩)
  exact Method.Sat.modify ⟨holds.1.flying.trans (posted.1.flying.trans flying),
    fun err same => by cases same⟩

theorem retryBatch_sat {route : RouteConfig} {mapped : List EventRecord} {message : String}
    (settle : (∀ e ∈ mapped, e.id ∈ opens calls) ∨ halfSettled calls) :
    (retryBatch deps route mapped message).Sat (protocol deps) calls s
      fun calls' _ _ => inFlight calls' = inFlight calls := by
  refine sat_scheduleAttempt_bind fun now random next => ?_
  refine sat_store_bind (settle.imp (fun isOpen id listed => ?_) fun half => half)
    (fun _ _ => Method.Sat.modify rfl) (fun err _ => rfl)
  obtain ⟨e, member, rfl⟩ := List.mem_map.mp listed
  exact isOpen e member

theorem settleFailure_sat {route : RouteConfig} {mapped : List EventRecord} {err : RelayError}
    (failed : SettleFailed mapped calls err) :
    (settleFailure deps route mapped err).Sat (protocol deps) calls s
      fun calls' _ _ => inFlight calls' = inFlight calls := by
  have settle : (∀ e ∈ mapped, e.id ∈ opens calls) ∨ halfSettled calls :=
    failed.imp id And.left
  unfold settleFailure
  split
  · split
    · refine sat_store_bind (fun id listed => ?_) (fun _ _ => ?_) (fun err _ => rfl)
      · obtain ⟨e, member, rfl⟩ := List.mem_map.mp listed
        rcases failed with isOpen | ⟨-, gentle⟩
        · exact isOpen e member
        · cases gentle
      · exact Method.sat_modify_bind (Method.Sat.modify rfl)
    · exact retryBatch_sat settle
  · exact retryBatch_sat settle

theorem deliverBatch_sat {route : RouteConfig} {claimed : List EventRecord}
    (given : ∀ e ∈ claimed, ⟨.getRoute e.routeId, .ok (some route)⟩ ∈ calls)
    (flying : inFlight calls = claimed) (isOpen : ∀ e ∈ claimed, e.id ∈ opens calls)
    (nodup : (claimed.map fun e => e.id).Nodup) :
    (deliverBatch deps route claimed).Sat (protocol deps) calls s
      fun calls' _ _ => inFlight calls' = claimed := by
  refine Method.Sat.bind _ (buildRecords_sat given isOpen nodup) (fun mid _ built holds => ?_)
    (fun mid _ err holds => holds.1.flying.trans flying)
  have still := holds.1.flying.trans flying
  split
  · exact Method.Sat.pure still
  · refine Method.Sat.tryCatch _ (forwardBatch_sat still nodup (holds.2 built rfl))
      (fun calls' _ _ after => after.1) (fun calls' _ err after => ?_)
    exact (settleFailure_sat (after.2 err rfl)).mono fun _ _ _ same => same.trans after.1

theorem releaseLeftover_sat {claimed : List EventRecord} {error : String}
    (flying : inFlight calls = claimed) :
    (releaseLeftover deps claimed error).Sat (protocol deps) calls s
      fun calls' _ _ => inFlight calls' = [] := by
  refine Method.Sat.tryCatch (fun calls' _ _ => inFlight calls' = []) ?_
    (fun _ _ _ holds => holds) (fun _ _ _ holds => Method.Sat.modify holds)
  refine Method.sat_call_bind trivial fun now _ => ?_
  refine sat_store_bind ?_ (fun _ _ => Method.Sat.pure rfl) (fun _ _ => rfl)
  show List.map (fun e => e.id) claimed = List.map (fun e => e.id) (inFlight calls)
  rw [flying]

theorem deliverRoute_sat {now : Int} {routeId : String} (idle : inFlight calls = []) :
    (deliverRoute deps now routeId).Sat (protocol deps) calls s
      fun calls' _ _ => inFlight calls' = [] := by
  refine Method.sat_call_bind trivial fun route _ => ?_
  refine Method.sat_call_bind trivial fun paused _ => ?_
  refine Method.sat_ofExcept_bind (fun found given => ?_) (fun _ _ => idle)
  refine Method.sat_ofExcept_bind (fun paused _ => ?_) (fun _ _ => idle)
  cases found with
  | none => exact Method.Sat.modify idle
  | some found =>
    simp only []
    split
    · exact Method.Sat.modify idle
    · refine Method.sat_call_bind trivial fun claimedAt _ => ?_
      refine sat_store_bind ⟨idle, rfl⟩ (fun claimed isClaim => ?_) (fun _ _ => idle)
      split
      · rename_i none_
        exact Method.Sat.pure (List.isEmpty_iff.mp none_)
      · refine Method.Sat.ensuring _ (deliverBatch_sat (fun e member => ?_) rfl
          (fun e member => List.mem_map_of_mem member) isClaim.nodup)
          (fun calls' _ r flying => ?_)
        · rw [isClaim.route e member, ← given]
          simp
        · refine (releaseLeftover_sat flying).mono fun _ _ c done => ?_
          cases c with
          | ok _ => exact done
          | error _ => exact done

theorem deliverDue_sat {now : Int} {due : List String} (idle : inFlight calls = []) :
    (deliverDue deps now due).Sat (protocol deps) calls s
      fun calls' _ _ => inFlight calls' = [] := by
  induction due generalizing calls s with
  | nil => exact Method.Sat.pure idle
  | cons routeId due ih =>
    refine Method.sat_call_bind trivial fun aborted _ => ?_
    split
    · exact Method.Sat.pure idle
    · exact Method.Sat.bind _ (deliverRoute_sat idle) (fun _ _ _ idle => ih idle)
        (fun _ _ _ idle => idle)

theorem recover_sat {now : Int} {sweepDue : Bool} (idle : inFlight calls = []) :
    (recover deps now sweepDue).Sat (protocol deps) calls s
      fun calls' _ _ => inFlight calls' = [] := by
  refine Method.Sat.tryCatch (fun calls' _ _ => inFlight calls' = []) ?_
    (fun _ _ _ idle => idle) (fun _ _ _ idle => Method.Sat.modify idle)
  refine Method.sat_get_bind (sat_store_bind idle (fun _ _ => ?_) (fun _ _ => idle))
  refine Method.sat_modify_bind ?_
  split
  · refine sat_store_bind idle (fun _ _ => ?_) (fun _ _ => idle)
    exact Method.sat_call_bind trivial fun _ _ => Method.Sat.modify idle
  · exact Method.Sat.pure idle

theorem housekeeping_sat {now : Int} (idle : inFlight calls = []) :
    (housekeeping deps now).Sat (protocol deps) calls s
      fun calls' _ _ => inFlight calls' = [] := by
  refine Method.sat_call_bind trivial fun startedAt _ => Method.sat_get_bind ?_
  extract_lets sweepDue
  split
  · exact recover_sat idle
  · exact Method.Sat.pure idle

theorem forwardDue_sat {now : Int} (idle : inFlight calls = []) :
    (forwardDue deps now).Sat (protocol deps) calls s
      fun calls' _ _ => inFlight calls' = [] := by
  refine Method.sat_call_bind trivial fun killswitch _ => ?_
  refine Method.sat_ofExcept_bind (fun killswitch _ => ?_) (fun _ _ => idle)
  split
  · refine sat_store_bind idle (fun due _ => ?_) (fun _ _ => idle)
    exact Method.sat_modify_bind (deliverDue_sat idle)
  · exact Method.Sat.modify idle

theorem cycle_sat (idle : inFlight calls = []) :
    (cycle deps).Sat (protocol deps) calls s fun calls' _ _ => inFlight calls' = [] := by
  refine Method.sat_call_bind trivial fun now _ => Method.sat_modify_bind ?_
  refine Method.Sat.bind _ (housekeeping_sat idle) (fun _ _ _ idle => ?_) (fun _ _ _ idle => idle)
  exact Method.Sat.bind _ (forwardDue_sat idle)
    (fun _ _ _ idle => Method.sat_get_bind (Method.Sat.pure idle)) (fun _ _ _ idle => idle)

/-- Whatever the world answers, a cycle keeps to the protocol. -/
theorem runOnce_sat (deps : DispatcherDeps) (s : State) :
    (runOnce deps).Sat (protocol deps) [] s fun calls _ _ => inFlight calls = [] := by
  refine Method.Sat.tryCatch _ (cycle_sat rfl) (fun _ _ _ idle => idle) (fun _ _ _ idle => ?_)
  exact Method.sat_modify_bind (Method.Sat.throw idle)

end

end EndCloseRelay.Dispatcher
