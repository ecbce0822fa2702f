import EndCloseRelay.Forward.Accounts
import Mathlib.Tactic.Linarith

/-!
# How far off a failed attempt is put

A mark that puts rows off gives them a time that every one of them backs off to;
a release gives its batch the time it is made at.  `runOnce_paces` says so of
every cycle.
-/

namespace EndCloseRelay

/-- `base * 2^attempts`, capped. -/
def DispatchSettings.rawBackoff (settings : DispatchSettings) (attempts : Nat) : Nat :=
  min (settings.backoffBaseMs * 2 ^ min attempts 30) settings.backoffCapMs

/-- The next attempt is at least 0.8 of the backoff after the moment, up to
rounding to a millisecond. -/
def DispatchSettings.BacksOff (settings : DispatchSettings) (attempts : Nat) (moment next : Int) :
    Prop :=
  8 * settings.rawBackoff attempts ≤ 10 * (next - moment) + 5

/-- What was tried more often backs off no less. -/
theorem DispatchSettings.rawBackoff_mono (settings : DispatchSettings) {few many : Nat}
    (more : few ≤ many) : settings.rawBackoff few ≤ settings.rawBackoff many := by
  have power : 2 ^ min few 30 ≤ 2 ^ min many 30 :=
    Nat.pow_le_pow_right (by omega) (min_le_min_right 30 more)
  exact min_le_min_right _ (Nat.mul_le_mul_left _ power)

theorem DispatchSettings.backsOff_of_nextAttemptAt (settings : DispatchSettings) {random : ℚ}
    (nonneg : 0 ≤ random) {attempts tried : Nat} (more : attempts ≤ tried) (moment : Int) :
    settings.BacksOff attempts moment
      (nextAttemptAt moment random tried settings.backoffBaseMs settings.backoffCapMs) := by
  have grows := settings.rawBackoff_mono more
  unfold BacksOff nextAttemptAt backoffMs
  show 8 * (settings.rawBackoff attempts : Int) ≤ 10 * (moment +
    ⌊((settings.rawBackoff tried : Nat) : ℚ) * (4 / 5 + random * (2 / 5)) + 1 / 2⌋ - moment) + 5
  generalize settings.rawBackoff tried = raw at grows
  have floor := Int.lt_floor_add_one ((raw : ℚ) * (4 / 5 + random * (2 / 5)) + 1 / 2)
  generalize ⌊(raw : ℚ) * (4 / 5 + random * (2 / 5)) + 1 / 2⌋ = delay at floor
  have product : (raw : ℚ) * (4 / 5) ≤ raw * (4 / 5 + random * (2 / 5)) := by
    gcongr
    linarith
  have scaled : ((8 * raw : Int) : ℚ) < ((10 * delay + 5 : Int) : ℚ) := by
    push_cast
    linarith
  have delayed := Int.cast_lt.mp scaled
  omega

/-- A backoff that is not nothing is not over at once. -/
theorem DispatchSettings.BacksOff.later {settings : DispatchSettings} {attempts : Nat}
    {moment next : Int} (backsOff : settings.BacksOff attempts moment next)
    (positive : 0 < settings.rawBackoff attempts) : moment < next := by
  unfold BacksOff at backsOff
  omega

namespace Dispatcher

open Interaction

/-- The latest reading of the clock. -/
def lastClock : Calls → Int
  | [] => 0
  | ⟨.now, moment⟩ :: _ => moment
  | _ :: calls => lastClock calls

/-- What a call that puts rows off requires of the calls before it. -/
def pacingAllowed (deps : DispatcherDeps) (calls : Calls) : StoreOp → Prop
  | .markFailed ids next _ => ∀ id ∈ ids, ∃ e ∈ inFlight calls, e.id = id ∧
      deps.dispatch.BacksOff e.attempts (lastClock calls) next
  | .releaseDelivering ids next _ =>
    ids = (inFlight calls).map (fun e => e.id) ∧ next = lastClock calls
  | _ => True

/-- What a cycle keeps to when chance draws numbers of the unit interval. -/
def pacing (deps : DispatcherDeps) : Discipline Op Op.Answer where
  allowed calls
    | .store op => pacingAllowed deps calls op
    | _ => True
  admits _
    | .random, (random : ℚ) => 0 ≤ random ∧ random < 1
    | _, _ => True

section

variable {deps : DispatcherDeps} {batch : List EventRecord} {calls : Calls} {s : State} {op : Op}
  {event : EventRecord} {reason message : String} {route : RouteConfig}

/-- A method that works on the batch in flight. -/
abbrev Paces (deps : DispatcherDeps) (batch : List EventRecord) {α : Type} (m : Body α)
    (returns : α → Prop) : Prop :=
  Method.Keeps (pacing deps) (fun calls _ => inFlight calls = batch) m returns

theorem paces_ask (plain : ∀ calls, (pacing deps).allowed calls op)
    (flying : ∀ calls answer, inFlight (⟨op, answer⟩ :: calls) = inFlight calls) :
    Paces deps batch (ask op) fun _ => True :=
  Method.Keeps.call (fun calls _ _ => plain calls) fun calls _ answer same _ =>
    (flying calls answer).trans same

theorem paces_modify {f : State → State} : Paces deps batch (modify f) fun _ => True :=
  Method.Keeps.modify fun _ _ same => same

theorem paces_store {op : StoreOp} (plain : ∀ calls, pacingAllowed deps calls op)
    (flying : ∀ calls answer, inFlight (⟨.store op, answer⟩ :: calls) = inFlight calls) :
    Paces deps batch (store op) fun _ => True := by
  have asked : Paces deps batch (ask (.store op)) fun _ => True := paces_ask plain flying
  exact asked.bind fun _ _ => Method.Keeps.ofExcept.mono fun _ _ => trivial

theorem paces_markDelivered {ids : List Nat} {deliveredAt : Int} {bulkRequestId : Option String} :
    Paces deps batch (store (.markDelivered ids deliveredAt bulkRequestId)) fun _ => True :=
  paces_store (fun _ => trivial) fun _ answer => by cases answer <;> rfl

theorem paces_markParked {ids : List Nat} {error : String} :
    Paces deps batch (store (.markParked ids error)) fun _ => True :=
  paces_store (fun _ => trivial) fun _ answer => by cases answer <;> rfl

/-- Parking rows and recording it. -/
theorem paces_park {ids : List Nat} {f : State → State} :
    Paces deps batch (do store (.markParked ids reason); modify f) fun _ => True :=
  paces_markParked.bind fun _ _ => paces_modify

/-- Putting events off by the backoff of the one tried most. -/
theorem paces_retry (events : List EventRecord) {attempts : Nat} {f : State → State}
    (within : ∀ e ∈ events, e ∈ batch) (most : ∀ e ∈ events, e.attempts ≤ attempts) :
    Paces deps batch (do
      let next ← scheduleAttempt deps attempts
      store (.markFailed (events.map fun e => e.id) next message)
      modify f) fun _ => True := by
  intro calls s flying
  refine Method.sat_call_bind trivial fun moment _ => ?_
  refine Method.sat_call_bind trivial fun random drawn => ?_
  refine sat_storeCall_bind (fun id listed => ?_) (fun _ _ => ?_) fun _ _ => ?_
  · obtain ⟨e, member, rfl⟩ := List.mem_map.mp listed
    have here : e ∈ inFlight calls := by
      rw [flying]
      exact within e member
    exact ⟨e, here, rfl, deps.dispatch.backsOff_of_nextAttemptAt drawn.1 (most e member) moment⟩
  · exact Method.Sat.modify ⟨flying, fun _ _ => trivial⟩
  · exact ⟨flying, fun _ failed => by cases failed⟩

/-! ## The methods of a batch -/

theorem settleUnmapped_paces {stage : Stage} {err : RelayError} (member : event ∈ batch) :
    Paces deps batch (settleUnmapped deps event stage err) fun _ => True := by
  unfold settleUnmapped
  split
  · exact paces_park
  · exact paces_park
  · cases stage with
    | enrichment =>
      refine paces_retry [event] (fun e listed => ?_) fun e listed => ?_
      · rw [List.mem_singleton.mp listed]
        exact member
      · rw [List.mem_singleton.mp listed]
    | mapping => exact Method.Keeps.throw

theorem resolveEnrichments_paces {payload : Json} {pending : List PendingEnrichment}
    {record : EndCloseRecord} :
    Paces deps batch (resolveEnrichments deps event payload pending record) fun _ => True := by
  induction pending generalizing record with
  | nil => exact Method.Keeps.pure trivial
  | cons p pending ih =>
    unfold resolveEnrichments
    split
    · refine (paces_ask (by intro _; trivial) fun _ _ => rfl).bind fun returned _ => ?_
      split
      · exact paces_modify.bind fun _ _ => Method.Keeps.throw
      · exact paces_modify.bind fun _ _ => ih
      · exact paces_modify.bind fun _ _ => ih
    · exact paces_modify.bind fun _ _ => Method.Keeps.throw

theorem buildRecord_paces (member : event ∈ batch) :
    Paces deps batch (buildRecord deps route event) fun _ => True := by
  have settles : ∀ stage err, Paces deps batch (do
      settleUnmapped deps event stage err
      pure (none : Option EndCloseRecord)) fun _ => True :=
    fun _ _ => (settleUnmapped_paces member).bind fun _ _ => Method.Keeps.pure trivial
  unfold buildRecord
  split
  · exact settles _ _
  · split
    · exact Method.Keeps.pure trivial
    · refine Method.Keeps.tryCatch ?_ (settles .enrichment)
      rw [map_eq_pure_bind]
      exact resolveEnrichments_paces.bind fun _ _ => Method.Keeps.pure trivial

/-- The events records were built of are events of the batch. -/
theorem buildRecords_paces {events : List EventRecord} (within : ∀ e ∈ events, e ∈ batch) :
    Paces deps batch (buildRecords deps route events) fun built => ∀ b ∈ built, b.1 ∈ batch := by
  induction events with
  | nil => exact Method.Keeps.pure fun b listed => by cases listed
  | cons event events ih =>
    have here := within event List.mem_cons_self
    refine (buildRecord_paces here).bind fun record _ => ?_
    refine (ih fun e member => within e (List.mem_cons_of_mem _ member)).bind fun built rest => ?_
    refine Method.Keeps.pure fun b listed => ?_
    cases record with
    | none => exact rest b listed
    | some record =>
      rcases List.mem_cons.mp listed with rfl | listed
      · exact here
      · exact rest b listed

theorem postAttempts_paces {records : List EndCloseRecord} {attempts : List Nat}
    {lastErr : RelayError} :
    Paces deps batch (postAttempts deps records attempts lastErr) fun _ => True := by
  induction attempts generalizing lastErr with
  | nil => exact Method.Keeps.throw
  | cons attempt attempts ih =>
    refine (paces_ask (by intro _; trivial) fun _ _ => rfl).bind fun answer _ => ?_
    split
    · exact Method.Keeps.pure trivial
    · exact (paces_ask (by intro _; trivial) fun _ _ => rfl).bind fun _ _ => ih
    · exact Method.Keeps.throw

theorem pollResults_paces {bulkRequestId : Option String} {attempts : Nat} :
    Paces deps batch (pollResults bulkRequestId attempts) fun _ => True := by
  induction attempts with
  | zero => exact Method.Keeps.pure trivial
  | succ attempts ih =>
    refine (paces_ask (by intro _; trivial) fun _ _ => rfl).bind fun answer _ => ?_
    split
    · exact Method.Keeps.pure trivial
    · exact Method.Keeps.throw
    · split
      · exact (paces_ask (by intro _; trivial) fun _ _ => rfl).bind fun _ _ => ih
      · exact Method.Keeps.ofExcept.bind fun _ _ => Method.Keeps.pure trivial

theorem settleResults_paces {bulkRequestId : Option String} {mapped : List EventRecord} :
    Paces deps batch (settleResults bulkRequestId mapped) fun _ => True := by
  refine (paces_ask (by intro _; trivial) fun _ _ => rfl).bind fun deliveredAt _ => ?_
  refine pollResults_paces.bind fun failed _ => ?_
  cases failed with
  | none => exact paces_markDelivered.bind fun _ _ => paces_modify
  | some failed =>
    refine paces_markParked.bind fun _ _ => paces_markDelivered.bind fun _ _ => ?_
    exact paces_modify.bind fun _ _ => paces_modify

/-- A batch is put off by the attempts of the event tried most. -/
theorem attempts_le_most {mapped : List EventRecord} (member : event ∈ mapped) :
    event.attempts ≤ (mapped.map fun e => e.attempts).foldl max 0 := by
  have listed : event.attempts ∈ mapped.map fun e => e.attempts := List.mem_map_of_mem member
  rw [List.foldl_max_eq_max (List.ne_nil_of_mem listed)]
  exact (List.le_max_of_mem listed).trans (le_max_right _ _)

theorem settleFailure_paces {mapped : List EventRecord} {err : RelayError}
    (within : ∀ e ∈ mapped, e ∈ batch) :
    Paces deps batch (settleFailure deps route mapped err) fun _ => True := by
  have most : ∀ e ∈ mapped, e.attempts ≤ (mapped.map fun e => e.attempts).foldl max 0 :=
    fun _ member => attempts_le_most member
  unfold settleFailure
  split
  · split
    · exact paces_markParked.bind fun _ _ => paces_modify.bind fun _ _ => paces_modify
    · exact paces_retry mapped within most
  · exact paces_retry mapped within most

theorem deliverBatch_paces : Paces deps batch (deliverBatch deps route batch) fun _ => True := by
  refine (buildRecords_paces fun e member => member).bind fun built ofBatch => ?_
  split
  · exact Method.Keeps.pure trivial
  · refine Method.Keeps.tryCatch ?_ fun err => settleFailure_paces fun e member => ?_
    · refine postAttempts_paces.bind fun accepted _ => Method.Keeps.ofExcept.bind fun id _ => ?_
      exact settleResults_paces.bind fun _ _ => paces_modify
    · obtain ⟨b, here, rfl⟩ := List.mem_map.mp member
      exact ofBatch b here

/-! ## A whole cycle -/

theorem releaseLeftover_paces {error : String} (flying : inFlight calls = batch) :
    (releaseLeftover deps batch error).Sat (pacing deps) calls s fun _ _ _ => True := by
  refine Method.Sat.tryCatch (fun _ _ _ => True) ?_ (fun _ _ _ _ => trivial)
    fun _ _ _ _ => Method.Sat.modify trivial
  refine Method.sat_call_bind trivial fun now _ => ?_
  refine sat_storeCall_bind ⟨?_, rfl⟩ (fun _ _ => Method.Sat.pure trivial) fun _ _ => trivial
  exact congrArg (List.map fun e => e.id) flying.symm

theorem deliverRoute_paces {now : Int} {routeId : String} :
    (deliverRoute deps now routeId).Sat (pacing deps) calls s fun _ _ _ => True := by
  refine Method.sat_call_bind trivial fun route _ => Method.sat_call_bind trivial fun paused _ => ?_
  refine Method.sat_ofExcept_bind (fun found _ => ?_) fun _ _ => trivial
  refine Method.sat_ofExcept_bind (fun stopped _ => ?_) fun _ _ => trivial
  cases found with
  | none => exact Method.Sat.modify trivial
  | some found =>
    simp only []
    split
    · exact Method.Sat.modify trivial
    · refine Method.sat_call_bind trivial fun claimedAt _ => ?_
      refine sat_storeCall_bind trivial (fun claimed _ => ?_) fun _ _ => trivial
      split
      · exact Method.Sat.pure trivial
      · refine Method.Sat.ensuring _ (deliverBatch_paces _ _ rfl) fun _ _ _ kept => ?_
        refine (releaseLeftover_paces kept.1).mono fun _ _ c _ => ?_
        cases c <;> trivial

theorem deliverDue_paces {now : Int} {due : List String} :
    (deliverDue deps now due).Sat (pacing deps) calls s fun _ _ _ => True := by
  induction due generalizing calls s with
  | nil => exact Method.Sat.pure trivial
  | cons routeId due ih =>
    refine Method.sat_call_bind trivial fun aborted _ => ?_
    split
    · exact Method.Sat.pure trivial
    · exact Method.Sat.bind _ deliverRoute_paces (fun _ _ _ _ => ih) fun _ _ _ _ => trivial

theorem housekeeping_paces {now : Int} :
    (housekeeping deps now).Sat (pacing deps) calls s fun _ _ _ => True := by
  refine Method.sat_call_bind trivial fun startedAt _ => Method.sat_get_bind ?_
  extract_lets sweepDue
  split
  · refine Method.Sat.tryCatch (fun _ _ _ => True) ?_ (fun _ _ _ _ => trivial)
      fun _ _ _ _ => Method.Sat.modify trivial
    refine Method.sat_get_bind (sat_storeCall_bind trivial (fun _ _ => ?_) fun _ _ => trivial)
    refine Method.sat_modify_bind ?_
    split
    · refine sat_storeCall_bind trivial (fun _ _ => ?_) fun _ _ => trivial
      exact Method.sat_call_bind trivial fun _ _ => Method.Sat.modify trivial
    · exact Method.Sat.pure trivial
  · exact Method.Sat.pure trivial

/-- Whatever the world answers, a mark that puts rows off gives each of them a
time it backs off to, and a release gives the time it is made at. -/
theorem runOnce_paces (deps : DispatcherDeps) (s : State) :
    (runOnce deps).Sat (pacing deps) [] s fun _ _ _ => True := by
  refine Method.Sat.tryCatch (fun _ _ _ => True) ?_ (fun _ _ _ _ => trivial) fun _ _ _ _ =>
    Method.sat_modify_bind (Method.Sat.throw trivial)
  refine Method.sat_call_bind trivial fun now _ => Method.sat_modify_bind ?_
  refine Method.Sat.bind _ housekeeping_paces (fun calls s _ _ => ?_) fun _ _ _ _ => trivial
  refine Method.Sat.bind (fun _ _ _ => True) ?_ (fun _ _ _ _ => Method.sat_get_bind
    (Method.Sat.pure trivial)) fun _ _ _ _ => trivial
  refine Method.sat_call_bind trivial fun read _ => ?_
  refine Method.sat_ofExcept_bind (fun killswitch _ => ?_) fun _ _ => trivial
  split
  · refine sat_storeCall_bind trivial (fun due _ => ?_) fun _ _ => trivial
    exact Method.sat_modify_bind deliverDue_paces
  · exact Method.Sat.modify trivial

end

end Dispatcher

end EndCloseRelay
