import EndCloseRelay.Engine.Leases
import EndCloseRelay.Forward.Pacing

/-!
# How soon a failed attempt is due again

Beside the relay runs a record of what put each row off last.  A mark puts a row
off by its backoff and the release of an abandoned batch by nothing at all, so
the rows back off just where no release has put one off, whatever else goes on.
-/

namespace EndCloseRelay

open Interaction

/-- How the attempt of a row failed: in a cycle of whose, when, after how many
attempts, and whether its batch was abandoned and released. -/
structure Failure where
  owner : String
  moment : Int
  attempts : Nat
  released : Bool
deriving DecidableEq

/-- `Math.random()` draws a number of the unit interval. -/
def Action.Fair : Action → Prop
  | .answer _ reply =>
    let random : ℚ := reply.answer .random
    0 ≤ random ∧ random < 1
  | _ => True

namespace System

open Dispatcher

/-- The failure a call tells of, to a row of the batch in flight. -/
def failureOf (owner : String) (calls : Calls) (op : StoreOp) (id : Nat) : Option Failure :=
  ((inFlight calls).find? fun e => e.id == id).bind fun e =>
    match op with
    | .markFailed .. => some ⟨owner, lastClock calls, e.attempts, false⟩
    | .releaseDelivering .. => some ⟨owner, lastClock calls, e.attempts, true⟩
    | _ => none

/-- The failures after a step: a row that the step leaves alone stands as before. -/
def failuresAfter (D : Deployment) (s : System) (a : Action) (failures : Nat → Option Failure)
    (id : Nat) : Option Failure :=
  if (step D s a).store.row? id = s.store.row? id then failures id
  else
    match a with
    | .answer i reply =>
      (s.appliedBy i reply).bind fun op => failureOf i (s.instances i).calls op id
    | _ => none

/-- The relay, and by which failure of an attempt each row stands as it does. -/
def watched (D : Deployment) : Machine (System × (Nat → Option Failure)) Action where
  init := ((machine D).init, fun _ => none)
  step s a := (step D s.1 a, failuresAfter D s.1 a s.2)

/-- The row is in retry, off by at least 0.8 of its backoff, and not due before
that is over. -/
structure BackedOff (D : Deployment) (store : MemoryStore) (id : Nat) (failure : Failure) :
    Prop where
  waits : ∃ r next, store.row? id = some r ∧ r.status = .retry ∧ r.nextAttemptAt = some next ∧
    (D.dispatcher failure.owner).dispatch.BacksOff failure.attempts failure.moment next
  notDue : ∀ r, store.row? id = some r → ∀ now,
    10 * (now - failure.moment) + 5 <
      8 * (D.dispatcher failure.owner).dispatch.rawBackoff failure.attempts → r.isDue now = false

/-- The row is in retry, due at a moment that suits the failure. -/
def Recorded (D : Deployment) (store : MemoryStore) (id : Nat) (failure : Failure) : Prop :=
  ∃ r next, store.row? id = some r ∧ r.status = .retry ∧ r.nextAttemptAt = some next ∧
    if failure.released then next = failure.moment
    else (D.dispatcher failure.owner).dispatch.BacksOff failure.attempts failure.moment next

/-- Instances keep the pace, a batch in flight has every row once, and the
failures are as the rows say. -/
structure Paced (D : Deployment) (s : System) (failures : Nat → Option Failure) : Prop where
  sat : ∀ i, (s.instances i).rest.Sat (pacing (D.dispatcher i)) (s.instances i).calls
    fun _ _ => True
  distinct : ∀ i, ((inFlight (s.instances i).calls).map fun e => e.id).Nodup
  recorded : ∀ id failure, failures id = some failure → Recorded D s.store id failure

section

variable {D : Deployment} {s : System} {a : Action} {failures : Nat → Option Failure} {id : Nat}
  {failure : Failure}

/-- The record does not touch the relay. -/
theorem watched_run (D : Deployment) (actions : List Action) :
    ((watched D).run actions).1 = (machine D).run actions := by
  induction actions using List.reverseRecOn with
  | nil => rfl
  | append_singleton actions a ih =>
    rw [Machine.run_concat, Machine.run_concat, ← ih]
    rfl

/-- Every instance keeps the pace as long as chance is fair. -/
theorem paces_step (fair : a.Fair)
    (sat : ∀ i, (s.instances i).rest.Sat (pacing (D.dispatcher i)) (s.instances i).calls
      fun _ _ => True) (i : String) :
    ((step D s a).instances i).rest.Sat (pacing (D.dispatcher i)) ((step D s a).instances i).calls
      fun _ _ => True := by
  refine keeps_step trivial (fun i => runOnce_paces (D.dispatcher i))
    (fun i reply same op => ?_) sat i
  subst same
  cases op with
  | random => exact fair
  | _ => trivial

/-- The events of a batch in flight are what a claim of the store picked. -/
theorem distinct_step (distinct : ∀ i, ((inFlight (s.instances i).calls).map fun e => e.id).Nodup)
    (i : String) : ((inFlight ((step D s a).instances i).calls).map fun e => e.id).Nodup := by
  rcases calls_step D s a i with same | fresh | ⟨reply, op, next, -, -, answers⟩
  · rw [same]
    exact distinct i
  · rw [fresh]
    exact List.nodup_nil
  · rw [answers.calls, inFlight]
    split
    · rename_i events claimed
      obtain ⟨routeId, now, limit, lease, exchange⟩ := claimed_of_batchEvent claimed
      obtain ⟨rfl, answered⟩ := Sigma.mk.inj exchange
      replace answered := eq_of_heq answered
      rcases reply.respond_store s.store (.claimDue routeId now limit lease) with
        ⟨fault, -, same⟩ | ⟨-, same⟩
      · rw [same] at answered
        cases answered
      · rw [same] at answered
        obtain rfl := Except.ok.inj answered
        exact (isClaim_claimDue s.store routeId now limit lease).nodup
    · exact List.nodup_nil
    · exact distinct i
    · exact distinct i

/-- Failing a row any number of times puts it off as failing it once. -/
theorem waits_of_fail (next : Int) (error : String) {n : Nat} (positive : 0 < n) (r : EventRecord) :
    ((EventRecord.fail next error)^[n] r).status = .retry ∧
      ((EventRecord.fail next error)^[n] r).nextAttemptAt = some next := by
  obtain ⟨m, rfl⟩ := Nat.exists_eq_add_of_lt positive
  rw [Function.iterate_succ_apply']
  exact ⟨rfl, rfl⟩

/-- A call of an instance that keeps the pace records the failure of the row it
puts off. -/
theorem recorded_of_failure {store store' : MemoryStore} {i : String} {calls : Calls} {op : StoreOp}
    (distinct : ((inFlight calls).map fun e => e.id).Nodup)
    (allowed : pacingAllowed (D.dispatcher i) calls op)
    (change : MemoryStore.RowChange op (store.row? id) (store'.row? id))
    (moved : store'.row? id ≠ store.row? id) (failed : failureOf i calls op id = some failure) :
    Recorded D store' id failure := by
  obtain ⟨e, found, told⟩ := Option.bind_eq_some_iff.mp failed
  have named : e.id = id := by simpa using List.find?_some found
  generalize before : store.row? id = was at change moved
  generalize after : store'.row? id = row at change moved
  cases change with
  | same => exact absurd rfl moved
  | inserted => cases told
  | deleted _ => cases told
  | @step _ r _ step =>
    obtain ⟨-, rfl⟩ := MemoryStore.row?_mem before
    cases step with
    | @fail ids next error _ member =>
      obtain rfl := Option.some.inj told
      obtain ⟨e', flying, same, backsOff⟩ := allowed r.id member
      have one : e' = e := by
        have here := MemoryStore.find?_id distinct flying
        rw [same, found] at here
        exact (Option.some.inj here).symm
      obtain ⟨status, off⟩ := waits_of_fail next error (List.count_pos_iff.mpr member) r
      exact ⟨_, next, after, status, off, one ▸ backsOff⟩
    | @release ids next error _ _ delivering =>
      obtain rfl := Option.some.inj told
      exact ⟨_, next, after, rfl, rfl, allowed.2⟩
    | _ => cases told

theorem recorded_step (paced : Paced D s failures)
    (failed : failuresAfter D s a failures id = some failure) :
    Recorded D (step D s a).store id failure := by
  unfold failuresAfter at failed
  split at failed
  · rename_i same
    unfold Recorded
    rw [same]
    exact paced.recorded id failure failed
  · rename_i moved
    cases a with
    | answer i reply =>
      obtain ⟨op, applied, failed⟩ := Option.bind_eq_some_iff.mp failed
      obtain ⟨⟨next, rest⟩, -, store⟩ := applied_answers D applied
      have sat := paced.sat i
      rw [rest] at sat
      have change : MemoryStore.RowChange op (s.store.row? id)
          ((step D s (.answer i reply)).store.row? id) := by
        rw [store]
        exact MemoryStore.row?_apply op id
      exact recorded_of_failure (paced.distinct i) sat.1 change moved failed
    | _ => cases failed

/-- In every run in which chance is fair each failure is as the row says. -/
theorem paced_run (D : Deployment) (actions : List Action) (fair : ∀ a ∈ actions, a.Fair) :
    Paced D ((watched D).run actions).1 ((watched D).run actions).2 := by
  refine Machine.listed_invariant (M := watched D) (fun s => Paced D s.1 s.2) Action.Fair ?_ ?_ fair
  · exact ⟨fun _ => trivial, fun _ => List.nodup_nil, fun _ _ none_ => by cases none_⟩
  · intro s a paced fair
    exact ⟨paces_step fair paced.sat, distinct_step paced.distinct, fun _ _ => recorded_step paced⟩

/-- The calls that return rows to retry whose attempt did not fail. -/
def givesBack : StoreOp → Bool
  | .recoverDelivering .. | .replay .. | .replayAllParked _ => true
  | _ => false

/-- No failure is missed: a step that puts a row in retry records one, or is a
recovery or a replay. -/
theorem retried_step (conforms : Conforms D s) (paced : Paced D s failures) {r : EventRecord}
    (found : (step D s a).store.row? id = some r) (retried : r.status = .retry)
    (moved : (step D s a).store.row? id ≠ s.store.row? id) :
    (∃ failure, failuresAfter D s a failures id = some failure) ∨
      ∃ op, s.applied a = some op ∧ givesBack op := by
  have told : ∀ i reply op, a = .answer i reply → s.appliedBy i reply = some op →
      failuresAfter D s a failures id = failureOf i (s.instances i).calls op id := by
    intro i reply op same applied
    subst same
    unfold failuresAfter
    rw [if_neg moved]
    show (s.appliedBy i reply).bind _ = _
    rw [applied]
    rfl
  have move := row_move D s a id
  rw [found] at move moved
  generalize before : s.store.row? id = was at move moved
  cases move with
  | same => exact absurd rfl moved
  | stored webhook new status =>
    rcases status with status | status
    · exact absurd (status.symm.trans retried) (by decide)
    · exact absurd (status.symm.trans retried) (by decide)
  | @call op _ _ applied change =>
    have listed : ∀ ids : List Nat, (∀ i, pacingAllowed (D.dispatcher i) (s.instances i).calls op →
        ∀ id ∈ ids, ∃ e ∈ inFlight (s.instances i).calls, e.id = id) → id ∈ ids →
        ∀ i reply, a = .answer i reply →
          ∃ e, (inFlight (s.instances i).calls).find? (fun e => e.id == id) = some e := by
      intro ids flying member i reply same
      subst same
      obtain ⟨⟨next, rest⟩, -⟩ := appliedBy_eq_some.mp applied
      have sat := paced.sat i
      rw [rest] at sat
      obtain ⟨e, here, rfl⟩ := flying i sat.1 id member
      exact ⟨e, MemoryStore.find?_id (paced.distinct i) here⟩
    cases change with
    | same => exact absurd rfl moved
    | inserted =>
      cases a with
      | answer i reply =>
        obtain ⟨⟨next, rest⟩, -⟩ := appliedBy_eq_some.mp applied
        exact (conforms.allowed rest : False).elim
      | _ => cases applied
    | @step _ was _ step =>
      obtain ⟨-, rfl⟩ := MemoryStore.row?_mem before
      cases step with
      | claim _ _ => cases retried
      | deliver _ => cases retried
      | park _ => cases retried
      | expire _ => cases retried
      | wipe terminal =>
        have status : was.status = .retry := retried
        rw [EventRecord.isTerminal_iff, status] at terminal
        cases terminal
      | recover _ => exact .inr ⟨_, applied, rfl⟩
      | requeue _ => exact .inr ⟨_, applied, rfl⟩
      | requeueAll _ => exact .inr ⟨_, applied, rfl⟩
      | @fail ids _ _ _ member =>
        cases a with
        | answer i reply =>
          obtain ⟨e, here⟩ := listed ids (fun i allowed id member => by
            obtain ⟨e, flying, same, -⟩ := allowed id member
            exact ⟨e, flying, same⟩) member i reply rfl
          refine .inl ⟨⟨i, lastClock (s.instances i).calls, e.attempts, false⟩, ?_⟩
          rw [told i reply _ rfl applied, failureOf, here]
          rfl
        | _ => cases applied
      | @release ids _ _ _ member _ =>
        cases a with
        | answer i reply =>
          obtain ⟨e, here⟩ := listed ids (fun i allowed id member =>
            List.mem_map.mp (allowed.1 ▸ member)) member i reply rfl
          refine .inl ⟨⟨i, lastClock (s.instances i).calls, e.attempts, true⟩, ?_⟩
          rw [told i reply _ rfl applied, failureOf, here]
          rfl
        | _ => cases applied

/-- What backs off is not due before its backoff is over. -/
theorem BackedOff.of_waits {store : MemoryStore} {r : EventRecord} {next : Int}
    (found : store.row? id = some r) (status : r.status = .retry)
    (off : r.nextAttemptAt = some next)
    (backsOff : (D.dispatcher failure.owner).dispatch.BacksOff failure.attempts
      failure.moment next) :
    BackedOff D store id failure where
  waits := ⟨r, next, found, status, off, backsOff⟩
  notDue := by
    intro r' found' now early
    obtain rfl := Option.some.inj (found.symm.trans found')
    unfold DispatchSettings.BacksOff at backsOff
    have later : ¬ next ≤ now := by omega
    simp [EventRecord.isDue, off, later]

/-- A failed attempt is put off by its backoff just when no release put it off,
or there is no backoff to keep. -/
theorem backedOff_iff {store : MemoryStore} (recorded : Recorded D store id failure) :
    BackedOff D store id failure ↔
      (failure.released = true →
        (D.dispatcher failure.owner).dispatch.rawBackoff failure.attempts = 0) := by
  obtain ⟨r, next, found, status, off, moment⟩ := recorded
  cases released : failure.released with
  | false =>
    rw [if_neg (by simp [released])] at moment
    exact iff_of_true (.of_waits found status off moment) fun absent => by cases absent
  | true =>
    rw [if_pos released] at moment
    subst moment
    constructor
    · intro backedOff _
      obtain ⟨r', next, found', -, off', backsOff⟩ := backedOff.waits
      obtain rfl := Option.some.inj (found.symm.trans found')
      obtain rfl := Option.some.inj (off.symm.trans off')
      unfold DispatchSettings.BacksOff at backsOff
      omega
    · intro nothing
      refine .of_waits found status off ?_
      unfold DispatchSettings.BacksOff
      rw [nothing rfl]
      omega

/-- In every state of every run the attempts that failed are put off by their
backoff just when none was put off by the release of its batch, unless there is
no backoff to keep. -/
theorem failures_back_off_iff (D : Deployment) (actions : List Action)
    (fair : ∀ a ∈ actions, a.Fair) :
    (∀ id failure, ((watched D).run actions).2 id = some failure →
      BackedOff D ((machine D).run actions).store id failure) ↔
    ∀ id failure, ((watched D).run actions).2 id = some failure → failure.released = true →
      (D.dispatcher failure.owner).dispatch.rawBackoff failure.attempts = 0 := by
  have recorded := (paced_run D actions fair).recorded
  rw [watched_run] at recorded
  exact forall_congr' fun id => forall_congr' fun failure => forall_congr' fun failed =>
    backedOff_iff (recorded id failure failed)

/-- The payment is posted, and then the store fails twice: the mark of the row
as delivered and its mark as failed. -/
def storeDown : List Action :=
  sampleIngest :: .start "a" :: (List.replicate 13 (.answer "a" (sampleReply 0 .absent)) ++
    List.replicate 4 (.answer "a" (sampleReply 0 .absent (some (.thrown "")))) ++
    List.replicate 2 (.answer "a" (sampleReply 0 .absent)))

theorem storeDown_fair : ∀ a ∈ storeDown, a.Fair := by
  intro a member
  have drawn : ∀ fault, (Action.answer "a" (sampleReply 0 .absent fault)).Fair :=
    fun _ => ⟨le_refl (0 : ℚ), (zero_lt_one : (0 : ℚ) < 1)⟩
  rcases List.mem_cons.mp member with rfl | member
  · trivial
  rcases List.mem_cons.mp member with rfl | member
  · trivial
  rcases List.mem_append.mp member with member | member
  · rcases List.mem_append.mp member with member | member
    · rw [List.eq_of_mem_replicate member]
      exact drawn none
    · rw [List.eq_of_mem_replicate member]
      exact drawn _
  · rw [List.eq_of_mem_replicate member]
    exact drawn none

/-- Its batch is released, and due again at once. -/
theorem released_due_at_once :
    ((watched sampleDeployment).run storeDown).2 1 = some ⟨"a", 0, 0, true⟩ ∧
      ¬ BackedOff sampleDeployment ((machine sampleDeployment).run storeDown).store 1
        ⟨"a", 0, 0, true⟩ := by
  have failed : ((watched sampleDeployment).run storeDown).2 1 = some ⟨"a", 0, 0, true⟩ := by decide
  have recorded := (paced_run sampleDeployment storeDown storeDown_fair).recorded _ _ failed
  rw [watched_run] at recorded
  refine ⟨failed, fun backedOff => ?_⟩
  exact absurd ((backedOff_iff recorded).mp backedOff rfl) (by decide)

theorem failures_back_off_iff_storeDown :
    (∀ id failure, ((watched sampleDeployment).run storeDown).2 id = some failure →
      BackedOff sampleDeployment ((machine sampleDeployment).run storeDown).store id failure) ↔
    ∀ id failure, ((watched sampleDeployment).run storeDown).2 id = some failure →
      failure.released = true →
      (sampleDeployment.dispatcher failure.owner).dispatch.rawBackoff failure.attempts = 0 :=
  failures_back_off_iff sampleDeployment storeDown storeDown_fair

end

end System

end EndCloseRelay
