import EndCloseRelay.Engine.Leases
import EndCloseRelay.Forward.Stewardship

/-!
# Rows left delivering

A cycle can leave rows of a batch delivering: a mark fails, mapping throws, the
release itself fails.  Every row an instance holds is of its batch in flight,
or the instance remembers to reclaim; the next recovery that succeeds returns
such rows to retry, at the head of a cycle, with no batch in flight.
-/

namespace EndCloseRelay.System

open Interaction

/-- The instance keeps its discipline from the owner its cycle began with, and
every row it holds is in flight or remembered. -/
def Steward (D : Deployment) (i : String) (s : System) : Prop :=
  ∃ init,
    (s.instances i).rest.Sat (Dispatcher.stewardship (D.dispatcher i) init) (s.instances i).calls
      (fun calls out => Dispatcher.Minds (D.dispatcher i) init [] calls out.2) ∧
    ∀ id r, s.store.row? id = some r → Holds i r →
      (∃ e ∈ Dispatcher.inFlight (s.instances i).calls, e.id = id) ∨
        Dispatcher.ownerAfter (D.dispatcher i) init (s.instances i).calls = some i

/-- Only this instance acts, and no recovery succeeds. -/
def Unrecovered (i : String) (s : System) (a : Action) : Prop :=
  a.instance?.all (· == i) ∧ ∀ now owner, s.applied a ≠ some (.recoverDelivering now owner)

/-- What becomes of the rows an instance leaves delivering. -/
structure Reclaims (D : Deployment) (i : String) (actions : List Action) : Prop where
  /-- After a cycle no row it claimed is held, or the instance will reclaim. -/
  minded : ∀ out, (((machine D).run actions).instances i).rest = .pure out →
    (∀ id ∈ Dispatcher.idsOf (Dispatcher.claims (((machine D).run actions).instances i).calls),
      ∀ r, ((machine D).run actions).store.row? id = some r → ¬ Holds i r) ∨
    out.2.reclaimOwner = some i
  /-- A recovery is made with no batch in flight. -/
  idle : ∀ reply now owner,
    ((machine D).run actions).appliedBy i reply = some (.recoverDelivering now owner) →
      Dispatcher.inFlight (((machine D).run actions).instances i).calls = []
  /-- The first recovery to succeed later comes before any claim of its cycle,
  and returns what was left. -/
  returned : ∀ out, (((machine D).run actions).instances i).rest = .pure out →
    ∀ later, (machine D).GuardedFrom (Unrecovered i) ((machine D).run actions) later →
    ∀ reply now owner, ((machine D).run (actions ++ later)).appliedBy i reply =
        some (.recoverDelivering now owner) →
      Dispatcher.claims (((machine D).run (actions ++ later)).instances i).calls = [] ∧
      ∀ id r, ((machine D).run actions).store.row? id = some r → Holds i r →
        ((machine D).run (actions ++ later ++ [.answer i reply])).store.row? id =
          some (r.recover now)

section

variable {D : Deployment} {s : System} {i : String} {a : Action}

/-- The call an instance is at is one its discipline allows. -/
theorem Steward.allowed (steward : Steward D i s) {op : Dispatcher.Op}
    {next : op.Answer → Program Dispatcher.Op Dispatcher.Op.Answer
      (Except RelayError CycleSummary × Dispatcher.State)}
    (rest : (s.instances i).rest = .call op next) :
    ∃ init, (Dispatcher.stewardship (D.dispatcher i) init).allowed (s.instances i).calls op ∧
      ∀ id r, s.store.row? id = some r → Holds i r →
        (∃ e ∈ Dispatcher.inFlight (s.instances i).calls, e.id = id) ∨
          Dispatcher.ownerAfter (D.dispatcher i) init (s.instances i).calls = some i := by
  obtain ⟨init, sat, rows⟩ := steward
  rw [rest] at sat
  exact ⟨init, sat.1, rows⟩

/-- A row an instance holds after a step it held before, or its claim has just picked it. -/
theorem holds_step (conforms : Conforms D s) {id : Nat} {r : EventRecord}
    (found : (step D s a).store.row? id = some r) (holds : Holds i r) :
    s.store.row? id = some r ∨ ∃ reply routeId now limit lease, a = .answer i reply ∧
      s.appliedBy i reply = some (.claimDue routeId now limit lease) ∧
      ∃ e ∈ (s.store.claimDue routeId now limit lease).1, e.id = id := by
  rcases delivering_step conforms found holds.1 with same |
    ⟨j, reply, routeId, now, limit, lease, before, rfl, applied, was, picked⟩
  · exact .inl same
  · obtain ⟨⟨next, rest⟩, -, store⟩ := applied_answers D applied
    have permitted := conforms.allowed rest
    have claimed := MemoryStore.row?_claimDue routeId now limit lease was
    rw [if_pos picked] at claimed
    rw [store] at found
    have same : r = before.claim now lease := Option.some.inj (found.symm.trans claimed)
    have owned : some lease.owner = some i := by
      have claimedBy := holds.2
      rwa [same] at claimedBy
    have mine : j = i := by
      have named := permitted.2
      rw [D.named] at named
      exact named.symm.trans (Option.some.inj owned)
    subst mine
    refine .inr ⟨reply, routeId, now, limit, lease, rfl, applied, before.claim now lease, ?_, ?_⟩
    · exact List.mem_map_of_mem picked
    · exact (MemoryStore.row?_mem was).2

/-- A recovery returns the rows its owner holds. -/
theorem row?_recovered {store : MemoryStore} (now : Int) {owner : Option String} {id : Nat}
    {r : EventRecord} (found : store.row? id = some r) (holds : Holds i r) (mine : owner = some i) :
    (store.apply (.recoverDelivering now owner)).2.row? id = some (r.recover now) := by
  have taken : r.recoverable now owner = true := by
    unfold EventRecord.recoverable
    rw [holds.1, holds.2, mine]
    simp
  simp only [MemoryStore.apply, MemoryStore.row?_updateWhere, found, Option.map_some, taken, if_true]

theorem steward_answer (conforms : Conforms D s) (steward : Steward D i s)
    (reply : Dispatcher.Reply) : Steward D i (s.answer i reply) := by
  rcases s.answer_cases i reply with ⟨-, same⟩ | ⟨op, next, rest, answers, after⟩
  · rw [same]
    exact steward
  obtain ⟨init, sat, rows⟩ := steward
  rw [rest] at sat
  refine ⟨init, ?_, fun id r found holds => ?_⟩
  · rw [after, answers.calls]
    exact sat.2 _ trivial
  have allowed := sat.1
  rcases holds_step (a := .answer i reply) conforms found holds with before |
    ⟨reply', routeId, now, limit, lease, same, applied, picked⟩
  · have known := rows id r before holds
    rw [answers.calls]
    cases op with
    | store op =>
      rcases reply.respond_store s.store op with ⟨fault, -, failed⟩ | ⟨-, done⟩
      · rw [failed]
        cases op with
        | releaseDelivering ids nextAttemptAt error => exact .inr (congrArg some (D.named i))
        | _ => exact known
      · rw [answers.store, done] at found
        rw [done]
        cases op with
        | claimDue routeId now limit lease =>
          rcases known with ⟨e, flying, -⟩ | mine
          · rw [allowed.1] at flying
            cases flying
          · exact .inr mine
        | recoverDelivering now owner =>
          rcases known with ⟨e, flying, -⟩ | mine
          · rw [allowed.1] at flying
            cases flying
          · have recovered := row?_recovered now before holds (allowed.2.2.trans mine)
            have same := Option.some.inj (found.symm.trans recovered)
            have delivering := holds.1
            rw [same] at delivering
            cases delivering
        | releaseDelivering ids nextAttemptAt error =>
          rcases known with ⟨e, flying, rfl⟩ | mine
          · have row := MemoryStore.row?_releaseRows nextAttemptAt error ids (0, s.store) e.id
            have listed : e.id ∈ ids := by
              have named : ids = (Dispatcher.inFlight (s.instances i).calls).map fun e => e.id :=
                allowed
              rw [named]
              exact List.mem_map_of_mem flying
            rw [before, Option.map_some, if_pos ⟨listed, holds.1⟩] at row
            have same := Option.some.inj (found.symm.trans row)
            have delivering := holds.1
            rw [same] at delivering
            cases delivering
          · exact .inr mine
        | _ => exact known
    | _ => exact known
  · obtain ⟨-, rfl⟩ := Action.answer.inj same
    have calls : ((s.answer i reply).instances i).calls = _ := (applied_answers D applied).2.1
    rw [calls]
    exact .inl picked

theorem steward_step (conforms : Conforms D s) (steward : Steward D i s) :
    Steward D i (step D s a) := by
  -- what leaves the instance alone can only take rows from it
  have untouched : (step D s a).instances i = s.instances i → Steward D i (step D s a) := by
    intro same
    obtain ⟨init, sat, rows⟩ := steward
    refine ⟨init, ?_, fun id r found holds => ?_⟩
    · rw [same]
      exact sat
    · rcases holds_step conforms found holds with before | ⟨reply, _, _, _, _, rfl, applied, -⟩
      · rw [same]
        exact rows id r before holds
      · have longer := congrArg (fun inst => inst.calls.length) same
        simp [(applied_answers D applied).2.1] at longer
  cases a with
  | answer j reply =>
    rcases eq_or_ne i j with rfl | other
    · exact steward_answer conforms steward reply
    · refine untouched ?_
      show (s.answer j reply).instances i = _
      rcases s.answer_cases j reply with ⟨-, same⟩ | ⟨op, next, rest, answers, -⟩
      · rw [same]
      · exact answers.others i other
  | start j =>
    rcases eq_or_ne i j with rfl | other
    · show Steward D i (s.start D i)
      unfold start
      cases rest : (s.instances i).rest with
      | call op next => exact steward
      | pure out =>
        obtain ⟨init, sat, rows⟩ := steward
        rw [rest] at sat
        have minds : Dispatcher.Minds (D.dispatcher i) init [] (s.instances i).calls out.2 := sat
        refine ⟨out.2.reclaimOwner, ?_, fun id r found holds => .inr ?_⟩
        · rw [setInstance_same]
          exact Dispatcher.runOnce_minds (D.dispatcher i) out.2
        · rw [setInstance_same]
          show out.2.reclaimOwner = some i
          rw [minds.owner]
          rcases rows id r found holds with ⟨e, flying, -⟩ | mine
          · rw [minds.flying] at flying
            cases flying
          · exact mine
    · refine untouched ?_
      show (s.start D j).instances i = _
      unfold start
      split
      · exact setInstance_other _ other
      · rfl
  | crash j =>
    rcases eq_or_ne i j with rfl | other
    · have fresh : (step D s (.crash i)).instances i = idle D i := setInstance_same _
      refine ⟨some i, ?_, fun id r found holds => .inr ?_⟩
      · rw [fresh]
        exact ⟨rfl, congrArg some (D.named i)⟩
      · rw [fresh]
        rfl
    · exact untouched (setInstance_other _ other)
  | ingest routeId raw world =>
    exact untouched (congrFun (s.ingest_cases D routeId raw world).1 i)
  | replay id now => exact untouched rfl
  | replayAllParked now => exact untouched rfl
  | prune now deliveredDays ledgerDays limit => exact untouched rfl

theorem steward_run (D : Deployment) (i : String) (actions : List Action) :
    Steward D i ((machine D).run actions) := by
  have both := Machine.invariant (M := machine D) (fun s => Conforms D s ∧ Steward D i s)
    ⟨conforms_run D [], some i, ⟨rfl, congrArg some (D.named i)⟩, fun _ _ _ _ => .inr rfl⟩
    (fun s a kept => ⟨conforms_step a kept.1, steward_step kept.1 kept.2⟩) actions
  exact both.2

/-- A row that was left stays as it is until a recovery succeeds. -/
theorem left_step {id : Nat} {r : EventRecord} (steward : Steward D i s)
    (unrecovered : Unrecovered i s a) (found : s.store.row? id = some r) (holds : Holds i r)
    (left : ∀ e ∈ Dispatcher.inFlight (s.instances i).calls, e.id ≠ id) :
    (step D s a).store.row? id = some r ∧
      ∀ e ∈ Dispatcher.inFlight ((step D s a).instances i).calls, e.id ≠ id := by
  have marked : ∀ reply op, a = .answer i reply → s.appliedBy i reply = some op →
      ∃ init, Dispatcher.stewardAllowed (D.dispatcher i) init (s.instances i).calls op := by
    intro reply op _ applied
    obtain ⟨⟨next, rest⟩, -⟩ := appliedBy_eq_some.mp applied
    obtain ⟨init, allowed, -⟩ := steward.allowed rest
    exact ⟨init, allowed⟩
  have spared : ∀ ids, Dispatcher.OfBatch (s.instances i).calls ids → id ∉ ids := by
    intro ids ofBatch listed
    obtain ⟨e, flying, named⟩ := List.mem_map.mp (ofBatch listed)
    exact left e flying named
  constructor
  · have move := row_move D s a id
    rw [found] at move
    generalize after : (step D s a).store.row? id = row at move
    cases move with
    | same => rfl
    | @call op _ _ applied change =>
      cases change with
      | same => rfl
      | deleted terminal =>
        rw [EventRecord.isTerminal_iff, holds.1] at terminal
        cases terminal
      | @step _ _ r' moved =>
        obtain ⟨-, rfl⟩ := MemoryStore.row?_mem found
        have mine : isSettling op → ∃ init,
            Dispatcher.stewardAllowed (D.dispatcher i) init (s.instances i).calls op := by
          intro settling
          cases a with
          | answer j reply =>
            obtain rfl : j = i := beq_iff_eq.mp unrecovered.1
            exact marked reply op rfl applied
          | replay _ _ => cases applied; cases settling
          | replayAllParked _ => cases applied; cases settling
          | prune _ _ _ _ => cases applied; cases settling
          | _ => cases applied
        cases moved with
        | claim due _ => simp [EventRecord.isDue, EventRecord.isWaiting, holds.1] at due
        | deliver member =>
          obtain ⟨init, ofBatch⟩ := mine rfl
          exact absurd member (spared _ ofBatch)
        | fail member =>
          obtain ⟨init, ofBatch⟩ := mine rfl
          exact absurd member (spared _ ofBatch)
        | park member =>
          obtain ⟨init, ofBatch⟩ := mine rfl
          exact absurd member (spared _ ofBatch)
        | @release ids _ _ _ member _ =>
          obtain ⟨init, named⟩ := mine rfl
          have same : ids = (Dispatcher.inFlight (s.instances i).calls).map fun e => e.id := named
          exact absurd member (spared ids (same ▸ List.Subset.refl _))
        | recover taken => exact absurd applied (unrecovered.2 _ _)
        | expire taken => simp [EventRecord.expired, holds.1] at taken
        | wipe terminal =>
          rw [EventRecord.isTerminal_iff, holds.1] at terminal
          cases terminal
        | requeue parked => rw [holds.1] at parked; cases parked
        | requeueAll parked => rw [holds.1] at parked; cases parked
  · intro e flying
    rcases inFlight_step flying with before | ⟨reply, routeId, now, limit, lease, rfl, -, member⟩
    · exact left e before
    · obtain ⟨r', picked, rfl⟩ := List.mem_map.mp member
      obtain ⟨there, -, due⟩ := MemoryStore.mem_dueRows picked
      intro same
      have row := MemoryStore.row?_of_mem there
      obtain rfl : r' = r := by
        have named : r'.id = id := same
        rw [named, found] at row
        exact (Option.some.inj row).symm
      simp [EventRecord.isDue, EventRecord.isWaiting, holds.1] at due

/-- Rows that were left stay as they are over a run without a recovery. -/
theorem left_run {actions later : List Action} {id : Nat} {r : EventRecord}
    (unrecovered : (machine D).GuardedFrom (Unrecovered i) ((machine D).run actions) later)
    (found : ((machine D).run actions).store.row? id = some r) (holds : Holds i r)
    (left : ∀ e ∈ Dispatcher.inFlight (((machine D).run actions).instances i).calls, e.id ≠ id) :
    ((machine D).run (actions ++ later)).store.row? id = some r ∧
      ∀ e ∈ Dispatcher.inFlight (((machine D).run (actions ++ later)).instances i).calls,
        e.id ≠ id := by
  induction later using List.reverseRecOn with
  | nil =>
    rw [List.append_nil]
    exact ⟨found, left⟩
  | append_singleton later a ih =>
    rw [Machine.guardedFrom_concat] at unrecovered
    obtain ⟨found', left'⟩ := ih unrecovered.1
    have here : later.foldl (machine D).step ((machine D).run actions) =
        (machine D).run (actions ++ later) := (List.foldl_append ..).symm
    rw [← List.append_assoc, Machine.run_concat]
    exact left_step (steward_run D i _) (here ▸ unrecovered.2) found' holds left'

/-- Nothing gets stuck: what an instance leaves delivering it remembers, and the
first recovery that succeeds returns it to retry. -/
theorem nothing_stuck (D : Deployment) (i : String) (actions : List Action) :
    Reclaims D i actions where
  minded := by
    intro out rest
    obtain ⟨init, sat, rows⟩ := steward_run D i actions
    rw [rest] at sat
    have minds : Dispatcher.Minds (D.dispatcher i) init [] _ out.2 := sat
    by_cases mine : out.2.reclaimOwner = some i
    · exact .inr mine
    · refine .inl fun id _ r found holds => ?_
      rcases rows id r found holds with ⟨e, flying, -⟩ | owner
      · rw [minds.flying] at flying
        cases flying
      · exact mine (minds.owner.trans owner)
  idle := by
    intro reply now owner applied
    obtain ⟨⟨next, rest⟩, -⟩ := appliedBy_eq_some.mp applied
    obtain ⟨init, allowed, -⟩ := (steward_run D i actions).allowed rest
    exact allowed.1
  returned := by
    intro out rest later unrecovered reply now owner applied
    obtain ⟨⟨next, at_⟩, -⟩ := appliedBy_eq_some.mp applied
    obtain ⟨init, allowed, rows⟩ := (steward_run D i (actions ++ later)).allowed at_
    refine ⟨allowed.2.1, fun id r found holds => ?_⟩
    obtain ⟨init', sat, -⟩ := steward_run D i actions
    rw [rest] at sat
    have minds : Dispatcher.Minds (D.dispatcher i) init' [] _ out.2 := sat
    have left : ∀ e ∈ Dispatcher.inFlight (((machine D).run actions).instances i).calls,
        e.id ≠ id := by
      intro e flying
      rw [minds.flying] at flying
      cases flying
    obtain ⟨found', left'⟩ := left_run unrecovered found holds left
    have mine : owner = some i := by
      rcases rows id r found' holds with ⟨e, flying, named⟩ | mine
      · exact absurd named (left' e flying)
      · exact allowed.2.2.trans mine
    rw [Machine.run_concat]
    exact (congrArg (fun store => store.row? id) (applied_answers D applied).2.2).trans
      (row?_recovered _ found' holds mine)

end

end EndCloseRelay.System
