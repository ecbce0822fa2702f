import EndCloseRelay.Engine.Leases
import EndCloseRelay.Engine.NoLoss

/-!
# The life of a row

The statuses a row passes through when one dispatcher works on the store.  The
edge from `parked` is the operator's, except where a catch clause settles a
half settled batch again.
-/

namespace EndCloseRelay.System

open Interaction

/-- An operator puts parked events back. -/
def Action.isReplay : Action → Bool
  | .replay .. | .replayAllParked _ => true
  | _ => false

/-- Where a step may move the status of a row. -/
def edge (a : Action) : EventStatus → EventStatus → Bool
  | .pending, .delivering => true
  | .retry, .delivering | .retry, .parked => true
  | .delivering, .delivered | .delivering, .retry | .delivering, .parked => true
  | .parked, .retry => Action.isReplay a
  | _, _ => false

/-- A step moves statuses along the edges; a new row is pending or filtered,
and only a delivered or filtered row goes. -/
structure MovesAlong (s : System) (a : Action) (s' : System) : Prop where
  moved : ∀ id r r', s.store.row? id = some r → s'.store.row? id = some r' →
    r'.status = r.status ∨ edge a r.status r'.status
  started : ∀ id r', s.store.row? id = none → s'.store.row? id = some r' →
    r'.status = .pending ∨ r'.status = .droppedByFilter
  gone : ∀ id r, s.store.row? id = some r → s'.store.row? id = none →
    r.status = .delivered ∨ r.status = .droppedByFilter

/-- No batch in flight has a filtered event in it, and every record of a POST
about to be made is that of an event whose row its instance holds. -/
structure FilteredStays (D : Deployment) (s : System) : Prop where
  unclaimed : ∀ i, ∀ event ∈ Dispatcher.inFlight (s.instances i).calls, ∀ r,
    s.store.row? event.id = some r → r.status ≠ .droppedByFilter
  unposted : ∀ i key records next,
    (s.instances i).rest = .call (.bulkCreateRecords key records) next →
      ∀ record ∈ records, ∃ event r,
        Dispatcher.BuiltFrom (D.dispatcher i) (s.instances i).calls event record ∧
        s.store.row? event.id = some r ∧ Holds i r

section

variable {D : Deployment} {s : System} {a : Action}

/-- Of the steps on a row, all but those of a settling call move it along an edge. -/
theorem edge_of_rowStep {op : StoreOp} {r r' : EventRecord} (conforms : Conforms D s)
    (applied : s.applied a = some op)
    (moved : MemoryStore.RowStep op r r') (plain : ¬ isSettling op) :
    r'.status = r.status ∨ edge a r.status r'.status := by
  cases moved with
  | claim due _ =>
    have waiting : r.isWaiting := by
      rw [EventRecord.isDue, Bool.and_eq_true] at due
      exact due.1
    rw [EventRecord.isWaiting, Bool.or_eq_true, beq_iff_eq, beq_iff_eq] at waiting
    rcases waiting with pending | retry
    · rw [pending]
      exact .inr rfl
    · rw [retry]
      exact .inr rfl
  | recover taken =>
    rw [EventRecord.recoverable, Bool.and_eq_true, beq_iff_eq] at taken
    rw [taken.1]
    exact .inr rfl
  | expire taken =>
    rw [EventRecord.expired, Bool.and_eq_true, beq_iff_eq] at taken
    rw [taken.1]
    exact .inr rfl
  | wipe _ => exact .inl rfl
  | requeue parked =>
    rw [parked]
    cases a with
    | replay id now => exact .inr rfl
    | answer i reply =>
      obtain ⟨⟨next, rest⟩, -⟩ := appliedBy_eq_some.mp applied
      exact (conforms.allowed rest : False).elim
    | _ => cases applied
  | requeueAll parked =>
    rw [parked]
    cases a with
    | replayAllParked now => exact .inr rfl
    | answer i reply =>
      obtain ⟨⟨next, rest⟩, -⟩ := appliedBy_eq_some.mp applied
      exact (conforms.allowed rest : False).elim
    | _ => cases applied
  | _ => exact absurd rfl plain

/-- A settling step moves a row that is delivering along an edge. -/
theorem edge_of_settling {op : StoreOp} {r r' : EventRecord} (settling : isSettling op)
    (moved : MemoryStore.RowStep op r r') (delivering : r.status = .delivering) :
    edge a r.status r'.status := by
  rw [delivering]
  cases moved with
  | deliver _ => rfl
  | @fail ids nextAttemptAt error _ member =>
    have picked : 0 < ids.count r.id := List.count_pos_iff.mpr member
    obtain ⟨n, count⟩ := Nat.exists_eq_succ_of_ne_zero (Nat.ne_of_gt picked)
    rw [count, (MemoryStore.fail_iterate nextAttemptAt error n r).1]
    rfl
  | park _ => rfl
  | release _ _ => rfl
  | _ => cases settling

theorem movesAlong_step (held : Held D s) (undisturbed : s.Undisturbed a) :
    MovesAlong s a (step D s a) where
  moved := by
    intro id r r' found found'
    have move := row_move D s a id
    rw [found, found'] at move
    cases move with
    | same => exact .inl rfl
    | @call op _ _ applied change =>
      cases change with
      | same => exact .inl rfl
      | step moved =>
        by_cases settling : isSettling op
        · cases a with
          | answer i reply =>
            have holds := held.settles undisturbed applied settling found moved
            exact .inr (edge_of_settling settling moved holds.1)
          | replay _ _ => cases applied; cases settling
          | replayAllParked _ => cases applied; cases settling
          | prune _ _ _ _ => cases applied; cases settling
          | _ => cases applied
        · exact edge_of_rowStep held.conforms applied moved settling
  started := by
    intro id r' absent found
    have move := row_move D s a id
    rw [absent, found] at move
    cases move with
    | stored _ _ status => exact status
    | @call op _ _ applied change =>
      cases change with
      | inserted =>
        cases a with
        | answer i reply =>
          obtain ⟨⟨next, rest⟩, -⟩ := appliedBy_eq_some.mp applied
          exact (held.conforms.allowed rest : False).elim
        | _ => cases applied
  gone := by
    intro id r found absent
    have move := row_move D s a id
    rw [found, absent] at move
    cases move with
    | @call op _ _ applied change =>
      cases change with
      | deleted terminal =>
        rw [EventRecord.isTerminal, Bool.or_eq_true, beq_iff_eq, beq_iff_eq] at terminal
        exact terminal

/-- Filtered rows stay out of every batch. -/
theorem unclaimed_step (held : Held D s) (undisturbed : s.Undisturbed a)
    (below : ∀ i, ∀ event ∈ Dispatcher.inFlight (s.instances i).calls,
      event.id < s.store.nextId)
    (unclaimed : ∀ i, ∀ event ∈ Dispatcher.inFlight (s.instances i).calls, ∀ r,
      s.store.row? event.id = some r → r.status ≠ .droppedByFilter) :
    ∀ i, ∀ event ∈ Dispatcher.inFlight ((step D s a).instances i).calls, ∀ r,
      (step D s a).store.row? event.id = some r → r.status ≠ .droppedByFilter := by
  intro i event flying r' found
  rcases inFlight_step flying with before | ⟨reply, routeId, now, limit, lease, rfl, applied, member⟩
  · cases was : s.store.row? event.id with
    | none =>
      have move := row_move D s a event.id
      rw [was, found] at move
      have known := below i event before
      cases move with
      | stored _ new _ => omega
      | @call op _ _ applied change =>
        cases change with
        | inserted =>
          cases a with
          | answer i reply =>
            obtain ⟨⟨next, rest⟩, -⟩ := appliedBy_eq_some.mp applied
            exact (held.conforms.allowed rest : False).elim
          | _ => cases applied
    | some r =>
      have live := unclaimed i event before r was
      rcases (movesAlong_step held undisturbed).moved event.id r r' was found with same | along
      · rw [same]
        exact live
      · intro filtered
        rw [filtered] at along
        cases status : r.status <;> rw [status] at along <;> cases along
  · obtain ⟨r, picked, rfl⟩ := List.mem_map.mp member
    have after := (applied_answers D applied).2.2
    have row := MemoryStore.row?_of_mem (MemoryStore.mem_dueRows picked).1
    have claimed := MemoryStore.row?_claimDue routeId now limit lease row
    rw [if_pos picked] at claimed
    rw [after] at found
    have same := Option.some.inj (found.symm.trans claimed)
    rw [same]
    show EventStatus.delivering ≠ .droppedByFilter
    decide

theorem unclaimed_run {actions : List Action}
    (undisturbed : (machine D).Guarded Undisturbed actions) :
    ∀ i, ∀ event ∈ Dispatcher.inFlight (((machine D).run actions).instances i).calls, ∀ r,
      ((machine D).run actions).store.row? event.id = some r → r.status ≠ .droppedByFilter := by
  induction actions using List.reverseRecOn with
  | nil =>
    intro i event flying
    cases flying
  | append_singleton actions a ih =>
    rw [Machine.guarded_concat] at undisturbed
    rw [Machine.run_concat]
    exact unclaimed_step (held_run undisturbed.1) undisturbed.2 (safe_run D actions).claimed
      (ih undisturbed.1)

theorem filteredStays_run {actions : List Action}
    (undisturbed : (machine D).Guarded Undisturbed actions) :
    FilteredStays D ((machine D).run actions) where
  unclaimed := unclaimed_run undisturbed
  unposted := by
    intro i key records next rest record member
    have held := held_run undisturbed
    obtain ⟨event, flying, isOpen, built⟩ :=
      Dispatcher.Postable.each (held.conforms.allowed rest) record member
    obtain ⟨r, found, holds⟩ := held.held i event.id isOpen
    exact ⟨event, r, built, found, holds⟩

/-- With one dispatcher on the store, and unless a catch clause settles a half
settled batch again, every row moves along the edges, and filtered events are
neither claimed nor posted. -/
theorem lifecycle (D : Deployment) (i : String) (actions : List Action) (a : Action)
    (only : (machine D).Guarded (OnlyInstance i) (actions ++ [a])) :
    MovesAlong ((machine D).run actions) a ((machine D).run (actions ++ [a])) ∧
      FilteredStays D ((machine D).run (actions ++ [a])) := by
  have undisturbed := undisturbed_of_only only
  refine ⟨?_, filteredStays_run undisturbed⟩
  rw [Machine.guarded_concat] at undisturbed
  rw [Machine.run_concat]
  exact movesAlong_step (held_run undisturbed.1) undisturbed.2

/-- The sample payment is delivered along the edges. -/
theorem lifecycle_sample :
    MovesAlong ((machine sampleDeployment).run sampleRun) (.answer "a" (sampleReply 0 .absent))
      ((machine sampleDeployment).run (sampleRun ++ [.answer "a" (sampleReply 0 .absent)])) :=
  (lifecycle sampleDeployment "a" sampleRun _ (by decide)).1

/-- End Close rejects the payment, the store parks it and then fails to mark
the rest of the batch, none, delivered. -/
def rejectedRun : List Action :=
  sampleRun.take 14 ++ [
    .answer "a" (sampleReply 0
      (.items [{ externalId := some "t1", status := some "rejected" }])),
    .answer "a" (sampleReply 0 .absent),
    .answer "a" (sampleReply 0 .absent (some (.failed "disk I/O error" "markDelivered"))),
    .answer "a" (sampleReply 0 .absent),
    .answer "a" (sampleReply 0 .absent)]

/-- The dispatcher itself puts the parked payment back into the queue. -/
theorem rejected_requeued : ¬ MovesAlong ((machine sampleDeployment).run rejectedRun)
    (.answer "a" (sampleReply 0 .absent))
    ((machine sampleDeployment).run (rejectedRun ++ [.answer "a" (sampleReply 0 .absent)])) := by
  intro along
  have parked : (((machine sampleDeployment).run rejectedRun).store.row? 1).any (fun r =>
      r.status == .parked && (((machine sampleDeployment).run
        (rejectedRun ++ [.answer "a" (sampleReply 0 .absent)])).store.row? 1).any fun r' =>
          r'.status == .retry) := by
    decide
  obtain ⟨r, found, status⟩ := (Option.any_eq_true _ _).mp parked
  rw [Bool.and_eq_true, beq_iff_eq] at status
  obtain ⟨r', found', retry⟩ := (Option.any_eq_true _ _).mp status.2
  rw [beq_iff_eq] at retry
  have moved := along.moved 1 r r' found found'
  rw [status.1, retry] at moved
  rcases moved with same | edge
  · cases same
  · cases edge

end

end EndCloseRelay.System
