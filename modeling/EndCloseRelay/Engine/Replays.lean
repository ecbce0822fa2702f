import EndCloseRelay.Engine.Lifecycle

/-!
# Replayed events

An operator puts a parked event back, and what comes first then decides: a
claim, or the sweep at the head of a cycle, which parks by `received_at`, and a
replay leaves that as it is.  The processes take turns, so that nothing but a
claim or a sweep touches the row meanwhile.
-/

namespace EndCloseRelay.System

open Interaction

/-! ## One process at a time -/

/-- A process begins a cycle only when no other is in one. -/
def TakesTurn (s : System) (a : Action) : Prop :=
  ∀ i, a = .start i → ∀ j, j ≠ i → ∃ out, (s.instances j).rest = .pure out

/-- At most one instance is in a cycle, and the open rows of its batch are delivering. -/
structure InTurn (D : Deployment) (s : System) : Prop where
  conforms : Conforms D s
  alone : ∀ i op next, (s.instances i).rest = .call op next →
    ∀ j, j ≠ i → ∃ out, (s.instances j).rest = .pure out
  delivering : ∀ i, ∀ id ∈ Dispatcher.opens (s.instances i).calls,
    ∃ r, s.store.row? id = some r ∧ r.status = .delivering

section

variable {D : Deployment} {s : System} {i : String} {a : Action} {id : Nat} {r : EventRecord}

/-- An instance that is in no cycle has no row open. -/
theorem opens_of_idle {out : Except RelayError CycleSummary × Dispatcher.State}
    (conforms : Conforms D s) (idle : (s.instances i).rest = .pure out) :
    id ∉ Dispatcher.opens (s.instances i).calls := by
  intro isOpen
  obtain ⟨event, flying, -⟩ := Dispatcher.mem_inFlight_of_opens isOpen
  have ended := conforms i
  rw [idle] at ended
  have none_ : Dispatcher.inFlight (s.instances i).calls = [] := ended
  rw [none_] at flying
  cases flying

/-- An answer is to the one instance that is in a cycle. -/
theorem InTurn.answered {reply : Dispatcher.Reply} {op : StoreOp} {j : String}
    (inTurn : InTurn D s) (applied : s.appliedBy j reply = some op)
    (isOpen : id ∈ Dispatcher.opens (s.instances i).calls) : i = j := by
  obtain ⟨⟨next, rest⟩, -⟩ := appliedBy_eq_some.mp applied
  by_contra other
  obtain ⟨out, idle⟩ := inTurn.alone j _ next rest i other
  exact opens_of_idle inTurn.conforms idle isOpen

theorem alone_step (inTurn : InTurn D s) (turn : TakesTurn s a) :
    ∀ i op next, ((step D s a).instances i).rest = .call op next →
      ∀ j, j ≠ i → ∃ out, ((step D s a).instances j).rest = .pure out := by
  intro i op next busy j other
  cases rest : ((step D s a).instances j).rest with
  | pure out => exact ⟨out, rfl⟩
  | call op' next' =>
    rcases busy_step busy with ⟨op, next, before⟩ | rfl
    · obtain ⟨out, idle⟩ := inTurn.alone i op next before j other
      rcases busy_step rest with ⟨op', next', before'⟩ | rfl
      · rw [idle] at before'
        cases before'
      · obtain ⟨out, idle⟩ := turn j rfl i other.symm
        rw [before] at idle
        cases idle
    · obtain ⟨out, idle⟩ := turn i rfl j other
      rcases busy_step rest with ⟨op', next', before'⟩ | same
      · rw [idle] at before'
        cases before'
      · exact absurd (Action.start.inj same).symm other

/-- A row that stays open stays delivering. -/
theorem delivering_open (inTurn : InTurn D s)
    (before : id ∈ Dispatcher.opens (s.instances i).calls)
    (isOpen : id ∈ Dispatcher.opens ((step D s a).instances i).calls) :
    ∃ r, (step D s a).store.row? id = some r ∧ r.status = .delivering := by
  obtain ⟨r, found, delivering⟩ := inTurn.delivering i id before
  obtain ⟨-, rfl⟩ := MemoryStore.row?_mem found
  have move := row_move D s a r.id
  rw [found] at move
  generalize after : (step D s a).store.row? r.id = row at move
  cases move with
  | same => exact ⟨r, rfl, delivering⟩
  | @call op _ _ applied change =>
    cases change with
    | same => exact ⟨r, rfl, delivering⟩
    | deleted terminal =>
      rw [EventRecord.isTerminal_iff, delivering] at terminal
      cases terminal
    | @step _ _ r' moved =>
      by_cases settling : isSettling op
      · cases a with
        | answer j reply =>
          obtain rfl := inTurn.answered applied before
          rw [(applied_answers D applied).2.1] at isOpen
          exact (settled_of_rowStep settling moved isOpen).elim
        | replay _ _ => cases applied; cases settling
        | replayAllParked _ => cases applied; cases settling
        | prune _ _ _ _ => cases applied; cases settling
        | _ => cases applied
      · cases moved with
        | claim due _ => simp [EventRecord.isDue, EventRecord.isWaiting, delivering] at due
        | recover taken =>
          cases a with
          | answer j reply =>
            obtain rfl := inTurn.answered applied before
            obtain ⟨⟨next, rest⟩, -⟩ := appliedBy_eq_some.mp applied
            have idle : Dispatcher.inFlight (s.instances i).calls = [] :=
              inTurn.conforms.allowed rest
            obtain ⟨event, flying, -⟩ := Dispatcher.mem_inFlight_of_opens before
            rw [idle] at flying
            cases flying
          | _ => cases applied
        | expire taken => simp [EventRecord.expired, delivering] at taken
        | wipe terminal =>
          rw [EventRecord.isTerminal_iff, delivering] at terminal
          cases terminal
        | requeue parked => rw [delivering] at parked; cases parked
        | requeueAll parked => rw [delivering] at parked; cases parked
        | _ => exact absurd rfl settling

theorem inTurn_step (inTurn : InTurn D s) (turn : TakesTurn s a) : InTurn D (step D s a) where
  conforms := conforms_step a inTurn.conforms
  alone := alone_step inTurn turn
  delivering := by
    intro i id isOpen
    rcases opens_step isOpen with before | ⟨reply, routeId, now, limit, lease, r, rfl, applied, picked, rfl⟩
    · exact delivering_open inTurn before isOpen
    · have found := MemoryStore.row?_of_mem (MemoryStore.mem_dueRows picked).1
      have claimed := MemoryStore.row?_claimDue routeId now limit lease found
      rw [if_pos picked] at claimed
      refine ⟨r.claim now lease, ?_, rfl⟩
      rw [(applied_answers D applied).2.2]
      exact claimed

theorem inTurn_run {actions : List Action} (turns : (machine D).Guarded TakesTurn actions) :
    InTurn D ((machine D).run actions) :=
  Machine.guarded_invariant (InTurn D)
    ⟨conforms_run D [], (fun _ _ _ rest => by cases rest), fun _ _ isOpen => by cases isOpen⟩
    (fun _ _ inTurn turn => inTurn_step inTurn turn) turns

/-- Where only one process acts the others are in no cycle. -/
theorem idle_of_only {actions : List Action} (only : ∀ a ∈ actions, a.instance?.all (· == i))
    {j : String} (other : j ≠ i) : ∃ out, (((machine D).run actions).instances j).rest = .pure out := by
  refine Machine.listed_invariant (M := machine D) (fun s => ∃ out, (s.instances j).rest = .pure out)
    (fun a => a.instance?.all (· == i)) ⟨_, rfl⟩ (fun s a idle here => ?_) only
  have spared : a.instance? ≠ some j := by
    intro about
    rw [about] at here
    exact other (beq_iff_eq.mp here)
  show ∃ out, ((step D s a).instances j).rest = .pure out
  rw [others_step spared]
  exact idle

/-- A process that is alone takes turns. -/
theorem turns_of_only {actions : List Action} (only : ∀ a ∈ actions, a.instance?.all (· == i)) :
    (machine D).Guarded TakesTurn actions := by
  induction actions using List.reverseRecOn with
  | nil => trivial
  | append_singleton actions a ih =>
    have earlier : ∀ b ∈ actions, b.instance?.all (· == i) := fun b member =>
      only b (List.mem_append_left _ member)
    refine Machine.guarded_concat.mpr ⟨ih earlier, fun j same k apart => ?_⟩
    subst same
    obtain rfl : j = i := beq_iff_eq.mp (only (.start j) (by simp))
    exact idle_of_only earlier apart

/-! ## A row that waits since its replay -/

/-- The step is a replay that moves the row from parked to retry. -/
def Replays (D : Deployment) (s : System) (a : Action) (id : Nat) : Prop :=
  Action.isReplay a ∧ (s.store.row? id).map (fun r => r.status) = some .parked ∧
    ((step D s a).store.row? id).map (fun r => r.status) = some .retry

/-- The step is a claim that returns the row. -/
def returns (s : System) (a : Action) (id : Nat) : Bool :=
  match s.applied a with
  | some (.claimDue routeId now limit _) => (s.store.dueRows routeId now limit).any fun r => r.id == id
  | _ => false

/-- The step is a sweep that finds the row's `received_at` before its cutoff. -/
def sweeps (s : System) (a : Action) (id : Nat) : Bool :=
  match s.applied a with
  | some (.parkExpired now maxAgeMs) =>
    (s.store.row? id).any fun r => decide (r.receivedAt < now - maxAgeMs)
  | _ => false

/-- A sweep that finds a waiting row before its cutoff parks it. -/
theorem parked_of_sweeps (found : s.store.row? id = some r) (waits : r.status = .retry)
    (swept : s.sweeps a id) : (step D s a).store.row? id = some r.expire := by
  unfold sweeps at swept
  split at swept
  · rename_i now maxAgeMs applied
    rw [found, Option.any_some, decide_eq_true_eq] at swept
    rcases step_store D s a with ⟨op, applied', store⟩ | ⟨applied', -⟩
    · obtain rfl := Option.some.inj (applied.symm.trans applied')
      have old : r.expired (now - maxAgeMs) := by simp [EventRecord.expired, waits, swept]
      rw [store]
      show (s.store.updateWhere (fun r => r.expired (now - maxAgeMs)) .expire
        EventRecord.expire_id).row? id = _
      rw [MemoryStore.row?_updateWhere, found, Option.map_some, if_pos old]
    · rw [applied] at applied'
      cases applied'
  · cases swept

/-- A settling call is one of an instance, which keeps to the protocol. -/
theorem settling_allowed {op : StoreOp} (conforms : Conforms D s) (applied : s.applied a = some op)
    (settling : isSettling op) :
    ∃ i, Dispatcher.storeAllowed (D.dispatcher i) (s.instances i).calls op := by
  cases a with
  | answer i reply =>
    obtain ⟨⟨next, rest⟩, -⟩ := appliedBy_eq_some.mp applied
    exact ⟨i, conforms.allowed rest⟩
  | replay _ _ => cases applied; cases settling
  | replayAllParked _ => cases applied; cases settling
  | prune _ _ _ _ => cases applied; cases settling
  | _ => cases applied

/-- What neither claims nor sweeps a waiting row leaves it waiting. -/
theorem waits_step (inTurn : InTurn D s) (found : s.store.row? id = some r)
    (waits : r.status = .retry) (unclaimed : s.returns a id = false)
    (spared : s.sweeps a id = false) :
    ∃ r', (step D s a).store.row? id = some r' ∧ r'.status = .retry := by
  have closed : ∀ i, id ∉ Dispatcher.opens (s.instances i).calls := by
    intro i isOpen
    obtain ⟨r', found', delivering⟩ := inTurn.delivering i id isOpen
    obtain rfl := Option.some.inj (found.symm.trans found')
    rw [waits] at delivering
    cases delivering
  obtain ⟨listed, rfl⟩ := MemoryStore.row?_mem found
  have move := row_move D s a r.id
  rw [found] at move
  generalize after : (step D s a).store.row? r.id = row at move
  cases move with
  | same => exact ⟨r, rfl, waits⟩
  | @call op _ _ applied change =>
    cases change with
    | same => exact ⟨r, rfl, waits⟩
    | deleted terminal =>
      rw [EventRecord.isTerminal_iff, waits] at terminal
      cases terminal
    | @step _ _ r' moved =>
      refine ⟨r', rfl, ?_⟩
      cases moved with
      | @claim routeId now limit lease _ due route =>
        have picked : r ∉ s.store.dueRows routeId now limit := by
          intro picked
          simp only [returns, applied, List.any_eq_false, beq_iff_eq] at unclaimed
          exact unclaimed r picked rfl
        rcases step_store D s a with ⟨op, applied', store⟩ | ⟨applied', -⟩
        · obtain rfl := Option.some.inj (applied.symm.trans applied')
          have claimed := MemoryStore.row?_claimDue routeId now limit lease found
          rw [if_neg picked] at claimed
          rw [store] at after
          rw [Option.some.inj (after.symm.trans claimed)]
          exact waits
        · rw [applied] at applied'
          cases applied'
      | deliver member =>
        obtain ⟨i, allowed⟩ := settling_allowed inTurn.conforms applied rfl
        exact absurd (allowed.1 r.id member) (closed i)
      | @fail ids nextAttemptAt error _ member =>
        have picked : 0 < ids.count r.id := List.count_pos_iff.mpr member
        obtain ⟨n, count⟩ := Nat.exists_eq_succ_of_ne_zero (Nat.ne_of_gt picked)
        rw [count]
        exact (MemoryStore.fail_iterate nextAttemptAt error n r).1
      | park member =>
        obtain ⟨i, allowed⟩ := settling_allowed inTurn.conforms applied rfl
        exact absurd (allowed r.id member) (closed i)
      | release _ delivering => rfl
      | recover taken => rfl
      | expire taken =>
        simp only [sweeps, applied, found, Option.any_some, decide_eq_false_iff_not] at spared
        rw [EventRecord.expired, Bool.and_eq_true, decide_eq_true_eq] at taken
        exact absurd taken.2 spared
      | wipe terminal => exact waits
      | requeue parked => rfl
      | requeueAll parked => rfl

/-- A waiting row that nothing claims is not parked along a run exactly when no
sweep of the run finds it before its cutoff. -/
theorem waits_run {later : List Action} (inTurn : InTurn D s)
    (turns : (machine D).GuardedFrom TakesTurn s later)
    (found : s.store.row? id = some r) (waits : r.status = .retry)
    (unclaimed : (machine D).GuardedFrom (fun s a => s.returns a id = false) s later) :
    (∀ part, part <+: later → ∀ r', (part.foldl (step D) s).store.row? id = some r' →
      r'.status ≠ .parked) ↔
    (machine D).GuardedFrom (fun s a => s.sweeps a id = false) s later := by
  induction later generalizing s r with
  | nil =>
    refine iff_of_true (fun part begins r' found' => ?_) trivial
    obtain rfl := List.prefix_nil.mp begins
    obtain rfl := Option.some.inj (found.symm.trans found')
    rw [waits]
    decide
  | cons a later ih =>
    obtain ⟨turn, turns⟩ := turns
    obtain ⟨unclaimed, unclaimedLater⟩ := unclaimed
    constructor
    · intro unparked
      have spared : s.sweeps a id = false := by
        by_contra swept
        have parked := parked_of_sweeps (D := D) found waits (Bool.eq_true_of_not_eq_false swept)
        exact unparked [a] (List.prefix_iff_eq_append.mpr rfl) _ parked rfl
      obtain ⟨r', found', waits'⟩ := waits_step inTurn found waits unclaimed spared
      refine ⟨spared, (ih (inTurn_step inTurn turn) turns found' waits' unclaimedLater).mp ?_⟩
      intro part begins
      exact unparked (a :: part) (List.cons_prefix_cons.mpr ⟨rfl, begins⟩)
    · intro guarded
      obtain ⟨spared, guarded⟩ := guarded
      obtain ⟨r', found', waits'⟩ := waits_step inTurn found waits unclaimed spared
      have rest := (ih (inTurn_step inTurn turn) turns found' waits' unclaimedLater).mpr guarded
      intro part begins
      cases part with
      | nil =>
        intro r'' found''
        obtain rfl := Option.some.inj (found.symm.trans found'')
        rw [waits]
        decide
      | cons b part =>
        obtain ⟨rfl, begins_⟩ := List.cons_prefix_cons.mp begins
        exact rest part begins_

/-- The row is not parked again before a claim has returned it. -/
def GetsChance (D : Deployment) (earlier : List Action) (a : Action) (later : List Action) (id : Nat) :
    Prop :=
  ∀ part, part <+: later → ∀ r, ((machine D).run (earlier ++ a :: part)).store.row? id = some r →
    r.status ≠ .parked

/-- The run from a replay of a row on, processes taking turns, with no claim of the row. -/
structure SinceReplay (D : Deployment) (earlier : List Action) (a : Action) (later : List Action)
    (id : Nat) : Prop where
  turns : (machine D).Guarded TakesTurn (earlier ++ a :: later)
  replays : Replays D ((machine D).run earlier) a id
  unclaimed : (machine D).GuardedFrom (fun s a => s.returns a id = false)
    ((machine D).run (earlier ++ [a])) later

/-- After a replay, and as long as no claim has returned the row, it is not
parked exactly when no sweep finds its `received_at` before its cutoff. -/
theorem replayed_gets_chance_iff (D : Deployment) (earlier : List Action) (a : Action)
    (later : List Action) (id : Nat) (since : SinceReplay D earlier a later id) :
    GetsChance D earlier a later id ↔
      (machine D).GuardedFrom (fun s a => s.sweeps a id = false)
        ((machine D).run (earlier ++ [a])) later := by
  obtain ⟨turns, ⟨-, -, retried⟩, unclaimed⟩ := since
  have split : ∀ part, earlier ++ a :: part = (earlier ++ [a]) ++ part := fun part => by
    rw [List.append_assoc]
    rfl
  rw [split, Machine.Guarded, Machine.guardedFrom_append] at turns
  obtain ⟨r, found, waits⟩ := Option.map_eq_some_iff.mp retried
  rw [← waits_run (inTurn_run turns.1) turns.2 (by rw [Machine.run_concat]; exact found) waits unclaimed]
  refine forall_congr' fun part => ?_
  rw [split, Machine.run_append]
  rfl

/-- End Close rejects the payment, and it is parked. -/
def parkedRun : List Action :=
  sampleIngest :: .start "a" :: List.replicate 18 (.answer "a" (sampleReply 0
    (.items [{ externalId := some "t1", status := some "rejected" }])))

/-- A fresh process begins a cycle and does its housekeeping. -/
def freshCycle (now : Int) : List Action :=
  .crash "a" :: .start "a" :: List.replicate 6 (.answer "a" (sampleReply now .absent))

/-- A run of the one process since the replay of its payment. -/
theorem sinceReplay_sample (now : Int) (later : List Action)
    (only : ∀ a ∈ later, a.instance?.all (· == "a"))
    (replays : Replays sampleDeployment ((machine sampleDeployment).run parkedRun)
      (.replay 1 now) 1)
    (unclaimed : (machine sampleDeployment).GuardedFrom (fun s a => s.returns a 1 = false)
      ((machine sampleDeployment).run (parkedRun ++ [.replay 1 now])) later) :
    SinceReplay sampleDeployment parkedRun (.replay 1 now) later 1 where
  turns := by
    refine turns_of_only (i := "a") fun a member => ?_
    rcases List.mem_append.mp member with member | member
    · have all : parkedRun.all fun a => a.instance?.all (· == "a") := by decide
      exact List.all_eq_true.mp all a member
    · rcases List.mem_cons.mp member with rfl | member
      · rfl
      · exact only a member
  replays := replays
  unclaimed := unclaimed

/-- The payment is replayed at once, and not parked again. -/
theorem replayed_gets_chance_sample :
    GetsChance sampleDeployment parkedRun (.replay 1 5) (freshCycle 5) 1 :=
  (replayed_gets_chance_iff sampleDeployment parkedRun (.replay 1 5) (freshCycle 5) 1
    (sinceReplay_sample 5 (freshCycle 5) (by decide) ⟨rfl, by decide, by decide⟩ (by decide))).mpr
    (by decide)

/-- The payment is replayed a week and more after it came in, and parked again
by the cycle that should have claimed it. -/
theorem old_replay_parked : ¬ ∀ D earlier a later id,
    SinceReplay D earlier a later id → GetsChance D earlier a later id := by
  intro chance
  have unparked := chance sampleDeployment parkedRun (.replay 1 700000000) (freshCycle 700000000) 1
    (sinceReplay_sample 700000000 (freshCycle 700000000) (by decide) ⟨rfl, by decide, by decide⟩
      (by decide)) (freshCycle 700000000) (List.prefix_refl _)
  have parked : (((machine sampleDeployment).run
      (parkedRun ++ .replay 1 700000000 :: freshCycle 700000000)).store.row? 1).any
        fun r => r.status == .parked := by
    decide
  obtain ⟨r, found, status⟩ := (Option.any_eq_true _ _).mp parked
  exact unparked r found (beq_iff_eq.mp status)

end

end EndCloseRelay.System
