import EndCloseRelay.Engine.System

/-!
# Leases

The mark and release operations of the store do not look at who holds a row.
That they change only rows their caller holds rests on nothing taking a row
out of a batch in flight; `Undisturbed` says what that is, `Held` is the
invariant it keeps up, and `settles_only_held` what follows for every run.
-/

namespace EndCloseRelay.System

open Interaction

/-! ## What disturbs a batch -/

/-- Another instance than `i` has the row in flight. -/
def FlyingElsewhere (s : System) (i : String) (id : Nat) : Prop :=
  ∃ j, j ≠ i ∧ ∃ event ∈ Dispatcher.inFlight (s.instances j).calls, event.id = id

/-- The step is the `markFailed` of a catch clause over a half settled batch. -/
def slips (s : System) : Action → Bool
  | .answer i reply =>
    match s.appliedBy i reply with
    | some (.markFailed ..) => Dispatcher.slipping (s.instances i).calls
    | _ => false
  | _ => false

/-- The step takes a row out of the batch another instance has in flight: it
recovers it, or claims it. -/
def Intrudes (s : System) : Action → Prop
  | .answer i reply =>
    match s.appliedBy i reply with
    | some (.recoverDelivering now owner) =>
      ∃ r ∈ s.store.rows, r.recoverable now owner ∧ s.FlyingElsewhere i r.id
    | some (.claimDue routeId now limit _) =>
      ∃ r ∈ s.store.dueRows routeId now limit, s.FlyingElsewhere i r.id
    | _ => False
  | _ => False

/-- The step leaves every batch in flight to the instance that claimed it. -/
def Undisturbed (s : System) (a : Action) : Prop := ¬ s.Intrudes a ∧ s.slips a = false

/-- The operations that settle or release rows. -/
def isSettling : StoreOp → Bool
  | .markDelivered .. | .markFailed .. | .markParked .. | .releaseDelivering .. => true
  | _ => false

/-- The instance holds the row: it is delivering, under its claim. -/
def Holds (i : String) (r : EventRecord) : Prop := r.status = .delivering ∧ r.claimedBy = some i

/-- A settling call of an instance changes only rows it holds. -/
def SettlesOnlyHeld (s : System) (a : Action) (s' : System) : Prop :=
  ∀ i reply op, a = .answer i reply → s.appliedBy i reply = some op → isSettling op →
    ∀ id r, s.store.row? id = some r → s'.store.row? id ≠ some r → Holds i r

/-- A delivered row stays one, as long as it is there. -/
def DeliveredStays (s s' : System) : Prop :=
  ∀ id r r', s.store.row? id = some r → r.status = .delivered →
    s'.store.row? id = some r' → r'.status = .delivered

/-! ## The invariant -/

/-- The open rows of a batch are held by its instance, and no other row of it
is delivering. -/
structure Held (D : Deployment) (s : System) : Prop where
  conforms : Conforms D s
  held : ∀ i, ∀ id ∈ Dispatcher.opens (s.instances i).calls,
    ∃ r, s.store.row? id = some r ∧ Holds i r
  own : ∀ i, ∀ event ∈ Dispatcher.inFlight (s.instances i).calls, ∀ r,
    s.store.row? event.id = some r → r.status = .delivering →
      event.id ∈ Dispatcher.opens (s.instances i).calls

section

variable {D : Deployment} {s : System} {i : String} {reply : Dispatcher.Reply} {op : StoreOp}
  {id : Nat} {r r' : EventRecord}

/-- What answering with an applied call does. -/
theorem applied_answers (D : Deployment) (applied : s.appliedBy i reply = some op) :
    (∃ next, (s.instances i).rest = .call (.store op) next) ∧
      ((step D s (.answer i reply)).instances i).calls =
        ⟨.store op, .ok (s.store.apply op).1⟩ :: (s.instances i).calls ∧
      (step D s (.answer i reply)).store = (s.store.apply op).2 := by
  obtain ⟨⟨next, rest⟩, healthy⟩ := appliedBy_eq_some.mp applied
  rcases s.answer_cases i reply with ⟨⟨out, idle⟩, -⟩ | ⟨op', next', rest', answers, -⟩
  · rw [rest] at idle
    cases idle
  · rw [rest] at rest'
    obtain ⟨rfl, -⟩ := Program.call.inj rest'
    rcases reply.respond_store s.store op with ⟨fault, faulty, -⟩ | ⟨-, done⟩
    · rw [healthy] at faulty
      cases faulty
    · refine ⟨⟨next, rest⟩, ?_, ?_⟩
      · show ((s.answer i reply).instances i).calls = _
        rw [answers.calls, done]
      · show (s.answer i reply).store = _
        rw [answers.store, done]

/-- A settling step of an instance is on a row it holds. -/
theorem Held.settles (held : Held D s) (undisturbed : s.Undisturbed (.answer i reply))
    (applied : s.appliedBy i reply = some op) (settling : isSettling op)
    (found : s.store.row? id = some r) (moved : MemoryStore.RowStep op r r') : Holds i r := by
  obtain ⟨⟨next, rest⟩, -, -⟩ := applied_answers D applied
  have permitted := held.conforms.allowed rest
  obtain ⟨-, rfl⟩ := MemoryStore.row?_mem found
  have mine : r.id ∈ Dispatcher.opens (s.instances i).calls → Holds i r := by
    intro isOpen
    obtain ⟨r'', found', holds⟩ := held.held i r.id isOpen
    rw [found] at found'
    rwa [Option.some.inj found']
  cases moved with
  | deliver member => exact mine (permitted.1 r.id member)
  | fail member =>
    rcases permitted with isOpen | slipping
    · exact mine (isOpen r.id member)
    · have spared := undisturbed.2
      simp only [slips, applied] at spared
      rw [spared] at slipping
      cases slipping
  | park member => exact mine (permitted r.id member)
  | @release ids _ _ _ member delivering =>
    have same : ids = (Dispatcher.inFlight (s.instances i).calls).map fun e => e.id := permitted
    rw [same] at member
    obtain ⟨event, flying, named⟩ := List.mem_map.mp member
    rw [← named] at found
    exact mine (named ▸ held.own i event flying r found delivering)
  | _ => cases settling

/-- No step but an unintruding claim makes a row delivering. -/
theorem delivering_step {a : Action} (conforms : Conforms D s)
    (found : (step D s a).store.row? id = some r') (delivering : r'.status = .delivering) :
    s.store.row? id = some r' ∨ ∃ i reply routeId now limit lease r, a = .answer i reply ∧
      s.appliedBy i reply = some (.claimDue routeId now limit lease) ∧
      s.store.row? id = some r ∧ r ∈ s.store.dueRows routeId now limit := by
  have move := row_move D s a id
  rw [found] at move
  generalize before : s.store.row? id = row at move
  cases move with
  | same => exact .inl rfl
  | stored webhook new status =>
    rcases status with status | status
    · exact absurd (status.symm.trans delivering) (by decide)
    · exact absurd (status.symm.trans delivering) (by decide)
  | @call op _ _ applied change =>
    cases change with
    | same => exact .inl rfl
    | @inserted e id' =>
      cases a with
      | answer i reply =>
        obtain ⟨⟨next, rest⟩, -⟩ := appliedBy_eq_some.mp applied
        exact (conforms.allowed rest : False).elim
      | _ => cases applied
    | @step _ r _ moved =>
      cases moved with
      | @claim routeId now limit lease _ due route =>
        cases a with
        | answer i reply =>
          have after := (applied_answers D applied).2.2
          rw [after] at found
          have claimed := MemoryStore.row?_claimDue routeId now limit lease before
          have same := found.symm.trans claimed
          by_cases picked : r ∈ s.store.dueRows routeId now limit
          · exact .inr ⟨i, reply, routeId, now, limit, lease, r, rfl, applied, rfl, picked⟩
          · rw [if_neg picked] at same
            exact .inl same.symm
        | _ => cases applied
      | @fail ids nextAttemptAt error _ member =>
        have picked : 0 < ids.count r.id := List.count_pos_iff.mpr member
        obtain ⟨n, count⟩ := Nat.exists_eq_succ_of_ne_zero (Nat.ne_of_gt picked)
        rw [count, (MemoryStore.fail_iterate nextAttemptAt error n r).1] at delivering
        cases delivering
      | wipe terminal =>
        have status : r.status = .delivering := delivering
        rw [EventRecord.isTerminal_iff, status] at terminal
        cases terminal
      | _ => cases delivering

/-- A step leaves an open row of a batch alone, or settles it for its instance. -/
theorem Held.row_step {a : Action} (held : Held D s) (undisturbed : s.Undisturbed a)
    (isOpen : id ∈ Dispatcher.opens (s.instances i).calls) :
    (step D s a).store.row? id = s.store.row? id ∨ ∃ reply op r r', a = .answer i reply ∧
      s.appliedBy i reply = some op ∧ s.store.row? id = some r ∧ isSettling op ∧
      MemoryStore.RowStep op r r' := by
  obtain ⟨r, found, delivering, claimedBy⟩ := held.held i id isOpen
  obtain ⟨event, flying, named⟩ := Dispatcher.mem_inFlight_of_opens isOpen
  have move := row_move D s a id
  rw [found] at move ⊢
  generalize (step D s a).store.row? id = row at move
  cases move with
  | same => exact .inl rfl
  | @call op _ _ applied change =>
    cases change with
    | same => exact .inl rfl
    | deleted terminal =>
      rw [EventRecord.isTerminal_iff, delivering] at terminal
      cases terminal
    | @step _ _ r' moved =>
      by_cases settling : isSettling op
      · cases a with
        | answer j reply =>
          have holds := held.settles undisturbed applied settling found moved
          have same : j = i := Option.some.inj (holds.2.symm.trans claimedBy)
          subst same
          exact .inr ⟨reply, op, r, r', rfl, applied, rfl, settling, moved⟩
        | replay _ _ => cases applied; cases settling
        | replayAllParked _ => cases applied; cases settling
        | prune _ _ _ _ => cases applied; cases settling
        | _ => cases applied
      · cases moved with
        | claim due _ =>
          simp [EventRecord.isDue, EventRecord.isWaiting, delivering] at due
        | @recover now owner _ taken =>
          cases a with
          | answer j reply =>
            rcases eq_or_ne i j with rfl | other
            · obtain ⟨⟨next, rest⟩, -⟩ := appliedBy_eq_some.mp applied
              have idle : Dispatcher.inFlight (s.instances i).calls = [] :=
                held.conforms.allowed rest
              rw [idle] at flying
              cases flying
            · refine absurd ?_ undisturbed.1
              have applied' : s.appliedBy j reply = some (.recoverDelivering now owner) := applied
              simp only [Intrudes, applied']
              refine ⟨r, (MemoryStore.row?_mem found).1, taken, i, other, event, flying, ?_⟩
              rw [named, (MemoryStore.row?_mem found).2]
          | _ => cases applied
        | expire taken => simp [EventRecord.expired, delivering] at taken
        | wipe terminal =>
          rw [EventRecord.isTerminal_iff, delivering] at terminal
          cases terminal
        | requeue parked => rw [delivering] at parked; cases parked
        | requeueAll parked => rw [delivering] at parked; cases parked
        | _ => exact absurd rfl settling

/-- A row a mark has settled is not delivering. -/
theorem settled_not_delivering {store : MemoryStore} {ids : List Nat}
    (settles : Dispatcher.batchEvent ⟨.store op, .ok (store.apply op).1⟩ = .settled ids)
    (listed : id ∈ ids) (found : (store.apply op).2.row? id = some r) : r.status ≠ .delivering := by
  cases op with
  | markDelivered ids' deliveredAt bulkRequestId =>
    obtain rfl := Dispatcher.BatchEvent.settled.inj settles
    rw [MemoryStore.status_updatePicked .delivered (fun _ => rfl) listed found]
    decide
  | markFailed ids' nextAttemptAt error =>
    obtain rfl := Dispatcher.BatchEvent.settled.inj settles
    rw [MemoryStore.status_updatePicked .retry (fun _ => rfl) listed found]
    decide
  | markParked ids' error =>
    obtain rfl := Dispatcher.BatchEvent.settled.inj settles
    rw [MemoryStore.status_updatePicked .parked (fun _ => rfl) listed found]
    decide
  | _ => cases settles

/-- A settling step that spares a row does not name it. -/
theorem settled_of_rowStep {store : MemoryStore} (settling : isSettling op)
    (moved : MemoryStore.RowStep op r r') (isOpen : r.id ∈ Dispatcher.opens
      (⟨.store op, .ok (store.apply op).1⟩ :: (s.instances i).calls)) : False := by
  cases moved with
  | deliver member => exact absurd member (of_decide_eq_true (List.mem_filter.mp isOpen).2)
  | fail member => exact absurd member (of_decide_eq_true (List.mem_filter.mp isOpen).2)
  | park member => exact absurd member (of_decide_eq_true (List.mem_filter.mp isOpen).2)
  | release _ _ => cases isOpen
  | _ => cases settling

/-- What is open after a step was open before it, or has just been claimed. -/
theorem opens_step {a : Action} (isOpen : id ∈ Dispatcher.opens ((step D s a).instances i).calls) :
    id ∈ Dispatcher.opens (s.instances i).calls ∨ ∃ reply routeId now limit lease r,
      a = .answer i reply ∧ s.appliedBy i reply = some (.claimDue routeId now limit lease) ∧
      r ∈ s.store.dueRows routeId now limit ∧ r.id = id := by
  rcases calls_step D s a i with same | none_ | ⟨reply, op, next, rfl, rest, answers⟩
  · rw [same] at isOpen
    exact .inl isOpen
  · rw [none_] at isOpen
    cases isOpen
  · rw [answers.calls, Dispatcher.opens] at isOpen
    split at isOpen
    · rename_i events claims
      obtain ⟨routeId, now, limit, lease, exchange⟩ := Dispatcher.claimed_of_batchEvent claims
      obtain ⟨rfl, answered⟩ := Sigma.mk.inj exchange
      replace answered := eq_of_heq answered
      rcases reply.respond_store s.store (.claimDue routeId now limit lease) with
        ⟨fault, -, same⟩ | ⟨healthy, same⟩
      · rw [same] at answered
        cases answered
      · rw [same] at answered
        obtain rfl := Except.ok.inj answered
        obtain ⟨e, member, rfl⟩ := List.mem_map.mp isOpen
        obtain ⟨r, picked, rfl⟩ := List.mem_map.mp member
        exact .inr ⟨reply, routeId, now, limit, lease, r, rfl,
          appliedBy_eq_some.mpr ⟨⟨next, rest⟩, healthy⟩, picked, rfl⟩
    · cases isOpen
    · exact .inl (List.mem_filter.mp isOpen).1
    · exact .inl isOpen

theorem held_step {a : Action} (held : Held D s) (undisturbed : s.Undisturbed a) :
    Held D (step D s a) where
  conforms := conforms_step a held.conforms
  held := by
    intro j id isOpen
    rcases opens_step isOpen with before | ⟨reply, routeId, now, limit, lease, r, rfl, applied, picked, rfl⟩
    · obtain ⟨r, found, holds⟩ := held.held j id before
      rcases held.row_step undisturbed before with same | ⟨reply, op, r', r'', rfl, applied, found',
        settling, moved⟩
      · exact ⟨r, same.trans found, holds⟩
      · rw [(applied_answers D applied).2.1] at isOpen
        obtain ⟨-, rfl⟩ := MemoryStore.row?_mem found'
        exact (settled_of_rowStep settling moved isOpen).elim
    · obtain ⟨⟨next, rest⟩, -, store⟩ := applied_answers D applied
      have permitted := held.conforms.allowed rest
      have found := MemoryStore.row?_of_mem (MemoryStore.mem_dueRows picked).1
      have claimed := MemoryStore.row?_claimDue routeId now limit lease found
      rw [if_pos picked] at claimed
      refine ⟨r.claim now lease, ?_, rfl, ?_⟩
      · rw [store]
        exact claimed
      · show some lease.owner = some j
        rw [permitted.2, D.named]
  own := by
    intro j event flying r' found delivering
    rcases calls_step D s a j with same | none_ | ⟨reply, op, next, rfl, rest, answers⟩
    · rw [same] at flying ⊢
      rcases delivering_step held.conforms found delivering with before |
        ⟨i, reply, routeId, now, limit, lease, r, rfl, applied, before, picked⟩
      · exact held.own j event flying r' before delivering
      · rcases eq_or_ne j i with rfl | other
        · have longer := congrArg List.length ((applied_answers D applied).2.1.symm.trans same)
          simp at longer
        · refine absurd ?_ undisturbed.1
          simp only [Intrudes, applied]
          exact ⟨r, picked, j, other, event, flying, (MemoryStore.row?_mem before).2.symm⟩
    · rw [none_] at flying
      cases flying
    · rcases delivering_step held.conforms found delivering with before |
        ⟨i, reply', routeId, now, limit, lease, r, same, applied, before, picked⟩
      · have isOpen : event ∈ Dispatcher.inFlight (s.instances j).calls →
            event.id ∈ Dispatcher.opens (s.instances j).calls :=
          fun flying => held.own j event flying r' before delivering
        rw [answers.calls, Dispatcher.inFlight] at flying
        rw [answers.calls, Dispatcher.opens]
        cases batch : Dispatcher.batchEvent ⟨op, (reply.respond s.store op).1⟩ with
        | claimed events =>
          rw [batch] at flying
          exact List.mem_map_of_mem flying
        | released =>
          rw [batch] at flying
          cases flying
        | settled ids =>
          rw [batch] at flying
          refine List.mem_filter.mpr ⟨isOpen flying, decide_eq_true fun listed => ?_⟩
          rw [answers.store] at found
          obtain ⟨op', answer, exchange⟩ := Dispatcher.settled_of_batchEvent batch
          obtain ⟨rfl, answered⟩ := Sigma.mk.inj exchange
          replace answered := eq_of_heq answered
          rcases reply.respond_store s.store op' with ⟨fault, -, done⟩ | ⟨-, done⟩
          · rw [done] at answered
            cases answered
          · rw [done] at batch found
            exact settled_not_delivering batch listed found delivering
        | quiet =>
          rw [batch] at flying
          exact isOpen flying
      · obtain ⟨rfl, rfl⟩ := Action.answer.inj same
        rw [(applied_answers D applied).2.1] at flying ⊢
        exact List.mem_map_of_mem flying

theorem held_init (D : Deployment) : Held D (machine D).init where
  conforms := conforms_run D []
  held := fun i id isOpen => by cases isOpen
  own := fun i event flying => by cases flying

theorem settlesOnlyHeld_step {a : Action} (held : Held D s) (undisturbed : s.Undisturbed a) :
    SettlesOnlyHeld s a (step D s a) := by
  intro i reply op same applied settling id r found changed
  subst same
  have move := row_move D s (.answer i reply) id
  rw [found] at move
  generalize after : (step D s (.answer i reply)).store.row? id = row at move
  cases move with
  | same => exact absurd after changed
  | call applied' change =>
    obtain rfl := Option.some.inj (applied.symm.trans applied')
    cases change with
    | same => exact absurd after changed
    | step moved => exact held.settles undisturbed applied settling found moved
    | deleted _ => cases settling

theorem deliveredStays_step {a : Action} (held : Held D s) (undisturbed : s.Undisturbed a) :
    DeliveredStays s (step D s a) := by
  intro id r r' found delivered found'
  have move := row_move D s a id
  rw [found, found'] at move
  cases move with
  | same => exact delivered
  | @call op _ _ applied change =>
    cases change with
    | same => exact delivered
    | step moved =>
      by_cases settling : isSettling op
      · cases a with
        | answer i reply =>
          have holds := held.settles undisturbed applied settling found moved
          exact absurd (delivered.symm.trans holds.1) (by decide)
        | replay _ _ => cases applied; cases settling
        | replayAllParked _ => cases applied; cases settling
        | prune _ _ _ _ => cases applied; cases settling
        | _ => cases applied
      · cases moved with
        | claim due _ => simp [EventRecord.isDue, EventRecord.isWaiting, delivered] at due
        | recover taken => simp [EventRecord.recoverable, delivered] at taken
        | expire taken => simp [EventRecord.expired, delivered] at taken
        | wipe _ => exact delivered
        | requeue parked => rw [delivered] at parked; cases parked
        | requeueAll parked => rw [delivered] at parked; cases parked
        | _ => exact absurd rfl settling

theorem held_run {actions : List Action} (undisturbed : (machine D).Guarded Undisturbed actions) :
    Held D ((machine D).run actions) :=
  Machine.guarded_invariant (Held D) (held_init D)
    (fun _ _ held undisturbed => held_step held undisturbed) undisturbed

/-! ## One instance alone -/

/-- Only the one instance acts, and it does not slip. -/
def OnlyInstance (i : String) (s : System) (a : Action) : Prop :=
  a.instance?.all (· == i) ∧ s.slips a = false

instance (i : String) (s : System) (a : Action) : Decidable (OnlyInstance i s a) :=
  inferInstanceAs (Decidable (_ ∧ _))

/-- An instance that is alone is left undisturbed. -/
theorem undisturbed_of_only {actions : List Action}
    (only : (machine D).Guarded (OnlyInstance i) actions) :
    (machine D).Guarded Undisturbed actions := by
  refine Machine.Guarded.strengthen (fun s => ∀ j, j ≠ i → (s.instances j).calls = [])
    (fun j _ => rfl) (fun s a idle guard => ⟨fun j other => ?_, fun intrudes => ?_, guard.2⟩) only
  · rcases calls_step D s a j with same | none_ | ⟨reply, op, next, rfl, -, -⟩
    · exact same.trans (idle j other)
    · exact none_
    · exact absurd (beq_iff_eq.mp guard.1) other
  · have alone : ∀ {j id}, a.instance? = some j → ¬ s.FlyingElsewhere j id := by
      intro j id acts elsewhere
      obtain ⟨j', other, event, flying, -⟩ := elsewhere
      have here := guard.1
      rw [acts] at here
      obtain rfl := beq_iff_eq.mp here
      rw [idle j' other] at flying
      cases flying
    unfold Intrudes at intrudes
    split at intrudes
    · split at intrudes
      · obtain ⟨r, -, -, elsewhere⟩ := intrudes
        exact alone rfl elsewhere
      · obtain ⟨r, -, elsewhere⟩ := intrudes
        exact alone rfl elsewhere
      · exact intrudes
    · exact intrudes

/-- The rows an applied call of an instance takes out of whatever batch has them. -/
def taken (s : System) : Action → List EventRecord
  | .answer i reply =>
    match s.appliedBy i reply with
    | some (.recoverDelivering now owner) => s.store.rows.filter fun r => r.recoverable now owner
    | some (.claimDue routeId now limit _) => s.store.dueRows routeId now limit
    | _ => []
  | _ => []

/-- Only these instances act, the step slips not, and no row it takes is in the
batch in flight of another of them. -/
def Peaceful (instances : List String) (s : System) (a : Action) : Prop :=
  a.instance?.all (instances.contains ·) ∧ s.slips a = false ∧
    ∀ j ∈ instances, a.instance? ≠ some j →
      ∀ event ∈ Dispatcher.inFlight (s.instances j).calls, event.id ∉ (s.taken a).map fun r => r.id

instance (instances : List String) (s : System) (a : Action) : Decidable (Peaceful instances s a) :=
  inferInstanceAs (Decidable (_ ∧ _ ∧ _))

/-- Instances that keep to themselves leave each other undisturbed. -/
theorem undisturbed_of_peaceful {instances : List String} {actions : List Action}
    (peaceful : (machine D).Guarded (Peaceful instances) actions) :
    (machine D).Guarded Undisturbed actions := by
  refine Machine.Guarded.strengthen (fun s => ∀ j, j ∉ instances → (s.instances j).calls = [])
    (fun j _ => rfl) (fun s a idle guard => ⟨fun j other => ?_, fun intrudes => ?_, guard.2.1⟩) peaceful
  · rcases calls_step D s a j with same | none_ | ⟨reply, op, next, rfl, -, -⟩
    · exact same.trans (idle j other)
    · exact none_
    · exact absurd (List.contains_iff_mem.mp guard.1) other
  · have apart : ∀ {i reply r}, a = .answer i reply → r ∈ s.taken a → ¬ s.FlyingElsewhere i r.id := by
      rintro i reply r rfl member ⟨j, other, event, flying, same⟩
      by_cases known : j ∈ instances
      · refine guard.2.2 j known (fun acts => other (Option.some.inj acts).symm) event flying ?_
        exact List.mem_map.mpr ⟨r, member, same.symm⟩
      · rw [idle j known] at flying
        cases flying
    cases a with
    | answer i reply =>
      unfold Intrudes at intrudes
      dsimp only at intrudes
      split at intrudes
      · rename_i now owner applied
        obtain ⟨r, listed, recoverable, elsewhere⟩ := intrudes
        refine apart rfl ?_ elsewhere
        simp only [taken, applied]
        exact List.mem_filter.mpr ⟨listed, recoverable⟩
      · rename_i routeId now limit lease applied
        obtain ⟨r, due, elsewhere⟩ := intrudes
        refine apart rfl ?_ elsewhere
        simp only [taken, applied]
        exact due
      · exact intrudes
    | _ => exact intrudes

/-- As long as no step takes a row out of another instance's batch in flight
and no catch clause settles a half settled batch again, every settling call
changes only rows its instance holds, and a delivered row stays delivered. -/
theorem settles_only_held (D : Deployment) (actions : List Action) (a : Action)
    (undisturbed : (machine D).Guarded Undisturbed (actions ++ [a])) :
    SettlesOnlyHeld ((machine D).run actions) a ((machine D).run (actions ++ [a])) ∧
      DeliveredStays ((machine D).run actions) ((machine D).run (actions ++ [a])) := by
  rw [Machine.guarded_concat] at undisturbed
  have held := held_run undisturbed.1
  rw [Machine.run_concat]
  exact ⟨settlesOnlyHeld_step held undisturbed.2, deliveredStays_step held undisturbed.2⟩

/-- The sample payment, taken in and on its way until its POST is to be settled. -/
def sampleRun : List Action :=
  sampleIngest :: .start "a" :: List.replicate 13 (.answer "a" (sampleReply 0 .absent))

/-- Another payment. -/
def otherPayment : Json :=
  .obj [("Event", .str "ApprovedPayment"), ("TransactionId", .str "t2"), ("amount", .str "2.00")]

/-- A relay that knows both payments. -/
def bothDeployment : Deployment where
  ingest := { runtime := .knowing [([1], samplePayment), ([2], otherPayment)], codec := plainCodec }
  dispatcher i := {
    runtime := .knowing [([1], samplePayment), ([2], otherPayment)], codec := plainCodec,
    maskingKey := [], instanceId := i }
  named _ := rfl

/-- Instances `a` and `b` have claimed a payment each, `b` while that of `a` was under
way, and `a` is about to settle its own after its lease has run out. -/
def sharedRun : List Action :=
  sampleIngest :: .start "a" :: List.replicate 11 (.answer "a" (sampleReply 0 .absent)) ++
    .ingest "payments" { sampleRequest with rawBody := some [2] } (fun _ => sampleWorld sampleRoute) ::
      .start "b" :: List.replicate 11 (.answer "b" (sampleReply 1 .absent)) ++
    List.replicate 2 (.answer "a" (sampleReply 700000 .absent))

/-- The late settlement of `a` changes the row `a` holds, and `b` keeps its own. -/
theorem settles_only_held_shared :
    SettlesOnlyHeld ((machine bothDeployment).run sharedRun) (.answer "a" (sampleReply 700000 .absent))
        ((machine bothDeployment).run (sharedRun ++ [.answer "a" (sampleReply 700000 .absent)])) ∧
      ((machine bothDeployment).run (sharedRun ++ [.answer "a" (sampleReply 700000 .absent)])).store.rows.map
        (fun r => (r.id, r.status, r.claimedBy)) = [(1, .delivered, none), (2, .delivering, some "b")] :=
  ⟨(settles_only_held bothDeployment sharedRun _
    (@undisturbed_of_peaceful _ ["a", "b"] _ (by decide +kernel))).1, by decide +kernel⟩

/-- Instance `b` recovers the payment after its lease has run out and claims it,
and then `a`, which was slow, goes on. -/
def overtakenRun : List Action :=
  sampleRun.take 12 ++ .start "b" :: List.replicate 12 (.answer "b" (sampleReply 700000 .absent)) ++
    List.replicate 3 (.answer "a" (sampleReply 700000 .absent))

/-- The late settlement changes a row the other instance holds. -/
theorem overtaken_settles : ¬ SettlesOnlyHeld ((machine sampleDeployment).run overtakenRun)
    (.answer "a" (sampleReply 700000 .absent))
    ((machine sampleDeployment).run (overtakenRun ++ [.answer "a" (sampleReply 700000 .absent)])) := by
  intro only
  have held : (((machine sampleDeployment).run overtakenRun).store.row? 1).any (fun r =>
      r.claimedBy == some "b" && ((machine sampleDeployment).run
        (overtakenRun ++ [.answer "a" (sampleReply 700000 .absent)])).store.row? 1 != some r) := by
    decide
  obtain ⟨r, found, changed⟩ := (Option.any_eq_true _ _).mp held
  rw [Bool.and_eq_true] at changed
  have holds := only "a" _ (.markDelivered [1] 700000 (some "bulk")) rfl rfl rfl 1 r found
    (bne_iff_ne.mp changed.2)
  exact absurd (holds.2.symm.trans (beq_iff_eq.mp changed.1)) (by decide)

end

end EndCloseRelay.System
