import EndCloseRelay.Engine.System

/-!
# No loss

An accepted event is in its row as it was inserted until a POST that held its
record succeeded and the row was then marked delivered; only after that can
retention take it.  `Safe` is the invariant, and `nothing_lost` what it says in
terms of what was answered to the processor.
-/

namespace EndCloseRelay.System

open Interaction

/-- The log shows the event stored under the id, to be delivered. -/
def Accepted (log : List Entry) (id : Nat) (e : NewEvent) : Prop :=
  ∃ routeId raw calls result, Entry.ingested routeId raw calls result ∈ log ∧
    (⟨.insert e, .ok (.inserted id)⟩ : Exchange Ingest.Op.Answer) ∈ calls ∧ e.status = .pending

/-- The row of the event is there as it was inserted, and not done with. -/
def Intact (store : MemoryStore) (id : Nat) (e : NewEvent) : Prop :=
  ∃ r, store.row? id = some r ∧ r.status.isActive ∧ r.toNewEvent = e.withStatus r.status

/-- The log shows the event marked delivered, by an instance that had by then
posted a record built from it and been answered with success. -/
def MarkedDelivered (D : Deployment) (log : List Entry) (id : Nat) (e : NewEvent) : Prop :=
  ∃ i calls ids deliveredAt bulkRequestId event,
    Entry.called i (⟨.store (.markDelivered ids deliveredAt bulkRequestId), .ok ()⟩ :: calls) ∈ log ∧
    id ∈ ids ∧ event.id = id ∧ event.toNewEvent = e.withStatus .delivering ∧
    Dispatcher.Posted (D.dispatcher i) calls event

/-- Every event the relay answered `accepted` for is intact, or was delivered. -/
def NothingLost (D : Deployment) (s : System) : Prop :=
  ∀ routeId raw calls result, Entry.ingested routeId raw calls (.ok result) ∈ s.log →
    result.outcome = .ingest .accepted → ∃ e id, result.id = some id ∧
      (⟨.insert e, .ok (.inserted id)⟩ : Exchange Ingest.Op.Answer) ∈ calls ∧
      Ingest.IsWebhook D.ingest calls routeId raw e ∧
      (Intact s.store id e ∨ MarkedDelivered D s.log id e)

/-! ## The invariant -/

/-- What holds of the accepted events in every reachable state. -/
structure Safe (D : Deployment) (s : System) : Prop where
  conforms : Conforms D s
  vouched : ∀ routeId raw calls result, Entry.ingested routeId raw calls (.ok result) ∈ s.log →
    Ingest.Acknowledged D.ingest calls routeId raw result
  known : ∀ id e, Accepted s.log id e → id < s.store.nextId
  claimed : ∀ i, ∀ event ∈ Dispatcher.inFlight (s.instances i).calls, event.id < s.store.nextId
  safe : ∀ id e, Accepted s.log id e → Intact s.store id e ∨ MarkedDelivered D s.log id e
  carried : ∀ i, ∀ event ∈ Dispatcher.inFlight (s.instances i).calls, ∀ e,
    Accepted s.log event.id e →
      event.toNewEvent = e.withStatus .delivering ∨ MarkedDelivered D s.log event.id e

section

variable {D : Deployment} {s : System} {a : Action} {id : Nat} {e : NewEvent}

theorem MarkedDelivered.mono {log log' : List Entry} (more : log ⊆ log')
    (delivered : MarkedDelivered D log id e) : MarkedDelivered D log' id e := by
  obtain ⟨i, calls, ids, deliveredAt, bulkRequestId, event, listed, rest⟩ := delivered
  exact ⟨i, calls, ids, deliveredAt, bulkRequestId, event, more listed, rest⟩

/-- What a step adds to the log: nothing, a webhook, or the call it answers. -/
theorem log_step (D : Deployment) (s : System) (a : Action) :
    (step D s a).log = s.log ∨
      (∃ routeId raw world calls result, a = .ingest routeId raw world ∧
        (step D s a).log = .ingested routeId raw calls result :: s.log ∧
        IngestEffect D s.store routeId raw calls (step D s a).store ∧
        ∀ answer, result = .ok answer → Ingest.Acknowledged D.ingest calls routeId raw answer) ∨
      ∃ i reply op next, a = .answer i reply ∧ (s.instances i).rest = .call op next ∧
        Answers s i reply op (step D s a) := by
  cases a with
  | ingest routeId raw world =>
    obtain ⟨-, calls, result, log, effect, vouched⟩ := s.ingest_cases D routeId raw world
    exact .inr (.inl ⟨routeId, raw, world, calls, result, rfl, log, effect, vouched⟩)
  | start i =>
    refine .inl ?_
    show (s.start D i).log = s.log
    unfold start
    split <;> rfl
  | answer i reply =>
    rcases s.answer_cases i reply with ⟨-, same⟩ | ⟨op, next, rest, answers, -⟩
    · exact .inl (congrArg System.log same)
    · exact .inr (.inr ⟨i, reply, op, next, rfl, rest, answers⟩)
  | crash i => exact .inl rfl
  | replay id now => exact .inl rfl
  | replayAllParked now => exact .inl rfl
  | prune now deliveredDays ledgerDays limit => exact .inl rfl

theorem log_subset (D : Deployment) (s : System) (a : Action) : s.log ⊆ (step D s a).log := by
  rcases log_step D s a with same | ⟨_, _, _, _, _, _, log, -⟩ | ⟨_, _, _, _, _, _, answers⟩
  · rw [same]
    exact List.Subset.refl _
  · rw [log]
    exact List.subset_cons_self _ _
  · rw [answers.log]
    exact List.subset_cons_self _ _

/-- An event accepted after a step was accepted before, or is the webhook the
step stored under a new id. -/
theorem accepted_step (accepted : Accepted (step D s a).log id e) :
    Accepted s.log id e ∨ (id = s.store.nextId ∧ e.status = .pending ∧
      (step D s a).store = (s.store.insert e).2 ∧ (s.store.insert e).1 = .inserted id) := by
  obtain ⟨routeId, raw, calls, result, listed, inserted, pending⟩ := accepted
  rcases log_step D s a with same | ⟨_, _, _, calls', result', rfl, log, effect, -⟩ |
    ⟨i, _, _, _, _, _, answers⟩
  · rw [same] at listed
    exact .inl ⟨routeId, raw, calls, result, listed, inserted, pending⟩
  · rw [log] at listed
    rcases List.mem_cons.mp listed with new | old
    · obtain ⟨rfl, rfl, rfl, rfl⟩ := Entry.ingested.inj new
      generalize (step D s _).store = store' at effect
      cases effect with
      | nothing none_ => exact absurd inserted (none_ e _)
      | stored e' _ _ only =>
        obtain ⟨rfl, outcome⟩ := only e _ inserted
        refine .inr ⟨?_, pending, rfl, outcome.symm⟩
        unfold MemoryStore.insert at outcome
        split at outcome <;> cases outcome
        rfl
    · exact .inl ⟨routeId, raw, calls, result, old, inserted, pending⟩
  · rw [answers.log] at listed
    rcases List.mem_cons.mp listed with new | old
    · cases new
    · exact .inl ⟨routeId, raw, calls, result, old, inserted, pending⟩

/-- No step takes an id back. -/
theorem nextId_step (D : Deployment) (s : System) (a : Action) :
    s.store.nextId ≤ (step D s a).store.nextId := by
  rcases step_store D s a with ⟨op, -, store⟩ | ⟨-, same | ⟨routeId, raw, world, rfl⟩⟩
  · rw [store]
    exact MemoryStore.nextId_le_apply op
  · rw [same]
  · obtain ⟨-, calls, result, -, effect, -⟩ := s.ingest_cases D routeId raw world
    show s.store.nextId ≤ (s.ingest D routeId raw world).store.nextId
    generalize (s.ingest D routeId raw world).store = store' at effect ⊢
    cases effect with
    | nothing _ => exact le_rfl
    | stored e _ _ _ => exact MemoryStore.nextId_insert e

/-- A step leaves an intact event intact, or is the call that marks it delivered. -/
theorem intact_step (intact : Intact s.store id e) :
    Intact (step D s a).store id e ∨ ∃ ids deliveredAt bulkRequestId,
      s.applied a = some (.markDelivered ids deliveredAt bulkRequestId) ∧ id ∈ ids := by
  obtain ⟨r, found, active, event⟩ := intact
  have move := row_move D s a id
  rw [found] at move
  generalize after : (step D s a).store.row? id = row at move
  cases move with
  | same => exact .inl ⟨r, after, active, event⟩
  | @call op _ _ applied change =>
    cases change with
    | same => exact .inl ⟨r, after, active, event⟩
    | @step _ _ r' moved =>
      obtain ⟨kept, live | ⟨ids, deliveredAt, bulkRequestId, rfl, listed⟩⟩ := moved.keeps active
      · refine .inl ⟨r', after, live, ?_⟩
        rw [kept, event]
        rfl
      · rw [(MemoryStore.row?_mem found).2] at listed
        exact .inr ⟨ids, deliveredAt, bulkRequestId, applied, listed⟩
    | deleted terminal =>
      rw [EventRecord.isTerminal_iff, active] at terminal
      cases terminal

/-- The call that marks an accepted event delivered is logged with what it rests on. -/
theorem markedDelivered_step (safe : Safe D s) (accepted : Accepted s.log id e)
    {ids : List Nat} {deliveredAt : Int} {bulkRequestId : Option String}
    (applied : s.applied a = some (.markDelivered ids deliveredAt bulkRequestId))
    (listed : id ∈ ids) : MarkedDelivered D (step D s a).log id e := by
  cases a with
  | answer i reply =>
    obtain ⟨⟨next, rest⟩, healthy⟩ := appliedBy_eq_some.mp applied
    rcases s.answer_cases i reply with ⟨⟨out, idle⟩, -⟩ | ⟨op, next', rest', answers, -⟩
    · rw [rest] at idle
      cases idle
    · rw [rest] at rest'
      obtain ⟨rfl, -⟩ := Program.call.inj rest'
      obtain ⟨isOpen, posted⟩ := safe.conforms.allowed rest
      obtain ⟨event, flying, rfl⟩ := Dispatcher.mem_inFlight_of_opens (isOpen id listed)
      rcases safe.carried i event flying e accepted with data | already
      · refine ⟨i, (s.instances i).calls, ids, deliveredAt, bulkRequestId, event, ?_, listed, rfl,
          data, posted event flying listed⟩
        show _ ∈ (s.answer i reply).log
        rw [answers.log, answers.calls]
        rcases reply.respond_store s.store (.markDelivered ids deliveredAt bulkRequestId) with
          ⟨fault, faulty, -⟩ | ⟨-, done⟩
        · rw [healthy] at faulty
          cases faulty
        · rw [done]
          exact List.mem_cons_self ..
      · exact already.mono (log_subset D s _)
  | _ => cases applied

/-- A row under an id that no row had before is that of the inserted event. -/
theorem row?_insert_new {store : MemoryStore} (inserted : (store.insert e).1 = .inserted id) :
    (store.insert e).2.row? id = some (.ofNew e id) := by
  unfold MemoryStore.insert at inserted ⊢
  split at inserted
  · cases inserted
  · cases inserted
    simp only [MemoryStore.row?_addRow, if_pos]

theorem safe_step (safe : Safe D s) (a : Action) : Safe D (step D s a) where
  conforms := conforms_step a safe.conforms
  vouched := by
    intro routeId raw calls result listed
    rcases log_step D s a with same | ⟨_, _, _, calls', result', rfl, log, -, vouched⟩ |
      ⟨i, _, _, _, _, _, answers⟩
    · rw [same] at listed
      exact safe.vouched routeId raw calls result listed
    · rw [log] at listed
      rcases List.mem_cons.mp listed with new | old
      · obtain ⟨rfl, rfl, rfl, same⟩ := Entry.ingested.inj new
        exact vouched result same.symm
      · exact safe.vouched routeId raw calls result old
    · rw [answers.log] at listed
      rcases List.mem_cons.mp listed with new | old
      · cases new
      · exact safe.vouched routeId raw calls result old
  known := by
    intro id e accepted
    rcases accepted_step accepted with before | ⟨rfl, -, store, inserted⟩
    · have below := safe.known id e before
      have grows := nextId_step D s a
      omega
    · rw [store]
      exact MemoryStore.row?_lt (row?_insert_new inserted)
  claimed := by
    intro i event flying
    have grows := nextId_step D s a
    rcases inFlight_step flying with before | ⟨reply, routeId, now, limit, lease, -, -, member⟩
    · have below := safe.claimed i event before
      omega
    · obtain ⟨r, picked, rfl⟩ := List.mem_map.mp member
      have below := s.store.fresh r (MemoryStore.mem_dueRows picked).1
      show r.id < _
      omega
  safe := by
    intro id e accepted
    rcases accepted_step accepted with before | ⟨-, pending, store, inserted⟩
    · rcases safe.safe id e before with intact | delivered
      · rcases intact_step intact with still | ⟨ids, deliveredAt, bulkRequestId, applied, listed⟩
        · exact .inl still
        · exact .inr (markedDelivered_step safe before applied listed)
      · exact .inr (delivered.mono (log_subset D s a))
    · refine .inl ⟨.ofNew e id, ?_, ?_, rfl⟩
      · rw [store]
        exact row?_insert_new inserted
      · show e.status.isActive
        rw [pending]
        rfl
  carried := by
    intro i event flying e accepted
    rcases inFlight_step flying with before | ⟨reply, routeId, now, limit, lease, rfl, -, member⟩
    · rcases accepted_step accepted with known | ⟨new, -⟩
      · exact (safe.carried i event before e known).imp_right fun delivered =>
          delivered.mono (log_subset D s a)
      · have below := safe.claimed i event before
        omega
    · obtain ⟨r, picked, rfl⟩ := List.mem_map.mp member
      have listed := (MemoryStore.mem_dueRows picked).1
      rcases accepted_step accepted with known | ⟨new, -⟩
      · rcases safe.safe r.id e known with ⟨r', found, -, event⟩ | delivered
        · rw [MemoryStore.row?_of_mem listed] at found
          obtain rfl := Option.some.inj found
          refine .inl ?_
          show r.toNewEvent.withStatus .delivering = _
          rw [event]
          rfl
        · exact .inr (delivered.mono (log_subset D s _))
      · have below := s.store.fresh r listed
        have new : r.id = s.store.nextId := new
        omega

/-- `Safe` holds in every reachable state. -/
theorem safe_run (D : Deployment) (actions : List Action) : Safe D ((machine D).run actions) := by
  have start : Safe D (machine D).init := by
    refine ⟨conforms_run D [], ?_, ?_, ?_, ?_, ?_⟩
    · intro routeId raw calls result listed
      cases listed
    · intro id e accepted
      obtain ⟨_, _, _, _, listed, -⟩ := accepted
      cases listed
    · intro i event flying
      cases flying
    · intro id e accepted
      obtain ⟨_, _, _, _, listed, -⟩ := accepted
      cases listed
    · intro i event flying
      cases flying
  exact Machine.invariant (Safe D) start (fun _ a safe => safe_step safe a) actions

/-- In every reachable state, whatever End Close, the hosts and the operators
did and whichever calls to the store failed, no accepted event is lost. -/
theorem nothing_lost (D : Deployment) (actions : List Action) :
    NothingLost D ((machine D).run actions) := by
  have safe := safe_run D actions
  intro routeId raw calls result listed accepted
  have vouched := safe.vouched routeId raw calls result listed
  unfold Ingest.Acknowledged at vouched
  rw [accepted] at vouched
  obtain ⟨e, id, inserted, webhook, pending, named, -⟩ := vouched
  refine ⟨e, id, named, inserted, webhook, safe.safe id e ?_⟩
  exact ⟨routeId, raw, calls, .ok result, listed, inserted, pending⟩

end

end EndCloseRelay.System
