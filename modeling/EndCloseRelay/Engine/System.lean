import EndCloseRelay.Engine.Acknowledgement
import EndCloseRelay.Engine.RowChange
import EndCloseRelay.Forward.BatchProtocol
import EndCloseRelay.Interaction.Machine

/-!
# The relay as a system

Any number of instances over one store.  A step answers one call of one
instance, or starts or crashes it, takes in a webhook, or is an operator's or
retention's call to the store.  A call to the store happens at once or fails
without effect; everything else the world answers as it likes.
-/

namespace EndCloseRelay

open Interaction

/-! ## Answers -/

/-- How a call to the store can fail. -/
inductive StoreFault
  | failed (message op : String)
  | unavailable (message op : String)
  | thrown (message : String)
deriving DecidableEq

/-- The error a failed call rejects with. -/
def StoreFault.error : StoreFault → RelayError
  | failed message op => .store message op
  | unavailable message op => .storeUnavailable message op
  | thrown message => .other message

/-- What the world does with the call a cycle is at. -/
structure Dispatcher.Reply where
  fault : Option StoreFault := none
  answer : (op : Dispatcher.Op) → op.Answer

/-- The answer to a call of a cycle, and the store after it. -/
def Dispatcher.Reply.respond (reply : Dispatcher.Reply) (store : MemoryStore) :
    (op : Dispatcher.Op) → op.Answer × MemoryStore
  | .store op =>
    match reply.fault with
    | some fault => (.error fault.error, store)
    | none => (.ok (store.apply op).1, (store.apply op).2)
  | op => (reply.answer op, store)

/-- A call to the store fails without effect, or happens. -/
theorem Dispatcher.Reply.respond_store (reply : Dispatcher.Reply) (store : MemoryStore)
    (op : StoreOp) :
    (∃ fault, reply.fault = some fault ∧
      reply.respond store (.store op) = (.error fault.error, store)) ∨
    (reply.fault = none ∧
      reply.respond store (.store op) = (.ok (store.apply op).1, (store.apply op).2)) := by
  unfold respond
  cases faulty : reply.fault with
  | some fault => exact .inl ⟨fault, rfl, rfl⟩
  | none => exact .inr ⟨rfl, rfl⟩

/-- What the world does with a call of a request. -/
structure Ingest.Reply where
  fault : Option StoreFault := none
  answer : (op : Ingest.Op) → op.Answer

/-- The answer to a call of a request, and the store after it. -/
def Ingest.Reply.respond (reply : Ingest.Reply) (store : MemoryStore) :
    (op : Ingest.Op) → op.Answer × MemoryStore
  | .insert e =>
    match reply.fault with
    | some fault => (.error fault.error, store)
    | none => (.ok (store.insert e).1, (store.insert e).2)
  | op => (reply.answer op, store)

/-! ## States and steps -/

/-- What the instances and the ingest path of a relay are made of.  Instances
have distinct ids: they are known by them. -/
structure Deployment where
  ingest : IngestDeps
  dispatcher : String → DispatcherDeps
  named : ∀ i, (dispatcher i).instanceId = i

/-- An instance: what is left of its cycle, and the calls it has made in it. -/
structure Instance where
  rest : Program Dispatcher.Op Dispatcher.Op.Answer
    (Except RelayError CycleSummary × Dispatcher.State)
  calls : Dispatcher.Calls

/-- What was to be seen from outside. -/
inductive Entry
  | ingested (routeId : String) (raw : RawRequest) (calls : Ingest.Calls)
      (result : Except RelayError IngestResult)
  | called (i : String) (calls : Dispatcher.Calls)

/-- A state of the system; the log has its latest entry first. -/
structure System where
  store : MemoryStore := {}
  instances : String → Instance
  log : List Entry := []

/-- One action. -/
inductive Action
  | ingest (routeId : String) (raw : RawRequest) (world : Ingest.Calls → Ingest.Reply)
  | start (i : String)
  | answer (i : String) (reply : Dispatcher.Reply)
  | crash (i : String)
  | replay (id : Nat) (now : Int)
  | replayAllParked (now : Int)
  | prune (now : Int) (deliveredDays ledgerDays : Int) (limit : Nat)

/-- The instance an action is about. -/
def Action.instance? : Action → Option String
  | .start i | .answer i _ | .crash i => some i
  | _ => none

namespace System

/-- An instance that has just come up. -/
def idle (D : Deployment) (i : String) : Instance where
  rest := .pure (.ok {}, .initial (D.dispatcher i))
  calls := []

/-- Replace one instance. -/
def setInstance (s : System) (i : String) (inst : Instance) : System :=
  { s with instances := fun j => if j = i then inst else s.instances j }

/-- Answer the call an instance is at. -/
def answer (s : System) (i : String) (reply : Dispatcher.Reply) : System :=
  match (s.instances i).rest with
  | .pure _ => s
  | .call op next =>
    let (answer, store) := reply.respond s.store op
    let calls := ⟨op, answer⟩ :: (s.instances i).calls
    { s.setInstance i { rest := next answer, calls } with
      store, log := .called i calls :: s.log }

/-- Take a webhook in.  Its only call that others can see is its insert, so the
request runs at once. -/
def ingest (D : Deployment) (s : System) (routeId : String) (raw : RawRequest)
    (world : Ingest.Calls → Ingest.Reply) : System :=
  let (out, calls, store) := ((Ingest.ingestWebhook D.ingest routeId raw).start {}).exec
    (fun calls store op => (world calls).respond store op) [] s.store
  { s with store, log := .ingested routeId raw calls out.1 :: s.log }

/-- Begin a cycle, unless one is going on. -/
def start (D : Deployment) (s : System) (i : String) : System :=
  match (s.instances i).rest with
  | .pure (_, state) =>
    s.setInstance i { rest := (Dispatcher.runOnce (D.dispatcher i)).start state, calls := [] }
  | .call .. => s

/-- One step. -/
def step (D : Deployment) (s : System) : Action → System
  | .ingest routeId raw world => s.ingest D routeId raw world
  | .start i => s.start D i
  | .answer i reply => s.answer i reply
  | .crash i => s.setInstance i (idle D i)
  | .replay id now => { s with store := (s.store.apply (.replay id now)).2 }
  | .replayAllParked now => { s with store := (s.store.apply (.replayAllParked now)).2 }
  | .prune now deliveredDays ledgerDays limit =>
    { s with store := (s.store.apply (.pruneBatch now deliveredDays ledgerDays limit)).2 }

/-- The relay, from an empty store on. -/
def machine (D : Deployment) : Machine System Action where
  init := { instances := idle D }
  step := step D

/-! ## A relay for runs on fixed inputs -/

/-- A payment the processor reports. -/
def samplePayment : Json :=
  .obj [("Event", .str "ApprovedPayment"), ("TransactionId", .str "t1"), ("amount", .str "1.00")]

/-- The one route. -/
def sampleRoute : RouteConfig where
  id := "payments"
  source := "payabli"
  auth := .staticHeader { secretEnv := "SECRET" }
  map := {
    dataStreamKey := "payments"
    externalId := { ref := .path "TransactionId" }
    amount := { ref := .path "amount" }
    direction := .credit }

/-- Payloads are stored as they come, and `[1]` is the text of the payment. -/
def sampleDeployment : Deployment where
  ingest := { runtime := .knowing [([1], samplePayment)], codec := plainCodec }
  dispatcher i := {
    runtime := .knowing [([1], samplePayment)], codec := plainCodec, maskingKey := [],
    instanceId := i }
  named _ := rfl

/-- The webhook that reports it. -/
def sampleRequest : RawRequest where
  rawBody := some [1]
  headers := [("authorization", .text "secret")]
  remoteIp := "10.0.0.1"

/-- The world of a request for the route. -/
def sampleWorld (route : RouteConfig) : Ingest.Reply where
  answer
    | .getRoute _ => .ok (some route)
    | .getKillswitch => .ok .none
    | .resolveSecret _ => .ok (some (.text "secret"))
    | .now => (0 : Int)
    | .entropy => ([] : Bytes)
    | .insert _ => .ok .duplicate

/-- The payment comes in for a route. -/
def sampleWebhook (route : RouteConfig) : Action :=
  .ingest route.id sampleRequest fun _ => sampleWorld route

/-- The payment comes in for the one route. -/
def sampleIngest : Action := sampleWebhook sampleRoute

/-- The world at one time: End Close accepts what is posted and has these results. -/
def sampleReply (now : Int) (results : BulkResults) (fault : Option StoreFault := none) :
    Dispatcher.Reply where
  fault
  answer
    | .store _ => .error (.other "")
    | .getKillswitch => .ok .none
    | .getRoute _ => .ok (some sampleRoute)
    | .isRoutePaused _ => .ok false
    | .enrich .. => .ok .undefined
    | .bulkCreateRecords .. => .response 200 "" (.ok (some { id := some "bulk" }))
    | .getBulkRequest _ => .response 200 "" (.ok (some { status := some "completed", results }))
    | .now => now
    | .random => (0 : ℚ)
    | .aborted => false
    | .sleep _ => ()

/-! ## What a step does -/

section

variable {D : Deployment} {s : System} {i j : String} {reply : Dispatcher.Reply}

@[simp] theorem setInstance_store (inst : Instance) : (s.setInstance i inst).store = s.store := rfl

@[simp] theorem setInstance_log (inst : Instance) : (s.setInstance i inst).log = s.log := rfl

@[simp] theorem setInstance_same (inst : Instance) : (s.setInstance i inst).instances i = inst :=
  if_pos rfl

theorem setInstance_other (inst : Instance) (other : j ≠ i) :
    (s.setInstance i inst).instances j = s.instances j :=
  if_neg other

/-- What answering the call an instance is at makes of a state. -/
structure Answers (s : System) (i : String) (reply : Dispatcher.Reply) (op : Dispatcher.Op)
    (s' : System) : Prop where
  store : s'.store = (reply.respond s.store op).2
  calls : (s'.instances i).calls =
    ⟨op, (reply.respond s.store op).1⟩ :: (s.instances i).calls
  others : ∀ j, j ≠ i → s'.instances j = s.instances j
  log : s'.log = .called i (s'.instances i).calls :: s.log

/-- Answering an idle instance does nothing; answering another one is one
exchange, after which its program goes on. -/
theorem answer_cases (s : System) (i : String) (reply : Dispatcher.Reply) :
    ((∃ out, (s.instances i).rest = .pure out) ∧ s.answer i reply = s) ∨
    ∃ op next, (s.instances i).rest = .call op next ∧ Answers s i reply op (s.answer i reply) ∧
      ((s.answer i reply).instances i).rest = next (reply.respond s.store op).1 := by
  unfold answer
  cases rest : (s.instances i).rest with
  | pure out => exact .inl ⟨⟨out, rfl⟩, rfl⟩
  | call op next =>
    have same := s.setInstance_same (i := i)
      ⟨next (reply.respond s.store op).1, ⟨op, (reply.respond s.store op).1⟩ ::
        (s.instances i).calls⟩
    refine .inr ⟨op, next, rfl, ⟨rfl, congrArg Instance.calls same, ?_, ?_⟩,
      congrArg Instance.rest same⟩
    · intro j other
      exact if_neg other
    · exact congrArg (fun calls => Entry.called i calls :: s.log)
        (congrArg Instance.calls same).symm

theorem start_store (i : String) : (s.start D i).store = s.store := by
  unfold start
  split <;> rfl

/-! ## Taking a webhook in -/

/-- What a request did to the store: nothing, or the one insert its calls show. -/
inductive IngestEffect (D : Deployment) (store : MemoryStore) (routeId : String)
    (raw : RawRequest) (calls : Ingest.Calls) : MemoryStore → Prop
  | nothing (none_ : ∀ e r, (⟨.insert e, .ok r⟩ : Exchange Ingest.Op.Answer) ∉ calls) :
      IngestEffect D store routeId raw calls store
  | stored (e : NewEvent)
      (inserted : (⟨.insert e, .ok (store.insert e).1⟩ : Exchange Ingest.Op.Answer) ∈ calls)
      (webhook : Ingest.IsWebhook D.ingest calls routeId raw e)
      (only : ∀ e' r, (⟨.insert e', .ok r⟩ : Exchange Ingest.Op.Answer) ∈ calls →
        e' = e ∧ r = (store.insert e).1) :
      IngestEffect D store routeId raw calls (store.insert e).2

/-- A call that inserts nothing leaves the effect as it is. -/
theorem IngestEffect.cons {store store' : MemoryStore} {routeId : String} {raw : RawRequest}
    {calls : Ingest.Calls} {x : Exchange Ingest.Op.Answer}
    (effect : IngestEffect D store routeId raw calls store')
    (plain : ∀ e r, x ≠ ⟨.insert e, .ok r⟩) :
    IngestEffect D store routeId raw (x :: calls) store' := by
  have later : ∀ e r, (⟨.insert e, .ok r⟩ : Exchange Ingest.Op.Answer) ∈ x :: calls →
      (⟨.insert e, .ok r⟩ : Exchange Ingest.Op.Answer) ∈ calls := by
    intro e r member
    rcases List.mem_cons.mp member with same | member
    · exact absurd same.symm (plain e r)
    · exact member
  cases effect with
  | nothing none_ => exact .nothing fun e r member => none_ e r (later e r member)
  | stored e inserted webhook only =>
    exact .stored e (List.mem_cons_of_mem _ inserted) (webhook.mono (List.subset_cons_self _ _))
      fun e' r member => only e' r (later e' r member)

/-- One call of a request. -/
theorem IngestEffect.respond {store store' : MemoryStore} {routeId : String} {raw : RawRequest}
    {calls : Ingest.Calls} (effect : IngestEffect D store routeId raw calls store')
    (reply : Ingest.Reply) {op : Ingest.Op}
    (allowed : (Ingest.protocol D.ingest routeId raw).allowed calls op) :
    IngestEffect D store routeId raw (⟨op, (reply.respond store' op).1⟩ :: calls)
      (reply.respond store' op).2 := by
  cases op with
  | insert e =>
    obtain ⟨webhook, fresh⟩ := allowed e rfl
    cases fault : reply.fault with
    | some fault =>
      simp only [Ingest.Reply.respond, fault]
      exact effect.cons fun e' r same => by cases same
    | none =>
      simp only [Ingest.Reply.respond, fault]
      cases effect with
      | stored e' inserted _ _ => exact absurd rfl (fresh _ inserted)
      | nothing none_ =>
        refine .stored e (List.mem_cons_self ..) (webhook.mono (List.subset_cons_self _ _)) ?_
        intro e' r member
        rcases List.mem_cons.mp member with same | member
        · cases same
          exact ⟨rfl, rfl⟩
        · exact absurd member (none_ e' r)
  | getRoute _ => exact effect.cons fun e r same => by cases same
  | getKillswitch => exact effect.cons fun e r same => by cases same
  | resolveSecret _ => exact effect.cons fun e r same => by cases same
  | now => exact effect.cons fun e r same => by cases same
  | entropy => exact effect.cons fun e r same => by cases same

/-- A webhook changes no instance, is seen in the log, and does to the store
and answers what its calls show. -/
theorem ingest_cases (D : Deployment) (s : System) (routeId : String) (raw : RawRequest)
    (world : Ingest.Calls → Ingest.Reply) :
    (s.ingest D routeId raw world).instances = s.instances ∧ ∃ calls result,
      (s.ingest D routeId raw world).log = .ingested routeId raw calls result :: s.log ∧
      IngestEffect D s.store routeId raw calls (s.ingest D routeId raw world).store ∧
      ∀ answer, result = .ok answer →
        Ingest.Acknowledged D.ingest calls routeId raw answer := by
  refine ⟨rfl, _, _, rfl, ?_⟩
  have ran := Program.Sat.exec (fun calls store op => (world calls).respond store op)
    (fun calls store => IngestEffect D s.store routeId raw calls store)
    (Ingest.ingestWebhook_sat D.ingest routeId raw {}) (w := s.store)
    (.nothing fun _ _ => List.not_mem_nil)
    (fun calls store op effect allowed => ⟨trivial, effect.respond (world calls) allowed⟩)
  exact ⟨ran.2, ran.1⟩

/-! ## What a step does to a row -/

/-- The call to the store that answering an instance applies. -/
def appliedBy (s : System) (i : String) (reply : Dispatcher.Reply) : Option StoreOp :=
  match (s.instances i).rest with
  | .call (.store op) _ => if reply.fault.isNone then some op else none
  | _ => none

/-- The call to the store that a step applies, a webhook's insert apart. -/
def applied (s : System) : Action → Option StoreOp
  | .answer i reply => s.appliedBy i reply
  | .replay id now => some (.replay id now)
  | .replayAllParked now => some (.replayAllParked now)
  | .prune now deliveredDays ledgerDays limit =>
    some (.pruneBatch now deliveredDays ledgerDays limit)
  | _ => none

/-- A step that applies a call is that call to the store; any other step leaves
the store alone or is a webhook. -/
theorem step_store (D : Deployment) (s : System) (a : Action) :
    (∃ op, s.applied a = some op ∧ (step D s a).store = (s.store.apply op).2) ∨
      (s.applied a = none ∧ ((step D s a).store = s.store ∨
        ∃ routeId raw world, a = .ingest routeId raw world)) := by
  cases a with
  | ingest routeId raw world => exact .inr ⟨rfl, .inr ⟨routeId, raw, world, rfl⟩⟩
  | start i => exact .inr ⟨rfl, .inl (start_store i)⟩
  | answer i reply =>
    have applied : s.applied (.answer i reply) = s.appliedBy i reply := rfl
    have stepped : step D s (.answer i reply) = s.answer i reply := rfl
    rw [applied, stepped]
    rcases s.answer_cases i reply with ⟨⟨out, rest⟩, same⟩ | ⟨op, next, rest, answers, -⟩
    · rw [same, appliedBy, rest]
      exact .inr ⟨rfl, .inl rfl⟩
    · rw [answers.store, appliedBy, rest]
      cases op with
      | store op =>
        rcases reply.respond_store s.store op with ⟨fault, faulty, same⟩ | ⟨healthy, done⟩
        · rw [same]
          exact .inr ⟨by simp [faulty], .inl rfl⟩
        · rw [done]
          exact .inl ⟨op, by simp [healthy], rfl⟩
      | _ => exact .inr ⟨rfl, .inl rfl⟩
  | crash i => exact .inr ⟨rfl, .inl rfl⟩
  | replay id now => exact .inl ⟨_, rfl, rfl⟩
  | replayAllParked now => exact .inl ⟨_, rfl, rfl⟩
  | prune now deliveredDays ledgerDays limit => exact .inl ⟨_, rfl, rfl⟩

/-- What a step can do to what stands under an id. -/
inductive RowMove (s : System) (a : Action) (id : Nat) :
    Option EventRecord → Option EventRecord → Prop
  | same (r) : RowMove s a id r r
  | call {op r r'} (applied : s.applied a = some op) (change : MemoryStore.RowChange op r r') :
      RowMove s a id r r'
  | stored {routeId raw world e} (webhook : a = .ingest routeId raw world)
      (new : id = s.store.nextId)
      (status : e.status = .pending ∨ e.status = .droppedByFilter) :
      RowMove s a id none (some (.ofNew e id))

/-- The inversion lemma of the system. -/
theorem row_move (D : Deployment) (s : System) (a : Action) (id : Nat) :
    RowMove s a id (s.store.row? id) ((step D s a).store.row? id) := by
  rcases step_store D s a with ⟨op, applied, store⟩ | ⟨-, store | ⟨routeId, raw, world, rfl⟩⟩
  · rw [store]
    exact .call applied (MemoryStore.row?_apply op id)
  · rw [store]
    exact .same _
  · obtain ⟨-, calls, result, -, effect, -⟩ := s.ingest_cases D routeId raw world
    have ingest : (step D s (.ingest routeId raw world)).store =
        (s.ingest D routeId raw world).store := rfl
    rw [ingest]
    generalize (s.ingest D routeId raw world).store = store' at effect
    cases effect with
    | nothing _ => exact .same _
    | stored e _ webhook _ =>
      rcases s.store.row?_insert e id with same | ⟨new, same⟩
      · rw [same]
        exact .same _
      · have absent : s.store.row? id = none := by
          cases found : s.store.row? id with
          | none => rfl
          | some r =>
            have below := MemoryStore.row?_lt found
            omega
        rw [same, absent]
        exact .stored rfl new webhook.status_cases

/-! ## Every instance keeps to the protocol -/

/-- A claim of the store is one: distinct rows of the route. -/
theorem isClaim_claimDue (store : MemoryStore) (routeId : String) (now : Int) (limit : Nat)
    (lease : Lease) : Dispatcher.IsClaim routeId (store.claimDue routeId now limit lease).1 where
  nodup := by
    have sub : (store.dueRows routeId now limit).Sublist store.rows :=
      (List.take_sublist _ _).trans List.filter_sublist
    have ids : ((store.dueRows routeId now limit).map (EventRecord.claim now lease)).map
        (fun e => e.id) = (store.dueRows routeId now limit).map fun e => e.id := by
      rw [List.map_map]
      rfl
    unfold MemoryStore.claimDue
    rw [ids]
    exact store.distinct.sublist (sub.map _)
  route e member := by
    obtain ⟨r, picked, rfl⟩ := List.mem_map.mp member
    exact (MemoryStore.mem_dueRows picked).2.1

/-- A store answers as the protocol expects of one. -/
theorem respond_admits (reply : Dispatcher.Reply) (store : MemoryStore) (op : Dispatcher.Op) :
    Dispatcher.admits op (reply.respond store op).1 := by
  cases op with
  | store op =>
    rcases reply.respond_store store op with ⟨fault, -, same⟩ | ⟨-, same⟩
    · rw [same]
      cases op <;> cases fault <;> rfl
    · rw [same]
      cases op with
      | claimDue routeId now limit lease => exact isClaim_claimDue store routeId now limit lease
      | _ => trivial
  | _ => trivial

/-- A step changes only the instance it is about. -/
theorem others_step {a : Action} (other : a.instance? ≠ some j) :
    (step D s a).instances j = s.instances j := by
  cases a with
  | ingest routeId raw world =>
    exact congrFun (s.ingest_cases D routeId raw world).1 j
  | start k =>
    show (s.start D k).instances j = s.instances j
    unfold start
    split
    · exact setInstance_other _ fun same => other (congrArg some same.symm)
    · rfl
  | answer k reply =>
    show (s.answer k reply).instances j = s.instances j
    rcases s.answer_cases k reply with ⟨-, same⟩ | ⟨op, next, -, answers, -⟩
    · rw [same]
    · exact answers.others j fun same => other (congrArg some same.symm)
  | crash k => exact setInstance_other _ fun same => other (congrArg some same.symm)
  | _ => rfl

/-- A discipline that every cycle keeps to from its start on, every instance
keeps to as long as the answers are admitted. -/
theorem keeps_step {a : Action}
    {discipline : String → Discipline Dispatcher.Op Dispatcher.Op.Answer}
    {ends : Dispatcher.Calls → Prop} (fresh : ends [])
    (cycle : ∀ i state, (Dispatcher.runOnce (D.dispatcher i)).Sat (discipline i) [] state
      fun calls _ _ => ends calls)
    (admits : ∀ i reply, a = .answer i reply → ∀ op,
      (discipline i).admits (s.instances i).calls op (reply.respond s.store op).1)
    (keeps : ∀ i, (s.instances i).rest.Sat (discipline i) (s.instances i).calls
      fun calls _ => ends calls) (i : String) :
    ((step D s a).instances i).rest.Sat (discipline i) ((step D s a).instances i).calls
      fun calls _ => ends calls := by
  by_cases about : a.instance? = some i
  · cases a with
    | start j =>
      obtain rfl := Option.some.inj about
      show ((s.start D j).instances j).rest.Sat _ ((s.start D j).instances j).calls _
      unfold start
      cases rest : (s.instances j).rest with
      | call op next => exact keeps j
      | pure out =>
        simp only [setInstance_same]
        exact cycle j out.2
    | answer j reply =>
      obtain rfl := Option.some.inj about
      show ((s.answer j reply).instances j).rest.Sat _ ((s.answer j reply).instances j).calls _
      rcases s.answer_cases j reply with ⟨-, same⟩ | ⟨op, next, rest, answers, after⟩
      · rw [same]
        exact keeps j
      · have here := keeps j
        rw [rest] at here
        rw [after, answers.calls]
        exact here.2 _ (admits j reply rfl op)
    | crash j =>
      obtain rfl := Option.some.inj about
      show ((s.setInstance j (idle D j)).instances j).rest.Sat _
        ((s.setInstance j (idle D j)).instances j).calls _
      rw [setInstance_same]
      exact fresh
    | _ => cases about
  · rw [others_step about]
    exact keeps i

/-- Every instance is somewhere in a cycle that keeps to the protocol. -/
def Conforms (D : Deployment) (s : System) : Prop :=
  ∀ i, (s.instances i).rest.Sat (Dispatcher.protocol (D.dispatcher i)) (s.instances i).calls
    fun calls _ => Dispatcher.inFlight calls = []

theorem conforms_step (a : Action) (conforms : Conforms D s) : Conforms D (step D s a) :=
  keeps_step rfl (fun i => Dispatcher.runOnce_sat (D.dispatcher i))
    (fun _ reply _ op => respond_admits reply s.store op) conforms

/-- In every reachable state every instance keeps to the protocol. -/
theorem conforms_run (D : Deployment) (actions : List Action) :
    Conforms D ((machine D).run actions) := by
  have start : Conforms D (machine D).init := fun i => (rfl : Dispatcher.inFlight [] = [])
  exact Machine.invariant (Conforms D) start (fun _ a => conforms_step a) actions

/-- The calls of an instance stay, start afresh, or grow by the one answered. -/
theorem calls_step (D : Deployment) (s : System) (a : Action) (i : String) :
    ((step D s a).instances i).calls = (s.instances i).calls ∨
      ((step D s a).instances i).calls = [] ∨
      ∃ reply op next, a = .answer i reply ∧ (s.instances i).rest = .call op next ∧
        Answers s i reply op (step D s a) := by
  cases a with
  | ingest routeId raw world =>
    have same := (s.ingest_cases D routeId raw world).1
    exact .inl (congrArg (fun instances => (instances i).calls) same)
  | start j =>
    show ((s.start D j).instances i).calls = _ ∨ ((s.start D j).instances i).calls = [] ∨ _
    unfold start
    split
    · rcases eq_or_ne i j with rfl | other
      · rw [setInstance_same]
        exact .inr (.inl rfl)
      · rw [setInstance_other _ other]
        exact .inl rfl
    · exact .inl rfl
  | answer j reply =>
    show ((s.answer j reply).instances i).calls = _ ∨ _
    rcases s.answer_cases j reply with ⟨-, same⟩ | ⟨op, next, rest, answers, -⟩
    · rw [same]
      exact .inl rfl
    · rcases eq_or_ne i j with rfl | other
      · exact .inr (.inr ⟨reply, op, next, rfl, rest, answers⟩)
      · rw [answers.others i other]
        exact .inl rfl
  | crash j =>
    show ((s.setInstance j (idle D j)).instances i).calls = _ ∨
      ((s.setInstance j (idle D j)).instances i).calls = [] ∨ _
    rcases eq_or_ne i j with rfl | other
    · rw [setInstance_same]
      exact .inr (.inl rfl)
    · rw [setInstance_other _ other]
      exact .inl rfl
  | replay id now => exact .inl rfl
  | replayAllParked now => exact .inl rfl
  | prune now deliveredDays ledgerDays limit => exact .inl rfl

/-- An instance is in a cycle after a step when it was before, or the step starts it. -/
theorem busy_step {a : Action} {op : Dispatcher.Op}
    {next : op.Answer → Program Dispatcher.Op Dispatcher.Op.Answer
      (Except RelayError CycleSummary × Dispatcher.State)}
    (busy : ((step D s a).instances i).rest = .call op next) :
    (∃ op next, (s.instances i).rest = .call op next) ∨ a = .start i := by
  by_cases about : a.instance? = some i
  · cases a with
    | start k =>
      obtain rfl := Option.some.inj about
      exact .inr rfl
    | answer k reply =>
      obtain rfl := Option.some.inj about
      rcases s.answer_cases k reply with ⟨⟨out, idle⟩, same⟩ | ⟨op, next, rest, -, -⟩
      · have now : ((s.answer k reply).instances k).rest = .call op next := busy
        rw [same, idle] at now
        cases now
      · exact .inl ⟨op, next, rest⟩
    | crash k =>
      obtain rfl := Option.some.inj about
      have now : ((s.setInstance k (System.idle D k)).instances k).rest = .call op next := busy
      rw [setInstance_same] at now
      cases now
    | _ => cases about
  · rw [others_step about] at busy
    exact .inl ⟨op, next, busy⟩

/-- An answer that applies a call is the answer to it. -/
theorem appliedBy_eq_some {op : StoreOp} :
    s.appliedBy i reply = some op ↔
      (∃ next, (s.instances i).rest = .call (.store op) next) ∧ reply.fault = none := by
  unfold appliedBy
  constructor
  · intro applied
    split at applied
    · rename_i op' next rest
      split at applied
      · rename_i healthy
        obtain rfl := Option.some.inj applied
        exact ⟨⟨next, rest⟩, Option.isNone_iff_eq_none.mp healthy⟩
      · cases applied
    · cases applied
  · intro given
    obtain ⟨⟨next, rest⟩, healthy⟩ := given
    rw [rest]
    simp [healthy]

/-- An event in flight after a step was in flight before, or the step claimed it. -/
theorem inFlight_step {a : Action} {event : EventRecord}
    (flying : event ∈ Dispatcher.inFlight ((step D s a).instances i).calls) :
    event ∈ Dispatcher.inFlight (s.instances i).calls ∨
      ∃ reply routeId now limit lease, a = .answer i reply ∧
        s.applied a = some (.claimDue routeId now limit lease) ∧
        event ∈ (s.store.claimDue routeId now limit lease).1 := by
  rcases calls_step D s a i with same | none_ | ⟨reply, op, next, rfl, rest, answers⟩
  · rw [same] at flying
    exact .inl flying
  · rw [none_] at flying
    cases flying
  · rw [answers.calls, Dispatcher.inFlight] at flying
    split at flying
    · rename_i events claims
      obtain ⟨routeId, now, limit, lease, exchange⟩ := Dispatcher.claimed_of_batchEvent claims
      obtain ⟨rfl, answered⟩ := Sigma.mk.inj exchange
      replace answered := eq_of_heq answered
      refine .inr ⟨reply, routeId, now, limit, lease, rfl, ?_⟩
      rcases reply.respond_store s.store (.claimDue routeId now limit lease) with
        ⟨fault, -, same⟩ | ⟨healthy, same⟩
      · rw [same] at answered
        cases answered
      · rw [same] at answered
        obtain rfl := Except.ok.inj answered
        exact ⟨appliedBy_eq_some.mpr ⟨⟨next, rest⟩, healthy⟩, flying⟩
    · cases flying
    · exact .inl flying
    · exact .inl flying

/-- The call an instance is at is one the protocol allows. -/
theorem Conforms.allowed (conforms : Conforms D s) {op : Dispatcher.Op}
    {next : op.Answer → Program Dispatcher.Op Dispatcher.Op.Answer
      (Except RelayError CycleSummary × Dispatcher.State)}
    (rest : (s.instances i).rest = .call op next) :
    Dispatcher.allowed (D.dispatcher i) (s.instances i).calls op := by
  have here := conforms i
  rw [rest] at here
  exact here.1

end

end System

end EndCloseRelay
