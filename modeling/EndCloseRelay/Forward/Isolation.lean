import EndCloseRelay.Forward.Accounts

/-!
# What one event does to the others

A cycle whose store works, over routes that are known and not paused.
`recordOf` is the record an event maps to, `abandons` an event whose payload
cannot be decoded, parsed or mapped with any other error than a mapping error:
the loop over a batch rethrows that error.  `Delivered` says what the cycle then
did, and `isolated_iff` when that has left the other events alone.
-/

namespace EndCloseRelay.Dispatcher

open Interaction

/-! ## What becomes of an event on its own -/

/-- The routes and the functions of a host. -/
structure Host where
  routes : String → RouteConfig
  enrich : Nat → String → Json → EnrichContext → Except RelayError HostValue

/-- `resolveEnrichments`, given the values of the host. -/
def fillAll (deps : DispatcherDeps) (host : Host) (event : EventRecord) (payload : Json) :
    List PendingEnrichment → EndCloseRecord → Except RelayError EndCloseRecord
  | [], record => .ok record
  | p :: pending, record =>
    if knowsEnrichment deps p.enrichment then
      match checkReturned p.field
        (host.enrich event.id p.enrichment p.input (enrichContext event payload p.field)) with
      | .error err => .error (wrapEnrich p.field p.enrichment err)
      | .ok none => fillAll deps host event payload pending record
      | .ok (some value) => fillAll deps host event payload pending (fillField record p.field value)
    else .error (.enrichment (p.field ++ " references unknown enrichment \"" ++ p.enrichment ++ "\""))

/-- The record of an event, if it maps. -/
def recordOf (deps : DispatcherDeps) (host : Host) (event : EventRecord) :
    Option EndCloseRecord :=
  match readEvent deps (host.routes event.routeId) event with
  | .error _ => none
  | .ok (payload, result) =>
    (fillAll deps host event payload result.pending result.record).toOption

/-- The catch clause of the loop settles an event with this error. -/
def catches (stage : Stage) : RelayError → Bool
  | .mapping _ | .enrichment _ => true
  | _ => stage == .enrichment

/-- The loop over the batch of the event throws at it. -/
def abandons (deps : DispatcherDeps) (host : Host) (event : EventRecord) : Bool :=
  match readEvent deps (host.routes event.routeId) event with
  | .error err => !catches .mapping err
  | .ok _ => false

/-- The records of a batch. -/
def recordsOf (deps : DispatcherDeps) (host : Host) (batch : List EventRecord) :
    List EndCloseRecord :=
  batch.filterMap (recordOf deps host)

/-! ## A working store and known routes -/

/-- What the world answers when the store works, no route is paused and no
killswitch is on. -/
def worksFor (host : Host) : (op : Op) → op.Answer → Prop
  | .store (.claimDue routeId _ _ _), answer =>
    ∃ claimed : List EventRecord, answer = .ok claimed ∧ ∀ e ∈ claimed, e.routeId = routeId
  | .store _, answer => ∃ a, answer = .ok a
  | .getKillswitch, answer => answer = .ok .none
  | .getRoute routeId, answer => answer = .ok (some (host.routes routeId))
  | .isRoutePaused _, answer => answer = .ok false
  | .enrich id enrichment input ctx, answer => answer = host.enrich id enrichment input ctx
  | .aborted, answer => answer = false
  | _, _ => True

/-- Such a world. -/
def working (host : Host) : Discipline Op Op.Answer where
  allowed _ _ := True
  admits _ op answer := worksFor host op answer

/-- The POSTs of a cycle, each with the batch in flight. -/
def posts : Calls → List (List EventRecord × List EndCloseRecord)
  | [] => []
  | ⟨.bulkCreateRecords _ records, _⟩ :: calls => (inFlight calls, records) :: posts calls
  | _ :: calls => posts calls

/-- Where a cycle stands: its posts, its claims and its batch in flight. -/
structure At (sent : List (List EventRecord × List EndCloseRecord))
    (done : List (String × List EventRecord)) (batch : List EventRecord) (calls : Calls) : Prop where
  posts : posts calls = sent
  claims : claims calls = done
  flying : inFlight calls = batch

/-- The call does not post, claim or release. -/
def Still (x : Exchange Op.Answer) : Prop :=
  ∀ calls, posts (x :: calls) = posts calls ∧ claims (x :: calls) = claims calls ∧
    inFlight (x :: calls) = inFlight calls

section

variable {deps : DispatcherDeps} {host : Host}
  {sent : List (List EventRecord × List EndCloseRecord)}
  {done : List (String × List EventRecord)} {batch : List EventRecord} {calls : Calls} {s : State}
  {x : Exchange Op.Answer} {event : EventRecord} {route : RouteConfig}

theorem At.still (at_ : At sent done batch calls) (still : Still x) :
    At sent done batch (x :: calls) :=
  ⟨(still calls).1.trans at_.posts, (still calls).2.1.trans at_.claims,
    (still calls).2.2.trans at_.flying⟩

/-- Keeping the cycle where it stands. -/
abbrev Stays (host : Host) (sent : List (List EventRecord × List EndCloseRecord))
    (done : List (String × List EventRecord)) (batch : List EventRecord) {α : Type} (m : Body α)
    (returns : Except RelayError α → Prop) : Prop :=
  ∀ calls s, At sent done batch calls →
    m.Sat (working host) calls s fun calls _ r => At sent done batch calls ∧ returns r

theorem Stays.pure {α : Type} {a : α} {returns : Except RelayError α → Prop}
    (holds : returns (.ok a)) : Stays host sent done batch (Pure.pure a : Body α) returns :=
  fun _ _ at_ => Method.Sat.pure ⟨at_, holds⟩

theorem Stays.throw {α : Type} {err : RelayError} {returns : Except RelayError α → Prop}
    (holds : returns (.error err)) :
    Stays host sent done batch (MonadExcept.throw err : Body α) returns :=
  fun _ _ at_ => Method.Sat.throw ⟨at_, holds⟩

theorem Stays.modify {f : State → State} :
    Stays host sent done batch (modify f) fun r => r = .ok () :=
  fun _ _ at_ => Method.Sat.modify ⟨at_, rfl⟩

theorem Stays.bind {α β : Type} {m : Body α} {f : α → Body β} {mid : Except RelayError α → Prop}
    {returns : Except RelayError β → Prop} (first : Stays host sent done batch m mid)
    (second : ∀ a, mid (.ok a) → Stays host sent done batch (f a) returns)
    (stop : ∀ err, mid (.error err) → returns (.error err)) :
    Stays host sent done batch (m >>= f) returns :=
  fun calls s at_ => Method.Sat.bind _ (first calls s at_)
    (fun calls s a holds => second a holds.2 calls s holds.1)
    fun _ _ err holds => ⟨holds.1, stop err holds.2⟩

theorem Stays.mono {α : Type} {m : Body α} {returns returns' : Except RelayError α → Prop}
    (stays : Stays host sent done batch m returns) (weaker : ∀ r, returns r → returns' r) :
    Stays host sent done batch m returns' :=
  fun calls s at_ => (stays calls s at_).mono fun _ _ r holds => ⟨holds.1, weaker r holds.2⟩

/-- A call that leaves the cycle where it stands. -/
theorem stays_ask {op : Op} (still : ∀ answer, worksFor host op answer → Still ⟨op, answer⟩) :
    Stays host sent done batch (ask op) fun r => ∃ answer, r = .ok answer ∧ worksFor host op answer :=
  fun _ _ at_ => Method.Sat.call trivial fun answer admitted =>
    ⟨at_.still (still answer admitted), answer, rfl, admitted⟩

/-- A store that works marks what it is told to. -/
theorem stays_mark {op : StoreOp}
    (works : ∀ answer, worksFor host (.store op) answer → ∃ a, answer = .ok a)
    (still : ∀ a, Still ⟨.store op, .ok a⟩) :
    Stays host sent done batch (store op) fun r => ∃ a, r = .ok a := by
  intro calls s at_
  refine ⟨trivial, fun answer admitted => ?_⟩
  obtain ⟨a, rfl⟩ := works answer admitted
  exact ⟨at_.still (still a), a, rfl⟩

theorem stays_markFailed {ids : List Nat} {nextAttemptAt : Int} {error : String} :
    Stays host sent done batch (store (.markFailed ids nextAttemptAt error))
      fun r => ∃ a, r = .ok a :=
  stays_mark (fun _ works => works) fun _ _ => ⟨rfl, rfl, rfl⟩

theorem stays_markParked {ids : List Nat} {error : String} :
    Stays host sent done batch (store (.markParked ids error)) fun r => ∃ a, r = .ok a :=
  stays_mark (fun _ works => works) fun _ _ => ⟨rfl, rfl, rfl⟩

theorem stays_markDelivered {ids : List Nat} {deliveredAt : Int} {bulkRequestId : Option String} :
    Stays host sent done batch (store (.markDelivered ids deliveredAt bulkRequestId))
      fun r => ∃ a, r = .ok a :=
  stays_mark (fun _ works => works) fun _ _ => ⟨rfl, rfl, rfl⟩

theorem stays_clock : Stays host sent done batch clock fun r => ∃ now, r = .ok now :=
  (stays_ask fun _ _ _ => ⟨rfl, rfl, rfl⟩).mono fun _ holds => ⟨holds.choose, holds.choose_spec.1⟩

/-! ## Settling without an error -/

/-- Parking events works. -/
theorem stays_park (events : List EventRecord) (reason : String) :
    Stays host sent done batch (do
      store (.markParked (events.map fun e => e.id) reason)
      modify (State.recordParked events reason)) fun r => r = .ok () :=
  stays_markParked.bind (fun _ _ => Stays.modify) fun _ failed => by
    obtain ⟨a, same⟩ := failed
    cases same

/-- Putting events off works. -/
theorem stays_retry (events : List EventRecord) (routeId error : String) (attempts : Nat) :
    Stays host sent done batch (do
      let next ← scheduleAttempt deps attempts
      store (.markFailed (events.map fun e => e.id) next error)
      modify (State.recordRetried routeId events error)) fun r => r = .ok () := by
  have scheduled : Stays host sent done batch (scheduleAttempt deps attempts)
      fun r => ∃ next, r = .ok next := by
    refine stays_clock.bind (fun now _ => ?_) fun err failed => ?_
    · have drawn : Stays host sent done batch (ask .random) fun r => ∃ answer, r = .ok answer ∧
          worksFor host .random answer := stays_ask fun _ _ _ => ⟨rfl, rfl, rfl⟩
      refine drawn.bind (fun random _ => Stays.pure ⟨_, rfl⟩) fun err failed => ?_
      rcases failed with ⟨_, same, -⟩
      cases same
    · rcases failed with ⟨_, same⟩
      cases same
  refine scheduled.bind (fun next _ => ?_) fun err failed => ?_
  · refine stays_markFailed.bind (fun _ _ => Stays.modify) fun err failed => ?_
    rcases failed with ⟨_, same⟩
    cases same
  · rcases failed with ⟨_, same⟩
    cases same

/-- Settling an event works, unless its error is not one the loop catches. -/
theorem stays_settleUnmapped {stage : Stage} {err : RelayError} :
    Stays host sent done batch (settleUnmapped deps event stage err) fun r =>
      r = if catches stage err then .ok () else .error err := by
  cases err with
  | mapping message => exact stays_park [event] _
  | enrichment message => exact stays_park [event] _
  | _ =>
    cases stage with
    | enrichment => exact stays_retry [event] _ _ _
    | mapping => exact Stays.throw rfl

/-! ## Building records -/

/-- The host's values fill a record as `fillAll` says. -/
theorem stays_resolveEnrichments {payload : Json} {pending : List PendingEnrichment}
    {record : EndCloseRecord} :
    Stays host sent done batch (resolveEnrichments deps event payload pending record)
      fun r => r = fillAll deps host event payload pending record := by
  induction pending generalizing record with
  | nil => exact Stays.pure rfl
  | cons p pending ih =>
    unfold resolveEnrichments fillAll
    split
    · have asked : Stays host sent done batch (ask (.enrich event.id p.enrichment p.input
          (enrichContext event payload p.field))) fun r => r = .ok (host.enrich event.id p.enrichment
            p.input (enrichContext event payload p.field)) := by
        refine (stays_ask fun _ _ _ => ⟨rfl, rfl, rfl⟩).mono fun r holds => ?_
        obtain ⟨answer, rfl, given⟩ := holds
        exact congrArg Except.ok given
      refine asked.bind (fun returned given => ?_) fun err failed => by cases failed
      obtain rfl := Except.ok.inj given
      cases checkReturned p.field _ with
      | error err =>
        exact Stays.modify.bind (fun _ _ => Stays.throw rfl) fun _ failed => by cases failed
      | ok value =>
        cases value with
        | none => exact Stays.modify.bind (fun _ _ => ih) fun _ failed => by cases failed
        | some value => exact Stays.modify.bind (fun _ _ => ih) fun _ failed => by cases failed
    · exact Stays.modify.bind (fun _ _ => Stays.throw rfl) fun _ failed => by cases failed

/-- What was filled with the host's answers is what `fillAll` gives. -/
theorem fillAll_of_filled (heard : ∀ id enrichment input ctx answer,
      (⟨.enrich id enrichment input ctx, answer⟩ : Exchange Op.Answer) ∈ calls →
        knowsEnrichment deps enrichment ∧ answer = host.enrich id enrichment input ctx)
    {payload : Json} {pending : List PendingEnrichment} {record filled : EndCloseRecord}
    (fills : Filled event payload calls pending record filled) :
    fillAll deps host event payload pending record = .ok filled := by
  induction fills with
  | done => rfl
  | omitted asked checked _ ih =>
    obtain ⟨known, given⟩ := heard _ _ _ _ _ asked
    unfold fillAll
    rw [if_pos known, ← given, checked]
    exact ih
  | applied asked checked _ ih =>
    obtain ⟨known, given⟩ := heard _ _ _ _ _ asked
    unfold fillAll
    rw [if_pos known, ← given, checked]
    exact ih

/-- One round of the loop: the record of the event, unless the event throws. -/
def Round (deps : DispatcherDeps) (host : Host) (event : EventRecord)
    (r : Except RelayError (Option EndCloseRecord)) : Prop :=
  (abandons deps host event = false ∧ r = .ok (recordOf deps host event)) ∨
    (abandons deps host event ∧ ∃ err, r = .error err)

theorem stays_buildRecord (given : route = host.routes event.routeId) :
    Stays host sent done batch (buildRecord deps route event) (Round deps host event) := by
  subst given
  unfold buildRecord Round abandons recordOf
  cases read : readEvent deps (host.routes event.routeId) event with
  | error err =>
    simp only []
    cases caught : catches .mapping err with
    | true =>
      refine stays_settleUnmapped.bind (fun _ _ => Stays.pure (.inl ⟨rfl, rfl⟩)) fun err' failed => ?_
      rw [caught] at failed
      cases failed
    | false =>
      refine stays_settleUnmapped.bind (fun _ settled => ?_) fun err' _ => .inr ⟨rfl, err', rfl⟩
      rw [caught] at settled
      cases settled
  | ok out =>
    obtain ⟨payload, result⟩ := out
    simp only []
    split
    · rename_i none_
      refine Stays.pure (.inl ⟨trivial, ?_⟩)
      rw [List.isEmpty_iff.mp none_]
      rfl
    · intro calls s at_
      refine Method.Sat.tryCatch (fun calls s r => At sent done batch calls ∧
        r = (fillAll deps host event payload result.pending result.record).map some) ?_ ?_ ?_
      · rw [map_eq_pure_bind]
        refine Method.Sat.bind _ (stays_resolveEnrichments calls s at_)
          (fun calls s filled holds => ?_) fun calls s err holds => ?_
        · refine Method.Sat.pure ⟨holds.1, ?_⟩
          rw [← holds.2]
          rfl
        · refine ⟨holds.1, ?_⟩
          rw [← holds.2]
          rfl
      · intro calls s out holds
        refine ⟨holds.1, .inl ⟨trivial, ?_⟩⟩
        cases filled : fillAll deps host event payload result.pending result.record with
        | error err =>
          rw [filled] at holds
          cases holds.2
        | ok record =>
          rw [filled] at holds
          exact holds.2
      · intro calls s err holds
        have settled : Stays host sent done batch (do
            settleUnmapped deps event .enrichment err
            Pure.pure (none : Option EndCloseRecord)) fun r => r = .ok none := by
          refine stays_settleUnmapped.bind (fun _ _ => Stays.pure rfl) fun err' failed => ?_
          cases err <;> cases failed
        refine (settled calls s holds.1).mono fun _ _ r after => ⟨after.1, .inl ⟨trivial, ?_⟩⟩
        cases filled : fillAll deps host event payload result.pending result.record with
        | error err => exact after.2
        | ok record =>
          rw [filled] at holds
          cases holds.2

/-- The loop over a batch: the events that map, with their records, unless one throws. -/
def Loop (deps : DispatcherDeps) (host : Host) (events : List EventRecord)
    (r : Except RelayError (List (EventRecord × EndCloseRecord))) : Prop :=
  ((∀ e ∈ events, abandons deps host e = false) ∧ ∃ built, r = .ok built ∧
    built.map Prod.snd = recordsOf deps host events) ∨
  ((∃ e ∈ events, abandons deps host e) ∧ ∃ err, r = .error err)

theorem stays_buildRecords {events : List EventRecord}
    (given : ∀ e ∈ events, route = host.routes e.routeId) :
    Stays host sent done batch (buildRecords deps route events) (Loop deps host events) := by
  induction events with
  | nil => exact Stays.pure (.inl ⟨fun e listed => (List.not_mem_nil listed).elim, [], rfl, rfl⟩)
  | cons event events ih =>
    refine (stays_buildRecord (given event (List.mem_cons_self ..))).bind (fun record round => ?_)
      fun err round => ?_
    · rcases round with ⟨plain, same⟩ | ⟨-, err, same⟩
      · obtain rfl := Except.ok.inj same
        refine (ih fun e member => given e (List.mem_cons_of_mem _ member)).bind
          (fun built loop => ?_) fun err loop => ?_
        · rcases loop with ⟨clean, built', same, records⟩ | ⟨-, err, same⟩
          · obtain rfl := Except.ok.inj same
            refine Stays.pure (.inl ⟨?_, _, rfl, ?_⟩)
            · intro e member
              rcases List.mem_cons.mp member with rfl | member
              · exact plain
              · exact clean e member
            · rw [List.map_append, records, recordsOf, recordsOf, List.filterMap_cons]
              cases recordOf deps host event <;> rfl
          · cases same
        · rcases loop with ⟨-, _, same, -⟩ | ⟨⟨e, member, bad⟩, -⟩
          · cases same
          · exact .inr ⟨⟨e, List.mem_cons_of_mem _ member, bad⟩, err, rfl⟩
      · cases same
    · rcases round with ⟨-, same⟩ | ⟨bad, -⟩
      · cases same
      · exact .inr ⟨⟨event, List.mem_cons_self .., bad⟩, err, rfl⟩

/-! ## Posting and settling -/

/-- The cycle has gone on with the same claims and batch in flight, and posts of
these records only. -/
structure Sends (batch : List EventRecord) (records : List EndCloseRecord) (calls calls' : Calls) :
    Prop where
  older : posts calls ⊆ posts calls'
  newer : ∀ post ∈ posts calls', post ∈ posts calls ∨ post = (batch, records)
  claims : claims calls' = claims calls
  flying : inFlight calls' = inFlight calls

theorem Sends.refl (batch : List EventRecord) (records : List EndCloseRecord) (calls : Calls) :
    Sends batch records calls calls :=
  ⟨List.Subset.refl _, fun _ member => .inl member, rfl, rfl⟩

theorem Sends.trans {records : List EndCloseRecord} {mid calls' : Calls}
    (first : Sends batch records calls mid) (second : Sends batch records mid calls') :
    Sends batch records calls calls' where
  older := fun _ member => second.older (first.older member)
  newer post member := by
    rcases second.newer post member with member | same
    · exact first.newer post member
    · exact .inr same
  claims := second.claims.trans first.claims
  flying := second.flying.trans first.flying

/-- A part that stays where the cycle stands sends nothing. -/
theorem Stays.sends {α : Type} {m : Body α} {returns : Except RelayError α → Prop}
    (batch : List EventRecord) (records : List EndCloseRecord)
    (stays : ∀ sent done, Stays host sent done (inFlight calls) m returns) :
    m.Sat (working host) calls s fun calls' _ r => Sends batch records calls calls' ∧ returns r :=
  (stays (posts calls) (claims calls) calls s ⟨rfl, rfl, rfl⟩).mono fun _ _ _ holds =>
    ⟨⟨fun _ member => holds.1.posts ▸ member, fun _ member => .inl (holds.1.posts ▸ member),
      holds.1.claims, holds.1.flying⟩, holds.2⟩

/-- The records are posted at least once. -/
theorem sends_postAttempts {records : List EndCloseRecord} {attempts : List Nat}
    {lastErr : RelayError} (some_ : attempts ≠ [] ∨ (batch, records) ∈ posts calls)
    (flying : inFlight calls = batch) :
    (postAttempts deps records attempts lastErr).Sat (working host) calls s fun calls' _ _ =>
      Sends batch records calls calls' ∧ (batch, records) ∈ posts calls' := by
  induction attempts generalizing calls s lastErr with
  | nil =>
    refine Method.Sat.throw ⟨Sends.refl _ _ _, ?_⟩
    rcases some_ with some_ | sent
    · exact absurd rfl some_
    · exact sent
  | cons attempt attempts ih =>
    refine Method.sat_call_bind trivial fun answer _ => ?_
    have post : Sends batch records calls
        (⟨.bulkCreateRecords (idempotencyKey deps.runtime records) records, answer⟩ :: calls) := by
      refine ⟨List.subset_cons_self _ _, fun post member => ?_, rfl, rfl⟩
      rcases List.mem_cons.mp member with same | member
      · exact .inr (same.trans (congrArg (·, records) flying))
      · exact .inl member
    have sent : (batch, records) ∈ posts
        (⟨.bulkCreateRecords (idempotencyKey deps.runtime records) records, answer⟩ :: calls) := by
      show (batch, records) ∈ (inFlight calls, records) :: posts calls
      rw [flying]
      exact List.mem_cons_self ..
    split
    · exact Method.Sat.pure ⟨post, sent⟩
    · refine Method.sat_call_bind trivial fun woken _ => ?_
      have slept : Sends batch records calls (⟨.sleep (500 * (attempt + 1)), woken⟩ ::
          ⟨.bulkCreateRecords (idempotencyKey deps.runtime records) records, answer⟩ :: calls) :=
        ⟨post.older, post.newer, post.claims, post.flying⟩
      have still : (batch, records) ∈ posts (⟨.sleep (500 * (attempt + 1)), woken⟩ ::
          ⟨.bulkCreateRecords (idempotencyKey deps.runtime records) records, answer⟩ :: calls) := sent
      exact (ih (.inr still) flying).mono fun _ _ _ holds => ⟨slept.trans holds.1, holds.2⟩
    · exact Method.Sat.throw ⟨post, sent⟩

theorem stays_pollResults {bulkRequestId : Option String} {attempts : Nat} :
    Stays host sent done batch (pollResults bulkRequestId attempts) fun _ => True := by
  induction attempts with
  | zero => exact Stays.pure trivial
  | succ attempts ih =>
    unfold pollResults
    have polls : Stays host sent done batch (ask (.getBulkRequest bulkRequestId)) fun _ => True :=
      (stays_ask fun _ _ _ => ⟨rfl, rfl, rfl⟩).mono fun _ _ => trivial
    have sleeps : Stays host sent done batch (ask (.sleep resultPollDelayMs)) fun _ => True :=
      (stays_ask fun _ _ _ => ⟨rfl, rfl, rfl⟩).mono fun _ _ => trivial
    refine polls.bind (fun answer _ => ?_) fun _ _ => trivial
    split
    · exact Stays.pure trivial
    · exact Stays.throw trivial
    · split
      · exact sleeps.bind (fun _ _ => ih) fun _ _ => trivial
      · cases failedKeys _ with
        | ok failed => exact Stays.pure trivial
        | error err => exact Stays.throw trivial

theorem stays_settleResults {bulkRequestId : Option String} {mapped : List EventRecord} :
    Stays host sent done batch (settleResults bulkRequestId mapped) fun _ => True := by
  refine stays_clock.bind (fun deliveredAt _ => ?_) fun _ _ => trivial
  refine stays_pollResults.bind (fun failed _ => ?_) fun _ _ => trivial
  have records : ∀ f : State → State, Stays host sent done batch (modify f) fun _ => True :=
    fun _ => Stays.modify.mono fun _ _ => trivial
  cases failed with
  | none => exact stays_markDelivered.bind (fun _ _ => records _) fun _ _ => trivial
  | some failed =>
    refine stays_markParked.bind (fun _ _ => ?_) fun _ _ => trivial
    refine stays_markDelivered.bind (fun _ _ => ?_) fun _ _ => trivial
    exact (records _).bind (fun _ _ => records _) fun _ _ => trivial

/-- With a store that works the catch clause around the POST settles the batch. -/
theorem stays_settleFailure {mapped : List EventRecord} {err : RelayError} :
    Stays host sent done batch (settleFailure deps route mapped err) fun r => r = .ok () := by
  unfold settleFailure
  split
  · split
    · refine stays_markParked.bind (fun _ _ => ?_) fun _ failed => ?_
      · exact Stays.modify.bind (fun _ _ => Stays.modify) fun _ failed => by cases failed
      · rcases failed with ⟨_, same⟩
        cases same
    · exact stays_retry mapped _ _ _
  · exact stays_retry mapped _ _ _

/-- What becomes of a batch: its records are posted, unless one of its events
throws, and then nothing is. -/
def BatchDone (deps : DispatcherDeps) (host : Host) (batch : List EventRecord)
    (calls calls' : Calls) (r : Except RelayError Unit) : Prop :=
  ((∀ e ∈ batch, abandons deps host e = false) ∧ r = .ok () ∧
    Sends batch (recordsOf deps host batch) calls calls' ∧
    (recordsOf deps host batch ≠ [] → (batch, recordsOf deps host batch) ∈ posts calls')) ∨
  ((∃ e ∈ batch, abandons deps host e) ∧ (∃ err, r = .error err) ∧
    posts calls' = posts calls ∧ claims calls' = claims calls)

theorem deliverBatch_done (given : ∀ e ∈ batch, route = host.routes e.routeId)
    (flying : inFlight calls = batch) :
    (deliverBatch deps route batch).Sat (working host) calls s fun calls' _ r =>
      BatchDone deps host batch calls calls' r ∧ inFlight calls' = batch := by
  refine Method.Sat.bind _ (stays_buildRecords given calls s
    (⟨rfl, rfl, flying⟩ : At (posts calls) (claims calls) batch calls)) (fun mid s built holds => ?_)
    fun mid s err holds => ?_
  · obtain ⟨at_, loop⟩ := holds
    rcases loop with ⟨clean, built', same, records⟩ | ⟨-, err, same⟩
    · obtain rfl := Except.ok.inj same
      have here : Sends batch (recordsOf deps host batch) calls mid :=
        ⟨fun _ member => at_.posts ▸ member, fun _ member => .inl (at_.posts ▸ member), at_.claims,
          at_.flying.trans flying.symm⟩
      split
      · rename_i none_
        refine Method.Sat.pure ⟨.inl ⟨clean, rfl, here, fun some_ => ?_⟩, at_.flying⟩
        rw [← records, List.isEmpty_iff.mp none_] at some_
        exact absurd rfl some_
      · refine Method.Sat.tryCatch (fun calls' _ _ => Sends batch (recordsOf deps host batch) calls
          calls' ∧ (batch, recordsOf deps host batch) ∈ posts calls') ?_ ?_ ?_
        · refine Method.Sat.bind _ (sends_postAttempts (.inl (by decide)) at_.flying)
            (fun calls' s accepted holds => ?_) fun calls' s err holds => ?_
          · have posted : Sends batch (recordsOf deps host batch) calls calls' ∧
                (batch, recordsOf deps host batch) ∈ posts calls' := by
              rw [← records] at here ⊢
              exact ⟨here.trans holds.1, holds.2⟩
            refine Method.sat_ofExcept_bind (fun id _ => ?_) fun _ _ => posted
            have settles : ∀ sent done, Stays host sent done (inFlight calls') (do
                settleResults id (built.map Prod.fst)
                modify (State.emit (.batchForwarded route.id built.length id))) fun _ => True :=
              fun _ _ => stays_settleResults.bind
                (fun _ _ => Stays.modify.mono fun _ _ => trivial) fun _ _ => trivial
            refine (Stays.sends _ _ settles).mono fun _ _ _ after => ⟨posted.1.trans after.1, ?_⟩
            exact after.1.older posted.2
          · rw [← records] at here ⊢
            exact ⟨here.trans holds.1, holds.2⟩
        · intro calls' s _ holds
          exact ⟨.inl ⟨clean, rfl, holds.1, fun _ => holds.2⟩, holds.1.flying.trans flying⟩
        · intro calls' s err holds
          refine (Stays.sends batch (recordsOf deps host batch)
            fun _ _ => stays_settleFailure).mono fun calls'' _ r after => ?_
          refine ⟨.inl ⟨clean, after.2, holds.1.trans after.1, fun _ => after.1.older holds.2⟩, ?_⟩
          exact (after.1.flying.trans holds.1.flying).trans flying
    · cases same
  · obtain ⟨at_, loop⟩ := holds
    rcases loop with ⟨-, _, same, -⟩ | ⟨bad, -⟩
    · cases same
    · exact ⟨.inr ⟨bad, ⟨err, rfl⟩, at_.posts, at_.claims⟩, at_.flying⟩

/-! ## The loop over the due routes -/

/-- A route was claimed, and the records of its batch posted. -/
structure Attempted (deps : DispatcherDeps) (host : Host) (routeId : String)
    (claimed : List EventRecord) (calls calls' : Calls) : Prop where
  route : ∀ e ∈ claimed, e.routeId = routeId
  claims : claims calls' = (routeId, claimed) :: claims calls
  older : posts calls ⊆ posts calls'
  newer : ∀ post ∈ posts calls', post ∈ posts calls ∨ post = (claimed, recordsOf deps host claimed)
  sent : recordsOf deps host claimed ≠ [] → (claimed, recordsOf deps host claimed) ∈ posts calls'

/-- A route was claimed, an event of its batch threw, and nothing was posted. -/
structure Abandoned (deps : DispatcherDeps) (host : Host) (routeId : String)
    (claimed : List EventRecord) (calls calls' : Calls) : Prop where
  route : ∀ e ∈ claimed, e.routeId = routeId
  bad : ∃ e ∈ claimed, abandons deps host e
  claims : claims calls' = (routeId, claimed) :: claims calls
  posts : posts calls' = posts calls

/-- What the loop over the due routes did: it attempted one after the other, up
to the first whose batch has an event that throws. -/
inductive Delivered (deps : DispatcherDeps) (host : Host) :
    List String → Calls → Calls → Prop
  | done {calls : Calls} : Delivered deps host [] calls calls
  | route {routeId : String} {due : List String} {claimed : List EventRecord} {calls mid calls' : Calls}
      (clean : ∀ e ∈ claimed, abandons deps host e = false)
      (attempted : Attempted deps host routeId claimed calls mid)
      (rest : Delivered deps host due mid calls') :
      Delivered deps host (routeId :: due) calls calls'
  | abandoned {routeId : String} {due : List String} {claimed : List EventRecord} {calls calls' : Calls}
      (abandoned : Abandoned deps host routeId claimed calls calls') :
      Delivered deps host (routeId :: due) calls calls'

theorem releaseLeftover_done {error : String} {claimed : List EventRecord} :
    (releaseLeftover deps claimed error).Sat (working host) calls s fun calls' _ r =>
      r = .ok () ∧ posts calls' = posts calls ∧ claims calls' = claims calls ∧
        inFlight calls' = [] := by
  refine Method.Sat.tryCatch (fun calls' _ r => r = .ok () ∧ posts calls' = posts calls ∧
    claims calls' = claims calls ∧ inFlight calls' = []) ?_ (fun _ _ _ holds => holds)
    fun _ _ _ holds => by cases holds.1
  refine Method.sat_call_bind trivial fun now _ => ?_
  refine sat_storeCall_bind trivial (fun released _ => ?_) fun err works => ?_
  · exact Method.Sat.pure ⟨rfl, rfl, rfl, rfl⟩
  · obtain ⟨a, same⟩ := works
    cases same

/-- One due route: attempted, or abandoned with an error. -/
def RouteDone (deps : DispatcherDeps) (host : Host) (routeId : String) (calls calls' : Calls)
    (r : Except RelayError Unit) : Prop :=
  ∃ claimed, (r = .ok () ∧ (∀ e ∈ claimed, abandons deps host e = false) ∧
      Attempted deps host routeId claimed calls calls') ∨
    ((∃ err, r = .error err) ∧ Abandoned deps host routeId claimed calls calls')

theorem deliverRoute_done {now : Int} {routeId : String} :
    (deliverRoute deps now routeId).Sat (working host) calls s fun calls' _ r =>
      RouteDone deps host routeId calls calls' r := by
  refine Method.sat_call_bind trivial fun route given => Method.sat_call_bind trivial fun paused running => ?_
  obtain rfl : route = .ok (some (host.routes routeId)) := given
  obtain rfl : paused = .ok false := running
  refine Method.sat_ofExcept_bind (fun found same => ?_) fun _ same => by cases same
  obtain rfl := (Except.ok.inj same).symm
  refine Method.sat_ofExcept_bind (fun paused same => ?_) fun _ same => by cases same
  obtain rfl := (Except.ok.inj same).symm
  refine Method.sat_call_bind trivial fun claimedAt _ => ?_
  refine sat_storeCall_bind trivial (fun claimed works => ?_) fun err works => ?_
  · obtain ⟨claimed', same, ofRoute⟩ := works
    obtain rfl : claimed = claimed' := Except.ok.inj same
    split
    · rename_i none_
      obtain rfl : claimed = [] := List.isEmpty_iff.mp none_
      refine Method.Sat.pure ⟨[], .inl ⟨rfl, fun _ listed => (List.not_mem_nil listed).elim, ?_⟩⟩
      exact ⟨fun _ listed => (List.not_mem_nil listed).elim, rfl, List.Subset.refl _,
        fun _ member => .inl member, fun some_ => absurd rfl some_⟩
    · refine Method.Sat.ensuring _ (deliverBatch_done (fun e member => ?_) rfl) fun mid s r left => ?_
      · rw [ofRoute e member]
      · refine releaseLeftover_done.mono fun calls' _ c after => ?_
        obtain ⟨rfl, posts_, claims_, -⟩ := after
        refine ⟨claimed, ?_⟩
        rcases left.1 with ⟨clean, rfl, sends, sent⟩ | ⟨bad, failed, silent, same⟩
        · refine .inl ⟨rfl, clean, ofRoute, claims_.trans sends.claims, ?_, ?_, ?_⟩
          · exact fun post member => posts_ ▸ sends.older member
          · exact fun post member => sends.newer post (posts_ ▸ member)
          · exact fun some_ => posts_ ▸ sent some_
        · obtain ⟨err, rfl⟩ := failed
          exact .inr ⟨⟨err, rfl⟩, ofRoute, bad, claims_.trans same, posts_.trans silent⟩
  · obtain ⟨claimed', same, -⟩ := works
    cases same

theorem deliverDue_done {now : Int} {due : List String} :
    (deliverDue deps now due).Sat (working host) calls s fun calls' _ _ =>
      Delivered deps host due calls calls' := by
  induction due generalizing calls s with
  | nil => exact Method.Sat.pure .done
  | cons routeId due ih =>
    refine Method.sat_call_bind trivial fun aborted running => ?_
    obtain rfl : aborted = false := running
    refine Method.Sat.bind _ deliverRoute_done (fun mid s _ done => ?_) fun calls' s err done => ?_
    · obtain ⟨claimed, ⟨-, clean, attempted⟩ | ⟨⟨err, same⟩, -⟩⟩ := done
      · exact ih.mono fun _ _ _ rest => .route clean ⟨attempted.route, attempted.claims,
          attempted.older, attempted.newer, attempted.sent⟩ rest
      · cases same
    · obtain ⟨claimed, ⟨same, -⟩ | ⟨-, abandoned⟩⟩ := done
      · cases same
      · exact .abandoned ⟨abandoned.route, abandoned.bad, abandoned.claims, abandoned.posts⟩

/-! ## When the other events are left alone -/

/-- Every due route was claimed, and every claimed event that maps is in a POST
made with its batch in flight. -/
structure Isolated (deps : DispatcherDeps) (host : Host) (due : List String) (calls : Calls) :
    Prop where
  attempted : ∀ routeId ∈ due, routeId ∈ (claims calls).map Prod.fst
  posted : ∀ claim ∈ claims calls, claim.1 ∈ due → ∀ e ∈ claim.2, ∀ record,
    recordOf deps host e = some record → ∃ post ∈ posts calls, e ∈ post.1 ∧ record ∈ post.2

/-- An event that throws stands in the batch of the last due route at most, and
then no event of that batch maps. -/
def tolerable (deps : DispatcherDeps) (host : Host) (batch : String → List EventRecord) :
    List String → Bool
  | [] => true
  | routeId :: due =>
    (!(batch routeId).any (abandons deps host) ||
      (due.isEmpty && (batch routeId).all fun e => (recordOf deps host e).isNone)) &&
      tolerable deps host batch due

/-- The loop only adds posts, and claims of the due routes. -/
theorem Delivered.grows {due : List String} {calls' : Calls}
    (delivered : Delivered deps host due calls calls') :
    posts calls ⊆ posts calls' ∧ ∃ new, claims calls' = new ++ claims calls ∧
      ∀ claim ∈ new, claim.1 ∈ due := by
  induction delivered with
  | done => exact ⟨List.Subset.refl _, [], rfl, fun _ listed => (List.not_mem_nil listed).elim⟩
  | @route routeId due claimed calls mid calls' clean attempted rest ih =>
    obtain ⟨more, new, same, within⟩ := ih
    refine ⟨fun _ member => more (attempted.older member), new ++ [(routeId, claimed)], ?_, ?_⟩
    · rw [same, attempted.claims, List.append_assoc]
      rfl
    · intro claim member
      rcases List.mem_append.mp member with member | member
      · exact List.mem_cons_of_mem _ (within claim member)
      · rw [List.mem_singleton.mp member]
        exact List.mem_cons_self ..
  | @abandoned routeId due claimed calls calls' abandoned =>
    refine ⟨fun _ member => abandoned.posts ▸ member, [(routeId, claimed)], abandoned.claims, ?_⟩
    intro claim member
    rw [List.mem_singleton.mp member]
    exact List.mem_cons_self ..

/-- Whether the loop left the other events alone is a matter of where the events
that throw stand. -/
theorem Delivered.isolated_iff {due : List String} {calls' : Calls}
    {batch : String → List EventRecord} (delivered : Delivered deps host due calls calls')
    (nodup : due.Nodup) (fresh : ∀ routeId ∈ due, routeId ∉ (claims calls).map Prod.fst)
    (earlier : ∀ post ∈ posts calls, ∀ e ∈ post.1, e.routeId ∈ (claims calls).map Prod.fst)
    (batches : ∀ claim ∈ claims calls', claim.1 ∈ due → claim.2 = batch claim.1) :
    Isolated deps host due calls' ↔ tolerable deps host batch due = true := by
  induction delivered with
  | done =>
    refine iff_of_true ⟨fun _ listed => (List.not_mem_nil listed).elim, ?_⟩ rfl
    exact fun _ _ listed => (List.not_mem_nil listed).elim
  | @route routeId due claimed calls mid calls' clean attempted rest ih =>
    rw [List.nodup_cons] at nodup
    obtain ⟨more, new, same, within⟩ := rest.grows
    have here : (routeId, claimed) ∈ claims calls' := by
      rw [same, attempted.claims]
      exact List.mem_append_right _ (List.mem_cons_self ..)
    have isBatch : claimed = batch routeId := batches _ here (List.mem_cons_self ..)
    have only : ∀ claim ∈ claims calls', claim.1 = routeId → claim.2 = claimed := by
      intro claim member named
      rw [batches claim member (named ▸ List.mem_cons_self ..), named, isBatch]
    have calm : (batch routeId).any (abandons deps host) = false := by
      rw [List.any_eq_false, ← isBatch]
      intro e member bad
      rw [clean e member] at bad
      cases bad
    have rest_ := ih nodup.2
      (fun other member listed => by
        rw [attempted.claims, List.map_cons] at listed
        rcases List.mem_cons.mp listed with rfl | listed
        · exact nodup.1 member
        · exact fresh other (List.mem_cons_of_mem _ member) listed)
      (fun post member e ofPost => by
        rw [attempted.claims, List.map_cons]
        rcases attempted.newer post member with old | rfl
        · exact List.mem_cons_of_mem _ (earlier post old e ofPost)
        · rw [attempted.route e ofPost]
          exact List.mem_cons_self ..)
      (fun claim member listed => batches claim member (List.mem_cons_of_mem _ listed))
    have tail : tolerable deps host batch (routeId :: due) = tolerable deps host batch due := by
      rw [tolerable, calm]
      rfl
    rw [tail, ← rest_]
    constructor
    · intro isolated
      exact ⟨fun other member => isolated.attempted other (List.mem_cons_of_mem _ member),
        fun claim member listed => isolated.posted claim member (List.mem_cons_of_mem _ listed)⟩
    · intro isolated
      refine ⟨fun other member => ?_, fun claim member listed e ofClaim record maps => ?_⟩
      · rcases List.mem_cons.mp member with rfl | member
        · exact List.mem_map_of_mem here
        · exact isolated.attempted other member
      · rcases List.mem_cons.mp listed with named | listed
        · rw [only claim member named] at ofClaim
          have ofRecords : record ∈ recordsOf deps host claimed :=
            List.mem_filterMap.mpr ⟨e, ofClaim, maps⟩
          exact ⟨_, more (attempted.sent (List.ne_nil_of_mem ofRecords)), ofClaim, ofRecords⟩
        · exact isolated.posted claim member listed e ofClaim record maps
  | @abandoned routeId due claimed calls calls' abandoned =>
    rw [List.nodup_cons] at nodup
    have here : (routeId, claimed) ∈ claims calls' := by
      rw [abandoned.claims]
      exact List.mem_cons_self ..
    have isBatch : claimed = batch routeId := batches _ here (List.mem_cons_self ..)
    have bad : (batch routeId).any (abandons deps host) = true := by
      rw [List.any_eq_true, ← isBatch]
      exact abandoned.bad
    have unsent : ∀ post ∈ posts calls', ∀ e ∈ claimed, e ∉ post.1 := by
      intro post member e ofClaim ofPost
      rw [abandoned.posts] at member
      have old := earlier post member e ofPost
      rw [abandoned.route e ofClaim] at old
      exact fresh routeId (List.mem_cons_self ..) old
    rw [tolerable, bad, Bool.not_true, Bool.false_or, Bool.and_eq_true, Bool.and_eq_true,
      List.isEmpty_iff, List.all_eq_true]
    constructor
    · intro isolated
      have last : due = [] := by
        cases due with
        | nil => rfl
        | cons next due =>
          have claimed_ := isolated.attempted next (by simp)
          rw [abandoned.claims, List.map_cons] at claimed_
          rcases List.mem_cons.mp claimed_ with same | old
          · exact absurd (same ▸ List.mem_cons_self ..) nodup.1
          · exact absurd old (fresh next (by simp))
      refine ⟨⟨last, fun e member => ?_⟩, ?_⟩
      · rw [← isBatch] at member
        cases maps : recordOf deps host e with
        | none => rfl
        | some record =>
          obtain ⟨post, sent, ofPost, -⟩ := isolated.posted _ here (List.mem_cons_self ..) e member
            record maps
          exact absurd ofPost (unsent post sent e member)
      · rw [last]
        rfl
    · intro tolerated
      obtain ⟨⟨rfl, none_⟩, -⟩ := tolerated
      refine ⟨fun other member => ?_, fun claim member listed e ofClaim record maps => ?_⟩
      · rw [List.mem_singleton.mp member]
        exact List.mem_map_of_mem here
      · rw [batches claim member listed, List.mem_singleton.mp listed] at ofClaim
        have unmapped := none_ e ofClaim
        rw [maps] at unmapped
        cases unmapped

end

end EndCloseRelay.Dispatcher
