import EndCloseRelay.Forward.BatchProtocol
import EndCloseRelay.Forward.Outline
import EndCloseRelay.Interaction.Coupling

/-!
# What a cycle tells of the payloads

Two cycles side by side: their claims return rows that differ in their payloads
only, which read as documents of one outline, and the world answers both alike.
The cycles then make the same calls but for payloads, inputs and records, and
tell their hooks the same, provided the mapping quotes the same of the payloads.
-/

namespace EndCloseRelay

open Interaction

/-- A row without its payload. -/
def EventRecord.blank (e : EventRecord) : EventRecord := { e with payload := [], payloadIv := none }

namespace Dispatcher

/-! ## Rows that differ in scalars -/

/-- Decode and parse the payload of an event. -/
def payloadOf (deps : DispatcherDeps) (event : EventRecord) : Except RelayError Json := do
  let plaintext ← deps.codec.decode event.payload event.payloadIv
  (deps.runtime.jsonParse plaintext).mapError .other

theorem readEvent_eq (deps : DispatcherDeps) (route : RouteConfig) (event : EventRecord) :
    readEvent deps route event = (payloadOf deps event).bind fun payload =>
      (mapEvent deps.runtime deps.maskingKey route payload (Js.toISOString event.receivedAt)).map
        fun result => (payload, result) := by
  unfold readEvent payloadOf
  cases deps.codec.decode event.payload event.payloadIv with
  | error e => rfl
  | ok plaintext =>
    cases parsed : deps.runtime.jsonParse plaintext with
    | error message =>
      simp only [bind, Except.bind, parsed]
      rfl
    | ok payload =>
      simp only [bind, Except.bind, parsed, Except.mapError]
      cases mapEvent deps.runtime deps.maskingKey route payload (Js.toISOString event.receivedAt) <;> rfl

/-- Two rows are equal but for payloads that read as documents of one outline. -/
structure RowsAlike (deps : DispatcherDeps) (e e' : EventRecord) : Prop where
  blank : e.blank = e'.blank
  outlined : (payloadOf deps e).map Json.outline = (payloadOf deps e').map Json.outline

/-- What the mapping quotes of a row whose amount, or else whose date, it refuses. -/
def quotesOf (deps : DispatcherDeps) (route : RouteConfig) (event : EventRecord) :
    Except RelayError (Option String × Option String) :=
  (payloadOf deps event).map fun payload =>
    route.map.quotes deps.runtime (resolve deps.runtime deps.maskingKey payload) (getAtPath payload)

/-- The mapping quotes the same of two rows. -/
def QuotesAlike (deps : DispatcherDeps) (route : RouteConfig) (e e' : EventRecord) : Prop :=
  quotesOf deps route e = quotesOf deps route e'

/-- Alike rows of which the mapping quotes the same make it throw one error, or
leave the same for the host to supply. -/
theorem readEvent_alike {deps : DispatcherDeps} {route : RouteConfig} {e e' : EventRecord}
    (alike : RowsAlike deps e e') (quotes : QuotesAlike deps route e e') :
    (readEvent deps route e).map (fun read => read.2.asks) =
      (readEvent deps route e').map fun read => read.2.asks := by
  unfold QuotesAlike quotesOf at quotes
  have received : e.receivedAt = e'.receivedAt := congrArg (fun e => e.receivedAt) alike.blank
  rw [readEvent_eq, readEvent_eq, received]
  rcases cases_of_map_eq alike.outlined with
    ⟨e, fails, fails'⟩ | ⟨payload, payload', reads, reads', outlines⟩
  · rw [fails, fails']
  · rw [reads, reads'] at quotes ⊢
    have mapped := mapEvent_alike deps.runtime deps.maskingKey route (Js.toISOString e'.receivedAt)
      outlines (Except.ok.inj quotes)
    rcases cases_of_map_eq mapped with ⟨e, fails, fails'⟩ | ⟨m, m', maps, maps', same⟩
    · simp only [Except.bind, fails, fails', Except.map]
    · simp only [Except.bind, maps, maps', Except.map]
      exact congrArg Except.ok same

/-! ## Two cycles -/

/-- The route a cycle was last told of. -/
def lastRoute : Calls → Option RouteConfig
  | [] => none
  | ⟨.getRoute _, answer⟩ :: _ => answer.toOption.join
  | _ :: calls => lastRoute calls

/-- The two calls are one, but for the inputs of an enrichment and for the
records of a request and the key that is made of them. -/
inductive CallsAlike : Op → Op → Prop
  | same (op : Op) : CallsAlike op op
  | enrich {id : Nat} {enrichment : String} {input input' : Json} {ctx ctx' : EnrichContext}
      (told : { ctx with payload := .null } = { ctx' with payload := .null }) :
      CallsAlike (.enrich id enrichment input ctx) (.enrich id enrichment input' ctx')
  | post {key key' : String} {records records' : List EndCloseRecord}
      (length : records.length = records'.length) :
      CallsAlike (.bulkCreateRecords key records) (.bulkCreateRecords key' records')

/-- The two calls are answered alike: a claim with alike rows that meet a
condition, an enrichment with one outcome, a request with one answer. -/
inductive AnswersAlike (deps : DispatcherDeps)
    (condition : RouteConfig → EventRecord → EventRecord → Prop) (calls : Calls) :
    (op op' : Op) → op.Answer → op'.Answer → Prop
  | same (op : Op) (answer : op.Answer) : AnswersAlike deps condition calls op op answer answer
  | claimed {routeId : String} {now : Int} {limit : Nat} {lease : Lease}
      {rows rows' : List EventRecord}
      (alike : List.Forall₂ (fun e e' => RowsAlike deps e e' ∧
        ∀ route ∈ lastRoute calls, condition route e e') rows rows') :
      AnswersAlike deps condition calls (.store (.claimDue routeId now limit lease))
        (.store (.claimDue routeId now limit lease)) (.ok rows) (.ok rows')
  | enriched {id : Nat} {enrichment : String} {input input' : Json} {ctx ctx' : EnrichContext}
      {returned returned' : Except RelayError HostValue}
      (outcome : (checkReturned ctx.field returned).map Option.isSome =
        (checkReturned ctx'.field returned').map Option.isSome) :
      AnswersAlike deps condition calls (.enrich id enrichment input ctx)
        (.enrich id enrichment input' ctx') returned returned'
  | posted {key key' : String} {records records' : List EndCloseRecord}
      (answer : HttpAnswer (Option BulkRequestSummary)) :
      AnswersAlike deps condition calls (.bulkCreateRecords key records)
        (.bulkCreateRecords key' records') answer answer

/-- Two cycles in worlds that answer them alike. -/
def twins (deps : DispatcherDeps) (condition : RouteConfig → EventRecord → EventRecord → Prop) :
    Coupling Op Op.Answer where
  pairs _ := CallsAlike
  agree := AnswersAlike deps condition

/-! ## Rows without their payloads -/

/-- Two lists of rows are equal but for payloads. -/
def BlankAlike (events events' : List EventRecord) : Prop :=
  events.map EventRecord.blank = events'.map EventRecord.blank

namespace BlankAlike

variable {events events' : List EventRecord}

theorem length (same : BlankAlike events events') : events.length = events'.length := by
  simpa using congrArg List.length same

/-- Rows alike have all else in common. -/
theorem map_eq {β : Type} {f : EventRecord → β} (same : BlankAlike events events')
    (blind : ∀ e, f e.blank = f e) : events.map f = events'.map f := by
  have images := congrArg (List.map f) same
  rw [List.map_map, List.map_map] at images
  have composed : f ∘ EventRecord.blank = f := funext blind
  rwa [composed] at images

theorem ids (same : BlankAlike events events') :
    (events.map fun e => e.id) = events'.map fun e => e.id :=
  same.map_eq fun _ => rfl

theorem picked (same : BlankAlike events events') (failed : List String) (keep : Bool → Bool) :
    BlankAlike ((events.zipIdx.filter fun entry => keep (isFailed failed entry)).map Prod.fst)
      ((events'.zipIdx.filter fun entry => keep (isFailed failed entry)).map Prod.fst) := by
  have pick : ∀ (events : List EventRecord) (first : Nat),
      ((events.zipIdx first).filter fun entry => keep (isFailed failed entry)).map
          (fun entry => entry.1.blank) =
        (((events.map EventRecord.blank).zipIdx first).filter
          fun entry => keep (isFailed failed entry)).map Prod.fst := by
    intro events
    induction events with
    | nil => exact fun _ => rfl
    | cons event events ih =>
      intro first
      rw [List.map_cons, List.zipIdx_cons, List.zipIdx_cons, List.filter_cons, List.filter_cons]
      have kept : isFailed failed (event.blank, first) = isFailed failed (event, first) := rfl
      rw [kept]
      split
      · rw [List.map_cons, List.map_cons, ih]
      · exact ih (first + 1)
  unfold BlankAlike at same ⊢
  rw [List.map_map, List.map_map]
  exact (pick events 0).trans ((congrArg (fun events => ((List.zipIdx events 0).filter
    fun entry => keep (isFailed failed entry)).map Prod.fst) same).trans (pick events' 0).symm)

theorem failedEvents (same : BlankAlike events events') (failed : List String) :
    BlankAlike (failedEvents failed events) (failedEvents failed events') :=
  same.picked failed fun failed => failed

theorem okEvents (same : BlankAlike events events') (failed : List String) :
    BlankAlike (okEvents failed events) (okEvents failed events') :=
  same.picked failed not

theorem recordDelivered (same : BlankAlike events events') (deliveredAt : Int) :
    State.recordDelivered events deliveredAt = State.recordDelivered events' deliveredAt := by
  have told : ∀ events : List EventRecord, (events.flatMap fun e => [
      RelayEvent.delivered e.routeId e.receivedAt deliveredAt,
      .settled e.id e.routeId .delivered none]) = ((events.map fun e => [
      RelayEvent.delivered e.routeId e.receivedAt deliveredAt,
      .settled e.id e.routeId .delivered none]).flatten) := fun _ => rfl
  funext s
  have length := same.length
  have lines := same.map_eq (f := fun e => [RelayEvent.delivered e.routeId e.receivedAt deliveredAt,
    .settled e.id e.routeId .delivered none]) fun _ => rfl
  have routes := same.map_eq (f := fun e => e.routeId) fun _ => rfl
  cases events with
  | nil =>
    cases events' with
    | nil => rfl
    | cons first' events' => cases length
  | cons first events =>
    cases events' with
    | nil => cases length
    | cons first' events' =>
      have route : first.routeId = first'.routeId := (List.cons.inj routes).1
      unfold State.recordDelivered
      simp only [told, lines, length, route]

theorem recordParked (same : BlankAlike events events') (reason : String) :
    State.recordParked events reason = State.recordParked events' reason := by
  funext s
  have length := same.length
  have lines := same.map_eq (f := fun e => RelayEvent.settled e.id e.routeId .parked (some reason))
    fun _ => rfl
  have routes := same.map_eq (f := fun e => e.routeId) fun _ => rfl
  cases events with
  | nil =>
    cases events' with
    | nil => rfl
    | cons first' events' => cases length
  | cons first events =>
    cases events' with
    | nil => cases length
    | cons first' events' =>
      have route : first.routeId = first'.routeId := (List.cons.inj routes).1
      unfold State.recordParked
      simp only [lines, length, route]

theorem recordRetried (same : BlankAlike events events') (routeId error : String) :
    State.recordRetried routeId events error = State.recordRetried routeId events' error := by
  have lines := same.map_eq (f := fun e => RelayEvent.settled e.id routeId .retried (some error))
    fun _ => rfl
  unfold State.recordRetried
  rw [lines, same.length]

end BlankAlike

/-! ## The walk -/

/-- A call that is answered alike only by one answer. -/
def Op.isPlain : Op → Prop
  | .enrich .. | .bulkCreateRecords .. | .store (.claimDue ..) => False
  | _ => True

section Walk

variable {deps : DispatcherDeps} {condition : RouteConfig → EventRecord → EventRecord → Prop}

theorem ask_alike (op : Op) (plain : op.isPlain) :
    Method.Alike (twins deps condition) (ask op) (ask op) Eq := by
  refine Method.Alike.call (fun _ => .same op) fun calls answer answer' agree => ?_
  cases agree with
  | same => rfl
  | claimed => exact plain.elim
  | enriched => exact plain.elim
  | posted => exact plain.elim

theorem store_alike (op : StoreOp) (plain : (Op.store op).isPlain) :
    Method.Alike (twins deps condition) (store op) (store op) Eq :=
  (ask_alike (.store op) plain).then fun _ => Method.Alike.ofExcept (Method.agrees_self _)

theorem scheduleAttempt_alike {attempts : Nat} :
    Method.Alike (twins deps condition) (scheduleAttempt deps attempts)
      (scheduleAttempt deps attempts) Eq :=
  (ask_alike .now trivial).then fun _ => (ask_alike .random trivial).then fun _ =>
    Method.Alike.pure rfl

theorem park_alike {event event' : EventRecord} (same : event.blank = event'.blank) {reason : String} :
    Method.Alike (twins deps condition) (parkOne event reason) (parkOne event' reason) Eq := by
  have alike : BlankAlike [event] [event'] := congrArg (fun e => [e]) same
  unfold parkOne
  rw [alike.recordParked reason, show event.id = event'.id from congrArg (fun e => e.id) same]
  exact (store_alike (.markParked _ _) trivial).then fun _ => Method.Alike.modify _

theorem retry_alike {event event' : EventRecord} (same : event.blank = event'.blank) {message : String} :
    Method.Alike (twins deps condition) (retryOne deps event message) (retryOne deps event' message)
      Eq := by
  have alike : BlankAlike [event] [event'] := congrArg (fun e => [e]) same
  unfold retryOne
  rw [alike.recordRetried, show event.id = event'.id from congrArg (fun e => e.id) same,
    show event.attempts = event'.attempts from congrArg (fun e => e.attempts) same,
    show event.routeId = event'.routeId from congrArg (fun e => e.routeId) same]
  exact scheduleAttempt_alike.then fun _ => (store_alike (.markFailed _ _ _) trivial).then fun _ =>
    Method.Alike.modify _

theorem settleUnmapped_alike {event event' : EventRecord} (same : event.blank = event'.blank)
    {stage : Stage} (err : RelayError) :
    Method.Alike (twins deps condition) (settleUnmapped deps event stage err)
      (settleUnmapped deps event' stage err) Eq := by
  unfold settleUnmapped
  cases err with
  | mapping message => exact park_alike same
  | enrichment message => exact park_alike same
  | _ =>
    cases stage with
    | mapping => exact Method.Alike.throw _
    | enrichment => exact retry_alike same

/-- A check that passes both times, or refuses in one way. -/
theorem checked_cases {field : String} {returned returned' : Except RelayError HostValue}
    (outcome : (checkReturned field returned).map Option.isSome =
      (checkReturned field returned').map Option.isSome) :
    (∃ err, checkReturned field returned = .error err ∧ checkReturned field returned' = .error err) ∨
    (checkReturned field returned = .ok none ∧ checkReturned field returned' = .ok none) ∨
    ∃ value value', checkReturned field returned = .ok (some value) ∧
      checkReturned field returned' = .ok (some value') := by
  rcases cases_of_map_eq outcome with ⟨err, here, there⟩ | ⟨value, value', here, there, same⟩
  · exact .inl ⟨err, here, there⟩
  · cases value with
    | none =>
      cases value' with
      | none => exact .inr (.inl ⟨here, there⟩)
      | some value' => cases same
    | some value =>
      cases value' with
      | none => cases same
      | some value' => exact .inr (.inr ⟨value, value', here, there⟩)

/-- Enrichments answered alike meet one check. -/
theorem outcome_of_answers {calls : Calls} {op op' : Op} {answer : op.Answer} {answer' : op'.Answer}
    (alike : AnswersAlike deps condition calls op op' answer answer') :
    match op, op', answer, answer' with
    | .enrich _ _ _ ctx, .enrich _ _ _ ctx', returned, returned' =>
      (checkReturned ctx.field returned).map Option.isSome =
        (checkReturned ctx'.field returned').map Option.isSome
    | _, _, _, _ => True := by
  cases alike with
  | same => cases op <;> first | rfl | trivial
  | claimed => trivial
  | enriched outcome => exact outcome
  | posted => trivial

theorem resolveEnrichments_alike {event event' : EventRecord} (same : event.blank = event'.blank)
    {payload payload' : Json} {pending pending' : List PendingEnrichment}
    (asks : (pending.map fun p => (p.field, p.enrichment)) =
      pending'.map fun p => (p.field, p.enrichment)) {record record' : EndCloseRecord} :
    Method.Alike (twins deps condition) (resolveEnrichments deps event payload pending record)
      (resolveEnrichments deps event' payload' pending' record') fun _ _ => True := by
  have id : event.id = event'.id := congrArg (fun e => e.id) same
  have routeId : event.routeId = event'.routeId := congrArg (fun e => e.routeId) same
  induction pending generalizing pending' record record' with
  | nil =>
    cases pending' with
    | nil => exact Method.Alike.pure trivial
    | cons p' pending' => cases asks
  | cons p pending ih =>
    cases pending' with
    | nil => cases asks
    | cons p' pending' =>
      obtain ⟨head, tail⟩ := List.cons.inj asks
      have field : p.field = p'.field := congrArg Prod.fst head
      have enrichment : p.enrichment = p'.enrichment := congrArg Prod.snd head
      unfold resolveEnrichments
      rw [id, routeId, field, enrichment]
      by_cases known : knowsEnrichment deps p'.enrichment
      · rw [if_pos known, if_pos known]
        have told : { enrichContext event payload p'.field with payload := .null } =
            { enrichContext event' payload' p'.field with payload := .null } :=
          congrArg (fun e => { enrichContext e .null p'.field with payload := .null }) same
        refine Method.Alike.bind (R := fun returned returned' =>
            (checkReturned p'.field returned).map Option.isSome =
              (checkReturned p'.field returned').map Option.isSome)
          (Method.Alike.call (fun _ => .enrich told) fun calls answer answer' agree =>
            outcome_of_answers agree)
          fun returned returned' outcome => ?_
        rcases checked_cases outcome with
          ⟨err, here, there⟩ | ⟨here, there⟩ | ⟨value, value', here, there⟩
        · rw [here, there]
          exact (Method.Alike.modify _).then fun _ => Method.Alike.throw _
        · rw [here, there]
          exact (Method.Alike.modify _).then fun _ => ih tail
        · rw [here, there]
          exact (Method.Alike.modify _).then fun _ => ih tail
      · rw [if_neg known, if_neg known]
        exact (Method.Alike.modify _).then fun _ => Method.Alike.throw _

theorem isEmpty_of_length {α β : Type} {l : List α} {l' : List β} (length : l.length = l'.length) :
    l.isEmpty = l'.isEmpty := by
  cases l <;> cases l' <;> first | rfl | cases length

/-- The rows of a batch go alike through a mapping. -/
def MappedAlike (deps : DispatcherDeps) (route : RouteConfig) (e e' : EventRecord) : Prop :=
  RowsAlike deps e e' ∧ QuotesAlike deps route e e'

theorem buildRecord_alike {route : RouteConfig} {event event' : EventRecord}
    (alike : MappedAlike deps route event event') :
    Method.Alike (twins deps condition) (buildRecord deps route event) (buildRecord deps route event')
      fun record record' => record.isSome = record'.isSome := by
  obtain ⟨rows, quotes⟩ := alike
  unfold buildRecord
  rcases cases_of_map_eq (readEvent_alike rows quotes) with
    ⟨err, fails, fails'⟩ | ⟨⟨payload, m⟩, ⟨payload', m'⟩, reads, reads', asks⟩
  · rw [fails, fails']
    exact (settleUnmapped_alike rows.blank err).then fun _ => Method.Alike.pure rfl
  · rw [reads, reads']
    have same : m.asks = m'.asks := asks
    have empty : m.pending.isEmpty = m'.pending.isEmpty := by
      have lengths := congrArg List.length same
      unfold MappedEvent.asks at lengths
      rw [List.length_map, List.length_map] at lengths
      exact isEmpty_of_length lengths
    simp only [empty]
    split
    · exact Method.Alike.pure rfl
    · refine Method.Alike.tryCatch ?_ fun err =>
        (settleUnmapped_alike rows.blank err).then fun _ => Method.Alike.pure rfl
      exact (resolveEnrichments_alike rows.blank same).map fun _ _ _ => rfl

theorem buildRecords_alike {route : RouteConfig} {claimed claimed' : List EventRecord}
    (alike : List.Forall₂ (MappedAlike deps route) claimed claimed') :
    Method.Alike (twins deps condition) (buildRecords deps route claimed)
      (buildRecords deps route claimed') fun built built' =>
        BlankAlike (built.map Prod.fst) (built'.map Prod.fst) := by
  induction alike with
  | nil => exact Method.Alike.pure rfl
  | @cons event event' claimed claimed' alike rest ih =>
    refine (buildRecord_alike alike).bind fun record record' there => ih.bind fun built built' same => ?_
    refine Method.Alike.pure ?_
    cases record with
    | none =>
      cases record' with
      | none => exact same
      | some record' => cases there
    | some record =>
      cases record' with
      | none => cases there
      | some record' => exact congrArg₂ List.cons alike.1.blank same

/-- Requests answered alike get one answer. -/
theorem answer_of_answers {calls : Calls} {op op' : Op} {answer : op.Answer} {answer' : op'.Answer}
    (alike : AnswersAlike deps condition calls op op' answer answer') :
    match op, op', answer, answer' with
    | .bulkCreateRecords _ _, .bulkCreateRecords _ _, accepted, accepted' => accepted = accepted'
    | _, _, _, _ => True := by
  cases alike with
  | same => cases op <;> first | rfl | trivial
  | claimed => trivial
  | enriched => trivial
  | posted => rfl

/-- A request is answered alike, whatever its key and its records. -/
theorem post_alike {key key' : String} {records records' : List EndCloseRecord}
    (length : records.length = records'.length) :
    Method.Alike (twins deps condition) (ask (.bulkCreateRecords key records))
      (ask (.bulkCreateRecords key' records')) Eq :=
  Method.Alike.call (fun _ => .post length) fun _ _ _ agree => answer_of_answers agree

theorem postAttempts_alike {records records' : List EndCloseRecord}
    (length : records.length = records'.length) {attempts : List Nat} {lastErr : RelayError} :
    Method.Alike (twins deps condition) (postAttempts deps records attempts lastErr)
      (postAttempts deps records' attempts lastErr) Eq := by
  induction attempts generalizing lastErr with
  | nil => exact Method.Alike.throw _
  | cons attempt attempts ih =>
    rw [postAttempts, postAttempts]
    -- the keys are compared by unfolding them unless they are variables
    generalize idempotencyKey deps.runtime records = key
    generalize idempotencyKey deps.runtime records' = key'
    refine (post_alike length).then fun answer => ?_
    cases answer.read with
    | ok accepted => exact Method.Alike.pure rfl
    | error err =>
      cases err with
      | transientHttp message status => exact (ask_alike (.sleep _) trivial).then fun _ => ih
      | _ => exact Method.Alike.throw _

theorem pollResults_alike {bulkRequestId : Option String} {attempts : Nat} :
    Method.Alike (twins deps condition) (pollResults bulkRequestId attempts)
      (pollResults bulkRequestId attempts) Eq := by
  induction attempts with
  | zero => exact Method.Alike.pure rfl
  | succ attempts ih =>
    refine (ask_alike (.getBulkRequest bulkRequestId) trivial).then fun answer => ?_
    cases answer.read with
    | error err => exact Method.Alike.pure rfl
    | ok status =>
      cases status with
      | none => exact Method.Alike.throw _
      | some status =>
        simp only
        split
        · exact (ask_alike (.sleep _) trivial).then fun _ => ih
        · exact (Method.Alike.ofExcept (Method.agrees_self _)).then fun _ => Method.Alike.pure rfl

theorem settleResults_alike {bulkRequestId : Option String} {mapped mapped' : List EventRecord}
    (same : BlankAlike mapped mapped') :
    Method.Alike (twins deps condition) (settleResults bulkRequestId mapped)
      (settleResults bulkRequestId mapped') Eq := by
  refine (ask_alike .now trivial).then fun (deliveredAt : Int) => pollResults_alike.then fun failed => ?_
  cases failed with
  | none =>
    simp only
    rw [same.ids, same.recordDelivered]
    exact (store_alike (.markDelivered _ _ _) trivial).then fun _ => Method.Alike.modify _
  | some failed =>
    simp only
    rw [(same.failedEvents failed).ids, (same.okEvents failed).ids,
      (same.okEvents failed).recordDelivered, (same.failedEvents failed).recordParked]
    exact (store_alike (.markParked _ _) trivial).then fun _ =>
      (store_alike (.markDelivered _ _ _) trivial).then fun _ =>
        (Method.Alike.modify _).then fun _ => Method.Alike.modify _

theorem settleFailure_alike {route : RouteConfig} {mapped mapped' : List EventRecord}
    (same : BlankAlike mapped mapped') (err : RelayError) :
    Method.Alike (twins deps condition) (settleFailure deps route mapped err)
      (settleFailure deps route mapped' err) Eq := by
  have attempts : (mapped.map fun e => e.attempts) = mapped'.map fun e => e.attempts :=
    same.map_eq fun _ => rfl
  have retried : ∀ message, Method.Alike (twins deps condition) (retryBatch deps route mapped message)
      (retryBatch deps route mapped' message) Eq := by
    intro message
    unfold retryBatch
    rw [attempts, same.ids, same.recordRetried]
    exact scheduleAttempt_alike.then fun _ => (store_alike (.markFailed _ _ _) trivial).then fun _ =>
      Method.Alike.modify _
  unfold settleFailure
  cases err with
  | permanentHttp message status body =>
    simp only
    split
    · unfold parkBatch
      rw [same.ids, same.recordParked, same.length]
      exact (store_alike (.markParked _ _) trivial).then fun _ =>
        (Method.Alike.modify _).then fun _ => Method.Alike.modify _
    · exact retried message
  | _ => exact retried _

theorem deliverBatch_alike {route : RouteConfig} {claimed claimed' : List EventRecord}
    (alike : List.Forall₂ (MappedAlike deps route) claimed claimed') :
    Method.Alike (twins deps condition) (deliverBatch deps route claimed)
      (deliverBatch deps route claimed') Eq := by
  refine (buildRecords_alike alike).bind fun built built' same => ?_
  have length : built.length = built'.length := by simpa using same.length
  rw [isEmpty_of_length length]
  split
  · exact Method.Alike.pure rfl
  · refine Method.Alike.tryCatch ?_ (settleFailure_alike same)
    have records : (built.map Prod.snd).length = (built'.map Prod.snd).length := by
      rw [List.length_map, List.length_map, length]
    refine (postAttempts_alike records).then fun accepted =>
      (Method.Alike.ofExcept (Method.agrees_self _)).then fun bulkRequestId =>
        (settleResults_alike same).then fun _ => ?_
    rw [length]
    exact Method.Alike.modify _

theorem releaseLeftover_alike {claimed claimed' : List EventRecord} (same : BlankAlike claimed claimed')
    {error : String} :
    Method.Alike (twins deps condition) (releaseLeftover deps claimed error)
      (releaseLeftover deps claimed' error) Eq := by
  unfold releaseLeftover
  rw [same.ids]
  exact Method.Alike.tryCatch ((ask_alike .now trivial).then fun _ =>
    (store_alike (.releaseDelivering _ _ _) trivial).then fun _ => Method.Alike.pure rfl) fun _ =>
      Method.Alike.modify _

/-! ## Whole cycles -/

theorem RowsAlike.refl (e : EventRecord) : RowsAlike deps e e := ⟨rfl, rfl⟩

/-- Claims answered alike fail with one error, or return alike rows that meet
the condition under the route last told of. -/
theorem rows_of_answers (every : ∀ route e, condition route e e) {calls : Calls} {op op' : Op}
    {answer : op.Answer} {answer' : op'.Answer}
    (alike : AnswersAlike deps condition calls op op' answer answer') :
    match op, op', answer, answer' with
    | .store (.claimDue ..), .store (.claimDue ..), claimed, claimed' =>
      Method.Agrees (List.Forall₂ fun e e' => RowsAlike deps e e' ∧
        ∀ route ∈ lastRoute calls, condition route e e') claimed claimed'
    | _, _, _, _ => True := by
  cases alike with
  | same =>
    cases op with
    | store op =>
      cases op with
      | claimDue routeId now limit lease =>
        cases answer with
        | error e => rfl
        | ok rows =>
          exact List.forall₂_same.mpr fun e _ => ⟨RowsAlike.refl e, fun route _ => every route e⟩
      | _ => trivial
    | _ => trivial
  | claimed alike => exact alike
  | enriched => trivial
  | posted => trivial

end Walk

section Cycle

variable {deps : DispatcherDeps}

/-- A claim, and what is done with its rows. -/
theorem coupled_claim_bind {route : RouteConfig} {calls : Calls} {s : State} {routeId : String}
    {now : Int} {limit : Nat} {lease : Lease} {f : List EventRecord → Body Unit}
    (told : lastRoute calls = some route)
    (onward : ∀ claimed claimed', List.Forall₂ (MappedAlike deps route) claimed claimed' →
      Method.Alike (twins deps (QuotesAlike deps)) (f claimed) (f claimed') Eq) :
    ((store (.claimDue routeId now limit lease) >>= f).start s).Coupled (twins deps (QuotesAlike deps))
      ((store (.claimDue routeId now limit lease) >>= f).start s) calls fun _ out out' =>
        out.2 = out'.2 ∧ Method.Agrees Eq out.1 out'.1 := by
  refine ⟨.same _, fun answer answer' agree => ?_⟩
  have every : ∀ route e, QuotesAlike deps route e e := fun _ _ => rfl
  have rows := rows_of_answers every agree
  rcases answer with e | claimed <;> rcases answer' with e' | claimed'
  · exact ⟨rfl, rows⟩
  · exact rows.elim
  · exact rows.elim
  · refine onward claimed claimed' (rows.imp fun e e' alike => ?_) _ s
    exact ⟨alike.1, alike.2 route told⟩

theorem deliverRoute_alike {now : Int} {routeId : String} :
    Method.Alike (twins deps (QuotesAlike deps)) (deliverRoute deps now routeId)
      (deliverRoute deps now routeId) Eq := by
  intro calls s
  refine Method.coupled_call_bind (.same _) fun answer answer' agree => ?_
  obtain rfl : answer = answer' := by
    cases agree
    rfl
  refine Method.coupled_call_bind (.same _) fun stopped stopped' agree => ?_
  obtain rfl : stopped = stopped' := by
    cases agree
    rfl
  rcases answer with e | found
  · exact ⟨rfl, rfl⟩
  rcases stopped with e | paused
  · exact ⟨rfl, rfl⟩
  cases found with
  | none => exact ⟨rfl, rfl⟩
  | some route =>
    cases paused with
    | true => exact ⟨rfl, rfl⟩
    | false =>
      refine Method.coupled_call_bind (.same _) fun claimedAt claimedAt' agree => ?_
      obtain rfl : claimedAt = claimedAt' := by
        cases agree
        rfl
      refine coupled_claim_bind rfl fun claimed claimed' alike => ?_
      have same : BlankAlike claimed claimed' := by
        induction alike with
        | nil => rfl
        | cons head _ ih => exact congrArg₂ List.cons head.1.blank ih
      rw [isEmpty_of_length alike.length_eq]
      split
      · exact Method.Alike.pure rfl
      · exact Method.Alike.ensuring (deliverBatch_alike alike) (releaseLeftover_alike same)

theorem deliverDue_alike {now : Int} {due : List String} :
    Method.Alike (twins deps (QuotesAlike deps)) (deliverDue deps now due) (deliverDue deps now due) Eq := by
  induction due with
  | nil => exact Method.Alike.pure rfl
  | cons routeId due ih =>
    refine (ask_alike .aborted trivial).then fun (aborted : Bool) => ?_
    split
    · exact Method.Alike.pure rfl
    · exact deliverRoute_alike.then fun _ => ih

theorem recover_alike {now : Int} {sweepDue : Bool} :
    Method.Alike (twins deps (QuotesAlike deps)) (recover deps now sweepDue) (recover deps now sweepDue)
      Eq := by
  refine Method.Alike.tryCatch ?_ fun _ => Method.Alike.modify _
  refine Method.Alike.get.then fun s => (store_alike (.recoverDelivering _ _) trivial).then fun _ =>
    (Method.Alike.modify _).then fun _ => ?_
  split
  · exact (store_alike (.parkExpired _ _) trivial).then fun _ => (ask_alike .now trivial).then fun _ =>
      Method.Alike.modify _
  · exact Method.Alike.pure rfl

theorem housekeeping_alike {now : Int} :
    Method.Alike (twins deps (QuotesAlike deps)) (housekeeping deps now) (housekeeping deps now) Eq := by
  refine (ask_alike .now trivial).then fun startedAt => Method.Alike.get.then fun s => ?_
  simp only
  split
  · exact recover_alike
  · exact Method.Alike.pure rfl

theorem forwardDue_alike {now : Int} :
    Method.Alike (twins deps (QuotesAlike deps)) (forwardDue deps now) (forwardDue deps now) Eq := by
  refine (ask_alike .getKillswitch trivial).then fun killswitch =>
    (Method.Alike.ofExcept (Method.agrees_self _)).then fun (killswitch : Killswitch) => ?_
  split
  · exact (store_alike (.routesWithDueEvents _) trivial).then fun _ => (Method.Alike.modify _).then
      fun _ => deliverDue_alike
  · exact Method.Alike.modify _

theorem runOnce_alike :
    Method.Alike (twins deps (QuotesAlike deps)) (runOnce deps) (runOnce deps) Eq := by
  refine Method.Alike.tryCatch ?_ fun _ => (Method.Alike.modify _).then fun _ => Method.Alike.throw _
  refine (ask_alike .now trivial).then fun now => (Method.Alike.modify _).then fun _ =>
    housekeeping_alike.then fun _ => forwardDue_alike.then fun _ => ?_
  exact Method.Alike.get.then fun _ => Method.Alike.pure rfl

variable (deps) in
/-- Cycles in worlds that answer them alike, whose claimed rows differ only in
scalars of their payloads and of which the mapping quotes the same, make calls
that are the same but for what an enrichment is given and what a request posts,
and end with the same summary, in the same state and with the same hooks told. -/
theorem cycles_tell_alike (s : State) :
    ((runOnce deps).start s).Coupled (twins deps (QuotesAlike deps)) ((runOnce deps).start s) []
      fun _ out out' => out = out' := by
  refine (runOnce_alike [] s).mono fun _ out out' same => ?_
  obtain ⟨states, results⟩ := same
  exact Prod.ext (Method.Agrees.eq results) states

end Cycle

end Dispatcher

end EndCloseRelay
