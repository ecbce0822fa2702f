import EndCloseRelay.Engine.NoLoss

/-!
# Duplicates

A webhook is a duplicate when the store knows its idempotency key, which is
made of the source and the event id.  A source is a slug, so the key tells both
apart; the route is no part of it.
-/

namespace EndCloseRelay

open Interaction

/-! ## The idempotency key -/

/-- What stands before the first occurrence of a character, and after it. -/
theorem split_at_first {c : Char} {a a' b b' : List Char} (none_ : c ∉ a) (none_' : c ∉ a')
    (same : a ++ c :: b = a' ++ c :: b') : a = a' ∧ b = b' := by
  induction a generalizing a' with
  | nil =>
    cases a' with
    | nil => exact ⟨rfl, (List.cons.inj same).2⟩
    | cons d a' =>
      have head := (List.cons.inj same).1
      exact absurd (head ▸ List.mem_cons_self ..) none_'
  | cons d a ih =>
    cases a' with
    | nil =>
      have head := (List.cons.inj same).1
      exact absurd (head ▸ List.mem_cons_self ..) none_
    | cons d' a' =>
      obtain ⟨rfl, tail⟩ := List.cons.inj same
      rw [List.mem_cons, not_or] at none_ none_'
      obtain ⟨rfl, rest⟩ := ih none_.2 none_'.2 tail
      exact ⟨rfl, rest⟩

/-- No source the schema accepts has a colon. -/
theorem colon_not_mem_slug {source : String} (slug : isSlug source) : ':' ∉ source.toList := by
  unfold isSlug isIdentifier at slug
  split at slug
  · rename_i first rest text
    rw [text]
    rw [Bool.and_eq_true] at slug
    intro member
    rcases List.mem_cons.mp member with same | member
    · rw [← same] at slug
      exact absurd slug.1 (by decide)
    · exact absurd (List.all_eq_true.mp slug.2 _ member) (by decide)
  · cases slug

/-- The key tells sources apart, and event ids as far as an encoder does. -/
theorem Ingest.eventKey_eq_iff {rt : Runtime} (injective : Function.Injective rt.sha256Hex)
    {source source' : String} (slug : isSlug source) (slug' : isSlug source') (eventId eventId' : Js.Units) :
    eventKey rt (Js.units source) eventId = eventKey rt (Js.units source') eventId' ↔
      source = source' ∧ Js.shown eventId = Js.shown eventId' := by
  have text : ∀ (source : String) (eventId : Js.Units),
      Js.shown (Js.units source ++ Js.units ":" ++ eventId) =
        String.ofList (source.toList ++ ':' :: Js.decode eventId) := by
    intro source eventId
    rw [Js.shown, List.append_assoc, Js.decode_units_append, Js.decode_units_append]
    rfl
  constructor
  · intro same
    have hashed := (String.append_right_inj _).mp same
    have texts := utf8_injective (injective hashed)
    rw [text, text] at texts
    obtain ⟨sources, ids⟩ := split_at_first (colon_not_mem_slug slug) (colon_not_mem_slug slug')
      (String.ofList_injective texts)
    exact ⟨String.toList_inj.mp sources, congrArg String.ofList ids⟩
  · rintro ⟨rfl, shows⟩
    unfold eventKey utf8Units
    rw [text, text, String.ofList_injective shows]

/-- The key tells sources and event ids apart. -/
theorem Ingest.eventIdempotencyKey_inj {rt : Runtime} (injective : Function.Injective rt.sha256Hex)
    {source source' eventId eventId' : String} (slug : isSlug source) (slug' : isSlug source')
    (same : eventIdempotencyKey rt source eventId = eventIdempotencyKey rt source' eventId') :
    source = source' ∧ eventId = eventId' := by
  rw [← eventKey_units, ← eventKey_units, eventKey_eq_iff injective slug slug', Js.shown_units,
    Js.shown_units] at same
  exact same

/-- The routes a request is given are of those `parseRoutes` accepted. -/
def Action.ServesValid : Action → Prop
  | .ingest _ _ world => ∀ calls id route,
      (world calls).answer (.getRoute id) = .ok (some route) → route.schemaValid
  | _ => True

namespace System

/-! ## The ledger of keys -/

/-- The log shows the row stored for a webhook, under the id. -/
def Stored (D : Deployment) (log : List Entry) (id : Nat) (e : NewEvent) : Prop :=
  ∃ routeId raw calls result, Entry.ingested routeId raw calls result ∈ log ∧
    (⟨.insert e, .ok (.inserted id)⟩ : Exchange Ingest.Op.Answer) ∈ calls ∧
    Ingest.IsWebhook D.ingest calls routeId raw e

/-- Every key the store knows is that of a webhook the log shows stored. -/
def Ledger (D : Deployment) (s : System) : Prop :=
  ∀ key id, (key, id) ∈ s.store.byKey → ∃ e, Stored D s.log id e ∧ e.idempotencyKey = key

/-- Every route a request was given passes the schema. -/
def Served (s : System) : Prop :=
  ∀ routeId raw calls result, Entry.ingested routeId raw calls result ∈ s.log →
    ∀ id route, (⟨.getRoute id, .ok (some route)⟩ : Exchange Ingest.Op.Answer) ∈ calls →
      route.schemaValid

section

variable {D : Deployment} {s : System} {a : Action}

theorem Stored.mono {log log' : List Entry} (more : log ⊆ log') {id : Nat} {e : NewEvent}
    (stored : Stored D log id e) : Stored D log' id e := by
  obtain ⟨routeId, raw, calls, result, listed, rest⟩ := stored
  exact ⟨routeId, raw, calls, result, more listed, rest⟩

/-- No call of an instance to the store inserts a row. -/
theorem applied_not_insert (conforms : Conforms D s) {op : StoreOp}
    (applied : s.applied a = some op) (e : NewEvent) : op ≠ .insert e := by
  rintro rfl
  cases a with
  | answer i reply =>
    obtain ⟨⟨next, rest⟩, -⟩ := appliedBy_eq_some.mp applied
    exact conforms.allowed rest
  | _ => cases applied

theorem ledger_step (conforms : Conforms D s) (ledger : Ledger D s) (a : Action) :
    Ledger D (step D s a) := by
  have more := log_subset D s a
  intro key id member
  rcases step_store D s a with ⟨op, applied, store⟩ | ⟨-, store | ⟨routeId, raw, world, rfl⟩⟩
  · rw [store] at member
    obtain ⟨e, stored, known⟩ :=
      ledger key id (MemoryStore.byKey_apply (applied_not_insert conforms applied) member)
    exact ⟨e, stored.mono more, known⟩
  · rw [store] at member
    obtain ⟨e, stored, known⟩ := ledger key id member
    exact ⟨e, stored.mono more, known⟩
  · obtain ⟨-, calls, result, log, effect, -⟩ := s.ingest_cases D routeId raw world
    have listed : Entry.ingested routeId raw calls result ∈
        (step D s (.ingest routeId raw world)).log := by
      show _ ∈ (s.ingest D routeId raw world).log
      rw [log]
      exact List.mem_cons_self ..
    have after : (key, id) ∈ (s.ingest D routeId raw world).store.byKey := member
    generalize (s.ingest D routeId raw world).store = store' at effect after
    cases effect with
    | nothing _ =>
      obtain ⟨e, stored, known⟩ := ledger key id after
      exact ⟨e, stored.mono more, known⟩
    | stored e inserted webhook _ =>
      rcases s.store.insert_cases e with ⟨-, same, -⟩ | ⟨outcome, same⟩
      · rw [same] at after
        obtain ⟨e', stored, known⟩ := ledger key id after
        exact ⟨e', stored.mono more, known⟩
      · rw [same] at after
        rw [outcome] at inserted
        rcases List.mem_append.mp after with old | new
        · obtain ⟨e', stored, known⟩ := ledger key id old
          exact ⟨e', stored.mono more, known⟩
        · obtain ⟨rfl, rfl⟩ := Prod.mk.inj (List.mem_singleton.mp new)
          exact ⟨e, ⟨routeId, raw, calls, result, listed, inserted, webhook⟩, rfl⟩

/-- A request is given the routes its world has. -/
theorem served_ingest {routeId : String} {raw : RawRequest} {world : Ingest.Calls → Ingest.Reply}
    (valid : (Action.ingest routeId raw world).ServesValid) {calls : Ingest.Calls}
    {result : Except RelayError IngestResult}
    (log : (s.ingest D routeId raw world).log = .ingested routeId raw calls result :: s.log)
    {id : String} {route : RouteConfig}
    (given : (⟨.getRoute id, .ok (some route)⟩ : Exchange Ingest.Op.Answer) ∈ calls) :
    route.schemaValid := by
  have ran := Program.Sat.exec (fun calls store op => (world calls).respond store op)
    (fun calls _ => ∀ id route,
      (⟨.getRoute id, .ok (some route)⟩ : Exchange Ingest.Op.Answer) ∈ calls → route.schemaValid)
    (Ingest.ingestWebhook_sat D.ingest routeId raw {}) (w := s.store)
    (fun _ _ member => absurd member List.not_mem_nil)
    (fun calls store op valids _ => by
      refine ⟨trivial, fun id route member => ?_⟩
      rcases List.mem_cons.mp member with new | old
      · obtain ⟨rfl, answered⟩ := Sigma.mk.inj new
        exact valid calls id route (eq_of_heq answered).symm
      · exact valids id route old)
  obtain ⟨-, -, rfl, -⟩ := Entry.ingested.inj (List.cons.inj log).1
  exact ran.2 id route given

theorem served_step (served : Served s) (valid : a.ServesValid) : Served (step D s a) := by
  intro routeId raw calls result listed id route given
  rcases log_step D s a with same | ⟨routeId', raw', world, calls', result', rfl, log, -, -⟩ |
    ⟨i, _, _, _, _, _, answers⟩
  · rw [same] at listed
    exact served routeId raw calls result listed id route given
  · rw [log] at listed
    rcases List.mem_cons.mp listed with new | old
    · obtain ⟨rfl, rfl, rfl, rfl⟩ := Entry.ingested.inj new
      exact served_ingest valid log given
    · exact served routeId raw calls result old id route given
  · rw [answers.log] at listed
    rcases List.mem_cons.mp listed with new | old
    · cases new
    · exact served routeId raw calls result old id route given

theorem ledger_run (D : Deployment) (actions : List Action) :
    Ledger D ((machine D).run actions) := by
  have start : Conforms D (machine D).init ∧ Ledger D (machine D).init :=
    ⟨conforms_run D [], fun key id member => by cases member⟩
  have kept := Machine.invariant (fun s => Conforms D s ∧ Ledger D s) start
    (fun s a inv => ⟨conforms_step a inv.1, ledger_step inv.1 inv.2 a⟩) actions
  exact kept.2

theorem served_run (D : Deployment) {actions : List Action}
    (valid : ∀ a ∈ actions, a.ServesValid) : Served ((machine D).run actions) := by
  have start : Served (machine D).init := by
    intro routeId raw calls result listed
    cases listed
  exact Machine.listed_invariant Served Action.ServesValid start
    (fun s a served valid => served_step served valid) valid

/-! ## What a 200 says -/

/-- An answer to a webhook that says `duplicate` stands for an earlier row
related to the webhook's; any other 200 for the webhook's own new row, which
was inserted before the answer. -/
def AnsweredFor (D : Deployment) (related : NewEvent → NewEvent → Prop) (s s' : System)
    (routeId : String) (raw : RawRequest) (calls : Ingest.Calls) (result : IngestResult) : Prop :=
  ∃ e, Ingest.IsWebhook D.ingest calls routeId raw e ∧
    ((result.outcome = .ingest .duplicate ∧ s'.store = s.store ∧
        ∃ e' id, Stored D s.log id e' ∧ e'.eventId = e.eventId ∧ related e' e) ∨
      ((result.outcome = .ingest .accepted ∨ result.outcome = .ingest .filtered) ∧
        ∃ id, result.id = some id ∧
          (⟨.insert e, .ok (.inserted id)⟩ : Exchange Ingest.Op.Answer) ∈ calls ∧
          s.store.row? id = none ∧ s'.store.row? id = some (.ofNew e id)))

/-- The insert an answer vouches for is the one the request made. -/
theorem inserted_ingest {calls : Ingest.Calls} {routeId : String} {raw : RawRequest}
    {store store' : MemoryStore} {e : NewEvent} {outcome : InsertResult} (effect : IngestEffect D store routeId raw calls store')
    (member : (⟨.insert e, .ok outcome⟩ : Exchange Ingest.Op.Answer) ∈ calls) :
    outcome = (store.insert e).1 ∧ store' = (store.insert e).2 := by
  cases effect with
  | nothing none_ => exact absurd member (none_ e outcome)
  | stored e' _ _ only =>
    obtain ⟨rfl, same⟩ := only e outcome member
    exact ⟨same, rfl⟩

/-- Only a 200 has one of the three outcomes that acknowledge. -/
theorem acknowledged_outcome {calls : Ingest.Calls} {routeId : String} {raw : RawRequest}
    {result : IngestResult}
    (vouched : Ingest.Acknowledged D.ingest calls routeId raw result) (ok : result.status = 200) :
    ∃ e, Ingest.IsWebhook D.ingest calls routeId raw e ∧
      ((result.outcome = .ingest .duplicate ∧
          (⟨.insert e, .ok .duplicate⟩ : Exchange Ingest.Op.Answer) ∈ calls) ∨
        ((result.outcome = .ingest .accepted ∨ result.outcome = .ingest .filtered) ∧
          ∃ id, result.id = some id ∧
            (⟨.insert e, .ok (.inserted id)⟩ : Exchange Ingest.Op.Answer) ∈ calls)) := by
  unfold Ingest.Acknowledged at vouched
  split at vouched
  · rename_i outcome
    obtain ⟨e, id, inserted, webhook, -, named, -⟩ := vouched
    exact ⟨e, webhook, .inr ⟨.inl outcome, id, named, inserted⟩⟩
  · rename_i outcome
    obtain ⟨e, id, inserted, webhook, -, named, -⟩ := vouched
    exact ⟨e, webhook, .inr ⟨.inr outcome, id, named, inserted⟩⟩
  · rename_i outcome
    obtain ⟨e, inserted, webhook, -⟩ := vouched
    exact ⟨e, webhook, .inl ⟨outcome, inserted⟩⟩
  · exact absurd ok vouched

/-- The source of a webhook's row is a slug, where routes pass the schema. -/
theorem isWebhook_slug {calls : Ingest.Calls} {routeId : String} {raw : RawRequest} {e : NewEvent}
    (webhook : Ingest.IsWebhook D.ingest calls routeId raw e)
    (served : ∀ id route,
      (⟨.getRoute id, .ok (some route)⟩ : Exchange Ingest.Op.Answer) ∈ calls → route.schemaValid) :
    isSlug e.source ∧
      e.idempotencyKey =
        Ingest.eventIdempotencyKey D.ingest.runtime.toRuntime e.source e.eventId := by
  obtain ⟨route, _, _, _, _, eventId, _, _, _, given, -, -, -, -, -, -, rfl⟩ := webhook
  have valid := served routeId route given
  unfold RouteConfig.schemaValid at valid
  simp only [Bool.and_eq_true] at valid
  exact ⟨valid.1.1.1.1.1.2, rfl⟩

/-- In every run over routes that pass the schema, a 200 that says `duplicate`
means that a webhook with the same event id was stored before for a route of
the same source; any other 200 means a new row for this webhook.  Of event ids
with surrogates that stand alone, those are one id that an encoder makes one. -/
theorem answered_for_source (injective : Function.Injective D.ingest.runtime.sha256Hex)
    {actions : List Action} {routeId : String} {raw : RawRequest}
    {world : Ingest.Calls → Ingest.Reply} (valid : ∀ a ∈ actions, a.ServesValid)
    (validNow : (Action.ingest routeId raw world).ServesValid) {calls : Ingest.Calls}
    {result : IngestResult}
    (answered : ((machine D).run (actions ++ [.ingest routeId raw world])).log =
      .ingested routeId raw calls (.ok result) :: ((machine D).run actions).log)
    (ok : result.status = 200) :
    AnsweredFor D (fun e' e => e'.source = e.source) ((machine D).run actions)
        ((machine D).run (actions ++ [.ingest routeId raw world])) routeId raw calls result ∧
      ∀ source source' : String, isSlug source → isSlug source' → ∀ eventId eventId' : Js.Units,
        Ingest.eventKey D.ingest.runtime.toRuntime (Js.units source) eventId =
            Ingest.eventKey D.ingest.runtime.toRuntime (Js.units source') eventId' ↔
          source = source' ∧ Js.shown eventId = Js.shown eventId' := by
  refine ⟨?_, fun _ _ slug slug' => Ingest.eventKey_eq_iff injective slug slug'⟩
  have ledger := ledger_run D actions
  have served := served_run D valid
  rw [Machine.run_concat] at answered ⊢
  generalize (machine D).run actions = s at answered ledger served ⊢
  replace answered : (s.ingest D routeId raw world).log =
      .ingested routeId raw calls (.ok result) :: s.log := answered
  show AnsweredFor D _ s (s.ingest D routeId raw world) routeId raw calls result
  have given : ∀ id route,
      (⟨.getRoute id, .ok (some route)⟩ : Exchange Ingest.Op.Answer) ∈ calls → route.schemaValid :=
    fun _ _ => served_ingest validNow answered
  obtain ⟨-, calls', result', log, effect, vouched⟩ := s.ingest_cases D routeId raw world
  rw [log] at answered
  obtain ⟨-, -, rfl, rfl⟩ := Entry.ingested.inj (List.cons.inj answered).1
  obtain ⟨e, webhook, ⟨outcome, inserted⟩ | ⟨outcome, id, named, inserted⟩⟩ :=
    acknowledged_outcome (vouched result rfl) ok
  · obtain ⟨duplicate, store⟩ := inserted_ingest effect inserted
    rcases s.store.insert_cases e with ⟨-, same, id, known⟩ | ⟨new, -⟩
    · obtain ⟨e', stored, key⟩ := ledger _ _ known
      have earlier := stored
      obtain ⟨routeId', raw', calls', result', listed, -, webhook'⟩ := earlier
      obtain ⟨slug, keyed⟩ := isWebhook_slug webhook given
      obtain ⟨slug', keyed'⟩ := isWebhook_slug webhook' (served routeId' raw' calls' result' listed)
      rw [keyed, keyed'] at key
      obtain ⟨sources, ids⟩ := Ingest.eventIdempotencyKey_inj injective slug' slug key
      exact ⟨e, webhook, .inl ⟨outcome, store.trans same, e', id, stored, ids, sources⟩⟩
    · rw [new] at duplicate
      cases duplicate
  · obtain ⟨new, store⟩ := inserted_ingest effect inserted
    rcases s.store.insert_cases e with ⟨duplicate, -⟩ | ⟨next, -⟩
    · rw [duplicate] at new
      cases new
    · refine ⟨e, webhook, .inr ⟨outcome, id, named, inserted, ?_, ?_⟩⟩
      · rw [next] at new
        obtain rfl := InsertResult.inserted.inj new
        cases found : s.store.row? s.store.nextId with
        | none => rfl
        | some r =>
          have below := MemoryStore.row?_lt found
          omega
      · rw [store]
        exact row?_insert_new new.symm

/-! ## The payment, handed to two routes -/

/-- Another route of the same source. -/
def refundsRoute : RouteConfig := { sampleRoute with id := "refunds", events := some ["Refund*"] }

/-- The answer to a webhook whose key is known. -/
def duplicateAnswer : IngestResult where
  status := 200
  body := .status "duplicate"
  outcome := .ingest .duplicate

theorem servesValid_sampleWebhook {route : RouteConfig} (valid : route.schemaValid) :
    (sampleWebhook route).ServesValid := by
  intro calls id route' given
  obtain rfl := Option.some.inj (Except.ok.inj given)
  exact valid

/-- The payment, filtered out of the refunds and then handed to the payments,
is answered as a duplicate. -/
theorem duplicate_after_refunds : ∃ calls,
    ((machine sampleDeployment).run [sampleWebhook refundsRoute, sampleIngest]).log =
      .ingested "payments" sampleRequest calls (.ok duplicateAnswer) ::
        ((machine sampleDeployment).run [sampleWebhook refundsRoute]).log :=
  ⟨_, rfl⟩

/-- The refunds have the source of the payments, and stored it. -/
theorem answered_for_source_refunds : ∃ calls,
    AnsweredFor sampleDeployment (fun e' e => e'.source = e.source)
      ((machine sampleDeployment).run [sampleWebhook refundsRoute])
      ((machine sampleDeployment).run [sampleWebhook refundsRoute, sampleIngest]) "payments"
      sampleRequest calls duplicateAnswer := by
  obtain ⟨calls, answered⟩ := duplicate_after_refunds
  have serves : ∀ a ∈ [sampleWebhook refundsRoute], a.ServesValid := by
    intro a member
    obtain rfl := List.mem_singleton.mp member
    exact servesValid_sampleWebhook (by decide)
  exact ⟨calls, (answered_for_source (Runtime.sha256Hex_knowing_injective _) serves
    (servesValid_sampleWebhook (by decide)) answered rfl).1⟩

/-- No webhook was stored for the payments when theirs was answered, and none
is after it.  Nor are two ids told apart that are one surrogate each. -/
theorem refunds_answer_payments : sampleRoute.schemaValid ∧ refundsRoute.schemaValid ∧
    Function.Injective sampleDeployment.ingest.runtime.sha256Hex ∧
    Ingest.eventKey sampleDeployment.ingest.runtime.toRuntime (Js.units sampleRoute.source) [0xD800] =
      Ingest.eventKey sampleDeployment.ingest.runtime.toRuntime (Js.units sampleRoute.source) [0xD801] ∧
    (∀ r ∈ ((machine sampleDeployment).run [sampleWebhook refundsRoute, sampleIngest]).store.rows,
      r.routeId = "refunds") ∧
    ∃ calls, ((machine sampleDeployment).run [sampleWebhook refundsRoute, sampleIngest]).log =
        .ingested "payments" sampleRequest calls (.ok duplicateAnswer) ::
          ((machine sampleDeployment).run [sampleWebhook refundsRoute]).log ∧
      ¬ AnsweredFor sampleDeployment (fun e' e => e'.routeId = e.routeId)
        ((machine sampleDeployment).run [sampleWebhook refundsRoute])
        ((machine sampleDeployment).run [sampleWebhook refundsRoute, sampleIngest]) "payments"
        sampleRequest calls duplicateAnswer := by
  refine ⟨by decide, by decide, Runtime.sha256Hex_knowing_injective _, rfl, by decide, ?_⟩
  obtain ⟨calls, answered⟩ := duplicate_after_refunds
  refine ⟨calls, answered, ?_⟩
  rintro ⟨e, webhook, ⟨-, -, e', id, stored, -, routes⟩ | ⟨outcome | outcome, -⟩⟩
  · obtain ⟨routeId, raw, calls', result, listed, -, webhook'⟩ := stored
    obtain ⟨rfl, -⟩ := Entry.ingested.inj (List.mem_singleton.mp listed)
    rw [webhook.routeId, webhook'.routeId] at routes
    exact absurd routes (by decide)
  · cases outcome
  · cases outcome

end

end System

end EndCloseRelay
