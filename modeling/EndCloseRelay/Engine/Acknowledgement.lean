import EndCloseRelay.Engine.Ingest

/-!
# What an acknowledgement says

A request hands the store at most one row, that of the webhook it verified, and
its outcome tells what the store answered: `ingestWebhook_sat`.
-/

namespace EndCloseRelay.Ingest

open Interaction

/-- The calls of a request with their answers, latest first. -/
abbrev Calls := List (Exchange Op.Answer)

/-- The row is that of the webhook: verified for a route the request was given,
and identified by the adapter of its source. -/
def IsWebhook (deps : IngestDeps) (calls : Calls) (routeId : String) (raw : RawRequest)
    (e : NewEvent) : Prop :=
  ∃ route adapter secret now body eventId eventType entropy receivedAt,
    (⟨.getRoute routeId, .ok (some route)⟩ : Exchange Op.Answer) ∈ calls ∧
    findAdapter deps.runtime deps.adapters route.source = some adapter ∧
    (⟨.resolveSecret route.auth.secretEnv, .ok (some secret)⟩ : Exchange Op.Answer) ∈ calls ∧
    adapter.verify now raw route secret = .ok (.ok ()) ∧
    deps.runtime.jsonParse raw.body = .ok body ∧
    adapter.extractEventId body raw route = .ok eventId ∧
    adapter.extractEventType body raw route = .ok eventType ∧
    e = newEvent deps route routeId raw eventId eventType entropy receivedAt

theorem IsWebhook.mono {deps : IngestDeps} {calls calls' : Calls} (more : calls ⊆ calls')
    {routeId : String} {raw : RawRequest} {e : NewEvent}
    (webhook : IsWebhook deps calls routeId raw e) : IsWebhook deps calls' routeId raw e := by
  obtain ⟨route, adapter, secret, now, body, eventId, eventType, entropy, receivedAt, given, found,
    resolved, rest⟩ := webhook
  exact ⟨route, adapter, secret, now, body, eventId, eventType, entropy, receivedAt, more given,
    found, more resolved, rest⟩

/-- The status a webhook's row starts with. -/
theorem IsWebhook.status_cases {deps : IngestDeps} {calls : Calls} {routeId : String}
    {raw : RawRequest} {e : NewEvent} (webhook : IsWebhook deps calls routeId raw e) :
    e.status = .pending ∨ e.status = .droppedByFilter := by
  obtain ⟨route, _, _, _, _, eventId, eventType, entropy, receivedAt, _, _, _, _, _, _, _, rfl⟩ :=
    webhook
  have status : (newEvent deps route routeId raw eventId eventType entropy receivedAt).status =
      if isFiltered route eventType then .droppedByFilter else .pending := rfl
  rw [status]
  split
  · exact .inr rfl
  · exact .inl rfl

/-- A webhook's row is of the route it came in for. -/
theorem IsWebhook.routeId {deps : IngestDeps} {calls : Calls} {routeId : String}
    {raw : RawRequest} {e : NewEvent} (webhook : IsWebhook deps calls routeId raw e) :
    e.routeId = routeId := by
  obtain ⟨_, _, _, _, _, _, _, _, _, _, _, _, _, _, _, _, rfl⟩ := webhook
  rfl

/-- The exchange hands the store a row. -/
def isInsert (x : Exchange Op.Answer) : Bool :=
  match x.1 with
  | .insert _ => true
  | _ => false

/-- What a request keeps to. -/
def protocol (deps : IngestDeps) (routeId : String) (raw : RawRequest) :
    Discipline Op Op.Answer where
  allowed calls op := ∀ e, op = .insert e →
    IsWebhook deps calls routeId raw e ∧ ∀ x ∈ calls, ¬ isInsert x
  admits _ _ _ := True

/-- What an answer to a webhook vouches for. -/
def Acknowledged (deps : IngestDeps) (calls : Calls) (routeId : String) (raw : RawRequest)
    (result : IngestResult) : Prop :=
  match result.outcome with
  | .ingest .accepted => ∃ e id,
    (⟨.insert e, .ok (.inserted id)⟩ : Exchange Op.Answer) ∈ calls ∧
      IsWebhook deps calls routeId raw e ∧ e.status = .pending ∧
      result.id = some id ∧ result.status = 200
  | .ingest .filtered => ∃ e id,
    (⟨.insert e, .ok (.inserted id)⟩ : Exchange Op.Answer) ∈ calls ∧
      IsWebhook deps calls routeId raw e ∧ e.status = .droppedByFilter ∧
      result.id = some id ∧ result.status = 200
  | .ingest .duplicate => ∃ e,
    (⟨.insert e, .ok .duplicate⟩ : Exchange Op.Answer) ∈ calls ∧
      IsWebhook deps calls routeId raw e ∧ result.status = 200
  | _ => result.status ≠ 200

section

variable {deps : IngestDeps} {calls : Calls} {s : State} {routeId : String} {raw : RawRequest}

/-- What a request promises when it ends. -/
abbrev Answered (deps : IngestDeps) (routeId : String) (raw : RawRequest) :
    Method.Post Op.Answer State RelayError IngestResult :=
  fun calls _ r => ∀ result, r = .ok result → Acknowledged deps calls routeId raw result

theorem Answered.error {deps : IngestDeps} {routeId : String} {raw : RawRequest} {err : RelayError} :
    Answered deps routeId raw calls s (.error err) :=
  fun result same => by cases same

/-- A refusal stores nothing and is no 200. -/
theorem Answered.refuse {status : Nat} {text : String} {outcome : IngestResultOutcome}
    (refused : Acknowledged deps calls routeId raw (Ingest.refuse status text outcome)) :
    Answered deps routeId raw calls s (.ok (Ingest.refuse status text outcome)) := by
  intro result same
  obtain rfl := Except.ok.inj same
  exact refused

/-- No row was handed to the store yet. -/
def Fresh (calls : Calls) : Prop := ∀ x ∈ calls, ¬ isInsert x

theorem Fresh.cons {x : Exchange Op.Answer} (fresh : Fresh calls) (plain : ¬ isInsert x) :
    Fresh (x :: calls) := by
  intro y member
  rcases List.mem_cons.mp member with rfl | member
  · exact plain
  · exact fresh y member

theorem sat_ask_bind {β : Type} {op : Op} {f : op.Answer → Body β}
    {post : Method.Post Op.Answer State RelayError β} (plain : ∀ e, op ≠ .insert e)
    (onward : ∀ answer, (f answer).Sat (protocol deps routeId raw) (⟨op, answer⟩ :: calls) s post) :
    (ask op >>= f).Sat (protocol deps routeId raw) calls s post :=
  Method.sat_call_bind (fun e same => absurd same (plain e)) fun answer _ => onward answer

theorem persist_sat {route : RouteConfig} {adapter : ProcessorAdapter} {secret : Secret}
    {now : Int} {body : Json} (fresh : Fresh calls)
    (given : (⟨.getRoute routeId, .ok (some route)⟩ : Exchange Op.Answer) ∈ calls)
    (found : findAdapter deps.runtime deps.adapters route.source = some adapter)
    (resolved : (⟨.resolveSecret route.auth.secretEnv, .ok (some secret)⟩ :
      Exchange Op.Answer) ∈ calls)
    (verified : adapter.verify now raw route secret = .ok (.ok ()))
    (parsed : deps.runtime.jsonParse raw.body = .ok body) :
    (persist deps route routeId raw adapter body).Sat (protocol deps routeId raw) calls s
      (Answered deps routeId raw) := by
  refine Method.sat_ofExcept_bind (fun eventId extracted => ?_) (fun _ _ => Answered.error)
  refine Method.sat_ofExcept_bind (fun eventType typed => ?_) (fun _ _ => Answered.error)
  refine sat_ask_bind (by simp) fun entropy => sat_ask_bind (by simp) fun receivedAt => ?_
  have drawn : calls ⊆ ⟨.now, receivedAt⟩ :: ⟨.entropy, entropy⟩ :: calls :=
    List.subset_cons_of_subset _ (List.subset_cons_self _ _)
  have webhook : IsWebhook deps calls routeId raw
      (newEvent deps route routeId raw eventId eventType entropy receivedAt) :=
    ⟨route, adapter, secret, now, body, eventId, eventType, entropy, receivedAt, given, found,
      resolved, verified, parsed, extracted, typed, rfl⟩
  refine Method.sat_call_bind (fun e same => ?_) fun inserted _ => ?_
  · obtain rfl := Op.insert.inj same
    exact ⟨webhook.mono drawn, (fresh.cons (by simp [isInsert])).cons (by simp [isInsert])⟩
  · refine Method.sat_ofExcept_bind (fun outcome answered => ?_) (fun _ _ => Answered.error)
    subst answered
    cases outcome with
    | duplicate =>
      refine Method.sat_modify_bind (Method.Sat.pure fun result same => ?_)
      obtain rfl := Except.ok.inj same
      exact ⟨_, List.mem_cons_self .., webhook.mono (List.subset_cons_of_subset _ drawn), rfl⟩
    | inserted id =>
      have status : (newEvent deps route routeId raw eventId eventType entropy receivedAt).status =
          if isFiltered route eventType then .droppedByFilter else .pending := rfl
      simp only []
      split
      · rename_i filtered
        rw [if_pos filtered] at status
        refine Method.sat_modify_bind (Method.sat_modify_bind (Method.Sat.pure fun result same => ?_))
        obtain rfl := Except.ok.inj same
        exact ⟨_, id, List.mem_cons_self .., webhook.mono (List.subset_cons_of_subset _ drawn), status, rfl, rfl⟩
      · rename_i kept
        rw [if_neg kept] at status
        refine Method.sat_modify_bind (Method.sat_modify_bind (Method.sat_modify_bind
          (Method.Sat.pure fun result same => ?_)))
        obtain rfl := Except.ok.inj same
        exact ⟨_, id, List.mem_cons_self .., webhook.mono (List.subset_cons_of_subset _ drawn), status, rfl, rfl⟩

theorem verifyAndPersist_sat {route : RouteConfig} (fresh : Fresh calls)
    (given : (⟨.getRoute routeId, .ok (some route)⟩ : Exchange Op.Answer) ∈ calls) :
    (verifyAndPersist deps route routeId raw).Sat (protocol deps routeId raw) calls s
      (Answered deps routeId raw) := by
  unfold verifyAndPersist
  cases found : findAdapter deps.runtime deps.adapters route.source with
  | none => exact Method.Sat.pure (Answered.refuse (by simp [Acknowledged, refuse]))
  | some adapter =>
    refine sat_ask_bind (by simp) fun answer => ?_
    refine Method.sat_ofExcept_bind (fun secret resolved => ?_) (fun _ _ => Answered.error)
    subst resolved
    cases secret with
    | none => exact Method.Sat.pure (Answered.refuse (by simp [Acknowledged, refuse]))
    | some secret =>
      refine sat_ask_bind (by simp) fun now => ?_
      refine Method.sat_ofExcept_bind (fun verdict verified => ?_) (fun _ _ => Answered.error)
      cases verdict with
      | error reason =>
        exact Method.sat_modify_bind
          (Method.Sat.pure (Answered.refuse (by simp [Acknowledged, refuse])))
      | ok _ =>
        cases parsed : deps.runtime.jsonParse raw.body with
        | error message =>
          exact Method.sat_modify_bind
            (Method.Sat.pure (Answered.refuse (by simp [Acknowledged, refuse])))
        | ok body =>
          exact persist_sat ((fresh.cons (by simp [isInsert])).cons (by simp [isInsert]))
            (by simp [given]) found (by simp) verified parsed

theorem ingestInner_sat (fresh : Fresh calls) :
    (ingestInner deps routeId raw).Sat (protocol deps routeId raw) calls s
      (Answered deps routeId raw) := by
  refine sat_ask_bind (by simp) fun answer => ?_
  refine Method.sat_ofExcept_bind (fun route given => ?_) (fun _ _ => Answered.error)
  subst given
  cases route with
  | none => exact Method.Sat.pure (Answered.refuse (by simp [Acknowledged, refuse]))
  | some route =>
    refine sat_ask_bind (by simp) fun answer => ?_
    refine Method.sat_ofExcept_bind (fun killswitch _ => ?_) (fun _ _ => Answered.error)
    split
    · exact Method.sat_modify_bind
        (Method.Sat.pure (Answered.refuse (by simp [Acknowledged, refuse])))
    · split
      · exact Method.sat_modify_bind
          (Method.Sat.pure (Answered.refuse (by simp [Acknowledged, refuse])))
      · split
        · exact Method.sat_modify_bind
            (Method.Sat.pure (Answered.refuse (by simp [Acknowledged, refuse])))
        · exact verifyAndPersist_sat ((fresh.cons (by simp [isInsert])).cons (by simp [isInsert]))
            (by simp)

/-- Whatever the world answers, an answer to a webhook vouches for what was stored. -/
theorem ingestWebhook_sat (deps : IngestDeps) (routeId : String) (raw : RawRequest) (s : State) :
    (ingestWebhook deps routeId raw).Sat (protocol deps routeId raw) [] s
      (Answered deps routeId raw) := by
  refine Method.Sat.tryCatch _ (ingestInner_sat (fun x member => absurd member List.not_mem_nil))
    (fun _ _ _ answered => answered) (fun calls _ err _ => ?_)
  unfold answerFailure
  split
  · exact Method.sat_modify_bind
      (Method.Sat.pure (Answered.refuse (by simp [Acknowledged, refuse])))
  · exact Method.sat_modify_bind
      (Method.Sat.pure (Answered.refuse (by simp [Acknowledged, refuse])))
  · exact Method.Sat.throw Answered.error

end

end EndCloseRelay.Ingest
