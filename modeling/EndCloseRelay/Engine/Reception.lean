import EndCloseRelay.Engine.Acknowledgement

/-!
# What a request tells

A request that is answered tells its hooks once of its outcome, of the row it
stored if it stored one, and of the failure if the store failed; it wakes the
dispatcher if it stored a row to forward.  One that is not answered tells
nothing.
-/

namespace EndCloseRelay

open Interaction

/-- The HTTP status of an outcome. -/
def IngestResultOutcome.status : IngestResultOutcome → Nat
  | .ingest .accepted | .ingest .duplicate | .ingest .filtered => 200
  | .ingest .rejectedJson => 400
  | .ingest .rejectedAuth => 401
  | .unknownRoute => 404
  | .ingest .rejectedSize => 413
  | .unknownSource | .secretUnavailable | .persistFailed => 500
  | .ingest .panic | .unavailable => 503

/-- The refusals no hook is told of. -/
def IngestResultOutcome.IsUntold : IngestResultOutcome → Prop
  | .unknownRoute | .unknownSource | .secretUnavailable => True
  | _ => False

/-- An answer that a row was stored, or was there. -/
def acknowledge (text : String) (outcome : IngestOutcome) (id : Option Nat) : IngestResult :=
  { status := 200, body := .status text, outcome := .ingest outcome, id }

namespace Ingest

/-- What a request of so many bytes tells and which routes it wakes, by its calls
and its answer. -/
inductive Tells (routeId : String) (bytes : Nat) (calls : Calls) :
    IngestResult → List RelayEvent → List String → Prop
  | silent {text outcome} (fresh : Fresh calls) (untold : outcome.IsUntold) :
      Tells routeId bytes calls (refuse outcome.status text outcome) [] []
  | refused {text outcome} (fresh : Fresh calls)
      (unstored : (IngestResultOutcome.ingest outcome).status ≠ 200) :
      Tells routeId bytes calls (refuse (IngestResultOutcome.ingest outcome).status text (.ingest outcome))
        [.ingest routeId outcome none bytes] []
  | duplicate {e eventType} (known : calls.head? = some ⟨.insert e, .ok .duplicate⟩)
      (typed : e.eventType = eventType) :
      Tells routeId bytes calls (acknowledge "duplicate" .duplicate none)
        [.ingest routeId .duplicate eventType bytes] []
  | filtered {e id eventType} (stored : calls.head? = some ⟨.insert e, .ok (.inserted id)⟩)
      (status : e.status = .droppedByFilter) (typed : e.eventType = eventType) :
      Tells routeId bytes calls (acknowledge "filtered" .filtered (some id))
        [.ingest routeId .filtered eventType bytes, .stored routeId id true] []
  | accepted {e id eventType} (stored : calls.head? = some ⟨.insert e, .ok (.inserted id)⟩)
      (status : e.status = .pending) (typed : e.eventType = eventType) :
      Tells routeId bytes calls (acknowledge "accepted" .accepted (some id))
        [.ingest routeId .accepted eventType bytes, .stored routeId id false] [routeId]
  | failed {message op} :
      Tells routeId bytes calls (refuse IngestResultOutcome.persistFailed.status "internal error" .persistFailed)
        [.error .ingestPersist (.store message op) (some op) (some routeId)] []
  | unavailable {message op} :
      Tells routeId bytes calls (refuse IngestResultOutcome.unavailable.status "temporarily unavailable" .unavailable)
        [.error .ingestPersist (.storeUnavailable message op) (some op) (some routeId)] []

/-- What a request has told since a state when it ends. -/
def Told (s : State) (routeId : String) (raw : RawRequest) :
    Method.Post Op.Answer State RelayError IngestResult :=
  fun calls s' r => ∃ hooks signals, s'.hooks = s.hooks ++ hooks ∧ s'.signals = s.signals ++ signals ∧
    match r with
    | .ok result => Tells routeId raw.body.length calls result hooks signals
    | .error _ => hooks = [] ∧ signals = []

section

variable {deps : IngestDeps} {calls : Calls} {s : State} {routeId : String} {raw : RawRequest}

theorem Told.error {err : RelayError} : Told s routeId raw calls s (.error err) :=
  ⟨[], [], (List.append_nil _).symm, (List.append_nil _).symm, rfl, rfl⟩

theorem Told.silent {text : String} (outcome : IngestResultOutcome) (fresh : Fresh calls)
    (untold : outcome.IsUntold) :
    Told s routeId raw calls s (.ok (refuse outcome.status text outcome)) :=
  ⟨[], [], (List.append_nil _).symm, (List.append_nil _).symm, .silent fresh untold⟩

/-- A refusal the host is told of. -/
theorem sat_refuse {text : String} {outcome : IngestOutcome} (fresh : Fresh calls)
    (unstored : (IngestResultOutcome.ingest outcome).status ≠ 200) :
    (do
      ingested routeId raw.body.length outcome none
      pure (refuse (IngestResultOutcome.ingest outcome).status text (.ingest outcome)) :
      Body IngestResult).Sat (.free Op Op.Answer) calls s (Told s routeId raw) :=
  Method.sat_modify_bind (Method.Sat.pure ⟨_, [], rfl, (List.append_nil _).symm, .refused fresh unstored⟩)

theorem persist_tells {route : RouteConfig} {adapter : ProcessorAdapter} {body : Json} :
    (persist deps route routeId raw adapter body).Sat (.free Op Op.Answer) calls s (Told s routeId raw) := by
  refine Method.sat_ofExcept_bind (fun eventId _ => ?_) fun _ _ => Told.error
  refine Method.sat_ofExcept_bind (fun eventType _ => ?_) fun _ _ => Told.error
  refine Method.sat_call_bind trivial fun entropy _ => Method.sat_call_bind trivial fun receivedAt _ => ?_
  refine Method.sat_call_bind trivial fun answer _ => ?_
  refine Method.sat_ofExcept_bind (fun inserted same => ?_) fun _ _ => Told.error
  subst same
  cases inserted with
  | duplicate =>
    exact Method.sat_modify_bind (Method.Sat.pure ⟨_, [], rfl, (List.append_nil _).symm, .duplicate rfl rfl⟩)
  | inserted id =>
    have status : (newEvent deps route routeId raw eventId eventType entropy receivedAt).status =
        if isFiltered route eventType then .droppedByFilter else .pending := rfl
    dsimp only
    split
    · rename_i filtered
      rw [if_pos filtered] at status
      refine Method.sat_modify_bind (Method.sat_modify_bind (Method.Sat.pure ⟨_, [], ?_,
        (List.append_nil _).symm, .filtered rfl status rfl⟩))
      exact List.append_assoc _ _ _
    · rename_i kept
      rw [if_neg kept] at status
      refine Method.sat_modify_bind (Method.sat_modify_bind (Method.sat_modify_bind
        (Method.Sat.pure ⟨_, _, ?_, rfl, .accepted rfl status rfl⟩)))
      exact List.append_assoc _ _ _

theorem verifyAndPersist_tells {route : RouteConfig} (fresh : Fresh calls) :
    (verifyAndPersist deps route routeId raw).Sat (.free Op Op.Answer) calls s (Told s routeId raw) := by
  unfold verifyAndPersist
  cases findAdapter deps.runtime deps.adapters route.source with
  | none => exact Method.Sat.pure (Told.silent .unknownSource fresh trivial)
  | some adapter =>
    refine Method.sat_call_bind trivial fun answer _ => ?_
    have asked := @Fresh.cons _ ⟨.resolveSecret route.auth.secretEnv, answer⟩ fresh (by simp [isInsert])
    refine Method.sat_ofExcept_bind (fun secret same => ?_) fun _ _ => Told.error
    cases secret with
    | none => exact Method.Sat.pure (Told.silent .secretUnavailable asked trivial)
    | some secret =>
      refine Method.sat_call_bind trivial fun now _ => ?_
      have timed := @Fresh.cons _ ⟨.now, now⟩ asked (by simp [isInsert])
      refine Method.sat_ofExcept_bind (fun verdict _ => ?_) fun _ _ => Told.error
      cases verdict with
      | error reason => exact sat_refuse timed (by decide)
      | ok _ =>
        dsimp only
        split
        · exact sat_refuse timed (by decide)
        · exact persist_tells

theorem ingestInner_tells (fresh : Fresh calls) :
    (ingestInner deps routeId raw).Sat (.free Op Op.Answer) calls s (Told s routeId raw) := by
  refine Method.sat_call_bind trivial fun answer _ => ?_
  have routed := @Fresh.cons _ ⟨.getRoute routeId, answer⟩ fresh (by simp [isInsert])
  refine Method.sat_ofExcept_bind (fun route _ => ?_) fun _ _ => Told.error
  cases route with
  | none => exact Method.Sat.pure (Told.silent .unknownRoute routed trivial)
  | some route =>
    refine Method.sat_call_bind trivial fun answer _ => ?_
    have switched := @Fresh.cons _ ⟨.getKillswitch, answer⟩ routed (by simp [isInsert])
    refine Method.sat_ofExcept_bind (fun killswitch _ => ?_) fun _ _ => Told.error
    split
    · exact sat_refuse switched (by decide)
    · split
      · exact sat_refuse switched (by decide)
      · split
        · exact sat_refuse switched (by decide)
        · exact verifyAndPersist_tells switched

/-- Whatever the world answers, a request that is answered tells what it answers,
and one that is not tells nothing. -/
theorem request_tells (deps : IngestDeps) (routeId : String) (raw : RawRequest) (s : State) :
    (ingestWebhook deps routeId raw).Sat (.free Op Op.Answer) [] s (Told s routeId raw) := by
  refine Method.Sat.tryCatch _ (ingestInner_tells fun x member => absurd member List.not_mem_nil)
    (fun _ _ _ told => told) fun calls s' err told => ?_
  obtain ⟨hooks, signals, hooks_, signals_, rfl, rfl⟩ := told
  have same : s'.hooks = s.hooks ∧ s'.signals = s.signals :=
    ⟨hooks_.trans (List.append_nil _), signals_.trans (List.append_nil _)⟩
  unfold answerFailure
  split
  · rename_i message op
    exact Method.sat_modify_bind (Method.Sat.pure
      ⟨[.error .ingestPersist (.store message op) (some op) (some routeId)], [],
        congrArg (· ++ _) same.1, signals_, .failed⟩)
  · rename_i message op
    exact Method.sat_modify_bind (Method.Sat.pure
      ⟨[.error .ingestPersist (.storeUnavailable message op) (some op) (some routeId)], [],
        congrArg (· ++ _) same.1, signals_, .unavailable⟩)
  · exact Method.Sat.throw ⟨[], [], hooks_, signals_, rfl, rfl⟩

end

end Ingest

end EndCloseRelay
