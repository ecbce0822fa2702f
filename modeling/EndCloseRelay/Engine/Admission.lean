import EndCloseRelay.Engine.Acknowledgement
import EndCloseRelay.Engine.MemoryRecords
import EndCloseRelay.Engine.System

/-!
# What lets a webhook in, and what answers it

`ingestWebhook` over any store: it answers, and its answer tells whether a row
is stored, for exactly the requests that do not lead the built-in adapter of
their route to a member of `Object.prototype`.
-/

namespace EndCloseRelay.Ingest

open Interaction

/-! ## Letting a webhook in -/

/-- The row is that of a webhook the relay was not too panicked, too full or too
suspicious to take. -/
def Admitted (deps : IngestDeps) (calls : Calls) (routeId : String) (raw : RawRequest)
    (e : NewEvent) : Prop :=
  ∃ route killswitch adapter secret now body eventId eventType entropy receivedAt,
    (⟨.getRoute routeId, .ok (some route)⟩ : Exchange Op.Answer) ∈ calls ∧
    ((⟨.getKillswitch, .ok killswitch⟩ : Exchange Op.Answer) ∈ calls ∧ killswitch ≠ .panic) ∧
    (1 ≤ raw.body.length ∧ raw.body.length ≤ route.maxBodyBytes) ∧
    findAdapter deps.runtime deps.adapters route.source = some adapter ∧
    (⟨.resolveSecret route.auth.secretEnv, .ok (some secret)⟩ : Exchange Op.Answer) ∈ calls ∧
    adapter.verify now raw route secret = .ok (.ok ()) ∧
    deps.runtime.jsonParse raw.body = .ok body ∧
    adapter.extractEventId body raw route = .ok eventId ∧
    adapter.extractEventType body raw route = .ok eventType ∧
    (⟨.entropy, entropy⟩ : Exchange Op.Answer) ∈ calls ∧
    e = newEvent deps route routeId raw eventId eventType entropy receivedAt

/-- No row was stored. -/
def Unstored (calls : Calls) : Prop :=
  ∀ e stored, (⟨.insert e, .ok stored⟩ : Exchange Op.Answer) ∉ calls

theorem Unstored.cons {calls : Calls} {x : Exchange Op.Answer} (unstored : Unstored calls)
    (plain : ∀ e stored, x ≠ ⟨.insert e, .ok stored⟩) : Unstored (x :: calls) := by
  intro e stored member
  rcases List.mem_cons.mp member with same | member
  · exact plain e stored same.symm
  · exact unstored e stored member

/-- What the providers of a request answer: the route or none, a secret or none, a
member of `Object.prototype` only of its name, and where a store fails, a store error. -/
def Answers (route : RouteConfig) : (op : Op) → op.Answer → Prop
  | .getRoute _, .ok found => ∀ r, found = some r → r = route
  | .getRoute _, .error err | .getKillswitch, .error err | .insert _, .error err => err.storeOp.isSome
  | .resolveSecret ref, answer => ∃ secret, answer = .ok secret ∧
      (secret = some .inherited → (Json.prototypeMember ref).isSome)
  | .getKillswitch, .ok _ | .insert _, .ok _ | .now, _ | .entropy, _ => True

/-- A request hands over rows of admitted webhooks, where its providers answer so. -/
def admission (deps : IngestDeps) (route : RouteConfig) (routeId : String) (raw : RawRequest) :
    Discipline Op Op.Answer where
  allowed calls op := ∀ e, op = .insert e → Admitted deps calls routeId raw e
  admits _ op answer := Answers route op answer

/-! ## What a request trips over -/

/-- The route's source has a built-in adapter, and the host does not replace it. -/
inductive Builtin (deps : IngestDeps) (route : RouteConfig) : Prop
  | payabli (source : route.source = "payabli")
      (found : findAdapter deps.runtime deps.adapters route.source =
        some (Payabli.adapter deps.runtime.toRuntime))
  | genericHmac (source : route.source = "generic_hmac")
      (found : findAdapter deps.runtime deps.adapters route.source =
        some (GenericHmac.adapter deps.runtime))

/-- The built-in adapter may come to use a member of `Object.prototype` as a text. -/
inductive Trips (rt : IngestRuntime) (route : RouteConfig) (raw : RawRequest) : Prop
  /-- The header of a Payabli route is not sent, and named as such a member. -/
  | payabliHeader {auth} (source : route.source = "payabli") (mode : route.auth = .staticHeader auth)
      (open_ : (!auth.allowedIps.isEmpty && !auth.allowedIps.contains raw.remoteIp) = false)
      (inherited : headerValue rt.toRuntime raw.headers auth.header = some .inherited)
  /-- The header of a Payabli route is sent, and its secret named as such a member. -/
  | payabliSecret {auth presented} (source : route.source = "payabli")
      (mode : route.auth = .staticHeader auth)
      (open_ : (!auth.allowedIps.isEmpty && !auth.allowedIps.contains raw.remoteIp) = false)
      (sent : headerValue rt.toRuntime raw.headers auth.header = some (.text presented))
      (some_ : presented ≠ "") (inherited : (Json.prototypeMember route.auth.secretEnv).isSome)
  /-- The `Event` of an authenticated Payabli webhook is the name of such a member. -/
  | payabliEvent {auth presented body eventType} (source : route.source = "payabli")
      (mode : route.auth = .staticHeader auth)
      (open_ : (!auth.allowedIps.isEmpty && !auth.allowedIps.contains raw.remoteIp) = false)
      (sent : headerValue rt.toRuntime raw.headers auth.header = some (.text presented))
      (some_ : presented ≠ "") (parsed : rt.jsonParse raw.body = .ok body)
      (event : getAtPath body "Event" = some (.str eventType))
      (unlisted : Payabli.eventIdPaths.lookup eventType = none)
      (inherited : (Json.prototypeMember eventType).isSome)
  /-- The signature header of a generic route is not sent, and named as such a member. -/
  | hmacHeader {auth now content} (source : route.source = "generic_hmac")
      (mode : route.auth = .hmac auth)
      (signed : GenericHmac.signedContent rt now raw auth = .ok content)
      (inherited : headerValue rt.toRuntime raw.headers auth.header = some .inherited)
  /-- The signature header of a generic route is sent, and its secret named as such a member. -/
  | hmacSecret {auth now content presented} (source : route.source = "generic_hmac")
      (mode : route.auth = .hmac auth)
      (signed : GenericHmac.signedContent rt now raw auth = .ok content)
      (sent : headerValue rt.toRuntime raw.headers auth.header = some (.text presented))
      (some_ : presented ≠ "") (inherited : (Json.prototypeMember route.auth.secretEnv).isSome)

section

variable {deps : IngestDeps} {route : RouteConfig} {raw : RawRequest} {adapter : ProcessorAdapter}

/-- Verification throws for no request that does not trip. -/
theorem verify_returns (builtin : Builtin deps route) (upright : ¬ Trips deps.runtime route raw)
    (found : findAdapter deps.runtime deps.adapters route.source = some adapter) (now : Int)
    {secret : Secret} (named : secret = .inherited → (Json.prototypeMember route.auth.secretEnv).isSome) :
    ∃ verdict, adapter.verify now raw route secret = .ok verdict := by
  cases builtin with
  | payabli source found' =>
    obtain rfl := Option.some.inj (found'.symm.trans found)
    show ∃ verdict, Payabli.verify deps.runtime.toRuntime raw route secret = .ok verdict
    unfold Payabli.verify
    split
    · exact ⟨_, rfl⟩
    · rename_i auth mode
      split
      · exact ⟨_, rfl⟩
      · rename_i open_
        split
        · rename_i inherited
          exact absurd (.payabliHeader source mode (Bool.eq_false_iff.mpr open_) inherited) upright
        · exact ⟨_, rfl⟩
        · exact ⟨_, rfl⟩
        · rename_i presented some_ sent
          split
          · exact absurd (.payabliSecret source mode (Bool.eq_false_iff.mpr open_) sent some_ (named rfl))
              upright
          · split
            · exact ⟨_, rfl⟩
            · exact ⟨_, rfl⟩
  | genericHmac source found' =>
    obtain rfl := Option.some.inj (found'.symm.trans found)
    show ∃ verdict, GenericHmac.verify deps.runtime now raw route secret = .ok verdict
    unfold GenericHmac.verify
    split
    · exact ⟨_, rfl⟩
    · rename_i auth mode
      split
      · exact ⟨_, rfl⟩
      · rename_i content signed
        split
        · exact ⟨_, rfl⟩
        · exact ⟨_, rfl⟩
        · rename_i read some_ sent
          cases read with
          | inherited => exact absurd (.hmacHeader source mode signed sent) upright
          | text presented =>
            exact absurd (.hmacSecret source mode signed sent (fun empty => some_ (by rw [empty])) (named rfl))
              upright
        · rename_i inherited
          exact absurd (.hmacHeader source mode signed inherited) upright
        · exact ⟨_, (apply_ite Except.ok _ _ _).symm⟩

/-- Nor does taking the id of an authenticated webhook. -/
theorem extractEventId_returns (builtin : Builtin deps route)
    (upright : ¬ Trips deps.runtime route raw)
    (found : findAdapter deps.runtime deps.adapters route.source = some adapter) {now : Int}
    {secret : Secret} (verified : adapter.verify now raw route secret = .ok (.ok ())) {body : Json}
    (parsed : deps.runtime.jsonParse raw.body = .ok body) :
    ∃ eventId, adapter.extractEventId body raw route = .ok eventId := by
  cases builtin with
  | payabli source found' =>
    obtain rfl := Option.some.inj (found'.symm.trans found)
    show ∃ eventId, Payabli.extractEventId deps.runtime.toRuntime body raw = .ok eventId
    change Payabli.verify deps.runtime.toRuntime raw route secret = .ok (.ok ()) at verified
    unfold Payabli.verify at verified
    unfold Payabli.extractEventId
    split at verified
    · cases verified
    · rename_i auth mode
      split at verified
      · cases verified
      · rename_i open_
        split at verified
        · cases verified
        · cases verified
        · cases verified
        · rename_i presented some_ sent
          split
          · rename_i eventType event
            split
            · split
              · split
                · exact ⟨_, rfl⟩
                · exact ⟨_, rfl⟩
              · exact ⟨_, rfl⟩
            · rename_i unlisted
              split
              · rename_i inherited
                exact absurd (.payabliEvent source mode (Bool.eq_false_iff.mpr open_) sent
                  some_ parsed event unlisted inherited) upright
              · exact ⟨_, rfl⟩
          · exact ⟨_, rfl⟩
  | genericHmac source found' =>
    obtain rfl := Option.some.inj (found'.symm.trans found)
    exact ⟨_, rfl⟩

theorem extractEventType_returns (builtin : Builtin deps route)
    (found : findAdapter deps.runtime deps.adapters route.source = some adapter) (body : Json) :
    ∃ eventType, adapter.extractEventType body raw route = .ok eventType := by
  cases builtin with
  | payabli source found' =>
    obtain rfl := Option.some.inj (found'.symm.trans found)
    exact ⟨_, rfl⟩
  | genericHmac source found' =>
    obtain rfl := Option.some.inj (found'.symm.trans found)
    exact ⟨_, rfl⟩

end

/-! ## A request of an upright sender -/

/-- What a request ends with: an answer that is 200 where a row is stored or known,
or a store error. -/
abbrev Honest : Method.Post Op.Answer State RelayError IngestResult := fun calls _ r =>
  match r with
  | .ok result =>
    (result.status = 200 ∧ ∃ e stored, (⟨.insert e, .ok stored⟩ : Exchange Op.Answer) ∈ calls) ∨
      (result.status ≠ 200 ∧ Unstored calls)
  | .error err => err.storeOp.isSome ∧ Unstored calls

section

variable {deps : IngestDeps} {route : RouteConfig} {routeId : String} {raw : RawRequest}
  {calls : Calls} {s : State}

theorem Honest.refuse {status : Nat} {text : String} {outcome : IngestResultOutcome}
    (refused : status ≠ 200) (unstored : Unstored calls) :
    Honest calls s (.ok (Ingest.refuse status text outcome)) := .inr ⟨refused, unstored⟩

theorem Unstored.plain {op : Op} {answer : op.Answer} (unstored : Unstored calls)
    (plain : ∀ e, op ≠ .insert e) : Unstored (⟨op, answer⟩ :: calls) :=
  unstored.cons fun e _ same => plain e (congrArg Sigma.fst same)

theorem admission_ask_bind {β : Type} {op : Op} {f : op.Answer → Body β}
    {post : Method.Post Op.Answer State RelayError β} (plain : ∀ e, op ≠ .insert e)
    (onward : ∀ answer, Answers route op answer →
      (f answer).Sat (admission deps route routeId raw) (⟨op, answer⟩ :: calls) s post) :
    (ask op >>= f).Sat (admission deps route routeId raw) calls s post :=
  Method.sat_call_bind (fun e same => absurd same (plain e)) onward

theorem persist_honest {adapter : ProcessorAdapter} {secret : Secret} {now : Int} {body : Json}
    {killswitch : Killswitch} (unstored : Unstored calls) (builtin : Builtin deps route)
    (upright : ¬ Trips deps.runtime route raw)
    (given : (⟨.getRoute routeId, .ok (some route)⟩ : Exchange Op.Answer) ∈ calls)
    (calm : (⟨.getKillswitch, .ok killswitch⟩ : Exchange Op.Answer) ∈ calls ∧ killswitch ≠ .panic)
    (sized : 1 ≤ raw.body.length ∧ raw.body.length ≤ route.maxBodyBytes)
    (found : findAdapter deps.runtime deps.adapters route.source = some adapter)
    (resolved : (⟨.resolveSecret route.auth.secretEnv, .ok (some secret)⟩ :
      Exchange Op.Answer) ∈ calls)
    (verified : adapter.verify now raw route secret = .ok (.ok ()))
    (parsed : deps.runtime.jsonParse raw.body = .ok body) :
    (persist deps route routeId raw adapter body).Sat (admission deps route routeId raw) calls s
      Honest := by
  obtain ⟨eventId, extracted⟩ := extractEventId_returns builtin upright found verified parsed
  obtain ⟨eventType, typed⟩ := extractEventType_returns builtin found body
  unfold persist
  rw [extracted, typed]
  refine admission_ask_bind (by simp) fun entropy _ => admission_ask_bind (by simp) fun receivedAt _ => ?_
  have drawn : calls ⊆ ⟨.now, receivedAt⟩ :: ⟨.entropy, entropy⟩ :: calls :=
    List.subset_cons_of_subset _ (List.subset_cons_self _ _)
  refine Method.sat_call_bind (fun e same => ?_) fun inserted answers => ?_
  · obtain rfl := Op.insert.inj same
    exact ⟨route, killswitch, adapter, secret, now, body, eventId, eventType, entropy, receivedAt,
      drawn given, ⟨drawn calm.1, calm.2⟩, sized, found, drawn resolved, verified, parsed, extracted, typed,
      List.mem_cons_of_mem _ List.mem_cons_self, rfl⟩
  · refine Method.sat_ofExcept_bind (fun outcome answered => ?_) (fun err failed => ?_)
    · subst answered
      cases outcome with
      | duplicate =>
        refine Method.sat_modify_bind (Method.Sat.pure (.inl ⟨rfl, ?_⟩))
        exact ⟨_, _, List.mem_cons_self⟩
      | inserted id =>
        simp only []
        split
        · refine Method.sat_modify_bind (Method.sat_modify_bind (Method.Sat.pure (.inl ⟨rfl, ?_⟩)))
          exact ⟨_, _, List.mem_cons_self⟩
        · refine Method.sat_modify_bind (Method.sat_modify_bind (Method.sat_modify_bind
            (Method.Sat.pure (.inl ⟨rfl, ?_⟩))))
          exact ⟨_, _, List.mem_cons_self⟩
    · subst failed
      refine ⟨answers, ((unstored.plain (by simp)).plain (by simp)).cons ?_⟩
      intro e stored same
      cases eq_of_heq (Sigma.mk.inj same).2

theorem verifyAndPersist_honest {killswitch : Killswitch} (unstored : Unstored calls)
    (builtin : Builtin deps route) (upright : ¬ Trips deps.runtime route raw)
    (given : (⟨.getRoute routeId, .ok (some route)⟩ : Exchange Op.Answer) ∈ calls)
    (calm : (⟨.getKillswitch, .ok killswitch⟩ : Exchange Op.Answer) ∈ calls ∧ killswitch ≠ .panic)
    (sized : 1 ≤ raw.body.length ∧ raw.body.length ≤ route.maxBodyBytes) :
    (verifyAndPersist deps route routeId raw).Sat (admission deps route routeId raw) calls s
      Honest := by
  unfold verifyAndPersist
  cases found : findAdapter deps.runtime deps.adapters route.source with
  | none => exact Method.Sat.pure (Honest.refuse (by decide) unstored)
  | some adapter =>
    refine admission_ask_bind (by simp) fun answer answers => ?_
    obtain ⟨secret, rfl, inherited⟩ := answers
    cases secret with
    | none => exact Method.Sat.pure (Honest.refuse (by decide) (unstored.plain (by simp)))
    | some secret =>
      refine admission_ask_bind (by simp) fun now _ => ?_
      have unstored' : Unstored
          (⟨.now, now⟩ :: ⟨.resolveSecret route.auth.secretEnv, .ok (some secret)⟩ :: calls) :=
        (unstored.plain (by simp)).plain (by simp)
      refine Method.sat_ofExcept_bind (fun verdict verified => ?_) (fun err thrown => ?_)
      · cases verdict with
        | error reason =>
          exact Method.sat_modify_bind (Method.Sat.pure (Honest.refuse (by decide) unstored'))
        | ok _ =>
          cases parsed : deps.runtime.jsonParse raw.body with
          | error message =>
            exact Method.sat_modify_bind (Method.Sat.pure (Honest.refuse (by decide) unstored'))
          | ok body =>
            have drawn : calls ⊆
                ⟨.now, now⟩ :: ⟨.resolveSecret route.auth.secretEnv, .ok (some secret)⟩ :: calls :=
              List.subset_cons_of_subset _ (List.subset_cons_self _ _)
            exact persist_honest unstored' builtin upright (drawn given) ⟨drawn calm.1, calm.2⟩ sized found
              (List.mem_cons_of_mem _ List.mem_cons_self) verified parsed
      · obtain ⟨verdict, verified⟩ := verify_returns builtin upright found now
          fun same => inherited (congrArg some same)
        rw [verified] at thrown
        cases thrown

theorem ingestInner_honest (builtin : Builtin deps route)
    (upright : 1 ≤ raw.body.length → raw.body.length ≤ route.maxBodyBytes →
      ¬ Trips deps.runtime route raw) :
    (ingestInner deps routeId raw).Sat (admission deps route routeId raw) [] s Honest := by
  have unstored : Unstored [] := fun e stored member => by cases member
  unfold ingestInner
  refine admission_ask_bind (by simp) fun answer answers => ?_
  refine Method.sat_ofExcept_bind (fun found given => ?_) (fun err failed => ?_)
  · subst given
    have unstored' : Unstored [(⟨.getRoute routeId, .ok found⟩ : Exchange Op.Answer)] :=
      unstored.plain (by simp)
    cases found with
    | none => exact Method.Sat.pure (Honest.refuse (by decide) unstored')
    | some given =>
      obtain rfl : given = route := answers given rfl
      refine admission_ask_bind (by simp) fun answer answers' => ?_
      refine Method.sat_ofExcept_bind (fun killswitch read => ?_) (fun err failed => ?_)
      · subst read
        have unstored'' : Unstored [(⟨.getKillswitch, .ok killswitch⟩ : Exchange Op.Answer),
            ⟨.getRoute routeId, .ok (some given)⟩] := unstored'.plain (by simp)
        split
        · exact Method.sat_modify_bind (Method.Sat.pure (Honest.refuse (by decide) unstored''))
        · rename_i calm
          split
          · exact Method.sat_modify_bind (Method.Sat.pure (Honest.refuse (by decide) unstored''))
          · rename_i some_
            split
            · exact Method.sat_modify_bind (Method.Sat.pure (Honest.refuse (by decide) unstored''))
            · rename_i fits
              have sized : 1 ≤ raw.body.length ∧ raw.body.length ≤ given.maxBodyBytes := by
                rw [List.isEmpty_iff] at some_
                exact ⟨List.length_pos_iff.mpr some_, Nat.le_of_not_lt fits⟩
              exact verifyAndPersist_honest unstored'' builtin (upright sized.1 sized.2)
                (List.mem_cons_of_mem _ List.mem_cons_self) ⟨List.mem_cons_self, calm⟩ sized
      · subst failed
        exact ⟨answers', unstored'.plain (by simp)⟩
  · subst failed
    exact ⟨answers, unstored.plain (by simp)⟩

/-- A request that does not trip ends with an answer. -/
theorem ingestWebhook_honest (builtin : Builtin deps route)
    (upright : 1 ≤ raw.body.length → raw.body.length ≤ route.maxBodyBytes →
      ¬ Trips deps.runtime route raw) :
    (ingestWebhook deps routeId raw).Sat (admission deps route routeId raw) [] s fun calls s r =>
      (∃ result, r = .ok result) ∧ Honest calls s r := by
  refine Method.Sat.tryCatch _ (ingestInner_honest builtin upright)
    (fun _ _ result honest => ⟨⟨result, rfl⟩, honest⟩) (fun calls s err failed => ?_)
  obtain ⟨stored, unstored⟩ := failed
  cases err with
  | store message op =>
    exact Method.sat_modify_bind (Method.Sat.pure ⟨⟨_, rfl⟩, Honest.refuse (by decide) unstored⟩)
  | storeUnavailable message op =>
    exact Method.sat_modify_bind (Method.Sat.pure ⟨⟨_, rfl⟩, Honest.refuse (by decide) unstored⟩)
  | _ => cases stored

end

/-! ## Requests in a world -/

/-- What surrounds a request: what its providers answer, and where its store has a
choice.  An insert that fails has not happened. -/
structure Host (S : RecordStore) where
  answer : Calls → (op : Op) → op.Answer
  choice : Calls → S.Choice

namespace Host

variable {S : RecordStore} (host : Host S)

/-- The world of a request. -/
def world : Program.World Op.Answer S.State
  | calls, s, .insert e =>
    match host.answer calls (.insert e) with
    | .ok _ => (.ok (S.apply (host.choice calls) s (.insert e)).1,
        (S.apply (host.choice calls) s (.insert e)).2)
    | .error err => (.error err, s)
  | calls, s, op => (host.answer calls op, s)

/-- The providers return, or throw a store error, and know one route. -/
def Behaves (route : RouteConfig) : Prop := ∀ calls op, Answers route op (host.answer calls op)

/-- The request, from a state of the store. -/
def serve (deps : IngestDeps) (routeId : String) (raw : RawRequest) (s : S.State) :
    (Except RelayError IngestResult × State) × Calls × S.State :=
  ((ingestWebhook deps routeId raw).start {}).exec host.world [] s

/-- The request is answered: 200 where a row of its key is stored, the store as it
was otherwise, and a row was handed over for an admitted webhook only. -/
def Answered (deps : IngestDeps) (routeId : String) (raw : RawRequest) (s : S.State) : Prop :=
  (∃ result, (host.serve deps routeId raw s).1.1 = .ok result ∧
    (result.status ≠ 200 → (host.serve deps routeId raw s).2.2 = s) ∧
    (result.status = 200 → ∃ e stored,
      (⟨.insert e, .ok stored⟩ : Exchange Op.Answer) ∈ (host.serve deps routeId raw s).2.1 ∧
        e.idempotencyKey ∈
          (S.records (host.serve deps routeId raw s).2.2).map fun r => r.idempotencyKey)) ∧
  ∀ later e answer earlier,
    (host.serve deps routeId raw s).2.1 =
      later ++ (⟨.insert e, answer⟩ : Exchange Op.Answer) :: earlier →
    Admitted deps earlier routeId raw e

/-- What the exchanges so far say of the store. -/
structure Stands (deps : IngestDeps) (routeId : String) (raw : RawRequest) (s₀ : S.State)
    (calls : Calls) (s : S.State) : Prop where
  sound : S.Sound s
  untouched : Unstored calls → s = s₀
  keyed : ∀ e stored, (⟨.insert e, .ok stored⟩ : Exchange Op.Answer) ∈ calls →
    e.idempotencyKey ∈ (S.records s).map fun r => r.idempotencyKey
  admitted : ∀ later e answer earlier,
    calls = later ++ (⟨.insert e, answer⟩ : Exchange Op.Answer) :: earlier →
    Admitted deps earlier routeId raw e

variable {host} {deps : IngestDeps} {route : RouteConfig} {routeId : String} {raw : RawRequest}
  {s₀ s : S.State} {calls : Calls}

theorem Stands.cons {op : Op} {answer : op.Answer} {s' : S.State}
    (stands : Stands deps routeId raw s₀ calls s) (sound : S.Sound s')
    (untouched : Unstored (⟨op, answer⟩ :: calls) → s' = s)
    (old : ∀ e stored, (⟨.insert e, .ok stored⟩ : Exchange Op.Answer) ∈ calls → s' = s)
    (new : ∀ e stored, (⟨op, answer⟩ : Exchange Op.Answer) = ⟨.insert e, .ok stored⟩ →
      e.idempotencyKey ∈ (S.records s').map fun r => r.idempotencyKey)
    (allowed : ∀ e, op = .insert e → Admitted deps calls routeId raw e) :
    Stands deps routeId raw s₀ (⟨op, answer⟩ :: calls) s' where
  sound := sound
  untouched none_ := by
    rw [untouched none_]
    exact stands.untouched fun e stored member => none_ e stored (List.mem_cons_of_mem _ member)
  keyed e stored member := by
    rcases List.mem_cons.mp member with same | member
    · exact new e stored same.symm
    · rw [old e stored member]
      exact stands.keyed e stored member
  admitted later e answer' earlier split := by
    cases later with
    | nil =>
      obtain ⟨same, rfl⟩ := List.cons.inj split
      exact allowed e (congrArg Sigma.fst same)
    | cons x later => exact stands.admitted later e answer' earlier (List.cons.inj split).2

/-- One exchange: a row is stored where an insert returns, and only there. -/
theorem Stands.step {op : Op} (behaves : host.Behaves route)
    (stands : Stands deps routeId raw s₀ calls s)
    (allowed : ((admission deps route routeId raw).both (protocol deps routeId raw)).allowed calls op) :
    ((admission deps route routeId raw).both (protocol deps routeId raw)).admits calls op
        (host.world calls s op).1 ∧
      Stands deps routeId raw s₀ (⟨op, (host.world calls s op).1⟩ :: calls) (host.world calls s op).2 := by
  have answers := behaves calls op
  cases op with
  | insert e =>
    have first := (allowed.2 e rfl).2
    have none_ : ∀ e stored, (⟨.insert e, .ok stored⟩ : Exchange Op.Answer) ∉ calls :=
      fun e stored member => first _ member rfl
    unfold world
    simp only []
    split
    · refine ⟨⟨trivial, trivial⟩, stands.cons (S.sound_apply _ _ _ stands.sound) ?_ ?_ ?_ allowed.1⟩
      · intro unstored
        exact absurd List.mem_cons_self (unstored e _)
      · exact fun e stored member => absurd member (none_ e stored)
      · intro e' stored same
        obtain rfl := Op.insert.inj (congrArg Sigma.fst same)
        exact S.known _ _ _ stands.sound
    · rename_i err failed
      rw [failed] at answers
      refine ⟨⟨answers, trivial⟩, stands.cons stands.sound (fun _ => rfl) (fun _ _ _ => rfl) ?_ allowed.1⟩
      intro e' stored same
      cases eq_of_heq (Sigma.mk.inj same).2
  | _ =>
    refine ⟨⟨answers, trivial⟩, stands.cons stands.sound (fun _ => rfl) (fun _ _ _ => rfl) ?_ allowed.1⟩
    intro e stored same
    cases congrArg Sigma.fst same

/-- A request that does not trip is answered, whatever its providers do. -/
theorem answered_of_upright (behaves : host.Behaves route) (builtin : Builtin deps route)
    (upright : 1 ≤ raw.body.length → raw.body.length ≤ route.maxBodyBytes →
      ¬ Trips deps.runtime route raw) (sound : S.Sound s) : host.Answered deps routeId raw s := by
  have start : Stands deps routeId raw s [] s :=
    { sound
      untouched := fun _ => rfl
      keyed := fun e stored member => by cases member
      admitted := fun later e answer earlier split => by cases later <;> cases split }
  have sat := Program.Sat.both (ingestWebhook_honest (s := {}) builtin upright)
    (ingestWebhook_sat deps routeId raw {})
  obtain ⟨⟨⟨⟨result, returned⟩, honest⟩, -⟩, stands⟩ := Program.Sat.exec host.world
    (Stands deps routeId raw s) sat start fun _ _ _ stands allowed => stands.step behaves allowed
  refine ⟨⟨result, returned, ?_, ?_⟩, stands.admitted⟩
  · intro refused
    rw [returned] at honest
    rcases honest with ⟨accepted, -⟩ | ⟨-, unstored⟩
    · exact absurd accepted refused
    · exact stands.untouched unstored
  · intro accepted
    rw [returned] at honest
    rcases honest with ⟨-, e, stored, member⟩ | ⟨refused, -⟩
    · exact ⟨e, stored, member, stands.keyed e stored member⟩
    · exact absurd accepted refused

end Host

/-! ## Requests that trip -/

section

variable {deps : IngestDeps} {route : RouteConfig} {routeId : String} {raw : RawRequest}

/-- Where the adapter throws: at the verification of some secret at some time, or on
the body of a webhook it verified. -/
theorem Trips.throws (trips : Trips deps.runtime route raw) (builtin : Builtin deps route) :
    ∃ adapter secret now, findAdapter deps.runtime deps.adapters route.source = some adapter ∧
      (secret = .inherited → (Json.prototypeMember route.auth.secretEnv).isSome) ∧
      ((∃ message, adapter.verify now raw route secret = .error (.other message)) ∨
        adapter.verify now raw route secret = .ok (.ok ()) ∧ ∃ body message,
          deps.runtime.jsonParse raw.body = .ok body ∧
            adapter.extractEventId body raw route = .error (.other message)) := by
  cases trips with
  | @payabliHeader auth source mode open_ inherited =>
    cases builtin with
    | genericHmac source' _ =>
      rw [source] at source'
      exact absurd source' (by decide)
    | payabli _ found =>
      refine ⟨_, .text "", 0, found, (fun same => by cases same),
        .inl ⟨"The first argument must be of type string or an instance of Buffer", ?_⟩⟩
      show Payabli.verify deps.runtime.toRuntime raw route (.text "") = _
      unfold Payabli.verify
      rw [mode]
      simp only []
      rw [if_neg (by rw [open_]; exact Bool.false_ne_true), inherited]
  | @payabliSecret auth presented source mode open_ sent some_ inherited =>
    cases builtin with
    | genericHmac source' _ =>
      rw [source] at source'
      exact absurd source' (by decide)
    | payabli _ found =>
      refine ⟨_, .inherited, 0, found, (fun _ => inherited),
        .inl ⟨"The first argument must be of type string or an instance of Buffer", ?_⟩⟩
      show Payabli.verify deps.runtime.toRuntime raw route .inherited = _
      unfold Payabli.verify
      rw [mode]
      simp only []
      rw [if_neg (by rw [open_]; exact Bool.false_ne_true), sent]
      simp only []
  | @payabliEvent auth presented body eventType source mode open_ sent some_ parsed event unlisted
      inherited =>
    cases builtin with
    | genericHmac source' _ =>
      rw [source] at source'
      exact absurd source' (by decide)
    | payabli _ found =>
      refine ⟨_, .text presented, 0, found, (fun same => by cases same),
        .inr ⟨?_, body, "path.split is not a function", parsed, ?_⟩⟩
      · show Payabli.verify deps.runtime.toRuntime raw route (.text presented) = _
        unfold Payabli.verify
        rw [mode]
        simp only []
        rw [if_neg (by rw [open_]; exact Bool.false_ne_true), sent]
        simp only [if_pos]
      · show Payabli.extractEventId deps.runtime.toRuntime body raw = _
        unfold Payabli.extractEventId
        rw [event]
        simp only []
        rw [unlisted]
        simp only []
        rw [if_pos inherited]
  | @hmacHeader auth now content source mode signed inherited =>
    cases builtin with
    | payabli source' _ =>
      rw [source] at source'
      exact absurd source' (by decide)
    | genericHmac _ found =>
      refine ⟨_, .text "", now, found, (fun same => by cases same),
        .inl ⟨"presented.includes is not a function", ?_⟩⟩
      show GenericHmac.verify deps.runtime now raw route (.text "") = _
      unfold GenericHmac.verify
      rw [mode]
      simp only []
      rw [signed]
      simp only []
      rw [inherited]
  | @hmacSecret auth now content presented source mode signed sent some_ inherited =>
    cases builtin with
    | payabli source' _ =>
      rw [source] at source'
      exact absurd source' (by decide)
    | genericHmac _ found =>
      refine ⟨_, .inherited, now, found, (fun _ => inherited),
        .inl ⟨"The \"key\" argument must be of type string or an instance of Buffer", ?_⟩⟩
      show GenericHmac.verify deps.runtime now raw route .inherited = _
      unfold GenericHmac.verify
      rw [mode]
      simp only []
      rw [signed]
      simp only []
      rw [sent]
      simp [some_]

/-- A host that knows the route, its secret and the time, and is not in panic. -/
def Host.plain (S : RecordStore) [Inhabited S.Choice] (route : RouteConfig) (secret : Secret) (now : Int) :
    Host S where
  answer
    | _, .getRoute _ => .ok (some route)
    | _, .getKillswitch => .ok .none
    | _, .resolveSecret ref => .ok (if ref = route.auth.secretEnv then some secret else none)
    | _, .now => now
    | _, .entropy => []
    | _, .insert _ => .ok .duplicate
  choice _ := default

theorem Host.plain_behaves (S : RecordStore) [Inhabited S.Choice] {route : RouteConfig} {secret : Secret}
    (named : secret = .inherited → (Json.prototypeMember route.auth.secretEnv).isSome) (now : Int) :
    (Host.plain S route secret now).Behaves route := by
  intro calls op
  cases op with
  | getRoute routeId => exact fun r same => (Option.some.inj same).symm
  | resolveSecret ref =>
    refine ⟨_, rfl, fun same => ?_⟩
    by_cases own : ref = route.auth.secretEnv
    · rw [if_pos own] at same
      rw [own]
      exact named (Option.some.inj same)
    · rw [if_neg own] at same
      cases same
  | _ => trivial

/-- To call such a host, and be told what it tells. -/
def Host.told {S : RecordStore} (host : Host S) : Discipline Op Op.Answer where
  allowed _ _ := True
  admits calls op answer := (∀ e, op ≠ .insert e) → answer = host.answer calls op

/-- Where the adapter throws, so does the request. -/
theorem Trips.rejects (S : RecordStore) [Inhabited S.Choice] (routeId : String)
    (trips : Trips deps.runtime route raw)
    (builtin : Builtin deps route) (some_ : 1 ≤ raw.body.length)
    (fits : raw.body.length ≤ route.maxBodyBytes) :
    ∃ secret now, (Host.plain S route secret now).Behaves route ∧
      (ingestWebhook deps routeId raw).Sat (Host.plain S route secret now).told [] {}
        fun _ _ r => ∃ message, r = .error (.other message) := by
  obtain ⟨adapter, secret, now, found, named, throws⟩ := trips.throws builtin
  refine ⟨secret, now, Host.plain_behaves S named now, Method.Sat.tryCatch
    (fun _ _ r => ∃ message, r = .error (.other message)) ?_ ?_ ?_⟩
  · unfold ingestInner
    refine Method.sat_call_bind trivial fun answer told => ?_
    obtain rfl : answer = .ok (some route) := told (by simp)
    refine Method.sat_call_bind trivial fun answer told => ?_
    obtain rfl : answer = .ok .none := told (by simp)
    refine Method.sat_ofExcept_bind (fun killswitch read => ?_) (fun err failed => by cases failed)
    obtain rfl := Except.ok.inj read
    rw [if_neg (by decide), if_neg (by rw [List.isEmpty_iff, ← List.length_eq_zero_iff]; omega),
      if_neg (Nat.not_lt.mpr fits)]
    unfold verifyAndPersist
    rw [found]
    refine Method.sat_call_bind trivial fun answer told => ?_
    obtain rfl : answer = .ok (some secret) := (told (by simp)).trans (congrArg Except.ok (if_pos rfl))
    refine Method.sat_call_bind trivial fun answer told => ?_
    obtain rfl : answer = now := told (by simp)
    refine Method.sat_ofExcept_bind (fun verdict verified => ?_) (fun err thrown => ?_)
    · rcases throws with ⟨message, thrown⟩ | ⟨accepted, body, message, parsed, thrown⟩
      · rw [thrown] at verified
        cases verified
      · rw [accepted] at verified
        obtain rfl := Except.ok.inj verified
        simp only []
        rw [parsed]
        simp only []
        unfold persist
        rw [thrown]
        exact Method.Sat.throw ⟨message, rfl⟩
    · rcases throws with ⟨message, thrown'⟩ | ⟨accepted, -⟩
      · rw [thrown'] at thrown
        exact ⟨message, congrArg Except.error (Except.error.inj thrown).symm⟩
      · rw [accepted] at thrown
        cases thrown
  · rintro calls s result ⟨message, same⟩
    cases same
  · rintro calls s err ⟨message, same⟩
    obtain rfl := Except.error.inj same
    exact Method.Sat.throw ⟨message, rfl⟩

/-- For a route with a built-in adapter, every request is answered, and answered
honestly, whatever its providers do, exactly where its body is of no admissible
length or it does not lead the adapter to a member of `Object.prototype`. -/
theorem ingest_answers_iff (S : RecordStore) [Inhabited S.Choice] (builtin : Builtin deps route)
    (s : S.State) (sound : S.Sound s) :
    (∀ host : Host S, host.Behaves route → host.Answered deps routeId raw s) ↔
      ¬ (1 ≤ raw.body.length ∧ raw.body.length ≤ route.maxBodyBytes ∧
        Trips deps.runtime route raw) := by
  constructor
  · rintro answered ⟨some_, fits, trips⟩
    obtain ⟨secret, now, behaves, rejects⟩ := Trips.rejects S routeId trips builtin some_ fits
    obtain ⟨⟨result, returned, -⟩, -⟩ := answered _ behaves
    obtain ⟨message, thrown⟩ := (Program.Sat.exec (Host.plain S route secret now).world
      (fun _ _ => True) rejects (w := s) trivial fun calls s op _ _ =>
        ⟨fun plain => by cases op <;> first | rfl | exact absurd rfl (plain _), trivial⟩).1
    have same : (Except.ok result : Except RelayError IngestResult) = .error (.other message) :=
      returned.symm.trans thrown
    cases same
  · intro upright host behaves
    exact Host.answered_of_upright behaves builtin (fun some_ fits trips => upright ⟨some_, fits, trips⟩)
      sound

end

/-! ## Examples -/

/-- A relay whose platform knows `[1]` as the text of a payment and `[2]` as that of
an event named `constructor`. -/
def sampleDeps : IngestDeps where
  runtime := .knowing [([1], System.samplePayment), ([2], .obj [("Event", .str "constructor")])]
  codec := plainCodec

instance : Inhabited memoryRecords.Choice := ⟨()⟩

theorem ingest_answers_sample :
    (∀ host : Host memoryRecords, host.Behaves System.sampleRoute →
      host.Answered sampleDeps "payments" System.sampleRequest {}) ↔
      ¬ (1 ≤ System.sampleRequest.body.length ∧
        System.sampleRequest.body.length ≤ System.sampleRoute.maxBodyBytes ∧
          Trips sampleDeps.runtime System.sampleRoute System.sampleRequest) :=
  ingest_answers_iff memoryRecords (.payabli rfl rfl) {} memoryRecords.sound_empty

/-- An authenticated webhook whose event is named `constructor` gets no answer. -/
theorem constructor_unanswered : System.sampleRoute.schemaValid ∧
    (Host.plain memoryRecords System.sampleRoute (.text "secret") 0).Behaves System.sampleRoute ∧
    ¬ (Host.plain memoryRecords System.sampleRoute (.text "secret") 0).Answered sampleDeps "payments"
      { System.sampleRequest with rawBody := some [2] } {} := by
  refine ⟨by decide, Host.plain_behaves _ (fun same => by cases same) _, ?_⟩
  rintro ⟨⟨result, returned, -⟩, -⟩
  have rejected : ((Host.plain memoryRecords System.sampleRoute (.text "secret") 0).serve sampleDeps "payments"
      { System.sampleRequest with rawBody := some [2] } {}).1.1 =
        .error (.other "path.split is not a function") := rfl
  have same := returned.symm.trans rejected
  cases same

end EndCloseRelay.Ingest
