import EndCloseRelay.App.AuditLaw
import EndCloseRelay.Scanning.Base64

/-!
# The gate of the admin plane

A request is counted by the rate limiter as it arrives, its body is read, and then
two hooks look at it before a handler runs: one at its credentials, one at whether
a page of another site made it.  Seen from the network the plane is the plane of
the requests they all let through.
-/

namespace EndCloseRelay.App

open Interaction Js

/-! ## Requests -/

/-- A request as it comes from the network, with the fields of its body the
handlers read. -/
structure HttpRequest where
  method : String
  url : String
  /-- `request.ip`. -/
  client : String := ""
  /-- The framework reads the body: it is within `bodyLimit`, of a type it knows
  and well formed. -/
  readable : Bool := true
  authorization : Option String := none
  secFetchSite : Option String := none
  state : Option Killswitch := none
  paused : Option Bool := none
  yaml : Option String := none

/-- `Buffer.from(bytes).toString('base64')`. -/
def toBase64 (bytes : Bytes) : String := String.ofList (Scanning.Base64.encode bytes)

/-- The `authorization` header of credentials, `user:password`. -/
def basicHeader (credentials : String) : String := "Basic " ++ toBase64 (utf8 credentials)

/-- The header a request presents is the expected one, byte by byte. -/
def authenticated (basicAuth : String) (r : HttpRequest) : Bool :=
  let presented := utf8 (r.authorization.getD "")
  let expected := utf8 (basicHeader basicAuth)
  presented.length == expected.length && presented == expected

/-- The `preHandler` hook that asks for credentials, except for liveness. -/
def requireCredentials (basicAuth : String) (r : HttpRequest) : Option AdminReply :=
  if r.url == "/healthz" || authenticated basicAuth r then none
  else some (errorReply 401 "unauthorized")

/-- The request only reads, as far as HTTP goes. -/
def HttpRequest.isRead (r : HttpRequest) : Bool := r.method == "GET" || r.method == "HEAD"

/-- `sec-fetch-site` names another site. -/
def HttpRequest.crossSite (r : HttpRequest) : Bool :=
  (r.secFetchSite.filter (· ≠ "")).any fun site => site != "same-origin" && site != "none"

/-- The `preHandler` hook that refuses mutations from other sites. -/
def refuseCrossSite (r : HttpRequest) : Option AdminReply :=
  if !r.isRead && r.crossSite then some (errorReply 403 "cross-site request refused") else none

/-- The hooks, one after the other: the reply of the first that sends one. -/
def preHandlers (basicAuth : String) (r : HttpRequest) : Option AdminReply :=
  (requireCredentials basicAuth r).or (refuseCrossSite r)

/-! ## Routes -/

/-- How the framework reads a parameter of a path, and `Number` of one; which
requests a route is declared for. -/
structure PathParams where
  decode : String → String
  number : String → IdParam
  declared : HttpRequest → Bool

/-- The segments of the path of a URL. -/
def pathSegments (url : String) : List String :=
  (split (String.ofList (url.toList.takeWhile (· != '?'))) '/').drop 1

/-- The route a request takes, of those that act on the relay or show a payload;
`HEAD` takes the route of `GET`. -/
def routeOf (params : PathParams) (r : HttpRequest) : Option AdminRequest :=
  match r.method, pathSegments r.url with
  | "POST", ["killswitch"] => some (.killswitch r.state)
  | "POST", ["routes", id, "pause"] => some (.pause (params.decode id) r.paused)
  | "GET", ["events", id, "payload"] | "HEAD", ["events", id, "payload"] =>
    some (.payload (params.number (params.decode id)))
  | "POST", ["events", "replay-parked"] => some .replayParked
  | "POST", ["events", id, "replay"] => some (.replay (params.number (params.decode id)))
  | "POST", ["config"] => some (.config r.yaml)
  | _, _ => none

/-- The request a handler is run for, once its body is read and the hooks have let
it through. -/
def admitted (basicAuth : String) (params : PathParams) (r : HttpRequest) : Option AdminRequest :=
  if !r.readable then none
  else match preHandlers basicAuth r with
  | some _ => none
  | none => routeOf params r

/-! ## The plane as the network sees it -/

/-- The plug-in that limits the rate of a client: whether it lets one more request
through, and what it counts from then on. -/
structure RateLimiter (Hits : Type) where
  init : Hits
  hit : Hits → (client : String) → (now : Int) → Bool × Hits

/-- The `onRequest` hook of the plug-in.  It is attached to the routes, and its
`allowList` leaves liveness out. -/
def onRequest {Hits : Type} (limiter : RateLimiter Hits) (params : PathParams) (hits : Hits) (now : Int)
    (r : HttpRequest) : Bool × Hits :=
  if r.url == "/healthz" || !((routeOf params r).isSome || params.declared r) then (true, hits)
  else limiter.hit hits r.client now

/-- A request arrives; the body of one of those let in has come and it is answered;
or the dispatcher, the ingest path and retention have changed the events. -/
inductive NetworkAction
  | arrives (now : Int) (r : HttpRequest)
  | answers (world : AdminWorld) (i : Nat)
  | others (events : Events)

/-- The plane behind its limiter: the requests let in that are not answered yet. -/
structure NetworkSystem (Hits : Type) where
  admin : AdminSystem
  hits : Hits
  waiting : List HttpRequest := []

variable {Hits : Type}

/-- A request whose body has come: what the framework, the hooks and a handler make of it. -/
def answerRequest (deps : AdminDeps) (basicAuth : String) (params : PathParams) (world : AdminWorld)
    (r : HttpRequest) (s : AdminSystem) : AdminSystem :=
  if !r.readable then s
  else match preHandlers basicAuth r with
    | some _ => s
    | none =>
      match routeOf params r with
      | none => s
      | some request =>
        { db := (serve deps world request s.db).2
          history := recordOf deps world request s.db :: s.history }

/-- One step of the plane. -/
def networkStep (deps : AdminDeps) (basicAuth : String) (params : PathParams) (limiter : RateLimiter Hits)
    (s : NetworkSystem Hits) : NetworkAction → NetworkSystem Hits
  | .arrives now r =>
    let (within, hits) := onRequest limiter params s.hits now r
    { s with hits, waiting := if within then s.waiting ++ [r] else s.waiting }
  | .answers world i =>
    match s.waiting[i]? with
    | none => s
    | some r =>
      { s with
        waiting := s.waiting.eraseIdx i
        admin := answerRequest deps basicAuth params world r s.admin }
  | .others events => { s with admin := { s.admin with db := { s.admin.db with events } } }

/-- The admin plane with its limiter and its hooks. -/
def networkMachine (deps : AdminDeps) (basicAuth : String) (params : PathParams)
    (limiter : RateLimiter Hits) (db : AdminDb) : Machine (NetworkSystem Hits) NetworkAction where
  init := { admin := { db }, hits := limiter.init }
  step := networkStep deps basicAuth params limiter

/-- What the handlers get of a run, from what the limiter counts and lets in on. -/
def letThrough (basicAuth : String) (params : PathParams) (limiter : RateLimiter Hits) :
    Hits → List HttpRequest → List NetworkAction → List AdminAction
  | _, _, [] => []
  | hits, waiting, .arrives now r :: rest =>
    letThrough basicAuth params limiter (onRequest limiter params hits now r).2
      (if (onRequest limiter params hits now r).1 then waiting ++ [r] else waiting) rest
  | hits, waiting, .answers world i :: rest =>
    ((waiting[i]?.bind (admitted basicAuth params)).map (.request world)).toList ++
      letThrough basicAuth params limiter hits (waiting.eraseIdx i) rest
  | hits, waiting, .others events :: rest =>
    .others events :: letThrough basicAuth params limiter hits waiting rest

section

variable {basicAuth : String} {params : PathParams} {r : HttpRequest}

theorem basicHeader_injective : Function.Injective basicHeader := by
  intro credentials credentials' same
  have digits : toBase64 (utf8 credentials) = toBase64 (utf8 credentials') :=
    (String.append_right_inj _).mp same
  exact utf8_injective (Scanning.Base64.encode_injective (String.ofList_injective digits))

theorem authenticated_iff :
    authenticated basicAuth r = true ↔ r.authorization = some (basicHeader basicAuth) := by
  have filled : basicHeader basicAuth ≠ "" := by
    intro empty
    have letters := congrArg String.toList empty
    simp [basicHeader] at letters
  unfold authenticated
  rw [Bool.and_eq_true, beq_iff_eq, beq_iff_eq]
  constructor
  · intro ⟨_, same⟩
    cases presented : r.authorization with
    | none =>
      rw [presented] at same
      exact absurd (utf8_injective same).symm filled
    | some header =>
      rw [presented] at same
      exact congrArg some (utf8_injective same)
  · intro presented
    rw [presented]
    exact ⟨rfl, rfl⟩

/-- A route that acts is not that of liveness. -/
theorem url_of_routeOf {request : AdminRequest} (routed : routeOf params r = some request) :
    r.url ≠ "/healthz" := by
  intro liveness
  have segments : pathSegments r.url = ["healthz"] := by
    rw [liveness]
    decide
  unfold routeOf at routed
  rw [segments] at routed
  split at routed
  all_goals first
    | (rename_i shape; exact absurd (List.cons.inj shape).1 (by decide))
    | cases routed

/-- Whom the gate lets through to a handler. -/
theorem admitted_iff {request : AdminRequest} :
    admitted basicAuth params r = some request ↔ r.readable ∧
      r.authorization = some (basicHeader basicAuth) ∧ (r.isRead ∨ r.crossSite = false) ∧
        routeOf params r = some request := by
  unfold admitted preHandlers
  constructor
  · intro through
    split at through
    · cases through
    rename_i readable
    refine ⟨by simpa using readable, ?_⟩
    split at through
    · cases through
    · rename_i passed
      obtain ⟨credentials, site⟩ := Option.or_eq_none_iff.mp passed
      have other := url_of_routeOf through
      refine ⟨?_, ?_, through⟩
      · unfold requireCredentials at credentials
        split at credentials
        · rename_i known
          rw [Bool.or_eq_true, beq_iff_eq, authenticated_iff] at known
          exact known.resolve_left other
        · cases credentials
      · unfold refuseCrossSite at site
        split at site
        · cases site
        · rename_i fine
          rw [Bool.and_eq_true, Bool.not_eq_true', not_and_or, Bool.not_eq_false, Bool.not_eq_true] at fine
          exact fine
  · rintro ⟨readable, presented, fine, routed⟩
    have credentials : requireCredentials basicAuth r = none := by
      unfold requireCredentials
      rw [authenticated_iff.mpr presented, Bool.or_true, if_pos rfl]
    have site : refuseCrossSite r = none := by
      unfold refuseCrossSite
      rcases fine with read | same
      · rw [read]
        rfl
      · rw [same, Bool.and_false]
        rfl
    rw [readable, credentials, site]
    exact routed

/-- A request is answered as the handlers answer what is admitted of it. -/
theorem answerRequest_eq (deps : AdminDeps) (world : AdminWorld) (s : AdminSystem) (db : AdminDb) :
    answerRequest deps basicAuth params world r s =
      (((admitted basicAuth params r).map (.request world)).toList : List AdminAction).foldl
        (adminMachine deps db).step s := by
  unfold answerRequest admitted
  cases r.readable with
  | false => rfl
  | true =>
    cases preHandlers basicAuth r with
    | some reply => rfl
    | none =>
      cases routeOf params r with
      | none => rfl
      | some request => rfl

/-- A run of the plane is a run of its handlers on what is let through. -/
theorem foldl_networkStep (deps : AdminDeps) (limiter : RateLimiter Hits) (db : AdminDb)
    (actions : List NetworkAction) (s : NetworkSystem Hits) :
    (actions.foldl (networkStep deps basicAuth params limiter) s).admin =
      (letThrough basicAuth params limiter s.hits s.waiting actions).foldl (adminMachine deps db).step
        s.admin := by
  induction actions generalizing s with
  | nil => rfl
  | cons a actions ih =>
    rw [List.foldl_cons, ih]
    cases a with
    | arrives now r => rfl
    | others events => rfl
    | answers world i =>
      rw [letThrough, List.foldl_append]
      unfold networkStep
      dsimp only
      cases there : s.waiting[i]? with
      | none => rw [List.eraseIdx_of_length_le (List.getElem?_eq_none_iff.mp there)]; rfl
      | some r => rw [Option.bind_some, ← answerRequest_eq]

/-- A request the handlers get has arrived, within the limit of its client, and is admitted. -/
theorem arrived_of_letThrough (limiter : RateLimiter Hits) {hits : Hits} {waiting : List HttpRequest}
    {actions : List NetworkAction} {world : AdminWorld} {request : AdminRequest}
    (served : .request world request ∈ letThrough basicAuth params limiter hits waiting actions) :
    ∃ r, (r ∈ waiting ∨ ∃ now hits', .arrives now r ∈ actions ∧
        (onRequest limiter params hits' now r).1 = true) ∧
      admitted basicAuth params r = some request := by
  induction actions generalizing hits waiting with
  | nil => cases served
  | cons a actions ih =>
    cases a with
    | others events =>
      rcases List.mem_cons.mp served with other | later
      · cases other
      · obtain ⟨r, came, through⟩ := ih later
        refine ⟨r, came.imp_right ?_, through⟩
        exact fun ⟨now, hits', member, within⟩ => ⟨now, hits', List.mem_cons_of_mem _ member, within⟩
    | answers world' i =>
      rcases List.mem_append.mp served with now | later
      · obtain ⟨admits, found, same⟩ := Option.map_eq_some_iff.mp (Option.mem_toList.mp now)
        obtain ⟨r, there, through⟩ := Option.bind_eq_some_iff.mp found
        obtain ⟨-, rfl⟩ := AdminAction.request.inj same
        exact ⟨r, .inl (List.mem_of_getElem? there), through⟩
      · obtain ⟨r, came, through⟩ := ih later
        refine ⟨r, came.imp List.mem_of_mem_eraseIdx ?_, through⟩
        exact fun ⟨now, hits', member, within⟩ => ⟨now, hits', List.mem_cons_of_mem _ member, within⟩
    | arrives now r' =>
      obtain ⟨r, came, through⟩ := ih served
      refine ⟨r, ?_, through⟩
      rcases came with waits | ⟨now', hits', member, within⟩
      · split at waits
        · rename_i within
          rcases List.mem_append.mp waits with before | new
          · exact .inl before
          · rw [List.mem_singleton.mp new]
            exact .inr ⟨now, hits, List.mem_cons_self, within⟩
        · exact .inl waits
      · exact .inr ⟨now', hits', List.mem_cons_of_mem _ member, within⟩

/-- A request that does not present the credentials is not let through. -/
theorem admitted_of_stranger (stranger : r.authorization ≠ some (basicHeader basicAuth)) :
    admitted basicAuth params r = none := by
  cases through : admitted basicAuth params r with
  | none => rfl
  | some request => exact absurd (admitted_iff.mp through).2.1 stranger

/-- A run in which no request that arrives presents the credentials leaves the
application's tables as they were, and shows nothing. -/
theorem app_of_strangers (deps : AdminDeps) (limiter : RateLimiter Hits) (db : AdminDb)
    {actions : List NetworkAction}
    (strangers : ∀ now r, .arrives now r ∈ actions → r.authorization ≠ some (basicHeader basicAuth)) :
    ((networkMachine deps basicAuth params limiter db).run actions).admin.db.app = db.app ∧
      ((networkMachine deps basicAuth params limiter db).run actions).admin.history = [] := by
  have unserved : ∀ world request,
      .request world request ∉ letThrough basicAuth params limiter limiter.init [] actions := by
    intro world request served
    obtain ⟨r, waits | ⟨now, hits, member, -⟩, through⟩ := arrived_of_letThrough limiter served
    · cases waits
    · rw [admitted_of_stranger (strangers now r member)] at through
      cases through
  rw [show ((networkMachine deps basicAuth params limiter db).run actions).admin = _ from
    foldl_networkStep deps limiter db actions _]
  refine Machine.listed_invariant (M := adminMachine deps db)
    (fun s : AdminSystem => s.db.app = db.app ∧ s.history = [])
    (fun a => ∀ world request, a ≠ .request world request) ⟨rfl, rfl⟩ ?_
    fun a member world request same => unserved world request (same ▸ member)
  intro s a kept other
  cases a with
  | others events => exact kept
  | request world request => exact absurd rfl (other world request)

end

/-- Seen from the network, in every run, the admin plane does what its handlers do
with the requests that the limiter lets in, whose body is read, that present
exactly the header of its credentials and are reads or not of another site; no
other credentials have that header.  Without such a request nothing of the
application's changes. -/
theorem plane_guarded (deps : AdminDeps) (basicAuth : String) (params : PathParams)
    (limiter : RateLimiter Hits) (db : AdminDb) (actions : List NetworkAction) :
    ((networkMachine deps basicAuth params limiter db).run actions).admin =
      (adminMachine deps db).run (letThrough basicAuth params limiter limiter.init [] actions) ∧
    (∀ world request, .request world request ∈ letThrough basicAuth params limiter limiter.init [] actions →
      ∃ now r hits, .arrives now r ∈ actions ∧ (onRequest limiter params hits now r).1 = true ∧
        admitted basicAuth params r = some request) ∧
    (∀ r request, admitted basicAuth params r = some request ↔ r.readable ∧
      r.authorization = some (basicHeader basicAuth) ∧ (r.isRead ∨ r.crossSite = false) ∧
        routeOf params r = some request) ∧
    (∀ credentials, basicHeader credentials = basicHeader basicAuth ↔ credentials = basicAuth) ∧
    ((∀ now r, .arrives now r ∈ actions → r.authorization ≠ some (basicHeader basicAuth)) →
      ((networkMachine deps basicAuth params limiter db).run actions).admin.db.app = db.app ∧
        ((networkMachine deps basicAuth params limiter db).run actions).admin.history = []) := by
  refine ⟨foldl_networkStep deps limiter db actions _, fun world request served => ?_,
    fun _ _ => admitted_iff, fun _ => basicHeader_injective.eq_iff, app_of_strangers deps limiter db⟩
  obtain ⟨r, waits | ⟨now, hits, member, within⟩, through⟩ := arrived_of_letThrough limiter served
  · cases waits
  · exact ⟨now, r, hits, member, within, through⟩

end EndCloseRelay.App
