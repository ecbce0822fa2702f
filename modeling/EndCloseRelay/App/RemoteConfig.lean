import EndCloseRelay.App.ConfigStore
import EndCloseRelay.Forward.Client

/-!
# Configuration owned by End Close

`engine/remote-config.ts` as far as one fetch goes, and `config/remote.ts`: one
check, what it keeps in `kv` beside the configuration, and what the manager
makes of its result.  A check stops at the first write that fails, so a process
that stops before a write leaves what that write failing would leave.
-/

namespace EndCloseRelay.App

open Interaction

/-! ## One fetch -/

/-- `RemoteConfigErrorKind`. -/
inductive RemoteConfigErrorKind
  | unavailable
  | unauthorized
  | notFound
  | invalid
deriving DecidableEq

/-- `RemoteConfigError`. -/
structure RemoteConfigError where
  kind : RemoteConfigErrorKind
  message : String
deriving DecidableEq

/-- `retryable`. -/
def RemoteConfigError.retryable (error : RemoteConfigError) : Bool := error.kind = .unavailable

/-- An answer to `GET /relays/config`; `etag` is `res.headers.get('etag')`. -/
structure ConfigAnswer where
  http : HttpAnswer Json
  etag : Option String := none

/-- What `getRelayConfig` resolves to. -/
inductive RelayConfigReply
  | document (body : Json) (etag : Option String)
  | unchanged

/-- The body of a success as `getRelayConfig` reads it. -/
def readDocument (status : Nat) (text : String) (body : Except String Json) :
    Except RelayError Json :=
  if text = "" then .ok .null
  else
    let message := "HTTP " ++ toString status ++ " with a non-JSON body"
    body.mapError fun _ => .permanentHttp message status (Js.sliceTo text 500)

/-- `getRelayConfig(opts)`, given what came back. -/
def getRelayConfig (etag : Option String) (answer : ConfigAnswer) :
    Except RelayError RelayConfigReply :=
  match answer.http with
  | .networkError message => .error (.transientHttp ("network error: " ++ message) none)
  | .bodyError message => .error (.other message)
  | .response status text body =>
    if status = 304 ∧ etag.any (· != "") then .ok .unchanged
    else do
      assertOk status text
      let body ← readDocument status text body
      return .document body (answer.etag.filter (· != ""))

/-- `RemoteConfig`, as far as the application reads it. -/
structure RemoteConfig where
  routes : List RouteConfig
  document : Json
  environment : Option String
  etag : Option String

/-- The message of what `parseRoutes` threw, but for the issues of a `ZodError`. -/
def routesErrorText : RoutesError → String
  | .issues => ""
  | .error message => message

/-- What a failed request means for who owns the configuration. -/
def refusal : RelayError → RemoteConfigError
  | .permanentHttp message status _ =>
    if status = 404 then
      { kind := .notFound, message := "End Close is not managing this environment's configuration" }
    else if status = 401 ∨ status = 403 then
      { kind := .unauthorized
        message := "End Close rejected the API key (HTTP " ++ toString status ++ ")" }
    else { kind := .invalid, message := "unexpected response from End Close: " ++ message }
  | error => { kind := .unavailable, message := "End Close is unreachable: " ++ error.message }

/-- The routes document of a body: its `routes`, and its `environment` if that is a text. -/
def routesDocument : Json → Option (Json × Option String)
  | .obj entries => (entries.lookup "routes").map fun routes =>
    (.obj [("routes", routes)],
      match entries.lookup "environment" with
      | some (.str environment) => some environment
      | _ => none)
  | _ => none

/-- `fetchRemoteConfig(client, { ifNoneMatch, ...opts })`, given what came back; `none` is a 304. -/
def fetchRemoteConfig (ifNoneMatch : Option String) (answer : ConfigAnswer)
    (opts : ParseRoutesOptions := {}) : Except RemoteConfigError (Option RemoteConfig) :=
  match getRelayConfig ifNoneMatch answer with
  | .error error => .error (refusal error)
  | .ok .unchanged => .ok none
  | .ok (.document body etag) =>
    match routesDocument body with
    | none => .error
      { kind := .invalid, message := "End Close configuration response carries no routes document" }
    | some (document, environment) =>
      match parseRoutes document opts with
      | .error error => .error
        { kind := .invalid
          message := "End Close configuration is not a valid routes document: " ++ routesErrorText error }
      | .ok routes => .ok (some { routes, document, environment, etag })

/-- Only the answer to a conditional request is a 304. -/
theorem sent_of_unchanged {etag : Option String} {answer : ConfigAnswer} {opts : ParseRoutesOptions}
    (fetched : fetchRemoteConfig etag answer opts = .ok none) : etag ≠ none := by
  rintro rfl
  unfold fetchRemoteConfig at fetched
  cases reply : getRelayConfig none answer with
  | error error =>
    rw [reply] at fetched
    cases fetched
  | ok reply' =>
    cases reply' with
    | unchanged =>
      unfold getRelayConfig at reply
      cases http : answer.http with
      | networkError message =>
        rw [http] at reply
        cases reply
      | bodyError message =>
        rw [http] at reply
        cases reply
      | response status text body =>
        rw [http] at reply
        simp only [Option.any_none, Bool.false_eq_true, and_false, if_false] at reply
        cases ok : assertOk status text with
        | error e =>
          rw [ok] at reply
          cases reply
        | ok _ =>
          rw [ok] at reply
          cases read : readDocument status text body with
          | error e =>
            simp only [bind, Except.bind, read] at reply
            cases reply
          | ok v =>
            simp only [bind, Except.bind, read] at reply
            cases reply
    | document body header =>
      rw [reply] at fetched
      simp only at fetched
      split at fetched
      · cases fetched
      · split at fetched <;> cases fetched

/-- The routes of a document that was fetched are what `parseRoutes` makes of it. -/
theorem parsed_of_fetched {ifNoneMatch : Option String} {answer : ConfigAnswer}
    {opts : ParseRoutesOptions} {config : RemoteConfig}
    (fetched : fetchRemoteConfig ifNoneMatch answer opts = .ok (some config)) :
    parseRoutes config.document opts = .ok config.routes := by
  unfold fetchRemoteConfig at fetched
  split at fetched
  · cases fetched
  · cases fetched
  · split at fetched
    · cases fetched
    · split at fetched
      · cases fetched
      · rename_i accepted
        obtain rfl := Option.some.inj (Except.ok.inj fetched)
        exact accepted

/-! ## One check -/

/-- `REMOTE_ACTOR`. -/
def remoteActor : String := "endclose"

/-- `ETAG_KEY`. -/
def etagKey : String := "remote_config.etag"

/-- `HASH_KEY`: the hash of the configuration the ETag describes. -/
def hashKey : String := "remote_config.hash"

/-- `ENVIRONMENT_KEY`. -/
def environmentKey : String := "remote_config.environment"

/-- The message of an error of the application, but for what the driver says. -/
def AppError.text : AppError → String
  | .sqlite => ""
  | .yaml message => message
  | .routes error => routesErrorText error
  | .secretUnavailable ref => "missing required secret env var: " ++ ref

/-- `RemoteCheck`; `loaded` of a 304 is `stored!`. -/
inductive RemoteCheck
  | managed (loaded : Option LoadedConfig) (changed : Bool) (environment : Option String)
  | unmanaged
  | disabled (reason : String)
  | failed (error : String) (retryable : Bool)

/-- `RemoteCheckOptions`; `client` and `baseUrl` say where the answers come from. -/
structure RemoteCheckOptions where
  apiKey : String
  enabled : Bool
  secrets : SecretResolver

/-- `remoteConfigToYaml(config)`. -/
def remoteConfigToYaml (rt : ConfigRuntime) (document : Json) : String :=
  "# Configuration managed by End Close (GET /relays/config).\n" ++
    "# Edit it in End Close; changes reach this relay within a minute. The local editor\n" ++
    "# is locked while End Close manages this environment.\n" ++ rt.stringifyYaml document

/-- `wasManagedByEndClose(db)`. -/
def wasManagedByEndClose (rt : ConfigRuntime) (db : Db) : Bool :=
  (getActiveConfig rt db).any fun stored => KvRepo.get db hashKey == some stored.hash

/-- What fails on the database during the second half of a check. -/
structure Faults where
  /-- The statement of `saveConfig` that fails. -/
  save : Option Nat := none
  /-- The keys whose row cannot be read or written. -/
  kv : List String := []

/-- `kv.get(key)`, `none` for an empty text too, as its callers take it. -/
def kvGet (faults : Faults) (key : String) : Script (Option String) :=
  if key ∈ faults.kv then throw .sqlite
  else query fun db => (KvRepo.get db key).filter (· != "")

/-- `kv.set(key, value)`. -/
def kvSet (faults : Faults) (key value : String) : Script Unit :=
  if key ∈ faults.kv then throw .sqlite else update (KvRepo.set key value)

/-- `kv.delete(key)`. -/
def kvDelete (faults : Faults) (key : String) : Script Unit :=
  if key ∈ faults.kv then throw .sqlite else update (KvRepo.delete key)

/-- A check whose request is on its way: what was stored, and the `If-None-Match` sent. -/
structure Pending where
  stored : Option LoadedConfig
  etag : Option String

/-- `checkEndCloseInner` up to the request. -/
def beginCheck (rt : ConfigRuntime) : Script Pending := do
  let stored ← query (getActiveConfig rt)
  match stored with
  | none => return { stored, etag := none }
  | some loaded =>
    let hash ← query fun db => KvRepo.get db hashKey
    if hash = some loaded.hash then
      let etag ← query fun db => KvRepo.get db etagKey
      return { stored, etag := etag.filter (· != "") }
    else return { stored, etag := none }

/-- What is kept of a document that was stored. -/
def keepRemote (faults : Faults) (config : RemoteConfig) (loaded : LoadedConfig) : Script Unit := do
  match config.etag with
  | some etag =>
    kvSet faults etagKey etag
    kvSet faults hashKey loaded.hash
  | none =>
    kvDelete faults etagKey
    kvDelete faults hashKey
  match config.environment.filter (· != "") with
  | some environment => kvSet faults environmentKey environment
  | none => kvDelete faults environmentKey

/-- `checkEndCloseInner` from the answer on. -/
def endCheck (rt : ConfigRuntime) (secrets : SecretResolver) (now : Int) (faults : Faults)
    (pending : Pending) (answer : ConfigAnswer) : Script RemoteCheck := do
  match fetchRemoteConfig pending.etag answer with
  | .error error =>
    if error.kind = .notFound then
      kvDelete faults etagKey
      kvDelete faults hashKey
      kvDelete faults environmentKey
      return .unmanaged
    else return .failed error.message error.retryable
  | .ok none =>
    let environment ← kvGet faults environmentKey
    return .managed pending.stored false environment
  | .ok (some config) =>
    let saved ← Sql.attempt (Sql.within faults.save
      (saveConfig rt (remoteConfigToYaml rt config.document) remoteActor secrets now))
    match saved with
    | .error error =>
      let text := "configuration from End Close could not be applied: " ++ error.text
      return .failed text error.isStoreError
    | .ok loaded =>
      keepRemote faults config loaded
      return .managed (some loaded) (pending.stored.map (·.hash) != some loaded.hash)
        config.environment

/-- `checkEndClose`: an error of the store is a failed check. -/
def caught (outcome : Except AppError RemoteCheck) : RemoteCheck :=
  match outcome with
  | .ok result => result
  | .error error => .failed ("local store error: " ++ error.text) true

/-! ## The manager -/

/-- The states of `RemoteConfigStatus`. -/
inductive RemoteState
  | managed
  | unmanaged
  | disabled
  | failed
  | unknown
deriving DecidableEq

/-- `RemoteConfigStatus`. -/
structure RemoteConfigStatus where
  state : RemoteState := .unknown
  managed : Bool
  environment : Option String
  error : Option String := none
  retrying : Bool := false
  lastCheckedAt : Option Int := none
  lastConfirmedAt : Option Int := none
deriving DecidableEq

/-- Whether there is anything to ask, and with what. -/
def RemoteCheckOptions.asks (opts : RemoteCheckOptions) : Bool := opts.enabled && opts.apiKey != ""

/-- The constructor of `RemoteConfigManager`. -/
def RemoteConfigStatus.new (rt : ConfigRuntime) (opts : RemoteCheckOptions) (db : Db) :
    RemoteConfigStatus :=
  let managed := opts.asks && wasManagedByEndClose rt db
  { managed, environment := if managed then KvRepo.get db environmentKey else none }

/-- `record(result)`. -/
def RemoteConfigStatus.record (status : RemoteConfigStatus) (now : Int) :
    RemoteCheck → RemoteConfigStatus
  | .managed _ _ environment =>
    { state := .managed, managed := true, environment := environment.or status.environment
      lastCheckedAt := some now, lastConfirmedAt := some now }
  | .unmanaged =>
    { state := .unmanaged, managed := false, environment := none
      lastCheckedAt := some now, lastConfirmedAt := some now }
  | .disabled _ =>
    { state := .disabled, managed := false, environment := none, lastCheckedAt := some now }
  | .failed error retryable =>
    { status with state := .failed, error := some error, retrying := retryable
                  lastCheckedAt := some now }

end EndCloseRelay.App
