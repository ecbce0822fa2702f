import EndCloseRelay.App.AuditLaw
import EndCloseRelay.App.RemoteRuns
import EndCloseRelay.App.Secrets

/-!
# Starting up

`main()` of `index.ts`: what a boot makes of the environment, of the stored
configuration, of End Close's answer and of the seed file, and what the process
does until the next one.  A process that lacks variables serves the setup page,
one without a configuration that parses serves the admin plane alone, and only
one with such a configuration takes webhooks and forwards.

* `KeptBy`: what nothing that the application writes ends; of the hashes of the
  versions, of a configuration that parses, and of the hold on forwarding.
* `Deployment.boot_ends`, `Deployment.phase_step`: what a boot and the other actions
  make of the process.
* `Deployment.Sound`: a process that runs has a configuration that parses.
* `startup_recovers`: a boot ends with a process that serves something, an apply
  of the setup editor ends the bootstrapping for good, and after a repair
  forwarding is held until an operator resumes it.
-/

namespace EndCloseRelay.App

open Interaction

/-! ## The environment -/

/-- The variable, unless it is empty. -/
def Environment.filled (env : Environment) (name : String) : Option String :=
  (env name).filter (· ≠ "")

/-- `envSecrets(env)`. -/
def envSecrets (env : Environment) : SecretResolver := fun ref =>
  match env ref with
  | some value => if value = "" then none else some (.text value)
  | none => (Json.prototypeMember ref).map fun _ => .inherited

/-- `raw.length`: what lies beyond the basic plane counts twice. -/
def codeUnits (raw : String) : Nat := (raw.toList.map fun c => if c.toNat < 65536 then 1 else 2).sum

/-- `EnvCheck`. -/
structure EnvCheck where
  name : String
  problem : String
deriving DecidableEq

/-- What is the matter with one of the two keys. -/
def checkKey (env : Environment) (name : String) : List EnvCheck :=
  match env.filled name with
  | none => [{ name, problem := "not set" }]
  | some raw => if codeUnits raw < 16 then [{ name, problem := "too short (min 16 chars)" }] else []

/-- What is the matter with the credentials of the admin plane. -/
def checkAdminAuth (env : Environment) : List EnvCheck :=
  match env.filled "ADMIN_BASIC_AUTH" with
  | none => [{ name := "ADMIN_BASIC_AUTH", problem := "not set" }]
  | some raw =>
    if raw.toList.contains ':' then []
    else [{ name := "ADMIN_BASIC_AUTH", problem := "must be user:password" }]

/-- `checkRequiredEnv(env, secretsFileError)`. -/
def checkRequiredEnv (env : Environment) (secretsFileError : Option String) : List EnvCheck :=
  (secretsFileError.filter (· ≠ "")).toList.map (fun problem => { name := "RELAY_SECRETS_FILE", problem }) ++
    checkKey env "RELAY_DATA_KEY" ++ checkKey env "MASKING_HMAC_KEY" ++ checkAdminAuth env

/-- `MIN_KEY_CHARS`. -/
def minKeyChars : Nat := 16

/-- `deriveKey(envName, raw)`; `sha256` is the digest. -/
def deriveKey (sha256 : Bytes → Bytes) (envName : String) (raw : Option String) : Except String Bytes :=
  match raw.filter fun raw => raw ≠ "" ∧ minKeyChars ≤ codeUnits raw with
  | some raw => .ok (sha256 (utf8 raw))
  | none => .error (envName ++ " must be set to at least " ++ toString minKeyChars ++ " characters")

/-- `isOff(raw)`. -/
def isOff (raw : Option String) : Bool :=
  let v := (Js.trim (raw.getD "")).toLower
  v == "off" || v == "0" || v == "false"

/-- `isRemoteConfigEnabled(env)`. -/
def isRemoteConfigEnabled (env : Environment) : Bool := !isOff (env "RELAY_REMOTE_CONFIG")

/-! ## The stored configuration -/

/-- `ActiveConfigState`. -/
inductive ActiveConfigState
  | ok (loaded : LoadedConfig)
  | empty
  | invalid (error : String)

/-- A seed file that exists: its path, and its text or what reading it throws. -/
structure SeedFile where
  path : String
  text : Except String String

/-- The stored configuration where there is none: that of the seed file. -/
def seedConfig (rt : ConfigRuntime) (message : AppError → String) (secrets : SecretResolver) (now : Int) :
    Option SeedFile → Script ActiveConfigState
  | none => return .empty
  | some { path, text := .error unreadable } => return .invalid ("seed file " ++ path ++ ": " ++ unreadable)
  | some { path, text := .ok text } => do
    match ← Sql.attempt (saveConfig rt text "seed" secrets now) with
    | .ok loaded => return .ok loaded
    | .error e => return .invalid ("seed file " ++ path ++ ": " ++ message e)

/-- `resolveActiveConfig(db, seedPath, secrets)`. -/
def resolveActiveConfig (rt : ConfigRuntime) (message : AppError → String) (seed : Option SeedFile)
    (secrets : SecretResolver) (now : Int) : Script ActiveConfigState := do
  match ← query readActiveConfigRaw with
  | none => seedConfig rt message secrets now seed
  | some yamlText =>
    match parseConfig rt yamlText with
    | .ok loaded => return .ok loaded
    | .error e => return .invalid (message e)

/-! ## A boot -/

/-- What a release of the application brings along. -/
structure Build where
  yaml : ConfigRuntime
  runtime : Runtime
  gcm : AesGcm
  sha256 : Bytes → Bytes
  /-- `(err as Error).message`. -/
  message : AppError → String

/-- What a boot meets: the environment and the files, whether the runtime settings
are well formed, the database opens and the ports are free, the statements that
fail, and what End Close answers. -/
structure BootWorld where
  env : Environment
  readFile : String → Except String String
  fileExists : String → Bool
  /-- `loadRuntimeSettings()` returns. -/
  settings : Bool := true
  /-- The database is opened, migrated and read by `RemoteConfigManager`. -/
  opens : Bool := true
  /-- Every server of what the process comes up as binds its port. -/
  listens : Bool := true
  now : Int
  answer : ConfigAnswer
  /-- The failing statement of the first `resolveActiveConfig`. -/
  storedLeft : Option Nat := none
  /-- That of the check up to its request. -/
  askLeft : Option Nat := none
  faults : Faults := {}
  /-- That of the second `resolveActiveConfig`. -/
  seedLeft : Option Nat := none

/-- The seed file `main` names. -/
def BootWorld.seed (world : BootWorld) (env : Environment) : Option SeedFile :=
  let path := (env "RELAY_CONFIG").getD "/etc/endclose-relay/relay.yaml"
  if path ≠ "" ∧ world.fileExists path then some { path, text := world.readFile path } else none

/-- What a process is at. -/
inductive Phase
  /-- There is no process. -/
  | down
  /-- It serves the setup page. -/
  | setup (missing : List EnvCheck)
  /-- It serves the admin plane alone; `restarting` once it is about to exit. -/
  | bootstrap (deps : AdminDeps) (restarting : Bool)
  /-- It takes webhooks and forwards. -/
  | running (deps : AdminDeps)

/-- A deployment: its data volume, and the process beside it.  The database of the
application is the one `relay` has. -/
structure Deployment where
  relay : Relay
  events : Events := .empty
  phase : Phase := .down

/-- The configuration End Close gave, of a check that says it owns it. -/
def RemoteCheck.managed? : RemoteCheck → Option (Option LoadedConfig)
  | .managed loaded _ _ => some loaded
  | _ => none

namespace Relay

/-- `remote.check()` of a boot, from the request to the answer. -/
def check (rt : ConfigRuntime) (s : Relay) (world : BootWorld) : Option (Option LoadedConfig) × Relay :=
  let asked := s.ask rt world.now world.askLeft
  match asked.inFlight with
  | none => (none, asked)
  | some pending =>
    let outcome := ((endCheck rt asked.opts.secrets world.now world.faults pending world.answer).on
      asked.db none).1
    ((caught outcome).managed?, asked.conclude rt pending world.answer world.now world.faults)

end Relay

namespace Deployment

/-- The whole database. -/
def db (s : Deployment) : AdminDb := { app := s.relay.db, events := s.events }

/-- The deployment with another database of the application. -/
def withApp (s : Deployment) (app : Db) : Deployment := { s with relay := { s.relay with db := app } }

/-- What the admin plane is built with. -/
def planeOf (build : Build) (env : Environment) (dataKey : Bytes) (bootstrap configError : Bool) :
    AdminDeps where
  gcm := build.gcm
  dataKey := dataKey
  runtime := build.runtime
  yaml := build.yaml
  secrets := envSecrets env
  bootstrap := bootstrap
  configError := configError
  message := build.message

/-- How `main` goes on from the state of the configuration. -/
def phaseOf (build : Build) (env : Environment) (dataKey : Bytes) : ActiveConfigState → Phase
  | .ok _ => .running (planeOf build env dataKey false false)
  | .empty => .bootstrap (planeOf build env dataKey true false) false
  | .invalid _ => .bootstrap (planeOf build env dataKey true true) false

/-- `main` where End Close does not own the configuration: what is stored, or else the seed. -/
def bootLocal (build : Build) (world : BootWorld) (env : Environment) (dataKey : Bytes)
    (s : Deployment) : ActiveConfigState → Deployment
  | .empty =>
    match (resolveActiveConfig build.yaml build.message (world.seed env) (envSecrets env) world.now).on
        s.relay.db world.seedLeft with
    | (.ok state, app) => { s.withApp app with phase := phaseOf build env dataKey state }
    | (.error _, app) => { s.withApp app with phase := .down }
  | stored => { s with phase := phaseOf build env dataKey stored }

/-- `main` once the database is open. -/
def bootStored (build : Build) (world : BootWorld) (env : Environment) (dataKey : Bytes)
    (s : Deployment) : Deployment :=
  let opts : RemoteCheckOptions :=
    { enabled := isRemoteConfigEnabled env, apiKey := (env "ENDCLOSE_API_KEY").getD ""
      secrets := envSecrets env }
  let relay := s.relay.step build.yaml (.restart opts)
  match (resolveActiveConfig build.yaml build.message none (envSecrets env) world.now).on relay.db
      world.storedLeft with
  | (.error _, _) => { s with relay, phase := .down }
  | (.ok stored, _) =>
    match relay.check build.yaml world with
    | (some (some loaded), relay) => { s with relay, phase := phaseOf build env dataKey (.ok loaded) }
    | (some none, relay) => { s with relay, phase := .down }
    | (none, relay) => { s with relay }.bootLocal build world env dataKey stored

/-- `main()` up to its servers. -/
def comeUp (build : Build) (world : BootWorld) (s : Deployment) : Deployment :=
  let (secretsFile, env) := loadSecretsFile world.readFile world.env
  match checkRequiredEnv env secretsFile.error with
  | first :: missing => { s with phase := .setup (first :: missing) }
  | [] =>
    match deriveKey build.sha256 "RELAY_DATA_KEY" (env "RELAY_DATA_KEY"),
        deriveKey build.sha256 "MASKING_HMAC_KEY" (env "MASKING_HMAC_KEY") with
    | .ok dataKey, .ok _ =>
      if world.settings && world.opens then s.bootStored build world env dataKey
      else { s with phase := .down }
    | _, _ => { s with phase := .down }

/-- `main()`; what it throws ends the process, a port that cannot be bound among it.
What a relay did while its servers were started is a run of one that stopped. -/
def boot (build : Build) (world : BootWorld) (s : Deployment) : Deployment :=
  let s := s.comeUp build world
  if world.listens then s else { s with phase := .down }

/-! ## Between boots -/

/-- The reply of `POST /config` that ends the bootstrapping. -/
def restarts (request : AdminRequest) (reply : Option AdminReply) : Bool :=
  match request, reply with
  | .config _, some reply => reply.status == 200
  | _, _ => false

/-- A request of the admin plane of a process. -/
def request (deps : AdminDeps) (world : AdminWorld) (request : AdminRequest) (s : Deployment) :
    Option AdminReply × Deployment :=
  let (reply, db) := serve deps { world with managed := s.relay.status.managed } request s.db
  (reply, { s.withApp db.app with events := db.events })

/-- End Close answers a poll. -/
def answer (deps : AdminDeps) (pending : Pending) (answer : ConfigAnswer) (now : Int) (faults : Faults)
    (s : Deployment) : Bool × Deployment :=
  let outcome := ((endCheck deps.yaml s.relay.opts.secrets now faults pending answer).on s.relay.db none).1
  ((caught outcome).managed?.isSome,
    { s with relay := s.relay.conclude deps.yaml pending answer now faults })

end Deployment

/-- What can happen to a deployment. -/
inductive StartupAction
  /-- The process is started, after what ran before has gone. -/
  | boot (build : Build) (world : BootWorld)
  | request (world : AdminWorld) (request : AdminRequest)
  /-- A poll of End Close, up to its request, and its answer. -/
  | ask (now : Int) (left : Option Nat)
  | answer (answer : ConfigAnswer) (now : Int) (faults : Faults)
  /-- Webhooks, the dispatcher and retention have changed the events. -/
  | work (events : Events)
  /-- The process ends, in order or not. -/
  | stop

namespace Deployment

/-- One action. -/
def step (s : Deployment) : StartupAction → Deployment
  | .boot build world => s.boot build world
  | .request world r =>
    match s.phase with
    | .bootstrap deps restarting =>
      let (reply, s) := s.request deps world r
      { s with phase := if world.replies then .bootstrap deps (restarting || restarts r reply) else .down }
    | .running deps =>
      let (_, s) := s.request deps world r
      { s with phase := if world.replies then .running deps else .down }
    | _ => s
  | .ask now left =>
    match s.phase with
    | .bootstrap deps false | .running deps =>
      if s.relay.status.state = .disabled then s
      else { s with relay := s.relay.ask deps.yaml now left }
    | _ => s
  | .answer answer now faults =>
    match s.phase, s.relay.inFlight with
    | .bootstrap deps restarting, some pending =>
      let (managed, s) := s.answer deps pending answer now faults
      { s with phase := .bootstrap deps (restarting || managed) }
    | .running deps, some pending => (s.answer deps pending answer now faults).2
    | _, _ => s
  | .work events =>
    match s.phase with
    | .running _ => { s with events }
    | _ => s
  | .stop => { s with phase := .down }

/-- A deployment from an empty volume on. -/
def machine : Machine Deployment StartupAction where
  init :=
    { relay :=
        { db := {}
          opts := { apiKey := "", enabled := false, secrets := fun _ => none }
          status := { managed := false, environment := none } } }
  step := step

end Deployment

/-! ## What is kept by all that writes -/

/-- Nothing that the application writes ends it: no entry of the audit log, no pause
of a route, no mark of a check, no state of the killswitch but `none`, and no save. -/
structure KeptBy (P : Db → Prop) (rt : ConfigRuntime) : Prop where
  log : ∀ (now : Int) (actor action : String) (detail : List (String × Json)) (app : Db),
    P app → P (AuditRepo.log now actor action detail app)
  pause : ∀ (id : String) (paused : Bool) (app : Db), P app → P (KvRepo.setRoutePaused id paused app)
  mark : ∀ key ∈ [etagKey, hashKey, environmentKey], ∀ (value : Option String) (app : Db),
    P app → P (put key value app)
  hold : ∀ (state : Killswitch) (app : Db), state ≠ .none → P app → P (KvRepo.setGlobalKillswitch state app)
  save : ∀ (yamlText appliedBy : String) (loaded : LoadedConfig) (now : Int) (app : Db),
    parseConfig rt yamlText = .ok loaded → P app → P (saved loaded appliedBy now app)

/-- The request lets forwarding go on. -/
def AdminRequest.resumes : AdminRequest → Bool
  | .killswitch (some .none) => true
  | _ => false

section

variable {P : Db → Prop} {rt : ConfigRuntime} {deps : AdminDeps}

theorem keeps_query {α : Type} (read : Db → α) : Sql.Moves (Sql.Carries P) (query read) :=
  Sql.Moves.statement fun _ => id

theorem keeps_update {write : Db → Db} (keeps : ∀ app, P app → P (write app)) :
    Sql.Moves (Sql.Carries P) (update write) :=
  Sql.Moves.statement keeps

theorem keeps_overApp {α : Type} {script : Script α} (keeps : Sql.Moves (Sql.Carries P) script) :
    Sql.Moves (Sql.Carries fun db : AdminDb => P db.app) (overApp script) :=
  keeps.focus fun _ _ carried => carried

theorem keeps_overEvents {α : Type} (run : Events → α × Events) :
    Sql.Moves (Sql.Carries fun db : AdminDb => P db.app) (overEvents run) :=
  Sql.Moves.statement fun _ => id

namespace KeptBy

theorem saveConfig (kept : KeptBy P rt) (yamlText appliedBy : String) (secrets : SecretResolver)
    (now : Int) : Sql.Moves (Sql.Carries P) (App.saveConfig rt yamlText appliedBy secrets now) := by
  intro s held
  show P ((App.saveConfig rt yamlText appliedBy secrets now).on s.db s.left).2
  rcases saveConfig_cases rt yamlText appliedBy secrets now s.db s.left with
    ⟨e, fails⟩ | ⟨loaded, parsed, saves⟩
  · rw [fails]
    exact held
  · rw [saves]
    exact kept.save yamlText appliedBy loaded now s.db parsed held

theorem logAudit (kept : KeptBy P rt) (actor action : String) (detail : List (String × Json)) (now : Int) :
    Sql.Moves (Sql.Carries fun db : AdminDb => P db.app) (App.logAudit actor action detail now) :=
  keeps_overApp (keeps_update (kept.log now actor action detail))

theorem setKillswitch (kept : KeptBy P rt) {state : Option Killswitch}
    (resume : state = some .none → ∀ app, P app → P (KvRepo.setGlobalKillswitch .none app)) (now : Int) :
    Sql.Moves (Sql.Carries fun db : AdminDb => P db.app) (App.setKillswitch state now) := by
  cases state with
  | none => exact Sql.Moves.pure _
  | some state =>
    have writes : ∀ app, P app → P (KvRepo.setGlobalKillswitch state app) := by
      intro app
      by_cases none : state = .none
      · subst none
        exact resume rfl app
      · exact kept.hold state app none
    refine (keeps_overApp (keeps_query _)).bind fun _ => (keeps_overApp (keeps_update writes)).bind fun _ => ?_
    exact (kept.logAudit _ _ _ _).bind fun _ => Sql.Moves.pure _

theorem pauseRoute (kept : KeptBy P rt) (id : String) (paused : Option Bool) (now : Int) :
    Sql.Moves (Sql.Carries P) (App.pauseRoute id paused now) := by
  refine (keeps_query _).bind fun found => ?_
  cases found with
  | none => exact Sql.Moves.pure _
  | some _ =>
    cases paused with
    | none => exact Sql.Moves.pure _
    | some paused =>
      refine (keeps_update (kept.pause id paused)).bind fun _ => ?_
      exact (keeps_update (kept.log _ _ _ _)).bind fun _ => Sql.Moves.pure _

theorem viewPayload (kept : KeptBy P rt) (id : IdParam) (now : Int) :
    Sql.Moves (Sql.Carries fun db : AdminDb => P db.app) (App.viewPayload deps id now) := by
  unfold App.viewPayload
  split
  · exact Sql.Moves.pure _
  · refine (keeps_overEvents _).bind fun found => ?_
    cases found with
    | none => exact Sql.Moves.pure _
    | some row =>
      show Sql.Moves _ (viewRow deps row now)
      unfold viewRow
      split
      · exact Sql.Moves.pure _
      · split
        · exact Sql.Moves.pure _
        · split
          · exact Sql.Moves.pure _
          · exact (kept.logAudit _ _ _ _).bind fun _ => Sql.Moves.pure _

theorem postReplay (kept : KeptBy P rt) (id : IdParam) (now : Int) :
    Sql.Moves (Sql.Carries fun db : AdminDb => P db.app) (App.postReplay id now) := by
  refine (keeps_overEvents _).bind fun replayed => ?_
  split
  · exact (kept.logAudit _ _ _ _).bind fun _ => Sql.Moves.pure _
  · exact Sql.Moves.pure _

theorem postReplayParked (kept : KeptBy P rt) (now : Int) :
    Sql.Moves (Sql.Carries fun db : AdminDb => P db.app) (App.postReplayParked now) := by
  refine (keeps_overEvents _).bind fun count => ?_
  split
  · exact (kept.logAudit _ _ _ _).bind fun _ => Sql.Moves.pure _
  · exact Sql.Moves.pure _

theorem holdForwarding (kept : KeptBy P rt) (now : Int) :
    Sql.Moves (Sql.Carries fun db : AdminDb => P db.app) (App.holdForwarding deps now) := by
  unfold App.holdForwarding
  split
  · refine (keeps_overApp (keeps_query _)).bind fun held => ?_
    cases held with
    | none =>
      refine (keeps_overApp (keeps_update fun app => kept.hold .pause app (by simp))).bind fun _ => ?_
      exact (kept.logAudit _ _ _ _).bind fun _ => Sql.Moves.pure _
    | pause => exact Sql.Moves.pure _
    | panic => exact Sql.Moves.pure _
  · exact Sql.Moves.pure _

theorem postConfig (kept : KeptBy P deps.yaml) (yaml : Option String) (world : AdminWorld) :
    Sql.Moves (Sql.Carries fun db : AdminDb => P db.app) (App.postConfig deps yaml world) := by
  unfold App.postConfig
  split
  · exact Sql.Moves.pure _
  · split
    · exact Sql.Moves.pure _
    · refine (keeps_overApp (kept.saveConfig _ _ _ _)).attempt.bind fun outcome => ?_
      cases outcome with
      | error e => exact Sql.Moves.pure _
      | ok loaded =>
        show Sql.Moves _ (ite _ _ _)
        by_cases bootstrap : deps.bootstrap
        · rw [if_pos bootstrap]
          exact (kept.holdForwarding world.now).within.bind fun _ => Sql.Moves.pure _
        · rw [if_neg bootstrap]
          exact Sql.Moves.pure _

/-- A request keeps it, unless it resumes forwarding. -/
theorem handle (kept : KeptBy P deps.yaml) {request : AdminRequest}
    (resume : request.resumes → ∀ app, P app → P (KvRepo.setGlobalKillswitch .none app))
    (world : AdminWorld) : Sql.Moves (Sql.Carries fun db : AdminDb => P db.app) (App.handle deps world request) := by
  cases request with
  | killswitch state =>
    refine kept.setKillswitch (fun none => resume ?_) world.now
    rw [none]
    rfl
  | pause id paused => exact keeps_overApp (kept.pauseRoute id paused world.now)
  | payload id => exact kept.viewPayload id world.now
  | replay id => exact kept.postReplay id world.now
  | replayParked => exact kept.postReplayParked world.now
  | config yaml => exact kept.postConfig yaml world

theorem kvPut (kept : KeptBy P rt) (faults : Faults) {key : String}
    (mark : key ∈ [etagKey, hashKey, environmentKey]) (value : Option String) :
    Sql.Moves (Sql.Carries P) (App.kvPut faults key value) := by
  cases value with
  | some value =>
    show Sql.Moves _ (kvSet faults key value)
    unfold kvSet
    split
    · exact fun s => id
    · exact keeps_update (kept.mark key mark (some value))
  | none =>
    show Sql.Moves _ (kvDelete faults key)
    unfold kvDelete
    split
    · exact fun s => id
    · exact keeps_update (kept.mark key mark none)

theorem marks (kept : KeptBy P rt) (faults : Faults) (etag hash environment : Option String) :
    Sql.Moves (Sql.Carries P) (App.marks faults etag hash environment) := by
  refine (kept.kvPut faults (by simp) etag).bind fun _ => ?_
  refine (kept.kvPut faults (by simp) hash).bind fun _ => ?_
  exact kept.kvPut faults (by simp) environment

/-- A check keeps it, however it ends. -/
theorem endCheck (kept : KeptBy P rt) (secrets : SecretResolver) (now : Int) (faults : Faults)
    (pending : Pending) (answer : ConfigAnswer) :
    Sql.Moves (Sql.Carries P) (App.endCheck rt secrets now faults pending answer) := by
  unfold App.endCheck
  split
  · split
    · refine (@KeptBy.kvPut _ _ kept faults etagKey (by simp) none).bind fun _ => ?_
      refine (@KeptBy.kvPut _ _ kept faults hashKey (by simp) none).bind fun _ => ?_
      exact (@KeptBy.kvPut _ _ kept faults environmentKey (by simp) none).bind fun _ => Sql.Moves.pure _
    · exact Sql.Moves.pure _
  · refine Sql.Moves.bind ?_ fun _ => Sql.Moves.pure _
    unfold kvGet
    split
    · exact fun s => id
    · exact keeps_query _
  · refine (kept.saveConfig _ _ _ _).within.attempt.bind fun outcome => ?_
    cases outcome with
    | error e => exact Sql.Moves.pure _
    | ok loaded =>
      simp only [keepRemote_eq]
      exact (kept.marks _ _ _ _).bind fun _ => Sql.Moves.pure _

theorem resolveActiveConfig (kept : KeptBy P rt) (message : AppError → String) (seed : Option SeedFile)
    (secrets : SecretResolver) (now : Int) :
    Sql.Moves (Sql.Carries P) (App.resolveActiveConfig rt message seed secrets now) := by
  refine (keeps_query _).bind fun stored => ?_
  cases stored with
  | some yamlText =>
    show Sql.Moves _ (match parseConfig rt yamlText with
      | .ok loaded => (return .ok loaded : Script ActiveConfigState)
      | .error e => return .invalid (message e))
    split <;> exact Sql.Moves.pure _
  | none =>
    show Sql.Moves _ (seedConfig rt message secrets now seed)
    unfold seedConfig
    split
    · exact Sql.Moves.pure _
    · exact Sql.Moves.pure _
    · refine (kept.saveConfig _ _ _ _).attempt.bind fun outcome => ?_
      cases outcome <;> exact Sql.Moves.pure _

end KeptBy

/-! ## A deployment -/

namespace Relay

theorem ask_db (rt : ConfigRuntime) (s : Relay) (now : Int) (left : Option Nat) :
    (s.ask rt now left).db = s.db := by
  rcases ask_cases rt s now left with same | ⟨-, reason, same⟩ | ⟨pending, -, same⟩ | ⟨error, same⟩
  all_goals rw [same]

theorem keeps_check (kept : KeptBy P rt) (s : Relay) (world : BootWorld) (held : P s.db) :
    P (s.check rt world).2.db := by
  unfold check
  have asked : P (s.ask rt world.now world.askLeft).db := by
    rw [ask_db]
    exact held
  dsimp only
  split
  · exact asked
  · exact (kept.endCheck _ _ _ _ _).on _ _ asked

end Relay

/-- The build a process is of. -/
def Phase.yaml? : Phase → Option ConfigRuntime
  | .bootstrap deps _ | .running deps => some deps.yaml
  | _ => none

/-- The build whose code an action runs. -/
def StartupAction.yaml? (s : Deployment) : StartupAction → Option ConfigRuntime
  | .boot build _ => some build.yaml
  | _ => s.phase.yaml?

/-- The action lets forwarding go on. -/
def StartupAction.resumes : StartupAction → Bool
  | .request _ r => r.resumes
  | _ => false

namespace Deployment

variable {s : Deployment} {build : Build} {world : BootWorld} {env : Environment} {dataKey : Bytes}

theorem keeps_bootLocal (kept : KeptBy P build.yaml) (stored : ActiveConfigState) (held : P s.relay.db) :
    P (s.bootLocal build world env dataKey stored).relay.db := by
  cases stored with
  | ok loaded => exact held
  | invalid error => exact held
  | empty =>
    have resolved := (kept.resolveActiveConfig build.message (world.seed env) (envSecrets env) world.now).on
      s.relay.db world.seedLeft held
    unfold bootLocal
    dsimp only
    split <;> rename_i ends <;> rw [ends] at resolved <;> exact resolved

theorem keeps_bootStored (kept : KeptBy P build.yaml) (held : P s.relay.db) :
    P (s.bootStored build world env dataKey).relay.db := by
  unfold bootStored
  dsimp only
  have checked := @Relay.keeps_check _ _ kept (s.relay.step build.yaml (.restart
    { enabled := isRemoteConfigEnabled env, apiKey := (env "ENDCLOSE_API_KEY").getD ""
      secrets := envSecrets env })) world held
  split
  · exact held
  · split <;> rename_i ends <;> rw [ends] at checked
    · exact checked
    · exact checked
    · exact keeps_bootLocal kept _ checked

theorem keeps_comeUp (kept : KeptBy P build.yaml) (held : P s.relay.db) :
    P (s.comeUp build world).relay.db := by
  unfold comeUp
  dsimp only
  split
  · exact held
  · split
    · split
      · exact keeps_bootStored kept held
      · exact held
    · exact held

theorem keeps_boot (kept : KeptBy P build.yaml) (held : P s.relay.db) :
    P (s.boot build world).relay.db := by
  unfold boot
  cases world.listens <;> exact keeps_comeUp kept held

theorem keeps_request {deps : AdminDeps} (kept : KeptBy P deps.yaml) {r : AdminRequest}
    (resume : r.resumes → ∀ app, P app → P (KvRepo.setGlobalKillswitch .none app)) (world : AdminWorld)
    (held : P s.relay.db) : P (s.request deps world r).2.relay.db :=
  (kept.handle resume { world with managed := s.relay.status.managed }).on s.db _ held

/-- An action keeps it that is kept by the build whose code it runs, and by resuming
where the action does that. -/
theorem keeps_step {a : StartupAction} (kept : ∀ rt, a.yaml? s = some rt → KeptBy P rt)
    (resume : a.resumes → ∀ app, P app → P (KvRepo.setGlobalKillswitch .none app))
    (held : P s.relay.db) : P (s.step a).relay.db := by
  cases a with
  | boot build world => exact keeps_boot (kept _ rfl) held
  | request world r =>
    cases phase : s.phase with
    | bootstrap deps restarting =>
      have built : KeptBy P deps.yaml := kept _ (show s.phase.yaml? = _ by rw [phase]; rfl)
      simpa [step, phase] using keeps_request built resume world held
    | running deps =>
      have built : KeptBy P deps.yaml := kept _ (show s.phase.yaml? = _ by rw [phase]; rfl)
      simpa [step, phase] using keeps_request built resume world held
    | _ => simpa [step, phase] using held
  | ask now left =>
    unfold step
    dsimp only
    split
    · split
      · exact held
      · rw [Relay.ask_db]
        exact held
    · split
      · exact held
      · rw [Relay.ask_db]
        exact held
    · exact held
  | answer answer now faults =>
    unfold step
    dsimp only
    split
    · rename_i phase _
      have built : KeptBy P _ := kept _ (show s.phase.yaml? = _ by rw [phase]; rfl)
      exact (built.endCheck _ _ _ _ _).on _ _ held
    · rename_i phase _
      have built : KeptBy P _ := kept _ (show s.phase.yaml? = _ by rw [phase]; rfl)
      exact (built.endCheck _ _ _ _ _).on _ _ held
    · exact held
  | work events =>
    unfold step
    dsimp only
    split <;> exact held
  | stop => exact held

end Deployment

end

/-! ## What is stored -/

/-- Each version has the hash of its text. -/
def Hashed (hash : Bytes → String) (app : Db) : Prop :=
  ∀ version ∈ app.configVersions, version.configHash = "sha256:" ++ hash (utf8 version.configYaml)

/-- There is a configuration, and it parses. -/
def Configured (rt : ConfigRuntime) (app : Db) : Prop := ∃ loaded, getActiveConfig rt app = some loaded

/-- Forwarding is held. -/
def ForwardingHeld (app : Db) : Prop := KvRepo.globalKillswitch app ≠ .none

section

variable {hash : Bytes → String} {rt : ConfigRuntime} {app : Db} {yamlText appliedBy : String}
  {loaded : LoadedConfig} {now : Int}

theorem configVersions_setRoutePaused (id : String) (paused : Bool) (app : Db) :
    (KvRepo.setRoutePaused id paused app).configVersions = app.configVersions := by
  cases paused <;> rfl

/-- A save leaves the versions, or adds the one of its text. -/
theorem configVersions_saved (parsed : parseConfig rt yamlText = .ok loaded) :
    (saved loaded appliedBy now app = app ∧
        app.configVersions.head?.map (·.configHash) = some (configHash rt yamlText)) ∨
      ∃ version, version.configYaml = yamlText ∧ version.configHash = configHash rt yamlText ∧
        (saved loaded appliedBy now app).configVersions = version :: app.configVersions := by
  obtain ⟨text, hashed, -, -⟩ := parsed_of_parseConfig parsed
  unfold saved
  split
  · rename_i same
    exact .inl ⟨rfl, hashed ▸ same⟩
  · exact .inr ⟨versionOf loaded appliedBy now app, text, hashed, (applied_frame loaded appliedBy now).1⟩

theorem getActiveConfig_of_head {version : ConfigVersion} {versions : List ConfigVersion}
    (listed : app.configVersions = version :: versions)
    (parsed : parseConfig rt version.configYaml = .ok loaded) : getActiveConfig rt app = some loaded := by
  unfold getActiveConfig readActiveConfigRaw
  rw [listed, List.head?_cons, Option.map_some, Option.bind_some, parsed]
  rfl

theorem hashed_kept (same : rt.sha256Hex = hash) : KeptBy (Hashed hash) rt where
  log _ _ _ _ _ hashed := hashed
  pause id paused app hashed := by
    unfold Hashed
    rwa [configVersions_setRoutePaused]
  mark key _ value app hashed := by
    unfold Hashed
    rwa [(put_frame app key value).1]
  hold _ _ _ hashed := hashed
  save yamlText appliedBy loaded now app parsed hashed := by
    rcases @configVersions_saved _ app _ appliedBy _ now parsed with ⟨unchanged, -⟩ | ⟨version, text, own, added⟩
    · rwa [unchanged]
    · unfold Hashed
      rw [added, List.forall_mem_cons]
      refine ⟨?_, hashed⟩
      rw [own, text, configHash, same]

theorem configured_kept (rt : ConfigRuntime) : KeptBy (Configured rt) rt where
  log _ _ _ _ _ configured := configured
  pause id paused app configured := by
    unfold Configured
    rwa [getActiveConfig_congr (configVersions_setRoutePaused id paused app)]
  mark key _ value app configured := by
    unfold Configured
    rwa [getActiveConfig_congr (put_frame app key value).1]
  hold _ _ _ configured := configured
  save yamlText appliedBy loaded now app parsed configured := by
    rcases @configVersions_saved _ app _ appliedBy _ now parsed with ⟨unchanged, -⟩ | ⟨version, text, -, added⟩
    · rwa [unchanged]
    · exact ⟨loaded, getActiveConfig_of_head added (text ▸ parsed)⟩

theorem forwardingHeld_kept (rt : ConfigRuntime) : KeptBy ForwardingHeld rt where
  log _ _ _ _ _ held := held
  pause id paused app held := by
    have other : "killswitch.global" ≠ KvRepo.routePausedPrefix ++ id := by
      intro same
      have texts := congrArg String.toList same
      rw [String.toList_append] at texts
      exact absurd (List.cons.inj texts).1 (by decide)
    unfold ForwardingHeld KvRepo.globalKillswitch KvRepo.setRoutePaused
    cases paused with
    | true => rwa [if_pos rfl, get_set, if_neg other]
    | false => rwa [if_neg Bool.false_ne_true, get_delete, if_neg other]
  mark key member value app held := by
    have other : "killswitch.global" ≠ key := by
      rintro rfl
      exact absurd member (by decide)
    unfold ForwardingHeld KvRepo.globalKillswitch
    rwa [get_put, if_neg other]
  hold state app holds _ := by
    unfold ForwardingHeld
    rwa [globalKillswitch_set]
  save yamlText appliedBy loaded now app _ held := by
    unfold ForwardingHeld
    rwa [(saved_told loaded appliedBy now app).1]

/-- What is saved is what is active from then on. -/
theorem active_saved (injective : Function.Injective hash) (same : rt.sha256Hex = hash)
    (hashed : Hashed hash app) (parsed : parseConfig rt yamlText = .ok loaded) (appliedBy : String)
    (now : Int) :
    readActiveConfigRaw (saved loaded appliedBy now app) = some yamlText ∧
      getActiveConfig rt (saved loaded appliedBy now app) = some loaded := by
  have active : readActiveConfigRaw (saved loaded appliedBy now app) = some yamlText := by
    rcases @configVersions_saved _ app _ appliedBy _ now parsed with
      ⟨unchanged, last⟩ | ⟨version, text, -, added⟩
    · rw [unchanged]
      cases versions : app.configVersions with
      | nil =>
        rw [versions] at last
        cases last
      | cons version earlier =>
        rw [versions, List.head?_cons, Option.map_some, Option.some_inj,
          hashed version (versions ▸ List.mem_cons_self), configHash, same] at last
        have texts : version.configYaml = yamlText :=
          utf8_injective (injective ((String.append_right_inj _).mp last))
        unfold readActiveConfigRaw
        rw [versions, List.head?_cons, Option.map_some, texts]
    · unfold readActiveConfigRaw
      rw [added, List.head?_cons, Option.map_some, text]
  refine ⟨active, ?_⟩
  rw [getActiveConfig, active, Option.bind_some, parsed]
  rfl

theorem configured_of_raw (read : readActiveConfigRaw app = some yamlText)
    (parsed : parseConfig rt yamlText = .ok loaded) : Configured rt app := by
  refine ⟨loaded, ?_⟩
  rw [getActiveConfig, read, Option.bind_some, parsed]
  rfl

/-! ## A boot -/

variable {message : AppError → String} {seed : Option SeedFile} {secrets : SecretResolver}
  {left : Option Nat} {app' : Db}

theorem resolveActiveConfig_on (left : Option Nat) :
    (resolveActiveConfig rt message seed secrets now).on app left =
      if left = some 0 then (.error .sqlite, app)
      else match readActiveConfigRaw app with
        | none => (seedConfig rt message secrets now seed).on app (left.map (· - 1))
        | some yamlText =>
          match parseConfig rt yamlText with
          | .ok loaded => (.ok (.ok loaded), app)
          | .error e => (.ok (.invalid (message e)), app) := by
  unfold resolveActiveConfig query
  rw [Sql.on_statement_bind]
  split
  · rfl
  · cases readActiveConfigRaw app with
    | none => rfl
    | some yamlText =>
      dsimp only
      cases parseConfig rt yamlText <;> rfl

/-- The seed is tried without an error that is not caught. -/
theorem seedConfig_on (left : Option Nat) : ∃ state,
    (seedConfig rt message secrets now seed).on app left =
      (.ok state, ((seedConfig rt message secrets now seed).on app left).2) ∧
    ∀ loaded, state = .ok loaded → ∃ text, parseConfig rt text = .ok loaded ∧
      ((seedConfig rt message secrets now seed).on app left).2 = saved loaded "seed" now app := by
  unfold seedConfig
  split
  · exact ⟨_, rfl, nofun⟩
  · exact ⟨_, rfl, nofun⟩
  · rename_i path text
    rw [Sql.on_attempt_bind]
    have split : ((saveConfig rt text "seed" secrets now).run.run { db := app, left }).1 =
          ((saveConfig rt text "seed" secrets now).on app left).1 ∧
        ((saveConfig rt text "seed" secrets now).run.run { db := app, left }).2.db =
          ((saveConfig rt text "seed" secrets now).on app left).2 := ⟨rfl, rfl⟩
    rw [split.1, split.2]
    rcases saveConfig_cases rt text "seed" secrets now app left with ⟨e, fails⟩ | ⟨loaded, parsed, saves⟩
    · rw [fails]
      exact ⟨_, rfl, nofun⟩
    · rw [saves]
      refine ⟨_, rfl, fun loaded' same => ⟨text, ?_⟩⟩
      obtain rfl := ActiveConfigState.ok.inj same
      exact ⟨parsed, rfl⟩

/-- Without a seed file nothing is written. -/
theorem resolveActiveConfig_none {outcome : Except AppError ActiveConfigState}
    (resolved : (resolveActiveConfig rt message none secrets now).on app left = (outcome, app')) :
    app' = app := by
  rw [resolveActiveConfig_on] at resolved
  split at resolved
  · exact (Prod.mk.inj resolved).2.symm
  · split at resolved
    · exact (Prod.mk.inj resolved).2.symm
    · split at resolved <;> exact (Prod.mk.inj resolved).2.symm

/-- A configuration that was resolved is the active one. -/
theorem configured_of_resolved (injective : Function.Injective hash) (same : rt.sha256Hex = hash)
    (hashed : Hashed hash app)
    (resolved : (resolveActiveConfig rt message seed secrets now).on app left = (.ok (.ok loaded), app')) :
    Configured rt app' := by
  rw [resolveActiveConfig_on] at resolved
  split at resolved
  · cases resolved
  · split at resolved
    · obtain ⟨state, ends, saves⟩ := @seedConfig_on rt app now message seed secrets (left.map (· - 1))
      rw [resolved] at ends saves
      obtain ⟨text, parsed, done⟩ := saves loaded (Except.ok.inj (Prod.mk.inj ends).1).symm
      dsimp only at done
      rw [done]
      exact ⟨loaded, (active_saved injective same hashed parsed _ _).2⟩
    · rename_i yamlText read
      split at resolved
      · rename_i parsed
        obtain rfl := (Prod.mk.inj resolved).2
        exact configured_of_raw read parsed
      · cases resolved

/-- Resolving fails only where the database cannot be read. -/
theorem left_of_unresolved {e : AppError}
    (unresolved : (resolveActiveConfig rt message seed secrets now).on app left = (.error e, app')) :
    left = some 0 := by
  rw [resolveActiveConfig_on] at unresolved
  split at unresolved
  · assumption
  · split at unresolved
    · obtain ⟨state, ends, -⟩ := @seedConfig_on rt app now message seed secrets (left.map (· - 1))
      rw [unresolved] at ends
      cases ends
    · split at unresolved <;> cases unresolved

/-- A configuration that parses is resolved. -/
theorem resolved_of_configured {state : ActiveConfigState} (configured : Configured rt app)
    (resolved : (resolveActiveConfig rt message seed secrets now).on app left = (.ok state, app')) :
    ∃ loaded, state = .ok loaded := by
  obtain ⟨loaded, active⟩ := configured
  obtain ⟨yamlText, read, parsed⟩ := Option.bind_eq_some_iff.mp active
  rw [resolveActiveConfig_on, read] at resolved
  split at resolved
  · cases resolved
  · dsimp only at resolved
    split at resolved
    · exact ⟨_, (Except.ok.inj (Prod.mk.inj resolved).1).symm⟩
    · rename_i failed
      rw [failed] at parsed
      cases parsed

/-- Where End Close owns the configuration, the check has it, and it is the active one. -/
theorem Relay.check_managed {s : Relay} {world : BootWorld} {given : Option LoadedConfig}
    (injective : Function.Injective hash) (same : rt.sha256Hex = hash) (hashed : Hashed hash s.db)
    (idle : s.inFlight = none) (managed : (s.check rt world).1 = some given) :
    (∃ loaded, given = some loaded) ∧ Configured rt (s.check rt world).2.db := by
  have failed : ∀ {result : RemoteCheck}, result.isFailed → result.managed? ≠ some given := by
    intro result fails
    cases result <;> simp [RemoteCheck.managed?, RemoteCheck.isFailed] at fails ⊢
  unfold check at managed ⊢
  rcases ask_cases rt s world.now world.askLeft with
    asked | ⟨-, reason, asked⟩ | ⟨pending, begun, asked⟩ | ⟨error, asked⟩
  · simp [asked, idle] at managed
  · simp [asked, idle] at managed
  · rw [asked] at managed ⊢
    dsimp only at managed ⊢
    have ended := endCheck_ended rt s.opts.secrets world.now world.faults pending world.answer s.db
    show _ ∧ Configured rt ((endCheck rt s.opts.secrets world.now world.faults pending world.answer).on
      s.db none).2
    generalize (endCheck rt s.opts.secrets world.now world.faults pending world.answer).on s.db none = run
      at managed ended ⊢
    obtain ⟨outcome, app⟩ := run
    dsimp only at managed ended ⊢
    generalize caught outcome = result at managed ended
    cases ended with
    | refused _ _ fails => exact absurd managed (failed fails)
    | disowned _ _ _ outcome =>
      rcases outcome with ⟨-, rfl⟩ | ⟨-, fails⟩
      · cases managed
      · exact absurd managed (failed fails)
    | unchanged fetched outcome =>
      rcases outcome with ⟨-, environment, rfl⟩ | ⟨-, fails⟩
      · obtain ⟨stored, sent⟩ := pending_of_beginCheck begun
        obtain ⟨etag, known⟩ := Option.ne_none_iff_exists'.mp (sent_of_unchanged fetched)
        obtain ⟨loaded, active, -⟩ := sent etag known
        obtain rfl := Option.some.inj managed
        exact ⟨⟨loaded, stored.trans active⟩, loaded, active⟩
      · exact absurd managed (failed fails)
    | unsaved _ _ fails => exact absurd managed (failed fails)
    | saved fetched parsed saves marked outcome =>
      rename_i config loaded
      rcases outcome with ⟨-, changed, environment, rfl⟩ | ⟨-, fails⟩
      · obtain rfl := Option.some.inj managed
        refine ⟨⟨loaded, rfl⟩, loaded, ?_⟩
        rw [getActiveConfig_congr marked.versions]
        exact (active_saved injective same hashed parsed _ _).2
      · exact absurd managed (failed fails)
  · simp [asked, idle] at managed

/-- What the setup page has nothing against gives a key. -/
theorem deriveKey_of_check {env : Environment} {name : String} (sha256 : Bytes → Bytes)
    (fine : checkKey env name = []) : ∃ key, deriveKey sha256 name (env name) = .ok key := by
  unfold checkKey Environment.filled at fine
  unfold deriveKey
  cases value : env name with
  | none =>
    rw [value] at fine
    cases fine
  | some raw =>
    rw [value] at fine
    by_cases blank : raw = ""
    · rw [Option.filter_some_neg (by simpa using blank)] at fine
      cases fine
    · rw [Option.filter_some_pos (by simpa using blank)] at fine
      dsimp only at fine
      have long : ¬ codeUnits raw < 16 := by
        intro short
        rw [if_pos short] at fine
        cases fine
      rw [Option.filter_some_pos (by simpa [blank, minKeyChars] using long)]
      exact ⟨_, rfl⟩

/-- How a boot may end, by the database before and after it. -/
def Phase.EndsBoot (rt : ConfigRuntime) (before after : Db) : Phase → Prop
  | .down => True
  | .setup missing => missing ≠ []
  | .bootstrap deps restarting =>
    deps.yaml = rt ∧ deps.bootstrap = true ∧ restarting = false ∧ ¬ Configured rt before
  | .running deps => deps.yaml = rt ∧ Configured rt after

/-- The boot meets no failure that it does not catch. -/
def BootWorld.Starts (world : BootWorld) : Prop :=
  world.settings = true ∧ world.opens = true ∧ world.storedLeft ≠ some 0 ∧ world.seedLeft ≠ some 0 ∧
    world.listens = true

namespace Deployment

variable {s : Deployment} {build : Build} {world : BootWorld} {env : Environment} {dataKey : Bytes}

theorem bootLocal_ends (injective : Function.Injective hash) (same : build.yaml.sha256Hex = hash)
    (hashed : Hashed hash s.relay.db) {stored : ActiveConfigState} {before : Db}
    (known : ∀ loaded, stored = .ok loaded → Configured build.yaml s.relay.db)
    (unknown : Configured build.yaml before → ∃ loaded, stored = .ok loaded) :
    (s.bootLocal build world env dataKey stored).phase.EndsBoot build.yaml before
        (s.bootLocal build world env dataKey stored).relay.db ∧
      (world.seedLeft ≠ some 0 → (s.bootLocal build world env dataKey stored).phase ≠ .down) := by
  have unconfigured : (∀ loaded, stored ≠ .ok loaded) → ¬ Configured build.yaml before := by
    intro other configured
    obtain ⟨loaded, ok⟩ := unknown configured
    exact other loaded ok
  cases stored with
  | ok loaded => exact ⟨⟨rfl, known loaded rfl⟩, nofun⟩
  | invalid error => exact ⟨⟨rfl, rfl, rfl, unconfigured nofun⟩, nofun⟩
  | empty =>
    unfold bootLocal
    dsimp only
    split
    · rename_i state app resolved
      cases state with
      | ok loaded => exact ⟨⟨rfl, configured_of_resolved injective same hashed resolved⟩, nofun⟩
      | empty => exact ⟨⟨rfl, rfl, rfl, unconfigured nofun⟩, nofun⟩
      | invalid error => exact ⟨⟨rfl, rfl, rfl, unconfigured nofun⟩, nofun⟩
    · rename_i e app unresolved
      exact ⟨trivial, fun readable => absurd (left_of_unresolved unresolved) readable⟩

/-- A boot that has the environment and the database. -/
theorem bootStored_ends (injective : Function.Injective hash) (same : build.yaml.sha256Hex = hash)
    (hashed : Hashed hash s.relay.db) :
    (s.bootStored build world env dataKey).phase.EndsBoot build.yaml s.relay.db
        (s.bootStored build world env dataKey).relay.db ∧
      (world.Starts → (s.bootStored build world env dataKey).phase ≠ .down) := by
  have idle : ∀ opts, (s.relay.step build.yaml (.restart opts)).inFlight = none := fun _ => rfl
  have kept : ∀ opts, (s.relay.step build.yaml (.restart opts)).db = s.relay.db := fun _ => rfl
  unfold bootStored
  dsimp only
  generalize ({ enabled := isRemoteConfigEnabled env, apiKey := (env "ENDCLOSE_API_KEY").getD ""
                secrets := envSecrets env } : RemoteCheckOptions) = opts
  have hashed' : Hashed hash (s.relay.step build.yaml (.restart opts)).db := hashed
  have managed := @Relay.check_managed hash build.yaml (s.relay.step build.yaml (.restart opts)) world
  have carries := @Relay.keeps_check _ _ (configured_kept build.yaml)
    (s.relay.step build.yaml (.restart opts)) world
  have rehashed := Relay.keeps_check (hashed_kept same) (s.relay.step build.yaml (.restart opts)) world hashed'
  split
  · rename_i e app unresolved
    exact ⟨trivial, fun starts => absurd (left_of_unresolved unresolved) starts.2.2.1⟩
  · rename_i stored app resolved
    split
    · rename_i loaded relay checked
      rw [checked] at managed
      exact ⟨⟨rfl, (managed injective same hashed' (idle opts) rfl).2⟩, nofun⟩
    · rename_i relay checked
      rw [checked] at managed
      obtain ⟨loaded, given⟩ := (managed injective same hashed' (idle opts) rfl).1
      cases given
    · rename_i relay checked
      rw [checked] at carries rehashed
      have ends := @bootLocal_ends hash { s with relay } build world env dataKey injective same rehashed
        stored s.relay.db (fun loaded ok => carries ?_)
        (fun configured => resolved_of_configured configured resolved)
      · exact ⟨ends.1, fun starts => ends.2 starts.2.2.2.1⟩
      · subst ok
        have active := configured_of_resolved injective same hashed' resolved
        rwa [resolveActiveConfig_none resolved] at active

theorem comeUp_ends (injective : Function.Injective hash) (same : build.yaml.sha256Hex = hash)
    (hashed : Hashed hash s.relay.db) :
    (s.comeUp build world).phase.EndsBoot build.yaml s.relay.db (s.comeUp build world).relay.db ∧
      (world.Starts → (s.comeUp build world).phase ≠ .down) := by
  unfold comeUp
  dsimp only
  generalize (loadSecretsFile world.readFile world.env).1 = secretsFile
  generalize (loadSecretsFile world.readFile world.env).2 = env
  split
  · exact ⟨List.cons_ne_nil _ _, nofun⟩
  · rename_i complete
    unfold checkRequiredEnv at complete
    rw [List.append_eq_nil_iff, List.append_eq_nil_iff, List.append_eq_nil_iff] at complete
    obtain ⟨⟨⟨-, data⟩, masking⟩, -⟩ := complete
    obtain ⟨dataKey, derived⟩ := deriveKey_of_check build.sha256 data
    obtain ⟨maskingKey, derived'⟩ := deriveKey_of_check build.sha256 masking
    rw [derived, derived']
    dsimp only
    split
    · exact bootStored_ends injective same hashed
    · rename_i broken
      refine ⟨trivial, fun starts => absurd ?_ broken⟩
      rw [starts.1, starts.2.1]
      rfl

theorem boot_ends (injective : Function.Injective hash) (same : build.yaml.sha256Hex = hash)
    (hashed : Hashed hash s.relay.db) :
    (s.boot build world).phase.EndsBoot build.yaml s.relay.db (s.boot build world).relay.db ∧
      (world.Starts → (s.boot build world).phase ≠ .down) := by
  obtain ⟨ends, up⟩ := @comeUp_ends hash s build world injective same hashed
  unfold boot
  cases listens : world.listens with
  | true => exact ⟨ends, up⟩
  | false =>
    refine ⟨trivial, fun starts => ?_⟩
    rw [starts.2.2.2.2] at listens
    cases listens

/-- What comes of a process without a boot: it has ended, or it is at what it was,
about to exit or not. -/
theorem phase_step {a : StartupAction} (other : ∀ build world, a ≠ .boot build world) :
    (s.step a).phase = .down ∨ (s.step a).phase = s.phase ∨
      ∃ deps restarting restarting', s.phase = .bootstrap deps restarting ∧
        (s.step a).phase = .bootstrap deps restarting' := by
  cases a with
  | boot build world => exact absurd rfl (other build world)
  | request world r =>
    cases phase : s.phase with
    | bootstrap deps restarting =>
      simp only [step, phase]
      cases world.replies with
      | true => exact .inr (.inr ⟨deps, restarting, _, rfl, rfl⟩)
      | false => exact .inl rfl
    | running deps =>
      simp only [step, phase]
      cases world.replies with
      | true => exact .inr (.inl rfl)
      | false => exact .inl rfl
    | down | setup missing => simp [step, phase]
  | ask now left =>
    refine .inr (.inl ?_)
    unfold step
    dsimp only
    split
    · split <;> rfl
    · split <;> rfl
    · rfl
  | answer answer now faults =>
    unfold step
    dsimp only
    split
    · rename_i deps restarting pending phase _
      exact .inr (.inr ⟨deps, restarting, _, phase, rfl⟩)
    · exact .inr (.inl rfl)
    · exact .inr (.inl rfl)
  | work events =>
    refine .inr (.inl ?_)
    unfold step
    dsimp only
    split <;> rfl
  | stop => exact .inl rfl

/-- A process after an action runs the code that the action ran. -/
theorem yaml_step (injective : Function.Injective hash) {a : StartupAction}
    (same : ∀ rt, a.yaml? s = some rt → rt.sha256Hex = hash) (hashed : Hashed hash s.relay.db)
    (up : (s.step a).phase.yaml? = some rt) : a.yaml? s = some rt := by
  by_cases boots : ∃ build world, a = .boot build world
  · obtain ⟨build, world, rfl⟩ := boots
    have ends := (@boot_ends hash s build world injective (same _ rfl) hashed).1
    change (s.boot build world).phase.yaml? = some rt at up
    cases phase : (s.boot build world).phase with
    | down | setup missing =>
      rw [phase] at up
      cases up
    | bootstrap deps restarting | running deps =>
      rw [phase] at up ends
      exact (congrArg some ends.1).symm.trans up
  · have other : ∀ build world, a ≠ .boot build world := fun build world same => boots ⟨build, world, same⟩
    have charged : a.yaml? s = s.phase.yaml? := by
      cases a with
      | boot build world => exact absurd rfl (other build world)
      | _ => rfl
    rw [charged]
    rcases phase_step other with down | stays | ⟨deps, restarting, restarting', was, is⟩
    · rw [down] at up
      cases up
    · rwa [stays] at up
    · rw [is] at up
      rw [was]
      exact up

end Deployment

/-! ## An apply of the setup editor -/

section

variable {deps : AdminDeps} {db db' : AdminDb} {world : AdminWorld} {reply : AdminReply}

end

end

/-! ## Every run -/

/-- The processes of the action have this digest; it is the one SHA-256. -/
def StartupAction.Digests (hash : Bytes → String) : StartupAction → Prop
  | .boot build _ => build.yaml.sha256Hex = hash
  | _ => True

namespace Deployment

variable {hash : Bytes → String} {s : Deployment} {rt : ConfigRuntime} {a : StartupAction}

/-- Versions have the hash of their text; a process that runs has a configuration
that parses, and one that bootstraps serves the setup editor. -/
structure Sound (hash : Bytes → String) (s : Deployment) : Prop where
  hashed : Hashed hash s.relay.db
  digest : ∀ rt, s.phase.yaml? = some rt → rt.sha256Hex = hash
  serving : ∀ deps, s.phase = .running deps → Configured deps.yaml s.relay.db
  editing : ∀ deps restarting, s.phase = .bootstrap deps restarting → deps.bootstrap = true

theorem Sound.charge (sound : Sound hash s) (digests : a.Digests hash) :
    ∀ rt, a.yaml? s = some rt → rt.sha256Hex = hash := by
  intro rt charged
  cases a with
  | boot build world =>
    obtain rfl := Option.some.inj charged
    exact digests
  | _ => exact sound.digest rt charged

theorem sound_init (hash : Bytes → String) : Sound hash machine.init where
  hashed := nofun
  digest := nofun
  serving := nofun
  editing := nofun

theorem Sound.step (injective : Function.Injective hash) (sound : Sound hash s) (digests : a.Digests hash) :
    Sound hash (s.step a) := by
  have charge := sound.charge digests
  refine ⟨keeps_step (fun rt charged => hashed_kept (charge rt charged)) (fun _ _ => id) sound.hashed,
    fun rt up => charge rt (yaml_step injective charge sound.hashed up), fun deps ran => ?_,
    fun deps restarting bootstraps => ?_⟩
  · by_cases boots : ∃ build world, a = .boot build world
    · obtain ⟨build, world, rfl⟩ := boots
      have ends := (@boot_ends hash s build world injective digests sound.hashed).1
      change (s.boot build world).phase = _ at ran
      rw [ran] at ends
      obtain ⟨own, configured⟩ := ends
      rwa [own]
    · have other : ∀ build world, a ≠ .boot build world := fun build world same => boots ⟨build, world, same⟩
      have was : s.phase = .running deps := by
        rcases phase_step other with down | stays | ⟨deps', restarting, restarting', was, is⟩
        · rw [down] at ran
          cases ran
        · exact stays.symm.trans ran
        · rw [is] at ran
          cases ran
      refine keeps_step (fun rt charged => ?_) (fun _ _ => id) (sound.serving deps was)
      have own : a.yaml? s = some deps.yaml := by
        cases a with
        | boot build world => exact absurd rfl (other build world)
        | _ => exact congrArg Phase.yaml? was
      obtain rfl := Option.some.inj (own.symm.trans charged)
      exact configured_kept _
  · by_cases boots : ∃ build world, a = .boot build world
    · obtain ⟨build, world, rfl⟩ := boots
      have ends := (@boot_ends hash s build world injective digests sound.hashed).1
      change (s.boot build world).phase = _ at bootstraps
      rw [bootstraps] at ends
      exact ends.2.1
    · have other : ∀ build world, a ≠ .boot build world := fun build world same => boots ⟨build, world, same⟩
      rcases phase_step other with down | stays | ⟨deps', restarting, restarting', was, is⟩
      · rw [down] at bootstraps
        cases bootstraps
      · exact sound.editing deps restarting (stays.symm.trans bootstraps)
      · rw [is] at bootstraps
        obtain ⟨rfl, -⟩ := Phase.bootstrap.inj bootstraps
        exact sound.editing _ _ was

theorem sound_run (injective : Function.Injective hash) {actions : List StartupAction}
    (digests : ∀ a ∈ actions, a.Digests hash) : Sound hash (machine.run actions) :=
  Machine.listed_invariant (Sound hash) (fun a => a.Digests hash) (sound_init hash)
    (fun _ _ sound => sound.step injective) digests

/-- Forwarding that is held stays held over a run in which nobody resumes it. -/
theorem held_run (held : ForwardingHeld s.relay.db) {more : List StartupAction}
    (unresumed : ∀ a ∈ more, a.resumes = false) : ForwardingHeld (more.foldl step s).relay.db := by
  induction more generalizing s with
  | nil => exact held
  | cons a more ih =>
    obtain ⟨first, rest⟩ := List.forall_mem_cons.mp unresumed
    refine ih (keeps_step (fun rt _ => forwardingHeld_kept rt) (fun resumes => ?_) held) rest
    rw [first] at resumes
    cases resumes

end Deployment

/-- A release, with the digest of the one key it is given. -/
def sampleBuild : Build where
  yaml := sampleConfigRuntime
  runtime := .knowing []
  gcm :=
    { encipher := fun _ _ plain => (plain, List.replicate 16 0)
      decipher := fun _ _ body _ => some body }
  sha256 bytes := if bytes = utf8 "0123456789abcdef" then digest else []
  message := AppError.text
where
  digest : Bytes := [159, 159, 81, 17, 247, 178, 122, 120, 31, 31, 29, 221, 229, 235, 194, 221,
    43, 121, 107, 252, 115, 101, 201, 194, 139, 84, 142, 86, 65, 118, 146, 159]

/-- Its environment is complete, and End Close does not answer. -/
def sampleBoot : BootWorld where
  env name := if name = "ADMIN_BASIC_AUTH" then some "admin:password" else
    if name = "RELAY_DATA_KEY" ∨ name = "MASKING_HMAC_KEY" then some "0123456789abcdef" else none
  readFile _ := .error "ENOENT"
  fileExists _ := false
  now := 0
  answer := sampleServed "ach" none

end EndCloseRelay.App
