import EndCloseRelay.App.Startup
import EndCloseRelay.Engine.Manifest
import EndCloseRelay.Forward.Mapping

/-!
# Drafts

`POST /config/validate`, `POST /config/preview` and `GET /config` of
`admin/server.ts` show a document before it is applied and after.
`draft_foretold` is about what they say of a draft and what applying it does.
-/

namespace EndCloseRelay.App

open Interaction

/-! ## The handlers -/

/-- `hasSecret(resolver, ref)`. -/
def hasSecret (secrets : SecretResolver) (ref : String) : Bool := (secrets ref).isSome

/-- The variables of the application itself. -/
def applicationSecrets : List String := ["RELAY_DATA_KEY", "MASKING_HMAC_KEY", "ENDCLOSE_API_KEY"]

/-- `envStatus(config, secrets)`: each variable, and whether it is set. -/
def envStatus (routes : List RouteConfig) (secrets : SecretResolver) : List (String × Bool) :=
  (applicationSecrets ++ (routes.map fun route => route.auth.secretEnv).eraseDups).map fun name =>
    (name, hasSecret secrets name)

/-- What is said of a document that is valid. -/
structure Validated where
  hash : String
  routes : List String
  secretEnvs : List (String × Bool)

/-- `POST /config/validate`. -/
def validateConfig (deps : AdminDeps) (yaml : Option String) : Except String Validated :=
  match parseConfig deps.yaml (yaml.getD "") with
  | .ok loaded =>
    .ok { hash := loaded.hash, routes := loaded.routes.map RouteConfig.id
          secretEnvs := envStatus loaded.routes deps.secrets }
  | .error e => .error (deps.message e)

/-- `GET /config`: the document, and its hash or why it does not parse. -/
def getConfig (deps : AdminDeps) (db : Db) : Option (String × Except String String) :=
  (readActiveConfigRaw db).map fun yamlText =>
    match parseConfig deps.yaml yamlText with
    | .ok loaded => (loaded.yamlText, .ok loaded.hash)
    | .error e => (yamlText, .error (deps.message e))

/-- The answer to a preview: a record, an error reply, or an error that is thrown. -/
inductive PreviewReply
  | mapped (record : EndCloseRecord) (report : MapReport)
  | refused (status : Nat) (error : String)
  | thrown (err : RelayError)

/-- The preview of a route, once it is found. -/
def previewRoute (deps : AdminDeps) (maskingKey : Bytes) (route : RouteConfig) (sample : Json) (now : Int) :
    PreviewReply :=
  match mapEvent deps.runtime maskingKey route sample (Js.toISOString now) with
  | .ok result => .mapped result.record result.report
  | .error (.mapping message) => .refused 422 message
  | .error err => .thrown err

/-- The preview of a route of a configuration. -/
def previewIn (deps : AdminDeps) (maskingKey : Bytes) (config : Option LoadedConfig) (routeId : String)
    (sample : Json) (now : Int) : PreviewReply :=
  match config.bind fun loaded => loaded.routes.find? fun route => route.id == routeId with
  | none => .refused 404 ("unknown route: " ++ routeId)
  | some route => previewRoute deps maskingKey route sample now

/-- `POST /config/preview`. -/
def previewConfig (deps : AdminDeps) (maskingKey : Bytes) (yaml routeId : Option String)
    (sample : Option Json) (now : Int) (db : Db) : PreviewReply :=
  match routeId.filter (· ≠ ""), sample with
  | some routeId, some sample =>
    match yaml.filter (· ≠ "") with
    | some yaml =>
      match parseConfig deps.yaml yaml with
      | .ok loaded => previewIn deps maskingKey (some loaded) routeId sample now
      | .error e => .refused 422 (deps.message e)
    | none => previewIn deps maskingKey (getActiveConfig deps.yaml db) routeId sample now
  | _, _ => .refused 400 "route and sample required"

/-! ## What is said of a draft -/

/-- The plane of the process, where it serves one. -/
def Phase.deps? : Phase → Option AdminDeps
  | bootstrap deps _ | running deps => some deps
  | _ => none

/-- A draft that validates, the variables of its routes shown as set. -/
def Applicable (deps : AdminDeps) (yamlText : String) : Prop :=
  ∃ validated, validateConfig deps (some yamlText) = .ok validated ∧
    ∀ entry ∈ validated.secretEnvs.drop applicationSecrets.length, entry.2 = true

instance (deps : AdminDeps) (yamlText : String) : Decidable (Applicable deps yamlText) :=
  match checked : validateConfig deps (some yamlText) with
  | .ok validated =>
    decidable_of_iff (∀ entry ∈ validated.secretEnvs.drop applicationSecrets.length, entry.2 = true)
      ⟨fun set => ⟨validated, checked, set⟩, by
        rintro ⟨validated', same, set⟩
        obtain rfl := Except.ok.inj (checked.symm.trans same)
        exact set⟩
  | .error e => .isFalse (by
      rintro ⟨validated, same, -⟩
      cases checked.symm.trans same)

/-- After it is applied a draft is shown as it was validated, previews as it did,
and its routes are those that are read from then on. -/
structure Foretold (deps : AdminDeps) (maskingKey : Bytes) (yamlText : String) (db db' : Db) : Prop where
  shown : ∃ validated, validateConfig deps (some yamlText) = .ok validated ∧
    getConfig deps db' = some (yamlText, .ok validated.hash)
  previewed : ∀ routeId sample now, previewConfig deps maskingKey none routeId sample now db' =
    previewConfig deps maskingKey (some yamlText) routeId sample now db
  /-- Where it is the active text already, nothing is written. -/
  materialized : readActiveConfigRaw db ≠ some yamlText → ∀ validated,
    validateConfig deps (some yamlText) = .ok validated → db'.routes.keys.Perm validated.routes
  read : readActiveConfigRaw db ≠ some yamlText → ∀ loaded, parseConfig deps.yaml yamlText = .ok loaded →
    ∀ route ∈ loaded.routes,
      RoutesRepo.get db' route.id = some route.toJson ∧ routeSchema route.toJson = some route

section

variable {rt : ConfigRuntime} {deps : AdminDeps} {secrets : SecretResolver} {yamlText appliedBy : String}
  {loaded : LoadedConfig} {now : Int} {app app' : Db} {db : AdminDb} {left : Option Nat}

theorem envStatus_routes (routes : List RouteConfig) (secrets : SecretResolver) :
    (∀ entry ∈ (envStatus routes secrets).drop applicationSecrets.length, entry.2 = true) ↔
      ∀ route ∈ routes, hasSecret secrets route.auth.secretEnv := by
  have behind : (envStatus routes secrets).drop applicationSecrets.length =
      (routes.map fun route => route.auth.secretEnv).eraseDups.map fun name => (name, hasSecret secrets name) := by
    rw [envStatus, List.map_append]
    exact List.drop_left' (List.length_map _)
  rw [behind]
  constructor
  · intro set route member
    refine set _ (List.mem_map.mpr ⟨route.auth.secretEnv, ?_, rfl⟩)
    rw [List.mem_eraseDups]
    exact List.mem_map_of_mem member
  · intro set entry member
    obtain ⟨name, listed, rfl⟩ := List.mem_map.mp member
    rw [List.mem_eraseDups] at listed
    obtain ⟨route, inside, rfl⟩ := List.mem_map.mp listed
    exact set route inside

theorem applicable_iff : Applicable deps yamlText ↔ ∃ loaded, parseConfig deps.yaml yamlText = .ok loaded ∧
    ∀ route ∈ loaded.routes, hasSecret deps.secrets route.auth.secretEnv := by
  unfold Applicable validateConfig
  rw [Option.getD_some]
  cases parseConfig deps.yaml yamlText with
  | error e => exact iff_of_false nofun nofun
  | ok loaded =>
    constructor
    · rintro ⟨validated, same, set⟩
      obtain rfl := Except.ok.inj same
      exact ⟨loaded, rfl, (envStatus_routes _ _).mp set⟩
    · rintro ⟨loaded', same, set⟩
      obtain rfl := Except.ok.inj same
      exact ⟨_, rfl, (envStatus_routes _ _).mpr set⟩

/-- The check of the secrets passes where all are there. -/
theorem secrets_present_iff {routes : List RouteConfig} :
    (routes.forM fun route => do
        let _ ← requireSecret secrets route.auth.secretEnv : Except AppError Unit) = .ok () ↔
      ∀ route ∈ routes, hasSecret secrets route.auth.secretEnv := by
  refine forM_ok_iff.trans (forall₂_congr fun route _ => ?_)
  unfold requireSecret hasSecret
  cases secrets route.auth.secretEnv with
  | none => exact iff_of_false nofun Bool.false_ne_true
  | some value => exact iff_of_true rfl rfl

/-- What is saved has its secrets. -/
theorem secrets_of_saveConfig
    (returns : ((saveConfig rt yamlText appliedBy secrets now).on app left).1 = .ok loaded) :
    ∀ route ∈ loaded.routes, hasSecret secrets route.auth.secretEnv := by
  rcases saveConfig_cases rt yamlText appliedBy secrets now app left with
    ⟨e, fails⟩ | ⟨loaded', parsed, saves⟩
  · rw [fails] at returns
    cases returns
  · rw [saves] at returns
    obtain rfl := Except.ok.inj returns
    cases present : (loaded'.routes.forM fun route => do
        let _ ← requireSecret secrets route.auth.secretEnv : Except AppError Unit) with
    | ok u => exact secrets_present_iff.mp present
    | error e =>
      have fails : (saveConfig rt yamlText appliedBy secrets now).on app left = (.error e, app) :=
        saveText_unset parsed present appliedBy now app left
      rw [fails] at saves
      cases saves

/-- A hold that nothing interrupts ends. -/
theorem holdForwarding_runs (deps : AdminDeps) (now : Int) (db : AdminDb) :
    ∃ paused, ((holdForwarding deps now).on db none).1 = .ok paused := by
  have read : ∀ next : Killswitch → AdminScript Bool,
      (overApp (query KvRepo.globalKillswitch) >>= next).on db none =
        (next (KvRepo.globalKillswitch db.app)).on db none := fun _ => rfl
  unfold holdForwarding
  cases deps.configError with
  | false => exact ⟨_, rfl⟩
  | true =>
    rw [if_pos rfl, read]
    cases KvRepo.globalKillswitch db.app with
    | none => exact ⟨_, rfl⟩
    | pause => exact ⟨_, rfl⟩
    | panic => exact ⟨_, rfl⟩

/-- Applying a text is refused as the save is, or leaves the configuration that was saved. -/
theorem postConfig_cases {world : AdminWorld} (given : yamlText ≠ "") (unowned : world.managed = false) :
    (∃ e, ((saveConfig deps.yaml yamlText "admin" deps.secrets world.now).on db.app left).1 = .error e ∧
        (postConfig deps (some yamlText) world).on db left = (.ok (errorReply 422 (deps.message e)), db)) ∨
      ∃ loaded, parseConfig deps.yaml yamlText = .ok loaded ∧
        ((saveConfig deps.yaml yamlText "admin" deps.secrets world.now).on db.app left).1 = .ok loaded ∧
        ∃ outcome db', (postConfig deps (some yamlText) world).on db left = (outcome, db') ∧
          db'.app.configVersions = (saved loaded "admin" world.now db.app).configVersions ∧
          db'.app.routes = (saved loaded "admin" world.now db.app).routes ∧
          (world.recoveryLeft = none → ∃ reply : AdminReply, outcome = .ok reply ∧ reply.status = 200) := by
  rcases @postConfig_ends deps world db yamlText left given unowned with
    refused | ⟨loaded, parsed, saves, sent, fine, ends⟩
  · exact .inl refused
  · refine .inr ⟨loaded, parsed, saves, ?_⟩
    rw [ends]
    cases deps.bootstrap with
    | false => exact ⟨_, _, rfl, rfl, rfl, fun _ => ⟨_, rfl, fine false⟩⟩
    | true =>
      obtain ⟨versions, routes⟩ := holdForwarding_frame deps world.now world.recoveryLeft
        (db.mapApp (saved loaded "admin" world.now))
      refine ⟨_, _, rfl, versions, routes, fun spared => ?_⟩
      obtain ⟨paused, ends⟩ := holdForwarding_runs deps world.now (db.mapApp (saved loaded "admin" world.now))
      rw [spared, ends]
      exact ⟨_, rfl, fine paused⟩

/-- What a save leaves is as the draft foretold. -/
theorem foretold_of_saved {hash : Bytes → String} (injective : Function.Injective hash)
    (same : deps.yaml.sha256Hex = hash) (hashed : Hashed hash app) (maskingKey : Bytes) (given : yamlText ≠ "")
    (parsed : parseConfig deps.yaml yamlText = .ok loaded)
    (versions : app'.configVersions = (saved loaded "admin" now app).configVersions)
    (routes : app'.routes = (saved loaded "admin" now app).routes) :
    Foretold deps maskingKey yamlText app app' := by
  obtain ⟨text, -, distinct, valid⟩ := parsed_of_parseConfig parsed
  obtain ⟨read, active⟩ := active_saved injective same hashed parsed "admin" now
  have validates : validateConfig deps (some yamlText) =
      .ok { hash := loaded.hash, routes := loaded.routes.map RouteConfig.id
            secretEnvs := envStatus loaded.routes deps.secrets } := by
    rw [validateConfig, Option.getD_some, parsed]
  have rows : readActiveConfigRaw app ≠ some yamlText → app'.routes = (materialized loaded.routes app).routes := by
    intro other
    rw [routes]
    by_cases again : app.configVersions.head?.map (·.configHash) = some loaded.hash
    · rw [saved, if_pos again] at read
      exact absurd read other
    · rw [saved, if_neg again]
      exact (applied_frame loaded "admin" now).2.2.1
  refine { shown := ⟨_, validates, ?_⟩, previewed := fun routeId sample now' => ?_, materialized := ?_, read := ?_ }
  · rw [getConfig, readActiveConfigRaw, versions, ← readActiveConfigRaw, read, Option.map_some, parsed]
    exact congrArg (fun text => some (text, Except.ok loaded.hash)) text
  · unfold previewConfig
    rw [Option.filter_some_pos (by simpa using given), Option.filter_none, getActiveConfig_congr versions, active]
    cases routeId.filter (· ≠ "") with
    | none => rfl
    | some routeId =>
      cases sample with
      | none => rfl
      | some sample =>
        dsimp only
        rw [parsed]
  · intro other validated same
    obtain rfl := Except.ok.inj (validates.symm.trans same)
    rw [rows other]
    exact keys_materialized distinct
  · intro other loaded' same route member
    obtain rfl := Except.ok.inj (parsed.symm.trans same)
    have row := (@lookup_materialized app route.id loaded.routes distinct).1 route member
    refine ⟨?_, routeSchema_toJson (valid route member)⟩
    rw [RoutesRepo.get, rows other, row, Option.bind_some]
    exact read_text route

end

/-! ## Over every run -/

/-- The build of a process that serves the plane. -/
theorem Phase.yaml_of_deps {phase : Phase} {deps : AdminDeps} (serving : phase.deps? = some deps) :
    phase.yaml? = some deps.yaml := by
  cases phase with
  | down => cases serving
  | setup missing => cases serving
  | bootstrap deps' restarting =>
    obtain rfl := Option.some.inj serving
    rfl
  | running deps' =>
    obtain rfl := Option.some.inj serving
    rfl

/-- Whatever a deployment has come through, the validation of a draft foretells what
applying it does: one that shows as applicable is applied, unless something fails or
End Close owns the configuration; one that was applied is in use as it was shown and
previewed; and one that is not applicable changes nothing. -/
theorem draft_foretold {hash : Bytes → String} (injective : Function.Injective hash)
    {actions : List StartupAction} (digests : ∀ a ∈ actions, a.Digests hash) {deps : AdminDeps}
    (serving : (Deployment.machine.run actions).phase.deps? = some deps) {yamlText : String}
    (given : yamlText ≠ "") (unowned : (Deployment.machine.run actions).relay.status.managed = false)
    (world : AdminWorld) :
    let s := Deployment.machine.run actions
    let after := s.request deps world (.config (some yamlText))
    (Applicable deps yamlText → world.left = none → world.recoveryLeft = none → world.replies = true →
        ∃ reply, after.1 = some reply ∧ reply.status = 200) ∧
      (∀ reply, after.1 = some reply → reply.status = 200 → Applicable deps yamlText ∧
        ∀ maskingKey, Foretold deps maskingKey yamlText s.relay.db after.2.relay.db) ∧
      (¬Applicable deps yamlText → after.2 = s) := by
  intro s after
  have sound : s.Sound hash := Deployment.sound_run injective digests
  have same := sound.digest deps.yaml (Phase.yaml_of_deps serving)
  rcases @postConfig_cases deps yamlText s.db world.left { world with managed := s.relay.status.managed }
    given unowned with ⟨e, fails, ends⟩ | ⟨loaded, parsed, returns, outcome, db', ends, versions, routes, fine⟩
  · have done : after = (if world.replies then some (errorReply 422 (deps.message e)) else none, s) := by
      show s.request deps world (.config (some yamlText)) = _
      unfold Deployment.request serve handle
      dsimp only
      rw [ends]
      rfl
    refine ⟨fun applicable whole _ _ => ?_, fun reply sent ok => ?_, fun _ => congrArg Prod.snd done⟩
    · obtain ⟨loaded, parsed, present⟩ := applicable_iff.mp applicable
      rw [whole, saveConfig_runs parsed (secrets_present_iff.mpr present)] at fails
      cases fails
    · rw [done] at sent
      dsimp only at sent
      split at sent
      · obtain rfl := Option.some.inj sent
        exact absurd ok (show (422 : Nat) ≠ 200 by decide)
      · cases sent
  · have applicable : Applicable deps yamlText :=
      applicable_iff.mpr ⟨loaded, parsed, secrets_of_saveConfig returns⟩
    have kept : after.2.relay.db = db'.app := by
      show (s.request deps world (.config (some yamlText))).2.relay.db = _
      unfold Deployment.request serve handle
      dsimp only
      rw [ends]
      rfl
    refine ⟨fun _ _ spared replies => ?_, fun _ _ _ => ⟨applicable, fun maskingKey => ?_⟩,
      fun not => absurd applicable not⟩
    · obtain ⟨reply, rfl, ok⟩ := fine spared
      refine ⟨reply, ?_, ok⟩
      show (s.request deps world (.config (some yamlText))).1 = _
      unfold Deployment.request serve handle
      dsimp only
      rw [ends]
      exact if_pos replies
    · rw [kept]
      exact foretold_of_saved injective same sound.hashed maskingKey given parsed versions routes

/-- Its environment has the secret of the sample routes, too. -/
def secretBoot : BootWorld :=
  { sampleBoot with env := fun name => if name = "SECRET" then some "s" else sampleBoot.env name }

theorem draft_foretold_sample : ∃ deps reply,
    (Deployment.machine.run [.boot sampleBuild secretBoot]).phase.deps? = some deps ∧
      ((Deployment.machine.run [.boot sampleBuild secretBoot]).request deps { now := 1 }
        (.config (some (sampleYaml "ach")))).1 = some reply ∧ reply.status = 200 := by
  have checked : (Deployment.machine.run [.boot sampleBuild secretBoot]).phase.deps?.any
      (fun deps => decide (Applicable deps (sampleYaml "ach"))) = true := by decide +kernel
  obtain ⟨deps, serving, applicable⟩ := (Option.any_eq_true _ _).mp checked
  have digests : ∀ a ∈ [StartupAction.boot sampleBuild secretBoot],
      a.Digests (Runtime.knowing []).sha256Hex := List.forall_mem_singleton.mpr rfl
  obtain ⟨reply, sent, fine⟩ := (draft_foretold (Runtime.sha256Hex_knowing_injective []) digests serving
    (by decide +kernel) (by decide +kernel) { now := 1 }).1 (of_decide_eq_true applicable) rfl rfl rfl
  exact ⟨deps, reply, serving, sent, fine⟩

end EndCloseRelay.App
