import EndCloseRelay.App.Database

/-!
# The configuration store

`config/load.ts` and `config/store.ts`: the latest row of `config_versions` is
the configuration, and saving one materialises its routes in the same
transaction.  The package `yaml` is a parameter.
-/

namespace EndCloseRelay.App

open Interaction

/-- What the platform and the package `yaml` provide. -/
structure ConfigRuntime where
  /-- `parse(text)`. -/
  parseYaml : Js.Units → Except String Json
  /-- `stringify(document)`. -/
  stringifyYaml : Json → String
  /-- `createHash('sha256').update(bytes).digest('hex')`. -/
  sha256Hex : Bytes → String

/-- `LoadedConfig`. -/
structure LoadedConfig where
  routes : List RouteConfig
  yamlText : String
  hash : String

/-- `SecretResolver`: the value a reference resolves to, if any. -/
abbrev SecretResolver := String → Option Secret

/-! ## Reading -/

/-- The hash of a configuration's text. -/
def configHash (rt : ConfigRuntime) (yamlText : String) : String :=
  "sha256:" ++ rt.sha256Hex (utf8 yamlText)

/-- `parseConfig(yamlText)` of any JavaScript text.  What is stored of the text, and
what is hashed, is what an encoder makes of it. -/
def parseText (rt : ConfigRuntime) (yamlText : Js.Units) : Except AppError LoadedConfig := do
  let raw ← (rt.parseYaml yamlText).mapError .yaml
  let routes ← (parseRoutes raw).mapError .routes
  return { routes, yamlText := Js.shown yamlText, hash := configHash rt (Js.shown yamlText) }

/-- `parseConfig(yamlText)`. -/
def parseConfig (rt : ConfigRuntime) (yamlText : String) : Except AppError LoadedConfig :=
  parseText rt (Js.units yamlText)

/-- `readActiveConfigRaw(db)`. -/
def readActiveConfigRaw (db : Db) : Option String := db.configVersions.head?.map (·.configYaml)

/-- `getActiveConfig(db)`. -/
def getActiveConfig (rt : ConfigRuntime) (db : Db) : Option LoadedConfig :=
  (readActiveConfigRaw db).bind fun yamlText => (parseConfig rt yamlText).toOption

/-! ## Saving -/

/-- `requireSecret(secrets, ref)`. -/
def requireSecret (secrets : SecretResolver) (ref : String) : Except AppError Secret :=
  match secrets ref with
  | some value => .ok value
  | none => .error (.secretUnavailable ref)

/-- The `INSERT` into `config_versions`. -/
def insertVersion (now : Int) (loaded : LoadedConfig) (appliedBy : String) (db : Db) : Db :=
  { db with
    configVersions :=
      { id := (db.configVersions.head?.map (·.id)).getD 0 + 1
        appliedAt := now
        configHash := loaded.hash
        configYaml := loaded.yamlText
        appliedBy } :: db.configVersions }

/-- The audit entry of an apply. -/
def logApply (now : Int) (loaded : LoadedConfig) (appliedBy : String) : Db → Db :=
  AuditRepo.log now appliedBy "config.apply"
    [("config_hash", .str loaded.hash), ("routes", .num (.ofNat loaded.routes.length))]

/-- What the transaction of `saveConfig` does with a new configuration. -/
def applyVersion (loaded : LoadedConfig) (appliedBy : String) (now : Int) : Script Unit := do
  RoutesRepo.upsertAll loaded.routes
  let ids := loaded.routes.map RouteConfig.id
  let pausedRoutes ← query KvRepo.pausedRoutes
  (pausedRoutes.filter (· ∉ ids)).forM fun paused => update (KvRepo.setRoutePaused paused false)
  update (insertVersion now loaded appliedBy)
  update (logApply now loaded appliedBy)

/-- The body of that transaction. -/
def saveBody (loaded : LoadedConfig) (appliedBy : String) (now : Int) : Script Unit := do
  let last ← query fun db => db.configVersions.head?.map (·.configHash)
  if last = some loaded.hash then pure () else applyVersion loaded appliedBy now

/-- `saveConfig(db, yamlText, appliedBy, secrets)` of any JavaScript text. -/
def saveText (rt : ConfigRuntime) (yamlText : Js.Units) (appliedBy : String) (secrets : SecretResolver)
    (now : Int) : Script LoadedConfig := do
  let loaded ← liftExcept (parseText rt yamlText)
  liftExcept (loaded.routes.forM fun route => do
    let _ ← requireSecret secrets route.auth.secretEnv)
  transaction (saveBody loaded appliedBy now)
  return loaded

/-- `saveConfig(db, yamlText, appliedBy, secrets)`. -/
def saveConfig (rt : ConfigRuntime) (yamlText appliedBy : String) (secrets : SecretResolver)
    (now : Int) : Script LoadedConfig :=
  saveText rt (Js.units yamlText) appliedBy secrets now

/-! ## A runtime for runs on fixed inputs -/

/-- The document of a text that is known. -/
def knownDocument (documents : List (String × Json)) (text : String) : Except String Json :=
  match documents.lookup text with
  | some document => .ok document
  | none => .error "Unexpected token"

/-- The package on texts known to it, whose hash spells out its input. -/
def ConfigRuntime.knowing (documents : List (String × Json)) : ConfigRuntime where
  parseYaml text := knownDocument documents (Js.shown text)
  stringifyYaml document :=
    ((documents.find? fun known => Json.stringify known.2 == Json.stringify document).map
      Prod.fst).getD ""
  sha256Hex := (Runtime.knowing []).sha256Hex

theorem parseConfig_knowing (documents : List (String × Json)) (yamlText : String) :
    parseConfig (.knowing documents) yamlText =
      ((knownDocument documents yamlText).mapError AppError.yaml).bind fun raw =>
        ((parseRoutes raw).mapError AppError.routes).bind fun routes =>
          .ok { routes, yamlText, hash := configHash (.knowing documents) yamlText } := by
  have read : (ConfigRuntime.knowing documents).parseYaml (Js.units yamlText) =
      knownDocument documents yamlText := congrArg (knownDocument documents) (Js.shown_units yamlText)
  unfold parseConfig parseText
  rw [Js.shown_units, read]
  rfl

/-- One route. -/
def sampleRoutes (id : String) : Json :=
  .arr [.obj [("id", .str id), ("source", .str "payabli"),
    ("auth", .obj [("mode", .str "static_header"), ("secret_env", .str "SECRET")]),
    ("map", .obj [("data_stream_key", .str "payments"), ("external_id", .str "TransactionId"),
      ("amount", .str "amount"), ("direction", .str "credit")])]]

/-- A document with that route. -/
def sampleDocument (id : String) : Json := .obj [("routes", sampleRoutes id)]

/-- Its text. -/
def sampleYaml (id : String) : String :=
  "routes:\n  - id: " ++ id ++ "\n    source: payabli\n    auth:\n      mode: static_header\n" ++
    "      secret_env: SECRET\n    map:\n      data_stream_key: payments\n" ++
    "      external_id: TransactionId\n      amount: amount\n      direction: credit\n"

/-- It knows the documents of two routes. -/
def sampleConfigRuntime : ConfigRuntime :=
  .knowing (["ach", "cards"].map fun id => (sampleYaml id, sampleDocument id))

/-- It resolves the one secret. -/
def sampleSecrets : SecretResolver := fun ref => if ref = "SECRET" then some (.text "s") else none

/-! ## What saving comes to -/

/-- The database with a configuration's routes in the place of those it had. -/
def materialized (routes : List RouteConfig) (db : Db) : Db :=
  RoutesRepo.removeMissing (routes.map RouteConfig.id)
    (routes.foldl (fun db route => RoutesRepo.upsert route db) db)

/-- The database without the pause flags of other routes than these. -/
def withoutPauses (ids : List String) (db : Db) : Db :=
  ((KvRepo.pausedRoutes db).filter (· ∉ ids)).foldl
    (fun db paused => KvRepo.setRoutePaused paused false db) db

/-- The database with a new version. -/
def applied (loaded : LoadedConfig) (appliedBy : String) (now : Int) (db : Db) : Db :=
  logApply now loaded appliedBy (insertVersion now loaded appliedBy
    (withoutPauses (loaded.routes.map RouteConfig.id) (materialized loaded.routes db)))

/-- The database after saving: the same if it holds the text already. -/
def saved (loaded : LoadedConfig) (appliedBy : String) (now : Int) (db : Db) : Db :=
  if db.configVersions.head?.map (·.configHash) = some loaded.hash then db
  else applied loaded appliedBy now db

theorem steady_query {α : Type} (read : Db → α) : Sql.Steady (query read) := Sql.Steady.statement _ _

theorem steady_update (write : Db → Db) : Sql.Steady (update write) := Sql.Steady.statement _ _

theorem steady_upsertAll (routes : List RouteConfig) : Sql.Steady (RoutesRepo.upsertAll routes) :=
  Sql.Steady.transaction ((Sql.Steady.forM fun _ => steady_update _).bind fun _ => steady_update _)

theorem steady_saveBody (loaded : LoadedConfig) (appliedBy : String) (now : Int) :
    Sql.Steady (saveBody loaded appliedBy now) := by
  refine (steady_query _).bind fun last => ?_
  split
  · exact Sql.Steady.pure _
  · refine (steady_upsertAll _).bind fun _ => (steady_query _).bind fun _ => ?_
    refine (Sql.Steady.forM fun _ => steady_update _).bind fun _ => ?_
    exact (steady_update _).bind fun _ => steady_update _

theorem run_upsertAll (routes : List RouteConfig) (db : Db) :
    (RoutesRepo.upsertAll routes).run.run { db } = (.ok (), { db := materialized routes db }) := by
  refine Sql.run_transaction ?_
  rw [Sql.run_bind_ok (@Sql.run_forM _ _ _ _ _ RoutesRepo.upsert (fun _ _ => rfl) db)]
  rfl

theorem run_saveBody (loaded : LoadedConfig) (appliedBy : String) (now : Int) (db : Db) :
    (saveBody loaded appliedBy now).run.run { db } = (.ok (), { db := saved loaded appliedBy now db }) := by
  unfold saveBody saved query
  rw [Sql.run_statement_bind]
  split
  · rfl
  · unfold applyVersion query
    rw [Sql.run_bind_ok (run_upsertAll _ _), Sql.run_statement_bind,
      Sql.run_bind_ok (@Sql.run_forM _ _ _ _ _ (fun paused => KvRepo.setRoutePaused paused false)
        (fun _ _ => rfl) _)]
    rfl

/-- A text with a secret that is not set is refused. -/
theorem saveText_unset {rt : ConfigRuntime} {yamlText : Js.Units} {secrets : SecretResolver}
    {loaded : LoadedConfig} {e : AppError} (parsed : parseText rt yamlText = .ok loaded)
    (unset : (loaded.routes.forM fun route => do
      let _ ← requireSecret secrets route.auth.secretEnv : Except AppError Unit) = .error e)
    (appliedBy : String) (now : Int) (db : Db) (left : Option Nat) :
    (saveText rt yamlText appliedBy secrets now).on db left = (.error e, db) := by
  unfold saveText
  simp only [parsed, liftExcept, pure_bind, unset]
  rfl

/-- Saving throws and changes nothing, or it parsed the text and saved it. -/
theorem saveText_cases (rt : ConfigRuntime) (yamlText : Js.Units) (appliedBy : String)
    (secrets : SecretResolver) (now : Int) (db : Db) (left : Option Nat) :
    (∃ e, (saveText rt yamlText appliedBy secrets now).on db left = (.error e, db)) ∨
      ∃ loaded, parseText rt yamlText = .ok loaded ∧
        (saveText rt yamlText appliedBy secrets now).on db left =
          (.ok loaded, saved loaded appliedBy now db) := by
  cases parsed : parseText rt yamlText with
  | error e =>
    refine .inl ⟨e, ?_⟩
    unfold saveText
    rw [parsed]
    rfl
  | ok loaded =>
    cases present : (loaded.routes.forM fun route => do
        let _ ← requireSecret secrets route.auth.secretEnv : Except AppError Unit) with
    | error e => exact .inl ⟨e, saveText_unset parsed present appliedBy now db left⟩
    | ok u =>
      unfold saveText
      simp only [parsed, liftExcept, pure_bind, present]
      rcases @Sql.run_transaction_cases _ _ _ .sqlite _ (steady_saveBody loaded appliedBy now)
        _ _ _ (run_saveBody loaded appliedBy now db) left with ⟨e, s, fails, undone⟩ | ⟨left', runs⟩
      · refine .inl ⟨e, ?_⟩
        unfold Sql.on transaction
        rw [Sql.run_bind, fails]
        exact congrArg (Prod.mk _) undone
      · refine .inr ⟨loaded, rfl, ?_⟩
        unfold Sql.on transaction
        rw [Sql.run_bind_ok runs]
        rfl

theorem saveConfig_cases (rt : ConfigRuntime) (yamlText appliedBy : String) (secrets : SecretResolver)
    (now : Int) (db : Db) (left : Option Nat) :
    (∃ e, (saveConfig rt yamlText appliedBy secrets now).on db left = (.error e, db)) ∨
      ∃ loaded, parseConfig rt yamlText = .ok loaded ∧
        (saveConfig rt yamlText appliedBy secrets now).on db left =
          (.ok loaded, saved loaded appliedBy now db) :=
  saveText_cases rt (Js.units yamlText) appliedBy secrets now db left

/-- A text that parses and whose secrets resolve is saved where nothing fails. -/
theorem saveText_runs {rt : ConfigRuntime} {yamlText : Js.Units} {secrets : SecretResolver}
    {loaded : LoadedConfig} (parsed : parseText rt yamlText = .ok loaded)
    (present : (loaded.routes.forM fun route => do
      let _ ← requireSecret secrets route.auth.secretEnv : Except AppError Unit) = .ok ())
    (appliedBy : String) (now : Int) (db : Db) :
    (saveText rt yamlText appliedBy secrets now).on db none =
      (.ok loaded, saved loaded appliedBy now db) := by
  unfold saveText
  simp only [parsed, liftExcept, pure_bind, present]
  unfold Sql.on transaction
  rw [Sql.run_bind_ok (Sql.run_transaction (run_saveBody loaded appliedBy now db))]
  rfl

theorem saveConfig_runs {rt : ConfigRuntime} {yamlText : String} {secrets : SecretResolver}
    {loaded : LoadedConfig} (parsed : parseConfig rt yamlText = .ok loaded)
    (present : (loaded.routes.forM fun route => do
      let _ ← requireSecret secrets route.auth.secretEnv : Except AppError Unit) = .ok ())
    (appliedBy : String) (now : Int) (db : Db) :
    (saveConfig rt yamlText appliedBy secrets now).on db none =
      (.ok loaded, saved loaded appliedBy now db) :=
  saveText_runs parsed present appliedBy now db

end EndCloseRelay.App
