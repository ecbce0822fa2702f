import EndCloseRelay.App.Configuration
import EndCloseRelay.App.RemoteConfig

/-!
# Runs of the application beside End Close

The application between boots: checks that are under way, applies through the
admin plane, restarts.  The state carries what End Close has served and its
last answer about who owns the configuration, which the application itself does
not keep.
-/

namespace EndCloseRelay.App

open Interaction

/-! ## The machine -/

/-- The process, its database, and what End Close has said. -/
structure Relay where
  db : Db
  opts : RemoteCheckOptions
  status : RemoteConfigStatus
  /-- The check whose answer is awaited. -/
  inFlight : Option Pending := none
  /-- The routes documents served with an ETag, latest first. -/
  served : List (String × Json) := []
  /-- Whether the last answer of 200, 304 or 404 says that End Close owns the configuration. -/
  owned : Option Bool := none

/-- What can happen to the application. -/
inductive RelayAction
  /-- `check()`; `left` is the read that fails. -/
  | ask (now : Int) (left : Option Nat)
  /-- The answer of the check that is under way. -/
  | answer (answer : ConfigAnswer) (now : Int) (faults : Faults)
  /-- `POST /config`. -/
  | apply (yamlText : String) (now : Int) (left : Option Nat)
  /-- The seed file of an empty database. -/
  | seed (yamlText : String) (now : Int) (left : Option Nat)
  /-- The process stops, whatever is under way, and starts again. -/
  | restart (opts : RemoteCheckOptions)

namespace Relay

/-- A process that has just started. -/
def boot (rt : ConfigRuntime) (opts : RemoteCheckOptions) (db : Db) : Relay where
  db := db
  opts := opts
  status := .new rt opts db

/-- The routes document of an answer with an ETag. -/
def documentOf (answer : ConfigAnswer) : Option (String × Json) := do
  let .ok (.document body (some etag)) := getRelayConfig none answer | none
  let (document, _) ← routesDocument body
  return (etag, document)

/-- What an answer says about who owns the configuration. -/
def ownedBy (pending : Pending) (answer : ConfigAnswer) : Option Bool :=
  match fetchRemoteConfig pending.etag answer with
  | .ok _ => some true
  | .error error => if error.kind = .notFound then some false else none

/-- `check()` up to the request; while one is under way it joins that. -/
def ask (rt : ConfigRuntime) (s : Relay) (now : Int) (left : Option Nat) : Relay :=
  if s.inFlight.isSome then s
  else if !s.opts.asks then
    { s with
      status := s.status.record now (.disabled (if s.opts.enabled then "no_api_key" else "env")) }
  else match ((beginCheck rt).on s.db left).1 with
    | .ok pending => { s with inFlight := some pending }
    | .error error => { s with status := s.status.record now (caught (.error error)) }

/-- `check()` from the answer on. -/
def conclude (rt : ConfigRuntime) (s : Relay) (pending : Pending) (answer : ConfigAnswer) (now : Int)
    (faults : Faults) : Relay :=
  let ended := (endCheck rt s.opts.secrets now faults pending answer).on s.db none
  { s with
    db := ended.2
    status := s.status.record now (caught ended.1)
    inFlight := none
    served := (documentOf answer).toList ++ s.served
    owned := (ownedBy pending answer).or s.owned }

/-- `saveConfig` by someone. -/
def save (rt : ConfigRuntime) (s : Relay) (yamlText appliedBy : String) (now : Int)
    (left : Option Nat) : Relay :=
  { s with db := ((saveConfig rt yamlText appliedBy s.opts.secrets now).on s.db left).2 }

/-- One action. -/
def step (rt : ConfigRuntime) (s : Relay) : RelayAction → Relay
  | .ask now left => s.ask rt now left
  | .answer answer now faults =>
    match s.inFlight with
    | none => s
    | some pending => s.conclude rt pending answer now faults
  | .apply yamlText now left =>
    if s.status.managed then s else s.save rt yamlText "admin" now left
  | .seed yamlText now left =>
    if (readActiveConfigRaw s.db).isSome then s else s.save rt yamlText "seed" now left
  | .restart opts => { s with opts, status := .new rt opts s.db, inFlight := none }

/-- The application from its first boot on. -/
def machine (rt : ConfigRuntime) (opts : RemoteCheckOptions) : Machine Relay RelayAction where
  init := boot rt opts {}
  step := step rt

end Relay

/-! ## Rows of `kv` -/

section

variable {rt : ConfigRuntime} {db db' : Db}

theorem get_set (db : Db) (key value key' : String) :
    KvRepo.get (KvRepo.set key value db) key' = if key' = key then some value else KvRepo.get db key' := by
  unfold KvRepo.get KvRepo.set
  split
  · rename_i same
    rw [same, AList.lookup_insert]
  · rename_i other
    rw [AList.lookup_insert_ne other]

theorem get_delete (db : Db) (key key' : String) :
    KvRepo.get (KvRepo.delete key db) key' = if key' = key then none else KvRepo.get db key' := by
  unfold KvRepo.get KvRepo.delete
  split
  · rename_i same
    rw [same, AList.lookup_erase]
  · rename_i other
    rw [AList.lookup_erase_ne other]

/-- `set` or `delete`. -/
def put (key : String) (value : Option String) (db : Db) : Db :=
  match value with
  | some value => KvRepo.set key value db
  | none => KvRepo.delete key db

theorem get_put (db : Db) (key : String) (value : Option String) (key' : String) :
    KvRepo.get (put key value db) key' = if key' = key then value else KvRepo.get db key' := by
  cases value with
  | some value => exact get_set db key value key'
  | none => exact get_delete db key key'

theorem put_frame (db : Db) (key : String) (value : Option String) :
    (put key value db).configVersions = db.configVersions ∧ (put key value db).routes = db.routes := by
  cases value <;> exact ⟨rfl, rfl⟩

/-- No row of a pause flag has one of the keys that a check writes. -/
theorem pauseKey_ne (id : String) : KvRepo.routePausedPrefix ++ id ≠ etagKey ∧
    KvRepo.routePausedPrefix ++ id ≠ hashKey ∧ KvRepo.routePausedPrefix ++ id ≠ environmentKey := by
  have first : ∀ key : String, key.toList.take 2 = ['r', 'e'] →
      KvRepo.routePausedPrefix ++ id ≠ key := by
    rintro key starts rfl
    rw [String.toList_append] at starts
    cases starts
  exact ⟨first _ rfl, first _ rfl, first _ rfl⟩

/-- The invariant of the configuration is about the routes, the versions and the flags. -/
theorem Kept.congr (kept : Kept rt db) (versions : db'.configVersions = db.configVersions)
    (routes : db'.routes = db.routes)
    (flags : ∀ id, KvRepo.get db' (KvRepo.routePausedPrefix ++ id) =
      KvRepo.get db (KvRepo.routePausedPrefix ++ id)) : Kept rt db' := by
  have latest := @latestRoutes_congr rt _ _ versions
  refine ⟨?_, ?_, ?_, ?_, ?_⟩
  · rw [routes, latest]
    exact kept.rows
  · rw [latest]
    intro route member
    rw [RoutesRepo.get, routes]
    exact kept.readBack route member
  · rw [latest]
    intro id paused
    rw [KvRepo.isRoutePaused, flags] at paused
    exact kept.paused id paused
  · rw [versions]
    exact kept.versions
  · rw [versions]
    exact kept.changing

theorem getActiveConfig_congr (versions : db'.configVersions = db.configVersions) :
    getActiveConfig rt db' = getActiveConfig rt db := by
  rw [getActiveConfig, getActiveConfig, readActiveConfigRaw, readActiveConfigRaw, versions]

namespace Relay

variable {s : Relay}

/-- What `check()` does before there is an answer. -/
theorem ask_cases (rt : ConfigRuntime) (s : Relay) (now : Int) (left : Option Nat) :
    s.ask rt now left = s ∨
      (s.opts.asks = false ∧ ∃ reason,
        s.ask rt now left = { s with status := s.status.record now (.disabled reason) }) ∨
      (∃ pending, ((beginCheck rt).on s.db left).1 = .ok pending ∧
        s.ask rt now left = { s with inFlight := some pending }) ∨
      ∃ error, s.ask rt now left =
        { s with status := s.status.record now (caught (.error error)) } := by
  unfold ask
  by_cases busy : s.inFlight.isSome
  · exact .inl (if_pos busy)
  · rw [if_neg busy]
    cases asks : s.opts.asks with
    | false => exact .inr (.inl ⟨rfl, _, rfl⟩)
    | true =>
      refine .inr (.inr ?_)
      show (∃ pending, _ ∧ (match ((beginCheck rt).on s.db left).1 with
        | .ok pending => { s with inFlight := some pending }
        | .error error => { s with status := s.status.record now (caught (.error error)) } : Relay) =
          _) ∨ _
      cases begun : ((beginCheck rt).on s.db left).1 with
      | ok pending => exact .inl ⟨pending, rfl, rfl⟩
      | error error => exact .inr ⟨error, rfl⟩

end Relay

/-! ## What a check asks with -/

/-- A check under way read the configuration, and sends the ETag that is kept if the
hash that is kept is its own. -/
theorem pending_of_beginCheck {left : Option Nat} {pending : Pending}
    (begun : ((beginCheck rt).on db left).1 = .ok pending) :
    pending.stored = getActiveConfig rt db ∧ ∀ etag, pending.etag = some etag →
      ∃ stored, getActiveConfig rt db = some stored ∧ KvRepo.get db hashKey = some stored.hash ∧
        KvRepo.get db etagKey = some etag := by
  unfold Sql.on beginCheck at begun
  rw [Sql.run_bind] at begun
  rcases query_cases (getActiveConfig rt) { db, left } with ⟨s, fails, -⟩ | ⟨s, reads, same⟩
  · rw [fails] at begun
    cases begun
  · rw [reads] at begun
    cases stored : getActiveConfig rt db with
    | none =>
      simp only [stored] at begun
      obtain rfl := Except.ok.inj begun
      exact ⟨rfl, fun etag sent => by cases sent⟩
    | some loaded =>
      simp only [stored] at begun
      rw [Sql.run_bind] at begun
      rcases query_cases (fun db => KvRepo.get db hashKey) s with ⟨s', fails, -⟩ | ⟨s', reads', same'⟩
      · rw [fails] at begun
        cases begun
      · rw [reads', same] at begun
        simp only at begun
        by_cases own : KvRepo.get db hashKey = some loaded.hash
        · rw [if_pos own, Sql.run_bind] at begun
          rcases query_cases (fun db => KvRepo.get db etagKey) s' with
            ⟨s'', fails, -⟩ | ⟨s'', reads'', -⟩
          · rw [fails] at begun
            cases begun
          · rw [reads'', same', same] at begun
            obtain rfl := Except.ok.inj begun
            refine ⟨rfl, fun etag sent => ⟨loaded, rfl, own, ?_⟩⟩
            exact (Option.filter_eq_some_iff.mp sent).1
        · rw [if_neg own] at begun
          obtain rfl := Except.ok.inj begun
          exact ⟨rfl, fun etag sent => by cases sent⟩

/-- The check that is under way when no read fails. -/
theorem beginCheck_runs (rt : ConfigRuntime) (db : Db) :
    ((beginCheck rt).on db none).1 = .ok
      { stored := getActiveConfig rt db
        etag := (getActiveConfig rt db).bind fun stored =>
          if KvRepo.get db hashKey = some stored.hash then (KvRepo.get db etagKey).filter (· != "")
          else none } := by
  unfold Sql.on beginCheck query
  rw [Sql.run_statement_bind]
  cases stored : getActiveConfig rt db with
  | none => rfl
  | some loaded =>
    simp only
    rw [Sql.run_statement_bind]
    rw [Option.bind_some]
    by_cases own : KvRepo.get db hashKey = some loaded.hash
    · simp only [if_pos own]
      rfl
    · simp only [if_neg own]
      rfl

/-- A check that asks, where no read fails. -/
theorem Relay.ask_runs {s : Relay} (idle : s.inFlight = none) (asks : s.opts.asks) (now : Int) :
    s.ask rt now none = { s with
      inFlight := some
        { stored := getActiveConfig rt s.db
          etag := (getActiveConfig rt s.db).bind fun stored =>
            if KvRepo.get s.db hashKey = some stored.hash then
              (KvRepo.get s.db etagKey).filter (· != "")
            else none } } := by
  unfold Relay.ask
  rw [idle, asks, beginCheck_runs]
  rfl

/-- The text of the active configuration is known by its hash. -/
theorem text_of_active (injective : Function.Injective rt.sha256Hex) {stored : LoadedConfig}
    {yamlText : String} (active : getActiveConfig rt db = some stored)
    (hash : stored.hash = configHash rt yamlText) : readActiveConfigRaw db = some yamlText := by
  obtain ⟨text, read, parsed⟩ := Option.bind_eq_some_iff.mp active
  cases reads : parseConfig rt text with
  | error e =>
    rw [reads] at parsed
    cases parsed
  | ok loaded =>
    rw [reads] at parsed
    obtain rfl := Option.some.inj parsed
    rw [read, configHash_injective injective ((parsed_of_parseConfig reads).2.1.symm.trans hash)]

/-! ## What a save leaves -/

/-- A save leaves every row of `kv` that is no pause flag. -/
theorem get_saved (loaded : LoadedConfig) (appliedBy : String) (now : Int) (db : Db) {key : String}
    (other : ∀ id, KvRepo.routePausedPrefix ++ id ≠ key) :
    KvRepo.get (saved loaded appliedBy now db) key = KvRepo.get db key := by
  unfold saved
  split
  · rfl
  · rw [KvRepo.get, (applied_frame loaded appliedBy now).2.2.2, kv_withoutPauses,
      lookup_foldl_erase, if_neg, (materialized_frame loaded.routes).1]
    · rfl
    · intro dropped
      obtain ⟨id, -, same⟩ := List.mem_map.mp dropped
      exact other id same

/-- After a save the active configuration has the hash of what was saved. -/
theorem hash_saved {yamlText : String} {loaded : LoadedConfig} (kept : Kept rt db)
    (parsed : parseConfig rt yamlText = .ok loaded) (appliedBy : String) (now : Int) :
    (getActiveConfig rt (saved loaded appliedBy now db)).map (·.hash) = some loaded.hash := by
  have active : ∀ (version : ConfigVersion) (versions : List ConfigVersion) (found : LoadedConfig)
      (db : Db), db.configVersions = version :: versions →
      parseConfig rt version.configYaml = .ok found → getActiveConfig rt db = some found := by
    intro version versions found db listed reads
    rw [getActiveConfig, readActiveConfigRaw, listed]
    show (parseConfig rt version.configYaml).toOption = _
    rw [reads]
    rfl
  unfold saved
  split
  · rename_i same
    cases versions : db.configVersions with
    | nil =>
      rw [versions] at same
      cases same
    | cons version earlier =>
      rw [versions] at same
      obtain ⟨found, reads, hashed⟩ := kept.versions version (versions ▸ List.mem_cons_self)
      rw [active version earlier found db versions reads]
      exact (congrArg some hashed.symm).trans same
  · have reparsed : parseConfig rt (versionOf loaded appliedBy now db).configYaml = .ok loaded := by
      show parseConfig rt loaded.yamlText = _
      rw [(parsed_of_parseConfig parsed).1, parsed]
    rw [active _ _ _ _ (applied_frame loaded appliedBy now).1 reparsed]
    rfl

/-! ## What a check writes -/

/-- A row of `kv` set, or deleted. -/
def kvPut (faults : Faults) (key : String) : Option String → Script Unit
  | some value => kvSet faults key value
  | none => kvDelete faults key

/-- The three writes of a check. -/
def marks (faults : Faults) (etag hash environment : Option String) : Script Unit := do
  kvPut faults etagKey etag
  kvPut faults hashKey hash
  kvPut faults environmentKey environment

/-- None of the three writes fails. -/
def Faults.spare (faults : Faults) : Prop :=
  etagKey ∉ faults.kv ∧ hashKey ∉ faults.kv ∧ environmentKey ∉ faults.kv

/-- What the writes leave: each one happens if it and those before it do not fail. -/
structure Marked (faults : Faults) (etag hash : Option String) (db db' : Db) : Prop where
  etag : KvRepo.get db' etagKey =
    if etagKey ∈ faults.kv then KvRepo.get db etagKey else etag
  hash : KvRepo.get db' hashKey =
    if etagKey ∈ faults.kv ∨ hashKey ∈ faults.kv then KvRepo.get db hashKey else hash
  versions : db'.configVersions = db.configVersions
  routes : db'.routes = db.routes
  flags : ∀ id, KvRepo.get db' (KvRepo.routePausedPrefix ++ id) =
    KvRepo.get db (KvRepo.routePausedPrefix ++ id)

theorem run_kvPut (faults : Faults) (key : String) (value : Option String) (db : Db) :
    (kvPut faults key value).run.run { db } =
      if key ∈ faults.kv then (.error .sqlite, { db }) else (.ok (), { db := put key value db }) := by
  cases value with
  | some value =>
    show (kvSet faults key value).run.run { db } = _
    unfold kvSet
    split <;> rfl
  | none =>
    show (kvDelete faults key).run.run { db } = _
    unfold kvDelete
    split <;> rfl

theorem flags_put {key : String} (value : Option String) (db : Db) (id : String)
    (other : KvRepo.routePausedPrefix ++ id ≠ key) :
    KvRepo.get (put key value db) (KvRepo.routePausedPrefix ++ id) =
      KvRepo.get db (KvRepo.routePausedPrefix ++ id) := by
  rw [get_put, if_neg other]

/-- The writes end where the first of them fails. -/
theorem run_marks (faults : Faults) (etag hash environment : Option String) (db : Db) :
    ∃ db', Marked faults etag hash db db' ∧
      ((faults.spare ∧ (marks faults etag hash environment).run.run { db } = (.ok (), { db := db' })) ∨
        (¬ faults.spare ∧ (marks faults etag hash environment).run.run { db } =
          (.error .sqlite, { db := db' }))) := by
  have keys : hashKey ≠ etagKey ∧ etagKey ≠ hashKey ∧ etagKey ≠ environmentKey ∧
      hashKey ≠ environmentKey := by decide
  obtain ⟨hashEtag, etagHash, etagEnvironment, hashEnvironment⟩ := keys
  unfold marks
  rw [Sql.run_bind, run_kvPut]
  by_cases noEtag : etagKey ∈ faults.kv
  · refine ⟨db, ⟨?_, ?_, rfl, rfl, fun _ => rfl⟩, .inr ⟨fun spare => spare.1 noEtag, ?_⟩⟩
    · rw [if_pos noEtag]
    · rw [if_pos (.inl noEtag)]
    · rw [if_pos noEtag]
  · rw [if_neg noEtag]
    simp only
    rw [Sql.run_bind, run_kvPut]
    by_cases noHash : hashKey ∈ faults.kv
    · refine ⟨put etagKey etag db, ⟨?_, ?_, (put_frame _ _ _).1, (put_frame _ _ _).2, fun id => ?_⟩,
        .inr ⟨fun spare => spare.2.1 noHash, ?_⟩⟩
      · rw [if_neg noEtag, get_put, if_pos rfl]
      · rw [if_pos (.inr noHash), get_put, if_neg hashEtag]
      · exact flags_put _ _ _ (pauseKey_ne id).1
      · rw [if_pos noHash]
    · have written : ¬ (etagKey ∈ faults.kv ∨ hashKey ∈ faults.kv) := not_or.mpr ⟨noEtag, noHash⟩
      rw [if_neg noHash]
      simp only
      rw [run_kvPut]
      by_cases noEnvironment : environmentKey ∈ faults.kv
      · refine ⟨put hashKey hash (put etagKey etag db), ⟨?_, ?_, ?_, ?_, fun id => ?_⟩,
          .inr ⟨fun spare => spare.2.2 noEnvironment, ?_⟩⟩
        · rw [if_neg noEtag, get_put, if_neg etagHash, get_put, if_pos rfl]
        · rw [if_neg written, get_put, if_pos rfl]
        · rw [(put_frame _ _ _).1, (put_frame _ _ _).1]
        · rw [(put_frame _ _ _).2, (put_frame _ _ _).2]
        · rw [flags_put _ _ _ (pauseKey_ne id).2.1, flags_put _ _ _ (pauseKey_ne id).1]
        · rw [if_pos noEnvironment]
      · refine ⟨put environmentKey environment (put hashKey hash (put etagKey etag db)),
          ⟨?_, ?_, ?_, ?_, fun id => ?_⟩, .inl ⟨⟨noEtag, noHash, noEnvironment⟩, ?_⟩⟩
        · rw [if_neg noEtag, get_put, if_neg etagEnvironment, get_put, if_neg etagHash, get_put,
            if_pos rfl]
        · rw [if_neg written, get_put, if_neg hashEnvironment, get_put, if_pos rfl]
        · rw [(put_frame _ _ _).1, (put_frame _ _ _).1, (put_frame _ _ _).1]
        · rw [(put_frame _ _ _).2, (put_frame _ _ _).2, (put_frame _ _ _).2]
        · rw [flags_put _ _ _ (pauseKey_ne id).2.2, flags_put _ _ _ (pauseKey_ne id).2.1,
            flags_put _ _ _ (pauseKey_ne id).1]
        · rw [if_neg noEnvironment]

theorem keepRemote_eq (faults : Faults) (config : RemoteConfig) (loaded : LoadedConfig) :
    keepRemote faults config loaded = marks faults config.etag
      (config.etag.map fun _ => loaded.hash) (config.environment.filter (· != "")) := by
  unfold keepRemote marks
  cases config.etag with
  | none => cases config.environment.filter (· != "") <;> rfl
  | some etag => cases config.environment.filter (· != "") <;> rfl

/-! ## How a check ends -/

/-- A failed check. -/
def RemoteCheck.isFailed : RemoteCheck → Bool
  | .failed _ _ => true
  | _ => false

/-- How a check ends, by its answer. -/
inductive Ended (rt : ConfigRuntime) (secrets : SecretResolver) (now : Int) (faults : Faults)
    (pending : Pending) (answer : ConfigAnswer) (db : Db) : RemoteCheck → Db → Prop
  /-- No answer that says who owns the configuration. -/
  | refused {error : RemoteConfigError} {result : RemoteCheck}
      (fetched : fetchRemoteConfig pending.etag answer = .error error)
      (other : error.kind ≠ .notFound) (failed : result.isFailed) :
      Ended rt secrets now faults pending answer db result db
  /-- A 404. -/
  | disowned {error : RemoteConfigError} {result : RemoteCheck} {db' : Db}
      (fetched : fetchRemoteConfig pending.etag answer = .error error)
      (notFound : error.kind = .notFound) (marked : Marked faults none none db db')
      (outcome : faults.spare ∧ result = .unmanaged ∨ ¬ faults.spare ∧ result.isFailed) :
      Ended rt secrets now faults pending answer db result db'
  /-- A 304. -/
  | unchanged {result : RemoteCheck}
      (fetched : fetchRemoteConfig pending.etag answer = .ok none)
      (outcome : (environmentKey ∉ faults.kv ∧ ∃ environment,
          result = .managed pending.stored false environment) ∨
        (environmentKey ∈ faults.kv ∧ result.isFailed)) :
      Ended rt secrets now faults pending answer db result db
  /-- A document that was not saved. -/
  | unsaved {config : RemoteConfig} {result : RemoteCheck} {error : AppError}
      (fetched : fetchRemoteConfig pending.etag answer = .ok (some config))
      (unsaved : (saveConfig rt (remoteConfigToYaml rt config.document) remoteActor secrets now).on
        db faults.save = (.error error, db)) (failed : result.isFailed) :
      Ended rt secrets now faults pending answer db result db
  /-- A document that was saved. -/
  | saved {config : RemoteConfig} {result : RemoteCheck} {loaded : LoadedConfig} {db' : Db}
      (fetched : fetchRemoteConfig pending.etag answer = .ok (some config))
      (parsed : parseConfig rt (remoteConfigToYaml rt config.document) = .ok loaded)
      (saves : (saveConfig rt (remoteConfigToYaml rt config.document) remoteActor secrets now).on
        db faults.save = (.ok loaded, saved loaded remoteActor now db))
      (marked : Marked faults config.etag (config.etag.map fun _ => loaded.hash)
        (saved loaded remoteActor now db) db')
      (outcome : (faults.spare ∧ ∃ changed environment,
          result = .managed (some loaded) changed environment) ∨ ¬ faults.spare ∧ result.isFailed) :
      Ended rt secrets now faults pending answer db result db'

theorem endCheck_ended (rt : ConfigRuntime) (secrets : SecretResolver) (now : Int) (faults : Faults)
    (pending : Pending) (answer : ConfigAnswer) (db : Db) :
    Ended rt secrets now faults pending answer db
      (caught ((endCheck rt secrets now faults pending answer).on db none).1)
      ((endCheck rt secrets now faults pending answer).on db none).2 := by
  unfold endCheck
  cases fetched : fetchRemoteConfig pending.etag answer with
  | error error =>
    by_cases notFound : error.kind = .notFound
    · have script : (do
          kvDelete faults etagKey
          kvDelete faults hashKey
          kvDelete faults environmentKey
          return RemoteCheck.unmanaged : Script RemoteCheck) =
          (do
            marks faults none none none
            return .unmanaged) := by
        simp only [marks, kvPut, bind_assoc]
      simp only [if_pos notFound]
      rw [script]
      obtain ⟨db', marked, ⟨spare, runs⟩ | ⟨stopped, runs⟩⟩ := run_marks faults none none none db
      · unfold Sql.on
        rw [Sql.run_bind_ok runs]
        exact .disowned fetched notFound marked (.inl ⟨spare, rfl⟩)
      · unfold Sql.on
        rw [Sql.run_bind, runs]
        exact .disowned fetched notFound marked (.inr ⟨stopped, rfl⟩)
    · simp only [if_neg notFound]
      exact .refused fetched notFound rfl
  | ok fetchedConfig =>
    cases fetchedConfig with
    | none =>
      unfold kvGet
      by_cases fails : environmentKey ∈ faults.kv
      · simp only [if_pos fails]
        exact .unchanged fetched (.inr ⟨fails, rfl⟩)
      · simp only [if_neg fails]
        exact .unchanged fetched (.inl ⟨fails, _, rfl⟩)
    | some config =>
      simp only
      unfold Sql.on
      rw [Sql.run_bind_ok (Sql.run_attempt_within _ _ db)]
      rcases saveConfig_cases rt (remoteConfigToYaml rt config.document) remoteActor secrets now db
        faults.save with ⟨error, unsaved⟩ | ⟨loaded, parsed, saves⟩
      · rw [unsaved]
        exact .unsaved fetched unsaved rfl
      · rw [saves]
        simp only
        rw [keepRemote_eq]
        obtain ⟨db', marked, ⟨spare, runs⟩ | ⟨stopped, runs⟩⟩ := run_marks faults config.etag
          (config.etag.map fun _ => loaded.hash) (config.environment.filter (· != ""))
          (App.saved loaded remoteActor now db)
        · rw [Sql.run_bind_ok runs]
          exact .saved fetched parsed saves marked (.inl ⟨spare, _, _, rfl⟩)
        · rw [Sql.run_bind, runs]
          exact .saved fetched parsed saves marked (.inr ⟨stopped, rfl⟩)

end

/-! ## Runs on fixed inputs -/

/-- What End Close serves for a document. -/
def sampleServed (id : String) (etag : Option String) : ConfigAnswer where
  http := .response 200 "{}" (.ok (.obj [("environment", .str "sandbox"), ("routes", sampleRoutes id)]))
  etag := etag

/-- The package, with the texts of End Close's documents too. -/
def sampleRemoteRuntime : ConfigRuntime :=
  .knowing (["ach", "cards"].flatMap fun id => [(sampleYaml id, sampleDocument id),
    ("# Configuration managed by End Close (GET /relays/config).\n" ++
      "# Edit it in End Close; changes reach this relay within a minute. The local editor\n" ++
      "# is locked while End Close manages this environment.\n" ++ sampleYaml id, sampleDocument id)])

/-- A process that asks. -/
def sampleOpts : RemoteCheckOptions where
  apiKey := "key"
  enabled := true
  secrets := sampleSecrets

theorem sampleRemoteRuntime_injective : Function.Injective sampleRemoteRuntime.sha256Hex :=
  Runtime.sha256Hex_knowing_injective []

theorem sample_parses (id : String) (known : id ∈ ["ach", "cards"]) : ∃ loaded,
    parseConfig sampleRemoteRuntime (remoteConfigToYaml sampleRemoteRuntime (sampleDocument id)) =
        .ok loaded ∧ loaded.routes.map RouteConfig.id = [id] ∧
      (loaded.routes.forM fun route => do
        let _ ← requireSecret sampleSecrets route.auth.secretEnv : Except AppError Unit) = .ok () := by
  have read : ((parseConfig sampleRemoteRuntime
      (remoteConfigToYaml sampleRemoteRuntime (sampleDocument id))).toOption.map fun loaded =>
        loaded.routes.map fun route => (route.id, route.auth.secretEnv)) = some [(id, "SECRET")] := by
    rw [sampleRemoteRuntime, parseConfig_knowing]
    rw [List.mem_cons, List.mem_singleton] at known
    rcases known with rfl | rfl
    · decide +kernel
    · decide +kernel
  obtain ⟨loaded, parsed, routes⟩ := Option.map_eq_some_iff.mp read
  refine ⟨loaded, ?_, ?_, ?_⟩
  · cases reads : parseConfig sampleRemoteRuntime
        (remoteConfigToYaml sampleRemoteRuntime (sampleDocument id)) with
    | error e =>
      rw [reads] at parsed
      cases parsed
    | ok loaded' =>
      rw [reads] at parsed
      exact congrArg Except.ok (Option.some.inj parsed)
  · have ids := congrArg (List.map Prod.fst) routes
    rwa [List.map_map] at ids
  · cases listed : loaded.routes with
    | nil =>
      rw [listed] at routes
      cases routes
    | cons route more =>
      rw [listed] at routes
      obtain ⟨first, rest⟩ := List.cons.inj routes
      obtain rfl := List.map_eq_nil_iff.mp rest
      have secret := congrArg Prod.snd first
      simp only at secret
      simp [secret, requireSecret, sampleSecrets]

/-- What is served is fetched, whatever was sent. -/
theorem sample_fetched (id : String) (known : id ∈ ["ach", "cards"]) (etag ifNoneMatch : Option String) :
    ∃ config, fetchRemoteConfig ifNoneMatch (sampleServed id etag) = .ok (some config) ∧
      config.document = sampleDocument id ∧ config.etag = etag.filter (· != "") := by
  have accepted : (parseRoutes (sampleDocument id)).isOk = true := by
    rw [List.mem_cons, List.mem_singleton] at known
    rcases known with rfl | rfl
    · decide +kernel
    · decide +kernel
  unfold fetchRemoteConfig getRelayConfig sampleServed
  simp only
  rw [if_neg (fun both => absurd both.1 (by decide))]
  cases parsed : parseRoutes (sampleDocument id) with
  | error e =>
    rw [parsed] at accepted
    cases accepted
  | ok routes =>
    have document : routesDocument (.obj [("environment", .str "sandbox"), ("routes", sampleRoutes id)]) =
        some (sampleDocument id, some "sandbox") := rfl
    refine ⟨{ routes, document := sampleDocument id, environment := some "sandbox",
              etag := etag.filter (· != "") }, ?_, rfl, rfl⟩
    have reply : (do
        assertOk 200 "{}"
        let body ← readDocument 200 "{}"
          (.ok (.obj [("environment", .str "sandbox"), ("routes", sampleRoutes id)]))
        pure (RelayConfigReply.document body (etag.filter (· != ""))) : Except RelayError _) =
        .ok (.document (.obj [("environment", .str "sandbox"), ("routes", sampleRoutes id)])
          (etag.filter (· != ""))) := rfl
    rw [reply]
    simp only [document, parsed]

/-- What is served is stored where `saveConfig` does not fail, and then marked. -/
theorem sample_concludes (id : String) (known : id ∈ ["ach", "cards"]) (etag : Option String)
    (s : Relay) (secrets : s.opts.secrets = sampleSecrets) (pending : Pending) (now : Int)
    (kv : List String) : ∃ loaded,
      parseConfig sampleRemoteRuntime (remoteConfigToYaml sampleRemoteRuntime (sampleDocument id)) =
          .ok loaded ∧ loaded.routes.map RouteConfig.id = [id] ∧
        Marked { kv } (etag.filter (· != "")) ((etag.filter (· != "")).map fun _ => loaded.hash)
          (saved loaded remoteActor now s.db)
          (s.conclude sampleRemoteRuntime pending (sampleServed id etag) now { kv }).db ∧
        (kv = [] → (s.conclude sampleRemoteRuntime pending (sampleServed id etag) now
          { kv }).status.managed = true) := by
  obtain ⟨loaded, parsed, routes, present⟩ := sample_parses id known
  obtain ⟨config, fetched, document, header⟩ := sample_fetched id known etag pending.etag
  refine ⟨loaded, parsed, routes, ?_⟩
  have runs := saveConfig_runs parsed present remoteActor now s.db
  have ended := endCheck_ended sampleRemoteRuntime s.opts.secrets now { kv } pending
    (sampleServed id etag) s.db
  rw [← document] at parsed runs
  rw [secrets] at ended
  unfold Relay.conclude
  rw [secrets]
  show Marked _ _ _ _ ((endCheck sampleRemoteRuntime sampleSecrets now { kv } pending
    (sampleServed id etag)).on s.db none).2 ∧ (kv = [] → (s.status.record now
      (caught ((endCheck sampleRemoteRuntime sampleSecrets now { kv } pending
        (sampleServed id etag)).on s.db none).1)).managed = true)
  generalize caught _ = result at ended ⊢
  generalize ((endCheck sampleRemoteRuntime sampleSecrets now { kv } pending
    (sampleServed id etag)).on s.db none).2 = db' at ended ⊢
  cases ended with
  | refused refusal =>
    rw [fetched] at refusal
    cases refusal
  | disowned refusal =>
    rw [fetched] at refusal
    cases refusal
  | unchanged unchanged =>
    rw [fetched] at unchanged
    cases unchanged
  | unsaved again unsaved =>
    rw [fetched] at again
    obtain rfl := Option.some.inj (Except.ok.inj again)
    rw [runs] at unsaved
    cases unsaved
  | saved again reparsed saves marked outcome =>
    rw [fetched] at again
    obtain rfl := Option.some.inj (Except.ok.inj again)
    rw [parsed] at reparsed
    obtain rfl := Except.ok.inj reparsed
    rw [header] at marked
    refine ⟨marked, fun none => ?_⟩
    subst none
    rcases outcome with ⟨-, changed, environment, same⟩ | ⟨stopped, -⟩
    · rw [same]
      rfl
    · exact absurd ⟨List.not_mem_nil, List.not_mem_nil, List.not_mem_nil⟩ stopped

/-- The first check of an empty database, and a document served to it. -/
def servedRun (etag : Option String) : List RelayAction :=
  [.ask 1 none, .answer (sampleServed "ach" etag) 2 {}]

/-- The document is stored and marked. -/
theorem run_served (etag : Option String) : ∃ loaded,
    parseConfig sampleRemoteRuntime (remoteConfigToYaml sampleRemoteRuntime (sampleDocument "ach")) =
        .ok loaded ∧ loaded.routes.map RouteConfig.id = ["ach"] ∧
      Marked {} (etag.filter (· != "")) ((etag.filter (· != "")).map fun _ => loaded.hash)
        (saved loaded remoteActor 2 {})
        ((Relay.machine sampleRemoteRuntime sampleOpts).run (servedRun etag)).db ∧
      ((Relay.machine sampleRemoteRuntime sampleOpts).run (servedRun etag)).status.managed = true := by
  obtain ⟨booted, start⟩ : ∃ booted, booted = Relay.boot sampleRemoteRuntime sampleOpts {} := ⟨_, rfl⟩
  have asked : booted.ask sampleRemoteRuntime 1 none = { booted with inFlight := some ⟨none, none⟩ } := by
    subst start
    exact Relay.ask_runs rfl (by decide) 1
  have ran : (Relay.machine sampleRemoteRuntime sampleOpts).run (servedRun etag) =
      { booted with inFlight := some ⟨none, none⟩ }.conclude sampleRemoteRuntime ⟨none, none⟩
        (sampleServed "ach" etag) 2 {} := by
    have began : (Relay.machine sampleRemoteRuntime sampleOpts).step booted (.ask 1 none) =
        { booted with inFlight := some ⟨none, none⟩ } := asked
    have init : (Relay.machine sampleRemoteRuntime sampleOpts).init = booted := start.symm
    rw [servedRun, Machine.run, List.foldl_cons, init, began]
    rfl
  obtain ⟨loaded, parsed, routes, marked, managed⟩ := sample_concludes "ach" (by decide) etag
    { booted with inFlight := some ⟨none, none⟩ } (by subst start; rfl) ⟨none, none⟩ 2 []
  rw [ran]
  refine ⟨loaded, parsed, routes, ?_, managed rfl⟩
  subst start
  exact marked

end EndCloseRelay.App
