import EndCloseRelay.App.ConfigStore
import EndCloseRelay.Interaction.Machine
import Mathlib.Data.List.Chain
import Mathlib.Data.List.Infix

/-!
# The configuration and its routes

Over any run of saves, whichever statement of them fails, and of pauses through
the admin plane, the routes table holds the routes of the latest version and
every pause flag belongs to one of them.
-/

namespace EndCloseRelay.App

open Interaction

/-! ## Pausing a route -/

/-- What a handler of the admin plane replies. -/
structure AdminReply where
  status : Nat
  body : Json

/-- `POST /routes/:id/pause`; `paused` is what the body has, if it is a boolean. -/
def pauseRoute (id : String) (paused : Option Bool) (now : Int) : Script AdminReply := do
  match ← query fun db => RoutesRepo.get db id with
  | none => return { status := 404, body := .obj [("error", .str "unknown route")] }
  | some _ =>
    match paused with
    | none => return { status := 400, body := .obj [("error", .str "paused must be boolean")] }
    | some paused =>
      update (KvRepo.setRoutePaused id paused)
      update (AuditRepo.log now "admin" (if paused then "route.pause" else "route.resume")
        [("route", .str id)])
      return { status := 200, body := .obj [("route", .str id), ("paused", .bool paused)] }

/-! ## Runs -/

/-- A call of `saveConfig`, or a pause through the admin plane; a statement of
it may fail. -/
inductive Action
  | save (yamlText appliedBy : String) (secrets : SecretResolver) (now : Int) (left : Option Nat)
  | pause (id : String) (paused : Option Bool) (now : Int) (left : Option Nat)

/-- The application's database, from an empty one on. -/
def machine (rt : ConfigRuntime) : Machine Db Action where
  init := {}
  step db
    | .save yamlText appliedBy secrets now left =>
      ((saveConfig rt yamlText appliedBy secrets now).on db left).2
    | .pause id paused now left => ((pauseRoute id paused now).on db left).2

/-- The routes of the latest version. -/
def latestRoutes (rt : ConfigRuntime) (db : Db) : List RouteConfig :=
  ((getActiveConfig rt db).map (·.routes)).getD []

/-- The table holds one row for each route of the latest version, which reads
back as that route; only such routes are paused; consecutive versions differ. -/
structure Kept (rt : ConfigRuntime) (db : Db) : Prop where
  rows : db.routes.keys.Perm ((latestRoutes rt db).map RouteConfig.id)
  readBack : ∀ route ∈ latestRoutes rt db,
    RoutesRepo.get db route.id = some route.toJson ∧ routeSchema route.toJson = some route
  paused : ∀ id, KvRepo.isRoutePaused db id → id ∈ (latestRoutes rt db).map RouteConfig.id
  versions : ∀ version ∈ db.configVersions, ∃ loaded,
    parseConfig rt version.configYaml = .ok loaded ∧ version.configHash = loaded.hash
  changing : db.configVersions.IsChain fun later earlier => later.configHash ≠ earlier.configHash

/-! ## The routes table -/

section

variable {rt : ConfigRuntime} {db : Db} {id : String}

/-- The row `upsert` writes. -/
def rowOf (route : RouteConfig) : RouteRow := { source := route.source, configJson := route.text }

theorem rowOf_configJson (route : RouteConfig) : (rowOf route).configJson = route.text := rfl

theorem routes_materialized (routes : List RouteConfig) :
    (materialized routes db).routes =
      (((routes.foldl (fun table route => table.insert route.id (rowOf route)) db.routes).keys.filter
        (· ∉ routes.map RouteConfig.id)).foldl (fun table id => table.erase id)
          (routes.foldl (fun table route => table.insert route.id (rowOf route)) db.routes)) := by
  have upserts : (routes.foldl (fun db route => RoutesRepo.upsert route db) db).routes =
      routes.foldl (fun table route => table.insert route.id (rowOf route)) db.routes :=
    (List.foldl_hom Db.routes (fun _ _ => rfl)).symm
  rw [← upserts]
  rfl

/-- The table after an apply holds the row of each route, and no other. -/
theorem lookup_materialized {routes : List RouteConfig} (distinct : (routes.map RouteConfig.id).Nodup) :
    (∀ route ∈ routes, (materialized routes db).routes.lookup route.id = some (rowOf route)) ∧
      (id ∉ routes.map RouteConfig.id → (materialized routes db).routes.lookup id = none) := by
  have inserted := @lookup_foldl_insert _ _ _ _ db.routes id _ _ rowOf distinct
  rw [routes_materialized]
  refine ⟨fun route member => ?_, fun other => ?_⟩
  · rw [lookup_foldl_erase, if_neg, inserted.1 route member]
    intro erased
    exact of_decide_eq_true (List.mem_filter.mp erased).2 (List.mem_map.mpr ⟨route, member, rfl⟩)
  · rw [lookup_foldl_erase]
    split
    · rfl
    · rename_i kept
      refine AList.lookup_eq_none.mpr fun present => kept ?_
      exact List.mem_filter.mpr ⟨AList.mem_keys.mp present, decide_eq_true other⟩

theorem keys_materialized {routes : List RouteConfig} (distinct : (routes.map RouteConfig.id).Nodup) :
    (materialized routes db).routes.keys.Perm (routes.map RouteConfig.id) := by
  rw [List.perm_ext_iff_of_nodup (AList.keys_nodup _) distinct]
  intro id
  rw [← AList.mem_keys, ← AList.lookup_isSome]
  constructor
  · intro present
    by_contra other
    rw [(lookup_materialized distinct).2 other] at present
    cases present
  · intro member
    obtain ⟨route, inside, rfl⟩ := List.mem_map.mp member
    rw [(@lookup_materialized _ route.id _ distinct).1 route inside]
    rfl

/-! ## Pause flags -/

/-- A text that begins with the literal part of a pattern meets it. -/
theorem like_append {literal : List Char} (plain : '%' ∉ literal) (text : List Char) :
    like (literal ++ ['%']) (literal ++ text) := by
  induction literal with
  | nil =>
    show text.tails.any (like []) = true
    exact List.any_eq_true.mpr ⟨[], (List.mem_tails _ _).mpr List.nil_suffix, rfl⟩
  | cons c literal ih =>
    rw [List.mem_cons, not_or] at plain
    rw [List.cons_append, List.cons_append, like, ih plain.2]
    · simp
    · intro same
      exact plain.1 same.symm

theorem mem_pausedRoutes (paused : KvRepo.isRoutePaused db id) : id ∈ KvRepo.pausedRoutes db := by
  have found : db.kv.lookup (KvRepo.routePausedPrefix ++ id) = some "1" := beq_iff_eq.mp paused
  have row := AList.mem_lookup_iff.mp found
  refine List.mem_map.mpr ⟨_, List.mem_filter.mpr ⟨row, ?_⟩, ?_⟩
  · rw [Bool.and_eq_true, String.toList_append, String.toList_append]
    exact ⟨like_append (by decide) _, rfl⟩
  · show String.ofList ((KvRepo.routePausedPrefix ++ id).toList.drop KvRepo.routePausedPrefix.length) = id
    rw [String.toList_append, ← String.length_toList, List.drop_left, String.ofList_toList]

theorem kv_withoutPauses (ids : List String) :
    (withoutPauses ids db).kv = (((KvRepo.pausedRoutes db).filter (· ∉ ids)).map
      (KvRepo.routePausedPrefix ++ ·)).foldl (fun table key => table.erase key) db.kv := by
  rw [List.foldl_map]
  exact (List.foldl_hom Db.kv (fun _ _ => rfl)).symm

/-- After an apply only the routes of the configuration are paused. -/
theorem paused_withoutPauses {ids : List String}
    (paused : KvRepo.isRoutePaused (withoutPauses ids db) id) : id ∈ ids := by
  by_contra other
  have found : KvRepo.get (withoutPauses ids db) (KvRepo.routePausedPrefix ++ id) = some "1" :=
    beq_iff_eq.mp paused
  rw [KvRepo.get, kv_withoutPauses, lookup_foldl_erase] at found
  split at found
  · cases found
  · rename_i kept
    refine kept (List.mem_map.mpr ⟨id, List.mem_filter.mpr ⟨?_, decide_eq_true other⟩, rfl⟩)
    exact mem_pausedRoutes (beq_iff_eq.mpr found)

theorem withoutPauses_frame (ids : List String) :
    (withoutPauses ids db).routes = db.routes ∧
      (withoutPauses ids db).configVersions = db.configVersions ∧
      (withoutPauses ids db).auditLog = db.auditLog := by
  unfold withoutPauses
  generalize (KvRepo.pausedRoutes db).filter (· ∉ ids) = dropped
  induction dropped generalizing db with
  | nil => exact ⟨rfl, rfl, rfl⟩
  | cons first dropped ih => exact @ih (KvRepo.setRoutePaused first false db)

theorem materialized_frame (routes : List RouteConfig) :
    (materialized routes db).kv = db.kv ∧
      (materialized routes db).configVersions = db.configVersions ∧
      (materialized routes db).auditLog = db.auditLog := by
  have upserts : ∀ db : Db, (routes.foldl (fun db route => RoutesRepo.upsert route db) db).kv = db.kv ∧
      (routes.foldl (fun db route => RoutesRepo.upsert route db) db).configVersions = db.configVersions ∧
      (routes.foldl (fun db route => RoutesRepo.upsert route db) db).auditLog = db.auditLog := by
    induction routes with
    | nil => exact fun db => ⟨rfl, rfl, rfl⟩
    | cons first routes ih => exact fun db => ih (RoutesRepo.upsert first db)
  exact upserts db

/-! ## One step -/

/-- The version an apply adds. -/
def versionOf (loaded : LoadedConfig) (appliedBy : String) (now : Int) (db : Db) : ConfigVersion where
  id := (db.configVersions.head?.map (·.id)).getD 0 + 1
  appliedAt := now
  configHash := loaded.hash
  configYaml := loaded.yamlText
  appliedBy := appliedBy

/-- The audit entry it adds. -/
def entryOf (loaded : LoadedConfig) (appliedBy : String) (now : Int) : AuditEntry where
  at_ := now
  actor := appliedBy
  action := "config.apply"
  detailJson := (Json.stringify (.obj [("config_hash", .str loaded.hash),
    ("routes", .num (.ofNat loaded.routes.length))])).getD ""

/-- What an apply leaves of each table. -/
theorem applied_frame (loaded : LoadedConfig) (appliedBy : String) (now : Int) :
    (applied loaded appliedBy now db).configVersions =
        versionOf loaded appliedBy now db :: db.configVersions ∧
      (applied loaded appliedBy now db).auditLog = entryOf loaded appliedBy now :: db.auditLog ∧
      (applied loaded appliedBy now db).routes = (materialized loaded.routes db).routes ∧
      (applied loaded appliedBy now db).kv =
        (withoutPauses (loaded.routes.map RouteConfig.id) (materialized loaded.routes db)).kv := by
  obtain ⟨-, versions, log⟩ := @materialized_frame db loaded.routes
  obtain ⟨rows, versions', log'⟩ := @withoutPauses_frame (materialized loaded.routes db)
    (loaded.routes.map RouteConfig.id)
  refine ⟨?_, congrArg (entryOf loaded appliedBy now :: ·) (log'.trans log), rows, rfl⟩
  show ConfigVersion.mk _ _ _ _ _ :: _ = _
  rw [versions', versions]
  rfl

/-- What a parse gives. -/
theorem parsed_of_parseConfig {yamlText : String} {loaded : LoadedConfig}
    (parsed : parseConfig rt yamlText = .ok loaded) :
    loaded.yamlText = yamlText ∧ loaded.hash = configHash rt yamlText ∧
      (loaded.routes.map RouteConfig.id).Nodup ∧ ∀ route ∈ loaded.routes, route.schemaValid := by
  unfold parseConfig parseText at parsed
  rw [Js.shown_units] at parsed
  cases read : rt.parseYaml (Js.units yamlText) with
  | error message =>
    rw [read] at parsed
    cases parsed
  | ok raw =>
    cases accepted : parseRoutes raw with
    | error e =>
      rw [read] at parsed
      simp only [Except.mapError, bind, Except.bind, accepted] at parsed
      cases parsed
    | ok routes =>
      rw [read] at parsed
      simp only [Except.mapError, bind, Except.bind, accepted] at parsed
      obtain rfl := Except.ok.inj parsed
      exact ⟨rfl, rfl, ids_of_parseRoutes accepted, valid_of_parseRoutes accepted⟩

/-- The latest version decides what the routes are. -/
theorem latestRoutes_of_head {version : ConfigVersion} {versions : List ConfigVersion}
    {loaded : LoadedConfig} (versionsEq : db.configVersions = version :: versions)
    (parsed : parseConfig rt version.configYaml = .ok loaded) :
    latestRoutes rt db = loaded.routes := by
  unfold latestRoutes getActiveConfig readActiveConfigRaw
  rw [versionsEq]
  show ((parseConfig rt version.configYaml).toOption.map _).getD [] = _
  rw [parsed]
  rfl

theorem latestRoutes_congr {db' : Db} (versions : db'.configVersions = db.configVersions) :
    latestRoutes rt db' = latestRoutes rt db := by
  unfold latestRoutes getActiveConfig readActiveConfigRaw
  rw [versions]

theorem kept_init : Kept rt {} where
  rows := List.Perm.nil
  readBack := fun route member => absurd member List.not_mem_nil
  paused := fun id paused => by cases paused
  versions := fun version member => absurd member List.not_mem_nil
  changing := List.IsChain.nil

/-- An apply keeps the invariant. -/
theorem Kept.applied {yamlText appliedBy : String} {loaded : LoadedConfig} {now : Int}
    (kept : Kept rt db) (parsed : parseConfig rt yamlText = .ok loaded)
    (other : db.configVersions.head?.map (·.configHash) ≠ some loaded.hash) :
    Kept rt (applied loaded appliedBy now db) := by
  obtain ⟨text, -, distinct, valid⟩ := parsed_of_parseConfig parsed
  obtain ⟨versions, -, rows, kv⟩ := @applied_frame db loaded appliedBy now
  have reparsed : parseConfig rt (versionOf loaded appliedBy now db).configYaml = .ok loaded := by
    show parseConfig rt loaded.yamlText = _
    rw [text, parsed]
  have latest := latestRoutes_of_head versions reparsed
  refine ⟨?_, ?_, ?_, ?_, ?_⟩
  · rw [latest, rows]
    exact keys_materialized distinct
  · rw [latest]
    intro route member
    refine ⟨?_, routeSchema_toJson (valid route member)⟩
    rw [RoutesRepo.get, rows, (@lookup_materialized _ route.id _ distinct).1 route member,
      Option.bind_some, rowOf_configJson, read_text]
  · rw [latest]
    intro id paused
    refine @paused_withoutPauses (materialized loaded.routes db) _ _ ?_
    rwa [KvRepo.isRoutePaused, KvRepo.get, kv] at paused
  · rw [versions]
    intro version member
    rcases List.mem_cons.mp member with rfl | before
    · exact ⟨loaded, reparsed, rfl⟩
    · exact kept.versions version before
  · rw [versions, List.isChain_cons_iff]
    cases before : db.configVersions with
    | nil => exact .inl rfl
    | cons last earlier =>
      refine .inr ⟨last, earlier, fun same => other ?_, ?_, rfl⟩
      · rw [before]
        exact congrArg some same.symm
      · rw [← before]
        exact kept.changing

theorem Kept.saved {yamlText appliedBy : String} {loaded : LoadedConfig} {now : Int}
    (kept : Kept rt db) (parsed : parseConfig rt yamlText = .ok loaded) :
    Kept rt (saved loaded appliedBy now db) := by
  unfold App.saved
  split
  · exact kept
  · rename_i other
    exact kept.applied parsed other

/-! ## A pause -/

/-- A statement is the one that fails, or it runs. -/
theorem query_cases {α : Type} (read : Db → α) (s : Session Db) :
    (∃ s', (query read).run.run s = (.error .sqlite, s') ∧ s'.db = s.db) ∨
      ∃ s', (query read).run.run s = (.ok (read s.db), s') ∧ s'.db = s.db := by
  obtain ⟨db, left⟩ := s
  match left with
  | some 0 => exact .inl ⟨_, rfl, rfl⟩
  | some (n + 1) => exact .inr ⟨_, rfl, rfl⟩
  | none => exact .inr ⟨_, rfl, rfl⟩

theorem update_cases (write : Db → Db) (s : Session Db) :
    (∃ s', (update write).run.run s = (.error .sqlite, s') ∧ s'.db = s.db) ∨
      ∃ s', (update write).run.run s = (.ok (), s') ∧ s'.db = write s.db := by
  obtain ⟨db, left⟩ := s
  match left with
  | some 0 => exact .inl ⟨_, rfl, rfl⟩
  | some (n + 1) => exact .inr ⟨_, rfl, rfl⟩
  | none => exact .inr ⟨_, rfl, rfl⟩

/-- A pause touches one flag, that of a route the table holds, and the audit log. -/
theorem pauseRoute_cases (id : String) (paused : Option Bool) (now : Int) (left : Option Nat) :
    ((pauseRoute id paused now).on db left).2 = db ∨
      ∃ state, id ∈ db.routes ∧
        ((pauseRoute id paused now).on db left).2.routes = db.routes ∧
        ((pauseRoute id paused now).on db left).2.configVersions = db.configVersions ∧
        ((pauseRoute id paused now).on db left).2.kv = (KvRepo.setRoutePaused id state db).kv := by
  unfold Sql.on pauseRoute
  rw [Sql.run_bind]
  rcases query_cases (fun db => RoutesRepo.get db id) { db, left } with
    ⟨s, fails, same⟩ | ⟨s, reads, same⟩
  · rw [fails]
    exact .inl same
  · rw [reads]
    cases found : RoutesRepo.get db id with
    | none => exact .inl same
    | some route =>
      have present : id ∈ db.routes := by
        rw [← AList.lookup_isSome]
        obtain ⟨row, held, -⟩ := Option.bind_eq_some_iff.mp found
        rw [held]
        rfl
      cases paused with
      | none => exact .inl same
      | some state =>
        have frame : (KvRepo.setRoutePaused id state db).routes = db.routes ∧
            (KvRepo.setRoutePaused id state db).configVersions = db.configVersions := by
          unfold KvRepo.setRoutePaused
          split <;> exact ⟨rfl, rfl⟩
        simp only
        rw [Sql.run_bind]
        rcases update_cases (KvRepo.setRoutePaused id state) s with
          ⟨s', fails', same'⟩ | ⟨s', writes, written⟩
        · rw [fails']
          exact .inl (same'.trans same)
        · rw [writes]
          rw [same] at written
          simp only
          rw [Sql.run_bind]
          rcases update_cases (AuditRepo.log now "admin" (if state then "route.pause" else "route.resume")
            [("route", .str id)]) s' with ⟨s'', fails'', same''⟩ | ⟨s'', writes', written'⟩
          · rw [fails'']
            have all : s''.db = KvRepo.setRoutePaused id state db := same''.trans written
            exact .inr ⟨state, present, (congrArg Db.routes all).trans frame.1,
              (congrArg Db.configVersions all).trans frame.2, congrArg Db.kv all⟩
          · rw [writes']
            have all : s''.db = AuditRepo.log now "admin" (if state then "route.pause" else "route.resume")
              [("route", .str id)] (KvRepo.setRoutePaused id state db) := by rw [written', written]
            exact .inr ⟨state, present, (congrArg Db.routes all).trans frame.1,
              (congrArg Db.configVersions all).trans frame.2, (congrArg Db.kv all).trans rfl⟩

theorem isRoutePaused_setRoutePaused {id' : String} {state : Bool}
    (paused : KvRepo.isRoutePaused (KvRepo.setRoutePaused id' state db) id) :
    id = id' ∨ KvRepo.isRoutePaused db id := by
  by_cases same : id = id'
  · exact .inl same
  · right
    have others : KvRepo.routePausedPrefix ++ id ≠ KvRepo.routePausedPrefix ++ id' :=
      fun texts => same (String.append_right_inj _ |>.mp texts)
    cases state with
    | true =>
      have found : (db.kv.insert (KvRepo.routePausedPrefix ++ id') "1").lookup
          (KvRepo.routePausedPrefix ++ id) = some "1" := beq_iff_eq.mp paused
      rw [AList.lookup_insert_ne others] at found
      exact beq_iff_eq.mpr found
    | false =>
      have found : (db.kv.erase (KvRepo.routePausedPrefix ++ id')).lookup
          (KvRepo.routePausedPrefix ++ id) = some "1" := beq_iff_eq.mp paused
      rw [AList.lookup_erase_ne others] at found
      exact beq_iff_eq.mpr found

theorem Kept.pause (kept : Kept rt db) (id : String) (paused : Option Bool) (now : Int)
    (left : Option Nat) : Kept rt ((pauseRoute id paused now).on db left).2 := by
  rcases @pauseRoute_cases db id paused now left with same | ⟨state, present, rows, versions, kv⟩
  · rw [same]
    exact kept
  · have latest := @latestRoutes_congr rt _ _ versions
    refine ⟨?_, ?_, ?_, ?_, ?_⟩
    · rw [rows, latest]
      exact kept.rows
    · rw [latest]
      intro route member
      rw [RoutesRepo.get, rows]
      exact kept.readBack route member
    · rw [latest]
      intro other flagged
      rw [KvRepo.isRoutePaused, KvRepo.get, kv] at flagged
      rcases isRoutePaused_setRoutePaused flagged with rfl | before
      · exact kept.rows.mem_iff.mp (AList.mem_keys.mp present)
      · exact kept.paused other before
    · rw [versions]
      exact kept.versions
    · rw [versions]
      exact kept.changing

/-! ## Every run -/

/-- One action keeps the invariant. -/
theorem kept_step (kept : Kept rt db) (action : Action) : Kept rt ((machine rt).step db action) := by
  cases action with
  | save yamlText appliedBy secrets now left =>
    show Kept rt ((saveConfig rt yamlText appliedBy secrets now).on db left).2
    rcases saveConfig_cases rt yamlText appliedBy secrets now db left with
      ⟨e, fails⟩ | ⟨loaded, parsed, saves⟩
    · rw [fails]
      exact kept
    · rw [saves]
      exact kept.saved parsed
  | pause id paused now left => exact kept.pause id paused now left

/-- No action changes or removes a version. -/
theorem versions_step (action : Action) :
    db.configVersions <:+ ((machine rt).step db action).configVersions := by
  cases action with
  | save yamlText appliedBy secrets now left =>
    show _ <:+ ((saveConfig rt yamlText appliedBy secrets now).on db left).2.configVersions
    rcases saveConfig_cases rt yamlText appliedBy secrets now db left with
      ⟨e, fails⟩ | ⟨loaded, parsed, saves⟩
    · rw [fails]
    · rw [saves]
      show _ <:+ (saved loaded appliedBy now db).configVersions
      unfold saved
      split
      · exact List.suffix_rfl
      · rw [(applied_frame loaded appliedBy now).1]
        exact List.suffix_cons _ _
  | pause id paused now left =>
    show _ <:+ ((pauseRoute id paused now).on db left).2.configVersions
    rcases @pauseRoute_cases db id paused now left with same | ⟨state, -, -, versions, -⟩
    · rw [same]
    · rw [versions]

theorem kept_run (rt : ConfigRuntime) (actions : List Action) : Kept rt ((machine rt).run actions) := by
  induction actions using List.reverseRecOn with
  | nil => exact kept_init
  | append_singleton actions action ih =>
    rw [Machine.run_concat]
    exact kept_step ih action

theorem versions_run (rt : ConfigRuntime) (actions more : List Action) :
    ((machine rt).run actions).configVersions <:+ ((machine rt).run (actions ++ more)).configVersions := by
  induction more using List.reverseRecOn with
  | nil => rw [List.append_nil]
  | append_singleton more action ih =>
    rw [← List.append_assoc, Machine.run_concat]
    exact ih.trans (versions_step action)

/-- Two texts have one hash only if they are one text. -/
theorem configHash_injective (injective : Function.Injective rt.sha256Hex) :
    Function.Injective (configHash rt) := fun _ _ same =>
  utf8_injective (injective ((String.append_right_inj _).mp same))

/-- What `saveConfig` leaves, by its outcome: of an error nothing, of a text that is
stored already nothing, of another one a version and an audit entry. -/
theorem saveConfig_effect (injective : Function.Injective rt.sha256Hex) (kept : Kept rt db)
    (yamlText appliedBy : String) (secrets : SecretResolver) (now : Int) (left : Option Nat) :
    match (saveConfig rt yamlText appliedBy secrets now).on db left with
    | (.error _, db') => db' = db
    | (.ok loaded, db') =>
      parseConfig rt yamlText = .ok loaded ∧
      if readActiveConfigRaw db = some yamlText then db' = db
      else db'.configVersions = versionOf loaded appliedBy now db :: db.configVersions ∧
        db'.auditLog = entryOf loaded appliedBy now :: db.auditLog := by
  rcases saveConfig_cases rt yamlText appliedBy secrets now db left with
    ⟨e, fails⟩ | ⟨loaded, parsed, saves⟩
  · rw [fails]
  · rw [saves]
    refine ⟨parsed, ?_⟩
    obtain ⟨-, hash, -, -⟩ := parsed_of_parseConfig parsed
    have stored : readActiveConfigRaw db = some yamlText ↔
        db.configVersions.head?.map (·.configHash) = some loaded.hash := by
      unfold readActiveConfigRaw
      cases versions : db.configVersions with
      | nil => exact iff_of_false nofun nofun
      | cons last earlier =>
        obtain ⟨before, reparsed, hashed⟩ := kept.versions last (versions ▸ List.mem_cons_self)
        have same : last.configHash = configHash rt last.configYaml :=
          hashed.trans (parsed_of_parseConfig reparsed).2.1
        show some last.configYaml = some yamlText ↔ some last.configHash = some loaded.hash
        rw [Option.some_inj, Option.some_inj, same, hash, (configHash_injective injective).eq_iff]
    unfold saved
    by_cases same : readActiveConfigRaw db = some yamlText
    · rw [if_pos same, if_pos (stored.mp same)]
    · rw [if_neg same, if_neg (same ∘ stored.mpr)]
      exact ⟨(applied_frame loaded appliedBy now).1, (applied_frame loaded appliedBy now).2.1⟩

/-- Over every run the tables are those of the latest version, a save that throws
changes nothing, one that returns adds a version and an audit entry exactly when
its text is another, and no version is changed or removed. -/
theorem config_store_kept (rt : ConfigRuntime) (injective : Function.Injective rt.sha256Hex)
    (actions : List Action) :
    Kept rt ((machine rt).run actions) ∧
      (∀ (yamlText appliedBy : String) (secrets : SecretResolver) (now : Int) (left : Option Nat),
        match (saveConfig rt yamlText appliedBy secrets now).on ((machine rt).run actions) left with
        | (.error _, db') => db' = (machine rt).run actions
        | (.ok loaded, db') =>
          parseConfig rt yamlText = .ok loaded ∧
          if readActiveConfigRaw ((machine rt).run actions) = some yamlText then
            db' = (machine rt).run actions
          else
            db'.configVersions = versionOf loaded appliedBy now ((machine rt).run actions) ::
                ((machine rt).run actions).configVersions ∧
              db'.auditLog = entryOf loaded appliedBy now :: ((machine rt).run actions).auditLog) ∧
      ∀ more, ((machine rt).run actions).configVersions <:+
        ((machine rt).run (actions ++ more)).configVersions :=
  ⟨kept_run rt actions, saveConfig_effect injective (kept_run rt actions), versions_run rt actions⟩

end

/-- One route, paused, and then another in its place. -/
def renamedRun : List Action :=
  [.save (sampleYaml "ach") "admin" sampleSecrets 1 none, .pause "ach" (some true) 2 none,
    .save (sampleYaml "cards") "admin" sampleSecrets 3 none]

theorem config_store_kept_renamed :
    Function.Injective sampleConfigRuntime.sha256Hex ∧
      Kept sampleConfigRuntime ((machine sampleConfigRuntime).run renamedRun) :=
  ⟨Runtime.sha256Hex_knowing_injective [],
    (config_store_kept sampleConfigRuntime (Runtime.sha256Hex_knowing_injective []) renamedRun).1⟩

/-- A document of one route, and a comment that ends in one more unit. -/
def commented (unit : UInt16) : Js.Units := Js.units (sampleYaml "ach" ++ "# ") ++ [unit]

/-- What is stored of it where that unit is a surrogate. -/
def storedComment : String := sampleYaml "ach" ++ "# " ++ String.ofList ['\uFFFD']

/-- It knows that document. -/
def commentRuntime : ConfigRuntime := .knowing [(storedComment, sampleDocument "ach")]

theorem shown_commented {unit : UInt16} (surrogate : Js.single unit = '\uFFFD') :
    Js.shown (commented unit) = storedComment := by
  rw [commented, Js.shown, Js.decode_units_append, Js.decode, surrogate, String.ofList_append,
    String.ofList_toList]
  rfl

theorem parseText_commented {unit : UInt16} (surrogate : Js.single unit = '\uFFFD') : ∃ loaded,
    parseText commentRuntime (commented unit) = .ok loaded ∧ loaded.yamlText = storedComment ∧
      loaded.hash = configHash commentRuntime storedComment ∧
      (loaded.routes.forM fun route => do
        let _ ← requireSecret sampleSecrets route.auth.secretEnv : Except AppError Unit) = .ok () := by
  have shows := shown_commented surrogate
  have read : commentRuntime.parseYaml (commented unit) = .ok (sampleDocument "ach") := by
    unfold commentRuntime ConfigRuntime.knowing knownDocument
    simp only [shows, List.lookup_cons, beq_self_eq_true]
  obtain ⟨routes, accepted, present⟩ : ∃ routes, parseRoutes (sampleDocument "ach") = .ok routes ∧
      (routes.forM fun route => do
        let _ ← requireSecret sampleSecrets route.auth.secretEnv : Except AppError Unit) = .ok () :=
    ⟨_, rfl, rfl⟩
  refine ⟨{ routes, yamlText := storedComment, hash := configHash commentRuntime storedComment }, ?_, rfl,
    rfl, present⟩
  unfold parseText
  rw [read, shows]
  simp only [Except.mapError, bind, Except.bind, accepted]
  rfl

/-- Of two texts that differ in a surrogate, the second is saved without a version. -/
theorem surrogate_adds_no_version :
    let db := ((saveText commentRuntime (commented 0xD800) "admin" sampleSecrets 1).on {} none).2
    Function.Injective commentRuntime.sha256Hex ∧ db.configVersions.length = 1 ∧
      (∀ version ∈ db.configVersions, Js.units version.configYaml ≠ commented 0xD801) ∧
      ∃ loaded, (saveText commentRuntime (commented 0xD801) "admin" sampleSecrets 2).on db none =
        (.ok loaded, db) := by
  obtain ⟨first, parsed, text, hash, present⟩ := @parseText_commented 0xD800 rfl
  obtain ⟨second, parsed', -, hash', present'⟩ := @parseText_commented 0xD801 rfl
  have saves := saveText_runs parsed present "admin" 1 {}
  have added := (@applied_frame {} first "admin" 1).1
  intro db
  have stored : db = applied first "admin" 1 {} := congrArg Prod.snd saves
  rw [stored]
  refine ⟨Runtime.sha256Hex_knowing_injective [], congrArg List.length added, ?_, second, ?_⟩
  · intro version member
    rw [added, List.mem_singleton] at member
    rw [member]
    show Js.units first.yamlText ≠ _
    rw [text, storedComment, Js.units_append, commented]
    intro same
    exact absurd (List.append_cancel_left same) (by decide)
  · rw [saveText_runs parsed' present' "admin" 2 _]
    unfold saved
    rw [if_pos]
    rw [added, hash', ← hash]
    rfl

end EndCloseRelay.App
