import EndCloseRelay.App.AdminPlane
import EndCloseRelay.Sqlite.Stores
import Mathlib.Data.List.Forall2

/-!
# Every operator action is audited

What a request did is read off the database before and after it and off the
reply that was sent.  Each such effect has its own entry among those the
request wrote to the audit log, unless the effect is written and its entry is
not: the killswitch, the pause of a route and the replays are written first,
outside a transaction, and a configuration that drops a paused route clears its
flag without an entry.
-/

namespace EndCloseRelay.App

open Interaction

/-! ## What takes effect -/

/-- An effect of a request. -/
inductive Effect
  | killswitch (state : Killswitch)
  | pause (route : String) (paused : Bool)
  | version (hash : String)
  | replay (id : Nat)
  | replayAll (count : Nat)
  | view (id : Nat)

/-- The entry tells of the effect. -/
def Effect.ToldBy : Effect → AuditEntry → Prop
  | killswitch state, e => e.action = "killswitch." ++ state.name
  | pause route paused, e => e.action = (if paused then "route.pause" else "route.resume") ∧
      e.detailJson = (Json.stringify (.obj [("route", .str route)])).getD ""
  | version hash, e => e.action = "config.apply" ∧ ∃ routes,
      e.detailJson = (Json.stringify (.obj [("config_hash", .str hash), ("routes", routes)])).getD ""
  | replay id, e => e.action = "event.replay" ∧
      e.detailJson = (Json.stringify (.obj [("event_id", .num (.ofNat id))])).getD ""
  | replayAll count, e => e.action = "event.replay_all_parked" ∧
      e.detailJson = (Json.stringify (.obj [("count", .num (.ofNat count))])).getD ""
  | view id, e => e.action = "event.view_payload" ∧ ∃ route status, e.detailJson =
      (Json.stringify (.obj [("event_id", .num (.ofNat id)), ("route", route), ("status", status)])).getD ""

/-- The state the killswitch was put in, if it was in another. -/
def killswitchEffects (before after : AdminDb) : List Effect :=
  if KvRepo.globalKillswitch after.app = KvRepo.globalKillswitch before.app then []
  else [.killswitch (KvRepo.globalKillswitch after.app)]

/-- The hash of the latest version, if there is a new one. -/
def versionEffects (before after : AdminDb) : List Effect :=
  if after.app.configVersions = before.app.configVersions then []
  else (after.app.configVersions.head?.map fun version => .version version.configHash).toList

/-- The flag the route was given, if it had another. -/
def pauseEffects (before after : AdminDb) (id : String) : List Effect :=
  if KvRepo.isRoutePaused after.app id = KvRepo.isRoutePaused before.app id then []
  else [.pause id (KvRepo.isRoutePaused after.app id)]

/-- The flags that routes have no more. -/
def resumeEffects (before after : AdminDb) : List Effect :=
  ((KvRepo.pausedRoutes before.app).filter fun id =>
    KvRepo.isRoutePaused before.app id && !KvRepo.isRoutePaused after.app id).map fun id => .pause id false

/-- The parked rows that are parked no more. -/
def requeued (before after : Events) : List Nat :=
  (before.rows.filter fun r => r.status = .parked ∧
    (after.row? r.id).map EventRow.status ≠ some .parked).map EventRow.id

/-- What replaying all parked rows did, by the rows requeued. -/
def replayAllEffects (ids : List Nat) : List Effect :=
  if ids.length = 0 then [] else [.replayAll ids.length]

/-- What a request did, from the database before and after it and the reply sent. -/
def AdminRequest.effects (before after : AdminDb) (reply : Option AdminReply) :
    AdminRequest → List Effect
  | killswitch _ => killswitchEffects before after
  | pause id _ => pauseEffects before after id
  | payload (.row id) => if reply.any (·.status == 200) then [.view id] else []
  | payload _ => []
  | replay _ => (requeued before.events after.events).map .replay
  | replayParked => replayAllEffects (requeued before.events after.events)
  | config _ => killswitchEffects before after ++ versionEffects before after ++ resumeEffects before after

/-! ## Runs -/

/-- What a request did, and the entries it wrote, latest first. -/
structure Record where
  effects : List Effect
  entries : List AuditEntry

/-- Every effect has an entry of its own. -/
def Record.Audited (record : Record) : Prop :=
  List.SublistForall₂ Effect.ToldBy record.effects record.entries

/-- The database, and what the requests did, latest first. -/
structure AdminSystem where
  db : AdminDb
  history : List Record := []

/-- A request is served, or the dispatcher, the ingest path and retention have
changed the events. -/
inductive AdminAction
  | request (world : AdminWorld) (request : AdminRequest)
  | others (events : Events)

/-- The entries that a log has more than it had. -/
def newEntries (before after : List AuditEntry) : List AuditEntry :=
  after.take (after.length - before.length)

/-- What serving a request comes to. -/
def recordOf (deps : AdminDeps) (world : AdminWorld) (request : AdminRequest) (db : AdminDb) : Record :=
  let (reply, db') := serve deps world request db
  { effects := request.effects db db' reply
    entries := newEntries db.app.auditLog db'.app.auditLog }

/-- The admin plane, from any database on. -/
def adminMachine (deps : AdminDeps) (db : AdminDb) : Machine AdminSystem AdminAction where
  init := { db }
  step s
    | .request world request =>
      { db := (serve deps world request s.db).2
        history := recordOf deps world request s.db :: s.history }
    | .others events => { s with db := { s.db with events } }

/-- A configuration that is saved anew keeps every route that is paused. -/
def KeepsPaused (deps : AdminDeps) (db : Db) (world : AdminWorld) (yaml : String) : Prop :=
  yaml ≠ "" → world.managed = false → ∀ loaded,
    ((saveConfig deps.yaml yaml "admin" deps.secrets world.now).on db world.left).1 = .ok loaded →
      db.configVersions.head?.map (·.configHash) ≠ some loaded.hash →
        ∀ id, KvRepo.isRoutePaused db id → id ∈ loaded.routes.map RouteConfig.id

/-- The entry of an effect is not what fails: where the request acts, the third
statement of the killswitch and of the pause, the second of a replay, and the
third of the recovery part of `POST /config` is reached.  A saved configuration
drops no paused route, whose flag would be cleared without an entry. -/
def Reaches (deps : AdminDeps) (s : AdminSystem) : AdminAction → Prop
  | .request world (.killswitch (some state)) =>
    world.left = some 2 → KvRepo.globalKillswitch s.db.app = state
  | .request world (.pause id (some paused)) =>
    world.left = some 2 → RoutesRepo.get s.db.app id = none ∨
      KvRepo.isRoutePaused s.db.app id = paused
  | .request world (.replay id) =>
    world.left = some 1 → ∀ r, id.row? s.db.events = some r → r.status ≠ .parked
  | .request world .replayParked =>
    world.left = some 1 → ∀ r ∈ s.db.events.rows, r.status ≠ .parked
  | .request world (.config (some yaml)) =>
    (world.recoveryLeft = some 2 → deps.bootstrap = true → deps.configError = true →
      KvRepo.globalKillswitch s.db.app = .none →
        yaml = "" ∨ world.managed = true ∨ ∃ e, ((saveConfig deps.yaml yaml "admin" deps.secrets
          world.now).on s.db.app world.left).1 = .error e) ∧
      KeepsPaused deps s.db.app world yaml
  | _ => True

section

variable {deps : AdminDeps} {world : AdminWorld} {db db' : AdminDb}

/-! ## Records -/

theorem newEntries_append (entries log : List AuditEntry) : newEntries log (entries ++ log) = entries := by
  unfold newEntries
  rw [List.length_append, Nat.add_sub_cancel]
  exact List.take_left

theorem newEntries_self (log : List AuditEntry) : newEntries log log = [] :=
  newEntries_append [] log

theorem newEntries_cons (entry : AuditEntry) (log : List AuditEntry) :
    newEntries log (entry :: log) = [entry] :=
  newEntries_append [entry] log

/-- Without an entry there may be no effect. -/
theorem audited_nil_iff (effects : List Effect) :
    Record.Audited { effects, entries := [] } ↔ effects = [] := by
  constructor
  · intro audited
    cases audited
    rfl
  · rintro rfl
    exact .nil

/-! ## The killswitch -/

theorem globalKillswitch_set (state : Killswitch) (app : Db) :
    KvRepo.globalKillswitch (KvRepo.setGlobalKillswitch state app) = state := by
  unfold KvRepo.globalKillswitch KvRepo.get KvRepo.setGlobalKillswitch KvRepo.set
  rw [AList.lookup_insert]
  cases state <;> rfl

/-- The database with the application's tables changed. -/
def AdminDb.mapApp (f : Db → Db) (db : AdminDb) : AdminDb := { db with app := f db.app }

theorem setKillswitch_on (state : Killswitch) (now : Int) (left : Option Nat) :
    (∃ e, (setKillswitch (some state) now).on db left = (.error e, db) ∧ left ≠ some 2) ∨
      (∃ e, (setKillswitch (some state) now).on db left =
        (.error e, db.mapApp (KvRepo.setGlobalKillswitch state)) ∧ left = some 2) ∨
      (∃ reply detail, (setKillswitch (some state) now).on db left = (.ok reply, db.mapApp fun app =>
        AuditRepo.log now "admin" ("killswitch." ++ state.name) detail
          (KvRepo.setGlobalKillswitch state app)) ∧ left ≠ some 2) := by
  match left with
  | some 0 => exact .inl ⟨_, rfl, by decide⟩
  | some 1 => exact .inl ⟨_, rfl, by decide⟩
  | some 2 => exact .inr (.inl ⟨_, rfl, rfl⟩)
  | some (n + 3) => exact .inr (.inr ⟨_, _, rfl, by simp⟩)
  | none => exact .inr (.inr ⟨_, _, rfl, by simp⟩)

/-- The record of a request, by what its handler came to. -/
theorem recordOf_of_on {request : AdminRequest} {outcome : Except AppError AdminReply}
    (on : (handle deps world request).on db world.left = (outcome, db')) :
    recordOf deps world request db =
      { effects := request.effects db db' (serve deps world request db).1
        entries := newEntries db.app.auditLog db'.app.auditLog } := by
  unfold recordOf serve
  rw [on]

/-- A request that has written no entry may have done nothing. -/
theorem audited_iff_of_unlogged {request : AdminRequest} {outcome : Except AppError AdminReply}
    (on : (handle deps world request).on db world.left = (outcome, db'))
    (log : db'.app.auditLog = db.app.auditLog) :
    (recordOf deps world request db).Audited ↔
      request.effects db db' (serve deps world request db).1 = [] := by
  rw [recordOf_of_on on, log, newEntries_self, audited_nil_iff]

/-- A request that has written an entry may have done what it tells of. -/
theorem audited_of_logged {request : AdminRequest} {outcome : Except AppError AdminReply}
    {effect : Effect} {entry : AuditEntry}
    (on : (handle deps world request).on db world.left = (outcome, db'))
    (log : db'.app.auditLog = entry :: db.app.auditLog) (told : effect.ToldBy entry)
    (effects : request.effects db db' (serve deps world request db).1 = [] ∨
      request.effects db db' (serve deps world request db).1 = [effect]) :
    (recordOf deps world request db).Audited := by
  rw [recordOf_of_on on, log, newEntries_cons]
  rcases effects with nothing | one
  · rw [nothing]
    exact .nil
  · rw [one]
    exact .cons told .nil

theorem killswitchEffects_self : killswitchEffects db db = [] := if_pos rfl

theorem resumeEffects_self : resumeEffects db db = [] := by
  unfold resumeEffects
  rw [List.map_eq_nil_iff, List.filter_eq_nil_iff]
  intro id _
  simp

theorem killswitchEffects_set (state : Killswitch) (now : Int) (actor action : String)
    (detail : List (String × Json)) :
    killswitchEffects db (db.mapApp fun app =>
        AuditRepo.log now actor action detail (KvRepo.setGlobalKillswitch state app)) =
      killswitchEffects db (db.mapApp (KvRepo.setGlobalKillswitch state)) := rfl

theorem killswitchEffects_mapApp_set (state : Killswitch) :
    killswitchEffects db (db.mapApp (KvRepo.setGlobalKillswitch state)) =
      if state = KvRepo.globalKillswitch db.app then [] else [.killswitch state] := by
  unfold killswitchEffects AdminDb.mapApp
  simp only [globalKillswitch_set]

theorem killswitch_audited_iff (state : Killswitch) :
    (recordOf deps world (.killswitch (some state)) db).Audited ↔
      (world.left = some 2 → KvRepo.globalKillswitch db.app = state) := by
  have on : ∀ {outcome : Except AppError AdminReply} {db' : AdminDb},
      (setKillswitch (some state) world.now).on db world.left = (outcome, db') →
        (handle deps world (.killswitch (some state))).on db world.left = (outcome, db') := id
  rcases @setKillswitch_on db state world.now world.left with
    ⟨e, ends, spared⟩ | ⟨e, ends, hit⟩ | ⟨reply, detail, ends, spared⟩
  · refine iff_of_true ?_ fun hit => absurd hit spared
    exact (audited_iff_of_unlogged (on ends) rfl).mpr killswitchEffects_self
  · rw [audited_iff_of_unlogged (on ends) rfl, forall_prop_of_true hit]
    show killswitchEffects _ _ = [] ↔ _
    rw [killswitchEffects_mapApp_set]
    by_cases same : state = KvRepo.globalKillswitch db.app
    · exact iff_of_true (if_pos same) same.symm
    · rw [if_neg same]
      exact iff_of_false (List.cons_ne_nil _ _) fun back => same back.symm
  · refine iff_of_true ?_ fun hit => absurd hit spared
    refine audited_of_logged (on ends) rfl (show (Effect.killswitch state).ToldBy _ from rfl) ?_
    show killswitchEffects _ _ = [] ∨ killswitchEffects _ _ = _
    rw [killswitchEffects_set, killswitchEffects_mapApp_set]
    by_cases same : state = KvRepo.globalKillswitch db.app
    · exact .inl (if_pos same)
    · exact .inr (if_neg same)

/-! ## The pause of a route -/

theorem on_overApp {α : Type} (script : Script α) (left : Option Nat) : (overApp script).on db left =
    ((script.on db.app left).1, db.mapApp fun app => (script.on app left).2) := rfl

/-- The entry of a pause. -/
def logPause (id : String) (paused : Bool) (now : Int) : Db → Db :=
  AuditRepo.log now "admin" (if paused then "route.pause" else "route.resume") [("route", .str id)]

theorem pauseRoute_on (id : String) (paused : Bool) (now : Int) (left : Option Nat) (app : Db) :
    (∃ outcome, (pauseRoute id (some paused) now).on app left = (outcome, app) ∧
        (left = some 2 → RoutesRepo.get app id = none)) ∨
      (∃ e, (pauseRoute id (some paused) now).on app left =
        (.error e, KvRepo.setRoutePaused id paused app) ∧ left = some 2 ∧
          RoutesRepo.get app id ≠ none) ∨
      (∃ reply, (pauseRoute id (some paused) now).on app left =
        (.ok reply, logPause id paused now (KvRepo.setRoutePaused id paused app)) ∧ left ≠ some 2) := by
  unfold pauseRoute query
  rw [Sql.on_statement_bind]
  by_cases failing : left = some 0
  · rw [if_pos failing]
    exact .inl ⟨_, rfl, fun hit => by simp [failing] at hit⟩
  rw [if_neg failing]
  cases found : RoutesRepo.get app id with
  | none =>
    simp only [found]
    exact .inl ⟨_, rfl, fun _ => trivial⟩
  | some route =>
    simp only [found]
    match left with
    | some 0 => exact absurd rfl failing
    | some 1 => exact .inl ⟨_, rfl, fun hit => by simp at hit⟩
    | some 2 => exact .inr (.inl ⟨_, rfl, rfl, Option.some_ne_none _⟩)
    | some (n + 3) => exact .inr (.inr ⟨_, rfl, by simp⟩)
    | none => exact .inr (.inr ⟨_, rfl, by simp⟩)

theorem pauseRoute_none_on (id : String) (now : Int) (left : Option Nat) (app : Db) :
    ((pauseRoute id none now).on app left).2 = app := by
  unfold pauseRoute query
  rw [Sql.on_statement_bind]
  by_cases failing : left = some 0
  · rw [if_pos failing]
  · rw [if_neg failing]
    simp only
    cases RoutesRepo.get app id <;> rfl

theorem isRoutePaused_set (id : String) (paused : Bool) (app : Db) :
    KvRepo.isRoutePaused (KvRepo.setRoutePaused id paused app) id = paused := by
  unfold KvRepo.isRoutePaused KvRepo.get KvRepo.setRoutePaused
  cases paused with
  | true =>
    show ((app.kv.insert (KvRepo.routePausedPrefix ++ id) "1").lookup _ == some "1") = true
    rw [AList.lookup_insert]
    rfl
  | false =>
    show ((app.kv.erase (KvRepo.routePausedPrefix ++ id)).lookup _ == some "1") = false
    rw [AList.lookup_erase]
    rfl

theorem auditLog_setRoutePaused (id : String) (paused : Bool) (app : Db) :
    (KvRepo.setRoutePaused id paused app).auditLog = app.auditLog := by
  cases paused <;> rfl

/-- Setting the flag, logged or not, is an effect where it had another value. -/
theorem pauseEffects_set {app : Db} (id : String) (paused : Bool)
    (flag : KvRepo.isRoutePaused app id = paused) :
    pauseEffects db (db.mapApp fun _ => app) id =
      if paused = KvRepo.isRoutePaused db.app id then [] else [.pause id paused] := by
  unfold pauseEffects AdminDb.mapApp
  simp only [flag]

theorem pause_audited_iff (id : String) (paused : Bool) :
    (recordOf deps world (.pause id (some paused)) db).Audited ↔
      (world.left = some 2 → RoutesRepo.get db.app id = none ∨
        KvRepo.isRoutePaused db.app id = paused) := by
  have on : ∀ {outcome : Except AppError AdminReply} {app : Db},
      (pauseRoute id (some paused) world.now).on db.app world.left = (outcome, app) →
        (handle deps world (.pause id (some paused))).on db world.left =
          (outcome, db.mapApp fun _ => app) := by
    intro outcome app ends
    show (overApp _).on db world.left = _
    rw [on_overApp, ends]
    exact congrArg (fun app => (outcome, db.mapApp fun _ => app)) (congrArg Prod.snd ends)
  have flag := isRoutePaused_set id paused db.app
  rcases pauseRoute_on id paused world.now world.left db.app with
    ⟨outcome, ends, spared⟩ | ⟨e, ends, hit, found⟩ | ⟨reply, ends, spared⟩
  · refine iff_of_true ?_ fun hit => .inl (spared hit)
    exact (audited_iff_of_unlogged (on ends) rfl).mpr (if_pos rfl)
  · rw [audited_iff_of_unlogged (on ends) (auditLog_setRoutePaused id paused db.app),
      forall_prop_of_true hit, or_iff_right found]
    show pauseEffects _ _ id = [] ↔ _
    rw [pauseEffects_set id paused flag]
    by_cases same : paused = KvRepo.isRoutePaused db.app id
    · exact iff_of_true (if_pos same) same.symm
    · rw [if_neg same]
      exact iff_of_false (List.cons_ne_nil _ _) fun back => same back.symm
  · refine iff_of_true ?_ fun hit => absurd hit spared
    have log : (logPause id paused world.now (KvRepo.setRoutePaused id paused db.app)).auditLog =
        _ :: db.app.auditLog := congrArg (_ :: ·) (auditLog_setRoutePaused id paused db.app)
    refine audited_of_logged (on ends) log
      (show (Effect.pause id paused).ToldBy _ from ⟨rfl, rfl⟩) ?_
    have effects := @pauseEffects_set db _ id paused
      (show KvRepo.isRoutePaused (logPause id paused world.now (KvRepo.setRoutePaused id paused db.app))
        id = paused from flag)
    show pauseEffects _ _ id = [] ∨ pauseEffects _ _ id = _
    rw [effects]
    by_cases same : paused = KvRepo.isRoutePaused db.app id
    · exact .inl (if_pos same)
    · exact .inr (if_neg same)

/-! ## Replays -/

theorem requeued_self (events : Events) : requeued events events = [] := by
  unfold requeued
  rw [List.map_eq_nil_iff, List.filter_eq_nil_iff]
  intro r member
  rw [Relational.Table.row?_of_mem member]
  simp

/-- An update that replays parked rows requeues those it takes. -/
theorem requeued_update {events : Events} {p : EventRow → Relational.Truth} {now : Int}
    {ids : ∀ r : EventRow, (r.setReplayed now).id = r.id}
    {keys : ∀ r : EventRow, (r.setReplayed now).idempotencyKey = r.idempotencyKey}
    (parked : ∀ r, (p r).holds → r.status = .parked) :
    requeued events (events.update p (.setReplayed now) ids keys) =
      (events.rows.filter fun r => (p r).holds).map EventRow.id := by
  unfold requeued
  congr 1
  refine List.filter_congr fun r member => ?_
  rw [Relational.Table.row?_update, Relational.Table.row?_of_mem member, Option.map_some, Option.map_some]
  by_cases taken : (p r).holds
  · simp [taken, parked r taken, EventRow.setReplayed]
  · simp [taken]

/-- At most one row has an id. -/
theorem filter_id_cases (events : Events) (id : Nat) (p : EventRow → Bool) :
    ((events.rows.filter fun r => r.id == id && p r) = [] ∧
        ∀ r, EventsRepo.getById events id = some r → p r = false) ∨
      ∃ r, (events.rows.filter fun r => r.id == id && p r) = [r] ∧
        EventsRepo.getById events id = some r ∧ p r := by
  have named : ∀ r ∈ events.rows.filter (fun r => r.id == id && p r),
      EventsRepo.getById events id = some r ∧ p r := by
    intro r member
    obtain ⟨there, tests⟩ := List.mem_filter.mp member
    rw [Bool.and_eq_true, beq_iff_eq] at tests
    exact ⟨tests.1 ▸ Relational.Table.row?_of_mem there, tests.2⟩
  have distinct : (events.rows.filter fun r => r.id == id && p r).Nodup :=
    (List.Nodup.of_map _ Relational.Table.ids_nodup).filter _
  cases rows : events.rows.filter fun r => r.id == id && p r with
  | nil =>
    refine .inl ⟨rfl, fun r found => ?_⟩
    obtain ⟨there, same⟩ := Relational.Table.row?_mem found
    by_contra tests
    rw [Bool.not_eq_false] at tests
    have member : r ∈ events.rows.filter fun r => r.id == id && p r :=
      List.mem_filter.mpr ⟨there, by rw [same, tests]; simp⟩
    rw [rows] at member
    cases member
  | cons r rest =>
    rw [rows] at named distinct
    have here := named r List.mem_cons_self
    refine .inr ⟨r, ?_, here⟩
    cases rest with
    | nil => rfl
    | cons r' rest =>
      have there := named r' (List.mem_cons_of_mem _ List.mem_cons_self)
      obtain rfl := Option.some.inj (here.1.symm.trans there.1)
      exact absurd List.mem_cons_self (List.nodup_cons.mp distinct).1

/-- A replay requeues the row it names if it is parked. -/
theorem replayEvent_cases (id : IdParam) (now : Int) (events : Events) :
    ((replayEvent id now events).1 = false ∧ requeued events (replayEvent id now events).2 = [] ∧
        ∀ r, id.row? events = some r → r.status ≠ .parked) ∨
      ∃ n, id = .row n ∧ (replayEvent id now events).1 = true ∧
        requeued events (replayEvent id now events).2 = [n] ∧
        ∃ r, id.row? events = some r ∧ r.status = .parked := by
  cases id with
  | notFinite => exact .inl ⟨rfl, requeued_self events, fun r found => by cases found⟩
  | noRow => exact .inl ⟨rfl, requeued_self events, fun r found => by cases found⟩
  | row n =>
    have holds : ∀ r : EventRow,
        (Relational.Truth.and (some (r.id == n)) (statusIn [.parked] r)).holds =
          (r.id == n && r.status == .parked) := by
      intro r
      rw [Relational.Truth.holds_and, Relational.Truth.holds_some]
      simp only [statusIn, Relational.Truth.holds_some, List.contains_cons, List.contains_nil,
        Bool.or_false]
    have requeues : requeued events (replayEvent (.row n) now events).2 =
        (events.rows.filter fun r => r.id == n && r.status == .parked).map EventRow.id := by
      refine (@requeued_update events _ now (fun _ => rfl) (fun _ => rfl) fun r taken => ?_).trans ?_
      · rw [holds, Bool.and_eq_true, beq_iff_eq, beq_iff_eq] at taken
        exact taken.2
      · simp only [holds]
    have counts : (replayEvent (.row n) now events).1 =
        ((events.rows.filter fun r => r.id == n && r.status == .parked).length == 1) := by
      rw [← List.countP_eq_length_filter]
      show (List.countP _ _ == 1) = _
      simp only [holds]
    rcases filter_id_cases events n fun r => r.status == .parked with ⟨rows, idle⟩ | ⟨r, rows, found, parked⟩
    · rw [requeues, counts, rows]
      exact .inl ⟨rfl, rfl, fun r found same => by simpa [same] using idle r found⟩
    · rw [requeues, counts, rows]
      refine .inr ⟨n, rfl, rfl, ?_, r, found, beq_iff_eq.mp parked⟩
      rw [List.map_singleton, (Relational.Table.row?_mem found).2]

/-- The database with the events changed. -/
def AdminDb.withEvents (events : Events) (db : AdminDb) : AdminDb := { db with events }

theorem postReplay_on (id : IdParam) (now : Int) (left : Option Nat) :
    (∃ outcome, (postReplay id now).on db left = (outcome, db) ∧
        (left = some 1 → False)) ∨
      (∃ outcome, (postReplay id now).on db left =
        (outcome, db.withEvents (replayEvent id now db.events).2) ∧
          ((replayEvent id now db.events).1 = false ∨ left = some 1)) ∨
      ∃ n reply, id = .row n ∧ left ≠ some 1 ∧ (postReplay id now).on db left =
        (.ok reply, (db.withEvents (replayEvent id now db.events).2).mapApp
          (AuditRepo.log now "admin" "event.replay" [("event_id", .num (.ofNat n))])) := by
  unfold postReplay overEvents
  rw [Sql.on_statement_bind]
  match left with
  | some 0 => exact .inl ⟨_, if_pos rfl, by decide⟩
  | some 1 =>
    refine .inr (.inl ?_)
    cases (replayEvent id now db.events).1 with
    | false => exact ⟨_, rfl, .inl rfl⟩
    | true => cases id <;> exact ⟨_, rfl, .inr rfl⟩
  | some (n + 2) =>
    cases replayed : (replayEvent id now db.events).1 with
    | false => exact .inr (.inl ⟨_, by rw [if_neg (by simp)]; rfl, .inl rfl⟩)
    | true =>
      cases id with
      | row id => exact .inr (.inr ⟨id, _, rfl, by simp, rfl⟩)
      | _ => cases replayed
  | none =>
    cases replayed : (replayEvent id now db.events).1 with
    | false => exact .inr (.inl ⟨_, by rw [if_neg (by simp)]; rfl, .inl rfl⟩)
    | true =>
      cases id with
      | row id => exact .inr (.inr ⟨id, _, rfl, by simp, rfl⟩)
      | _ => cases replayed

theorem replay_audited_iff (id : IdParam) : (recordOf deps world (.replay id) db).Audited ↔
    (world.left = some 1 → ∀ r, id.row? db.events = some r → r.status ≠ .parked) := by
  have on : ∀ {outcome : Except AppError AdminReply} {db' : AdminDb},
      (postReplay id world.now).on db world.left = (outcome, db') →
        (handle deps world (.replay id)).on db world.left = (outcome, db') := fun ends => ends
  rcases @postReplay_on db id world.now world.left with
    ⟨outcome, ends, spared⟩ | ⟨outcome, ends, why⟩ | ⟨n, reply, rfl, spared, ends⟩
  · refine iff_of_true ?_ fun hit => (spared hit).elim
    rw [audited_iff_of_unlogged (on ends) rfl]
    exact congrArg (List.map Effect.replay) (requeued_self _)
  · rw [audited_iff_of_unlogged (on ends) rfl]
    show (requeued db.events (replayEvent id world.now db.events).2).map Effect.replay = [] ↔ _
    rcases replayEvent_cases id world.now db.events with
      ⟨-, nothing, idle⟩ | ⟨n, -, replayed, one, r, found, parked⟩
    · rw [nothing]
      exact iff_of_true rfl fun _ => idle
    · rw [one]
      have hit := why.resolve_left fun still => by rw [still] at replayed; cases replayed
      exact iff_of_false (List.cons_ne_nil _ _) fun idle => idle hit r found parked
  · refine iff_of_true ?_ fun hit => absurd hit spared
    refine audited_of_logged (on ends) rfl (show (Effect.replay n).ToldBy _ from ⟨rfl, rfl⟩) ?_
    show (requeued db.events (replayEvent (.row n) world.now db.events).2).map Effect.replay = [] ∨
      (requeued db.events (replayEvent (.row n) world.now db.events).2).map Effect.replay = _
    rcases replayEvent_cases (.row n) world.now db.events with
      ⟨-, nothing, -⟩ | ⟨m, same, -, one, -⟩
    · rw [nothing]
      exact .inl rfl
    · obtain rfl := IdParam.row.inj same
      rw [one]
      exact .inr rfl

/-- Replaying all parked rows requeues as many as it counts. -/
theorem requeued_replayAll (events : Events) (now : Int) :
    (requeued events (EventsRepo.replayAllParked events now).2).length =
      (EventsRepo.replayAllParked events now).1 := by
  have parked : ∀ r : EventRow, (statusIn [.parked] r).holds → r.status = .parked := by
    intro r taken
    simpa [statusIn] using taken
  refine (congrArg List.length (@requeued_update events (statusIn [.parked]) now (fun _ => rfl)
    (fun _ => rfl) parked)).trans ?_
  rw [List.length_map, ← List.countP_eq_length_filter]
  rfl

theorem replayAll_eq_zero_iff (events : Events) (now : Int) :
    (EventsRepo.replayAllParked events now).1 = 0 ↔ ∀ r ∈ events.rows, r.status ≠ .parked := by
  show List.countP _ _ = 0 ↔ _
  rw [List.countP_eq_zero]
  refine forall₂_congr fun r _ => not_congr ?_
  simp [statusIn]

theorem postReplayParked_on (now : Int) (left : Option Nat) :
    (∃ outcome, (postReplayParked now).on db left = (outcome, db) ∧ left ≠ some 1) ∨
      (∃ outcome, (postReplayParked now).on db left =
        (outcome, db.withEvents (EventsRepo.replayAllParked db.events now).2) ∧
          ((EventsRepo.replayAllParked db.events now).1 = 0 ∨ left = some 1)) ∨
      ∃ reply, left ≠ some 1 ∧ (postReplayParked now).on db left =
        (.ok reply, (db.withEvents (EventsRepo.replayAllParked db.events now).2).mapApp
          (AuditRepo.log now "admin" "event.replay_all_parked"
            [("count", .num (.ofNat (EventsRepo.replayAllParked db.events now).1))])) := by
  unfold postReplayParked overEvents
  rw [Sql.on_statement_bind]
  match left with
  | some 0 => exact .inl ⟨_, if_pos rfl, by decide⟩
  | some 1 =>
    refine .inr (.inl ?_)
    rw [if_neg (by decide)]
    by_cases some_ : 0 < (EventsRepo.replayAllParked db.events now).1
    · rw [if_pos some_]
      exact ⟨_, rfl, .inr rfl⟩
    · rw [if_neg some_]
      exact ⟨_, rfl, .inr rfl⟩
  | some (n + 2) =>
    rw [if_neg (by simp)]
    by_cases some_ : 0 < (EventsRepo.replayAllParked db.events now).1
    · rw [if_pos some_]
      exact .inr (.inr ⟨_, by simp, rfl⟩)
    · rw [if_neg some_]
      exact .inr (.inl ⟨_, rfl, .inl (by omega)⟩)
  | none =>
    rw [if_neg (by simp)]
    by_cases some_ : 0 < (EventsRepo.replayAllParked db.events now).1
    · rw [if_pos some_]
      exact .inr (.inr ⟨_, by simp, rfl⟩)
    · rw [if_neg some_]
      exact .inr (.inl ⟨_, rfl, .inl (by omega)⟩)

theorem replayParked_audited_iff : (recordOf deps world .replayParked db).Audited ↔
    (world.left = some 1 → ∀ r ∈ db.events.rows, r.status ≠ .parked) := by
  have on : ∀ {outcome : Except AppError AdminReply} {db' : AdminDb},
      (postReplayParked world.now).on db world.left = (outcome, db') →
        (handle deps world .replayParked).on db world.left = (outcome, db') := fun ends => ends
  rcases @postReplayParked_on db world.now world.left with
    ⟨outcome, ends, spared⟩ | ⟨outcome, ends, why⟩ | ⟨reply, spared, ends⟩
  · refine iff_of_true ?_ fun hit => absurd hit spared
    rw [audited_iff_of_unlogged (on ends) rfl]
    show replayAllEffects (requeued _ _) = []
    rw [requeued_self]
    rfl
  · rw [audited_iff_of_unlogged (on ends) rfl]
    show replayAllEffects (requeued _ (EventsRepo.replayAllParked db.events world.now).2) = [] ↔ _
    rw [replayAllEffects, requeued_replayAll, ← replayAll_eq_zero_iff _ world.now]
    by_cases zero : (EventsRepo.replayAllParked db.events world.now).1 = 0
    · exact iff_of_true (if_pos zero) fun _ => zero
    · rw [if_neg zero]
      exact iff_of_false (List.cons_ne_nil _ _) fun idle => zero (idle (why.resolve_left zero))
  · refine iff_of_true ?_ fun hit => absurd hit spared
    refine audited_of_logged (on ends) rfl
      (show (Effect.replayAll (EventsRepo.replayAllParked db.events world.now).1).ToldBy _ from
        ⟨rfl, rfl⟩) ?_
    show replayAllEffects (requeued _ (EventsRepo.replayAllParked db.events world.now).2) = [] ∨
      replayAllEffects (requeued _ (EventsRepo.replayAllParked db.events world.now).2) = _
    rw [replayAllEffects, requeued_replayAll]
    exact (ite_eq_or_eq _ _ _)

/-! ## The payload view -/

/-- A row is shown after its view is logged, or it is not. -/
theorem viewRow_on (deps : AdminDeps) (row : EventRow) (now : Int) (left : Option Nat) :
    (∃ outcome, (viewRow deps row now).on db left = (outcome, db) ∧
        ∀ reply, outcome = .ok reply → reply.status ≠ 200) ∨
      ∃ reply, (viewRow deps row now).on db left =
        (.ok reply, db.mapApp (AuditRepo.log now "admin" "event.view_payload"
          [("event_id", .num (.ofNat row.id)), ("route", .str row.routeId),
            ("status", .str row.status.name)])) := by
  have refused : ∀ status error, status ≠ 200 → ∀ reply,
      (.ok (errorReply status error) : Except AppError AdminReply) = .ok reply →
        reply.status ≠ 200 := by
    intro status error other reply same
    obtain rfl := Except.ok.inj same
    exact other
  unfold viewRow
  split
  · exact .inl ⟨_, rfl, refused 410 _ (by decide)⟩
  · split
    · exact .inl ⟨_, rfl, refused 500 _ (by decide)⟩
    · split
      · exact .inl ⟨_, rfl, refused 500 _ (by decide)⟩
      · match left with
        | some 0 => exact .inl ⟨_, rfl, fun reply same => by cases same⟩
        | some (n + 1) => exact .inr ⟨_, rfl⟩
        | none => exact .inr ⟨_, rfl⟩

theorem viewPayload_on (deps : AdminDeps) (id : IdParam) (now : Int) (left : Option Nat) :
    (∃ outcome, (viewPayload deps id now).on db left = (outcome, db) ∧
        ∀ reply, outcome = .ok reply → reply.status ≠ 200) ∨
      ∃ n reply route status, id = .row n ∧ (viewPayload deps id now).on db left =
        (.ok reply, db.mapApp (AuditRepo.log now "admin" "event.view_payload"
          [("event_id", .num (.ofNat n)), ("route", .str route), ("status", .str status)])) := by
  have unread : ∀ (failing : left = some 0) (next : Option EventRow → AdminScript AdminReply),
      ∃ outcome, (overEvents (fun events => (id.row? events, events)) >>= next).on db left =
        (outcome, db) ∧ ∀ reply, outcome = .ok reply → reply.status ≠ 200 := by
    intro failing next
    unfold overEvents
    rw [Sql.on_statement_bind, if_pos failing]
    exact ⟨_, rfl, fun reply same => by cases same⟩
  have read : ∀ (passes : left ≠ some 0) (next : Option EventRow → AdminScript AdminReply),
      (overEvents (fun events => (id.row? events, events)) >>= next).on db left =
        (next (id.row? db.events)).on db (left.map (· - 1)) := by
    intro passes next
    unfold overEvents
    rw [Sql.on_statement_bind, if_neg passes]
  unfold viewPayload
  by_cases failing : left = some 0
  · cases id with
    | notFinite => exact .inl ⟨_, rfl, fun reply same => by cases same; decide⟩
    | noRow => exact .inl (unread failing _)
    | row n => exact .inl (unread failing _)
  · cases id with
    | notFinite => exact .inl ⟨_, rfl, fun reply same => by cases same; decide⟩
    | noRow =>
      simp only
      rw [read failing]
      exact .inl ⟨_, rfl, fun reply same => by cases same; decide⟩
    | row n =>
      simp only
      rw [read failing]
      cases found : IdParam.row? db.events (.row n) with
      | none => exact .inl ⟨_, rfl, fun reply same => by cases same; decide⟩
      | some row =>
        have named : row.id = n := (Relational.Table.row?_mem found).2
        subst named
        rcases @viewRow_on db deps row now (left.map (· - 1)) with refused | ⟨reply, shown⟩
        · exact .inl refused
        · exact .inr ⟨row.id, reply, row.routeId, row.status.name, rfl, shown⟩

theorem payload_audited (id : IdParam) : (recordOf deps world (.payload id) db).Audited := by
  have on : ∀ {outcome : Except AppError AdminReply} {db' : AdminDb},
      (viewPayload deps id world.now).on db world.left = (outcome, db') →
        (handle deps world (.payload id)).on db world.left = (outcome, db') := fun ends => ends
  rcases @viewPayload_on db deps id world.now world.left with
    ⟨outcome, ends, refused⟩ | ⟨n, reply, route, status, rfl, ends⟩
  · rw [audited_iff_of_unlogged (on ends) rfl]
    cases id with
    | row n =>
      refine if_neg ?_
      unfold serve
      rw [on ends]
      cases world.replies with
      | false => exact Bool.false_ne_true
      | true =>
        cases outcome with
        | error e => exact Bool.false_ne_true
        | ok reply => exact fun shown => refused reply rfl (beq_iff_eq.mp shown)
    | _ => rfl
  · refine audited_of_logged (on ends) rfl
      (show (Effect.view n).ToldBy _ from ⟨rfl, _, _, rfl⟩) ?_
    exact (ite_eq_or_eq _ _ _).symm

/-! ## The configuration -/

/-- Clearing pause flags leaves the state in place. -/
theorem globalKillswitch_withoutPauses (ids : List String) (app : Db) :
    KvRepo.globalKillswitch (withoutPauses ids app) = KvRepo.globalKillswitch app := by
  have other : "killswitch.global" ∉ ((KvRepo.pausedRoutes app).filter (· ∉ ids)).map
      (KvRepo.routePausedPrefix ++ ·) := by
    intro member
    obtain ⟨id, -, same⟩ := List.mem_map.mp member
    have texts := congrArg String.toList same
    rw [String.toList_append] at texts
    exact absurd (List.cons.inj texts).1 (by decide)
  unfold KvRepo.globalKillswitch KvRepo.get
  rw [kv_withoutPauses, lookup_foldl_erase, if_neg other]

/-- A save adds a version and its entry, or neither, and leaves the killswitch. -/
theorem saved_told (loaded : LoadedConfig) (actor : String) (now : Int) (app : Db) :
    KvRepo.globalKillswitch (saved loaded actor now app) = KvRepo.globalKillswitch app ∧
      ∃ effects entries, (saved loaded actor now app).auditLog = entries ++ app.auditLog ∧
        (∀ db' : AdminDb, db'.app.configVersions = (saved loaded actor now app).configVersions →
          ∀ db : AdminDb, db.app = app → versionEffects db db' = effects) ∧
        List.Forall₂ Effect.ToldBy effects entries := by
  unfold saved
  split
  · refine ⟨rfl, [], [], rfl, fun db' versions db same => ?_, .nil⟩
    exact if_pos (versions.trans (congrArg Db.configVersions same.symm))
  · obtain ⟨versions, log, -, kv⟩ := @applied_frame app loaded actor now
    have killswitch : KvRepo.globalKillswitch (applied loaded actor now app) =
        KvRepo.globalKillswitch app := by
      rw [KvRepo.globalKillswitch, KvRepo.get, kv]
      refine (globalKillswitch_withoutPauses _ _).trans ?_
      rw [KvRepo.globalKillswitch, KvRepo.get, (@materialized_frame app loaded.routes).1]
      rfl
    refine ⟨killswitch, [.version loaded.hash], [entryOf loaded actor now], log, ?_, ?_⟩
    · intro db' added db same
      unfold versionEffects
      rw [added, versions, same, if_neg (List.cons_ne_self _ _)]
      rfl
    · exact .cons ⟨rfl, _, rfl⟩ .nil

/-- A new version leaves the flags of its routes, and no others. -/
theorem isRoutePaused_applied {loaded : LoadedConfig} (actor : String) (now : Int) (app : Db)
    {id : String} (paused : KvRepo.isRoutePaused app id) :
    KvRepo.isRoutePaused (applied loaded actor now app) id ↔ id ∈ loaded.routes.map RouteConfig.id := by
  have kv := (@applied_frame app loaded actor now).2.2.2
  have flag : KvRepo.isRoutePaused (applied loaded actor now app) id = KvRepo.isRoutePaused
      (withoutPauses (loaded.routes.map RouteConfig.id) (materialized loaded.routes app)) id := by
    rw [KvRepo.isRoutePaused, KvRepo.get, kv]
    rfl
  rw [flag]
  refine ⟨paused_withoutPauses, fun kept => ?_⟩
  have spared : KvRepo.routePausedPrefix ++ id ∉
      ((KvRepo.pausedRoutes (materialized loaded.routes app)).filter
        (· ∉ loaded.routes.map RouteConfig.id)).map (KvRepo.routePausedPrefix ++ ·) := by
    intro member
    obtain ⟨other, dropped, same⟩ := List.mem_map.mp member
    obtain rfl := String.append_right_inj _ |>.mp same
    exact of_decide_eq_true (List.mem_filter.mp dropped).2 kept
  rw [KvRepo.isRoutePaused, KvRepo.get, kv_withoutPauses, lookup_foldl_erase, if_neg spared,
    (@materialized_frame app loaded.routes).1]
  exact paused

/-- A save clears flags exactly where it adds a version without a route that is paused. -/
theorem resumeEffects_saved_iff (loaded : LoadedConfig) (actor : String) (now : Int) :
    resumeEffects db (db.mapApp (saved loaded actor now)) = [] ↔
      (db.app.configVersions.head?.map (·.configHash) ≠ some loaded.hash →
        ∀ id, KvRepo.isRoutePaused db.app id → id ∈ loaded.routes.map RouteConfig.id) := by
  have cleared_iff : resumeEffects db (db.mapApp (saved loaded actor now)) = [] ↔
      ∀ id, KvRepo.isRoutePaused db.app id →
        KvRepo.isRoutePaused (saved loaded actor now db.app) id := by
    unfold resumeEffects
    rw [List.map_eq_nil_iff, List.filter_eq_nil_iff]
    constructor
    · intro none id paused
      have kept := none id (mem_pausedRoutes paused)
      rw [paused] at kept
      exact (by simpa using kept : KvRepo.isRoutePaused (db.mapApp (saved loaded actor now)).app id)
    · intro keeps id _ clears
      rw [Bool.and_eq_true, Bool.not_eq_true'] at clears
      exact absurd (keeps id clears.1) (ne_true_of_eq_false clears.2)
  rw [cleared_iff]
  unfold saved
  by_cases same : db.app.configVersions.head?.map (·.configHash) = some loaded.hash
  · rw [if_pos same]
    exact iff_of_true (fun _ paused => paused) fun other => absurd same other
  · rw [if_neg same, forall_prop_of_true same]
    exact forall₂_congr fun id paused => isRoutePaused_applied actor now db.app paused

/-- Forwarding is held and logged, or held only, or left as it is. -/
theorem holdForwarding_on (deps : AdminDeps) (now : Int) (left : Option Nat) :
    (∃ outcome, (holdForwarding deps now).on db left = (outcome, db) ∧
        (left = some 2 → deps.configError = true → KvRepo.globalKillswitch db.app ≠ .none)) ∨
      (∃ e, (holdForwarding deps now).on db left =
          (.error e, db.mapApp (KvRepo.setGlobalKillswitch .pause)) ∧
        left = some 2 ∧ deps.configError = true ∧ KvRepo.globalKillswitch db.app = .none) ∨
      (∃ detail, (holdForwarding deps now).on db left =
          (.ok true, db.mapApp fun app => AuditRepo.log now "recovery" "killswitch.pause" detail
            (KvRepo.setGlobalKillswitch .pause app)) ∧
        left ≠ some 2 ∧ KvRepo.globalKillswitch db.app = .none) := by
  unfold holdForwarding
  cases invalid : deps.configError with
  | false => exact .inl ⟨_, rfl, fun _ same => absurd same Bool.false_ne_true⟩
  | true =>
    have read : ∀ next : Killswitch → AdminScript Bool,
        (overApp (query KvRepo.globalKillswitch) >>= next).on db left =
          if left = some 0 then (.error .sqlite, db)
          else (next (KvRepo.globalKillswitch db.app)).on db (left.map (· - 1)) := by
      intro next
      match left with
      | some 0 => rfl
      | some (n + 1) => rfl
      | none => rfl
    rw [if_pos rfl, read]
    by_cases failing : left = some 0
    · rw [if_pos failing]
      exact .inl ⟨_, rfl, fun hit => by simp [failing] at hit⟩
    rw [if_neg failing]
    cases held : KvRepo.globalKillswitch db.app with
    | pause => exact .inl ⟨_, rfl, fun _ _ => by simp⟩
    | panic => exact .inl ⟨_, rfl, fun _ _ => by simp⟩
    | none =>
      match left with
      | some 0 => exact absurd rfl failing
      | some 1 => exact .inl ⟨_, rfl, fun hit => by simp at hit⟩
      | some 2 => exact .inr (.inl ⟨_, rfl, rfl, rfl, rfl⟩)
      | some (n + 3) => exact .inr (.inr ⟨_, rfl, by simp, rfl⟩)
      | none => exact .inr (.inr ⟨_, rfl, by simp, rfl⟩)

/-- Holding forwarding leaves the configuration. -/
theorem holdForwarding_frame (deps : AdminDeps) (now : Int) (left : Option Nat) (db : AdminDb) :
    ((holdForwarding deps now).on db left).2.app.configVersions = db.app.configVersions ∧
      ((holdForwarding deps now).on db left).2.app.routes = db.app.routes := by
  rcases @holdForwarding_on db deps now left with ⟨_, ran, -⟩ | ⟨_, ran, -⟩ | ⟨_, ran, -⟩
  all_goals
    rw [ran]
    exact ⟨rfl, rfl⟩

/-- Applying a text where End Close does not own the configuration: it is refused as
the save is, or the text is saved and the recovery part follows. -/
theorem postConfig_ends {yaml : String} (left : Option Nat) (given : yaml ≠ "")
    (unowned : world.managed = false) :
    (∃ e, ((saveConfig deps.yaml yaml "admin" deps.secrets world.now).on db.app left).1 = .error e ∧
        (postConfig deps (some yaml) world).on db left = (.ok (errorReply 422 (deps.message e)), db)) ∨
      ∃ loaded, parseConfig deps.yaml yaml = .ok loaded ∧
        ((saveConfig deps.yaml yaml "admin" deps.secrets world.now).on db.app left).1 = .ok loaded ∧
        ∃ sent : Bool → AdminReply, (∀ paused, (sent paused).status = 200) ∧
          (postConfig deps (some yaml) world).on db left =
            if deps.bootstrap then
              (((holdForwarding deps world.now).on (db.mapApp (saved loaded "admin" world.now))
                  world.recoveryLeft).1.map sent,
                ((holdForwarding deps world.now).on (db.mapApp (saved loaded "admin" world.now))
                  world.recoveryLeft).2)
            else (.ok (sent false), db.mapApp (saved loaded "admin" world.now)) := by
  unfold postConfig
  rw [Option.filter_some_pos (by simpa using given)]
  dsimp only
  rw [if_neg (ne_true_of_eq_false unowned), Sql.on_attempt_bind]
  obtain ⟨left', ran⟩ : ∃ left',
      (overApp (saveConfig deps.yaml yaml "admin" deps.secrets world.now)).run.run { db, left } =
        (((saveConfig deps.yaml yaml "admin" deps.secrets world.now).on db.app left).1,
          { db := db.mapApp fun app =>
              ((saveConfig deps.yaml yaml "admin" deps.secrets world.now).on app left).2,
            left := left' }) := ⟨_, rfl⟩
  rw [ran]
  rcases saveConfig_cases deps.yaml yaml "admin" deps.secrets world.now db.app left with
    ⟨e, fails⟩ | ⟨loaded, parsed, saves⟩
  · have kept : (db.mapApp fun app =>
        ((saveConfig deps.yaml yaml "admin" deps.secrets world.now).on app left).2) = db :=
      congrArg (fun app => { db with app }) (congrArg Prod.snd fails)
    rw [kept, fails]
    exact .inl ⟨e, rfl, rfl⟩
  · have done : (db.mapApp fun app =>
        ((saveConfig deps.yaml yaml "admin" deps.secrets world.now).on app left).2) =
          db.mapApp (saved loaded "admin" world.now) :=
      congrArg (fun app => { db with app }) (congrArg Prod.snd saves)
    rw [done, saves]
    refine .inr ⟨loaded, parsed, rfl, ?_⟩
    cases deps.bootstrap with
    | false => exact ⟨fun _ => _, fun _ => rfl, rfl⟩
    | true =>
      refine ⟨fun paused => _, fun paused => ?_, Sql.on_within_bind_pure _ _ _ _ _⟩
      rfl

/-- A configuration is refused, or saved and then, while bootstrapping, forwarding held. -/
theorem postConfig_on (deps : AdminDeps) (yaml : String) (world : AdminWorld) (left : Option Nat) :
    (∃ outcome, (postConfig deps (some yaml) world).on db left = (outcome, db) ∧
        (yaml = "" ∨ world.managed = true ∨ ∃ e, ((saveConfig deps.yaml yaml "admin" deps.secrets
          world.now).on db.app left).1 = .error e)) ∨
      (yaml ≠ "" ∧ world.managed = false ∧ ∃ loaded outcome,
        ((saveConfig deps.yaml yaml "admin" deps.secrets world.now).on db.app left).1 = .ok loaded ∧
        (postConfig deps (some yaml) world).on db left = (outcome,
          if deps.bootstrap then ((holdForwarding deps world.now).on
            (db.mapApp (saved loaded "admin" world.now)) world.recoveryLeft).2
          else db.mapApp (saved loaded "admin" world.now))) := by
  by_cases blank : yaml = ""
  · unfold postConfig
    rw [Option.filter_some_neg (by simpa using blank)]
    exact .inl ⟨_, rfl, .inl blank⟩
  cases owned : world.managed with
  | true =>
    unfold postConfig
    rw [Option.filter_some_pos (by simpa using blank)]
    dsimp only
    rw [if_pos owned]
    exact .inl ⟨_, rfl, .inr (.inl rfl)⟩
  | false =>
    rcases @postConfig_ends deps world db yaml left blank owned with
      ⟨e, fails, ends⟩ | ⟨loaded, -, saves, sent, -, ends⟩
    · exact .inl ⟨_, ends, .inr (.inr ⟨e, fails⟩)⟩
    · refine .inr ⟨blank, rfl, loaded, ?_⟩
      rw [ends]
      cases deps.bootstrap with
      | false => exact ⟨_, saves, rfl⟩
      | true => exact ⟨_, saves, rfl⟩

/-- An audited record has as many entries as effects, or more. -/
theorem Record.Audited.length_le {record : Record} (audited : record.Audited) :
    record.effects.length ≤ record.entries.length := by
  obtain ⟨entries, told, sublist⟩ := List.sublistForall₂_iff.mp audited
  exact told.length_eq.trans_le sublist.length_le

/-- Beyond effects with an entry each there may be no more. -/
theorem audited_append_iff {effects more : List Effect} {entries : List AuditEntry}
    (told : List.Forall₂ Effect.ToldBy effects entries) :
    Record.Audited { effects := effects ++ more, entries } ↔ more = [] := by
  constructor
  · intro audited
    have fits := audited.length_le
    have same := told.length_eq
    simp only [List.length_append] at fits
    exact List.eq_nil_of_length_eq_zero (by omega)
  · rintro rfl
    rw [List.append_nil]
    exact List.sublistForall₂_iff.mpr ⟨entries, told, List.Sublist.refl _⟩

/-- One effect beyond those with an entry each is one too many. -/
theorem not_audited_cons {effect : Effect} {effects more : List Effect} {entries : List AuditEntry}
    (told : List.Forall₂ Effect.ToldBy effects entries) :
    ¬ Record.Audited { effects := effect :: effects ++ more, entries } := by
  intro audited
  have fits := audited.length_le
  have same := told.length_eq
  simp only [List.cons_append, List.length_cons, List.length_append] at fits
  omega

/-- What a saved configuration records, by what the recovery part adds to the save. -/
theorem recordOf_config {yaml : String} {loaded : LoadedConfig} {outcome : Except AppError AdminReply}
    {held : List Effect} {notes : List AuditEntry}
    (ends : (handle deps world (.config (some yaml))).on db world.left = (outcome, db'))
    (killswitch : killswitchEffects db db' = held)
    (versions : db'.app.configVersions = (saved loaded "admin" world.now db.app).configVersions)
    (flags : ∀ id, KvRepo.isRoutePaused db'.app id =
      KvRepo.isRoutePaused (saved loaded "admin" world.now db.app) id)
    (log : db'.app.auditLog = notes ++ (saved loaded "admin" world.now db.app).auditLog) :
    ∃ effects entries, recordOf deps world (.config (some yaml)) db =
        { effects := held ++ effects ++
            resumeEffects db (db.mapApp (saved loaded "admin" world.now)),
          entries := notes ++ entries } ∧
      List.Forall₂ Effect.ToldBy effects entries := by
  obtain ⟨-, effects, entries, written, added, told⟩ := saved_told loaded "admin" world.now db.app
  refine ⟨effects, entries, ?_, told⟩
  have resumes : resumeEffects db db' = resumeEffects db (db.mapApp (saved loaded "admin" world.now)) := by
    unfold resumeEffects
    simp only [flags]
    rfl
  rw [recordOf_of_on ends, log, written, ← List.append_assoc, newEntries_append, ← killswitch,
    ← added db' versions db rfl, ← resumes]
  rfl

/-- Holding forwarding leaves the flags. -/
theorem isRoutePaused_setGlobalKillswitch (state : Killswitch) (app : Db) (id : String) :
    KvRepo.isRoutePaused (KvRepo.setGlobalKillswitch state app) id = KvRepo.isRoutePaused app id := by
  have other : KvRepo.routePausedPrefix ++ id ≠ "killswitch.global" := by
    intro same
    have texts := congrArg String.toList same
    rw [String.toList_append] at texts
    exact absurd (List.cons.inj texts).1 (by decide)
  unfold KvRepo.isRoutePaused KvRepo.get KvRepo.setGlobalKillswitch KvRepo.set
  rw [AList.lookup_insert_ne other]

/-- Where the recovery part does not hold forwarding, what a saved configuration
records is audited as far as no pause is cleared. -/
theorem unheld_audited_iff {yaml : String} {loaded : LoadedConfig} {outcome : Except AppError AdminReply}
    (ends : (handle deps world (.config (some yaml))).on db world.left =
      (outcome, db.mapApp (saved loaded "admin" world.now))) :
    (recordOf deps world (.config (some yaml)) db).Audited ↔
      resumeEffects db (db.mapApp (saved loaded "admin" world.now)) = [] := by
  have kept := (saved_told loaded "admin" world.now db.app).1
  obtain ⟨effects, entries, record, told⟩ :=
    @recordOf_config _ _ _ _ _ loaded _ [] [] ends (if_pos kept) rfl (fun _ => rfl) rfl
  rw [record]
  exact audited_append_iff told

/-- What holding forwarding does to the killswitch, where a save follows on. -/
theorem killswitchEffects_held (loaded : LoadedConfig) (now : Int)
    (before : KvRepo.globalKillswitch db.app = .none) :
    killswitchEffects db ((db.mapApp (saved loaded "admin" now)).mapApp
      (KvRepo.setGlobalKillswitch .pause)) = [.killswitch .pause] := by
  unfold killswitchEffects AdminDb.mapApp
  rw [before]
  simp only [globalKillswitch_set]
  rfl

theorem config_audited_iff (yaml : String) :
    (recordOf deps world (.config (some yaml)) db).Audited ↔
      (world.recoveryLeft = some 2 → deps.bootstrap = true → deps.configError = true →
        KvRepo.globalKillswitch db.app = .none →
          yaml = "" ∨ world.managed = true ∨ ∃ e, ((saveConfig deps.yaml yaml "admin" deps.secrets
            world.now).on db.app world.left).1 = .error e) ∧
        KeepsPaused deps db.app world yaml := by
  have on : ∀ {outcome : Except AppError AdminReply} {db' : AdminDb},
      (postConfig deps (some yaml) world).on db world.left = (outcome, db') →
        (handle deps world (.config (some yaml))).on db world.left = (outcome, db') := fun ends => ends
  rcases @postConfig_on db deps yaml world world.left with
    ⟨outcome, ends, refused⟩ | ⟨given, owned, loaded, outcome, saves, ends⟩
  · refine iff_of_true ?_ ⟨fun _ _ _ _ => refused, fun given owned loaded saves => ?_⟩
    · rw [audited_iff_of_unlogged (on ends) rfl]
      show killswitchEffects db db ++ versionEffects db db ++ resumeEffects db db = []
      rw [killswitchEffects_self, resumeEffects_self]
      exact (List.append_nil _).trans (if_pos rfl)
    · rcases refused with blank | managed | ⟨e, fails⟩
      · exact absurd blank given
      · exact absurd managed (ne_true_of_eq_false owned)
      · exact absurd (saves.symm.trans fails) (by simp)
  have done : ¬(yaml = "" ∨ world.managed = true ∨ ∃ e, ((saveConfig deps.yaml yaml "admin"
      deps.secrets world.now).on db.app world.left).1 = .error e) := by
    rintro (blank | managed | ⟨e, fails⟩)
    · exact given blank
    · rw [owned] at managed
      exact Bool.false_ne_true managed
    · rw [saves] at fails
      cases fails
  have keeps_iff : resumeEffects db (db.mapApp (saved loaded "admin" world.now)) = [] ↔
      KeepsPaused deps db.app world yaml := by
    rw [resumeEffects_saved_iff]
    refine ⟨fun keeps _ _ other same => ?_, fun keeps => keeps given owned loaded saves⟩
    obtain rfl := Except.ok.inj (saves.symm.trans same)
    exact keeps
  have kept := (saved_told loaded "admin" world.now db.app).1
  cases boots : deps.bootstrap with
  | false =>
    rw [boots] at ends
    rw [unheld_audited_iff (on ends), keeps_iff]
    exact (and_iff_right fun _ same => absurd same Bool.false_ne_true).symm
  | true =>
    rw [boots, if_pos rfl] at ends
    have flags := fun id => isRoutePaused_setGlobalKillswitch .pause
      (saved loaded "admin" world.now db.app) id
    rcases @holdForwarding_on (db.mapApp (saved loaded "admin" world.now)) deps world.now
        world.recoveryLeft with
      ⟨o, holds, spared⟩ | ⟨e, holds, hit, invalid, none⟩ | ⟨detail, holds, spared, none⟩
    · rw [holds] at ends
      rw [unheld_audited_iff (on ends), keeps_iff]
      refine (and_iff_right fun hit _ invalid none => ?_).symm
      exact absurd (kept.trans none) (spared hit invalid)
    · rw [holds] at ends
      have before : KvRepo.globalKillswitch db.app = .none := kept.symm.trans none
      refine iff_of_false ?_ fun holds => done (holds.1 hit rfl invalid before)
      obtain ⟨effects, entries, record, told⟩ :=
        @recordOf_config _ _ _ _ _ loaded _ _ [] (on ends)
          (killswitchEffects_held loaded world.now before) rfl flags rfl
      rw [record]
      exact not_audited_cons told
    · rw [holds] at ends
      have before : KvRepo.globalKillswitch db.app = .none := kept.symm.trans none
      obtain ⟨effects, entries, record, told⟩ :=
        @recordOf_config _ _ _ _ _ loaded _ _ [_] (on ends)
          (killswitchEffects_held loaded world.now before) rfl flags rfl
      rw [record, and_iff_right fun hit => absurd hit spared, ← keeps_iff]
      exact audited_append_iff (.cons (show (Effect.killswitch .pause).ToldBy _ from rfl) told)

/-! ## The log grows -/

/-- The log of the one is that of the other with entries put before it. -/
def LogGrows (db db' : Db) : Prop := db.auditLog <:+ db'.auditLog

instance : Std.Refl LogGrows := ⟨fun _ => List.suffix_rfl⟩

instance : IsTrans Db LogGrows := ⟨fun _ _ _ => List.IsSuffix.trans⟩

/-- The same of the whole database. -/
def AdminLogGrows (db db' : AdminDb) : Prop := LogGrows db.app db'.app

instance : Std.Refl AdminLogGrows := ⟨fun _ => List.suffix_rfl⟩

instance : IsTrans AdminDb AdminLogGrows := ⟨fun _ _ _ => List.IsSuffix.trans⟩

theorem grows_query {α : Type} (read : Db → α) : Sql.Moves LogGrows (query read) :=
  Sql.Moves.statement fun _ => List.suffix_rfl

theorem grows_update {write : Db → Db} (grows : ∀ app, LogGrows app (write app)) :
    Sql.Moves LogGrows (update write) :=
  Sql.Moves.statement grows

theorem grows_log (now : Int) (actor action : String) (detail : List (String × Json)) :
    Sql.Moves LogGrows (update (AuditRepo.log now actor action detail)) :=
  grows_update fun _ => List.suffix_cons _ _

theorem grows_setRoutePaused (id : String) (paused : Bool) :
    Sql.Moves LogGrows (update (KvRepo.setRoutePaused id paused)) := by
  refine grows_update fun app => ?_
  show _ <:+ (KvRepo.setRoutePaused id paused app).auditLog
  rw [auditLog_setRoutePaused]

theorem grows_overApp {α : Type} {script : Script α} (grows : Sql.Moves LogGrows script) :
    Sql.Moves AdminLogGrows (overApp script) :=
  grows.focus fun _ _ grown => grown

theorem grows_overEvents {α : Type} (run : Events → α × Events) :
    Sql.Moves AdminLogGrows (overEvents run) :=
  Sql.Moves.statement fun _ => List.suffix_rfl

theorem grows_liftExcept {α : Type} (result : Except AppError α) :
    Sql.Moves LogGrows (liftExcept result) := by
  cases result with
  | error e => exact fun s => List.suffix_rfl
  | ok a => exact Sql.Moves.pure a

theorem grows_saveConfig (rt : ConfigRuntime) (yamlText appliedBy : String) (secrets : SecretResolver)
    (now : Int) : Sql.Moves LogGrows (saveConfig rt yamlText appliedBy secrets now) := by
  have upserts : ∀ routes, Sql.Moves LogGrows (RoutesRepo.upsertAll routes) := by
    refine fun routes => Sql.Moves.transaction ((Sql.Moves.forM fun route => ?_).bind fun _ => ?_)
    · exact grows_update fun _ => List.suffix_rfl
    · exact grows_update fun _ => List.suffix_rfl
  have applies : ∀ loaded, Sql.Moves LogGrows (applyVersion loaded appliedBy now) := by
    refine fun loaded => (upserts _).bind fun _ => (grows_query _).bind fun _ => ?_
    refine (Sql.Moves.forM fun _ => grows_setRoutePaused _ _).bind fun _ => Sql.Moves.bind ?_ fun _ => ?_
    · exact grows_update fun _ => List.suffix_rfl
    · exact grows_log _ _ _ _
  refine (grows_liftExcept _).bind fun loaded => (grows_liftExcept _).bind fun _ => ?_
  refine (Sql.Moves.transaction ((grows_query _).bind fun last => ?_)).bind fun _ => Sql.Moves.pure _
  split
  · exact Sql.Moves.pure _
  · exact applies loaded

theorem grows_logAudit (actor action : String) (detail : List (String × Json)) (now : Int) :
    Sql.Moves AdminLogGrows (logAudit actor action detail now) :=
  grows_overApp (grows_log _ _ _ _)

theorem grows_setGlobalKillswitch (state : Killswitch) :
    Sql.Moves AdminLogGrows (overApp (update (KvRepo.setGlobalKillswitch state))) :=
  grows_overApp (grows_update fun _ => List.suffix_rfl)

theorem grows_setKillswitch (state : Option Killswitch) (now : Int) :
    Sql.Moves AdminLogGrows (setKillswitch state now) := by
  cases state with
  | none => exact Sql.Moves.pure _
  | some state =>
    refine (grows_overApp (grows_query _)).bind fun _ => (grows_setGlobalKillswitch state).bind fun _ => ?_
    exact (grows_logAudit _ _ _ _).bind fun _ => Sql.Moves.pure _

theorem grows_pauseRoute (id : String) (paused : Option Bool) (now : Int) :
    Sql.Moves LogGrows (pauseRoute id paused now) := by
  refine (grows_query _).bind fun found => ?_
  cases found with
  | none => exact Sql.Moves.pure _
  | some _ =>
    cases paused with
    | none => exact Sql.Moves.pure _
    | some paused =>
      refine (grows_setRoutePaused _ _).bind fun _ => (grows_log _ _ _ _).bind fun _ => ?_
      exact Sql.Moves.pure _

theorem grows_viewRow (deps : AdminDeps) (row : EventRow) (now : Int) :
    Sql.Moves AdminLogGrows (viewRow deps row now) := by
  unfold viewRow
  split
  · exact Sql.Moves.pure _
  · split
    · exact Sql.Moves.pure _
    · split
      · exact Sql.Moves.pure _
      · exact (grows_logAudit _ _ _ _).bind fun _ => Sql.Moves.pure _

theorem grows_viewPayload (deps : AdminDeps) (id : IdParam) (now : Int) :
    Sql.Moves AdminLogGrows (viewPayload deps id now) := by
  unfold viewPayload
  split
  · exact Sql.Moves.pure _
  · refine (grows_overEvents _).bind fun found => ?_
    cases found with
    | none => exact Sql.Moves.pure _
    | some row => exact grows_viewRow deps row now

theorem grows_postReplay (id : IdParam) (now : Int) : Sql.Moves AdminLogGrows (postReplay id now) := by
  refine (grows_overEvents _).bind fun replayed => ?_
  split
  · exact (grows_logAudit _ _ _ _).bind fun _ => Sql.Moves.pure _
  · exact Sql.Moves.pure _

theorem grows_postReplayParked (now : Int) : Sql.Moves AdminLogGrows (postReplayParked now) := by
  refine (grows_overEvents _).bind fun count => ?_
  split
  · exact (grows_logAudit _ _ _ _).bind fun _ => Sql.Moves.pure _
  · exact Sql.Moves.pure _

theorem grows_holdForwarding (deps : AdminDeps) (now : Int) :
    Sql.Moves AdminLogGrows (holdForwarding deps now) := by
  unfold holdForwarding
  split
  · refine (grows_overApp (grows_query _)).bind fun held => ?_
    cases held with
    | none =>
      refine (grows_setGlobalKillswitch .pause).bind fun _ => (grows_logAudit _ _ _ _).bind fun _ => ?_
      exact Sql.Moves.pure _
    | pause => exact Sql.Moves.pure _
    | panic => exact Sql.Moves.pure _
  · exact Sql.Moves.pure _

theorem grows_postConfig (deps : AdminDeps) (yaml : Option String) (world : AdminWorld) :
    Sql.Moves AdminLogGrows (postConfig deps yaml world) := by
  unfold postConfig
  split
  · exact Sql.Moves.pure _
  · split
    · exact Sql.Moves.pure _
    · refine (grows_overApp (grows_saveConfig _ _ _ _ _)).attempt.bind fun outcome => ?_
      cases outcome with
      | error e => exact Sql.Moves.pure _
      | ok loaded =>
        show Sql.Moves AdminLogGrows (ite _ _ _)
        by_cases bootstrap : deps.bootstrap
        · rw [if_pos bootstrap]
          exact (grows_holdForwarding deps world.now).within.bind fun _ => Sql.Moves.pure _
        · rw [if_neg bootstrap]
          exact Sql.Moves.pure _

theorem grows_handle (deps : AdminDeps) (world : AdminWorld) (request : AdminRequest) :
    Sql.Moves AdminLogGrows (handle deps world request) := by
  cases request with
  | killswitch state => exact grows_setKillswitch state world.now
  | pause id paused => exact grows_overApp (grows_pauseRoute id paused world.now)
  | payload id => exact grows_viewPayload deps id world.now
  | replay id => exact grows_postReplay id world.now
  | replayParked => exact grows_postReplayParked world.now
  | config yaml => exact grows_postConfig deps yaml world

/-! ## Every run -/

/-- A request is audited exactly when no statement fails that writes the entry of
what it did, and it drops no paused route. -/
theorem record_audited_iff (s : AdminSystem) (world : AdminWorld) (request : AdminRequest) :
    (recordOf deps world request s.db).Audited ↔ Reaches deps s (.request world request) := by
  obtain ⟨db, history⟩ := s
  cases request with
  | killswitch state =>
    cases state with
    | none =>
      refine iff_of_true ((audited_iff_of_unlogged rfl rfl).mpr ?_) trivial
      exact killswitchEffects_self
    | some state => exact killswitch_audited_iff state
  | pause id paused =>
    cases paused with
    | none =>
      have kept : db.mapApp (fun app => ((pauseRoute id none world.now).on app world.left).2) = db :=
        congrArg (fun app => { db with app }) (pauseRoute_none_on id world.now world.left db.app)
      have ends : (handle deps world (.pause id none)).on db world.left = (_, db) :=
        congrArg (Prod.mk _) kept
      refine iff_of_true ((audited_iff_of_unlogged ends rfl).mpr ?_) trivial
      exact if_pos rfl
    | some paused => exact pause_audited_iff id paused
  | payload id => exact iff_of_true (payload_audited id) trivial
  | replay id => exact replay_audited_iff id
  | replayParked => exact replayParked_audited_iff
  | config yaml =>
    cases yaml with
    | none =>
      refine iff_of_true ((audited_iff_of_unlogged rfl rfl).mpr ?_) trivial
      show killswitchEffects db db ++ versionEffects db db ++ resumeEffects db db = []
      rw [killswitchEffects_self, resumeEffects_self]
      exact (List.append_nil _).trans (if_pos rfl)
    | some yaml => exact config_audited_iff yaml

/-- The log of a request's record is what it adds to the log. -/
theorem auditLog_serve (db : AdminDb) (world : AdminWorld) (request : AdminRequest) :
    (serve deps world request db).2.app.auditLog =
      (recordOf deps world request db).entries ++ db.app.auditLog := by
  obtain ⟨entries, grown⟩ : db.app.auditLog <:+ (serve deps world request db).2.app.auditLog :=
    grows_handle deps world request { db, left := world.left }
  have record : (recordOf deps world request db).entries =
      newEntries db.app.auditLog (serve deps world request db).2.app.auditLog := rfl
  rw [record, ← grown, newEntries_append]

theorem auditLog_run (db : AdminDb) (actions : List AdminAction) :
    ((adminMachine deps db).run actions).db.app.auditLog =
      ((adminMachine deps db).run actions).history.flatMap Record.entries ++ db.app.auditLog := by
  induction actions using List.reverseRecOn with
  | nil => rfl
  | append_singleton actions action ih =>
    rw [Machine.run_concat]
    generalize (adminMachine deps db).run actions = s at ih ⊢
    cases action with
    | request world request =>
      show (serve deps world request s.db).2.app.auditLog = _
      rw [auditLog_serve, ih, ← List.append_assoc]
      rfl
    | others events => exact ih

theorem audited_run_iff (db : AdminDb) (actions : List AdminAction) :
    (∀ record ∈ ((adminMachine deps db).run actions).history, record.Audited) ↔
      (adminMachine deps db).Guarded (Reaches deps) actions := by
  induction actions using List.reverseRecOn with
  | nil => exact iff_of_true (fun record member => absurd member List.not_mem_nil) trivial
  | append_singleton actions action ih =>
    rw [Machine.run_concat, Machine.guarded_concat, ← ih]
    generalize (adminMachine deps db).run actions = s
    cases action with
    | request world request =>
      rw [← record_audited_iff]
      show (∀ record ∈ recordOf deps world request s.db :: s.history, record.Audited) ↔ _
      rw [List.forall_mem_cons]
      exact and_comm
    | others events => exact (and_iff_left trivial).symm

/-- Effects told of one by one are told of together. -/
theorem told_flatMap {history : List Record} (audited : ∀ record ∈ history, record.Audited) :
    List.SublistForall₂ Effect.ToldBy (history.flatMap Record.effects)
      (history.flatMap Record.entries) := by
  induction history with
  | nil => exact .nil
  | cons record history ih =>
    rw [List.forall_mem_cons] at audited
    obtain ⟨entries, told, sublist⟩ := List.sublistForall₂_iff.mp audited.1
    obtain ⟨later, told', sublist'⟩ := List.sublistForall₂_iff.mp (ih audited.2)
    rw [List.flatMap_cons, List.flatMap_cons]
    exact List.sublistForall₂_iff.mpr ⟨entries ++ later, List.rel_append told told',
      sublist.append sublist'⟩

/-- Over every run the requests only add to the audit log; each of them is audited
exactly when no statement of it fails that writes the entry of what it did, and it
drops no paused route; and then every effect of the run has an entry of its own in
the log. -/
theorem operator_actions_audited_iff (deps : AdminDeps) (db : AdminDb) (actions : List AdminAction) :
    ((adminMachine deps db).run actions).db.app.auditLog =
        ((adminMachine deps db).run actions).history.flatMap Record.entries ++ db.app.auditLog ∧
      ((∀ record ∈ ((adminMachine deps db).run actions).history, record.Audited) ↔
        (adminMachine deps db).Guarded (Reaches deps) actions) ∧
      ((adminMachine deps db).Guarded (Reaches deps) actions →
        List.SublistForall₂ Effect.ToldBy
          (((adminMachine deps db).run actions).history.flatMap Record.effects)
          ((adminMachine deps db).run actions).db.app.auditLog) := by
  refine ⟨auditLog_run db actions, audited_run_iff db actions, fun guarded => ?_⟩
  obtain ⟨entries, told, sublist⟩ := List.sublistForall₂_iff.mp
    (told_flatMap ((audited_run_iff db actions).mpr guarded))
  rw [auditLog_run]
  exact List.sublistForall₂_iff.mpr ⟨entries, told, sublist.trans (List.sublist_append_left _ _)⟩

end

/-! ## A pause without an entry -/

/-- A relay that runs on its stored configuration. -/
def sampleAdminDeps : AdminDeps where
  gcm := sampleGcm
  dataKey := []
  runtime := .knowing []
  yaml := sampleConfigRuntime
  secrets := sampleSecrets
  bootstrap := false
  configError := false
  message := fun _ => "database or disk is full"

/-- The operator pauses the relay, and the entry cannot be written. -/
def unloggedPause : List AdminAction :=
  [.request { now := 0, left := some 2 } (.killswitch (some .pause))]

/-- The pause is in force, the log is empty. -/
theorem unlogged_pause_in_force :
    let s := (adminMachine sampleAdminDeps {}).run unloggedPause
    KvRepo.globalKillswitch s.db.app = .pause ∧ s.db.app.auditLog = [] ∧
      ¬∀ record ∈ s.history, record.Audited := by
  refine ⟨rfl, rfl, fun audited => ?_⟩
  have silent := audited _ List.mem_cons_self
  cases silent

end EndCloseRelay.App
