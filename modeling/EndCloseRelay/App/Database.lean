import EndCloseRelay.Config.Routes
import EndCloseRelay.Config.Stored
import EndCloseRelay.Interaction.Transaction
import Mathlib.Data.List.AList

/-!
# The application's database

The tables `routes`, `kv`, `config_versions` and `audit_log`, and the statements
that `RoutesRepo`, `KvRepo` and `AuditRepo` make on them.  A table with a text
primary key is an association list whose keys are distinct; rows that are only
ever appended are kept latest first.  Columns that nothing reads are left out.
-/

namespace EndCloseRelay.App

open Interaction

/-! ## Tables -/

/-- `RouteRow`. -/
structure RouteRow where
  source : String
  configJson : String
deriving DecidableEq

/-- A row of `config_versions`. -/
structure ConfigVersion where
  id : Nat
  appliedAt : Int
  configHash : String
  configYaml : String
  appliedBy : String
deriving DecidableEq

/-- A row of `audit_log`. -/
structure AuditEntry where
  at_ : Int
  actor : String
  action : String
  detailJson : String
deriving DecidableEq

/-- The database of the application. -/
structure Db where
  routes : AList fun _ : String => RouteRow := ∅
  kv : AList fun _ : String => String := ∅
  configVersions : List ConfigVersion := []
  auditLog : List AuditEntry := []

/-- What a function over the database throws: a `SqliteError`, or an error of its own. -/
inductive AppError
  | sqlite
  | yaml (message : String)
  | routes (error : RoutesError)
  | secretUnavailable (ref : String)
deriving DecidableEq

/-- `isStoreError(err)`. -/
def AppError.isStoreError : AppError → Bool
  | sqlite => true
  | _ => false

/-- A function over the database. -/
abbrev Script := Sql Db AppError

/-- A statement that reads. -/
def query {α : Type} (read : Db → α) : Script α := Sql.statement .sqlite fun db => (read db, db)

/-- A statement that writes. -/
def update (write : Db → Db) : Script Unit := Sql.statement .sqlite fun db => ((), write db)

/-- A computation that touches no database. -/
def liftExcept {α : Type} : Except AppError α → Script α
  | .ok a => pure a
  | .error e => throw e

/-- `db.transaction(body)()`. -/
def transaction {α : Type} (body : Script α) : Script α := Sql.transaction .sqlite body

/-! ## `LIKE` -/

/-- `text LIKE pattern`: `%` is any run, `_` any character, ASCII letters without case. -/
def like : List Char → List Char → Bool
  | [], text => text.isEmpty
  | '%' :: pattern, text => text.tails.any (like pattern)
  | p :: pattern, c :: text =>
    (p == '_' || Js.upperAscii p == Js.upperAscii c) && like pattern text
  | _ :: _, [] => false

/-! ## `KvRepo` -/

namespace KvRepo

/-- `ROUTE_PAUSED_PREFIX`. -/
def routePausedPrefix : String := "route_paused."

/-- `get(key)`. -/
def get (db : Db) (key : String) : Option String := db.kv.lookup key

/-- `set(key, value)`. -/
def set (key value : String) (db : Db) : Db := { db with kv := db.kv.insert key value }

/-- `delete(key)`. -/
def delete (key : String) (db : Db) : Db := { db with kv := db.kv.erase key }

/-- `isRoutePaused(routeId)`. -/
def isRoutePaused (db : Db) (routeId : String) : Bool :=
  get db (routePausedPrefix ++ routeId) == some "1"

/-- `setRoutePaused(routeId, paused)`. -/
def setRoutePaused (routeId : String) (paused : Bool) : Db → Db :=
  if paused then set (routePausedPrefix ++ routeId) "1" else delete (routePausedPrefix ++ routeId)

/-- `pausedRoutes()`. -/
def pausedRoutes (db : Db) : List String :=
  (db.kv.entries.filter fun row =>
    like (routePausedPrefix ++ "%").toList row.1.toList && row.2 == "1").map fun row =>
      String.ofList (row.1.toList.drop routePausedPrefix.length)

end KvRepo

/-! ## `RoutesRepo` -/

namespace RoutesRepo

/-- The `upsert` statement. -/
def upsert (route : RouteConfig) (db : Db) : Db :=
  { db with routes := db.routes.insert route.id { source := route.source, configJson := route.text } }

/-- The `removeMissing` statement. -/
def removeMissing (ids : List String) (db : Db) : Db :=
  { db with routes := (db.routes.keys.filter (· ∉ ids)).foldl (fun table id => table.erase id) db.routes }

/-- `upsertAll(routes)`. -/
def upsertAll (routes : List RouteConfig) : Script Unit := transaction do
  routes.forM fun route => update (upsert route)
  update (removeMissing (routes.map RouteConfig.id))

/-- `get(id)`. -/
def get (db : Db) (id : String) : Option Json :=
  (db.routes.lookup id).bind fun row => Json.read row.configJson

/-- `all()`. -/
def all (db : Db) : List Json := db.routes.entries.filterMap fun row => Json.read row.2.configJson

end RoutesRepo

/-! ## `AuditRepo` -/

/-- `log(actor, action, detail)`. -/
def AuditRepo.log (now : Int) (actor action : String) (detail : List (String × Json)) (db : Db) : Db :=
  { db with
    auditLog :=
      { at_ := now, actor, action, detailJson := (Json.stringify (.obj detail)).getD "" } ::
        db.auditLog }

/-! ## Tables with a key -/

section

variable {α β ι : Type} [DecidableEq α] {table : AList fun _ : α => β} {a : α}

theorem lookup_foldl_erase (keys : List α) :
    (keys.foldl (fun table key => table.erase key) table).lookup a =
      if a ∈ keys then none else table.lookup a := by
  induction keys generalizing table with
  | nil => rfl
  | cons key keys ih =>
    rw [List.foldl_cons, ih]
    by_cases same : a = key
    · subst same
      simp
    · simp [same]

theorem lookup_foldl_insert {items : List ι} {key : ι → α} (value : ι → β)
    (distinct : (items.map key).Nodup) :
    (∀ item ∈ items, (items.foldl (fun table item => table.insert (key item) (value item)) table).lookup
        (key item) = some (value item)) ∧
      (a ∉ items.map key →
        (items.foldl (fun table item => table.insert (key item) (value item)) table).lookup a =
          table.lookup a) := by
  induction items generalizing table a with
  | nil => exact ⟨fun item member => absurd member List.not_mem_nil, fun _ => rfl⟩
  | cons first items ih =>
    obtain ⟨fresh, others⟩ := List.nodup_cons.mp distinct
    refine ⟨fun item member => ?_, fun other => ?_⟩
    · rcases List.mem_cons.mp member with rfl | behind
      · rw [List.foldl_cons, (ih others).2 fresh, AList.lookup_insert]
      · exact (ih (a := a) others).1 item behind
    · rw [List.map_cons, List.mem_cons, not_or] at other
      rw [List.foldl_cons, (ih others).2 other.2, AList.lookup_insert_ne other.1]

end

end EndCloseRelay.App
