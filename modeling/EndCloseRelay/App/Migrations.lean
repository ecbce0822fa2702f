import EndCloseRelay.App.Database
import EndCloseRelay.Interaction.Journal
import EndCloseRelay.Interaction.Machine
import Mathlib.Logic.Function.Basic

/-!
# Migrations

`migrate` of the store and of the application: each migration is carried out in
a transaction that records its name, unless its name is recorded.  However
often the process is cut off while it migrates, what it comes to is that every
migration is carried out once; what was changed since stays.
-/

namespace EndCloseRelay.App

open Interaction

/-! ## The schema -/

/-- The database as far as migrations read and write it: of a table its columns,
of an index its name. -/
structure MigratedDb where
  /-- The names in `schema_migrations`, where there is such a table. -/
  schemaMigrations : Option (List String) := none
  tables : String → Option (List String) := fun _ => none
  indexes : List String := []
  /-- The rows of `routes` whose `paused` is 1, by their ids. -/
  pausedColumn : String → Bool := fun _ => false
  /-- The rows of the application's tables. -/
  app : Db := {}

namespace MigratedDb

/-- `new Set(SELECT name FROM schema_migrations)`. -/
def applied (db : MigratedDb) : List String := db.schemaMigrations.getD []

@[simp] theorem applied_mk (names : List String) (tables : String → Option (List String))
    (indexes : List String) (pausedColumn : String → Bool) (app : Db) :
    (MigratedDb.mk (some names) tables indexes pausedColumn app).applied = names := rfl

/-- `CREATE TABLE IF NOT EXISTS schema_migrations`. -/
def withSchemaMigrations (db : MigratedDb) : MigratedDb :=
  { db with schemaMigrations := some db.applied }

/-- `INSERT INTO schema_migrations`; the name is the primary key. -/
def insertMigration (name : String) (db : MigratedDb) : Option MigratedDb :=
  match db.schemaMigrations with
  | none => none
  | some names => if name ∈ names then none else some { db with schemaMigrations := some (names ++ [name]) }

/-- The rows after `INSERT INTO kv … SELECT … FROM routes WHERE paused = 1 ON
CONFLICT (key) DO NOTHING`. -/
def carried (db : MigratedDb) : Db :=
  { db.app with
    kv := (db.app.routes.keys.filter db.pausedColumn).foldl (fun kv id =>
      if KvRepo.routePausedPrefix ++ id ∈ kv then kv else kv.insert (KvRepo.routePausedPrefix ++ id) "1")
        db.app.kv }

end MigratedDb

/-- The columns of `kv`. -/
def kvColumns : List String := ["key", "value", "updated_at"]

/-- The columns of `routes` the pauses are read from. -/
def pauseColumns : List String := ["id", "paused", "updated_at"]

/-- A statement of a migration. -/
inductive SqlStatement
  | createTable (name : String) (columns : List String)
  | createTableIfNotExists (name : String) (columns : List String)
  | createIndex (name table : String) (columns : List String)
  | addColumn (table column : String)
  | carryPauses

/-- What a statement does, `none` where it throws. -/
def SqlStatement.run (db : MigratedDb) : SqlStatement → Option MigratedDb
  | createTable name columns =>
    if (db.tables name).isSome then none
    else some { db with tables := Function.update db.tables name (some columns) }
  | createTableIfNotExists name columns =>
    if (db.tables name).isSome then some db
    else some { db with tables := Function.update db.tables name (some columns) }
  | createIndex name table columns =>
    if name ∈ db.indexes ∨ ¬ (db.tables table).any fun found => columns.all (· ∈ found) then none
    else some { db with indexes := name :: db.indexes }
  | addColumn table column =>
    match db.tables table with
    | none => none
    | some columns =>
      if column ∈ columns then none
      else some { db with tables := Function.update db.tables table (some (columns ++ [column])) }
  | carryPauses =>
    if (db.tables "kv").any (fun found => kvColumns.all (· ∈ found)) ∧
        (db.tables "routes").any (fun found => pauseColumns.all (· ∈ found)) then
      some { db with app := db.carried }
    else none

/-- `Migration`. -/
structure Migration where
  name : String
  sql : List SqlStatement

/-- The columns of `events` in `001_init.sql`. -/
def eventColumns : List String :=
  ["id", "route_id", "source", "event_id", "event_type", "payload_enc", "payload_iv", "headers_json",
    "received_at", "status", "attempts", "next_attempt_at", "delivered_at", "bulk_request_id",
    "last_error", "idempotency_key"]

/-- The columns `002_leases.sql` adds. -/
def leaseColumns : List String := ["claimed_by", "lease_until"]

/-- The columns of `routes`. -/
def routeColumns : List String := ["id", "source", "paused", "config_json", "updated_at"]

/-- `001_init.sql` of the store. -/
def initMigration : Migration where
  name := "001_init.sql"
  sql := [
    .createTable "events" eventColumns,
    .createIndex "idx_events_dispatch" "events" ["status", "next_attempt_at", "route_id", "id"],
    .createIndex "idx_events_route_status" "events" ["route_id", "status"],
    .createTable "kv" kvColumns]

/-- `002_leases.sql` of the store. -/
def leasesMigration : Migration where
  name := "002_leases.sql"
  sql := [.addColumn "events" "claimed_by", .addColumn "events" "lease_until"]

/-- `001_application.sql` of the application. -/
def applicationMigration : Migration where
  name := "001_application.sql"
  sql := [
    .createTableIfNotExists "routes" routeColumns,
    .createTableIfNotExists "config_versions"
      ["id", "applied_at", "config_hash", "config_yaml", "applied_by"],
    .createTableIfNotExists "audit_log" ["id", "at", "actor", "action", "detail_json"]]

/-- `003_route_pause_to_kv.sql` of the application. -/
def routePauseMigration : Migration where
  name := "003_route_pause_to_kv.sql"
  sql := [.carryPauses]

/-- `MIGRATIONS` of the store. -/
def storeMigrations : List Migration := [initMigration, leasesMigration]

/-- `APPLICATION_MIGRATIONS`. -/
def applicationMigrations : List Migration := [applicationMigration, routePauseMigration]

/-! ## `migrate` -/

/-- A statement that throws where it cannot be carried out. -/
def tryStatement (run : MigratedDb → Option MigratedDb) : Sql MigratedDb AppError Unit := do
  let done ← Sql.statement .sqlite fun db => ((run db).isSome, (run db).getD db)
  if done then return ()
  else throw .sqlite

/-- The body of the transaction of a migration. -/
def Migration.body (m : Migration) : Sql MigratedDb AppError Unit := do
  m.sql.forM fun statement => tryStatement fun db => statement.run db
  tryStatement (MigratedDb.insertMigration m.name)

/-- `migrate(db, sets)` of the store. -/
def migrateStore (sets : List (List Migration)) : Sql MigratedDb AppError Unit := do
  Sql.statement .sqlite fun db => ((), db.withSchemaMigrations)
  let applied ← Sql.statement .sqlite fun db => (db.applied, db)
  sets.forM fun set => set.forM fun m =>
    if m.name ∈ applied then pure ()
    else Sql.transaction .sqlite m.body

/-- `migrate(db)` of the application. -/
def migrate : Sql MigratedDb AppError Unit := migrateStore [storeMigrations, applicationMigrations]

/-- The migrations of the application, in order. -/
def migrations : List Migration := storeMigrations ++ applicationMigrations

/-! ## What a migration comes to -/

/-- What a migration does, `none` where a statement throws. -/
def Migration.effect (m : Migration) (db : MigratedDb) : Option MigratedDb :=
  (m.sql.foldlM SqlStatement.run db).bind (MigratedDb.insertMigration m.name)

theorem tryStatement_steady (run : MigratedDb → Option MigratedDb) : (tryStatement run).Steady := by
  refine (Sql.Steady.statement _ _).bind fun done => ?_
  cases done with
  | true => exact Sql.Steady.pure _
  | false => exact Sql.Steady.throw _

theorem Migration.body_steady (m : Migration) : m.body.Steady :=
  (Sql.Steady.forM fun _ => tryStatement_steady _).bind fun _ => tryStatement_steady _

theorem run_tryStatement {run : MigratedDb → Option MigratedDb} {db db' : MigratedDb}
    (done : run db = some db') : (tryStatement run).run.run { db } = (.ok (), { db := db' }) := by
  unfold tryStatement
  rw [Sql.run_statement_bind, done]
  rfl

theorem run_tryStatement_none {run : MigratedDb → Option MigratedDb} {db : MigratedDb}
    (stuck : run db = none) : (tryStatement run).run.run { db } = (.error .sqlite, { db }) := by
  unfold tryStatement
  rw [Sql.run_statement_bind, stuck]
  rfl

/-- The statements of a migration, one after the other. -/
theorem run_statements (sql : List SqlStatement) (db : MigratedDb) :
    (∀ db', sql.foldlM SqlStatement.run db = some db' →
      (sql.forM fun statement => tryStatement fun db => statement.run db).run.run { db } =
        (.ok (), { db := db' })) ∧
    (sql.foldlM SqlStatement.run db = none → ∃ e s,
      (sql.forM fun statement => tryStatement fun db => statement.run db).run.run { db } =
        (.error e, s)) := by
  induction sql generalizing db with
  | nil =>
    refine ⟨fun db' same => ?_, fun none_ => by cases none_⟩
    obtain rfl := Option.some.inj same
    rfl
  | cons statement sql ih =>
    have unfolds : ((statement :: sql).forM fun statement => tryStatement fun db => statement.run db) =
        (tryStatement fun db => statement.run db) >>= fun _ =>
          sql.forM fun statement => tryStatement fun db => statement.run db := rfl
    rw [List.foldlM_cons, unfolds]
    cases first : statement.run db with
    | none =>
      refine ⟨fun db' same => (by cases same), fun _ => ⟨.sqlite, { db }, ?_⟩⟩
      rw [Sql.run_bind, run_tryStatement_none first]
    | some mid =>
      rw [Sql.run_bind, run_tryStatement first]
      exact ih mid

theorem Migration.run_body {m : Migration} {db db' : MigratedDb} (done : m.effect db = some db') :
    m.body.run.run { db } = (.ok (), { db := db' }) := by
  obtain ⟨mid, statements, recorded⟩ := Option.bind_eq_some_iff.mp done
  unfold Migration.body
  rw [Sql.run_bind, (run_statements m.sql db).1 mid statements]
  exact run_tryStatement recorded

theorem Migration.run_body_none {m : Migration} {db : MigratedDb} (stuck : m.effect db = none) :
    ∃ e s, m.body.run.run { db } = (.error e, s) := by
  unfold Migration.body
  unfold Migration.effect at stuck
  rw [Sql.run_bind]
  cases statements : m.sql.foldlM SqlStatement.run db with
  | none =>
    obtain ⟨e, s, throws⟩ := (run_statements m.sql db).2 statements
    rw [throws]
    exact ⟨e, s, rfl⟩
  | some mid =>
    rw [(run_statements m.sql db).1 mid statements]
    rw [statements] at stuck
    exact ⟨.sqlite, { db := mid }, run_tryStatement_none stuck⟩

/-- A statement of a migration leaves what is recorded alone. -/
theorem SqlStatement.applied_run {statement : SqlStatement} {db db' : MigratedDb}
    (done : statement.run db = some db') : db'.applied = db.applied := by
  cases statement with
  | createTable name columns =>
    simp only [SqlStatement.run] at done
    split at done
    · cases done
    · rw [← Option.some.inj done]
      rfl
  | createTableIfNotExists name columns =>
    simp only [SqlStatement.run] at done
    split at done
    · rw [← Option.some.inj done]
    · rw [← Option.some.inj done]
      rfl
  | createIndex name table columns =>
    simp only [SqlStatement.run] at done
    split at done
    · cases done
    · rw [← Option.some.inj done]
      rfl
  | addColumn table column =>
    simp only [SqlStatement.run] at done
    split at done
    · cases done
    · split at done
      · cases done
      · rw [← Option.some.inj done]
        rfl
  | carryPauses =>
    simp only [SqlStatement.run] at done
    split at done
    · rw [← Option.some.inj done]
      rfl
    · cases done

theorem applied_statements {sql : List SqlStatement} {db db' : MigratedDb}
    (done : sql.foldlM SqlStatement.run db = some db') : db'.applied = db.applied := by
  induction sql generalizing db with
  | nil =>
    obtain rfl := Option.some.inj done
    rfl
  | cons statement sql ih =>
    rw [List.foldlM_cons] at done
    obtain ⟨mid, first, rest⟩ := Option.bind_eq_some_iff.mp done
    rw [ih rest, SqlStatement.applied_run first]

theorem Migration.applied_effect {m : Migration} {db db' : MigratedDb} (done : m.effect db = some db') :
    db'.applied = db.applied ++ [m.name] := by
  obtain ⟨mid, statements, recorded⟩ := Option.bind_eq_some_iff.mp done
  rw [← applied_statements statements]
  unfold MigratedDb.insertMigration at recorded
  split at recorded
  · cases recorded
  · rename_i names there
    split at recorded
    · cases recorded
    · rw [← Option.some.inj recorded]
      unfold MigratedDb.applied
      rw [there]
      rfl

/-- The migrations as steps the database remembers. -/
def migrationJournal : Journal Migration String MigratedDb AppError where
  name := Migration.name
  recorded := MigratedDb.applied
  body := Migration.body
  effect := Migration.effect
  steady := Migration.body_steady
  returns := Migration.run_body
  throws := Migration.run_body_none
  records := Migration.applied_effect

theorem forM_sets {δ ε ι : Type} (sets : List (List ι)) (body : ι → Sql δ ε PUnit) :
    (sets.forM fun set => set.forM body) = sets.flatten.forM body := by
  induction sets with
  | nil => rfl
  | cons set sets ih =>
    rw [List.flatten_cons]
    show (set.forM body >>= fun _ => sets.forM fun set => set.forM body) = (set ++ sets.flatten).forM body
    rw [ih]
    exact (List.forM_append ..).symm

/-- `migrate` reads what is recorded and carries out the rest. -/
theorem on_migrateStore (sets : List (List Migration)) (db : MigratedDb) (left : Option Nat) :
    (migrateStore sets).on db left =
      if left = some 0 then (.error .sqlite, db)
      else if left = some 1 then (.error .sqlite, db.withSchemaMigrations)
      else (migrationJournal.carryOut .sqlite db.applied sets.flatten).on db.withSchemaMigrations
        (left.map (· - 2)) := by
  unfold migrateStore
  rw [Sql.on_statement_bind]
  split
  · rfl
  · rename_i onward
    rw [Sql.on_statement_bind, forM_sets]
    match left with
    | none => rfl
    | some 0 => exact absurd rfl onward
    | some 1 => rfl
    | some (n + 2) => rfl

/-! ## The migrations of the application -/

/-- A database on which some of the migrations were carried out.  `routes` and
the other tables of the application may be there without: the store's first
migration once made them too, `routes` with the columns pauses are kept in. -/
structure MigratedDb.Consistent (db : MigratedDb) : Prop where
  made : initMigration.name ∈ db.applied → db.tables "kv" = some kvColumns ∧
    "idx_events_dispatch" ∈ db.indexes ∧ "idx_events_route_status" ∈ db.indexes
  unleased : initMigration.name ∈ db.applied → leasesMigration.name ∉ db.applied →
    db.tables "events" = some eventColumns
  leased : leasesMigration.name ∈ db.applied → db.tables "events" = some (eventColumns ++ leaseColumns)
  unmade : initMigration.name ∉ db.applied →
    db.tables "events" = none ∧ db.tables "kv" = none ∧
    "idx_events_dispatch" ∉ db.indexes ∧ "idx_events_route_status" ∉ db.indexes ∧
    leasesMigration.name ∉ db.applied
  own : applicationMigration.name ∈ db.applied →
    (db.tables "routes").isSome ∧ (db.tables "config_versions").isSome ∧ (db.tables "audit_log").isSome
  pauses : ∀ columns, db.tables "routes" = some columns → pauseColumns.all (· ∈ columns)

/-- A database as it was before, and after a beginning of the migrations. -/
structure Progress (start : MigratedDb) (done : List Migration) (db : MigratedDb) : Prop where
  there : db.schemaMigrations = some db.applied
  consistent : db.Consistent
  applied : ∀ name, name ∈ db.applied ↔ name ∈ start.applied ∨ name ∈ done.map Migration.name
  paused : db.pausedColumn = start.pausedColumn
  app : db.app =
    if routePauseMigration.name ∈ db.applied ∧ routePauseMigration.name ∉ start.applied then start.carried
    else start.app

section

variable {start db : MigratedDb} {done : List Migration}

theorem Progress.initial (consistent : start.Consistent) : Progress start [] start.withSchemaMigrations where
  there := rfl
  consistent := {
    made := consistent.made
    unleased := consistent.unleased
    leased := consistent.leased
    unmade := consistent.unmade
    own := consistent.own
    pauses := consistent.pauses }
  applied name := by
    rw [List.map_nil, or_iff_left List.not_mem_nil]
    rfl
  paused := rfl
  app := (if_neg fun both => both.2 both.1).symm

/-- A migration whose name is recorded is passed over. -/
theorem Progress.skip (progress : Progress start done db) {m : Migration} (known : m.name ∈ db.applied) :
    Progress start (done ++ [m]) db where
  there := progress.there
  consistent := progress.consistent
  applied name := by
    rw [progress.applied, List.map_append, List.mem_append, List.map_singleton, List.mem_singleton]
    refine ⟨fun earlier => earlier.imp_right .inl, ?_⟩
    rintro (before | among | rfl)
    · exact .inl before
    · exact .inr among
    · exact (progress.applied _).mp known
  paused := progress.paused
  app := progress.app

/-- A migration whose statements can be carried out is recorded. -/
theorem Progress.record (progress : Progress start done db) {m : Migration} (fresh : m.name ∉ db.applied)
    {tables : String → Option (List String)} {indexes : List String} {app : Db}
    (statements : m.sql.foldlM SqlStatement.run db = some { db with tables, indexes, app })
    (consistent : MigratedDb.Consistent
      { db with tables, indexes, app, schemaMigrations := some (db.applied ++ [m.name]) })
    (carries : app = if routePauseMigration.name ∈ db.applied ++ [m.name] ∧
      routePauseMigration.name ∉ start.applied then start.carried else start.app) :
    ∃ db', m.effect db = some db' ∧ Progress start (done ++ [m]) db' := by
  refine ⟨{ db with tables, indexes, app, schemaMigrations := some (db.applied ++ [m.name]) }, ?_, ?_⟩
  · unfold Migration.effect MigratedDb.insertMigration
    rw [statements, Option.bind_some]
    simp only [progress.there]
    rw [if_neg fresh]
  · refine { there := rfl, consistent, applied := fun name => ?_, paused := progress.paused, app := carries }
    show name ∈ db.applied ++ [m.name] ↔ _
    rw [List.mem_append, progress.applied, List.map_append, List.mem_append, List.map_singleton, or_assoc]

/-- Names of migrations are recorded apart. -/
theorem mem_concat_of_ne {names : List String} {name added : String} (other : name ≠ added) :
    name ∈ names ++ [added] ↔ name ∈ names := by
  rw [List.mem_append, List.mem_singleton, or_iff_left other]

theorem mem_concat_self (names : List String) (added : String) : added ∈ names ++ [added] :=
  List.mem_append_right _ (List.mem_singleton.mpr rfl)

/-- Another migration than the last carries no pauses over. -/
theorem Progress.carries (progress : Progress start done db) {m : Migration}
    (other : routePauseMigration.name ≠ m.name) :
    db.app = if routePauseMigration.name ∈ db.applied ++ [m.name] ∧
      routePauseMigration.name ∉ start.applied then start.carried else start.app := by
  simp only [mem_concat_of_ne other]
  exact progress.app

theorem Progress.init (progress : Progress start done db) (fresh : initMigration.name ∉ db.applied) :
    ∃ db', initMigration.effect db = some db' ∧ Progress start (done ++ [initMigration]) db' := by
  obtain ⟨events, kv, dispatch, status, leases⟩ := progress.consistent.unmade fresh
  have statements : initMigration.sql.foldlM SqlStatement.run db = some { db with
      tables := Function.update (Function.update db.tables "events" (some eventColumns)) "kv" (some kvColumns)
      indexes := "idx_events_route_status" :: "idx_events_dispatch" :: db.indexes } := by
    simp [initMigration, SqlStatement.run, events, kv, dispatch, status, eventColumns]
  refine progress.record fresh statements ?_ (progress.carries (by decide))
  have unleased : leasesMigration.name ∉ db.applied ++ [initMigration.name] := by
    rw [mem_concat_of_ne (by decide)]
    exact leases
  exact {
    made := fun _ => (by simp)
    unleased := fun _ _ => (by simp)
    leased := fun there => absurd there unleased
    unmade := fun absent => absurd (mem_concat_self _ _) absent
    own := fun there => by
      simpa using progress.consistent.own ((mem_concat_of_ne (by decide)).mp there)
    pauses := fun columns => by
      simpa using progress.consistent.pauses columns }

theorem Progress.leases (progress : Progress start done db) (fresh : leasesMigration.name ∉ db.applied)
    (made : initMigration.name ∈ db.applied) :
    ∃ db', leasesMigration.effect db = some db' ∧ Progress start (done ++ [leasesMigration]) db' := by
  have events := progress.consistent.unleased made fresh
  have statements : leasesMigration.sql.foldlM SqlStatement.run db = some { db with
      tables := Function.update (Function.update db.tables "events" (some (eventColumns ++ ["claimed_by"])))
        "events" (some (eventColumns ++ ["claimed_by"] ++ ["lease_until"])) } := by
    simp [leasesMigration, SqlStatement.run, events, eventColumns]
  refine progress.record fresh statements ?_ (progress.carries (by decide))
  exact {
    made := fun _ => (by simpa using progress.consistent.made made)
    unleased := fun _ absent => absurd (mem_concat_self _ _) absent
    leased := fun _ => (by simp [leaseColumns])
    unmade := fun absent => absurd ((mem_concat_of_ne (by decide)).mpr made) absent
    own := fun there => by
      simpa using progress.consistent.own ((mem_concat_of_ne (by decide)).mp there)
    pauses := fun columns => by
      simpa using progress.consistent.pauses columns }

/-- A table that is made unless it is there. -/
def withTable (name : String) (columns : List String) (tables : String → Option (List String)) :
    String → Option (List String) :=
  if (tables name).isSome then tables else Function.update tables name (some columns)

theorem run_createTableIfNotExists (name : String) (columns : List String) (db : MigratedDb) :
    (SqlStatement.createTableIfNotExists name columns).run db =
      some { db with tables := withTable name columns db.tables } := by
  simp only [SqlStatement.run, withTable]
  split
  · rfl
  · rfl

theorem withTable_self (name : String) (columns : List String) (tables : String → Option (List String)) :
    (withTable name columns tables name).isSome := by
  unfold withTable
  split
  · assumption
  · simp

theorem withTable_of_ne {name other : String} (distinct : other ≠ name) (columns : List String)
    (tables : String → Option (List String)) : withTable name columns tables other = tables other := by
  unfold withTable
  split
  · rfl
  · exact Function.update_of_ne distinct _ _

theorem Progress.application (progress : Progress start done db)
    (fresh : applicationMigration.name ∉ db.applied) :
    ∃ db', applicationMigration.effect db = some db' ∧
      Progress start (done ++ [applicationMigration]) db' := by
  have statements : applicationMigration.sql.foldlM SqlStatement.run db = some { db with
      tables := withTable "audit_log" ["id", "at", "actor", "action", "detail_json"]
        (withTable "config_versions" ["id", "applied_at", "config_hash", "config_yaml", "applied_by"]
          (withTable "routes" routeColumns db.tables)) } := by
    simp only [applicationMigration, List.foldlM_cons, List.foldlM_nil, run_createTableIfNotExists]
    rfl
  refine progress.record fresh statements ?_ (progress.carries (by decide))
  have others : ∀ m : Migration, m.name ≠ applicationMigration.name →
      (m.name ∈ db.applied ++ [applicationMigration.name] ↔ m.name ∈ db.applied) :=
    fun m other => mem_concat_of_ne other
  have init := others initMigration (by decide)
  have leases := others leasesMigration (by decide)
  exact {
    made := fun there => by
      simpa [withTable_of_ne] using progress.consistent.made (init.mp there)
    unleased := fun there absent => by
      simpa [withTable_of_ne] using progress.consistent.unleased (init.mp there) fun l => absent (leases.mpr l)
    leased := fun there => by
      simpa [withTable_of_ne] using progress.consistent.leased (leases.mp there)
    unmade := fun absent => by
      have earlier := progress.consistent.unmade fun there => absent (init.mpr there)
      simp only [MigratedDb.applied_mk, leases]
      simpa [withTable_of_ne] using earlier
    own := fun _ => by
      simp [withTable_of_ne, withTable_self]
    pauses := fun columns found => by
      simp only [withTable_of_ne, ne_eq, String.reduceEq, not_false_eq_true] at found
      unfold withTable at found
      split at found
      · exact progress.consistent.pauses columns found
      · rw [Function.update_self] at found
        obtain rfl := Option.some.inj found
        decide }

theorem Progress.routePause (progress : Progress start done db)
    (fresh : routePauseMigration.name ∉ db.applied) (made : initMigration.name ∈ db.applied)
    (own : applicationMigration.name ∈ db.applied) :
    ∃ db', routePauseMigration.effect db = some db' ∧
      Progress start (done ++ [routePauseMigration]) db' := by
  have kv := (progress.consistent.made made).1
  obtain ⟨columns, routes⟩ := Option.isSome_iff_exists.mp (progress.consistent.own own).1
  have read := progress.consistent.pauses columns routes
  have before : routePauseMigration.name ∉ start.applied := fun there =>
    fresh ((progress.applied _).mpr (.inl there))
  have app : db.app = start.app := by
    rw [progress.app, if_neg fun both => fresh both.1]
  have carried : db.carried = start.carried := by
    unfold MigratedDb.carried
    rw [app, progress.paused]
  have statements : routePauseMigration.sql.foldlM SqlStatement.run db =
      some { db with app := start.carried } := by
    have written : kvColumns.all (· ∈ kvColumns) = true := by decide
    simp only [routePauseMigration, List.foldlM_cons, List.foldlM_nil, SqlStatement.run, kv, routes,
      Option.any_some, written, read, and_self, if_true, carried]
    rfl
  refine progress.record fresh statements ?_ (if_pos ⟨mem_concat_self _ _, before⟩).symm
  have others : ∀ m : Migration, m.name ≠ routePauseMigration.name →
      (m.name ∈ db.applied ++ [routePauseMigration.name] ↔ m.name ∈ db.applied) :=
    fun m other => mem_concat_of_ne other
  have init := others initMigration (by decide)
  have leases := others leasesMigration (by decide)
  have application := others applicationMigration (by decide)
  exact {
    made := fun there => progress.consistent.made (init.mp there)
    unleased := fun there absent => progress.consistent.unleased (init.mp there) fun l => absent (leases.mpr l)
    leased := fun there => progress.consistent.leased (leases.mp there)
    unmade := fun absent => by
      have earlier := progress.consistent.unmade fun there => absent (init.mpr there)
      simp only [MigratedDb.applied_mk, leases]
      exact earlier
    own := fun there => progress.consistent.own (application.mp there)
    pauses := progress.consistent.pauses }

/-- Where a step of the migrations stands in their list. -/
theorem migrations_prefix {m : Migration} (begun : done ++ [m] <+: migrations) :
    (done = [] ∧ m = initMigration) ∨ (done = [initMigration] ∧ m = leasesMigration) ∨
    (done = [initMigration, leasesMigration] ∧ m = applicationMigration) ∨
    (done = [initMigration, leasesMigration, applicationMigration] ∧ m = routePauseMigration) := by
  obtain ⟨rest, whole⟩ := begun
  have parts : done ++ m :: rest =
      [initMigration, leasesMigration, applicationMigration, routePauseMigration] := by
    rw [← List.append_cons] at whole
    exact whole
  match done, parts with
  | [], parts =>
    exact .inl ⟨rfl, (List.cons.inj parts).1⟩
  | [_], parts =>
    simp only [List.cons_append, List.nil_append, List.cons.injEq] at parts
    obtain ⟨rfl, rfl, -⟩ := parts
    exact .inr (.inl ⟨rfl, rfl⟩)
  | [_, _], parts =>
    simp only [List.cons_append, List.nil_append, List.cons.injEq] at parts
    obtain ⟨rfl, rfl, rfl, -⟩ := parts
    exact .inr (.inr (.inl ⟨rfl, rfl⟩))
  | [_, _, _], parts =>
    simp only [List.cons_append, List.nil_append, List.cons.injEq] at parts
    obtain ⟨rfl, rfl, rfl, rfl, -⟩ := parts
    exact .inr (.inr (.inr ⟨rfl, rfl⟩))
  | _ :: _ :: _ :: _ :: more, parts =>
    have lengths := congrArg List.length parts
    simp only [List.length_append, List.length_cons, List.length_nil] at lengths
    omega

/-- Every migration can be carried out after those before it. -/
theorem Progress.step {m : Migration} (begun : done ++ [m] <+: migrations)
    (progress : Progress start done db) :
    ∃ db', migrationJournal.advanceOne db m = some db' ∧ Progress start (done ++ [m]) db' := by
  by_cases known : m.name ∈ db.applied
  · exact ⟨db, if_pos known, progress.skip known⟩
  · have carried_out : migrationJournal.advanceOne db m = m.effect db := if_neg known
    rw [carried_out]
    have earlier : ∀ m' ∈ done, m'.name ∈ db.applied := fun m' member =>
      (progress.applied _).mpr (.inr (List.mem_map_of_mem member))
    rcases migrations_prefix begun with ⟨rfl, rfl⟩ | ⟨rfl, rfl⟩ | ⟨rfl, rfl⟩ | ⟨rfl, rfl⟩
    · exact progress.init known
    · exact progress.leases known (earlier initMigration (by simp))
    · exact progress.application known
    · exact progress.routePause known (earlier initMigration (by simp))
        (earlier applicationMigration (by simp))

end

/-- A beginning of the migrations can be carried out. -/
theorem progress_advance {start : MigratedDb} (consistent : start.Consistent) {done : List Migration}
    (begun : done <+: migrations) : ∃ db,
      migrationJournal.advance done start.withSchemaMigrations = some db ∧ Progress start done db :=
  Journal.advance_invariant (Progress start) (.initial consistent)
    (fun _ _ _ begun progress => progress.step begun) begun

/-! ## Boots and changes -/

/-- An installation: its database, whether the process came up, and the changes
that were made to the application's rows since, latest first. -/
structure Installation where
  db : MigratedDb
  up : Bool := false
  changes : List (Db → Db) := []

namespace Installation

/-- The process boots, with a statement that fails or that it is cut off at, if
any; it changes rows once it is up; it ends. -/
inductive Action
  | boot (left : Option Nat)
  | change (f : Db → Db)
  | stop

/-- One step. -/
def step (s : Installation) : Action → Installation
  | .boot left =>
    let (outcome, db) := migrate.on s.db left
    { s with db, up := outcome.isOk }
  | .change f =>
    if s.up then { s with db := { s.db with app := f s.db.app }, changes := f :: s.changes } else s
  | .stop => { s with up := false }

/-- An installation on a database. -/
def machine (start : MigratedDb) : Machine Installation Action where
  init := { db := start }
  step := step

/-- The rows after the changes. -/
def after (changes : List (Db → Db)) (app : Db) : Db := changes.foldr (fun f app => f app) app

/-- The migrations are carried out up to a point, and the rows are as these
left them but for the changes. -/
structure At (start : MigratedDb) (done : List Migration) (base : MigratedDb) (s : Installation) : Prop where
  begun : done <+: migrations
  advanced : migrationJournal.advance done start.withSchemaMigrations = some base
  progress : Progress start done base
  db : s.db.withSchemaMigrations = { base with app := after s.changes base.app }
  whole : s.up ∨ s.changes ≠ [] → done = migrations

theorem names_distinct : (migrations.map migrationJournal.name).Nodup := by decide

variable {start base : MigratedDb} {done : List Migration} {s : Installation}

theorem At.known (holds : At start done base s) {m : Migration} (member : m ∈ done) :
    m.name ∈ base.applied :=
  (Journal.mem_recorded_advance holds.advanced m.name).mpr (.inr (List.mem_map_of_mem member))

theorem At.applied (holds : At start done base s) : s.db.applied = base.applied := by
  have names : s.db.withSchemaMigrations.applied = base.applied := by rw [holds.db]; rfl
  exact names

theorem step_boot (s : Installation) (left : Option Nat) : s.step (.boot left) =
    { s with db := (migrate.on s.db left).2, up := (migrate.on s.db left).1.isOk } := rfl

/-- Where rows were changed since, a migration finds nothing to do. -/
theorem At.settled (holds : At start done base s) (changed : s.changes ≠ []) {again : List Migration}
    (begun : again <+: migrations) :
    migrationJournal.advance again s.db.withSchemaMigrations = some s.db.withSchemaMigrations := by
  refine Journal.advance_known fun m member => ?_
  have all := holds.whole (.inr changed)
  have there : m ∈ done := by
    rw [all]
    exact begun.subset member
  show m.name ∈ s.db.applied
  rw [holds.applied]
  exact holds.known there

theorem At.plain (holds : At start done base s) (unchanged : s.changes = []) :
    s.db.withSchemaMigrations = base := by
  rw [holds.db, unchanged]
  rfl

/-- Where no row was changed since, the database is what a beginning of the
migrations comes to. -/
theorem At.of_advance (consistent : start.Consistent) (begun : done <+: migrations)
    (advanced : migrationJournal.advance done start.withSchemaMigrations = some base) {up : Bool}
    (whole : up → done = migrations) : At start done base { db := base, up } := by
  obtain ⟨base', advanced', progress⟩ := progress_advance consistent begun
  obtain rfl : base' = base := Option.some.inj (advanced'.symm.trans advanced)
  refine { begun, advanced, progress, db := ?_, whole := ?_ }
  · show base'.withSchemaMigrations = base'
    unfold MigratedDb.withSchemaMigrations
    rw [← progress.there]
  · rintro (up | changed)
    · exact whole up
    · exact absurd rfl changed

/-- A boot that carries out more, or nothing where all is done. -/
theorem At.carryOut (consistent : start.Consistent) (holds : At start done base s)
    {outcome : Except AppError Unit} {db : MigratedDb} {again : List Migration}
    (begun : again <+: migrations)
    (advanced : migrationJournal.advance again s.db.withSchemaMigrations = some db)
    (all : outcome = .ok () → again = migrations) :
    ∃ done' base', At start done' base' { s with db, up := outcome.isOk } := by
  by_cases unchanged : s.changes = []
  · rw [holds.plain unchanged] at advanced
    obtain ⟨more, begun', -, longer, advanced'⟩ :=
      Journal.advance_resume holds.begun begun holds.advanced advanced
    refine ⟨more, db, ?_⟩
    rw [unchanged]
    refine .of_advance consistent begun' advanced' fun up => ?_
    have ok : outcome = .ok () := by
      cases outcome with
      | ok _ => rfl
      | error e => cases up
    rw [all ok] at longer
    exact begun'.eq_of_length_le longer.length_le
  · rw [holds.settled unchanged begun] at advanced
    obtain rfl := Option.some.inj advanced
    exact ⟨done, base, { holds with
      db := holds.db
      whole := fun _ => holds.whole (.inr unchanged) }⟩

/-- A boot, cut off anywhere. -/
theorem At.boot (consistent : start.Consistent) (holds : At start done base s) (left : Option Nat) :
    ∃ done' base', At start done' base' (s.step (.boot left)) := by
  have failed : ∀ db, db.withSchemaMigrations = s.db.withSchemaMigrations →
      At start done base { s with db, up := false } := fun db same =>
    { holds with
      db := same.trans holds.db
      whole := fun reason => holds.whole (reason.imp_left (by simp)) }
  rw [step_boot]
  unfold migrate
  rw [on_migrateStore]
  split
  · exact ⟨done, base, failed s.db rfl⟩
  · split
    · exact ⟨done, base, failed s.db.withSchemaMigrations rfl⟩
    · obtain ⟨again, begun, advanced, all⟩ := @Journal.run_carryOut _ _ _ _ _ migrationJournal migrations
        s.db.withSchemaMigrations .sqlite s.db.applied (left.map (· - 2)) names_distinct
        (fun _ _ => Iff.rfl)
      exact holds.carryOut consistent begun advanced all

theorem At.step (consistent : start.Consistent) (holds : At start done base s) (a : Action) :
    ∃ done' base', At start done' base' (s.step a) := by
  cases a with
  | boot left => exact holds.boot consistent left
  | stop =>
    exact ⟨done, base, { holds with
      db := holds.db
      whole := fun reason => holds.whole (reason.imp_left (by simp [Installation.step])) }⟩
  | change f =>
    simp only [Installation.step]
    split
    · rename_i up
      refine ⟨done, base, { holds with db := ?_, whole := fun _ => holds.whole (.inl up) }⟩
      show ({ s.db.withSchemaMigrations with app := f s.db.withSchemaMigrations.app } : MigratedDb) = _
      rw [holds.db]
      rfl
    · exact ⟨done, base, holds⟩

theorem at_run (consistent : start.Consistent) (actions : List Action) :
    ∃ done base, At start done base ((machine start).run actions) := by
  refine (machine start).invariant (fun s => ∃ done base, At start done base s) ?_ ?_ actions
  · have begun : ([] : List Migration) <+: migrations := List.nil_prefix
    obtain ⟨base, advanced, progress⟩ := progress_advance consistent begun
    obtain rfl := Option.some.inj advanced
    refine ⟨[], _, { begun, advanced, progress, db := rfl, whole := ?_ }⟩
    rintro (up | changed)
    · cases up
    · exact absurd rfl changed
  · rintro s a ⟨done, base, holds⟩
    exact holds.step consistent a

/-- A boot that nothing cuts off comes up. -/
theorem At.comes_up (consistent : start.Consistent) (holds : At start done base s) :
    (migrate.on s.db none).1 = .ok () := by
  obtain ⟨last, advanced, -⟩ := progress_advance consistent (List.prefix_refl migrations)
  obtain ⟨db, rest⟩ : ∃ db, migrationJournal.advance migrations s.db.withSchemaMigrations = some db := by
    by_cases unchanged : s.changes = []
    · rw [holds.plain unchanged]
      obtain ⟨more, whole⟩ := holds.begun
      rw [← whole, Journal.advance_append, holds.advanced] at advanced
      refine ⟨last, ?_⟩
      rw [← whole, Journal.advance_append, Journal.advance_known fun m member => holds.known member]
      exact advanced
    · exact ⟨_, holds.settled unchanged (List.prefix_refl _)⟩
  have ran := @Journal.run_carryOut_all _ _ _ _ _ migrationJournal migrations s.db.withSchemaMigrations db
    .sqlite s.db.applied names_distinct (fun _ _ => Iff.rfl) rest
  unfold migrate
  rw [on_migrateStore, if_neg (by simp), if_neg (by simp)]
  exact congrArg Prod.fst ran

end Installation

/-! ## The pauses -/

theorem lookup_carry (ids : List String) (kv : AList fun _ : String => String) (id : String) :
    (ids.foldl (fun kv id => if KvRepo.routePausedPrefix ++ id ∈ kv then kv
      else kv.insert (KvRepo.routePausedPrefix ++ id) "1") kv).lookup (KvRepo.routePausedPrefix ++ id) =
      if KvRepo.routePausedPrefix ++ id ∈ kv then kv.lookup (KvRepo.routePausedPrefix ++ id)
      else if id ∈ ids then some "1" else none := by
  induction ids generalizing kv with
  | nil =>
    simp only [List.foldl_nil, List.not_mem_nil, if_false]
    split
    · rfl
    · rename_i absent
      exact AList.lookup_eq_none.mpr absent
  | cons first ids ih =>
    rw [List.foldl_cons, ih]
    by_cases same : first = id
    · subst same
      by_cases there : KvRepo.routePausedPrefix ++ first ∈ kv
      · simp [there]
      · simp [there]
    · have other : KvRepo.routePausedPrefix ++ id ≠ KvRepo.routePausedPrefix ++ first := fun equal =>
        same ((String.append_right_inj _).mp equal).symm
      by_cases there : KvRepo.routePausedPrefix ++ first ∈ kv
      · simp [there, Ne.symm same]
      · simp [there, other, Ne.symm same]

/-- What is carried over: a route with no pause of its own in `kv` is paused if
its row says so. -/
theorem isRoutePaused_carried (db : MigratedDb) (id : String) :
    KvRepo.isRoutePaused db.carried id =
      if KvRepo.routePausedPrefix ++ id ∈ db.app.kv then KvRepo.isRoutePaused db.app id
      else decide (id ∈ db.app.routes) && db.pausedColumn id := by
  unfold KvRepo.isRoutePaused KvRepo.get MigratedDb.carried
  rw [lookup_carry]
  split
  · rfl
  · simp only [List.mem_filter]
    by_cases row : id ∈ db.app.routes
    · have key : id ∈ db.app.routes.keys := AList.mem_keys.mp row
      cases db.pausedColumn id with
      | true => simp [row, key]
      | false => simp
    · have key : id ∉ db.app.routes.keys := fun there => row (AList.mem_keys.mpr there)
      simp [row, key]

/-! ## Every run -/

/-- However often the process is cut off while it migrates a database of any
version, each migration is carried out once and in order; it comes up only with
all of them, and always when nothing fails.  The pauses of routes are carried
over once: what the application changed since is all that has changed. -/
theorem migrations_once {start : MigratedDb} (consistent : start.Consistent)
    (actions : List Installation.Action) :
    let s := (Installation.machine start).run actions
    s.db.Consistent ∧
    (∃ done, done <+: migrations ∧
      s.db.applied = start.applied ++ (done.map Migration.name).filter (fun name => name ∉ start.applied) ∧
      (s.up → done = migrations)) ∧
    s.db.app = Installation.after s.changes
      (if routePauseMigration.name ∈ s.db.applied ∧ routePauseMigration.name ∉ start.applied then
        start.carried else start.app) ∧
    (∀ id, KvRepo.isRoutePaused start.carried id =
      if KvRepo.routePausedPrefix ++ id ∈ start.app.kv then KvRepo.isRoutePaused start.app id
      else decide (id ∈ start.app.routes) && start.pausedColumn id) ∧
    (migrate.on s.db none).1 = .ok () := by
  intro s
  obtain ⟨done, base, holds⟩ := Installation.at_run consistent actions
  have names : s.db.applied = base.applied := holds.applied
  have tables : s.db.tables = base.tables :=
    show s.db.withSchemaMigrations.tables = base.tables by rw [holds.db]
  have indexes : s.db.indexes = base.indexes :=
    show s.db.withSchemaMigrations.indexes = base.indexes by rw [holds.db]
  refine ⟨?_, ⟨done, holds.begun, ?_, fun up => holds.whole (.inl up)⟩, ?_,
    isRoutePaused_carried start, holds.comes_up consistent⟩
  · have settled := holds.progress.consistent
    constructor
    · rw [names, tables, indexes]
      exact settled.made
    · rw [names, tables]
      exact settled.unleased
    · rw [names, tables]
      exact settled.leased
    · rw [names, tables, indexes]
      exact settled.unmade
    · rw [names, tables]
      exact settled.own
    · rw [tables]
      exact settled.pauses
  · have distinct : (done.map migrationJournal.name).Nodup :=
      (holds.begun.sublist.map _).nodup Installation.names_distinct
    have listed := Journal.recorded_advance distinct holds.advanced
    rw [names]
    exact listed
  · rw [names, ← holds.progress.app]
    exact show s.db.withSchemaMigrations.app = _ by rw [holds.db]

/-- A database of the store's first version, which made the tables of the
application too, with a paused route. -/
def firstVersion : MigratedDb where
  schemaMigrations := some ["001_init.sql"]
  tables name :=
    if name = "events" then some eventColumns
    else if name = "kv" then some kvColumns
    else if name = "routes" then some routeColumns
    else none
  indexes := ["idx_events_dispatch", "idx_events_route_status"]
  pausedColumn id := id == "r1"
  app := { routes := (∅ : AList _).insert "r1" { source := "payabli", configJson := "" } }

theorem migrations_once_sample :
    ((Installation.machine firstVersion).run [.boot (some 5), .boot none]).db.Consistent ∧
    (migrate.on ((Installation.machine firstVersion).run [.boot (some 5), .boot none]).db none).1 =
      .ok () := by
  have consistent : firstVersion.Consistent := {
    made := fun _ => (by decide)
    unleased := fun _ _ => (by decide)
    leased := fun there => absurd there (by decide)
    unmade := fun absent => absurd (by decide) absent
    own := fun there => absurd there (by decide)
    pauses := fun columns found => by
      obtain rfl := Option.some.inj found
      decide }
  have once := migrations_once consistent [.boot (some 5), .boot none]
  exact ⟨once.1, once.2.2.2.2⟩

end EndCloseRelay.App
