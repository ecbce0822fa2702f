import Mathlib.Control.Monad.Basic

/-!
# Statements and transactions

A script of statements over a database, one of which may fail.  Outside a
transaction what came before the failure stays; a transaction takes it back.
`Steady` says of a script that a failure is all that can come between it and
what it does when no statement fails, so that its effect is to be worked out
for that case only.
-/

namespace Interaction

/-- A database, and after how many more statements one fails, if any does. -/
structure Session (δ : Type) where
  db : δ
  left : Option Nat := none

/-- A script of statements: it may throw, and leaves a session. -/
abbrev Sql (δ ε : Type) := ExceptT ε (StateM (Session δ))

namespace Sql

variable {δ ε α β : Type}

/-- One statement; `failure` is thrown where it is the one that fails. -/
def statement (failure : ε) (run : δ → α × δ) : Sql δ ε α := ExceptT.mk fun s =>
  match s.left with
  | some 0 => (.error failure, { s with left := none })
  | left => (.ok (run s.db).1, { db := (run s.db).2, left := left.map (· - 1) })

/-- A script that an exception undoes. -/
def undoing (body : Sql δ ε α) : Sql δ ε α := ExceptT.mk fun s =>
  match body.run.run s with
  | (.ok a, s') => (.ok a, s')
  | (.error e, s') => (.error e, { s' with db := s.db })

/-- A transaction: to begin and to commit are statements too. -/
def transaction (failure : ε) (body : Sql δ ε α) : Sql δ ε α := undoing do
  statement failure fun db => ((), db)
  let a ← body
  statement failure fun db => ((), db)
  return a

/-- The outcome of a script, an exception caught. -/
def attempt (script : Sql δ ε α) : Sql δ ε (Except ε α) := ExceptT.mk fun s =>
  ((script.run.run s).1 |> .ok, (script.run.run s).2)

/-- A script with its own count of statements to a failure. -/
def within (left : Option Nat) (script : Sql δ ε α) : Sql δ ε α := ExceptT.mk fun s =>
  ((script.run.run { s with left }).1, { (script.run.run { s with left }).2 with left := s.left })

/-- A script over a part of the database. -/
def focus {π : Type} (get : δ → π) (put : π → δ → δ) (script : Sql π ε α) : Sql δ ε α :=
  ExceptT.mk fun s =>
    let (outcome, s') := script.run.run { db := get s.db, left := s.left }
    (outcome, { db := put s'.db s.db, left := s'.left })

/-- Run a script on a database: its outcome, and the database it leaves. -/
def on (script : Sql δ ε α) (db : δ) (left : Option Nat) : Except ε α × δ :=
  let (outcome, s) := script.run.run { db, left }
  (outcome, s.db)

/-- The script does what it does without a failure, or throws. -/
def Steady (script : Sql δ ε α) : Prop := ∀ db left,
  (∃ e s, script.run.run { db, left } = (.error e, s)) ∨
    ∃ a db', script.run.run { db } = (.ok a, { db := db' }) ∧
      ∃ left', script.run.run { db, left } = (.ok a, { db := db', left := left' })

theorem Steady.pure (a : α) : Steady (Pure.pure a : Sql δ ε α) := fun db left =>
  .inr ⟨a, db, rfl, left, rfl⟩

theorem Steady.throw (e : ε) : Steady (MonadExcept.throw e : Sql δ ε α) := fun db left =>
  .inl ⟨e, { db, left }, rfl⟩

theorem Steady.statement (failure : ε) (run : δ → α × δ) : Steady (statement failure run) := by
  intro db left
  match left with
  | some 0 => exact .inl ⟨failure, { db }, rfl⟩
  | some (n + 1) => exact .inr ⟨(run db).1, (run db).2, rfl, some n, rfl⟩
  | none => exact .inr ⟨(run db).1, (run db).2, rfl, none, rfl⟩

theorem run_bind (script : Sql δ ε α) (next : α → Sql δ ε β) (s : Session δ) :
    (script >>= next).run.run s = match script.run.run s with
      | (.ok a, s') => (next a).run.run s'
      | (.error e, s') => (.error e, s') := by
  show (ExceptT.bindCont next (script.run.run s).1).run (script.run.run s).2 = _
  rcases script.run.run s with ⟨outcome, s'⟩
  cases outcome <;> rfl

theorem Steady.bind {script : Sql δ ε α} {next : α → Sql δ ε β} (first : Steady script)
    (onward : ∀ a, Steady (next a)) : Steady (script >>= next) := by
  intro db left
  rcases first db left with ⟨e, s, fails⟩ | ⟨a, db', clean, left', runs⟩
  · refine .inl ⟨e, s, ?_⟩
    rw [run_bind, fails]
  · rcases onward a db' left' with ⟨e, s, fails⟩ | ⟨b, db'', clean', left'', runs'⟩
    · refine .inl ⟨e, s, ?_⟩
      rw [run_bind, runs]
      exact fails
    · refine .inr ⟨b, db'', ?_, left'', ?_⟩
      · rw [run_bind, clean]
        exact clean'
      · rw [run_bind, runs]
        exact runs'

theorem Steady.forM {items : List α} {body : α → Sql δ ε PUnit} (each : ∀ a, Steady (body a)) :
    Steady (items.forM body) := by
  induction items with
  | nil => exact Steady.pure _
  | cons a items ih => exact (each a).bind fun _ => ih

theorem run_undoing (body : Sql δ ε α) (s : Session δ) :
    (undoing body).run.run s = match body.run.run s with
      | (.ok a, s') => (.ok a, s')
      | (.error e, s') => (.error e, { s' with db := s.db }) := rfl

theorem Steady.undoing {body : Sql δ ε α} (steady : Steady body) : Steady (undoing body) := by
  intro db left
  rcases steady db left with ⟨e, s, fails⟩ | ⟨a, db', clean, left', runs⟩
  · exact .inl ⟨e, { s with db }, by rw [run_undoing, fails]⟩
  · exact .inr ⟨a, db', by rw [run_undoing, clean], left', by rw [run_undoing, runs]⟩

theorem Steady.transaction {failure : ε} {body : Sql δ ε α} (steady : Steady body) :
    Steady (transaction failure body) :=
  ((Steady.statement failure _).bind fun _ => steady.bind fun a =>
    (Steady.statement failure _).bind fun _ => Steady.pure a).undoing

/-- A caught script that counts its own statements does what it does on the database. -/
theorem run_attempt_within (left : Option Nat) (script : Sql δ ε α) (db : δ) :
    (attempt (within left script)).run.run { db } =
      (.ok (script.on db left).1, { db := (script.on db left).2 }) := rfl

/-- A script after a statement that may fail. -/
theorem on_statement_bind (failure : ε) (run : δ → α × δ) (next : α → Sql δ ε β) (db : δ)
    (left : Option Nat) : (statement failure run >>= next).on db left =
      if left = some 0 then (.error failure, db)
      else (next (run db).1).on (run db).2 (left.map (· - 1)) := by
  match left with
  | some 0 => rfl
  | some (n + 1) => rfl
  | none => rfl

/-- A script after one whose exception is caught. -/
theorem on_attempt_bind (script : Sql δ ε α) (next : Except ε α → Sql δ ε β) (db : δ)
    (left : Option Nat) : (attempt script >>= next).on db left =
      (next (script.run.run { db, left }).1).on (script.run.run { db, left }).2.db
        (script.run.run { db, left }).2.left := by
  unfold on
  rw [run_bind]
  rfl

/-- The outcome of a script that counts its own statements, mapped. -/
theorem on_within_bind_pure (left left' : Option Nat) (script : Sql δ ε α) (f : α → β) (db : δ) :
    (within left script >>= fun a => pure (f a)).on db left' =
      ((script.on db left).1.map f, (script.on db left).2) := by
  have ran : (within left script).run.run { db, left := left' } =
      ((script.run.run { db, left }).1, { (script.run.run { db, left }).2 with left := left' }) := rfl
  unfold on
  rw [run_bind, ran]
  rcases script.run.run { db, left } with ⟨outcome, s⟩
  cases outcome <;> rfl

/-! ## What a script does to the database, failing or not -/

/-- Whatever comes of the script, it takes the database to a related one. -/
def Moves (r : δ → δ → Prop) (script : Sql δ ε α) : Prop := ∀ s, r s.db (script.run.run s).2.db

section

variable {r : δ → δ → Prop}

theorem Moves.pure [Std.Refl r] (a : α) : Moves r (Pure.pure a : Sql δ ε α) := fun s =>
  Std.Refl.refl s.db

theorem Moves.statement [Std.Refl r] {failure : ε} {run : δ → α × δ} (moves : ∀ db, r db (run db).2) :
    Moves r (statement failure run) := by
  rintro ⟨db, left⟩
  match left with
  | some 0 => exact Std.Refl.refl db
  | some (n + 1) => exact moves db
  | none => exact moves db

theorem Moves.bind [IsTrans δ r] {script : Sql δ ε α} {next : α → Sql δ ε β}
    (first : Moves r script) (onward : ∀ a, Moves r (next a)) : Moves r (script >>= next) := by
  intro s
  have moved := first s
  rw [run_bind]
  rcases ran : script.run.run s with ⟨outcome, s'⟩
  rw [ran] at moved
  cases outcome with
  | error e => exact moved
  | ok a => exact IsTrans.trans _ _ _ moved (onward a s')

theorem Moves.forM [Std.Refl r] [IsTrans δ r] {items : List α} {body : α → Sql δ ε PUnit}
    (each : ∀ a, Moves r (body a)) : Moves r (items.forM body) := by
  induction items with
  | nil => exact Moves.pure _
  | cons a items ih => exact (each a).bind fun _ => ih

theorem Moves.undoing [Std.Refl r] {body : Sql δ ε α} (moves : Moves r body) :
    Moves r (undoing body) := by
  intro s
  have moved := moves s
  rw [run_undoing]
  rcases ran : body.run.run s with ⟨outcome, s'⟩
  rw [ran] at moved
  cases outcome with
  | error e => exact Std.Refl.refl s.db
  | ok a => exact moved

theorem Moves.transaction [Std.Refl r] [IsTrans δ r] {failure : ε} {body : Sql δ ε α}
    (moves : Moves r body) : Moves r (transaction failure body) :=
  ((Moves.statement fun db => Std.Refl.refl db).bind fun _ => moves.bind fun a =>
    (Moves.statement fun db => Std.Refl.refl db).bind fun _ => Moves.pure a).undoing

theorem Moves.attempt {script : Sql δ ε α} (moves : Moves r script) : Moves r (attempt script) := moves

theorem Moves.within {left : Option Nat} {script : Sql δ ε α} (moves : Moves r script) :
    Moves r (within left script) := fun s => moves { s with left }

/-- A script over a part moves the whole as it moves the part. -/
theorem Moves.focus {π : Type} {get : δ → π} {put : π → δ → δ} {part : π → π → Prop}
    {script : Sql π ε α} (moves : Moves part script)
    (whole : ∀ db part', part (get db) part' → r db (put part' db)) :
    Moves r (focus get put script) := fun s => whole s.db _ (moves { db := get s.db, left := s.left })

end

/-- What holds of the one holds of the other. -/
def Carries (P : δ → Prop) (db db' : δ) : Prop := P db → P db'

instance (P : δ → Prop) : Std.Refl (Carries P) := ⟨fun _ => id⟩

instance (P : δ → Prop) : IsTrans δ (Carries P) := ⟨fun _ _ _ first onward => onward ∘ first⟩

theorem Moves.on {r : δ → δ → Prop} {script : Sql δ ε α} (moves : Moves r script) (db : δ)
    (left : Option Nat) : r db (script.on db left).2 := moves { db, left }

/-! ## Without a failure -/

@[simp] theorem run_statement (failure : ε) (run : δ → α × δ) (db : δ) :
    (statement failure run).run.run { db } = (.ok (run db).1, { db := (run db).2 }) := rfl

/-- A script after a statement that does not fail. -/
theorem run_statement_bind (failure : ε) (run : δ → α × δ) (next : α → Sql δ ε β) (db : δ) :
    (statement failure run >>= next).run.run { db } = (next (run db).1).run.run { db := (run db).2 } :=
  run_bind _ _ _

theorem run_bind_ok {script : Sql δ ε α} {next : α → Sql δ ε β} {s s' : Session δ} {a : α}
    (first : script.run.run s = (.ok a, s')) :
    (script >>= next).run.run s = (next a).run.run s' := by
  rw [run_bind, first]

theorem run_transaction {failure : ε} {body : Sql δ ε α} {db db' : δ} {a : α}
    (runs : body.run.run { db } = (.ok a, { db := db' })) :
    (transaction failure body).run.run { db } = (.ok a, { db := db' }) := by
  unfold transaction
  rw [run_undoing, run_statement_bind, run_bind_ok runs, run_statement_bind]
  rfl

/-- A transaction that throws leaves the database as it was; one that returns does
what its body does without a failure. -/
theorem run_transaction_cases {failure : ε} {body : Sql δ ε α} (steady : Steady body)
    {db db' : δ} {a : α} (runs : body.run.run { db } = (.ok a, { db := db' })) (left : Option Nat) :
    (∃ e s, (transaction failure body).run.run { db, left } = (.error e, s) ∧ s.db = db) ∨
      ∃ left', (transaction failure body).run.run { db, left } =
        (.ok a, { db := db', left := left' }) := by
  rcases @Steady.transaction _ _ _ failure _ steady db left with
    ⟨e, s, fails⟩ | ⟨a', db'', clean, left', runs'⟩
  · refine .inl ⟨e, s, fails, ?_⟩
    unfold transaction at fails
    rw [run_undoing] at fails
    split at fails
    · cases fails
    · rw [← (Prod.mk.inj fails).2]
  · rw [run_transaction runs] at clean
    obtain ⟨same, sessions⟩ := Prod.mk.inj clean
    obtain rfl := Except.ok.inj same
    obtain rfl := congrArg Session.db sessions
    exact .inr ⟨left', runs'⟩

/-- A loop of statements folds their effects. -/
theorem run_forM {items : List α} {body : α → Sql δ ε PUnit} {effect : α → δ → δ}
    (each : ∀ a db, (body a).run.run { db } = (.ok ⟨⟩, { db := effect a db })) (db : δ) :
    (items.forM body).run.run { db } =
      (.ok ⟨⟩, { db := items.foldl (fun db a => effect a db) db }) := by
  induction items generalizing db with
  | nil => rfl
  | cons a items ih =>
    show (body a >>= fun _ => items.forM body).run.run { db } = _
    rw [run_bind, each a db]
    exact ih (effect a db)

end Sql

end Interaction
