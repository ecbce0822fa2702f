import Mathlib.Control.Monad.Basic

/-!
# Programs that call

A `Program` returns a value or makes a call and goes on with the answer, which
the world outside chooses.  A `Discipline` says, by the exchanges a program has
had so far, which calls it may make and which answers may come back; `Sat` is
the weakest precondition of a program under it.  `Method` adds what the body of
an imperative method needs, a mutable state that survives an exception.
-/

namespace Interaction

/-- A program over the calls `Op`, answered in `Ans`. -/
inductive Program (Op : Type) (Ans : Op → Type) (α : Type)
  | pure (a : α)
  | call (op : Op) (next : Ans op → Program Op Ans α)

/-- A call together with its answer. -/
abbrev Exchange {Op : Type} (Ans : Op → Type) := (op : Op) × Ans op

namespace Program

variable {Op : Type} {Ans : Op → Type} {α β γ : Type}

/-- Run a program and then another on its result. -/
def bind : Program Op Ans α → (α → Program Op Ans β) → Program Op Ans β
  | pure a, f => f a
  | call op next, f => call op fun answer => (next answer).bind f

instance : Monad (Program Op Ans) where
  pure := Program.pure
  bind := Program.bind

/-- The program that makes one call and returns the answer. -/
def request (op : Op) : Program Op Ans (Ans op) := call op Program.pure

theorem bind_pure (p : Program Op Ans α) : p.bind Program.pure = p := by
  induction p with
  | pure a => rfl
  | call op next ih => exact congrArg (call op) (funext ih)

theorem bind_assoc (p : Program Op Ans α) (f : α → Program Op Ans β)
    (g : β → Program Op Ans γ) : (p.bind f).bind g = p.bind fun a => (f a).bind g := by
  induction p with
  | pure a => rfl
  | call op next ih => exact congrArg (call op) (funext ih)

instance : LawfulMonad (Program Op Ans) :=
  LawfulMonad.mk' _ bind_pure (fun _ _ => rfl) bind_assoc

end Program

/-! ## Disciplines -/

/-- Which calls may follow a history of exchanges, latest first, and which
answers they may get. -/
structure Discipline (Op : Type) (Ans : Op → Type) where
  allowed : List (Exchange Ans) → Op → Prop
  admits : List (Exchange Ans) → (op : Op) → Ans op → Prop

/-- The discipline that allows every call and admits every answer. -/
def Discipline.free (Op : Type) (Ans : Op → Type) : Discipline Op Ans where
  allowed _ _ := True
  admits _ _ _ := True

/-- What two disciplines allow and admit. -/
def Discipline.both {Op : Type} {Ans : Op → Type} (D E : Discipline Op Ans) :
    Discipline Op Ans where
  allowed history op := D.allowed history op ∧ E.allowed history op
  admits history op answer := D.admits history op answer ∧ E.admits history op answer

namespace Program

variable {Op : Type} {Ans : Op → Type} {α β : Type} {D E : Discipline Op Ans}

/-- From a history, every call of the program is allowed, and whatever admitted
answers it gets it ends with the postcondition. -/
def Sat (D : Discipline Op Ans) :
    Program Op Ans α → List (Exchange Ans) → (List (Exchange Ans) → α → Prop) → Prop
  | pure a, history, post => post history a
  | call op next, history, post => D.allowed history op ∧
      ∀ answer, D.admits history op answer → (next answer).Sat D (⟨op, answer⟩ :: history) post

theorem Sat.mono {p : Program Op Ans α} {history : List (Exchange Ans)}
    {post post' : List (Exchange Ans) → α → Prop} (sat : p.Sat D history post)
    (weaker : ∀ history a, post history a → post' history a) : p.Sat D history post' := by
  induction p generalizing history with
  | pure a => exact weaker history a sat
  | call op next ih =>
    obtain ⟨allowed, onward⟩ := sat
    exact ⟨allowed, fun answer admitted => ih answer (onward answer admitted)⟩

theorem Sat.bind {p : Program Op Ans α} {f : α → Program Op Ans β}
    {history : List (Exchange Ans)} {post : List (Exchange Ans) → β → Prop}
    (sat : p.Sat D history fun history' a => (f a).Sat D history' post) :
    (p.bind f).Sat D history post := by
  induction p generalizing history with
  | pure a => exact sat
  | call op next ih =>
    obtain ⟨allowed, onward⟩ := sat
    exact ⟨allowed, fun answer admitted => ih answer (onward answer admitted)⟩

/-- What a program does under two disciplines it does under both. -/
theorem Sat.both {p : Program Op Ans α} {history : List (Exchange Ans)}
    {post post' : List (Exchange Ans) → α → Prop} (sat : p.Sat D history post)
    (sat' : p.Sat E history post') :
    p.Sat (D.both E) history fun history a => post history a ∧ post' history a := by
  induction p generalizing history with
  | pure a => exact ⟨sat, sat'⟩
  | call op next ih =>
    obtain ⟨allowed, onward⟩ := sat
    obtain ⟨allowed', onward'⟩ := sat'
    refine ⟨⟨allowed, allowed'⟩, fun answer admitted => ?_⟩
    exact ih answer (onward answer admitted.1) (onward' answer admitted.2)

/-- Where anything is allowed and admitted, earlier exchanges do not matter. -/
theorem Sat.after {p : Program Op Ans α} {recent : List (Exchange Ans)}
    {post : List (Exchange Ans) → α → Prop} (sat : p.Sat (.free Op Ans) recent post)
    (earlier : List (Exchange Ans)) :
    p.Sat (.free Op Ans) (recent ++ earlier) fun history a =>
      ∃ recent, history = recent ++ earlier ∧ post recent a := by
  induction p generalizing recent with
  | pure a => exact ⟨recent, rfl, sat⟩
  | call op next ih => exact ⟨trivial, fun answer _ => ih answer (sat.2 answer trivial)⟩

/-- A program only adds to its history. -/
theorem Sat.suffix {p : Program Op Ans α} {history : List (Exchange Ans)}
    {post : List (Exchange Ans) → α → Prop} (sat : p.Sat D history post) :
    p.Sat D history fun history' a => post history' a ∧ history <:+ history' := by
  induction p generalizing history with
  | pure a => exact ⟨sat, List.suffix_refl history⟩
  | call op next ih =>
    obtain ⟨allowed, onward⟩ := sat
    refine ⟨allowed, fun answer admitted => (ih answer (onward answer admitted)).mono fun _ _ grown => ?_⟩
    exact ⟨grown.1, (List.suffix_cons _ history).trans grown.2⟩

/-- A program keeps to another discipline too, where an invariant of its history
sees to it that what it does under its own is allowed there. -/
theorem Sat.carry (inv : List (Exchange Ans) → Prop) {p : Program Op Ans α}
    {history : List (Exchange Ans)} {post : List (Exchange Ans) → α → Prop}
    (sat : p.Sat D history post) (start : inv history)
    (step : ∀ history op answer, inv history → D.allowed history op →
      E.admits history op answer → D.admits history op answer ∧ inv (⟨op, answer⟩ :: history))
    (keeps : ∀ history op, inv history → D.allowed history op → E.allowed history op) :
    p.Sat E history fun history a => post history a ∧ inv history := by
  induction p generalizing history with
  | pure a => exact ⟨sat, start⟩
  | call op next ih =>
    obtain ⟨allowed, onward⟩ := sat
    refine ⟨keeps history op start allowed, fun answer admitted => ?_⟩
    obtain ⟨admitted', kept⟩ := step history op answer start allowed admitted
    exact ih answer (onward answer admitted') kept

end Program

/-! ## Methods -/

/-- The body of a method: it reads and writes a state, and may throw. -/
abbrev Method (Op : Type) (Ans : Op → Type) (σ ε : Type) :=
  ExceptT ε (StateT σ (Program Op Ans))

namespace Method

variable {Op : Type} {Ans : Op → Type} {σ ε α β : Type}

/-- Make one call. -/
def call (op : Op) : Method Op Ans σ ε (Ans op) :=
  ExceptT.lift (StateT.lift (Program.request op))

/-- Return the value of an outcome, or throw its error. -/
def ofExcept : Except ε α → Method Op Ans σ ε α
  | .ok a => pure a
  | .error e => throw e

/-- The program of a method started in a state: how it ended, and the state it left. -/
def start (m : Method Op Ans σ ε α) (s : σ) : Program Op Ans (Except ε α × σ) := m.run.run s

/-- What holds of the history, the state and the outcome when a method ends. -/
abbrev Post {Op : Type} (Ans : Op → Type) (σ ε α : Type) :=
  List (Exchange Ans) → σ → Except ε α → Prop

/-- `Program.Sat` for a method. -/
def Sat (D : Discipline Op Ans) (m : Method Op Ans σ ε α) (history : List (Exchange Ans)) (s : σ)
    (post : Post Ans σ ε α) : Prop :=
  (m.start s).Sat D history fun history' out => post history' out.2 out.1

/-- How a method goes on after another has ended. -/
def andThen (f : α → Method Op Ans σ ε β) (out : Except ε α × σ) : Program Op Ans (Except ε β × σ) :=
  match out.1 with
  | .ok a => (f a).start out.2
  | .error e => .pure (.error e, out.2)

theorem start_bind (m : Method Op Ans σ ε α) (f : α → Method Op Ans σ ε β) (s : σ) :
    (m >>= f).start s = (m.start s).bind (andThen f) := by
  refine congrArg (Program.bind (m.start s)) (funext fun out => ?_)
  obtain ⟨r, s'⟩ := out
  cases r <;> rfl

variable {D : Discipline Op Ans} {history : List (Exchange Ans)} {s : σ}

theorem Sat.mono {m : Method Op Ans σ ε α} {post post' : Post Ans σ ε α}
    (sat : m.Sat D history s post)
    (weaker : ∀ history s r, post history s r → post' history s r) :
    m.Sat D history s post' :=
  Program.Sat.mono sat fun history' out holds => weaker history' out.2 out.1 holds

theorem Sat.pure {a : α} {post : Post Ans σ ε α} (holds : post history s (.ok a)) :
    (pure a : Method Op Ans σ ε α).Sat D history s post := holds

theorem Sat.throw {e : ε} {post : Post Ans σ ε α} (holds : post history s (.error e)) :
    (throw e : Method Op Ans σ ε α).Sat D history s post := holds

theorem Sat.modify {f : σ → σ} {post : Post Ans σ ε PUnit} (holds : post history (f s) (.ok ⟨⟩)) :
    (modify f : Method Op Ans σ ε PUnit).Sat D history s post := holds

theorem Sat.get {post : Post Ans σ ε σ} (holds : post history s (.ok s)) :
    (get : Method Op Ans σ ε σ).Sat D history s post := holds

theorem Sat.call {op : Op} {post : Post Ans σ ε (Ans op)} (allowed : D.allowed history op)
    (onward : ∀ answer, D.admits history op answer → post (⟨op, answer⟩ :: history) s (.ok answer)) :
    (call op : Method Op Ans σ ε (Ans op)).Sat D history s post :=
  ⟨allowed, onward⟩

theorem Sat.ofExcept {r : Except ε α} {post : Post Ans σ ε α} (holds : post history s r) :
    (ofExcept r : Method Op Ans σ ε α).Sat D history s post := by
  cases r with
  | ok a => exact holds
  | error e => exact holds

theorem sat_call_bind {op : Op} {f : Ans op → Method Op Ans σ ε β} {post : Post Ans σ ε β}
    (allowed : D.allowed history op)
    (onward : ∀ answer, D.admits history op answer →
      (f answer).Sat D (⟨op, answer⟩ :: history) s post) :
    (call op >>= f).Sat D history s post :=
  ⟨allowed, onward⟩

theorem sat_modify_bind {f : σ → σ} {g : PUnit → Method Op Ans σ ε β} {post : Post Ans σ ε β}
    (onward : (g ⟨⟩).Sat D history (f s) post) :
    ((modify f : Method Op Ans σ ε PUnit) >>= g).Sat D history s post :=
  onward

theorem sat_get_bind {g : σ → Method Op Ans σ ε β} {post : Post Ans σ ε β}
    (onward : (g s).Sat D history s post) :
    ((get : Method Op Ans σ ε σ) >>= g).Sat D history s post :=
  onward

theorem sat_ofExcept_bind {r : Except ε α} {f : α → Method Op Ans σ ε β} {post : Post Ans σ ε β}
    (onward : ∀ a, r = .ok a → (f a).Sat D history s post)
    (stop : ∀ e, r = .error e → post history s (.error e)) :
    (ofExcept r >>= f).Sat D history s post := by
  cases r with
  | ok a => exact onward a rfl
  | error e => exact stop e rfl

/-- A method and then another: the second starts where the first returns, and
an exception of the first is one of the whole. -/
theorem Sat.bind {m : Method Op Ans σ ε α} {f : α → Method Op Ans σ ε β}
    {post : Post Ans σ ε β} (mid : Post Ans σ ε α) (first : m.Sat D history s mid)
    (second : ∀ history s a, mid history s (.ok a) → (f a).Sat D history s post)
    (stop : ∀ history s e, mid history s (.error e) → post history s (.error e)) :
    (m >>= f).Sat D history s post := by
  refine Program.Sat.bind (Program.Sat.mono first ?_)
  intro history' out holds
  obtain ⟨r, s'⟩ := out
  cases r with
  | ok a => exact second history' s' a holds
  | error e => exact stop history' s' e holds

/-- A handler takes over where the body throws, in the state the body left. -/
theorem Sat.tryCatch {m : Method Op Ans σ ε α} {handler : ε → Method Op Ans σ ε α}
    {post : Post Ans σ ε α} (mid : Post Ans σ ε α) (body : m.Sat D history s mid)
    (returns : ∀ history s a, mid history s (.ok a) → post history s (.ok a))
    (caught : ∀ history s e, mid history s (.error e) → (handler e).Sat D history s post) :
    (tryCatch m handler).Sat D history s post := by
  refine Program.Sat.bind (Program.Sat.mono body ?_)
  intro history' out holds
  obtain ⟨r, s'⟩ := out
  cases r with
  | ok a => exact returns history' s' a holds
  | error e => exact caught history' s' e holds

/-- `try m finally cleanup`: the cleanup runs either way; its own exception wins. -/
def ensuring (m : Method Op Ans σ ε α) (cleanup : Method Op Ans σ ε PUnit) :
    Method Op Ans σ ε α := do
  let outcome ← tryCatch (Except.ok <$> m) fun e => pure (Except.error e)
  cleanup
  match outcome with
  | .ok a => pure a
  | .error e => throw e

theorem Sat.ensuring {m : Method Op Ans σ ε α} {cleanup : Method Op Ans σ ε PUnit}
    {post : Post Ans σ ε α} (mid : Post Ans σ ε α) (body : m.Sat D history s mid)
    (clean : ∀ history s r, mid history s r → cleanup.Sat D history s fun history s c =>
      match c with
      | .ok _ => post history s r
      | .error e => post history s (.error e)) :
    (ensuring m cleanup).Sat D history s post := by
  refine Sat.bind (fun history s r => ∃ r', r = .ok r' ∧ mid history s r') ?_ ?_ ?_
  · refine Sat.tryCatch (fun history s r => match r with
      | .ok r' => ∃ a, r' = .ok a ∧ mid history s r'
      | .error e => mid history s (.error e)) ?_ ?_ ?_
    · refine Sat.bind mid body ?_ ?_
      · intro history s a holds
        exact ⟨a, rfl, holds⟩
      · intro history s e holds
        exact holds
    · intro history s r' holds
      obtain ⟨a, -, holds⟩ := holds
      exact ⟨r', rfl, holds⟩
    · intro history s e holds
      exact ⟨.error e, rfl, holds⟩
  · intro history s r holds
    obtain ⟨r', same, holds⟩ := holds
    obtain rfl : r = r' := Except.ok.inj same
    refine Sat.bind _ (clean history s r holds) ?_ ?_
    · intro history s _ holds
      cases r with
      | ok a => exact holds
      | error e => exact holds
    · intro history s e holds
      exact holds
  · intro history s e holds
    obtain ⟨r', same, -⟩ := holds
    cases same

/-! ## Methods that keep an invariant -/

/-- From wherever an invariant holds the method keeps to the discipline, the
invariant holds however it ends, and it returns only certain values. -/
def Keeps (D : Discipline Op Ans) (inv : List (Exchange Ans) → σ → Prop)
    (m : Method Op Ans σ ε α) (returns : α → Prop) : Prop :=
  ∀ history s, inv history s → m.Sat D history s fun history s r =>
    inv history s ∧ ∀ a, r = .ok a → returns a

variable {inv : List (Exchange Ans) → σ → Prop}

theorem Keeps.pure {a : α} {returns : α → Prop} (holds : returns a) :
    Keeps D inv (Pure.pure a : Method Op Ans σ ε α) returns := by
  intro history s kept
  refine Sat.pure ⟨kept, fun a' same => ?_⟩
  obtain rfl := Except.ok.inj same
  exact holds

theorem Keeps.throw {e : ε} {returns : α → Prop} :
    Keeps D inv (MonadExcept.throw e : Method Op Ans σ ε α) returns :=
  fun _ _ kept => Sat.throw ⟨kept, fun _ same => by cases same⟩

theorem Keeps.modify {f : σ → σ} (step : ∀ history s, inv history s → inv history (f s)) :
    Keeps D inv (modify f : Method Op Ans σ ε PUnit) fun _ => True :=
  fun history s kept => Sat.modify ⟨step history s kept, fun _ _ => trivial⟩

theorem Keeps.call {op : Op} (allowed : ∀ history s, inv history s → D.allowed history op)
    (step : ∀ history s answer, inv history s → D.admits history op answer →
      inv (⟨op, answer⟩ :: history) s) :
    Keeps D inv (call op : Method Op Ans σ ε (Ans op)) fun _ => True :=
  fun history s kept => Sat.call (allowed history s kept) fun answer admitted =>
    ⟨step history s answer kept admitted, fun _ _ => trivial⟩

theorem Keeps.ofExcept {r : Except ε α} : Keeps D inv (ofExcept r) fun a => r = .ok a :=
  fun _ _ kept => Sat.ofExcept ⟨kept, fun _ same => same⟩

theorem Keeps.mono {m : Method Op Ans σ ε α} {returns returns' : α → Prop}
    (keeps : Keeps D inv m returns) (weaker : ∀ a, returns a → returns' a) :
    Keeps D inv m returns' :=
  fun history s kept => (keeps history s kept).mono fun _ _ _ holds =>
    ⟨holds.1, fun a same => weaker a (holds.2 a same)⟩

theorem Keeps.bind {m : Method Op Ans σ ε α} {f : α → Method Op Ans σ ε β} {mid : α → Prop}
    {returns : β → Prop} (first : Keeps D inv m mid)
    (second : ∀ a, mid a → Keeps D inv (f a) returns) : Keeps D inv (m >>= f) returns :=
  fun history s kept => Sat.bind _ (first history s kept)
    (fun history s a holds => second a (holds.2 a rfl) history s holds.1)
    (fun _ _ _ holds => ⟨holds.1, fun _ same => by cases same⟩)

theorem Keeps.tryCatch {m : Method Op Ans σ ε α} {handler : ε → Method Op Ans σ ε α}
    {returns : α → Prop} (body : Keeps D inv m returns)
    (handled : ∀ e, Keeps D inv (handler e) returns) :
    Keeps D inv (MonadExcept.tryCatch m handler) returns :=
  fun history s kept => Sat.tryCatch _ (body history s kept) (fun _ _ _ holds => holds)
    (fun history s e holds => handled e history s holds.1)

end Method

end Interaction
