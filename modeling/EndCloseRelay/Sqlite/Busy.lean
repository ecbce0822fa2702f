import EndCloseRelay.Engine.System
import EndCloseRelay.Sqlite.Stores

/-!
# Calls to a locked database

Every call to the SQLite store is a synchronous function that is tried again
while others hold the lock, and whose errors are sorted into `StoreError` and
`StoreUnavailableError`.  An attempt that throws changes nothing: each function
writes by one statement, or in one transaction.  However the attempts of many
calls interleave, a call that resolves has happened once, at one moment, and
one that rejects has not.  `pruneBatch` is left out of that: it selects and then
writes, and another connection may come between.
-/

namespace EndCloseRelay

open Interaction

/-! ## One call -/

/-- What a call of better-sqlite3 throws: an error, and its `code`. -/
structure Thrown where
  code : Option String := none
  error : RelayError
deriving DecidableEq

/-- `isSqliteBusy(err)`. -/
def isSqliteBusy (err : Thrown) : Bool :=
  err.code.any fun code => code == "SQLITE_BUSY" || code.startsWith "SQLITE_BUSY_"

namespace Busy

/-- The calls of `withBusyRetry`: `fn()` and `sleep(ms)`. -/
inductive Op (T : Type)
  | attempt
  | sleep (ms : Nat)

/-- What a call is answered with. -/
def Op.Answer {T : Type} : Op T → Type
  | attempt => Except Thrown T
  | sleep _ => Unit

variable {T : Type}

/-- A call of `withBusyRetry`. -/
abbrev Call (T : Type) := Program (Op T) Op.Answer

/-- The loop of `withBusyRetry`, with so many iterations left, from the iteration
`i` on.  `last` is what was thrown before, `none` for `undefined`. -/
def attemptsLeft (attempts delayMs : Nat) :
    Nat → Nat → Option Thrown → Call T (Except (Option Thrown) T)
  | 0, _, last => pure (.error last)
  | left + 1, i, _ => do
    match ← Program.request Op.attempt with
    | .ok value => pure (.ok value)
    | .error err =>
      if !isSqliteBusy err || i == attempts - 1 then
        pure (.error (some err))
      else
        let _ ← Program.request (Op.sleep (delayMs * (i + 1)))
        attemptsLeft attempts delayMs left (i + 1) (some err)

/-- `BUSY_RETRY_ATTEMPTS`. -/
def busyRetryAttempts : Nat := 3

/-- `INGEST_BUSY_RETRY_ATTEMPTS`. -/
def ingestBusyRetryAttempts : Nat := 2

/-- `DEFAULT_DELAY_MS`. -/
def defaultDelayMs : Nat := 200

/-- `withBusyRetry(op, fn, { attempts })`. -/
def withBusyRetry (attempts : Nat) : Call T (Except (Option Thrown) T) :=
  attemptsLeft attempts defaultDelayMs attempts 0 none

/-- What `runSqlite` throws when `withBusyRetry` has thrown: at `undefined` it
finds no `message` to read. -/
def rethrow (op : String) : Option Thrown → RelayError
  | none => .other "Cannot read properties of undefined (reading 'message')"
  | some err =>
    if isSqliteBusy err then .storeUnavailable err.error.message op
    else match err.error with
      | .store message op => .store message op
      | .storeUnavailable message op => .storeUnavailable message op
      | error => .store error.message op

/-- `runSqlite(op, fn, { attempts })`. -/
def runSqlite (op : String) (attempts : Nat) : Call T (Except RelayError T) := do
  match ← withBusyRetry attempts with
  | .ok value => pure (.ok value)
  | .error last => pure (.error (rethrow op last))

/-- What the last attempt of a call makes it resolve to or reject with. -/
def outcome (op : String) : Except Thrown T → Except RelayError T
  | .ok value => .ok value
  | .error err => .error (rethrow op (some err))

/-- The exchanges of the iterations that slept, latest first, from the iteration
`i` on. -/
def slept (i : Nat) : List Thrown → List (Exchange (Op.Answer (T := T)))
  | [] => []
  | err :: errs =>
    slept (i + 1) errs ++ [⟨.sleep (defaultDelayMs * (i + 1)), ()⟩, ⟨.attempt, .error err⟩]

/-- A call made so many attempts at most: after each but the last it found the
database locked and slept, each time longer, and what the last came to is what
the call comes to.  It found the database locked at its last only if it had no more. -/
def Retried (op : String) (attempts : Nat) (history : List (Exchange (Op.Answer (T := T))))
    (r : Except RelayError T) : Prop :=
  ∃ locked last, history = ⟨.attempt, last⟩ :: slept 0 locked ∧ (∀ err ∈ locked, isSqliteBusy err) ∧
    locked.length < attempts ∧ r = outcome op last ∧
    ∀ err, last = .error err → isSqliteBusy err → locked.length + 1 = attempts

theorem slept_concat (i : Nat) (locked : List Thrown) (err : Thrown) :
    slept (T := T) i (locked ++ [err]) =
      [⟨.sleep (defaultDelayMs * (i + locked.length + 1)), ()⟩, ⟨.attempt, .error err⟩] ++
        slept i locked := by
  induction locked generalizing i with
  | nil => rfl
  | cons err' locked ih =>
    rw [List.cons_append, slept, ih, slept, List.append_assoc, List.length_cons]
    have next : i + 1 + locked.length = i + (locked.length + 1) := by omega
    rw [next]

/-- One iteration after the other. -/
theorem attemptsLeft_retried (op : String) {attempts left : Nat} {locked : List Thrown}
    (last : Option Thrown) (busy : ∀ err ∈ locked, isSqliteBusy err)
    (rest : locked.length + left = attempts) (positive : 0 < left) :
    ((attemptsLeft attempts defaultDelayMs left locked.length last :
        Call T (Except (Option Thrown) T)).bind fun
      | .ok value => .pure (.ok value)
      | .error last => .pure (.error (rethrow op last))).Sat (.free _ _) (slept 0 locked)
        (Retried op attempts) := by
  induction left generalizing locked last with
  | zero => omega
  | succ left ih =>
    refine ⟨trivial, fun answer _ => ?_⟩
    cases answer with
    | ok value => exact ⟨locked, .ok value, rfl, busy, by omega, rfl, fun err same => by cases same⟩
    | error err =>
      show ((if _ then _ else _ : Call T (Except (Option Thrown) T)).bind _).Sat _ _ _
      split
      · rename_i stops
        refine ⟨locked, .error err, rfl, busy, by omega, rfl, fun err' same lock => ?_⟩
        obtain rfl := Except.error.inj same
        rw [lock, Bool.not_true, Bool.false_or, beq_iff_eq] at stops
        omega
      · rename_i goes
        rw [Bool.not_eq_true, Bool.or_eq_false_iff, Bool.not_eq_false', beq_eq_false_iff_ne] at goes
        refine ⟨trivial, fun _ _ => ?_⟩
        have busy' : ∀ err' ∈ locked ++ [err], isSqliteBusy err' :=
          List.forall_mem_append.mpr ⟨busy, List.forall_mem_singleton.mpr goes.1⟩
        have onward := @ih (locked ++ [err]) (some err) busy'
          (by rw [List.length_append, List.length_singleton]; omega) (by omega)
        rw [slept_concat, List.length_append, List.length_singleton, Nat.zero_add] at onward
        exact onward

theorem runSqlite_retried (op : String) {attempts : Nat} (positive : 0 < attempts) :
    (runSqlite op attempts : Call T (Except RelayError T)).Sat (.free _ _) []
      (Retried op attempts) :=
  @attemptsLeft_retried _ op attempts attempts [] none (fun _ none_ => absurd none_ List.not_mem_nil)
    (Nat.zero_add attempts) positive

end Busy

/-! ## The calls to the store -/

namespace StoreOp

/-- The operation a call of the SQLite store names in its errors. -/
def opName : StoreOp → String
  | insert _ => "insert"
  | routesWithDueEvents _ => "routesWithDueEvents"
  | claimDue .. => "claimDue"
  | markDelivered .. => "markDelivered"
  | markFailed .. => "markFailed"
  | markParked .. => "markParked"
  | releaseDelivering .. => "releaseDelivering"
  | recoverDelivering .. => "recoverDelivering"
  | parkExpired .. => "parkExpired"
  | pruneBatch .. => "prune"
  | replay .. => "replay"
  | replayAllParked _ => "replayAllParked"

/-- How often a call of the SQLite store is attempted. -/
def attempts : StoreOp → Nat
  | insert _ => Busy.ingestBusyRetryAttempts
  | _ => Busy.busyRetryAttempts

theorem attempts_pos (op : StoreOp) : 0 < op.attempts := by
  cases op with
  | insert e => exact (by decide : 0 < Busy.ingestBusyRetryAttempts)
  | _ => exact (by decide : 0 < Busy.busyRetryAttempts)

/-- A call to the SQLite store, `this.run(op, fn, attempts)`. -/
def sqliteCall (op : StoreOp) : Busy.Call op.Result (Except RelayError op.Result) :=
  Busy.runSqlite op.opName op.attempts

end StoreOp

/-- The other calls: those of `EventStoreAdmin` that only read, and those of
`SqliteControlStore`. -/
inductive SqliteQuery
  | getById
  | list
  | countByStatus
  | perRouteStats
  | getKillswitch
  | setKillswitch
  | isRoutePaused
  | setRoutePaused

namespace SqliteQuery

/-- The operation such a call names in its errors. -/
def opName : SqliteQuery → String
  | getById => "getById"
  | list => "list"
  | countByStatus => "countByStatus"
  | perRouteStats => "perRouteStats"
  | getKillswitch => "killswitch"
  | setKillswitch => "setKillswitch"
  | isRoutePaused => "isPaused"
  | setRoutePaused => "setPaused"

/-- Such a call, whatever it returns. -/
def sqliteCall {T : Type} (query : SqliteQuery) : Busy.Call T (Except RelayError T) :=
  Busy.runSqlite query.opName Busy.busyRetryAttempts

end SqliteQuery

/-- Whatever its attempts come to, a call to the SQLite stores makes as many as
find the database locked and one more, at most two for an insert and three for
any other, and sleeps 200 ms after the first and 400 ms after the second. -/
theorem SqliteStore.call_retried :
    (∀ op : StoreOp, op.sqliteCall.Sat (.free _ _) [] (Busy.Retried op.opName op.attempts)) ∧
    ∀ (query : SqliteQuery) (T : Type), (query.sqliteCall : Busy.Call T (Except RelayError T)).Sat
      (.free _ _) [] (Busy.Retried query.opName Busy.busyRetryAttempts) :=
  ⟨fun op => Busy.runSqlite_retried op.opName op.attempts_pos,
    fun query _ => Busy.runSqlite_retried query.opName (by decide)⟩

/-! ## Many calls -/

namespace Busy

variable {T : Type}

/-- A call that resolves to what an attempt returns as soon as one returns, and
rejects, if it does, with an error of the store. -/
def AtOnce : Call T (Except RelayError T) → Prop
  | .pure r => ∃ fault : StoreFault, r = .error fault.error
  | .call .attempt next => (∀ value, next (.ok value) = .pure (.ok value)) ∧
      ∀ err, AtOnce (next (.error err))
  | .call (.sleep _) next => AtOnce (next ())

theorem rethrow_fault (op : String) (last : Option Thrown) :
    ∃ fault : StoreFault, rethrow op last = fault.error := by
  cases last with
  | none => exact ⟨.thrown _, rfl⟩
  | some err =>
    simp only [rethrow]
    split
    · exact ⟨.unavailable _ _, rfl⟩
    · split
      · exact ⟨.failed _ _, rfl⟩
      · exact ⟨.unavailable _ _, rfl⟩
      · exact ⟨.failed _ _, rfl⟩

theorem attemptsLeft_atOnce (op : String) (attempts delayMs left i : Nat) (last : Option Thrown) :
    AtOnce ((attemptsLeft attempts delayMs left i last : Call T (Except (Option Thrown) T)).bind fun
      | .ok value => .pure (.ok value)
      | .error last => .pure (.error (rethrow op last))) := by
  induction left generalizing i last with
  | zero =>
    obtain ⟨fault, same⟩ := rethrow_fault op last
    exact ⟨fault, congrArg Except.error same⟩
  | succ left ih =>
    refine ⟨fun value => rfl, fun err => ?_⟩
    show AtOnce ((if _ then _ else _ : Call T (Except (Option Thrown) T)).bind _)
    split
    · obtain ⟨fault, same⟩ := rethrow_fault op (some err)
      exact ⟨fault, congrArg Except.error same⟩
    · exact ih (i + 1) (some err)

theorem runSqlite_atOnce (op : String) (attempts : Nat) :
    AtOnce (runSqlite op attempts : Call T (Except RelayError T)) :=
  attemptsLeft_atOnce op attempts defaultDelayMs attempts 0 none

end Busy

/-- A call to the store: what is left of it. -/
structure SqliteCall where
  op : StoreOp
  rest : Busy.Call op.Result (Except RelayError op.Result)

/-- A call took effect: which, by its number, and with which choices of the database. -/
structure Landing where
  call : Nat
  plan : Plan
  op : StoreOp

/-- The database after calls took effect. -/
def Landing.effects (landings : List Landing) : Events :=
  sqliteRecords.machine.run (landings.map fun l => (l.plan, l.op))

theorem Landing.effects_concat (landings : List Landing) (l : Landing) :
    effects (landings ++ [l]) = (SqliteStore.apply l.plan (effects landings) l.op).2 := by
  unfold effects
  rw [List.map_append]
  exact Machine.run_concat _ _ _

/-- A database and the calls made to it, each known by its place in the list,
with those that took effect, in order. -/
structure Contention where
  events : Events := .empty
  calls : List SqliteCall := []
  landings : List Landing := []

namespace Contention

/-- Someone makes a call that is one statement or one transaction, or one that is
on its way gets on: an attempt of it throws or returns, or its sleep is over. -/
inductive Action
  | issue (op : StoreOp) (atomic : op.isPrune = false)
  | resume (call : Nat) (plan : Plan) (thrown : Option Thrown)

/-- A call gets on. -/
def resume (s : Contention) (n : Nat) (plan : Plan) (thrown : Option Thrown) : Contention :=
  match s.calls[n]? with
  | some ⟨op, .call .attempt next⟩ =>
    match thrown with
    | some err => { s with calls := s.calls.set n ⟨op, next (.error err)⟩ }
    | none =>
      let (value, events) := SqliteStore.apply plan s.events op
      { events, calls := s.calls.set n ⟨op, next (.ok value)⟩, landings := s.landings ++ [⟨n, plan, op⟩] }
  | some ⟨op, .call (.sleep _) next⟩ => { s with calls := s.calls.set n ⟨op, next ()⟩ }
  | some ⟨_, .pure _⟩ | none => s

/-- One step. -/
def step (s : Contention) : Action → Contention
  | .issue op _ => { s with calls := s.calls ++ [⟨op, op.sqliteCall⟩] }
  | .resume n plan thrown => s.resume n plan thrown

/-- A database and its callers, from its creation on. -/
def machine : Machine Contention Action where
  init := {}
  step := step

/-- What became of a call so far.  One that resolved took effect once, and
resolved to what it answered then; any other took none. -/
inductive Fate (landings : List Landing) (n : Nat) : SqliteCall → Prop
  | resolved {op value before plan after} (landed : landings = before ++ ⟨n, plan, op⟩ :: after)
      (once : ∀ l ∈ before ++ after, l.call ≠ n)
      (answered : (SqliteStore.apply plan (Landing.effects before) op).1 = value) :
      Fate landings n ⟨op, .pure (.ok value)⟩
  | rejected {op} (fault : StoreFault) (never : ∀ l ∈ landings, l.call ≠ n) :
      Fate landings n ⟨op, .pure (.error fault.error)⟩
  | pending {op at_ next} (never : ∀ l ∈ landings, l.call ≠ n)
      (atOnce : Busy.AtOnce (.call at_ next)) : Fate landings n ⟨op, .call at_ next⟩

variable {landings : List Landing} {n : Nat} {call : SqliteCall}

/-- A call that has taken no effect. -/
theorem Fate.of_atOnce {op : StoreOp} {rest : Busy.Call op.Result (Except RelayError op.Result)}
    (atOnce : Busy.AtOnce rest) (never : ∀ l ∈ landings, l.call ≠ n) : Fate landings n ⟨op, rest⟩ := by
  cases rest with
  | pure r =>
    obtain ⟨fault, rfl⟩ := atOnce
    exact .rejected fault never
  | call at_ next => exact .pending never atOnce

/-- Another call takes effect. -/
theorem Fate.concat {l : Landing} (fate : Fate landings n call) (other : l.call ≠ n) :
    Fate (landings ++ [l]) n call := by
  have still : (∀ l ∈ landings, l.call ≠ n) → ∀ l' ∈ landings ++ [l], l'.call ≠ n := fun never =>
    List.forall_mem_append.mpr ⟨never, List.forall_mem_singleton.mpr other⟩
  cases fate with
  | rejected fault never => exact .rejected fault (still never)
  | pending never atOnce => exact .pending (still never) atOnce
  | @resolved op value before plan after landed once answered =>
    have landed' : landings ++ [l] = before ++ ⟨n, plan, op⟩ :: (after ++ [l]) := by
      rw [landed, List.append_assoc, List.cons_append]
    refine .resolved landed' ?_ answered
    rw [← List.append_assoc]
    exact List.forall_mem_append.mpr ⟨once, List.forall_mem_singleton.mpr other⟩

/-- What every run keeps. -/
structure Sound (s : Contention) : Prop where
  events : s.events = Landing.effects s.landings
  issued : ∀ l ∈ s.landings, l.call < s.calls.length
  fates : ∀ n call, s.calls[n]? = some call → Fate s.landings n call

theorem Sound.initial : Sound machine.init where
  events := rfl
  issued _ member := absurd member List.not_mem_nil
  fates n call found := by cases found

variable {s : Contention}

/-- A call is made. -/
theorem Sound.issue (sound : s.Sound) {op : StoreOp} (atomic : op.isPrune = false) :
    (s.step (.issue op atomic)).Sound where
  events := sound.events
  issued l member := by
    have earlier := sound.issued l member
    show l.call < (s.calls ++ [_]).length
    rw [List.length_append, List.length_singleton]
    omega
  fates n call found := by
    have found' : (s.calls ++ [⟨op, op.sqliteCall⟩])[n]? = some call := found
    rw [List.getElem?_append] at found'
    split at found'
    · exact sound.fates n call found'
    · rename_i fresh
      obtain ⟨-, rfl⟩ : n - s.calls.length = 0 ∧ ⟨op, op.sqliteCall⟩ = call := by
        rw [List.getElem?_singleton] at found'
        split at found'
        · rename_i zero
          exact ⟨zero, Option.some.inj found'⟩
        · cases found'
      refine .of_atOnce (Busy.runSqlite_atOnce _ _) fun l member => ?_
      have earlier := sound.issued l member
      omega

/-- Where one call has changed, every call has its fate when that one has. -/
theorem fates_set {landings : List Landing} {call' : SqliteCall}
    (others : ∀ m call, n ≠ m → s.calls[m]? = some call → Fate landings m call)
    (changed : Fate landings n call') :
    ∀ m call, (s.calls.set n call')[m]? = some call → Fate landings m call := by
  intro m call found
  rw [List.getElem?_set] at found
  split at found
  · rename_i same
    subst same
    split at found
    · rw [← Option.some.inj found]
      exact changed
    · cases found
  · rename_i other
    exact others m call other found

/-- A call gets on without effect. -/
theorem Sound.stay (sound : s.Sound) {op : StoreOp}
    {rest : Busy.Call op.Result (Except RelayError op.Result)}
    (never : ∀ l ∈ s.landings, l.call ≠ n) (atOnce : Busy.AtOnce rest) :
    Sound { s with calls := s.calls.set n ⟨op, rest⟩ } where
  events := sound.events
  issued l member := by
    show l.call < (s.calls.set n _).length
    rw [List.length_set]
    exact sound.issued l member
  fates := fates_set (fun m call _ => sound.fates m call) (.of_atOnce atOnce never)

/-- A call takes effect and resolves. -/
theorem Sound.land (sound : s.Sound) {op : StoreOp} {before : SqliteCall}
    (found : s.calls[n]? = some before) (never : ∀ l ∈ s.landings, l.call ≠ n) (plan : Plan)
    {rest : Busy.Call op.Result (Except RelayError op.Result)}
    (resolves : rest = .pure (.ok (SqliteStore.apply plan s.events op).1)) :
    Sound {
      events := (SqliteStore.apply plan s.events op).2
      calls := s.calls.set n ⟨op, rest⟩
      landings := s.landings ++ [⟨n, plan, op⟩] } where
  events := by
    rw [Landing.effects_concat, ← sound.events]
  issued l member := by
    show l.call < (s.calls.set n _).length
    rw [List.length_set]
    obtain ⟨inside, -⟩ := List.getElem?_eq_some_iff.mp found
    rcases List.mem_append.mp member with earlier | last
    · exact sound.issued l earlier
    · rw [List.mem_singleton.mp last]
      exact inside
  fates := by
    refine fates_set (fun m call other found => (sound.fates m call found).concat other) ?_
    subst resolves
    refine .resolved rfl ?_ (by rw [← sound.events])
    rw [List.append_nil]
    exact never

theorem Sound.resume (sound : s.Sound) (n : Nat) (plan : Plan) (thrown : Option Thrown) :
    (s.resume n plan thrown).Sound := by
  unfold Contention.resume
  split
  · rename_i op next found
    obtain ⟨never, returns, throws⟩ : (∀ l ∈ s.landings, l.call ≠ n) ∧
        (∀ value, next (.ok value) = .pure (.ok value)) ∧ ∀ err, Busy.AtOnce (next (.error err)) := by
      cases sound.fates n _ found with
      | pending never atOnce => exact ⟨never, atOnce⟩
    split
    · exact sound.stay never (throws _)
    · exact sound.land found never plan (returns _)
  · rename_i op ms next found
    cases sound.fates n _ found with
    | pending never atOnce => exact sound.stay never atOnce
  · exact sound
  · exact sound

theorem Sound.step (sound : s.Sound) (a : Action) : (s.step a).Sound := by
  cases a with
  | issue op atomic => exact sound.issue atomic
  | resume n plan thrown => exact sound.resume n plan thrown

theorem sound_run (actions : List Action) : (machine.run actions).Sound :=
  machine.invariant Sound .initial (fun _ a sound => sound.step a) actions

/-- What took effect before a step has done so after it. -/
theorem landings_step (s : Contention) (a : Action) : s.landings <+: (s.step a).landings := by
  cases a with
  | issue op atomic => exact List.prefix_refl _
  | resume n plan thrown =>
    simp only [Contention.step, Contention.resume]
    split
    · split
      · exact List.prefix_refl _
      · exact List.prefix_append _ _
    · exact List.prefix_refl _
    · exact List.prefix_refl _
    · exact List.prefix_refl _

theorem landings_run (earlier later : List Action) :
    (machine.run earlier).landings <+: (machine.run (earlier ++ later)).landings := by
  induction later using List.reverseRecOn with
  | nil => rw [List.append_nil]
  | append_singleton later a ih =>
    rw [← List.append_assoc, Machine.run_concat]
    exact ih.trans (landings_step _ a)

end Contention

/-- However the attempts of any number of calls to the SQLite store other than
`pruneBatch` interleave, and whatever they throw, the database is at every moment
what the calls that took effect make of it one after the other.  A call that
resolved took effect once, after it was made and before it resolved, and resolved
to what it answered then; one that rejected, or has not ended, took none. -/
theorem sqlite_calls_land (earlier later : List Contention.Action) :
    (Contention.machine.run (earlier ++ later)).events =
      Landing.effects (Contention.machine.run (earlier ++ later)).landings ∧
    (∀ n call, (Contention.machine.run (earlier ++ later)).calls[n]? = some call →
      Contention.Fate (Contention.machine.run (earlier ++ later)).landings n call) ∧
    (Contention.machine.run earlier).landings <+: (Contention.machine.run (earlier ++ later)).landings ∧
    ∀ l ∈ (Contention.machine.run earlier).landings,
      l.call < (Contention.machine.run earlier).calls.length :=
  ⟨(Contention.sound_run _).events, (Contention.sound_run _).fates, Contention.landings_run earlier later,
    (Contention.sound_run earlier).issued⟩

end EndCloseRelay
