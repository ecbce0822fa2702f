import EndCloseRelay.App.RemoteConfig
import EndCloseRelay.Engine.Manifest
import EndCloseRelay.Interaction.Machine

/-!
# The provider of End Close's routes

`remoteRoutes` of `engine/remote-config.ts` as a machine over its variables.  A
call runs up to what it waits for; an answer of End Close runs the handlers of
its fetch, `finally` after them, and then whoever waits on the promise; a lookup
behind `ready` reads the routes later still.  Calls come between any of these.
The next answer of the network comes only when what the last one set off has
run, as microtasks do.
-/

namespace EndCloseRelay.App.RemoteRoutes

open Interaction

/-! ## `Map` -/

/-- `map.set(key, value)`: a key keeps its place. -/
def mapSet {α : Type} (map : List (String × α)) (key : String) (value : α) : List (String × α) :=
  if key ∈ map.map Prod.fst then map.map fun entry => if entry.1 = key then (key, value) else entry
  else map ++ [(key, value)]

/-- `new Map(entries)`. -/
def newMap {α : Type} (entries : List (String × α)) : List (String × α) :=
  entries.foldl (fun map entry => mapSet map entry.1 entry.2) []

theorem newMap_of_nodup {α : Type} {entries : List (String × α)}
    (distinct : (entries.map Prod.fst).Nodup) : newMap entries = entries := by
  have after : ∀ map, (map ++ entries |>.map Prod.fst).Nodup →
      entries.foldl (fun map entry => mapSet map entry.1 entry.2) map = map ++ entries := by
    clear distinct
    induction entries with
    | nil => exact fun map _ => (List.append_nil map).symm
    | cons entry entries ih =>
      intro map distinct
      have new : entry.1 ∉ map.map Prod.fst := by
        rw [List.map_append, List.nodup_append] at distinct
        exact fun old => distinct.2.2 _ old _ (List.mem_cons_self) rfl
      rw [List.foldl_cons, mapSet, if_neg new, ih, List.append_assoc]
      · rfl
      · rwa [List.append_assoc]
  exact after [] distinct

theorem lookup_byId (routes : List RouteConfig) (id : String) :
    (routes.map fun route => (route.id, route)).lookup id = routes.find? fun route => route.id == id := by
  induction routes with
  | nil => rfl
  | cons route routes ih =>
    rw [List.map_cons, List.lookup_cons, List.find?_cons, ih, Bool.beq_comm]

/-! ## State -/

/-- `RemoteRoutesOptions`, as far as they decide what is served and announced. -/
structure Options where
  parse : ParseRoutesOptions := {}
  /-- `refreshIntervalMs`. -/
  refreshMs : Int := 60000
  /-- `manifest` is given. -/
  manifest : Bool := false
  /-- `manifest.heartbeatIntervalMs`. -/
  heartbeatMs : Int := 900000

/-- `FAILED_LOAD_HOLD_MS`. -/
def failedLoadHoldMs : Int := 5000

/-- A `RemoteConfig` with its `fetchedAt`. -/
structure Held extends RemoteConfig where
  fetchedAt : Int

/-- A lookup: it goes through `ready`. -/
inductive Lookup
  | get (id : String)
  | all

/-- The operation `ready` names in its error. -/
def Lookup.op : Lookup → String
  | get _ => "routes.get"
  | all => "routes.all"

/-- A call of the provider. -/
inductive Call
  | lookup (lookup : Lookup)
  | load
  | refresh

/-- What a call comes to. -/
inductive Outcome
  | route (found : Option RouteConfig)
  | routes (routes : List RouteConfig)
  | config (config : Held)
  | unavailable (error : RelayError)
  | failed (error : RemoteConfigError)

/-- How far a fetch has come: sent, answered and its handlers run, `finally` run,
and its promise settled. -/
inductive Stage
  | requested
  | settled (result : Except RemoteConfigError Held)
  | finished (result : Except RemoteConfigError Held)
  | delivered

/-- A fetch, with what was held when it started and who awaits its promise. -/
structure Fetch where
  held : Option Held
  stage : Stage := .requested
  waiters : List Call := []

/-- The `If-None-Match` that is sent. -/
def Fetch.ifNoneMatch (fetch : Fetch) : Option String := fetch.held.bind fun held => held.etag

/-- A call that has settled, what `current()` was then, and all it had been before. -/
structure Settled where
  call : Call
  outcome : Outcome
  current : Option Held
  documents : List Held

/-- The variables of the provider; every fetch that was started, and the lookups
behind `ready`; and beside them the calls made, those settled and all that has
been held, latest first. -/
structure Provider where
  cached : Option Held := none
  byId : List (String × RouteConfig) := []
  inFlight : Option Nat := none
  lastError : Option RemoteConfigError := none
  holdUntil : Int := 0
  lastAnnouncedAt : Option Int := none
  announced : List ManifestReason := []
  fetches : List Fetch := []
  reading : List Lookup := []
  calls : List Call := []
  settled : List Settled := []
  documents : List Held := []

/-- The readings of the clock within one action, in order. -/
abbrev Clock := Nat → Int

namespace Provider

/-! ## Calls -/

/-- `announce(reason)`. -/
def announce (opts : Options) (reason : ManifestReason) (now : Int) (s : Provider) : Provider :=
  if opts.manifest then { s with lastAnnouncedAt := some now, announced := reason :: s.announced }
  else s

/-- The announcement that goes before a fetch. -/
def announceDue (opts : Options) (clock : Clock) (s : Provider) : Provider :=
  match s.lastAnnouncedAt with
  | none => s.announce opts .boot (clock 0)
  | some last =>
    if opts.heartbeatMs ≤ clock 0 - last then s.announce opts .heartbeat (clock 1) else s

/-- `fetchNow()`: the fetch whose promise it returns. -/
def fetchNow (opts : Options) (clock : Clock) (s : Provider) : Nat × Provider :=
  match s.inFlight with
  | some i => (i, s)
  | none =>
    let hold := if s.cached.isSome then opts.refreshMs else failedLoadHoldMs
    let s := announceDue opts (fun n => clock (n + 1)) { s with holdUntil := clock 0 + hold }
    (s.fetches.length,
      { s with inFlight := some s.fetches.length, fetches := s.fetches ++ [{ held := s.cached }] })

/-- A call awaits the promise of a fetch. -/
def await (s : Provider) (i : Nat) (call : Call) : Provider :=
  { s with fetches := s.fetches.modify i fun fetch => { fetch with waiters := fetch.waiters ++ [call] } }

/-- A call settles. -/
def conclude (s : Provider) (call : Call) (outcome : Outcome) : Provider :=
  { s with settled := { call, outcome, current := s.cached, documents := s.documents } :: s.settled }

/-- `unavailable(e, op)`. -/
def unavailable (error : RemoteConfigError) (op : String) : Outcome :=
  .unavailable (.storeUnavailable ("End Close configuration unavailable: " ++ error.message) op)

/-- `ready(op)` of a lookup, up to what it awaits. -/
def ready (opts : Options) (lookup : Lookup) (clock : Clock) (s : Provider) : Provider :=
  let later : Clock := fun n => clock (n + 1)
  if s.cached.isSome then
    let s := if s.holdUntil ≤ clock 0 ∧ s.inFlight = none then (s.fetchNow opts later).2 else s
    { s with reading := s.reading ++ [lookup] }
  else
    match if s.inFlight = none ∧ clock 0 < s.holdUntil then s.lastError else none with
    | some error => s.conclude (.lookup lookup) (unavailable error lookup.op)
    | none => (s.fetchNow opts later).2.await (s.fetchNow opts later).1 (.lookup lookup)

/-- A call, up to what it awaits. -/
def begin (opts : Options) (call : Call) (clock : Clock) (s : Provider) : Provider :=
  let s := { s with calls := call :: s.calls }
  match call with
  | .lookup lookup => s.ready opts lookup clock
  | .load =>
    match s.cached with
    | some held => s.conclude .load (.config held)
    | none => (s.fetchNow opts clock).2.await (s.fetchNow opts clock).1 .load
  | .refresh => (s.fetchNow opts clock).2.await (s.fetchNow opts clock).1 .refresh

/-! ## A fetch ends -/

/-- A document is held from now on. -/
def hold (s : Provider) (held : Held) (holdUntil : Int) : Provider :=
  { s with cached := some held, documents := held :: s.documents, lastError := none, holdUntil }

/-- Set how far a fetch has come. -/
def setStage (s : Provider) (i : Nat) (stage : Stage) : Provider :=
  { s with fetches := s.fetches.modify i fun fetch => { fetch with stage } }

/-- The handlers of `then` and `catch`. -/
def handle (opts : Options) (i : Nat) (fetch : Fetch) (answer : ConfigAnswer) (clock : Clock)
    (s : Provider) : Provider :=
  match fetchRemoteConfig fetch.ifNoneMatch answer opts.parse with
  | .error error => { s with lastError := some error }.setStage i (.settled (.error error))
  | .ok (some config) =>
    let held : Held := { config with fetchedAt := clock 0 }
    let s := s.hold held (clock 1 + opts.refreshMs)
    { s with byId := newMap (config.routes.map fun route : RouteConfig => (route.id, route)) }.setStage i
      (.settled (.ok held))
  | .ok none =>
    match fetch.held with
    | some held =>
      let held := { held with fetchedAt := clock 1 }
      (s.hold held (clock 0 + opts.refreshMs)).setStage i (.settled (.ok held))
    | none => s -- `held!`: an ETag was sent, so something is held

/-- `finally`. -/
def finish (s : Provider) (i : Nat) : Provider :=
  match (s.fetches[i]?).map Fetch.stage with
  | some (.settled result) => { s with inFlight := none }.setStage i (.finished result)
  | _ => s

/-- One of those who await a promise goes on. -/
def resume (result : Except RemoteConfigError Held) (s : Provider) (call : Call) : Provider :=
  match call, result with
  | .lookup lookup, .ok _ => { s with reading := s.reading ++ [lookup] }
  | .lookup lookup, .error error => s.conclude call (unavailable error lookup.op)
  | .load, .ok held | .refresh, .ok held => s.conclude call (.config held)
  | .load, .error error | .refresh, .error error => s.conclude call (.failed error)

/-- The promise of a fetch settles. -/
def deliver (s : Provider) (i : Nat) : Provider :=
  match s.fetches[i]? with
  | some { stage := .finished result, waiters, .. } =>
    waiters.foldl (resume result) { s with
      fetches := s.fetches.modify i fun fetch => { fetch with stage := .delivered, waiters := [] } }
  | _ => s

/-- What the answers so far have set off runs. -/
def drain (s : Provider) : Provider :=
  (List.range s.fetches.length).foldl (fun s i => (s.finish i).deliver i) s

/-- End Close answers a fetch. -/
def receive (opts : Options) (i : Nat) (answer : ConfigAnswer) (clock : Clock) (s : Provider) :
    Provider :=
  let s := s.drain
  match s.fetches[i]? with
  | some fetch =>
    match fetch.stage with
    | .requested => s.handle opts i fetch answer clock
    | _ => s
  | none => s

/-- A lookup behind `ready` reads the routes. -/
def read (s : Provider) (k : Nat) : Provider :=
  match s.reading[k]? with
  | some lookup =>
    let outcome :=
      match lookup with
      | .get id => .route (s.byId.lookup id)
      | .all => .routes (s.byId.map Prod.snd)
    { s with reading := s.reading.eraseIdx k }.conclude (.lookup lookup) outcome
  | none => s

end Provider

/-! ## Runs -/

/-- What happens next. -/
inductive Action
  | call (call : Call) (clock : Clock)
  | answer (i : Nat) (answer : ConfigAnswer) (clock : Clock)
  /-- A call of the public `announce`, as `relay.stop` makes one. -/
  | announce (reason : ManifestReason) (now : Int)
  | finish (i : Nat)
  | deliver (i : Nat)
  | read (k : Nat)

/-- A provider from its creation on. -/
def machine (opts : Options) : Machine Provider Action where
  init := {}
  step s
    | .call call clock => s.begin opts call clock
    | .answer i answer clock => s.receive opts i answer clock
    | .announce reason now => s.announce opts reason now
    | .finish i => s.finish i
    | .deliver i => s.deliver i
    | .read k => s.read k

end EndCloseRelay.App.RemoteRoutes
