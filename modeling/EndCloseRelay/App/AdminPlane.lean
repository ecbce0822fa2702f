import EndCloseRelay.App.Configuration
import EndCloseRelay.Engine.Codec
import EndCloseRelay.Sqlite.Events

/-!
# The admin plane

The handlers of `admin/server.ts` that act on the relay or show a payload, as
scripts over the one database: the killswitch, the pause of a route, the
configuration, the replay of parked events and the payload view.  They run
without awaiting anything, so nothing comes between their statements but a
failure or the end of the process.
-/

namespace EndCloseRelay

/-- The text of a state in `kv`, in requests and in the audit log. -/
def Killswitch.name : Killswitch → String
  | none => "none"
  | pause => "pause"
  | panic => "panic"

/-- The text of a status. -/
def EventStatus.name : EventStatus → String
  | pending => "pending"
  | delivering => "delivering"
  | retry => "retry"
  | delivered => "delivered"
  | droppedByFilter => "dropped_by_filter"
  | parked => "parked"

namespace App

open Interaction

/-! ## `KvRepo` -/

namespace KvRepo

/-- `globalKillswitch()`. -/
def globalKillswitch (db : Db) : Killswitch :=
  match get db "killswitch.global" with
  | some "pause" => .pause
  | some "panic" => .panic
  | _ => .none

/-- `setGlobalKillswitch(state)`. -/
def setGlobalKillswitch (state : Killswitch) : Db → Db := set "killswitch.global" state.name

end KvRepo

/-! ## The database and the requests -/

/-- The application's tables, and `events`. -/
structure AdminDb where
  app : Db := {}
  events : Events := .empty

/-- A script over the whole database. -/
abbrev AdminScript := Sql AdminDb AppError

/-- A script over the application's tables. -/
def overApp {α : Type} (script : Script α) : AdminScript α :=
  Sql.focus AdminDb.app (fun app db => { db with app }) script

/-- A statement on `events`. -/
def overEvents {α : Type} (run : Events → α × Events) : AdminScript α :=
  Sql.statement .sqlite fun db => ((run db.events).1, { db with events := (run db.events).2 })

/-- An entry of the admin plane in the audit log. -/
def logAudit (actor action : String) (detail : List (String × Json)) (now : Int) : AdminScript Unit :=
  overApp (update (AuditRepo.log now actor action detail))

/-- `Number(request.params.id)`: not finite, the id of no row, or one a row can have. -/
inductive IdParam
  | notFinite
  | noRow
  | row (id : Nat)

/-- The row of `events` a parameter names. -/
def IdParam.row? (events : Events) : IdParam → Option EventRow
  | row id => EventsRepo.getById events id
  | _ => none

/-- An authenticated request; what the body lacks or has in another shape is `none`. -/
inductive AdminRequest
  | killswitch (state : Option Killswitch)
  | pause (id : String) (paused : Option Bool)
  | payload (id : IdParam)
  | replay (id : IdParam)
  | replayParked
  | config (yaml : Option String)

/-- `AdminDeps`, as far as these handlers read it. -/
structure AdminDeps where
  gcm : AesGcm
  dataKey : Bytes
  runtime : Runtime
  yaml : ConfigRuntime
  secrets : SecretResolver
  /-- `mode === 'bootstrap'`. -/
  bootstrap : Bool
  /-- `configError` is set. -/
  configError : Bool
  /-- `(err as Error).message`. -/
  message : AppError → String

/-- What a request meets: the time, whether End Close owns the configuration,
the statement that fails or that the process stops before, one for the body of
the handler and one for its recovery part, and whether the process lives to
send the reply. -/
structure AdminWorld where
  now : Int
  managed : Bool := false
  left : Option Nat := none
  recoveryLeft : Option Nat := none
  replies : Bool := true

/-! ## The handlers -/

/-- An error reply. -/
def errorReply (status : Nat) (error : String) : AdminReply :=
  { status, body := .obj [("error", .str error)] }

/-- `POST /killswitch`. -/
def setKillswitch (state : Option Killswitch) (now : Int) : AdminScript AdminReply := do
  match state with
  | none => return errorReply 400 "state must be none|pause|panic"
  | some state =>
    let before ← overApp (query KvRepo.globalKillswitch)
    overApp (update (KvRepo.setGlobalKillswitch state))
    logAudit "admin" ("killswitch." ++ state.name) [("before", .str before.name)] now
    return { status := 200, body := .obj [("global", .str state.name)] }

/-- What `GET /events/:id/payload` shows of a row. -/
def payloadView (row : EventRow) (headers payload : Json) : Json :=
  .obj [("id", .num (.ofNat row.id)), ("route_id", .str row.routeId), ("event_id", .str row.eventId),
    ("event_type", row.eventType.elim .null .str), ("status", .str row.status.name),
    ("received_at", .str (Js.toISOString row.receivedAt)),
    ("last_error", row.lastError.elim .null .str), ("headers", headers), ("payload", payload)]

/-- `GET /events/:id/payload`, once the row is found. -/
def viewRow (deps : AdminDeps) (row : EventRow) (now : Int) : AdminScript AdminReply := do
  if row.payloadEnc.isEmpty then return errorReply 410 "payload wiped by retention"
  else
    match decrypt deps.gcm deps.dataKey row.payloadEnc row.payloadIv with
    | .error _ => return errorReply 500 "decrypt failed"
    | .ok plaintext =>
      match deps.runtime.jsonParse plaintext with
      | .error _ => return errorReply 500 "payload is not valid JSON"
      | .ok payload =>
        let headers := (Json.read row.headersJson).getD (.obj [])
        logAudit "admin" "event.view_payload" [("event_id", .num (.ofNat row.id)),
          ("route", .str row.routeId), ("status", .str row.status.name)] now
        return { status := 200, body := payloadView row headers payload }

/-- `GET /events/:id/payload`. -/
def viewPayload (deps : AdminDeps) (id : IdParam) (now : Int) : AdminScript AdminReply := do
  match id with
  | .notFinite => return errorReply 400 "invalid event id"
  | id =>
    match ← overEvents fun events => (id.row? events, events) with
    | none => return errorReply 404 "event not found"
    | some row => viewRow deps row now

/-- `events.replay(id)`; what is no id of a row matches none. -/
def replayEvent (id : IdParam) (now : Int) (events : Events) : Bool × Events :=
  match id with
  | .row id => EventsRepo.replay events id now
  | _ => (false, events)

/-- `POST /events/:id/replay`. -/
def postReplay (id : IdParam) (now : Int) : AdminScript AdminReply := do
  match ← overEvents (replayEvent id now), id with
  | true, .row id =>
    logAudit "admin" "event.replay" [("event_id", .num (.ofNat id))] now
    return { status := 200, body := .obj [("replayed", .num (.ofNat id))] }
  | _, _ => return errorReply 409 "event not found or not parked"

/-- `POST /events/replay-parked`. -/
def postReplayParked (now : Int) : AdminScript AdminReply := do
  let count ← overEvents fun events => EventsRepo.replayAllParked events now
  if 0 < count then logAudit "admin" "event.replay_all_parked" [("count", .num (.ofNat count))] now
  return { status := 200, body := .obj [("replayed", .num (.ofNat count))] }

/-- Where the stored configuration was invalid: hold forwarding, unless it is held. -/
def holdForwarding (deps : AdminDeps) (now : Int) : AdminScript Bool := do
  if deps.configError then
    match ← overApp (query KvRepo.globalKillswitch) with
    | .none =>
      overApp (update (KvRepo.setGlobalKillswitch .pause))
      logAudit "recovery" "killswitch.pause"
        [("reason", .str "config repaired in recovery mode — forwarding held for review")] now
      return true
    | _ => return false
  else return false

/-- `POST /config`. -/
def postConfig (deps : AdminDeps) (yaml : Option String) (world : AdminWorld) :
    AdminScript AdminReply := do
  match yaml.filter (· ≠ "") with
  | none => return errorReply 400 "yaml required"
  | some yaml =>
    if world.managed then
      return errorReply 409 "configuration is managed by End Close; edit it there"
    else
      match ← Sql.attempt (overApp (saveConfig deps.yaml yaml "admin" deps.secrets world.now)) with
      | .error e => return errorReply 422 (deps.message e)
      | .ok loaded =>
        if deps.bootstrap then
          let paused ← Sql.within world.recoveryLeft (holdForwarding deps world.now)
          return { status := 200, body := .obj [("applied", .str loaded.hash),
            ("restarting", .bool true), ("paused", .bool paused)] }
        else return { status := 200, body := .obj [("applied", .str loaded.hash)] }

/-- The handler of a request. -/
def handle (deps : AdminDeps) (world : AdminWorld) : AdminRequest → AdminScript AdminReply
  | .killswitch state => setKillswitch state world.now
  | .pause id paused => overApp (pauseRoute id paused world.now)
  | .payload id => viewPayload deps id world.now
  | .replay id => postReplay id world.now
  | .replayParked => postReplayParked world.now
  | .config yaml => postConfig deps yaml world

/-- What the framework makes of an error that a handler throws.  The `code` of a
database error, which it adds to the body, is left out. -/
def thrownReply (message : String) : AdminReply :=
  { status := 500
    body := .obj [("statusCode", .num (.ofNat 500)), ("error", .str "Internal Server Error"),
      ("message", .str message)] }

/-- Serve a request: the reply that is sent, if any, and the database it leaves. -/
def serve (deps : AdminDeps) (world : AdminWorld) (request : AdminRequest) (db : AdminDb) :
    Option AdminReply × AdminDb :=
  let (outcome, db) := (handle deps world request).on db world.left
  let reply :=
    match outcome with
    | .ok reply => reply
    | .error e => thrownReply (deps.message e)
  (if world.replies then some reply else none, db)

end App

end EndCloseRelay
