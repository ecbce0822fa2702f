import EndCloseRelay.Engine.Codec
import EndCloseRelay.Engine.Hooks
import EndCloseRelay.Engine.Store
import EndCloseRelay.Ingest.Adapters
import EndCloseRelay.Interaction.Program

/-!
# Receiving a webhook

`engine/ingest.ts`: verify, encrypt, persist, acknowledge.  As in the
dispatcher, what a request asks of the world is a call, and what it tells its
hooks and the dispatcher's signal is the state.
-/

namespace EndCloseRelay

open Interaction

/-- `IngestResultOutcome`. -/
inductive IngestResultOutcome
  | ingest (outcome : IngestOutcome)
  | unknownRoute
  | secretUnavailable
  | unknownSource
  | persistFailed
  | unavailable
deriving DecidableEq

/-- The body of an answer. -/
inductive IngestBody
  | status (text : String)
  | error (text : String)
deriving DecidableEq

/-- `IngestResult`. -/
structure IngestResult where
  status : Nat
  body : IngestBody
  outcome : IngestResultOutcome
  id : Option Nat := none
deriving DecidableEq

/-- `IngestDeps`, less the services that the calls of the method reach. -/
structure IngestDeps where
  runtime : IngestRuntime
  codec : PayloadCodec
  adapters : Option (List (String × ProcessorAdapter)) := none

namespace Ingest

/-- What a request asks of the world; `entropy` is for the codec. -/
inductive Op
  | getRoute (routeId : String)
  | getKillswitch
  | resolveSecret (ref : String)
  | now
  | entropy
  | insert (e : NewEvent)

/-- What the world answers. -/
def Op.Answer : Op → Type
  | getRoute _ => Except RelayError (Option RouteConfig)
  | getKillswitch => Except RelayError Killswitch
  | resolveSecret _ => Except RelayError (Option Secret)
  | now => Int
  | entropy => Bytes
  | insert _ => Except RelayError InsertResult

/-- The hooks emitted, and the routes signalled to the dispatcher. -/
structure State where
  hooks : List RelayEvent := []
  signals : List String := []

/-- The body of an ingest function. -/
abbrev Body := Method Op Op.Answer State RelayError

/-- One call. -/
def ask (op : Op) : Body op.Answer := Method.call op

/-- `hooks.emit(event)`. -/
def emit (event : RelayEvent) : Body Unit := modify fun s => { s with hooks := s.hooks ++ [event] }

/-- `signal?.emit('event', routeId)`. -/
def signal (routeId : String) : Body Unit :=
  modify fun s => { s with signals := s.signals ++ [routeId] }

/-! ## Event filters -/

/-- `.*` and then the rest of an expression. -/
def starMatches (rest : List Char → Bool) : List Char → Bool
  | [] => rest []
  | c :: text => rest (c :: text) || (!Js.isLineTerminator c && starMatches rest text)

/-- The expression a pattern is turned into, anchored at both ends. -/
def globMatches : List Char → List Char → Bool
  | [], text => text.isEmpty
  | '*' :: pattern, text => starMatches (globMatches pattern) text
  | c :: pattern, text =>
    match text with
    | [] => false
    | d :: text => c == d && globMatches pattern text

/-- `eventTypeMatches(patterns, eventType)`. -/
def eventTypeMatches (patterns : List String) (eventType : Option String) : Bool :=
  if patterns.isEmpty then true
  else match eventType with
    | none => false
    | some eventType => patterns.any fun p =>
        if '*' ∈ p.toList then globMatches p.toList eventType.toList else p == eventType

example : eventTypeMatches ["Approved*"] (some "ApprovedPayment") ∧
    ¬ eventTypeMatches ["Approved*"] (some "DeclinedPayment") := by decide

/-- The route filters the event out. -/
def isFiltered (route : RouteConfig) (eventType : Option String) : Bool :=
  match route.events with
  | none => false
  | some patterns => !eventTypeMatches patterns eventType

/-! ## The request -/

/-- `eventIdempotencyKey(source, eventId)`. -/
def eventIdempotencyKey (rt : Runtime) (source eventId : String) : String :=
  "sha256:" ++ rt.sha256Hex (utf8 (source ++ ":" ++ eventId))

/-- `eventIdempotencyKey(source, eventId)` of any JavaScript texts. -/
def eventKey (rt : Runtime) (source eventId : Js.Units) : String :=
  "sha256:" ++ rt.sha256Hex (utf8Units (source ++ Js.units ":" ++ eventId))

theorem eventKey_units (rt : Runtime) (source eventId : String) :
    eventKey rt (Js.units source) (Js.units eventId) = eventIdempotencyKey rt source eventId := by
  rw [eventKey, ← Js.units_append, ← Js.units_append, utf8Units_units]
  rfl

/-- `PERSISTED_HEADERS`. -/
def persistedHeaders : List String := ["content-type", "user-agent"]

/-- `headersJson`. -/
def headersJson (headers : List (String × HeaderValue)) : String :=
  ((Json.obj (persistedHeaders.filterMap fun h =>
    match headers.lookup h with
    | some (.text value) => some (h, .str value)
    | some (.list values) => some (h, .arr (values.map .str))
    | none => none)).stringify).getD ""

/-- An answer that is no event stored: an error text and an outcome. -/
def refuse (status : Nat) (text : String) (outcome : IngestResultOutcome) : IngestResult :=
  { status, body := .error text, outcome }

/-- `ingested(outcome, eventType)`. -/
def ingested (routeId : String) (bodyBytes : Nat) (outcome : IngestOutcome)
    (eventType : Option String) : Body Unit :=
  emit (.ingest routeId outcome eventType bodyBytes)

/-- The new row of a verified webhook. -/
def newEvent (deps : IngestDeps) (route : RouteConfig) (routeId : String) (raw : RawRequest)
    (eventId : String) (eventType : Option String) (entropy : Bytes) (receivedAt : Int) :
    NewEvent :=
  let (payload, iv) := deps.codec.encode entropy raw.body
  { routeId
    source := route.source
    eventId
    eventType
    payload
    payloadIv := iv
    headersJson := headersJson raw.headers
    receivedAt
    status := if isFiltered route eventType then .droppedByFilter else .pending
    idempotencyKey := eventIdempotencyKey deps.runtime.toRuntime route.source eventId }

/-- Persist a verified webhook and acknowledge it. -/
def persist (deps : IngestDeps) (route : RouteConfig) (routeId : String) (raw : RawRequest)
    (adapter : ProcessorAdapter) (body : Json) : Body IngestResult := do
  let eventId ← Method.ofExcept (adapter.extractEventId body raw route)
  let eventType ← Method.ofExcept (adapter.extractEventType body raw route)
  let entropy ← ask .entropy
  let receivedAt ← ask .now
  let inserted ← Method.ofExcept
    (← ask (.insert (newEvent deps route routeId raw eventId eventType entropy receivedAt)))
  match inserted with
  | .duplicate => do
    ingested routeId raw.body.length .duplicate eventType
    pure { status := 200, body := .status "duplicate", outcome := .ingest .duplicate }
  | .inserted id =>
    if isFiltered route eventType then do
      ingested routeId raw.body.length .filtered eventType
      emit (.stored routeId id true)
      pure { status := 200, body := .status "filtered", outcome := .ingest .filtered, id := some id }
    else do
      ingested routeId raw.body.length .accepted eventType
      emit (.stored routeId id false)
      signal routeId
      pure { status := 200, body := .status "accepted", outcome := .ingest .accepted, id := some id }

/-- Verify a webhook whose body is a buffer of an admissible length. -/
def verifyAndPersist (deps : IngestDeps) (route : RouteConfig) (routeId : String)
    (raw : RawRequest) : Body IngestResult :=
  match findAdapter deps.runtime deps.adapters route.source with
  | none => pure (refuse 500 "internal error" .unknownSource)
  | some adapter => do
    match ← Method.ofExcept (← ask (.resolveSecret route.auth.secretEnv)) with
    | none => pure (refuse 500 "internal error" .secretUnavailable)
    | some secret => do
      let now ← ask .now
      match ← Method.ofExcept (adapter.verify now raw route secret) with
      | .error _ => do
        ingested routeId raw.body.length .rejectedAuth none
        pure (refuse 401 "verification failed" (.ingest .rejectedAuth))
      | .ok _ =>
        match deps.runtime.jsonParse raw.body with
        | .error _ => do
          ingested routeId raw.body.length .rejectedJson none
          pure (refuse 400 "invalid JSON" (.ingest .rejectedJson))
        | .ok body => persist deps route routeId raw adapter body

/-- `ingestInner(deps, routeId, raw)`. -/
def ingestInner (deps : IngestDeps) (routeId : String) (raw : RawRequest) : Body IngestResult := do
  match ← Method.ofExcept (← ask (.getRoute routeId)) with
  | none => pure (refuse 404 "unknown route" .unknownRoute)
  | some route => do
    let killswitch ← Method.ofExcept (← ask .getKillswitch)
    if killswitch = .panic then do
      ingested routeId raw.body.length .panic none
      pure (refuse 503 "relay is in panic mode" (.ingest .panic))
    else if raw.body.isEmpty then do
      ingested routeId raw.body.length .rejectedJson none
      pure (refuse 400 "empty body" (.ingest .rejectedJson))
    else if route.maxBodyBytes < raw.body.length then do
      ingested routeId raw.body.length .rejectedSize none
      pure (refuse 413 "body too large" (.ingest .rejectedSize))
    else verifyAndPersist deps route routeId raw

/-- The catch clause of `ingestWebhook`: a store failure is answered, never the raw error. -/
def answerFailure (routeId : String) : RelayError → Body IngestResult
  | .store message op => do
    emit (.error .ingestPersist (.store message op) (some op) (some routeId))
    pure (refuse 500 "internal error" .persistFailed)
  | .storeUnavailable message op => do
    emit (.error .ingestPersist (.storeUnavailable message op) (some op) (some routeId))
    pure (refuse 503 "temporarily unavailable" .unavailable)
  | err => throw err

/-- `ingestWebhook(deps, routeId, raw)`. -/
def ingestWebhook (deps : IngestDeps) (routeId : String) (raw : RawRequest) : Body IngestResult :=
  tryCatch (ingestInner deps routeId raw) (answerFailure routeId)

end Ingest

end EndCloseRelay
