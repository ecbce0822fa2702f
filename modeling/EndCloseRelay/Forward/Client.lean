import EndCloseRelay.Forward.Mapper

/-!
# Talking to End Close

`forward/endclose-client.ts`: what the client makes of an answer over HTTP.  A
body is read at the type the client declares for it, `none` being `null`, so
that the reads of the dispatcher can still fail on it.
-/

namespace EndCloseRelay

/-- `BulkRequestSummary`, as far as the dispatcher reads it. -/
structure BulkRequestSummary where
  id : Option String
deriving DecidableEq

/-- `BulkResultItem`. -/
structure BulkResultItem where
  index : Option Js.Number := none
  externalId : Option String := none
  status : Option String
deriving DecidableEq

/-- The `results` of a bulk request; `unreadable` is no list of items. -/
inductive BulkResults
  | absent
  | items (items : List BulkResultItem)
  | unreadable (message : String)
deriving DecidableEq

/-- What `getBulkRequest` declares to return, as far as the dispatcher reads it. -/
structure BulkRequestStatus where
  status : Option String
  results : BulkResults
deriving DecidableEq

/-- What comes of `fetch` and `res.text()`.  `body` is the text parsed, with the
error of `JSON.parse`. -/
inductive HttpAnswer (α : Type)
  | networkError (message : String)
  | bodyError (message : String)
  | response (status : Nat) (text : String) (body : Except String α)

/-- `TRANSIENT_STATUSES`. -/
def transientStatuses : List Nat := [408, 429, 500, 502, 503, 504]

/-- `res.ok`. -/
def isOkStatus (status : Nat) : Bool := 200 ≤ status && status < 300

/-- `assertOk(res)`. -/
def assertOk (status : Nat) (text : String) : Except RelayError Unit :=
  if isOkStatus status then .ok ()
  else if status ∈ transientStatuses then
    .error (.transientHttp ("HTTP " ++ toString status) (some status))
  else .error (.permanentHttp ("HTTP " ++ toString status) status (Js.sliceTo text 500))

/-- `request(method, path, opts)`, given what came back. -/
def HttpAnswer.read {α : Type} : HttpAnswer α → Except RelayError α
  | networkError message => .error (.transientHttp ("network error: " ++ message) none)
  | bodyError message => .error (.other message)
  | response status text body => do
    assertOk status text
    body.mapError .other

/-- The answer is a success of the API: a status `res.ok` holds for. -/
def HttpAnswer.isSuccess {α : Type} : HttpAnswer α → Bool
  | response status _ _ => isOkStatus status
  | _ => false

/-- Only a success is read as a body. -/
theorem HttpAnswer.isSuccess_of_read {α : Type} {answer : HttpAnswer α} {body : α}
    (read : answer.read = .ok body) : answer.isSuccess := by
  cases answer with
  | networkError message => cases read
  | bodyError message => cases read
  | response status text parsed =>
    show isOkStatus status = true
    by_contra refused
    rw [HttpAnswer.read, assertOk, if_neg refused] at read
    split at read <;> cases read

/-- `EndCloseClient.idempotencyKey(records)`. -/
def idempotencyKey (rt : Runtime) (records : List EndCloseRecord) : String :=
  "relay-" ++ Js.sliceTo (rt.sha256Hex (utf8 (String.join (records.map fun r =>
    r.dataStreamKey ++ ":" ++ r.externalId ++ "\n")))) 40

/-- The bytes `idempotencyKey` feeds to the hash, for records of any texts: an
`update` for each, of its `data_stream_key` and its `external_id`. -/
def keyBytes (lines : List (Js.Units × Js.Units)) : Bytes :=
  lines.flatMap fun line => utf8Units (line.1 ++ (Js.units ":" ++ (line.2 ++ Js.units "\n")))

end EndCloseRelay
