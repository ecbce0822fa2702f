import EndCloseRelay.Config.Schema
import EndCloseRelay.Engine.Errors
import Mathlib.Data.Rat.Floor

/-!
# Processor adapters

`ingest/adapters`: how a webhook is verified, and the event id and type its
route's adapter takes from it.  A lookup on an object can find a member of
`Object.prototype`, which is truthy and of no use; where that throws, so does
the model.
-/

namespace EndCloseRelay

open Js

/-- What verification needs of the platform besides `Runtime`. -/
structure IngestRuntime extends Runtime where
  /-- `createHmac(algorithm, secret).update(content).digest('hex')`. -/
  hmacHex : HmacAlgorithm → String → Bytes → String
  /-- `Number(text)`, `none` when it is not finite. -/
  number : String → Option ℚ

/-- `Runtime.knowing` for runs on fixed inputs that also receive webhooks. -/
def IngestRuntime.knowing (documents : List (Bytes × Json)) : IngestRuntime where
  toRuntime := Runtime.knowing documents
  hmacHex _ _ content := String.ofList (content.map fun b => Char.ofNat b.toNat)
  number _ := none

/-! ## Requests -/

/-- A value of `IncomingHttpHeaders`. -/
inductive HeaderValue
  | text (value : String)
  | list (values : List String)
deriving DecidableEq

/-- `RawRequest`; `rawBody` is `none` when the host passed no buffer. -/
structure RawRequest where
  rawBody : Option Bytes
  headers : List (String × HeaderValue)
  remoteIp : String
deriving DecidableEq

/-- What reading a header can give: a text, or what the prototype holds. -/
inductive HeaderRead
  | text (value : String)
  | inherited
deriving DecidableEq

/-- `headerValue(headers, name)`. -/
def headerValue (rt : Runtime) (headers : List (String × HeaderValue)) (name : String) :
    Option HeaderRead :=
  let key := rt.toLowerCase name
  match headers.lookup key with
  | some (.text value) => some (.text value)
  | some (.list values) => values.head?.map .text
  | none => (Json.prototypeMember key).map fun _ => .inherited

/-- What resolving the name of a secret can give: a text, or what the prototype holds. -/
inductive Secret
  | text (value : String)
  | inherited
deriving DecidableEq

/-- `VerifyResult`: nothing, or the reason of a refusal. -/
abbrev VerifyResult := Except String Unit

/-- `ProcessorAdapter`.  `verify` also takes the clock it may read. -/
structure ProcessorAdapter where
  verify : Int → RawRequest → RouteConfig → Secret → Except RelayError VerifyResult
  extractEventId : Json → RawRequest → RouteConfig → Except RelayError String
  extractEventType : Json → RawRequest → RouteConfig → Except RelayError (Option String)

/-- The raw body as a buffer. -/
def RawRequest.body (req : RawRequest) : Bytes := req.rawBody.getD []

/-- `'sha256:' + createHash('sha256').update(req.rawBody).digest('hex')`. -/
def bodyHash (rt : Runtime) (req : RawRequest) : String := "sha256:" ++ rt.sha256Hex req.body

/-! ## Payabli -/

namespace Payabli

/-- `EVENT_ID_PATHS`. -/
def eventIdPaths : List (String × String) :=
  [("TransferFunded", "transferId"), ("PayOutBatchPaid", "BatchId"),
    ("ApprovedPayment", "TransactionId")]

/-- `payabliAdapter.verify`. -/
def verify (rt : Runtime) (req : RawRequest) (route : RouteConfig) (secret : Secret) :
    Except RelayError VerifyResult :=
  match route.auth with
  | .hmac _ => .ok (.error "route auth mode mismatch")
  | .staticHeader auth =>
    if !auth.allowedIps.isEmpty && !auth.allowedIps.contains req.remoteIp then
      .ok (.error "source ip not allowed")
    else match headerValue rt req.headers auth.header with
      | some .inherited =>
        .error (.other "The first argument must be of type string or an instance of Buffer")
      | none | some (.text "") => .ok (.error ("missing " ++ auth.header ++ " header"))
      | some (.text presented) =>
        match secret with
        | .inherited =>
          .error (.other "The first argument must be of type string or an instance of Buffer")
        | .text secret =>
          if utf8 presented = utf8 secret then .ok (.ok ()) else .ok (.error "bad auth header")

/-- `payabliAdapter.extractEventId`. -/
def extractEventId (rt : Runtime) (body : Json) (req : RawRequest) : Except RelayError String :=
  match getAtPath body "Event" with
  | some (.str eventType) =>
    match eventIdPaths.lookup eventType with
    | some path =>
      match getAtPath body path with
      | some (.str id) =>
        if id = "" then .ok (bodyHash rt req) else .ok (eventType ++ ":" ++ id)
      | _ => .ok (bodyHash rt req)
    | none =>
      -- `EVENT_ID_PATHS[eventType]` is a member of the prototype and goes for a path
      if (Json.prototypeMember eventType).isSome then .error (.other "path.split is not a function")
      else .ok (bodyHash rt req)
  | _ => .ok (bodyHash rt req)

/-- `payabliAdapter.extractEventType`. -/
def extractEventType (body : Json) : Option String :=
  match getAtPath body "Event" with
  | some (.str eventType) => some eventType
  | _ => none

/-- `payabliAdapter`. -/
def adapter (rt : Runtime) : ProcessorAdapter where
  verify _ req route secret := verify rt req route secret
  extractEventId body req _ := extractEventId rt body req
  extractEventType body _ _ := .ok (extractEventType body)

end Payabli

/-! ## Generic HMAC -/

namespace GenericHmac

/-- `/^[0-9a-f]+$/i`. -/
def isHexText (text : String) : Bool :=
  text != "" && text.toList.all fun c => (hexDigit? c).isSome

/-- The content a signature covers, or the reason of a refusal. -/
def signedContent (rt : IngestRuntime) (now : Int) (req : RawRequest) (auth : GenericHmacAuth) :
    Except String Bytes :=
  match auth.signedContent with
  | .body => .ok req.body
  | .timestampBody =>
    match auth.timestampHeader with
    | none | some "" => .error "timestamp_header not configured"
    | some header =>
      match headerValue rt.toRuntime req.headers header with
      | none | some (.text "") => .error ("missing " ++ header ++ " header")
      -- `Number` of a function or of the prototype is `NaN`
      | some .inherited => .error "stale timestamp"
      | some (.text ts) =>
        match rt.number ts with
        | none => .error "stale timestamp"
        | some seconds =>
          if auth.toleranceSeconds < |(now : ℚ) / 1000 - seconds| then .error "stale timestamp"
          else .ok (utf8 (ts ++ ".") ++ req.body)

/-- `genericHmacAdapter.verify`. -/
def verify (rt : IngestRuntime) (now : Int) (req : RawRequest) (route : RouteConfig)
    (secret : Secret) : Except RelayError VerifyResult :=
  match route.auth with
  | .staticHeader _ => .ok (.error "route auth mode mismatch")
  | .hmac auth =>
    match signedContent rt now req auth with
    | .error reason => .ok (.error reason)
    | .ok content =>
      match headerValue rt.toRuntime req.headers auth.header, secret with
      | none, _ | some (.text ""), _ => .ok (.error ("missing " ++ auth.header ++ " header"))
      | some _, .inherited =>
        .error (.other "The \"key\" argument must be of type string or an instance of Buffer")
      | some .inherited, .text _ => .error (.other "presented.includes is not a function")
      | some (.text presented), .text secret =>
        let expectedHex := rt.hmacHex auth.algorithm secret content
        let presentedHex := rt.toLowerCase
          (if '=' ∈ presented.toList && !isHexText presented then afterFirst presented '='
            else presented)
        if utf8 expectedHex = utf8 presentedHex then .ok (.ok ()) else .ok (.error "bad signature")

/-- `genericHmacAdapter.extractEventId`. -/
def extractEventId (rt : Runtime) (body : Json) (req : RawRequest) (route : RouteConfig) :
    String :=
  match route.auth with
  | .staticHeader _ => bodyHash rt req
  | .hmac auth =>
    match auth.eventId with
    | none | some "" => bodyHash rt req
    | some path =>
      match getAtPath body path with
      | some (.str id) => if id = "" then bodyHash rt req else id
      | some (.num n) => n.text
      | _ => bodyHash rt req

/-- `genericHmacAdapter.extractEventType`. -/
def extractEventType (body : Json) (route : RouteConfig) : Option String :=
  match route.auth with
  | .staticHeader _ => none
  | .hmac auth =>
    match auth.eventType with
    | none | some "" => none
    | some path =>
      match getAtPath body path with
      | some (.str eventType) => some eventType
      | _ => none

/-- `genericHmacAdapter`. -/
def adapter (rt : IngestRuntime) : ProcessorAdapter where
  verify now req route secret := verify rt now req route secret
  extractEventId body req route := .ok (extractEventId rt.toRuntime body req route)
  extractEventType body _ route := .ok (extractEventType body route)

end GenericHmac

/-! ## The registry -/

/-- What a member of `Object.prototype` does in the place of an adapter. -/
def inheritedAdapter : ProcessorAdapter where
  verify _ _ _ _ := .error (.other "adapter.verify is not a function")
  extractEventId _ _ _ := .error (.other "adapter.extractEventId is not a function")
  extractEventType _ _ _ := .error (.other "adapter.extractEventType is not a function")

/-- The built-in `adapters`. -/
def builtinAdapters (rt : IngestRuntime) : List (String × ProcessorAdapter) :=
  [("payabli", Payabli.adapter rt.toRuntime), ("generic_hmac", GenericHmac.adapter rt)]

/-- `extra?.[source] ?? adapters[source]`: what `adapterFor` returns, and
`none` where `hasAdapter` is false. -/
def findAdapter (rt : IngestRuntime) (extra : Option (List (String × ProcessorAdapter)))
    (source : String) : Option ProcessorAdapter :=
  let inherited := (Json.prototypeMember source).map fun _ => inheritedAdapter
  let host := match extra with
    | none => none
    | some adapters => (adapters.lookup source).or inherited
  host.or (((builtinAdapters rt).lookup source).or inherited)

end EndCloseRelay
