import EndCloseRelay.Mask.Defaults
import EndCloseRelay.Mask.Paths

/-!
# Route configurations

The parsed shapes of `config/schema.ts` and the checks the schema makes on
them.  A `FieldRef` is an `EnrichableFieldRef` that names no enrichment, and a
`RecordMap` carries the fact that its metadata names are those of a record, so
pairwise distinct; the remaining checks are `RouteConfig.schemaValid`.
-/

namespace EndCloseRelay

open Js

/-! ## Field references -/

/-- `transformNameSchema`. -/
inductive TransformName
  | trim
  | lowercase
  | hash
deriving DecidableEq

/-- The `transform` key: one name, or a list applied in order. -/
inductive TransformSpec
  | one (name : TransformName)
  | many (names : List TransformName)
deriving DecidableEq

/-- `enrichableFieldRefSchema`: a bare source path, or an object. -/
inductive EnrichableFieldRef
  | path (source : String)
  | object (source : String) (transform : Option TransformSpec) (enrich : Option String)
deriving DecidableEq

/-- `refSource(ref)`. -/
def refSource : EnrichableFieldRef → String
  | .path source => source
  | .object source _ _ => source

/-- `refTransforms(ref)`. -/
def refTransforms : EnrichableFieldRef → List TransformName
  | .object _ (some (.one name)) _ => [name]
  | .object _ (some (.many names)) _ => names
  | _ => []

/-- `refEnrichment(ref)`. -/
def refEnrichment : EnrichableFieldRef → Option String
  | .path _ => none
  | .object _ _ enrich => enrich

theorem refEnrichment_path (source : String) : refEnrichment (.path source) = none := rfl

/-- `fieldRefSchema`: the same shapes without `enrich`. -/
structure FieldRef where
  ref : EnrichableFieldRef
  plain : refEnrichment ref = none := by first | exact refEnrichment_path _ | rfl
deriving DecidableEq

/-- The formats of a payload date. -/
inductive DateFormat
  | iso8601
  | mdyHms
deriving DecidableEq

/-- `dateRefSchema`. -/
inductive DateRef
  | path (source : String)
  | object (source : String) (format : DateFormat)
deriving DecidableEq

/-! ## Routes -/

inductive Direction
  | credit
  | debit
deriving DecidableEq

/-- `recordMapSchema`: how a webhook becomes a record. -/
structure RecordMap where
  dataStreamKey : String
  externalId : FieldRef
  amount : FieldRef
  direction : Direction
  date : Option DateRef := none
  description : Option EnrichableFieldRef := none
  currency : Option String := none
  metadata : List (String × EnrichableFieldRef) := []
  metadataNodup : (metadata.map Prod.fst).Nodup := by first | exact List.nodup_nil | decide

/-- `payabliAuthSchema`. -/
structure PayabliAuth where
  header : String := "authorization"
  secretEnv : String
  allowedIps : List String := []
deriving DecidableEq

inductive HmacAlgorithm
  | sha256
  | sha512
deriving DecidableEq

inductive SignedContent
  | body
  | timestampBody
deriving DecidableEq

/-- `genericHmacAuthSchema`. -/
structure GenericHmacAuth where
  header : String
  algorithm : HmacAlgorithm := .sha256
  secretEnv : String
  signedContent : SignedContent := .body
  timestampHeader : Option String := none
  toleranceSeconds : Nat := 300
  eventId : Option String := none
  eventType : Option String := none
deriving DecidableEq

/-- The `auth` block, discriminated by `mode`. -/
inductive RouteAuth
  | staticHeader (auth : PayabliAuth)
  | hmac (auth : GenericHmacAuth)
deriving DecidableEq

/-- `auth.secret_env`, which both modes have. -/
def RouteAuth.secretEnv : RouteAuth → String
  | .staticHeader auth => auth.secretEnv
  | .hmac auth => auth.secretEnv

/-- `routeSchema`. -/
structure RouteConfig where
  id : String
  source : String
  auth : RouteAuth
  events : Option (List String) := none
  map : RecordMap
  maxBodyBytes : Nat := 1024 * 1024

/-! ## What the schema checks -/

/-- `dotPath`: segments without white space, none of them empty. -/
def isDotPath (path : String) : Bool :=
  (pathSegments path).all fun segment =>
    segment != "" && segment.toList.all fun c => !isSpace c

/-- A first character of one class and then characters of another. -/
def isIdentifier (first rest : Char → Bool) (text : String) : Bool :=
  match text.toList with
  | c :: cs => first c && cs.all rest
  | [] => false

/-- `/^[a-z][a-z0-9_]*$/`: enrichment names and metadata output names. -/
def isSnakeCase : String → Bool :=
  isIdentifier isLowerAscii fun c => isLowerAscii c || isDigit c || c == '_'

/-- `/^[a-z0-9][a-z0-9_-]*$/`: route ids and sources. -/
def isSlug : String → Bool :=
  isIdentifier (fun c => isLowerAscii c || isDigit c) fun c =>
    isLowerAscii c || isDigit c || c == '_' || c == '-'

/-- `/^[A-Za-z]{3}$/`. -/
def isCurrency (text : String) : Bool :=
  text.toList.length == 3 && text.toList.all fun c => isLowerAscii c || isUpperAscii c

/-- The checks on a field reference. -/
def fieldRefValid (ref : EnrichableFieldRef) : Bool :=
  isDotPath (refSource ref) &&
    (match ref with
      | .object _ (some (.many names)) _ => !names.isEmpty
      | _ => true) &&
    (refEnrichment ref).all isSnakeCase

/-- `dateSource(ref)`, with the schema's default format. -/
def dateSource : DateRef → String × DateFormat
  | .path source => (source, .iso8601)
  | .object source format => (source, format)

/-- One issue the schema reports: where, and what. -/
structure ZodIssue where
  path : List String
  message : String
deriving DecidableEq

/-- The issue `superRefine` adds for one sensitive name of a metadata entry. -/
def sensitiveNameIssue (outputKey name : String) (enriched : Bool) : ZodIssue where
  path := ["metadata", outputKey]
  message :=
    if enriched && name == outputKey then
      "\"" ++ name ++ "\" matches the hard denylist (cvv/ssn/account number/...); " ++
        "an enriched field cannot use it as an output name"
    else
      "\"" ++ name ++ "\" matches the hard denylist (cvv/ssn/account number/...); " ++
        "it cannot be forwarded in clear — use transform: hash or remove it"

/-- `recordMapSchema.superRefine`: every metadata entry's output name and last
path segment against the denylist of names. -/
def sensitiveNameIssues (map : RecordMap) : List ZodIssue :=
  map.metadata.flatMap fun (outputKey, ref) =>
    let sourceLeaf := (pathSegments (refSource ref)).getLast?.getD ""
    let hashed := TransformName.hash ∈ refTransforms ref
    let enriched := (refEnrichment ref).isSome
    [outputKey, sourceLeaf].filterMap fun name =>
      if !keyNameIsSensitive name then none
      else if hashed && !(enriched && name == outputKey) then none
      else some (sensitiveNameIssue outputKey name enriched)

/-- The checks of `recordMapSchema`. -/
def RecordMap.schemaValid (map : RecordMap) : Bool :=
  map.dataStreamKey != "" && fieldRefValid map.externalId.ref && fieldRefValid map.amount.ref &&
    map.date.all (fun ref => isDotPath (dateSource ref).1) &&
    map.description.all fieldRefValid && map.currency.all isCurrency &&
    map.metadata.all (fun entry => isSnakeCase entry.1 && fieldRefValid entry.2) &&
    (sensitiveNameIssues map).isEmpty

/-- The checks of the `auth` schemas. -/
def RouteAuth.schemaValid : RouteAuth → Bool
  | .staticHeader auth => auth.secretEnv != ""
  | .hmac auth =>
    auth.secretEnv != "" && 0 < auth.toleranceSeconds && auth.eventId.all isDotPath &&
      auth.eventType.all isDotPath

/-- The checks of `routeSchema`. -/
def RouteConfig.schemaValid (route : RouteConfig) : Bool :=
  isSlug route.id && isSlug route.source && route.auth.schemaValid &&
    route.events.all (fun patterns => !patterns.isEmpty) && route.map.schemaValid &&
    0 < route.maxBodyBytes && route.maxBodyBytes ≤ 10 * 1024 * 1024

/-- Every source path a map names: what `mapEvent` may read of a payload. -/
def RecordMap.sourcePaths (map : RecordMap) : List String :=
  [refSource map.externalId.ref, refSource map.amount.ref] ++
    (map.date.map fun ref => (dateSource ref).1).toList ++
    (map.description.map refSource).toList ++ map.metadata.map fun entry => refSource entry.2

end EndCloseRelay
