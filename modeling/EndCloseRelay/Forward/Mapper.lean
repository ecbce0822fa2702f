import EndCloseRelay.Config.Schema
import EndCloseRelay.Engine.Errors

/-!
# Mapping a webhook to a record

`forward/mapper.ts`.  `mapEventWith` is the body of `mapEvent` over what it
reads of the payload: the resolved value of a field reference, the value at
the date path, and the leaf paths its report is made from.  `mapEvent` is that
body at one payload.
-/

namespace EndCloseRelay

open Js

/-! ## Records and reports -/

/-- `EndCloseRecord`. -/
structure EndCloseRecord where
  date : String
  dataStreamKey : String
  amount : Double
  currency : Option String := none
  direction : Direction
  description : Option String := none
  externalId : String
  metadata : List (String × Json)

/-- `MapReport`. -/
structure MapReport where
  mapped : List (String × String) := []
  hashed : List String := []
  enriched : List String := []
  notForwarded : List String := []
deriving DecidableEq

/-- `PendingEnrichment`. -/
structure PendingEnrichment where
  field : String
  enrichment : String
  input : Json
  source : String

/-- `MappedEvent`. -/
structure MappedEvent where
  record : EndCloseRecord
  report : MapReport
  pending : List PendingEnrichment

/-! ## Amounts and dates -/

/-- `JSON.stringify(value)` inside a template literal. -/
def describeJson (value : Json) : String := value.stringify.getD "undefined"

/-- `/^-?\d+(\.\d{1,2})?$/`, as the sign, the whole part and the fraction. -/
def amountParts (text : List Char) : Option (Bool × List Char × List Char) :=
  let (negative, unsigned) := match text with
    | '-' :: rest => (true, rest)
    | _ => (false, text)
  let whole := unsigned.takeWhile isDigit
  if whole.isEmpty then none
  else match unsigned.dropWhile isDigit with
    | [] => some (negative, whole, [])
    | '.' :: frac =>
      if frac.all isDigit && (frac.length == 1 || frac.length == 2) then
        some (negative, whole, frac)
      else none
    | _ => none

/-- `toCents(value)`. -/
def toCents (value : Json) : Except RelayError Double := do
  let text ← match value with
    | .num n => pure n.text
    | .str s => pure (String.ofList (s.toList.filter fun c => !(c == '$' || c == ',' || isSpace c)))
    | _ => throw (.mapping ("amount is not a string or number: " ++ describeJson value))
  match amountParts text.toList with
  | none => throw (.mapping ("unparseable amount: " ++ text))
  | some (negative, whole, frac) =>
    let hundredths := digitsValue (frac ++ List.replicate (2 - frac.length) '0')
    let cents := ((roundNat (digitsValue whole)).scale 100).addNat hundredths
    pure (if negative then cents.neg else cents)

/-- `\d{1,limit}` and then a slash. -/
def digitsThenSlash (limit : Nat) (text : List Char) : Option (List Char × List Char) :=
  let digits := text.takeWhile isDigit
  match text.dropWhile isDigit with
  | '/' :: rest =>
    if 1 ≤ digits.length && digits.length ≤ limit then some (digits, rest) else none
  | _ => none

/-- `/^(\d{1,2})\/(\d{1,2})\/(\d{4})(?:\s|$)/`, as month, day and year. -/
def mdyParts (text : List Char) : Option (List Char × List Char × List Char) := do
  let (month, rest) ← digitsThenSlash 2 text
  let (day, rest) ← digitsThenSlash 2 rest
  let year := rest.take 4
  if year.length == 4 && year.all isDigit && (rest.drop 4).head?.all isSpace then
    some (month, day, year)
  else none

/-- `parseDate(value, format)`. -/
def parseDate (rt : Runtime) (value : Json) (format : DateFormat) : Except RelayError String :=
  match value with
  | .str s =>
    if s = "" then throw (.mapping ("date is not a string: " ++ describeJson value))
    else match format with
      | .mdyHms =>
        match mdyParts s.toList with
        | none => throw (.mapping ("unparseable M/D/YYYY date: " ++ s))
        | some (month, day, year) =>
          pure (String.ofList year ++ "-" ++ padStartZero (String.ofList month) 2 ++ "-" ++
            padStartZero (String.ofList day) 2)
      | .iso8601 =>
        match rt.dateParse s with
        | none => throw (.mapping ("unparseable date: " ++ s))
        | some ms => pure (sliceTo (toISOString ms) 10)
  | _ => throw (.mapping ("date is not a string: " ++ describeJson value))

example : toCents (.str "$12,450.10") = .ok (.integer 1245010) ∧
    toCents (.str "-12.5") = .ok (.integer (-1250)) := by decide

/-! ## Transforms -/

mutual

/-- A text transform: on a string, and elementwise over arrays. -/
def applyText (f : String → String) : Json → Json
  | .str s => .str (f s)
  | .arr items => .arr (applyTextItems f items)
  | value => value

/-- A text transform at every element of an array. -/
def applyTextItems (f : String → String) : List Json → List Json
  | [] => []
  | item :: items => applyText f item :: applyTextItems f items

end

/-- `hashValue(maskingKey, value)`.  `JSON.stringify` of a function is
`undefined`, which `update` refuses with a `TypeError`. -/
def hashValue (rt : Runtime) (maskingKey : Bytes) (value : Json) : Except RelayError String :=
  match (match value with
    | .str s => some s
    | _ => value.stringify) with
  | some raw => .ok ("hmac256:" ++ rt.hmacSha256Hex maskingKey raw)
  | none => .error (.other "The \"data\" argument must be of type string. Received undefined")

/-- `applyTransform(name, value, maskingKey)`. -/
def applyTransform (rt : Runtime) (maskingKey : Bytes) (value : Json) :
    TransformName → Except RelayError Json
  | .hash => (hashValue rt maskingKey value).map .str
  | .trim => .ok (applyText trim value)
  | .lowercase => .ok (applyText rt.toLowerCase value)

/-- `resolve(ref, payload, maskingKey)`. -/
def resolve (rt : Runtime) (maskingKey : Bytes) (payload : Json) (ref : EnrichableFieldRef) :
    Except RelayError (Option Json) :=
  match getAtPath payload (refSource ref) with
  | none => .ok none
  | some value => ((refTransforms ref).foldlM (applyTransform rt maskingKey) value).map some

/-! ## The body of `mapEvent` -/

/-- How a field reference is read: `resolve` at some payload. -/
abbrev Reader := EnrichableFieldRef → Except RelayError (Option Json)

/-- The report, the pending list and the set of used paths, as they grow. -/
structure MapState where
  report : MapReport := {}
  pending : List PendingEnrichment := []
  usedPaths : List String := []

/-- `usedPaths.add(source)`. -/
def MapState.addUsed (st : MapState) (source : String) : MapState :=
  { st with
    usedPaths := if source ∈ st.usedPaths then st.usedPaths else st.usedPaths ++ [source] }

/-- `use(field, ref)`: the value of a field the record takes now, `none` when
the source is absent or the host fills the field later. -/
def use (read : Reader) (field : String) (ref : EnrichableFieldRef) (st : MapState) :
    Except RelayError (Option Json × MapState) := do
  match ← read ref with
  | none => pure (none, st)
  | some value =>
    let source := refSource ref
    let st := st.addUsed source
    match refEnrichment ref with
    | some enrichment =>
      pure (none, { st with
        report := { st.report with
          mapped := st.report.mapped ++ [(field, source ++ " → enrich:" ++ enrichment)]
          enriched := st.report.enriched ++ [field] }
        pending := st.pending ++ [{ field, enrichment, input := value, source }] })
    | none =>
      pure (some value, { st with
        report := { st.report with
          mapped := st.report.mapped ++ [(field, source)]
          hashed := if .hash ∈ refTransforms ref then st.report.hashed ++ [field]
            else st.report.hashed } })

/-- `String(externalId)` of a value that is a string or a number. -/
def externalIdText (ref : EnrichableFieldRef) : Option Json → Except RelayError String
  | some (.str s) => .ok s
  | some (.num n) => .ok n.text
  | _ => .error (.mapping ("missing external id at " ++ refSource ref))

/-- The record's date: from the payload when the map names a date, and
otherwise the day of receipt. -/
def useDate (rt : Runtime) (readPath : String → Option Json) (receivedAt : String)
    (date : Option DateRef) (st : MapState) : Except RelayError (String × MapState) :=
  match date with
  | some ref => do
    let (source, format) := dateSource ref
    let date ← parseDate rt ((readPath source).getD .null) format
    let st := { st with report := { st.report with
      mapped := st.report.mapped ++ [("date", source)] } }
    pure (date, st.addUsed source)
  | none =>
    pure (sliceTo receivedAt 10, { st with report := { st.report with
      mapped := st.report.mapped ++ [("date", "(receive time)")] } })

/-- The loop over `Object.entries(m.metadata)`. -/
def useMetadata (read : Reader) : List (String × EnrichableFieldRef) → MapState →
    Except RelayError (List (String × Json) × MapState)
  | [], st => pure ([], st)
  | (outputKey, ref) :: entries, st => do
    let (value, st) ← use read ("metadata." ++ outputKey) ref st
    let (metadata, st) ← useMetadata read entries st
    pure ((value.map fun value => (outputKey, hardDenyDeep value)).toList ++ metadata, st)

/-- The description: only a string becomes one. -/
def useDescription (read : Reader) (description : Option EnrichableFieldRef) (st : MapState) :
    Except RelayError (Option String × MapState) :=
  match description with
  | none => pure (none, st)
  | some ref => do
    match ← use read "description" ref st with
    | (some (.str desc), st) => pure (some (hardDenyValue desc), st)
    | (_, st) => pure (none, st)

/-- One of `wildcardPrefixes` matches a leaf path.  Neither a literal segment
nor `[^.]+` can match a dot, so the match is segment by segment. -/
def wildcardMatches (source leaf : String) : Bool :=
  let rec go : List String → List String → Bool
    | [], [] => true
    | s :: ss, t :: ts => (if s = "*" then t != "" else s == t) && go ss ts
    | _, _ => false
  source.toList.contains '*' && go (pathSegments source) (pathSegments leaf)

/-- `report.not_forwarded`: the leaves no used path accounts for. -/
def notForwarded (usedPaths leaves : List String) : List String :=
  leaves.filter fun leaf =>
    !usedPaths.contains leaf && !usedPaths.any fun source => wildcardMatches source leaf

/-- The body of `mapEvent(route, payload, receivedAt, maskingKey)` over its
reads of the payload. -/
def mapEventWith (rt : Runtime) (read : Reader) (readPath : String → Option Json)
    (leaves : List String) (route : RouteConfig) (receivedAt : String) :
    Except RelayError MappedEvent := do
  let m := route.map
  let (externalId, st) ← use read "external_id" m.externalId.ref {}
  let externalId ← externalIdText m.externalId.ref externalId
  let (amount, st) ← use read "amount" m.amount.ref st
  let amount ← toCents (amount.getD .null)
  let (date, st) ← useDate rt readPath receivedAt m.date st
  let (metadata, st) ← useMetadata read m.metadata st
  let (description, st) ← useDescription read m.description st
  pure {
    record := {
      date
      dataStreamKey := m.dataStreamKey
      amount
      currency := m.currency
      direction := m.direction
      description
      externalId
      metadata }
    report := { st.report with notForwarded := notForwarded st.usedPaths leaves }
    pending := st.pending }

/-- `mapEvent(route, payload, receivedAt, maskingKey)`. -/
def mapEvent (rt : Runtime) (maskingKey : Bytes) (route : RouteConfig) (payload : Json)
    (receivedAt : String) : Except RelayError MappedEvent :=
  mapEventWith rt (resolve rt maskingKey payload) (getAtPath payload) (leafPaths payload "")
    route receivedAt

end EndCloseRelay
