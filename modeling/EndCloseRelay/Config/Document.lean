import EndCloseRelay.Config.Schema

/-!
# Routes documents

The object schemas of `config/schema.ts`, with their defaults.  A schema is a
function that is undefined where zod reports issues; the issues themselves are
left out.  What a schema returns passes the checks of `RouteConfig.schemaValid`.
-/

namespace EndCloseRelay

open Js

/-! ## Reading a document -/

namespace Schema

variable {α : Type}

/-- `z.string()` with a check. -/
def string (ok : String → Bool) : Json → Option String
  | .str s => if ok s then some s else none
  | _ => none

/-- `z.string()`. -/
def anyString : Json → Option String := string fun _ => true

/-- `z.array(schema)`. -/
def array (schema : Json → Option α) : Json → Option (List α)
  | .arr items => items.mapM schema
  | _ => none

/-- `z.array(schema).min(1)`. -/
def nonEmptyArray (schema : Json → Option α) (value : Json) : Option (List α) :=
  (array schema value).filter fun items => !items.isEmpty

/-- `z.enum`, or a literal, as a table. -/
def oneOf (table : List (String × α)) : Json → Option α
  | .str s => table.lookup s
  | _ => none

/-- `z.number().int().positive()` with an upper bound, if any. -/
def positiveInt (max : Option Nat) : Json → Option Nat
  | .num n => n.toNat?.filter fun value => 0 < value && max.all (value ≤ ·)
  | _ => none

/-- A required member of an object. -/
def member (entries : List (String × Json)) (key : String) (schema : Json → Option α) : Option α :=
  (entries.lookup key).bind schema

/-- `schema.optional()` for a member. -/
def optionalMember (entries : List (String × Json)) (key : String) (schema : Json → Option α) :
    Option (Option α) :=
  match entries.lookup key with
  | none => some none
  | some value => (schema value).map some

/-- `schema.default(value)` for a member. -/
def withDefault (entries : List (String × Json)) (key : String) (fallback : α)
    (schema : Json → Option α) : Option α :=
  match entries.lookup key with
  | none => some fallback
  | some value => schema value

/-- `.strict()`: no member but these. -/
def strict (entries : List (String × Json)) (keys : List String) : Option Unit :=
  if entries.all fun entry => entry.1 ∈ keys then some () else none

end Schema

open Schema

/-! ## The schemas -/

/-- `dotPath`. -/
def dotPathSchema : Json → Option String := Schema.string isDotPath

/-- `transformNameSchema`. -/
def transformNameSchema : Json → Option TransformName :=
  oneOf [("trim", .trim), ("lowercase", .lowercase), ("hash", .hash)]

/-- What `transform` holds. -/
def transformSchema (value : Json) : Option TransformSpec :=
  ((transformNameSchema value).map .one).or ((nonEmptyArray transformNameSchema value).map .many)

/-- `fieldRefSchema`, and with `enrich` among the members `enrichableFieldRefSchema`. -/
def refSchema (members : List String) : Json → Option EnrichableFieldRef
  | .str s => (dotPathSchema (.str s)).map .path
  | .obj entries => do
    strict entries members
    let source ← member entries "source" dotPathSchema
    let transform ← optionalMember entries "transform" transformSchema
    let enrich ← optionalMember entries "enrich" (Schema.string isSnakeCase)
    return .object source transform enrich
  | _ => none

/-- `fieldRefSchema`. -/
def fieldRefSchema (value : Json) : Option FieldRef := do
  let ref ← refSchema ["source", "transform"] value
  if plain : refEnrichment ref = none then some ⟨ref, plain⟩ else none

/-- `enrichableFieldRefSchema`. -/
def enrichableFieldRefSchema : Json → Option EnrichableFieldRef :=
  refSchema ["source", "transform", "enrich"]

/-- `dateRefSchema`. -/
def dateRefSchema : Json → Option DateRef
  | .str s => (dotPathSchema (.str s)).map .path
  | .obj entries => do
    let source ← member entries "source" dotPathSchema
    let format ← withDefault entries "format" .iso8601
      (oneOf [("iso8601", .iso8601), ("mdy_hms", .mdyHms)])
    return .object source format
  | _ => none

/-- `secretRef`. -/
def secretRefSchema : Json → Option String := Schema.string (· != "")

/-- `payabliAuthSchema`, less its `mode`. -/
def payabliAuthSchema (entries : List (String × Json)) : Option PayabliAuth := do
  let header ← withDefault entries "header" "authorization" anyString
  let secretEnv ← member entries "secret_env" secretRefSchema
  let allowedIps ← withDefault entries "allowed_ips" [] (array anyString)
  return { header, secretEnv, allowedIps }

/-- `genericHmacAuthSchema`, less its `mode`. -/
def genericHmacAuthSchema (entries : List (String × Json)) : Option GenericHmacAuth := do
  let header ← member entries "header" anyString
  let algorithm ← withDefault entries "algorithm" .sha256
    (oneOf [("sha256", .sha256), ("sha512", .sha512)])
  let secretEnv ← member entries "secret_env" secretRefSchema
  let signedContent ← withDefault entries "signed_content" .body
    (oneOf [("body", .body), ("timestamp.body", .timestampBody)])
  let timestampHeader ← optionalMember entries "timestamp_header" anyString
  let toleranceSeconds ← withDefault entries "tolerance_seconds" 300 (positiveInt none)
  let eventId ← optionalMember entries "event_id" dotPathSchema
  let eventType ← optionalMember entries "event_type" dotPathSchema
  return { header, algorithm, secretEnv, signedContent, timestampHeader, toleranceSeconds, eventId,
           eventType }

/-- The `auth` block, discriminated by `mode`. -/
def authSchema : Json → Option RouteAuth
  | .obj entries =>
    match entries.lookup "mode" with
    | some (.str "static_header") => (payabliAuthSchema entries).map .staticHeader
    | some (.str "hmac") => (genericHmacAuthSchema entries).map .hmac
    | _ => none
  | _ => none

/-- The `metadata` record. -/
def metadataSchema : Json → Option (List (String × EnrichableFieldRef))
  | .obj entries => entries.mapM fun (key, value) => do
    let key ← Schema.string isSnakeCase (.str key)
    return (key, ← enrichableFieldRefSchema value)
  | _ => none

/-- `recordMapSchema`. -/
def recordMapSchema : Json → Option RecordMap
  | .obj entries => do
    let dataStreamKey ← member entries "data_stream_key" (Schema.string (· != ""))
    let externalId ← member entries "external_id" fieldRefSchema
    let amount ← member entries "amount" fieldRefSchema
    let direction ← member entries "direction" (oneOf [("credit", .credit), ("debit", .debit)])
    let date ← optionalMember entries "date" dateRefSchema
    let description ← optionalMember entries "description" enrichableFieldRefSchema
    let currency ← optionalMember entries "currency" (Schema.string isCurrency)
    let metadata ← withDefault entries "metadata" [] metadataSchema
    if distinct : (metadata.map Prod.fst).Nodup then
      let map : RecordMap :=
        { dataStreamKey, externalId, amount, direction, date, description, currency, metadata
          metadataNodup := distinct }
      if (sensitiveNameIssues map).isEmpty then some map else none
    else none
  | _ => none

/-- `routeSchema`. -/
def routeSchema : Json → Option RouteConfig
  | .obj entries => do
    let id ← member entries "id" (Schema.string isSlug)
    let source ← member entries "source" (Schema.string isSlug)
    let auth ← member entries "auth" authSchema
    let events ← optionalMember entries "events" (nonEmptyArray anyString)
    let map ← member entries "map" recordMapSchema
    let maxBodyBytes ← withDefault entries "max_body_bytes" (1024 * 1024)
      (positiveInt (some (10 * 1024 * 1024)))
    return { id, source, auth, events, map, maxBodyBytes }
  | _ => none

/-- `relayConfigSchema`. -/
def relayConfigSchema : Json → Option (List RouteConfig)
  | .obj entries => do
    strict entries ["routes"]
    member entries "routes" (nonEmptyArray routeSchema)
  | _ => none

/-! ## What an accepted document holds -/

section

variable {α : Type} {entries : List (String × Json)} {key : String} {schema : Json → Option α}

theorem string_passes {ok : String → Bool} {v : Json} {s : String} (read : Schema.string ok v = some s) :
    ok s := by
  cases v with
  | str t =>
    obtain ⟨passes, same⟩ := Option.ite_none_right_eq_some.mp read
    obtain rfl := Option.some.inj same
    exact passes
  | _ => cases read

theorem exists_of_member {a : α} (read : member entries key schema = some a) :
    ∃ v, schema v = some a := by
  obtain ⟨v, -, read⟩ := Option.bind_eq_some_iff.mp read
  exact ⟨v, read⟩

theorem exists_of_optionalMember {o : Option α} (read : optionalMember entries key schema = some o)
    {a : α} (some_ : o = some a) : ∃ v, schema v = some a := by
  subst some_
  unfold optionalMember at read
  split at read
  · cases read
  · obtain ⟨a', found, same⟩ := Option.map_eq_some_iff.mp read
    obtain rfl := Option.some.inj same
    exact ⟨_, found⟩

theorem exists_of_withDefault {fallback a : α} (read : withDefault entries key fallback schema = some a) :
    a = fallback ∨ ∃ v, schema v = some a := by
  unfold withDefault at read
  split at read
  · exact .inl (Option.some.inj read).symm
  · exact .inr ⟨_, read⟩

theorem filled_of_nonEmptyArray {v : Json} {items : List α} (read : nonEmptyArray schema v = some items) :
    (!items.isEmpty) = true :=
  (Option.filter_eq_some_iff.mp read).2

theorem bounds_of_positiveInt {max : Option Nat} {v : Json} {n : Nat}
    (read : positiveInt max v = some n) : 0 < n ∧ max.all (n ≤ ·) := by
  cases v with
  | num m =>
    have bounds := (Option.filter_eq_some_iff.mp read).2
    rw [Bool.and_eq_true, decide_eq_true_iff] at bounds
    exact bounds
  | _ => cases read

theorem forall_of_mapM {β : Type} {f : α → Option β} {P : β → Prop} {items : List α} {read : List β}
    (each : ∀ a b, f a = some b → P b) (all : items.mapM f = some read) : ∀ b ∈ read, P b := by
  induction items generalizing read with
  | nil =>
    obtain rfl := Option.some.inj all
    exact fun b member => absurd member List.not_mem_nil
  | cons a items ih =>
    rw [List.mapM_cons] at all
    obtain ⟨first, found, all⟩ := Option.bind_eq_some_iff.mp all
    obtain ⟨rest, others, all⟩ := Option.bind_eq_some_iff.mp all
    obtain rfl := Option.some.inj all
    intro b member
    rcases List.mem_cons.mp member with rfl | behind
    · exact each a _ found
    · exact ih others b behind

/-- Every text of an optional member passes its check. -/
theorem all_of_optionalMember {ok : String → Bool} {o : Option String}
    (read : optionalMember entries key (Schema.string ok) = some o) : o.all ok := by
  cases o with
  | none => rfl
  | some s =>
    obtain ⟨v, read⟩ := exists_of_optionalMember read rfl
    exact string_passes read

end

theorem fieldRefValid_of_refSchema {members : List String} {v : Json} {ref : EnrichableFieldRef}
    (read : refSchema members v = some ref) : fieldRefValid ref := by
  cases v with
  | str s =>
    obtain ⟨path, text, rfl⟩ := Option.map_eq_some_iff.mp read
    have dotted : isDotPath path := string_passes text
    simp [fieldRefValid, refSource, refEnrichment, dotted]
  | obj entries =>
    obtain ⟨-, -, read⟩ := Option.bind_eq_some_iff.mp read
    obtain ⟨source, path, read⟩ := Option.bind_eq_some_iff.mp read
    obtain ⟨transform, transforms, read⟩ := Option.bind_eq_some_iff.mp read
    obtain ⟨enrich, enriched, read⟩ := Option.bind_eq_some_iff.mp read
    obtain rfl := Option.some.inj read
    obtain ⟨v, path⟩ := exists_of_member path
    have dotted : isDotPath source := string_passes path
    have named : enrich.all isSnakeCase := all_of_optionalMember enriched
    have filled : ∀ names, transform = some (.many names) → (!names.isEmpty) = true := by
      intro names some_
      obtain ⟨v, read⟩ := exists_of_optionalMember transforms some_
      unfold transformSchema at read
      cases one : transformNameSchema v with
      | some name =>
        rw [one] at read
        cases read
      | none =>
        rw [one, Option.map_none, Option.none_or] at read
        obtain ⟨names', list, same⟩ := Option.map_eq_some_iff.mp read
        obtain rfl := TransformSpec.many.inj same
        exact filled_of_nonEmptyArray list
    unfold fieldRefValid
    rw [Bool.and_eq_true, Bool.and_eq_true]
    refine ⟨⟨dotted, ?_⟩, named⟩
    split
    · rename_i same
      obtain ⟨-, rfl, -⟩ := EnrichableFieldRef.object.inj same
      exact filled _ rfl
    · rfl
  | _ => cases read

theorem valid_of_dateRefSchema {v : Json} {ref : DateRef} (read : dateRefSchema v = some ref) :
    isDotPath (dateSource ref).1 := by
  cases v with
  | str s =>
    obtain ⟨path, text, rfl⟩ := Option.map_eq_some_iff.mp read
    exact string_passes text
  | obj entries =>
    obtain ⟨source, path, read⟩ := Option.bind_eq_some_iff.mp read
    obtain ⟨format, -, read⟩ := Option.bind_eq_some_iff.mp read
    obtain rfl := Option.some.inj read
    obtain ⟨v, path⟩ := exists_of_member path
    exact string_passes path
  | _ => cases read

theorem valid_of_payabliAuthSchema {entries : List (String × Json)} {auth : PayabliAuth}
    (read : payabliAuthSchema entries = some auth) : (RouteAuth.staticHeader auth).schemaValid := by
  obtain ⟨header, -, read⟩ := Option.bind_eq_some_iff.mp read
  obtain ⟨secretEnv, secret, read⟩ := Option.bind_eq_some_iff.mp read
  obtain ⟨allowedIps, -, read⟩ := Option.bind_eq_some_iff.mp read
  obtain rfl := Option.some.inj read
  obtain ⟨v, secret⟩ := exists_of_member secret
  exact string_passes secret

theorem valid_of_genericHmacAuthSchema {entries : List (String × Json)} {auth : GenericHmacAuth}
    (read : genericHmacAuthSchema entries = some auth) : (RouteAuth.hmac auth).schemaValid := by
  obtain ⟨header, -, read⟩ := Option.bind_eq_some_iff.mp read
  obtain ⟨algorithm, -, read⟩ := Option.bind_eq_some_iff.mp read
  obtain ⟨secretEnv, secret, read⟩ := Option.bind_eq_some_iff.mp read
  obtain ⟨signedContent, -, read⟩ := Option.bind_eq_some_iff.mp read
  obtain ⟨timestampHeader, -, read⟩ := Option.bind_eq_some_iff.mp read
  obtain ⟨toleranceSeconds, tolerance, read⟩ := Option.bind_eq_some_iff.mp read
  obtain ⟨eventId, idPath, read⟩ := Option.bind_eq_some_iff.mp read
  obtain ⟨eventType, typePath, read⟩ := Option.bind_eq_some_iff.mp read
  obtain rfl := Option.some.inj read
  obtain ⟨v, secret⟩ := exists_of_member secret
  have named : (secretEnv != "") = true := @string_passes (· != "") _ _ secret
  have positive : 0 < toleranceSeconds := by
    rcases exists_of_withDefault tolerance with rfl | ⟨v, read⟩
    · decide
    · exact (bounds_of_positiveInt read).1
  have idDotted : eventId.all isDotPath := all_of_optionalMember idPath
  have typeDotted : eventType.all isDotPath := all_of_optionalMember typePath
  simp [RouteAuth.schemaValid, named, positive, idDotted, typeDotted]

theorem valid_of_authSchema {v : Json} {auth : RouteAuth} (read : authSchema v = some auth) :
    auth.schemaValid := by
  cases v with
  | obj entries =>
    unfold authSchema at read
    simp only at read
    split at read
    · obtain ⟨payabli, inner, rfl⟩ := Option.map_eq_some_iff.mp read
      exact valid_of_payabliAuthSchema inner
    · obtain ⟨hmac, inner, rfl⟩ := Option.map_eq_some_iff.mp read
      exact valid_of_genericHmacAuthSchema inner
    · cases read
  | _ => cases read

theorem fieldRefValid_of_fieldRefSchema {v : Json} {ref : FieldRef} (read : fieldRefSchema v = some ref) :
    fieldRefValid ref.ref := by
  obtain ⟨found, inner, read⟩ := Option.bind_eq_some_iff.mp read
  split at read
  · obtain rfl := Option.some.inj read
    exact fieldRefValid_of_refSchema inner
  · cases read

theorem valid_of_metadataSchema {v : Json} {metadata : List (String × EnrichableFieldRef)}
    (read : metadataSchema v = some metadata) :
    metadata.all fun entry => isSnakeCase entry.1 && fieldRefValid entry.2 := by
  cases v with
  | obj entries =>
    refine List.all_eq_true.mpr (forall_of_mapM (fun first entry found => ?_) read)
    obtain ⟨key, named, found⟩ := Option.bind_eq_some_iff.mp found
    obtain ⟨ref, inner, found⟩ := Option.bind_eq_some_iff.mp found
    obtain rfl := Option.some.inj found
    rw [Bool.and_eq_true]
    exact ⟨string_passes named, fieldRefValid_of_refSchema inner⟩
  | _ => cases read

theorem valid_of_recordMapSchema {v : Json} {map : RecordMap} (read : recordMapSchema v = some map) :
    map.schemaValid := by
  cases v with
  | obj entries =>
    obtain ⟨dataStreamKey, key, read⟩ := Option.bind_eq_some_iff.mp read
    obtain ⟨externalId, external, read⟩ := Option.bind_eq_some_iff.mp read
    obtain ⟨amount, sum, read⟩ := Option.bind_eq_some_iff.mp read
    obtain ⟨direction, -, read⟩ := Option.bind_eq_some_iff.mp read
    obtain ⟨date, dated, read⟩ := Option.bind_eq_some_iff.mp read
    obtain ⟨description, described, read⟩ := Option.bind_eq_some_iff.mp read
    obtain ⟨currency, coined, read⟩ := Option.bind_eq_some_iff.mp read
    obtain ⟨metadata, extra, read⟩ := Option.bind_eq_some_iff.mp read
    split at read
    · extract_lets found at read
      split at read
      · rename_i unlisted
        obtain rfl := Option.some.inj read
        obtain ⟨v, key⟩ := exists_of_member key
        obtain ⟨v, external⟩ := exists_of_member external
        obtain ⟨v, sum⟩ := exists_of_member sum
        have streamed : (dataStreamKey != "") = true := @string_passes (· != "") _ _ key
        have dates : date.all fun ref => isDotPath (dateSource ref).1 := by
          cases date with
          | none => rfl
          | some ref =>
            obtain ⟨v, read⟩ := exists_of_optionalMember dated rfl
            exact valid_of_dateRefSchema read
        have descriptions : description.all fieldRefValid := by
          cases description with
          | none => rfl
          | some ref =>
            obtain ⟨v, read⟩ := exists_of_optionalMember described rfl
            exact fieldRefValid_of_refSchema read
        have coins : currency.all isCurrency := all_of_optionalMember coined
        have entries : metadata.all fun entry => isSnakeCase entry.1 && fieldRefValid entry.2 := by
          rcases exists_of_withDefault extra with rfl | ⟨v, read⟩
          · rfl
          · exact valid_of_metadataSchema read
        unfold RecordMap.schemaValid
        rw [streamed, fieldRefValid_of_fieldRefSchema external, fieldRefValid_of_fieldRefSchema sum,
          dates, descriptions, coins, entries, unlisted]
        rfl
      · cases read
    · cases read
  | _ => cases read

/-- A route that is read passes every check of the schema. -/
theorem valid_of_routeSchema {v : Json} {route : RouteConfig} (read : routeSchema v = some route) :
    route.schemaValid := by
  cases v with
  | obj entries =>
    obtain ⟨id, named, read⟩ := Option.bind_eq_some_iff.mp read
    obtain ⟨source, sourced, read⟩ := Option.bind_eq_some_iff.mp read
    obtain ⟨auth, authed, read⟩ := Option.bind_eq_some_iff.mp read
    obtain ⟨events, filtered, read⟩ := Option.bind_eq_some_iff.mp read
    obtain ⟨map, mapped, read⟩ := Option.bind_eq_some_iff.mp read
    obtain ⟨maxBodyBytes, sized, read⟩ := Option.bind_eq_some_iff.mp read
    obtain rfl := Option.some.inj read
    obtain ⟨v, named⟩ := exists_of_member named
    obtain ⟨v, sourced⟩ := exists_of_member sourced
    obtain ⟨v, authed⟩ := exists_of_member authed
    obtain ⟨v, mapped⟩ := exists_of_member mapped
    have id' : isSlug id := string_passes named
    have source' : isSlug source := string_passes sourced
    have patterns : events.all fun patterns => !patterns.isEmpty := by
      cases events with
      | none => rfl
      | some list =>
        obtain ⟨v, read⟩ := exists_of_optionalMember filtered rfl
        exact filled_of_nonEmptyArray read
    have bytes : 0 < maxBodyBytes ∧ maxBodyBytes ≤ 10 * 1024 * 1024 := by
      rcases exists_of_withDefault sized with rfl | ⟨v, read⟩
      · decide
      · simpa using bounds_of_positiveInt read
    unfold RouteConfig.schemaValid
    simp only [id', source', valid_of_authSchema authed, patterns, valid_of_recordMapSchema mapped,
      decide_eq_true bytes.1, decide_eq_true bytes.2, Bool.and_self]
  | _ => cases read

end EndCloseRelay
