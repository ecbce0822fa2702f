import EndCloseRelay.Config.Document
import EndCloseRelay.Js.JsonText

/-!
# Parsed routes as values

A parsed route is an object, which the application stores as its JSON text and
the engine reads back.  `RouteConfig.toJson` is that object: the members of each
schema in its order, those that are absent left out.  A route of an accepted
document passes the schema again, and means the same.
-/

namespace EndCloseRelay

open Js Schema

/-! ## The object of a route -/

/-- A member that may be absent. -/
def optionalEntry {α : Type} (key : String) (value : α → Json) (v : Option α) :
    List (String × Json) :=
  (v.map fun a => (key, value a)).toList

/-- A list of texts. -/
def textsJson (texts : List String) : Json := .arr (texts.map .str)

/-- The text of a transform. -/
def TransformName.text : TransformName → String
  | .trim => "trim"
  | .lowercase => "lowercase"
  | .hash => "hash"

def TransformSpec.toJson : TransformSpec → Json
  | .one name => .str name.text
  | .many names => textsJson (names.map TransformName.text)

def EnrichableFieldRef.toJson : EnrichableFieldRef → Json
  | .path source => .str source
  | .object source transform enrich =>
    .obj (("source", .str source) :: (optionalEntry "transform" TransformSpec.toJson transform ++
      optionalEntry "enrich" .str enrich))

def DateFormat.text : DateFormat → String
  | .iso8601 => "iso8601"
  | .mdyHms => "mdy_hms"

def DateRef.toJson : DateRef → Json
  | .path source => .str source
  | .object source format => .obj [("source", .str source), ("format", .str format.text)]

def Direction.text : Direction → String
  | .credit => "credit"
  | .debit => "debit"

def HmacAlgorithm.text : HmacAlgorithm → String
  | .sha256 => "sha256"
  | .sha512 => "sha512"

def SignedContent.text : SignedContent → String
  | .body => "body"
  | .timestampBody => "timestamp.body"

def RouteAuth.toJson : RouteAuth → Json
  | .staticHeader auth =>
    .obj [("mode", .str "static_header"), ("header", .str auth.header),
      ("secret_env", .str auth.secretEnv), ("allowed_ips", textsJson auth.allowedIps)]
  | .hmac auth =>
    .obj ([("mode", .str "hmac"), ("header", .str auth.header),
        ("algorithm", .str auth.algorithm.text), ("secret_env", .str auth.secretEnv),
        ("signed_content", .str auth.signedContent.text)] ++
      optionalEntry "timestamp_header" .str auth.timestampHeader ++
      [("tolerance_seconds", .num (.ofNat auth.toleranceSeconds))] ++
      optionalEntry "event_id" .str auth.eventId ++ optionalEntry "event_type" .str auth.eventType)

def RecordMap.toJson (map : RecordMap) : Json :=
  .obj ([("data_stream_key", .str map.dataStreamKey), ("external_id", map.externalId.ref.toJson),
      ("amount", map.amount.ref.toJson), ("direction", .str map.direction.text)] ++
    optionalEntry "date" DateRef.toJson map.date ++
    optionalEntry "description" EnrichableFieldRef.toJson map.description ++
    optionalEntry "currency" .str map.currency ++
    [("metadata", .obj (map.metadata.map fun (key, ref) => (key, ref.toJson)))])

def RouteConfig.toJson (route : RouteConfig) : Json :=
  .obj ([("id", .str route.id), ("source", .str route.source), ("auth", route.auth.toJson)] ++
    optionalEntry "events" textsJson route.events ++
    [("map", route.map.toJson), ("max_body_bytes", .num (.ofNat route.maxBodyBytes))])

/-! ## Reading it back -/

@[simp] theorem lookup_optionalEntry {α : Type} (key key' : String) (value : α → Json)
    (v : Option α) : (optionalEntry key value v).lookup key' =
      if key' == key then v.map value else none := by
  cases v with
  | none => simp [optionalEntry]
  | some a =>
    show List.lookup key' [(key, value a)] = _
    rw [List.lookup_cons]
    split <;> simp_all

theorem string_str {ok : String → Bool} {s : String} (passes : ok s) :
    Schema.string ok (.str s) = some s := if_pos passes

/-- Items that each read back from their value read back from the list of values. -/
theorem mapM_map_some {α β : Type} {f : β → Option α} {g : α → β} {items : List α}
    (reads : ∀ a ∈ items, f (g a) = some a) : (items.map g).mapM f = some items := by
  induction items with
  | nil => rfl
  | cons a items ih =>
    rw [List.map_cons, List.mapM_cons, reads a List.mem_cons_self,
      ih fun b member => reads b (List.mem_cons_of_mem _ member)]
    rfl

theorem array_texts (texts : List String) : array anyString (textsJson texts) = some texts :=
  mapM_map_some fun _ _ => string_str rfl

theorem transformNameSchema_text (name : TransformName) :
    transformNameSchema (.str name.text) = some name := by
  cases name <;> rfl

theorem transformSchema_toJson {transform : TransformSpec}
    (valid : ∀ names, transform = .many names → names ≠ []) :
    transformSchema transform.toJson = some transform := by
  cases transform with
  | one name => simp [transformSchema, TransformSpec.toJson, transformNameSchema_text]
  | many names =>
    have read : array transformNameSchema (textsJson (names.map TransformName.text)) = some names := by
      show ((names.map TransformName.text).map Json.str).mapM transformNameSchema = some names
      rw [List.map_map]
      exact mapM_map_some fun name _ => transformNameSchema_text name
    have filled : (!names.isEmpty) = true := by
      cases names with
      | nil => exact absurd rfl (valid _ rfl)
      | cons => rfl
    unfold transformSchema nonEmptyArray
    show (Option.map TransformSpec.one (transformNameSchema (textsJson _))).or
      (Option.map .many ((array transformNameSchema (textsJson _)).filter _)) = _
    rw [read, Option.filter_some, if_pos filled]
    rfl

/-- A reference reads back where its members are allowed. -/
theorem refSchema_toJson {members : List String} {ref : EnrichableFieldRef} (valid : fieldRefValid ref)
    (plain : "source" ∈ members ∧ "transform" ∈ members)
    (enriched : refEnrichment ref ≠ none → "enrich" ∈ members) :
    refSchema members ref.toJson = some ref := by
  unfold fieldRefValid at valid
  rw [Bool.and_eq_true, Bool.and_eq_true] at valid
  obtain ⟨⟨path, names⟩, identifier⟩ := valid
  cases ref with
  | path source =>
    have dotted : dotPathSchema (.str source) = some source := string_str path
    simp [refSchema, EnrichableFieldRef.toJson, dotted]
  | object source transform enrich =>
    have dotted : dotPathSchema (.str source) = some source := string_str path
    have known : strict (("source", .str source) ::
        (optionalEntry "transform" TransformSpec.toJson transform ++ optionalEntry "enrich" .str enrich))
        members = some () := by
      refine if_pos (List.all_eq_true.mpr fun entry member => decide_eq_true ?_)
      rcases List.mem_cons.mp member with rfl | member
      · exact plain.1
      · rcases List.mem_append.mp member with inside | inside
        · cases transform with
          | none => cases inside
          | some transform =>
            obtain rfl := List.mem_singleton.mp inside
            exact plain.2
        · cases enrich with
          | none => cases inside
          | some name =>
            obtain rfl := List.mem_singleton.mp inside
            exact enriched (by simp [refEnrichment])
    have read : ∀ t, transform = some t → transformSchema t.toJson = some t := by
      rintro t rfl
      refine transformSchema_toJson fun list same => ?_
      subst same
      simpa using names
    have name : ∀ e, enrich = some e → Schema.string isSnakeCase (.str e) = some e := by
      rintro e rfl
      exact string_str (by simpa [refEnrichment] using identifier)
    simp only [refSchema, EnrichableFieldRef.toJson, known, member, optionalMember]
    cases transform with
    | none =>
      cases enrich with
      | none => simp [optionalEntry, dotted, List.lookup_cons]
      | some e => simp [optionalEntry, dotted, name e rfl, List.lookup_cons]
    | some t =>
      cases enrich with
      | none => simp [optionalEntry, dotted, read t rfl, List.lookup_cons]
      | some e => simp [optionalEntry, dotted, read t rfl, name e rfl, List.lookup_cons]

theorem fieldRefSchema_toJson {ref : FieldRef} (valid : fieldRefValid ref.ref) :
    fieldRefSchema ref.ref.toJson = some ref := by
  unfold fieldRefSchema
  rw [refSchema_toJson valid (by decide) fun some_ => absurd ref.plain some_]
  exact dif_pos ref.plain

theorem enrichableFieldRefSchema_toJson {ref : EnrichableFieldRef} (valid : fieldRefValid ref) :
    enrichableFieldRefSchema ref.toJson = some ref :=
  refSchema_toJson valid (by decide) fun _ => by decide

theorem dateRefSchema_toJson {ref : DateRef} (valid : isDotPath (dateSource ref).1) :
    dateRefSchema ref.toJson = some ref := by
  cases ref with
  | path source =>
    have path : dotPathSchema (.str source) = some source := string_str valid
    simp [dateRefSchema, DateRef.toJson, path]
  | object source format =>
    have path : dotPathSchema (.str source) = some source := string_str valid
    cases format with
    | iso8601 =>
      simp [dateRefSchema, DateRef.toJson, path, member, withDefault, List.lookup_cons, DateFormat.text, oneOf]
    | mdyHms =>
      simp [dateRefSchema, DateRef.toJson, path, member, withDefault, List.lookup_cons, DateFormat.text, oneOf]

theorem positiveInt_ofNat {max : Option Nat} {n : Nat} (positive : 0 < n) (bound : max.all (n ≤ ·)) :
    positiveInt max (.num (.ofNat n)) = some n := by
  show (Number.ofNat n).toNat?.filter _ = some n
  rw [Number.toNat?_ofNat, Option.filter_some, bound, decide_eq_true positive]
  rfl

theorem anyString_str (s : String) : anyString (.str s) = some s := string_str rfl

section

variable {α : Type} {entries : List (String × Json)} {key : String} {schema : Json → Option α}

theorem member_of {value : Json} {a : α} (found : entries.lookup key = some value)
    (reads : schema value = some a) : member entries key schema = some a := by
  rw [member, found]
  exact reads

theorem withDefault_of {value : Json} {fallback a : α} (found : entries.lookup key = some value)
    (reads : schema value = some a) : withDefault entries key fallback schema = some a := by
  rw [withDefault, found]
  exact reads

theorem optionalMember_of (value : α → Json) (v : Option α)
    (found : entries.lookup key = v.map value) (reads : ∀ a, v = some a → schema (value a) = some a) :
    optionalMember entries key schema = some v := by
  rw [optionalMember, found]
  cases v with
  | none => rfl
  | some a => exact congrArg (Option.map some) (reads a rfl)

end

/-- What every text of an optional member passes, each one does. -/
theorem string_of_all {ok : String → Bool} {v : Option String} (valid : v.all ok) (s : String)
    (some_ : v = some s) : Schema.string ok (.str s) = some s := by
  subst some_
  exact string_str valid

theorem dotPath_of_all {v : Option String} (valid : v.all isDotPath) (s : String)
    (some_ : v = some s) : dotPathSchema (.str s) = some s := string_of_all valid s some_

theorem genericHmacAuthSchema_toJson {auth : GenericHmacAuth} {entries : List (String × Json)}
    (object : (RouteAuth.hmac auth).toJson = .obj entries) (valid : (RouteAuth.hmac auth).schemaValid) :
    genericHmacAuthSchema entries = some auth := by
  obtain rfl := Json.obj.inj object
  rw [RouteAuth.schemaValid, Bool.and_eq_true, Bool.and_eq_true, Bool.and_eq_true,
    decide_eq_true_iff] at valid
  obtain ⟨⟨⟨named, positive⟩, idPath⟩, typePath⟩ := valid
  have secret : secretRefSchema (.str auth.secretEnv) = some auth.secretEnv := string_str named
  unfold genericHmacAuthSchema
  rw [member_of (by rfl) (anyString_str auth.header),
    withDefault_of (by rfl) (a := auth.algorithm) (by cases auth.algorithm <;> rfl),
    member_of (by rfl) secret,
    withDefault_of (by rfl) (a := auth.signedContent) (by cases auth.signedContent <;> rfl),
    optionalMember_of _ auth.timestampHeader (by simp [List.lookup_append, List.lookup_cons])
      (fun s _ => anyString_str s),
    withDefault_of (by simp [List.lookup_append, List.lookup_cons])
      (@positiveInt_ofNat none _ positive rfl),
    optionalMember_of _ auth.eventId (by simp [List.lookup_append, List.lookup_cons])
      (dotPath_of_all idPath),
    optionalMember_of _ auth.eventType (by simp [List.lookup_append, List.lookup_cons])
      (dotPath_of_all typePath)]
  rfl

theorem authSchema_toJson {auth : RouteAuth} (valid : auth.schemaValid) :
    authSchema auth.toJson = some auth := by
  cases auth with
  | staticHeader auth =>
    have secret : secretRefSchema (.str auth.secretEnv) = some auth.secretEnv := string_str valid
    simp [authSchema, RouteAuth.toJson, payabliAuthSchema, withDefault, member, List.lookup_cons,
      anyString_str, array_texts, secret]
  | hmac auth =>
    show (genericHmacAuthSchema _).map RouteAuth.hmac = _
    rw [genericHmacAuthSchema_toJson rfl valid]
    rfl

theorem metadataSchema_toJson {metadata : List (String × EnrichableFieldRef)}
    (valid : metadata.all fun entry => isSnakeCase entry.1 && fieldRefValid entry.2) :
    metadataSchema (.obj (metadata.map fun (key, ref) => (key, ref.toJson))) = some metadata := by
  refine mapM_map_some fun entry member => ?_
  obtain ⟨key, ref⟩ := entry
  have checked := List.all_eq_true.mp valid _ member
  rw [Bool.and_eq_true] at checked
  show (do
    let key ← Schema.string isSnakeCase (.str key)
    return (key, ← enrichableFieldRefSchema ref.toJson)) = _
  rw [string_str checked.1, enrichableFieldRefSchema_toJson checked.2]
  rfl

theorem recordMapSchema_toJson {map : RecordMap} (valid : map.schemaValid) :
    recordMapSchema map.toJson = some map := by
  unfold RecordMap.schemaValid at valid
  simp only [Bool.and_eq_true] at valid
  obtain ⟨⟨⟨⟨⟨⟨⟨key, externalId⟩, amount⟩, date⟩, description⟩, currency⟩, metadata⟩, unlisted⟩ := valid
  unfold recordMapSchema RecordMap.toJson
  simp only
  rw [member_of (by rfl) (@string_str (· != "") _ key),
    member_of (by rfl) (fieldRefSchema_toJson externalId),
    member_of (by rfl) (fieldRefSchema_toJson amount),
    member_of (by rfl) (a := map.direction) (by cases map.direction <;> rfl),
    optionalMember_of DateRef.toJson map.date
      (by simp [List.lookup_append, List.lookup_cons]) (fun ref some_ => dateRefSchema_toJson (by
        rw [some_] at date
        exact date)),
    optionalMember_of EnrichableFieldRef.toJson map.description
      (by simp [List.lookup_append, List.lookup_cons])
      (fun ref some_ => enrichableFieldRefSchema_toJson (by
        rw [some_] at description
        exact description)),
    optionalMember_of .str map.currency (by simp [List.lookup_append, List.lookup_cons])
      (string_of_all currency),
    withDefault_of (by simp [List.lookup_append, List.lookup_cons]) (metadataSchema_toJson metadata)]
  show (if distinct : (map.metadata.map Prod.fst).Nodup then
    if (sensitiveNameIssues map).isEmpty then some map else none else none) = some map
  rw [dif_pos map.metadataNodup, if_pos unlisted]

/-- The object of a route that the schema accepts is accepted, as that route. -/
theorem routeSchema_toJson {route : RouteConfig} (valid : route.schemaValid) :
    routeSchema route.toJson = some route := by
  unfold RouteConfig.schemaValid at valid
  simp only [Bool.and_eq_true, decide_eq_true_iff] at valid
  obtain ⟨⟨⟨⟨⟨⟨id, source⟩, auth⟩, events⟩, map⟩, positive⟩, bounded⟩ := valid
  unfold routeSchema RouteConfig.toJson
  simp only
  rw [member_of (by rfl) (string_str id), member_of (by rfl) (string_str source),
    member_of (by rfl) (authSchema_toJson auth),
    optionalMember_of textsJson route.events
      (by simp [List.lookup_append, List.lookup_cons]) (fun texts some_ => by
        rw [some_] at events
        rw [nonEmptyArray, array_texts, Option.filter_some]
        exact if_pos events),
    member_of (by simp [List.lookup_append, List.lookup_cons]) (recordMapSchema_toJson map),
    withDefault_of (by simp [List.lookup_append, List.lookup_cons])
      (@positiveInt_ofNat (some (10 * 1024 * 1024)) _ positive (by simpa using bounded))]
  rfl

/-! ## Its text -/

open Json

theorem isDocument_textsJson (texts : List String) : (textsJson texts).isDocument := by
  refine isDocumentItems_iff.mpr fun item member => ?_
  obtain ⟨text, -, rfl⟩ := List.mem_map.mp member
  rfl

theorem isDocumentEntries_append (entries more : List (String × Json)) :
    isDocumentEntries (entries ++ more) = (isDocumentEntries entries && isDocumentEntries more) := by
  induction entries with
  | nil => rfl
  | cons entry entries ih =>
    obtain ⟨key, value⟩ := entry
    rw [List.cons_append, isDocumentEntries, isDocumentEntries, ih, Bool.and_assoc]

theorem isDocumentEntries_optional {α : Type} (key : String) (value : α → Json) (v : Option α)
    (documents : ∀ a, (value a).isDocument) : isDocumentEntries (optionalEntry key value v) := by
  cases v with
  | none => rfl
  | some a =>
    refine isDocumentEntries_iff.mpr fun entry member => ?_
    obtain rfl := List.mem_singleton.mp member
    exact documents a

theorem isDocument_ref (ref : EnrichableFieldRef) : ref.toJson.isDocument := by
  cases ref with
  | path source => rfl
  | object source transform enrich =>
    have transforms := isDocumentEntries_optional "transform" TransformSpec.toJson transform
       fun transform => by
        cases transform with
        | one name => rfl
        | many names => exact isDocument_textsJson _
    have enriches := isDocumentEntries_optional "enrich" .str enrich
      fun _ => rfl
    rw [EnrichableFieldRef.toJson, isDocument, isDocumentEntries, isDocumentEntries_append, transforms, enriches]
    rfl

theorem isDocument_auth (auth : RouteAuth) : auth.toJson.isDocument := by
  cases auth with
  | staticHeader auth =>
    simp only [RouteAuth.toJson, isDocumentEntries, isDocument_textsJson, isDocument, Bool.and_true]
  | hmac auth =>
    have texts : ∀ (key : String) (v : Option String),
        isDocumentEntries (optionalEntry key Json.str v) = true :=
      fun key v => isDocumentEntries_optional key Json.str v fun _ => rfl
    simp only [RouteAuth.toJson, isDocumentEntries_append, texts, isDocumentEntries, isDocument, Bool.and_true]

theorem isDocument_map (map : RecordMap) : map.toJson.isDocument := by
  have date := isDocumentEntries_optional "date" DateRef.toJson map.date
    fun ref => by cases ref <;> rfl
  have description := isDocumentEntries_optional "description" EnrichableFieldRef.toJson map.description
    isDocument_ref
  have currency := isDocumentEntries_optional "currency" .str map.currency
    fun _ => rfl
  have metadata : isDocumentEntries (map.metadata.map fun (key, ref) => (key, ref.toJson)) := by
    refine isDocumentEntries_iff.mpr fun entry member => ?_
    obtain ⟨⟨key, ref⟩, -, rfl⟩ := List.mem_map.mp member
    exact isDocument_ref ref
  simp only [RecordMap.toJson, isDocumentEntries_append, date, description, currency, isDocumentEntries, isDocument,
    isDocument_ref, metadata, Bool.and_true]

theorem isDocument_route (route : RouteConfig) : route.toJson.isDocument := by
  have events := isDocumentEntries_optional "events" textsJson route.events isDocument_textsJson
  simp only [RouteConfig.toJson, isDocumentEntries_append, events, isDocumentEntries, isDocument, isDocument_auth,
    isDocument_map, Bool.and_true]

/-- `JSON.stringify(route)`. -/
def RouteConfig.text (route : RouteConfig) : String := (stringify route.toJson).getD ""

/-- A route reads back from its text. -/
theorem read_text (route : RouteConfig) : Json.read route.text = some route.toJson := by
  obtain ⟨text, spelled, -⟩ := stringify_document (isDocument_route route)
  rw [RouteConfig.text, spelled]
  exact read_stringify (isDocument_route route) spelled

end EndCloseRelay
