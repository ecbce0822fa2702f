import EndCloseRelay.Config.Routes
import EndCloseRelay.Config.Stored

/-!
# Members the schema drops

A plain `z.object` drops a member it does not know, and `.strict()` rejects it.
`Json.Within` says that every member of a document at every depth is found in
another, here in the object of the routes that were read; `reflected_iff` says
which accepted documents are reflected so.
-/

namespace EndCloseRelay

open Js Schema

/-! ## Documents within documents -/

mutual

/-- Every object at every depth has each member once, as objects do. -/
def Json.distinctKeys : Json → Bool
  | .arr items => itemsDistinct items
  | .obj entries => decide (entries.map Prod.fst).Nodup && entriesDistinct entries
  | _ => true

/-- The elements of an array have distinct members. -/
def Json.itemsDistinct : List Json → Bool
  | [] => true
  | item :: items => item.distinctKeys && itemsDistinct items

/-- The members of an object have distinct members. -/
def Json.entriesDistinct : List (String × Json) → Bool
  | [] => true
  | (_, value) :: entries => value.distinctKeys && entriesDistinct entries

end

/-- Every member of the one value, at every depth, is in the other, and the rest is
the same. -/
inductive Json.Within : Json → Json → Prop
  | null : Within .null .null
  | bool (b : Bool) : Within (.bool b) (.bool b)
  | num {n m : Number} (whole : n.toNat?.isSome) (same : n.toNat? = m.toNat?) : Within (.num n) (.num m)
  | str (s : String) : Within (.str s) (.str s)
  | arr {items items' : List Json} (each : List.Forall₂ Within items items') :
      Within (.arr items) (.arr items')
  | obj {entries entries' : List (String × Json)}
      (found : ∀ key value, (key, value) ∈ entries → (entries'.lookup key).isSome)
      (each : ∀ key value value', (key, value) ∈ entries → entries'.lookup key = some value' →
        Within value value') : Within (.obj entries) (.obj entries')

/-- A member of an object. -/
def Json.own (value : Json) (key : String) : Option Json :=
  match value with
  | .obj entries => entries.lookup key
  | _ => none

/-- The names of the members of an object. -/
def Json.keys : Json → List String
  | .obj entries => entries.map Prod.fst
  | _ => []

/-- An object has no members but these. -/
def Json.onlyKeys (keys : List String) : Json → Bool
  | .obj entries => entries.all fun entry => entry.1 ∈ keys
  | _ => true

section

variable {entries target : List (String × Json)} {keys : List String} {key : String} {value : Json}

theorem mem_of_lookup_json (there : entries.lookup key = some value) : (key, value) ∈ entries := by
  obtain ⟨before, after, rfl, -⟩ := List.lookup_eq_some_iff.mp there
  exact List.mem_append_right _ List.mem_cons_self

theorem lookup_of_mem_json (distinct : (entries.map Prod.fst).Nodup) (member : (key, value) ∈ entries) :
    entries.lookup key = some value := by
  induction entries with
  | nil => exact absurd member List.not_mem_nil
  | cons entry entries ih =>
    rw [List.map_cons, List.nodup_cons] at distinct
    rw [List.lookup_cons]
    rcases List.mem_cons.mp member with rfl | behind
    · rw [beq_self_eq_true]
    · have other : (key == entry.1) = false := by
        rw [beq_eq_false_iff_ne]
        rintro rfl
        exact distinct.1 (List.mem_map.mpr ⟨_, behind, rfl⟩)
      rw [other]
      exact ih distinct.2 behind

theorem distinct_of_mem (distinct : Json.entriesDistinct entries) (member : (key, value) ∈ entries) :
    value.distinctKeys := by
  induction entries with
  | nil => exact absurd member List.not_mem_nil
  | cons entry entries ih =>
    rw [Json.entriesDistinct, Bool.and_eq_true] at distinct
    rcases List.mem_cons.mp member with rfl | behind
    · exact distinct.1
    · exact ih distinct.2 behind

/-- The members of an object are distinct, and so are theirs. -/
theorem distinct_obj (distinct : (Json.obj entries).distinctKeys) :
    (entries.map Prod.fst).Nodup ∧
      ∀ key value, entries.lookup key = some value → value.distinctKeys := by
  rw [Json.distinctKeys, Bool.and_eq_true, decide_eq_true_iff] at distinct
  exact ⟨distinct.1, fun _ _ there => distinct_of_mem distinct.2 (mem_of_lookup_json there)⟩

theorem within_obj_iff : (Json.obj entries).Within (.obj target) ↔ ∀ key value, (key, value) ∈ entries →
    ∃ value', target.lookup key = some value' ∧ value.Within value' := by
  constructor
  · intro within key value member
    cases within with
    | obj found each =>
      obtain ⟨value', there⟩ := Option.isSome_iff_exists.mp (found key value member)
      exact ⟨value', there, each key value value' member there⟩
  · intro each
    refine .obj (fun key value member => ?_) fun key value value' member there => ?_
    · obtain ⟨value', there, -⟩ := each key value member
      rw [there]
      rfl
    · obtain ⟨value'', there', within⟩ := each key value member
      rw [there] at there'
      obtain rfl := Option.some.inj there'
      exact within

/-- An object is within another when it has no members but some, and each of these is. -/
theorem within_obj (distinct : (entries.map Prod.fst).Nodup) (only : (Json.obj entries).onlyKeys keys)
    (each : ∀ key ∈ keys, ∀ value, entries.lookup key = some value →
      ∃ value', target.lookup key = some value' ∧ value.Within value') :
    (Json.obj entries).Within (.obj target) := by
  refine within_obj_iff.mpr fun key value member => ?_
  have known := List.all_eq_true.mp only _ member
  exact each key (of_decide_eq_true known) value (lookup_of_mem_json distinct member)

/-- An object within another has no members but those of the other. -/
theorem onlyKeys_of_within {v w : Json} (within : v.Within w) (known : ∀ key ∈ w.keys, key ∈ keys) :
    v.onlyKeys keys := by
  cases within with
  | obj found _ =>
    refine List.all_eq_true.mpr fun entry member => decide_eq_true (known _ ?_)
    obtain ⟨value', there⟩ := Option.isSome_iff_exists.mp (found entry.1 entry.2 member)
    exact List.mem_map.mpr ⟨_, mem_of_lookup_json there, rfl⟩
  | _ => rfl

theorem own_within {v w : Json} (within : v.Within w) (there : v.own key = some value) :
    ∃ value', w.own key = some value' ∧ value.Within value' := by
  cases within with
  | obj found each =>
    have member := mem_of_lookup_json there
    obtain ⟨value', there'⟩ := Option.isSome_iff_exists.mp (found key value member)
    exact ⟨value', there', each key value value' member there'⟩
  | _ => cases there

end

/-! ## Reading and writing back -/

section

variable {α : Type} {entries : List (String × Json)} {key : String} {schema : Json → Option α} {v : Json}

theorem read_of_member {a : α} (read : member entries key schema = some a)
    (there : entries.lookup key = some v) : schema v = some a := by
  rw [member, there] at read
  exact read

theorem read_of_withDefault {fallback a : α} (read : withDefault entries key fallback schema = some a)
    (there : entries.lookup key = some v) : schema v = some a := by
  rw [withDefault, there] at read
  exact read

theorem read_of_optionalMember {o : Option α} (read : optionalMember entries key schema = some o)
    (there : entries.lookup key = some v) : ∃ a, o = some a ∧ schema v = some a := by
  rw [optionalMember, there] at read
  obtain ⟨a, read, same⟩ := Option.map_eq_some_iff.mp read
  exact ⟨a, same.symm, read⟩

theorem within_string {ok : String → Bool} {s : String} (read : Schema.string ok v = some s) :
    v.Within (.str s) := by
  cases v with
  | str t =>
    obtain ⟨-, same⟩ := Option.ite_none_right_eq_some.mp read
    obtain rfl := Option.some.inj same
    exact .str t
  | _ => cases read

theorem within_oneOf {table : List (String × α)} (text : α → String) {a : α}
    (texts : ∀ entry ∈ table, entry.1 = text entry.2) (read : oneOf table v = some a) :
    v.Within (.str (text a)) := by
  cases v with
  | str s =>
    obtain ⟨before, after, rfl, -⟩ := List.lookup_eq_some_iff.mp read
    rw [← texts (s, a) (List.mem_append_right _ List.mem_cons_self)]
    exact .str s
  | _ => cases read

theorem within_positiveInt {max : Option Nat} {n : Nat} (read : positiveInt max v = some n) :
    v.Within (.num (.ofNat n)) := by
  cases v with
  | num m =>
    have value := (Option.filter_eq_some_iff.mp read).1
    exact .num (by rw [value]; rfl) (by rw [value, Number.toNat?_ofNat])
  | _ => cases read

theorem forall₂_of_mapM {β : Type} {f : α → Option β} {as : List α} {bs : List β}
    (all : as.mapM f = some bs) : List.Forall₂ (fun a b => f a = some b) as bs := by
  induction as generalizing bs with
  | nil =>
    obtain rfl := Option.some.inj all
    exact .nil
  | cons a as ih =>
    rw [List.mapM_cons] at all
    obtain ⟨first, found, all⟩ := Option.bind_eq_some_iff.mp all
    obtain ⟨rest, others, all⟩ := Option.bind_eq_some_iff.mp all
    obtain rfl := Option.some.inj all
    exact .cons found (ih others)

theorem within_array {toJson : α → Json} {as : List α}
    (each : ∀ item a, schema item = some a → item.Within (toJson a))
    (read : array schema v = some as) : v.Within (.arr (as.map toJson)) := by
  cases v with
  | arr items =>
    refine .arr (List.forall₂_map_right_iff.mpr ?_)
    exact (forall₂_of_mapM read).imp each
  | _ => cases read

theorem within_nonEmptyArray {toJson : α → Json} {as : List α}
    (each : ∀ item a, schema item = some a → item.Within (toJson a))
    (read : nonEmptyArray schema v = some as) : v.Within (.arr (as.map toJson)) :=
  within_array each (Option.filter_eq_some_iff.mp read).1

end

theorem within_transformName {v : Json} {name : TransformName} (read : transformNameSchema v = some name) :
    v.Within (.str name.text) :=
  within_oneOf TransformName.text (by decide) read

theorem within_transform {v : Json} {transform : TransformSpec} (read : transformSchema v = some transform) :
    v.Within transform.toJson := by
  unfold transformSchema at read
  rcases Option.or_eq_some_iff.mp read with one | ⟨-, many⟩
  · obtain ⟨name, inner, rfl⟩ := Option.map_eq_some_iff.mp one
    exact within_transformName inner
  · obtain ⟨names, inner, rfl⟩ := Option.map_eq_some_iff.mp many
    have each : ∀ (item : Json) (name : TransformName), transformNameSchema item = some name →
        item.Within (.str name.text) := fun _ _ => within_transformName
    have items := within_nonEmptyArray each inner
    rw [TransformSpec.toJson, textsJson, List.map_map]
    exact items

/-- A field reference that is read is reflected: its object is strict. -/
theorem within_ref {members : List String} {v : Json} {ref : EnrichableFieldRef}
    (known : ∀ key ∈ members, key ∈ ["source", "transform", "enrich"]) (distinct : v.distinctKeys)
    (read : refSchema members v = some ref) : v.Within ref.toJson := by
  cases v with
  | str s =>
    obtain ⟨path, text, rfl⟩ := Option.map_eq_some_iff.mp read
    exact within_string text
  | obj entries =>
    obtain ⟨_, strict_, read⟩ := Option.bind_eq_some_iff.mp read
    obtain ⟨source, path, read⟩ := Option.bind_eq_some_iff.mp read
    obtain ⟨transform, transforms, read⟩ := Option.bind_eq_some_iff.mp read
    obtain ⟨enrich, enriched, read⟩ := Option.bind_eq_some_iff.mp read
    obtain rfl := Option.some.inj read
    have only : (Json.obj entries).onlyKeys ["source", "transform", "enrich"] := by
      have all := (Option.ite_none_right_eq_some.mp strict_).1
      refine List.all_eq_true.mpr fun entry member => decide_eq_true (known _ ?_)
      exact of_decide_eq_true (List.all_eq_true.mp all entry member)
    refine within_obj (distinct_obj distinct).1 only fun key member value there => ?_
    simp only [List.mem_cons, List.not_mem_nil, or_false] at member
    rcases member with rfl | rfl | rfl
    · exact ⟨_, by simp, within_string (read_of_member path there)⟩
    · obtain ⟨spec, rfl, inner⟩ := read_of_optionalMember transforms there
      exact ⟨_, by simp [List.lookup_append, List.lookup_cons], within_transform inner⟩
    · obtain ⟨name, rfl, inner⟩ := read_of_optionalMember enriched there
      exact ⟨_, by simp [List.lookup_append, List.lookup_cons], within_string inner⟩
  | _ => cases read

theorem within_fieldRef {v : Json} {ref : FieldRef} (distinct : v.distinctKeys)
    (read : fieldRefSchema v = some ref) : Json.Within v (EnrichableFieldRef.toJson ref.ref) := by
  obtain ⟨found, inner, read⟩ := Option.bind_eq_some_iff.mp read
  split at read
  · obtain rfl := Option.some.inj read
    exact within_ref (by decide) distinct inner
  · cases read

/-! ## Strays -/

/-- The members `routeSchema` knows. -/
def routeKeys : List String := ["id", "source", "auth", "events", "map", "max_body_bytes"]

/-- The members the schema of an `auth` block knows, by its mode. -/
def authKeys (auth : Json) : List String :=
  match auth.own "mode" with
  | some (.str "hmac") => ["mode", "header", "algorithm", "secret_env", "signed_content",
      "timestamp_header", "tolerance_seconds", "event_id", "event_type"]
  | _ => ["mode", "header", "secret_env", "allowed_ips"]

theorem authKeys_static {auth : Json} (mode : auth.own "mode" = some (.str "static_header")) :
    authKeys auth = ["mode", "header", "secret_env", "allowed_ips"] := by
  unfold authKeys
  rw [mode]
  rfl

theorem authKeys_hmac {auth : Json} (mode : auth.own "mode" = some (.str "hmac")) :
    authKeys auth = ["mode", "header", "algorithm", "secret_env", "signed_content",
      "timestamp_header", "tolerance_seconds", "event_id", "event_type"] := by
  unfold authKeys
  rw [mode]
  rfl

/-- The members `recordMapSchema` knows. -/
def mapKeys : List String :=
  ["data_stream_key", "external_id", "amount", "direction", "date", "description", "currency", "metadata"]

/-- The members `dateRefSchema` knows. -/
def dateKeys : List String := ["source", "format"]

/-- A route of a document has no members the schema does not know, nor have its
`auth` block, its `map` block and the date reference in it. -/
def strayFree (route : Json) : Bool :=
  route.onlyKeys routeKeys &&
    (route.own "auth").all (fun auth => auth.onlyKeys (authKeys auth)) &&
    (route.own "map").all fun map =>
      map.onlyKeys mapKeys && (map.own "date").all fun date => date.onlyKeys dateKeys

/-- The routes of a document. -/
def documentRoutes (doc : Json) : List Json :=
  match doc.own "routes" with
  | some (.arr routes) => routes
  | _ => []

/-- The document of parsed routes. -/
def routesJson (routes : List RouteConfig) : Json := .obj [("routes", .arr (routes.map RouteConfig.toJson))]

theorem within_date {v : Json} {ref : DateRef} (distinct : v.distinctKeys) (only : v.onlyKeys dateKeys)
    (read : dateRefSchema v = some ref) : v.Within ref.toJson := by
  cases v with
  | str s =>
    obtain ⟨path, text, rfl⟩ := Option.map_eq_some_iff.mp read
    exact within_string text
  | obj entries =>
    obtain ⟨source, path, read⟩ := Option.bind_eq_some_iff.mp read
    obtain ⟨format, formatted, read⟩ := Option.bind_eq_some_iff.mp read
    obtain rfl := Option.some.inj read
    refine within_obj (distinct_obj distinct).1 only fun key member value there => ?_
    simp only [dateKeys, List.mem_cons, List.not_mem_nil, or_false] at member
    rcases member with rfl | rfl
    · exact ⟨_, rfl, within_string (read_of_member path there)⟩
    · exact ⟨_, rfl, within_oneOf DateFormat.text (by decide)
        (read_of_withDefault formatted there)⟩
  | _ => cases read

theorem within_texts {v : Json} {texts : List String} (read : array anyString v = some texts) :
    v.Within (textsJson texts) :=
  within_array (fun _ _ => within_string) read

theorem within_auth {v : Json} {auth : RouteAuth} (distinct : v.distinctKeys)
    (only : v.onlyKeys (authKeys v)) (read : authSchema v = some auth) : v.Within auth.toJson := by
  cases v with
  | obj entries =>
    have nodup := (distinct_obj distinct).1
    unfold authSchema at read
    simp only at read
    split at read
    · rename_i mode
      obtain ⟨payabli, whole, rfl⟩ := Option.map_eq_some_iff.mp read
      clear read
      obtain ⟨header, named, read⟩ := Option.bind_eq_some_iff.mp whole
      obtain ⟨secretEnv, secret, read⟩ := Option.bind_eq_some_iff.mp read
      obtain ⟨allowedIps, ips, read⟩ := Option.bind_eq_some_iff.mp read
      obtain rfl := Option.some.inj read
      rw [@authKeys_static (.obj entries) mode] at only
      refine within_obj nodup only fun key member value there => ?_
      simp only [List.mem_cons, List.not_mem_nil, or_false] at member
      rcases member with rfl | rfl | rfl | rfl
      · rw [mode] at there
        obtain rfl := Option.some.inj there
        exact ⟨_, rfl, .str _⟩
      · exact ⟨_, rfl, within_string (read_of_withDefault named there)⟩
      · exact ⟨_, rfl, within_string (read_of_member secret there)⟩
      · exact ⟨_, rfl, within_texts (read_of_withDefault ips there)⟩
    · rename_i mode
      obtain ⟨hmac, whole, rfl⟩ := Option.map_eq_some_iff.mp read
      clear read
      obtain ⟨header, named, read⟩ := Option.bind_eq_some_iff.mp whole
      obtain ⟨algorithm, digest, read⟩ := Option.bind_eq_some_iff.mp read
      obtain ⟨secretEnv, secret, read⟩ := Option.bind_eq_some_iff.mp read
      obtain ⟨signedContent, signed, read⟩ := Option.bind_eq_some_iff.mp read
      obtain ⟨timestampHeader, stamped, read⟩ := Option.bind_eq_some_iff.mp read
      obtain ⟨toleranceSeconds, tolerance, read⟩ := Option.bind_eq_some_iff.mp read
      obtain ⟨eventId, idPath, read⟩ := Option.bind_eq_some_iff.mp read
      obtain ⟨eventType, typePath, read⟩ := Option.bind_eq_some_iff.mp read
      obtain rfl := Option.some.inj read
      rw [@authKeys_hmac (.obj entries) mode] at only
      refine within_obj nodup only fun key member value there => ?_
      simp only [List.mem_cons, List.not_mem_nil, or_false] at member
      rcases member with rfl | rfl | rfl | rfl | rfl | rfl | rfl | rfl | rfl
      · rw [mode] at there
        obtain rfl := Option.some.inj there
        exact ⟨_, rfl, .str _⟩
      · exact ⟨_, rfl, within_string (read_of_member named there)⟩
      · exact ⟨_, rfl, within_oneOf HmacAlgorithm.text (by decide)
          (read_of_withDefault digest there)⟩
      · exact ⟨_, rfl, within_string (read_of_member secret there)⟩
      · exact ⟨_, rfl, within_oneOf SignedContent.text (by decide)
          (read_of_withDefault signed there)⟩
      · obtain ⟨s, rfl, reads⟩ := read_of_optionalMember stamped there
        exact ⟨_, by simp [List.lookup_append, List.lookup_cons], within_string reads⟩
      · exact ⟨_, by simp [List.lookup_append, List.lookup_cons],
          within_positiveInt (read_of_withDefault tolerance there)⟩
      · obtain ⟨s, rfl, reads⟩ := read_of_optionalMember idPath there
        exact ⟨_, by simp [List.lookup_append, List.lookup_cons], within_string reads⟩
      · obtain ⟨s, rfl, reads⟩ := read_of_optionalMember typePath there
        exact ⟨_, by simp [List.lookup_append, List.lookup_cons], within_string reads⟩
    · cases read
  | _ => cases read

theorem within_metadata {v : Json} {metadata : List (String × EnrichableFieldRef)}
    (distinct : v.distinctKeys) (read : metadataSchema v = some metadata) :
    v.Within (.obj (metadata.map fun (key, ref) => (key, ref.toJson))) := by
  cases v with
  | obj entries =>
    obtain ⟨nodup, inner⟩ := distinct_obj distinct
    have pairs := forall₂_of_mapM read
    refine within_obj_iff.mpr fun key value member => ?_
    have there := lookup_of_mem_json nodup member
    have distinct' := inner key value there
    clear read distinct inner nodup member
    induction pairs with
    | nil => cases there
    | @cons entry kept entries metadata found rest ih =>
      obtain ⟨name, named, found⟩ := Option.bind_eq_some_iff.mp found
      obtain ⟨ref, reads, found⟩ := Option.bind_eq_some_iff.mp found
      obtain rfl := Option.some.inj found
      have same : name = entry.1 := by
        obtain ⟨-, same⟩ := Option.ite_none_right_eq_some.mp named
        exact (Option.some.inj same).symm
      subst same
      rw [List.lookup_cons] at there
      rw [List.map_cons, List.lookup_cons]
      cases here : key == entry.1 with
      | true =>
        rw [here] at there
        obtain rfl := Option.some.inj there
        exact ⟨_, rfl, within_ref (by decide) distinct' reads⟩
      | false =>
        rw [here] at there
        exact ih there
  | _ => cases read

theorem within_map {v : Json} {map : RecordMap} (distinct : v.distinctKeys) (only : v.onlyKeys mapKeys)
    (dateOnly : (v.own "date").all fun date => date.onlyKeys dateKeys) (read : recordMapSchema v = some map) :
    v.Within map.toJson := by
  cases v with
  | obj entries =>
    obtain ⟨nodup, inner⟩ := distinct_obj distinct
    obtain ⟨dataStreamKey, key, read⟩ := Option.bind_eq_some_iff.mp read
    obtain ⟨externalId, external, read⟩ := Option.bind_eq_some_iff.mp read
    obtain ⟨amount, sum, read⟩ := Option.bind_eq_some_iff.mp read
    obtain ⟨direction, directed, read⟩ := Option.bind_eq_some_iff.mp read
    obtain ⟨date, dated, read⟩ := Option.bind_eq_some_iff.mp read
    obtain ⟨description, described, read⟩ := Option.bind_eq_some_iff.mp read
    obtain ⟨currency, coined, read⟩ := Option.bind_eq_some_iff.mp read
    obtain ⟨metadata, extra, read⟩ := Option.bind_eq_some_iff.mp read
    split at read
    · extract_lets found at read
      split at read
      · obtain rfl := Option.some.inj read
        refine within_obj nodup only fun name member value there => ?_
        have distinct' := inner name value there
        simp only [mapKeys, List.mem_cons, List.not_mem_nil, or_false] at member
        rcases member with rfl | rfl | rfl | rfl | rfl | rfl | rfl | rfl
        · exact ⟨_, rfl, within_string (read_of_member key there)⟩
        · exact ⟨_, rfl, within_fieldRef distinct' (read_of_member external there)⟩
        · exact ⟨_, rfl, within_fieldRef distinct' (read_of_member sum there)⟩
        · exact ⟨_, rfl, within_oneOf Direction.text (by decide) (read_of_member directed there)⟩
        · obtain ⟨ref, rfl, reads⟩ := read_of_optionalMember dated there
          rw [Json.own, there] at dateOnly
          exact ⟨_, by simp [found, List.lookup_append, List.lookup_cons], within_date distinct' dateOnly reads⟩
        · obtain ⟨ref, rfl, reads⟩ := read_of_optionalMember described there
          exact ⟨_, by simp [found, List.lookup_append, List.lookup_cons],
            within_ref (by decide) distinct' reads⟩
        · obtain ⟨code, rfl, reads⟩ := read_of_optionalMember coined there
          exact ⟨_, by simp [found, List.lookup_append, List.lookup_cons], within_string reads⟩
        · exact ⟨_, by simp [found, List.lookup_append, List.lookup_cons],
            within_metadata distinct' (read_of_withDefault extra there)⟩
      · cases read
    · cases read
  | _ => cases read

/-- A route without strays is reflected in what is read of it. -/
theorem within_route {v : Json} {route : RouteConfig} (distinct : v.distinctKeys) (free : strayFree v)
    (read : routeSchema v = some route) : v.Within route.toJson := by
  cases v with
  | obj entries =>
    obtain ⟨nodup, inner⟩ := distinct_obj distinct
    rw [strayFree, Bool.and_eq_true, Bool.and_eq_true] at free
    obtain ⟨⟨only, authOnly⟩, mapOnly⟩ := free
    obtain ⟨id, named, read⟩ := Option.bind_eq_some_iff.mp read
    obtain ⟨source, sourced, read⟩ := Option.bind_eq_some_iff.mp read
    obtain ⟨auth, authed, read⟩ := Option.bind_eq_some_iff.mp read
    obtain ⟨events, filtered, read⟩ := Option.bind_eq_some_iff.mp read
    obtain ⟨map, mapped, read⟩ := Option.bind_eq_some_iff.mp read
    obtain ⟨maxBodyBytes, sized, read⟩ := Option.bind_eq_some_iff.mp read
    obtain rfl := Option.some.inj read
    refine within_obj nodup only fun name member value there => ?_
    have distinct' := inner name value there
    simp only [routeKeys, List.mem_cons, List.not_mem_nil, or_false] at member
    rcases member with rfl | rfl | rfl | rfl | rfl | rfl
    · exact ⟨_, rfl, within_string (read_of_member named there)⟩
    · exact ⟨_, rfl, within_string (read_of_member sourced there)⟩
    · rw [Json.own, there] at authOnly
      exact ⟨_, rfl, within_auth distinct' authOnly (read_of_member authed there)⟩
    · obtain ⟨patterns, rfl, reads⟩ := read_of_optionalMember filtered there
      exact ⟨textsJson patterns, by simp [List.lookup_append, List.lookup_cons],
        within_texts (Option.filter_eq_some_iff.mp reads).1⟩
    · rw [Json.own, there, Option.all_some, Bool.and_eq_true] at mapOnly
      exact ⟨_, by simp [List.lookup_append, List.lookup_cons],
        within_map distinct' mapOnly.1 mapOnly.2 (read_of_member mapped there)⟩
    · exact ⟨_, by simp [List.lookup_append, List.lookup_cons],
        within_positiveInt (read_of_withDefault sized there)⟩
  | _ => cases read

/-! ## Which documents are reflected -/

theorem mem_optionalEntry {α : Type} {key key' : String} {value : α → Json} {v : Option α}
    (member : key' ∈ (optionalEntry key value v).map Prod.fst) : key' = key := by
  cases v with
  | none => exact absurd member List.not_mem_nil
  | some a => exact List.mem_singleton.mp member

theorem keys_date (ref : DateRef) : ∀ key ∈ ref.toJson.keys, key ∈ dateKeys := by
  cases ref with
  | path source => exact fun key member => absurd member List.not_mem_nil
  | object source format => exact fun key member => member

theorem keys_map (map : RecordMap) : ∀ key ∈ map.toJson.keys, key ∈ mapKeys := by
  intro key member
  simp only [RecordMap.toJson, Json.keys, List.map_append, List.mem_append] at member
  rcases member with (((member | member) | member) | member) | member
  · exact List.mem_append_left ["date", "description", "currency", "metadata"] member
  all_goals
    first
    | rw [mem_optionalEntry member]; decide
    | exact List.mem_append_right ["data_stream_key", "external_id", "amount", "direction", "date",
        "description", "currency"] member

theorem keys_route (route : RouteConfig) : ∀ key ∈ route.toJson.keys, key ∈ routeKeys := by
  intro key member
  simp only [RouteConfig.toJson, Json.keys, List.map_append, List.mem_append] at member
  rcases member with (member | member) | member
  · exact List.mem_append_left ["events", "map", "max_body_bytes"] member
  · rw [mem_optionalEntry member]
    decide
  · exact List.mem_append_right ["id", "source", "auth", "events"] member

/-- The members of a parsed `auth` block are those of the block it was read from. -/
theorem keys_auth {v : Json} {auth : RouteAuth} (read : authSchema v = some auth) :
    ∀ key ∈ auth.toJson.keys, key ∈ authKeys v := by
  cases v with
  | obj entries =>
    unfold authSchema at read
    simp only at read
    split at read
    · rename_i mode
      obtain ⟨payabli, -, rfl⟩ := Option.map_eq_some_iff.mp read
      rw [@authKeys_static (.obj entries) mode]
      exact fun key member => member
    · rename_i mode
      obtain ⟨hmac, -, rfl⟩ := Option.map_eq_some_iff.mp read
      rw [@authKeys_hmac (.obj entries) mode]
      intro key member
      simp only [RouteAuth.toJson, Json.keys, List.map_append, List.mem_append] at member
      rcases member with (((member | member) | member) | member) | member
      · exact List.mem_append_left ["timestamp_header", "tolerance_seconds", "event_id", "event_type"] member
      all_goals
        first
        | rw [mem_optionalEntry member]; decide
        | rw [List.mem_singleton.mp member]; show "tolerance_seconds" ∈ _; decide
    · cases read
  | _ => cases read

/-- What is reflected in a route that was read of it has no strays. -/
theorem strayFree_of_within {v : Json} {route : RouteConfig} (read : routeSchema v = some route)
    (within : v.Within route.toJson) : strayFree v := by
  have whole := onlyKeys_of_within within (keys_route route)
  cases v with
  | obj entries =>
    obtain ⟨id, -, read⟩ := Option.bind_eq_some_iff.mp read
    obtain ⟨source, -, read⟩ := Option.bind_eq_some_iff.mp read
    obtain ⟨auth, authed, read⟩ := Option.bind_eq_some_iff.mp read
    obtain ⟨events, -, read⟩ := Option.bind_eq_some_iff.mp read
    obtain ⟨map, -, read⟩ := Option.bind_eq_some_iff.mp read
    obtain ⟨maxBodyBytes, -, read⟩ := Option.bind_eq_some_iff.mp read
    obtain rfl := Option.some.inj read
    rw [strayFree, Bool.and_eq_true, Bool.and_eq_true, Option.all_eq_true, Option.all_eq_true]
    refine ⟨⟨whole, fun v there => ?_⟩, fun v there => ?_⟩
    · obtain ⟨value, found, inner⟩ := own_within within there
      obtain rfl : auth.toJson = value := Option.some.inj found
      exact onlyKeys_of_within inner (keys_auth (read_of_member authed there))
    · obtain ⟨value, found, inner⟩ := own_within within there
      have same : map.toJson = value := by
        simpa [RouteConfig.toJson, Json.own, List.lookup_append, List.lookup_cons] using found
      subst same
      rw [Bool.and_eq_true, Option.all_eq_true]
      refine ⟨onlyKeys_of_within inner (keys_map map), fun date dated => ?_⟩
      obtain ⟨value, found, inner⟩ := own_within inner dated
      have some_ : map.date.map DateRef.toJson = some value := by
        simpa [RecordMap.toJson, Json.own, List.lookup_append, List.lookup_cons] using found
      obtain ⟨ref, -, rfl⟩ := Option.map_eq_some_iff.mp some_
      exact onlyKeys_of_within inner (keys_date ref)
  | _ => cases read

theorem exists_of_forall₂ {α β : Type} {R S : α → β → Prop} {as : List α} {bs : List β}
    (first : List.Forall₂ R as bs) (second : List.Forall₂ S as bs) : ∀ a ∈ as, ∃ b, R a b ∧ S a b := by
  induction first with
  | nil => exact fun a member => absurd member List.not_mem_nil
  | cons here _ ih =>
    obtain ⟨here', rest⟩ := List.forall₂_cons.mp second
    intro a member
    rcases List.mem_cons.mp member with rfl | behind
    · exact ⟨_, here, here'⟩
    · exact ih rest a behind

/-- Every member of an accepted document, at every depth, is reflected in the routes
that were read, exactly when no route of it has a member the schema does not know,
nor has its `auth` block, its `map` block or its date reference. -/
theorem reflected_iff {doc : Json} {opts : ParseRoutesOptions} {routes : List RouteConfig}
    (distinct : doc.distinctKeys) (parsed : parseRoutes doc opts = .ok routes) :
    doc.Within (routesJson routes) ↔ ∀ route ∈ documentRoutes doc, strayFree route := by
  have accepted := (checks_of_parseRoutes parsed).1
  cases doc with
  | obj entries =>
    obtain ⟨_, strict_, whole⟩ := Option.bind_eq_some_iff.mp accepted
    obtain ⟨v, there, filled⟩ := Option.bind_eq_some_iff.mp whole
    have list := (Option.filter_eq_some_iff.mp filled).1
    obtain ⟨nodup, inner⟩ := distinct_obj distinct
    cases v with
    | arr items =>
      have reads := forall₂_of_mapM list
      have items_ : documentRoutes (.obj entries) = items := by
        unfold documentRoutes Json.own
        simp only [there]
      rw [items_]
      constructor
      · intro within
        obtain ⟨value, found, whole⟩ := own_within within there
        obtain rfl : Json.arr (routes.map RouteConfig.toJson) = value := Option.some.inj found
        cases whole with
        | arr each =>
          intro item member
          obtain ⟨route, read, within⟩ :=
            exists_of_forall₂ reads (List.forall₂_map_right_iff.mp each) item member
          exact strayFree_of_within read within
      · intro free
        have only : (Json.obj entries).onlyKeys ["routes"] := by
          have all := (Option.ite_none_right_eq_some.mp strict_).1
          exact all
        refine within_obj nodup only fun key member value there' => ?_
        obtain rfl := List.mem_singleton.mp member
        rw [there] at there'
        obtain rfl := Option.some.inj there'
        refine ⟨_, rfl, .arr (List.forall₂_map_right_iff.mpr ?_)⟩
        have distinct' := inner "routes" _ there
        rw [Json.distinctKeys] at distinct'
        clear list there there' accepted parsed items_ inner strict_ only distinct filled whole
        induction reads with
        | nil => exact .nil
        | @cons item route items routes read _ ih =>
          rw [Json.itemsDistinct, Bool.and_eq_true] at distinct'
          exact .cons (within_route distinct'.1 (free item List.mem_cons_self) read)
            (ih (fun route member => free route (List.mem_cons_of_mem _ member)) distinct'.2)
    | _ => cases list
  | _ => cases accepted

/-- A document of two sources, with an enrichment, is reflected. -/
theorem reflected_iff_mixed : ∃ routes,
    parseRoutes (mixedDocument "generic_hmac" lookedUp) ⟨none, some ["customer_name"]⟩ = .ok routes ∧
      (mixedDocument "generic_hmac" lookedUp).Within (routesJson routes) := by
  obtain ⟨routes, parsed⟩ : ∃ routes, parseRoutes (mixedDocument "generic_hmac" lookedUp)
    ⟨none, some ["customer_name"]⟩ = .ok routes := ⟨_, rfl⟩
  exact ⟨routes, parsed, (reflected_iff (by decide) parsed).mpr (by decide)⟩

/-- A document whose route has these members besides those it needs. -/
def strayDocument (strays : List (String × Json)) : Json :=
  .obj [("routes", .arr [.obj ([
    ("id", .str "payments"), ("source", .str "payabli"),
    ("auth", .obj [("mode", .str "static_header"), ("secret_env", .str "PAYABLI_SECRET")]),
    ("map", .obj [("data_stream_key", .str "payments"), ("external_id", .str "id"),
      ("amount", .str "amount"), ("direction", .str "credit")])] ++ strays)])]

/-- A misspelt event filter is accepted, and the route has no filter. -/
theorem stray_accepted : ∃ routes,
    parseRoutes (strayDocument [("event", .arr [.str "TransferFunded"])]) {} = .ok routes ∧
    (∀ route ∈ routes, route.events = none) ∧
    ¬ (strayDocument [("event", .arr [.str "TransferFunded"])]).Within (routesJson routes) := by
  have accepted : ∃ routes,
      parseRoutes (strayDocument [("event", .arr [.str "TransferFunded"])]) {} = .ok routes ∧
        ∀ route ∈ routes, route.events = none :=
    ⟨_, rfl, fun route member => by rw [List.mem_singleton.mp member]⟩
  obtain ⟨routes, parsed, unfiltered⟩ := accepted
  refine ⟨routes, parsed, unfiltered, fun within => ?_⟩
  have listed : ∃ v, (strayDocument [("event", .arr [.str "TransferFunded"])]).own "routes" = some v :=
    ⟨_, rfl⟩
  obtain ⟨listed, there⟩ := listed
  obtain ⟨value, found, whole⟩ := own_within within there
  obtain rfl := Option.some.inj there
  obtain rfl : Json.arr (routes.map RouteConfig.toJson) = value := Option.some.inj found
  cases whole with
  | arr each =>
    obtain ⟨route, -, within, -⟩ := List.forall₂_cons_left_iff.mp (List.forall₂_map_right_iff.mp each)
    have only := onlyKeys_of_within within (keys_route route)
    exact absurd only (by decide)

end EndCloseRelay
