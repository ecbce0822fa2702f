import EndCloseRelay.Forward.Allowlist
import EndCloseRelay.Mask.Positions
import Mathlib.Data.List.Nodup

/-!
# How a position of the payload shows in a mapping

What replacing the value at one position does to the fields of a mapping, for
references without `hash`.  Text transforms keep the shape of a value, so a
field that forwards a touched position shows a replacement of another shape;
the id, the amount and the date need a scalar, so `null` in its place stops
the mapping.
-/

namespace EndCloseRelay

open Js

/-! ## Text transforms -/

/-- The value after transforms none of which is `hash`. -/
def textImage (rt : Runtime) : List TransformName → Json → Json
  | [], value => value
  | .trim :: names, value => textImage rt names (applyText trim value)
  | .lowercase :: names, value => textImage rt names (applyText rt.toLowerCase value)
  | .hash :: names, value => textImage rt names value

mutual

/-- A text transform keeps the shape of a value. -/
theorem shape_applyText (f : String → String) (value : Json) :
    (applyText f value).shape = value.shape := by
  cases value with
  | arr items => exact congrArg Json.arr (shapeItems_applyTextItems f items)
  | _ => rfl

theorem shapeItems_applyTextItems (f : String → String) (items : List Json) :
    Json.shapeItems (applyTextItems f items) = Json.shapeItems items := by
  cases items with
  | nil => rfl
  | cons item items =>
    simp only [applyTextItems, Json.shapeItems, shape_applyText f item,
      shapeItems_applyTextItems f items]

end

theorem isObject_applyText (f : String → String) (value : Json) :
    (applyText f value).isObject = value.isObject := by
  cases value <;> rfl

theorem shape_textImage (rt : Runtime) (names : List TransformName) (value : Json) :
    (textImage rt names value).shape = value.shape := by
  induction names generalizing value with
  | nil => rfl
  | cons name names ih =>
    cases name with
    | trim | lowercase => exact (ih _).trans (shape_applyText _ value)
    | hash => exact ih value

theorem isObject_textImage (rt : Runtime) (names : List TransformName) (value : Json) :
    (textImage rt names value).isObject = value.isObject := by
  induction names generalizing value with
  | nil => rfl
  | cons name names ih =>
    cases name with
    | trim | lowercase => exact (ih _).trans (isObject_applyText _ value)
    | hash => exact ih value

/-- A string stays a string. -/
theorem textImage_str (rt : Runtime) (names : List TransformName) (s : String) :
    ∃ s', textImage rt names (.str s) = .str s' := by
  induction names generalizing s with
  | nil => exact ⟨s, rfl⟩
  | cons name names ih =>
    cases name with
    | trim | lowercase => exact ih _
    | hash => exact ih s

theorem textImage_null (rt : Runtime) (names : List TransformName) :
    textImage rt names .null = .null := by
  induction names with
  | nil => rfl
  | cons name names ih => cases name <;> exact ih

/-- Transforms without `hash` take a value to its text image. -/
theorem foldlM_clear (rt : Runtime) (maskingKey : Bytes) {names : List TransformName}
    (clear : .hash ∉ names) (value : Json) :
    names.foldlM (applyTransform rt maskingKey) value = .ok (textImage rt names value) := by
  induction names generalizing value with
  | nil => rfl
  | cons name names ih =>
    rw [List.mem_cons, not_or] at clear
    rw [List.foldlM_cons]
    cases name with
    | trim | lowercase => exact ih clear.2 _
    | hash => exact absurd rfl clear.1

/-- A reference without `hash` is read as the text image of what its path finds. -/
theorem resolve_clear (rt : Runtime) (maskingKey : Bytes) (payload : Json)
    {ref : EnrichableFieldRef} (clear : .hash ∉ refTransforms ref) :
    resolve rt maskingKey payload ref =
      .ok ((getAtPath payload (refSource ref)).map (textImage rt (refTransforms ref))) := by
  unfold resolve
  cases getAtPath payload (refSource ref) with
  | none => rfl
  | some value => simp only [foldlM_clear rt maskingKey clear value, Except.map, Option.map_some]

/-! ## Fields in clear -/

/-- A reference whose value reaches the record as read: neither hashed nor
left to the host. -/
def isClear (ref : EnrichableFieldRef) : Prop :=
  .hash ∉ refTransforms ref ∧ refEnrichment ref = none

instance (ref : EnrichableFieldRef) : Decidable (isClear ref) :=
  inferInstanceAs (Decidable (_ ∧ _))

/-- A field in clear takes the text image of what its path finds. -/
theorem takenValue_clear {rt : Runtime} {maskingKey : Bytes} {payload : Json} {read : Reader}
    {ref : EnrichableFieldRef} (clear : isClear ref)
    (reads : read ref = resolve rt maskingKey payload ref) :
    takenValue read ref =
      (getAtPath payload (refSource ref)).map (textImage rt (refTransforms ref)) := by
  unfold takenValue
  rw [clear.2]
  refine readValue_of_ok ?_
  rw [reads, resolve_clear _ _ _ clear.1]

/-- The shape of a metadata value in clear is that of what its path finds. -/
theorem shape_takenValue {rt : Runtime} {maskingKey : Bytes} {payload : Json} {read : Reader}
    {ref : EnrichableFieldRef} (clear : isClear ref)
    (reads : read ref = resolve rt maskingKey payload ref) :
    ((takenValue read ref).map hardDenyDeep).map Json.shape =
      (getAtPath payload (refSource ref)).map Json.shape := by
  rw [takenValue_clear clear reads]
  cases getAtPath payload (refSource ref) with
  | none => rfl
  | some value => simp only [Option.map_some, Json.shape_hardDenyDeep, shape_textImage]

/-- Only a value of a string's shape makes a description. -/
theorem descriptionText_textImage (rt : Runtime) (names : List TransformName)
    {value : Option Json} (textless : ∀ v, value = some v → v.shape ≠ .str "") :
    descriptionText (value.map (textImage rt names)) = none := by
  rcases value with _ | v
  · rfl
  · have image := textless v rfl
    rw [← shape_textImage rt names] at image
    rw [Option.map_some]
    unfold descriptionText
    split
    · rename_i text same
      rw [Option.some.inj same] at image
      exact absurd rfl image
    · rfl

/-! ## Stages that need a scalar -/

section Scalar

variable {rt : Runtime} {maskingKey : Bytes} {payload : Json} {pos : List Nat} {path : String}

/-- A path that reads a scalar through a position reads nothing, or `null`,
once `null` stands there. -/
theorem getAtPath_setAt_null {value : Json} (there : (payload.at? pos).isSome)
    (touched : Json.touches (pathSegments path) pos payload)
    (read : getAtPath payload path = some value) (scalar : ¬ value.isObject) :
    getAtPath (payload.setAt .null pos) path = none ∨
      getAtPath (payload.setAt .null pos) path = some .null := by
  have plain : "*" ∉ pathSegments path := by
    intro wildcard
    obtain ⟨items, rfl⟩ := Json.getSegments_wildcard wildcard read
    exact scalar rfl
  have above : pos.length ≤ (pathSegments path).length := by
    by_contra below
    exact scalar (Json.isObject_of_touches there touched (by omega) read)
  unfold getAtPath
  rw [Json.getSegments_setAt_of_touches .null there touched plain above]
  cases (pathSegments path).drop pos.length with
  | nil => exact .inr rfl
  | cons head rest => exact .inl rfl

/-- A reference without `hash` that reads a scalar through a position. -/
theorem resolve_setAt_null {ref : EnrichableFieldRef} {value : Json}
    (clear : .hash ∉ refTransforms ref) (there : (payload.at? pos).isSome)
    (touched : Json.touches (pathSegments (refSource ref)) pos payload)
    (read : resolve rt maskingKey payload ref = .ok (some value)) (scalar : ¬ value.isObject) :
    resolve rt maskingKey (payload.setAt .null pos) ref = .ok none ∨
      resolve rt maskingKey (payload.setAt .null pos) ref = .ok (some .null) := by
  rw [resolve_clear _ _ _ clear] at read
  obtain ⟨source, found, image⟩ := Option.map_eq_some_iff.mp (Except.ok.inj read)
  have bare : ¬ source.isObject := by
    rw [← isObject_textImage rt (refTransforms ref), image]
    exact scalar
  rw [resolve_clear _ _ _ clear]
  rcases getAtPath_setAt_null there touched found bare with gone | gone
  · exact .inl (by rw [gone]; rfl)
  · exact .inr (by rw [gone, Option.map_some, textImage_null])

theorem scalar_of_externalIdText {ref : EnrichableFieldRef} {value : Option Json} {text : String}
    (named : externalIdText ref value = .ok text) : ∃ v, value = some v ∧ ¬ v.isObject := by
  unfold externalIdText at named
  split at named
  · exact ⟨_, rfl, nofun⟩
  · exact ⟨_, rfl, nofun⟩
  · cases named

theorem scalar_of_toCents {value : Option Json} {cents : Double}
    (counted : toCents (value.getD .null) = .ok cents) : ∃ v, value = some v ∧ ¬ v.isObject := by
  rcases value with _ | value
  · cases counted
  · cases value with
    | num n | str s => exact ⟨_, rfl, nofun⟩
    | _ => cases counted

theorem scalar_of_parseDate {value : Option Json} {format : DateFormat} {day : String}
    (dated : parseDate rt (value.getD .null) format = .ok day) :
    ∃ v, value = some v ∧ ¬ v.isObject := by
  rcases value with _ | value
  · cases dated
  · cases value with
    | str s => exact ⟨_, rfl, nofun⟩
    | _ => cases dated

end Scalar

section Stops

variable {rt : Runtime} {read : Reader} {readPath : String → Option Json} {route : RouteConfig}
  {receivedAt : String} {record : EndCloseRecord} {pending : List PendingEnrichment}

theorem MapsTo.externalId_not_null
    (mapped : MapsTo rt read readPath route receivedAt record pending) :
    ¬ (read route.map.externalId.ref = .ok none ∨ read route.map.externalId.ref = .ok (some .null)) := by
  have named := mapped.externalId
  unfold RecordMap.externalIdOf at named
  rintro (gone | gone) <;> rw [gone] at named <;> cases named

theorem MapsTo.amount_not_null
    (mapped : MapsTo rt read readPath route receivedAt record pending) :
    ¬ (read route.map.amount.ref = .ok none ∨ read route.map.amount.ref = .ok (some .null)) := by
  have counted := mapped.amount
  unfold RecordMap.amountOf at counted
  rintro (gone | gone) <;> rw [gone] at counted <;> cases counted

theorem MapsTo.date_not_null {ref : DateRef} (dated : route.map.date = some ref)
    (mapped : MapsTo rt read readPath route receivedAt record pending) :
    ¬ (readPath (dateSource ref).1 = none ∨ readPath (dateSource ref).1 = some .null) := by
  have day := mapped.date
  simp only [dated, dateText] at day
  rintro (gone | gone) <;> rw [gone] at day <;> cases day

/-- The external id of a mapping is read from a scalar. -/
theorem MapsTo.externalId_scalar (mapped : MapsTo rt read readPath route receivedAt record pending) :
    ∃ v, read route.map.externalId.ref = .ok (some v) ∧ ¬ v.isObject := by
  have named := mapped.externalId
  unfold RecordMap.externalIdOf at named
  cases reads : read route.map.externalId.ref with
  | error e =>
    rw [reads] at named
    cases named
  | ok value =>
    rw [reads] at named
    obtain ⟨v, rfl, scalar⟩ := scalar_of_externalIdText named
    exact ⟨v, rfl, scalar⟩

/-- The amount of a mapping is read from a scalar. -/
theorem MapsTo.amount_scalar (mapped : MapsTo rt read readPath route receivedAt record pending) :
    ∃ v, read route.map.amount.ref = .ok (some v) ∧ ¬ v.isObject := by
  have counted := mapped.amount
  unfold RecordMap.amountOf at counted
  cases reads : read route.map.amount.ref with
  | error e =>
    rw [reads] at counted
    cases counted
  | ok value =>
    rw [reads] at counted
    obtain ⟨v, rfl, scalar⟩ := scalar_of_toCents counted
    exact ⟨v, rfl, scalar⟩

end Stops

/-! ## Reading one field back from a record -/

/-- Two images of a list with distinct keys are equal only element by element. -/
theorem filterMap_injective {α β κ : Type} {f g : α → Option β} {name : α → κ} {key : β → κ}
    {as : List α} (keyed : ∀ a b, f a = some b → key b = name a)
    (keyed' : ∀ a b, g a = some b → key b = name a) (distinct : (as.map name).Nodup)
    (same : as.filterMap f = as.filterMap g) : ∀ a ∈ as, f a = g a := by
  induction as with
  | nil => exact nofun
  | cons a as ih =>
    rw [List.map_cons, List.nodup_cons] at distinct
    obtain ⟨fresh, distinct⟩ := distinct
    have absent {h : α → Option β} (keyedBy : ∀ a b, h a = some b → key b = name a) {b : β}
        {others : List β} (first : key b = name a) : as.filterMap h ≠ b :: others := by
      intro found
      have member : b ∈ as.filterMap h := found ▸ List.mem_cons_self
      obtain ⟨a', listed, image⟩ := List.mem_filterMap.mp member
      apply fresh
      rw [← first, keyedBy a' b image]
      exact List.mem_map_of_mem listed
    rw [List.filterMap_cons, List.filterMap_cons] at same
    have both : f a = g a ∧ as.filterMap f = as.filterMap g := by
      cases left : f a with
      | none =>
        cases right : g a with
        | none => exact ⟨rfl, by simpa only [left, right] using same⟩
        | some b =>
          simp only [left, right] at same
          exact absurd same (absent keyed (keyed' a b right))
      | some b =>
        cases right : g a with
        | none =>
          simp only [left, right] at same
          exact absurd same.symm (absent keyed' (keyed a b left))
        | some b' =>
          simp only [left, right, List.cons.injEq] at same
          exact ⟨by rw [same.1], same.2⟩
    intro a' member
    rcases List.mem_cons.mp member with rfl | member
    · exact both.1
    · exact ih distinct both.2 a' member

/-- Two readers that make one metadata object read each entry alike. -/
theorem takenValue_of_metadata {read read' : Reader} {map : RecordMap}
    (same : map.metadata.filterMap (metadataMember read) =
      map.metadata.filterMap (metadataMember read'))
    {entry : String × EnrichableFieldRef} (member : entry ∈ map.metadata) :
    (takenValue read entry.2).map hardDenyDeep = (takenValue read' entry.2).map hardDenyDeep := by
  have keyed (reader : Reader) (a : String × EnrichableFieldRef) (b : String × Json)
      (made : metadataMember reader a = some b) : b.1 = a.1 := by
    obtain ⟨value, -, rfl⟩ := Option.map_eq_some_iff.mp made
    rfl
  have members := filterMap_injective (keyed read) (keyed read') map.metadataNodup same entry member
  unfold metadataMember at members
  cases left : takenValue read entry.2 <;> cases right : takenValue read' entry.2 <;>
    simp [left, right] at members ⊢
  exact members

theorem laterFields_nodup (map : RecordMap) : (map.laterFields.map Prod.fst).Nodup := by
  have metadata : (map.metadata.map fun entry => "metadata." ++ entry.1).Nodup := by
    have prefixed : (map.metadata.map fun entry => "metadata." ++ entry.1) =
        (map.metadata.map Prod.fst).map ("metadata." ++ ·) := by
      rw [List.map_map]
      rfl
    rw [prefixed]
    exact List.Nodup.map (fun a b same => (String.append_right_inj _).mp same) map.metadataNodup
  unfold RecordMap.laterFields
  rw [List.map_append, List.map_map, List.map_map, List.nodup_append]
  refine ⟨metadata, ?_, ?_⟩
  · cases map.description <;> simp
  · intro name named other described same
    obtain ⟨entry, -, rfl⟩ := List.mem_map.mp named
    obtain ⟨ref, -, rfl⟩ := List.mem_map.mp described
    simp only [Function.comp_def] at same
    have lists := congrArg String.toList same
    simp at lists

/-- A field left to the host shows the value read. -/
theorem readValue_of_pendingEntry {read read' : Reader} {field : String} {ref : EnrichableFieldRef}
    (enriched : refEnrichment ref ≠ none)
    (same : pendingEntry read field ref = pendingEntry read' field ref) :
    readValue read ref = readValue read' ref := by
  obtain ⟨enrichment, named⟩ := Option.ne_none_iff_exists'.mp enriched
  unfold pendingEntry at same
  simp only [named, Option.bind_eq_bind, Option.bind_some] at same
  cases left : readValue read ref <;> cases right : readValue read' ref <;>
    simp [left, right] at same ⊢
  exact same

/-- Two readers that make one pending list leave each field to the host alike. -/
theorem pendingEntry_of_entries {read read' : Reader} {map : RecordMap}
    (same : map.pendingEntries read = map.pendingEntries read')
    {field : String × EnrichableFieldRef} (member : field ∈ map.laterFields) :
    pendingEntry read field.1 field.2 = pendingEntry read' field.1 field.2 := by
  have keyed (reader : Reader) (a : String × EnrichableFieldRef) (b : PendingEnrichment)
      (made : pendingEntry reader a.1 a.2 = some b) : b.field = a.1 := by
    unfold pendingEntry at made
    obtain ⟨enrichment, -, made⟩ := Option.bind_eq_some_iff.mp made
    obtain ⟨input, -, made⟩ := Option.bind_eq_some_iff.mp made
    rw [← Option.some.inj made]
  let entryOf (reader : Reader) (a : String × EnrichableFieldRef) := pendingEntry reader a.1 a.2
  exact filterMap_injective (f := entryOf read) (g := entryOf read') (keyed read) (keyed read')
    (laterFields_nodup map) same field member

end EndCloseRelay
