import EndCloseRelay.Forward.Exposure

/-!
# Sensitive-named members of a payload

`recordMapSchema.superRefine` refuses a metadata entry whose output name or
last path segment is sensitive.  What a payload's own sensitive-named members
can do to a record depends on every field of the map and on the payload: this
module says exactly which members show in clear.
-/

namespace EndCloseRelay

open Js

/-- References read of `payload'`, the hashed ones of `payload`: how a change
shows otherwise than through a hash. -/
def clearReader (rt : Runtime) (maskingKey : Bytes) (payload payload' : Json) : Reader := fun ref =>
  if .hash ∈ refTransforms ref then resolve rt maskingKey payload ref
  else resolve rt maskingKey payload' ref

/-- `mapEvent`'s record for `payload'`, hashed fields frozen as `payload` has them. -/
def clearRecord (rt : Runtime) (maskingKey : Bytes) (route : RouteConfig)
    (payload payload' : Json) (receivedAt : String) : Except RelayError EndCloseRecord :=
  (fun m => m.record) <$> mapEventWith rt (clearReader rt maskingKey payload payload')
    (getAtPath payload') (leafPaths payload' "") route receivedAt

/-- A field of a map shows the value at a position in clear: the id, the amount
or the date is read through it, a metadata value is read through it or contains
it, or the description is read through it without a wildcard. -/
inductive ShowsInClear (map : RecordMap) (payload : Json) (pos : List Nat) : Prop
  | externalId (clear : .hash ∉ refTransforms map.externalId.ref)
      (touched : Json.touches (pathSegments (refSource map.externalId.ref)) pos payload)
  | amount (clear : .hash ∉ refTransforms map.amount.ref)
      (touched : Json.touches (pathSegments (refSource map.amount.ref)) pos payload)
  | date {ref : DateRef} (dated : map.date = some ref)
      (touched : Json.touches (pathSegments (dateSource ref).1) pos payload)
  | metadata {entry : String × EnrichableFieldRef} (member : entry ∈ map.metadata)
      (clear : isClear entry.2)
      (touched : Json.touches (pathSegments (refSource entry.2)) pos payload)
  | description {ref : EnrichableFieldRef} (described : map.description = some ref)
      (clear : isClear ref) (plain : "*" ∉ pathSegments (refSource ref))
      (above : pos.length ≤ (pathSegments (refSource ref)).length)
      (touched : Json.touches (pathSegments (refSource ref)) pos payload)

section ClearReader

variable {rt : Runtime} {maskingKey : Bytes} {route : RouteConfig} {payload payload' : Json}
  {pos : List Nat} {receivedAt : String}

theorem clearReader_hashed {ref : EnrichableFieldRef} (hashed : .hash ∈ refTransforms ref) :
    clearReader rt maskingKey payload payload' ref = resolve rt maskingKey payload ref :=
  if_pos hashed

theorem clearReader_clear {ref : EnrichableFieldRef} (clear : .hash ∉ refTransforms ref) :
    clearReader rt maskingKey payload payload' ref = resolve rt maskingKey payload' ref :=
  if_neg clear

variable (rt maskingKey) in
/-- A reference that does not show a position reads the same after a replacement there. -/
theorem clearReader_untouched {ref : EnrichableFieldRef} (w : Json)
    (there : (payload.at? pos).isSome)
    (untouched : .hash ∉ refTransforms ref →
      ¬ Json.touches (pathSegments (refSource ref)) pos payload) :
    clearReader rt maskingKey payload (payload.setAt w pos) ref =
      resolve rt maskingKey payload ref := by
  by_cases hashed : .hash ∈ refTransforms ref
  · exact clearReader_hashed hashed
  · rw [clearReader_clear hashed]
    exact resolve_congr _ _ (Json.getSegments_setAt_of_not_touches w there (untouched hashed))

/-- A mapping with frozen hashes returns a record exactly when its values make it. -/
theorem clearRecord_ok_iff {record : EndCloseRecord} :
    clearRecord rt maskingKey route payload payload' receivedAt = .ok record ↔
      ∃ pending, MapsTo rt (clearReader rt maskingKey payload payload') (getAtPath payload') route
        receivedAt record pending := by
  unfold clearRecord
  constructor
  · intro returns
    cases whole : mapEventWith rt (clearReader rt maskingKey payload payload') (getAtPath payload')
        (leafPaths payload' "") route receivedAt with
    | error e =>
      rw [whole] at returns
      cases returns
    | ok m =>
      rw [whole] at returns
      obtain rfl : m.record = record := Except.ok.inj returns
      exact ⟨m.pending, mapEventWith_ok_iff.mp ⟨m.report, whole⟩⟩
  · rintro ⟨pending, mapped⟩
    obtain ⟨report, whole⟩ := mapEventWith_ok_iff.mpr mapped
    rw [whole]
    rfl

/-- The description read through a touched position is the text planted there. -/
theorem takenValue_description {ref : EnrichableFieldRef} {w : Json} (clear : isClear ref)
    (there : (payload.at? pos).isSome)
    (touched : Json.touches (pathSegments (refSource ref)) pos payload)
    (plain : "*" ∉ pathSegments (refSource ref))
    (above : pos.length ≤ (pathSegments (refSource ref)).length) :
    takenValue (clearReader rt maskingKey payload
        (payload.setAt (Json.plant w ((pathSegments (refSource ref)).drop pos.length)) pos)) ref =
      some (textImage rt (refTransforms ref) w) := by
  have read : getAtPath (payload.setAt (Json.plant w
      ((pathSegments (refSource ref)).drop pos.length)) pos) (refSource ref) = some w := by
    unfold getAtPath
    rw [Json.getSegments_setAt_of_touches _ there touched plain above]
    exact Json.getSegments_plant w fun member => plain (List.mem_of_mem_drop member)
  rw [takenValue_clear clear (clearReader_clear clear.1), read]
  rfl

/-- The values that tell a position apart can be documents. -/
theorem isDocument_plant {w : Json} (document : w.isDocument) (segs : List String) :
    (Json.plant w segs).isDocument := by
  induction segs with
  | nil => exact document
  | cons head rest ih =>
    unfold Json.plant
    split <;> simp [Json.isDocument, Json.isDocumentItems, Json.isDocumentEntries, ih]

end ClearReader

/-! ## What a position can change -/

section Position

variable {rt : Runtime} {maskingKey : Bytes} {route : RouteConfig} {payload : Json}
  {pos : List Nat} {receivedAt : String} {m : MappedEvent}

/-- A position no field shows in clear changes nothing but what hashes do. -/
theorem clearRecord_of_hidden (w : Json)
    (returns : mapEvent rt maskingKey route payload receivedAt = .ok m)
    (there : (payload.at? pos).isSome) (hidden : ¬ ShowsInClear route.map payload pos) :
    clearRecord rt maskingKey route payload (payload.setAt w pos) receivedAt = .ok m.record := by
  have mapped := mapEventWith_ok_iff.mp ⟨m.report, returns⟩
  have externalId := clearReader_untouched rt maskingKey w there
    fun clear touched => hidden (.externalId clear touched)
  have amount := clearReader_untouched rt maskingKey w there
    fun clear touched => hidden (.amount clear touched)
  have taken : ∀ ref, (isClear ref → ¬ Json.touches (pathSegments (refSource ref)) pos payload) →
      takenValue (clearReader rt maskingKey payload (payload.setAt w pos)) ref =
        takenValue (resolve rt maskingKey payload) ref := by
    intro ref untouched
    unfold takenValue
    cases enriched : refEnrichment ref with
    | some enrichment => rfl
    | none =>
      simp only [readValue, clearReader_untouched rt maskingKey w there fun clear => untouched ⟨clear, enriched⟩]
  refine clearRecord_ok_iff.mpr ⟨_, ⟨?_, ?_, ?_, ?_, ?_, ?_, mapped.dataStreamKey, mapped.currency,
    mapped.direction, rfl⟩⟩
  · have named := mapped.externalId
    unfold RecordMap.externalIdOf at named ⊢
    rw [externalId]
    exact named
  · have counted := mapped.amount
    unfold RecordMap.amountOf at counted ⊢
    rw [amount]
    exact counted
  · have day := mapped.date
    cases dated : route.map.date with
    | none =>
      rw [dated] at day
      exact day
    | some ref =>
      rw [dated] at day
      have same : getAtPath (payload.setAt w pos) (dateSource ref).1 =
          getAtPath payload (dateSource ref).1 :=
        Json.getSegments_setAt_of_not_touches w there fun touched => hidden (.date dated touched)
      simp only [dateText, same]
      exact day
  · intro ref member
    by_cases hashed : .hash ∈ refTransforms ref
    · rw [clearReader_hashed hashed]
      exact mapped.readable ref member
    · rw [clearReader_clear hashed, resolve_clear _ _ _ hashed]
      exact ⟨_, rfl⟩
  · rw [mapped.metadata]
    refine List.filterMap_congr fun entry member => ?_
    unfold metadataMember
    rw [taken entry.2 fun clear touched => hidden (.metadata member clear touched)]
  · rw [mapped.description]
    cases described : route.map.description with
    | none => rfl
    | some ref =>
      simp only [Option.bind_some]
      by_cases shown : isClear ref ∧ Json.touches (pathSegments (refSource ref)) pos payload
      · obtain ⟨clear, touched⟩ := shown
        have wide : "*" ∈ pathSegments (refSource ref) ∨
            (pathSegments (refSource ref)).length < pos.length := by
          by_contra narrow
          rw [not_or] at narrow
          exact hidden (.description described clear narrow.1 (by omega) touched)
        have there' : ((payload.setAt w pos).at? pos).isSome := by
          rw [Json.at?_setAt w there]
          rfl
        have before := descriptionText_textImage rt (refTransforms ref) fun value read =>
          Json.shape_of_isObject (Json.isObject_of_wide there touched wide read)
        have after := descriptionText_textImage rt (refTransforms ref) fun value read =>
          Json.shape_of_isObject
            (Json.isObject_of_wide there' (Json.touches_setAt w there touched) wide read)
        rw [takenValue_clear clear rfl, takenValue_clear clear (clearReader_clear clear.1)]
        exact before.trans after.symm
      · rw [taken ref fun clear touched => shown ⟨clear, touched⟩]

/-- A position some field shows in clear holds, with some other value, another record. -/
theorem exists_clearRecord_ne
    (returns : mapEvent rt maskingKey route payload receivedAt = .ok m)
    (there : (payload.at? pos).isSome) (shows : ShowsInClear route.map payload pos) :
    ∃ w, w.isDocument ∧
      clearRecord rt maskingKey route payload (payload.setAt w pos) receivedAt ≠ .ok m.record := by
  have mapped := mapEventWith_ok_iff.mp ⟨m.report, returns⟩
  cases shows with
  | externalId clear touched =>
    refine ⟨.null, rfl, fun same => ?_⟩
    obtain ⟨pending, mapped'⟩ := clearRecord_ok_iff.mp same
    obtain ⟨v, read, scalar⟩ := mapped.externalId_scalar
    apply mapped'.externalId_not_null
    rw [clearReader_clear clear]
    exact resolve_setAt_null clear there touched read scalar
  | amount clear touched =>
    refine ⟨.null, rfl, fun same => ?_⟩
    obtain ⟨pending, mapped'⟩ := clearRecord_ok_iff.mp same
    obtain ⟨v, read, scalar⟩ := mapped.amount_scalar
    apply mapped'.amount_not_null
    rw [clearReader_clear clear]
    exact resolve_setAt_null clear there touched read scalar
  | date dated touched =>
    refine ⟨.null, rfl, fun same => ?_⟩
    obtain ⟨pending, mapped'⟩ := clearRecord_ok_iff.mp same
    have day := mapped.date
    rw [dated] at day
    obtain ⟨v, read, scalar⟩ := scalar_of_parseDate day
    exact mapped'.date_not_null dated (getAtPath_setAt_null there touched read scalar)
  | @metadata entry member clear touched =>
    by_contra absent
    simp only [not_exists, not_and, not_not] at absent
    let segs := (pathSegments (refSource entry.2)).drop pos.length
    obtain ⟨_, first⟩ := clearRecord_ok_iff.mp (absent (Json.plant .null segs)
      (isDocument_plant rfl segs))
    obtain ⟨_, second⟩ := clearRecord_ok_iff.mp (absent (Json.plant (.bool true) segs)
      (isDocument_plant rfl segs))
    have values := takenValue_of_metadata (first.metadata.symm.trans second.metadata) member
    have shapes := congrArg (Option.map Json.shape) values
    rw [shape_takenValue clear (clearReader_clear clear.1),
      shape_takenValue clear (clearReader_clear clear.1)] at shapes
    refine Json.shape_getSegments_setAt_ne there touched ?_ shapes
    exact Json.shape_getSegments_plant_ne nofun
  | @description ref described clear plain above touched =>
    by_contra absent
    simp only [not_exists, not_and, not_not] at absent
    let segs := (pathSegments (refSource ref)).drop pos.length
    obtain ⟨_, first⟩ := clearRecord_ok_iff.mp (absent (Json.plant .null segs)
      (isDocument_plant rfl segs))
    obtain ⟨_, second⟩ := clearRecord_ok_iff.mp (absent (Json.plant (.str "") segs)
      (isDocument_plant rfl segs))
    have texts := first.description.symm.trans second.description
    rw [described, Option.bind_some, Option.bind_some,
      takenValue_description clear there touched plain above,
      takenValue_description clear there touched plain above, textImage_null] at texts
    obtain ⟨s, image⟩ := textImage_str rt (refTransforms ref) ""
    rw [image] at texts
    cases texts

end Position

/-- Changing a sensitive-named member of a payload never changes the record
otherwise than through a hash, exactly when no field shows one in clear. -/
theorem sensitiveFields_stay_iff (rt : Runtime) (maskingKey : Bytes) (route : RouteConfig)
    (payload : Json) (receivedAt : String) {m : MappedEvent}
    (returns : mapEvent rt maskingKey route payload receivedAt = .ok m) :
    (∀ pos name, payload.memberName pos = some name → keyNameIsSensitive name →
      ∀ w, w.isDocument →
        clearRecord rt maskingKey route payload (payload.setAt w pos) receivedAt = .ok m.record) ↔
    ∀ pos name, payload.memberName pos = some name → keyNameIsSensitive name →
      ¬ ShowsInClear route.map payload pos := by
  constructor
  · intro stays pos name member sensitive shows
    obtain ⟨w, document, changes⟩ :=
      exists_clearRecord_ne returns (Json.at?_of_memberName member) shows
    exact changes (stays pos name member sensitive w document)
  · intro hidden pos name member sensitive w _
    exact clearRecord_of_hidden w returns (Json.at?_of_memberName member)
      (hidden pos name member sensitive)

/-- A route the schema accepts whose description is a card's verification value. -/
def cvvDescriptionRoute : RouteConfig where
  id := "payments"
  source := "payabli"
  auth := .staticHeader { secretEnv := "PAYABLI_SECRET" }
  map := {
    dataStreamKey := "payments"
    externalId := { ref := .path "id" }
    amount := { ref := .path "amount" }
    direction := .credit
    description := some (.path "card.cvv") }

/-- A payload for it. -/
def cvvPayload : Json :=
  .obj [("id", .str "txn_1"), ("amount", .str "10.00"), ("card", .obj [("cvv", .str "737")])]

theorem cvvPayload_returns : ∃ m, mapEvent (.knowing []) [] cvvDescriptionRoute cvvPayload
    "2026-07-03T14:22:25.006Z" = .ok m := ⟨_, rfl⟩

theorem sensitiveFields_stay_iff_cvv : ∃ m,
    mapEvent (.knowing []) [] cvvDescriptionRoute cvvPayload "2026-07-03T14:22:25.006Z" = .ok m ∧
    ((∀ pos name, cvvPayload.memberName pos = some name → keyNameIsSensitive name →
      ∀ w, w.isDocument → clearRecord (.knowing []) [] cvvDescriptionRoute cvvPayload
        (cvvPayload.setAt w pos) "2026-07-03T14:22:25.006Z" = .ok m.record) ↔
    ∀ pos name, cvvPayload.memberName pos = some name → keyNameIsSensitive name →
      ¬ ShowsInClear cvvDescriptionRoute.map cvvPayload pos) := by
  obtain ⟨m, returns⟩ := cvvPayload_returns
  exact ⟨m, returns, sensitiveFields_stay_iff _ _ _ _ _ returns⟩

/-- The schema accepts the route, the member's name is sensitive, and another
value of the member makes another description. -/
theorem cvv_description_leaves : cvvDescriptionRoute.schemaValid ∧
    cvvPayload.memberName [2, 0] = some "cvv" ∧ keyNameIsSensitive "cvv" ∧
    (mapEvent (.knowing []) [] cvvDescriptionRoute cvvPayload "2026-07-03T14:22:25.006Z").map
      (fun m => m.record.description) = .ok (some "737") ∧
    (clearRecord (.knowing []) [] cvvDescriptionRoute cvvPayload
      (cvvPayload.setAt (.str "123") [2, 0]) "2026-07-03T14:22:25.006Z").map
      (fun record => record.description) = .ok (some "123") := by
  refine ⟨by decide, rfl, by decide, rfl, rfl⟩

end EndCloseRelay
