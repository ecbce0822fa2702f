import EndCloseRelay.Forward.Mapping

/-!
# The map is the allowlist

Two payloads that agree at every path a map names are mapped alike: the same
record and the same pending list, or the same error.  That error is a
`MappingError` unless the mapping comes to hash a function a path found on
`Object.prototype`, which `createHmac(..).update` refuses with a `TypeError`.
-/

namespace EndCloseRelay

/-! ## When a reference is refused -/

/-- A reference hashes what its path finds, and it finds an inherited function. -/
def hashesFunction (payload : Json) (ref : EnrichableFieldRef) : Prop :=
  TransformName.hash ∈ refTransforms ref ∧
    ∃ name, getAtPath payload (refSource ref) = some (.inherited (.function name))

/-- The `TypeError` of hashing `undefined`. -/
def hashTypeError : RelayError :=
  .other "The \"data\" argument must be of type string. Received undefined"

/-- A value other than a function. -/
def Json.NotFunction (value : Json) : Prop := ∀ name, value ≠ .inherited (.function name)

theorem Json.NotFunction.stringify {value : Json} (plain : value.NotFunction) :
    ∃ text, value.stringify = some text := by
  cases value with
  | inherited member =>
    cases member with
    | function name => exact absurd rfl (plain name)
    | objectPrototype => exact ⟨_, rfl⟩
  | _ => exact ⟨_, rfl⟩

theorem applyText_notFunction {value : Json} (f : String → String) (plain : value.NotFunction) :
    (applyText f value).NotFunction := by
  cases value with
  | inherited member => exact plain
  | _ => exact nofun

/-- A transform of a value that is no function gives one that is none. -/
theorem applyTransform_ok (rt : Runtime) (maskingKey : Bytes) {value : Json}
    (plain : value.NotFunction) (name : TransformName) :
    ∃ out, applyTransform rt maskingKey value name = .ok out ∧ out.NotFunction := by
  cases name with
  | trim => exact ⟨_, rfl, applyText_notFunction _ plain⟩
  | lowercase => exact ⟨_, rfl, applyText_notFunction _ plain⟩
  | hash =>
    obtain ⟨text, written⟩ := plain.stringify
    simp only [applyTransform, hashValue]
    cases value with
    | str s => exact ⟨_, rfl, nofun⟩
    | _ => simp only [written, Except.map]; exact ⟨_, rfl, nofun⟩

theorem foldlM_transforms_ok (rt : Runtime) (maskingKey : Bytes) {value : Json}
    (plain : value.NotFunction) (names : List TransformName) :
    ∃ out, names.foldlM (applyTransform rt maskingKey) value = .ok out := by
  induction names generalizing value with
  | nil => exact ⟨value, rfl⟩
  | cons name names ih =>
    obtain ⟨next, done, plain'⟩ := applyTransform_ok rt maskingKey plain name
    obtain ⟨out, rest⟩ := ih plain'
    refine ⟨out, ?_⟩
    rw [List.foldlM_cons, done]
    exact rest

/-- On a function every transform up to the first `hash` does nothing, and that one throws. -/
theorem foldlM_transforms_function (rt : Runtime) (maskingKey : Bytes) (member : String)
    (names : List TransformName) :
    names.foldlM (applyTransform rt maskingKey) (.inherited (.function member)) =
      if .hash ∈ names then .error hashTypeError else .ok (.inherited (.function member)) := by
  induction names with
  | nil => rfl
  | cons name names ih =>
    rw [List.foldlM_cons]
    cases name with
    | hash => rfl
    | trim =>
      simp only [List.mem_cons, reduceCtorEq, false_or]
      exact ih
    | lowercase =>
      simp only [List.mem_cons, reduceCtorEq, false_or]
      exact ih

/-- A reference is refused exactly when it hashes a function. -/
theorem resolve_error_iff (rt : Runtime) (maskingKey : Bytes) (payload : Json)
    (ref : EnrichableFieldRef) (e : RelayError) :
    resolve rt maskingKey payload ref = .error e ↔ hashesFunction payload ref ∧ e = hashTypeError := by
  unfold resolve hashesFunction
  cases found : getAtPath payload (refSource ref) with
  | none => simp
  | some value =>
    by_cases function : ∃ name, value = .inherited (.function name)
    · obtain ⟨name, rfl⟩ := function
      simp only [foldlM_transforms_function]
      by_cases hashed : TransformName.hash ∈ refTransforms ref
      · simp [hashed, Except.map, eq_comm]
      · simp [hashed, Except.map]
    · obtain ⟨out, done⟩ := foldlM_transforms_ok rt maskingKey
        (fun name same => function ⟨name, same⟩) (refTransforms ref)
      simp only [done, Except.map, reduceCtorEq, false_iff, not_and]
      rintro ⟨-, name, same⟩
      exact absurd ⟨name, Option.some.inj same⟩ function

/-! ## Payloads that agree at the mapped paths -/

section Congruence

variable {rt : Runtime} {read read' : Reader} {readPath readPath' : String → Option Json}
  {route : RouteConfig} {receivedAt : String}

theorem use_congr {field : String} {ref : EnrichableFieldRef} {st : MapState}
    (same : read ref = read' ref) : use read field ref st = use read' field ref st := by
  simp only [use, same]

theorem useMetadata_congr (entries : List (String × EnrichableFieldRef)) (st : MapState)
    (same : ∀ entry ∈ entries, read entry.2 = read' entry.2) :
    useMetadata read entries st = useMetadata read' entries st := by
  induction entries generalizing st with
  | nil => rfl
  | cons entry entries ih =>
    have rest : useMetadata read entries = useMetadata read' entries :=
      funext fun st' => ih st' fun e member => same e (List.mem_cons_of_mem entry member)
    simp only [useMetadata, use_congr (same entry List.mem_cons_self), rest]

theorem useDescription_congr (description : Option EnrichableFieldRef) (st : MapState)
    (same : ∀ ref ∈ description, read ref = read' ref) :
    useDescription read description st = useDescription read' description st := by
  cases description with
  | none => rfl
  | some ref => simp only [useDescription, use_congr (same ref rfl)]

/-- What leaves the mapping: everything but the report. -/
def leaving (outcome : Except RelayError MappedEvent) :
    Except RelayError (EndCloseRecord × List PendingEnrichment) :=
  (fun m => (m.record, m.pending)) <$> outcome

/-- The leaf paths of the payload reach the report only. -/
theorem leaving_leaves (leaves leaves' : List String) :
    leaving (mapEventWith rt read readPath leaves route receivedAt) =
      leaving (mapEventWith rt read readPath leaves' route receivedAt) := by
  simp only [leaving, mapEventWith, map_bind, map_pure]

/-- Two readers that agree at a map's references leave the same. -/
theorem leaving_congr (leaves leaves' : List String)
    (sameRefs : ∀ ref ∈ route.map.refs, read ref = read' ref)
    (sameDate : ∀ ref ∈ route.map.date, readPath (dateSource ref).1 = readPath' (dateSource ref).1) :
    leaving (mapEventWith rt read readPath leaves route receivedAt) =
      leaving (mapEventWith rt read' readPath' leaves' route receivedAt) := by
  rw [leaving_leaves leaves leaves']
  have dated : useDate rt readPath receivedAt route.map.date =
      useDate rt readPath' receivedAt route.map.date := by
    cases named : route.map.date with
    | none => rfl
    | some ref => funext st; simp only [useDate, sameDate ref named]
  have metadata : useMetadata read route.map.metadata = useMetadata read' route.map.metadata :=
    funext fun st => useMetadata_congr _ st fun entry member => sameRefs _ (by
      simp only [RecordMap.refs, RecordMap.laterRefs, List.mem_cons, List.mem_append]
      exact .inr (.inr (.inl (List.mem_map_of_mem member))))
  have described : useDescription read route.map.description =
      useDescription read' route.map.description :=
    funext fun st => useDescription_congr _ st fun ref member => sameRefs _ (by
      simp only [RecordMap.refs, RecordMap.laterRefs, List.mem_cons, List.mem_append,
        Option.mem_toList]
      exact .inr (.inr (.inr member)))
  simp only [mapEventWith, use_congr (sameRefs route.map.externalId.ref (by simp [RecordMap.refs])),
    use_congr (sameRefs route.map.amount.ref (by simp [RecordMap.refs])), dated, metadata, described]

end Congruence

/-- Two payloads agree at every source path of a map. -/
def AgreeAtSources (map : RecordMap) (payload payload' : Json) : Prop :=
  ∀ path ∈ map.sourcePaths, getAtPath payload path = getAtPath payload' path

theorem resolve_congr (rt : Runtime) (maskingKey : Bytes) {payload payload' : Json}
    {ref : EnrichableFieldRef}
    (agree : getAtPath payload (refSource ref) = getAtPath payload' (refSource ref)) :
    resolve rt maskingKey payload ref = resolve rt maskingKey payload' ref := by
  simp only [resolve, agree]

theorem refSource_mem_sourcePaths {map : RecordMap} {ref : EnrichableFieldRef}
    (member : ref ∈ map.refs) : refSource ref ∈ map.sourcePaths := by
  simp only [RecordMap.refs, RecordMap.laterRefs, List.mem_cons, List.mem_append,
    List.mem_map, Option.mem_toList] at member
  simp only [RecordMap.sourcePaths, List.mem_append, List.mem_cons, List.mem_map,
    Option.mem_toList, List.not_mem_nil, or_false]
  rcases member with rfl | rfl | ⟨entry, listed, rfl⟩ | described
  · exact .inl (.inl (.inl (.inl rfl)))
  · exact .inl (.inl (.inl (.inr rfl)))
  · exact .inr ⟨entry, listed, rfl⟩
  · exact .inl (.inr (by simp [described]))

theorem dateSource_mem_sourcePaths {map : RecordMap} {ref : DateRef} (named : map.date = some ref) :
    (dateSource ref).1 ∈ map.sourcePaths := by
  simp [RecordMap.sourcePaths, named]

/-- Payloads that agree at the source paths leave the same. -/
theorem leaving_of_agree (rt : Runtime) (maskingKey : Bytes) {route : RouteConfig}
    (receivedAt : String) {payload payload' : Json}
    (agree : AgreeAtSources route.map payload payload') :
    leaving (mapEvent rt maskingKey route payload receivedAt) =
      leaving (mapEvent rt maskingKey route payload' receivedAt) :=
  leaving_congr _ _ (fun _ member => resolve_congr _ _ (agree _ (refSource_mem_sourcePaths member)))
    fun _ named => agree _ (dateSource_mem_sourcePaths named)

/-! ## The error of a mapping -/

/-- The mapping gets as far as hashing an inherited function: at the external
id, at the amount once the id is there, or at metadata or the description once
id, amount and date are. -/
def ReachesHashedFunction (rt : Runtime) (maskingKey : Bytes) (route : RouteConfig)
    (payload : Json) (receivedAt : String) : Prop :=
  let read := resolve rt maskingKey payload
  hashesFunction payload route.map.externalId.ref ∨
    (∃ text, route.map.externalIdOf read = .ok text) ∧
      (hashesFunction payload route.map.amount.ref ∨
        (∃ cents, route.map.amountOf read = .ok cents) ∧
          (∃ day, dateText rt (getAtPath payload) receivedAt route.map.date = .ok day) ∧
          ∃ ref ∈ route.map.laterRefs, hashesFunction payload ref)

/-- The checks of a mapping throw mapping errors only. -/
theorem externalIdText_error {ref : EnrichableFieldRef} {value : Option Json} {e : RelayError}
    (fails : externalIdText ref value = .error e) : ∃ message, e = .mapping message := by
  unfold externalIdText at fails
  split at fails
  · cases fails
  · cases fails
  · exact ⟨_, (Except.error.inj fails).symm⟩

theorem toCents_error {value : Json} {e : RelayError} (fails : toCents value = .error e) :
    ∃ message, e = .mapping message := by
  cases value with
  | num n | str s =>
    simp only [toCents, pure_bind] at fails
    split at fails
    · exact ⟨_, (Except.error.inj fails).symm⟩
    · cases fails
  | _ => exact ⟨_, (Except.error.inj fails).symm⟩

theorem dateText_error {rt : Runtime} {readPath : String → Option Json} {receivedAt : String}
    {date : Option DateRef} {e : RelayError}
    (fails : dateText rt readPath receivedAt date = .error e) : ∃ message, e = .mapping message := by
  cases date with
  | none => cases fails
  | some ref =>
    simp only [dateText, parseDate] at fails
    cases found : (readPath (dateSource ref).1).getD .null with
    | str s =>
      simp only [found] at fails
      split at fails
      · exact ⟨_, (Except.error.inj fails).symm⟩
      split at fails <;> split at fails
      · exact ⟨_, (Except.error.inj fails).symm⟩
      · cases fails
      · exact ⟨_, (Except.error.inj fails).symm⟩
      · cases fails
    | _ =>
      simp only [found] at fails
      exact ⟨_, (Except.error.inj fails).symm⟩

section Errors

variable {rt : Runtime} {maskingKey : Bytes} {route : RouteConfig} {payload : Json}
  {receivedAt : String}

/-- A stage that reads a reference and checks the value fails by its check or
by hashing a function. -/
theorem stage_error {α : Type} {ref : EnrichableFieldRef} {check : Option Json → Except RelayError α}
    {e : RelayError} (checks : ∀ value e, check value = .error e → ∃ message, e = .mapping message)
    (fails : (resolve rt maskingKey payload ref).bind check = .error e) :
    (∃ message, e = .mapping message) ∨ hashesFunction payload ref := by
  cases read : resolve rt maskingKey payload ref with
  | error e' => exact .inr ((resolve_error_iff rt maskingKey payload ref e').mp read).1
  | ok value =>
    rw [read] at fails
    exact .inl (checks value e fails)

variable (rt maskingKey) in
/-- A stage on a hashed function throws the `TypeError`. -/
theorem stage_hashesFunction {α : Type} {ref : EnrichableFieldRef}
    (check : Option Json → Except RelayError α) (hashes : hashesFunction payload ref) :
    (resolve rt maskingKey payload ref).bind check = .error hashTypeError := by
  rw [(resolve_error_iff rt maskingKey payload ref hashTypeError).mpr ⟨hashes, rfl⟩]
  rfl

/-- A mapping that throws reports a mapping error or has reached a hashed function. -/
theorem mapEvent_error {e : RelayError}
    (throws : mapEvent rt maskingKey route payload receivedAt = .error e) :
    (∃ message, e = .mapping message) ∨
      ReachesHashedFunction rt maskingKey route payload receivedAt := by
  cases MapFailure.of_error throws with
  | externalId fails =>
    exact (stage_error (fun _ _ => externalIdText_error) fails).imp_right .inl
  | amount named fails =>
    exact (stage_error (fun _ _ => toCents_error) fails).imp_right fun hashes =>
      .inr ⟨⟨_, named⟩, .inl hashes⟩
  | date named counted fails => exact .inl (dateText_error fails)
  | readLater named counted dated member refused =>
    exact .inr (.inr ⟨⟨_, named⟩, .inr ⟨⟨_, counted⟩, ⟨_, dated⟩, _, member,
      ((resolve_error_iff rt maskingKey payload _ _).mp refused).1⟩⟩)

/-- A mapping that reaches a hashed function throws its `TypeError`. -/
theorem mapEvent_of_reaches
    (reaches : ReachesHashedFunction rt maskingKey route payload receivedAt) :
    mapEvent rt maskingKey route payload receivedAt = .error hashTypeError := by
  rcases mapEventWith_cases rt (resolve rt maskingKey payload) (getAtPath payload)
    (leafPaths payload "") route receivedAt with
    ⟨record, pending, report, used, mapped, -⟩ | ⟨e, failure, throws⟩
  · exfalso
    rcases reaches with hashes | ⟨-, hashes | ⟨-, -, ref, member, hashes⟩⟩
    · exact absurd ((stage_hashesFunction rt maskingKey _ hashes).symm.trans mapped.externalId) nofun
    · exact absurd ((stage_hashesFunction rt maskingKey _ hashes).symm.trans mapped.amount) nofun
    · obtain ⟨value, reads⟩ := mapped.readable ref member
      exact absurd (reads.symm.trans
        ((resolve_error_iff rt maskingKey payload ref hashTypeError).mpr ⟨hashes, rfl⟩)) nofun
  · refine throws.trans (congrArg _ ?_)
    rcases reaches with hashes | ⟨⟨text, named⟩, hashes | ⟨⟨cents, counted⟩, ⟨day, dated⟩, -⟩⟩
    · have first := stage_hashesFunction rt maskingKey
        (externalIdText route.map.externalId.ref) hashes
      cases failure with
      | externalId fails => exact Except.error.inj (fails.symm.trans first)
      | amount named _ | date named _ _ | readLater named _ _ _ _ =>
        exact absurd (first.symm.trans named) nofun
    · have second := stage_hashesFunction rt maskingKey
        (fun value => toCents (value.getD .null)) hashes
      cases failure with
      | externalId fails => exact absurd (fails.symm.trans named) nofun
      | amount _ fails => exact Except.error.inj (fails.symm.trans second)
      | date _ counted _ | readLater _ counted _ _ _ =>
        exact absurd (second.symm.trans counted) nofun
    · cases failure with
      | externalId fails => exact absurd (fails.symm.trans named) nofun
      | amount _ fails => exact absurd (fails.symm.trans counted) nofun
      | date _ _ fails => exact absurd (fails.symm.trans dated) nofun
      | readLater _ _ _ _ refused => exact ((resolve_error_iff rt maskingKey payload _ e).mp refused).2

end Errors

/-! ## Non-interference -/

/-- Two mappings end alike: with one mapping error, or with one record and one
pending list. -/
def MappedAlike (outcome outcome' : Except RelayError MappedEvent) : Prop :=
  (∃ message, outcome = .error (.mapping message) ∧ outcome' = .error (.mapping message)) ∨
    ∃ m m', outcome = .ok m ∧ outcome' = .ok m' ∧ m.record = m'.record ∧ m.pending = m'.pending

/-- Payloads that agree at the source paths are mapped alike, but for a mapping
that reaches a hashed function. -/
theorem mappedAlike_iff (rt : Runtime) (maskingKey : Bytes) (route : RouteConfig)
    (receivedAt : String) {payload payload' : Json}
    (agree : AgreeAtSources route.map payload payload') :
    MappedAlike (mapEvent rt maskingKey route payload receivedAt)
        (mapEvent rt maskingKey route payload' receivedAt) ↔
      ¬ ReachesHashedFunction rt maskingKey route payload receivedAt := by
  have same := leaving_of_agree rt maskingKey receivedAt agree
  constructor
  · intro alike reaches
    have throws := mapEvent_of_reaches reaches
    rcases alike with ⟨message, fails, -⟩ | ⟨m, m', returns, -⟩
    · exact absurd (throws.symm.trans fails) nofun
    · exact absurd (throws.symm.trans returns) nofun
  · intro unreached
    cases first : mapEvent rt maskingKey route payload receivedAt with
    | error e =>
      obtain ⟨message, rfl⟩ := (mapEvent_error first).resolve_right unreached
      cases second : mapEvent rt maskingKey route payload' receivedAt with
      | error e' =>
        rw [first, second] at same
        exact .inl ⟨message, rfl, congrArg _ (Except.error.inj same).symm⟩
      | ok m' => exact absurd (first ▸ second ▸ same) nofun
    | ok m =>
      cases second : mapEvent rt maskingKey route payload' receivedAt with
      | error e' => exact absurd (first ▸ second ▸ same) nofun
      | ok m' =>
        rw [first, second] at same
        have leave : (m.record, m.pending) = (m'.record, m'.pending) := Except.ok.inj same
        exact .inr ⟨m, m', rfl, rfl, (Prod.mk.inj leave).1, (Prod.mk.inj leave).2⟩

end EndCloseRelay
