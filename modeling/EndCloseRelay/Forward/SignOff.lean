import EndCloseRelay.Forward.Digests

/-!
# The sign-off report

`report.not_forwarded` is computed from leaf paths and the text of the used
sources, while `getAtPath` decides what is forwarded.  This module says which
leaves of a payload can change what leaves the mapping, and that the report is
truthful exactly when each of them is named by a used source or matched by its
wildcards.
-/

namespace EndCloseRelay

open Js

/-! ## The leaves that matter -/

/-- A source the payload has a value at names a leaf path, or its wildcards match it. -/
def AccountedFor (map : RecordMap) (payload : Json) (path : String) : Prop :=
  ∃ source ∈ map.sourcePaths, (getAtPath payload source).isSome ∧
    (path = source ∨ wildcardMatches source path)

/-- The paths whose values leave, or stop the mapping, whatever they are: all but
that of a description in clear, which only a string makes. -/
def RecordMap.forwardedPaths (map : RecordMap) : List String :=
  [refSource map.externalId.ref, refSource map.amount.ref] ++
    (map.date.map fun ref => (dateSource ref).1).toList ++
    (map.metadata.map fun entry => refSource entry.2) ++
    ((map.description.filter (¬ isClear ·)).map refSource).toList

/-- A leaf stands at a path or below it, or the path reads of it something an empty
object has. -/
def ReachesLeaf (path : String) (payload : Json) (pos : List Nat) : Prop :=
  Json.touches (pathSegments path) pos payload ∧
    ((pathSegments path).length ≤ pos.length ∨
      (getSegments ((pathSegments path).drop pos.length) (.obj [])).isSome)

/-- The leaf at a position matters to what leaves a mapping: a forwarded path
reaches it, or it is the very one the path of a description in clear names. -/
inductive LeafMatters (map : RecordMap) (payload : Json) (pos : List Nat) : Prop
  | forwarded {path : String} (member : path ∈ map.forwardedPaths)
      (reached : ReachesLeaf path payload pos)
  | description {ref : EnrichableFieldRef} (described : map.description = some ref)
      (clear : isClear ref) (plain : "*" ∉ pathSegments (refSource ref))
      (ends : pos.length = (pathSegments (refSource ref)).length)
      (touched : Json.touches (pathSegments (refSource ref)) pos payload)

/-- The two kinds of fields behind the id, the amount and the date: what is left
to the host or goes to the metadata or is hashed, and a description in clear. -/
theorem laterField_cases {map : RecordMap} {field : String × EnrichableFieldRef}
    (member : field ∈ map.laterFields) :
    refSource field.2 ∈ map.forwardedPaths ∨ map.description = some field.2 ∧ isClear field.2 := by
  rcases List.mem_append.mp member with named | described
  · obtain ⟨entry, listed, rfl⟩ := List.mem_map.mp named
    exact .inl (List.mem_append_left _ (List.mem_append_right _ (List.mem_map.mpr ⟨entry, listed, rfl⟩)))
  · obtain ⟨ref, there, rfl⟩ := List.mem_map.mp described
    have described := Option.mem_toList.mp there
    by_cases clear : isClear ref
    · exact .inr ⟨described, clear⟩
    · refine .inl (List.mem_append_right _ (Option.mem_toList.mpr (Option.mem_map_of_mem refSource ?_)))
      rw [Option.mem_def, Option.filter_eq_some_iff]
      exact ⟨described, by simpa using clear⟩

section Leaves

variable {rt : Runtime} {maskingKey : Bytes} {route : RouteConfig} {payload : Json}
  {pos : List Nat} {path : String} {receivedAt : String} {m : MappedEvent}

/-- A path that does not reach a leaf reads the same whatever leaf stands there. -/
theorem getAtPath_setAt_of_not_reached {old w : Json} (stands : payload.at? pos = some old)
    (childless : old.values = []) (leaf : w.isLeaf) (unreached : ¬ ReachesLeaf path payload pos) :
    getAtPath (payload.setAt w pos) path = getAtPath payload path := by
  have there : (payload.at? pos).isSome := by
    rw [stands]
    rfl
  by_cases touched : Json.touches (pathSegments path) pos payload
  · have deep : ¬ ((pathSegments path).length ≤ pos.length) :=
      fun ends => unreached ⟨touched, .inl ends⟩
    have below : (pathSegments path).drop pos.length ≠ [] := by
      intro ends
      apply deep
      exact List.drop_eq_nil_iff.mp ends
    have empty : getSegments ((pathSegments path).drop pos.length) (.obj []) = none := by
      rw [← Option.not_isSome_iff_eq_none]
      exact fun found => unreached ⟨touched, .inr found⟩
    have same := Json.getSegments_setAt_congr (pathSegments path) there
      ((Json.getSegments_of_no_values below (Json.values_of_isLeaf leaf) empty).trans
        (Json.getSegments_of_no_values below childless empty).symm)
    rw [Json.setAt_self stands] at same
    exact same
  · exact Json.getSegments_setAt_of_not_touches w there touched

/-- A path that is not exactly a leaf's own reads no string through the leaf. -/
theorem shape_of_not_ends {v value : Json} (there : (payload.at? pos).isSome)
    (touched : Json.touches (pathSegments path) pos payload) (childless : v.values = [])
    (other : "*" ∈ pathSegments path ∨ pos.length ≠ (pathSegments path).length)
    (read : getAtPath (payload.setAt v pos) path = some value) : value.shape ≠ .str "" := by
  have there' : ((payload.setAt v pos).at? pos).isSome := by
    rw [Json.at?_setAt v there]
    rfl
  have touched' := Json.touches_setAt v there touched
  by_cases wide : "*" ∈ pathSegments path ∨ (pathSegments path).length < pos.length
  · exact Json.shape_of_isObject (Json.isObject_of_wide there' touched' wide read)
  · rw [not_or] at wide
    obtain ⟨plain, above⟩ := wide
    have deep := other.resolve_left plain
    unfold getAtPath at read
    rw [Json.getSegments_setAt_of_touches v there touched plain (by omega)] at read
    refine Json.shape_of_no_values ?_ childless read
    intro ends
    have short := List.drop_eq_nil_iff.mp ends
    omega

/-- Where a path reaches a leaf, `null` there and some other leaf make it read
different shapes. -/
theorem exists_leaf_of_reached (there : (payload.at? pos).isSome)
    (reached : ReachesLeaf path payload pos) : ∃ w : Json, (w = .bool true ∨ w = .obj []) ∧
      (getAtPath (payload.setAt .null pos) path).map Json.shape ≠
        (getAtPath (payload.setAt w pos) path).map Json.shape := by
  obtain ⟨touched, through⟩ := reached
  by_cases ends : (pathSegments path).length ≤ pos.length
  · refine ⟨.bool true, .inl rfl, Json.shape_getSegments_setAt_ne there touched ?_⟩
    rw [List.drop_eq_nil_iff.mpr ends]
    exact nofun
  · refine ⟨.obj [], .inr rfl, Json.shape_getSegments_setAt_ne there touched ?_⟩
    obtain ⟨found, read⟩ := Option.isSome_iff_exists.mp (through.resolve_left ends)
    rw [read]
    cases rest : (pathSegments path).drop pos.length with
    | nil => exact absurd (List.drop_eq_nil_iff.mp rest) ends
    | cons head rest => exact nofun

/-- A path reads no string through a leaf that is none. -/
theorem shape_of_touches {w value : Json} (there : (payload.at? pos).isSome)
    (touched : Json.touches (pathSegments path) pos payload) (childless : w.values = [])
    (textless : w.shape ≠ .str "") (read : getAtPath (payload.setAt w pos) path = some value) :
    value.shape ≠ .str "" := by
  by_cases other : "*" ∈ pathSegments path ∨ pos.length ≠ (pathSegments path).length
  · exact shape_of_not_ends there touched childless other read
  · simp only [not_or, ne_eq, not_not] at other
    unfold getAtPath at read
    rw [Json.getSegments_setAt_of_touches w there touched other.1 (by omega), other.2,
      List.drop_length] at read
    rw [← Option.some.inj read]
    exact textless

/-- Where a reference reaches a leaf, two leaves make it read apart, and apart they
stay behind the denylist. -/
theorem resolve_apart {ref : EnrichableFieldRef} (digests : rt.Digests maskingKey)
    (document : payload.isDocument) (there : (payload.at? pos).isSome)
    (reached : ReachesLeaf (refSource ref) payload pos) :
    ∃ w w' : Json, w.isLeaf ∧ w'.isLeaf ∧
      ∀ d d', resolve rt maskingKey (payload.setAt w pos) ref = .ok d →
        resolve rt maskingKey (payload.setAt w' pos) ref = .ok d' →
          d.map hardDenyDeep ≠ d'.map hardDenyDeep := by
  obtain ⟨w, kind, differ⟩ := exists_leaf_of_reached there reached
  have leaf : w.isLeaf := by rcases kind with rfl | rfl <;> rfl
  have plain : w.shape ≠ .str "" := by rcases kind with rfl | rfl <;> exact nofun
  have bare : Json.null.shape ≠ .str "" := nofun
  have part : w.isDocument := by rcases kind with rfl | rfl <;> rfl
  refine ⟨.null, w, rfl, leaf, fun d d' read read' same => ?_⟩
  by_cases hashed : .hash ∈ refTransforms ref
  · obtain ⟨names, again, tells, digested⟩ := resolve_hashed digests hashed
    rcases digested _ d read with ⟨missing, rfl⟩ | ⟨v, raw, found, text, rfl⟩ <;>
      rcases digested _ d' read' with ⟨missing', rfl⟩ | ⟨v', raw', found', text', rfl⟩
    · rw [missing, missing'] at differ
      exact differ rfl
    · cases same
    · cases same
    · have texts : raw = raw' := by
        simp only [Option.map_some, hardDenyDeep, hardDenyValue_digest digests, Option.some.injEq,
          Json.str.injEq] at same
        exact tells (digestText_injective digests same)
      have shapes := shape_of_rawText
        (isReading_textImage rt names
          (Json.isReading_getSegments (.inl (Json.isDocument_setAt document rfl pos)) found))
        (isReading_textImage rt names
          (Json.isReading_getSegments (.inl (Json.isDocument_setAt document part pos)) found'))
        (by
          rw [shape_textImage]
          exact shape_of_touches there reached.1 rfl bare found)
        (by
          rw [shape_textImage]
          exact shape_of_touches there reached.1 (Json.values_of_isLeaf leaf) plain found')
        text (texts ▸ text')
      rw [shape_textImage, shape_textImage] at shapes
      rw [found, found', Option.map_some, Option.map_some, shapes] at differ
      exact differ rfl
  · rw [resolve_clear _ _ _ hashed] at read read'
    rw [← Except.ok.inj read, ← Except.ok.inj read'] at same
    have shapes := congrArg (Option.map Json.shape) same
    simp only [Option.map_map, Function.comp_def, Json.shape_hardDenyDeep, shape_textImage] at shapes
    exact differ shapes

/-- Against a mapping that returns, another payload leaves the same exactly when
its values make the same record and pending list. -/
theorem leaving_eq_iff {payload' : Json}
    (returns : mapEvent rt maskingKey route payload receivedAt = .ok m) :
    leaving (mapEvent rt maskingKey route payload' receivedAt) =
        leaving (mapEvent rt maskingKey route payload receivedAt) ↔
      MapsTo rt (resolve rt maskingKey payload') (getAtPath payload') route receivedAt m.record
        m.pending := by
  rw [returns]
  constructor
  · intro same
    cases whole : mapEvent rt maskingKey route payload' receivedAt with
    | error e =>
      rw [whole] at same
      cases same
    | ok m' =>
      rw [whole] at same
      have leave : (m'.record, m'.pending) = (m.record, m.pending) := Except.ok.inj same
      rw [← (Prod.mk.inj leave).1, ← (Prod.mk.inj leave).2]
      exact mapEventWith_ok_iff.mp ⟨m'.report, whole⟩
  · intro mapped
    obtain ⟨report, whole⟩ := mapEventWith_ok_iff.mpr mapped
    unfold mapEvent
    rw [whole]
    rfl

/-- A reference shows in what leaves: mappings that leave the same read it alike,
behind the denylist. -/
def Shows (rt : Runtime) (maskingKey : Bytes) (route : RouteConfig) (receivedAt : String)
    (m : MappedEvent) (ref : EnrichableFieldRef) : Prop :=
  ∀ p p', MapsTo rt (resolve rt maskingKey p) (getAtPath p) route receivedAt m.record m.pending →
    MapsTo rt (resolve rt maskingKey p') (getAtPath p') route receivedAt m.record m.pending →
      ∃ d d', resolve rt maskingKey p ref = .ok d ∧ resolve rt maskingKey p' ref = .ok d' ∧
        d.map hardDenyDeep = d'.map hardDenyDeep

/-- A reference that shows and reaches a leaf makes it matter. -/
theorem Shows.exists_leaf {ref : EnrichableFieldRef} (shows_ : Shows rt maskingKey route receivedAt m ref)
    (digests : rt.Digests maskingKey) (document : payload.isDocument)
    (there : (payload.at? pos).isSome)
    (returns : mapEvent rt maskingKey route payload receivedAt = .ok m)
    (reached : ReachesLeaf (refSource ref) payload pos) :
    ∃ w : Json, w.isLeaf ∧
      leaving (mapEvent rt maskingKey route (payload.setAt w pos) receivedAt) ≠
        leaving (mapEvent rt maskingKey route payload receivedAt) := by
  obtain ⟨w, w', leaf, leaf', apart⟩ := resolve_apart digests document there reached
  by_contra absent
  simp only [not_exists, not_and, not_not] at absent
  obtain ⟨d, d', read, read', same⟩ := shows_ _ _ ((leaving_eq_iff returns).mp (absent w leaf))
    ((leaving_eq_iff returns).mp (absent w' leaf'))
  exact apart d d' read read' same

/-- A reference with `hash` finds a string, or nothing. -/
theorem text_of_hashed {ref : EnrichableFieldRef} {v : Json} (digests : rt.Digests maskingKey)
    (hashed : .hash ∈ refTransforms ref) (read : resolve rt maskingKey payload ref = .ok (some v)) :
    ∃ raw, v = .str (digestText rt maskingKey raw) := by
  obtain ⟨names, again, -, digested⟩ := resolve_hashed digests hashed
  rcases digested payload _ read with ⟨-, gone⟩ | ⟨value, raw, -, -, made⟩
  · cases gone
  · exact ⟨again raw, Option.some.inj made⟩

theorem shows_externalId (digests : rt.Digests maskingKey)
    (hashed : .hash ∈ refTransforms route.map.externalId.ref) :
    Shows rt maskingKey route receivedAt m route.map.externalId.ref := by
  intro p p' mapped mapped'
  obtain ⟨v, read, -⟩ := mapped.externalId_scalar
  obtain ⟨v', read', -⟩ := mapped'.externalId_scalar
  obtain ⟨raw, rfl⟩ := text_of_hashed digests hashed read
  obtain ⟨raw', rfl⟩ := text_of_hashed digests hashed read'
  have names := mapped.externalId.trans mapped'.externalId.symm
  unfold RecordMap.externalIdOf at names
  rw [read, read'] at names
  have texts : digestText rt maskingKey raw = digestText rt maskingKey raw' := Except.ok.inj names
  exact ⟨_, _, read, read', by rw [texts]⟩

/-- No digest is an amount: its first character is no digit. -/
theorem toCents_digest (rt : Runtime) (maskingKey : Bytes) (raw : String) :
    ∃ e, toCents (.str (digestText rt maskingKey raw)) = .error e := by
  have text : (String.ofList ((digestText rt maskingKey raw).toList.filter
      fun c => !(c == '$' || c == ',' || isSpace c))).toList =
      'h' :: ("mac256:".toList ++ (rt.hmacSha256Hex maskingKey raw).toList.filter
        fun c => !(c == '$' || c == ',' || isSpace c)) := by
    rw [String.toList_ofList, toList_digestText, List.filter_append]
    rfl
  simp only [toCents, pure_bind, text]
  exact ⟨_, rfl⟩

theorem amountOf_of_read {read : Reader} {map : RecordMap} {value : Option Json}
    (reads : read map.amount.ref = .ok value) : map.amountOf read = toCents (value.getD .null) := by
  unfold RecordMap.amountOf
  rw [reads]
  rfl

theorem amount_clear (digests : rt.Digests maskingKey)
    (returns : mapEvent rt maskingKey route payload receivedAt = .ok m) :
    .hash ∉ refTransforms route.map.amount.ref := by
  intro hashed
  have mapped := mapEventWith_ok_iff.mp ⟨m.report, returns⟩
  obtain ⟨v, read, -⟩ := mapped.amount_scalar
  obtain ⟨raw, rfl⟩ := text_of_hashed digests hashed read
  have counted := mapped.amount
  obtain ⟨e, fails⟩ := toCents_digest rt maskingKey raw
  rw [amountOf_of_read read, Option.getD_some, fails] at counted
  cases counted

/-- What is left to the host shows. -/
theorem shows_enriched {field : String × EnrichableFieldRef} (member : field ∈ route.map.laterFields)
    (enriched : refEnrichment field.2 ≠ none) : Shows rt maskingKey route receivedAt m field.2 := by
  intro p p' mapped mapped'
  have listed := mem_laterRefs_of_field member
  obtain ⟨d, read⟩ := mapped.readable _ listed
  obtain ⟨d', read'⟩ := mapped'.readable _ listed
  have values := readValue_of_pendingEntry enriched
    (pendingEntry_of_entries (mapped.pending.symm.trans mapped'.pending) member)
  rw [readValue_of_ok read, readValue_of_ok read'] at values
  exact ⟨d, d', read, read', by rw [values]⟩

theorem shows_metadata {entry : String × EnrichableFieldRef} (member : entry ∈ route.map.metadata) :
    Shows rt maskingKey route receivedAt m entry.2 := by
  cases enrichment : refEnrichment entry.2 with
  | some name =>
    have listed : ("metadata." ++ entry.1, entry.2) ∈ route.map.laterFields :=
      List.mem_append_left _ (List.mem_map.mpr ⟨entry, member, rfl⟩)
    have enriched : refEnrichment entry.2 ≠ none := by
      rw [enrichment]
      exact Option.some_ne_none name
    exact @shows_enriched _ _ _ _ _ ("metadata." ++ entry.1, entry.2) listed enriched
  | none =>
    intro p p' mapped mapped'
    have listed : entry.2 ∈ route.map.laterRefs := List.mem_append_left _ (List.mem_map_of_mem member)
    obtain ⟨d, read⟩ := mapped.readable _ listed
    obtain ⟨d', read'⟩ := mapped'.readable _ listed
    have values := takenValue_of_metadata (mapped.metadata.symm.trans mapped'.metadata) member
    simp only [takenValue, enrichment, readValue_of_ok read, readValue_of_ok read'] at values
    exact ⟨d, d', read, read', values⟩

theorem shows_description {ref : EnrichableFieldRef} (digests : rt.Digests maskingKey)
    (described : route.map.description = some ref) (kept : ¬ isClear ref) :
    Shows rt maskingKey route receivedAt m ref := by
  cases enrichment : refEnrichment ref with
  | some name =>
    have listed : ("description", ref) ∈ route.map.laterFields :=
      List.mem_append_right _ (by simp [described])
    exact @shows_enriched _ _ _ _ _ ("description", ref) listed (by
      rw [enrichment]
      exact Option.some_ne_none name)
  | none =>
    have hashed : .hash ∈ refTransforms ref := by
      by_contra clear
      exact kept ⟨clear, enrichment⟩
    intro p p' mapped mapped'
    have listed : ref ∈ route.map.laterRefs := List.mem_append_right _ (by simp [described])
    obtain ⟨d, read⟩ := mapped.readable _ listed
    obtain ⟨d', read'⟩ := mapped'.readable _ listed
    have texts := mapped.description.symm.trans mapped'.description
    simp only [described, Option.bind_some, takenValue, enrichment, readValue_of_ok read,
      readValue_of_ok read'] at texts
    refine ⟨d, d', read, read', ?_⟩
    have denied {q : Json} {e : Option Json} (reads : resolve rt maskingKey q ref = .ok e) :
        e.map hardDenyDeep = (descriptionText e).map .str := by
      cases e with
      | none => rfl
      | some v =>
        obtain ⟨raw, rfl⟩ := text_of_hashed digests hashed reads
        rw [Option.map_some, hardDenyDeep, descriptionText, Option.map_some]
    rw [denied read, denied read', texts]

/-- For a leaf that matters, some leaf in its place changes what leaves. -/
theorem exists_leaf_of_matters (digests : rt.Digests maskingKey) (document : payload.isDocument)
    (there : (payload.at? pos).isSome)
    (returns : mapEvent rt maskingKey route payload receivedAt = .ok m)
    (matters : LeafMatters route.map payload pos) :
    ∃ w : Json, w.isLeaf ∧
      leaving (mapEvent rt maskingKey route (payload.setAt w pos) receivedAt) ≠
        leaving (mapEvent rt maskingKey route payload receivedAt) := by
  have mapped := mapEventWith_ok_iff.mp ⟨m.report, returns⟩
  cases matters with
  | @forwarded path member reached =>
    simp only [RecordMap.forwardedPaths, List.mem_append, List.mem_cons, List.not_mem_nil, or_false,
      Option.mem_toList, Option.map_eq_some_iff, List.mem_map,
      Option.filter_eq_some_iff] at member
    rcases member with (((rfl | rfl) | ⟨ref, dated, rfl⟩) | ⟨entry, listed, rfl⟩) | ⟨ref, ⟨described, kept⟩, rfl⟩
    · by_cases hashed : .hash ∈ refTransforms route.map.externalId.ref
      · exact (shows_externalId digests hashed).exists_leaf digests document there returns reached
      · refine ⟨.null, rfl, fun same => ?_⟩
        obtain ⟨v, read, scalar⟩ := mapped.externalId_scalar
        exact ((leaving_eq_iff returns).mp same).externalId_not_null
          (resolve_setAt_null hashed there reached.1 read scalar)
    · refine ⟨.null, rfl, fun same => ?_⟩
      obtain ⟨v, read, scalar⟩ := mapped.amount_scalar
      exact ((leaving_eq_iff returns).mp same).amount_not_null
        (resolve_setAt_null (amount_clear digests returns) there reached.1 read scalar)
    · refine ⟨.null, rfl, fun same => ?_⟩
      have day := mapped.date
      rw [dated] at day
      obtain ⟨v, read, scalar⟩ := scalar_of_parseDate day
      exact ((leaving_eq_iff returns).mp same).date_not_null dated
        (getAtPath_setAt_null there reached.1 read scalar)
    · exact (shows_metadata listed).exists_leaf digests document there returns reached
    · exact (shows_description digests described (by simpa using kept)).exists_leaf digests document
        there returns reached
  | @description ref described clear plain ends touched =>
    by_contra absent
    simp only [not_exists, not_and, not_not] at absent
    have first := (leaving_eq_iff returns).mp (absent .null rfl)
    have second := (leaving_eq_iff returns).mp (absent (.str "") rfl)
    have texts := first.description.symm.trans second.description
    have read (w : Json) : getAtPath (payload.setAt w pos) (refSource ref) = some w := by
      unfold getAtPath
      rw [Json.getSegments_setAt_of_touches w there touched plain (by omega), ends, List.drop_length]
      rfl
    simp only [described, Option.bind_some, takenValue_clear clear rfl, read, Option.map_some,
      textImage_null] at texts
    obtain ⟨s, image⟩ := textImage_str rt (refTransforms ref) ""
    rw [image] at texts
    cases texts

end Leaves

/-! ## The leaves that do not -/

section Hidden

variable {rt : Runtime} {maskingKey : Bytes} {route : RouteConfig} {payload old w : Json}
  {pos : List Nat} {receivedAt : String}

/-- A description in clear comes out alike, if its path does not name the leaf. -/
theorem description_of_hidden {ref : EnrichableFieldRef} (stands : payload.at? pos = some old)
    (childless : old.values = []) (leaf : w.isLeaf) (hidden : ¬ LeafMatters route.map payload pos)
    (described : route.map.description = some ref) (clear : isClear ref) :
    descriptionText (takenValue (resolve rt maskingKey (payload.setAt w pos)) ref) =
      descriptionText (takenValue (resolve rt maskingKey payload) ref) := by
  have there : (payload.at? pos).isSome := by
    rw [stands]
    rfl
  rw [takenValue_clear clear rfl, takenValue_clear clear rfl]
  by_cases touched : Json.touches (pathSegments (refSource ref)) pos payload
  · have other : "*" ∈ pathSegments (refSource ref) ∨
        pos.length ≠ (pathSegments (refSource ref)).length := by
      by_contra exact_
      simp only [not_or, ne_eq, not_not] at exact_
      exact hidden (.description described clear exact_.1 exact_.2 touched)
    have after := descriptionText_textImage rt (refTransforms ref) fun value read =>
      shape_of_not_ends there touched (Json.values_of_isLeaf leaf) other read
    have before := descriptionText_textImage rt (refTransforms ref) fun value read =>
      shape_of_not_ends there touched childless other read
    rw [Json.setAt_self stands] at before
    exact after.trans before.symm
  · rw [show getAtPath (payload.setAt w pos) (refSource ref) = getAtPath payload (refSource ref)
      from Json.getSegments_setAt_of_not_touches w there touched]

/-- A leaf that does not matter leaves everything as it was. -/
theorem leaving_of_hidden {m : MappedEvent} (stands : payload.at? pos = some old)
    (childless : old.values = []) (leaf : w.isLeaf)
    (returns : mapEvent rt maskingKey route payload receivedAt = .ok m)
    (hidden : ¬ LeafMatters route.map payload pos) :
    leaving (mapEvent rt maskingKey route (payload.setAt w pos) receivedAt) =
      leaving (mapEvent rt maskingKey route payload receivedAt) := by
  have mapped := mapEventWith_ok_iff.mp ⟨m.report, returns⟩
  have found {path : String} (member : path ∈ route.map.forwardedPaths) :
      getAtPath (payload.setAt w pos) path = getAtPath payload path :=
    getAtPath_setAt_of_not_reached stands childless leaf fun reached =>
      hidden (.forwarded member reached)
  have same {ref : EnrichableFieldRef} (member : refSource ref ∈ route.map.forwardedPaths) :
      resolve rt maskingKey (payload.setAt w pos) ref = resolve rt maskingKey payload ref :=
    resolve_congr _ _ (found member)
  have metadata : ∀ entry ∈ route.map.metadata, refSource entry.2 ∈ route.map.forwardedPaths :=
    fun entry member => List.mem_append_left _
      (List.mem_append_right _ (List.mem_map.mpr ⟨entry, member, rfl⟩))
  refine (leaving_eq_iff returns).mpr ⟨?_, ?_, ?_, ?_, ?_, ?_, mapped.dataStreamKey,
    mapped.currency, mapped.direction, ?_⟩
  · rw [← mapped.externalId]
    unfold RecordMap.externalIdOf
    rw [same (by simp [RecordMap.forwardedPaths])]
  · rw [← mapped.amount]
    unfold RecordMap.amountOf
    rw [same (by simp [RecordMap.forwardedPaths])]
  · rw [← mapped.date]
    cases dated : route.map.date with
    | none => rfl
    | some ref =>
      have listed : (dateSource ref).1 ∈ route.map.forwardedPaths := by
        simp [RecordMap.forwardedPaths, dated]
      simp only [dateText, found listed]
  · intro ref member
    rcases List.mem_append.mp member with listed | listed
    · obtain ⟨entry, there, rfl⟩ := List.mem_map.mp listed
      rw [same (metadata entry there)]
      exact mapped.readable _ member
    · have described := Option.mem_toList.mp listed
      rcases @laterField_cases route.map ("description", ref)
        (List.mem_append_right _ (List.mem_map.mpr ⟨ref, listed, rfl⟩)) with forwarded | ⟨-, clear⟩
      · rw [same forwarded]
        exact mapped.readable _ member
      · exact ⟨_, resolve_clear _ _ _ clear.1⟩
  · rw [mapped.metadata]
    refine List.filterMap_congr fun entry member => ?_
    simp only [metadataMember, takenValue, readValue, same (metadata entry member)]
  · rw [mapped.description]
    cases described : route.map.description with
    | none => rfl
    | some ref =>
      rcases @laterField_cases route.map ("description", ref)
        (List.mem_append_right _ (by simp [described])) with forwarded | ⟨-, clear⟩
      · simp only [Option.bind_some, takenValue, readValue, same forwarded]
      · exact (description_of_hidden stands childless leaf hidden described clear).symm
  · rw [mapped.pending]
    refine List.filterMap_congr fun field member => ?_
    unfold pendingEntry
    rcases laterField_cases member with forwarded | ⟨-, clear⟩
    · simp only [readValue, same forwarded]
    · rw [clear.2]
      rfl

end Hidden

/-! ## The report -/

theorem isSome_of_resolve {rt : Runtime} {maskingKey : Bytes} {payload : Json}
    {ref : EnrichableFieldRef} {d : Option Json} (read : resolve rt maskingKey payload ref = .ok d) :
    d.isSome = (getAtPath payload (refSource ref)).isSome := by
  unfold resolve at read
  cases found : getAtPath payload (refSource ref) with
  | none =>
    rw [found] at read
    rw [← Except.ok.inj read]
  | some value =>
    rw [found] at read
    cases done : (refTransforms ref).foldlM (applyTransform rt maskingKey) value with
    | error e =>
      simp only [done] at read
      cases read
    | ok out =>
      simp only [done] at read
      rw [← Except.ok.inj read]
      rfl

/-- A reference that is read marks its source where the payload has a value. -/
theorem usedSource_resolve {rt : Runtime} {maskingKey : Bytes} {payload : Json}
    {ref : EnrichableFieldRef} {source : String}
    (reads : ∃ d, resolve rt maskingKey payload ref = .ok d) :
    usedSource (resolve rt maskingKey payload) ref = some source ↔
      refSource ref = source ∧ (getAtPath payload source).isSome := by
  obtain ⟨d, read⟩ := reads
  have there := isSome_of_resolve read
  unfold usedSource
  rw [readValue_of_ok read]
  constructor
  · intro used
    obtain ⟨v, rfl, rfl⟩ := Option.map_eq_some_iff.mp used
    exact ⟨rfl, there.symm⟩
  · rintro ⟨rfl, found⟩
    rw [found] at there
    obtain ⟨v, rfl⟩ := Option.isSome_iff_exists.mp there
    rfl

/-- A source is marked as used exactly where the payload has a value at it. -/
theorem mem_usedSources_iff {rt : Runtime} {maskingKey : Bytes} {route : RouteConfig} {payload : Json}
    {receivedAt source : String} {m : MappedEvent}
    (returns : mapEvent rt maskingKey route payload receivedAt = .ok m) :
    source ∈ route.map.usedSources (resolve rt maskingKey payload) ↔
      source ∈ route.map.sourcePaths ∧ (getAtPath payload source).isSome := by
  have mapped := mapEventWith_ok_iff.mp ⟨m.report, returns⟩
  have reads : ∀ ref ∈ route.map.refs, ∃ d, resolve rt maskingKey payload ref = .ok d := by
    intro ref member
    rcases List.mem_cons.mp member with rfl | member
    · obtain ⟨v, read, -⟩ := mapped.externalId_scalar
      exact ⟨_, read⟩
    rcases List.mem_cons.mp member with rfl | later
    · obtain ⟨v, read, -⟩ := mapped.amount_scalar
      exact ⟨_, read⟩
    · exact mapped.readable ref later
  have dated : ∀ ref, route.map.date = some ref → (getAtPath payload (dateSource ref).1).isSome := by
    intro ref named
    have day := mapped.date
    rw [named] at day
    obtain ⟨v, found, -⟩ := scalar_of_parseDate day
    rw [found]
    rfl
  unfold RecordMap.usedSources
  rw [List.mem_append, List.mem_filterMap]
  constructor
  · rintro (⟨ref, member, used⟩ | day)
    · obtain ⟨rfl, found⟩ := (usedSource_resolve (reads ref member)).mp used
      exact ⟨refSource_mem_sourcePaths member, found⟩
    · obtain ⟨ref, named, rfl⟩ := Option.map_eq_some_iff.mp (Option.mem_toList.mp day)
      exact ⟨dateSource_mem_sourcePaths named, dated ref named⟩
  · rintro ⟨listed, found⟩
    have used {ref : EnrichableFieldRef} (member : ref ∈ route.map.refs) (named : refSource ref = source) :
        ∃ ref ∈ route.map.refs, usedSource (resolve rt maskingKey payload) ref = some source :=
      ⟨ref, member, (usedSource_resolve (reads ref member)).mpr ⟨named, found⟩⟩
    simp only [RecordMap.sourcePaths, List.mem_append, List.mem_cons, List.not_mem_nil, or_false,
      List.mem_map, Option.mem_toList, Option.map_eq_some_iff] at listed
    rcases listed with (((rfl | rfl) | day) | ⟨ref, described, named⟩) | ⟨entry, there, named⟩
    · exact .inl (used List.mem_cons_self rfl)
    · exact .inl (used (List.mem_cons_of_mem _ List.mem_cons_self) rfl)
    · obtain ⟨ref, named, rfl⟩ := day
      exact .inr (Option.mem_toList.mpr (Option.mem_map_of_mem (fun ref => (dateSource ref).1) named))
    · exact .inl (used (List.mem_cons_of_mem _ (List.mem_cons_of_mem _
        (List.mem_append_right _ (Option.mem_toList.mpr described)))) named)
    · exact .inl (used (List.mem_cons_of_mem _ (List.mem_cons_of_mem _
        (List.mem_append_left _ (List.mem_map_of_mem there)))) named)

/-- The report is truthful, no leaf it lists ever mattering, exactly when every
leaf that matters is accounted for by a used source. -/
theorem signOff_truthful_iff (rt : Runtime) (maskingKey : Bytes) (route : RouteConfig)
    (payload : Json) (receivedAt : String) {m : MappedEvent} (digests : rt.Digests maskingKey)
    (document : payload.isDocument)
    (returns : mapEvent rt maskingKey route payload receivedAt = .ok m) :
    (∀ leaf ∈ payload.leafPositions "", leaf.2 ∈ m.report.notForwarded → ∀ w : Json, w.isLeaf →
      leaving (mapEvent rt maskingKey route (payload.setAt w leaf.1) receivedAt) =
        leaving (mapEvent rt maskingKey route payload receivedAt)) ↔
    ∀ leaf ∈ payload.leafPositions "", LeafMatters route.map payload leaf.1 →
      AccountedFor route.map payload leaf.2 := by
  constructor
  · intro truthful leaf member matters
    obtain ⟨old, stands, childless⟩ := Json.at?_of_mem_leafPositions payload "" member
    have there : (payload.at? leaf.1).isSome := by
      rw [stands]
      rfl
    obtain ⟨w, isLeaf, changes⟩ := exists_leaf_of_matters digests document there returns matters
    by_contra unaccounted
    refine changes (truthful leaf member ((mem_notForwarded_iff returns).mpr ⟨?_, ?_⟩) w isLeaf)
    · rw [← Json.map_snd_leafPositions]
      exact List.mem_map_of_mem member
    · intro source used
      obtain ⟨listed, found⟩ := (mem_usedSources_iff returns).mp used
      exact ⟨fun same => unaccounted ⟨source, listed, found, .inl same⟩,
        fun matched => unaccounted ⟨source, listed, found, .inr matched⟩⟩
  · intro accounted leaf member listed w isLeaf
    obtain ⟨old, stands, childless⟩ := Json.at?_of_mem_leafPositions payload "" member
    refine leaving_of_hidden stands childless isLeaf returns fun matters => ?_
    obtain ⟨source, named, found, matched⟩ := accounted leaf member matters
    have unmatched := ((mem_notForwarded_iff returns).mp listed).2 source
      ((mem_usedSources_iff returns).mpr ⟨named, found⟩)
    rcases matched with same | wildcard
    · exact unmatched.1 same
    · exact unmatched.2 wildcard

/-- A route the schema accepts that forwards a whole object as metadata. -/
def customerRoute : RouteConfig where
  id := "payments"
  source := "payabli"
  auth := .staticHeader { secretEnv := "PAYABLI_SECRET" }
  map := {
    dataStreamKey := "payments"
    externalId := { ref := .path "id" }
    amount := { ref := .path "amount" }
    direction := .credit
    metadata := [("customer", .path "customer")] }

/-- A payload for it. -/
def customerPayload : Json :=
  .obj [("id", .str "txn_1"), ("amount", .str "10.00"),
    ("customer", .obj [("email", .str "a@example.com")])]

/-- That route with the customer's address hashed. -/
def hashedCustomerRoute : RouteConfig :=
  { customerRoute with map := { customerRoute.map with
      metadata := [("payer", .object "customer.email" (some (.one .hash)) none)]
      metadataNodup := by decide } }

/-- The digest of that address under the empty key. -/
def customerDigest : String := "9029b2208b5b9011bb5994dd2602c00e24147e6b71b0ad710550048f4893e7f4"

theorem signOff_truthful_iff_customer : ∃ m,
    mapEvent (.digesting "a@example.com" customerDigest) [] hashedCustomerRoute customerPayload
      "2026-07-03T14:22:25.006Z" = .ok m ∧
    m.record.metadata = [("payer", .str ("hmac256:" ++ customerDigest))] ∧
    ((∀ leaf ∈ customerPayload.leafPositions "", leaf.2 ∈ m.report.notForwarded →
      ∀ w : Json, w.isLeaf →
        leaving (mapEvent (.digesting "a@example.com" customerDigest) [] hashedCustomerRoute
          (customerPayload.setAt w leaf.1) "2026-07-03T14:22:25.006Z") =
        leaving (mapEvent (.digesting "a@example.com" customerDigest) [] hashedCustomerRoute
          customerPayload "2026-07-03T14:22:25.006Z")) ↔
    ∀ leaf ∈ customerPayload.leafPositions "",
      LeafMatters hashedCustomerRoute.map customerPayload leaf.1 →
      AccountedFor hashedCustomerRoute.map customerPayload leaf.2) := by
  have returns : ∃ m, mapEvent (.digesting "a@example.com" customerDigest) [] hashedCustomerRoute
      customerPayload "2026-07-03T14:22:25.006Z" = .ok m ∧
      m.record.metadata = [("payer", .str ("hmac256:" ++ customerDigest))] := ⟨_, rfl, rfl⟩
  obtain ⟨m, returns, metadata⟩ := returns
  have digests : (Runtime.digesting "a@example.com" customerDigest).Digests [] :=
    Runtime.digests_digesting [] (by decide) (by decide) rfl
  exact ⟨m, returns, metadata, signOff_truthful_iff _ _ _ _ _ digests (by decide) returns⟩

/-- The report lists the leaf inside the mapped object as not forwarded, and
another value there makes other metadata. -/
theorem listed_customer_leaf_leaves : customerRoute.schemaValid ∧
    ([2, 0], "customer.email") ∈ customerPayload.leafPositions "" ∧
    (mapEvent (.knowing []) [] customerRoute customerPayload "2026-07-03T14:22:25.006Z").map
      (fun m => m.report.notForwarded) = .ok ["customer.email"] ∧
    (mapEvent (.knowing []) [] customerRoute customerPayload "2026-07-03T14:22:25.006Z").map
      (fun m => m.record.metadata) =
        .ok [("customer", .obj [("email", .str "a@example.com")])] ∧
    (mapEvent (.knowing []) [] customerRoute (customerPayload.setAt (.str "b@example.com") [2, 0])
      "2026-07-03T14:22:25.006Z").map (fun m => m.record.metadata) =
        .ok [("customer", .obj [("email", .str "b@example.com")])] := by
  refine ⟨by decide, by decide, rfl, rfl, rfl⟩

end EndCloseRelay
