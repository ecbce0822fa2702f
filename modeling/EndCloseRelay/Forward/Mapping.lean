import EndCloseRelay.Forward.Mapper

/-!
# What a mapping amounts to

`mapEventWith` threads a report, a pending list and a set of used paths through
its reads.  This module says once what comes out: `MapsTo` gives the record and
the pending list as functions of the values read, `mapEventWith_ok_iff` shows
that a mapping returns exactly those, and `MapFailure` lists the ways one
throws.  The results about what leaves the network are proved over these.
-/

namespace EndCloseRelay

open Js

/-! ## Values read -/

/-- The references a map reads once the record has its id, amount and date. -/
def RecordMap.laterRefs (map : RecordMap) : List EnrichableFieldRef :=
  map.metadata.map Prod.snd ++ map.description.toList

/-- The references a map reads with `use`, in the order it reads them. -/
def RecordMap.refs (map : RecordMap) : List EnrichableFieldRef :=
  map.externalId.ref :: map.amount.ref :: map.laterRefs

/-- What reading a reference yields: nothing when it is absent or refused. -/
def readValue (read : Reader) (ref : EnrichableFieldRef) : Option Json :=
  match read ref with
  | .ok value => value
  | .error _ => none

/-- The value the record takes now: nothing while the host is to supply it. -/
def takenValue (read : Reader) (ref : EnrichableFieldRef) : Option Json :=
  match refEnrichment ref with
  | some _ => none
  | none => readValue read ref

/-- The pending enrichment a reference leaves to the host. -/
def pendingEntry (read : Reader) (field : String) (ref : EnrichableFieldRef) :
    Option PendingEnrichment := do
  let enrichment ← refEnrichment ref
  let input ← readValue read ref
  some { field, enrichment, input, source := refSource ref }

/-- The source a reading marks as used. -/
def usedSource (read : Reader) (ref : EnrichableFieldRef) : Option String :=
  (readValue read ref).map fun _ => refSource ref

/-- One member of the record's metadata. -/
def metadataMember (read : Reader) (entry : String × EnrichableFieldRef) :
    Option (String × Json) :=
  (takenValue read entry.2).map fun value => (entry.1, hardDenyDeep value)

/-- The description a value read makes: only a string makes one. -/
def descriptionText : Option Json → Option String
  | some (.str s) => some (hardDenyValue s)
  | _ => none

/-- The fields that take part in a pending list, by name: metadata first. -/
def RecordMap.laterFields (map : RecordMap) : List (String × EnrichableFieldRef) :=
  (map.metadata.map fun entry => ("metadata." ++ entry.1, entry.2)) ++
    map.description.toList.map fun ref => ("description", ref)

/-- The pending enrichments of a whole map. -/
def RecordMap.pendingEntries (read : Reader) (map : RecordMap) : List PendingEnrichment :=
  map.laterFields.filterMap fun entry => pendingEntry read entry.1 entry.2

/-- The record's external id, without the bookkeeping. -/
def RecordMap.externalIdOf (read : Reader) (map : RecordMap) : Except RelayError String := do
  externalIdText map.externalId.ref (← read map.externalId.ref)

/-- The record's amount, without the bookkeeping. -/
def RecordMap.amountOf (read : Reader) (map : RecordMap) : Except RelayError Double := do
  toCents ((← read map.amount.ref).getD .null)

/-- The record's date, without the bookkeeping of `useDate`. -/
def dateText (rt : Runtime) (readPath : String → Option Json) (receivedAt : String) :
    Option DateRef → Except RelayError String
  | some ref => parseDate rt ((readPath (dateSource ref).1).getD .null) (dateSource ref).2
  | none => .ok (sliceTo receivedAt 10)

/-- Every source path a map's reads mark as used. -/
def RecordMap.usedSources (read : Reader) (map : RecordMap) : List String :=
  map.refs.filterMap (usedSource read) ++ (map.date.map fun ref => (dateSource ref).1).toList

theorem filterMap_cons_toList {α β : Type} (f : α → Option β) (a : α) (as : List α) :
    (a :: as).filterMap f = (f a).toList ++ as.filterMap f := by
  rw [List.filterMap_cons]
  cases f a <;> rfl

theorem mem_laterRefs_of_field {map : RecordMap} {field : String × EnrichableFieldRef}
    (member : field ∈ map.laterFields) : field.2 ∈ map.laterRefs := by
  unfold RecordMap.laterFields at member
  unfold RecordMap.laterRefs
  rcases List.mem_append.mp member with named | described
  · obtain ⟨entry, listed, rfl⟩ := List.mem_map.mp named
    exact List.mem_append_left _ (List.mem_map.mpr ⟨entry, listed, rfl⟩)
  · obtain ⟨ref, listed, rfl⟩ := List.mem_map.mp described
    exact List.mem_append_right _ listed

theorem pendingEntries_eq (read : Reader) (map : RecordMap) :
    map.pendingEntries read =
      (map.metadata.filterMap fun entry => pendingEntry read ("metadata." ++ entry.1) entry.2) ++
        (map.description.bind (pendingEntry read "description")).toList := by
  simp only [RecordMap.pendingEntries, RecordMap.laterFields, List.filterMap_append,
    List.filterMap_map, Function.comp_def]
  cases map.description with
  | none => rfl
  | some ref =>
    simp only [Option.toList_some, filterMap_cons_toList, List.filterMap_nil, List.append_nil,
      Option.bind_some]

theorem mem_usedSources {read : Reader} {map : RecordMap} {source : String} :
    source ∈ map.usedSources read ↔
      source ∈ (usedSource read map.externalId.ref).toList ∨
      source ∈ (usedSource read map.amount.ref).toList ∨
      source ∈ (map.date.map fun ref => (dateSource ref).1).toList ∨
      source ∈ (map.metadata.filterMap fun entry => usedSource read entry.2) ∨
      source ∈ (map.description.bind (usedSource read)).toList := by
  simp only [RecordMap.usedSources, RecordMap.refs, RecordMap.laterRefs, filterMap_cons_toList,
    List.filterMap_append, List.filterMap_map, List.mem_append, Function.comp_def]
  have description : (map.description.toList.filterMap (usedSource read)) =
      (map.description.bind (usedSource read)).toList := by
    cases map.description <;> rfl
  rw [description]
  tauto

theorem readable_of_not_refused {read : Reader} {ref : EnrichableFieldRef}
    (accepted : ∀ e, read ref ≠ .error e) : ∃ value, read ref = .ok value := by
  cases reads : read ref with
  | ok value => exact ⟨value, rfl⟩
  | error e => exact absurd reads (accepted e)

theorem readValue_of_ok {read : Reader} {ref : EnrichableFieldRef} {value : Option Json}
    (reads : read ref = .ok value) : readValue read ref = value := by
  simp only [readValue, reads]

theorem takenValue_of_plain {read : Reader} (ref : FieldRef) :
    takenValue read ref.ref = readValue read ref.ref := by
  simp only [takenValue, ref.plain]

theorem pendingEntry_of_plain {read : Reader} {field : String} (ref : FieldRef) :
    pendingEntry read field ref.ref = none := by
  simp [pendingEntry, ref.plain]

/-! ## One read -/

/-- What a stretch of the mapping does to its bookkeeping: it appends pending
enrichments and marks sources as used. -/
structure MapState.Grows (st st' : MapState) (entries : List PendingEnrichment)
    (sources : List String) : Prop where
  pending : st'.pending = st.pending ++ entries
  used : ∀ source, source ∈ st'.usedPaths ↔ source ∈ st.usedPaths ∨ source ∈ sources

theorem MapState.Grows.refl (st : MapState) : st.Grows st [] [] where
  pending := by simp
  used := by simp

theorem MapState.Grows.trans {a b c : MapState} {entries entries' : List PendingEnrichment}
    {sources sources' : List String} (first : a.Grows b entries sources)
    (second : b.Grows c entries' sources') :
    a.Grows c (entries ++ entries') (sources ++ sources') where
  pending := by rw [second.pending, first.pending, List.append_assoc]
  used := by
    intro source
    rw [second.used, first.used, List.mem_append, or_assoc]

theorem mem_usedPaths_addUsed {st : MapState} {source s : String} :
    s ∈ (st.addUsed source).usedPaths ↔ s ∈ st.usedPaths ∨ s = source := by
  unfold MapState.addUsed
  by_cases known : source ∈ st.usedPaths
  · simp only [known, if_true]
    constructor
    · exact Or.inl
    · rintro (used | rfl)
      · exact used
      · exact known
  · simp [known]

/-- A read that is refused ends the mapping with its error. -/
theorem use_error {read : Reader} {field : String} {ref : EnrichableFieldRef} {st : MapState}
    {e : RelayError} (reads : read ref = .error e) : use read field ref st = .error e := by
  simp only [use, reads]
  rfl

/-- A read that succeeds hands over the value the record takes now. -/
theorem use_ok {read : Reader} (field : String) {ref : EnrichableFieldRef} (st : MapState)
    {value : Option Json} (reads : read ref = .ok value) :
    ∃ st', use read field ref st = .ok (takenValue read ref, st') ∧
      st.Grows st' (pendingEntry read field ref).toList (usedSource read ref).toList := by
  have here := readValue_of_ok reads
  cases value with
  | none =>
    refine ⟨st, ?_, ?_⟩
    · simp only [use, reads, takenValue, here]
      cases refEnrichment ref <;> rfl
    · simp only [usedSource, here]
      cases enriched : refEnrichment ref <;> simpa [pendingEntry, enriched, here] using
        MapState.Grows.refl st
  | some value =>
    cases enriched : refEnrichment ref with
    | none =>
      refine ⟨_, by simp only [use, reads, takenValue, here, enriched]; rfl, ?_, ?_⟩
      · simp [pendingEntry, enriched, MapState.addUsed]
      · intro source
        simpa [usedSource, here] using mem_usedPaths_addUsed
    | some enrichment =>
      refine ⟨_, by simp only [use, reads, takenValue, enriched]; rfl, ?_, ?_⟩
      · simp [pendingEntry, enriched, here, MapState.addUsed]
      · intro source
        simpa [usedSource, here] using mem_usedPaths_addUsed

/-! ## The metadata loop, the date and the description -/

/-- When every entry can be read, the loop makes one member of each value. -/
theorem useMetadata_ok {read : Reader} (entries : List (String × EnrichableFieldRef))
    (st : MapState) (readable : ∀ entry ∈ entries, ∃ value, read entry.2 = .ok value) :
    ∃ st', useMetadata read entries st = .ok (entries.filterMap (metadataMember read), st') ∧
      st.Grows st'
        (entries.filterMap fun entry => pendingEntry read ("metadata." ++ entry.1) entry.2)
        (entries.filterMap fun entry => usedSource read entry.2) := by
  induction entries generalizing st with
  | nil => exact ⟨st, rfl, MapState.Grows.refl st⟩
  | cons entry entries ih =>
    obtain ⟨value, reads⟩ := readable entry List.mem_cons_self
    obtain ⟨st₁, head, grows⟩ := use_ok ("metadata." ++ entry.1) st reads
    obtain ⟨st₂, tail, grows'⟩ :=
      ih st₁ fun e member => readable e (List.mem_cons_of_mem entry member)
    refine ⟨st₂, ?_, ?_⟩
    · simp only [useMetadata, head, tail, bind, Except.bind, pure, Except.pure,
        List.filterMap_cons, metadataMember]
      cases takenValue read entry.2 <;> rfl
    · rw [filterMap_cons_toList, filterMap_cons_toList]
      exact grows.trans grows'

/-- When an entry is refused, the loop ends with the error of such a read. -/
theorem useMetadata_error {read : Reader} (entries : List (String × EnrichableFieldRef))
    (st : MapState) {e : RelayError} (refused : ∃ entry ∈ entries, read entry.2 = .error e) :
    ∃ e', useMetadata read entries st = .error e' ∧
      ∃ entry ∈ entries, read entry.2 = .error e' := by
  induction entries generalizing st with
  | nil => simp at refused
  | cons entry entries ih =>
    cases reads : read entry.2 with
    | error e' =>
      refine ⟨e', ?_, entry, List.mem_cons_self, reads⟩
      simp only [useMetadata, use_error reads]
      rfl
    | ok value =>
      obtain ⟨st₁, head, -⟩ := use_ok ("metadata." ++ entry.1) st reads
      have later : ∃ entry ∈ entries, read entry.2 = .error e := by
        obtain ⟨other, member, refusal⟩ := refused
        rcases List.mem_cons.mp member with rfl | member
        · rw [reads] at refusal
          cases refusal
        · exact ⟨other, member, refusal⟩
      obtain ⟨e', tail, other, member, refusal⟩ := ih st₁ later
      refine ⟨e', ?_, other, List.mem_cons_of_mem entry member, refusal⟩
      simp only [useMetadata, head, tail, bind, Except.bind]

/-- The date stage keeps the pending list and marks its own source. -/
theorem useDate_eq (rt : Runtime) (readPath : String → Option Json) (receivedAt : String)
    (date : Option DateRef) (st : MapState) :
    ∃ st', st.Grows st' [] (date.map fun ref => (dateSource ref).1).toList ∧
      useDate rt readPath receivedAt date st =
        (dateText rt readPath receivedAt date).map fun text => (text, st') := by
  cases date with
  | none => exact ⟨_, ⟨by simp, by simp⟩, rfl⟩
  | some ref =>
    refine ⟨MapState.addUsed { st with report := { st.report with
      mapped := st.report.mapped ++ [("date", (dateSource ref).1)] } } (dateSource ref).1,
      ⟨?_, ?_⟩, ?_⟩
    · simp [MapState.addUsed]
    · intro source
      simpa using mem_usedPaths_addUsed
    · simp only [useDate, dateText]
      cases parseDate rt ((readPath (dateSource ref).1).getD .null) (dateSource ref).2 <;> rfl

/-- The description stage when its reference can be read. -/
theorem useDescription_ok {read : Reader} (description : Option EnrichableFieldRef)
    (st : MapState) (readable : ∀ ref ∈ description, ∃ value, read ref = .ok value) :
    ∃ st', useDescription read description st =
        .ok (descriptionText (description.bind (takenValue read)), st') ∧
      st.Grows st' (description.bind (pendingEntry read "description")).toList
        (description.bind (usedSource read)).toList := by
  cases description with
  | none => exact ⟨st, rfl, MapState.Grows.refl st⟩
  | some ref =>
    obtain ⟨value, reads⟩ := readable ref rfl
    obtain ⟨st', done, grows⟩ := use_ok "description" st reads
    refine ⟨st', ?_, grows⟩
    simp only [useDescription, done, bind, Except.bind, Option.bind]
    rcases takenValue read ref with _ | value
    · rfl
    · cases value <;> rfl

/-! ## The whole mapping -/

/-- The record and the pending list of a mapping, by the values read. -/
structure MapsTo (rt : Runtime) (read : Reader) (readPath : String → Option Json)
    (route : RouteConfig) (receivedAt : String) (record : EndCloseRecord)
    (pending : List PendingEnrichment) : Prop where
  externalId : route.map.externalIdOf read = .ok record.externalId
  amount : route.map.amountOf read = .ok record.amount
  date : dateText rt readPath receivedAt route.map.date = .ok record.date
  readable : ∀ ref ∈ route.map.laterRefs, ∃ value, read ref = .ok value
  metadata : record.metadata = route.map.metadata.filterMap (metadataMember read)
  description : record.description =
    descriptionText (route.map.description.bind (takenValue read))
  dataStreamKey : record.dataStreamKey = route.map.dataStreamKey
  currency : record.currency = route.map.currency
  direction : record.direction = route.map.direction
  pending : pending = route.map.pendingEntries read

/-- The ways a mapping throws, in the order of its stages. -/
inductive MapFailure (rt : Runtime) (read : Reader) (readPath : String → Option Json)
    (route : RouteConfig) (receivedAt : String) (e : RelayError) : Prop
  | externalId (fails : route.map.externalIdOf read = .error e)
  | amount {text : String} (named : route.map.externalIdOf read = .ok text)
      (fails : route.map.amountOf read = .error e)
  | date {text : String} {cents : Double} (named : route.map.externalIdOf read = .ok text)
      (counted : route.map.amountOf read = .ok cents)
      (fails : dateText rt readPath receivedAt route.map.date = .error e)
  | readLater {text day : String} {cents : Double} {ref : EnrichableFieldRef}
      (named : route.map.externalIdOf read = .ok text)
      (counted : route.map.amountOf read = .ok cents)
      (dated : dateText rt readPath receivedAt route.map.date = .ok day)
      (member : ref ∈ route.map.laterRefs) (refused : read ref = .error e)

section Outcome

variable {rt : Runtime} {read : Reader} {readPath : String → Option Json} {leaves : List String}
  {route : RouteConfig} {receivedAt : String}

/-- Reading a plain reference and checking its value: the two fail together, or
both hand their result on. -/
theorem use_then {α : Type} (read : Reader) (field : String) (ref : FieldRef) (st : MapState)
    (check : Option Json → Except RelayError α) :
    (∃ e, (read ref.ref).bind check = .error e ∧ (use read field ref.ref st = .error e ∨
      ∃ value st', use read field ref.ref st = .ok (value, st') ∧ check value = .error e)) ∨
    ∃ value st' a, (read ref.ref).bind check = .ok a ∧
      use read field ref.ref st = .ok (value, st') ∧ check value = .ok a ∧
      st.Grows st' [] (usedSource read ref.ref).toList := by
  cases reads : read ref.ref with
  | error e => exact .inl ⟨e, rfl, .inl (use_error reads)⟩
  | ok value =>
    obtain ⟨st', done, grows⟩ := use_ok field st reads
    rw [takenValue_of_plain, readValue_of_ok reads] at done
    rw [pendingEntry_of_plain] at grows
    cases checked : check value with
    | error e => exact .inl ⟨e, checked, .inr ⟨value, st', done, checked⟩⟩
    | ok a => exact .inr ⟨value, st', a, checked, done, checked, grows⟩

variable (rt read readPath leaves route receivedAt) in
/-- A mapping returns what its values read make, or throws in one of its stages. -/
theorem mapEventWith_cases :
    (∃ record pending report used, MapsTo rt read readPath route receivedAt record pending ∧
      mapEventWith rt read readPath leaves route receivedAt = .ok { record, report, pending } ∧
      report.notForwarded = notForwarded used leaves ∧
      ∀ source, source ∈ used ↔ source ∈ route.map.usedSources read) ∨
    ∃ e, MapFailure rt read readPath route receivedAt e ∧
      mapEventWith rt read readPath leaves route receivedAt = .error e := by
  unfold mapEventWith
  simp only [bind]
  -- The external id.
  rcases use_then read "external_id" route.map.externalId {}
    (externalIdText route.map.externalId.ref) with
    ⟨e, fails, stop⟩ | ⟨idValue, st₁, text, named, used₁, checked₁, grows₁⟩
  · refine .inr ⟨e, .externalId fails, ?_⟩
    rcases stop with stop | ⟨value, st, used, stop⟩
    · simp only [stop, Except.bind]
    · simp only [used, stop, Except.bind]
  simp only [used₁, checked₁, Except.bind]
  -- The amount.
  rcases use_then read "amount" route.map.amount st₁ (fun value => toCents (value.getD .null)) with
    ⟨e, fails, stop⟩ | ⟨amountValue, st₂, cents, counted, used₂, checked₂, grows₂⟩
  · refine .inr ⟨e, .amount named fails, ?_⟩
    rcases stop with stop | ⟨value, st, used, stop⟩
    · simp only [stop]
    · simp only [used, stop]
  simp only [used₂, checked₂]
  -- The date.
  obtain ⟨st₃, grows₃, dating⟩ := useDate_eq rt readPath receivedAt route.map.date st₂
  cases dated : dateText rt readPath receivedAt route.map.date with
  | error e =>
    rw [dated] at dating
    exact .inr ⟨e, .date named counted dated, by simp only [dating, Except.map]⟩
  | ok day =>
  rw [dated] at dating
  simp only [dating, Except.map]
  -- The metadata and the description.
  by_cases readable : ∀ ref ∈ route.map.laterRefs, ∃ value, read ref = .ok value
  · obtain ⟨st₄, members, grows₄⟩ := useMetadata_ok route.map.metadata st₃ fun entry member =>
      readable entry.2 (List.mem_append_left _ (List.mem_map_of_mem member))
    obtain ⟨st₅, described, grows₅⟩ := useDescription_ok route.map.description st₄
      fun ref member => readable ref (List.mem_append_right _ (by simpa using member))
    have grows := (((grows₁.trans grows₂).trans grows₃).trans grows₄).trans grows₅
    refine .inl ⟨_, _, _, st₅.usedPaths, ?_, by simp only [members, described]; rfl, rfl, ?_⟩
    · refine ⟨named, counted, dated, readable, rfl, rfl, rfl, rfl, rfl, ?_⟩
      simpa only [List.nil_append, pendingEntries_eq] using grows.pending
    · intro source
      rw [grows.used, mem_usedSources]
      simp only [List.mem_append, List.not_mem_nil, false_or, or_assoc]
  · by_cases refused : ∃ e, ∃ entry ∈ route.map.metadata, read entry.2 = .error e
    · obtain ⟨e, refused⟩ := refused
      obtain ⟨e', stop, entry, member, refused⟩ := useMetadata_error _ st₃ refused
      refine .inr ⟨e', .readLater named counted dated (List.mem_append_left _
        (List.mem_map_of_mem member)) refused, by simp only [stop]⟩
    · obtain ⟨st₄, members, -⟩ := useMetadata_ok route.map.metadata st₃ fun entry member =>
        readable_of_not_refused fun e refusal => refused ⟨e, entry, member, refusal⟩
      have described : ∃ ref e, route.map.description = some ref ∧ read ref = .error e := by
        by_contra absent
        refine readable fun ref member => readable_of_not_refused fun e refusal => ?_
        rcases List.mem_append.mp member with member | member
        · obtain ⟨entry, listed, rfl⟩ := List.mem_map.mp member
          exact refused ⟨e, entry, listed, refusal⟩
        · exact absent ⟨ref, e, by simpa using member, refusal⟩
      obtain ⟨ref, e, described, refusal⟩ := described
      refine .inr ⟨e, .readLater named counted dated (List.mem_append_right _
        (by simp [described])) refusal, ?_⟩
      simp only [members, described, useDescription, use_error refusal, bind, Except.bind]

/-- The record and the pending list are determined by the values read. -/
theorem MapsTo.unique {record record' : EndCloseRecord} {pending pending' : List PendingEnrichment}
    (first : MapsTo rt read readPath route receivedAt record pending)
    (second : MapsTo rt read readPath route receivedAt record' pending') :
    record = record' ∧ pending = pending' := by
  refine ⟨?_, first.pending.trans second.pending.symm⟩
  cases record
  cases record'
  simp only [EndCloseRecord.mk.injEq]
  exact ⟨Except.ok.inj (first.date.symm.trans second.date),
    first.dataStreamKey.trans second.dataStreamKey.symm,
    Except.ok.inj (first.amount.symm.trans second.amount),
    first.currency.trans second.currency.symm, first.direction.trans second.direction.symm,
    first.description.trans second.description.symm,
    Except.ok.inj (first.externalId.symm.trans second.externalId),
    first.metadata.trans second.metadata.symm⟩

/-- No mapping both returns and throws. -/
theorem MapFailure.not_mapsTo {e : RelayError} {record : EndCloseRecord}
    {pending : List PendingEnrichment}
    (failure : MapFailure rt read readPath route receivedAt e) :
    ¬ MapsTo rt read readPath route receivedAt record pending := by
  intro mapped
  cases failure with
  | externalId fails => exact absurd (fails.symm.trans mapped.externalId) nofun
  | amount _ fails => exact absurd (fails.symm.trans mapped.amount) nofun
  | date _ _ fails => exact absurd (fails.symm.trans mapped.date) nofun
  | readLater _ _ _ member refused =>
    obtain ⟨value, reads⟩ := mapped.readable _ member
    exact absurd (refused.symm.trans reads) nofun

/-- A mapping returns a record and a pending list exactly when they are what
the values read make. -/
theorem mapEventWith_ok_iff {record : EndCloseRecord} {pending : List PendingEnrichment} :
    (∃ report, mapEventWith rt read readPath leaves route receivedAt =
        .ok { record, report, pending }) ↔
      MapsTo rt read readPath route receivedAt record pending := by
  rcases mapEventWith_cases rt read readPath leaves route receivedAt with
    ⟨record', pending', report, used, mapped, returns, -⟩ | ⟨e, failure, throws⟩
  · constructor
    · rintro ⟨report', returns'⟩
      have same := Except.ok.inj (returns.symm.trans returns')
      simp only [MappedEvent.mk.injEq] at same
      rw [← same.1, ← same.2.2]
      exact mapped
    · intro mapped'
      obtain ⟨rfl, rfl⟩ := mapped.unique mapped'
      exact ⟨report, returns⟩
  · constructor
    · rintro ⟨report', returns⟩
      exact absurd (throws.symm.trans returns) nofun
    · intro mapped
      exact absurd mapped failure.not_mapsTo

/-- A mapping throws only in one of its stages. -/
theorem MapFailure.of_error {e : RelayError}
    (throws : mapEventWith rt read readPath leaves route receivedAt = .error e) :
    MapFailure rt read readPath route receivedAt e := by
  rcases mapEventWith_cases rt read readPath leaves route receivedAt with
    ⟨record, pending, report, used, -, returns, -⟩ | ⟨e', failure, throws'⟩
  · exact absurd (throws.symm.trans returns) nofun
  · rw [Except.error.inj (throws.symm.trans throws')]
    exact failure

/-- The report of a mapping lists a leaf as not forwarded exactly when no used
source names it and no used wildcard matches it. -/
theorem mem_notForwarded_iff {m : MappedEvent} {leaf : String}
    (returns : mapEventWith rt read readPath leaves route receivedAt = .ok m) :
    leaf ∈ m.report.notForwarded ↔ leaf ∈ leaves ∧
      ∀ source ∈ route.map.usedSources read, leaf ≠ source ∧ ¬ wildcardMatches source leaf := by
  rcases mapEventWith_cases rt read readPath leaves route receivedAt with
    ⟨record, pending, report, used, -, returns', listed, sources⟩ | ⟨e, -, throws⟩
  · have same := Except.ok.inj (returns.symm.trans returns')
    rw [same, listed]
    simp only [notForwarded, List.mem_filter, Bool.and_eq_true, Bool.not_eq_true',
      List.contains_eq_mem, decide_eq_false_iff_not, List.any_eq_false, sources]
    constructor
    · rintro ⟨member, unnamed, unmatched⟩
      exact ⟨member, fun source used => ⟨fun same => unnamed (same ▸ used), unmatched source used⟩⟩
    · rintro ⟨member, unused⟩
      exact ⟨member, fun used => (unused leaf used).1 rfl, fun source used => (unused source used).2⟩
  · exact absurd (throws.symm.trans returns) nofun

end Outcome

end EndCloseRelay
