import EndCloseRelay.Forward.BatchProtocol
import EndCloseRelay.Forward.Mapping

/-!
# Which strings of a record passed the denylist

A record is compared with what its fields were taken from: the mapped values,
and what the host supplied for the enriched fields.  Every string of the
description and of the metadata is the image of its source, the names of
members are the source's own, and so is the external id.
-/

namespace EndCloseRelay

open Interaction

/-! ## Names of members -/

mutual

/-- Every member name inside a value, in order. -/
def Json.names : Json → List String
  | .arr items => itemNames items
  | .obj entries => entryNames entries
  | _ => []

/-- The member names inside the elements of an array. -/
def Json.itemNames : List Json → List String
  | [] => []
  | item :: items => item.names ++ itemNames items

/-- The names of the members of an object, and those inside them. -/
def Json.entryNames : List (String × Json) → List String
  | [] => []
  | (key, value) :: entries => key :: value.names ++ entryNames entries

end

mutual

/-- `hardDenyValue` at every string inside a value, names included. -/
def denyThroughout : Json → Json
  | .str s => .str (hardDenyValue s)
  | .arr items => .arr (denyItems items)
  | .obj entries => .obj (denyMembers entries)
  | .inherited .objectPrototype => .obj []
  | value => value

/-- `denyThroughout` at every element of an array. -/
def denyItems : List Json → List Json
  | [] => []
  | item :: items => denyThroughout item :: denyItems items

/-- `denyThroughout` at every member of an object, and `hardDenyValue` at its name. -/
def denyMembers : List (String × Json) → List (String × Json)
  | [] => []
  | (key, value) :: entries => (hardDenyValue key, denyThroughout value) :: denyMembers entries

end

/-- A name the filter leaves alone. -/
def Untouched (text : String) : Prop := hardDenyValue text = text

mutual

/-- The filter reaches every string exactly when no name would change. -/
theorem hardDenyDeep_eq_iff (value : Json) :
    hardDenyDeep value = denyThroughout value ↔ ∀ name ∈ value.names, Untouched name := by
  cases value with
  | arr items =>
    rw [hardDenyDeep, denyThroughout, Json.names, Json.arr.injEq]
    exact hardDenyItems_eq_iff items
  | obj entries =>
    rw [hardDenyDeep, denyThroughout, Json.names, Json.obj.injEq]
    exact hardDenyEntries_eq_iff entries
  | inherited member =>
    cases member with
    | function name => exact ⟨fun _ _ listed => absurd listed List.not_mem_nil, fun _ => rfl⟩
    | objectPrototype => exact ⟨fun _ _ listed => absurd listed List.not_mem_nil, fun _ => rfl⟩
  | _ => exact ⟨fun _ _ listed => absurd listed List.not_mem_nil, fun _ => rfl⟩

theorem hardDenyItems_eq_iff (items : List Json) :
    hardDenyItems items = denyItems items ↔ ∀ name ∈ Json.itemNames items, Untouched name := by
  cases items with
  | nil => exact ⟨fun _ _ listed => absurd listed List.not_mem_nil, fun _ => rfl⟩
  | cons item items =>
    rw [hardDenyItems, denyItems, Json.itemNames, List.cons.injEq, hardDenyDeep_eq_iff item,
      hardDenyItems_eq_iff items, List.forall_mem_append]

theorem hardDenyEntries_eq_iff (entries : List (String × Json)) :
    hardDenyEntries entries = denyMembers entries ↔
      ∀ name ∈ Json.entryNames entries, Untouched name := by
  cases entries with
  | nil => exact ⟨fun _ _ listed => absurd listed List.not_mem_nil, fun _ => rfl⟩
  | cons entry entries =>
    obtain ⟨key, value⟩ := entry
    rw [hardDenyEntries, denyMembers, Json.entryNames, List.cons.injEq, Prod.mk.injEq,
      hardDenyDeep_eq_iff value, hardDenyEntries_eq_iff entries, List.cons_append,
      List.forall_mem_cons, List.forall_mem_append, and_assoc]
    exact and_congr_left fun _ => eq_comm

end

/-! ## What a record was taken from -/

/-- The texts and values that the fields of a record were taken from. -/
structure RecordSources where
  externalId : String
  description : Option String
  metadata : List (String × Json)

namespace RecordSources

/-- The string a value is, for the description. -/
def stringOf : Option Json → Option String
  | some (.str s) => some s
  | _ => none

/-- The sources a mapping reads. -/
def mapped (read : Reader) (map : RecordMap) (externalId : String) : RecordSources where
  externalId
  description := stringOf (map.description.bind (takenValue read))
  metadata := map.metadata.filterMap fun entry =>
    (takenValue read entry.2).map fun value => (entry.1, value)

/-- A field the host supplied. -/
def supply (sources : RecordSources) (given : String × Json) : RecordSources :=
  if given.1 = "description" then
    match given.2 with
    | .str s => { sources with description := some s }
    | _ => sources
  else
    let key := String.ofList (given.1.toList.drop "metadata.".toList.length)
    { sources with metadata := Dispatcher.putMember sources.metadata key given.2 }

/-- Every string of the record that comes from the payload or the host is the
image of its source. -/
def Denied (sources : RecordSources) (record : EndCloseRecord) : Prop :=
  record.externalId = hardDenyValue sources.externalId ∧
    record.description = sources.description.map hardDenyValue ∧
    record.metadata = sources.metadata.map fun entry => (entry.1, denyThroughout entry.2)

/-- What the code makes of the sources. -/
structure Makes (sources : RecordSources) (record : EndCloseRecord) : Prop where
  externalId : record.externalId = sources.externalId
  description : record.description = sources.description.map hardDenyValue
  metadata : record.metadata = sources.metadata.map fun entry => (entry.1, hardDenyDeep entry.2)

/-- Nothing the filter does not reach would change under it: neither the
external id nor a member name inside the metadata. -/
def Clean (sources : RecordSources) : Prop :=
  Untouched sources.externalId ∧ ∀ entry ∈ sources.metadata, ∀ name ∈ entry.2.names, Untouched name

/-- Every string of a record passed the filter exactly when those it does not
reach are clean. -/
theorem Makes.denied_iff {sources : RecordSources} {record : EndCloseRecord}
    (makes : sources.Makes record) : sources.Denied record ↔ sources.Clean := by
  have lists : record.metadata =
        (sources.metadata.map fun entry => (entry.1, denyThroughout entry.2)) ↔
      ∀ entry ∈ sources.metadata, ∀ name ∈ entry.2.names, Untouched name := by
    rw [makes.metadata, List.map_inj_left]
    refine forall₂_congr fun entry _ => ?_
    rw [Prod.mk.injEq, hardDenyDeep_eq_iff]
    exact and_iff_right rfl
  have ids : record.externalId = hardDenyValue sources.externalId ↔
      Untouched sources.externalId := by
    rw [makes.externalId]
    exact eq_comm
  unfold Denied Clean
  rw [ids, lists]
  exact and_congr_right fun _ => and_iff_right makes.description

theorem stringOf_deny (value : Option Json) :
    descriptionText value = (stringOf value).map hardDenyValue := by
  cases value with
  | none => rfl
  | some value => cases value <;> rfl

/-- A mapping makes its record of what it reads. -/
theorem makes_of_mapsTo {rt : Runtime} {read : Reader} {readPath : String → Option Json}
    {route : RouteConfig} {receivedAt : String} {record : EndCloseRecord}
    {pending : List PendingEnrichment}
    (maps : MapsTo rt read readPath route receivedAt record pending) :
    (mapped read route.map record.externalId).Makes record where
  externalId := rfl
  description := maps.description.trans (stringOf_deny _)
  metadata := by
    rw [maps.metadata, mapped, List.map_filterMap]
    refine List.filterMap_congr fun entry _ => ?_
    rw [metadataMember, Option.map_map]
    rfl

/-- A filter of the values commutes with putting a member in. -/
theorem map_putMember (f : Json → Json) (entries : List (String × Json)) (key : String)
    (value : Json) :
    (Dispatcher.putMember entries key value).map (fun entry => (entry.1, f entry.2)) =
      Dispatcher.putMember (entries.map fun entry => (entry.1, f entry.2)) key (f value) := by
  have keys : (entries.map fun entry => (entry.1, f entry.2)).map Prod.fst =
      entries.map Prod.fst := by
    rw [List.map_map]
    rfl
  unfold Dispatcher.putMember
  rw [keys]
  split
  · rw [List.map_map, List.map_map]
    refine List.map_congr_left fun entry _ => ?_
    simp only [Function.comp_apply]
    split <;> rfl
  · rw [List.map_append]
    rfl

/-- What the host supplies and the filter passes goes where its source goes. -/
theorem Makes.supply {sources : RecordSources} {record : EndCloseRecord}
    (makes : sources.Makes record) (given : String × Json) :
    (sources.supply given).Makes
      (Dispatcher.fillField record given.1 (hardDenyDeep given.2)) := by
  obtain ⟨field, value⟩ := given
  unfold RecordSources.supply Dispatcher.fillField
  split
  · cases value with
    | str s => exact ⟨makes.externalId, rfl, makes.metadata⟩
    | inherited member => cases member <;> exact makes
    | _ => exact makes
  · refine ⟨makes.externalId, makes.description, ?_⟩
    rw [map_putMember, ← makes.metadata]

end RecordSources

/-! ## The records of a cycle -/

namespace Dispatcher

/-- `Filled`, with what the host supplied: the values it returned, as JSON,
under the fields they are for. -/
inductive FilledWith (event : EventRecord) (payload : Json) (calls : Calls) :
    List PendingEnrichment → EndCloseRecord → EndCloseRecord → List (String × Json) → Prop
  | done {record} : FilledWith event payload calls [] record record []
  | omitted {p pending record filled supplied}
      (asked : (⟨.enrich event.id p.enrichment p.input (enrichContext event payload p.field),
        .ok .undefined⟩ : Exchange Op.Answer) ∈ calls)
      (rest : FilledWith event payload calls pending record filled supplied) :
      FilledWith event payload calls (p :: pending) record filled supplied
  | applied {p pending record filled supplied value given}
      (asked : (⟨.enrich event.id p.enrichment p.input (enrichContext event payload p.field),
        .ok value⟩ : Exchange Op.Answer) ∈ calls)
      (passed : value.assertJson p.field = .ok given)
      (rest : FilledWith event payload calls pending
        (fillField record p.field (hardDenyDeep given)) filled supplied) :
      FilledWith event payload calls (p :: pending) record filled ((p.field, given) :: supplied)

/-- The sources of a record built from an event in a cycle. -/
def SourcesOf (deps : DispatcherDeps) (calls : Calls) (event : EventRecord)
    (record : EndCloseRecord) (sources : RecordSources) : Prop :=
  ∃ route payload result supplied externalId,
    (⟨.getRoute event.routeId, .ok (some route)⟩ : Exchange Op.Answer) ∈ calls ∧
    readEvent deps route event = .ok (payload, result) ∧
    route.map.externalIdOf (resolve deps.runtime deps.maskingKey payload) = .ok externalId ∧
    FilledWith event payload calls result.pending result.record record supplied ∧
    sources = supplied.foldl RecordSources.supply
      (.mapped (resolve deps.runtime deps.maskingKey payload) route.map externalId)

/-- A returned value passes the checks as what the host supplied. -/
theorem checkReturned_ok {field : String} {returned : Except RelayError HostValue}
    {value : Option Json} (checked : checkReturned field returned = .ok value) :
    ∃ host, returned = .ok host ∧
      ((host = .undefined ∧ value = none) ∨
        ∃ given, host.assertJson field = .ok given ∧ value = some (hardDenyDeep given)) := by
  cases returned with
  | error err => cases checked
  | ok host =>
    refine ⟨host, rfl, ?_⟩
    have valid : validateEnrichedValue host field = .ok value := by
      cases validated : validateEnrichedValue host field with
      | error err =>
        rw [checkReturned] at checked
        simp only [bind, Except.bind, validated] at checked
        cases checked
      | ok passed =>
        rw [checkReturned] at checked
        simp only [bind, Except.bind, validated] at checked
        split at checked
        · exact checked
        · exact checked
        · split at checked
          · cases checked
          · exact checked
    cases value with
    | none =>
      refine .inl ⟨?_, rfl⟩
      unfold validateEnrichedValue at valid
      split at valid
      · rfl
      · cases passed : host.assertJson field <;> rw [passed] at valid <;> cases valid
    | some json =>
      obtain ⟨given, passed, rfl⟩ := validateEnrichedValue_ok valid
      exact .inr ⟨given, passed, rfl⟩

/-- What fills a record was supplied by the host. -/
theorem filledWith_of_filled {event : EventRecord} {payload : Json} {calls : Calls}
    {pending : List PendingEnrichment} {record filled : EndCloseRecord}
    (fills : Filled event payload calls pending record filled) :
    ∃ supplied, FilledWith event payload calls pending record filled supplied := by
  induction fills with
  | done => exact ⟨[], .done⟩
  | omitted asked checked _ ih =>
    obtain ⟨supplied, rest⟩ := ih
    obtain ⟨host, rfl, ⟨rfl, -⟩ | ⟨given, -, same⟩⟩ := checkReturned_ok checked
    · exact ⟨supplied, .omitted asked rest⟩
    · cases same
  | applied asked checked _ ih =>
    obtain ⟨supplied, rest⟩ := ih
    obtain ⟨host, rfl, ⟨-, same⟩ | ⟨given, passed, same⟩⟩ := checkReturned_ok checked
    · cases same
    · obtain rfl := Option.some.inj same
      exact ⟨_, .applied asked passed rest⟩

/-- A filled record is what the code makes of the sources and the host's values. -/
theorem FilledWith.makes {event : EventRecord} {payload : Json} {calls : Calls}
    {pending : List PendingEnrichment} {record filled : EndCloseRecord}
    {supplied : List (String × Json)} {sources : RecordSources}
    (fills : FilledWith event payload calls pending record filled supplied)
    (makes : sources.Makes record) :
    (supplied.foldl RecordSources.supply sources).Makes filled := by
  induction fills generalizing sources with
  | done => exact makes
  | omitted _ _ ih => exact ih makes
  | applied _ _ _ ih => exact ih (makes.supply _)

/-- What is read of an event decodes, parses and maps. -/
theorem readEvent_ok {deps : DispatcherDeps} {route : RouteConfig} {event : EventRecord}
    {payload : Json} {result : MappedEvent}
    (read : readEvent deps route event = .ok (payload, result)) :
    ∃ plaintext, deps.codec.decode event.payload event.payloadIv = .ok plaintext ∧
      deps.runtime.jsonParse plaintext = .ok payload ∧
      mapEvent deps.runtime deps.maskingKey route payload (Js.toISOString event.receivedAt) =
        .ok result := by
  unfold readEvent at read
  simp only [bind, Except.bind] at read
  split at read
  · cases read
  · rename_i plaintext decoded
    cases parsed : deps.runtime.jsonParse plaintext with
    | error message =>
      rw [parsed] at read
      cases read
    | ok document =>
      rw [parsed] at read
      simp only [Except.mapError] at read
      split at read
      · cases read
      · rename_i mapped returns
        obtain ⟨rfl, rfl⟩ := Prod.mk.inj (Except.ok.inj read)
        exact ⟨plaintext, decoded, parsed, returns⟩

/-- What is read of an event is what its payload maps to. -/
theorem mapsTo_of_readEvent {deps : DispatcherDeps} {route : RouteConfig} {event : EventRecord}
    {payload : Json} {result : MappedEvent}
    (read : readEvent deps route event = .ok (payload, result)) :
    MapsTo deps.runtime (resolve deps.runtime deps.maskingKey payload) (getAtPath payload) route
      (Js.toISOString event.receivedAt) result.record result.pending := by
  obtain ⟨plaintext, -, -, returns⟩ := readEvent_ok read
  exact mapEventWith_ok_iff.mp ⟨result.report, returns⟩

/-- A record built in a cycle has sources. -/
theorem exists_sourcesOf {deps : DispatcherDeps} {calls : Calls} {event : EventRecord}
    {record : EndCloseRecord} (built : BuiltFrom deps calls event record) :
    ∃ sources, SourcesOf deps calls event record sources := by
  obtain ⟨route, payload, result, given, read, fills⟩ := built
  obtain ⟨supplied, filled⟩ := filledWith_of_filled fills
  exact ⟨_, route, payload, result, supplied, _, given, read,
    (mapsTo_of_readEvent read).externalId, filled, rfl⟩

/-- A record is what the code makes of its sources. -/
theorem SourcesOf.makes {deps : DispatcherDeps} {calls : Calls} {event : EventRecord}
    {record : EndCloseRecord} {sources : RecordSources}
    (from_ : SourcesOf deps calls event record sources) : sources.Makes record := by
  obtain ⟨route, payload, result, supplied, externalId, given, read, named, filled, rfl⟩ := from_
  have maps := mapsTo_of_readEvent read
  obtain rfl := Except.ok.inj (named.symm.trans maps.externalId)
  exact filled.makes (RecordSources.makes_of_mapsTo maps)

end Dispatcher

end EndCloseRelay
