import EndCloseRelay.Forward.BatchWork
import EndCloseRelay.Forward.Exposure
import EndCloseRelay.Forward.Isolation
import EndCloseRelay.Forward.KeyCollisions
import EndCloseRelay.Forward.Supplies
import EndCloseRelay.Interaction.Machine

/-!
# What enrichments do to a record

The host fills the pending fields of a record.  `Enriched` says what a filled
record is, and `Confined` what is to become of an event whose enrichments are
answered by a host; `confined_iff` says when the dispatcher does that.
-/

namespace EndCloseRelay.Dispatcher

open Interaction

/-! ## What a host's answer is to do -/

/-- How holes are read, and which names are of functions. -/
structure Reading (deps : DispatcherDeps) where
  hole : Option Json
  there : String → Prop
  loose : hole = none ∨ hole = some .null
  known : ∀ name, there name → knowsEnrichment deps name

/-- A hole is no JSON, and only what the host registered is a function. -/
def Reading.strict (deps : DispatcherDeps) : Reading deps where
  hole := none
  there name := ∃ names, deps.enrichments = some names ∧ name ∈ names
  loose := .inl rfl
  known name := by
    rintro ⟨names, given, member⟩
    rw [knowsEnrichment, given]
    simp [member]

/-- A hole is `null`, and what every object inherits is a function. -/
def Reading.lax (deps : DispatcherDeps) : Reading deps where
  hole := some .null
  there name := knowsEnrichment deps name
  loose := .inr rfl
  known _ there := there

section

variable {deps : DispatcherDeps}

/-- The field is filled, or left out. -/
inductive Usable (R : Reading deps) (returned : PendingEnrichment → Except RelayError HostValue)
    (p : PendingEnrichment) : Prop
  | omitted (there : R.there p.enrichment) (given : returned p = .ok .undefined)
  | filled (there : R.there p.enrichment) {value : HostValue} {v : Json}
      (given : returned p = .ok value) (fit : Fit R.hole p.field value v)

/-- The event is to be parked: the function is missing, throws an
`EnrichmentError` or returns what may not enter the field. -/
inductive Refused (R : Reading deps) (returned : PendingEnrichment → Except RelayError HostValue)
    (p : PendingEnrichment) : Prop
  | missing (absent : ¬ R.there p.enrichment)
  | rejected {message : String} (given : returned p = .error (.enrichment message))
  | unfit {value : HostValue} (given : returned p = .ok value) (other : value ≠ .undefined)
      (unfit : ∀ v, ¬ Fit R.hole p.field value v)

/-- The event is to be tried again: the function fails in any other way. -/
inductive Failed (R : Reading deps) (returned : PendingEnrichment → Except RelayError HostValue)
    (p : PendingEnrichment) : Prop
  | failed (there : R.there p.enrichment) {err : RelayError} (given : returned p = .error err)
      (other : ∀ message, err ≠ .enrichment message)

/-- The first of the pending enrichments that cannot be used is of a kind. -/
def Reaches (R : Reading deps) (returned : PendingEnrichment → Except RelayError HostValue)
    (pending : List PendingEnrichment) (kind : PendingEnrichment → Prop) : Prop :=
  ∃ before p after, pending = before ++ p :: after ∧ (∀ q ∈ before, Usable R returned q) ∧ kind p

variable {R : Reading deps} {returned : PendingEnrichment → Except RelayError HostValue}
  {p : PendingEnrichment} {pending : List PendingEnrichment}

theorem answer_cases (R : Reading deps) (returned : PendingEnrichment → Except RelayError HostValue)
    (p : PendingEnrichment) : Usable R returned p ∨ Refused R returned p ∨ Failed R returned p := by
  by_cases there : R.there p.enrichment
  · cases given : returned p with
    | error err =>
      by_cases enrichment : ∃ message, err = .enrichment message
      · obtain ⟨message, rfl⟩ := enrichment
        exact .inr (.inl (.rejected given))
      · exact .inr (.inr (.failed there given fun message same => enrichment ⟨message, same⟩))
    | ok value =>
      by_cases none_ : value = .undefined
      · exact .inl (.omitted there (none_ ▸ given))
      · by_cases fit : ∃ v, Fit R.hole p.field value v
        · obtain ⟨v, fit⟩ := fit
          exact .inl (.filled there given fit)
        · exact .inr (.inl (.unfit given none_ fun v here => fit ⟨v, here⟩))
  · exact .inr (.inl (.missing there))

theorem reaches_cases (R : Reading deps) (returned : PendingEnrichment → Except RelayError HostValue)
    (pending : List PendingEnrichment) :
    (∀ p ∈ pending, Usable R returned p) ∨ Reaches R returned pending (Refused R returned) ∨
      Reaches R returned pending (Failed R returned) := by
  have later : ∀ {p pending kind}, Usable R returned p → Reaches R returned pending kind →
      Reaches R returned (p :: pending) kind := by
    rintro p pending kind usable ⟨before, q, after, rfl, all, here⟩
    exact ⟨p :: before, q, after, rfl, List.forall_mem_cons.mpr ⟨usable, all⟩, here⟩
  induction pending with
  | nil => exact .inl (List.forall_mem_nil _)
  | cons p pending ih =>
    rcases answer_cases R returned p with usable | refused | failed
    · rcases ih with all | reached | reached
      · exact .inl (List.forall_mem_cons.mpr ⟨usable, all⟩)
      · exact .inr (.inl (later usable reached))
      · exact .inr (.inr (later usable reached))
    · exact .inr (.inl ⟨[], p, pending, rfl, List.forall_mem_nil _, refused⟩)
    · exact .inr (.inr ⟨[], p, pending, rfl, List.forall_mem_nil _, failed⟩)

theorem Reading.fit (R : Reading deps) {field : String} {value : HostValue} {v : Json}
    (fit : Fit R.hole field value v) : Fit (some .null) field value v := by
  rcases R.loose with strict | lax
  · exact (strict ▸ fit).loosen _
  · exact lax ▸ fit

/-- What can be used can be used when holes and names are read as the code does. -/
theorem Usable.lax (usable : Usable R returned p) : Usable (Reading.lax deps) returned p := by
  cases usable with
  | omitted there given => exact .omitted (R.known _ there) given
  | filled there given fit => exact .filled (R.known _ there) given (R.fit fit)

theorem Reaches.lax (reached : Reaches R returned pending (Failed R returned)) :
    Reaches (Reading.lax deps) returned pending (Failed (Reading.lax deps) returned) := by
  obtain ⟨before, p, after, parts, usable, ⟨there, given, other⟩⟩ := reached
  exact ⟨before, p, after, parts, fun q member => (usable q member).lax,
    .failed (R.known _ there) given other⟩

end

/-! ## What the code does -/

section

variable {deps : DispatcherDeps} {host : Host} {event : EventRecord} {payload : Json}
  {pending : List PendingEnrichment} {record : EndCloseRecord}

/-- The host's answer for a pending enrichment of an event. -/
def answerFor (host : Host) (event : EventRecord) (payload : Json) (p : PendingEnrichment) :
    Except RelayError HostValue :=
  host.enrich event.id p.enrichment p.input (enrichContext event payload p.field)

theorem fillAll_known {p : PendingEnrichment} (known : knowsEnrichment deps p.enrichment) :
    fillAll deps host event payload (p :: pending) record =
      match checkReturned p.field (answerFor host event payload p) with
      | .error err => .error (wrapEnrich p.field p.enrichment err)
      | .ok none => fillAll deps host event payload pending record
      | .ok (some value) =>
        fillAll deps host event payload pending (fillField record p.field value) := by
  rw [fillAll, if_pos known]
  rfl

theorem fillAll_omitted {p : PendingEnrichment} (known : knowsEnrichment deps p.enrichment)
    (given : answerFor host event payload p = .ok .undefined) :
    fillAll deps host event payload (p :: pending) record =
      fillAll deps host event payload pending record := by
  rw [fillAll_known known, given, checkReturned_undefined]

theorem fillAll_filled {p : PendingEnrichment} {value : HostValue} {v : Json}
    (known : knowsEnrichment deps p.enrichment)
    (given : answerFor host event payload p = .ok value) (fit : Fit (some .null) p.field value v) :
    fillAll deps host event payload (p :: pending) record =
      fillAll deps host event payload pending (fillField record p.field (hardDenyDeep v)) := by
  rw [fillAll_known known, given, checkReturned_fit fit]

/-- A usable answer is followed by the next. -/
theorem fillAll_cons (pending : List PendingEnrichment) (record : EndCloseRecord)
    {p : PendingEnrichment}
    (usable : Usable (Reading.lax deps) (answerFor host event payload) p) :
    ∃ next, fillAll deps host event payload (p :: pending) record =
      fillAll deps host event payload pending next := by
  cases usable with
  | omitted there given => exact ⟨_, fillAll_omitted there given⟩
  | filled there given fit => exact ⟨_, fillAll_filled there given fit⟩

theorem fillAll_append (pending : List PendingEnrichment) (record : EndCloseRecord)
    {before : List PendingEnrichment}
    (usable : ∀ q ∈ before, Usable (Reading.lax deps) (answerFor host event payload) q) :
    ∃ next, fillAll deps host event payload (before ++ pending) record =
      fillAll deps host event payload pending next := by
  induction before generalizing record with
  | nil => exact ⟨record, rfl⟩
  | cons q before ih =>
    obtain ⟨here, later⟩ := List.forall_mem_cons.mp usable
    obtain ⟨next, step⟩ := fillAll_cons (before ++ pending) record here
    obtain ⟨last, rest⟩ := ih next later
    exact ⟨last, step.trans rest⟩

/-- Where all answers can be used the record is filled. -/
theorem fillAll_usable (record : EndCloseRecord)
    (usable : ∀ p ∈ pending, Usable (Reading.lax deps) (answerFor host event payload) p) :
    ∃ filled, fillAll deps host event payload pending record = .ok filled := by
  obtain ⟨next, filled⟩ := fillAll_append [] record usable
  rw [List.append_nil] at filled
  exact ⟨next, filled⟩

/-- The first that is refused parks the event. -/
theorem fillAll_refused (record : EndCloseRecord)
    (reached : Reaches (Reading.lax deps) (answerFor host event payload) pending
      (Refused (Reading.lax deps) (answerFor host event payload))) :
    ∃ message, fillAll deps host event payload pending record = .error (.enrichment message) := by
  obtain ⟨before, p, after, rfl, usable, refused⟩ := reached
  obtain ⟨next, filled⟩ := fillAll_append (p :: after) record usable
  rw [filled]
  by_cases known : knowsEnrichment deps p.enrichment
  · rw [fillAll_known known]
    cases refused with
    | missing absent => exact absurd known absent
    | rejected given =>
      rw [given]
      exact ⟨_, rfl⟩
    | unfit given other unfit =>
      obtain ⟨message, checked⟩ := checkReturned_unfit other unfit
      rw [given, checked]
      exact ⟨_, rfl⟩
  · exact ⟨_, by rw [fillAll, if_neg known]⟩

/-- The first that fails puts it off. -/
theorem fillAll_failed (record : EndCloseRecord)
    (reached : Reaches (Reading.lax deps) (answerFor host event payload) pending
      (Failed (Reading.lax deps) (answerFor host event payload))) :
    ∃ message, fillAll deps host event payload pending record = .error (.other message) := by
  obtain ⟨before, p, after, rfl, usable, there, given, other⟩ := reached
  obtain ⟨next, filled⟩ := fillAll_append (p :: after) record usable
  rw [filled, fillAll_known there, given]
  rename_i err
  cases err with
  | enrichment message => exact absurd rfl (other message)
  | _ => exact ⟨_, rfl⟩

/-- The event is parked exactly when the first that cannot be used is refused. -/
theorem fillAll_refused_iff :
    (∃ message, fillAll deps host event payload pending record = .error (.enrichment message)) ↔
      Reaches (Reading.lax deps) (answerFor host event payload) pending
        (Refused (Reading.lax deps) (answerFor host event payload)) := by
  refine ⟨?_, fillAll_refused record⟩
  rintro ⟨message, outcome⟩
  rcases reaches_cases (Reading.lax deps) (answerFor host event payload) pending with
    usable | refused | failed
  · obtain ⟨filled, same⟩ := fillAll_usable record usable
    cases same.symm.trans outcome
  · exact refused
  · obtain ⟨other, same⟩ := fillAll_failed record failed
    cases same.symm.trans outcome

end

/-! ## Filled records -/

/-- A field a host can fill. -/
def IsOutput (field : String) : Prop := field = "description" ∨ ∃ key, field = "metadata." ++ key

/-- What a record has in such a field. -/
def outputOf (record : EndCloseRecord) (field : String) : Option Json :=
  if field = "description" then record.description.map .str
  else record.metadata.lookup (String.ofList (field.toList.drop "metadata.".toList.length))

theorem metadata_ne (key : String) : "metadata." ++ key ≠ "description" := by
  intro same
  have lists := congrArg String.toList same
  simp at lists

theorem metadata_key (key : String) :
    String.ofList (("metadata." ++ key).toList.drop "metadata.".toList.length) = key := by
  rw [String.toList_append, List.drop_left, String.ofList_toList]

theorem outputOf_metadata (record : EndCloseRecord) (key : String) :
    outputOf record ("metadata." ++ key) = record.metadata.lookup key := by
  rw [outputOf, if_neg (metadata_ne key), metadata_key]

theorem lookup_replaced (entries : List (String × Json)) (key : String) (value : Json)
    (name : String) :
    (entries.map fun entry => if entry.1 = key then (key, value) else entry).lookup name =
      if name = key then (entries.lookup name).map fun _ => value else entries.lookup name := by
  induction entries with
  | nil => exact (ite_self none).symm
  | cons entry entries ih =>
    obtain ⟨k, v⟩ := entry
    by_cases here : name = k
    · subst here
      by_cases named : name = key
      · subst named
        simp
      · simp [named]
    · have apart : (name == k) = false := beq_eq_false_iff_ne.mpr here
      by_cases named : k = key
      · subst named
        simp [List.lookup_cons, apart, here, ih]
      · simp [List.lookup_cons, apart, named, ih]

theorem lookup_putMember (entries : List (String × Json)) (key : String) (value : Json)
    (name : String) : (putMember entries key value).lookup name =
      if name = key then some value else entries.lookup name := by
  unfold putMember
  by_cases member : key ∈ entries.map Prod.fst
  · rw [if_pos member, lookup_replaced]
    by_cases named : name = key
    · subst named
      obtain ⟨entry, there, same⟩ := List.mem_map.mp member
      have found : entries.lookup name ≠ none := by
        rw [Ne, List.lookup_eq_none_iff]
        intro absent
        simpa [same] using absent entry there
      obtain ⟨v, known⟩ := Option.ne_none_iff_exists'.mp found
      rw [if_pos rfl, if_pos rfl, known]
      rfl
    · rw [if_neg named, if_neg named]
  · rw [if_neg member, List.lookup_append]
    by_cases named : name = key
    · subst named
      have absent : entries.lookup name = none := by
        rw [List.lookup_eq_none_iff]
        intro entry there
        rw [bne_iff_ne]
        rintro rfl
        exact member (List.mem_map_of_mem there)
      rw [absent, if_pos rfl]
      simp
    · rw [if_neg named]
      simp [List.lookup_cons, beq_eq_false_iff_ne.mpr named]

theorem outputOf_fillField (record : EndCloseRecord) {field other : String} {value : Json}
    (output : IsOutput field) (output' : IsOutput other)
    (text : field = "description" → ∃ s, value = .str s) :
    outputOf (fillField record field value) other =
      if other = field then some value else outputOf record other := by
  rcases output with rfl | ⟨key, rfl⟩
  · obtain ⟨s, rfl⟩ := text rfl
    unfold fillField
    rw [if_pos rfl]
    rcases output' with rfl | ⟨name, rfl⟩
    · rw [if_pos rfl]
      rfl
    · rw [if_neg (metadata_ne name), outputOf_metadata, outputOf_metadata]
  · unfold fillField
    rw [if_neg (metadata_ne key), metadata_key]
    rcases output' with rfl | ⟨name, rfl⟩
    · rw [if_neg (metadata_ne key).symm]
      rfl
    · rw [outputOf_metadata, outputOf_metadata, lookup_putMember]
      exact if_congr (String.append_right_inj _).symm rfl rfl

/-- A record with its pending fields filled: each is left out, as the host said,
or has the JSON it returned, filtered; all else is as it was mapped. -/
structure Enriched (hole : Option Json) (returned : PendingEnrichment → Except RelayError HostValue)
    (pending : List PendingEnrichment) (mapped record : EndCloseRecord) : Prop where
  rest : { record with description := mapped.description, metadata := mapped.metadata } = mapped
  others : ∀ field, IsOutput field → field ∉ pending.map PendingEnrichment.field →
    outputOf record field = outputOf mapped field
  each : ∀ p ∈ pending, (returned p = .ok .undefined ∧ outputOf record p.field = none) ∨
    ∃ value v, returned p = .ok value ∧ Fit hole p.field value v ∧
      outputOf record p.field = some (hardDenyDeep v)

theorem rest_fillField (record : EndCloseRecord) (field : String) (value : Json) :
    { fillField record field value with
      description := record.description, metadata := record.metadata } = record := by
  unfold fillField
  split
  · split <;> rfl
  · rfl

section

variable {deps : DispatcherDeps} {host : Host} {event : EventRecord} {payload : Json}
  {pending : List PendingEnrichment} {record filled : EndCloseRecord}

/-- Distinct fields that are empty and can all be filled are filled as the host answered. -/
theorem fillAll_enriched (R : Reading deps)
    (usable : ∀ p ∈ pending, Usable R (answerFor host event payload) p)
    (distinct : (pending.map PendingEnrichment.field).Nodup)
    (outputs : ∀ p ∈ pending, IsOutput p.field)
    (empty : ∀ p ∈ pending, outputOf record p.field = none)
    (fills : fillAll deps host event payload pending record = .ok filled) :
    Enriched R.hole (answerFor host event payload) pending record filled := by
  induction pending generalizing record with
  | nil =>
    obtain rfl := Except.ok.inj fills
    exact ⟨rfl, fun _ _ _ => rfl, List.forall_mem_nil _⟩
  | cons p pending ih =>
    obtain ⟨here, later⟩ := List.forall_mem_cons.mp usable
    obtain ⟨output, outputs⟩ := List.forall_mem_cons.mp outputs
    obtain ⟨none_, empty⟩ := List.forall_mem_cons.mp empty
    rw [List.map_cons, List.nodup_cons] at distinct
    obtain ⟨apart, distinct⟩ := distinct
    cases here with
    | omitted there given =>
      rw [fillAll_omitted (R.known _ there) given] at fills
      have rest := ih later distinct outputs empty fills
      refine ⟨rest.rest, fun field output' out => rest.others field output' ?_, ?_⟩
      · exact fun member => out (List.mem_cons_of_mem _ member)
      · refine List.forall_mem_cons.mpr ⟨.inl ⟨given, ?_⟩, rest.each⟩
        rw [rest.others p.field output apart, none_]
    | @filled there value v given fit =>
      rw [fillAll_filled (R.known _ there) given (R.fit fit)] at fills
      have text : p.field = "description" → ∃ s, hardDenyDeep v = .str s :=
        fun described => isText_hardDenyDeep.mpr (fit.text described)
      have put := fun other (output' : IsOutput other) =>
        outputOf_fillField record output output' text
      have still : ∀ q ∈ pending,
          outputOf (fillField record p.field (hardDenyDeep v)) q.field = none := by
        intro q member
        rw [put q.field (outputs q member), if_neg, empty q member]
        exact fun same => apart (same ▸ List.mem_map_of_mem member)
      have rest := ih later distinct outputs still fills
      refine ⟨?_, fun field output' out => ?_, ?_⟩
      · have both := congrArg (fun r : EndCloseRecord =>
          { r with description := record.description, metadata := record.metadata }) rest.rest
        exact both.trans (rest_fillField record p.field (hardDenyDeep v))
      · rw [List.map_cons, List.mem_cons, not_or] at out
        rw [rest.others field output' out.2, put field output', if_neg out.1]
      · refine List.forall_mem_cons.mpr ⟨.inr ⟨value, v, given, fit, ?_⟩, rest.each⟩
        rw [rest.others p.field output apart, put p.field output, if_pos rfl]

end

/-! ## What a mapping leaves to the host -/

/-- The pending fields of a mapping are distinct, can be filled and are empty. -/
structure Pending (record : EndCloseRecord) (pending : List PendingEnrichment) : Prop where
  distinct : (pending.map PendingEnrichment.field).Nodup
  outputs : ∀ p ∈ pending, IsOutput p.field
  empty : ∀ p ∈ pending, outputOf record p.field = none

theorem map_filterMap_sublist {α β γ : Type} {f : α → Option β} {g : α → γ} {h : β → γ}
    (same : ∀ a b, f a = some b → h b = g a) (l : List α) :
    ((l.filterMap f).map h).Sublist (l.map g) := by
  induction l with
  | nil => exact .slnil
  | cons a l ih =>
    cases made : f a with
    | none =>
      rw [List.filterMap_cons_none made]
      exact ih.cons _
    | some b =>
      rw [List.filterMap_cons_some made, List.map_cons, List.map_cons, same a b made]
      exact ih.cons_cons _

theorem field_of_pendingEntry {read : Reader} {field : String} {ref : EnrichableFieldRef}
    {p : PendingEnrichment} (made : pendingEntry read field ref = some p) :
    p.field = field ∧ takenValue read ref = none := by
  obtain ⟨enrichment, enriched, made⟩ := Option.bind_eq_some_iff.mp made
  obtain ⟨input, -, made⟩ := Option.bind_eq_some_iff.mp made
  obtain rfl := Option.some.inj made
  refine ⟨rfl, ?_⟩
  rw [takenValue, enriched]

theorem pending_of_mapsTo {rt : Runtime} {read : Reader} {readPath : String → Option Json}
    {route : RouteConfig} {receivedAt : String} {record : EndCloseRecord}
    {pending : List PendingEnrichment}
    (maps : MapsTo rt read readPath route receivedAt record pending) : Pending record pending := by
  have sources : ∀ p ∈ pending, ∃ entry ∈ route.map.laterFields,
      p.field = entry.1 ∧ takenValue read entry.2 = none := by
    intro p member
    rw [maps.pending] at member
    obtain ⟨entry, listed, made⟩ := List.mem_filterMap.mp member
    exact ⟨entry, listed, field_of_pendingEntry made⟩
  refine ⟨?_, fun p member => ?_, fun p member => ?_⟩
  · rw [maps.pending]
    exact (laterFields_nodup route.map).sublist
      (map_filterMap_sublist (fun _ _ made => (field_of_pendingEntry made).1) _)
  · obtain ⟨entry, listed, named, -⟩ := sources p member
    rcases List.mem_append.mp listed with inside | described
    · obtain ⟨entry, -, rfl⟩ := List.mem_map.mp inside
      exact .inr ⟨entry.1, named⟩
    · obtain ⟨ref, -, rfl⟩ := List.mem_map.mp described
      exact .inl named
  · obtain ⟨entry, listed, named, untaken⟩ := sources p member
    rcases List.mem_append.mp listed with inside | described
    · obtain ⟨entry, there, rfl⟩ := List.mem_map.mp inside
      rw [named, outputOf_metadata, maps.metadata, List.lookup_eq_none_iff]
      intro made within
      obtain ⟨entry', there', made'⟩ := List.mem_filterMap.mp within
      obtain ⟨v, taken, rfl⟩ := Option.map_eq_some_iff.mp made'
      rw [bne_iff_ne]
      intro same
      obtain rfl := List.inj_on_of_nodup_map route.map.metadataNodup there there' same
      rw [untaken] at taken
      cases taken
    · obtain ⟨ref, there, rfl⟩ := List.mem_map.mp described
      rw [Option.mem_toList] at there
      rw [named, outputOf, if_pos rfl, maps.description, there, Option.bind_some, untaken]
      rfl

/-! ## Runs a host answers -/

/-- The host's functions and routes answer, and the store is one. -/
def serves (host : Host) : (op : Op) → op.Answer → Prop
  | .store op, answer => storeAdmits op answer
  | .enrich id enrichment input ctx, answer => answer = host.enrich id enrichment input ctx
  | .getRoute routeId, answer => ∀ route, answer = .ok (some route) → route = host.routes routeId
  | _, _ => True

/-- Such a world. -/
def serving (host : Host) : Discipline Op Op.Answer where
  allowed _ _ := True
  admits _ op answer := serves host op answer

section

variable {deps : DispatcherDeps} {host : Host} {event : EventRecord} {payload : Json}
  {calls : Calls} {s : State}

/-- The host's answers fill the record as `fillAll` says. -/
theorem resolveEnrichments_fills {pending : List PendingEnrichment} {record : EndCloseRecord} :
    (resolveEnrichments deps event payload pending record).Sat (serving host) calls s
      fun _ _ r => r = fillAll deps host event payload pending record := by
  induction pending generalizing record calls s with
  | nil => exact Method.Sat.pure rfl
  | cons p pending ih =>
    unfold resolveEnrichments fillAll
    split
    · refine Method.sat_call_bind trivial fun returned given => ?_
      obtain rfl : returned = host.enrich event.id p.enrichment p.input
        (enrichContext event payload p.field) := given
      cases checkReturned p.field _ with
      | error err => exact Method.sat_modify_bind (Method.Sat.throw rfl)
      | ok value =>
        cases value with
        | none => exact Method.sat_modify_bind ih
        | some value => exact Method.sat_modify_bind ih
    · exact Method.sat_modify_bind (Method.Sat.throw rfl)

/-- The round of the event makes no record and its last call is one that settles
the event. -/
def RoundEnds (deps : DispatcherDeps) (host : Host) (event : EventRecord) (settling : StoreOp → Prop) :
    Prop :=
  ∀ calls s, (buildRecord deps (host.routes event.routeId) event).Sat (serving host) calls s
    fun calls _ r => (∀ record, r ≠ .ok (some record)) ∧
      ∃ op answer rest, calls = (⟨.store op, answer⟩ : Exchange Op.Answer) :: rest ∧ settling op

/-- Parking one event. -/
def isParking (event : EventRecord) (op : StoreOp) : Prop :=
  ∃ message, op = .markParked [event.id] ("enrichment failed: " ++ message)

/-- Putting one event off. -/
def isRetry (event : EventRecord) (op : StoreOp) : Prop :=
  ∃ next message, op = .markFailed [event.id] next ("enrichment failed: " ++ message)

/-- In a cycle the host answers, no POST holds a record made from the event. -/
def Withheld (deps : DispatcherDeps) (host : Host) (event : EventRecord) : Prop :=
  ∀ s, (runOnce deps).Sat (serving host) [] s fun calls _ _ => ∀ key records answer,
    (⟨.bulkCreateRecords key records, answer⟩ : Exchange Op.Answer) ∈ calls →
      ∀ record ∈ records, ∃ other, other ≠ event ∧ BuiltFrom deps calls other record

/-- A round whose enrichments end in an error settles as the catch clause says. -/
theorem round_of_error {mapped : MappedEvent} {err : RelayError} {settling : StoreOp → Prop}
    (read : readEvent deps (host.routes event.routeId) event = .ok (payload, mapped))
    (fails : fillAll deps host event payload mapped.pending mapped.record = .error err)
    (caught : ∀ calls s, (settleUnmapped deps event .enrichment err).Sat (serving host) calls s
      fun calls _ _ => ∃ op answer rest,
        calls = (⟨.store op, answer⟩ : Exchange Op.Answer) :: rest ∧ settling op) :
    RoundEnds deps host event settling := by
  intro calls s
  unfold buildRecord
  rw [read]
  simp only []
  split
  · rename_i none_
    rw [List.isEmpty_iff.mp none_] at fails
    cases fails
  · refine Method.Sat.tryCatch (fun _ _ r => r = .error err) ?_ ?_ ?_
    · rw [map_eq_pure_bind]
      refine Method.Sat.bind _ resolveEnrichments_fills (fun _ _ filled same => ?_) fun _ _ e same => ?_
      · cases same.trans fails
      · rw [Except.error.inj (same.trans fails)]
    · intro _ _ _ same
      cases same
    · intro calls s e same
      obtain rfl := Except.error.inj same
      refine Method.Sat.bind _ (caught calls s) (fun _ _ _ settled => ?_) fun _ _ _ settled => ?_
      · exact Method.Sat.pure ⟨(fun _ same => by cases same), settled⟩
      · exact ⟨(fun _ same => by cases same), settled⟩

/-- An `EnrichmentError` parks the event. -/
theorem round_parks {mapped : MappedEvent} {message : String}
    (read : readEvent deps (host.routes event.routeId) event = .ok (payload, mapped))
    (fails : fillAll deps host event payload mapped.pending mapped.record =
      .error (.enrichment message)) : RoundEnds deps host event (isParking event) := by
  refine round_of_error read fails fun calls s => ⟨trivial, fun answer _ => ?_⟩
  cases answer with
  | ok _ => exact ⟨_, _, _, rfl, message, rfl⟩
  | error _ => exact ⟨_, _, _, rfl, message, rfl⟩

/-- Any other error puts it off. -/
theorem round_retries {mapped : MappedEvent} {message : String}
    (read : readEvent deps (host.routes event.routeId) event = .ok (payload, mapped))
    (fails : fillAll deps host event payload mapped.pending mapped.record =
      .error (.other message)) : RoundEnds deps host event (isRetry event) := by
  refine round_of_error read fails fun calls s =>
    ⟨trivial, fun now _ => ⟨trivial, fun random _ => ⟨trivial, fun answer _ => ?_⟩⟩⟩
  cases answer with
  | ok _ => exact ⟨_, _, _, rfl, _, message, rfl⟩
  | error _ => exact ⟨_, _, _, rfl, _, message, rfl⟩

/-- What a cycle the host answers has been told, and what it has posted. -/
structure Told (deps : DispatcherDeps) (host : Host) (calls : Calls) : Prop where
  routes : ∀ routeId route, (⟨.getRoute routeId, .ok (some route)⟩ : Exchange Op.Answer) ∈ calls →
    route = host.routes routeId
  heard : ∀ id enrichment input ctx answer,
    (⟨.enrich id enrichment input ctx, answer⟩ : Exchange Op.Answer) ∈ calls →
      knowsEnrichment deps enrichment ∧ answer = host.enrich id enrichment input ctx
  posted : ∀ key records answer,
    (⟨.bulkCreateRecords key records, answer⟩ : Exchange Op.Answer) ∈ calls →
      ∀ record ∈ records, ∃ other, BuiltFrom deps calls other record

/-- A record is built from an event only if its enrichments fill it. -/
theorem Told.fills (told : Told deps host calls) {mapped : MappedEvent}
    (read : readEvent deps (host.routes event.routeId) event = .ok (payload, mapped))
    {record : EndCloseRecord} (built : BuiltFrom deps calls event record) :
    fillAll deps host event payload mapped.pending mapped.record = .ok record := by
  obtain ⟨route, payload', result, asked, read', fills⟩ := built
  obtain rfl := told.routes _ _ asked
  obtain ⟨rfl, rfl⟩ := Prod.mk.inj (Except.ok.inj (read'.symm.trans read))
  exact fillAll_of_filled told.heard fills

theorem runOnce_told (deps : DispatcherDeps) (host : Host) (s : State) :
    (runOnce deps).Sat (serving host) [] s fun calls _ _ => Told deps host calls := by
  have both := Program.Sat.both (runOnce_sat deps s) (runOnce_knows deps [] s)
  refine (Program.Sat.carry (E := serving host) (Told deps host) both
    ⟨by simp, by simp, by simp⟩ (fun calls op answer told allowed served => ?_)
    fun _ _ _ _ => trivial).mono fun _ _ holds => holds.2
  have admitted : admits op answer := by
    cases op with
    | store op => exact served
    | _ => trivial
  refine ⟨⟨admitted, trivial⟩, fun routeId route member => ?_,
    fun id enrichment input ctx given member => ?_, fun key records given member => ?_⟩
  · rcases List.mem_cons.mp member with here | before
    · cases here
      exact served route rfl
    · exact told.routes routeId route before
  · rcases List.mem_cons.mp member with here | before
    · cases here
      exact ⟨allowed.2 _ _ _ _ rfl, served⟩
    · exact told.heard id enrichment input ctx given before
  · have more : calls ⊆ (⟨op, answer⟩ :: calls : Calls) := List.subset_cons_self _ _
    rcases List.mem_cons.mp member with here | before
    · cases here
      intro record listed
      obtain ⟨other, _, _, built⟩ := Postable.each allowed.1 record listed
      exact ⟨other, built.mono more⟩
    · intro record listed
      obtain ⟨other, built⟩ := told.posted key records given before record listed
      exact ⟨other, built.mono more⟩

theorem withheld_of_error {mapped : MappedEvent} {err : RelayError}
    (read : readEvent deps (host.routes event.routeId) event = .ok (payload, mapped))
    (fails : fillAll deps host event payload mapped.pending mapped.record = .error err) :
    Withheld deps host event := by
  intro s
  refine (runOnce_told deps host s).mono fun calls _ _ told key records answer sent record member => ?_
  obtain ⟨other, built⟩ := told.posted key records answer sent record member
  refine ⟨other, ?_, built⟩
  rintro rfl
  cases fails.symm.trans (told.fills read built)

/-- What is to become of an event a host enriches: a record that is returned has
the pending fields filled as the host answered; where a function is missing,
throws an `EnrichmentError` or returns what may not enter the record, the event
is parked; where one fails otherwise, it is put off; and then no cycle posts a
record of it. -/
structure Confined (deps : DispatcherDeps) (host : Host) (event : EventRecord) (payload : Json)
    (mapped : MappedEvent) : Prop where
  returned : ∀ calls s, (resolveEnrichments deps event payload mapped.pending mapped.record).Sat
    (serving host) calls s fun _ _ r => ∀ record, r = .ok record →
      Enriched none (answerFor host event payload) mapped.pending mapped.record record
  parks : Reaches (Reading.strict deps) (answerFor host event payload) mapped.pending
      (Refused (Reading.strict deps) (answerFor host event payload)) →
    (∀ calls s, (resolveEnrichments deps event payload mapped.pending mapped.record).Sat
      (serving host) calls s fun _ _ r => ∃ message, r = .error (.enrichment message)) ∧
    RoundEnds deps host event (isParking event) ∧ Withheld deps host event
  retries : Reaches (Reading.strict deps) (answerFor host event payload) mapped.pending
      (Failed (Reading.strict deps) (answerFor host event payload)) →
    (∀ calls s, (resolveEnrichments deps event payload mapped.pending mapped.record).Sat
      (serving host) calls s fun _ _ r => ∃ message, r = .error (.other message)) ∧
    RoundEnds deps host event (isRetry event) ∧ Withheld deps host event

/-- Answers that a host could give to every call. -/
def reply (host : Host) : (op : Op) → op.Answer
  | .store _ => .error (.other "")
  | .getKillswitch => .error (.other "")
  | .getRoute _ => .error (.other "")
  | .isRoutePaused _ => .error (.other "")
  | .enrich id enrichment input ctx => host.enrich id enrichment input ctx
  | .bulkCreateRecords _ _ => HttpAnswer.networkError ""
  | .getBulkRequest _ => HttpAnswer.networkError ""
  | .now => (0 : Int)
  | .random => (0 : ℚ)
  | .aborted => false
  | .sleep _ => ()

theorem serves_reply (host : Host) (op : Op) : serves host op (reply host op) := by
  cases op with
  | store op => rfl
  | getRoute routeId => exact fun route same => by cases same
  | enrich id enrichment input ctx => rfl
  | _ => trivial

/-- What holds of every outcome a host can bring about holds of that of `fillAll`. -/
theorem outcome_of_sat {pending : List PendingEnrichment} {record : EndCloseRecord}
    {post : Except RelayError EndCloseRecord → Prop}
    (sat : ∀ calls s, (resolveEnrichments deps event payload pending record).Sat (serving host)
      calls s fun _ _ r => post r) (s : State) :
    post (fillAll deps host event payload pending record) := by
  let world : Program.World Op.Answer Unit := fun _ _ op => (reply host op, ())
  have answers := fun (calls : Calls) (w : Unit) (op : Op) (_ : True)
      (_ : (serving host).allowed calls op) =>
    (⟨serves_reply host op, trivial⟩ : serves host op (world calls w op).1 ∧ True)
  have sat' : (resolveEnrichments deps event payload pending record).Sat (serving host) [] s
      fun _ _ r => r = fillAll deps host event payload pending record := resolveEnrichments_fills
  have fills := (Program.Sat.exec world (fun _ _ => True) (w := ()) sat' trivial answers).1
  have holds := (Program.Sat.exec world (fun _ _ => True) (w := ()) (sat [] s) trivial answers).1
  exact fills ▸ holds

/-- Where enrichments are as a host is to answer them, the code refuses what is
to be refused. -/
theorem Confined.refuses {mapped : MappedEvent} (confined : Confined deps host event payload mapped)
    (reached : Reaches (Reading.strict deps) (answerFor host event payload) mapped.pending
      (Refused (Reading.strict deps) (answerFor host event payload))) :
    Reaches (Reading.lax deps) (answerFor host event payload) mapped.pending
      (Refused (Reading.lax deps) (answerFor host event payload)) :=
  fillAll_refused_iff.mp (outcome_of_sat (confined.parks reached).1 (.initial deps))

/-- Where it does, an event is enriched as its host answers. -/
theorem confined_of_refuses {mapped : MappedEvent}
    (read : readEvent deps (host.routes event.routeId) event = .ok (payload, mapped))
    (agree : Reaches (Reading.strict deps) (answerFor host event payload) mapped.pending
        (Refused (Reading.strict deps) (answerFor host event payload)) →
      Reaches (Reading.lax deps) (answerFor host event payload) mapped.pending
        (Refused (Reading.lax deps) (answerFor host event payload))) :
    Confined deps host event payload mapped := by
  obtain ⟨_, _, _, maps⟩ := readEvent_ok read
  have pending := pending_of_mapsTo (mapEventWith_ok_iff.mp ⟨mapped.report, maps⟩)
  refine ⟨fun calls s => ?_, fun reached => ?_, fun reached => ?_⟩
  · refine resolveEnrichments_fills.mono fun _ _ r same record returns => ?_
    have fills := same.symm.trans returns
    rcases reaches_cases (Reading.strict deps) (answerFor host event payload) mapped.pending with
      usable | refused | failed
    · exact fillAll_enriched (Reading.strict deps) usable pending.distinct pending.outputs
        pending.empty fills
    · obtain ⟨message, fails⟩ := fillAll_refused mapped.record (agree refused)
      cases fails.symm.trans fills
    · obtain ⟨message, fails⟩ := fillAll_failed mapped.record failed.lax
      cases fails.symm.trans fills
  · obtain ⟨message, fails⟩ := fillAll_refused mapped.record (agree reached)
    refine ⟨fun calls s => ?_, round_parks read fails, withheld_of_error read fails⟩
    exact resolveEnrichments_fills.mono fun _ _ r same => ⟨message, same.trans fails⟩
  · obtain ⟨message, fails⟩ := fillAll_failed mapped.record reached.lax
    refine ⟨fun calls s => ?_, round_retries read fails, withheld_of_error read fails⟩
    exact resolveEnrichments_fills.mono fun _ _ r same => ⟨message, same.trans fails⟩

/-- An event is enriched as its host answers exactly when, wherever one of its
enrichments is to be refused, one still is with holes in arrays read as `null`
and what every object inherits taken for registered functions. -/
theorem confined_iff {mapped : MappedEvent}
    (read : readEvent deps (host.routes event.routeId) event = .ok (payload, mapped)) :
    Confined deps host event payload mapped ↔
      (Reaches (Reading.strict deps) (answerFor host event payload) mapped.pending
        (Refused (Reading.strict deps) (answerFor host event payload)) →
      Reaches (Reading.lax deps) (answerFor host event payload) mapped.pending
        (Refused (Reading.lax deps) (answerFor host event payload))) :=
  ⟨Confined.refuses, confined_of_refuses read⟩

/-- The code refuses what is to be refused where all known functions were registered
and no array has holes. -/
theorem refuses_of_plain {pending : List PendingEnrichment}
    {returned : PendingEnrichment → Except RelayError HostValue}
    (registered : ∀ p ∈ pending, knowsEnrichment deps p.enrichment →
      (Reading.strict deps).there p.enrichment)
    (solid : ∀ p ∈ pending, ∀ value, returned p = .ok value → ∀ v,
      value.json (some .null) = some v → value.json none = some v)
    (reached : Reaches (Reading.strict deps) returned pending (Refused (Reading.strict deps) returned)) :
    Reaches (Reading.lax deps) returned pending (Refused (Reading.lax deps) returned) := by
  obtain ⟨before, p, after, rfl, usable, refused⟩ := reached
  have member : p ∈ before ++ p :: after := List.mem_append_right before List.mem_cons_self
  refine ⟨before, p, after, rfl, fun q there => (usable q there).lax, ?_⟩
  cases refused with
  | missing absent => exact .missing fun known => absent (registered p member known)
  | rejected given => exact .rejected given
  | unfit given other unfit =>
    refine .unfit given other fun v fit => unfit v ?_
    exact ⟨solid p member _ given v fit.json, fit.unlisted, fit.text⟩

/-- An event with such enrichments is enriched as its host answers. -/
theorem confined_of_plain {mapped : MappedEvent}
    (read : readEvent deps (host.routes event.routeId) event = .ok (payload, mapped))
    (registered : ∀ p ∈ mapped.pending, knowsEnrichment deps p.enrichment →
      (Reading.strict deps).there p.enrichment)
    (solid : ∀ p ∈ mapped.pending, ∀ value, answerFor host event payload p = .ok value → ∀ v,
      value.json (some .null) = some v → value.json none = some v) :
    Confined deps host event payload mapped :=
  confined_of_refuses read (refuses_of_plain registered solid)

end

/-- A route whose tags the host looks up by the id of the payment. -/
def taggedRoute : RouteConfig :=
  { plainRoute "payments" with
    map := { plainMap with
      metadata := [("tags", .object "id" none (some "tags"))]
      metadataNodup := by decide } }

/-- A dispatcher whose host registered that lookup; `[1]` is the text of the payment. -/
def taggingDeps : DispatcherDeps where
  runtime := .knowing [([1], plainPayload "txn_1")]
  codec := plainCodec
  maskingKey := []
  instanceId := "a"
  enrichments := some ["tags"]

/-- A host that returns a value for the tags. -/
def taggingHost (tags : HostValue) : Host where
  routes _ := taggedRoute
  enrich _ _ _ _ := .ok tags

/-- The event of the payment. -/
def taggedEvent : EventRecord where
  id := 1
  routeId := "payments"
  source := "payabli"
  eventId := "ApprovedPayment:txn_1"
  eventType := some "ApprovedPayment"
  payload := [1]
  payloadIv := none
  headersJson := "\x7b\x7d"
  receivedAt := 0
  status := .delivering
  nextAttemptAt := none
  idempotencyKey := "txn_1"

/-- The one pending enrichment of that event. -/
def taggedPending : PendingEnrichment where
  field := "metadata.tags"
  enrichment := "tags"
  input := .str "txn_1"
  source := "id"

theorem readEvent_tagged : ∃ mapped, readEvent taggingDeps taggedRoute taggedEvent =
    .ok (plainPayload "txn_1", mapped) ∧ mapped.pending = [taggedPending] :=
  ⟨_, rfl, rfl⟩

theorem confined_iff_tagged : ∃ mapped,
    readEvent taggingDeps taggedRoute taggedEvent = .ok (plainPayload "txn_1", mapped) ∧
    (Confined taggingDeps (taggingHost (.str "vip")) taggedEvent (plainPayload "txn_1") mapped ↔
      (Reaches (Reading.strict taggingDeps)
        (answerFor (taggingHost (.str "vip")) taggedEvent (plainPayload "txn_1")) mapped.pending
        (Refused (Reading.strict taggingDeps)
          (answerFor (taggingHost (.str "vip")) taggedEvent (plainPayload "txn_1"))) →
      Reaches (Reading.lax taggingDeps)
        (answerFor (taggingHost (.str "vip")) taggedEvent (plainPayload "txn_1")) mapped.pending
        (Refused (Reading.lax taggingDeps)
          (answerFor (taggingHost (.str "vip")) taggedEvent (plainPayload "txn_1"))))) := by
  obtain ⟨mapped, read, -⟩ := readEvent_tagged
  exact ⟨mapped, read, confined_iff read⟩

/-- Tags with a hole, as `["vip", , "eu"]`, are no JSON and enter the record. -/
theorem hole_enters_record : taggedRoute.schemaValid ∧ ∃ mapped,
    readEvent taggingDeps taggedRoute taggedEvent = .ok (plainPayload "txn_1", mapped) ∧
    ¬ Confined taggingDeps (taggingHost (.arr [some (.str "vip"), none, some (.str "eu")])) taggedEvent
      (plainPayload "txn_1") mapped := by
  obtain ⟨mapped, read, pending⟩ := readEvent_tagged
  refine ⟨by decide, mapped, read, fun confined => ?_⟩
  have refuses := confined.refuses
  rw [pending] at refuses
  obtain ⟨before, p, after, parts, -, refused⟩ := refuses
    ⟨[], taggedPending, [], rfl, List.forall_mem_nil _, .unfit rfl nofun fun v fit => by cases fit.json⟩
  obtain rfl : p = taggedPending :=
    (List.mem_singleton.mp (parts ▸ List.mem_append_right before List.mem_cons_self : p ∈ [taggedPending]))
  cases refused with
  | missing absent => exact absent (show knowsEnrichment taggingDeps "tags" by decide)
  | rejected given => cases given
  | unfit given _ unfit =>
    obtain rfl := Except.ok.inj given
    refine unfit (.arr [.str "vip", .null, .str "eu"]) ⟨rfl, List.forall_mem_nil _, fun described => ?_⟩
    exact absurd described (by decide)

end EndCloseRelay.Dispatcher
