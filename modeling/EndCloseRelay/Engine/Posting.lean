import EndCloseRelay.Engine.Leases
import EndCloseRelay.Engine.NoLoss
import EndCloseRelay.Forward.Allowlist
import EndCloseRelay.Forward.Denylist

/-!
# What is posted

Every call in the log was one the protocol allows, so every record posted was
built from an event in flight.  What is known of the mapping then holds of what
leaves the network: the map is the allowlist of a posted record, and its
strings passed the denylist where the record's sources are clean.
-/

namespace EndCloseRelay

open Interaction

namespace Dispatcher

/-- `BuiltFrom`, with the route and the payload the record was built under. -/
def BuiltUnder (deps : DispatcherDeps) (calls : Calls) (route : RouteConfig) (payload : Json)
    (event : EventRecord) (record : EndCloseRecord) : Prop :=
  ∃ result, (⟨.getRoute event.routeId, .ok (some route)⟩ : Exchange Op.Answer) ∈ calls ∧
    readEvent deps route event = .ok (payload, result) ∧
    Filled event payload calls result.pending result.record record

/-- Where the host fills nothing, a record is the one its payload maps to. -/
theorem BuiltUnder.mapped {deps : DispatcherDeps} {calls : Calls} {route : RouteConfig}
    {payload : Json} {event : EventRecord} {record : EndCloseRecord}
    (built : BuiltUnder deps calls route payload event record)
    (plain : ∀ ref ∈ route.map.refs, refEnrichment ref = none) :
    leaving (mapEvent deps.runtime deps.maskingKey route payload
      (Js.toISOString event.receivedAt)) = .ok (record, []) := by
  obtain ⟨result, -, read, fills⟩ := built
  obtain ⟨-, -, -, returns⟩ := readEvent_ok read
  have none_ : result.pending = [] := by
    rw [(mapsTo_of_readEvent read).pending, RecordMap.pendingEntries, List.filterMap_eq_nil_iff]
    intro field member
    have later := mem_laterRefs_of_field member
    have unfilled := plain field.2 (List.mem_cons_of_mem _ (List.mem_cons_of_mem _ later))
    simp only [pendingEntry, unfilled]
    rfl
  rw [none_] at fills
  cases fills
  rw [returns, ← none_]
  rfl

end Dispatcher

namespace System

/-! ## The log -/

/-- Every call the log shows was one the protocol allows after those before it. -/
def Allowed (D : Deployment) (s : System) : Prop :=
  ∀ i op answer calls, Entry.called i (⟨op, answer⟩ :: calls) ∈ s.log →
    Dispatcher.allowed (D.dispatcher i) calls op

section

variable {D : Deployment} {s : System}

theorem allowed_step (conforms : Conforms D s) (allowed : Allowed D s) (a : Action) :
    Allowed D (step D s a) := by
  intro i op answer calls listed
  rcases log_step D s a with same | ⟨_, _, _, _, _, _, log, -⟩ |
    ⟨i', reply, op', next, rfl, rest, answers⟩
  · rw [same] at listed
    exact allowed i op answer calls listed
  · rw [log] at listed
    rcases List.mem_cons.mp listed with new | old
    · cases new
    · exact allowed i op answer calls old
  · rw [answers.log, answers.calls] at listed
    rcases List.mem_cons.mp listed with new | old
    · obtain ⟨rfl, same⟩ := Entry.called.inj new
      obtain ⟨exchange, rfl⟩ := List.cons.inj same
      obtain ⟨rfl, -⟩ := Sigma.mk.inj exchange
      exact conforms.allowed rest
    · exact allowed i op answer calls old

/-- `Allowed` holds in every reachable state. -/
theorem allowed_run (D : Deployment) (actions : List Action) :
    Allowed D ((machine D).run actions) := by
  have start : Conforms D (machine D).init ∧ Allowed D (machine D).init :=
    ⟨conforms_run D [], fun _ _ _ _ listed => by cases listed⟩
  have kept := Machine.invariant (fun s => Conforms D s ∧ Allowed D s) start
    (fun s a inv => ⟨conforms_step a inv.1, allowed_step inv.1 inv.2 a⟩) actions
  exact kept.2

/-- What an entry shows posted: by which instance, after which calls, which record. -/
def Entry.posts : Entry → List (String × Dispatcher.Calls × EndCloseRecord)
  | .called i (⟨.bulkCreateRecords _ records, _⟩ :: calls) => records.map fun r => (i, calls, r)
  | _ => []

/-- The log shows the record posted in the call after these calls. -/
def Posts (log : List Entry) (i : String) (calls : Dispatcher.Calls) (record : EndCloseRecord) :
    Prop :=
  (i, calls, record) ∈ log.flatMap Entry.posts

/-- Every record posted was built from an event in flight. -/
theorem built_of_posts {actions : List Action} {i : String} {calls : Dispatcher.Calls}
    {record : EndCloseRecord} (posts : Posts ((machine D).run actions).log i calls record) :
    ∃ event ∈ Dispatcher.inFlight calls,
      Dispatcher.BuiltFrom (D.dispatcher i) calls event record := by
  obtain ⟨entry, listed, member⟩ := List.mem_flatMap.mp posts
  unfold Entry.posts at member
  split at member
  · rename_i i' key records answer calls'
    obtain ⟨r, posted, same⟩ := List.mem_map.mp member
    obtain ⟨rfl, rfl, rfl⟩ : i' = i ∧ calls' = calls ∧ r = record := by simpa using same
    obtain ⟨event, flying, -, built⟩ :=
      Dispatcher.Postable.each (allowed_run D actions i' _ answer calls' listed) r posted
    exact ⟨event, flying, built⟩
  · cases member

/-! ## The denylist -/

/-- Every record posted has sources, and its strings passed the denylist
exactly when the sources are clean. -/
def DeniedWhereClean (D : Deployment) (s : System) : Prop :=
  ∀ i calls record, Posts s.log i calls record → ∃ event ∈ Dispatcher.inFlight calls,
    (∃ sources, Dispatcher.SourcesOf (D.dispatcher i) calls event record sources) ∧
      ∀ sources, Dispatcher.SourcesOf (D.dispatcher i) calls event record sources →
        (sources.Denied record ↔ sources.Clean)

/-- In every run, whatever the routes, the payloads and the host's values. -/
theorem posted_denied_iff (D : Deployment) (actions : List Action) :
    DeniedWhereClean D ((machine D).run actions) := by
  intro i calls record posts
  obtain ⟨event, flying, built⟩ := built_of_posts posts
  refine ⟨event, flying, Dispatcher.exists_sourcesOf built, ?_⟩
  intro sources from_
  exact from_.makes.denied_iff

/-- A payment whose id looks like a social security number. -/
def ssnPayment : Json :=
  .obj [("Event", .str "ApprovedPayment"), ("TransactionId", .str "123-45-6789"),
    ("amount", .str "1.00")]

/-- The sample deployment, with that payment for the sample one. -/
def ssnDeployment : Deployment where
  ingest := { runtime := .knowing [([1], ssnPayment)], codec := plainCodec }
  dispatcher i := {
    runtime := .knowing [([1], ssnPayment)], codec := plainCodec, maskingKey := [],
    instanceId := i }
  named _ := rfl

/-- Its id is posted as it is. -/
theorem ssn_posted : sampleRoute.schemaValid ∧
    ∃ calls record, Posts ((machine ssnDeployment).run sampleRun).log "a" calls record ∧
      record.externalId = "123-45-6789" ∧
      ∀ event ∈ Dispatcher.inFlight calls, ∀ sources,
        Dispatcher.SourcesOf (ssnDeployment.dispatcher "a") calls event record sources →
          ¬ sources.Denied record := by
  have shown : (((machine ssnDeployment).run sampleRun).log.flatMap Entry.posts).any fun post =>
      post.1 == "a" && post.2.2.externalId == "123-45-6789" := by
    decide
  obtain ⟨⟨i, calls, record⟩, posted, is⟩ := List.any_eq_true.mp shown
  rw [Bool.and_eq_true, beq_iff_eq, beq_iff_eq] at is
  obtain ⟨rfl, named⟩ := is
  refine ⟨by decide, calls, record, posted, named, ?_⟩
  intro event _ sources from_ denied
  have makes := from_.makes
  have clean := (makes.denied_iff.mp denied).1
  rw [Untouched, ← makes.externalId, named] at clean
  exact absurd clean (by decide)

/-! ## The allowlist -/

/-- Whatever the runs, two events of a route without enrichments, received at
one time and with these payloads, are posted as the same record. -/
def PostedAlike (D : Deployment) (i : String) (route : RouteConfig) (receivedAt : String)
    (payload payload' : Json) : Prop :=
  ∀ actions actions' calls calls' event event' record record',
    (∀ ref ∈ route.map.refs, refEnrichment ref = none) →
    Js.toISOString event.receivedAt = receivedAt → Js.toISOString event'.receivedAt = receivedAt →
    Posts ((machine D).run actions).log i calls record →
    Dispatcher.BuiltUnder (D.dispatcher i) calls route payload event record →
    Posts ((machine D).run actions').log i calls' record' →
    Dispatcher.BuiltUnder (D.dispatcher i) calls' route payload' event' record' →
    record = record'

theorem postedAlike_of_agree {i : String} {route : RouteConfig} {receivedAt : String}
    {payload payload' : Json} (agree : AgreeAtSources route.map payload payload') :
    PostedAlike D i route receivedAt payload payload' := by
  intro actions actions' calls calls' event event' record record' plain time time' _ built _ built'
  have mapped := built.mapped plain
  have mapped' := built'.mapped plain
  have same := leaving_of_agree (D.dispatcher i).runtime (D.dispatcher i).maskingKey receivedAt agree
  rw [time] at mapped
  rw [time'] at mapped'
  rw [mapped, mapped'] at same
  exact (Prod.mk.inj (Except.ok.inj same)).1

/-- Payloads that agree at the mapped paths are mapped alike and posted alike,
unless the mapping comes to hash an inherited function. -/
theorem allowlist_iff (D : Deployment) (i : String) (route : RouteConfig) (receivedAt : String)
    {payload payload' : Json} (agree : AgreeAtSources route.map payload payload') :
    (MappedAlike
        (mapEvent (D.dispatcher i).runtime (D.dispatcher i).maskingKey route payload receivedAt)
        (mapEvent (D.dispatcher i).runtime (D.dispatcher i).maskingKey route payload' receivedAt) ∧
      PostedAlike D i route receivedAt payload payload') ↔
    ¬ ReachesHashedFunction (D.dispatcher i).runtime (D.dispatcher i).maskingKey route payload
      receivedAt := by
  rw [← mappedAlike_iff _ _ route receivedAt agree]
  exact and_iff_left (postedAlike_of_agree agree)

/-- The sample payment with a member no path of the map names. -/
def cardPayment : Json :=
  .obj [("Event", .str "ApprovedPayment"), ("TransactionId", .str "t1"), ("amount", .str "1.00"),
    ("card", .str "4111-1111-1111-1111")]

theorem agree_card : AgreeAtSources sampleRoute.map samplePayment cardPayment := by
  have paths : sampleRoute.map.sourcePaths = ["TransactionId", "amount"] := by decide
  intro path member
  rw [paths] at member
  rcases List.mem_cons.mp member with rfl | member
  · rfl
  · obtain rfl := List.mem_singleton.mp member
    rfl

/-- The card is posted by neither. -/
theorem allowlist_iff_card :
    MappedAlike
        (mapEvent (sampleDeployment.dispatcher "a").runtime [] sampleRoute samplePayment "")
        (mapEvent (sampleDeployment.dispatcher "a").runtime [] sampleRoute cardPayment "") ∧
      PostedAlike sampleDeployment "a" sampleRoute "" samplePayment cardPayment := by
  refine (allowlist_iff sampleDeployment "a" sampleRoute "" agree_card).mpr ?_
  have unhashed : ∀ ref ∈ sampleRoute.map.refs, TransformName.hash ∉ refTransforms ref := by decide
  rintro (hashes | ⟨-, hashes | ⟨-, -, ref, member, hashes⟩⟩)
  · exact unhashed _ (by decide) hashes.1
  · exact unhashed _ (by decide) hashes.1
  · exact unhashed ref (List.mem_cons_of_mem _ (List.mem_cons_of_mem _ member)) hashes.1

/-- A route whose external id is the hash of what every object inherits. -/
def constructorRoute : RouteConfig :=
  { sampleRoute with
    map := { sampleRoute.map with
      externalId := { ref := .object "constructor" (some (.one .hash)) none } } }

/-- Any payload makes the mapping throw a `TypeError`, which is no `MappingError`. -/
theorem constructor_throws : constructorRoute.schemaValid ∧
    AgreeAtSources constructorRoute.map samplePayment samplePayment ∧
    ¬ MappedAlike
      (mapEvent (sampleDeployment.dispatcher "a").runtime [] constructorRoute samplePayment "")
      (mapEvent (sampleDeployment.dispatcher "a").runtime [] constructorRoute samplePayment "") := by
  have hashes : hashesFunction samplePayment constructorRoute.map.externalId.ref :=
    ⟨by decide, "constructor", rfl⟩
  refine ⟨by decide, fun _ _ => rfl, ?_⟩
  rw [mapEvent_of_reaches (.inl hashes)]
  intro alike
  rcases alike with ⟨message, fails, -⟩ | ⟨m, m', returns, -⟩
  · cases fails
  · cases returns

end

end System

end EndCloseRelay
