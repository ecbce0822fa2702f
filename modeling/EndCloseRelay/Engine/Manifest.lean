import EndCloseRelay.Config.Routes

/-!
# The instance manifest

What an instance tells End Close of itself.  The adapters and enrichments it
announces are what its own check of a routes document goes by.
-/

namespace EndCloseRelay

/-- `ManifestReason`. -/
inductive ManifestReason
  | boot
  | heartbeat
  | configApplied
  | error
  | shutdown
deriving DecidableEq

/-- `ManifestHost`. -/
inductive ManifestHost
  | application
  | embedded
deriving DecidableEq

/-- `ConfigSource`. -/
inductive ConfigSource
  | remote
  | local
deriving DecidableEq

/-- `EnrichmentOutput`. -/
inductive EnrichmentOutput
  | string
  | number
  | boolean
deriving DecidableEq

/-- `EnrichmentDescriptor`. -/
structure EnrichmentDescriptor where
  description : Option String := none
  output : Option EnrichmentOutput := none
deriving DecidableEq

/-- `EnrichmentRegistration`, of a function of some kind. -/
inductive EnrichmentRegistration (Fn : Type)
  | bare (fn : Fn)
  | described (fn : Fn) (descriptor : EnrichmentDescriptor)

/-- `InstanceManifest`. -/
structure InstanceManifest where
  schema : Nat
  reason : ManifestReason
  host : ManifestHost
  engineVersion : String
  configSchema : Nat
  configSource : ConfigSource
  adapters : List String
  enrichments : List (String × EnrichmentDescriptor)
deriving DecidableEq

/-- The enrichments of a host: functions and descriptors under the same names. -/
structure SplitEnrichments (Fn : Type) where
  functions : List (String × Fn)
  descriptors : List (String × EnrichmentDescriptor)

/-- The function of a registration. -/
def EnrichmentRegistration.fn {Fn : Type} : EnrichmentRegistration Fn → Fn
  | bare fn => fn
  | described fn _ => fn

/-- What is shown of a registration. -/
def EnrichmentRegistration.descriptor {Fn : Type} : EnrichmentRegistration Fn → EnrichmentDescriptor
  | bare _ => {}
  | described _ descriptor => descriptor

/-- `splitEnrichments(regs)`. -/
def splitEnrichments {Fn : Type} (regs : Option (List (String × EnrichmentRegistration Fn))) :
    SplitEnrichments Fn where
  functions := (regs.getD []).map fun (name, reg) => (name, reg.fn)
  descriptors := (regs.getD []).map fun (name, reg) => (name, reg.descriptor)

/-- `ManifestSource`; of the adapters only the names count. -/
structure ManifestSource where
  host : ManifestHost
  configSource : ConfigSource
  adapters : Option (List String) := none
  enrichments : Option (List (String × EnrichmentDescriptor)) := none

/-- `BUILTIN_SOURCES`. -/
def builtinSources : List String := ["payabli", "generic_hmac"]

/-- `CONFIG_SCHEMA_VERSION`. -/
def configSchemaVersion : Nat := 1

/-- `buildManifest(src, reason)`, of an engine of a version. -/
def buildManifest (engineVersion : String) (src : ManifestSource) (reason : ManifestReason) :
    InstanceManifest where
  schema := 1
  reason := reason
  host := src.host
  engineVersion := engineVersion
  configSchema := configSchemaVersion
  configSource := src.configSource
  adapters := (builtinSources ++ src.adapters.getD []).eraseDups
  enrichments := src.enrichments.getD []

/-! ## What is announced is what is accepted -/

/-- A check of every item passes exactly when each passes. -/
theorem forM_ok_iff {α ε : Type} {items : List α} {check : α → Except ε PUnit} :
    items.forM check = .ok ⟨⟩ ↔ ∀ a ∈ items, check a = .ok ⟨⟩ := by
  induction items with
  | nil => exact ⟨fun _ a member => absurd member List.not_mem_nil, fun _ => rfl⟩
  | cons a items ih =>
    show (check a >>= fun _ => items.forM check) = _ ↔ _
    rw [List.forall_mem_cons]
    cases first : check a with
    | error e =>
      refine ⟨fun passes => (by cases passes), fun both => (by cases both.1)⟩
    | ok _ => exact ih.trans (and_iff_right rfl).symm

theorem assertDistinctIds_iff {seen : List String} {routes : List RouteConfig} :
    assertDistinctIds seen routes = .ok () ↔
      (routes.map RouteConfig.id).Nodup ∧ ∀ id ∈ routes.map RouteConfig.id, id ∉ seen := by
  refine ⟨distinct_of_assertDistinctIds, ?_⟩
  induction routes generalizing seen with
  | nil => exact fun _ => rfl
  | cons route routes ih =>
    rintro ⟨distinct, fresh⟩
    rw [List.map_cons, List.nodup_cons] at distinct
    rw [List.map_cons, List.forall_mem_cons] at fresh
    rw [assertDistinctIds, if_neg fresh.1]
    refine ih ⟨distinct.2, fun id member => ?_⟩
    rw [List.mem_cons, not_or]
    exact ⟨fun same => distinct.1 (same ▸ member), fresh.2 id member⟩

theorem assertKnownSources_iff {adapters : Option (List String)} {routes : List RouteConfig} :
    assertKnownSources adapters routes = .ok () ↔ ∀ route ∈ routes, hasAdapter adapters route.source := by
  refine forM_ok_iff.trans (forall₂_congr fun route _ => ?_)
  split
  · rename_i known
    exact iff_of_true rfl known
  · rename_i unknown
    exact iff_of_false (by simp) unknown

theorem assertKnownEnrichments_iff {enrichments : Option (List String)} {routes : List RouteConfig} :
    assertKnownEnrichments enrichments routes = .ok () ↔
      ∀ route ∈ routes, ∀ entry ∈ routeEnrichments route, enrichments.any (entry.2 ∈ ·) := by
  refine forM_ok_iff.trans (forall₂_congr fun route _ => ?_)
  refine forM_ok_iff.trans (forall₂_congr fun entry _ => ?_)
  obtain ⟨field, name⟩ := entry
  dsimp only
  split
  · rename_i known
    exact iff_of_true rfl known
  · rename_i unknown
    exact iff_of_false (by simp) unknown

/-- The sources of an instance's adapters are those it announces, and the names
every object has. -/
theorem hasAdapter_announced (engineVersion : String) (src : ManifestSource) (reason : ManifestReason)
    (source : String) : hasAdapter src.adapters source ↔
      source ∈ (buildManifest engineVersion src reason).adapters ∨
        (Json.prototypeMember source).isSome := by
  unfold hasAdapter buildManifest builtinSources
  rw [List.mem_eraseDups]
  cases src.adapters with
  | none => simp
  | some names => simp [or_comm, or_assoc, or_left_comm]

theorem parseRoutes_iff {doc : Json} {opts : ParseRoutesOptions} {routes : List RouteConfig} :
    parseRoutes doc opts = .ok routes ↔
      relayConfigSchema doc = some routes ∧ assertDistinctIds [] routes = .ok () ∧
        assertKnownSources opts.adapters routes = .ok () ∧
        assertKnownEnrichments opts.enrichments routes = .ok () := by
  refine ⟨checks_of_parseRoutes, ?_⟩
  rintro ⟨schema, distinct, sources, enrichments⟩
  unfold parseRoutes
  rw [schema]
  simp only [Option.elim_some, bind, Except.bind, distinct, sources, enrichments]
  rfl

/-- What an instance announces is what it takes: it accepts the routes of a
document exactly when the document passes the schema, their ids are distinct, and
every source and every enrichment they name is in its manifest.  The names every
object has pass for sources too. -/
theorem announced_accepted {Fn : Type} (engineVersion : String) (host : ManifestHost)
    (configSource : ConfigSource) (adapters : Option (List String))
    (regs : Option (List (String × EnrichmentRegistration Fn))) (reason : ManifestReason) (doc : Json)
    (routes : List RouteConfig) :
    let enrichments := splitEnrichments regs
    let manifest := buildManifest engineVersion
      { host, configSource, adapters, enrichments := some enrichments.descriptors } reason
    parseRoutes doc { adapters, enrichments := some (enrichments.functions.map Prod.fst) } = .ok routes ↔
      relayConfigSchema doc = some routes ∧ (routes.map RouteConfig.id).Nodup ∧
        (∀ route ∈ routes, route.source ∈ manifest.adapters ∨ (Json.prototypeMember route.source).isSome) ∧
        ∀ route ∈ routes, ∀ entry ∈ routeEnrichments route, entry.2 ∈ manifest.enrichments.map Prod.fst := by
  intro enrichments manifest
  have names : manifest.enrichments.map Prod.fst = enrichments.functions.map Prod.fst := by
    show enrichments.descriptors.map Prod.fst = _
    simp [enrichments, splitEnrichments, Function.comp_def]
  rw [parseRoutes_iff, assertDistinctIds_iff, assertKnownSources_iff, assertKnownEnrichments_iff, names]
  refine and_congr_right fun _ => and_congr ?_ (and_congr ?_ ?_)
  · exact and_iff_left fun _ _ => List.not_mem_nil
  · exact forall₂_congr fun route _ => hasAdapter_announced engineVersion
      { host, configSource, adapters, enrichments := some enrichments.descriptors } reason route.source
  · refine forall₂_congr fun route _ => forall₂_congr fun entry _ => ?_
    simp

end EndCloseRelay
