import EndCloseRelay.Config.Routes
import EndCloseRelay.Forward.Dispatcher

/-!
# Resolving the names in a document

A route names an adapter and enrichments, and the engine finds both by indexing
objects: `adapterFor` and `hasAdapter` of `ingest/adapters/registry.ts`, and the
lookup of `resolveEnrichments`.  Indexing finds a member of `Object.prototype`
too; `Found` keeps it apart from what was registered.
-/

namespace EndCloseRelay

/-! ## Lookups -/

/-- What indexing an object finds: a member of its own, or an inherited one. -/
inductive Found (α : Type)
  | own (value : α)
  | inherited (member : Json)

/-- `entries[key]`. -/
def memberOf {α : Type} (entries : List (String × α)) (key : String) : Option (Found α) :=
  ((entries.lookup key).map .own).or ((Json.prototypeMember key).map .inherited)

/-- `extra?.[source] ?? adapters[source]`. -/
def adapterOf (rt : IngestRuntime) (extra : Option (List (String × ProcessorAdapter)))
    (source : String) : Option (Found ProcessorAdapter) :=
  (extra.bind (memberOf · source)).or (memberOf (builtinAdapters rt) source)

/-- `adapterFor(source, extra)`. -/
def adapterFor (rt : IngestRuntime) (extra : Option (List (String × ProcessorAdapter)))
    (source : String) : Except RelayError (Found ProcessorAdapter) :=
  match adapterOf rt extra source with
  | some found => .ok found
  | none => .error (.other ("no adapter for source: " ++ source))

/-- `deps.enrichments?.[enrichment]`. -/
def enrichmentOf {F : Type} (enrichments : Option (List (String × F))) (enrichment : String) :
    Option (Found F) :=
  enrichments.bind (memberOf · enrichment)

/-- What is done with what `adapterFor` returns. -/
def Found.adapter : Found ProcessorAdapter → ProcessorAdapter
  | own adapter => adapter
  | inherited _ => inheritedAdapter

/-- The names of registered values, as `parseRoutes` is given them. -/
def registeredNames {F : Type} (registered : Option (List (String × F))) : Option (List String) :=
  registered.map fun entries => entries.map Prod.fst

section

variable {α : Type} {entries : List (String × α)} {key : String}

theorem lookup_isSome_iff : (entries.lookup key).isSome ↔ key ∈ entries.map Prod.fst := by
  rw [List.lookup_isSome_iff, List.mem_map]
  constructor
  · rintro ⟨entry, member, same⟩
    exact ⟨entry, member, (beq_iff_eq.mp same).symm⟩
  · rintro ⟨entry, member, same⟩
    exact ⟨entry, member, beq_iff_eq.mpr same.symm⟩

theorem memberOf_registered (registered : key ∈ entries.map Prod.fst) :
    ∃ value, entries.lookup key = some value ∧ memberOf entries key = some (.own value) := by
  obtain ⟨value, found⟩ := Option.isSome_iff_exists.mp (lookup_isSome_iff.mpr registered)
  refine ⟨value, found, ?_⟩
  unfold memberOf
  rw [found]
  rfl

theorem memberOf_unregistered (absent : key ∉ entries.map Prod.fst) :
    memberOf entries key = (Json.prototypeMember key).map .inherited := by
  have none_ : entries.lookup key = none := by
    rw [← Option.not_isSome_iff_eq_none, lookup_isSome_iff]
    exact absent
  unfold memberOf
  rw [none_]
  rfl

end

/-- A request is given to what `adapterFor` returns. -/
theorem findAdapter_eq (rt : IngestRuntime) (extra : Option (List (String × ProcessorAdapter)))
    (source : String) : findAdapter rt extra source = (adapterOf rt extra source).map Found.adapter := by
  have found : ∀ entries : List (String × ProcessorAdapter), (memberOf entries source).map Found.adapter =
      (entries.lookup source).or ((Json.prototypeMember source).map fun _ => inheritedAdapter) := by
    intro entries
    unfold memberOf
    cases entries.lookup source with
    | some adapter => rfl
    | none => cases Json.prototypeMember source <;> rfl
  have both : ∀ a b : Option (Found ProcessorAdapter),
      (a.or b).map Found.adapter = (a.map Found.adapter).or (b.map Found.adapter) := by
    intro a b
    cases a <;> rfl
  unfold findAdapter adapterOf
  rw [both, found]
  cases extra with
  | none => rfl
  | some entries =>
    rw [Option.bind_some, found]

/-- The dispatcher knows an enrichment when its lookup finds anything. -/
theorem knowsEnrichment_eq {F : Type} {deps : DispatcherDeps} {enrichments : Option (List (String × F))}
    (given : deps.enrichments = registeredNames enrichments) (enrichment : String) :
    Dispatcher.knowsEnrichment deps enrichment = (enrichmentOf enrichments enrichment).isSome := by
  unfold Dispatcher.knowsEnrichment enrichmentOf
  rw [given]
  cases enrichments with
  | none => rfl
  | some entries =>
    show ((entries.map Prod.fst).contains enrichment || _) = (memberOf entries enrichment).isSome
    by_cases registered : enrichment ∈ entries.map Prod.fst
    · obtain ⟨value, -, found⟩ := memberOf_registered registered
      rw [found, List.contains_iff_mem.mpr registered]
      rfl
    · rw [memberOf_unregistered registered, Option.isSome_map, Bool.eq_false_iff.mpr
        (mt List.contains_iff_mem.mp registered), Bool.false_or]

/-! ## What a document names -/

/-- The `source` of a route as a document has it. -/
def documentSource : Json → Option String
  | .obj members =>
    match members.lookup "source" with
    | some (.str source) => some source
    | _ => none
  | _ => none

/-- The sources of the routes of a document. -/
def documentSources : Json → List String
  | .obj members =>
    match members.lookup "routes" with
    | some (.arr routes) => routes.filterMap documentSource
    | _ => []
  | _ => []

theorem documentSource_of_routeSchema {v : Json} {route : RouteConfig} (read : routeSchema v = some route) :
    documentSource v = some route.source := by
  cases v with
  | obj entries =>
    obtain ⟨id, -, read⟩ := Option.bind_eq_some_iff.mp read
    obtain ⟨source, sourced, read⟩ := Option.bind_eq_some_iff.mp read
    obtain ⟨auth, -, read⟩ := Option.bind_eq_some_iff.mp read
    obtain ⟨events, -, read⟩ := Option.bind_eq_some_iff.mp read
    obtain ⟨map, -, read⟩ := Option.bind_eq_some_iff.mp read
    obtain ⟨maxBodyBytes, -, read⟩ := Option.bind_eq_some_iff.mp read
    obtain rfl := Option.some.inj read
    obtain ⟨v, there, text⟩ := Option.bind_eq_some_iff.mp sourced
    cases v with
    | str s =>
      obtain ⟨-, same⟩ := Option.ite_none_right_eq_some.mp text
      obtain rfl := Option.some.inj same
      unfold documentSource
      simp only [there]
    | _ => cases text
  | _ => cases read

theorem filterMap_of_mapM {α β γ : Type} {f : α → Option β} {g : α → Option γ} {h : β → γ}
    (each : ∀ a b, f a = some b → g a = some (h b)) {as : List α} {bs : List β}
    (all : as.mapM f = some bs) : as.filterMap g = bs.map h := by
  induction as generalizing bs with
  | nil =>
    obtain rfl := Option.some.inj all
    rfl
  | cons a as ih =>
    rw [List.mapM_cons] at all
    obtain ⟨first, found, all⟩ := Option.bind_eq_some_iff.mp all
    obtain ⟨rest, others, all⟩ := Option.bind_eq_some_iff.mp all
    obtain rfl := Option.some.inj all
    rw [List.filterMap_cons, each a first found, ih others]
    rfl

/-- An accepted document names the sources of its routes. -/
theorem documentSources_of_parseRoutes {doc : Json} {opts : ParseRoutesOptions}
    {routes : List RouteConfig} (parsed : parseRoutes doc opts = .ok routes) :
    documentSources doc = routes.map RouteConfig.source := by
  have accepted := (checks_of_parseRoutes parsed).1
  cases doc with
  | obj entries =>
    obtain ⟨-, -, read⟩ := Option.bind_eq_some_iff.mp accepted
    obtain ⟨v, there, read⟩ := Option.bind_eq_some_iff.mp read
    have list := (Option.filter_eq_some_iff.mp read).1
    unfold documentSources
    simp only [there]
    cases v with
    | arr items => exact filterMap_of_mapM (fun _ _ => documentSource_of_routeSchema) list
    | _ => cases list
  | _ => cases accepted

/-! ## What the checks make sure of -/

theorem forM_ok {α ε : Type} {check : α → Except ε Unit} {as : List α} (all : as.forM check = .ok ()) :
    ∀ a ∈ as, check a = .ok () := by
  induction as with
  | nil => exact fun a member => absurd member List.not_mem_nil
  | cons a as ih =>
    replace all : (check a >>= fun _ => as.forM check) = .ok () := all
    cases first : check a with
    | error e =>
      rw [first] at all
      cases all
    | ok _ =>
      rw [first] at all
      intro b member
      rcases List.mem_cons.mp member with rfl | behind
      · exact first
      · exact ih all b behind

theorem known_of_assertKnownSources {adapters : Option (List String)} {routes : List RouteConfig}
    (passes : assertKnownSources adapters routes = .ok ()) :
    ∀ route ∈ routes, hasAdapter adapters route.source := by
  intro route member
  have passed := forM_ok passes route member
  by_contra unknown
  rw [if_neg unknown] at passed
  cases passed

theorem known_of_assertKnownEnrichments {enrichments : Option (List String)} {routes : List RouteConfig}
    (passes : assertKnownEnrichments enrichments routes = .ok ()) :
    ∀ route ∈ routes, ∀ entry ∈ routeEnrichments route, enrichments.any (entry.2 ∈ ·) := by
  intro route member entry named
  have passed := forM_ok (forM_ok passes route member) entry named
  by_contra unknown
  simp only at passed
  rw [if_neg unknown] at passed
  cases passed

/-- Of what every object inherits, a slug can name the constructor only. -/
theorem constructor_of_slug {source : String} (slug : isSlug source)
    (inherited : Json.prototypeMember source ≠ none) : source = "constructor" := by
  have listed : source = "__proto__" ∨ source ∈ Json.prototypeFunctions := by
    unfold Json.prototypeMember at inherited
    split at inherited
    · rename_i same
      exact .inl same
    · split at inherited
      · rename_i member
        exact .inr member
      · exact absurd rfl inherited
  have all : ∀ name ∈ "__proto__" :: Json.prototypeFunctions, isSlug name → name = "constructor" := by
    decide
  exact all source (List.mem_cons.mpr listed) slug

/-- Routes whose names are all resolved as they were checked. -/
structure Resolvable {F : Type} (rt : IngestRuntime) (adapters : Option (List (String × ProcessorAdapter)))
    (enrichments : Option (List (String × F))) (routes : List RouteConfig) : Prop where
  ids : (routes.map RouteConfig.id).Nodup
  sources : ∀ route ∈ routes, route.source ∈ (builtinAdapters rt).map Prod.fst ∨
    ∃ names, registeredNames adapters = some names ∧ route.source ∈ names
  adapters : ∀ route ∈ routes, ∃ adapter, adapterFor rt adapters route.source = .ok (.own adapter)
  enrichments : ∀ route ∈ routes, ∀ entry ∈ routeEnrichments route, ∃ entries f,
    enrichments = some entries ∧ entries.lookup entry.2 = some f ∧
      enrichmentOf enrichments entry.2 = some (.own f)

/-- The routes of an accepted document are resolvable exactly when the document
names no source `constructor`, or the host registered an adapter of that name. -/
theorem resolvable_iff {F : Type} (rt : IngestRuntime) {adapters : Option (List (String × ProcessorAdapter))}
    {enrichments : Option (List (String × F))} {doc : Json} {routes : List RouteConfig}
    (parsed : parseRoutes doc ⟨registeredNames adapters, registeredNames enrichments⟩ = .ok routes) :
    Resolvable rt adapters enrichments routes ↔
      ("constructor" ∈ documentSources doc →
        ∃ names, registeredNames adapters = some names ∧ "constructor" ∈ names) := by
  have checks := checks_of_parseRoutes parsed
  have sources := known_of_assertKnownSources checks.2.2.1
  have known := known_of_assertKnownEnrichments checks.2.2.2
  have slugs : ∀ route ∈ routes, isSlug route.source := by
    intro route member
    have valid := valid_of_parseRoutes parsed route member
    unfold RouteConfig.schemaValid at valid
    simp only [Bool.and_eq_true] at valid
    exact valid.1.1.1.1.1.2
  rw [documentSources_of_parseRoutes parsed]
  constructor
  · intro resolved named
    obtain ⟨route, member, source⟩ := List.mem_map.mp named
    rcases resolved.sources route member with builtin | registered
    · rw [source] at builtin
      exact absurd builtin (by simp [builtinAdapters])
    · rwa [source] at registered
  · intro excused
    -- what the check accepts is registered, unless it is the constructor
    have found : ∀ route ∈ routes, route.source ∈ (builtinAdapters rt).map Prod.fst ∨
        ∃ names, registeredNames adapters = some names ∧ route.source ∈ names := by
      intro route member
      have passes := sources route member
      by_cases inherited : Json.prototypeMember route.source = none
      · unfold hasAdapter at passes
        simp only [inherited, Option.isSome_none, Bool.or_false, Bool.or_eq_true, decide_eq_true_iff,
          Option.any_eq_true] at passes
        rcases passes with ⟨names, given, registered⟩ | builtin
        · exact .inr ⟨names, given, registered⟩
        · exact .inl builtin
      · have same := constructor_of_slug (slugs route member) inherited
        rw [same]
        exact .inr (excused (List.mem_map.mpr ⟨route, member, same⟩))
    refine ⟨ids_of_parseRoutes parsed, found, fun route member => ?_, fun route member entry named => ?_⟩
    · unfold adapterFor adapterOf
      cases adapters with
      | none =>
        rcases found route member with builtin | ⟨names, given, -⟩
        · obtain ⟨adapter, -, own⟩ := memberOf_registered builtin
          refine ⟨adapter, ?_⟩
          rw [Option.bind_none, Option.none_or, own]
        · cases given
      | some entries =>
        by_cases registered : route.source ∈ entries.map Prod.fst
        · obtain ⟨adapter, -, own⟩ := memberOf_registered registered
          refine ⟨adapter, ?_⟩
          rw [Option.bind_some, own]
          rfl
        · rcases found route member with builtin | ⟨names, given, host⟩
          · obtain ⟨adapter, -, own⟩ := memberOf_registered builtin
            have plain : Json.prototypeMember route.source = none := by
              by_contra inherited
              have same := constructor_of_slug (slugs route member) inherited
              rw [same] at builtin
              exact absurd builtin (by simp [builtinAdapters])
            refine ⟨adapter, ?_⟩
            rw [Option.bind_some, memberOf_unregistered registered, plain, own]
            rfl
          · obtain rfl := Option.some.inj given
            exact absurd host registered
    · have passes := known route member entry named
      rw [Option.any_eq_true] at passes
      obtain ⟨names, given, registered⟩ := passes
      cases enrichments with
      | none => cases given
      | some entries =>
        obtain rfl := Option.some.inj given
        obtain ⟨f, there, own⟩ := memberOf_registered (of_decide_eq_true registered)
        exact ⟨entries, f, rfl, there, own⟩

/-- A document with one payabli route, its source as given. -/
def sourceDocument (source : String) : Json :=
  .obj [("routes", .arr [.obj [
    ("id", .str "payments"), ("source", .str source),
    ("auth", .obj [("mode", .str "static_header"), ("secret_env", .str "PAYABLI_SECRET")]),
    ("map", .obj [("data_stream_key", .str "payments"), ("external_id", .str "id"),
      ("amount", .str "amount"), ("direction", .str "credit")])]])]

/-- The routes of a document whose sources are payabli and an adapter of the host, and
whose one enrichment is registered, are resolvable. -/
theorem resolvable_iff_mixed : ∃ routes,
    parseRoutes (mixedDocument "acme" lookedUp) ⟨some ["acme"], some ["customer_name"]⟩ = .ok routes ∧
      Resolvable (.knowing []) (some [("acme", GenericHmac.adapter (.knowing []))])
        (some [("customer_name", ())]) routes := by
  obtain ⟨routes, parsed⟩ : ∃ routes, parseRoutes (mixedDocument "acme" lookedUp)
    ⟨some ["acme"], some ["customer_name"]⟩ = .ok routes := ⟨_, rfl⟩
  refine ⟨routes, parsed, (@resolvable_iff Unit (.knowing []) (some [("acme", GenericHmac.adapter (.knowing []))])
    (some [("customer_name", ())]) _ _ parsed).mpr fun named => ?_⟩
  exact absurd named (by decide)

/-- A document that is accepted although no adapter has the name of its source. -/
theorem constructor_source_accepted : ∃ routes, ∃ route ∈ routes,
    parseRoutes (sourceDocument "constructor") {} = .ok routes ∧
    route.source ∉ (builtinAdapters (.knowing [])).map Prod.fst ∧
    ∀ adapter, adapterFor (.knowing []) none route.source ≠ .ok (.own adapter) :=
  ⟨_, _, List.mem_singleton.mpr rfl, rfl, by simp [builtinAdapters], fun adapter same => by cases same⟩

end EndCloseRelay
