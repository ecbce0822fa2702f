import EndCloseRelay.Config.Document
import EndCloseRelay.Ingest.Adapters

/-!
# Accepting a routes document

`parseRoutes` of `engine/routes.ts`: the schema, then the checks for duplicate
ids, sources without an adapter and enrichments nobody registered.
-/

namespace EndCloseRelay

open Schema

/-- What `parseRoutes` throws: a `ZodError`, or an `Error` with its message. -/
inductive RoutesError
  | issues
  | error (message : String)
deriving DecidableEq

/-- `ParseRoutesOptions`, as the names the host registered. -/
structure ParseRoutesOptions where
  adapters : Option (List String) := none
  enrichments : Option (List String) := none

/-- `hasAdapter(source, extra)`; a member of `Object.prototype` passes for an adapter. -/
def hasAdapter (extra : Option (List String)) (source : String) : Bool :=
  let inherited := (Json.prototypeMember source).isSome
  extra.any (fun names => source ∈ names || inherited) ||
    source ∈ ["payabli", "generic_hmac"] || inherited

/-- The check for duplicate ids, with those seen so far. -/
def assertDistinctIds : List String → List RouteConfig → Except RoutesError Unit
  | _, [] => .ok ()
  | seen, route :: routes =>
    if route.id ∈ seen then .error (.error ("duplicate route id: " ++ route.id))
    else assertDistinctIds (route.id :: seen) routes

/-- `assertKnownSources(routes, adapters)`. -/
def assertKnownSources (adapters : Option (List String)) (routes : List RouteConfig) :
    Except RoutesError Unit :=
  routes.forM fun route =>
    if hasAdapter adapters route.source then .ok ()
    else .error (.error ("route " ++ route.id ++ ": no adapter for source \"" ++ route.source ++ "\""))

/-- `routeEnrichments(route)`. -/
def routeEnrichments (route : RouteConfig) : List (String × String) :=
  ((route.map.description.bind refEnrichment).map fun name => ("description", name)).toList ++
    route.map.metadata.filterMap fun (key, ref) =>
      (refEnrichment ref).map fun name => ("metadata." ++ key, name)

/-- `assertKnownEnrichments(routes, enrichments)`. -/
def assertKnownEnrichments (enrichments : Option (List String)) (routes : List RouteConfig) :
    Except RoutesError Unit :=
  routes.forM fun route => (routeEnrichments route).forM fun (field, name) =>
    if enrichments.any (name ∈ ·) then .ok ()
    else .error (.error
      ("route " ++ route.id ++ ": " ++ field ++ " references unknown enrichment \"" ++ name ++ "\""))

/-- `parseRoutes(doc, opts)`. -/
def parseRoutes (doc : Json) (opts : ParseRoutesOptions := {}) :
    Except RoutesError (List RouteConfig) := do
  let routes ← (relayConfigSchema doc).elim (.error .issues) .ok
  assertDistinctIds [] routes
  assertKnownSources opts.adapters routes
  assertKnownEnrichments opts.enrichments routes
  return routes

/-- The names `parseRoutes` goes by and the adapters that a request is given to. -/
theorem hasAdapter_iff (rt : IngestRuntime) (extra : Option (List (String × ProcessorAdapter)))
    (source : String) : hasAdapter (extra.map fun adapters => adapters.map Prod.fst) source =
      (findAdapter rt extra source).isSome := by
  have named : ∀ adapters : List (String × ProcessorAdapter),
      (adapters.lookup source).isSome = decide (source ∈ adapters.map Prod.fst) := by
    intro adapters
    rw [Bool.eq_iff_iff, decide_eq_true_iff, List.lookup_isSome_iff, List.mem_map]
    constructor
    · rintro ⟨p, member, same⟩
      exact ⟨p, member, (beq_iff_eq.mp same).symm⟩
    · rintro ⟨p, member, same⟩
      exact ⟨p, member, beq_iff_eq.mpr same.symm⟩
  have builtin := named (builtinAdapters rt)
  unfold hasAdapter findAdapter
  cases extra with
  | none =>
    simp only [Option.map_none, Option.any_none, Option.none_or, Option.isSome_or, Bool.false_or,
      builtin, Option.isSome_map]
    rfl
  | some adapters =>
    simp only [Option.map_some, Option.any_some, Option.isSome_or, named, Option.isSome_map,
      Bool.or_assoc]
    rfl

theorem distinct_of_assertDistinctIds {seen : List String} {routes : List RouteConfig}
    (passes : assertDistinctIds seen routes = .ok ()) :
    (routes.map RouteConfig.id).Nodup ∧ ∀ id ∈ routes.map RouteConfig.id, id ∉ seen := by
  induction routes generalizing seen with
  | nil => exact ⟨List.nodup_nil, fun id member => absurd member List.not_mem_nil⟩
  | cons route routes ih =>
    rw [assertDistinctIds] at passes
    split at passes
    · cases passes
    · rename_i unseen
      obtain ⟨distinct, fresh⟩ := ih passes
      rw [List.map_cons, List.nodup_cons]
      refine ⟨⟨fun again => fresh _ again List.mem_cons_self, distinct⟩, fun id member => ?_⟩
      rcases List.mem_cons.mp member with rfl | behind
      · exact unseen
      · exact fun known => fresh id behind (List.mem_cons_of_mem _ known)

/-- An accepted document passes the schema and then each check. -/
theorem checks_of_parseRoutes {doc : Json} {opts : ParseRoutesOptions} {routes : List RouteConfig}
    (parsed : parseRoutes doc opts = .ok routes) :
    relayConfigSchema doc = some routes ∧ assertDistinctIds [] routes = .ok () ∧
      assertKnownSources opts.adapters routes = .ok () ∧
      assertKnownEnrichments opts.enrichments routes = .ok () := by
  unfold parseRoutes at parsed
  cases accepted : relayConfigSchema doc with
  | none =>
    rw [accepted] at parsed
    cases parsed
  | some found =>
    simp only [accepted, Option.elim_some, bind, Except.bind] at parsed
    split at parsed
    · cases parsed
    · rename_i distinct
      split at parsed
      · cases parsed
      · rename_i sources
        split at parsed
        · cases parsed
        · rename_i enrichments
          obtain rfl := Except.ok.inj parsed
          exact ⟨rfl, distinct, sources, enrichments⟩

/-- The routes of an accepted document have distinct ids. -/
theorem ids_of_parseRoutes {doc : Json} {opts : ParseRoutesOptions} {routes : List RouteConfig}
    (parsed : parseRoutes doc opts = .ok routes) : (routes.map RouteConfig.id).Nodup :=
  (distinct_of_assertDistinctIds (checks_of_parseRoutes parsed).2.1).1

/-- The routes of an accepted document pass the schema. -/
theorem valid_of_parseRoutes {doc : Json} {opts : ParseRoutesOptions} {routes : List RouteConfig}
    (parsed : parseRoutes doc opts = .ok routes) : ∀ route ∈ routes, route.schemaValid := by
  have accepted := (checks_of_parseRoutes parsed).1
  cases doc with
  | obj entries =>
    obtain ⟨-, -, read⟩ := Option.bind_eq_some_iff.mp accepted
    obtain ⟨v, read⟩ := exists_of_member read
    have list := (Option.filter_eq_some_iff.mp read).1
    cases v with
    | arr items => exact forall_of_mapM (fun _ _ => valid_of_routeSchema) list
    | _ => cases list
  | _ => cases accepted

/-- Payments of payabli, with a filter, a date and this description, and the postings
of another source, which signs its requests with their time. -/
def mixedDocument (source : String) (description : Json) : Json :=
  .obj [("routes", .arr [
    .obj [
      ("id", .str "payments"), ("source", .str "payabli"),
      ("auth", .obj [("mode", .str "static_header"), ("secret_env", .str "PAYABLI_SECRET"),
        ("allowed_ips", .arr [.str "10.0.0.1"])]),
      ("events", .arr [.str "Approved*"]),
      ("map", .obj [("data_stream_key", .str "payments"), ("external_id", .str "id"),
        ("amount", .obj [("source", .str "total"), ("transform", .str "trim")]), ("direction", .str "credit"),
        ("date", .obj [("source", .str "at"), ("format", .str "mdy_hms")]), ("description", description)])],
    .obj [
      ("id", .str "postings"), ("source", .str source),
      ("auth", .obj [("mode", .str "hmac"), ("header", .str "x-signature"), ("secret_env", .str "HMAC_SECRET"),
        ("signed_content", .str "timestamp.body"), ("timestamp_header", .str "x-time")]),
      ("map", .obj [("data_stream_key", .str "postings"), ("external_id", .str "id"), ("amount", .str "amount"),
        ("direction", .str "debit"),
        ("metadata", .obj [("email", .obj [("source", .str "email"),
          ("transform", .arr [.str "trim", .str "hash"])])])])]])]

/-- A description the host looks up. -/
def lookedUp : Json := .obj [("source", .str "customer"), ("enrich", .str "customer_name")]

end EndCloseRelay
