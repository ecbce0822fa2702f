import EndCloseRelay.App.RemoteRuns

/-!
# What a 304 vouches for

A check sends the ETag it keeps when the hash it keeps is that of the active
configuration, so a 304 is only honest where both belong to one document.  They
are two rows of `kv`, written one after the other: the theorem says of which
runs this is enough, and the run after it of which it is not.
-/

namespace EndCloseRelay.App

open Interaction

namespace Relay

variable {rt : ConfigRuntime} {s : Relay}

/-- The hash that is kept is that of the document last served with the ETag that is kept. -/
def Described (rt : ConfigRuntime) (s : Relay) : Prop := ∀ etag hash,
  KvRepo.get s.db etagKey = some etag → KvRepo.get s.db hashKey = some hash →
    ∃ document, s.served.lookup etag = some document ∧
      hash = configHash rt (remoteConfigToYaml rt document)

/-- The document is accepted and `saveConfig` stores it. -/
def Stores (rt : ConfigRuntime) (s : Relay) (document : Json) (now : Int) (faults : Faults) : Prop :=
  (parseRoutes document).isOk ∧
    ((saveConfig rt (remoteConfigToYaml rt document) remoteActor s.opts.secrets now).on s.db
      faults.save).1.isOk

/-- A document served with an ETag is stored with its ETag and its hash; or the hash
that is kept is none, or is its own; or the ETag that is kept is another and stays. -/
def Careful (rt : ConfigRuntime) (s : Relay) : RelayAction → Prop
  | .answer answer now faults => ∀ etag document, documentOf answer = some (etag, document) →
    (s.Stores rt document now faults ∧ etagKey ∉ faults.kv ∧ hashKey ∉ faults.kv) ∨
      (∀ hash, KvRepo.get s.db hashKey = some hash →
        hash = configHash rt (remoteConfigToYaml rt document)) ∨
      (KvRepo.get s.db etagKey ≠ some etag ∧
        ¬ (s.Stores rt document now faults ∧ etagKey ∉ faults.kv))
  | _ => True

/-! ## What was served -/

/-- A document that comes back for one `If-None-Match` comes back for every other. -/
theorem getRelayConfig_document {ifNoneMatch : Option String} {answer : ConfigAnswer} {body : Json}
    {etag : Option String} (document : getRelayConfig ifNoneMatch answer = .ok (.document body etag))
    (other : Option String) : getRelayConfig other answer = .ok (.document body etag) := by
  unfold getRelayConfig at document ⊢
  cases http : answer.http with
  | networkError message =>
    rw [http] at document
    cases document
  | bodyError message =>
    rw [http] at document
    cases document
  | response status text parsed =>
    rw [http] at document
    simp only at document ⊢
    split at document
    · cases document
    · rw [if_neg]
      · exact document
      · rintro ⟨rfl, -⟩
        cases document

/-- The document a check fetched is the one that was served. -/
theorem documentOf_fetched {ifNoneMatch : Option String} {answer : ConfigAnswer}
    {config : RemoteConfig} (fetched : fetchRemoteConfig ifNoneMatch answer = .ok (some config)) :
    documentOf answer = config.etag.map (·, config.document) ∧ (parseRoutes config.document).isOk := by
  unfold fetchRemoteConfig at fetched
  cases reply : getRelayConfig ifNoneMatch answer with
  | error error =>
    rw [reply] at fetched
    cases fetched
  | ok reply' =>
    cases reply' with
    | unchanged =>
      rw [reply] at fetched
      cases fetched
    | document body etag =>
      rw [reply] at fetched
      simp only at fetched
      cases routes : routesDocument body with
      | none =>
        rw [routes] at fetched
        cases fetched
      | some found =>
        obtain ⟨document, environment⟩ := found
        rw [routes] at fetched
        simp only at fetched
        cases accepted : parseRoutes document with
        | error error =>
          rw [accepted] at fetched
          cases fetched
        | ok list =>
          rw [accepted] at fetched
          obtain rfl := Option.some.inj (Except.ok.inj fetched)
          refine ⟨?_, by rw [accepted]; rfl⟩
          unfold documentOf
          rw [getRelayConfig_document reply none]
          cases etag with
          | none => rfl
          | some etag =>
            simp only [routes]
            rfl

/-- A document that was served and not fetched is no valid routes document. -/
theorem documentOf_refused {ifNoneMatch : Option String} {answer : ConfigAnswer} {etag : String}
    {document : Json} (served : documentOf answer = some (etag, document)) :
    (∃ config, fetchRemoteConfig ifNoneMatch answer = .ok (some config)) ∨
      ∃ error, fetchRemoteConfig ifNoneMatch answer = .error error ∧ error.kind = .invalid ∧
        ¬ (parseRoutes document).isOk := by
  unfold documentOf at served
  cases reply : getRelayConfig none answer with
  | error error =>
    rw [reply] at served
    cases served
  | ok reply' =>
    cases reply' with
    | unchanged =>
      rw [reply] at served
      cases served
    | document body header =>
      cases header with
      | none =>
        rw [reply] at served
        cases served
      | some header =>
        rw [reply] at served
        unfold fetchRemoteConfig
        rw [getRelayConfig_document reply ifNoneMatch]
        cases routes : routesDocument body with
        | none =>
          simp only [routes] at served
          cases served
        | some found =>
          obtain ⟨document', environment⟩ := found
          simp only [routes] at served
          obtain ⟨rfl, rfl⟩ := Prod.mk.inj (Option.some.inj served)
          simp only [routes]
          cases accepted : parseRoutes document' with
          | error error => exact .inr ⟨_, rfl, rfl, by simp [Except.isOk, Except.toBool]⟩
          | ok list => exact .inl ⟨_, rfl⟩

/-! ## One step -/

theorem described_init (rt : ConfigRuntime) (opts : RemoteCheckOptions) :
    Described rt (machine rt opts).init := by
  intro etag hash kept
  cases kept

/-- A save keeps what is kept of the last document. -/
theorem keys_save (yamlText appliedBy : String) (secrets : SecretResolver) (now : Int)
    (left : Option Nat) (db : Db) :
    KvRepo.get ((saveConfig rt yamlText appliedBy secrets now).on db left).2 etagKey =
        KvRepo.get db etagKey ∧
      KvRepo.get ((saveConfig rt yamlText appliedBy secrets now).on db left).2 hashKey =
        KvRepo.get db hashKey := by
  rcases saveConfig_cases rt yamlText appliedBy secrets now db left with ⟨e, fails⟩ | ⟨loaded, -, saves⟩
  · rw [fails]
    exact ⟨rfl, rfl⟩
  · rw [saves]
    exact ⟨get_saved loaded appliedBy now db fun id => (pauseKey_ne id).1,
      get_saved loaded appliedBy now db fun id => (pauseKey_ne id).2.1⟩

theorem Described.save (described : Described rt s) (yamlText appliedBy : String)
    (secrets : SecretResolver) (now : Int) (left : Option Nat) :
    Described rt { s with db := ((saveConfig rt yamlText appliedBy secrets now).on s.db left).2 } := by
  obtain ⟨etags, hashes⟩ := @keys_save rt yamlText appliedBy secrets now left s.db
  intro etag hash keptEtag keptHash
  exact described etag hash (etags ▸ keptEtag) (hashes ▸ keptHash)

/-- What is kept is described still when a document is served that has another ETag
or the hash that is kept. -/
theorem Described.serve (described : Described rt s) {etag : String} {document : Json}
    (apart : (∀ hash, KvRepo.get s.db hashKey = some hash →
        hash = configHash rt (remoteConfigToYaml rt document)) ∨
      KvRepo.get s.db etagKey ≠ some etag) :
    Described rt { s with served := (etag, document) :: s.served } := by
  intro etag' hash keptEtag keptHash
  by_cases same : etag' = etag
  · subst same
    rcases apart with own | other
    · exact ⟨document, List.lookup_cons_self, own hash keptHash⟩
    · exact absurd keptEtag other
  · obtain ⟨document', found, hashed⟩ := described etag' hash keptEtag keptHash
    refine ⟨document', ?_, hashed⟩
    show List.lookup etag' ((etag, document) :: s.served) = some document'
    rw [List.lookup_cons, beq_false_of_ne same]
    exact found

/-- Whether a description holds is up to the two rows and to what was served. -/
theorem Described.congr (described : Described rt s) {s' : Relay}
    (etag : KvRepo.get s'.db etagKey = KvRepo.get s.db etagKey)
    (hash : KvRepo.get s'.db hashKey = KvRepo.get s.db hashKey) (served : s'.served = s.served) :
    Described rt s' := by
  intro etag' hash' keptEtag keptHash
  rw [served]
  exact described etag' hash' (etag ▸ keptEtag) (hash ▸ keptHash)

/-- Once the ETAG is deleted nothing needs to be described. -/
theorem Described.unmark (described : Described rt s) {faults : Faults} {db' : Db} {s' : Relay}
    (marked : Marked faults none none s.db db') (db : s'.db = db') (served : s'.served = s.served) :
    Described rt s' := by
  intro etag hash keptEtag keptHash
  rw [db, marked.etag] at keptEtag
  rw [db, marked.hash] at keptHash
  split at keptEtag
  · rename_i stopped
    rw [if_pos (.inl stopped)] at keptHash
    rw [served]
    exact described etag hash keptEtag keptHash
  · cases keptEtag

/-- A document that is stored is described by what is kept of it. -/
theorem Described.mark (described : Described rt s) {faults : Faults} {etag : String}
    {document : Json} {db' : Db} {s' : Relay}
    (marked : Marked faults (some etag) (some (configHash rt (remoteConfigToYaml rt document))) s.db db')
    (careful : (etagKey ∉ faults.kv ∧ hashKey ∉ faults.kv) ∨
      (∀ hash, KvRepo.get s.db hashKey = some hash →
        hash = configHash rt (remoteConfigToYaml rt document)) ∨
      (KvRepo.get s.db etagKey ≠ some etag ∧ etagKey ∈ faults.kv))
    (db : s'.db = db') (served : s'.served = (etag, document) :: s.served) : Described rt s' := by
  by_cases before : etagKey ∈ faults.kv
  · have apart : (∀ hash, KvRepo.get s.db hashKey = some hash →
        hash = configHash rt (remoteConfigToYaml rt document)) ∨ KvRepo.get s.db etagKey ≠ some etag := by
      rcases careful with ⟨written, -⟩ | own | ⟨other, -⟩
      · exact absurd before written
      · exact .inl own
      · exact .inr other
    refine (described.serve apart).congr ?_ ?_ served
    · rw [db, marked.etag, if_pos before]
    · rw [db, marked.hash, if_pos (.inl before)]
  · intro etag' hash' keptEtag keptHash
    rw [db, marked.etag, if_neg before] at keptEtag
    obtain rfl := Option.some.inj keptEtag
    refine ⟨document, by rw [served, List.lookup_cons_self], ?_⟩
    rw [db, marked.hash] at keptHash
    split at keptHash
    · rename_i stopped
      have unwritten := stopped.resolve_left before
      rcases careful with ⟨-, written⟩ | own | ⟨-, earlier⟩
      · exact absurd unwritten written
      · exact own hash' keptHash
      · exact absurd earlier before
    · exact (Option.some.inj keptHash).symm

/-- What a careful answer leaves is described. -/
theorem described_answer (described : Described rt s) {pending : Pending} {answer : ConfigAnswer}
    {now : Int} {faults : Faults} (careful : Careful rt s (.answer answer now faults))
    {result : RemoteCheck} {db' : Db} {s' : Relay}
    (ended : Ended rt s.opts.secrets now faults pending answer s.db result db') (db : s'.db = db')
    (served : s'.served = (documentOf answer).toList ++ s.served) : Described rt s' := by
  have careful : ∀ etag document, documentOf answer = some (etag, document) → _ := careful
  -- A document that is not stored leaves both rows as they were.
  have unstored : ∀ etag document, documentOf answer = some (etag, document) →
      ¬ s.Stores rt document now faults → s'.db = s.db → Described rt s' := by
    intro etag document found unstored same
    have apart : (∀ hash, KvRepo.get s.db hashKey = some hash →
        hash = configHash rt (remoteConfigToYaml rt document)) ∨ KvRepo.get s.db etagKey ≠ some etag := by
      rcases careful etag document found with ⟨stores, -⟩ | own | ⟨other, -⟩
      · exact absurd stores unstored
      · exact .inl own
      · exact .inr other
    refine (described.serve apart).congr (by rw [same]) (by rw [same]) ?_
    rw [served, found]
    rfl
  cases ended with
  | refused fetched other failed =>
    cases found : documentOf answer with
    | none => exact described.congr (by rw [db]) (by rw [db]) (by rw [served, found]; rfl)
    | some document =>
      rcases @documentOf_refused pending.etag _ _ _ found with
        ⟨config, ok⟩ | ⟨error, -, -, invalid⟩
      · rw [fetched] at ok
        cases ok
      · exact unstored _ _ found (fun stores => invalid stores.1) db
  | disowned fetched notFound marked outcome =>
    cases found : documentOf answer with
    | none => exact described.unmark marked db (by rw [served, found]; rfl)
    | some document =>
      rcases @documentOf_refused pending.etag _ _ _ found with
        ⟨config, ok⟩ | ⟨error, refused, invalid, -⟩
      · rw [fetched] at ok
        cases ok
      · rw [fetched] at refused
        obtain rfl := Except.error.inj refused
        rw [notFound] at invalid
        cases invalid
  | unchanged fetched outcome =>
    cases found : documentOf answer with
    | none => exact described.congr (by rw [db]) (by rw [db]) (by rw [served, found]; rfl)
    | some document =>
      rcases @documentOf_refused pending.etag _ _ _ found with ⟨config, ok⟩ | ⟨error, refused, -⟩
      · rw [fetched] at ok
        cases ok
      · rw [fetched] at refused
        cases refused
  | unsaved fetched unsaved failed =>
    cases found : documentOf answer with
    | none => exact described.congr (by rw [db]) (by rw [db]) (by rw [served, found]; rfl)
    | some document =>
      rename_i config error
      obtain ⟨document', -⟩ := documentOf_fetched fetched
      rw [found] at document'
      cases header : config.etag with
      | none =>
        rw [header] at document'
        cases document'
      | some etag =>
        rw [header] at document'
        obtain rfl := Option.some.inj document'
        refine unstored _ _ found (fun stores => ?_) db
        have ok := stores.2
        rw [unsaved] at ok
        cases ok
  | saved fetched parsed saves marked outcome =>
    rename_i config loaded
    obtain ⟨found, accepted⟩ := documentOf_fetched fetched
    have etags := get_saved loaded remoteActor now s.db fun id => (pauseKey_ne id).1
    have hashes := get_saved loaded remoteActor now s.db fun id => (pauseKey_ne id).2.1
    have same : Described rt { s with db := App.saved loaded remoteActor now s.db } :=
      described.congr etags hashes rfl
    rw [found] at served
    cases header : config.etag with
    | none =>
      rw [header] at marked served
      exact same.unmark marked db served
    | some etag =>
      rw [header] at marked served
      rw [header] at found
      have stores : s.Stores rt config.document now faults := ⟨accepted, by rw [saves]; rfl⟩
      have hash := (parsed_of_parseConfig parsed).2.1
      rw [Option.map_some, hash] at marked
      refine same.mark marked ?_ db served
      rcases careful etag config.document found with ⟨-, written⟩ | own | ⟨other, stopped⟩
      · exact .inl written
      · exact .inr (.inl fun kept read => own kept (hashes ▸ read))
      · refine .inr (.inr ⟨fun read => other (etags ▸ read), ?_⟩)
        by_contra reached
        exact stopped ⟨stores, reached⟩

/-- A careful step keeps what is kept described. -/
theorem described_step (described : Described rt s) {action : RelayAction}
    (careful : Careful rt s action) : Described rt (s.step rt action) := by
  cases action with
  | ask now left =>
    show Described rt (s.ask rt now left)
    rcases ask_cases rt s now left with same | ⟨-, reason, same⟩ | ⟨pending, -, same⟩ | ⟨error, same⟩
    all_goals
      rw [same]
      exact described
  | answer answer now faults =>
    unfold step
    cases s.inFlight with
    | none => exact described
    | some pending =>
      exact described_answer described careful (endCheck_ended rt s.opts.secrets now faults pending
        answer s.db) rfl rfl
  | apply yamlText now left =>
    show Described rt (if s.status.managed then s else s.save rt yamlText "admin" now left)
    split
    · exact described
    · exact described.save yamlText "admin" s.opts.secrets now left
  | seed yamlText now left =>
    show Described rt (if (readActiveConfigRaw s.db).isSome then s else s.save rt yamlText "seed" now left)
    split
    · exact described
    · exact described.save yamlText "seed" s.opts.secrets now left
  | restart opts => exact described

/-! ## Every run -/

/-- What a check is about to send, and the configuration it sends it for. -/
theorem sent_of_ask {now : Int} {left : Option Nat} {pending : Pending} {etag : String}
    (idle : s.inFlight = none) (asked : (s.step rt (.ask now left)).inFlight = some pending)
    (sent : pending.etag = some etag) : ∃ stored, getActiveConfig rt s.db = some stored ∧
      KvRepo.get s.db hashKey = some stored.hash ∧ KvRepo.get s.db etagKey = some etag := by
  have asked : (s.ask rt now left).inFlight = some pending := asked
  rcases ask_cases rt s now left with same | ⟨-, reason, same⟩ | ⟨begun, reads, same⟩ | ⟨error, same⟩
  · rw [same, idle] at asked
    cases asked
  · rw [same] at asked
    exact absurd (idle.symm.trans asked) nofun
  · rw [same] at asked
    obtain rfl := Option.some.inj asked
    exact (pending_of_beginCheck reads).2 etag sent
  · rw [same] at asked
    exact absurd (idle.symm.trans asked) nofun

/-- In a run whose every step is careful, a check that sends an ETag has for its active
configuration what the document last served with that ETag renders to. -/
theorem etag_vouches (rt : ConfigRuntime) (injective : Function.Injective rt.sha256Hex)
    (opts : RemoteCheckOptions) (actions : List RelayAction)
    (careful : (machine rt opts).Guarded (Careful rt) actions) (now : Int) (left : Option Nat)
    (pending : Pending) (etag : String)
    (idle : ((machine rt opts).run actions).inFlight = none)
    (asked : ((machine rt opts).run (actions ++ [.ask now left])).inFlight = some pending)
    (sent : pending.etag = some etag) :
    ∃ document, ((machine rt opts).run actions).served.lookup etag = some document ∧
      readActiveConfigRaw ((machine rt opts).run actions).db = some (remoteConfigToYaml rt document) := by
  have described : Described rt ((machine rt opts).run actions) :=
    Machine.guarded_invariant (Described rt) (described_init rt opts)
      (fun _ _ before careful => described_step before careful) careful
  rw [Machine.run_concat] at asked
  obtain ⟨stored, active, hash, etagKept⟩ := sent_of_ask idle asked sent
  obtain ⟨document, served, hashed⟩ := described etag stored.hash etagKept hash
  exact ⟨document, served, text_of_active injective active hashed⟩

end Relay

/-! ## On fixed inputs -/

open Relay

theorem documentOf_sample (id : String) (known : id ∈ ["ach", "cards"]) (etag : String)
    (filled : etag ≠ "") : documentOf (sampleServed id (some etag)) = some (etag, sampleDocument id) := by
  obtain ⟨config, fetched, document, header⟩ := sample_fetched id known (some etag) none
  rw [(documentOf_fetched fetched).1, header, document, Option.filter_some,
    if_pos (bne_iff_ne.mpr filled)]
  rfl

/-- A check sends the ETag that is kept where the hash that is kept is the active one. -/
theorem ask_sends {rt : ConfigRuntime} {s : Relay} {hash etag : String} (idle : s.inFlight = none)
    (asks : s.opts.asks) (now : Int)
    (active : (getActiveConfig rt s.db).map (·.hash) = some hash)
    (keptHash : KvRepo.get s.db hashKey = some hash) (keptEtag : KvRepo.get s.db etagKey = some etag)
    (filled : etag ≠ "") :
    ∃ pending, (s.ask rt now none).inFlight = some pending ∧ pending.etag = some etag := by
  obtain ⟨stored, found, hashed⟩ := Option.map_eq_some_iff.mp active
  refine ⟨_, congrArg Relay.inFlight (ask_runs idle asks now), ?_⟩
  show (getActiveConfig rt s.db).bind _ = _
  rw [found, Option.bind_some, hashed, if_pos keptHash, keptEtag, Option.filter_some,
    if_pos (bne_iff_ne.mpr filled)]

/-- What a document with an ETag leaves: it is active, and marked with its ETag and hash. -/
theorem vouched_state : ∃ loaded s,
    s = (Relay.machine sampleRemoteRuntime sampleOpts).run (servedRun (some "e1")) ∧
    parseConfig sampleRemoteRuntime (remoteConfigToYaml sampleRemoteRuntime (sampleDocument "ach")) =
      .ok loaded ∧ loaded.routes.map RouteConfig.id = ["ach"] ∧
    s.inFlight = none ∧ s.opts = sampleOpts ∧ s.served = [("e1", sampleDocument "ach")] ∧
    KvRepo.get s.db etagKey = some "e1" ∧ KvRepo.get s.db hashKey = some loaded.hash ∧
    (getActiveConfig sampleRemoteRuntime s.db).map (·.hash) = some loaded.hash ∧
    Kept sampleRemoteRuntime s.db := by
  obtain ⟨loaded, parsed, routes, marked, -⟩ := run_served (some "e1")
  have kept := @Kept.saved sampleRemoteRuntime _ _ remoteActor _ 2 kept_init parsed
  refine ⟨loaded, _, rfl, parsed, routes, rfl, rfl, ?_, marked.etag, marked.hash, ?_,
    kept.congr marked.versions marked.routes marked.flags⟩
  · show (documentOf _).toList ++ [] = _
    rw [documentOf_sample "ach" (by decide) "e1" (by decide)]
    rfl
  · rw [getActiveConfig_congr marked.versions]
    exact hash_saved kept_init parsed remoteActor 2

theorem etag_vouches_sample : ∃ document,
    ((Relay.machine sampleRemoteRuntime sampleOpts).run (servedRun (some "e1"))).served.lookup "e1" = some document ∧
      readActiveConfigRaw ((Relay.machine sampleRemoteRuntime sampleOpts).run (servedRun (some "e1"))).db =
        some (remoteConfigToYaml sampleRemoteRuntime document) := by
  obtain ⟨loaded, s, ran, -, -, idle, opts, -, etag, hash, active, -⟩ := vouched_state
  obtain ⟨pending, asked, sends⟩ := @ask_sends sampleRemoteRuntime _ _ _ idle (by rw [opts]; decide) 3
    active hash etag (by decide)
  refine etag_vouches sampleRemoteRuntime sampleRemoteRuntime_injective sampleOpts (servedRun (some "e1"))
    ⟨trivial, fun _ _ _ => .inr (.inl fun _ kept => by cases kept), trivial⟩ 3 none pending "e1" ?_ ?_ sends
  · rw [← ran]
    exact idle
  · rw [Machine.run_concat, ← ran]
    exact asked

/-- The second document is stored and its ETag kept, its hash is not; the process
starts again, and the text of the first document is applied by hand. -/
def overtakenRun : List RelayAction :=
  servedRun (some "e1") ++ [.ask 3 none,
    .answer (sampleServed "cards" (some "e2")) 4 { kv := [hashKey] }, .restart sampleOpts,
    .apply (remoteConfigToYaml sampleRemoteRuntime (sampleDocument "ach")) 5 none]

/-- The check after it sends the ETag of the second document for the text of the first. -/
theorem overtaken_etag : ∃ pending,
    ((Relay.machine sampleRemoteRuntime sampleOpts).run overtakenRun).inFlight = none ∧
      ((Relay.machine sampleRemoteRuntime sampleOpts).run
        (overtakenRun ++ [.ask 6 none])).inFlight = some pending ∧
      pending.etag = some "e2" ∧
      ((Relay.machine sampleRemoteRuntime sampleOpts).run overtakenRun).served.lookup "e2" =
        some (sampleDocument "cards") ∧
      readActiveConfigRaw ((Relay.machine sampleRemoteRuntime sampleOpts).run overtakenRun).db ≠
        some (remoteConfigToYaml sampleRemoteRuntime (sampleDocument "cards")) := by
  obtain ⟨first, s, ran, parsed, routes, idle, opts, served, etag, hash, active, kept⟩ := vouched_state
  obtain ⟨pending, asked, -⟩ := @ask_sends sampleRemoteRuntime _ _ _ idle (by rw [opts]; decide) 3
    active hash etag (by decide)
  have asking : s.ask sampleRemoteRuntime 3 none = { s with inFlight := some pending } := by
    rw [ask_runs idle (by rw [opts]; decide) 3] at asked ⊢
    rw [← Option.some.inj asked]
  obtain ⟨second, parsed', routes', marked, -⟩ := sample_concludes "cards" (by decide) (some "e2")
    { s with inFlight := some pending } (by rw [opts]; rfl) pending 4 [hashKey]
  have texts : remoteConfigToYaml sampleRemoteRuntime (sampleDocument "ach") ≠
      remoteConfigToYaml sampleRemoteRuntime (sampleDocument "cards") := by
    intro same
    rw [same, parsed'] at parsed
    obtain rfl := Except.ok.inj parsed
    rw [routes] at routes'
    exact absurd routes' (by decide)
  have hashes : first.hash ≠ second.hash := by
    rw [(parsed_of_parseConfig parsed).2.1, (parsed_of_parseConfig parsed').2.1]
    exact fun same => texts (configHash_injective sampleRemoteRuntime_injective same)
  -- The second document is active, under its own ETag and the hash of the first.
  obtain ⟨s', stopped⟩ : ∃ s', s' = { s with inFlight := some pending }.conclude sampleRemoteRuntime
    pending (sampleServed "cards" (some "e2")) 4 { kv := [hashKey] } := ⟨_, rfl⟩
  rw [← stopped] at marked
  have etag' : KvRepo.get s'.db etagKey = some "e2" := marked.etag
  have hash' : KvRepo.get s'.db hashKey = some first.hash := by
    rw [marked.hash, if_pos (.inr (by decide)),
      get_saved second remoteActor 4 _ fun id => (pauseKey_ne id).2.1]
    exact hash
  have active' : (getActiveConfig sampleRemoteRuntime s'.db).map (·.hash) = some second.hash := by
    rw [getActiveConfig_congr marked.versions]
    exact hash_saved kept parsed' remoteActor 4
  have kept' : Kept sampleRemoteRuntime s'.db :=
    (kept.saved parsed').congr marked.versions marked.routes marked.flags
  have unmanaged : wasManagedByEndClose sampleRemoteRuntime s'.db = false := by
    obtain ⟨stored, found, hashed⟩ := Option.map_eq_some_iff.mp active'
    rw [wasManagedByEndClose, found, Option.any_some, hash', hashed, beq_eq_false_iff_ne]
    exact fun same => hashes (Option.some.inj same)
  -- So the first text can be applied, and the hash is its own.
  obtain ⟨again, reparsed, -, present⟩ := sample_parses "ach" (by decide)
  rw [parsed] at reparsed
  obtain rfl := Except.ok.inj reparsed
  have applied : (saveConfig sampleRemoteRuntime
      (remoteConfigToYaml sampleRemoteRuntime (sampleDocument "ach")) "admin" sampleOpts.secrets 5).on
        s'.db none = (.ok first, App.saved first "admin" 5 s'.db) :=
    saveConfig_runs parsed present "admin" 5 s'.db
  obtain ⟨s'', overtaken⟩ : ∃ s'', s'' = (Relay.machine sampleRemoteRuntime sampleOpts).run overtakenRun :=
    ⟨_, rfl⟩
  obtain ⟨booted, restarted⟩ : ∃ booted : Relay, booted =
      { s' with opts := sampleOpts, status := .new sampleRemoteRuntime sampleOpts s'.db,
                inFlight := none } := ⟨_, rfl⟩
  have ran' : s'' = booted.step sampleRemoteRuntime
      (.apply (remoteConfigToYaml sampleRemoteRuntime (sampleDocument "ach")) 5 none) := by
    have began : (Relay.machine sampleRemoteRuntime sampleOpts).step s (.ask 3 none) =
        { s with inFlight := some pending } := asking
    have answered : (Relay.machine sampleRemoteRuntime sampleOpts).step
        { s with inFlight := some pending }
        (.answer (sampleServed "cards" (some "e2")) 4 { kv := [hashKey] }) = s' := stopped.symm
    have again : (Relay.machine sampleRemoteRuntime sampleOpts).step s' (.restart sampleOpts) = booted :=
      restarted.symm
    rw [overtaken, overtakenRun, Machine.run_append, ← ran, List.foldl_cons, List.foldl_cons,
      List.foldl_cons, began, answered, again]
    rfl
  have open_ : booted.status.managed = false := by
    rw [restarted]
    show (sampleOpts.asks && wasManagedByEndClose sampleRemoteRuntime s'.db) = false
    rw [unmanaged, Bool.and_false]
  have saves : s'' = { booted with db := App.saved first "admin" 5 s'.db } := by
    rw [ran', step, open_, if_neg Bool.false_ne_true, save, restarted, applied]
  have db : s''.db = App.saved first "admin" 5 s'.db := congrArg Relay.db saves
  have opts' : s''.opts = sampleOpts := by rw [saves, restarted]
  have idle' : s''.inFlight = none := by rw [saves, restarted]
  have served' : s''.served = s'.served := by rw [saves, restarted]
  rw [← overtaken]
  have active'' : (getActiveConfig sampleRemoteRuntime s''.db).map (·.hash) = some first.hash := by
    rw [db]
    exact hash_saved kept' parsed "admin" 5
  obtain ⟨pending', asked', sends⟩ := @ask_sends sampleRemoteRuntime _ _ "e2" idle'
    (by rw [opts']; decide) 6 active''
    (by rw [db, get_saved first "admin" 5 s'.db fun id => (pauseKey_ne id).2.1, hash'])
    (by rw [db, get_saved first "admin" 5 s'.db fun id => (pauseKey_ne id).1, etag']) (by decide)
  refine ⟨pending', idle', ?_, sends, ?_, ?_⟩
  · rw [Machine.run_concat, ← overtaken]
    exact asked'
  · rw [served', stopped]
    show ((documentOf (sampleServed "cards" (some "e2"))).toList ++ s.served).lookup "e2" = _
    rw [documentOf_sample "cards" (by decide) "e2" (by decide)]
    rfl
  · obtain ⟨stored, found, hashed⟩ := Option.map_eq_some_iff.mp active''
    rw [text_of_active sampleRemoteRuntime_injective found (hashed.trans (parsed_of_parseConfig parsed).2.1)]
    exact fun same => texts (Option.some.inj same)

end EndCloseRelay.App
