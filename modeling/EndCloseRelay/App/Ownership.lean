import EndCloseRelay.App.RemoteRuns

/-!
# Ownership across restarts

The manager keeps in memory whether End Close owns the configuration; after a
restart it goes by the hash that is kept beside the configuration.  The theorem
says of which runs the two agree.
-/

namespace EndCloseRelay.App

open Interaction

/-- Writing, or deleting, the ETag or the hash fails. -/
def Faults.halts (faults : Faults) : Prop := etagKey ∈ faults.kv ∨ hashKey ∈ faults.kv

namespace Relay

variable {rt : ConfigRuntime} {s : Relay}

/-- `saveConfig` stores the document. -/
def StoresText (rt : ConfigRuntime) (s : Relay) (document : Json) (now : Int) (faults : Faults) : Prop :=
  ((saveConfig rt (remoteConfigToYaml rt document) remoteActor s.opts.secrets now).on s.db
    faults.save).1.isOk

/-- What an answer may do that the next process finds again: a document that is stored
has an ETag, and its ETag and hash are written if the configuration changes while End
Close owns it; a 304 finds the configuration it was asked for; the rows of a 404 are
deleted. -/
def Remembered (rt : ConfigRuntime) (s : Relay) : RelayAction → Prop
  | .answer answer now faults => ∀ pending, s.inFlight = some pending →
    match fetchRemoteConfig pending.etag answer with
    | .ok (some config) => s.StoresText rt config.document now faults →
      (faults.halts → s.status.managed = true →
          readActiveConfigRaw s.db = some (remoteConfigToYaml rt config.document)) ∧
        (config.etag = none → ¬ faults.spare ∧ (¬ faults.halts → s.status.managed = false))
    | .ok none => environmentKey ∈ faults.kv ∨
      (getActiveConfig rt s.db).map (·.hash) = pending.stored.map (·.hash)
    | .error error => error.kind = .notFound →
      (faults.halts → KvRepo.get s.db hashKey = none) ∧
        (¬ faults.halts → ¬ faults.spare → s.status.managed = false)
  | _ => True

/-- In memory, on the database and under way, who owns the configuration is the same. -/
structure Agreed (rt : ConfigRuntime) (s : Relay) : Prop where
  kept : Kept rt s.db
  managed : s.status.managed = true → wasManagedByEndClose rt s.db = true
  pending : ∀ pending, s.inFlight = some pending → pending.etag ≠ none →
    ∃ stored, pending.stored = some stored ∧ KvRepo.get s.db hashKey = some stored.hash
  disowned : s.owned = some false → KvRepo.get s.db hashKey = none

/-- The active configuration is the one whose hash is kept. -/
theorem wasManaged_iff {db : Db} : wasManagedByEndClose rt db = true ↔
    ∃ hash, (getActiveConfig rt db).map (·.hash) = some hash ∧ KvRepo.get db hashKey = some hash := by
  unfold wasManagedByEndClose
  cases getActiveConfig rt db with
  | none =>
    refine iff_of_false Bool.false_ne_true ?_
    rintro ⟨hash, none, -⟩
    cases none
  | some stored =>
    rw [Option.any_some, beq_iff_eq]
    exact ⟨fun kept => ⟨stored.hash, rfl, kept⟩, fun ⟨hash, same, kept⟩ => kept.trans same.symm⟩

theorem agreed_boot (opts : RemoteCheckOptions) : Agreed rt (boot rt opts {}) where
  kept := kept_init
  managed := fun managed => (Bool.and_eq_true _ _ ▸ managed :).2
  pending := fun _ none => nomatch none
  disowned := fun none => nomatch none

theorem managed_new {opts : RemoteCheckOptions} {db : Db} :
    (RemoteConfigStatus.new rt opts db).managed = (opts.asks && wasManagedByEndClose rt db) := rfl

/-- A failed check leaves who owns the configuration. -/
theorem managed_record {status : RemoteConfigStatus} {now : Int} {result : RemoteCheck}
    (failed : result.isFailed) : (status.record now result).managed = status.managed := by
  cases result with
  | failed error retryable => rfl
  | _ => cases failed

/-! ## Saves -/

/-- A save while End Close does not own the configuration. -/
theorem Agreed.save (agreed : Agreed rt s) (unmanaged : s.status.managed = false)
    (yamlText appliedBy : String) (now : Int) (left : Option Nat) :
    Agreed rt (s.save rt yamlText appliedBy now left) := by
  unfold Relay.save
  rcases saveConfig_cases rt yamlText appliedBy s.opts.secrets now s.db left with
    ⟨e, fails⟩ | ⟨loaded, parsed, saves⟩
  · rw [fails]
    exact agreed
  · rw [saves]
    have hash := get_saved loaded appliedBy now s.db fun id => (pauseKey_ne id).2.1
    exact {
      kept := agreed.kept.saved parsed
      managed := fun managed => absurd managed (by rw [unmanaged]; exact Bool.false_ne_true)
      pending := fun pending flying sent => by
        obtain ⟨stored, held, kept⟩ := agreed.pending pending flying sent
        exact ⟨stored, held, hash.trans kept⟩
      disowned := fun disowned => hash.trans (agreed.disowned disowned) }

/-! ## Answers -/

/-- What the answers say about the owner. -/
theorem ownedBy_ok {pending : Pending} {answer : ConfigAnswer} {config : Option RemoteConfig}
    (fetched : fetchRemoteConfig pending.etag answer = .ok config) :
    ownedBy pending answer = some true := by
  unfold ownedBy
  rw [fetched]

theorem ownedBy_error {pending : Pending} {answer : ConfigAnswer} {error : RemoteConfigError}
    (fetched : fetchRemoteConfig pending.etag answer = .error error) :
    ownedBy pending answer = if error.kind = .notFound then some false else none := by
  unfold ownedBy
  rw [fetched]

/-- What is kept of an answer to a check, where the answer may be given. -/
theorem agreed_conclude (agreed : Agreed rt s) {pending : Pending} {answer : ConfigAnswer} {now : Int}
    {faults : Faults} (flying : s.inFlight = some pending)
    (remembered : Remembered rt s (.answer answer now faults)) :
    Agreed rt (s.conclude rt pending answer now faults) := by
  have remembered := remembered pending flying
  have ended := endCheck_ended rt s.opts.secrets now faults pending answer s.db
  unfold Relay.conclude
  simp only
  generalize caught _ = result at ended ⊢
  generalize ((endCheck rt s.opts.secrets now faults pending answer).on s.db none).2 = db' at ended ⊢
  cases ended with
  | refused fetched other failed =>
    exact {
      kept := agreed.kept
      managed := fun managed => agreed.managed ((managed_record failed).symm.trans managed)
      pending := fun _ none => nomatch none
      disowned := fun disowned => agreed.disowned (by
        rwa [ownedBy_error fetched, if_neg other] at disowned) }
  | disowned fetched notFound marked outcome =>
    rw [fetched] at remembered
    obtain ⟨halted, stopped⟩ := remembered notFound
    refine {
      kept := agreed.kept.congr marked.versions marked.routes marked.flags
      managed := fun managed => ?_
      pending := fun _ none => nomatch none
      disowned := fun _ => ?_ }
    · rcases outcome with ⟨-, rfl⟩ | ⟨unspared, failed⟩
      · cases managed
      · have before : s.status.managed = true := (managed_record failed).symm.trans managed
        by_cases halts : faults.halts
        · obtain ⟨hash, -, kept⟩ := wasManaged_iff.mp (agreed.managed before)
          rw [halted halts] at kept
          cases kept
        · rw [stopped halts unspared] at before
          cases before
    · rw [marked.hash]
      split
      · rename_i halts
        exact halted halts
      · rfl
  | unchanged fetched outcome =>
    rw [fetched] at remembered
    refine {
      kept := agreed.kept
      managed := fun managed => ?_
      pending := fun _ none => nomatch none
      disowned := fun disowned => by
        rw [ownedBy_ok fetched] at disowned
        cases disowned }
    rcases outcome with ⟨readable, environment, rfl⟩ | ⟨-, failed⟩
    · obtain ⟨stored, held, hash⟩ := agreed.pending pending flying (sent_of_unchanged fetched)
      have same := remembered.resolve_left readable
      rw [held] at same
      exact wasManaged_iff.mpr ⟨stored.hash, same, hash⟩
    · exact agreed.managed ((managed_record failed).symm.trans managed)
  | unsaved fetched unsaved failed =>
    exact {
      kept := agreed.kept
      managed := fun managed => agreed.managed ((managed_record failed).symm.trans managed)
      pending := fun _ none => nomatch none
      disowned := fun disowned => by
        rw [ownedBy_ok fetched] at disowned
        cases disowned }
  | saved fetched parsed saves marked outcome =>
    rename_i config loaded
    rw [fetched] at remembered
    have stores : s.StoresText rt config.document now faults := by
      unfold StoresText
      rw [saves]
      rfl
    obtain ⟨same, unmarked⟩ := remembered stores
    have active : (getActiveConfig rt db').map (·.hash) = some loaded.hash := by
      rw [getActiveConfig_congr marked.versions]
      exact hash_saved agreed.kept parsed remoteActor now
    refine {
      kept := (agreed.kept.saved parsed).congr marked.versions marked.routes marked.flags
      managed := fun managed => wasManaged_iff.mpr ⟨loaded.hash, active, ?_⟩
      pending := fun _ none => nomatch none
      disowned := fun disowned => by
        rw [ownedBy_ok fetched] at disowned
        cases disowned }
    by_cases halts : faults.halts
    · rcases outcome with ⟨spare, -⟩ | ⟨-, failed⟩
      · exact absurd halts (not_or.mpr ⟨spare.1, spare.2.1⟩)
      · have before : s.status.managed = true := (managed_record failed).symm.trans managed
        obtain ⟨hash, held, kept⟩ := wasManaged_iff.mp (agreed.managed before)
        have text := same halts before
        rw [getActiveConfig, text, Option.bind_some, parsed] at held
        have halts : etagKey ∈ faults.kv ∨ hashKey ∈ faults.kv := halts
        rw [marked.hash, if_pos halts, get_saved loaded remoteActor now s.db fun id => (pauseKey_ne id).2.1,
          kept]
        exact held.symm
    · have written : ¬ (etagKey ∈ faults.kv ∨ hashKey ∈ faults.kv) := halts
      rw [marked.hash, if_neg written]
      cases header : config.etag with
      | some etag => rfl
      | none =>
        obtain ⟨unspared, stays⟩ := unmarked header
        rcases outcome with ⟨spare, -⟩ | ⟨-, failed⟩
        · exact absurd spare unspared
        · have before : s.status.managed = true := (managed_record failed).symm.trans managed
          rw [stays halts] at before
          cases before

/-! ## Every run -/

/-- One step that is remembered. -/
theorem agreed_step (agreed : Agreed rt s) {action : RelayAction} (remembered : Remembered rt s action) :
    Agreed rt (s.step rt action) := by
  cases action with
  | ask now left =>
    show Agreed rt (s.ask rt now left)
    rcases ask_cases rt s now left with same | ⟨-, reason, same⟩ | ⟨pending, begun, same⟩ | ⟨error, same⟩
    · rw [same]
      exact agreed
    · rw [same]
      exact { agreed with managed := fun managed => nomatch managed }
    · rw [same]
      refine { agreed with pending := fun pending' flying sent => ?_ }
      obtain rfl := Option.some.inj flying
      obtain ⟨held, asks⟩ := pending_of_beginCheck begun
      obtain ⟨etag, sent⟩ := Option.ne_none_iff_exists'.mp sent
      obtain ⟨stored, found, hash, -⟩ := asks etag sent
      exact ⟨stored, held.trans found, hash⟩
    · rw [same]
      exact { agreed with managed := fun managed => agreed.managed managed }
  | answer answer now faults =>
    cases flying : s.inFlight with
    | none =>
      have same : s.step rt (.answer answer now faults) = s := by rw [step, flying]
      rw [same]
      exact agreed
    | some pending =>
      have same : s.step rt (.answer answer now faults) = s.conclude rt pending answer now faults := by
        rw [step, flying]
      rw [same]
      exact agreed_conclude agreed flying remembered
  | apply yamlText now left =>
    show Agreed rt (if s.status.managed then s else s.save rt yamlText "admin" now left)
    split
    · exact agreed
    · rename_i unmanaged
      exact agreed.save (Bool.eq_false_iff.mpr unmanaged) yamlText "admin" now left
  | seed yamlText now left =>
    show Agreed rt (if (readActiveConfigRaw s.db).isSome then s else s.save rt yamlText "seed" now left)
    split
    · exact agreed
    · rename_i empty
      refine agreed.save (Bool.eq_false_iff.mpr fun managed => ?_) yamlText "seed" now left
      obtain ⟨hash, held, -⟩ := wasManaged_iff.mp (agreed.managed managed)
      obtain ⟨stored, found, -⟩ := Option.map_eq_some_iff.mp held
      obtain ⟨text, read, -⟩ := Option.bind_eq_some_iff.mp found
      rw [read] at empty
      exact empty rfl
  | restart opts =>
    exact { agreed with
      managed := fun managed => (Bool.and_eq_true_iff.mp managed).2
      pending := fun _ none => nomatch none }

/-- In a run whose every answer is remembered, a process that stops while End Close owns
the configuration starts again so, and one whose last answer was a 404 does not. -/
theorem ownership_survives (rt : ConfigRuntime) (opts : RemoteCheckOptions)
    (actions : List RelayAction) (remembered : (machine rt opts).Guarded (Remembered rt) actions)
    (again : RemoteCheckOptions) (asks : again.asks = true) :
    (((machine rt opts).run actions).status.managed = true →
        (RemoteConfigStatus.new rt again ((machine rt opts).run actions).db).managed = true) ∧
      (((machine rt opts).run actions).owned = some false →
        (RemoteConfigStatus.new rt again ((machine rt opts).run actions).db).managed = false) := by
  have agreed : Agreed rt ((machine rt opts).run actions) :=
    Machine.guarded_invariant (Agreed rt) (agreed_boot opts)
      (fun _ _ before remembered => agreed_step before remembered) remembered
  refine ⟨fun managed => ?_, fun disowned => ?_⟩
  · rw [managed_new, asks, agreed.managed managed]
    rfl
  · rw [managed_new, asks, Bool.true_and, Bool.eq_false_iff]
    intro managed
    obtain ⟨hash, -, kept⟩ := wasManaged_iff.mp managed
    rw [agreed.disowned disowned] at kept
    cases kept

end Relay

/-! ## On fixed inputs -/

open Relay

theorem ownership_survives_sample :
    ((Relay.machine sampleRemoteRuntime sampleOpts).run (servedRun (some "e1"))).status.managed = true ∧
      (RemoteConfigStatus.new sampleRemoteRuntime sampleOpts
        ((Relay.machine sampleRemoteRuntime sampleOpts).run (servedRun (some "e1"))).db).managed = true := by
  obtain ⟨loaded, -, -, -, managed⟩ := run_served (some "e1")
  refine ⟨managed, (ownership_survives sampleRemoteRuntime sampleOpts (servedRun (some "e1"))
    ⟨trivial, fun pending _ => ?_, trivial⟩ sampleOpts (by decide)).1 managed⟩
  obtain ⟨config, fetched, -, header⟩ := sample_fetched "ach" (by decide) (some "e1") pending.etag
  rw [fetched]
  intro _
  refine ⟨fun halts => ?_, fun none => ?_⟩
  · rcases halts with first | second
    · exact absurd first List.not_mem_nil
    · exact absurd second List.not_mem_nil
  · rw [header] at none
    cases none

/-- A document without an ETag is stored, and the next process does not know whose it is. -/
theorem unmarked_forgotten :
    ((Relay.machine sampleRemoteRuntime sampleOpts).run (servedRun none)).status.managed = true ∧
      (RemoteConfigStatus.new sampleRemoteRuntime sampleOpts
        ((Relay.machine sampleRemoteRuntime sampleOpts).run (servedRun none)).db).managed = false := by
  obtain ⟨loaded, -, -, marked, managed⟩ := run_served none
  refine ⟨managed, ?_⟩
  rw [managed_new, Bool.and_eq_false_iff]
  refine .inr (Bool.eq_false_iff.mpr fun remains => ?_)
  obtain ⟨hash, -, kept⟩ := wasManaged_iff.mp remains
  have gone := marked.hash.symm.trans kept
  cases gone

end EndCloseRelay.App
