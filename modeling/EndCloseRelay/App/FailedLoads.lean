import EndCloseRelay.App.RemoteServing
import Mathlib.Data.Int.ConditionallyCompleteOrder

/-!
# Holding a failed first load

While nothing has been held, `ready` refuses lookups from the last error up to
`holdUntil`, and `holdUntil` was set when the fetch started that failed since.
`Watched` keeps, beside the provider, when each fetch started and failed;
`failed_load_held_iff` compares the two.
-/

namespace EndCloseRelay.App.RemoteRoutes

open Interaction

/-! ## Watching a provider -/

/-- A fetch that failed: when it started, when it failed, and how. -/
structure Failure where
  fetch : Nat
  started : Int
  failed : Int
  error : RemoteConfigError

/-- A provider, and beside it when its fetches started, those that failed, and
the readings of the clock so far. -/
structure Watched where
  provider : Provider := {}
  starts : List Int := []
  failures : List Failure := []
  clocks : List Clock := []

/-- The readings of the clock in an action. -/
def Action.clock? : Action → Option Clock
  | call _ clock | answer _ _ clock => some clock
  | _ => none

/-- How far a fetch has come. -/
def Provider.stage (s : Provider) (i : Nat) : Option Stage := (s.fetches[i]?).map Fetch.stage

/-- The failure an action brings: an answer for a fetch that had none, and failed by it. -/
def Watched.failure (w : Watched) (next : Provider) : Action → Option Failure
  | .answer i _ clock =>
    match w.provider.stage i, next.stage i with
    | some .requested, some (.settled (.error error)) =>
      some { fetch := i, started := w.starts.getD i 0, failed := clock 0, error }
    | _, _ => none
  | _ => none

/-- The starts after an action: a lookup reads the clock, and `fetchNow` does next. -/
def Watched.startsAfter (w : Watched) (next : Provider) (action : Action) : List Int :=
  match action.clock? with
  | some clock =>
    if w.provider.fetches.length < next.fetches.length then w.starts ++ [clock 1] else w.starts
  | none => w.starts

/-- A watched provider from its creation on. -/
def watch (opts : Options) : Machine Watched Action where
  init := {}
  step w action :=
    let next := (machine opts).step w.provider action
    { provider := next
      starts := w.startsAfter next action
      failures := (w.failure next action).toList ++ w.failures
      clocks := action.clock?.toList ++ w.clocks }

theorem watch_provider (opts : Options) (actions : List Action) :
    ((watch opts).run actions).provider = (machine opts).run actions := by
  induction actions using List.reverseRecOn with
  | nil => rfl
  | append_singleton actions action ih =>
    rw [Machine.run_concat, Machine.run_concat, ← ih]
    rfl

/-! ## What is asked of a run -/

/-- An action of a provider that serves `get` and `all` only. -/
def Action.FromLookups : Action → Prop
  | .call made _ => ∃ lookup, made = .lookup lookup
  | _ => True

/-- The clock does not go back. -/
def Paced (w : Watched) (action : Action) : Prop :=
  ∀ clock ∈ action.clock?, Monotone clock ∧ ∀ earlier ∈ w.clocks, ∀ m n, earlier m ≤ clock n

/-- A lookup is refused for an error that was cached, and starts no fetch: at once, or by the
promise that was rejected with it. -/
def Provider.Refuses (opts : Options) (s : Provider) (lookup : Lookup) (clock : Clock)
    (error : RemoteConfigError) : Prop :=
  let next := (machine opts).step s (.call (.lookup lookup) clock)
  next.fetches.length = s.fetches.length ∧
    ((∃ settled, next.settled = settled :: s.settled ∧ settled.call = .lookup lookup ∧
        settled.outcome = Provider.unavailable error lookup.op) ∨
      ∃ (i : Nat) (fetch : Fetch), next.fetches[i]? = some fetch ∧ fetch.stage = .settled (.error error) ∧
        .lookup lookup ∈ fetch.waiters)

/-- After a failure, each lookup for `FAILED_LOAD_HOLD_MS` is refused for its error. -/
def HeldBack (opts : Options) (w : Watched) (action : Action) : Prop :=
  ∀ lookup clock, action = .call (.lookup lookup) clock → ∀ failure ∈ w.failures,
    clock 0 < failure.failed + failedLoadHoldMs → w.provider.Refuses opts lookup clock failure.error

/-- Each lookup in that time that finds no fetch in flight comes within
`FAILED_LOAD_HOLD_MS` of the start of the fetch that failed. -/
def WithinStart (w : Watched) (action : Action) : Prop :=
  ∀ lookup clock, action = .call (.lookup lookup) clock → ∀ failure ∈ w.failures,
    clock 0 < failure.failed + failedLoadHoldMs → w.provider.inFlight = none →
      clock 0 < failure.started + failedLoadHoldMs

/-! ## What the steps keep -/

section

variable {s : Provider} {i : Nat}

theorem modify_concat {fetches : List Fetch} {new : Fetch} {g : Fetch → Fetch} :
    (fetches ++ [new]).modify fetches.length g = fetches ++ [g new] := by
  induction fetches with
  | nil => rfl
  | cons fetch fetches ih => exact congrArg (fetch :: ·) ih

/-- A fetch that starts while nothing is held sets the hold of a failed load. -/
theorem fetchNow_unheld (opts : Options) (clock : Clock) (unheld : s.cached = none)
    (flight : s.inFlight = none) : ∃ lastAnnouncedAt announced, s.fetchNow opts clock =
      (s.fetches.length,
        { s with
          holdUntil := clock 0 + failedLoadHoldMs
          lastAnnouncedAt, announced, inFlight := some s.fetches.length
          fetches := s.fetches ++ [{ held := none }] }) := by
  have hold : (if s.cached.isSome then opts.refreshMs else failedLoadHoldMs) = failedLoadHoldMs := by
    rw [unheld]
    rfl
  unfold Provider.fetchNow
  split
  · rename_i i other
    rw [flight] at other
    cases other
  · obtain ⟨lastAnnouncedAt, announced, frame⟩ := announceDue_frame opts (fun n => clock (n + 1))
      { s with holdUntil := clock 0 + failedLoadHoldMs }
    simp only [hold]
    rw [frame]
    exact ⟨lastAnnouncedAt, announced, by simp only [unheld]⟩

/-- What a lookup does while nothing is held: it is refused, it joins a fetch, or it starts one. -/
theorem begin_cases {opts : Options} {lookup : Lookup} {clock : Clock} {next : Provider}
    (unheld : s.cached = none) (made : s.begin opts (.lookup lookup) clock = next) :
    (∃ error, s.inFlight = none ∧ clock 0 < s.holdUntil ∧ s.lastError = some error ∧
      next = Provider.conclude { s with calls := .lookup lookup :: s.calls } (.lookup lookup)
        (Provider.unavailable error lookup.op)) ∨
    (∃ i, s.inFlight = some i ∧
      next = Provider.await { s with calls := .lookup lookup :: s.calls } i (.lookup lookup)) ∨
    (s.inFlight = none ∧ (s.holdUntil ≤ clock 0 ∨ s.lastError = none) ∧
      ∃ lastAnnouncedAt announced, next =
        { s with
          calls := .lookup lookup :: s.calls, holdUntil := clock 1 + failedLoadHoldMs
          lastAnnouncedAt, announced, inFlight := some s.fetches.length
          fetches := s.fetches ++ [{ held := none, waiters := [.lookup lookup] }] }) := by
  subst made
  unfold Provider.begin Provider.ready
  simp only
  rw [if_neg (by rw [unheld]; exact Bool.false_ne_true)]
  by_cases flight : s.inFlight = none
  · obtain ⟨lastAnnouncedAt, announced, started⟩ := @fetchNow_unheld
      { s with calls := .lookup lookup :: s.calls } opts (fun n => clock (n + 1)) unheld flight
    by_cases held : clock 0 < s.holdUntil
    · rw [if_pos ⟨flight, held⟩]
      split
      · rename_i error last
        exact .inl ⟨error, flight, held, last, rfl⟩
      · rename_i last
        refine .inr (.inr ⟨flight, .inr last, lastAnnouncedAt, announced, ?_⟩)
        rw [started, Provider.await, modify_concat]
        rfl
    · rw [if_neg fun both => held both.2]
      refine .inr (.inr ⟨flight, .inl (not_lt.mp held), lastAnnouncedAt, announced, ?_⟩)
      simp only
      rw [started, Provider.await, modify_concat]
      rfl
  · rw [if_neg fun both => flight both.1]
    obtain ⟨i, same⟩ := Option.ne_none_iff_exists'.mp flight
    refine .inr (.inl ⟨i, same, ?_⟩)
    simp only [Provider.fetchNow, same]

/-! ## What the handlers behind a fetch leave -/

/-- From `s` to `t` fetches have only ended, none started or failed. -/
structure Quiet (s t : Provider) : Prop where
  cached : t.cached = s.cached
  lastError : t.lastError = s.lastError
  holdUntil : t.holdUntil = s.holdUntil
  inFlight : t.inFlight = none ∨ t.inFlight = s.inFlight
  fetches : t.fetches.length = s.fetches.length
  stages : ∀ i, t.stage i = s.stage i ∨ ∃ stage, t.stage i = some stage ∧ stage.isOpen = false

theorem Quiet.refl (s : Provider) : Quiet s s := ⟨rfl, rfl, rfl, .inr rfl, rfl, fun _ => .inl rfl⟩

theorem Quiet.trans {t u : Provider} (first : Quiet s t) (second : Quiet t u) : Quiet s u where
  cached := second.cached.trans first.cached
  lastError := second.lastError.trans first.lastError
  holdUntil := second.holdUntil.trans first.holdUntil
  inFlight := by
    rcases second.inFlight with none_ | same
    · exact .inl none_
    · rw [same]
      exact first.inFlight
  fetches := second.fetches.trans first.fetches
  stages i := by
    rcases second.stages i with same | closed
    · rw [same]
      exact first.stages i
    · exact .inr closed

theorem resume_all_quiet (result : Except RemoteConfigError Held) (waiters : List Call) (s : Provider) :
    Quiet s (waiters.foldl (Provider.resume result) s) := by
  induction waiters generalizing s with
  | nil => exact .refl s
  | cons call waiters ih =>
    refine Quiet.trans ?_ (ih (Provider.resume result s call))
    cases result <;> cases call <;> exact ⟨rfl, rfl, rfl, .inr rfl, rfl, fun _ => .inl rfl⟩

/-- A modification that only ends fetches. -/
theorem stage_modify {g : Fetch → Fetch} {t : Provider} (fetches : t.fetches = s.fetches.modify i g)
    (ends : ∀ fetch, (g fetch).stage = fetch.stage ∨ (g fetch).stage.isOpen = false) (j : Nat) :
    t.stage j = s.stage j ∨ ∃ stage, t.stage j = some stage ∧ stage.isOpen = false := by
  unfold Provider.stage
  rw [fetches, List.getElem?_modify]
  cases s.fetches[j]? with
  | none => exact .inl rfl
  | some fetch =>
    by_cases here : i = j
    · rcases ends fetch with same | closed
      · refine .inl ?_
        simp [here, same]
      · refine .inr ⟨(g fetch).stage, ?_, closed⟩
        simp [here]
    · refine .inl ?_
      simp [here]

theorem finish_quiet (s : Provider) (i : Nat) : Quiet s (s.finish i) := by
  have ends := stage_modify (finish_fetches s i) fun fetch => by
    split
    · exact .inr rfl
    · exact .inl rfl
  have length : (s.finish i).fetches.length = s.fetches.length := by
    rw [finish_fetches, List.length_modify]
  unfold Provider.finish at ends length ⊢
  split
  · rename_i result found
    simp only [found] at ends length
    exact ⟨rfl, rfl, rfl, .inl rfl, length, ends⟩
  · exact .refl s

theorem deliver_quiet (s : Provider) (i : Nat) : Quiet s (s.deliver i) := by
  have ends := stage_modify (deliver_fetches s i) fun fetch => by
    split
    · exact .inr rfl
    · exact .inl rfl
  have length : (s.deliver i).fetches.length = s.fetches.length := by
    rw [deliver_fetches, List.length_modify]
  unfold Provider.deliver at ends length ⊢
  split
  · rename_i held result waiters here
    simp only [here] at ends length
    have rest := resume_all_quiet result waiters { s with
      fetches := s.fetches.modify i fun fetch => { fetch with stage := .delivered, waiters := [] } }
    exact ⟨rest.cached, rest.lastError, rest.holdUntil, rest.inFlight, length, ends⟩
  · exact .refl s

theorem announce_quiet (opts : Options) (reason : ManifestReason) (now : Int) (s : Provider) :
    Quiet s (s.announce opts reason now) := by
  unfold Provider.announce
  split
  · exact ⟨rfl, rfl, rfl, .inr rfl, rfl, fun _ => .inl rfl⟩
  · exact .refl s

theorem drain_quiet (s : Provider) : Quiet s s.drain := by
  have steps : ∀ (indices : List Nat) (s : Provider),
      Quiet s (indices.foldl (fun s i => (s.finish i).deliver i) s) := by
    intro indices
    induction indices with
    | nil => exact Quiet.refl
    | cons i indices ih =>
      exact fun s => ((finish_quiet s i).trans (deliver_quiet _ i)).trans (ih _)
  exact steps _ s

/-! ## What the steps keep -/

/-- While nothing is held: the latest fetch alone can be in flight, its start decides
the hold, and as long as no fetch starts after it, its failure is the last error. -/
structure Tracks (s : Provider) (starts : List Int) (failures : List Failure) : Prop where
  unheld : s.cached = none
  length : starts.length = s.fetches.length
  latest : ∀ i, s.inFlight = some i → i + 1 = s.fetches.length
  hold : ∀ started, starts.getLast? = some started → s.holdUntil = started + failedLoadHoldMs
  failed : ∀ failure ∈ failures, starts[failure.fetch]? = some failure.started ∧
    (failure.fetch + 1 = s.fetches.length → s.lastError = some failure.error ∧
      ∀ i, s.inFlight = some i → s.stage i = some (.settled (.error failure.error)))

theorem Tracks.quiet {t : Provider} {starts : List Int} {failures : List Failure}
    (tracks : Tracks s starts failures) (quiet : Quiet s t) (inv : t.Inv) : Tracks t starts failures where
  unheld := quiet.cached.trans tracks.unheld
  length := tracks.length.trans quiet.fetches.symm
  latest j flight := by
    rcases quiet.inFlight with none_ | same
    · rw [none_] at flight
      cases flight
    · rw [quiet.fetches]
      exact tracks.latest j (same.symm.trans flight)
  hold started last := quiet.holdUntil.trans (tracks.hold started last)
  failed failure member := by
    obtain ⟨started, last⟩ := tracks.failed failure member
    refine ⟨started, fun latest => ?_⟩
    obtain ⟨error, settled⟩ := last (latest.trans quiet.fetches)
    refine ⟨quiet.lastError.trans error, fun j flight => ?_⟩
    rcases quiet.inFlight with none_ | same
    · rw [none_] at flight
      cases flight
    · rcases quiet.stages j with unmoved | ⟨stage, ended, closed⟩
      · exact unmoved.trans (settled j (same.symm.trans flight))
      · -- what is in flight has not ended
        obtain ⟨fetch, there, opened⟩ := inv.there j flight
        unfold Provider.stage at ended
        rw [there] at ended
        obtain rfl := Option.some.inj ended
        rw [opened] at closed
        cases closed

/-- Who joins a fetch leaves it where it is. -/
theorem stage_await (s : Provider) (i : Nat) (call : Call) (j : Nat) :
    (s.await i call).stage j = s.stage j := by
  unfold Provider.stage Provider.await
  simp only
  rw [List.getElem?_modify]
  cases s.fetches[j]? with
  | none => rfl
  | some fetch => by_cases here : i = j <;> simp [here]

/-- A lookup begins. -/
theorem Tracks.lookup {starts : List Int} {failures : List Failure} (tracks : Tracks s starts failures)
    {opts : Options} {lookup : Lookup} {clock : Clock} {next : Provider}
    (made : s.begin opts (.lookup lookup) clock = next) :
    Tracks next (if s.fetches.length < next.fetches.length then starts ++ [clock 1] else starts) failures := by
  rcases begin_cases tracks.unheld made with ⟨error, -, -, -, rfl⟩ | ⟨i, -, rfl⟩ |
    ⟨-, -, lastAnnouncedAt, announced, rfl⟩
  · rw [Provider.conclude, if_neg (lt_irrefl _)]
    exact ⟨tracks.unheld, tracks.length, tracks.latest, tracks.hold, tracks.failed⟩
  · have length : (Provider.await { s with calls := .lookup lookup :: s.calls } i
        (.lookup lookup)).fetches.length = s.fetches.length := List.length_modify ..
    rw [length, if_neg (lt_irrefl _)]
    refine ⟨tracks.unheld, tracks.length.trans length.symm, fun j flight => ?_, tracks.hold, ?_⟩
    · rw [length]
      exact tracks.latest j flight
    · intro failure member
      obtain ⟨started, last⟩ := tracks.failed failure member
      refine ⟨started, fun latest => ?_⟩
      obtain ⟨error, settled⟩ := last (latest.trans length)
      exact ⟨error, fun j flight => (stage_await _ i _ j).trans (settled j flight)⟩
  · have length : (s.fetches ++ [({ held := none, waiters := [.lookup lookup] } : Fetch)]).length =
        s.fetches.length + 1 := List.length_append
    simp only
    rw [length, if_pos (Nat.lt_succ_self _)]
    refine ⟨tracks.unheld, ?_, ?_, ?_, ?_⟩
    · rw [List.length_append, tracks.length]
      exact length.symm
    · intro j flight
      obtain rfl := Option.some.inj flight
      exact length.symm
    · intro started last
      rw [List.getLast?_concat] at last
      rw [Option.some.inj last]
    · intro failure member
      obtain ⟨started, -⟩ := tracks.failed failure member
      obtain ⟨inside, -⟩ := List.getElem?_eq_some_iff.mp started
      refine ⟨(List.getElem?_append_left inside).trans started, fun latest => ?_⟩
      have again := latest.trans length
      have all := tracks.length
      omega

/-- What an answer comes to: nothing, a failure, or a document. -/
theorem receive_cases (opts : Options) (s : Provider) (i : Nat) (answer : ConfigAnswer) (clock : Clock) :
    s.receive opts i answer clock = s.drain ∨
    (∃ fetch error, s.drain.fetches[i]? = some fetch ∧ fetch.stage = .requested ∧
      s.receive opts i answer clock =
        Provider.setStage { s.drain with lastError := some error } i (.settled (.error error))) ∨
    (s.receive opts i answer clock).documents ≠ [] := by
  unfold Provider.receive
  simp only
  split
  · rename_i fetch there
    split
    · rename_i requested
      unfold Provider.handle
      split
      · rename_i error fetched
        exact .inr (.inl ⟨fetch, error, there, requested, rfl⟩)
      · exact .inr (.inr (List.cons_ne_nil _ _))
      · split
        · exact .inr (.inr (List.cons_ne_nil _ _))
        · exact .inl rfl
    · exact .inl rfl
  · exact .inl rfl

/-- Nothing fails where fetches have only ended. -/
theorem failure_of_quiet {w : Watched} {t : Provider} (quiet : Quiet w.provider t) (answer : ConfigAnswer)
    (clock : Clock) : w.failure t (.answer i answer clock) = none := by
  unfold Watched.failure
  simp only
  split
  · rename_i error requested settled
    rcases quiet.stages i with unmoved | ⟨stage, ended, closed⟩
    · rw [requested, settled] at unmoved
      cases unmoved
    · rw [settled] at ended
      obtain rfl := Option.some.inj ended
      cases closed
  · rfl

/-- End Close answers, and nothing is held still. -/
theorem Tracks.receive {w : Watched} (tracks : Tracks w.provider w.starts w.failures) (inv : w.provider.Inv)
    (opts : Options) (i : Nat) (answer : ConfigAnswer) (clock : Clock)
    (unheld : (w.provider.receive opts i answer clock).documents = []) :
    let next := w.provider.receive opts i answer clock
    next.fetches.length = w.provider.fetches.length ∧
      Tracks next w.starts ((w.failure next (.answer i answer clock)).toList ++ w.failures) := by
  have quiet := drain_quiet w.provider
  simp only
  rcases receive_cases opts w.provider i answer clock with same | ⟨fetch, error, there, requested, same⟩ | held
  · rw [same, failure_of_quiet quiet]
    exact ⟨quiet.fetches, tracks.quiet quiet inv.drain⟩
  · obtain ⟨-, before⟩ | done := drain_stage w.provider there
    · -- the fetch that is answered is the latest
      have flight := inv.opened i fetch before (by rw [requested]; rfl)
      have latest := tracks.latest i flight
      have asked : w.provider.stage i = some .requested := by
        unfold Provider.stage
        rw [before, Option.map_some, requested]
      generalize w.provider.receive opts i answer clock = next at same unheld ⊢
      have length : next.fetches.length = w.provider.fetches.length := by
        rw [same]
        exact (List.length_modify ..).trans quiet.fetches
      have settled : next.stage i = some (.settled (.error error)) := by
        rw [same]
        unfold Provider.stage Provider.setStage
        simp only
        rw [List.getElem?_modify_eq, there]
        rfl
      have failure : w.failure next (.answer i answer clock) =
          some { fetch := i, started := w.starts.getD i 0, failed := clock 0, error } := by
        unfold Watched.failure
        simp only [asked, settled]
      have landed : ∀ j, next.inFlight = some j → j + 1 = w.provider.fetches.length := by
        intro j found
        rw [same] at found
        rcases quiet.inFlight with none_ | kept
        · cases none_.symm.trans found
        · exact tracks.latest j (kept.symm.trans found)
      refine ⟨length, ?_⟩
      rw [failure]
      refine ⟨?_, tracks.length.trans length.symm, fun j found => ?_, fun started last => ?_, ?_⟩
      · rw [same]
        exact quiet.cached.trans tracks.unheld
      · rw [length]
        exact landed j found
      · rw [same]
        exact quiet.holdUntil.trans (tracks.hold started last)
      · intro other member
        rcases List.mem_append.mp member with new | old
        · obtain rfl := List.mem_singleton.mp new
          refine ⟨?_, fun _ => ⟨?_, fun j found => ?_⟩⟩
          · have inside : i < w.starts.length := by
              have all := tracks.length
              omega
            simp [inside]
          · rw [same]
            rfl
          · have here := landed j found
            obtain rfl : j = i := by omega
            exact settled
        · obtain ⟨started, last⟩ := tracks.failed other old
          refine ⟨started, fun also => ?_⟩
          have earlier := (last (also.trans length)).2 i flight
          rw [asked] at earlier
          cases earlier
    · rw [requested] at done
      cases done
  · exact absurd unheld held

/-- One action, as long as nothing is held behind it. -/
theorem Tracks.step {opts : Options} {w : Watched} (tracks : Tracks w.provider w.starts w.failures)
    (inv : w.provider.Inv) {action : Action} (asked : action.FromLookups)
    (unheld : ((watch opts).step w action).provider.documents = []) :
    let next := (watch opts).step w action
    Tracks next.provider next.starts next.failures := by
  cases action with
  | call call clock =>
    obtain ⟨lookup, rfl⟩ := asked
    exact @Tracks.lookup _ _ _ tracks opts lookup clock _ rfl
  | answer i answer clock =>
    obtain ⟨length, received⟩ := tracks.receive inv opts i answer clock unheld
    have starts : w.startsAfter (w.provider.receive opts i answer clock) (.answer i answer clock) =
        w.starts := if_neg (by rw [length]; exact lt_irrefl _)
    have tracked := received
    rw [← starts] at tracked
    exact tracked
  | announce reason now =>
    exact tracks.quiet (announce_quiet opts reason now _) (inv.announce opts reason now)
  | finish i => exact tracks.quiet (finish_quiet _ i) (inv.finish i)
  | deliver i => exact tracks.quiet (deliver_quiet _ i) (inv.deliver i)
  | read k =>
    refine tracks.quiet ?_ (inv.read k)
    show Quiet w.provider (w.provider.read k)
    unfold Provider.read
    split
    · exact ⟨rfl, rfl, rfl, .inr rfl, rfl, fun _ => .inl rfl⟩
    · exact .refl _

/-- Once the hold of a failure is over, time has passed it. -/
def Elapsed (w : Watched) : Prop :=
  ∀ failure ∈ w.failures, failure.fetch + 1 = w.provider.fetches.length ∨
    ∃ clock ∈ w.clocks, failure.failed + failedLoadHoldMs ≤ clock 0

/-- A failure of the latest fetch holds until `FAILED_LOAD_HOLD_MS` from its start. -/
theorem Tracks.held {starts : List Int} {failures : List Failure} (tracks : Tracks s starts failures)
    {failure : Failure} (member : failure ∈ failures) (latest : failure.fetch + 1 = s.fetches.length) :
    s.holdUntil = failure.started + failedLoadHoldMs ∧ s.lastError = some failure.error := by
  obtain ⟨started, last⟩ := tracks.failed failure member
  refine ⟨tracks.hold _ ?_, (last latest).1⟩
  have length := tracks.length
  rw [List.getLast?_eq_getElem?, ← started]
  congr 1
  omega

/-- While no fetch starts after a failure, a lookup is refused for it exactly when
a fetch is in flight still, or the start of the one that failed is not long past. -/
theorem Tracks.refuses_iff {starts : List Int} {failures : List Failure} (tracks : Tracks s starts failures)
    {failure : Failure} (member : failure ∈ failures) (latest : failure.fetch + 1 = s.fetches.length)
    (opts : Options) (lookup : Lookup) (clock : Clock) :
    s.Refuses opts lookup clock failure.error ↔
      (s.inFlight = none → clock 0 < failure.started + failedLoadHoldMs) := by
  obtain ⟨until_, error⟩ := tracks.held member latest
  obtain ⟨next, made⟩ : ∃ next, s.begin opts (.lookup lookup) clock = next := ⟨_, rfl⟩
  have step : (machine opts).step s (.call (.lookup lookup) clock) = next := made
  unfold Provider.Refuses
  rw [step]
  rcases begin_cases tracks.unheld made with ⟨last, -, held, cached, rfl⟩ | ⟨i, flight, rfl⟩ |
    ⟨flight, open_, lastAnnouncedAt, announced, rfl⟩
  · obtain rfl := Option.some.inj (error.symm.trans cached)
    rw [until_] at held
    exact iff_of_true ⟨rfl, .inl ⟨_, rfl, rfl, rfl⟩⟩ fun _ => held
  · refine iff_of_true ⟨List.length_modify .., .inr ?_⟩ fun none_ => ?_
    · have settled := ((tracks.failed failure member).2 latest).2 i flight
      obtain ⟨fetch, there, stage⟩ := Option.map_eq_some_iff.mp settled
      refine ⟨i, { fetch with waiters := fetch.waiters ++ [.lookup lookup] }, ?_, stage, by simp⟩
      refine (List.getElem?_modify_eq _ _ _).trans ?_
      rw [there]
      rfl
    · cases flight.symm.trans none_
  · refine iff_of_false (fun refused => ?_) fun soon => ?_
    · have length := refused.1
      rw [List.length_append, List.length_singleton] at length
      omega
    · have early := soon flight
      rcases open_ with ended | none_
      · rw [until_] at ended
        omega
      · cases error.symm.trans none_

theorem Elapsed.step {opts : Options} {w : Watched} (elapsed : Elapsed w)
    (tracks : Tracks w.provider w.starts w.failures) (inv : w.provider.Inv) {action : Action}
    (asked : action.FromLookups) (unheld : ((watch opts).step w action).provider.documents = [])
    (within : WithinStart w action) : Elapsed ((watch opts).step w action) := by
  -- where no fetch starts, the failures so far stand as they did
  have still : ((watch opts).step w action).provider.fetches.length = w.provider.fetches.length →
      ∀ failure ∈ w.failures, failure.fetch + 1 = ((watch opts).step w action).provider.fetches.length ∨
        ∃ clock ∈ ((watch opts).step w action).clocks, failure.failed + failedLoadHoldMs ≤ clock 0 := by
    intro length failure member
    refine (elapsed failure member).imp (fun latest => latest.trans length.symm) ?_
    exact fun ⟨clock, earlier, ended⟩ => ⟨clock, List.mem_append_right _ earlier, ended⟩
  cases action with
  | call call clock =>
    obtain ⟨lookup, rfl⟩ := asked
    obtain ⟨next, made⟩ : ∃ next, w.provider.begin opts (.lookup lookup) clock = next := ⟨_, rfl⟩
    have step : ((watch opts).step w (.call (.lookup lookup) clock)).provider = next := made
    rw [step] at still
    unfold Elapsed
    rw [step]
    rcases begin_cases tracks.unheld made with ⟨last, -, -, -, rfl⟩ | ⟨i, -, rfl⟩ |
      ⟨flight, open_, lastAnnouncedAt, announced, rfl⟩
    · exact still rfl
    · exact still (List.length_modify ..)
    · intro failure member
      refine .inr ?_
      rcases elapsed failure member with latest | ⟨earlier, there, ended⟩
      · refine ⟨clock, List.mem_cons_self, ?_⟩
        obtain ⟨until_, error⟩ := tracks.held member latest
        by_contra early
        have soon := within lookup clock rfl failure member (not_le.mp early) flight
        rcases open_ with ended | none_
        · omega
        · cases error.symm.trans none_
      · exact ⟨earlier, List.mem_cons_of_mem _ there, ended⟩
  | answer i answer clock =>
    have length := (tracks.receive inv opts i answer clock unheld).1
    intro failure member
    rcases List.mem_append.mp member with new | old
    · refine .inl ?_
      rw [Option.mem_toList] at new
      unfold Watched.failure at new
      simp only at new
      split at new
      · rename_i error requested settled
        obtain rfl := Option.some.inj new
        obtain ⟨fetch, there, stage⟩ := Option.map_eq_some_iff.mp requested
        have flight := inv.opened i fetch there (by rw [stage]; rfl)
        exact (tracks.latest i flight).trans length.symm
      · cases new
    · exact still length failure old
  | announce reason now => exact still (announce_quiet opts reason now _).fetches
  | finish i => exact still (finish_quiet _ i).fetches
  | deliver i => exact still (deliver_quiet _ i).fetches
  | read k =>
    refine still ?_
    show (w.provider.read k).fetches.length = _
    unfold Provider.read
    split <;> rfl

/-! ## Runs -/

/-- What holds of a run that has held nothing: where each lookup was in time, each
hold that is over has elapsed. -/
theorem tracks_run {opts : Options} {actions : List Action} (asked : ∀ action ∈ actions, action.FromLookups)
    (unheld : ((machine opts).run actions).documents = []) :
    Tracks ((watch opts).run actions).provider ((watch opts).run actions).starts
        ((watch opts).run actions).failures ∧
      ((watch opts).Guarded WithinStart actions → Elapsed ((watch opts).run actions)) := by
  induction actions using List.reverseRecOn with
  | nil =>
    refine ⟨⟨rfl, rfl, nofun, nofun, fun failure member => ?_⟩, fun _ failure member => ?_⟩
    · exact absurd member List.not_mem_nil
    · exact absurd member List.not_mem_nil
  | append_singleton actions action ih =>
    have earlier := documents_run opts actions [action]
    rw [unheld] at earlier
    obtain ⟨tracks, elapsed⟩ := ih (fun a member => asked a (List.mem_append_left _ member))
      (List.suffix_nil.mp earlier)
    have inv := inv_run opts actions
    rw [← watch_provider] at inv unheld
    rw [Machine.run_concat] at unheld ⊢
    have last := asked action (List.mem_append_right _ List.mem_cons_self)
    refine ⟨tracks.step inv last unheld, fun guarded => ?_⟩
    obtain ⟨before, within⟩ := Machine.guarded_concat.mp guarded
    exact (elapsed before).step tracks inv last unheld within

/-- On a provider that serves lookups only and has never held a document, every lookup in the
`FAILED_LOAD_HOLD_MS` after a failure is refused from the cached error, without a fetch,
exactly when each of them comes within `FAILED_LOAD_HOLD_MS` of the start of the fetch that
failed, or finds it in flight still. -/
theorem failed_load_held_iff (opts : Options) {actions : List Action}
    (asked : ∀ action ∈ actions, action.FromLookups) (paced : (watch opts).Guarded Paced actions)
    (unheld : ((machine opts).run actions).documents = []) :
    (watch opts).Guarded (HeldBack opts) actions ↔ (watch opts).Guarded WithinStart actions := by
  induction actions using List.reverseRecOn with
  | nil => exact Iff.rfl
  | append_singleton actions action ih =>
    have earlier := documents_run opts actions [action]
    rw [unheld] at earlier
    have before := List.suffix_nil.mp earlier
    have others := fun a member => asked a (List.mem_append_left _ member)
    obtain ⟨pacedBefore, clocked⟩ := Machine.guarded_concat.mp paced
    rw [Machine.guarded_concat, Machine.guarded_concat, ih others pacedBefore before]
    refine and_congr_right fun within => ?_
    obtain ⟨tracks, elapsed⟩ := tracks_run others before
    have passed := elapsed within
    -- a lookup in the hold of a failure finds no later fetch
    have latest : ∀ lookup clock, action = .call (.lookup lookup) clock →
        ∀ failure ∈ ((watch opts).run actions).failures, clock 0 < failure.failed + failedLoadHoldMs →
          failure.fetch + 1 = ((watch opts).run actions).provider.fetches.length := by
      rintro lookup clock rfl failure member soon
      rcases passed failure member with latest | ⟨earlier, there, ended⟩
      · exact latest
      · have ordered := (clocked clock rfl).2 earlier there 0 0
        omega
    constructor
    · intro held lookup clock same failure member soon
      exact (tracks.refuses_iff member (latest lookup clock same failure member soon) opts lookup clock).mp
        (held lookup clock same failure member soon)
    · intro within lookup clock same failure member soon
      exact (tracks.refuses_iff member (latest lookup clock same failure member soon) opts lookup clock).mpr
        (within lookup clock same failure member soon)

/-- The second way of `Refuses`: who waits on a promise that is rejected is refused
for its error. -/
theorem refused_of_delivered {s : Provider} {i : Nat} {fetch : Fetch} {error : RemoteConfigError} {lookup : Lookup}
    (there : s.fetches[i]? = some fetch) (rejected : fetch.stage = .settled (.error error))
    (waits : .lookup lookup ∈ fetch.waiters) :
    ∃ settled ∈ ((s.finish i).deliver i).settled, settled.call = .lookup lookup ∧
      settled.outcome = Provider.unavailable error lookup.op := by
  have grows : ∀ (waiters : List Call) (t : Provider), t.settled ⊆
      (waiters.foldl (Provider.resume (.error error)) t).settled := by
    intro waiters
    induction waiters with
    | nil => exact fun t => List.Subset.refl _
    | cons call waiters ih =>
      intro t
      refine List.Subset.trans ?_ (ih _)
      cases call <;> exact List.subset_cons_self _ _
  have resumed : ∀ (waiters : List Call) (t : Provider), .lookup lookup ∈ waiters →
      ∃ settled ∈ (waiters.foldl (Provider.resume (.error error)) t).settled,
        settled.call = .lookup lookup ∧ settled.outcome = Provider.unavailable error lookup.op := by
    intro waiters
    induction waiters with
    | nil => exact fun t member => absurd member List.not_mem_nil
    | cons call waiters ih =>
      intro t member
      rcases List.mem_cons.mp member with rfl | later
      · exact ⟨_, grows waiters _ List.mem_cons_self, rfl, rfl⟩
      · exact ih _ later
  have finished : (s.finish i).fetches[i]? = some { fetch with stage := .finished (.error error) } := by
    rw [finish_fetches, List.getElem?_modify_eq, there]
    simp only [Option.map_eq_map, Option.map_some, rejected]
  unfold Provider.deliver
  simp only [finished]
  exact resumed fetch.waiters _ waits

/-- The first lookup starts a fetch at 0, which fails; and then there is another lookup. -/
def failing (failed again : Int) : List Action :=
  [.call (.lookup .all) fun _ => 0,
    .answer 0 { http := .networkError "The operation was aborted due to timeout" } fun _ => failed,
    .finish 0, .deliver 0, .call (.lookup .all) fun _ => again]

theorem failing_asked (failed again : Int) : ∀ action ∈ failing failed again, action.FromLookups := by
  intro action member
  simp only [failing, List.mem_cons, List.not_mem_nil, or_false] at member
  rcases member with rfl | rfl | rfl | rfl | rfl
  · exact ⟨_, rfl⟩
  · trivial
  · trivial
  · trivial
  · exact ⟨_, rfl⟩

theorem failing_paced {failed again : Int} (first : 0 ≤ failed) (second : failed ≤ again) :
    (watch {}).Guarded Paced (failing failed again) := by
  refine ⟨?_, ?_, nofun, nofun, ?_, trivial⟩
  · rintro clock same
    obtain rfl := Option.some.inj same
    exact ⟨monotone_const, fun earlier member => absurd member List.not_mem_nil⟩
  · rintro clock same
    obtain rfl := Option.some.inj same
    refine ⟨monotone_const, fun earlier member m n => ?_⟩
    obtain rfl := List.mem_singleton.mp member
    exact first
  · rintro clock same
    obtain rfl := Option.some.inj same
    refine ⟨monotone_const, fun earlier member m n => ?_⟩
    rcases List.mem_cons.mp member with rfl | member
    · exact second
    · obtain rfl := List.mem_singleton.mp member
      exact first.trans second

theorem failed_load_held_iff_early :
    (watch {}).Guarded (HeldBack {}) (failing 100 200) ↔ (watch {}).Guarded WithinStart (failing 100 200) :=
  failed_load_held_iff {} (failing_asked 100 200) (failing_paced (by decide) (by decide)) rfl

/-- A fetch that takes as long as the request may leaves nothing of the hold. -/
theorem timed_out_load_not_held : (∀ action ∈ failing 10000 10001, action.FromLookups) ∧
    (watch {}).Guarded Paced (failing 10000 10001) ∧
    ((machine {}).run (failing 10000 10001)).documents = [] ∧
    ¬ (watch {}).Guarded (HeldBack {}) (failing 10000 10001) := by
  refine ⟨failing_asked _ _, failing_paced (by decide) (by decide), rfl, fun held => ?_⟩
  obtain ⟨-, -, -, -, last, -⟩ := held
  have refused := last .all _ rfl _ List.mem_cons_self (by decide)
  exact absurd refused.1 (by decide)

end

end EndCloseRelay.App.RemoteRoutes
