import EndCloseRelay.App.RemoteRoutes
import Mathlib.Algebra.BigOperators.Group.Multiset.Basic
import Mathlib.Tactic.Abel

/-!
# What the provider serves

Over every run of calls and answers at most one fetch is in flight, what it took
as held when it started is still held when it is answered, and so a lookup
serves the routes of the document that is current, or is refused while there has
never been one.
-/

namespace EndCloseRelay.App.RemoteRoutes

open Interaction

/-! ## The invariant -/

/-- The fetch is the one `inFlight` stands for. -/
def Stage.isOpen : Stage → Bool
  | requested | settled _ => true
  | _ => false

/-- Whoever awaits the fetch may still be refused. -/
def Stage.mayRefuse : Stage → Bool
  | requested | settled (.error _) | finished (.error _) => true
  | _ => false

/-- Whoever awaits the fetch will not be refused. -/
def Stage.serves : Stage → Bool
  | settled (.ok _) | finished (.ok _) => true
  | _ => false

/-- A fetch that is in flight started from what is current, and a lookup awaits
only a fetch that began before anything was held. -/
structure Fetch.Fits (fetch : Fetch) (cached : Option Held) (documents : List Held) : Prop where
  snapshot : fetch.stage = .requested → fetch.held = cached
  waiting : fetch.stage.mayRefuse → (∃ lookup, Call.lookup lookup ∈ fetch.waiters) → documents = []
  serving : fetch.stage.serves → documents ≠ []

/-- A lookup is served from the current document, or is refused where none was held. -/
def Settled.Served (settled : Settled) : Prop :=
  match settled.call with
  | .lookup lookup =>
    (∃ held, settled.current = some held ∧ settled.outcome =
      match lookup with
      | .get id => .route (held.routes.find? fun route => route.id == id)
      | .all => .routes held.routes) ∨
    (∃ message, settled.outcome = .unavailable (.storeUnavailable message lookup.op)) ∧
      settled.documents = []
  | .load | .refresh => (∃ held, settled.outcome = .config held) ∨ ∃ error, settled.outcome = .failed error

/-- What every run keeps. -/
structure Provider.Inv (s : Provider) : Prop where
  current : s.documents.head? = s.cached
  routes : s.byId = ((s.cached.map fun held => held.routes).getD []).map fun route => (route.id, route)
  opened : ∀ (i : Nat) (fetch : Fetch), s.fetches[i]? = some fetch → fetch.stage.isOpen → s.inFlight = some i
  there : ∀ i : Nat, s.inFlight = some i → ∃ fetch : Fetch, s.fetches[i]? = some fetch ∧ fetch.stage.isOpen
  fits : ∀ (i : Nat) (fetch : Fetch), s.fetches[i]? = some fetch → fetch.Fits s.cached s.documents
  reading : s.reading ≠ [] → s.documents ≠ []
  served : ∀ settled ∈ s.settled, settled.Served

/-- The calls that wait on fetches. -/
def waiting (fetches : List Fetch) : Multiset Call :=
  (fetches.map fun fetch => (fetch.waiters : Multiset Call)).sum

/-- Every call but those pending has settled, or reads, or waits, once. -/
def Provider.Owes (pending : Multiset Call) (s : Provider) : Prop :=
  (s.calls : Multiset Call) = pending + (s.settled.map Settled.call : List Call) +
    (s.reading.map Call.lookup : List Call) + waiting s.fetches

section

variable {opts : Options} {s : Provider} {i : Nat} {fetch : Fetch} {clock : Clock} {call : Call}
  {pending : Multiset Call}

theorem waiting_modify {fetches : List Fetch} (there : fetches[i]? = some fetch) :
    ∃ rest, ∀ g, waiting (fetches.modify i g) = ((g fetch).waiters : Multiset Call) + rest := by
  obtain ⟨inside, rfl⟩ := List.getElem?_eq_some_iff.mp there
  refine ⟨waiting (fetches.take i) + waiting (fetches.drop (i + 1)), fun g => ?_⟩
  rw [List.modify_eq_take_cons_drop inside, waiting, List.map_append, List.map_cons, List.sum_append,
    List.sum_cons]
  exact add_left_comm _ _ _

/-- A change that leaves the waiters leaves what waits. -/
theorem waiting_modify_of_waiters {fetches : List Fetch} {g : Fetch → Fetch}
    (same : ∀ fetch, (g fetch).waiters = fetch.waiters) :
    waiting (fetches.modify i g) = waiting fetches := by
  cases there : fetches[i]? with
  | none => rw [List.modify_eq_self (List.getElem?_eq_none_iff.mp there)]
  | some fetch =>
    obtain ⟨rest, modified⟩ := waiting_modify there
    rw [modified g, same]
    exact (modified id).symm.trans (congrArg waiting (List.modify_id _ _))

/-- A fetch after one was modified. -/
theorem getElem?_modify_cases {fetches : List Fetch} {g : Fetch → Fetch} {j : Nat}
    (there : (fetches.modify i g)[j]? = some fetch) :
    (i ≠ j ∧ fetches[j]? = some fetch) ∨
      (i = j ∧ ∃ before, fetches[i]? = some before ∧ g before = fetch) := by
  by_cases same : i = j
  · subst same
    rw [List.getElem?_modify_eq] at there
    exact .inr ⟨rfl, Option.map_eq_some_iff.mp there⟩
  · rw [List.getElem?_modify_ne g fetches same] at there
    exact .inl ⟨same, there⟩

/-- A fetch after one was started. -/
theorem getElem?_concat_cases {fetches : List Fetch} {new : Fetch}
    (there : (fetches ++ [new])[i]? = some fetch) :
    fetches[i]? = some fetch ∨ (i = fetches.length ∧ fetch = new) := by
  rw [List.getElem?_append] at there
  split at there
  · exact .inl there
  · rename_i outside
    obtain ⟨inside, same⟩ := List.getElem?_eq_some_iff.mp there
    rw [List.length_singleton] at inside
    refine .inr ⟨by omega, ?_⟩
    rw [← same, List.getElem_singleton]

/-! ## Calls -/

theorem announceDue_frame (opts : Options) (clock : Clock) (s : Provider) : ∃ lastAnnouncedAt announced,
    s.announceDue opts clock = { s with lastAnnouncedAt, announced } := by
  unfold Provider.announceDue Provider.announce
  split <;> split <;> first | exact ⟨_, _, rfl⟩ | skip
  split <;> exact ⟨_, _, rfl⟩

/-- `fetchNow` starts a fetch from what is held, unless one is in flight. -/
theorem fetchNow_cases (opts : Options) (clock : Clock) (s : Provider) :
    (∃ i, s.inFlight = some i ∧ s.fetchNow opts clock = (i, s)) ∨
      s.inFlight = none ∧ ∃ holdUntil lastAnnouncedAt announced,
        s.fetchNow opts clock = (s.fetches.length,
          { s with
            holdUntil, lastAnnouncedAt, announced, inFlight := some s.fetches.length
            fetches := s.fetches ++ [{ held := s.cached }] }) := by
  unfold Provider.fetchNow
  split
  · rename_i i flight
    exact .inl ⟨i, flight, rfl⟩
  · rename_i flight
    refine .inr ⟨flight, ?_⟩
    obtain ⟨lastAnnouncedAt, announced, frame⟩ := announceDue_frame opts (fun n => clock (n + 1))
      { s with holdUntil := clock 0 + if s.cached.isSome then opts.refreshMs else failedLoadHoldMs }
    simp only
    rw [frame]
    exact ⟨_, _, _, rfl⟩

namespace Provider.Inv

/-- A fetch is started from what is held. -/
theorem fetchNow (inv : s.Inv) (opts : Options) (clock : Clock) :
    (s.fetchNow opts clock).2.Inv ∧ (s.fetchNow opts clock).2.inFlight = some (s.fetchNow opts clock).1 := by
  rcases fetchNow_cases opts clock s with ⟨i, flight, same⟩ | ⟨flight, _, _, _, started⟩
  · rw [same]
    exact ⟨inv, flight⟩
  · rw [started]
    refine ⟨⟨inv.current, inv.routes, ?_, ?_, ?_, inv.reading, inv.served⟩, rfl⟩
    · intro i fetch there opened
      rcases getElem?_concat_cases there with before | ⟨rfl, -⟩
      · have earlier := inv.opened i fetch before opened
        rw [flight] at earlier
        cases earlier
      · rfl
    · rintro i same
      obtain rfl := Option.some.inj same
      exact ⟨{ held := s.cached }, List.getElem?_concat_length, rfl⟩
    · intro i fetch there
      rcases getElem?_concat_cases there with before | ⟨-, rfl⟩
      · exact inv.fits i fetch before
      · refine ⟨fun _ => rfl, fun _ waits => ?_, fun serves => by cases serves⟩
        obtain ⟨lookup, member⟩ := waits
        cases member

/-- A call joins the fetch in flight. -/
theorem await (inv : s.Inv) (i : Nat) (call : Call)
    (unheld : (∃ lookup, call = .lookup lookup) → s.documents = []) : (s.await i call).Inv := by
  refine ⟨inv.current, inv.routes, ?_, ?_, ?_, inv.reading, inv.served⟩
  · intro j fetch there opened
    rcases getElem?_modify_cases there with ⟨-, before⟩ | ⟨rfl, before, found, rfl⟩
    · exact inv.opened j fetch before opened
    · exact inv.opened i before found opened
  · intro j same
    obtain ⟨fetch, found, opened⟩ := inv.there j same
    refine ⟨_, (List.getElem?_modify _ _ _ _).trans (congrArg (Option.map _) found), ?_⟩
    split <;> exact opened
  · intro j fetch there
    rcases getElem?_modify_cases there with ⟨-, before⟩ | ⟨rfl, before, found, rfl⟩
    · exact inv.fits j fetch before
    · have fits := inv.fits i before found
      refine ⟨fits.snapshot, fun refuses ⟨lookup, member⟩ => ?_, fits.serving⟩
      rcases List.mem_append.mp member with earlier | last
      · exact fits.waiting refuses ⟨lookup, earlier⟩
      · exact unheld ⟨lookup, (List.mem_singleton.mp last).symm⟩

/-- A call settles. -/
theorem conclude (inv : s.Inv) {outcome : Outcome}
    (served : Settled.Served { call, outcome, current := s.cached, documents := s.documents }) :
    (s.conclude call outcome).Inv :=
  ⟨inv.current, inv.routes, inv.opened, inv.there, inv.fits, inv.reading, fun settled member => by
    rcases List.mem_cons.mp member with rfl | earlier
    · exact served
    · exact inv.served settled earlier⟩

/-- Nothing is held exactly while nothing has been. -/
theorem unheld_iff (inv : s.Inv) : s.documents = [] ↔ s.cached.isSome = false := by
  rw [← inv.current]
  cases s.documents with
  | nil => exact iff_of_true rfl rfl
  | cons held earlier => exact iff_of_false (List.cons_ne_nil _ _) nofun

/-- A lookup goes on behind `ready`. -/
theorem read_later (inv : s.Inv) (lookup : Lookup) (held : s.documents ≠ []) :
    Inv { s with reading := s.reading ++ [lookup] } :=
  ⟨inv.current, inv.routes, inv.opened, inv.there, inv.fits, fun _ => held, inv.served⟩

theorem ready (inv : s.Inv) (opts : Options) (lookup : Lookup) (clock : Clock) :
    (s.ready opts lookup clock).Inv := by
  unfold Provider.ready
  simp only
  split
  · rename_i held
    have some_ : s.documents ≠ [] := fun none => by
      rw [inv.unheld_iff.mp none] at held
      cases held
    split
    · refine (inv.fetchNow opts _).1.read_later lookup ?_
      rcases fetchNow_cases opts (fun n => clock (n + 1)) s with ⟨i, -, same⟩ | ⟨-, _, _, _, started⟩
      · rw [same]
        exact some_
      · rw [started]
        exact some_
    · exact inv.read_later lookup some_
  · rename_i held
    have none := inv.unheld_iff.mpr (Bool.eq_false_iff.mpr held)
    split
    · exact inv.conclude (.inr ⟨⟨_, rfl⟩, none⟩)
    · refine (inv.fetchNow opts _).1.await _ _ fun _ => ?_
      rcases fetchNow_cases opts (fun n => clock (n + 1)) s with ⟨i, -, same⟩ | ⟨-, _, _, _, started⟩
      · rw [same]
        exact none
      · rw [started]
        exact none

theorem begin (inv : s.Inv) (opts : Options) (call : Call) (clock : Clock) :
    (s.begin opts call clock).Inv := by
  have called : Inv { s with calls := call :: s.calls } :=
    ⟨inv.current, inv.routes, inv.opened, inv.there, inv.fits, inv.reading, inv.served⟩
  cases call with
  | lookup lookup => exact called.ready opts lookup clock
  | load =>
    unfold Provider.begin
    simp only
    split
    · refine called.conclude ?_
      exact .inl ⟨_, rfl⟩
    · exact (called.fetchNow opts clock).1.await _ _ fun ⟨_, same⟩ => by cases same
  | refresh => exact (called.fetchNow opts clock).1.await _ _ fun ⟨_, same⟩ => by cases same

/-! ## A fetch ends -/

theorem finish (inv : s.Inv) (i : Nat) : (s.finish i).Inv := by
  unfold Provider.finish
  split
  · rename_i result found
    obtain ⟨fetch, here, stage⟩ := Option.map_eq_some_iff.mp found
    have flight := inv.opened i fetch here (by rw [stage]; rfl)
    have fits := inv.fits i fetch here
    refine ⟨inv.current, inv.routes, ?_, nofun, ?_, inv.reading, inv.served⟩
    · intro j other there opened
      rcases getElem?_modify_cases there with ⟨apart, before⟩ | ⟨rfl, before, found, rfl⟩
      · have same := flight.symm.trans (inv.opened j other before opened)
        exact absurd (Option.some.inj same) apart
      · cases opened
    · intro j other there
      rcases getElem?_modify_cases there with ⟨apart, before⟩ | ⟨rfl, before, found, rfl⟩
      · exact inv.fits j other before
      · obtain rfl := Option.some.inj (here.symm.trans found)
        have refusing : (Stage.finished result).mayRefuse = fetch.stage.mayRefuse := by
          rw [stage]
          cases result <;> rfl
        have serving : (Stage.finished result).serves = fetch.stage.serves := by
          rw [stage]
          cases result <;> rfl
        refine ⟨nofun, fun refuses => ?_, fun serves => ?_⟩
        · exact fits.waiting (refusing.symm.trans refuses)
        · exact fits.serving (serving.symm.trans serves)
  · exact inv

/-- One of those who await a promise goes on. -/
theorem resume (inv : s.Inv) {result : Except RemoteConfigError Held} {call : Call}
    (holds : ∀ held, result = .ok held → s.documents ≠ [])
    (refuses : ∀ error, result = .error error → (∃ lookup, call = .lookup lookup) → s.documents = []) :
    (Provider.resume result s call).Inv := by
  cases result with
  | error error =>
    cases call with
    | lookup lookup => exact inv.conclude (.inr ⟨⟨_, rfl⟩, refuses error rfl ⟨lookup, rfl⟩⟩)
    | load =>
      refine inv.conclude ?_
      exact .inr ⟨error, rfl⟩
    | refresh =>
      refine inv.conclude ?_
      exact .inr ⟨error, rfl⟩
  | ok held =>
    cases call with
    | lookup lookup => exact inv.read_later lookup (holds held rfl)
    | load =>
      refine inv.conclude ?_
      exact .inl ⟨held, rfl⟩
    | refresh =>
      refine inv.conclude ?_
      exact .inl ⟨held, rfl⟩

end Provider.Inv

theorem resume_documents (result : Except RemoteConfigError Held) (s : Provider) (call : Call) :
    (Provider.resume result s call).documents = s.documents := by
  cases result <;> cases call <;> rfl

namespace Provider.Inv

/-- All who await a promise go on. -/
theorem resume_all (inv : s.Inv) {result : Except RemoteConfigError Held} {waiters : List Call}
    (holds : ∀ held, result = .ok held → s.documents ≠ [])
    (refuses : ∀ error, result = .error error → (∃ lookup, Call.lookup lookup ∈ waiters) →
      s.documents = []) :
    (waiters.foldl (Provider.resume result) s).Inv := by
  induction waiters generalizing s with
  | nil => exact inv
  | cons call waiters ih =>
    refine ih (inv.resume holds fun error same ⟨lookup, first⟩ => ?_) ?_ ?_
    · exact refuses error same ⟨lookup, first ▸ List.mem_cons_self⟩
    · rw [resume_documents]
      exact holds
    · rw [resume_documents]
      exact fun error same ⟨lookup, later⟩ => refuses error same ⟨lookup, List.mem_cons_of_mem _ later⟩

theorem deliver (inv : s.Inv) (i : Nat) : (s.deliver i).Inv := by
  unfold Provider.deliver
  split
  · rename_i held result waiters here
    have fits := inv.fits i _ here
    refine Provider.Inv.resume_all ?_ ?_ ?_
    · refine ⟨inv.current, inv.routes, ?_, ?_, ?_, inv.reading, inv.served⟩
      · intro j other there opened
        rcases getElem?_modify_cases there with ⟨-, before⟩ | ⟨rfl, before, found, rfl⟩
        · exact inv.opened j other before opened
        · cases opened
      · intro j same
        obtain ⟨fetch, found, opened⟩ := inv.there j same
        refine ⟨fetch, ?_, opened⟩
        refine (List.getElem?_modify_ne _ _ fun equal => ?_).trans found
        subst equal
        rw [here] at found
        obtain rfl := Option.some.inj found
        cases opened
      · intro j other there
        rcases getElem?_modify_cases there with ⟨-, before⟩ | ⟨rfl, before, found, rfl⟩
        · exact inv.fits j other before
        · exact ⟨nofun, nofun, nofun⟩
    · rintro held rfl
      exact fits.serving rfl
    · rintro error rfl
      exact fits.waiting rfl
  · exact inv

theorem drain (inv : s.Inv) : s.drain.Inv := by
  have steps : ∀ indices : List Nat, ∀ s : Provider, s.Inv →
      (indices.foldl (fun s i => (s.finish i).deliver i) s).Inv := by
    intro indices
    induction indices with
    | nil => exact fun s inv => inv
    | cons i indices ih => exact fun s inv => ih _ ((inv.finish i).deliver i)
  exact steps _ s inv


end Provider.Inv

/-! ## What runs before the next answer -/

/-- A fetch whose handlers have run, when its promise has settled too. -/
def Fetch.closed (fetch : Fetch) : Fetch :=
  match fetch.stage with
  | .settled _ | .finished _ => { fetch with stage := .delivered, waiters := [] }
  | _ => fetch

theorem Fetch.closed_stage (fetch : Fetch) :
    (fetch.closed.stage = .requested ∧ fetch.closed = fetch) ∨ fetch.closed.stage = .delivered := by
  obtain ⟨held, stage, waiters⟩ := fetch
  cases stage with
  | requested => exact .inl ⟨rfl, rfl⟩
  | _ => exact .inr rfl

theorem Fetch.closed_closed (fetch : Fetch) : fetch.closed.closed = fetch.closed := by
  obtain ⟨held, stage, waiters⟩ := fetch
  cases stage <;> rfl

/-- What of a provider neither `finally` nor the end of a promise touches. -/
def Provider.held (s : Provider) : Option Held × List Held × List (String × RouteConfig) × List Call :=
  (s.cached, s.documents, s.byId, s.calls)

theorem resume_all_frame (result : Except RemoteConfigError Held) (waiters : List Call) (s : Provider) :
    (waiters.foldl (Provider.resume result) s).fetches = s.fetches ∧
      (waiters.foldl (Provider.resume result) s).held = s.held := by
  induction waiters generalizing s with
  | nil => exact ⟨rfl, rfl⟩
  | cons call waiters ih =>
    obtain ⟨fetches, held⟩ := ih (Provider.resume result s call)
    rw [List.foldl_cons, fetches, held]
    cases result <;> cases call <;> exact ⟨rfl, rfl⟩

/-- What a modification is decides at one fetch only. -/
theorem modify_congr {fetches : List Fetch} {g h : Fetch → Fetch}
    (agree : ∀ fetch, fetches[i]? = some fetch → g fetch = h fetch) :
    fetches.modify i g = fetches.modify i h := by
  apply List.ext_getElem?
  intro j
  by_cases same : i = j
  · subst same
    rw [List.getElem?_modify_eq, List.getElem?_modify_eq]
    cases here : fetches[i]? with
    | none => rfl
    | some fetch => exact congrArg some (agree fetch here)
  · rw [List.getElem?_modify_ne _ _ same, List.getElem?_modify_ne _ _ same]

theorem finish_fetches (s : Provider) (i : Nat) : (s.finish i).fetches = s.fetches.modify i fun fetch =>
    match fetch.stage with
    | .settled result => { fetch with stage := .finished result }
    | _ => fetch := by
  unfold Provider.finish
  split
  · rename_i result found
    obtain ⟨fetch, here, stage⟩ := Option.map_eq_some_iff.mp found
    refine modify_congr fun other there => ?_
    obtain rfl := Option.some.inj (here.symm.trans there)
    rw [stage]
  · rename_i open_
    refine (List.modify_id i s.fetches).symm.trans (modify_congr fun fetch here => ?_)
    split
    · rename_i result stage
      refine absurd ?_ (open_ result)
      rw [here, Option.map_some, stage]
    · rfl

theorem deliver_fetches (s : Provider) (i : Nat) : (s.deliver i).fetches = s.fetches.modify i fun fetch =>
    match fetch.stage with
    | .finished _ => { fetch with stage := .delivered, waiters := [] }
    | _ => fetch := by
  unfold Provider.deliver
  split
  · rename_i held result waiters here
    rw [(resume_all_frame _ _ _).1]
    refine modify_congr fun other there => ?_
    obtain rfl := Option.some.inj (here.symm.trans there)
    rfl
  · rename_i pending
    refine (List.modify_id i s.fetches).symm.trans (modify_congr fun fetch here => ?_)
    obtain ⟨held, stage, waiters⟩ := fetch
    cases stage with
    | finished result => exact absurd here (pending held result waiters)
    | _ => rfl

theorem finish_held (s : Provider) (i : Nat) : (s.finish i).held = s.held := by
  unfold Provider.finish
  split <;> rfl

theorem deliver_held (s : Provider) (i : Nat) : (s.deliver i).held = s.held := by
  unfold Provider.deliver
  split
  · exact (resume_all_frame _ _ _).2
  · rfl

/-- Both together close a fetch. -/
theorem close_fetches (s : Provider) (i : Nat) :
    ((s.finish i).deliver i).fetches = s.fetches.modify i Fetch.closed := by
  rw [deliver_fetches, finish_fetches, List.modify_modify_eq]
  congr 1
  funext fetch
  obtain ⟨held, stage, waiters⟩ := fetch
  cases stage <;> rfl

/-- What the answers have set off closes every fetch they came for, and holds what is held. -/
theorem drain_frame (s : Provider) :
    s.drain.held = s.held ∧ s.drain.fetches = s.fetches.map Fetch.closed := by
  have steps : ∀ (indices : List Nat) (s : Provider),
      (indices.foldl (fun s i => (s.finish i).deliver i) s).held = s.held ∧
        ∀ j : Nat, (indices.foldl (fun s i => (s.finish i).deliver i) s).fetches[j]? =
          (s.fetches[j]?).map fun fetch => if j ∈ indices then fetch.closed else fetch := by
    intro indices
    induction indices with
    | nil => exact fun s => ⟨rfl, fun j => by simp⟩
    | cons i indices ih =>
      intro s
      obtain ⟨held, fetches⟩ := ih ((s.finish i).deliver i)
      refine ⟨held.trans ((deliver_held _ i).trans (finish_held s i)), fun j => ?_⟩
      rw [List.foldl_cons, fetches, close_fetches, List.getElem?_modify, Option.map_eq_map, Option.map_map]
      congr 1
      funext fetch
      by_cases same : i = j
      · subst same
        by_cases again : i ∈ indices <;> simp [again, Fetch.closed_closed]
      · by_cases later : j ∈ indices <;> simp [same, Ne.symm same, later]
  obtain ⟨held, fetches⟩ := steps (List.range s.fetches.length) s
  refine ⟨held, List.ext_getElem? fun j => ?_⟩
  rw [Provider.drain, fetches, List.getElem?_map]
  cases here : s.fetches[j]? with
  | none => rfl
  | some fetch =>
    obtain ⟨inside, -⟩ := List.getElem?_eq_some_iff.mp here
    simp [inside]

/-! ## An answer -/

/-- Only a fetch that has not been answered is left to run on. -/
theorem drain_stage (s : Provider) (there : s.drain.fetches[i]? = some fetch) :
    (fetch.stage = .requested ∧ s.fetches[i]? = some fetch) ∨ fetch.stage = .delivered := by
  rw [(drain_frame s).2, List.getElem?_map] at there
  obtain ⟨before, found, rfl⟩ := Option.map_eq_some_iff.mp there
  rcases before.closed_stage with ⟨stage, same⟩ | done
  · exact .inl ⟨stage, found.trans (congrArg some same.symm)⟩
  · exact .inr done

namespace Provider.Inv

/-- The one fetch that has not ended is answered. -/
theorem settle (inv : s.Inv) {result : Except RemoteConfigError Held} {t : Provider}
    (there : s.fetches[i]? = some fetch) (requested : fetch.stage = .requested)
    (alone : ∀ (j : Nat) (other : Fetch), s.fetches[j]? = some other →
      other.stage = .requested ∨ other.stage = .delivered)
    (fetches : t.fetches = s.fetches.modify i fun fetch => { fetch with stage := .settled result })
    (frame : t.inFlight = s.inFlight ∧ t.reading = s.reading ∧ t.settled = s.settled)
    (current : t.documents.head? = t.cached)
    (routes : t.byId = ((t.cached.map fun held => held.routes).getD []).map fun route => (route.id, route))
    (held : result.isOk = true ∧ t.documents ≠ [] ∨ result.isOk = false ∧ t.documents = s.documents) :
    t.Inv := by
  have flight := inv.opened i fetch there (by rw [requested]; rfl)
  have fits := inv.fits i fetch there
  have others : ∀ (j : Nat) (other : Fetch), i ≠ j → s.fetches[j]? = some other →
      other.stage = .delivered := by
    intro j other apart found
    rcases alone j other found with open_ | done
    · have same := inv.opened j other found (by rw [open_]; rfl)
      exact absurd (Option.some.inj (flight.symm.trans same)) apart
    · exact done
  refine ⟨current, routes, ?_, ?_, ?_, ?_, ?_⟩
  · intro j other found opened
    rw [fetches] at found
    rcases getElem?_modify_cases found with ⟨apart, before⟩ | ⟨rfl, -⟩
    · rw [others j other apart before] at opened
      cases opened
    · exact frame.1.trans flight
  · intro j same
    obtain rfl := Option.some.inj (flight.symm.trans (frame.1.symm.trans same))
    refine ⟨{ fetch with stage := .settled result }, ?_, rfl⟩
    rw [fetches, List.getElem?_modify_eq, there]
    rfl
  · intro j other found
    rw [fetches] at found
    rcases getElem?_modify_cases found with ⟨apart, before⟩ | ⟨rfl, before, here, rfl⟩
    · have done := others j other apart before
      refine ⟨fun stage => ?_, fun refuses => ?_, fun serves => ?_⟩
      · rw [done] at stage
        cases stage
      · rw [done] at refuses
        cases refuses
      · rw [done] at serves
        cases serves
    · obtain rfl := Option.some.inj (there.symm.trans here)
      refine ⟨nofun, fun refuses waits => ?_, fun serves => ?_⟩
      · rcases held with ⟨ok, -⟩ | ⟨-, same⟩
        · cases result with
          | error e => cases ok
          | ok v => cases refuses
        · exact same.trans (fits.waiting (by rw [requested]; rfl) waits)
      · rcases held with ⟨-, some_⟩ | ⟨error, -⟩
        · exact some_
        · cases result with
          | error e => cases serves
          | ok v => cases error
  · rw [frame.2.1]
    intro reads
    rcases held with ⟨-, some_⟩ | ⟨-, same⟩
    · exact some_
    · rw [same]
      exact inv.reading reads
  · rw [frame.2.2]
    exact inv.served

/-- What comes of an answer to the one fetch that has not ended. -/
theorem handle (inv : s.Inv) (opts : Options) (answer : ConfigAnswer) (clock : Clock)
    (there : s.fetches[i]? = some fetch) (requested : fetch.stage = .requested)
    (alone : ∀ (j : Nat) (other : Fetch), s.fetches[j]? = some other →
      other.stage = .requested ∨ other.stage = .delivered) :
    (s.handle opts i fetch answer clock).Inv := by
  unfold Provider.handle
  split
  · exact inv.settle there requested alone rfl ⟨rfl, rfl, rfl⟩ inv.current inv.routes (.inr ⟨rfl, rfl⟩)
  · rename_i config fetched
    have distinct : ((config.routes.map fun route : RouteConfig => (route.id, route)).map Prod.fst).Nodup := by
      rw [List.map_map]
      exact ids_of_parseRoutes (parsed_of_fetched fetched)
    refine inv.settle there requested alone rfl ⟨rfl, rfl, rfl⟩ rfl ?_ (.inl ⟨rfl, List.cons_ne_nil _ _⟩)
    exact newMap_of_nodup distinct
  · split
    · rename_i held snapshot
      have current := (inv.fits i fetch there).snapshot requested
      refine inv.settle there requested alone rfl ⟨rfl, rfl, rfl⟩ rfl ?_ (.inl ⟨rfl, List.cons_ne_nil _ _⟩)
      have routes := inv.routes
      rw [← current, snapshot] at routes
      exact routes
    · exact inv

theorem receive (inv : s.Inv) (opts : Options) (i : Nat) (answer : ConfigAnswer) (clock : Clock) :
    (s.receive opts i answer clock).Inv := by
  unfold Provider.receive
  simp only
  split
  · rename_i fetch there
    split
    · rename_i requested
      refine inv.drain.handle opts answer clock there requested fun j other found => ?_
      exact (drain_stage s found).imp And.left id
    · exact inv.drain
  · exact inv.drain

theorem read (inv : s.Inv) (k : Nat) : (s.read k).Inv := by
  unfold Provider.read
  split
  · rename_i lookup found
    have some_ : s.documents ≠ [] := inv.reading fun none => by
      rw [none] at found
      cases found
    obtain ⟨held, current⟩ : ∃ held, s.cached = some held := by
      rw [← inv.current]
      exact ⟨s.documents.head some_, List.head?_eq_some_head some_⟩
    have taken : Inv { s with reading := s.reading.eraseIdx k } :=
      ⟨inv.current, inv.routes, inv.opened, inv.there, inv.fits, fun _ => some_, inv.served⟩
    have routes := inv.routes
    rw [current] at routes
    refine taken.conclude (.inl ⟨held, current, ?_⟩)
    cases lookup with
    | get id =>
      show Outcome.route (s.byId.lookup id) = _
      rw [routes]
      exact congrArg Outcome.route (lookup_byId held.routes id)
    | all =>
      show Outcome.routes (s.byId.map Prod.snd) = _
      rw [routes, List.map_map]
      exact congrArg Outcome.routes (List.map_id _)
  · exact inv

theorem announce (inv : s.Inv) (opts : Options) (reason : ManifestReason) (now : Int) :
    (s.announce opts reason now).Inv := by
  unfold Provider.announce
  split
  · exact ⟨inv.current, inv.routes, inv.opened, inv.there, inv.fits, inv.reading, inv.served⟩
  · exact inv

/-- One action keeps the invariant. -/
theorem step (inv : s.Inv) (opts : Options) (action : Action) : ((machine opts).step s action).Inv := by
  cases action with
  | call call clock => exact inv.begin opts call clock
  | answer i answer clock => exact inv.receive opts i answer clock
  | announce reason now => exact inv.announce opts reason now
  | finish i => exact inv.finish i
  | deliver i => exact inv.deliver i
  | read k => exact inv.read k

end Provider.Inv

theorem inv_run (opts : Options) (actions : List Action) : ((machine opts).run actions).Inv := by
  refine Machine.invariant Provider.Inv ?_ (fun s action inv => inv.step opts action) actions
  refine ⟨rfl, rfl, ?_, nofun, ?_, fun reads => absurd rfl reads, fun settled member => by cases member⟩
  · intro i fetch there
    cases there
  · intro i fetch there
    cases there

/-! ## What is held -/

theorem fetchNow_held (opts : Options) (clock : Clock) (s : Provider) :
    (s.fetchNow opts clock).2.held = s.held := by
  rcases fetchNow_cases opts clock s with ⟨i, -, same⟩ | ⟨-, _, _, _, started⟩
  · rw [same]
  · rw [started]
    rfl

theorem ready_held (opts : Options) (lookup : Lookup) (clock : Clock) (s : Provider) :
    (s.ready opts lookup clock).held = s.held := by
  unfold Provider.ready
  simp only
  split
  · split
    · exact fetchNow_held opts _ s
    · rfl
  · split
    · rfl
    · exact fetchNow_held opts _ s

theorem begin_held (opts : Options) (call : Call) (clock : Clock) (s : Provider) :
    (s.begin opts call clock).held = (s.cached, s.documents, s.byId, call :: s.calls) := by
  unfold Provider.begin
  simp only
  cases call with
  | lookup lookup => exact ready_held opts lookup clock _
  | load =>
    simp only
    split
    · rfl
    · exact fetchNow_held opts clock _
  | refresh => exact fetchNow_held opts clock _

/-- What has been held stays among what has been held. -/
theorem documents_step (opts : Options) (action : Action) (s : Provider) :
    s.documents <:+ ((machine opts).step s action).documents := by
  have unchanged : ∀ {t : Provider}, t.documents = s.documents → s.documents <:+ t.documents :=
    fun same => by rw [same]
  cases action with
  | call call clock =>
    exact unchanged (congrArg (fun held => held.2.1) (begin_held opts call clock s))
  | announce reason now =>
    show _ <:+ (s.announce opts reason now).documents
    unfold Provider.announce
    split <;> exact List.suffix_rfl
  | finish i => exact unchanged (congrArg (fun held => held.2.1) (finish_held s i))
  | deliver i => exact unchanged (congrArg (fun held => held.2.1) (deliver_held s i))
  | read k =>
    show _ <:+ (s.read k).documents
    unfold Provider.read
    split <;> exact List.suffix_rfl
  | answer i answer clock =>
    have drained : s.drain.documents = s.documents :=
      congrArg (fun held => held.2.1) (drain_frame s).1
    show _ <:+ (s.receive opts i answer clock).documents
    unfold Provider.receive
    simp only
    rw [← drained]
    split
    · split
      · unfold Provider.handle
        split
        · exact List.suffix_rfl
        · exact List.suffix_cons _ _
        · split
          · exact List.suffix_cons _ _
          · exact List.suffix_rfl
      · exact List.suffix_rfl
    · exact List.suffix_rfl

theorem documents_run (opts : Options) (actions more : List Action) :
    ((machine opts).run actions).documents <:+ ((machine opts).run (actions ++ more)).documents := by
  induction more using List.reverseRecOn with
  | nil => rw [List.append_nil]
  | append_singleton more action ih =>
    rw [← List.append_assoc, Machine.run_concat]
    exact ih.trans (documents_step opts action _)

/-! ## Every call -/

theorem owes_cons {s : Provider} (owes : s.Owes pending) (call : Call) :
    Provider.Owes ({call} + pending) { s with calls := call :: s.calls } := by
  unfold Provider.Owes at owes ⊢
  rw [← Multiset.cons_coe, owes, ← Multiset.singleton_add]
  simp only [add_assoc]

theorem Provider.Owes.fetchNow (owes : s.Owes pending) (opts : Options) (clock : Clock) :
    (s.fetchNow opts clock).2.Owes pending := by
  rcases fetchNow_cases opts clock s with ⟨i, -, same⟩ | ⟨-, _, _, _, started⟩
  · rw [same]
    exact owes
  · rw [started]
    unfold Provider.Owes at owes ⊢
    have none : waiting (s.fetches ++ [{ held := s.cached }]) = waiting s.fetches := by
      rw [waiting, List.map_append, List.sum_append]
      exact add_zero _
    simp only
    rw [none]
    exact owes

theorem Provider.Owes.await (owes : s.Owes ({call} + pending)) (there : s.fetches[i]? = some fetch) :
    (s.await i call).Owes pending := by
  obtain ⟨rest, modified⟩ := waiting_modify there
  have before : waiting s.fetches = (fetch.waiters : Multiset Call) + rest :=
    (congrArg waiting (List.modify_id i s.fetches)).symm.trans (modified id)
  unfold Provider.Owes Provider.await at *
  simp only
  rw [modified, owes, before, ← Multiset.coe_add, Multiset.coe_singleton]
  abel

theorem Provider.Owes.conclude (owes : s.Owes ({call} + pending)) (outcome : Outcome) :
    (s.conclude call outcome).Owes pending := by
  unfold Provider.Owes Provider.conclude at *
  simp only
  rw [owes, List.map_cons, ← Multiset.cons_coe, ← Multiset.singleton_add]
  abel

theorem Provider.Owes.read_later {lookup : Lookup} (owes : s.Owes ({.lookup lookup} + pending)) :
    Provider.Owes pending { s with reading := s.reading ++ [lookup] } := by
  unfold Provider.Owes at *
  simp only
  rw [owes, List.map_append, ← Multiset.coe_add, List.map_singleton, Multiset.coe_singleton]
  abel

/-- A call joins the fetch that `fetchNow` gives it. -/
theorem Provider.Owes.join (owes : s.Owes ({call} + pending)) (inv : s.Inv) (opts : Options)
    (clock : Clock) :
    ((s.fetchNow opts clock).2.await (s.fetchNow opts clock).1 call).Owes pending := by
  obtain ⟨started, flight⟩ := inv.fetchNow opts clock
  obtain ⟨fetch, there, -⟩ := started.there _ flight
  exact (owes.fetchNow opts clock).await there

theorem Provider.Owes.ready {lookup : Lookup} (owes : s.Owes ({.lookup lookup} + pending))
    (inv : s.Inv) (opts : Options) (clock : Clock) : (s.ready opts lookup clock).Owes pending := by
  unfold Provider.ready
  simp only
  split
  · split
    · exact (owes.fetchNow opts _).read_later
    · exact owes.read_later
  · split
    · exact owes.conclude _
    · exact owes.join inv opts _

theorem Provider.Owes.begin (owes : s.Owes pending) (inv : s.Inv) (opts : Options) (call : Call)
    (clock : Clock) : (s.begin opts call clock).Owes pending := by
  have owed := owes_cons owes call
  have called : Provider.Inv { s with calls := call :: s.calls } :=
    ⟨inv.current, inv.routes, inv.opened, inv.there, inv.fits, inv.reading, inv.served⟩
  cases call with
  | lookup lookup => exact owed.ready called opts clock
  | load =>
    unfold Provider.begin
    simp only
    split
    · exact owed.conclude _
    · exact owed.join called opts clock
  | refresh => exact owed.join called opts clock

/-- A fetch comes further. -/
theorem Provider.Owes.setStage (owes : s.Owes pending) (i : Nat) (stage : Stage) :
    (s.setStage i stage).Owes pending := by
  have same : waiting (s.setStage i stage).fetches = waiting s.fetches :=
    @waiting_modify_of_waiters i s.fetches (fun fetch => { fetch with stage }) fun _ => rfl
  unfold Provider.Owes at *
  rw [same]
  exact owes

theorem Provider.Owes.finish (owes : s.Owes pending) (i : Nat) : (s.finish i).Owes pending := by
  unfold Provider.finish
  split
  · exact Provider.Owes.setStage owes i _
  · exact owes

theorem Provider.Owes.resume {result : Except RemoteConfigError Held} (owes : s.Owes ({call} + pending)) :
    (Provider.resume result s call).Owes pending := by
  cases result with
  | error error => cases call <;> exact owes.conclude _
  | ok held =>
    cases call with
    | lookup lookup => exact owes.read_later
    | load => exact owes.conclude _
    | refresh => exact owes.conclude _

theorem Provider.Owes.resume_all {result : Except RemoteConfigError Held} {waiters : List Call}
    (owes : s.Owes ((waiters : Multiset Call) + pending)) :
    (waiters.foldl (Provider.resume result) s).Owes pending := by
  induction waiters generalizing s with
  | nil => exact (zero_add pending) ▸ owes
  | cons call waiters ih =>
    refine ih (Provider.Owes.resume ?_)
    rw [← Multiset.cons_coe, ← Multiset.singleton_add, add_assoc] at owes
    exact owes

theorem Provider.Owes.deliver (owes : s.Owes pending) (i : Nat) : (s.deliver i).Owes pending := by
  unfold Provider.deliver
  split
  · rename_i held result waiters there
    obtain ⟨rest, modified⟩ := waiting_modify there
    have before : waiting s.fetches = (waiters : Multiset Call) + rest :=
      (congrArg waiting (List.modify_id i s.fetches)).symm.trans (modified id)
    refine Provider.Owes.resume_all ?_
    unfold Provider.Owes at *
    simp only
    rw [modified, owes, before, Multiset.coe_nil]
    abel
  · exact owes

theorem Provider.Owes.drain (owes : s.Owes pending) : s.drain.Owes pending := by
  have steps : ∀ indices : List Nat, ∀ s : Provider, s.Owes pending →
      (indices.foldl (fun s i => (s.finish i).deliver i) s).Owes pending := by
    intro indices
    induction indices with
    | nil => exact fun s owes => owes
    | cons i indices ih => exact fun s owes => ih _ ((owes.finish i).deliver i)
  exact steps _ s owes

theorem Provider.Owes.receive (owes : s.Owes pending) (opts : Options) (i : Nat)
    (answer : ConfigAnswer) (clock : Clock) : (s.receive opts i answer clock).Owes pending := by
  unfold Provider.receive
  simp only
  split
  · split
    · unfold Provider.handle
      split
      · exact Provider.Owes.setStage owes.drain i _
      · exact Provider.Owes.setStage owes.drain i _
      · split
        · exact Provider.Owes.setStage owes.drain i _
        · exact owes.drain
    · exact owes.drain
  · exact owes.drain

theorem Provider.Owes.read (owes : s.Owes pending) (k : Nat) : (s.read k).Owes pending := by
  unfold Provider.read
  split
  · rename_i lookup found
    obtain ⟨inside, rfl⟩ := List.getElem?_eq_some_iff.mp found
    refine Provider.Owes.conclude ?_ _
    have taken : (s.reading.map Call.lookup : Multiset Call) =
        {.lookup s.reading[k]} + ((s.reading.eraseIdx k).map Call.lookup : List Call) := by
      rw [Multiset.singleton_add, Multiset.cons_coe, ← List.map_cons]
      exact Multiset.coe_eq_coe.mpr ((List.getElem_cons_eraseIdx_perm inside).symm.map _)
    unfold Provider.Owes at *
    simp only
    rw [owes, taken]
    abel
  · exact owes

theorem Provider.Owes.announce (owes : s.Owes pending) (opts : Options) (reason : ManifestReason)
    (now : Int) : (s.announce opts reason now).Owes pending := by
  unfold Provider.announce
  split <;> exact owes

/-- Every call has settled, or reads, or waits on a fetch, and does so once. -/
theorem owes_run (opts : Options) (actions : List Action) : ((machine opts).run actions).Owes 0 := by
  induction actions using List.reverseRecOn with
  | nil => rfl
  | append_singleton actions action ih =>
    rw [Machine.run_concat]
    cases action with
    | call call clock => exact ih.begin (inv_run opts actions) opts call clock
    | answer i answer clock => exact ih.receive opts i answer clock
    | announce reason now => exact ih.announce opts reason now
    | finish i => exact ih.finish i
    | deliver i => exact ih.deliver i
    | read k => exact ih.read k

/-! ## Fetches in flight -/

/-- At most one fetch awaits its answer. -/
theorem Provider.Inv.alone (inv : s.Inv) {j : Nat} {other : Fetch} (there : s.fetches[i]? = some fetch)
    (here : s.fetches[j]? = some other) (requested : fetch.stage = .requested)
    (also : other.stage = .requested) : i = j := by
  have first := inv.opened i fetch there (by rw [requested]; rfl)
  have second := inv.opened j other here (by rw [also]; rfl)
  exact Option.some.inj (first.symm.trans second)

/-- A 304 is taken for an answer while the document is held whose ETag was sent,
and changes nothing of it but the time of its fetch. -/
theorem Provider.Inv.unchanged (inv : s.Inv) (there : s.fetches[i]? = some fetch)
    (requested : fetch.stage = .requested) {answer : ConfigAnswer}
    (unchanged : fetchRemoteConfig fetch.ifNoneMatch answer opts.parse = .ok none) (clock : Clock) :
    ∃ held etag, s.cached = some held ∧ held.etag = some etag ∧ fetch.ifNoneMatch = some etag ∧
      (s.receive opts i answer clock).cached = some { held with fetchedAt := clock 1 } ∧
      (s.receive opts i answer clock).byId = s.byId := by
  have snapshot := (inv.fits i fetch there).snapshot requested
  have still : s.drain.fetches[i]? = some fetch := by
    rw [(drain_frame s).2, List.getElem?_map, there, Option.map_some]
    obtain ⟨held, stage, waiters⟩ := fetch
    obtain rfl : stage = .requested := requested
    rfl
  obtain ⟨etag, sent⟩ := Option.ne_none_iff_exists'.mp (sent_of_unchanged unchanged)
  obtain ⟨held, started, tag⟩ := Option.bind_eq_some_iff.mp sent
  have received : s.receive opts i answer clock =
      (s.drain.hold { held with fetchedAt := clock 1 } (clock 0 + opts.refreshMs)).setStage i
        (.settled (.ok { held with fetchedAt := clock 1 })) := by
    unfold Provider.receive Provider.handle
    simp only [still, requested, unchanged, started]
  refine ⟨held, etag, snapshot.symm.trans started, tag, sent, ?_, ?_⟩
  · rw [received]
    rfl
  · rw [received]
    exact congrArg (fun held => held.2.2.1) (drain_frame s).1

/-- Over every run: what is current is the latest of all that has been held, and
stays among it; the routes are those of the current document; a lookup serves
these, or is refused where nothing has been held; every call settles at most
once, and none is lost; at most one fetch is in flight; and a 304 is accepted
only while the document is held whose ETag was sent, of which it changes the
time of its fetch. -/
theorem remote_routes_served (opts : Options) (actions : List Action) :
    let s := (machine opts).run actions
    (s.documents.head? = s.cached ∧
      ∀ more, s.documents <:+ ((machine opts).run (actions ++ more)).documents) ∧
    (∀ more, s.cached.isSome → ((machine opts).run (actions ++ more)).cached.isSome) ∧
    s.byId = ((s.cached.map fun held => held.routes).getD []).map (fun route => (route.id, route)) ∧
    (∀ settled ∈ s.settled, settled.Served) ∧
    s.Owes 0 ∧
    (∀ (i j : Nat) (fetch other : Fetch), s.fetches[i]? = some fetch → s.fetches[j]? = some other →
      fetch.stage = .requested → other.stage = .requested → i = j) ∧
    ∀ (i : Nat) (fetch : Fetch), s.fetches[i]? = some fetch → fetch.stage = .requested →
      ∀ (answer : ConfigAnswer) (clock : Clock),
        fetchRemoteConfig fetch.ifNoneMatch answer opts.parse = .ok none →
        ∃ held etag, s.cached = some held ∧ held.etag = some etag ∧ fetch.ifNoneMatch = some etag ∧
          (s.receive opts i answer clock).cached = some { held with fetchedAt := clock 1 } ∧
          (s.receive opts i answer clock).byId = s.byId := by
  have inv := inv_run opts actions
  refine ⟨⟨inv.current, documents_run opts actions⟩, fun more held => ?_, inv.routes, inv.served,
    owes_run opts actions, fun i j fetch other there here => inv.alone there here,
    fun i fetch there requested answer clock unchanged => inv.unchanged there requested unchanged clock⟩
  have kept := documents_run opts actions more
  have later := inv_run opts (actions ++ more)
  rw [← inv.current] at held
  rw [← later.current]
  obtain ⟨since, all⟩ := kept
  rw [← all]
  cases since with
  | nil => exact held
  | cons last since => rfl

end

end EndCloseRelay.App.RemoteRoutes
