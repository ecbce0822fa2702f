import EndCloseRelay.App.FailedLoads

/-!
# Announcing an instance

A provider announces its instance before it fetches: `boot` where nothing has been
announced, and `heartbeat` with the first fetch that starts `heartbeatMs` after the
announcement before.  A host may announce as well, as `relay.stop` does with
`shutdown`.  `Announcer` keeps the times of the announcements, and whose they are,
beside the provider; `announcements_paced` says how they lie, whatever calls,
answers and lookups are interleaved.
-/

namespace EndCloseRelay.App.RemoteRoutes

open Interaction

/-! ## Watching the announcements -/

/-- An announcement, its time, which is what `lastAnnouncedAt` is set to, and whether
the provider made it of its own accord. -/
structure Announcement where
  reason : ManifestReason
  time : Int
  own : Bool

/-- What the provider announces in the action, it announces of its own accord. -/
def Action.own : Action → Bool
  | announce _ _ => false
  | _ => true

/-- A provider, and beside it what it has announced, latest first. -/
structure Announcer where
  provider : Provider := {}
  sent : List Announcement := []

/-- What an action has added to the announcements. -/
def Announcer.sentBy (w : Announcer) (next : Provider) (action : Action) : List Announcement :=
  (next.announced.take (next.announced.length - w.provider.announced.length)).map fun reason =>
    { reason, time := next.lastAnnouncedAt.getD 0, own := action.own }

/-- An announcing provider from its creation on. -/
def announcer (opts : Options) : Machine Announcer Action where
  init := {}
  step w action :=
    let next := (machine opts).step w.provider action
    { provider := next, sent := w.sentBy next action ++ w.sent }

theorem announcer_provider (opts : Options) (actions : List Action) :
    ((announcer opts).run actions).provider = (machine opts).run actions := by
  induction actions using List.reverseRecOn with
  | nil => rfl
  | append_singleton actions action ih =>
    rw [Machine.run_concat, Machine.run_concat, ← ih]
    rfl

/-- The clock does not go back within the action. -/
def Action.Ticks (action : Action) : Prop := ∀ clock ∈ action.clock?, Monotone clock

/-! ## What an action announces -/

namespace Provider

variable {s t : Provider} {opts : Options}

/-- What is told of the instance, and how many fetches there have been. -/
def told (s : Provider) : List ManifestReason × Option Int × Nat :=
  (s.announced, s.lastAnnouncedAt, s.fetches.length)

theorem told_await (s : Provider) (i : Nat) (call : Call) : (s.await i call).told = s.told := by
  unfold told await
  rw [List.length_modify]

theorem told_setStage (s : Provider) (i : Nat) (stage : Stage) : (s.setStage i stage).told = s.told := by
  unfold told setStage
  rw [List.length_modify]

theorem told_resume (result : Except RemoteConfigError Held) (s : Provider) (call : Call) :
    (s.resume result call).told = s.told := by
  unfold resume
  split <;> rfl

theorem told_finish (s : Provider) (i : Nat) : (s.finish i).told = s.told := by
  unfold finish
  split
  · exact told_setStage _ _ _
  · rfl

theorem told_deliver (s : Provider) (i : Nat) : (s.deliver i).told = s.told := by
  unfold deliver
  split
  · rename_i held result waiters there
    have resumed : ∀ (waiters : List Call) (s : Provider),
        (waiters.foldl (resume result) s).told = s.told := by
      intro waiters
      induction waiters with
      | nil => exact fun s => rfl
      | cons call waiters ih => exact fun s => (ih _).trans (told_resume result s call)
    rw [resumed]
    unfold told
    rw [List.length_modify]
  · rfl

theorem told_drain (s : Provider) : s.drain.told = s.told := by
  have steps : ∀ (indices : List Nat) (s : Provider),
      (indices.foldl (fun s i => (s.finish i).deliver i) s).told = s.told := by
    intro indices
    induction indices with
    | nil => exact fun s => rfl
    | cons i indices ih =>
      exact fun s => (ih _).trans ((told_deliver _ i).trans (told_finish s i))
  exact steps _ s

theorem told_receive (opts : Options) (i : Nat) (answer : ConfigAnswer) (clock : Clock) (s : Provider) :
    (s.receive opts i answer clock).told = s.told := by
  unfold receive
  dsimp only
  split
  · split
    · refine Eq.trans ?_ (told_drain s)
      unfold handle
      split
      · exact told_setStage _ _ _
      · exact told_setStage _ _ _
      · split
        · exact told_setStage _ _ _
        · rfl
    · exact told_drain s
  · exact told_drain s

theorem told_read (s : Provider) (k : Nat) : (s.read k).told = s.told := by
  unfold read
  split <;> rfl

/-- What `announceDue` makes of what is told goes by that alone. -/
theorem told_announceDue {s t : Provider} (announced : t.announced = s.announced)
    (last : t.lastAnnouncedAt = s.lastAnnouncedAt) (opts : Options) (clock : Clock) :
    (t.announceDue opts clock).announced = (s.announceDue opts clock).announced ∧
      (t.announceDue opts clock).lastAnnouncedAt = (s.announceDue opts clock).lastAnnouncedAt := by
  unfold announceDue announce
  rw [last]
  split
  · split <;> simp [announced, last]
  · split
    · split <;> simp [announced, last]
    · exact ⟨announced, last⟩

/-- From `s` to `t` a fetch has started, and the announcement due before it was made
by the readings from some one on. -/
def Starts (opts : Options) (clock : Clock) (s t : Provider) : Prop :=
  t.fetches.length = s.fetches.length + 1 ∧ ∃ m,
    t.announced = (s.announceDue opts fun n => clock (n + m)).announced ∧
      t.lastAnnouncedAt = (s.announceDue opts fun n => clock (n + m)).lastAnnouncedAt

theorem Starts.of_told {clock : Clock} {u : Provider} (starts : Starts opts clock s t)
    (same : u.told = t.told) : Starts opts clock s u := by
  obtain ⟨announced, rest⟩ := Prod.mk.inj same
  obtain ⟨last, fetches⟩ := Prod.mk.inj rest
  unfold Starts
  rwa [announced, last, fetches]

theorem Starts.of_before {clock : Clock} {u : Provider} (starts : Starts opts clock u t)
    (same : u.told = s.told) : Starts opts clock s t := by
  obtain ⟨announced, rest⟩ := Prod.mk.inj same
  obtain ⟨last, fetches⟩ := Prod.mk.inj rest
  obtain ⟨length, m, due, dueAt⟩ := starts
  refine ⟨fetches ▸ length, m, ?_, ?_⟩
  · rw [due, (told_announceDue announced last opts _).1]
  · rw [dueAt, (told_announceDue announced last opts _).2]

theorem fetchNow_starts (opts : Options) (clock : Clock) (s : Provider) :
    (s.fetchNow opts clock).2 = s ∨ Starts opts clock s (s.fetchNow opts clock).2 := by
  unfold fetchNow
  split
  · exact .inl rfl
  · right
    dsimp only
    refine ⟨?_, 1, @told_announceDue s { s with
      holdUntil := clock 0 + if s.cached.isSome then opts.refreshMs else failedLoadHoldMs } rfl rfl opts _⟩
    obtain ⟨lastAnnouncedAt, announced, frame⟩ := announceDue_frame opts (fun n => clock (n + 1))
      { s with holdUntil := clock 0 + if s.cached.isSome then opts.refreshMs else failedLoadHoldMs }
    rw [List.length_append, List.length_singleton, frame]

theorem Starts.later {clock : Clock} (starts : Starts opts (fun n => clock (n + 1)) s t) :
    Starts opts clock s t := by
  obtain ⟨fetches, m, told⟩ := starts
  refine ⟨fetches, m + 1, ?_⟩
  simpa only [Nat.add_assoc] using told

theorem ready_starts (opts : Options) (lookup : Lookup) (clock : Clock) (s : Provider) :
    (s.ready opts lookup clock).told = s.told ∨ Starts opts clock s (s.ready opts lookup clock) := by
  unfold ready
  dsimp only
  split
  · split
    · rcases fetchNow_starts opts (fun n => clock (n + 1)) s with same | starts
      · left
        rw [same]
        rfl
      · exact .inr (starts.later.of_told rfl)
    · exact .inl rfl
  · split
    · exact .inl rfl
    · rcases fetchNow_starts opts (fun n => clock (n + 1)) s with same | starts
      · left
        rw [told_await, same]
      · exact .inr (starts.later.of_told (told_await _ _ _))

theorem begin_starts (opts : Options) (call : Call) (clock : Clock) (s : Provider) :
    (s.begin opts call clock).told = s.told ∨ Starts opts clock s (s.begin opts call clock) := by
  unfold begin
  dsimp only
  have called : ({ s with calls := call :: s.calls } : Provider).told = s.told := rfl
  have joins : ∀ made : Call,
      ((({ s with calls := call :: s.calls } : Provider).fetchNow opts clock).2.await
          (({ s with calls := call :: s.calls } : Provider).fetchNow opts clock).1 made).told = s.told ∨
        Starts opts clock s ((({ s with calls := call :: s.calls } : Provider).fetchNow opts clock).2.await
          (({ s with calls := call :: s.calls } : Provider).fetchNow opts clock).1 made) := by
    intro made
    rcases fetchNow_starts opts clock { s with calls := call :: s.calls } with same | starts
    · left
      rw [told_await, same]
      exact called
    · exact .inr ((starts.of_told (told_await _ _ _)).of_before called)
  cases call with
  | lookup lookup =>
    rcases ready_starts opts lookup clock { s with calls := .lookup lookup :: s.calls } with same | starts
    · exact .inl (same.trans called)
    · exact .inr (starts.of_before called)
  | load =>
    dsimp only
    split
    · exact .inl rfl
    · exact joins .load
  | refresh => exact joins .refresh

/-- An action other than an announcement tells nothing and starts no fetch, or it
starts one. -/
theorem step_starts (opts : Options) {action : Action} (own : action.own = true) (s : Provider) :
    ((machine opts).step s action).told = s.told ∨
      ∃ clock ∈ action.clock?, Starts opts clock s ((machine opts).step s action) := by
  cases action with
  | call call clock =>
    rcases begin_starts opts call clock s with same | starts
    · exact .inl same
    · exact .inr ⟨clock, rfl, starts⟩
  | answer i answer clock => exact .inl (told_receive opts i answer clock s)
  | announce reason now => cases own
  | finish i => exact .inl (told_finish s i)
  | deliver i => exact .inl (told_deliver s i)
  | read k => exact .inl (told_read s k)

end Provider

/-! ## Every run -/

/-- The announcements so far.  Of its own accord the provider has announced `boot`
where there was none before, and otherwise heartbeats, each `heartbeatMs` after the
announcement before at least; none of these without a fetch, and no fetch without an
announcement. -/
structure Announcer.Paced (opts : Options) (w : Announcer) : Prop where
  last : w.provider.lastAnnouncedAt = w.sent.head?.map Announcement.time
  count : w.provider.announced.length = w.sent.length
  spaced : w.sent.IsChain fun later earlier =>
    later.own → later.reason = .heartbeat ∧ earlier.time + opts.heartbeatMs ≤ later.time
  first : ∀ announcement ∈ w.sent.getLast?, announcement.own → announcement.reason = .boot
  fetched : ∀ announcement ∈ w.sent, announcement.own → w.provider.fetches ≠ []
  unfetched : w.sent = [] → w.provider.fetches = []

/-- A fetch that an action starts finds an announcement that is not `heartbeatMs` old. -/
def Announcer.Fresh (opts : Options) (w next : Announcer) (action : Action) : Prop :=
  ∀ clock ∈ action.clock?, w.provider.fetches.length < next.provider.fetches.length →
    ∃ announcement ∈ next.sent.head?,
      clock 0 < announcement.time + opts.heartbeatMs ∨ clock 0 ≤ announcement.time

namespace Announcer

variable {opts : Options} {w : Announcer} {action : Action}

theorem sentBy_eq_nil {next : Provider} (same : next.told = w.provider.told) :
    w.sentBy next action = [] := by
  unfold sentBy
  rw [(Prod.mk.inj same).1, Nat.sub_self]
  rfl

/-- What is announced before a fetch: `boot`, or a heartbeat that is due, or nothing
while none is. -/
theorem sentBy_cases (announces : opts.manifest = true) (paced : w.Paced opts) {clock : Clock}
    {next : Provider} (own : action.own = true) (starts : Provider.Starts opts clock w.provider next) :
    next.lastAnnouncedAt = (w.sentBy next action ++ w.sent).head?.map Announcement.time ∧
      next.announced.length = (w.sentBy next action ++ w.sent).length ∧
      ∃ m, (w.sent = [] ∧ w.sentBy next action = [⟨.boot, clock m, true⟩]) ∨
        ∃ last earlier, w.sent = last :: earlier ∧
          ((opts.heartbeatMs ≤ clock m - last.time ∧
              w.sentBy next action = [⟨.heartbeat, clock (m + 1), true⟩]) ∨
            (clock m - last.time < opts.heartbeatMs ∧ w.sentBy next action = [])) := by
  obtain ⟨-, m, announced, lastAt⟩ := starts
  have told := paced.last
  have count := paced.count
  unfold Provider.announceDue at announced lastAt
  cases sent : w.sent with
  | nil =>
    rw [sent] at told count
    rw [told] at announced lastAt
    simp only [Provider.announce, announces, if_true, List.head?_nil, Option.map_none, Nat.zero_add]
      at announced lastAt
    have added : w.sentBy next action = [⟨.boot, clock m, true⟩] := by
      rw [sentBy, announced, lastAt, own, List.length_cons, Nat.add_sub_cancel_left]
      rfl
    rw [added, announced, lastAt]
    exact ⟨rfl, congrArg (· + 1) count, m, .inl ⟨rfl, rfl⟩⟩
  | cons last earlier =>
    rw [sent] at told count
    rw [told] at announced lastAt
    simp only [List.head?_cons, Option.map_some, Nat.zero_add] at announced lastAt
    by_cases due : opts.heartbeatMs ≤ clock m - last.time
    · simp only [if_pos due, Provider.announce, announces, if_true] at announced lastAt
      have added : w.sentBy next action = [⟨.heartbeat, clock (m + 1), true⟩] := by
        rw [sentBy, announced, lastAt, own, List.length_cons, Nat.add_sub_cancel_left, Nat.add_comm m 1]
        rfl
      rw [added, announced, lastAt, Nat.add_comm 1 m]
      exact ⟨rfl, congrArg (· + 1) count, m, .inr ⟨last, earlier, rfl, .inl ⟨due, rfl⟩⟩⟩
    · simp only [if_neg due] at announced lastAt
      have added : w.sentBy next action = [] := by
        rw [sentBy, announced, Nat.sub_self]
        rfl
      rw [added, announced, lastAt, told]
      exact ⟨rfl, count, m, .inr ⟨last, earlier, rfl, .inr ⟨by omega, rfl⟩⟩⟩

/-- The host announces. -/
theorem Paced.announce (announces : opts.manifest = true) (paced : w.Paced opts) (reason : ManifestReason)
    (now : Int) : ((announcer opts).step w (.announce reason now)).Paced opts := by
  have made : w.provider.announce opts reason now =
      { w.provider with lastAnnouncedAt := some now, announced := reason :: w.provider.announced } := if_pos announces
  have sent : w.sentBy (w.provider.announce opts reason now) (.announce reason now) =
      [⟨reason, now, false⟩] := by
    rw [made, sentBy, List.length_cons, Nat.add_sub_cancel_left]
    rfl
  show Paced opts { provider := w.provider.announce opts reason now
                    sent := w.sentBy (w.provider.announce opts reason now) (.announce reason now) ++ w.sent }
  rw [sent, made]
  refine ⟨rfl, congrArg (· + 1) paced.count, ?_, ?_, ?_, nofun⟩
  · have spaced := paced.spaced
    cases before : w.sent with
    | nil => exact .singleton _
    | cons last earlier =>
      rw [before] at spaced
      exact .cons_cons nofun spaced
  · have first := paced.first
    cases before : w.sent with
    | nil =>
      intro announcement only own
      obtain rfl := Option.some.inj only
      cases own
    | cons last earlier =>
      rw [before] at first
      exact first
  · intro announcement member own
    rcases List.mem_cons.mp member with rfl | before
    · cases own
    · exact paced.fetched announcement before own

theorem Paced.step (announces : opts.manifest = true) (paced : w.Paced opts) (ticks : action.Ticks) :
    ((announcer opts).step w action).Paced opts := by
  cases own : action.own with
  | false =>
    cases action with
    | announce reason now => exact paced.announce announces reason now
    | _ => cases own
  | true =>
    show Paced opts { provider := _, sent := w.sentBy ((machine opts).step w.provider action) action ++ w.sent }
    rcases w.provider.step_starts opts own with same | ⟨clock, read, starts⟩
    · obtain ⟨announced, rest⟩ := Prod.mk.inj same
      obtain ⟨last, length⟩ := Prod.mk.inj rest
      rw [sentBy_eq_nil same, List.nil_append]
      have fetches : ((machine opts).step w.provider action).fetches = [] ↔ w.provider.fetches = [] := by
        rw [← List.length_eq_zero_iff, ← List.length_eq_zero_iff, length]
      exact ⟨last.trans paced.last, (congrArg List.length announced).trans paced.count, paced.spaced,
        paced.first, fun announcement member own none =>
          paced.fetched announcement member own (fetches.mp none), fun none => fetches.mpr (paced.unfetched none)⟩
    · obtain ⟨lastAt, count, m, made⟩ := sentBy_cases announces paced own starts
      have some_fetch : ((machine opts).step w.provider action).fetches ≠ [] :=
        List.ne_nil_of_length_pos (by rw [starts.1]; omega)
      refine ⟨lastAt, count, ?_, ?_, fun _ _ _ => some_fetch, fun silent => ?_⟩
      all_goals rcases made with ⟨none, sent⟩ | ⟨last, earlier, before, ⟨due, sent⟩ | ⟨early, sent⟩⟩
      · rw [sent, none]
        exact .singleton _
      · have monotone : clock m ≤ clock (m + 1) := ticks clock read (Nat.le_succ m)
        have spaced := paced.spaced
        rw [sent]
        rw [before] at spaced ⊢
        exact .cons_cons (fun _ => ⟨rfl, by dsimp only; omega⟩) spaced
      · rw [sent]
        exact paced.spaced
      · rw [sent, none]
        intro announcement only _
        obtain rfl := Option.some.inj only
        rfl
      · have first := paced.first
        rw [sent]
        rw [before] at first ⊢
        exact first
      · rw [sent]
        exact paced.first
      all_goals
        dsimp only at silent
        rw [sent] at silent
      · cases silent
      · cases silent
      · rw [before] at silent
        cases silent

theorem Paced.fresh (announces : opts.manifest = true) (paced : w.Paced opts) (ticks : action.Ticks) :
    w.Fresh opts ((announcer opts).step w action) action := by
  intro clock read grows
  show ∃ announcement ∈ (w.sentBy ((machine opts).step w.provider action) action ++ w.sent).head?, _
  have own : action.own = true := by
    cases action with
    | announce reason now => cases read
    | _ => rfl
  rcases w.provider.step_starts opts own with same | ⟨clock', read', starts⟩
  · have length : _ = w.provider.fetches.length := (Prod.mk.inj (Prod.mk.inj same).2).2
    exact absurd grows (by rw [show ((announcer opts).step w action).provider.fetches.length = _ from length]; omega)
  · obtain rfl := Option.some.inj (read.symm.trans read')
    have monotone := ticks clock read
    obtain ⟨-, -, m, ⟨-, sent⟩ | ⟨last, earlier, before, ⟨-, sent⟩ | ⟨early, sent⟩⟩⟩ :=
      sentBy_cases announces paced own starts
    all_goals rw [sent]
    · exact ⟨_, rfl, .inr (monotone (Nat.zero_le m))⟩
    · exact ⟨_, rfl, .inr (monotone (Nat.zero_le (m + 1)))⟩
    · have later := monotone (Nat.zero_le m)
      rw [before]
      exact ⟨last, rfl, .inl (by omega)⟩

end Announcer

/-- Over every run of a provider that announces, with a clock that does not go back
within an action, and whatever its host announces: of its own accord it announces
`boot` only where nothing has been announced, and otherwise heartbeats, at least
`heartbeatMs` after the announcement before; none of these before a fetch, and no
fetch starts on an announcement that is `heartbeatMs` old. -/
theorem announcements_paced {opts : Options} (announces : opts.manifest = true) {actions : List Action}
    (ticks : ∀ action ∈ actions, action.Ticks) :
    ((announcer opts).run actions).Paced opts ∧ ∀ action : Action, action.Ticks →
      ((announcer opts).run actions).Fresh opts ((announcer opts).run (actions ++ [action])) action := by
  have paced : ((announcer opts).run actions).Paced opts := by
    refine Machine.listed_invariant _ (fun action => action.Ticks) ?_ (fun _ _ paced => paced.step announces)
      ticks
    exact ⟨rfl, rfl, .nil, nofun, nofun, fun _ => rfl⟩
  refine ⟨paced, fun action ticks' => ?_⟩
  rw [Machine.run_concat]
  exact paced.fresh announces ticks'

/-- Two refreshes, the second when a heartbeat is due, and the host stops. -/
def announcingRun : List Action :=
  [.call .refresh fun _ => 0, .answer 0 ⟨.networkError "down", none⟩ fun _ => 1, .finish 0, .deliver 0,
    .call .refresh fun _ => 900000, .announce .shutdown 900001]

theorem announcements_paced_sample :
    ((announcer { manifest := true }).run announcingRun).Paced { manifest := true } ∧
      ((announcer { manifest := true }).run announcingRun).sent =
        [⟨.shutdown, 900001, false⟩, ⟨.heartbeat, 900000, true⟩, ⟨.boot, 0, true⟩] := by
  refine ⟨(announcements_paced rfl fun action member => ?_).1, rfl⟩
  have constant : ∀ now : Int, Monotone fun _ : Nat => now := fun now => monotone_const
  simp only [announcingRun, List.mem_cons, List.not_mem_nil, or_false] at member
  rcases member with rfl | rfl | rfl | rfl | rfl | rfl
  all_goals
    intro clock read
    first
    | cases read
      exact constant _
    | cases read

end EndCloseRelay.App.RemoteRoutes
