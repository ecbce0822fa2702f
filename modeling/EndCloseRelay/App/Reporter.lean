import EndCloseRelay.Engine.Manifest
import EndCloseRelay.Interaction.Machine

/-!
# The instance reporter

`forward/manifest.ts` of the application: a manifest at boot, at every heartbeat,
at shutdown, after a configuration is applied and, at most so often, when the
engine reports an error.  The platform's timers are part of the state: which are
running, and when one fires.
-/

namespace EndCloseRelay.App

open Interaction

/-- `InstanceReporterOpts`, and the version of the engine. -/
structure ReporterOpts where
  enabled : Bool
  engineVersion : String
  errorMinIntervalMs : Nat := 60000

/-- An `InstanceReporter`, the timers of the platform that are running, and the
manifests it has sent with their times, latest first. -/
structure Reporter where
  timer : Option Nat := none
  running : Bool := false
  lastErrorAt : Int := 0
  timers : List Nat := []
  timersSet : Nat := 0
  puts : List (Int × InstanceManifest) := []

namespace Reporter

/-- `announce(reason)`. -/
def announce (opts : ReporterOpts) (now : Int) (source : ConfigSource) (reason : ManifestReason)
    (s : Reporter) : Reporter :=
  if opts.enabled then
    { s with
      puts := (now, buildManifest opts.engineVersion { host := .application, configSource := source }
        reason) :: s.puts }
  else s

/-- `schedule()`. -/
def schedule (s : Reporter) : Reporter :=
  { s with timer := some s.timersSet, timers := s.timersSet :: s.timers, timersSet := s.timersSet + 1 }

/-- `if (this.timer) clearTimeout(this.timer)`. -/
def clearTimer (s : Reporter) : Reporter :=
  { s with timers := s.timers.filter fun t => some t ≠ s.timer }

/-- `start()`. -/
def start (opts : ReporterOpts) (now : Int) (source : ConfigSource) (s : Reporter) : Reporter :=
  if !opts.enabled || s.running then s
  else ({ s with running := true }.announce opts now source .boot).schedule

/-- `stop()`, up to its wait. -/
def stop (opts : ReporterOpts) (now : Int) (source : ConfigSource) (s : Reporter) : Reporter :=
  let s := s.clearTimer
  if s.running then { s with running := false }.announce opts now source .shutdown else s

/-- `configApplied()`. -/
def configApplied (opts : ReporterOpts) (now : Int) (source : ConfigSource) (s : Reporter) : Reporter :=
  s.announce opts now source .configApplied

/-- `reportError()`. -/
def reportError (opts : ReporterOpts) (now : Int) (source : ConfigSource) (s : Reporter) : Reporter :=
  if now - s.lastErrorAt < opts.errorMinIntervalMs then s
  else { s with lastErrorAt := now }.announce opts now source .error

/-- A timer fires: the callback of `schedule`. -/
def fire (opts : ReporterOpts) (timer : Nat) (now : Int) (source : ConfigSource) (s : Reporter) : Reporter :=
  if timer ∈ s.timers then
    let s := { s with timers := s.timers.erase timer }
    if !s.running then s else (s.announce opts now source .heartbeat).schedule
  else s

/-- What happens to a reporter: a call, or a timer fires, at a time and under a
source of the configuration. -/
inductive Action
  | start (now : Int) (source : ConfigSource)
  | stop (now : Int) (source : ConfigSource)
  | configApplied (now : Int) (source : ConfigSource)
  | reportError (now : Int) (source : ConfigSource)
  | fire (timer : Nat) (now : Int) (source : ConfigSource)

/-- One step. -/
def step (opts : ReporterOpts) (s : Reporter) : Action → Reporter
  | .start now source => s.start opts now source
  | .stop now source => s.stop opts now source
  | .configApplied now source => s.configApplied opts now source
  | .reportError now source => s.reportError opts now source
  | .fire timer now source => s.fire opts timer now source

/-- A reporter, from its construction on. -/
def machine (opts : ReporterOpts) : Machine Reporter Action where
  init := {}
  step := step opts

/-! ## Every run -/

/-- What a reason may follow: whether the instance counts as up before and after. -/
def follow (up : Bool) : ManifestReason → Option Bool
  | .boot => if up then none else some true
  | .heartbeat => if up then some true else none
  | .shutdown => if up then some false else none
  | .configApplied | .error => some up

/-- Whether the instance counts as up after the reasons, latest first; `none`
where one came out of turn. -/
def upAfter : List ManifestReason → Option Bool
  | [] => some false
  | reason :: earlier => (upAfter earlier).bind fun up => follow up reason

/-- The reasons sent, latest first. -/
def reasons (s : Reporter) : List ManifestReason := s.puts.map fun put => put.2.reason

/-- When errors were reported, latest first. -/
def errorTimes (s : Reporter) : List Int :=
  (s.puts.filter fun put => put.2.reason = .error).map Prod.fst

/-- What every run keeps. -/
structure Sound (opts : ReporterOpts) (s : Reporter) : Prop where
  silent : opts.enabled = false → s.puts = [] ∧ s.running = false
  timed : if s.running then ∃ t, s.timer = some t ∧ s.timers = [t] else s.timers = []
  ordered : upAfter s.reasons = some s.running
  spaced : s.errorTimes.Pairwise fun later earlier : Int => earlier + opts.errorMinIntervalMs ≤ later
  latest : ∀ t ∈ s.errorTimes, t ≤ s.lastErrorAt
  plain : ∀ put ∈ s.puts, ∃ source, put.2 =
    buildManifest opts.engineVersion { host := .application, configSource := source } put.2.reason

variable {opts : ReporterOpts} {s : Reporter} {now : Int} {source : ConfigSource}

theorem Sound.initial : Sound opts {} where
  silent _ := ⟨rfl, rfl⟩
  timed := rfl
  ordered := rfl
  spaced := .nil
  latest _ member := absurd member List.not_mem_nil
  plain _ member := absurd member List.not_mem_nil

/-- A manifest is sent in turn. -/
theorem Sound.announce (sound : Sound opts s) {reason : ManifestReason} {running : Bool}
    {timer : Option Nat} {timers : List Nat} {timersSet : Nat} {lastErrorAt : Int}
    (turn : follow s.running reason = some running)
    (timed : if running then ∃ t, timer = some t ∧ timers = [t] else timers = [])
    (enabled : opts.enabled = false → running = false) (later : s.lastErrorAt ≤ lastErrorAt)
    (apart : reason = .error → lastErrorAt = now ∧ s.lastErrorAt + opts.errorMinIntervalMs ≤ now) :
    Sound opts ({ s with running, timer, timers, timersSet, lastErrorAt }.announce opts now source
      reason) := by
  unfold Reporter.announce
  split
  · rename_i on
    have errors : errorTimes { s with
        running, timer, timers, timersSet, lastErrorAt
        puts := (now, buildManifest opts.engineVersion { host := .application, configSource := source }
          reason) :: s.puts } = if reason = .error then now :: s.errorTimes else s.errorTimes := by
      unfold errorTimes
      rw [List.filter_cons]
      by_cases error : reason = .error
      · simp [error, buildManifest]
      · simp [error, buildManifest]
    refine {
      silent := fun off => absurd (on.symm.trans off) (by decide)
      timed
      ordered := ?_
      spaced := ?_
      latest := ?_
      plain := ?_ }
    · show (upAfter s.reasons).bind _ = _
      rw [sound.ordered]
      exact turn
    · rw [errors]
      split
      · rename_i error
        refine List.pairwise_cons.mpr ⟨fun t member => ?_, sound.spaced⟩
        have bound := sound.latest t member
        have gap := (apart error).2
        omega
      · exact sound.spaced
    · rw [errors]
      intro t member
      split at member
      · rename_i error
        rcases List.mem_cons.mp member with rfl | member
        · exact Int.le_of_eq (apart error).1.symm
        · exact Int.le_trans (sound.latest t member) later
      · exact Int.le_trans (sound.latest t member) later
    · rw [List.forall_mem_cons]
      exact ⟨⟨source, rfl⟩, sound.plain⟩
  · rename_i off
    have off' : opts.enabled = false := Bool.eq_false_iff.mpr off
    have down := enabled off'
    obtain ⟨none_, stopped⟩ := sound.silent off'
    exact {
      silent := fun _ => ⟨none_, down⟩
      timed
      ordered := by
        rw [down]
        exact stopped ▸ sound.ordered
      spaced := sound.spaced
      latest := fun t member => Int.le_trans (sound.latest t member) later
      plain := sound.plain }

theorem schedule_announce (s : Reporter) (reason : ManifestReason) :
    (s.announce opts now source reason).schedule = s.schedule.announce opts now source reason := by
  unfold Reporter.announce
  split
  · rfl
  · rfl

theorem Sound.start (sound : Sound opts s) : Sound opts (s.start opts now source) := by
  unfold Reporter.start
  split
  · exact sound
  · rename_i goes
    rw [Bool.or_eq_true, not_or, Bool.not_eq_true', Bool.not_eq_false, Bool.not_eq_true] at goes
    have idle : s.timers = [] := by
      have timed := sound.timed
      rw [goes.2] at timed
      exact timed
    rw [schedule_announce]
    refine sound.announce (by rw [goes.2]; rfl) ⟨s.timersSet, rfl, ?_⟩
      (fun off => absurd (goes.1.symm.trans off) (by decide)) (Int.le_refl _) (fun error => by cases error)
    rw [idle]

/-- Clearing the timer leaves none running. -/
theorem Sound.clearTimer (sound : Sound opts s) : s.clearTimer.timers = [] := by
  have timed := sound.timed
  unfold Reporter.clearTimer
  split at timed
  · obtain ⟨t, current, only⟩ := timed
    rw [current, only]
    simp
  · rw [timed]
    rfl

theorem Sound.stop (sound : Sound opts s) : Sound opts (s.stop opts now source) := by
  have cleared := sound.clearTimer
  unfold Reporter.stop
  dsimp only
  split
  · rename_i up
    have up' : s.running = true := up
    exact sound.announce (by rw [up']; rfl) cleared (fun _ => rfl) (Int.le_refl _)
      (fun error => by cases error)
  · rename_i down
    exact { sound with
      timed := by
        rw [if_neg down]
        exact cleared }

theorem Sound.configApplied (sound : Sound opts s) : Sound opts (s.configApplied opts now source) :=
  sound.announce rfl sound.timed (fun off => (sound.silent off).2) (Int.le_refl _)
    (fun error => by cases error)

theorem Sound.reportError (sound : Sound opts s) : Sound opts (s.reportError opts now source) := by
  unfold Reporter.reportError
  split
  · exact sound
  · refine sound.announce rfl sound.timed (fun off => (sound.silent off).2) (by omega) (fun _ => ⟨rfl, ?_⟩)
    omega

theorem Sound.fire (sound : Sound opts s) (timer : Nat) : Sound opts (s.fire opts timer now source) := by
  unfold Reporter.fire
  split
  · rename_i live
    have timed := sound.timed
    dsimp only
    split at timed
    · rename_i up
      obtain ⟨t, current, only⟩ := timed
      rw [only, List.mem_singleton] at live
      subst live
      rw [up, if_neg (by decide), schedule_announce, only]
      refine sound.announce (by rw [up]; rfl) (by simp) (fun off => ?_) (Int.le_refl _)
        (fun error => by cases error)
      exact absurd (up.symm.trans (sound.silent off).2) (by decide)
    · rw [timed] at live
      cases live
  · exact sound

theorem Sound.step (sound : Sound opts s) (a : Action) : Sound opts (s.step opts a) := by
  cases a with
  | start now source => exact sound.start
  | stop now source => exact sound.stop
  | configApplied now source => exact sound.configApplied
  | reportError now source => exact sound.reportError
  | fire timer now source => exact sound.fire timer

/-- In every run, whatever is called and whichever timer fires: a reporter that is
off sends nothing; at most one heartbeat timer runs, and only while the instance is up;
boot, heartbeats and shutdown come in turn; errors are reported at least the
interval apart; and a manifest says nothing but its reason and the source of the
configuration. -/
theorem reporter_in_turn (opts : ReporterOpts) (actions : List Action) :
    Sound opts ((machine opts).run actions) :=
  (machine opts).invariant (Sound opts) .initial (fun _ a sound => sound.step a) actions

end Reporter

end EndCloseRelay.App
