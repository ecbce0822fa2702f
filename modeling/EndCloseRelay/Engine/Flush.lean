import EndCloseRelay.Engine.System
import EndCloseRelay.Forward.Changes
import EndCloseRelay.Forward.Pacing

/-!
# Flushing

`flush` of `createRelay`: cycles until nothing deliverable remains or the time is
up.  What it reports of its last cycle and of all of them is so
(`flush_reports`), and on a clock that moves on from cycle to cycle it ends
(`flush_ends`).
-/

namespace EndCloseRelay

open Interaction

/-- Why `flush` stopped early. -/
inductive FlushReason
  | timeout
  | paused
  | unroutable
deriving DecidableEq

/-- `FlushResult`. -/
structure FlushResult where
  delivered : Nat := 0
  retried : Nat := 0
  parked : Nat := 0
  drained : Bool := false
  reason : Option FlushReason := none
deriving DecidableEq

/-- `FLUSH_POLL_MIN_MS`. -/
def flushPollMinMs : Nat := 50

/-- `FLUSH_POLL_MAX_MS`. -/
def flushPollMaxMs : Nat := 1000

/-- `FAR_FUTURE`, the last millisecond of the year 9999. -/
def farFuture : Int := 253402300799999

/-- The totals after one cycle more. -/
def FlushResult.add (totals : FlushResult) (c : CycleSummary) : FlushResult :=
  { totals with
    delivered := totals.delivered + c.delivered
    retried := totals.retried + c.retried
    parked := totals.parked + c.parked }

/-- `new Map(c.skipped…).get(routeId)`. -/
def CycleSummary.skippedFor (c : CycleSummary) (routeId : String) : Option SkipReason :=
  c.skipped.reverse.lookup routeId

namespace Dispatcher

/-- The loop of `flush`; `none` is a loop that has not ended yet. -/
def flushRounds (deps : DispatcherDeps) (deadline : Int) :
    Nat → FlushResult → Nat → Body (Option FlushResult)
  | 0, _, _ => pure none
  | fuel + 1, totals, pollMs => do
    let c ← runOnce deps
    let totals := totals.add c
    if c.halted then pure (some { totals with reason := some .paused })
    else do
      let now ← clock
      let remaining : Int := deadline - now
      if remaining ≤ 0 then pure (some { totals with reason := some .timeout })
      else if 0 < c.delivered + c.retried + c.parked then flushRounds deps deadline fuel totals pollMs
      else do
        let backlog : List String ← store (.routesWithDueEvents farFuture)
        if backlog.isEmpty then pure (some { totals with drained := true })
        else if backlog.all fun r => (c.skippedFor r).isSome then
          let allPaused := backlog.all fun r => c.skippedFor r == some .paused
          pure (some { totals with reason := some (if allPaused then .paused else .unroutable) })
        else do
          ask (.sleep (min (pollMs : Int) remaining).toNat)
          flushRounds deps deadline fuel totals (min (pollMs * 2) flushPollMaxMs)

/-- `flush({ timeoutMs })`. -/
def flush (deps : DispatcherDeps) (timeoutMs : Int) (fuel : Nat) : Body (Option FlushResult) := do
  let startedAt ← clock
  flushRounds deps (startedAt + timeoutMs) fuel {} flushPollMinMs

end Dispatcher

/-! ## What is told of results -/

/-- How many rows an event tells the result of. -/
def RelayEvent.forwarded (result : ForwardResult) : RelayEvent → Nat
  | .forward _ told count => if told = result then count else 0
  | _ => 0

/-- How many rows the hooks were told the result of. -/
def forwarded (result : ForwardResult) (hooks : List RelayEvent) : Nat :=
  (hooks.map (RelayEvent.forwarded result)).sum

/-- The total of a result. -/
def FlushResult.count (totals : FlushResult) : ForwardResult → Nat
  | .delivered => totals.delivered
  | .retried => totals.retried
  | .parked => totals.parked

theorem forwarded_append (result : ForwardResult) (first second : List RelayEvent) :
    forwarded result (first ++ second) = forwarded result first + forwarded result second := by
  unfold forwarded
  rw [List.map_append, List.sum_append]

/-- Events that are no results count for nothing. -/
theorem forwarded_none {result : ForwardResult} {events : List RelayEvent}
    (none_ : ∀ event ∈ events, event.forwarded result = 0) : forwarded result events = 0 :=
  List.sum_eq_zero fun n member => by
    obtain ⟨event, listed, rfl⟩ := List.mem_map.mp member
    exact none_ event listed

namespace Dispatcher

/-- The hooks told since tell what the summary counts. -/
def Tallied (hooks : List RelayEvent) (s : State) : Prop :=
  ∃ told, s.hooks = hooks ++ told ∧ ∀ result, s.summary.count result = forwarded result told

section

variable {hooks : List RelayEvent} {s s' : State} {calls : Calls}

/-- A result told of and counted. -/
theorem Tallied.tell {result : ForwardResult} {count : Nat} {told : List RelayEvent}
    (tallied : Tallied hooks s) (hooks_ : s'.hooks = s.hooks ++ told)
    (counts : ∀ other, s'.summary.count other = s.summary.count other + if other = result then count else 0)
    (tells : ∀ other, forwarded other told = if other = result then count else 0) : Tallied hooks s' := by
  obtain ⟨before, same, totals⟩ := tallied
  refine ⟨before ++ told, ?_, fun other => ?_⟩
  · rw [hooks_, same, List.append_assoc]
  · rw [counts, totals, forwarded_append, tells]

/-- What neither tells nor counts results. -/
theorem Tallied.plain {told : List RelayEvent} (tallied : Tallied hooks s) (hooks_ : s'.hooks = s.hooks ++ told)
    (counts : ∀ other, s'.summary.count other = s.summary.count other)
    (tells : ∀ other, forwarded other told = 0) : Tallied hooks s' := by
  obtain ⟨before, same, totals⟩ := tallied
  refine ⟨before ++ told, ?_, fun other => ?_⟩
  · rw [hooks_, same, List.append_assoc]
  · rw [counts, totals, forwarded_append, tells, Nat.add_zero]

/-- Each change counts what it tells of. -/
theorem Tallied.change (tallied : Tallied hooks s) (change : Change calls s s') : Tallied hooks s' := by
  have first : ∀ (events : List RelayEvent) (routeId : String) (result : ForwardResult) (count : Nat),
      (∀ event ∈ events, ∀ other, event.forwarded other = 0) →
      ∀ other, forwarded other (.forward routeId result count :: events) =
        if other = result then count else 0 := by
    intro events routeId result count none_ other
    show (if result = other then count else 0) + forwarded other events = _
    rw [forwarded_none fun event listed => none_ event listed other, Nat.add_zero]
    exact if_congr eq_comm rfl rfl
  cases change with
  | @emit event plain =>
    refine tallied.plain (show (s.emit event).hooks = s.hooks ++ [event] from rfl) (fun _ => rfl) fun other => ?_
    cases event <;> first | rfl | cases plain
  | @delivered events batch deliveredAt _ _ =>
    cases events with
    | nil => exact tallied
    | cons e events =>
      refine tallied.tell rfl (fun other => by cases other <;> rfl) (first _ _ _ _ fun event listed other => ?_)
      obtain ⟨e, -, member⟩ := List.mem_flatMap.mp listed
      rcases List.mem_cons.mp member with rfl | member
      · rfl
      · rw [List.mem_singleton.mp member]
        rfl
  | @parked events batch reason _ _ =>
    cases events with
    | nil => exact tallied
    | cons e events =>
      refine tallied.tell rfl (fun other => by cases other <;> rfl) (first _ _ _ _ fun event listed other => ?_)
      obtain ⟨e, -, rfl⟩ := List.mem_map.mp listed
      rfl
  | retried =>
    refine tallied.tell rfl (fun other => by cases other <;> rfl) (first _ _ _ _ fun event listed other => ?_)
    obtain ⟨e, -, rfl⟩ := List.mem_map.mp listed
    rfl
  | _ => exact tallied.plain (List.append_nil _).symm (fun other => by cases other <;> rfl) fun _ => rfl

/-! ## One cycle -/

/-- The killswitch was read. -/
def isKillswitchRead : Exchange Op.Answer → Bool
  | ⟨.getKillswitch, _⟩ => true
  | _ => false

/-- A route was read to be as a cycle skips it for. -/
def SkipRead (calls : Calls) (routeId : String) : SkipReason → Prop
  | .paused => ⟨.isRoutePaused routeId, .ok true⟩ ∈ calls
  | .unknownRoute => ⟨.getRoute routeId, .ok none⟩ ∈ calls

/-- The killswitch was read to be on. -/
def HaltRead (calls : Calls) : Prop :=
  ∃ killswitch, killswitch ≠ .none ∧ ⟨.getKillswitch, .ok killswitch⟩ ∈ calls

/-- What a cycle that has read the killswitch so many times has told and noted. -/
structure Noted (hooks : List RelayEvent) (reads : Nat) (calls : Calls) (s : State) : Prop where
  reads : calls.countP isKillswitchRead = reads
  tallied : Tallied hooks s
  skipped : ∀ entry ∈ s.summary.skipped, SkipRead calls entry.1 entry.2
  halted : s.summary.halted → HaltRead calls

theorem SkipRead.cons {routeId : String} {reason : SkipReason} (x : Exchange Op.Answer)
    (read : SkipRead calls routeId reason) : SkipRead (x :: calls) routeId reason := by
  cases reason <;> exact List.mem_cons_of_mem _ read

theorem HaltRead.cons (x : Exchange Op.Answer) (read : HaltRead calls) : HaltRead (x :: calls) := by
  obtain ⟨killswitch, on, member⟩ := read
  exact ⟨killswitch, on, List.mem_cons_of_mem _ member⟩

theorem Noted.call {reads : Nat} (noted : Noted hooks reads calls s) (x : Exchange Op.Answer) :
    Noted hooks (reads + if isKillswitchRead x then 1 else 0) (x :: calls) s where
  reads := by rw [List.countP_cons, noted.reads]
  tallied := noted.tallied
  skipped entry listed := (noted.skipped entry listed).cons x
  halted on := (noted.halted on).cons x

theorem Noted.change {reads : Nat} (noted : Noted hooks reads calls s) (change : Change calls s s') :
    Noted hooks reads calls s' := by
  have tallied := noted.tallied.change change
  cases change with
  | halted read on => exact ⟨noted.reads, tallied, noted.skipped, fun _ => ⟨_, on, read⟩⟩
  | unknown read =>
    refine ⟨noted.reads, tallied, fun entry listed => ?_, noted.halted⟩
    rcases List.mem_append.mp listed with listed | last
    · exact noted.skipped entry listed
    · rw [List.mem_singleton.mp last]
      exact read
  | paused read =>
    refine ⟨noted.reads, tallied, fun entry listed => ?_, noted.halted⟩
    rcases List.mem_append.mp listed with listed | last
    · exact noted.skipped entry listed
    · rw [List.mem_singleton.mp last]
      exact read
  | @delivered events => cases events <;> exact ⟨noted.reads, tallied, noted.skipped, noted.halted⟩
  | @parked events => cases events <;> exact ⟨noted.reads, tallied, noted.skipped, noted.halted⟩
  | _ => exact ⟨noted.reads, tallied, noted.skipped, noted.halted⟩

theorem noted_keeper (hooks : List RelayEvent) (reads : Nat) :
    Keeper (.free Op Op.Answer) (Noted hooks reads) where
  free _ _ := trivial
  call calls s op answer noted _ other := by
    have called := noted.call ⟨op, answer⟩
    have unread : isKillswitchRead ⟨op, answer⟩ = false := by
      cases op <;> first | rfl | exact absurd rfl other
    rw [unread] at called
    exact called
  change _ _ _ noted change := noted.change change

/-- A cycle that ends has read the killswitch once, and notes what it read. -/
theorem runOnce_noted (deps : DispatcherDeps) (s : State) :
    (runOnce deps).Sat (.free Op Op.Answer) [] s fun calls s' r =>
      ∀ c, r = .ok c → Noted s.hooks 1 calls s' ∧ s'.summary = c := by
  refine (runOnce_kept deps (noted_keeper s.hooks 0) (noted_keeper s.hooks 1) (fun now _ => ?_)
    fun calls s answer noted _ => noted.call ⟨.getKillswitch, answer⟩).mono fun _ _ _ ends => ends.1
  refine ⟨rfl, ⟨[], (List.append_nil _).symm, fun result => by cases result <;> rfl⟩, ?_, ?_⟩
  · intro entry listed
    cases listed
  · intro on
    cases on

/-! ## What `flush` reports -/

/-- The last call asked for any backlog, and was answered so. -/
def BacklogRead (calls : Calls) (backlog : List String) : Prop :=
  calls.head? = some ⟨.store (.routesWithDueEvents farFuture), .ok backlog⟩

/-- What a reason to stop, or none, says of the calls and of those since the last
cycle began. -/
def Why (deadline : Int) (calls recent : Calls) : Option FlushReason → Prop
  | none => BacklogRead calls []
  | some .timeout => ∃ now, calls.head? = some ⟨.now, now⟩ ∧ deadline ≤ now
  | some .paused => HaltRead recent ∨ ∃ backlog, backlog ≠ [] ∧ BacklogRead calls backlog ∧
      ∀ routeId ∈ backlog, SkipRead recent routeId .paused
  | some .unroutable => ∃ backlog, BacklogRead calls backlog ∧
      (∀ routeId ∈ backlog, ∃ reason, SkipRead recent routeId reason) ∧
      ∃ routeId ∈ backlog, SkipRead recent routeId .unknownRoute

/-- What a result says of the hooks told since `flush` began, of the calls, and
of those since the last cycle began. -/
structure Reports (told : List RelayEvent) (deadline : Int) (calls recent : Calls)
    (result : FlushResult) : Prop where
  totals : ∀ kind, result.count kind = forwarded kind told
  once : recent <+: calls ∧ recent.countP isKillswitchRead = 1
  drained : result.drained ↔ result.reason = none
  why : Why deadline calls recent result.reason

/-- Why a route was skipped was read in the cycle. -/
theorem Noted.skippedFor {reads : Nat} (noted : Noted hooks reads calls s) {routeId : String} {reason : SkipReason}
    (skipped : s.summary.skippedFor routeId = some reason) : SkipRead calls routeId reason := by
  unfold CycleSummary.skippedFor at skipped
  obtain ⟨front, back, split, -⟩ := List.lookup_eq_some_iff.mp skipped
  have member : (routeId, reason) ∈ s.summary.skipped.reverse := by
    rw [split]
    simp
  exact noted.skipped _ (List.mem_reverse.mp member)

theorem FlushResult.count_add (totals : FlushResult) (c : CycleSummary) (kind : ForwardResult) :
    (totals.add c).count kind = totals.count kind + c.count kind := by
  cases kind <;> rfl

/-- Totals of the hooks told since, of a `flush` that has not stopped. -/
structure Running (hooks : List RelayEvent) (s : State) (totals : FlushResult) : Prop where
  told : ∃ told, s.hooks = hooks ++ told ∧ ∀ kind, totals.count kind = forwarded kind told
  undrained : totals.drained = false
  unstopped : totals.reason = none

theorem Running.cycle {totals : FlushResult} (running : Running hooks s totals)
    (tallied : Tallied s.hooks s') : Running hooks s' (totals.add s'.summary) := by
  obtain ⟨before, same, totals_⟩ := running.told
  obtain ⟨told, same', counts⟩ := tallied
  refine ⟨⟨before ++ told, ?_, fun kind => ?_⟩, running.undrained, running.unstopped⟩
  · rw [same', same, List.append_assoc]
  · rw [FlushResult.count_add, totals_, counts, forwarded_append]

/-- What a loop that ends has told and reports. -/
def Reported (hooks : List RelayEvent) (deadline : Int) (calls : Calls) (s : State)
    (r : Except RelayError (Option FlushResult)) : Prop :=
  ∀ result, r = .ok (some result) →
    ∃ told recent, s.hooks = hooks ++ told ∧ Reports told deadline calls recent result

theorem Reported.error {deadline : Int} {err : RelayError} : Reported hooks deadline calls s (.error err) :=
  fun _ same => by cases same

/-- Skip reasons read of a whole backlog. -/
theorem Noted.backlog {reads : Nat} (noted : Noted hooks reads calls s) {backlog : List String}
    (all : (backlog.all fun r => (s.summary.skippedFor r).isSome) = true) {deadline : Int}
    {calls' recent : Calls} (read : BacklogRead calls' backlog) (some_ : backlog ≠ [])
    (within : ∀ {routeId reason}, SkipRead calls routeId reason → SkipRead recent routeId reason) :
    Why deadline calls' recent
      (some (if backlog.all fun r => s.summary.skippedFor r == some .paused then .paused else .unroutable)) := by
  have each : ∀ routeId ∈ backlog, ∃ reason, s.summary.skippedFor routeId = some reason := by
    intro routeId listed
    exact Option.isSome_iff_exists.mp (List.all_eq_true.mp all routeId listed)
  by_cases paused : (backlog.all fun r => s.summary.skippedFor r == some .paused) = true
  · rw [if_pos paused]
    refine .inr ⟨backlog, some_, read, fun routeId listed => within (noted.skippedFor ?_)⟩
    exact beq_iff_eq.mp (List.all_eq_true.mp paused routeId listed)
  · rw [if_neg paused]
    refine ⟨backlog, read, fun routeId listed => ?_, ?_⟩
    · obtain ⟨reason, skipped⟩ := each routeId listed
      exact ⟨reason, within (noted.skippedFor skipped)⟩
    · obtain ⟨routeId, listed, other⟩ : ∃ routeId ∈ backlog,
          ¬ (s.summary.skippedFor routeId == some .paused) = true := by
        by_contra none_
        refine paused (List.all_eq_true.mpr fun routeId listed => ?_)
        by_contra other
        exact none_ ⟨routeId, listed, other⟩
      obtain ⟨reason, skipped⟩ := each routeId listed
      refine ⟨routeId, listed, within (noted.skippedFor ?_)⟩
      rw [skipped]
      cases reason with
      | paused => exact absurd (beq_iff_eq.mpr skipped) other
      | unknownRoute => rfl

/-- The calls of a cycle with later ones among which the killswitch is not read. -/
theorem recent_prefix {recent : Calls} (later earlier : Calls) (one : recent.countP isKillswitchRead = 1)
    (unread : later.countP isKillswitchRead = 0) :
    (later ++ recent <+: later ++ (recent ++ earlier)) ∧ (later ++ recent).countP isKillswitchRead = 1 := by
  refine ⟨?_, ?_⟩
  · rw [← List.append_assoc]
    exact List.prefix_append _ _
  · rw [List.countP_append, unread, one]

theorem flushRounds_reported (deps : DispatcherDeps) (deadline : Int) {fuel : Nat} {totals : FlushResult}
    {pollMs : Nat} (running : Running hooks s totals) :
    (flushRounds deps deadline fuel totals pollMs).Sat (.free Op Op.Answer) calls s
      (Reported hooks deadline) := by
  induction fuel generalizing totals pollMs calls s with
  | zero => exact Method.Sat.pure fun _ same => by cases same
  | succ fuel ih =>
    have cycled := Program.Sat.after (runOnce_noted deps s) calls
    refine Method.Sat.bind (fun calls' s' r => ∃ recent, calls' = recent ++ calls ∧
      ∀ c, r = .ok c → Noted s.hooks 1 recent s' ∧ s'.summary = c) cycled ?_ fun _ _ _ _ => .error
    rintro calls' s' c ⟨recent, rfl, notes⟩
    obtain ⟨noted, rfl⟩ := notes c rfl
    have running' := running.cycle noted.tallied
    obtain ⟨told, hooks_, counts⟩ := running'.told
    have stopped : ∀ {reason : FlushReason},
        (totals.add s'.summary).drained = true ↔ some reason = none :=
      iff_of_false (by rw [running'.undrained]; exact Bool.false_ne_true) fun same => by cases same
    dsimp only
    split
    · rename_i halted
      refine Method.Sat.pure fun result same => ?_
      cases same
      exact ⟨told, recent, hooks_, counts, recent_prefix [] calls noted.reads rfl, stopped,
        .inl (noted.halted halted)⟩
    · refine Method.sat_call_bind trivial fun now _ => ?_
      have asked := recent_prefix [⟨.now, now⟩] calls noted.reads rfl
      split
      · rename_i late
        refine Method.Sat.pure fun result same => ?_
        cases same
        exact ⟨told, _, hooks_, counts, asked, stopped, now, rfl, Int.le_of_sub_nonpos late⟩
      · split
        · exact ih running'
        · refine sat_storeCall_bind trivial (fun backlog _ => ?_) fun _ _ => .error
          have read := recent_prefix [⟨.store (.routesWithDueEvents farFuture), .ok backlog⟩, ⟨.now, now⟩] calls
            noted.reads rfl
          split
          · rename_i none_
            refine Method.Sat.pure fun result same => ?_
            cases same
            refine ⟨told, _, hooks_, counts, read, iff_of_true rfl running'.unstopped, ?_⟩
            show Why deadline _ _ (totals.add s'.summary).reason
            rw [running'.unstopped]
            exact congrArg (fun backlog : List String =>
              some (⟨.store (.routesWithDueEvents farFuture), .ok backlog⟩ : Exchange Op.Answer))
              (List.isEmpty_iff.mp none_)
          · rename_i some_
            split
            · rename_i all
              refine Method.Sat.pure fun result same => ?_
              cases same
              exact ⟨told, _, hooks_, counts, read, stopped, noted.backlog all rfl
                (fun same => some_ (List.isEmpty_iff.mpr same)) fun read => (read.cons _).cons _⟩
            · exact Method.sat_call_bind trivial fun _ _ => ih running'

/-- Whatever the world answers, `flush` reports of all its cycles what the hooks
were told of them, and of its last cycle what was read in it. -/
theorem flush_reports (deps : DispatcherDeps) (timeoutMs : Int) (fuel : Nat) (s : State) :
    (flush deps timeoutMs fuel).Sat (.free Op Op.Answer) [] s fun calls s' r =>
      ∀ result, r = .ok (some result) → ∃ (startedAt : Int) (told : List RelayEvent) (recent : Calls),
        [⟨.now, startedAt⟩] <:+ calls ∧ s'.hooks = s.hooks ++ told ∧
          Reports told (startedAt + timeoutMs) calls recent result := by
  refine Method.sat_call_bind trivial fun (startedAt : Int) _ => ?_
  have begun : Running s.hooks s {} :=
    ⟨⟨[], (List.append_nil _).symm, fun kind => by cases kind <;> rfl⟩, rfl, rfl⟩
  have rounds := @flushRounds_reported s.hooks s [⟨.now, startedAt⟩] deps (startedAt + timeoutMs) fuel {}
    flushPollMinMs begun
  refine Program.Sat.mono (Program.Sat.suffix rounds) fun calls out reported result same => ?_
  obtain ⟨told, recent, hooks_, reports⟩ := reported.1 result same
  exact ⟨startedAt, told, recent, reported.2, hooks_, reports⟩

/-! ## Time -/

/-- The killswitch was read since the clock was. -/
def readSince : Calls → Bool
  | [] | ⟨.now, _⟩ :: _ => false
  | ⟨.getKillswitch, _⟩ :: _ => true
  | _ :: calls => readSince calls

/-- The clock does not go back, and moves on while the killswitch is read, which a
cycle does once. -/
def ticking : Discipline Op Op.Answer where
  allowed _ _ := True
  admits calls
    | .now, (now : Int) => lastClock calls ≤ now ∧ (readSince calls → lastClock calls < now)
    | _, _ => True

theorem lastClock_le {op : Op} {answer : op.Answer} (admitted : ticking.admits calls op answer) :
    lastClock calls ≤ lastClock (⟨op, answer⟩ :: calls) := by
  cases op with
  | now => exact admitted.1
  | _ => exact Int.le_refl _

/-- At the next reading the clock is past a moment. -/
def Passing (moment : Int) (calls : Calls) : Prop :=
  moment ≤ lastClock calls ∧ (readSince calls ∨ moment < lastClock calls)

theorem Passing.call {moment : Int} {op : Op} {answer : op.Answer} (passing : Passing moment calls)
    (admitted : ticking.admits calls op answer) : Passing moment (⟨op, answer⟩ :: calls) := by
  refine ⟨Int.le_trans passing.1 (lastClock_le admitted), ?_⟩
  cases op with
  | now =>
    refine .inr ?_
    rcases passing.2 with read | past
    · exact Int.lt_of_le_of_lt passing.1 (admitted.2 read)
    · exact Int.lt_of_lt_of_le past admitted.1
  | getKillswitch => exact .inl rfl
  | _ => exact passing.2

theorem ticking_keeper (moment : Int) : Keeper ticking fun calls _ => moment ≤ lastClock calls where
  free _ _ := trivial
  call _ _ _ _ kept admitted _ := Int.le_trans kept (lastClock_le admitted)
  change _ _ _ kept _ := kept

theorem passing_keeper (moment : Int) : Keeper ticking fun calls _ => Passing moment calls where
  free _ _ := trivial
  call _ _ _ _ passing admitted _ := passing.call admitted
  change _ _ _ kept _ := kept

/-- A round of `flush` takes time, so there are no more rounds than milliseconds left. -/
theorem flushRounds_ends (deps : DispatcherDeps) (deadline : Int) {fuel : Nat} {totals : FlushResult}
    {pollMs : Nat} (some_ : 0 < fuel) (enough : deadline - lastClock calls ≤ fuel) :
    (flushRounds deps deadline fuel totals pollMs).Sat ticking calls s fun _ _ r => r ≠ .ok none := by
  have failed : ∀ {err : RelayError}, (.error err : Except RelayError (Option FlushResult)) ≠ .ok none :=
    fun same => by cases same
  have returned : ∀ {result : FlushResult},
      (.ok (some result) : Except RelayError (Option FlushResult)) ≠ .ok none :=
    fun same => by cases same
  induction fuel generalizing totals pollMs calls s with
  | zero => exact absurd some_ (Nat.lt_irrefl 0)
  | succ fuel ih =>
    have cycled : (runOnce deps).Sat ticking calls s (Ends _ _) :=
      runOnce_kept deps (ticking_keeper (lastClock calls)) (passing_keeper (lastClock calls))
        (fun now admitted => lastClock_le admitted) fun calls s answer kept admitted =>
          ⟨Int.le_trans kept (lastClock_le admitted), .inl rfl⟩
    refine Method.Sat.bind _ cycled (fun calls' s' c ends => ?_) fun _ _ _ _ => failed
    have passing : Passing (lastClock calls) calls' := (ends.1 c rfl).1
    dsimp only
    split
    · exact Method.Sat.pure returned
    · refine Method.sat_call_bind trivial fun (now : Int) admitted => ?_
      have moved : lastClock calls < now := by
        have past := (passing.call admitted).2
        rcases past with read | past
        · cases read
        · exact past
      split
      · exact Method.Sat.pure returned
      · rename_i early
        have left : deadline - now ≤ fuel := by
          have enough' : deadline - lastClock calls ≤ fuel + 1 := by exact_mod_cast enough
          omega
        have more : 0 < fuel := by omega
        split
        · exact ih more left
        · refine sat_storeCall_bind trivial (fun backlog _ => ?_) fun _ _ => failed
          split
          · exact Method.Sat.pure returned
          · split
            · exact Method.Sat.pure returned
            · exact Method.sat_call_bind trivial fun _ _ => ih more left

/-- On a clock that moves on from cycle to cycle, `flush` ends: it has made no more
cycles than it had milliseconds, but one at least. -/
theorem flush_ends (deps : DispatcherDeps) (timeoutMs : Int) {fuel : Nat} (s : State)
    (enough : timeoutMs ≤ fuel) (some_ : 0 < fuel) :
    (flush deps timeoutMs fuel).Sat ticking [] s fun _ _ r => r ≠ .ok none := by
  refine Method.sat_call_bind trivial fun (startedAt : Int) _ => ?_
  refine flushRounds_ends deps _ some_ ?_
  show startedAt + timeoutMs - startedAt ≤ fuel
  omega

theorem flush_ends_sample :
    (flush (System.sampleDeployment.dispatcher "a") 30000 30000).Sat ticking []
      (.initial (System.sampleDeployment.dispatcher "a")) fun _ _ r => r ≠ .ok none :=
  flush_ends (System.sampleDeployment.dispatcher "a") 30000 _ (by decide) (by decide)

end

end Dispatcher

end EndCloseRelay
