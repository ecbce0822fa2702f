import EndCloseRelay.Forward.Scheduling
import Mathlib.Algebra.BigOperators.Group.Finset.Basic
import Mathlib.Algebra.Order.BigOperators.Group.Finset
import Mathlib.Data.Finset.Card
import Mathlib.Data.Finset.Range

/-!
# No wake-up is lost

Over any interleaving of calls, signals, timers and the ends of cycles, a wake-up
leaves a drain in the chain that starts another cycle, and a `runOnce` comes to the
one that is its own.  How soon they do is counted in the turns of promises.
-/

namespace EndCloseRelay.Scheduling

open Interaction

section

variable {s s' : Scheduler} {n : Nat} {l : Link}

/-! ## The drain that tests the flag -/


/-- The action is the turn of a promise. -/
def Action.isTurn : Action → Bool
  | .begin _ | .finish .. => true
  | _ => false

/-- How many turns of a run got anything done. -/
def turns : Scheduler → List Action → Nat
  | _, [] => 0
  | s, a :: actions => (if a.isTurn ∧ step s a ≠ s then 1 else 0) + turns (step s a) actions

/-- How many cycles have started. -/
def cycles (s : Scheduler) : Nat := s.log.countP (· ≠ .woken)

/-- The promises up to one that are not settled. -/
def unsettled (s : Scheduler) (d : Nat) : Finset Nat :=
  (Finset.range (d + 1)).filter fun m => (s.chain[m]?).any fun l => !l.phase.settled

/-- A drain that will test a flag that is set. -/
structure Awaits (s : Scheduler) (d : Nat) : Prop where
  running : s.running
  requested : s.wakeRequested
  drain : ∃ l : Link, s.chain[d]? = some l ∧ l.body = .drain ∧ l.phase.settled = false

theorem mem_unsettled {d m : Nat} :
    m ∈ unsettled s d ↔ m ≤ d ∧ ∃ l : Link, s.chain[m]? = some l ∧ l.phase.settled = false := by
  unfold unsettled
  rw [Finset.mem_filter, Finset.mem_range, Nat.lt_succ_iff, Option.any_eq_true]
  simp only [Bool.not_eq_true']

/-- The turn of a promise starts a cycle, does nothing, or settles a promise
before the drain. -/
theorem awaits_turn {d : Nat} (awaits : Awaits s d) (turn : Turn s n s') :
    cycles s < cycles s' ∨ s' = s ∨
      (Awaits s' d ∧ cycles s' = cycles s ∧ (unsettled s' d).card < (unsettled s d).card) := by
  cases turn with
  | stall => exact .inr (.inl rfl)
  | starts =>
    refine .inl ?_
    show s.log.countP (· ≠ .woken) < (Event.cycle n :: s.log).countP (· ≠ .woken)
    rw [List.countP_cons_of_pos (by simp)]
    exact Nat.lt_succ_self _
  | @settles l phase here open_ due body =>
    obtain ⟨drain, there, isDrain, waits⟩ := awaits.drain
    have other : n ≠ d := by
      rintro rfl
      obtain rfl := Option.some.inj (here.symm.trans there)
      rcases body with ⟨-, swallow⟩ | ⟨-, -, off⟩ | ⟨-, one, -⟩
      · rw [isDrain] at swallow
        cases swallow
      · exact off ⟨awaits.requested, awaits.running⟩
      · rw [isDrain] at one
        cases one
    have before : n < d := by
      rcases Nat.lt_or_gt_of_ne other with before | behind
      · exact before
      · have settled := due d behind drain there
        rw [waits] at settled
        cases settled
    refine .inr (.inr ⟨⟨awaits.running, awaits.requested, drain, ?_, isDrain, waits⟩, rfl, ?_⟩)
    · rw [setPhase_chain, there, Option.map_some, if_neg other]
    · have settled : phase.settled := by
        rcases body with ⟨rfl, -⟩ | ⟨rfl, -⟩ | ⟨settled, -⟩
        · rfl
        · rfl
        · exact settled
      refine Finset.card_lt_card (Finset.ssubset_iff_of_subset ?_ |>.mpr ⟨n, ?_, ?_⟩)
      · intro m member
        obtain ⟨upTo, now, at_, open_'⟩ := mem_unsettled.mp member
        obtain ⟨was, at_', -, -, phaseNow⟩ := link_setPhase at_
        have apart : n ≠ m := by
          rintro rfl
          rw [phaseNow, if_pos rfl, settled] at open_'
          cases open_'
        rw [phaseNow, if_neg apart] at open_'
        exact mem_unsettled.mpr ⟨upTo, was, at_', open_'⟩
      · exact mem_unsettled.mpr ⟨Nat.le_of_lt before, l, here, open_⟩
      · intro member
        obtain ⟨-, now, at_, open_'⟩ := mem_unsettled.mp member
        obtain ⟨_, _, _, _, phaseNow⟩ := link_setPhase at_
        rw [phaseNow, if_pos rfl, settled] at open_'
        cases open_'

/-- What is asked for goes behind the drain. -/
theorem awaits_andThen {d : Nat} (body : Body) (awaits : Awaits s d) :
    Awaits (s.andThen body) d ∧ unsettled (s.andThen body) d = unsettled s d := by
  obtain ⟨drain, there, isDrain, waits⟩ := awaits.drain
  have inside := (List.getElem?_eq_some_iff.mp there).1
  have same : ∀ m ≤ d, (s.andThen body).chain[m]? = s.chain[m]? := fun m upTo => by
    rw [andThen_chain, if_neg (by omega)]
  refine ⟨⟨awaits.running, awaits.requested, drain, (same d (Nat.le_refl d)).trans there, isDrain, waits⟩, ?_⟩
  ext m
  rw [mem_unsettled, mem_unsettled]
  refine and_congr_right fun upTo => ?_
  rw [same m upTo]

theorem awaits_wake {d : Nat} (awaits : Awaits s d) :
    Awaits s.wake d ∧ cycles s.wake = cycles s ∧ unsettled s.wake d = unsettled s d := by
  have flagged : Awaits { s with log := .woken :: s.log, wakeRequested := true } d :=
    ⟨awaits.running, rfl, awaits.drain⟩
  have woken : s.wake =
      { s with log := .woken :: s.log, wakeRequested := true }.andThen .drain :=
    if_pos awaits.running
  obtain ⟨still, same⟩ := awaits_andThen .drain flagged
  rw [woken]
  exact ⟨still, List.countP_cons_of_neg (by simp), same⟩

/-- What a step other than `stop` makes of a drain that awaits its turn: a cycle
starts, or it still awaits it, and a turn that got anything done settled one of
the promises before it. -/
theorem awaits_step {a : Action} {d : Nat} (orderly : Orderly s) (awaits : Awaits s d)
    (kept : a ≠ .stop) :
    cycles s < cycles (step s a) ∨
      (Awaits (step s a) d ∧
        (unsettled (step s a) d).card + (if a.isTurn ∧ step s a ≠ s then 1 else 0) ≤
          (unsettled s d).card) := by
  have turned : ∀ {n}, Turn s n (step s a) → cycles s < cycles (step s a) ∨
      (Awaits (step s a) d ∧
        (unsettled (step s a) d).card + (if a.isTurn ∧ step s a ≠ s then 1 else 0) ≤
          (unsettled s d).card) := by
    intro n turn
    rcases awaits_turn awaits turn with starts | same | ⟨still, count, less⟩
    · exact .inl starts
    · rw [same, if_neg fun changed => changed.2 rfl]
      exact .inr ⟨awaits, Nat.le_refl _⟩
    · refine .inr ⟨still, ?_⟩
      split
      · exact less
      · exact Nat.le_of_lt less
  have asked : a.isTurn = false → Awaits (step s a) d ∧ unsettled (step s a) d = unsettled s d →
      Awaits (step s a) d ∧
        (unsettled (step s a) d).card + (if a.isTurn ∧ step s a ≠ s then 1 else 0) ≤
          (unsettled s d).card := by
    intro call still
    rw [call, if_neg fun changed => Bool.false_ne_true changed.1, still.2]
    exact ⟨still.1, Nat.le_refl _⟩
  have waked : ∀ on : Bool, Awaits (if on then s.wake else s) d ∧
      unsettled (if on then s.wake else s) d = unsettled s d := by
    intro on
    cases on with
    | true => exact ⟨(awaits_wake awaits).1, (awaits_wake awaits).2.2⟩
    | false => exact ⟨awaits, rfl⟩
  cases a with
  | start =>
    have same : step s .start = s := if_pos awaits.running
    exact .inr (asked rfl ⟨same.symm ▸ awaits, congrArg (unsettled · d) same⟩)
  | stop => exact absurd rfl kept
  | signal => exact .inr (asked rfl (waked s.listening))
  | poll => exact .inr (asked rfl (waked s.polling))
  | runOnce =>
    obtain ⟨once, sameOnce⟩ := awaits_andThen .once awaits
    obtain ⟨still, same⟩ := awaits_andThen .swallow once
    exact .inr (asked rfl ⟨still, same.trans sameOnce⟩)
  | begin n => exact turned (turn_begin orderly n)
  | finish n resolved => exact turned (turn_finish orderly n resolved)

theorem cycles_wake : cycles s.wake = cycles s := by
  have uncounted : cycles { s with log := .woken :: s.log } = cycles s :=
    List.countP_cons_of_neg (by simp)
  simp only [Scheduler.wake]
  split
  · exact uncounted
  · exact uncounted

theorem cycles_turn (turn : Turn s n s') : cycles s ≤ cycles s' := by
  cases turn with
  | stall => exact Nat.le_refl _
  | starts => exact List.Sublist.countP_le (List.sublist_cons_self _ _)
  | settles => exact Nat.le_refl _

theorem cycles_step (orderly : Orderly s) (a : Action) : cycles s ≤ cycles (step s a) := by
  have waked : ∀ on : Bool, cycles s ≤ cycles (if on then s.wake else s) := by
    intro on
    cases on with
    | true => exact Nat.le_of_eq cycles_wake.symm
    | false => exact Nat.le_refl _
  cases a with
  | start =>
    show cycles s ≤ cycles s.start
    unfold Scheduler.start
    split
    · exact Nat.le_refl _
    · exact Nat.le_of_eq (cycles_wake (s := { s with running := true, listening := true, polling := true })).symm
  | stop => exact Nat.le_refl _
  | signal => exact waked s.listening
  | poll => exact waked s.polling
  | runOnce => exact Nat.le_refl _
  | begin n => exact cycles_turn (turn_begin orderly n)
  | finish n resolved => exact cycles_turn (turn_finish orderly n resolved)

theorem cycles_run (orderly : Orderly s) (ended : Ended s) (more : List Action) :
    cycles s ≤ cycles (more.foldl step s) := by
  induction more generalizing s with
  | nil => exact Nat.le_refl _
  | cons a more ih =>
    obtain ⟨orderly', ended'⟩ := orderly_step a orderly ended
    exact Nat.le_trans (cycles_step orderly a) (ih orderly' ended')

/-- As long as nothing stops the loop, a cycle starts once the promises before the
drain have had their turns. -/
theorem awaits_run {more : List Action} {d : Nat} (orderly : Orderly s) (ended : Ended s)
    (awaits : Awaits s d) (kept : .stop ∉ more) (enough : (unsettled s d).card < turns s more) :
    cycles s < cycles (more.foldl step s) := by
  induction more generalizing s with
  | nil => exact absurd enough (Nat.not_lt_zero _)
  | cons a more ih =>
    obtain ⟨orderly', ended'⟩ := orderly_step a orderly ended
    have first : a ≠ .stop := fun stops => kept (stops ▸ List.mem_cons_self)
    have rest : .stop ∉ more := fun stops => kept (List.mem_cons_of_mem _ stops)
    have counts : turns s (a :: more) =
        (if a.isTurn ∧ step s a ≠ s then 1 else 0) + turns (step s a) more := rfl
    rcases awaits_step orderly awaits first with starts | ⟨still, less⟩
    · exact Nat.lt_of_lt_of_le starts (cycles_run orderly' ended' more)
    · exact Nat.lt_of_le_of_lt (cycles_step orderly a) (ih orderly' ended' still rest (by omega))

/-! ## Nothing stalls -/

theorem setPhase_ne {phase : Phase} (here : s.chain[n]? = some l) (other : l.phase ≠ phase) :
    s.setPhase n phase ≠ s := by
  intro same
  have there : (s.setPhase n phase).chain[n]? = some { l with phase } := by
    rw [setPhase_chain, here, Option.map_some, if_pos rfl]
  rw [same, here] at there
  exact other (congrArg Link.phase (Option.some.inj there))

theorem cycle_ne (flag : Bool) :
    { s.setPhase n .executing with wakeRequested := flag, log := .cycle n :: s.log } ≠ s := by
  intro same
  have longer : s.log.length + 1 = s.log.length := congrArg (fun t => t.log.length) same
  omega

theorem drainLoop_ne (here : s.chain[n]? = some l) (unsettled : l.phase.settled = false) :
    s.drainLoop n ≠ s := by
  unfold Scheduler.drainLoop
  split
  · exact cycle_ne _
  · refine setPhase_ne here fun done => ?_
    rw [done] at unsettled
    cases unsettled

/-- The first promise that is not settled gets on, when its turn comes or with the
cycle it is in. -/
theorem unstalled (orderly : Orderly s) (here : s.chain[n]? = some l)
    (open_ : l.phase.settled = false) :
    ∃ m ≤ n, step s (.begin m) ≠ s ∨ ∀ resolved, step s (.finish m resolved) ≠ s := by
  induction n using Nat.strong_induction_on generalizing l with
  | _ n ih =>
    by_cases earlier : ∃ m < n, ∃ before : Link, s.chain[m]? = some before ∧ before.phase.settled = false
    · obtain ⟨m, below, before, there, waits⟩ := earlier
      obtain ⟨k, upTo, gets⟩ := ih m below there waits
      exact ⟨k, by omega, gets⟩
    · refine ⟨n, Nat.le_refl n, ?_⟩
      cases phase : l.phase with
      | fulfilled =>
        rw [phase] at open_
        cases open_
      | rejected =>
        rw [phase] at open_
        cases open_
      | executing =>
        refine .inr fun resolved => ?_
        show s.finish n resolved ≠ s
        simp only [Scheduler.finish, here, phase, if_true]
        cases body : l.body with
        | drain => exact drainLoop_ne here open_
        | once =>
          refine setPhase_ne here ?_
          rw [phase]
          cases resolved <;> decide
        | swallow => exact absurd body ((orderly.sound n l here).2 phase)
      | waiting =>
        refine .inl ?_
        show s.begin n ≠ s
        cases n with
        | zero =>
          obtain ⟨root, first, done⟩ := orderly.root
          obtain rfl := Option.some.inj (first.symm.trans here)
          rw [done] at phase
          cases phase
        | succ n =>
          have inside := (List.getElem?_eq_some_iff.mp here).1
          obtain ⟨before, there⟩ : ∃ before, s.chain[n]? = some before :=
            ⟨s.chain[n], List.getElem?_eq_getElem (by omega)⟩
          have moved : ∀ {next : Phase}, next ≠ .waiting → s.setPhase (n + 1) next ≠ s := fun away =>
            setPhase_ne here fun same => away (same.symm.trans phase)
          simp only [Scheduler.begin, here, phase, if_true, orderly.linked n l here, there]
          cases done : before.phase with
          | fulfilled =>
            cases body : l.body with
            | drain => exact drainLoop_ne here open_
            | once => exact cycle_ne s.wakeRequested
            | swallow => exact moved (by decide)
          | rejected =>
            cases body : l.body with
            | drain => exact moved (by decide)
            | once => exact moved (by decide)
            | swallow => exact moved (by decide)
          | waiting => exact absurd ⟨n, Nat.lt_succ_self n, before, there, by rw [done]; rfl⟩ earlier
          | executing => exact absurd ⟨n, Nat.lt_succ_self n, before, there, by rw [done]; rfl⟩ earlier

/-! ## The cycle of a `runOnce` -/

/-- What a promise has still to do. -/
def Phase.weight : Phase → Nat
  | waiting => 2
  | executing => 1
  | fulfilled | rejected => 0

/-- What is left to do before a promise is settled, if no more is asked for. -/
def weight (s : Scheduler) (n : Nat) : Nat :=
  (if s.wakeRequested then 1 else 0) +
    ∑ m ∈ Finset.range (n + 1), (s.chain[m]?).elim 0 fun l => l.phase.weight

/-- The action can set the flag. -/
def Action.wakes : Action → Bool
  | .start | .signal | .poll => true
  | _ => false

theorem Phase.weight_pos {phase : Phase} (open_ : phase.settled = false) : 0 < phase.weight := by
  cases phase with
  | waiting => decide
  | executing => decide
  | fulfilled => cases open_
  | rejected => cases open_

theorem Phase.weight_settled {phase : Phase} (settled : phase.settled) : phase.weight = 0 := by
  cases phase with
  | waiting => cases settled
  | executing => cases settled
  | fulfilled => rfl
  | rejected => rfl

/-- A promise stays what it is, and settled once it is settled. -/
theorem link_step (a : Action) (orderly : Orderly s) (here : s.chain[n]? = some l) :
    ∃ now, (step s a).chain[n]? = some now ∧ now.body = l.body ∧
      (l.phase.settled → now.phase = l.phase) := by
  have inside := (List.getElem?_eq_some_iff.mp here).1
  have same : ∀ {t : Scheduler}, t.chain = s.chain → ∃ now : Link, t.chain[n]? = some now ∧
      now.body = l.body ∧ (l.phase.settled → now.phase = l.phase) := by
    intro t chain
    exact ⟨l, by rw [chain, here], rfl, fun _ => rfl⟩
  have grown : ∀ (body : Body) {t : Scheduler}, t.chain = s.chain → (t.andThen body).chain[n]? = some l := by
    intro body t chain
    rw [andThen_chain, chain, if_neg (Nat.ne_of_lt inside), here]
  have waked : ∀ {t : Scheduler}, t.chain = s.chain → ∃ now : Link, t.wake.chain[n]? = some now ∧
      now.body = l.body ∧ (l.phase.settled → now.phase = l.phase) := by
    intro t chain
    simp only [Scheduler.wake]
    split
    · exact ⟨l, grown _ chain, rfl, fun _ => rfl⟩
    · exact same chain
  have phased : ∀ {k : Nat} {was : Link} (phase : Phase), s.chain[k]? = some was →
      was.phase.settled = false → ∃ now : Link, (s.setPhase k phase).chain[n]? = some now ∧
        now.body = l.body ∧ (l.phase.settled → now.phase = l.phase) := by
    intro k was phase there open_
    refine ⟨_, by rw [setPhase_chain, here, Option.map_some], ?_⟩
    by_cases this : k = n
    · subst this
      obtain rfl := Option.some.inj (there.symm.trans here)
      simp [open_]
    · simp [this]
  have turned : ∀ {k t}, Turn s k t → ∃ now : Link, t.chain[n]? = some now ∧
      now.body = l.body ∧ (l.phase.settled → now.phase = l.phase) := by
    intro k t turn
    cases turn with
    | stall => exact same rfl
    | starts there open_ => exact phased .executing there open_
    | @settles was phase there open_ => exact phased phase there open_
  cases a with
  | start =>
    show ∃ now : Link, s.start.chain[n]? = some now ∧ now.body = l.body ∧
      (l.phase.settled → now.phase = l.phase)
    unfold Scheduler.start
    split
    · exact same rfl
    · exact waked rfl
  | stop => exact same rfl
  | signal =>
    cases on : s.listening with
    | true =>
      rw [show step s .signal = s.wake from if_pos on]
      exact waked rfl
    | false =>
      rw [show step s .signal = s from if_neg (by rw [on]; decide)]
      exact same rfl
  | poll =>
    cases on : s.polling with
    | true =>
      rw [show step s .poll = s.wake from if_pos on]
      exact waked rfl
    | false =>
      rw [show step s .poll = s from if_neg (by rw [on]; decide)]
      exact same rfl
  | runOnce =>
    have once := @grown .once s rfl
    refine ⟨l, ?_, rfl, fun _ => rfl⟩
    show ((s.andThen .once).andThen .swallow).chain[n]? = some l
    rw [andThen_chain, if_neg, once]
    have longer : (s.andThen .once).chain.length = s.chain.length + 1 := List.length_append
    omega
  | begin k => exact turned (turn_begin orderly k)
  | finish k resolved => exact turned (turn_finish orderly k resolved)

/-- What a promise's coming to a phase takes off the weight. -/
theorem setPhase_weight {k : Nat} (phase : Phase) (here : s.chain[k]? = some l) (upTo : k ≤ n) :
    (∑ m ∈ Finset.range (n + 1), ((s.setPhase k phase).chain[m]?).elim 0 fun l => l.phase.weight) +
        l.phase.weight =
      (∑ m ∈ Finset.range (n + 1), (s.chain[m]?).elim 0 fun l => l.phase.weight) + phase.weight := by
  have inside : k ∈ Finset.range (n + 1) := Finset.mem_range.mpr (by omega)
  rw [← Finset.add_sum_erase _ _ inside, ← Finset.add_sum_erase (Finset.range (n + 1)) _ inside]
  have there : (s.setPhase k phase).chain[k]? = some { l with phase } := by
    rw [setPhase_chain, here, Option.map_some, if_pos rfl]
  have others : ∀ m ∈ (Finset.range (n + 1)).erase k,
      ((s.setPhase k phase).chain[m]?).elim 0 (fun l => l.phase.weight) =
        (s.chain[m]?).elim 0 fun l => l.phase.weight := by
    intro m member
    have apart : k ≠ m := (Finset.ne_of_mem_erase member).symm
    rw [setPhase_chain]
    simp [apart]
  rw [Finset.sum_congr rfl others, there, here]
  simp only [Option.elim_some]
  omega

/-- A turn that gets anything done leaves less to do. -/
theorem weight_turn {k : Nat} (here : s.chain[n]? = some l) (open_ : l.phase.settled = false)
    (turn : Turn s k s') : s' = s ∨ weight s' n < weight s n := by
  have upTo : Due s k → k ≤ n := by
    intro due
    by_contra beyond
    have settled := due n (Nat.lt_of_not_le beyond) l here
    rw [open_] at settled
    cases settled
  cases turn with
  | stall => exact .inl rfl
  | @starts was flag there waits due body =>
    refine .inr ?_
    have less := setPhase_weight .executing there (upTo due)
    have pos := Phase.weight_pos waits
    show (if flag then 1 else 0) + _ < (if s.wakeRequested then 1 else 0) + _
    rcases body with ⟨-, on, -, rfl⟩ | ⟨-, waiting, rfl⟩
    · rw [if_pos on, if_neg Bool.false_ne_true]
      simp only [Phase.weight] at less pos ⊢
      omega
    · rw [waiting] at less
      simp only [Phase.weight] at less ⊢
      omega
  | @settles was phase there waits due body =>
    refine .inr ?_
    have less := setPhase_weight phase there (upTo due)
    have pos := Phase.weight_pos waits
    have settled : phase.settled := by
      rcases body with ⟨rfl, -⟩ | ⟨rfl, -⟩ | ⟨settled, -⟩
      · rfl
      · rfl
      · exact settled
    rw [Phase.weight_settled settled] at less
    show (if s.wakeRequested then 1 else 0) + _ < (if s.wakeRequested then 1 else 0) + _
    omega

/-- What goes behind a promise takes nothing off its weight and adds at most the flag. -/
theorem weight_same {t : Scheduler} (chain : ∀ m ≤ n, t.chain[m]? = s.chain[m]?) :
    weight t n ≤ weight s n + 1 ∧ (t.wakeRequested = s.wakeRequested → weight t n = weight s n) := by
  have sums : (∑ m ∈ Finset.range (n + 1), (t.chain[m]?).elim 0 fun l => l.phase.weight) =
      ∑ m ∈ Finset.range (n + 1), (s.chain[m]?).elim 0 fun l => l.phase.weight :=
    Finset.sum_congr rfl fun m member => by
      rw [chain m (Nat.lt_succ_iff.mp (Finset.mem_range.mp member))]
  unfold weight
  rw [sums]
  refine ⟨?_, fun flag => by rw [flag]⟩
  split <;> split <;> omega

theorem andThen_below {body : Body} (here : s.chain[n]? = some l) :
    ∀ m ≤ n, (s.andThen body).chain[m]? = s.chain[m]? := by
  intro m upTo
  have inside := (List.getElem?_eq_some_iff.mp here).1
  rw [andThen_chain, if_neg (by omega)]

theorem wake_below (here : s.chain[n]? = some l) : ∀ m ≤ n, s.wake.chain[m]? = s.chain[m]? := by
  simp only [Scheduler.wake]
  split
  · exact andThen_below here
  · exact fun _ _ => rfl

theorem weight_step (a : Action) (orderly : Orderly s) (here : s.chain[n]? = some l)
    (open_ : l.phase.settled = false) :
    weight (step s a) n + (if a.isTurn ∧ step s a ≠ s then 1 else 0) ≤
      weight s n + (if a.wakes then 1 else 0) := by
  have turned : ∀ {k}, Turn s k (step s a) →
      weight (step s a) n + (if a.isTurn ∧ step s a ≠ s then 1 else 0) ≤ weight s n := by
    intro k turn
    rcases weight_turn here open_ turn with same | less
    · rw [same, if_neg fun changed => changed.2 rfl]
      exact Nat.le_refl _
    · split
      · exact less
      · exact Nat.le_of_lt less
  have called : ∀ {t : Scheduler}, a.isTurn = false → (∀ m ≤ n, t.chain[m]? = s.chain[m]?) →
      weight t n + (if a.isTurn ∧ step s a ≠ s then 1 else 0) ≤ weight s n + 1 := by
    intro t call chain
    rw [call, if_neg fun changed => Bool.false_ne_true changed.1]
    exact (weight_same chain).1
  have unflagged : ∀ {t : Scheduler}, a.isTurn = false → t.wakeRequested = s.wakeRequested →
      (∀ m ≤ n, t.chain[m]? = s.chain[m]?) →
      weight t n + (if a.isTurn ∧ step s a ≠ s then 1 else 0) ≤ weight s n := by
    intro t call flag chain
    rw [call, if_neg fun changed => Bool.false_ne_true changed.1]
    exact Nat.le_of_eq ((weight_same chain).2 flag)
  have waked : ∀ on : Bool, ∀ m ≤ n, (if on then s.wake else s).chain[m]? = s.chain[m]? := by
    intro on
    cases on with
    | true => exact wake_below here
    | false => exact fun _ _ => rfl
  cases a with
  | start =>
    refine called rfl ?_
    show ∀ m ≤ n, s.start.chain[m]? = s.chain[m]?
    unfold Scheduler.start
    split
    · exact fun _ _ => rfl
    · exact wake_below (s := { s with running := true, listening := true, polling := true }) here
  | stop => exact unflagged rfl rfl fun _ _ => rfl
  | signal => exact called rfl (waked s.listening)
  | poll => exact called rfl (waked s.polling)
  | runOnce =>
    refine unflagged rfl rfl fun m upTo => ?_
    have once : (s.andThen .once).chain[n]? = some l :=
      (andThen_below here n (Nat.le_refl n)).trans here
    exact (andThen_below once m upTo).trans (andThen_below here m upTo)
  | begin k => exact turned (turn_begin orderly k)
  | finish k resolved => exact turned (turn_finish orderly k resolved)

theorem link_run (more : List Action) (orderly : Orderly s) (ended : Ended s)
    (here : s.chain[n]? = some l) :
    ∃ now, (more.foldl step s).chain[n]? = some now ∧ now.body = l.body ∧
      (l.phase.settled → now.phase = l.phase) := by
  induction more generalizing s l with
  | nil => exact ⟨l, here, rfl, fun _ => rfl⟩
  | cons a more ih =>
    obtain ⟨orderly', ended'⟩ := orderly_step a orderly ended
    obtain ⟨next, there, body, kept⟩ := link_step a orderly here
    obtain ⟨now, at_, body', kept'⟩ := ih orderly' ended' there
    refine ⟨now, at_, body'.trans body, fun settled => ?_⟩
    rw [← kept settled]
    exact kept' (by rwa [kept settled])

/-- A promise is settled once the turns of a run outnumber its wake-ups by the weight. -/
theorem settled_run {more : List Action} (orderly : Orderly s) (ended : Ended s)
    (here : s.chain[n]? = some l)
    (enough : weight s n + more.countP (·.wakes) < turns s more) :
    ∃ now, (more.foldl step s).chain[n]? = some now ∧ now.body = l.body ∧ now.phase.settled := by
  induction more generalizing s l with
  | nil => exact absurd enough (Nat.not_lt_zero _)
  | cons a more ih =>
    cases settled : l.phase.settled with
    | true =>
      obtain ⟨now, there, body, kept⟩ := link_run (a :: more) orderly ended here
      exact ⟨now, there, body, by rw [kept settled, settled]⟩
    | false =>
      obtain ⟨orderly', ended'⟩ := orderly_step a orderly ended
      obtain ⟨next, there, body, -⟩ := link_step a orderly here
      have less := weight_step a orderly here settled
      have counts : turns s (a :: more) =
          (if a.isTurn ∧ step s a ≠ s then 1 else 0) + turns (step s a) more := rfl
      rw [List.countP_cons] at enough
      obtain ⟨now, at_, body', settled'⟩ := ih orderly' ended' there (by omega)
      exact ⟨now, at_, body'.trans body, settled'⟩

end

/-! ## Every interleaving -/

/-- The turn of a promise, or the end of the cycle it is in, gets something done. -/
def GetsOn (s : Scheduler) (n : Nat) : Prop :=
  step s (.begin n) ≠ s ∨ ∀ resolved, step s (.finish n resolved) ≠ s

/-- The flag is set and a drain that will test it waits its turn or is in its loop;
a promise up to it gets on, and as long as nothing calls `stop` another cycle starts
once the promises up to it have had their turns. -/
structure Answered (s : Scheduler) : Prop where
  requested : s.wakeRequested
  drain : ∃ (d : Nat) (l : Link), s.chain[d]? = some l ∧ l.body = .drain ∧ l.phase.settled = false ∧
    (∃ m ≤ d, GetsOn s m) ∧
    ∀ more : List Action, .stop ∉ more → (unsettled s d).card < turns s more →
      cycles s < cycles (more.foldl step s)

section

variable {s : Scheduler} {n : Nat} {l : Link}

theorem answered (orderly : Orderly s) (ended : Ended s) (running : s.running)
    (woken : wokenSince s.log) : Answered s := by
  have requested := orderly.flagged running woken
  obtain ⟨d, drain, there, isDrain, waits⟩ := orderly.queued running requested
  exact ⟨requested, d, drain, there, isDrain, waits, unstalled orderly there waits, fun more kept enough =>
    awaits_run orderly ended ⟨running, requested, drain, there, isDrain, waits⟩ kept enough⟩

end

/-- Wake-ups during a cycle are answered together, by one more cycle. -/
example : (machine.run [.start, .begin 1, .signal, .signal, .finish 1 true]).log =
    [.cycle 1, .woken, .woken, .cycle 1, .woken] := by decide

end EndCloseRelay.Scheduling
