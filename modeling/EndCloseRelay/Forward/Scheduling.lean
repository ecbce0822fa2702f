import EndCloseRelay.Interaction.Machine
import Mathlib.Data.List.Basic

/-!
# When cycles run

`start`, `stop`, `wake` and `runOnce` of the dispatcher.  They share a chain of
promises, `inFlight`: each of them puts what it wants to run behind all that was
asked for before.  A wake-up sets a flag, which the drain loop tests and clears.
The logger is taken not to throw, so that reporting an error is no step here.
-/

namespace EndCloseRelay.Scheduling

open Interaction

/-! ## Promises -/

/-- What `then` is given: the drain loop of `wake`, the cycle of `runOnce`, or
the handlers that swallow its outcome. -/
inductive Body
  | drain
  | once
  | swallow
deriving DecidableEq

/-- How far a promise made by `then` has come; `executing` is in a cycle. -/
inductive Phase
  | waiting
  | executing
  | fulfilled
  | rejected
deriving DecidableEq

/-- The promise is settled. -/
def Phase.settled : Phase → Bool
  | fulfilled | rejected => true
  | waiting | executing => false

/-- A promise made by `then`, and the promise it waits for. -/
structure Link where
  after : Nat
  body : Body
  phase : Phase := .waiting
deriving DecidableEq

/-- What happens to a dispatcher, latest first in its log. -/
inductive Event
  | woken
  | cycle (n : Nat)
deriving DecidableEq

/-! ## The dispatcher -/

/-- The fields of a `Dispatcher` that scheduling goes by.  Promises are known by
their place in the chain, which begins with `Promise.resolve()`. -/
structure Scheduler where
  running : Bool := false
  wakeRequested : Bool := false
  listening : Bool := false
  polling : Bool := false
  chain : List Link := [{ after := 0, body := .swallow, phase := .fulfilled }]
  inFlight : Nat := 0
  log : List Event := []
deriving DecidableEq

namespace Scheduler

/-- `this.inFlight = this.inFlight.then(body)`. -/
def andThen (s : Scheduler) (body : Body) : Scheduler :=
  { s with
    chain := s.chain ++ [{ after := s.inFlight, body }]
    inFlight := s.chain.length }

/-- `wake()`. -/
def wake (s : Scheduler) : Scheduler :=
  let s := { s with log := .woken :: s.log }
  if s.running then { s with wakeRequested := true }.andThen .drain else s

/-- `start()`. -/
def start (s : Scheduler) : Scheduler :=
  if s.running then s
  else { s with running := true, listening := true, polling := true }.wake

/-- `stop()`, up to its awaits. -/
def stop (s : Scheduler) : Scheduler :=
  { s with running := false, listening := false, polling := false }

/-- `runOnce()`. -/
def runOnce (s : Scheduler) : Scheduler := (s.andThen .once).andThen .swallow

/-- A promise comes to a phase. -/
def setPhase (s : Scheduler) (n : Nat) (phase : Phase) : Scheduler :=
  { s with chain := s.chain.modify n fun l => { l with phase } }

/-- The test of the drain loop, and what it leads to. -/
def drainLoop (s : Scheduler) (n : Nat) : Scheduler :=
  if s.wakeRequested && s.running then
    { s.setPhase n .executing with wakeRequested := false, log := .cycle n :: s.log }
  else s.setPhase n .fulfilled

/-- What a promise does when the one it waits for has been fulfilled. -/
def onFulfilled (s : Scheduler) (n : Nat) : Body → Scheduler
  | .drain => s.drainLoop n
  | .once => { s.setPhase n .executing with log := .cycle n :: s.log }
  | .swallow => s.setPhase n .fulfilled

/-- What it does when that one has been rejected: only `swallow` handles it. -/
def onRejected (s : Scheduler) (n : Nat) : Body → Scheduler
  | .drain | .once => s.setPhase n .rejected
  | .swallow => s.setPhase n .fulfilled

/-- The turn of a promise that is still waiting. -/
def begin (s : Scheduler) (n : Nat) : Scheduler :=
  match s.chain[n]? with
  | none => s
  | some link =>
    if link.phase = .waiting then
      match s.chain[link.after]? with
      | none => s
      | some before =>
        match before.phase with
        | .fulfilled => s.onFulfilled n link.body
        | .rejected => s.onRejected n link.body
        | .waiting | .executing => s
    else s

/-- The cycle a promise is in resolves or rejects.  The drain loop reports an
error and goes on. -/
def finish (s : Scheduler) (n : Nat) (resolved : Bool) : Scheduler :=
  match s.chain[n]? with
  | none => s
  | some link =>
    if link.phase = .executing then
      match link.body with
      | .drain => s.drainLoop n
      | .once => s.setPhase n (if resolved then .fulfilled else .rejected)
      | .swallow => s
    else s

end Scheduler

/-- What can happen: a call, a signal from the ingest path, the poll timer, or
the turn of a promise. -/
inductive Action
  | start
  | stop
  | signal
  | poll
  | runOnce
  | begin (n : Nat)
  | finish (n : Nat) (resolved : Bool)
deriving DecidableEq

def step (s : Scheduler) : Action → Scheduler
  | .start => s.start
  | .stop => s.stop
  | .signal => if s.listening then s.wake else s
  | .poll => if s.polling then s.wake else s
  | .runOnce => s.runOnce
  | .begin n => s.begin n
  | .finish n resolved => s.finish n resolved

/-- A dispatcher, from its construction on. -/
def machine : Machine Scheduler Action where
  init := {}
  step := step

/-- A wake happened after the most recent cycle started. -/
def wokenSince : List Event → Bool
  | .woken :: _ => true
  | _ => false

/-! ## The invariant -/

/-- Promises are settled one after the other, the one after a `runOnce` takes its
outcome whatever it is, and a wake-up leaves the flag set and a drain to test it. -/
structure Orderly (s : Scheduler) : Prop where
  root : ∃ l : Link, s.chain[0]? = some l ∧ l.phase = .fulfilled
  linked : ∀ (n : Nat) (l : Link), s.chain[n + 1]? = some l → l.after = n
  last : s.chain.length = s.inFlight + 1
  ordered : ∀ (m n : Nat) (before l : Link), m < n → s.chain[m]? = some before → s.chain[n]? = some l →
    l.phase ≠ .waiting → before.phase.settled
  swallowed : ∀ (n : Nat) (l next : Link), s.chain[n]? = some l → l.body = .once →
    s.chain[n + 1]? = some next → next.body = .swallow
  sound : ∀ (n : Nat) (l : Link), s.chain[n]? = some l →
    (l.phase = .rejected → l.body = .once) ∧ (l.phase = .executing → l.body ≠ .swallow)
  counted : ∀ (n : Nat) (l : Link), s.chain[n]? = some l → l.body = .once →
    s.log.count (.cycle n) = if l.phase = .waiting then 0 else 1
  fresh : ∀ n, s.chain.length ≤ n → s.log.count (.cycle n) = 0
  flagged : s.running → wokenSince s.log → s.wakeRequested
  queued : s.running → s.wakeRequested →
    ∃ (n : Nat) (l : Link), s.chain[n]? = some l ∧ l.body = .drain ∧ l.phase.settled = false
  timed : s.listening = s.running ∧ s.polling = s.running

/-- Everything before a promise is settled. -/
def Due (s : Scheduler) (n : Nat) : Prop :=
  ∀ m < n, ∀ before : Link, s.chain[m]? = some before → before.phase.settled

/-- What the turn of a promise can do: nothing, start a cycle, or settle it. -/
inductive Turn (s : Scheduler) (n : Nat) : Scheduler → Prop
  | stall : Turn s n s
  | starts {l flag} (here : s.chain[n]? = some l) (unsettled : l.phase.settled = false)
      (due : Due s n)
      (body : (l.body = .drain ∧ s.wakeRequested ∧ s.running ∧ flag = false) ∨
        (l.body = .once ∧ l.phase = .waiting ∧ flag = s.wakeRequested)) :
      Turn s n { s.setPhase n .executing with wakeRequested := flag, log := .cycle n :: s.log }
  | settles {l phase} (here : s.chain[n]? = some l) (unsettled : l.phase.settled = false)
      (due : Due s n)
      (body : (phase = .fulfilled ∧ l.body = .swallow) ∨
        (phase = .fulfilled ∧ l.body = .drain ∧ ¬ (s.wakeRequested ∧ s.running)) ∨
        (phase.settled ∧ l.body = .once ∧ l.phase = .executing)) :
      Turn s n (s.setPhase n phase)

section

variable {s s' : Scheduler} {n : Nat} {l : Link}

/-- What stands in the chain after a promise came to a phase. -/
theorem setPhase_chain (n : Nat) (phase : Phase) (m : Nat) :
    (s.setPhase n phase).chain[m]? =
      (s.chain[m]?).map fun l => if n = m then { l with phase } else l := by
  show (s.chain.modify n fun l => { l with phase })[m]? = _
  rw [List.getElem?_modify]
  by_cases same : n = m
  · simp [same]
  · simp [same]

/-! ## The turn of a promise -/

theorem turn_drainLoop (here : s.chain[n]? = some l) (unsettled : l.phase.settled = false)
    (due : Due s n) (body : l.body = .drain) : Turn s n (s.drainLoop n) := by
  unfold Scheduler.drainLoop
  split
  · rename_i on
    rw [Bool.and_eq_true] at on
    exact .starts here unsettled due (.inl ⟨body, on.1, on.2, rfl⟩)
  · rename_i off
    rw [Bool.and_eq_true] at off
    exact .settles here unsettled due (.inr (.inl ⟨rfl, body, off⟩))

theorem turn_begin (orderly : Orderly s) (n : Nat) : Turn s n (s.begin n) := by
  unfold Scheduler.begin
  split
  · exact .stall
  · rename_i link here
    split
    · rename_i waits
      have unsettled : link.phase.settled = false := by
        rw [waits]
        rfl
      split
      · exact .stall
      · rename_i before there
        cases n with
        | zero =>
          obtain ⟨root, first, done⟩ := orderly.root
          obtain rfl := Option.some.inj (first.symm.trans here)
          rw [waits] at done
          cases done
        | succ n =>
          rw [orderly.linked n link here] at there
          have due : before.phase.settled → Due s (n + 1) := by
            intro settled m below other at_
            rcases Nat.lt_succ_iff_lt_or_eq.mp below with lower | rfl
            · refine orderly.ordered m n other before lower at_ there ?_
              intro waiting
              rw [waiting] at settled
              cases settled
            · obtain rfl := Option.some.inj (there.symm.trans at_)
              exact settled
          split
          · rename_i fulfilled
            have due := due (by rw [fulfilled]; rfl)
            cases body : link.body with
            | drain => exact turn_drainLoop here unsettled due body
            | once => exact .starts here unsettled due (.inr ⟨body, waits, rfl⟩)
            | swallow => exact .settles here unsettled due (.inl ⟨rfl, body⟩)
          · rename_i rejected
            have due := due (by rw [rejected]; rfl)
            have one := (orderly.sound n before there).1 rejected
            have body := orderly.swallowed n before link there one here
            rw [body]
            exact .settles here unsettled due (.inl ⟨rfl, body⟩)
          · exact .stall
          · exact .stall
    · exact .stall

theorem turn_finish (orderly : Orderly s) (n : Nat) (resolved : Bool) :
    Turn s n (s.finish n resolved) := by
  unfold Scheduler.finish
  split
  · exact .stall
  · rename_i link here
    split
    · rename_i executes
      have unsettled : link.phase.settled = false := by
        rw [executes]
        rfl
      have due : Due s n := by
        intro m below before at_
        refine orderly.ordered m n before link below at_ here ?_
        rw [executes]
        decide
      cases body : link.body with
      | drain => exact turn_drainLoop here unsettled due body
      | once =>
        refine .settles here unsettled due (.inr (.inr ⟨?_, body, executes⟩))
        cases resolved <;> rfl
      | swallow => exact .stall
    · exact .stall

/-- A link after a promise came to a phase: the promise itself, or another one as it was. -/
theorem link_setPhase {phase : Phase} {m : Nat} {now : Link}
    (there : (s.setPhase n phase).chain[m]? = some now) :
    ∃ was, s.chain[m]? = some was ∧ now.after = was.after ∧ now.body = was.body ∧
      now.phase = if n = m then phase else was.phase := by
  rw [setPhase_chain] at there
  obtain ⟨was, before, rfl⟩ := Option.map_eq_some_iff.mp there
  refine ⟨was, before, ?_⟩
  by_cases same : n = m
  · simp [same]
  · simp [same]

/-- Settling a promise, or starting a cycle in it, keeps the chain in order; what
it does to the flag and the log is to be seen to. -/
theorem Orderly.phase {phase : Phase} {flag : Bool} {log : List Event} (orderly : Orderly s)
    (here : s.chain[n]? = some l) (unsettled : l.phase.settled = false) (due : Due s n)
    (proper : phase ≠ .waiting ∧ (phase = .rejected → l.body = .once) ∧
      (phase = .executing → l.body ≠ .swallow))
    (counted : l.body = .once → log.count (.cycle n) = 1)
    (others : ∀ m, m ≠ n → log.count (.cycle m) = s.log.count (.cycle m))
    (flagged : s.running → wokenSince log → flag)
    (queued : s.running → flag → s.wakeRequested ∧ (phase.settled = false ∨ l.body ≠ .drain)) :
    Orderly { s.setPhase n phase with wakeRequested := flag, log } where
  root := by
    obtain ⟨root, first, done⟩ := orderly.root
    have other : n ≠ 0 := by
      rintro rfl
      obtain rfl := Option.some.inj (first.symm.trans here)
      rw [done] at unsettled
      cases unsettled
    refine ⟨root, ?_, done⟩
    show (s.setPhase n phase).chain[0]? = some root
    rw [setPhase_chain, first, Option.map_some, if_neg other]
  linked := by
    intro m now there
    obtain ⟨was, before, after, -, -⟩ := link_setPhase there
    rw [after]
    exact orderly.linked m was before
  last := by
    show (s.chain.modify n _).length = _
    rw [List.length_modify]
    exact orderly.last
  ordered := by
    intro m k before now below at_ there ahead
    obtain ⟨wasBefore, atWas, -, -, phaseBefore⟩ := link_setPhase at_
    obtain ⟨was, thereWas, -, -, phaseNow⟩ := link_setPhase there
    have other : n ≠ m := by
      rintro rfl
      rw [if_neg (Nat.ne_of_lt below)] at phaseNow
      have settled := orderly.ordered n k l was below here thereWas (phaseNow ▸ ahead)
      rw [unsettled] at settled
      cases settled
    rw [phaseBefore, if_neg other]
    rcases eq_or_ne n k with rfl | apart
    · exact due m below wasBefore atWas
    · rw [if_neg apart] at phaseNow
      exact orderly.ordered m k wasBefore was below atWas thereWas (phaseNow ▸ ahead)
  swallowed := by
    intro m now next there one after
    obtain ⟨was, before, -, body, -⟩ := link_setPhase there
    obtain ⟨wasNext, beforeNext, -, bodyNext, -⟩ := link_setPhase after
    rw [bodyNext]
    exact orderly.swallowed m was wasNext before (body ▸ one) beforeNext
  sound := by
    intro m now there
    obtain ⟨was, before, -, body, phaseNow⟩ := link_setPhase there
    rcases eq_or_ne n m with rfl | apart
    · obtain rfl := Option.some.inj (here.symm.trans before)
      rw [if_pos rfl] at phaseNow
      rw [phaseNow, body]
      exact proper.2
    · rw [if_neg apart] at phaseNow
      rw [phaseNow, body]
      exact orderly.sound m was before
  counted := by
    intro m now there one
    obtain ⟨was, before, -, body, phaseNow⟩ := link_setPhase there
    rcases eq_or_ne n m with rfl | apart
    · obtain rfl := Option.some.inj (here.symm.trans before)
      rw [if_pos rfl] at phaseNow
      rw [phaseNow, if_neg proper.1]
      exact counted (body ▸ one)
    · rw [if_neg apart] at phaseNow
      rw [phaseNow, ← orderly.counted m was before (body ▸ one)]
      exact others m apart.symm
  fresh := by
    intro m beyond
    have old : s.chain.length ≤ m := by
      have same : (s.chain.modify n fun l => { l with phase }).length ≤ m := beyond
      rwa [List.length_modify] at same
    have below : n < s.chain.length := (List.getElem?_eq_some_iff.mp here).1
    show log.count (.cycle m) = 0
    rw [others m (by omega)]
    exact orderly.fresh m old
  flagged := flagged
  queued := by
    intro running on
    obtain ⟨requested, keeps⟩ := queued running on
    obtain ⟨m, drain, there, body, open_⟩ := orderly.queued running requested
    refine ⟨m, if n = m then { drain with phase } else drain, ?_, ?_, ?_⟩
    · show (s.setPhase n phase).chain[m]? = _
      rw [setPhase_chain, there, Option.map_some]
    · split <;> exact body
    · split
      · rename_i same
        subst same
        obtain rfl := Option.some.inj (here.symm.trans there)
        rcases keeps with keeps | keeps
        · exact keeps
        · exact absurd body keeps
      · exact open_
  timed := orderly.timed

theorem Orderly.turn (orderly : Orderly s) (turn : Turn s n s') : Orderly s' := by
  cases turn with
  | stall => exact orderly
  | @starts l flag here unsettled due body =>
    refine orderly.phase here unsettled due ⟨by decide, (fun rejected => by cases rejected), fun _ swallow => ?_⟩
      (fun one => ?_) (fun m apart => ?_) (fun _ woken => by cases woken) fun _ on => ?_
    · rcases body with ⟨drain, -⟩ | ⟨one, -⟩
      · rw [swallow] at drain
        cases drain
      · rw [swallow] at one
        cases one
    · rcases body with ⟨drain, -⟩ | ⟨-, waits, -⟩
      · rw [one] at drain
        cases drain
      · rw [List.count_cons_self, orderly.counted n l here one, if_pos waits]
    · exact List.count_cons_of_ne (fun same => apart (Event.cycle.inj same).symm)
    · rcases body with ⟨-, -, -, off⟩ | ⟨one, -, same⟩
      · rw [off] at on
        cases on
      · exact ⟨same ▸ on, .inl rfl⟩
  | @settles l phase here unsettled due body =>
    have settled : phase.settled := by
      rcases body with ⟨rfl, -⟩ | ⟨rfl, -⟩ | ⟨settled, -⟩
      · rfl
      · rfl
      · exact settled
    refine orderly.phase here unsettled due ⟨?_, fun rejected => ?_, fun executes => ?_⟩
      (fun one => ?_) (fun _ _ => rfl) orderly.flagged fun running on => ?_
    · rintro rfl
      cases settled
    · rcases body with ⟨fulfilled, -⟩ | ⟨fulfilled, -⟩ | ⟨-, one, -⟩
      · rw [rejected] at fulfilled
        cases fulfilled
      · rw [rejected] at fulfilled
        cases fulfilled
      · exact one
    · rw [executes] at settled
      cases settled
    · rcases body with ⟨-, swallow⟩ | ⟨-, drain, -⟩ | ⟨-, -, executes⟩
      · rw [one] at swallow
        cases swallow
      · rw [one] at drain
        cases drain
      · rw [orderly.counted n l here one, executes]
        rfl
    · refine ⟨on, .inr fun drain => ?_⟩
      rcases body with ⟨-, swallow⟩ | ⟨-, -, off⟩ | ⟨-, one, -⟩
      · rw [drain] at swallow
        cases swallow
      · exact off ⟨on, running⟩
      · rw [drain] at one
        cases one

/-! ## What is asked for -/

/-- What stands in the chain after `then`. -/
theorem andThen_chain (s : Scheduler) (body : Body) (m : Nat) :
    (s.andThen body).chain[m]? = if m = s.chain.length then some { after := s.inFlight, body }
      else s.chain[m]? := by
  show (s.chain ++ [{ after := s.inFlight, body }])[m]? = _
  rw [List.getElem?_append]
  by_cases below : m < s.chain.length
  · rw [if_pos below, if_neg (Nat.ne_of_lt below)]
  · rw [if_neg below]
    by_cases same : m = s.chain.length
    · rw [if_pos same, same, Nat.sub_self]
      rfl
    · rw [if_neg same, List.getElem?_eq_none (Nat.le_of_not_lt below), List.getElem?_eq_none]
      simp only [List.length_singleton]
      omega

/-- A link after `then`: the new one, or one that was there. -/
theorem link_andThen {body : Body} {m : Nat} {now : Link} (there : (s.andThen body).chain[m]? = some now) :
    (m = s.chain.length ∧ now = { after := s.inFlight, body }) ∨
      (m < s.chain.length ∧ s.chain[m]? = some now) := by
  rw [andThen_chain] at there
  by_cases same : m = s.chain.length
  · rw [if_pos same] at there
    exact .inl ⟨same, (Option.some.inj there).symm⟩
  · rw [if_neg same] at there
    exact .inr ⟨(List.getElem?_eq_some_iff.mp there).1, there⟩

/-- `then` keeps the chain in order; only `swallow` goes behind a `runOnce`. -/
theorem Orderly.andThen (body : Body) (orderly : Orderly s)
    (behind : ∀ l : Link, s.chain[s.inFlight]? = some l → l.body = .once → body = .swallow) :
    Orderly (s.andThen body) where
  root := by
    obtain ⟨root, first, done⟩ := orderly.root
    have below := (List.getElem?_eq_some_iff.mp first).1
    exact ⟨root, by rw [andThen_chain, if_neg (Nat.ne_of_lt below), first], done⟩
  linked := by
    intro m now there
    rcases link_andThen there with ⟨new, rfl⟩ | ⟨-, old⟩
    · have last := orderly.last
      show s.inFlight = m
      omega
    · exact orderly.linked m now old
  last := by
    show (s.chain ++ [_]).length = s.chain.length + 1
    rw [List.length_append]
    rfl
  ordered := by
    intro m k before now below at_ there ahead
    rcases link_andThen there with ⟨-, rfl⟩ | ⟨inside, old⟩
    · exact absurd rfl ahead
    · rcases link_andThen at_ with ⟨new, -⟩ | ⟨-, oldBefore⟩
      · omega
      · exact orderly.ordered m k before now below oldBefore old ahead
  swallowed := by
    intro m now next there one after
    rcases link_andThen after with ⟨new, rfl⟩ | ⟨inside, oldNext⟩
    · have last := orderly.last
      obtain rfl : m = s.inFlight := by omega
      rcases link_andThen there with ⟨new, -⟩ | ⟨-, old⟩
      · omega
      · exact behind now old one
    · rcases link_andThen there with ⟨new, -⟩ | ⟨-, old⟩
      · omega
      · exact orderly.swallowed m now next old one oldNext
  sound := by
    intro m now there
    rcases link_andThen there with ⟨-, rfl⟩ | ⟨-, old⟩
    · exact ⟨(fun rejected => by cases rejected), fun executes => by cases executes⟩
    · exact orderly.sound m now old
  counted := by
    intro m now there one
    rcases link_andThen there with ⟨rfl, rfl⟩ | ⟨-, old⟩
    · exact orderly.fresh _ (Nat.le_refl _)
    · exact orderly.counted m now old one
  fresh := by
    intro m beyond
    have longer : s.chain.length + 1 ≤ m := by
      have same : (s.chain ++ [_]).length ≤ m := beyond
      rwa [List.length_append] at same
    exact orderly.fresh m (by omega)
  flagged := orderly.flagged
  queued := by
    intro running on
    obtain ⟨m, drain, there, waits⟩ := orderly.queued running on
    have below := (List.getElem?_eq_some_iff.mp there).1
    exact ⟨m, drain, by rw [andThen_chain, if_neg (Nat.ne_of_lt below), there], waits⟩
  timed := orderly.timed

/-- The fields but the chain can change as far as the flag stays answered for. -/
theorem Orderly.restate {running flag : Bool} {log : List Event} (orderly : Orderly s)
    (counts : ∀ n, log.count (.cycle n) = s.log.count (.cycle n))
    (flagged : running → wokenSince log → flag)
    (queued : running → flag → ∃ (n : Nat) (l : Link), s.chain[n]? = some l ∧ l.body = .drain ∧
      l.phase.settled = false) :
    Orderly { s with running, listening := running, polling := running, wakeRequested := flag, log } where
  root := orderly.root
  linked := orderly.linked
  last := orderly.last
  ordered := orderly.ordered
  swallowed := orderly.swallowed
  sound := orderly.sound
  counted n l there one := (counts n).trans (orderly.counted n l there one)
  fresh n beyond := (counts n).trans (orderly.fresh n beyond)
  flagged := flagged
  queued := queued
  timed := ⟨rfl, rfl⟩

/-- The latest promise is not a `runOnce` itself. -/
def Ended (s : Scheduler) : Prop :=
  ∀ l : Link, s.chain[s.inFlight]? = some l → l.body ≠ .once

theorem ended_andThen {body : Body} (other : body ≠ .once) : Ended (s.andThen body) := by
  intro l there
  rcases link_andThen there with ⟨-, rfl⟩ | ⟨below, -⟩
  · exact other
  · exact absurd below (Nat.lt_irrefl _)

theorem ended_turn (ended : Ended s) (turn : Turn s n s') : Ended s' := by
  cases turn with
  | stall => exact ended
  | starts =>
    intro l there
    obtain ⟨was, before, -, body, -⟩ := link_setPhase there
    rw [body]
    exact ended was before
  | settles =>
    intro l there
    obtain ⟨was, before, -, body, -⟩ := link_setPhase there
    rw [body]
    exact ended was before

/-- A wake of a dispatcher that runs from then on. -/
theorem orderly_wakes (orderly : Orderly s) (ended : Ended s) :
    Orderly { s.andThen .drain with
      running := true, listening := true, polling := true, wakeRequested := true,
      log := .woken :: s.log } := by
  have grown : Orderly (s.andThen .drain) :=
    orderly.andThen _ fun l there one => absurd one (ended l there)
  refine grown.restate (fun n => List.count_cons_of_ne (by simp)) (fun _ _ => rfl) fun _ _ => ?_
  exact ⟨s.chain.length, _, by rw [andThen_chain, if_pos rfl], rfl, rfl⟩

theorem orderly_wake (orderly : Orderly s) (ended : Ended s) : Orderly s.wake ∧ Ended s.wake := by
  obtain ⟨running, wakeRequested, listening, polling, chain, inFlight, log⟩ := s
  have timed := orderly.timed
  simp only at timed
  obtain ⟨rfl, rfl⟩ := timed
  cases polling with
  | true => exact ⟨orderly_wakes orderly ended, ended_andThen (by decide)⟩
  | false =>
    refine ⟨orderly.restate (fun n => List.count_cons_of_ne (by simp)) (fun on => ?_) fun on => ?_, ended⟩
    · cases on
    · cases on

theorem orderly_step (a : Action) (orderly : Orderly s) (ended : Ended s) :
    Orderly (step s a) ∧ Ended (step s a) := by
  have turned : ∀ {n s'}, Turn s n s' → Orderly s' ∧ Ended s' := fun turn =>
    ⟨orderly.turn turn, ended_turn ended turn⟩
  cases a with
  | start =>
    show Orderly s.start ∧ Ended s.start
    unfold Scheduler.start
    split
    · exact ⟨orderly, ended⟩
    · exact ⟨orderly_wakes orderly ended, ended_andThen (by decide)⟩
  | stop =>
    refine ⟨orderly.restate (fun _ => rfl) (fun on => ?_) fun on => ?_, ended⟩
    · cases on
    · cases on
  | signal =>
    show Orderly (if s.listening then s.wake else s) ∧ Ended (if s.listening then s.wake else s)
    split
    · exact orderly_wake orderly ended
    · exact ⟨orderly, ended⟩
  | poll =>
    show Orderly (if s.polling then s.wake else s) ∧ Ended (if s.polling then s.wake else s)
    split
    · exact orderly_wake orderly ended
    · exact ⟨orderly, ended⟩
  | runOnce =>
    have grown := orderly.andThen .once fun l there one => absurd one (ended l there)
    exact ⟨grown.andThen _ fun _ _ _ => rfl, ended_andThen (by decide)⟩
  | begin n => exact turned (turn_begin orderly n)
  | finish n resolved => exact turned (turn_finish orderly n resolved)

end

end EndCloseRelay.Scheduling
