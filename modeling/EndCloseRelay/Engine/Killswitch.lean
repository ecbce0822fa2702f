import EndCloseRelay.Engine.Replays
import EndCloseRelay.Forward.Licence

/-!
# The killswitch

The relay together with its killswitch: an operator sets it between any two
steps, and whoever reads it gets what it is set to, or an error.  A cycle reads
it once, so that setting it stops the cycles that have no claim left by then.
-/

namespace EndCloseRelay

open Interaction

/-! ## The relay and its killswitch -/

/-- An answer of the control store at a time when the killswitch is set so. -/
def Dispatcher.Reply.under (killswitch : Killswitch) (reply : Dispatcher.Reply) :
    Dispatcher.Reply where
  fault := reply.fault
  answer
    | .getKillswitch => Except.map (fun _ => killswitch) (reply.answer .getKillswitch)
    | op => reply.answer op

/-- An answer of the control store to a request. -/
def Ingest.Reply.under (killswitch : Killswitch) (reply : Ingest.Reply) : Ingest.Reply where
  fault := reply.fault
  answer
    | .getKillswitch => Except.map (fun _ => killswitch) (reply.answer .getKillswitch)
    | op => reply.answer op

/-- An action at a time when the killswitch is set so. -/
def Action.under (killswitch : Killswitch) : Action → Action
  | .ingest routeId raw world => .ingest routeId raw fun calls => (world calls).under killswitch
  | .answer i reply => .answer i (reply.under killswitch)
  | a => a

/-- The relay and its killswitch. -/
structure Switched where
  system : System
  killswitch : Killswitch := .none

/-- An operator sets the killswitch, or the relay goes on. -/
inductive Switched.Action
  | setKillswitch (state : Killswitch)
  | act (a : EndCloseRelay.Action)

namespace Switched

def step (D : Deployment) (s : Switched) : Action → Switched
  | .setKillswitch state => { s with killswitch := state }
  | .act a => { s with system := s.system.step D (a.under s.killswitch) }

/-- The relay, from an empty store and with the killswitch off. -/
def machine (D : Deployment) : Machine Switched Action where
  init := { system := (System.machine D).init }
  step := step D

/-- No instance in a cycle has a claim left to make. -/
def Claimed (s : Switched) : Prop :=
  ∀ i op next, (s.system.instances i).rest = .call op next →
    Dispatcher.toClaim (s.system.instances i).calls = 0

/-- Since a state nothing is being claimed, and only events that were in flight
in it are being posted. -/
structure Stopped (D : Deployment) (s s' : Switched) : Prop where
  unclaimed : ∀ i routeId now limit lease next,
    (s'.system.instances i).rest ≠ .call (.store (.claimDue routeId now limit lease)) next
  posted : ∀ i key records next,
    (s'.system.instances i).rest = .call (.bulkCreateRecords key records) next →
      ∀ record ∈ records, ∃ event ∈ Dispatcher.inFlight (s.system.instances i).calls,
        Dispatcher.BuiltFrom (D.dispatcher i) (s'.system.instances i).calls event record

/-- Since a state with the killswitch on: no instance has a claim left, and the
events in flight were so then. -/
structure Spent (s s' : Switched) : Prop where
  on : s'.killswitch ≠ .none
  claimed : Claimed s'
  flying : ∀ i, Dispatcher.inFlight (s'.system.instances i).calls ⊆
    Dispatcher.inFlight (s.system.instances i).calls

section

variable {D : Deployment} {s s' : Switched} {k : Killswitch}

/-- A run of the relay and its killswitch is one of the relay. -/
theorem system_run (D : Deployment) (actions : List Action) :
    ∃ as, ((machine D).run actions).system = (System.machine D).run as ∧
      ∀ a ∈ as, ∃ k b, .act b ∈ actions ∧ a = b.under k := by
  induction actions using List.reverseRecOn with
  | nil => exact ⟨[], rfl, fun _ listed => (List.not_mem_nil listed).elim⟩
  | append_singleton actions a ih =>
    obtain ⟨as, same, within⟩ := ih
    have earlier : ∀ a' ∈ as, ∃ k b, .act b ∈ actions ++ [a] ∧ a' = b.under k := by
      intro a' member
      obtain ⟨k, b, listed, under⟩ := within a' member
      exact ⟨k, b, List.mem_append_left _ listed, under⟩
    rw [Machine.run_concat]
    cases a with
    | setKillswitch state => exact ⟨as, same, earlier⟩
    | act b =>
      refine ⟨as ++ [b.under ((machine D).run actions).killswitch], ?_, fun a' member => ?_⟩
      · rw [Machine.run_concat, ← same]
        rfl
      · rcases List.mem_append.mp member with member | member
        · exact earlier a' member
        · exact ⟨_, b, by simp, List.mem_singleton.mp member⟩

/-- Every instance keeps to the protocol. -/
theorem conforms_run (D : Deployment) (actions : List Action) :
    ((machine D).run actions).system.Conforms D := by
  obtain ⟨as, same, -⟩ := system_run D actions
  rw [same]
  exact System.conforms_run D as

/-- Every instance claims only while it has a claim left. -/
theorem licensed_run (D : Deployment) (actions : List Action) (i : String) :
    (((machine D).run actions).system.instances i).rest.Sat Dispatcher.licensed
      (((machine D).run actions).system.instances i).calls fun _ _ => True := by
  refine Machine.invariant (M := machine D) (fun s => ∀ i,
    (s.system.instances i).rest.Sat Dispatcher.licensed (s.system.instances i).calls
      fun _ _ => True) (fun _ => trivial) ?_ actions i
  intro s a licensed
  cases a with
  | setKillswitch state => exact licensed
  | act a =>
    exact System.keeps_step trivial (fun i state => Dispatcher.runOnce_licensed (D.dispatcher i) state)
      (fun _ _ _ _ => trivial) licensed

/-- With the killswitch on, no answer reads it as off. -/
theorem read_on (on : k ≠ .none) (reply : Dispatcher.Reply) (store : MemoryStore)
    (op : Dispatcher.Op) :
    (⟨op, ((reply.under k).respond store op).1⟩ : Exchange Dispatcher.Op.Answer) ≠
      ⟨.getKillswitch, .ok .none⟩ := by
  intro same
  obtain ⟨rfl, answered⟩ := Sigma.mk.inj same
  replace answered : Except.map (fun _ => k) (reply.answer .getKillswitch) = .ok .none :=
    eq_of_heq answered
  cases given : reply.answer .getKillswitch with
  | error err =>
    rw [given] at answered
    cases answered
  | ok read =>
    rw [given] at answered
    exact on (Except.ok.inj answered)

/-- Where no claim is left, none is being made. -/
theorem Claimed.unclaimed (claimed : Claimed s) {i : String}
    (licensed : (s.system.instances i).rest.Sat Dispatcher.licensed (s.system.instances i).calls
      fun _ _ => True) {routeId : String} {now : Int} {limit : Nat} {lease : Lease}
    {next : Dispatcher.Op.Answer (.store (.claimDue routeId now limit lease)) →
      Program Dispatcher.Op Dispatcher.Op.Answer (Except RelayError CycleSummary × Dispatcher.State)} :
    (s.system.instances i).rest ≠ .call (.store (.claimDue routeId now limit lease)) next := by
  intro rest
  have none_ := claimed i _ _ rest
  rw [rest] at licensed
  exact absurd none_ (Nat.ne_of_gt licensed.1)

/-- With the killswitch on, no step leaves anything to claim. -/
theorem claimed_step {a : EndCloseRelay.Action} {t : System} (on : k ≠ .none)
    (claimed : Claimed { system := t, killswitch := k })
    (licensed : ∀ i, (t.instances i).rest.Sat Dispatcher.licensed (t.instances i).calls
      fun _ _ => True) : Claimed { system := t.step D (a.under k), killswitch := k } := by
  intro i op next busy
  show Dispatcher.toClaim ((t.step D (a.under k)).instances i).calls = 0
  rcases System.busy_step busy with ⟨op', next', before⟩ | started
  · have none_ : Dispatcher.toClaim (t.instances i).calls = 0 := claimed i op' next' before
    rcases System.calls_step D t (a.under k) i with same | same | ⟨reply, op'', next'', answer,
      rest, answers⟩
    · rw [same]
      exact none_
    · rw [same]
      rfl
    · rw [answers.calls]
      have here := licensed i
      rw [rest] at here
      cases a with
      | answer j given =>
        obtain ⟨rfl, rfl⟩ := Action.answer.inj answer
        exact Dispatcher.toClaim_eq_zero none_ here.1 (read_on on given t.store op'')
      | _ => cases answer
  · rw [started]
    show Dispatcher.toClaim ((t.start D i).instances i).calls = 0
    unfold System.start
    cases rest : (t.instances i).rest with
    | call op next => exact claimed i op next rest
    | pure out =>
      simp only [System.setInstance_same]
      rfl

theorem spent_step {a : Action} (licensed : ∀ i,
      (s'.system.instances i).rest.Sat Dispatcher.licensed (s'.system.instances i).calls
        fun _ _ => True)
    (spent : Spent s s') (kept : a ≠ .setKillswitch .none) : Spent s (step D s' a) := by
  cases a with
  | setKillswitch state =>
    exact ⟨fun off => kept (congrArg Action.setKillswitch off), spent.claimed, spent.flying⟩
  | act a =>
    refine ⟨spent.on, claimed_step spent.on spent.claimed licensed, fun i event flying => ?_⟩
    rcases System.inFlight_step flying with before | ⟨reply, routeId, now, limit, lease, same,
      applied, -⟩
    · exact spent.flying i before
    · rw [same] at applied
      obtain ⟨⟨next, rest⟩, -⟩ := System.appliedBy_eq_some.mp applied
      exact absurd rest (spent.claimed.unclaimed (licensed i))

/-- An operator turns the killswitch on when no cycle has a claim left: until it
is turned off again nothing is claimed, and only the batches in flight then are
still posted. -/
theorem killswitch_stops (D : Deployment) (earlier later : List Action) (k : Killswitch)
    (on : k ≠ .none) (claimed : Claimed ((machine D).run earlier))
    (kept : ∀ a ∈ later, a ≠ .setKillswitch .none) :
    Stopped D ((machine D).run earlier) ((machine D).run (earlier ++ .setKillswitch k :: later)) := by
  have spent : Spent ((machine D).run earlier)
      ((machine D).run (earlier ++ .setKillswitch k :: later)) := by
    induction later using List.reverseRecOn with
    | nil =>
      rw [Machine.run_concat]
      exact ⟨on, claimed, fun _ _ flying => flying⟩
    | append_singleton later a ih =>
      rw [← List.cons_append, ← List.append_assoc, Machine.run_concat]
      exact spent_step (licensed_run D _) (ih fun b member => kept b (List.mem_append_left _ member))
        (kept a (by simp))
  refine ⟨fun i _ _ _ _ _ => spent.claimed.unclaimed (licensed_run D _ i), ?_⟩
  intro i key records next rest record member
  obtain ⟨event, flying, -, built⟩ :=
    Dispatcher.Postable.each ((conforms_run D _).allowed rest) record member
  exact ⟨event, spent.flying i flying, built⟩

/-- The sample payment is claimed, and the cycle has no other due route. -/
def claimedRun : List Action :=
  .act System.sampleIngest :: .act (.start "a") ::
    List.replicate 10 (.act (.answer "a" (System.sampleReply 0 .absent)))

/-- The cycle goes on, posts and settles its batch and ends; then another payment comes
in, and the next cycle starts and finds the killswitch set. -/
def pausedRun : List Action :=
  List.replicate 6 (.act (.answer "a" (System.sampleReply 0 .absent))) ++
    .act (.ingest "payments" { System.sampleRequest with rawBody := some [2] }
      fun _ => System.sampleWorld System.sampleRoute) :: .act (.start "a") ::
    List.replicate 3 (.act (.answer "a" (System.sampleReply 1000 .absent)))

theorem pausedRun_kept : ∀ a ∈ pausedRun, a ≠ .setKillswitch .none := by
  unfold pausedRun
  simp

/-- The payment in flight is still posted and delivered, and the later one is left. -/
theorem killswitch_stops_paused :
    Stopped System.bothDeployment ((machine System.bothDeployment).run claimedRun)
        ((machine System.bothDeployment).run (claimedRun ++ .setKillswitch .pause :: pausedRun)) ∧
      ((machine System.bothDeployment).run
          (claimedRun ++ .setKillswitch .pause :: pausedRun)).system.store.rows.map
        (fun r => (r.id, r.status)) = [(1, .delivered), (2, .pending)] := by
  refine ⟨killswitch_stops System.bothDeployment claimedRun pausedRun .pause (by decide)
    (fun i op next busy => ?_) pausedRun_kept, by decide +kernel⟩
  rcases eq_or_ne i "a" with rfl | other
  · rfl
  · obtain ⟨as, same, within⟩ := system_run System.bothDeployment claimedRun
    have only : ∀ a ∈ as, a.instance?.all (· == "a") := by
      intro a member
      obtain ⟨k, b, listed, rfl⟩ := within a member
      rcases List.mem_cons.mp listed with one | listed
      · cases one
        rfl
      · rcases List.mem_cons.mp listed with one | listed
        · cases one
          rfl
        · cases List.eq_of_mem_replicate listed
          rfl
    obtain ⟨out, idle⟩ := System.idle_of_only (D := System.bothDeployment) only other
    rw [same, idle] at busy
    cases busy

/-- The other route. -/
def otherRoute : RouteConfig := { System.sampleRoute with id := "others" }

/-- The world answers with the route asked for. -/
def bothReply : Dispatcher.Reply where
  answer
    | .getRoute routeId => .ok (some (if routeId = "others" then otherRoute else System.sampleRoute))
    | op => (System.sampleReply 0 .absent).answer op

/-- Both payments have come in, and the cycle has claimed the first. -/
def bothRun : List Action :=
  .act System.sampleIngest :: .act (.ingest "others" { System.sampleRequest with rawBody := some [2] }
    fun _ => System.sampleWorld otherRoute) :: .act (.start "a") ::
    List.replicate 10 (.act (.answer "a" bothReply))

/-- The killswitch is set to `panic` and stays there, and the cycle goes on to
claim from the other route. -/
theorem panicked_claims : ¬ ∀ D earlier later k, k ≠ .none →
    (∀ a ∈ later, a ≠ .setKillswitch .none) →
      Stopped D ((machine D).run earlier) ((machine D).run (earlier ++ .setKillswitch k :: later)) := by
  intro stops
  have stopped := stops System.bothDeployment bothRun (List.replicate 10 (.act (.answer "a" bothReply))) .panic
    (by decide) fun a member same => by
      rw [List.eq_of_mem_replicate member] at same
      cases same
  exact stopped.unclaimed "a" "others" 0 100 { owner := "a", until_ := 600000 } _ rfl

end

end Switched

end EndCloseRelay
