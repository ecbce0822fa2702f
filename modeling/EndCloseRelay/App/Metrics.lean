import EndCloseRelay.Engine.System
import EndCloseRelay.Forward.Changes

/-!
# Metrics

`metrics/metrics.ts`: the counters the application drives from the hooks.  Over
any cycles of a dispatcher, `relay_forward_total` of a route and a result is the
number of rows the hooks said were settled so, and `relay_delivery_lag_seconds`
has seen the delivered ones but those delivered, by the clock, before received.
-/

namespace EndCloseRelay

open Interaction

namespace App

/-- The kinds `relay_events_pruned_total` tells apart. -/
inductive PruneKind
  | wiped
  | deleted
deriving DecidableEq

/-- `Metrics`: what its counters say, and the lags observed, in milliseconds. -/
structure Metrics where
  ingestTotal : String → IngestOutcome → Nat := fun _ _ => 0
  forwardTotal : String → ForwardResult → Nat := fun _ _ => 0
  deliveryLag : List Int := []
  prunedTotal : PruneKind → Nat := fun _ => 0

namespace Metrics

/-- `ingest(route, result)`. -/
def ingest (m : Metrics) (route : String) (result : IngestOutcome) : Metrics :=
  { m with
    ingestTotal := fun r o => if r = route ∧ o = result then m.ingestTotal r o + 1 else m.ingestTotal r o }

/-- `forward(route, result, count)`. -/
def forward (m : Metrics) (route : String) (result : ForwardResult) (count : Nat) : Metrics :=
  { m with
    forwardTotal := fun r o =>
      if r = route ∧ o = result then m.forwardTotal r o + count else m.forwardTotal r o }

/-- `observeDeliveryLag(receivedAt, deliveredAt)`. -/
def observeDeliveryLag (m : Metrics) (receivedAt deliveredAt : Int) : Metrics :=
  if 0 ≤ deliveredAt - receivedAt then { m with deliveryLag := m.deliveryLag ++ [deliveredAt - receivedAt] }
  else m

/-- `pruned(kind, count)`. -/
def pruned (m : Metrics) (kind : PruneKind) (count : Nat) : Metrics :=
  if 0 < count then
    { m with prunedTotal := fun k => if k = kind then m.prunedTotal k + count else m.prunedTotal k }
  else m

/-- The handlers of `subscribe`. -/
def hear (m : Metrics) : RelayEvent → Metrics
  | .ingest routeId outcome _ _ => m.ingest routeId outcome
  | .forward routeId result count => m.forward routeId result count
  | .delivered _ receivedAt deliveredAt => m.observeDeliveryLag receivedAt deliveredAt
  | .prune wiped deleted => (m.pruned .wiped wiped).pruned .deleted deleted
  | _ => m

/-- The metrics after some hooks. -/
def of (hooks : List RelayEvent) : Metrics := hooks.foldl hear {}

end Metrics

end App

open App

/-! ## Counting hooks -/

/-- The rows of a route an event counts as forwarded so. -/
def RelayEvent.forwardedOf (route : String) (result : ForwardResult) : RelayEvent → Nat
  | .forward routeId told count => if route = routeId ∧ result = told then count else 0
  | _ => 0

/-- The event says that a row of some routes was settled so. -/
def RelayEvent.settles (routes : String → Bool) (result : ForwardResult) : RelayEvent → Bool
  | .settled _ routeId told _ => routes routeId && decide (result = told)
  | _ => false

/-- The lag of a delivered row of some routes, from the times the event gives. -/
def RelayEvent.lag (routes : String → Bool) : RelayEvent → Option Int
  | .delivered routeId receivedAt deliveredAt =>
    if routes routeId then some (deliveredAt - receivedAt) else none
  | _ => none

/-- How many rows of some routes the hooks said were settled so. -/
def settledCount (routes : String → Bool) (result : ForwardResult) (hooks : List RelayEvent) : Nat :=
  hooks.countP (RelayEvent.settles routes result)

/-- The lags of the delivered rows of some routes the hooks gave the times of. -/
def lags (routes : String → Bool) (hooks : List RelayEvent) : List Int :=
  hooks.filterMap (RelayEvent.lag routes)

/-- Hooks that count as forwarded the rows they say were settled, and give the
times of the delivered ones. -/
structure Consistent (hooks : List RelayEvent) : Prop where
  forwarded : ∀ route result,
    (hooks.map (RelayEvent.forwardedOf route result)).sum = settledCount (· == route) result hooks
  timed : ∀ routes, (lags routes hooks).length = settledCount routes .delivered hooks

namespace Consistent

variable {hooks hooks' : List RelayEvent}

theorem nil : Consistent [] := ⟨fun _ _ => rfl, fun _ => rfl⟩

theorem append (consistent : Consistent hooks) (consistent' : Consistent hooks') :
    Consistent (hooks ++ hooks') := by
  refine ⟨fun route result => ?_, fun routes => ?_⟩
  · unfold settledCount
    rw [List.map_append, List.sum_append, List.countP_append, consistent.forwarded, consistent'.forwarded]
    rfl
  · unfold lags settledCount
    rw [List.filterMap_append, List.length_append, List.countP_append]
    exact congrArg₂ (· + ·) (consistent.timed routes) (consistent'.timed routes)

/-- An event that is no result. -/
theorem plain {event : RelayEvent} (plain : event.isResult = false) : Consistent [event] := by
  cases event <;> first | exact ⟨fun _ _ => rfl, fun _ => rfl⟩ | cases plain

/-- Settled rows of one route, each told of by itself. -/
theorem settled {tell : EventRecord → List RelayEvent} {routeId : String} {result : ForwardResult}
    {events : List EventRecord}
    (counts : ∀ e ∈ events, ∀ route other, ((tell e).map (RelayEvent.forwardedOf route other)).sum = 0)
    (settles : ∀ e ∈ events, ∀ routes other, settledCount routes other (tell e) =
      if routes routeId ∧ other = result then 1 else 0)
    (times : ∀ e ∈ events, ∀ routes, (lags routes (tell e)).length =
      if routes routeId ∧ ForwardResult.delivered = result then 1 else 0) :
    Consistent (.forward routeId result events.length :: events.flatMap tell) := by
  have all : ∀ route routes other,
      ((events.flatMap tell).map (RelayEvent.forwardedOf route other)).sum = 0 ∧
      settledCount routes other (events.flatMap tell) =
        (if routes routeId ∧ other = result then events.length else 0) ∧
      (lags routes (events.flatMap tell)).length =
        if routes routeId ∧ ForwardResult.delivered = result then events.length else 0 := by
    intro route routes other
    induction events with
    | nil => simp [settledCount, lags]
    | cons e events ih =>
      obtain ⟨forwarded, settled, timed⟩ := ih (fun e member => counts e (List.mem_cons_of_mem _ member))
        (fun e member => settles e (List.mem_cons_of_mem _ member))
        fun e member => times e (List.mem_cons_of_mem _ member)
      have here := counts e List.mem_cons_self route other
      have here' := settles e List.mem_cons_self routes other
      have here'' := times e List.mem_cons_self routes
      unfold settledCount at here' settled ⊢
      unfold lags at here'' timed ⊢
      rw [List.flatMap_cons, List.map_append, List.sum_append, List.countP_append, List.filterMap_append,
        List.length_append, here, here', here'', forwarded, settled, timed, List.length_cons]
      refine ⟨rfl, ?_, ?_⟩
      · split <;> omega
      · split <;> omega
  refine ⟨fun route other => ?_, fun routes => ?_⟩
  · obtain ⟨forwarded, settled, -⟩ := all route (· == route) other
    rw [List.map_cons, List.sum_cons, forwarded]
    refine Eq.trans ?_ settled.symm
    show (if route = routeId ∧ other = result then events.length else 0) + 0 = _
    rw [Nat.add_zero]
    exact if_congr (and_congr_left fun _ => eq_comm.trans beq_iff_eq.symm) rfl rfl
  · obtain ⟨-, settled, timed⟩ := all "" routes .delivered
    exact timed.trans settled.symm

end Consistent

/-! ## What the metrics count -/

namespace App.Metrics

variable {m : Metrics} {route : String} {result : ForwardResult}

theorem forwardTotal_hear (event : RelayEvent) :
    (m.hear event).forwardTotal route result = m.forwardTotal route result + event.forwardedOf route result := by
  cases event with
  | forward routeId told count =>
    show (if route = routeId ∧ result = told then _ else _) = _ + if route = routeId ∧ result = told then _ else _
    split <;> rfl
  | delivered routeId receivedAt deliveredAt =>
    show (m.observeDeliveryLag receivedAt deliveredAt).forwardTotal route result = _
    unfold observeDeliveryLag
    split <;> rfl
  | prune wiped deleted =>
    have same : ∀ (m : Metrics) (kind : PruneKind) (count : Nat),
        (m.pruned kind count).forwardTotal = m.forwardTotal := by
      intro m kind count
      unfold pruned
      split <;> rfl
    show ((m.pruned .wiped wiped).pruned .deleted deleted).forwardTotal route result = _
    rw [same, same]
    rfl
  | _ => rfl

/-- The counter of forwarded rows adds up what the hooks count. -/
theorem forwardTotal_of (hooks : List RelayEvent) :
    (of hooks).forwardTotal route result = (hooks.map (RelayEvent.forwardedOf route result)).sum := by
  suffices every : ∀ m : Metrics, (hooks.foldl hear m).forwardTotal route result =
      m.forwardTotal route result + (hooks.map (RelayEvent.forwardedOf route result)).sum from
    (every {}).trans (Nat.zero_add _)
  induction hooks with
  | nil => exact fun m => rfl
  | cons event hooks ih =>
    intro m
    rw [List.foldl_cons, ih, forwardTotal_hear, List.map_cons, List.sum_cons, Nat.add_assoc]

/-- The lags observed are those of the hooks that are not negative. -/
theorem deliveryLag_of (hooks : List RelayEvent) :
    (of hooks).deliveryLag = (lags (fun _ => true) hooks).filter fun lag => decide (0 ≤ lag) := by
  suffices every : ∀ m : Metrics, (hooks.foldl hear m).deliveryLag =
      m.deliveryLag ++ (lags (fun _ => true) hooks).filter fun lag => decide (0 ≤ lag) from
    (every {}).trans (List.nil_append _)
  induction hooks with
  | nil => exact fun m => (List.append_nil _).symm
  | cons event hooks ih =>
    intro m
    rw [List.foldl_cons, ih]
    cases event with
    | delivered routeId receivedAt deliveredAt =>
      show (m.observeDeliveryLag receivedAt deliveredAt).deliveryLag ++ _ =
        m.deliveryLag ++ ((deliveredAt - receivedAt) :: lags (fun _ => true) hooks).filter _
      unfold observeDeliveryLag
      by_cases after : 0 ≤ deliveredAt - receivedAt
      · rw [if_pos after, List.filter_cons, if_pos (decide_eq_true after)]
        exact List.append_assoc _ _ _
      · rw [if_neg after, List.filter_cons, if_neg (by rw [decide_eq_true_iff]; exact after)]
    | prune wiped deleted =>
      have same : ∀ (m : Metrics) (kind : PruneKind) (count : Nat),
          (m.pruned kind count).deliveryLag = m.deliveryLag := by
        intro m kind count
        unfold pruned
        split <;> rfl
      show ((m.pruned .wiped wiped).pruned .deleted deleted).deliveryLag ++ _ = _
      rw [same, same]
      rfl
    | _ => rfl

end App.Metrics

/-! ## Over any cycles -/

namespace Dispatcher

/-- Any calls; a claim returns rows of the route it is for. -/
def claiming : Discipline Op Op.Answer where
  allowed _ _ := True
  admits _ op answer := admits op answer

/-- Cycles of one dispatcher, whether they resolve or reject. -/
def cycles (deps : DispatcherDeps) : Nat → Body Unit
  | 0 => pure ()
  | n + 1 => do
    tryCatch (do let _ ← runOnce deps; pure ()) fun _ => pure ()
    cycles deps n

/-- The rows of a claim are of one route, and the hooks are consistent. -/
structure Counted (calls : Calls) (s : State) : Prop where
  claims : ∀ batch, Claimed calls batch → ∃ routeId, ∀ e ∈ batch, e.routeId = routeId
  hooks : Consistent s.hooks

variable {calls : Calls} {s s' : State}

theorem Counted.told {told : List RelayEvent} (counted : Counted calls s) (consistent : Consistent told)
    (hooks : s'.hooks = s.hooks ++ told) : Counted calls s' :=
  ⟨counted.claims, hooks ▸ counted.hooks.append consistent⟩

theorem Counted.change (counted : Counted calls s) (change : Change calls s s') : Counted calls s' := by
  have one : ∀ {first : EventRecord} {events batch : List EventRecord}, Claimed calls batch →
      (∀ e ∈ first :: events, e ∈ batch) → ∀ e ∈ first :: events, e.routeId = first.routeId := by
    intro first events batch claimed within e member
    obtain ⟨routeId, same⟩ := counted.claims batch claimed
    rw [same e (within e member), same first (within first List.mem_cons_self)]
  cases change with
  | emit plain => exact counted.told (.plain plain) rfl
  | @delivered events batch deliveredAt claimed within =>
    cases events with
    | nil => exact counted
    | cons first events =>
      refine counted.told
        (.settled (fun e _ _ _ => rfl) (fun e member routes other => ?_) fun e member routes => ?_) rfl
      · have same := one claimed within e member
        simp [settledCount, RelayEvent.settles, List.countP_cons, same]
      · have same := one claimed within e member
        by_cases among : routes first.routeId <;> simp [lags, RelayEvent.lag, same, among]
  | @parked events batch reason claimed within =>
    cases events with
    | nil => exact counted
    | cons first events =>
      have told : Consistent (.forward first.routeId .parked (first :: events).length ::
          (first :: events).flatMap fun e => [.settled e.id e.routeId .parked (some reason)]) := by
        refine .settled (fun e _ _ _ => rfl) (fun e member routes other => ?_) fun e _ routes => ?_
        · have same := one claimed within e member
          simp [settledCount, RelayEvent.settles, List.countP_cons, same]
        · simp [lags, RelayEvent.lag]
      rw [← List.map_eq_flatMap] at told
      exact counted.told told rfl
  | @retried events routeId error =>
    have told : Consistent (.forward routeId .retried events.length ::
        events.flatMap fun e => [.settled e.id routeId .retried (some error)]) := by
      refine .settled (fun e _ _ _ => rfl) (fun e member routes other => ?_) fun e _ routes => ?_
      · simp [settledCount, RelayEvent.settles, List.countP_cons]
      · simp [lags, RelayEvent.lag]
    rw [← List.map_eq_flatMap] at told
    exact counted.told told rfl
  | _ => exact ⟨counted.claims, counted.hooks⟩

theorem counted_keeper : Keeper claiming Counted where
  free _ _ := trivial
  call calls s op answer counted admitted _ := by
    refine ⟨fun batch claimed => ?_, counted.hooks⟩
    obtain ⟨routeId, now, limit, lease, member⟩ := claimed
    rcases List.mem_cons.mp member with same | member
    · cases same
      exact ⟨routeId, admitted.route⟩
    · exact counted.claims batch ⟨routeId, now, limit, lease, member⟩
  change _ _ _ counted change := counted.change change

theorem cycles_counted (deps : DispatcherDeps) (n : Nat) (counted : Counted calls s) :
    (cycles deps n).Sat claiming calls s fun calls s _ => Counted calls s := by
  have read : ∀ calls s answer, Counted calls s → claiming.admits calls .getKillswitch answer →
      Counted (⟨.getKillswitch, answer⟩ :: calls) s := by
    intro calls s answer counted _
    refine ⟨fun batch claimed => ?_, counted.hooks⟩
    obtain ⟨routeId, now, limit, lease, member⟩ := claimed
    rcases List.mem_cons.mp member with same | member
    · cases same
    · exact counted.claims batch ⟨routeId, now, limit, lease, member⟩
  induction n generalizing calls s with
  | zero => exact Method.Sat.pure counted
  | succ n ih =>
    refine Method.Sat.bind (fun calls s _ => Counted calls s) ?_ (fun _ _ _ counted => ih counted)
      fun _ _ _ counted => counted
    refine Method.Sat.tryCatch (fun calls s _ => Counted calls s) ?_ (fun _ _ _ counted => counted)
      fun _ _ _ counted => Method.Sat.pure counted
    have cycled : (runOnce deps).Sat claiming calls s (Ends Counted Counted) :=
      runOnce_kept deps counted_keeper counted_keeper (fun now admitted =>
        ⟨(counted_keeper.call _ s .now now counted admitted fun same => by cases same).claims,
          counted.hooks⟩) read
    refine Method.Sat.bind _ cycled (fun _ _ _ ends => Method.Sat.pure (ends.1 _ rfl).1) fun _ _ err ends => ?_
    exact (ends.2 err rfl).elim id id

/-- After any cycles of a new dispatcher, the counter of forwarded rows of each
route and result is the number of rows the hooks said were settled so; the lags
observed are those of the delivered rows that are not negative. -/
theorem metrics_count (deps : DispatcherDeps) (n : Nat) :
    (cycles deps n).Sat claiming [] (.initial deps) fun _ s _ =>
      (∀ route result,
        (Metrics.of s.hooks).forwardTotal route result = settledCount (· == route) result s.hooks) ∧
      (Metrics.of s.hooks).deliveryLag =
        (lags (fun _ => true) s.hooks).filter (fun lag => decide (0 ≤ lag)) ∧
      ∀ routes, (lags routes s.hooks).length = settledCount routes .delivered s.hooks := by
  have begun : Counted [] (.initial deps) := by
    refine ⟨fun batch claimed => ?_, .nil⟩
    obtain ⟨_, _, _, _, member⟩ := claimed
    cases member
  refine (cycles_counted deps n begun).mono fun _ s _ counted => ⟨fun route result => ?_, ?_, counted.hooks.timed⟩
  · rw [Metrics.forwardTotal_of]
    exact counted.hooks.forwarded route result
  · exact Metrics.deliveryLag_of s.hooks

end Dispatcher

end EndCloseRelay
