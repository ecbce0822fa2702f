import EndCloseRelay.Forward.BatchProtocol

/-!
# The books of a cycle

What a cycle counts in its summary and tells its hooks, against the calls it
made.  `standing` reads off the calls how each claimed row was left; the books
are balanced when the rows told of and the rows still open are the rows
claimed, each told of once and as it stands.  `runOnce_balanced` says that a
cycle which resolves ends with balanced books and no open row.
-/

namespace EndCloseRelay

open Interaction

/-- The count a summary keeps of a result. -/
def CycleSummary.count (summary : CycleSummary) : ForwardResult → Nat
  | .delivered => summary.delivered
  | .retried => summary.retried
  | .parked => summary.parked

/-- The settlement a hook tells of. -/
def RelayEvent.settlement : RelayEvent → Option (Nat × ForwardResult)
  | .settled id _ result _ => some (id, result)
  | _ => none

/-- The settlements the hooks told of. -/
def settlements (hooks : List RelayEvent) : List (Nat × ForwardResult) :=
  hooks.filterMap RelayEvent.settlement

namespace Dispatcher

/-! ## Reading the calls -/

/-- The route and the rows of a successful claim. -/
def claimOf : Exchange Op.Answer → Option (String × List EventRecord)
  | ⟨.store (.claimDue routeId ..), .ok events⟩ => some (routeId, events)
  | _ => none

/-- The claims of a cycle, latest first. -/
def claims (calls : Calls) : List (String × List EventRecord) := calls.filterMap claimOf

/-- The ids of the rows in a list of claims. -/
def idsOf (claims : List (String × List EventRecord)) : List Nat :=
  claims.flatMap fun claim => claim.2.map fun e => e.id

/-- What a call makes of how a row stands: `some none` is a claimed row that is
delivering, `some (some result)` one that a mark or a release has settled. -/
def restand (x : Exchange Op.Answer) (id : Nat) (was : Option (Option ForwardResult)) :
    Option (Option ForwardResult) :=
  match x with
  | ⟨.store (.claimDue ..), .ok events⟩ => if id ∈ events.map (fun e => e.id) then some none else was
  | ⟨.store (.markDelivered ids _ _), .ok _⟩ =>
    if id ∈ ids then was.map fun _ => some .delivered else was
  | ⟨.store (.markFailed ids _ _), .ok _⟩ =>
    if id ∈ ids then was.map fun _ => some .retried else was
  | ⟨.store (.markParked ids _), .ok _⟩ =>
    if id ∈ ids then was.map fun _ => some .parked else was
  | ⟨.store (.releaseDelivering ids _ _), .ok _⟩ =>
    if id ∈ ids ∧ was = some none then some (some .retried) else was
  | _ => was

/-- How a row stands after the calls, if the cycle claimed it. -/
def standing : Calls → Nat → Option (Option ForwardResult)
  | [], _ => none
  | x :: calls, id => restand x id (standing calls id)

theorem claims_cons (x : Exchange Op.Answer) (calls : Calls) :
    claims (x :: calls) = (claimOf x).toList ++ claims calls := by
  unfold claims
  rw [List.filterMap_cons]
  cases claimOf x <;> rfl

@[simp] theorem idsOf_nil : idsOf [] = [] := rfl

@[simp] theorem idsOf_singleton (routeId : String) (events : List EventRecord) :
    idsOf [(routeId, events)] = events.map fun e => e.id :=
  List.append_nil _

theorem idsOf_append (first second : List (String × List EventRecord)) :
    idsOf (first ++ second) = idsOf first ++ idsOf second :=
  List.flatMap_append

/-- A call makes no other row stand than those it claims. -/
theorem restand_isSome (x : Exchange Op.Answer) (id : Nat) (was : Option (Option ForwardResult)) :
    (restand x id was).isSome ↔ id ∈ idsOf (claimOf x).toList ∨ was.isSome := by
  unfold restand claimOf
  split
  · rename_i routeId now limit lease events
    have same : id ∈ idsOf [(routeId, events)] ↔ id ∈ List.map (fun e => e.id) events :=
      iff_of_eq (congrArg (id ∈ ·) (idsOf_singleton routeId events))
    split
    · rename_i listed
      exact ⟨fun _ => .inl (same.mpr listed), fun _ => rfl⟩
    · rename_i unlisted
      exact ⟨.inr, fun either => either.resolve_left fun listed => unlisted (same.mp listed)⟩
  · split <;> simp
  · split <;> simp
  · split <;> simp
  · split
    · rename_i released
      simp [released.2]
    · simp
  · rename_i other _ _ _ _
    split
    · exact absurd rfl (other _ _ _ _ _)
    · simp

/-- The rows that stand somehow are the rows claimed. -/
theorem standing_isSome {calls : Calls} {id : Nat} :
    (standing calls id).isSome ↔ id ∈ idsOf (claims calls) := by
  induction calls with
  | nil => simp [standing, claims]
  | cons x calls ih =>
    rw [claims_cons, idsOf_append, List.mem_append, ← ih, standing]
    exact restand_isSome x id _

/-! ## Balanced books -/

/-- The rows told of and the rows still open are the rows claimed; a row is told
of once, as it stands; the summary counts the rows told of. -/
structure Books (calls : Calls) (summary : CycleSummary) (told : List (Nat × ForwardResult))
    (open_ : List Nat) : Prop where
  nodup : (idsOf (claims calls)).Nodup
  each : (told.map Prod.fst ++ open_).Perm (idsOf (claims calls))
  agree : ∀ entry ∈ told, standing calls entry.1 = some (some entry.2)
  count : ∀ result, summary.count result = told.countP fun entry => entry.2 = result

/-- The books of a cycle that began with some hooks emitted and has made the
given claims balance, and no open row has been marked delivered. -/
structure Balanced (hooks : List RelayEvent) (done : List (String × List EventRecord))
    (open_ : List Nat) (calls : Calls) (s : State) : Prop where
  done : claims calls = done
  unsent : ∀ id ∈ open_, standing calls id ≠ some (some .delivered)
  books : ∃ told, s.hooks = hooks ++ told ∧ Books calls s.summary (settlements told) open_

/-- The order of the open rows does not matter. -/
theorem Balanced.perm {hooks : List RelayEvent} {done : List (String × List EventRecord)}
    {open_ open' : List Nat} {calls : Calls} {s : State}
    (balanced : Balanced hooks done open_ calls s) (same : open_.Perm open') :
    Balanced hooks done open' calls s := by
  obtain ⟨told, told_, books⟩ := balanced.books
  exact ⟨balanced.done, fun id listed => balanced.unsent id (same.symm.subset listed), told, told_,
    books.nodup, (same.symm.append_left _).trans books.each, books.agree, books.count⟩

/-- The rows a claim returns were not claimed before in the cycle. -/
structure FreshClaim (calls : Calls) (routeId : String) (claimed : List EventRecord) : Prop
    extends IsClaim routeId claimed where
  fresh : ∀ e ∈ claimed, e.id ∉ idsOf (claims calls)

/-- A call after which every row stands as before. -/
def Neutral (x : Exchange Op.Answer) : Prop := claimOf x = none ∧ ∀ id was, restand x id was = was

/-- A call that settles the claimed rows among some ids. -/
structure Marks (x : Exchange Op.Answer) (ids : List Nat) (result : ForwardResult) : Prop where
  claims : claimOf x = none
  marks : ∀ id was, restand x id was = if id ∈ ids then was.map fun _ => some result else was

/-- Recording a result of some events counts and tells of each of them once. -/
structure Records (result : ForwardResult) (events : List EventRecord) (s s' : State) : Prop where
  told : ∃ told, s'.hooks = s.hooks ++ told ∧
    settlements told = events.map fun e => (e.id, result)
  count : ∀ other, s'.summary.count other =
    s.summary.count other + if other = result then events.length else 0

section

variable {hooks : List RelayEvent} {done : List (String × List EventRecord)}
  {open_ rest ids : List Nat} {calls : Calls} {s s' : State} {x : Exchange Op.Answer}
  {result : ForwardResult} {events : List EventRecord}

/-- Telling of events one by one is settling them one by one. -/
theorem settlements_flatMap {tell : EventRecord → List RelayEvent}
    (each : ∀ e, settlements (tell e) = [(e.id, result)]) (events : List EventRecord) :
    settlements (events.flatMap tell) = events.map fun e => (e.id, result) := by
  induction events with
  | nil => rfl
  | cons e events ih =>
    rw [List.flatMap_cons, List.map_cons]
    have split : (tell e ++ events.flatMap tell).filterMap RelayEvent.settlement = _ :=
      List.filterMap_append
    exact split.trans (congrArg₂ (· ++ ·) (each e) ih)

theorem settlements_map {tell : EventRecord → RelayEvent}
    (each : ∀ e, (tell e).settlement = some (e.id, result)) (events : List EventRecord) :
    settlements (events.map tell) = events.map fun e => (e.id, result) := by
  have listed : events.map tell = events.flatMap fun e => [tell e] := List.map_eq_flatMap
  rw [listed]
  exact settlements_flatMap (fun e => by simp [settlements, each]) events

theorem recordDelivered_records (events : List EventRecord) (deliveredAt : Int) (s : State) :
    Records .delivered events s (s.recordDelivered events deliveredAt) := by
  cases events with
  | nil => exact ⟨⟨[], (List.append_nil _).symm, rfl⟩, fun other => by cases other <;> rfl⟩
  | cons first events =>
    exact ⟨⟨_, rfl, settlements_flatMap (fun _ => rfl) _⟩, fun other => by cases other <;> rfl⟩

theorem recordParked_records (events : List EventRecord) (reason : String) (s : State) :
    Records .parked events s (s.recordParked events reason) := by
  cases events with
  | nil => exact ⟨⟨[], (List.append_nil _).symm, rfl⟩, fun other => by cases other <;> rfl⟩
  | cons first events =>
    exact ⟨⟨_, rfl, settlements_map (fun _ => rfl) _⟩, fun other => by cases other <;> rfl⟩

theorem recordRetried_records (routeId : String) (events : List EventRecord) (error : String)
    (s : State) : Records .retried events s (s.recordRetried routeId events error) :=
  ⟨⟨_, rfl, settlements_map (fun _ => rfl) _⟩, fun other => by cases other <;> rfl⟩

theorem Balanced.neutral (balanced : Balanced hooks done open_ calls s) (neutral : Neutral x) :
    Balanced hooks done open_ (x :: calls) s := by
  have same : claims (x :: calls) = claims calls := by
    rw [claims_cons, neutral.1]
    rfl
  obtain ⟨told, told_, books⟩ := balanced.books
  refine ⟨same.trans balanced.done, ?_, told, told_, ?_, ?_, ?_, books.count⟩
  · intro id listed
    rw [standing, neutral.2]
    exact balanced.unsent id listed
  · rw [same]
    exact books.nodup
  · rw [same]
    exact books.each
  · intro entry member
    rw [standing, neutral.2]
    exact books.agree entry member

/-- What neither tells nor counts. -/
theorem Balanced.restate (balanced : Balanced hooks done open_ calls s)
    (tells : s'.hooks = s.hooks) (counts : ∀ result, s'.summary.count result = s.summary.count result) :
    Balanced hooks done open_ calls s' := by
  obtain ⟨told, told_, books⟩ := balanced.books
  refine ⟨balanced.done, balanced.unsent, told, tells.trans told_, books.nodup, books.each, books.agree, ?_⟩
  intro result
  rw [counts]
  exact books.count result

/-- A hook that settles nothing. -/
theorem Balanced.emit {event : RelayEvent} (balanced : Balanced hooks done open_ calls s)
    (other : event.settlement = none) : Balanced hooks done open_ calls (s.emit event) := by
  obtain ⟨told, told_, books⟩ := balanced.books
  refine ⟨balanced.done, balanced.unsent, told ++ [event], ?_, ?_⟩
  · show s.hooks ++ [event] = hooks ++ (told ++ [event])
    rw [told_, List.append_assoc]
  · have same : settlements (told ++ [event]) = settlements told := by
      unfold settlements
      rw [List.filterMap_append, List.filterMap_cons, other]
      exact List.append_nil _
    rw [same]
    exact books

theorem marks_delivered (ids : List Nat) (deliveredAt : Int) (bulkRequestId : Option String) :
    Marks ⟨.store (.markDelivered ids deliveredAt bulkRequestId), .ok ()⟩ ids .delivered :=
  ⟨rfl, fun _ _ => rfl⟩

theorem marks_failed (ids : List Nat) (nextAttemptAt : Int) (error : String) :
    Marks ⟨.store (.markFailed ids nextAttemptAt error), .ok ()⟩ ids .retried :=
  ⟨rfl, fun _ _ => rfl⟩

theorem marks_parked (ids : List Nat) (error : String) :
    Marks ⟨.store (.markParked ids error), .ok ()⟩ ids .parked :=
  ⟨rfl, fun _ _ => rfl⟩

/-- A mark leaves the rows it does not name as they stand. -/
theorem Marks.spared {id : Nat} (marks : Marks x ids result) (spared : id ∉ ids) :
    standing (x :: calls) id = standing calls id := by
  rw [standing, marks.marks, if_neg spared]

/-- The books after a mark of open rows. -/
theorem Books.mark {summary : CycleSummary} {told : List (Nat × ForwardResult)}
    (books : Books calls summary told open_) (within : ids ⊆ open_) (marks : Marks x ids result) :
    Books (x :: calls) summary told open_ ∧
      ∀ id ∈ ids, standing (x :: calls) id = some (some result) := by
  have same : claims (x :: calls) = claims calls := by
    rw [claims_cons, marks.claims]
    rfl
  have apart := books.each.nodup_iff.mpr books.nodup
  rw [List.nodup_append] at apart
  refine ⟨⟨?_, ?_, ?_, books.count⟩, ?_⟩
  · rw [same]
    exact books.nodup
  · rw [same]
    exact books.each
  · intro entry member
    have spared : entry.1 ∉ ids := fun listed =>
      apart.2.2 entry.1 (List.mem_map_of_mem member) entry.1 (within listed) rfl
    rw [marks.spared spared]
    exact books.agree entry member
  · intro id listed
    have claimed := standing_isSome.mpr
      (books.each.subset (List.mem_append_right _ (within listed)))
    obtain ⟨was, stands⟩ := Option.isSome_iff_exists.mp claimed
    rw [standing, marks.marks, if_pos listed, stands]
    rfl

/-- The books after some open rows that stand so have been recorded. -/
theorem Books.record {summary summary' : CycleSummary} {told : List (Nat × ForwardResult)}
    (books : Books calls summary told open_)
    (stands : ∀ e ∈ events, standing calls e.id = some (some result))
    (count : ∀ other, summary'.count other =
      summary.count other + if other = result then events.length else 0)
    (split : open_.Perm (events.map (fun e => e.id) ++ rest)) :
    Books calls summary' (told ++ events.map fun e => (e.id, result)) rest := by
  refine ⟨books.nodup, ?_, ?_, ?_⟩
  · have firsts : (events.map fun e => (e.id, result)).map Prod.fst = events.map fun e => e.id := by
      rw [List.map_map]
      rfl
    rw [List.map_append, firsts, List.append_assoc]
    exact (split.symm.append_left _).trans books.each
  · intro entry member
    rcases List.mem_append.mp member with member | member
    · exact books.agree entry member
    · obtain ⟨e, listed, rfl⟩ := List.mem_map.mp member
      exact stands e listed
  · intro other
    rw [count, books.count, List.countP_append, List.countP_map]
    congr 1
    by_cases same : other = result
    · subst same
      simp [Function.comp_def]
    · have differ : ¬ result = other := fun equal => same equal.symm
      simp [same, Function.comp_def, differ]

/-- A mark of open rows that are not told of yet. -/
theorem Balanced.mark (balanced : Balanced hooks done open_ calls s) (within : ids ⊆ open_)
    (marks : Marks x ids result) (other : result ≠ .delivered) :
    Balanced hooks done open_ (x :: calls) s ∧
      ∀ id ∈ ids, standing (x :: calls) id = some (some result) := by
  obtain ⟨told, told_, books⟩ := balanced.books
  obtain ⟨marked, stands⟩ := books.mark within marks
  refine ⟨⟨?_, ?_, told, told_, marked⟩, stands⟩
  · rw [claims_cons, marks.claims]
    exact balanced.done
  · intro id isOpen
    by_cases listed : id ∈ ids
    · rw [stands id listed]
      intro same
      exact other (Option.some.inj (Option.some.inj same))
    · rw [marks.spared listed]
      exact balanced.unsent id isOpen

/-- Recording open rows that stand so. -/
theorem Balanced.record (balanced : Balanced hooks done open_ calls s)
    (stands : ∀ e ∈ events, standing calls e.id = some (some result))
    (records : Records result events s s')
    (split : open_.Perm (events.map (fun e => e.id) ++ rest)) :
    Balanced hooks done rest calls s' := by
  obtain ⟨told, told_, books⟩ := balanced.books
  obtain ⟨new, new_, news⟩ := records.told
  refine ⟨balanced.done, fun id listed =>
    balanced.unsent id (split.symm.subset (List.mem_append_right _ listed)), told ++ new, ?_, ?_⟩
  · rw [new_, told_, List.append_assoc]
  · have settled : settlements (told ++ new) = settlements told ++ settlements new :=
      List.filterMap_append
    rw [settled, news]
    exact books.record stands records.count split

/-- A mark of open rows that are recorded at once. -/
theorem Balanced.settle (balanced : Balanced hooks done open_ calls s)
    (marks : Marks x (events.map fun e => e.id) result) (records : Records result events s s')
    (split : open_.Perm (events.map (fun e => e.id) ++ rest)) :
    Balanced hooks done rest (x :: calls) s' := by
  obtain ⟨told, told_, books⟩ := balanced.books
  obtain ⟨new, new_, news⟩ := records.told
  have within : events.map (fun e => e.id) ⊆ open_ := fun id listed =>
    split.symm.subset (List.mem_append_left _ listed)
  obtain ⟨marked, stands⟩ := books.mark within marks
  refine ⟨?_, ?_, told ++ new, ?_, ?_⟩
  · rw [claims_cons, marks.claims]
    exact balanced.done
  · intro id listed
    have apart := (List.nodup_append.mp (books.each.nodup_iff.mpr books.nodup)).2.1
    have spared : id ∉ events.map fun e => e.id := fun named =>
      (List.nodup_append.mp (split.nodup_iff.mp apart)).2.2 id named id listed rfl
    rw [marks.spared spared]
    exact balanced.unsent id (split.symm.subset (List.mem_append_right _ listed))
  · rw [new_, told_, List.append_assoc]
  · have settled : settlements (told ++ new) = settlements told ++ settlements new :=
      List.filterMap_append
    rw [settled, news]
    exact marked.record (fun e member => stands e.id (List.mem_map_of_mem member)) records.count split

/-- A claim opens the rows it returns. -/
theorem Balanced.claim {routeId : String} {now : Int} {limit : Nat} {lease : Lease}
    {claimed : List EventRecord} (balanced : Balanced hooks done [] calls s)
    (fresh : FreshClaim calls routeId claimed) :
    Balanced hooks ((routeId, claimed) :: done) (claimed.map fun e => e.id)
      (⟨.store (.claimDue routeId now limit lease), .ok claimed⟩ :: calls) s := by
  have ids : idsOf (claims (⟨.store (.claimDue routeId now limit lease), .ok claimed⟩ :: calls)) =
      claimed.map (fun e => e.id) ++ idsOf (claims calls) := by
    rw [claims_cons, idsOf_append]
    exact congrArg (· ++ _) (idsOf_singleton routeId claimed)
  obtain ⟨told, told_, books⟩ := balanced.books
  refine ⟨?_, ?_, told, told_, ?_, ?_, ?_, books.count⟩
  · rw [claims_cons, balanced.done]
    rfl
  · intro id listed sent
    have stands : standing (⟨.store (.claimDue routeId now limit lease), .ok claimed⟩ :: calls) id =
        some none := if_pos listed
    rw [stands] at sent
    cases sent
  · rw [ids, List.nodup_append]
    refine ⟨fresh.nodup, books.nodup, fun id new other old same => ?_⟩
    obtain ⟨e, member, rfl⟩ := List.mem_map.mp new
    exact fresh.fresh e member (same ▸ old)
  · rw [ids]
    have each := books.each
    rw [List.append_nil] at each
    exact (each.append_right _).trans List.perm_append_comm
  · intro entry member
    have old := books.each.subset (List.mem_append_left _ (List.mem_map_of_mem member))
    have spared : entry.1 ∉ claimed.map fun e => e.id := by
      intro new
      obtain ⟨e, listed, same⟩ := List.mem_map.mp new
      exact fresh.fresh e listed (same ▸ old)
    exact (if_neg spared).trans (books.agree entry member)

/-! ## Every method keeps the books -/

/-- What a call to the store requires of the calls before it: housekeeping comes
before the first claim, no route is claimed twice, and no delivered row is marked again. -/
def bookAllowed (calls : Calls) : StoreOp → Prop
  | .recoverDelivering .. | .parkExpired .. => claims calls = []
  | .claimDue routeId _ _ _ => routeId ∉ (claims calls).map Prod.fst
  | .markDelivered ids _ _ | .markFailed ids _ _ | .markParked ids _ =>
    ∀ id ∈ ids, standing calls id ≠ some (some .delivered)
  | .insert _ | .pruneBatch .. | .replay .. | .replayAllParked _ => False
  | _ => True

/-- What a store answers: distinct routes, and rows not claimed before. -/
def bookAdmits (calls : Calls) : (op : StoreOp) → Except RelayError op.Result → Prop
  | .claimDue routeId _ _ _, .ok claimed => FreshClaim calls routeId claimed
  | .routesWithDueEvents _, .ok due => due.Nodup
  | _, _ => True

/-- What a cycle does on a store that only it claims from. -/
def bookkeeping : Discipline Op Op.Answer where
  allowed calls
    | .store op => bookAllowed calls op
    | _ => True
  admits calls
    | .store op, answer => bookAdmits calls op answer
    | _, _ => True

/-- A method that returns leaves these rows open. -/
def Leaves (hooks : List RelayEvent) (done : List (String × List EventRecord)) (open_ : List Nat)
    {α : Type} (calls : Calls) (s : State) (r : Except RelayError α) : Prop :=
  ∀ a, r = .ok a → Balanced hooks done open_ calls s

section

variable {deps : DispatcherDeps} {route : RouteConfig} {event : EventRecord} {reason : String}
  {built : List (EventRecord × EndCloseRecord)} {mapped claimed : List EventRecord}

theorem Leaves.error {α : Type} {err : RelayError} :
    Leaves hooks done open_ calls s (.error err : Except RelayError α) := by
  intro a same
  cases same

theorem sat_scheduleAttempt_bind_of {β : Type} {attempts : Nat} {f : Int → Body β}
    {post : Method.Post Op.Answer State RelayError β}
    (onward : ∀ now random next,
      (f next).Sat bookkeeping (⟨.random, random⟩ :: ⟨.now, now⟩ :: calls) s post) :
    (scheduleAttempt deps attempts >>= f).Sat bookkeeping calls s post :=
  ⟨trivial, fun now _ => ⟨trivial, fun random _ => onward now random _⟩⟩

/-- Parking open rows of a batch and recording it. -/
theorem park_balanced (events : List EventRecord) (balanced : Balanced hooks done open_ calls s)
    (split : open_.Perm (events.map (fun e => e.id) ++ rest)) :
    (do
      store (.markParked (events.map fun e => e.id) reason)
      modify (State.recordParked events reason) : Body Unit).Sat bookkeeping calls s
        (Leaves hooks done rest) := by
  refine sat_storeCall_bind (fun id listed => balanced.unsent id
    (split.symm.subset (List.mem_append_left _ listed))) (fun _ _ => ?_) fun _ _ => Leaves.error
  exact Method.Sat.modify fun _ _ => balanced.settle (marks_parked _ reason)
    (recordParked_records events reason s) split

/-- Putting open rows of a batch off and recording it. -/
theorem retry_balanced (events : List EventRecord) {routeId error : String} {attempts : Nat}
    (balanced : Balanced hooks done open_ calls s)
    (split : open_.Perm (events.map (fun e => e.id) ++ rest)) :
    (do
      let next ← scheduleAttempt deps attempts
      store (.markFailed (events.map fun e => e.id) next error)
      modify (State.recordRetried routeId events error) : Body Unit).Sat bookkeeping calls s
        (Leaves hooks done rest) := by
  refine sat_scheduleAttempt_bind_of fun now random next => ?_
  have timed := (balanced.neutral (x := ⟨.now, now⟩) ⟨rfl, fun _ _ => rfl⟩).neutral
    (x := ⟨.random, random⟩) ⟨rfl, fun _ _ => rfl⟩
  refine sat_storeCall_bind (fun id listed => timed.unsent id
    (split.symm.subset (List.mem_append_left _ listed))) (fun _ _ => ?_) fun _ _ => Leaves.error
  exact Method.Sat.modify fun _ _ => timed.settle (marks_failed _ next error)
    (recordRetried_records routeId events error s) split

theorem settleUnmapped_balanced {stage : Stage} {err : RelayError}
    (balanced : Balanced hooks done open_ calls s) (split : open_.Perm (event.id :: rest)) :
    (settleUnmapped deps event stage err).Sat bookkeeping calls s (Leaves hooks done rest) := by
  unfold settleUnmapped
  split
  · exact park_balanced [event] balanced split
  · exact park_balanced [event] balanced split
  · cases stage with
    | enrichment => exact retry_balanced [event] balanced split
    | mapping => exact Method.Sat.throw Leaves.error

theorem resolveEnrichments_balanced {payload : Json} {pending : List PendingEnrichment}
    {record : EndCloseRecord} (balanced : Balanced hooks done open_ calls s) :
    (resolveEnrichments deps event payload pending record).Sat bookkeeping calls s
      fun calls s _ => Balanced hooks done open_ calls s := by
  induction pending generalizing calls s record with
  | nil => exact Method.Sat.pure balanced
  | cons p pending ih =>
    unfold resolveEnrichments
    split
    · refine Method.sat_call_bind trivial fun returned _ => ?_
      have asked := balanced.neutral (x := ⟨.enrich event.id p.enrichment p.input
        (enrichContext event payload p.field), returned⟩) ⟨rfl, fun _ _ => rfl⟩
      cases checkReturned p.field returned with
      | error err => exact Method.sat_modify_bind (Method.Sat.throw (asked.emit rfl))
      | ok value =>
        cases value with
        | none => exact Method.sat_modify_bind (ih (asked.emit rfl))
        | some value => exact Method.sat_modify_bind (ih (asked.emit rfl))
    · exact Method.sat_modify_bind (Method.Sat.throw (balanced.emit rfl))

/-- An event is settled, or kept open for the POST. -/
theorem buildRecord_balanced (balanced : Balanced hooks done open_ calls s)
    (split : open_.Perm (event.id :: rest)) :
    (buildRecord deps route event).Sat bookkeeping calls s fun calls s r => ∀ record, r = .ok record →
      Balanced hooks done ((record.map fun _ => event.id).toList ++ rest) calls s := by
  unfold buildRecord
  cases readEvent deps route event with
  | error err =>
    refine Method.Sat.bind _ (settleUnmapped_balanced balanced split) (fun _ _ _ left => ?_)
      (fun _ _ _ _ record same => by cases same)
    refine Method.Sat.pure fun record same => ?_
    cases same
    exact left () rfl
  | ok out =>
    obtain ⟨payload, result⟩ := out
    simp only []
    split
    · refine Method.Sat.pure fun record same => ?_
      cases same
      exact balanced.perm split
    · refine Method.Sat.tryCatch (fun calls s r => Balanced hooks done open_ calls s ∧
        ∀ record, r = .ok record → record.isSome) ?_ ?_ ?_
      · rw [map_eq_pure_bind]
        refine Method.Sat.bind _ (resolveEnrichments_balanced balanced) (fun _ _ _ left => ?_)
          (fun _ _ _ left => ⟨left, fun record same => by cases same⟩)
        refine Method.Sat.pure ⟨left, fun record same => ?_⟩
        cases same
        rfl
      · intro calls s out left record same
        obtain rfl := Except.ok.inj same
        obtain ⟨filled, rfl⟩ := Option.isSome_iff_exists.mp (left.2 out rfl)
        exact left.1.perm split
      · intro calls s err left
        refine Method.Sat.bind _ (settleUnmapped_balanced left.1 split) (fun _ _ _ left => ?_)
          (fun _ _ _ _ record same => by cases same)
        refine Method.Sat.pure fun record same => ?_
        cases same
        exact left () rfl

/-- The loop over the claimed events leaves open those it built a record of. -/
theorem buildRecords_balanced (balanced : Balanced hooks done open_ calls s)
    (split : open_.Perm (events.map (fun e => e.id) ++ rest)) :
    (buildRecords deps route events).Sat bookkeeping calls s fun calls s r => ∀ built, r = .ok built →
      Balanced hooks done ((built.map Prod.fst).map (fun e => e.id) ++ rest) calls s := by
  induction events generalizing calls s open_ rest with
  | nil =>
    refine Method.Sat.pure fun built same => ?_
    cases same
    exact balanced.perm split
  | cons event events ih =>
    refine Method.Sat.bind _ (buildRecord_balanced balanced split) (fun mid _ record first => ?_)
      (fun _ _ _ _ built same => by cases same)
    have onward : ((record.map fun _ => event.id).toList ++
        (events.map (fun e => e.id) ++ rest)).Perm (events.map (fun e => e.id) ++
          ((record.map fun _ => event.id).toList ++ rest)) := by
      rw [← List.append_assoc, ← List.append_assoc]
      exact List.perm_append_comm.append_right _
    refine Method.Sat.bind _ (ih (first record rfl) onward) (fun _ _ built left => ?_)
      (fun _ _ _ _ built same => by cases same)
    refine Method.Sat.pure fun out same => ?_
    cases same
    cases record with
    | none => exact left built rfl
    | some record => exact (left built rfl).perm List.perm_middle

theorem postAttempts_balanced {records : List EndCloseRecord} {attempts : List Nat}
    {lastErr : RelayError} (balanced : Balanced hooks done open_ calls s) :
    (postAttempts deps records attempts lastErr).Sat bookkeeping calls s
      fun calls s _ => Balanced hooks done open_ calls s := by
  induction attempts generalizing calls s lastErr with
  | nil => exact Method.Sat.throw balanced
  | cons attempt attempts ih =>
    refine Method.sat_call_bind trivial fun answer _ => ?_
    have sent := balanced.neutral
      (x := ⟨.bulkCreateRecords (idempotencyKey deps.runtime records) records, answer⟩)
      ⟨rfl, fun _ _ => rfl⟩
    split
    · exact Method.Sat.pure sent
    · refine Method.sat_call_bind trivial fun _ _ => ih ?_
      exact sent.neutral ⟨rfl, fun _ _ => rfl⟩
    · exact Method.Sat.throw sent

theorem pollResults_balanced {bulkRequestId : Option String} {attempts : Nat}
    (balanced : Balanced hooks done open_ calls s) :
    (pollResults bulkRequestId attempts).Sat bookkeeping calls s
      fun calls s _ => Balanced hooks done open_ calls s := by
  induction attempts generalizing calls s with
  | zero => exact Method.Sat.pure balanced
  | succ attempts ih =>
    refine Method.sat_call_bind trivial fun answer _ => ?_
    have polled := balanced.neutral (x := ⟨.getBulkRequest bulkRequestId, answer⟩)
      ⟨rfl, fun _ _ => rfl⟩
    split
    · exact Method.Sat.pure polled
    · exact Method.Sat.throw polled
    · split
      · refine Method.sat_call_bind trivial fun _ _ => ih ?_
        exact polled.neutral ⟨rfl, fun _ _ => rfl⟩
      · exact Method.sat_ofExcept_bind (fun _ _ => Method.Sat.pure polled) fun _ _ => polled

/-- The rejected and the other rows of a batch are the batch. -/
theorem settled_perm (failed : List String) (mapped : List EventRecord) :
    mapped.Perm (okEvents failed mapped ++ failedEvents failed mapped) := by
  have parts := List.filter_append_perm (fun entry => !isFailed failed entry) mapped.zipIdx
  have same := (parts.map Prod.fst).symm
  rw [List.map_append, List.zipIdx_map_fst] at same
  unfold okEvents failedEvents
  simpa using same

/-- A settlement tells of the whole batch, or fails with the batch still open. -/
theorem settleResults_balanced {bulkRequestId : Option String}
    (balanced : Balanced hooks done open_ calls s)
    (split : open_.Perm (mapped.map (fun e => e.id) ++ rest)) :
    (settleResults bulkRequestId mapped).Sat bookkeeping calls s fun calls s r =>
      match r with
      | .ok _ => Balanced hooks done rest calls s
      | .error _ => Balanced hooks done open_ calls s := by
  have within : mapped.map (fun e => e.id) ⊆ open_ := fun id listed =>
    split.symm.subset (List.mem_append_left _ listed)
  refine Method.sat_call_bind trivial fun deliveredAt _ => ?_
  have timed := balanced.neutral (x := ⟨.now, deliveredAt⟩) ⟨rfl, fun _ _ => rfl⟩
  refine Method.Sat.bind _ (pollResults_balanced timed) (fun mid s failed polled => ?_)
    fun _ _ _ polled => polled
  cases failed with
  | none =>
    refine sat_storeCall_bind (fun id listed => polled.unsent id (within listed)) (fun _ _ => ?_)
      fun _ _ => polled.neutral ⟨rfl, fun _ _ => rfl⟩
    exact Method.Sat.modify (polled.settle (marks_delivered _ deliveredAt bulkRequestId)
      (recordDelivered_records mapped deliveredAt s) split)
  | some failed =>
    have ok : (okEvents failed mapped).map (fun e => e.id) ⊆ open_ := fun id listed =>
      within (((okEvents_sublist failed mapped).map _).subset listed)
    have parked : (failedEvents failed mapped).map (fun e => e.id) ⊆ open_ := fun id listed =>
      within (((failedEvents_sublist failed mapped).map _).subset listed)
    refine sat_storeCall_bind (fun id listed => polled.unsent id (parked listed)) (fun _ _ => ?_)
      fun _ _ => polled.neutral ⟨rfl, fun _ _ => rfl⟩
    obtain ⟨first, stands⟩ := polled.mark parked (marks_parked _ rejectedReason)
      (by intro same; cases same)
    refine sat_storeCall_bind (fun id listed => first.unsent id (ok listed)) (fun _ _ => ?_)
      fun _ _ => first.neutral ⟨rfl, fun _ _ => rfl⟩
    have parts : open_.Perm ((okEvents failed mapped).map (fun e => e.id) ++
        ((failedEvents failed mapped).map (fun e => e.id) ++ rest)) := by
      rw [← List.append_assoc, ← List.map_append]
      exact split.trans (((settled_perm failed mapped).map _).append_right _)
    have marks := marks_delivered ((okEvents failed mapped).map fun e => e.id) deliveredAt
      bulkRequestId
    have delivered := first.settle marks (recordDelivered_records (okEvents failed mapped)
      deliveredAt s) parts
    refine Method.sat_modify_bind (Method.Sat.modify (delivered.record (fun e member => ?_)
      (recordParked_records (failedEvents failed mapped) rejectedReason _) (List.Perm.refl _)))
    have listed := List.mem_map_of_mem (f := fun e : EventRecord => e.id) member
    -- a parked row is not among those marked delivered
    have apart : e.id ∉ (okEvents failed mapped).map fun e => e.id := by
      intro both
      obtain ⟨told, told_, books⟩ := first.books
      have nodup := (List.nodup_append.mp (books.each.nodup_iff.mpr books.nodup)).2.1
      exact (List.nodup_append.mp (parts.nodup_iff.mp nodup)).2.2 e.id both e.id
        (List.mem_append_left _ listed) rfl
    rw [marks.spared apart]
    exact stands e.id listed

theorem forwardBatch_balanced (balanced : Balanced hooks done open_ calls s)
    (split : open_.Perm ((built.map Prod.fst).map (fun e => e.id) ++ rest)) :
    (forwardBatch deps route built).Sat bookkeeping calls s fun calls s r =>
      match r with
      | .ok _ => Balanced hooks done rest calls s
      | .error _ => Balanced hooks done open_ calls s := by
  refine Method.Sat.bind _ (postAttempts_balanced balanced) (fun mid _ accepted posted => ?_)
    fun _ _ _ posted => posted
  refine Method.sat_ofExcept_bind (fun bulkRequestId _ => ?_) fun _ _ => posted
  refine Method.Sat.bind _ (settleResults_balanced posted split) (fun _ _ _ settled => ?_)
    fun _ _ _ failed => failed
  exact Method.Sat.modify (Balanced.emit settled rfl)

theorem settleFailure_balanced {err : RelayError} (balanced : Balanced hooks done open_ calls s)
    (split : open_.Perm (mapped.map (fun e => e.id) ++ rest)) :
    (settleFailure deps route mapped err).Sat bookkeeping calls s (Leaves hooks done rest) := by
  unfold settleFailure
  split
  · split
    · rename_i message status body _
      refine sat_storeCall_bind (fun id listed => balanced.unsent id
        (split.symm.subset (List.mem_append_left _ listed))) (fun _ _ => ?_) fun _ _ => Leaves.error
      have recorded := balanced.settle (marks_parked _ (message ++ ": " ++ body))
        (recordParked_records mapped (message ++ ": " ++ body) s) split
      exact Method.sat_modify_bind (Method.Sat.modify fun _ _ => recorded.emit rfl)
    · exact retry_balanced mapped balanced split
  · exact retry_balanced mapped balanced split

/-- A batch that is delivered without an error leaves no row open. -/
theorem deliverBatch_balanced (balanced : Balanced hooks done (claimed.map fun e => e.id) calls s) :
    (deliverBatch deps route claimed).Sat bookkeeping calls s (Leaves hooks done []) := by
  have whole : (claimed.map fun e => e.id).Perm (claimed.map (fun e => e.id) ++ []) := by simp
  refine Method.Sat.bind _ (buildRecords_balanced balanced whole) (fun mid _ built left => ?_)
    fun _ _ _ _ => Leaves.error
  have rest := left built rfl
  split
  · rename_i none_
    refine Method.Sat.pure fun _ _ => ?_
    rw [List.isEmpty_iff.mp none_] at rest
    exact rest
  · refine Method.Sat.tryCatch _ (forwardBatch_balanced rest (List.Perm.refl _))
      (fun _ _ _ settled _ _ => settled) (fun _ _ err failed => ?_)
    exact settleFailure_balanced failed (List.Perm.refl _)

/-! ## The books of a whole cycle -/

/-- With no row open a release changes nothing. -/
theorem Balanced.release {ids : List Nat} {nextAttemptAt : Int} {error : String} {released : Nat}
    (balanced : Balanced hooks done [] calls s) :
    Balanced hooks done [] (⟨.store (.releaseDelivering ids nextAttemptAt error), .ok released⟩ ::
      calls) s := by
  obtain ⟨told, told_, books⟩ := balanced.books
  refine ⟨balanced.done, fun _ listed => (List.not_mem_nil listed).elim, told, told_, books.nodup,
    books.each, ?_, books.count⟩
  intro entry member
  have stands := books.agree entry member
  have settled : ¬ (entry.1 ∈ ids ∧ standing calls entry.1 = some none) := by
    intro both
    rw [stands] at both
    cases both.2
  exact (if_neg settled).trans stands

theorem releaseLeftover_balanced {error : String} (balanced : Balanced hooks done [] calls s) :
    (releaseLeftover deps claimed error).Sat bookkeeping calls s
      fun calls s _ => Balanced hooks done [] calls s := by
  refine Method.Sat.tryCatch (fun calls s _ => Balanced hooks done [] calls s) ?_
    (fun _ _ _ holds => holds) fun calls s err holds => ?_
  · refine Method.sat_call_bind trivial fun now _ => ?_
    have timed := balanced.neutral (x := ⟨.now, now⟩) ⟨rfl, fun _ _ => rfl⟩
    exact sat_storeCall_bind trivial (fun _ _ => Method.Sat.pure timed.release)
      fun _ _ => timed.neutral ⟨rfl, fun _ _ => rfl⟩
  · have reclaimed : Balanced hooks done [] calls { s with reclaimOwner := some deps.instanceId } :=
      holds.restate rfl fun _ => rfl
    exact Method.Sat.modify (reclaimed.emit rfl)

/-- A release never fails a cycle, and calls nothing a cycle may not. -/
theorem releaseLeftover_sat_any {error : String} :
    (releaseLeftover deps claimed error).Sat bookkeeping calls s fun _ _ _ => True := by
  refine Method.Sat.tryCatch (fun _ _ _ => True) ?_ (fun _ _ _ _ => trivial)
    fun _ _ _ _ => Method.Sat.modify trivial
  refine Method.sat_call_bind trivial fun now _ => ?_
  exact sat_storeCall_bind trivial (fun _ _ => Method.Sat.pure trivial) fun _ _ => trivial

/-- What a route that has been dealt with leaves: no open row, and no other route claimed. -/
def Dealt (hooks : List RelayEvent) (routeId : String) (earlier : List (String × List EventRecord))
    (calls : Calls) (s : State) (r : Except RelayError Unit) : Prop :=
  r = .ok () → ∃ done, Balanced hooks done [] calls s ∧
    ∀ claim ∈ done, claim.1 = routeId ∨ claim ∈ earlier

theorem deliverRoute_balanced {now : Int} {routeId : String}
    (balanced : Balanced hooks done [] calls s) (fresh : routeId ∉ done.map Prod.fst) :
    (deliverRoute deps now routeId).Sat bookkeeping calls s (Dealt hooks routeId done) := by
  have settled : ∀ {calls : Calls} {s : State}, Balanced hooks done [] calls s →
      Dealt hooks routeId done calls s (.ok ()) :=
    fun balanced _ => ⟨done, balanced, fun _ member => .inr member⟩
  have within : ∀ claimed : List EventRecord, ∀ claim ∈ (routeId, claimed) :: done,
      claim.1 = routeId ∨ claim ∈ done := by
    intro claimed claim member
    exact (List.mem_cons.mp member).imp (fun same => congrArg Prod.fst same) id
  refine Method.sat_call_bind trivial fun route _ => Method.sat_call_bind trivial fun paused _ => ?_
  have asked := (balanced.neutral (x := ⟨.getRoute routeId, route⟩) ⟨rfl, fun _ _ => rfl⟩).neutral
    (x := ⟨.isRoutePaused routeId, paused⟩) ⟨rfl, fun _ _ => rfl⟩
  refine Method.sat_ofExcept_bind (fun found _ => ?_) (fun _ _ same => by cases same)
  refine Method.sat_ofExcept_bind (fun paused _ => ?_) (fun _ _ same => by cases same)
  cases found with
  | none => exact Method.Sat.modify (settled (asked.restate rfl fun r => by cases r <;> rfl))
  | some found =>
    simp only []
    split
    · exact Method.Sat.modify (settled (asked.restate rfl fun r => by cases r <;> rfl))
    · refine Method.sat_call_bind trivial fun claimedAt _ => ?_
      have timed := asked.neutral (x := ⟨.now, claimedAt⟩) ⟨rfl, fun _ _ => rfl⟩
      refine sat_storeCall_bind ?_ (fun claimed isClaim => ?_) fun _ _ same => by cases same
      · show routeId ∉ (claims _).map Prod.fst
        rw [timed.done]
        exact fresh
      · have opened : ∀ lease, Balanced hooks ((routeId, claimed) :: done)
            (claimed.map fun e => e.id)
            (⟨.store (.claimDue routeId now deps.dispatch.batchMax lease), .ok claimed⟩ :: _) s :=
          fun lease => timed.claim isClaim
        split
        · rename_i none_
          have nothing : claimed.map (fun e => e.id) = [] := by
            rw [List.isEmpty_iff.mp none_]
            rfl
          exact Method.Sat.pure fun _ => ⟨_, nothing ▸ opened _, within claimed⟩
        · refine Method.Sat.ensuring _ (deliverBatch_balanced (opened _)) fun calls s r left => ?_
          cases r with
          | error err =>
            refine releaseLeftover_sat_any.mono fun _ _ c _ => ?_
            cases c <;> exact fun same => by cases same
          | ok _ =>
            refine (releaseLeftover_balanced (left () rfl)).mono fun _ _ c released => ?_
            cases c with
            | error _ => exact fun same => by cases same
            | ok _ => exact fun _ => ⟨_, released, within claimed⟩

/-- What a part of a cycle that returns leaves: no open row. -/
def Settled (hooks : List RelayEvent) {α : Type} (calls : Calls) (s : State)
    (r : Except RelayError α) : Prop :=
  ∀ a, r = .ok a → ∃ done, Balanced hooks done [] calls s

theorem Settled.error {α : Type} {err : RelayError} :
    Settled hooks calls s (.error err : Except RelayError α) := by
  intro a same
  cases same

theorem deliverDue_balanced {now : Int} {due : List String}
    (balanced : Balanced hooks done [] calls s) (nodup : due.Nodup)
    (fresh : ∀ routeId ∈ due, routeId ∉ done.map Prod.fst) :
    (deliverDue deps now due).Sat bookkeeping calls s (Settled hooks) := by
  induction due generalizing calls s done with
  | nil => exact Method.Sat.pure fun _ _ => ⟨done, balanced⟩
  | cons routeId due ih =>
    rw [List.nodup_cons] at nodup
    refine Method.sat_call_bind trivial fun aborted _ => ?_
    have asked := balanced.neutral (x := ⟨.aborted, aborted⟩) ⟨rfl, fun _ _ => rfl⟩
    split
    · exact Method.Sat.pure fun _ _ => ⟨done, asked⟩
    · refine Method.Sat.bind _ (deliverRoute_balanced asked (fresh routeId (List.mem_cons_self ..)))
        (fun _ _ _ dealt => ?_) fun _ _ _ _ => Settled.error
      obtain ⟨done', balanced', within⟩ := dealt rfl
      refine ih balanced' nodup.2 fun other member listed => ?_
      obtain ⟨claim, mem, rfl⟩ := List.mem_map.mp listed
      rcases within claim mem with same | earlier
      · exact nodup.1 (same ▸ member)
      · exact fresh claim.1 (List.mem_cons_of_mem _ member) (List.mem_map_of_mem earlier)

/-- Before the first claim the books are empty. -/
theorem housekeeping_balanced {now : Int} (balanced : Balanced hooks [] [] calls s) :
    (housekeeping deps now).Sat bookkeeping calls s
      fun calls s _ => Balanced hooks [] [] calls s := by
  refine Method.sat_call_bind trivial fun startedAt _ => Method.sat_get_bind ?_
  have timed := balanced.neutral (x := ⟨.now, startedAt⟩) ⟨rfl, fun _ _ => rfl⟩
  extract_lets sweepDue
  split
  · refine Method.Sat.tryCatch (fun calls s _ => Balanced hooks [] [] calls s) ?_
      (fun _ _ _ holds => holds) fun calls s err holds => Method.Sat.modify (holds.emit rfl)
    refine Method.sat_get_bind (sat_storeCall_bind timed.done (fun count _ => ?_)
      fun _ _ => timed.neutral ⟨rfl, fun _ _ => rfl⟩)
    refine Method.sat_modify_bind ?_
    have recovered : Balanced hooks [] [] _ { s with reclaimOwner := none } := (timed.neutral
      (x := ⟨.store (.recoverDelivering now s.reclaimOwner), .ok count⟩)
      ⟨rfl, fun _ _ => rfl⟩).restate rfl fun _ => rfl
    split
    · refine sat_storeCall_bind recovered.done (fun expired _ => ?_)
        fun _ _ => recovered.neutral ⟨rfl, fun _ _ => rfl⟩
      refine Method.sat_call_bind trivial fun sweptAt _ => Method.Sat.modify ?_
      have swept := recovered.neutral
        (x := ⟨.store (.parkExpired now deps.dispatch.parkAfterMs), .ok expired⟩)
        ⟨rfl, fun _ _ => rfl⟩
      exact (swept.neutral (x := ⟨.now, sweptAt⟩) ⟨rfl, fun _ _ => rfl⟩).restate rfl fun _ => rfl
    · exact Method.Sat.pure recovered
  · exact Method.Sat.pure timed

/-- A cycle that resolves ends with balanced books, no open row, and the summary
the books are kept in. -/
theorem runOnce_balanced (deps : DispatcherDeps) (s : State) :
    (runOnce deps).Sat bookkeeping [] s fun calls s' r => ∀ summary, r = .ok summary →
      Balanced s.hooks (claims calls) [] calls s' ∧ s'.summary = summary := by
  refine Method.Sat.tryCatch (fun calls s' r => ∀ summary, r = .ok summary →
      Balanced s.hooks (claims calls) [] calls s' ∧ s'.summary = summary) ?_
    (fun _ _ _ holds => holds)
    fun _ _ _ _ => Method.sat_modify_bind (Method.Sat.throw fun _ same => by cases same)
  refine Method.sat_call_bind trivial fun now _ => Method.sat_modify_bind ?_
  have opened : Balanced s.hooks [] [] [⟨.now, now⟩] { s with summary := {} } :=
    ⟨rfl, fun _ listed => (List.not_mem_nil listed).elim, [], (List.append_nil _).symm,
      ⟨List.nodup_nil, List.Perm.refl _, fun entry member => (List.not_mem_nil member).elim, fun result => by cases result <;> rfl⟩⟩
  refine Method.Sat.bind _ (housekeeping_balanced opened) (fun calls s' _ ready => ?_)
    (fun _ _ _ _ _ same => by cases same)
  refine Method.Sat.bind (Settled s.hooks) ?_ (fun calls s' _ settled => ?_)
    (fun _ _ _ _ _ same => by cases same)
  · refine Method.sat_call_bind trivial fun killswitch _ => ?_
    have read := ready.neutral (x := ⟨.getKillswitch, killswitch⟩) ⟨rfl, fun _ _ => rfl⟩
    refine Method.sat_ofExcept_bind (fun killswitch _ => ?_) fun _ _ => Settled.error
    split
    · refine sat_storeCall_bind trivial (fun due nodup => ?_) fun _ _ => Settled.error
      have listed := read.neutral (x := ⟨.store (.routesWithDueEvents now), .ok due⟩)
        ⟨rfl, fun _ _ => rfl⟩
      refine Method.sat_modify_bind (deliverDue_balanced
        (listed.restate rfl fun r => by cases r <;> rfl) nodup ?_)
      exact fun _ _ => List.not_mem_nil
    · exact Method.Sat.modify fun _ _ => ⟨[], read.restate rfl fun r => by cases r <;> rfl⟩
  · refine Method.sat_get_bind (Method.Sat.pure fun summary same => ?_)
    obtain ⟨done, balanced⟩ := settled () rfl
    exact ⟨⟨rfl, balanced.unsent, balanced.books⟩, Except.ok.inj same⟩

end

end

end Dispatcher

end EndCloseRelay
