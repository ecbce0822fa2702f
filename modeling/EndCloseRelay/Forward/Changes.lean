import EndCloseRelay.Forward.BatchProtocol

/-!
# What a cycle changes

Each change a cycle makes to what a dispatcher remembers, counts and tells is one
of `Change`, read off the calls before it.  What every call and every change
keeps therefore holds when a cycle ends (`runOnce_kept`): an invariant of the
cycle before it reads the killswitch, and one of the cycle after.
-/

namespace EndCloseRelay

open Interaction

/-- The event tells of what became of rows. -/
def RelayEvent.isResult : RelayEvent → Bool
  | .forward .. | .settled .. | .delivered .. => true
  | _ => false

namespace Dispatcher

/-- A claim among the calls returned these rows. -/
def Claimed (calls : Calls) (batch : List EventRecord) : Prop :=
  ∃ routeId now limit lease, ⟨.store (.claimDue routeId now limit lease), .ok batch⟩ ∈ calls

theorem Claimed.cons {calls : Calls} {batch : List EventRecord} (x : Exchange Op.Answer)
    (claimed : Claimed calls batch) : Claimed (x :: calls) batch := by
  obtain ⟨routeId, now, limit, lease, member⟩ := claimed
  exact ⟨routeId, now, limit, lease, List.mem_cons_of_mem _ member⟩

/-- What a cycle can do to its state after some calls. -/
inductive Change (calls : Calls) (s : State) : State → Prop
  | emit {event} (plain : event.isResult = false) : Change calls s (s.emit event)
  | delivered {events batch deliveredAt} (claimed : Claimed calls batch) (within : ∀ e ∈ events, e ∈ batch) :
      Change calls s (s.recordDelivered events deliveredAt)
  | parked {events batch reason} (claimed : Claimed calls batch) (within : ∀ e ∈ events, e ∈ batch) :
      Change calls s (s.recordParked events reason)
  | retried {events routeId error} : Change calls s (s.recordRetried routeId events error)
  | reclaim {owner} : Change calls s { s with reclaimOwner := owner }
  | swept {sweptAt} : Change calls s { s with lastSweepAt := sweptAt }
  | due {due} : Change calls s { s with summary := { s.summary with due } }
  | halted {killswitch} (read : ⟨.getKillswitch, .ok killswitch⟩ ∈ calls) (on : killswitch ≠ .none) :
      Change calls s { s with summary := { s.summary with halted := true } }
  | unknown {routeId} (read : ⟨.getRoute routeId, .ok none⟩ ∈ calls) :
      Change calls s (s.skip routeId .unknownRoute)
  | paused {routeId} (read : ⟨.isRoutePaused routeId, .ok true⟩ ∈ calls) :
      Change calls s (s.skip routeId .paused)

/-- An invariant that every call, but the reading of the killswitch, and every
change of a cycle keeps. -/
structure Keeper (D : Discipline Op Op.Answer) (inv : Calls → State → Prop) : Prop where
  free : ∀ calls op, D.allowed calls op
  call : ∀ calls s op answer, inv calls s → D.admits calls op answer → op ≠ .getKillswitch →
    inv (⟨op, answer⟩ :: calls) s
  change : ∀ calls s s', inv calls s → Change calls s s' → inv calls s'

/-- A method that works on a claimed batch and keeps an invariant. -/
abbrev Kept (D : Discipline Op Op.Answer) (inv : Calls → State → Prop) (batch : List EventRecord)
    {α : Type} (m : Body α) (returns : α → Prop) : Prop :=
  Method.Keeps D (fun calls s => inv calls s ∧ Claimed calls batch) m returns

section

variable {D : Discipline Op Op.Answer} {inv : Calls → State → Prop} {batch : List EventRecord}
  {calls : Calls} {s : State} {op : Op} {event : EventRecord} {deps : DispatcherDeps}
  {route : RouteConfig}

theorem Keeper.ask (keeper : Keeper D inv) (other : op ≠ .getKillswitch) :
    Kept D inv batch (Dispatcher.ask op) fun _ => True :=
  Method.Keeps.call (fun calls _ _ => keeper.free calls op) fun calls s answer kept admitted =>
    ⟨keeper.call calls s op answer kept.1 admitted other, kept.2.cons _⟩

theorem Keeper.step (keeper : Keeper D inv) {f : State → State}
    (changes : ∀ calls s, Claimed calls batch → Change calls s (f s)) :
    Kept D inv batch (modify f) fun _ => True :=
  Method.Keeps.modify fun calls s kept =>
    ⟨keeper.change calls s (f s) kept.1 (changes calls s kept.2), kept.2⟩

theorem Keeper.store (keeper : Keeper D inv) {op : StoreOp} :
    Kept D inv batch (Dispatcher.store op) fun _ => True :=
  (keeper.ask (fun same => by cases same)).bind fun _ _ => Method.Keeps.ofExcept.mono fun _ _ => trivial

/-- Telling something other than a result. -/
theorem Keeper.tell (keeper : Keeper D inv) {told : RelayEvent} (plain : told.isResult = false) :
    Kept D inv batch (modify (State.emit told)) fun _ => True :=
  keeper.step fun _ _ _ => .emit plain

/-! ## The methods of a batch -/

theorem scheduleAttempt_kept (keeper : Keeper D inv) {attempts : Nat} :
    Kept D inv batch (scheduleAttempt deps attempts) fun _ => True :=
  (keeper.ask fun same => by cases same).bind fun _ _ =>
    (keeper.ask fun same => by cases same).bind fun _ _ => Method.Keeps.pure trivial

theorem settleUnmapped_kept (keeper : Keeper D inv) {stage : Stage} {err : RelayError}
    (member : event ∈ batch) :
    Kept D inv batch (settleUnmapped deps event stage err) fun _ => True := by
  have one : ∀ e ∈ [event], e ∈ batch := by
    intro e listed
    rw [List.mem_singleton.mp listed]
    exact member
  have parks : ∀ reason, Kept D inv batch (parkOne event reason) fun _ => True := fun reason =>
    keeper.store.bind fun _ _ => keeper.step fun _ _ claimed => .parked claimed one
  unfold settleUnmapped
  split
  · exact parks _
  · exact parks _
  · cases stage with
    | mapping => exact Method.Keeps.throw
    | enrichment =>
      exact (scheduleAttempt_kept keeper).bind fun _ _ => keeper.store.bind fun _ _ =>
        keeper.step fun _ _ _ => .retried

theorem resolveEnrichments_kept (keeper : Keeper D inv) {payload : Json}
    {pending : List PendingEnrichment} {record : EndCloseRecord} :
    Kept D inv batch (resolveEnrichments deps event payload pending record) fun _ => True := by
  induction pending generalizing record with
  | nil => exact Method.Keeps.pure trivial
  | cons p pending ih =>
    unfold resolveEnrichments
    split
    · refine (keeper.ask fun same => by cases same).bind fun returned _ => ?_
      split
      · exact (keeper.tell rfl).bind fun _ _ => Method.Keeps.throw
      · exact (keeper.tell rfl).bind fun _ _ => ih
      · exact (keeper.tell rfl).bind fun _ _ => ih
    · exact (keeper.tell rfl).bind fun _ _ => Method.Keeps.throw

theorem buildRecord_kept (keeper : Keeper D inv) (member : event ∈ batch) :
    Kept D inv batch (buildRecord deps route event) fun _ => True := by
  have settles : ∀ stage err, Kept D inv batch (do
      settleUnmapped deps event stage err
      pure (none : Option EndCloseRecord)) fun _ => True :=
    fun _ _ => (settleUnmapped_kept keeper member).bind fun _ _ => Method.Keeps.pure trivial
  unfold buildRecord
  split
  · exact settles _ _
  · split
    · exact Method.Keeps.pure trivial
    · refine Method.Keeps.tryCatch ?_ (settles .enrichment)
      rw [map_eq_pure_bind]
      exact (resolveEnrichments_kept keeper).bind fun _ _ => Method.Keeps.pure trivial

/-- The events records were built of are events of the batch. -/
theorem buildRecords_kept (keeper : Keeper D inv) {events : List EventRecord}
    (within : ∀ e ∈ events, e ∈ batch) :
    Kept D inv batch (buildRecords deps route events) fun built => ∀ b ∈ built, b.1 ∈ batch := by
  induction events with
  | nil => exact Method.Keeps.pure fun b listed => by cases listed
  | cons event events ih =>
    have here := within event List.mem_cons_self
    refine (buildRecord_kept keeper here).bind fun record _ => ?_
    refine (ih fun e member => within e (List.mem_cons_of_mem _ member)).bind fun built rest => ?_
    refine Method.Keeps.pure fun b listed => ?_
    cases record with
    | none => exact rest b listed
    | some record =>
      rcases List.mem_cons.mp listed with rfl | listed
      · exact here
      · exact rest b listed

theorem postAttempts_kept (keeper : Keeper D inv) {records : List EndCloseRecord}
    {attempts : List Nat} {lastErr : RelayError} :
    Kept D inv batch (postAttempts deps records attempts lastErr) fun _ => True := by
  induction attempts generalizing lastErr with
  | nil => exact Method.Keeps.throw
  | cons attempt attempts ih =>
    refine (keeper.ask fun same => by cases same).bind fun answer _ => ?_
    split
    · exact Method.Keeps.pure trivial
    · exact (keeper.ask fun same => by cases same).bind fun _ _ => ih
    · exact Method.Keeps.throw

theorem pollResults_kept (keeper : Keeper D inv) {bulkRequestId : Option String} {attempts : Nat} :
    Kept D inv batch (pollResults bulkRequestId attempts) fun _ => True := by
  induction attempts with
  | zero => exact Method.Keeps.pure trivial
  | succ attempts ih =>
    refine (keeper.ask fun same => by cases same).bind fun answer _ => ?_
    split
    · exact Method.Keeps.pure trivial
    · exact Method.Keeps.throw
    · split
      · exact (keeper.ask fun same => by cases same).bind fun _ _ => ih
      · exact Method.Keeps.ofExcept.bind fun _ _ => Method.Keeps.pure trivial

theorem settleResults_kept (keeper : Keeper D inv) {bulkRequestId : Option String}
    {mapped : List EventRecord} (within : ∀ e ∈ mapped, e ∈ batch) :
    Kept D inv batch (settleResults bulkRequestId mapped) fun _ => True := by
  refine (keeper.ask fun same => by cases same).bind fun deliveredAt _ => ?_
  refine (pollResults_kept keeper).bind fun failed _ => ?_
  cases failed with
  | none =>
    exact keeper.store.bind fun _ _ => keeper.step fun _ _ claimed => .delivered claimed within
  | some failed =>
    refine keeper.store.bind fun _ _ => keeper.store.bind fun _ _ => ?_
    refine (keeper.step fun _ _ claimed => .delivered claimed fun e listed => ?_).bind fun _ _ =>
      keeper.step fun _ _ claimed => .parked claimed fun e listed => ?_
    · exact within e ((okEvents_sublist failed mapped).subset listed)
    · exact within e ((failedEvents_sublist failed mapped).subset listed)

theorem settleFailure_kept (keeper : Keeper D inv) {mapped : List EventRecord} {err : RelayError}
    (within : ∀ e ∈ mapped, e ∈ batch) :
    Kept D inv batch (settleFailure deps route mapped err) fun _ => True := by
  have retries : ∀ message, Kept D inv batch (retryBatch deps route mapped message) fun _ => True :=
    fun message => (scheduleAttempt_kept keeper).bind fun _ _ => keeper.store.bind fun _ _ =>
      keeper.step fun _ _ _ => .retried
  unfold settleFailure
  split
  · split
    · exact keeper.store.bind fun _ _ =>
        (keeper.step fun _ _ claimed => .parked claimed within).bind fun _ _ => keeper.tell rfl
    · exact retries _
  · exact retries _

theorem deliverBatch_kept (keeper : Keeper D inv) :
    Kept D inv batch (deliverBatch deps route batch) fun _ => True := by
  refine (buildRecords_kept keeper fun e member => member).bind fun built ofBatch => ?_
  have within : ∀ e ∈ built.map Prod.fst, e ∈ batch := by
    intro e member
    obtain ⟨b, here, rfl⟩ := List.mem_map.mp member
    exact ofBatch b here
  split
  · exact Method.Keeps.pure trivial
  · refine Method.Keeps.tryCatch ?_ fun err => settleFailure_kept keeper within
    refine (postAttempts_kept keeper).bind fun accepted _ => Method.Keeps.ofExcept.bind fun id _ => ?_
    exact (settleResults_kept keeper within).bind fun _ _ => keeper.tell rfl

theorem releaseLeftover_kept (keeper : Keeper D inv) {error : String} :
    Kept D inv batch (releaseLeftover deps batch error) fun _ => True := by
  refine Method.Keeps.tryCatch ?_ fun err => Method.Keeps.modify fun calls s kept => ?_
  · exact (keeper.ask fun same => by cases same).bind fun _ _ => keeper.store.bind fun _ _ =>
      Method.Keeps.pure trivial
  · have reclaimed := keeper.change calls s _ kept.1 (@Change.reclaim calls s (some deps.instanceId))
    exact ⟨keeper.change calls _ _ reclaimed (.emit rfl), kept.2⟩

/-! ## A whole cycle -/

theorem deliverRoute_kept (keeper : Keeper D inv) {now : Int} {routeId : String} :
    Method.Keeps D inv (deliverRoute deps now routeId) fun _ => True := by
  intro calls s kept
  have other : ∀ {op : Op}, op ≠ .getKillswitch → ∀ {calls s answer}, inv calls s →
      D.admits calls op answer → inv (⟨op, answer⟩ :: calls) s :=
    fun other _ _ _ kept admitted => keeper.call _ _ _ _ kept admitted other
  refine Method.sat_call_bind (keeper.free _ _) fun route routed => ?_
  refine Method.sat_call_bind (keeper.free _ _) fun paused asked => ?_
  have read := other (fun same => by cases same) (other (fun same => by cases same) kept routed) asked
  refine Method.sat_ofExcept_bind (fun found same => ?_) fun _ _ => ⟨read, fun _ _ => trivial⟩
  refine Method.sat_ofExcept_bind (fun stopped same' => ?_) fun _ _ => ⟨read, fun _ _ => trivial⟩
  subst same same'
  cases found with
  | none =>
    exact Method.Sat.modify ⟨keeper.change _ _ _ read
      (.unknown (List.mem_cons_of_mem _ List.mem_cons_self)), fun _ _ => trivial⟩
  | some found =>
    simp only []
    split
    · rename_i on
      subst on
      exact Method.Sat.modify ⟨keeper.change _ _ _ read (.paused List.mem_cons_self), fun _ _ => trivial⟩
    · refine Method.sat_call_bind (keeper.free _ _) fun claimedAt timed => ?_
      have read' := other (fun same => by cases same) read timed
      refine sat_storeCall_bind (keeper.free _ _) (fun claimed admitted => ?_) fun _ admitted =>
        ⟨other (fun same => by cases same) read' admitted, fun _ _ => trivial⟩
      have taken := other (fun same => by cases same) read' admitted
      split
      · exact Method.Sat.pure ⟨taken, fun _ _ => trivial⟩
      · refine Method.Sat.ensuring _ (deliverBatch_kept keeper _ _
          ⟨taken, _, _, _, _, List.mem_cons_self⟩) fun calls s r left => ?_
        refine (releaseLeftover_kept keeper calls s left.1).mono fun _ _ c released => ?_
        cases c <;> exact ⟨released.1.1, fun _ _ => trivial⟩

theorem deliverDue_kept (keeper : Keeper D inv) {now : Int} {due : List String} :
    Method.Keeps D inv (deliverDue deps now due) fun _ => True := by
  induction due with
  | nil => exact Method.Keeps.pure trivial
  | cons routeId due ih =>
    refine (Method.Keeps.call (fun calls _ _ => keeper.free calls _) fun calls s answer kept admitted =>
      keeper.call calls s _ answer kept admitted fun same => by cases same).bind fun aborted _ => ?_
    split
    · exact Method.Keeps.pure trivial
    · exact (deliverRoute_kept keeper).bind fun _ _ => ih

/-- A call outside a batch. -/
theorem Keeper.asks (keeper : Keeper D inv) (other : op ≠ .getKillswitch) :
    Method.Keeps D inv (Dispatcher.ask op) fun _ => True :=
  Method.Keeps.call (fun calls _ _ => keeper.free calls op) fun calls s answer kept admitted =>
    keeper.call calls s op answer kept admitted other

theorem Keeper.stores (keeper : Keeper D inv) {op : StoreOp} :
    Method.Keeps D inv (Dispatcher.store op) fun _ => True :=
  (keeper.asks fun same => by cases same).bind fun _ _ => Method.Keeps.ofExcept.mono fun _ _ => trivial

/-- A change outside a batch. -/
theorem Keeper.steps (keeper : Keeper D inv) {f : State → State} (changes : ∀ calls s, Change calls s (f s)) :
    Method.Keeps D inv (modify f : Body Unit) fun _ => True :=
  Method.Keeps.modify fun calls s kept => keeper.change calls s (f s) kept (changes calls s)

theorem recover_kept (keeper : Keeper D inv) {now : Int} {sweepDue : Bool} :
    Method.Keeps D inv (recover deps now sweepDue) fun _ => True := by
  refine Method.Keeps.tryCatch ?_ fun err => keeper.steps fun _ _ => .emit rfl
  intro calls s kept
  refine Method.sat_get_bind ?_
  refine (keeper.stores.bind fun _ _ => (keeper.steps fun _ _ => .reclaim).bind fun _ _ => ?_) calls s kept
  split
  · exact keeper.stores.bind fun _ _ => (keeper.asks fun same => by cases same).bind fun _ _ =>
      keeper.steps fun _ _ => .swept
  · exact Method.Keeps.pure trivial

theorem housekeeping_kept (keeper : Keeper D inv) {now : Int} :
    Method.Keeps D inv (housekeeping deps now) fun _ => True := by
  refine (keeper.asks fun same => by cases same).bind fun startedAt _ => ?_
  intro calls s kept
  refine Method.sat_get_bind ?_
  extract_lets sweepDue
  split
  · exact recover_kept keeper calls s kept
  · exact Method.Sat.pure ⟨kept, fun _ _ => trivial⟩

variable {before : Calls → State → Prop}

/-- The forwarding half of a cycle reads the killswitch first. -/
theorem forwardDue_kept (keeper : Keeper D inv) {now : Int}
    (read : ∀ answer, D.admits calls .getKillswitch answer → inv (⟨.getKillswitch, answer⟩ :: calls) s) :
    (forwardDue deps now).Sat D calls s fun calls s _ => inv calls s := by
  refine Method.sat_call_bind (keeper.free _ _) fun answer admitted => ?_
  have after := read answer admitted
  refine Method.sat_ofExcept_bind (fun killswitch same => ?_) fun _ _ => after
  subst same
  split
  · refine ((keeper.stores.bind fun due _ => (keeper.steps fun _ _ => .due).bind fun _ _ =>
      deliverDue_kept keeper) _ _ after).mono fun _ _ _ left => left.1
  · rename_i on
    exact Method.Sat.modify (keeper.change _ _ _ after (.halted List.mem_cons_self on))

/-- Where a cycle leads: to the second invariant, or it failed under either; it
returns its summary. -/
def Ends (before after : Calls → State → Prop) (calls : Calls) (s : State)
    (r : Except RelayError CycleSummary) : Prop :=
  (∀ summary, r = .ok summary → after calls s ∧ s.summary = summary) ∧
    ∀ err, r = .error err → before calls s ∨ after calls s

theorem Ends.error {err : RelayError} (left : before calls s ∨ inv calls s) :
    Ends before inv calls s (.error err) :=
  ⟨fun _ same => (by cases same), fun _ _ => left⟩

theorem Ends.ok (left : inv calls s) : Ends before inv calls s (.ok s.summary) := by
  refine ⟨fun summary same => ⟨left, Except.ok.inj same⟩, fun _ same => ?_⟩
  cases same

/-- From an invariant that a new summary has, a cycle leads by the reading of
the killswitch to another. -/
theorem runOnce_kept (deps : DispatcherDeps) (keeper₁ : Keeper D before) (keeper₂ : Keeper D inv)
    (start : ∀ now, D.admits calls .now now → before (⟨.now, now⟩ :: calls) { s with summary := {} })
    (read : ∀ calls s answer, before calls s → D.admits calls .getKillswitch answer →
      inv (⟨.getKillswitch, answer⟩ :: calls) s) :
    (runOnce deps).Sat D calls s (Ends before inv) := by
  refine Method.Sat.tryCatch (Ends before inv) ?_ (fun _ _ _ ends => ends) fun calls s err ends => ?_
  · refine Method.sat_call_bind (keeper₁.free _ _) fun now admitted => ?_
    refine Method.sat_modify_bind ?_
    refine Method.Sat.bind _ (housekeeping_kept keeper₁ _ _ (start now admitted)) (fun calls s _ kept => ?_)
      fun _ _ err kept => .error (.inl kept.1)
    refine Method.Sat.bind _ (forwardDue_kept keeper₂ fun answer => read calls s answer kept.1)
      (fun calls s _ left => Method.sat_get_bind (Method.Sat.pure (.ok left)))
      fun _ _ err left => .error (.inr left)
  · refine Method.sat_modify_bind (Method.Sat.throw (.error ?_))
    rcases ends.2 err rfl with kept | kept
    · exact .inl (keeper₁.change _ _ _ kept (.emit rfl))
    · exact .inr (keeper₂.change _ _ _ kept (.emit rfl))

end

end Dispatcher

end EndCloseRelay
