import EndCloseRelay.Forward.BatchProtocol

/-!
# Work on a batch

Between a claim and the next a cycle is busy with its batch: it asks the world
for nothing but what a batch needs.  What such calls leave as it is, a method
that works on a batch leaves so too.
-/

namespace EndCloseRelay.Dispatcher

open Interaction

/-- The calls a cycle makes about a batch it has claimed, when it may make these POSTs. -/
def isBatchWork (may : String → List EndCloseRecord → Prop) : Op → Prop
  | .store (.markDelivered ..) | .store (.markFailed ..) | .store (.markParked ..)
  | .store (.releaseDelivering ..) => True
  | .bulkCreateRecords key records => may key records
  | .enrich .. | .getBulkRequest _ => True
  | .now | .random | .sleep _ => True
  | .store _ | .getKillswitch | .getRoute _ | .isRoutePaused _ | .aborted => False

/-- A cycle that is at a batch. -/
def batchWork (may : String → List EndCloseRecord → Prop) : Discipline Op Op.Answer where
  allowed _ op := isBatchWork may op
  admits _ _ _ := True

/-- A method that only works on a batch. -/
abbrev Works (may : String → List EndCloseRecord → Prop) {α : Type} (m : Body α) : Prop :=
  Method.Keeps (batchWork may) (fun _ _ => True) m fun _ => True

/-- The same calls, of a batch whose pending fields name known enrichments. -/
def isBatchCall (deps : DispatcherDeps) (may : String → List EndCloseRecord → Prop) : Op → Prop
  | .enrich _ enrichment _ _ => knowsEnrichment deps enrichment
  | op => isBatchWork may op

/-- A method that only makes these calls. -/
abbrev Busy (deps : DispatcherDeps) (may : String → List EndCloseRecord → Prop) {α : Type} (m : Body α) :
    Prop :=
  Method.Keeps
    { allowed := fun _ op => isBatchCall deps may op, admits := fun _ _ _ => True : Discipline Op Op.Answer }
    (fun _ _ => True) m fun _ => True

section

variable {may : String → List EndCloseRecord → Prop} {deps : DispatcherDeps} {route : RouteConfig}
  {event : EventRecord}

/-- A method that works on a batch keeps another discipline, and an invariant of
the calls, where every such call does. -/
theorem Works.carry {D : Discipline Op Op.Answer} {α : Type} {m : Body α} {calls : Calls} {s : State}
    (inv : Calls → Prop) (works : Works may m) (here : inv calls)
    (step : ∀ calls op (answer : op.Answer), inv calls → isBatchWork may op →
      inv (⟨op, answer⟩ :: calls))
    (keeps : ∀ calls op, inv calls → isBatchWork may op → D.allowed calls op) :
    m.Sat D calls s fun calls _ _ => inv calls :=
  (Program.Sat.carry (D := batchWork may) (E := D) inv (works calls s trivial) here
    (fun calls op answer kept work _ => ⟨trivial, step calls op answer kept work⟩) keeps).mono
    fun _ _ holds => holds.2

theorem busy_ask {op : Op} (work : isBatchCall deps may op) : Busy deps may (ask op) :=
  Method.Keeps.call (fun _ _ _ => work) fun _ _ _ _ _ => trivial

theorem busy_store {op : StoreOp} (work : isBatchCall deps may (.store op)) : Busy deps may (store op) :=
  (busy_ask work).bind fun _ _ => Method.Keeps.ofExcept.mono fun _ _ => trivial

theorem busy_modify {f : State → State} : Busy deps may (modify f) :=
  Method.Keeps.modify fun _ _ _ => trivial

theorem scheduleAttempt_busy {attempts : Nat} : Busy deps may (scheduleAttempt deps attempts) :=
  (busy_ask (by trivial)).bind fun _ _ => (busy_ask (by trivial)).bind fun _ _ => Method.Keeps.pure trivial

theorem park_busy {ids : List Nat} {reason : String} {f : State → State} :
    Busy deps may (do store (.markParked ids reason); modify f) :=
  (busy_store (by trivial)).bind fun _ _ => busy_modify

theorem retry_busy {ids : List Nat} {attempts : Nat} {message : String} {f : State → State} :
    Busy deps may (do
      let next ← scheduleAttempt deps attempts
      store (.markFailed ids next message)
      modify f) :=
  scheduleAttempt_busy.bind fun _ _ => (busy_store (by trivial)).bind fun _ _ => busy_modify

theorem settleUnmapped_busy {stage : Stage} {err : RelayError} :
    Busy deps may (settleUnmapped deps event stage err) := by
  unfold settleUnmapped
  split
  · exact park_busy
  · exact park_busy
  · split
    · exact retry_busy
    · exact Method.Keeps.throw

theorem resolveEnrichments_busy {payload : Json} {pending : List PendingEnrichment}
    {record : EndCloseRecord} : Busy deps may (resolveEnrichments deps event payload pending record) := by
  induction pending generalizing record with
  | nil => exact Method.Keeps.pure trivial
  | cons p pending ih =>
    unfold resolveEnrichments
    split
    · rename_i known
      have asks : Busy deps may (ask (.enrich event.id p.enrichment p.input
          (enrichContext event payload p.field))) := busy_ask known
      refine asks.bind fun returned _ => ?_
      split
      · exact busy_modify.bind fun _ _ => Method.Keeps.throw
      · exact busy_modify.bind fun _ _ => ih
      · exact busy_modify.bind fun _ _ => ih
    · exact busy_modify.bind fun _ _ => Method.Keeps.throw

theorem buildRecord_busy : Busy deps may (buildRecord deps route event) := by
  unfold buildRecord
  have settles : ∀ stage err, Busy deps may (do
      settleUnmapped deps event stage err
      Pure.pure (none : Option EndCloseRecord)) :=
    fun stage err => settleUnmapped_busy.bind fun _ _ => Method.Keeps.pure trivial
  split
  · exact settles _ _
  · split
    · exact Method.Keeps.pure trivial
    · refine Method.Keeps.tryCatch ?_ fun err => settles _ err
      rw [map_eq_pure_bind]
      exact resolveEnrichments_busy.bind fun _ _ => Method.Keeps.pure trivial

theorem buildRecords_busy {events : List EventRecord} : Busy deps may (buildRecords deps route events) := by
  induction events with
  | nil => exact Method.Keeps.pure trivial
  | cons event events ih =>
    exact buildRecord_busy.bind fun _ _ => ih.bind fun _ _ => Method.Keeps.pure trivial

theorem postAttempts_busy {records : List EndCloseRecord} {attempts : List Nat}
    {lastErr : RelayError} (permits : may (idempotencyKey deps.runtime records) records) :
    Busy deps may (postAttempts deps records attempts lastErr) := by
  induction attempts generalizing lastErr with
  | nil => exact Method.Keeps.throw
  | cons attempt attempts ih =>
    have posts : Busy deps may (ask (.bulkCreateRecords (idempotencyKey deps.runtime records) records)) :=
      busy_ask permits
    refine posts.bind fun answer _ => ?_
    split
    · exact Method.Keeps.pure trivial
    · exact (busy_ask (by trivial)).bind fun _ _ => ih
    · exact Method.Keeps.throw

theorem pollResults_busy {bulkRequestId : Option String} {attempts : Nat} :
    Busy deps may (pollResults bulkRequestId attempts) := by
  induction attempts with
  | zero => exact Method.Keeps.pure trivial
  | succ attempts ih =>
    refine (busy_ask (by trivial)).bind fun answer _ => ?_
    split
    · exact Method.Keeps.pure trivial
    · exact Method.Keeps.throw
    · split
      · exact (busy_ask (by trivial)).bind fun _ _ => ih
      · exact Method.Keeps.ofExcept.bind fun _ _ => Method.Keeps.pure trivial

theorem settleResults_busy {bulkRequestId : Option String} {mapped : List EventRecord} :
    Busy deps may (settleResults bulkRequestId mapped) := by
  refine (busy_ask (by trivial)).bind fun deliveredAt _ => pollResults_busy.bind fun failed _ => ?_
  cases failed with
  | none => exact (busy_store (by trivial)).bind fun _ _ => busy_modify
  | some failed =>
    refine (busy_store (by trivial)).bind fun _ _ => (busy_store (by trivial)).bind fun _ _ => ?_
    exact busy_modify.bind fun _ _ => busy_modify

theorem settleFailure_busy {mapped : List EventRecord} {err : RelayError} :
    Busy deps may (settleFailure deps route mapped err) := by
  unfold settleFailure
  split
  · split
    · exact (busy_store (by trivial)).bind fun _ _ => busy_modify.bind fun _ _ => busy_modify
    · exact retry_busy
  · exact retry_busy

/-- The POST of a batch and what comes of it. -/
theorem forward_busy {built : List (EventRecord × EndCloseRecord)}
    (permits : may (idempotencyKey deps.runtime (built.map Prod.snd)) (built.map Prod.snd)) :
    Busy deps may (tryCatch (forwardBatch deps route built)
      (settleFailure deps route (built.map Prod.fst))) := by
  refine Method.Keeps.tryCatch ?_ fun err => settleFailure_busy
  refine (postAttempts_busy permits).bind fun accepted _ => Method.Keeps.ofExcept.bind fun id _ => ?_
  exact settleResults_busy.bind fun _ _ => busy_modify

theorem deliverBatch_busy {claimed : List EventRecord}
    (permits : ∀ records, may (idempotencyKey deps.runtime records) records) :
    Busy deps may (deliverBatch deps route claimed) := by
  refine buildRecords_busy.bind fun built _ => ?_
  split
  · exact Method.Keeps.pure trivial
  · exact forward_busy (permits _)

theorem releaseLeftover_busy {claimed : List EventRecord} {error : String} :
    Busy deps may (releaseLeftover deps claimed error) :=
  Method.Keeps.tryCatch
    ((busy_ask (by trivial)).bind fun _ _ => (busy_store (by trivial)).bind fun _ _ =>
      Method.Keeps.pure trivial) fun _ => busy_modify

/-! Such methods only work on a batch. -/

theorem Busy.works {α : Type} {m : Body α} (busy : Busy deps may m) : Works may m := by
  intro calls s kept
  refine (Program.Sat.carry (E := batchWork may) (fun _ => True) (busy calls s kept) trivial
    (fun _ _ _ _ _ _ => ⟨trivial, trivial⟩) fun _ op _ work => ?_).mono fun _ _ holds => holds.1
  cases op with
  | enrich _ _ _ _ => trivial
  | _ => exact work

theorem deliverBatch_works {claimed : List EventRecord}
    (permits : ∀ records, may (idempotencyKey deps.runtime records) records) :
    Works may (deliverBatch deps route claimed) :=
  (deliverBatch_busy permits).works

theorem releaseLeftover_works {claimed : List EventRecord} {error : String} :
    Works may (releaseLeftover deps claimed error) :=
  releaseLeftover_busy.works

end

/-! ## A cycle around its batches -/

/-- The calls a cycle makes outside its batches. -/
def isCycleCall : Op → Prop
  | .store (.recoverDelivering ..) | .store (.parkExpired ..) | .store (.routesWithDueEvents _)
  | .store (.claimDue ..) => True
  | .getKillswitch | .getRoute _ | .isRoutePaused _ | .aborted | .now => True
  | _ => False

section

variable {D : Discipline Op Op.Answer} {deps : DispatcherDeps} {calls : Calls} {s : State}

/-- A discipline that allows those calls is kept where the work on a batch keeps it. -/
structure BatchesKeep (D : Discipline Op Op.Answer) (deps : DispatcherDeps) : Prop where
  elsewhere : ∀ calls op, isCycleCall op → D.allowed calls op
  delivers : ∀ route claimed routeId now limit lease calls s,
    (deliverBatch deps route claimed).Sat D
      (⟨.store (.claimDue routeId now limit lease), .ok claimed⟩ :: calls) s fun _ _ _ => True
  releases : ∀ claimed error calls s,
    (releaseLeftover deps claimed error).Sat D calls s fun _ _ _ => True

namespace BatchesKeep

theorem deliverRoute (keep : BatchesKeep D deps) {now : Int} {routeId : String} :
    (deliverRoute deps now routeId).Sat D calls s fun _ _ _ => True := by
  refine Method.sat_call_bind (keep.elsewhere _ _ trivial) fun route _ =>
    Method.sat_call_bind (keep.elsewhere _ _ trivial) fun paused _ => ?_
  refine Method.sat_ofExcept_bind (fun found _ => ?_) fun _ _ => trivial
  refine Method.sat_ofExcept_bind (fun stopped _ => ?_) fun _ _ => trivial
  cases found with
  | none => exact Method.Sat.modify trivial
  | some found =>
    simp only []
    split
    · exact Method.Sat.modify trivial
    · refine Method.sat_call_bind (keep.elsewhere _ _ trivial) fun claimedAt _ => ?_
      refine sat_storeCall_bind (keep.elsewhere _ _ trivial) (fun claimed _ => ?_) fun _ _ => trivial
      split
      · exact Method.Sat.pure trivial
      · refine Method.Sat.ensuring _ (keep.delivers ..) fun mid s r _ => ?_
        refine (keep.releases ..).mono fun _ _ c _ => ?_
        cases c <;> trivial

theorem deliverDue (keep : BatchesKeep D deps) {now : Int} {due : List String} :
    (deliverDue deps now due).Sat D calls s fun _ _ _ => True := by
  induction due generalizing calls s with
  | nil => exact Method.Sat.pure trivial
  | cons routeId due ih =>
    refine Method.sat_call_bind (keep.elsewhere _ _ trivial) fun aborted _ => ?_
    split
    · exact Method.Sat.pure trivial
    · exact Method.Sat.bind _ keep.deliverRoute (fun _ _ _ _ => ih) fun _ _ _ _ => trivial

theorem housekeeping (keep : BatchesKeep D deps) {now : Int} :
    (housekeeping deps now).Sat D calls s fun _ _ _ => True := by
  refine Method.sat_call_bind (keep.elsewhere _ _ trivial) fun startedAt _ => Method.sat_get_bind ?_
  extract_lets sweepDue
  split
  · refine Method.Sat.tryCatch (fun _ _ _ => True) ?_ (fun _ _ _ _ => trivial)
      fun _ _ _ _ => Method.Sat.modify trivial
    refine Method.sat_get_bind
      (sat_storeCall_bind (keep.elsewhere _ _ trivial) (fun _ _ => ?_) fun _ _ => trivial)
    refine Method.sat_modify_bind ?_
    split
    · refine sat_storeCall_bind (keep.elsewhere _ _ trivial) (fun _ _ => ?_) fun _ _ => trivial
      exact Method.sat_call_bind (keep.elsewhere _ _ trivial) fun _ _ => Method.Sat.modify trivial
    · exact Method.Sat.pure trivial
  · exact Method.Sat.pure trivial

/-- A cycle keeps it too. -/
theorem runOnce (keep : BatchesKeep D deps) :
    (runOnce deps).Sat D calls s fun _ _ _ => True := by
  refine Method.Sat.tryCatch (fun _ _ _ => True) ?_ (fun _ _ _ _ => trivial) fun _ _ _ _ =>
    Method.sat_modify_bind (Method.Sat.throw trivial)
  refine Method.sat_call_bind (keep.elsewhere _ _ trivial) fun now _ => Method.sat_modify_bind ?_
  refine Method.Sat.bind _ keep.housekeeping (fun calls s _ _ => ?_) fun _ _ _ _ => trivial
  refine Method.Sat.bind (fun _ _ _ => True) ?_ (fun _ _ _ _ => Method.sat_get_bind
    (Method.Sat.pure trivial)) fun _ _ _ _ => trivial
  refine Method.sat_call_bind (keep.elsewhere _ _ trivial) fun read _ => ?_
  refine Method.sat_ofExcept_bind (fun killswitch _ => ?_) fun _ _ => trivial
  split
  · refine sat_storeCall_bind (keep.elsewhere _ _ trivial) (fun due _ => ?_) fun _ _ => trivial
    exact Method.sat_modify_bind keep.deliverDue
  · exact Method.Sat.modify trivial

end BatchesKeep

/-- The enrichments asked for are known. -/
def asksKnown (deps : DispatcherDeps) : Discipline Op Op.Answer where
  allowed _ op := ∀ id enrichment input ctx, op = .enrich id enrichment input ctx →
    knowsEnrichment deps enrichment
  admits _ _ _ := True

theorem Busy.knows {α : Type} {m : Body α} {may : String → List EndCloseRecord → Prop}
    (busy : Busy deps may m) : m.Sat (asksKnown deps) calls s fun _ _ _ => True := by
  refine (Program.Sat.carry (E := asksKnown deps) (fun _ => True) (busy calls s trivial) trivial
    (fun _ _ _ _ _ _ => ⟨trivial, trivial⟩) fun _ op _ work => ?_).mono fun _ _ _ => trivial
  rintro id enrichment input ctx rfl
  exact work

/-- A cycle asks for known enrichments only. -/
theorem runOnce_knows (deps : DispatcherDeps) (calls : Calls) (s : State) :
    (runOnce deps).Sat (asksKnown deps) calls s fun _ _ _ => True := by
  refine BatchesKeep.runOnce ⟨?_, fun route claimed _ _ _ _ _ _ => ?_, fun claimed error _ _ => ?_⟩
  · rintro _ op outside id enrichment input ctx rfl
    cases outside
  · have busy : Busy deps (fun _ _ => True) (deliverBatch deps route claimed) :=
      deliverBatch_busy fun _ => trivial
    exact busy.knows
  · have busy : Busy deps (fun _ _ => True) (releaseLeftover deps claimed error) :=
      releaseLeftover_busy
    exact busy.knows

end

end EndCloseRelay.Dispatcher
