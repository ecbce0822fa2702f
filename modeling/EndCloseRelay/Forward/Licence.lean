import EndCloseRelay.Forward.BatchWork

/-!
# What a cycle may still claim

A cycle reads the killswitch once, lists the due routes, and then claims from
one after the other.  `toClaim` reads off its calls how many claims it may
still make; its work on a batch asks for none of the things `toClaim` goes by.
-/

namespace EndCloseRelay.Dispatcher

open Interaction

/-- How many claims a cycle may still make, going by its calls: one for each due
route that it has neither claimed from nor skipped.  Before it has listed the
due routes one stands for all of them. -/
def toClaim : Calls → Nat
  | [] => 0
  | ⟨.getKillswitch, .ok .none⟩ :: _ => 1
  | ⟨.store (.routesWithDueEvents _), .ok due⟩ :: _ => due.length
  | ⟨.store (.routesWithDueEvents _), .error _⟩ :: _ => 0
  | ⟨.aborted, true⟩ :: _ => 0
  | ⟨.isRoutePaused _, .ok false⟩ :: ⟨.getRoute _, .ok (some _)⟩ :: calls => toClaim calls
  | ⟨.isRoutePaused _, .ok _⟩ :: ⟨.getRoute _, .ok _⟩ :: calls => toClaim calls - 1
  | ⟨.isRoutePaused _, _⟩ :: _ => 0
  | ⟨.store (.claimDue ..), .ok _⟩ :: calls => toClaim calls - 1
  | ⟨.store (.claimDue ..), .error _⟩ :: _ => 0
  | _ :: calls => toClaim calls

/-- What a cycle keeps to: it lists the due routes, and claims, only while there
is a claim left. -/
def licensed : Discipline Op Op.Answer where
  allowed calls
    | .store (.claimDue ..) | .store (.routesWithDueEvents _) => 0 < toClaim calls
    | _ => True
  admits _ _ _ := True

/-- Work on a batch leaves the count as it is. -/
theorem toClaim_batchWork {op : Op} (work : isBatchWork (fun _ _ => True) op) (answer : op.Answer) (calls : Calls) :
    toClaim (⟨op, answer⟩ :: calls) = toClaim calls := by
  cases op with
  | store op => cases op <;> first | rfl | cases work
  | _ => first | rfl | cases work

/-- Once there is no claim left, none is until the killswitch is read as off. -/
theorem toClaim_eq_zero {x : Exchange Op.Answer} {calls : Calls} (none_ : toClaim calls = 0)
    (allowed : licensed.allowed calls x.1) (on : x ≠ ⟨.getKillswitch, .ok .none⟩) :
    toClaim (x :: calls) = 0 := by
  obtain ⟨op, answer⟩ := x
  cases op with
  | store op =>
    cases op with
    | claimDue _ _ _ _ => exact absurd none_ (Nat.ne_of_gt allowed)
    | routesWithDueEvents _ => exact absurd none_ (Nat.ne_of_gt allowed)
    | _ => exact none_
  | getKillswitch =>
    cases answer with
    | error err => exact none_
    | ok killswitch =>
      cases killswitch with
      | none => exact absurd rfl on
      | pause => exact none_
      | panic => exact none_
  | aborted => cases answer <;> first | exact none_ | rfl
  | isRoutePaused routeId =>
    -- the answer counts together with that of the `getRoute` before it
    rw [toClaim.eq_def]
    split
    · rfl
    · rename_i same
      cases (List.cons.inj same).1
    · rename_i same
      cases (List.cons.inj same).1
    · rfl
    · rfl
    · rename_i same
      obtain ⟨-, rfl⟩ := List.cons.inj same
      exact none_
    · rename_i rest _ same
      obtain ⟨-, rfl⟩ := List.cons.inj same
      have spent : toClaim rest = 0 := none_
      rw [spent]
    · rfl
    · rename_i same
      cases (List.cons.inj same).1
    · rfl
    · rename_i same
      obtain ⟨-, rfl⟩ := List.cons.inj same
      exact none_
  | _ => exact none_

section

variable {deps : DispatcherDeps} {calls : Calls} {s : State}

theorem Works.licensed {α : Type} {m : Body α} (works : Works (fun _ _ => True) m) (left : Nat)
    (here : toClaim calls = left) :
    m.Sat licensed calls s fun calls _ _ => toClaim calls = left := by
  refine works.carry (fun calls => toClaim calls = left) here ?_ ?_
  · intro calls op answer same work
    exact (toClaim_batchWork work answer calls).trans same
  · intro calls op _ work
    cases op with
    | store op =>
      cases op with
      | claimDue _ _ _ _ => cases work
      | routesWithDueEvents _ => cases work
      | _ => trivial
    | _ => trivial

/-- One due route makes one claim at most. -/
theorem deliverRoute_licensed {now : Int} {routeId : String} {left : Nat}
    (here : toClaim calls = left + 1) :
    (deliverRoute deps now routeId).Sat licensed calls s
      fun calls _ r => r = .ok () → toClaim calls = left := by
  refine Method.sat_call_bind trivial fun route _ => Method.sat_call_bind trivial fun paused _ => ?_
  refine Method.sat_ofExcept_bind (fun found same => ?_) fun _ _ failed => by cases failed
  refine Method.sat_ofExcept_bind (fun stopped same' => ?_) fun _ _ failed => by cases failed
  subst same same'
  have skipped : (found = none ∨ stopped = true) → toClaim (⟨.isRoutePaused routeId, .ok stopped⟩ ::
      ⟨.getRoute routeId, .ok found⟩ :: calls) = left := by
    intro skip
    have spent : toClaim calls - 1 = left := by omega
    rcases skip with rfl | rfl
    · cases stopped <;> exact spent
    · exact spent
  cases found with
  | none => exact Method.Sat.modify fun _ => skipped (.inl rfl)
  | some found =>
    simp only []
    split
    · rename_i on
      exact Method.Sat.modify fun _ => skipped (.inr on)
    · rename_i off
      obtain rfl := Bool.eq_false_of_not_eq_true off
      refine Method.sat_call_bind trivial fun (claimedAt : Int) _ => ?_
      have open_ : toClaim (⟨.now, claimedAt⟩ :: ⟨.isRoutePaused routeId, .ok false⟩ ::
          ⟨.getRoute routeId, .ok (some found)⟩ :: calls) = left + 1 := here
      refine sat_storeCall_bind ?_ (fun claimed _ => ?_) fun _ _ failed => by cases failed
      · show 0 < toClaim _
        rw [open_]
        exact Nat.succ_pos _
      · have spent : toClaim (⟨.store (.claimDue routeId now deps.dispatch.batchMax
            { owner := deps.instanceId, until_ := claimedAt + deps.dispatch.leaseMs }), .ok claimed⟩ ::
            ⟨.now, claimedAt⟩ :: ⟨.isRoutePaused routeId, .ok false⟩ ::
            ⟨.getRoute routeId, .ok (some found)⟩ :: calls) = left := by
          show toClaim _ - 1 = left
          rw [open_]
          rfl
        split
        · exact Method.Sat.pure fun _ => spent
        · refine Method.Sat.ensuring _ ((deliverBatch_works fun _ => trivial).licensed left spent)
            fun mid s r kept => ?_
          refine (releaseLeftover_works.licensed left kept).mono fun _ _ c kept => ?_
          cases c with
          | ok _ => exact fun _ => kept
          | error _ => exact fun failed => by cases failed

theorem deliverDue_licensed {now : Int} {due : List String} (here : toClaim calls = due.length) :
    (deliverDue deps now due).Sat licensed calls s fun _ _ _ => True := by
  induction due generalizing calls s with
  | nil => exact Method.Sat.pure trivial
  | cons routeId due ih =>
    refine Method.sat_call_bind trivial fun aborted _ => ?_
    cases aborted with
    | true => exact Method.Sat.pure trivial
    | false =>
      have still : toClaim (⟨.aborted, false⟩ :: calls) = due.length + 1 := here
      exact Method.Sat.bind _ (deliverRoute_licensed still) (fun _ _ _ left => ih (left rfl))
        fun _ _ _ _ => trivial

/-- Housekeeping leaves the count alone. -/
theorem housekeeping_licensed {now : Int} (here : toClaim calls = 0) :
    (housekeeping deps now).Sat licensed calls s fun calls _ _ => toClaim calls = 0 := by
  refine Method.sat_call_bind trivial fun startedAt _ => Method.sat_get_bind ?_
  extract_lets sweepDue
  split
  · refine Method.Sat.tryCatch (fun calls _ _ => toClaim calls = 0) ?_ (fun _ _ _ kept => kept)
      fun _ _ _ kept => Method.Sat.modify kept
    refine Method.sat_get_bind (sat_storeCall_bind trivial (fun _ _ => ?_) fun _ _ => here)
    refine Method.sat_modify_bind ?_
    split
    · refine sat_storeCall_bind trivial (fun _ _ => ?_) fun _ _ => here
      exact Method.sat_call_bind trivial fun _ _ => Method.Sat.modify here
    · exact Method.Sat.pure here
  · exact Method.Sat.pure here

/-- Whatever the world answers, a cycle claims only while there is a claim left. -/
theorem runOnce_licensed (deps : DispatcherDeps) (s : State) :
    (runOnce deps).Sat licensed [] s fun _ _ _ => True := by
  refine Method.Sat.tryCatch (fun _ _ _ => True) ?_ (fun _ _ _ _ => trivial) fun _ _ _ _ =>
    Method.sat_modify_bind (Method.Sat.throw trivial)
  refine Method.sat_call_bind trivial fun now _ => Method.sat_modify_bind ?_
  refine Method.Sat.bind _ (housekeeping_licensed rfl) (fun calls s _ none_ => ?_) fun _ _ _ _ => trivial
  refine Method.Sat.bind (fun _ _ _ => True) ?_ (fun _ _ _ _ => Method.sat_get_bind
    (Method.Sat.pure trivial)) fun _ _ _ _ => trivial
  refine Method.sat_call_bind trivial fun read _ => ?_
  refine Method.sat_ofExcept_bind (fun killswitch same => ?_) fun _ _ => trivial
  subst same
  split
  · rename_i off
    subst off
    refine sat_storeCall_bind Nat.one_pos (fun due _ => ?_) fun _ _ => trivial
    exact Method.sat_modify_bind (deliverDue_licensed rfl)
  · exact Method.Sat.modify trivial

end

end EndCloseRelay.Dispatcher
