import EndCloseRelay.Forward.BatchWork

/-!
# The keys of a batch

Every POST a cycle makes for one batch is of the same records, and carries the
idempotency key of these.
-/

namespace EndCloseRelay

/-- What the digest in an idempotency key is of. -/
def composition (records : List EndCloseRecord) : String :=
  String.join (records.map fun r => r.dataStreamKey ++ ":" ++ r.externalId ++ "\n")

namespace Dispatcher

open Interaction

/-- The keys of the POSTs made for the batch in flight. -/
def keysInFlight : Calls → List String
  | [] => []
  | ⟨.store (.claimDue ..), .ok _⟩ :: _ => []
  | ⟨.bulkCreateRecords key _, _⟩ :: calls => key :: keysInFlight calls
  | _ :: calls => keysInFlight calls

/-- What a cycle keeps to: a POST carries the key of its records, and so did
every other POST of the batch. -/
def keyed (deps : DispatcherDeps) : Discipline Op Op.Answer where
  allowed calls
    | .bulkCreateRecords key records =>
      key = idempotencyKey deps.runtime records ∧ ∀ k ∈ keysInFlight calls, k = key
    | _ => True
  admits _ _ _ := True

section

variable {deps : DispatcherDeps} {calls : Calls} {s : State}

/-- Work on a batch adds no key but those it may. -/
theorem keysInFlight_batchWork {may : String → List EndCloseRecord → Prop} {op : Op}
    (work : isBatchWork may op) (answer : op.Answer) (calls : Calls) :
    ∀ k ∈ keysInFlight (⟨op, answer⟩ :: calls), k ∈ keysInFlight calls ∨ ∃ records, may k records := by
  cases op with
  | bulkCreateRecords key records =>
    intro k member
    rcases List.mem_cons.mp member with rfl | member
    · exact .inr ⟨records, work⟩
    · exact .inl member
  | store op =>
    cases op with
    | claimDue _ _ _ _ => cases work
    | _ => exact fun k member => .inl member
  | _ => exact fun k member => .inl member

/-- What makes no POST but those of the one key there is keeps to it. -/
theorem Works.keyed {α : Type} {m : Body α} {may : String → List EndCloseRecord → Prop}
    (keys : String → Prop) (works : Works may m)
    (permits : ∀ k records, may k records → keys k ∧ k = idempotencyKey deps.runtime records ∧
      ∀ k', keys k' → k' = k)
    (here : ∀ k ∈ keysInFlight calls, keys k) :
    m.Sat (keyed deps) calls s fun calls _ _ => ∀ k ∈ keysInFlight calls, keys k := by
  refine works.carry (fun calls => ∀ k ∈ keysInFlight calls, keys k) here ?_ ?_
  · intro calls op answer same work k member
    rcases keysInFlight_batchWork work answer calls k member with member | ⟨records, may_⟩
    · exact same k member
    · exact (permits k records may_).1
  · intro calls op same work
    cases op with
    | bulkCreateRecords k records =>
      obtain ⟨-, ofRecords, only⟩ := permits k records work
      exact ⟨ofRecords, fun k' member => only k' (same k' member)⟩
    | _ => trivial

end

end Dispatcher

end EndCloseRelay
