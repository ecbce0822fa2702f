import EndCloseRelay.Engine.RecordStore

/-!
# What holds of the records of a store

After any run of calls: a record is leased exactly while it is delivering, a
waiting one has a next attempt, `claimDue` takes the due records of the smallest
ids, and who holds a record holds it alone until a call puts it back.
-/

namespace EndCloseRelay

open Interaction MemoryStore

/-! ## Leases and next attempts -/

/-- A record whose lease and next attempt go with its status. -/
structure EventRecord.WellKept (r : EventRecord) : Prop where
  claimedBy : r.claimedBy.isSome ↔ r.status = .delivering
  leaseUntil : r.leaseUntil.isSome ↔ r.status = .delivering
  scheduled : r.isWaiting → r.nextAttemptAt.isSome

/-- An insert is of a pending event or of one a filter dropped. -/
def StoreOp.StartsFresh : StoreOp → Prop
  | .insert e => e.status = .pending ∨ e.status = .droppedByFilter
  | _ => True

namespace EventRecord.WellKept

variable {r : EventRecord}

theorem unleased (wellKept : r.WellKept) {status : EventStatus} (is : r.status = status)
    (other : status ≠ .delivering) : r.claimedBy = none ∧ r.leaseUntil = none := by
  have released : ¬ r.status = .delivering := by
    rw [is]
    exact other
  exact ⟨Option.not_isSome_iff_eq_none.mp fun held => released (wellKept.claimedBy.mp held),
    Option.not_isSome_iff_eq_none.mp fun held => released (wellKept.leaseUntil.mp held)⟩

theorem of_unleased (status : EventStatus) (is : r.status = status) (other : status ≠ .delivering)
    (unleased : r.claimedBy = none ∧ r.leaseUntil = none)
    (scheduled : r.isWaiting → r.nextAttemptAt.isSome) : r.WellKept := by
  obtain ⟨claimedBy, leaseUntil⟩ := unleased
  refine ⟨?_, ?_, scheduled⟩
  · rw [claimedBy, is]
    exact iff_of_false Bool.false_ne_true other
  · rw [leaseUntil, is]
    exact iff_of_false Bool.false_ne_true other

theorem ofNew {e : NewEvent} (fresh : e.status = .pending ∨ e.status = .droppedByFilter) (id : Nat) :
    (EventRecord.ofNew e id).WellKept := by
  rcases fresh with is | is
  · exact of_unleased (r := EventRecord.ofNew e id) _ is (by decide) ⟨rfl, rfl⟩ fun _ => rfl
  · exact of_unleased (r := EventRecord.ofNew e id) _ is (by decide) ⟨rfl, rfl⟩ fun _ => rfl

theorem fail (nextAttemptAt : Int) (error : String) (r : EventRecord) :
    (r.fail nextAttemptAt error).WellKept :=
  of_unleased .retry rfl (by decide) ⟨rfl, rfl⟩ fun _ => rfl

/-- Every step of a record keeps its lease and next attempt in order. -/
theorem step {op : StoreOp} {r' : EventRecord} (wellKept : r.WellKept) (step : RowStep op r r') :
    r'.WellKept := by
  cases step with
  | claim _ _ => exact ⟨iff_of_true rfl rfl, iff_of_true rfl rfl, fun _ => rfl⟩
  | deliver _ =>
    exact of_unleased .delivered rfl (by decide) ⟨rfl, rfl⟩ fun waiting => by cases waiting
  | @fail ids nextAttemptAt error _ member =>
    have picked : 0 < ids.count r.id := List.count_pos_iff.mpr member
    obtain ⟨n, count⟩ := Nat.exists_eq_succ_of_ne_zero (Nat.ne_of_gt picked)
    rw [count, Function.iterate_succ_apply']
    exact fail nextAttemptAt error _
  | park _ =>
    exact of_unleased .parked rfl (by decide) ⟨rfl, rfl⟩ fun waiting => by cases waiting
  | @release _ nextAttemptAt error _ _ _ => exact fail nextAttemptAt error r
  | recover _ => exact of_unleased .retry rfl (by decide) ⟨rfl, rfl⟩ fun _ => rfl
  | expire taken =>
    unfold expired at taken
    rw [Bool.and_eq_true, beq_iff_eq] at taken
    exact of_unleased .parked rfl (by decide) (wellKept.unleased taken.1 (by decide))
      fun waiting => by cases waiting
  | wipe _ => exact ⟨wellKept.claimedBy, wellKept.leaseUntil, wellKept.scheduled⟩
  | requeue parked =>
    exact of_unleased .retry rfl (by decide) (wellKept.unleased parked (by decide))
      fun _ => rfl
  | requeueAll parked =>
    exact of_unleased .retry rfl (by decide) (wellKept.unleased parked (by decide))
      fun _ => rfl

/-- What stands under an id stays well kept. -/
theorem moves {op : StoreOp} {old new : Option EventRecord} (wellKept : ∀ r ∈ old, r.WellKept)
    (moves : Moves op old new) (fresh : op.StartsFresh) : ∀ r ∈ new, r.WellKept := by
  cases moves with
  | change change =>
    cases change with
    | same => exact wellKept
    | inserted =>
      intro r is
      rw [← Option.some.inj is]
      exact ofNew fresh _
    | step step' =>
      intro r is
      rw [← Option.some.inj is]
      exact (wellKept _ rfl).step step'
    | deleted _ =>
      intro r is
      cases is
  | @failOnce _ nextAttemptAt error r _ =>
    intro r' is
    rw [← Option.some.inj is]
    exact fail nextAttemptAt error r
  | @blankIv e id _ =>
    intro r is
    rw [← Option.some.inj is]
    exact ofNew (e := { e with payloadIv := none }) fresh id

end EventRecord.WellKept

/-! ## Claims -/

/-- What a claim of at most `limit` records returns. -/
structure ClaimsSmallest (records : List EventRecord) (routeId : String) (now : Int) (limit : Nat)
    (lease : Lease) (claimed : List EventRecord) : Prop where
  atMost : claimed.length ≤ limit
  increasing : claimed.Pairwise fun r r' => r.id < r'.id
  due : ∀ c ∈ claimed, ∃ r ∈ records, r.claimable routeId now ∧ c = r.claim now lease
  /-- A due record that is not among them comes after a full claim. -/
  smallest : ∀ r ∈ records, r.claimable routeId now → r.id ∉ claimed.map (fun c => c.id) →
    claimed.length = limit ∧ ∀ c ∈ claimed, c.id < r.id

/-- The first records of those due are those of the smallest ids. -/
theorem ClaimsSmallest.of_sorted {records : List EventRecord}
    (sorted : records.Pairwise fun r r' => r.id < r'.id) (routeId : String) (now : Int) (limit : Nat)
    (lease : Lease) : ClaimsSmallest records routeId now limit lease
      (((records.filter (EventRecord.claimable routeId now)).take limit).map (.claim now lease)) where
  atMost := by
    rw [List.length_map]
    exact List.length_take_le _ _
  increasing := List.pairwise_map.mpr ((sorted.filter _).sublist (List.take_sublist _ _))
  due c member := by
    obtain ⟨r, picked, rfl⟩ := List.mem_map.mp member
    obtain ⟨there, taken⟩ := List.mem_filter.mp (List.mem_of_mem_take picked)
    exact ⟨r, there, taken, rfl⟩
  smallest r member taken unclaimed := by
    have due : r ∈ records.filter (EventRecord.claimable routeId now) := List.mem_filter.mpr ⟨member, taken⟩
    have ordered := sorted.filter (EventRecord.claimable routeId now)
    generalize records.filter (EventRecord.claimable routeId now) = due_ at due ordered unclaimed ⊢
    rw [← List.take_append_drop limit due_] at due ordered
    rcases List.mem_append.mp due with picked | later
    · refine absurd ?_ unclaimed
      rw [List.map_map]
      exact List.mem_map_of_mem picked
    · constructor
      · rw [List.length_map, List.length_take]
        have longer := List.length_pos_of_mem later
        rw [List.length_drop] at longer
        omega
      · intro c claimed
        obtain ⟨r', picked, rfl⟩ := List.mem_map.mp claimed
        exact (List.pairwise_append.mp ordered).2.2 r' picked r later

/-- A call puts a record back: it marks, releases, recovers or replays it. -/
def StoreOp.PutsBack (r : EventRecord) : StoreOp → Prop
  | .markDelivered ids _ _ | .markFailed ids _ _ | .markParked ids _ => r.id ∈ ids
  | .releaseDelivering ids _ _ => r.id ∈ ids ∧ r.status = .delivering
  | .recoverDelivering now owner => r.recoverable now owner
  | .replay id _ => r.id = id ∧ r.status = .parked
  | .replayAllParked _ => r.status = .parked
  | _ => False

/-- The ids a call returned as claimed. -/
def claimedIds : (op : StoreOp) → op.Result → List Nat
  | .claimDue _ _ _ _, claimed => List.map (fun r : EventRecord => r.id) claimed
  | _, _ => []

/-- A record that is delivering stays so unless a call puts it back. -/
theorem Moves.delivering {op : StoreOp} {r : EventRecord} {new : Option EventRecord}
    (moves : Moves op (some r) new) (delivering : r.status = .delivering) (kept : ¬ op.PutsBack r) :
    ∃ r', new = some r' ∧ r'.status = .delivering := by
  have active : ¬ r.isTerminal := by
    rw [EventRecord.isTerminal_iff, delivering]
    decide
  cases moves with
  | change change =>
    cases change with
    | same => exact ⟨r, rfl, delivering⟩
    | step step =>
      cases step with
      | claim _ _ => exact ⟨_, rfl, rfl⟩
      | deliver member => exact absurd member kept
      | fail member => exact absurd member kept
      | park member => exact absurd member kept
      | release member _ => exact absurd ⟨member, delivering⟩ kept
      | recover taken => exact absurd taken kept
      | expire taken =>
        unfold EventRecord.expired at taken
        rw [delivering] at taken
        cases taken
      | wipe terminal => exact absurd terminal active
      | requeue parked => exact absurd ⟨rfl, parked⟩ kept
      | requeueAll parked => exact absurd parked kept
    | deleted terminal => exact absurd terminal active
  | failOnce member => exact absurd member kept

/-! ## Every run -/

namespace RecordStore

variable {S : RecordStore} {s : S.State}

theorem wellKept_run (calls : List (S.Choice × StoreOp)) (fresh : ∀ call ∈ calls, call.2.StartsFresh) :
    ∀ r ∈ S.records (S.machine.run calls), r.WellKept := by
  have kept := S.machine.listed_invariant
    (fun s => S.Sound s ∧ ∀ id, ∀ r ∈ S.getById s id, r.WellKept) (fun call => call.2.StartsFresh)
    ⟨S.sound_empty, ?_⟩ ?_ fresh
  · intro r member
    exact kept.2 r.id r (getById_of_mem kept.1 member)
  · intro id r found
    have member := (mem_of_getById S.sound_empty found).1
    rw [S.records_empty] at member
    cases member
  · intro s call wellKept startsFresh
    refine ⟨S.sound_apply _ _ _ wellKept.1, fun id => ?_⟩
    exact EventRecord.WellKept.moves (wellKept.2 id) (S.moves call.1 s call.2 id wellKept.1) startsFresh

theorem claims_run (calls : List (S.Choice × StoreOp)) (choice : S.Choice) (routeId : String) (now : Int)
    (limit : Nat) (lease : Lease) :
    ClaimsSmallest (S.records (S.machine.run calls)) routeId now limit lease
      (S.apply choice (S.machine.run calls) (.claimDue routeId now limit lease)).1 := by
  rw [S.claimed _ _ _ _ _ _ (S.sound_run calls)]
  exact .of_sorted (S.sorted _ (S.sound_run calls)) routeId now limit lease

/-- A claimed record is there, and delivering, after the call. -/
theorem delivering_of_claimed (sound : S.Sound s) {choice : S.Choice} {op : StoreOp} {id : Nat}
    (claimed : id ∈ claimedIds op (S.apply choice s op).1) :
    ∃ r, S.getById (S.apply choice s op).2 id = some r ∧ r.status = .delivering := by
  cases op with
  | claimDue routeId now limit lease =>
    obtain ⟨r, member, rfl⟩ := List.mem_map.mp claimed
    rw [S.claimed choice s routeId now limit lease sound] at member
    refine ⟨r, S.holds choice s routeId now limit lease sound r member, ?_⟩
    obtain ⟨due, -, rfl⟩ := List.mem_map.mp member
    rfl
  | _ => cases claimed

/-- A delivering record is not claimed. -/
theorem not_claimed (sound : S.Sound s) {choice : S.Choice} {op : StoreOp} {r : EventRecord}
    (found : S.getById s r.id = some r) (delivering : r.status = .delivering) :
    r.id ∉ claimedIds op (S.apply choice s op).1 := by
  intro claimed
  cases op with
  | claimDue routeId now limit lease =>
    obtain ⟨c, member, same⟩ := List.mem_map.mp claimed
    rw [S.claimed choice s routeId now limit lease sound] at member
    obtain ⟨due, picked, rfl⟩ := List.mem_map.mp member
    obtain ⟨there, taken⟩ := List.mem_filter.mp (List.mem_of_mem_take picked)
    have due_eq := getById_of_mem sound there
    rw [show due.id = r.id from same, found] at due_eq
    rw [← Option.some.inj due_eq] at taken
    unfold EventRecord.claimable EventRecord.isDue EventRecord.isWaiting at taken
    rw [delivering] at taken
    simp at taken
  | _ => cases claimed

/-- Between two claims of an id, a call puts its record back. -/
theorem putsBack_between (before between : List (S.Choice × StoreOp)) (first second : S.Choice × StoreOp)
    {id : Nat}
    (once : id ∈ claimedIds first.2 (S.apply first.1 (S.machine.run before) first.2).1)
    (again : id ∈ claimedIds second.2
      (S.apply second.1 (S.machine.run (before ++ first :: between)) second.2).1) :
    ∃ earlier call later r, between = earlier ++ call :: later ∧
      S.getById (S.machine.run (before ++ first :: earlier)) id = some r ∧ r.id = id ∧
        call.2.PutsBack r := by
  by_contra none_
  have held : ∀ earlier later, between = earlier ++ later → ∃ r,
      S.getById (S.machine.run (before ++ first :: earlier)) id = some r ∧ r.status = .delivering := by
    intro earlier
    induction earlier using List.reverseRecOn with
    | nil =>
      intro later split
      rw [Machine.run_concat]
      exact delivering_of_claimed (S.sound_run before) once
    | append_singleton earlier call ih =>
      intro later split
      rw [List.append_assoc, List.singleton_append] at split
      obtain ⟨r, found, delivering⟩ := ih (call :: later) split
      have sound := S.sound_run (before ++ first :: earlier)
      have moves := S.moves call.1 _ call.2 id sound
      rw [found] at moves
      have kept : ¬ call.2.PutsBack r := fun putsBack =>
        none_ ⟨earlier, call, later, r, split, found, (mem_of_getById sound found).2, putsBack⟩
      rw [← List.cons_append, ← List.append_assoc, Machine.run_concat]
      exact moves.delivering delivering kept
  obtain ⟨r, found, delivering⟩ := held between [] (List.append_nil _).symm
  have sound := S.sound_run (before ++ first :: between)
  obtain ⟨-, rfl⟩ := mem_of_getById sound found
  exact not_claimed sound found delivering again

end RecordStore

end EndCloseRelay
