import EndCloseRelay.Engine.RecordStore
import Mathlib.Data.List.Perm.Subperm
import Mathlib.Logic.Equiv.Basic

/-!
# The contract of a store

`Serves` says of a list of records what a call may answer and leave.  It leaves
a store the id of a new record, the order of the due routes and the rows a
limited `pruneBatch` takes, and nothing else: two stores that serve calls which
name corresponding ids answer alike and hold the same records but for their ids.
-/

namespace EndCloseRelay

open MemoryStore

/-! ## What a call may answer and leave -/

/-- The records, those a test takes changed. -/
def changeWhere (test : EventRecord → Bool) (change : EventRecord → EventRecord)
    (records : List EventRecord) : List EventRecord :=
  records.map fun r => if test r then change r else r

/-- The records a claim takes: the first due ones of a route. -/
def claimOf (routeId : String) (now : Int) (limit : Nat) (records : List EventRecord) :
    List EventRecord :=
  (records.filter (EventRecord.claimable routeId now)).take limit

/-- What a call may answer over some records, and the records it may leave. -/
inductive Serves (records : List EventRecord) :
    (op : StoreOp) → op.Result → List EventRecord → Prop
  | duplicate {e} (known : e.idempotencyKey ∈ records.map fun r => r.idempotencyKey) :
      Serves records (.insert e) .duplicate records
  | inserted {e id} (fresh : e.idempotencyKey ∉ records.map fun r => r.idempotencyKey)
      (above : ∀ r ∈ records, r.id < id) :
      Serves records (.insert e) (.inserted id) (records ++ [.ofNew e id])
  | due {now} {routes : List String} (nodup : routes.Nodup)
      (listed : ∀ routeId, routeId ∈ routes ↔ ∃ r ∈ records, r.routeId = routeId ∧ r.isDue now) :
      Serves records (.routesWithDueEvents now) routes records
  | claimed {routeId now limit lease} :
      Serves records (.claimDue routeId now limit lease)
        ((claimOf routeId now limit records).map (.claim now lease))
        (changeWhere (fun r => ((claimOf routeId now limit records).map fun p => p.id).contains r.id)
          (.claim now lease) records)
  | delivered {ids deliveredAt bulkRequestId} :
      Serves records (.markDelivered ids deliveredAt bulkRequestId) ()
        (changeWhere (fun r => ids.contains r.id) (.deliver deliveredAt bulkRequestId) records)
  | failed {ids nextAttemptAt error} :
      Serves records (.markFailed ids nextAttemptAt error) ()
        (changeWhere (fun r => ids.contains r.id) (.fail nextAttemptAt error) records)
  | parked {ids error} :
      Serves records (.markParked ids error) ()
        (changeWhere (fun r => ids.contains r.id) (.park error) records)
  | released {ids nextAttemptAt error} :
      Serves records (.releaseDelivering ids nextAttemptAt error)
        (records.countP fun r => r.status == .delivering && ids.contains r.id)
        (changeWhere (fun r => r.status == .delivering && ids.contains r.id)
          (.fail nextAttemptAt error) records)
  | recovered {now owner} :
      Serves records (.recoverDelivering now owner) (records.countP fun r => r.recoverable now owner)
        (changeWhere (fun r => r.recoverable now owner) (.recover now) records)
  | expired {now maxAgeMs} :
      Serves records (.parkExpired now maxAgeMs) (records.countP fun r => r.expired (now - maxAgeMs))
        (changeWhere (fun r => r.expired (now - maxAgeMs)) .expire records)
  | pruned {now deliveredDays ledgerDays limit} {answer : Except RelayError (Nat × Nat)} {left}
      (prunes : PruneBatch now deliveredDays ledgerDays limit records answer left) :
      Serves records (.pruneBatch now deliveredDays ledgerDays limit) answer left
  | replayed {id now} :
      Serves records (.replay id now) (records.any fun r => r.id == id && r.status == .parked)
        (changeWhere (fun r => r.id == id && r.status == .parked) (.requeue now) records)
  | replayedAll {now} :
      Serves records (.replayAllParked now) (records.countP fun r => r.status == .parked)
        (changeWhere (fun r => r.status == .parked) (.requeue now) records)

/-! ## Renaming ids -/

/-- The record under another id. -/
def EventRecord.rename (ρ : Equiv.Perm Nat) (r : EventRecord) : EventRecord := { r with id := ρ r.id }

namespace StoreOp

/-- The call with the ids it names replaced. -/
def rename (ρ : Equiv.Perm Nat) : StoreOp → StoreOp
  | .markDelivered ids deliveredAt bulkRequestId => .markDelivered (ids.map ρ) deliveredAt bulkRequestId
  | .markFailed ids nextAttemptAt error => .markFailed (ids.map ρ) nextAttemptAt error
  | .markParked ids error => .markParked (ids.map ρ) error
  | .releaseDelivering ids nextAttemptAt error => .releaseDelivering (ids.map ρ) nextAttemptAt error
  | .replay id now => .replay (ρ id) now
  | op => op

/-- The correspondence of ids after a call: a new record of one store
corresponds to that of the other. -/
def renameAfter (ρ : Equiv.Perm Nat) : (op : StoreOp) → op.Result → (op.rename ρ).Result → Equiv.Perm Nat
  | .insert _, .inserted id, .inserted id' => ρ.trans (Equiv.swap (ρ id) id')
  | _, _, _ => ρ

/-- One answer, but for ids and for the order of the due routes. -/
def AnswersMatch (ρ : Equiv.Perm Nat) : (op : StoreOp) → op.Result → (op.rename ρ).Result → Prop
  | .insert _, .duplicate, .duplicate => True
  | .insert _, .inserted _, .inserted _ => True
  | .insert _, _, _ => False
  | .routesWithDueEvents _, routes, routes' => List.Perm routes routes'
  | .claimDue .., rows, rows' => rows' = List.map (EventRecord.rename ρ) rows
  | .markDelivered .., _, _ | .markFailed .., _, _ | .markParked .., _, _ => True
  | .releaseDelivering .., count, count' => count = count'
  | .recoverDelivering .., count, count' => count = count'
  | .parkExpired .., count, count' => count = count'
  | .pruneBatch .., answer, answer' => answer = answer'
  | .replay .., replayed, replayed' => replayed = replayed'
  | .replayAllParked _, count, count' => count = count'

end StoreOp

section Rename

variable {ρ : Equiv.Perm Nat} {records : List EventRecord}

theorem contains_rename (ids : List Nat) (r : EventRecord) :
    (ids.map ρ).contains (r.rename ρ).id = ids.contains r.id := by
  rw [Bool.eq_iff_iff, List.contains_iff_mem, List.contains_iff_mem]
  exact List.mem_map_of_injective ρ.injective

theorem changeWhere_rename {test test' : EventRecord → Bool} {change : EventRecord → EventRecord}
    (tests : ∀ r, test' (r.rename ρ) = test r) (changes : ∀ r, change (r.rename ρ) = (change r).rename ρ) :
    changeWhere test' change (records.map (.rename ρ)) =
      (changeWhere test change records).map (.rename ρ) := by
  unfold changeWhere
  rw [List.map_map, List.map_map]
  refine List.map_congr_left fun r _ => ?_
  rw [Function.comp_apply, Function.comp_apply, tests, changes]
  split <;> rfl

theorem countP_rename {test test' : EventRecord → Bool} (tests : ∀ r, test' (r.rename ρ) = test r) :
    (records.map (.rename ρ)).countP test' = records.countP test := by
  rw [List.countP_map]
  exact List.countP_congr fun r _ => by rw [Function.comp_apply, tests]

variable (ρ records) in
/-- A test that does not look at ids takes as many. -/
theorem countP_blind (test : EventRecord → Bool) (blind : ∀ r, test (r.rename ρ) = test r) :
    (records.map (.rename ρ)).countP test = records.countP test := countP_rename blind

variable (ρ records) in
theorem claimOf_rename (routeId : String) (now : Int) (limit : Nat) :
    claimOf routeId now limit (records.map (.rename ρ)) =
      (claimOf routeId now limit records).map (.rename ρ) := by
  unfold claimOf
  rw [List.filter_map, List.map_take]
  rfl

theorem keys_rename :
    (records.map (EventRecord.rename ρ)).map (fun r => r.idempotencyKey) =
      records.map fun r => r.idempotencyKey := by
  rw [List.map_map]
  rfl

theorem distinct_rename (distinct : (records.map fun r => r.id).Nodup) :
    ((records.map (EventRecord.rename ρ)).map fun r => r.id).Nodup := by
  have ids : (records.map (EventRecord.rename ρ)).map (fun r => r.id) =
      (records.map fun r => r.id).map ρ := by
    rw [List.map_map, List.map_map]
    rfl
  rw [ids]
  exact distinct.map ρ.injective

end Rename

/-! ## Pruning -/

/-- A limit lets `pruneBatch` take all it may. -/
def CoversPrune (now deliveredDays ledgerDays : Int) (limit : Nat) (records : List EventRecord) : Prop :=
  records.countP (EventRecord.wipeable (now - deliveredDays * dayMs)) ≤ limit ∧
    records.countP (EventRecord.endedBefore (now - ledgerDays * dayMs)) ≤ limit

instance (now deliveredDays ledgerDays : Int) (limit : Nat) (records : List EventRecord) :
    Decidable (CoversPrune now deliveredDays ledgerDays limit records) :=
  inferInstanceAs (Decidable (_ ∧ _))

section Prunes

variable {ρ : Equiv.Perm Nat} {records picked left left' : List EventRecord} {limit : Nat}
  {test : EventRecord → Bool} {wipeCutoff deleteCutoff : Int} {counts counts' : Nat × Nat}

/-- Records picked without a limit are all a test takes. -/
theorem Picks.ids_of_covers (picks : Picks limit test records picked)
    (covers : records.countP test ≤ limit) (distinct : (records.map fun r => r.id).Nodup)
    {r : EventRecord} (member : r ∈ records) : r.id ∈ (picked.map fun p => p.id) ↔ test r := by
  have listed : picked.Perm (records.filter test) := by
    have sub : picked.Subperm (records.filter test) := by
      refine List.subperm_of_subset (List.Nodup.of_map _ picks.distinct) fun p taken => ?_
      exact List.mem_filter.mpr (picks.taken p taken)
    refine sub.perm_of_length_le ?_
    rw [picks.count, ← List.countP_eq_length_filter, Nat.min_eq_right covers]
  constructor
  · intro there
    obtain ⟨p, taken, same⟩ := List.mem_map.mp there
    obtain ⟨listed, passes⟩ := picks.taken p taken
    rwa [← List.inj_on_of_nodup_map distinct listed member same]
  · intro passes
    exact List.mem_map_of_mem (listed.mem_iff.mpr (List.mem_filter.mpr ⟨member, passes⟩))

/-- Whatever it picks, `pruneBatch` counts the same. -/
theorem Prunes.counts_eq (prunes : Prunes wipeCutoff deleteCutoff limit records counts left) :
    counts = if min limit (records.countP (EventRecord.wipeable wipeCutoff)) = 0 then
        (0, min limit (records.countP (EventRecord.endedBefore deleteCutoff)))
      else (min limit (records.countP (EventRecord.wipeable wipeCutoff)), 0) := by
  cases prunes with
  | wipe picks found =>
    rw [← picks.count, if_neg (mt List.eq_nil_of_length_eq_zero found)]
  | delete none_ picks => rw [if_pos none_, picks.count]

/-- Without a limit, it leaves the same. -/
theorem Prunes.left_eq (prunes : Prunes wipeCutoff deleteCutoff limit records counts left)
    (distinct : (records.map fun r => r.id).Nodup)
    (wipes : records.countP (EventRecord.wipeable wipeCutoff) ≤ limit)
    (deletes : records.countP (EventRecord.endedBefore deleteCutoff) ≤ limit) :
    left = if min limit (records.countP (EventRecord.wipeable wipeCutoff)) = 0 then
        records.filter fun r => !r.endedBefore deleteCutoff
      else changeWhere (EventRecord.wipeable wipeCutoff) .wipe records := by
  cases prunes with
  | wipe picks found =>
    rw [← picks.count, if_neg (mt List.eq_nil_of_length_eq_zero found)]
    refine List.map_congr_left fun r member => ?_
    exact if_congr (picks.ids_of_covers wipes distinct member) rfl rfl
  | delete none_ picks =>
    rw [if_pos none_]
    refine List.filter_congr fun r member => ?_
    rw [Bool.eq_iff_iff, decide_eq_true_iff, picks.ids_of_covers deletes distinct member,
      Bool.not_eq_true', Bool.not_eq_true]

theorem Prunes.counts_rename (prunes : Prunes wipeCutoff deleteCutoff limit records counts left)
    (prunes' : Prunes wipeCutoff deleteCutoff limit (records.map (.rename ρ)) counts' left') :
    counts = counts' := by
  have wipes := countP_blind ρ records (EventRecord.wipeable wipeCutoff) fun _ => rfl
  have deletes := countP_blind ρ records (EventRecord.endedBefore deleteCutoff) fun _ => rfl
  rw [prunes.counts_eq, prunes'.counts_eq, wipes, deletes]

theorem Prunes.left_rename (prunes : Prunes wipeCutoff deleteCutoff limit records counts left)
    (prunes' : Prunes wipeCutoff deleteCutoff limit (records.map (.rename ρ)) counts' left')
    (distinct : (records.map fun r => r.id).Nodup)
    (wipes : records.countP (EventRecord.wipeable wipeCutoff) ≤ limit)
    (deletes : records.countP (EventRecord.endedBefore deleteCutoff) ≤ limit) :
    left' = left.map (.rename ρ) := by
  have wiped := countP_blind ρ records (EventRecord.wipeable wipeCutoff) fun _ => rfl
  have deleted := countP_blind ρ records (EventRecord.endedBefore deleteCutoff) fun _ => rfl
  rw [prunes.left_eq distinct wipes deletes,
    prunes'.left_eq (distinct_rename distinct) (wiped ▸ wipes) (deleted ▸ deletes), wiped]
  split
  · rw [List.filter_map]
    rfl
  · exact changeWhere_rename (fun _ => rfl) fun _ => rfl

/-- The records a batch takes are those that are not left as they were. -/
theorem Prunes.left_eq_kept (prunes : Prunes wipeCutoff deleteCutoff limit records counts left)
    (distinct : (records.map fun r => r.id).Nodup) :
    left = if min limit (records.countP (EventRecord.wipeable wipeCutoff)) = 0 then
        records.filter fun r => decide (r ∈ left)
      else changeWhere (fun r => decide (r ∉ left)) .wipe records := by
  cases prunes with
  | @wipe picked picks found =>
    rw [← picks.count, if_neg (mt List.eq_nil_of_length_eq_zero found)]
    refine List.map_congr_left fun r member => ?_
    by_cases listed : r.id ∈ picked.map fun p => p.id
    · -- a record that is taken had a payload
      obtain ⟨p, there, same⟩ := List.mem_map.mp listed
      obtain ⟨inside, taken⟩ := picks.taken p there
      rw [List.inj_on_of_nodup_map distinct inside member same] at taken
      have gone : r ∉ records.map fun r => if r.id ∈ picked.map fun p => p.id then r.wipe else r := by
        intro still
        obtain ⟨old, was, is⟩ := List.mem_map.mp still
        have sameId : old.id = r.id := by
          rw [← is]
          split <;> rfl
        rw [List.inj_on_of_nodup_map distinct was member sameId, if_pos listed] at is
        rw [← is, EventRecord.wipeable, Bool.and_eq_true] at taken
        cases taken.2
      rw [if_pos listed, if_pos (decide_eq_true gone)]
    · have stays : r ∈ records.map fun r => if r.id ∈ picked.map fun p => p.id then r.wipe else r :=
        List.mem_map.mpr ⟨r, member, if_neg listed⟩
      rw [if_neg listed, if_neg (by rw [decide_eq_true_iff]; exact not_not_intro stays)]
  | @delete picked none_ picks =>
    rw [if_pos none_]
    refine List.filter_congr fun r member => ?_
    rw [Bool.eq_iff_iff, decide_eq_true_iff, decide_eq_true_iff, List.mem_filter, decide_eq_true_iff]
    exact (and_iff_right member).symm

/-- Two batches that leave corresponding records as they were leave the same. -/
theorem Prunes.left_kept (prunes : Prunes wipeCutoff deleteCutoff limit records counts left)
    (prunes' : Prunes wipeCutoff deleteCutoff limit (records.map (.rename ρ)) counts' left')
    (distinct : (records.map fun r => r.id).Nodup)
    (kept : ∀ r ∈ records, r ∈ left ↔ r.rename ρ ∈ left') : left' = left.map (.rename ρ) := by
  have wiped := countP_blind ρ records (EventRecord.wipeable wipeCutoff) fun _ => rfl
  rw [prunes.left_eq_kept distinct, prunes'.left_eq_kept (distinct_rename distinct), wiped]
  split
  · rw [List.filter_map]
    refine congrArg _ (List.filter_congr fun r member => ?_)
    rw [Function.comp_apply, decide_eq_decide]
    exact (kept r member).symm
  · unfold changeWhere
    rw [List.map_map, List.map_map]
    refine List.map_congr_left fun r member => ?_
    by_cases same : r ∈ left
    · simp [same, (kept r member).mp same]
    · simp [same, mt (kept r member).mpr same]
      rfl

end Prunes

/-! ## Two stores that serve -/

section Agree

variable {ρ : Equiv.Perm Nat} {records left left' : List EventRecord} {op : StoreOp}

/-- The answers to corresponding calls match, and what they leave corresponds; of
a `pruneBatch` its limit cut short only where it took corresponding records. -/
theorem Serves.agree {answer : op.Result} {answer' : (op.rename ρ).Result}
    (distinct : (records.map fun r => r.id).Nodup) (serves : Serves records op answer left)
    (serves' : Serves (records.map (.rename ρ)) (op.rename ρ) answer' left') :
    op.AnswersMatch ρ answer answer' ∧
      ((∀ now deliveredDays ledgerDays limit, op = .pruneBatch now deliveredDays ledgerDays limit →
        CoversPrune now deliveredDays ledgerDays limit records ∨
          ∀ r ∈ records, r ∈ left ↔ r.rename ρ ∈ left') →
      left' = left.map (.rename (op.renameAfter ρ answer answer'))) := by
  cases serves with
  | duplicate known =>
    cases serves' with
    | duplicate known' => exact ⟨trivial, fun _ => rfl⟩
    | inserted fresh above =>
      rw [keys_rename] at fresh
      exact absurd known fresh
  | @inserted e id fresh above =>
    cases serves' with
    | duplicate known =>
      rw [keys_rename] at known
      exact absurd known fresh
    | @inserted _ id' fresh' above' =>
      refine ⟨trivial, fun _ => ?_⟩
      show records.map (EventRecord.rename ρ) ++ [EventRecord.ofNew e id'] =
        (records ++ [EventRecord.ofNew e id]).map
          (EventRecord.rename (ρ.trans (Equiv.swap (ρ id) id')))
      rw [List.map_append, List.map_singleton]
      refine congrArg₂ (· ++ ·) (List.map_congr_left fun r member => ?_) (congrArg (fun r => [r]) ?_)
      · have old : ρ r.id ≠ ρ id := fun same => (above r member).ne (ρ.injective same)
        have old' : ρ r.id ≠ id' := (above' (r.rename ρ) (List.mem_map_of_mem member)).ne
        unfold EventRecord.rename
        rw [Equiv.trans_apply, Equiv.swap_apply_of_ne_of_ne old old']
      · have new : (ρ.trans (Equiv.swap (ρ id) id')) id = id' := by
          rw [Equiv.trans_apply, Equiv.swap_apply_left]
        unfold EventRecord.rename
        rw [show (EventRecord.ofNew e id).id = id from rfl, new]
        rfl
  | due nodup listed =>
    cases serves' with
    | due nodup' listed' =>
      refine ⟨(List.perm_ext_iff_of_nodup nodup nodup').mpr fun routeId => ?_, fun _ => rfl⟩
      rw [listed, listed']
      constructor
      · rintro ⟨r, member, of, due⟩
        exact ⟨r.rename ρ, List.mem_map_of_mem member, of, due⟩
      · rintro ⟨r', member, of, due⟩
        obtain ⟨r, there, rfl⟩ := List.mem_map.mp member
        exact ⟨r, there, of, due⟩
  | @claimed routeId now limit lease =>
    cases serves' with
    | claimed =>
      have claims := claimOf_rename ρ records routeId now limit
      refine ⟨?_, fun _ => ?_⟩
      · show (claimOf routeId now limit (records.map (.rename ρ))).map (EventRecord.claim now lease) =
          ((claimOf routeId now limit records).map (EventRecord.claim now lease)).map
            (EventRecord.rename ρ)
        rw [claims, List.map_map, List.map_map]
        rfl
      · refine changeWhere_rename (fun r => ?_) fun _ => rfl
        have ids : (claimOf routeId now limit (records.map (.rename ρ))).map (fun p => p.id) =
            ((claimOf routeId now limit records).map fun p => p.id).map ρ := by
          rw [claims, List.map_map, List.map_map]
          rfl
        rw [ids]
        exact contains_rename _ r
  | @delivered ids deliveredAt bulkRequestId =>
    cases serves' with
    | delivered => exact ⟨trivial, fun _ => changeWhere_rename (contains_rename ids) fun _ => rfl⟩
  | @failed ids nextAttemptAt error =>
    cases serves' with
    | failed => exact ⟨trivial, fun _ => changeWhere_rename (contains_rename ids) fun _ => rfl⟩
  | @parked ids error =>
    cases serves' with
    | parked => exact ⟨trivial, fun _ => changeWhere_rename (contains_rename ids) fun _ => rfl⟩
  | @released ids nextAttemptAt error =>
    have tests : ∀ r : EventRecord, ((r.rename ρ).status == .delivering && (ids.map ρ).contains (r.rename ρ).id) =
        (r.status == .delivering && ids.contains r.id) := by
      intro r
      rw [contains_rename]
      rfl
    cases serves' with
    | released => exact ⟨(countP_rename tests).symm, fun _ => changeWhere_rename tests fun _ => rfl⟩
  | @recovered now owner =>
    cases serves' with
    | recovered =>
      have same := countP_blind ρ records (fun r => r.recoverable now owner) fun _ => rfl
      exact ⟨same.symm, fun _ => changeWhere_rename (fun _ => rfl) fun _ => rfl⟩
  | @expired now maxAgeMs =>
    cases serves' with
    | expired =>
      have same := countP_blind ρ records (fun r => r.expired (now - maxAgeMs)) fun _ => rfl
      exact ⟨same.symm, fun _ => changeWhere_rename (fun _ => rfl) fun _ => rfl⟩
  | pruned prunes₁ =>
    cases serves' with
    | pruned prunes₂ =>
      cases prunes₁ with
      | undated undated =>
        cases prunes₂ with
        | undated undated' =>
          obtain rfl := Except.error.inj (undated.symm.trans undated')
          exact ⟨rfl, fun _ => rfl⟩
        | pruned dated' _ => cases undated.symm.trans dated'
      | pruned dated prunes₁ =>
        cases prunes₂ with
        | undated undated' => cases dated.symm.trans undated'
        | pruned dated' prunes₂ =>
          obtain ⟨rfl, rfl⟩ := Prod.mk.inj (Except.ok.inj (dated.symm.trans dated'))
          refine ⟨congrArg Except.ok (prunes₁.counts_rename prunes₂), fun prunes => ?_⟩
          rcases prunes _ _ _ _ rfl with covers | kept
          · obtain ⟨-, -, rfl, rfl⟩ := cutoffs_ok dated
            exact prunes₁.left_rename prunes₂ distinct covers.1 covers.2
          · exact prunes₁.left_kept prunes₂ distinct kept
  | @replayed id now =>
    have tests : ∀ r : EventRecord, ((r.rename ρ).id == ρ id && (r.rename ρ).status == .parked) =
        (r.id == id && r.status == .parked) := by
      intro r
      have same : (ρ r.id == ρ id) = (r.id == id) := by
        rw [Bool.eq_iff_iff, beq_iff_eq, beq_iff_eq, ρ.injective.eq_iff]
      exact congrArg (· && r.status == .parked) same
    cases serves' with
    | replayed =>
      refine ⟨?_, fun _ => changeWhere_rename tests fun _ => rfl⟩
      show _ = (records.map (EventRecord.rename ρ)).any _
      rw [List.any_map]
      exact (congrArg records.any (funext tests)).symm
  | replayedAll =>
    cases serves' with
    | replayedAll =>
      have same := countP_blind ρ records (fun r => r.status == .parked) fun _ => rfl
      exact ⟨same.symm, fun _ => changeWhere_rename (fun _ => rfl) fun _ => rfl⟩

end Agree

end EndCloseRelay
