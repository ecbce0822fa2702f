import EndCloseRelay.Engine.Hooks
import EndCloseRelay.Engine.RecordStore

/-!
# Retention

The loop of `runPrune` and of `EventsRepo.prune` over any record store.  Each
round wipes or deletes some of the records that are due for it, so their number
falls, and what is specified of the records does not change.
-/

namespace EndCloseRelay

open MemoryStore

/-! ## What a round does -/

section

variable {limit : Nat} {test : EventRecord → Bool} {records picked : List EventRecord}

/-- The picked records are those under their ids. -/
theorem Picks.perm (picks : Picks limit test records picked)
    (distinct : (records.map fun r => r.id).Nodup) :
    picked.Perm (records.filter fun r => decide (r.id ∈ picked.map fun p => p.id)) := by
  refine (List.perm_ext_iff_of_nodup (List.Nodup.of_map _ picks.distinct)
    (distinct.of_map.filter _)).mpr fun r => ?_
  rw [List.mem_filter, decide_eq_true_iff]
  constructor
  · intro member
    exact ⟨(picks.taken r member).1, List.mem_map_of_mem member⟩
  · rintro ⟨member, listed⟩
    obtain ⟨p, there, same⟩ := List.mem_map.mp listed
    rw [← List.inj_on_of_nodup_map distinct (picks.taken p there).1 member same]
    exact there

/-- Leaving the picked records out takes their number off. -/
theorem Picks.countP_left (picks : Picks limit test records picked)
    (distinct : (records.map fun r => r.id).Nodup) :
    picked.length + (records.filter fun r => decide (r.id ∉ picked.map fun p => p.id)).countP test =
      records.countP test := by
  have all : picked.countP test = picked.length :=
    List.countP_eq_length.mpr fun r member => (picks.taken r member).2
  have split := List.countP_eq_countP_filter_add records test
    fun r => decide (r.id ∈ picked.map fun p => p.id)
  rw [← (picks.perm distinct).countP_eq test, all] at split
  simp only [← decide_not] at split
  exact split.symm

end

namespace EventRecord

/-- A record without payload has been wiped. -/
def WipedIfEmpty (r : EventRecord) : Prop := r.payload = [] → r.wipe = r

instance (r : EventRecord) : Decidable r.WipedIfEmpty :=
  inferInstanceAs (Decidable (r.payload = [] → r.wipe = r))

variable {r : EventRecord} {cutoff : Int}

theorem endedBefore_of_wipeable (taken : r.wipeable cutoff) : r.endedBefore cutoff := by
  unfold wipeable at taken
  rw [Bool.and_eq_true] at taken
  exact taken.1

theorem wipeable_wipe : r.wipe.wipeable cutoff = false := by
  show (r.wipe.endedBefore cutoff && false) = false
  exact Bool.and_false _

/-- A record that is ended but not to be wiped has been wiped. -/
theorem WipedIfEmpty.wiped (wipedIfEmpty : r.WipedIfEmpty) (ended : r.endedBefore cutoff)
    (spared : ¬ r.wipeable cutoff) : r.wipe = r := by
  refine wipedIfEmpty ?_
  unfold wipeable at spared
  rw [ended, Bool.true_and, Bool.not_eq_true, Bool.not_eq_false', List.isEmpty_iff] at spared
  exact spared

end EventRecord

/-! ## What retention is for -/

/-- What retention is to leave: ended records past the ledger's cutoff gone, and
of the others those past the delivered cutoff wiped. -/
def retained (deliveredCutoff ledgerCutoff : Int) (records : List EventRecord) : List EventRecord :=
  (records.filter fun r => !r.endedBefore ledgerCutoff).map fun r =>
    if r.endedBefore deliveredCutoff then r.wipe else r

section

variable {deliveredCutoff ledgerCutoff : Int} {limit : Nat} {records picked : List EventRecord}

/-- Wiping some of the records to be wiped changes nothing about what is to be left. -/
theorem retained_wipe (picks : Picks limit (EventRecord.wipeable deliveredCutoff) records picked)
    (distinct : (records.map fun r => r.id).Nodup) :
    retained deliveredCutoff ledgerCutoff
        (records.map fun r => if r.id ∈ picked.map fun p => p.id then r.wipe else r) =
      retained deliveredCutoff ledgerCutoff records := by
  unfold retained
  rw [List.filter_map, List.map_map]
  have tests : (fun r : EventRecord => !r.endedBefore ledgerCutoff) ∘
      (fun r => if r.id ∈ picked.map fun p => p.id then r.wipe else r) =
        fun r => !r.endedBefore ledgerCutoff := by
    funext r
    rw [Function.comp_apply]
    split <;> rfl
  rw [tests]
  refine List.map_congr_left fun r member => ?_
  rw [Function.comp_apply]
  by_cases listed : r.id ∈ picked.map fun p => p.id
  · obtain ⟨p, there, same⟩ := List.mem_map.mp listed
    obtain ⟨inside, taken⟩ := picks.taken p there
    rw [List.inj_on_of_nodup_map distinct inside (List.mem_filter.mp member).1 same] at taken
    have ended := EventRecord.endedBefore_of_wipeable taken
    rw [if_pos listed, if_pos ended, if_pos (show r.wipe.endedBefore deliveredCutoff from ended)]
    rfl
  · rw [if_neg listed]

/-- Nor does deleting some of the records to be deleted. -/
theorem retained_delete (picks : Picks limit (EventRecord.endedBefore ledgerCutoff) records picked)
    (distinct : (records.map fun r => r.id).Nodup) :
    retained deliveredCutoff ledgerCutoff
        (records.filter fun r => decide (r.id ∉ picked.map fun p => p.id)) =
      retained deliveredCutoff ledgerCutoff records := by
  unfold retained
  rw [List.filter_filter]
  refine congrArg (List.map _) (List.filter_congr fun r member => ?_)
  rw [Bool.and_eq_left_iff_imp]
  intro stays
  rw [decide_eq_true_iff]
  intro listed
  obtain ⟨p, there, same⟩ := List.mem_map.mp listed
  obtain ⟨inside, taken⟩ := picks.taken p there
  rw [List.inj_on_of_nodup_map distinct inside member same] at taken
  rw [taken] at stays
  cases stays

/-- Where nothing is to be wiped or deleted, everything is as it is to be left. -/
theorem retained_done (wipedIfEmpty : ∀ r ∈ records, r.WipedIfEmpty)
    (unwiped : records.countP (EventRecord.wipeable deliveredCutoff) = 0)
    (undeleted : records.countP (EventRecord.endedBefore ledgerCutoff) = 0) :
    retained deliveredCutoff ledgerCutoff records = records := by
  unfold retained
  rw [List.filter_eq_self.mpr fun r member => by
    rw [Bool.not_eq_true', Bool.eq_false_iff]
    exact List.countP_eq_zero.mp undeleted r member]
  refine (List.map_congr_left fun r member => ?_).trans (List.map_id' records)
  split
  · rename_i ended
    exact (wipedIfEmpty r member).wiped ended (List.countP_eq_zero.mp unwiped r member)
  · rfl

end

/-! ## The loop -/

/-- `RetentionSettings`. -/
structure RetentionSettings where
  deliveredDays : Int
  ledgerDays : Int

/-- What a prune has wiped and deleted, and the hooks it emitted. -/
structure PruneTotals where
  wiped : Nat := 0
  deleted : Nat := 0
  hooks : List RelayEvent := []

/-- The totals after a batch. -/
def PruneTotals.add (totals : PruneTotals) (batch : Nat × Nat) : PruneTotals where
  wiped := totals.wiped + batch.1
  deleted := totals.deleted + batch.2
  hooks := totals.hooks ++ [.prune batch.1 batch.2]

/-- What `runPrune` adds of an error. -/
def PruneTotals.closed (totals : PruneTotals) : Except RelayError Unit → PruneTotals
  | .ok () => totals
  | .error err => { totals with hooks := totals.hooks ++ [.error .prune err none none] }

namespace RetentionSettings

/-- The cutoffs of the settings are times at this time. -/
def Dated (retention : RetentionSettings) (now : Int) : Prop :=
  isTime (now - retention.deliveredDays * dayMs) ∧ isTime (now - retention.ledgerDays * dayMs)

instance (retention : RetentionSettings) (now : Int) : Decidable (retention.Dated now) :=
  inferInstanceAs (Decidable (_ ∧ _))

end RetentionSettings

namespace RecordStore

variable (S : RecordStore)

/-- `while (!abort()) { … }`, for `fuel` rounds at most: what it throws, its totals
and the store; `none` where it goes on. -/
def pruneRounds (retention : RetentionSettings) (now : Int) (limit : Nat) :
    Nat → (Nat → Bool × S.Choice) → PruneTotals → S.State →
      Option (Except RelayError Unit × PruneTotals × S.State)
  | 0, _, _, _ => none
  | fuel + 1, rounds, totals, s =>
    if (rounds 0).1 then some (.ok (), totals, s)
    else
      let after := S.apply (rounds 0).2 s
        (.pruneBatch now retention.deliveredDays retention.ledgerDays limit)
      match (after.1 : Except RelayError (Nat × Nat)) with
      | .error err => some (.error err, totals, after.2)
      | .ok batch =>
        if batch = (0, 0) then some (.ok (), totals.add batch, after.2)
        else pruneRounds retention now limit fuel (fun n => rounds (n + 1)) (totals.add batch) after.2

/-- `PRUNE_BATCH`. -/
def pruneBatchSize : Nat := 50

/-- `runPrune(abort)`; `rounds` are the answers of `abort` and what the store chooses. -/
def runPrune (retention : Option RetentionSettings) (now : Int) (fuel : Nat)
    (rounds : Nat → Bool × S.Choice) (s : S.State) :
    Option (Except RelayError Unit × PruneTotals × S.State) :=
  match retention with
  | none => some (.ok (), {}, s)
  | some retention =>
    (S.pruneRounds retention now pruneBatchSize fuel rounds {} s).map fun (ended, totals, s) =>
      (ended, totals.closed ended, s)

variable {S}

theorem distinct_ids {s : S.State} (sound : S.Sound s) : ((S.records s).map fun r => r.id).Nodup :=
  List.nodup_iff_pairwise_ne.mpr
    (List.pairwise_map.mpr ((S.sorted s sound).imp fun less => Nat.ne_of_lt less))

/-- The records a prune has still to wipe and to delete. -/
def dueCounts (retention : RetentionSettings) (now : Int) (s : S.State) : Nat × Nat :=
  ((S.records s).countP (EventRecord.wipeable (now - retention.deliveredDays * dayMs)),
    (S.records s).countP (EventRecord.endedBefore (now - retention.ledgerDays * dayMs)))

/-- What retention is to leave of a state. -/
def retainedRecords (retention : RetentionSettings) (now : Int) (s : S.State) : List EventRecord :=
  retained (now - retention.deliveredDays * dayMs) (now - retention.ledgerDays * dayMs) (S.records s)

/-- One round: its counts come off what is due, and what is to be left stays; after
a round of zeros nothing is due. -/
theorem prune_round {s : S.State} (sound : S.Sound s) (choice : S.Choice) (retention : RetentionSettings)
    {now : Int} (dated : retention.Dated now) {limit : Nat} (positive : 0 < limit)
    (wipedIfEmpty : ∀ r ∈ S.records s, r.WipedIfEmpty) :
    ∃ batch : Nat × Nat, ∃ s', S.apply choice s
        (.pruneBatch now retention.deliveredDays retention.ledgerDays limit) = (.ok batch, s') ∧
      (dueCounts retention now s).1 = batch.1 + (dueCounts retention now s').1 ∧
      (dueCounts retention now s).2 = batch.2 + (dueCounts retention now s').2 ∧
      retainedRecords retention now s' = retainedRecords retention now s ∧
      (∀ r ∈ S.records s', r.WipedIfEmpty) ∧
      (batch = (0, 0) → dueCounts retention now s' = (0, 0)) := by
  have prunes := S.prunes choice s now retention.deliveredDays retention.ledgerDays limit sound
  have distinct := distinct_ids sound
  obtain ⟨answer, s', applied⟩ : ∃ answer s', S.apply choice s
      (.pruneBatch now retention.deliveredDays retention.ledgerDays limit) = (answer, s') := ⟨_, _, rfl⟩
  rw [applied] at prunes ⊢
  obtain ⟨batch, rfl, prunes⟩ := prunes.prunes (cutoffs_of_isTime dated.1 dated.2)
  refine ⟨batch, s', rfl, ?_⟩
  unfold dueCounts retainedRecords
  generalize S.records s' = left at prunes ⊢
  generalize S.records s = records at wipedIfEmpty prunes distinct ⊢
  cases prunes with
  | @wipe picked picks found =>
    have unpicked : (records.map fun r => if r.id ∈ picked.map fun p => p.id then r.wipe else r).countP
        (EventRecord.wipeable (now - retention.deliveredDays * dayMs)) =
          (records.filter fun r => decide (r.id ∉ picked.map fun p => p.id)).countP
            (EventRecord.wipeable (now - retention.deliveredDays * dayMs)) := by
      rw [List.countP_map, List.countP_filter]
      refine List.countP_congr fun r _ => ?_
      rw [Function.comp_apply]
      by_cases listed : r.id ∈ picked.map fun p => p.id
      · rw [if_pos listed, EventRecord.wipeable_wipe]
        simp [listed]
      · rw [if_neg listed]
        simp [listed]
    have ended : (records.map fun r => if r.id ∈ picked.map fun p => p.id then r.wipe else r).countP
        (EventRecord.endedBefore (now - retention.ledgerDays * dayMs)) =
          records.countP (EventRecord.endedBefore (now - retention.ledgerDays * dayMs)) := by
      rw [List.countP_map]
      refine List.countP_congr fun r _ => ?_
      rw [Function.comp_apply]
      split <;> rfl
    refine ⟨?_, ?_, retained_wipe picks distinct, ?_, ?_⟩
    · rw [unpicked, picks.countP_left distinct]
    · rw [ended, Nat.zero_add]
    · intro r member
      obtain ⟨old, there, rfl⟩ := List.mem_map.mp member
      split
      · intro _
        rfl
      · exact wipedIfEmpty old there
    · intro zeros
      have none_ : picked.length = 0 := congrArg Prod.fst zeros
      exact absurd (List.eq_nil_of_length_eq_zero none_) found
  | @delete picked none_ picks =>
    have unwiped : records.countP
        (EventRecord.wipeable (now - retention.deliveredDays * dayMs)) = 0 := by
      omega
    have still : (records.filter fun r => decide (r.id ∉ picked.map fun p => p.id)).countP
        (EventRecord.wipeable (now - retention.deliveredDays * dayMs)) = 0 :=
      Nat.le_zero.mp (unwiped ▸ List.filter_sublist.countP_le)
    refine ⟨?_, ?_, retained_delete picks distinct, ?_, ?_⟩
    · rw [still, unwiped]
      rfl
    · rw [picks.countP_left distinct]
    · intro r member
      exact wipedIfEmpty r (List.mem_filter.mp member).1
    · intro zeros
      have nothing : picked.length = 0 := congrArg Prod.snd zeros
      have left := picks.countP_left distinct
      have count := picks.count
      rw [still]
      refine Prod.ext rfl ?_
      show (records.filter fun r => decide (r.id ∉ picked.map fun p => p.id)).countP
        (EventRecord.endedBefore (now - retention.ledgerDays * dayMs)) = 0
      omega

/-- The loop ends: what was due is its totals, and what it leaves is what retention
is to leave. -/
theorem pruneRounds_ends (retention : RetentionSettings) {now : Int} (dated : retention.Dated now)
    {limit : Nat} (positive : 0 < limit) (rounds : Nat → Bool × S.Choice) (unaborted : ∀ n, (rounds n).1 = false)
    (totals : PruneTotals) (s : S.State) (sound : S.Sound s)
    (wipedIfEmpty : ∀ r ∈ S.records s, r.WipedIfEmpty) :
    ∃ fuel totals' s', S.pruneRounds retention now limit fuel rounds totals s =
        some (.ok (), totals', s') ∧
      totals'.wiped = totals.wiped + (dueCounts retention now s).1 ∧
      totals'.deleted = totals.deleted + (dueCounts retention now s).2 ∧
      S.records s' = retainedRecords retention now s := by
  induction due : (dueCounts retention now s).1 + (dueCounts retention now s).2
    using Nat.strong_induction_on generalizing rounds totals s with
  | _ measure ih =>
    obtain ⟨batch, s', applied, wiped, deleted, retains, wipedIfEmpty', done⟩ :=
      prune_round sound (rounds 0).2 retention dated positive wipedIfEmpty
    have sound' : S.Sound s' := by
      have kept := S.sound_apply (rounds 0).2 s
        (.pruneBatch now retention.deliveredDays retention.ledgerDays limit) sound
      rw [applied] at kept
      exact kept
    have round : ∀ fuel, S.pruneRounds retention now limit (fuel + 1) rounds totals s =
        if batch = (0, 0) then some (.ok (), totals.add batch, s')
        else S.pruneRounds retention now limit fuel (fun n => rounds (n + 1)) (totals.add batch) s' := by
      intro fuel
      rw [pruneRounds, unaborted 0, if_neg Bool.false_ne_true]
      simp only [applied]
    by_cases zeros : batch = (0, 0)
    · refine ⟨1, totals.add batch, s', ?_, ?_, ?_, ?_⟩
      · rw [round, if_pos zeros]
      · rw [wiped, done zeros]
        rfl
      · rw [deleted, done zeros]
        rfl
      · rw [← retains]
        have nothing := done zeros
        exact (retained_done wipedIfEmpty' (congrArg Prod.fst nothing) (congrArg Prod.snd nothing)).symm
    · have falls : (dueCounts retention now s').1 + (dueCounts retention now s').2 < measure := by
        have some_ : ¬ (batch.1 = 0 ∧ batch.2 = 0) := fun both => zeros (Prod.ext both.1 both.2)
        omega
      obtain ⟨fuel, totals', final, ends, wiped', deleted', left⟩ :=
        ih _ falls (fun n => rounds (n + 1)) (fun n => unaborted (n + 1)) (totals.add batch) s' sound'
          wipedIfEmpty' rfl
      refine ⟨fuel + 1, totals', final, ?_, ?_, ?_, left.trans retains⟩
      · rw [round, if_neg zeros, ends]
      · rw [wiped', wiped]
        exact Nat.add_assoc _ _ _
      · rw [deleted', deleted]
        exact Nat.add_assoc _ _ _

end RecordStore

end EndCloseRelay
