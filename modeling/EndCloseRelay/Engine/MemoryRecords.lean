import EndCloseRelay.Engine.RecordStore

/-!
# The in-memory store as a record store

`rows` stands in the order of ids and `byKey` is its inverse; every call keeps
both.
-/

namespace EndCloseRelay

open MemoryStore

namespace MemoryStore

/-- Rows in the order of their ids under distinct keys, and `byKey` their inverse. -/
structure Sound (store : MemoryStore) : Prop where
  sorted : store.rows.Pairwise fun r r' => r.id < r'.id
  keys : (store.rows.map fun r => r.idempotencyKey).Nodup
  index : store.byKey = store.rows.map fun r => (r.idempotencyKey, r.id)

variable {store : MemoryStore}

/-! ## Every call keeps the representation -/

section

variable {f : EventRecord → EventRecord} {keeps : ∀ r, (f r).id = r.id}

theorem Sound.update (sound : store.Sound) (same : ∀ r, (f r).idempotencyKey = r.idempotencyKey) :
    (store.update f keeps).Sound := by
  constructor
  · exact List.pairwise_map.mpr (sound.sorted.imp fun less => by rw [keeps, keeps]; exact less)
  · show ((store.rows.map f).map fun r => r.idempotencyKey).Nodup
    simp only [List.map_map, Function.comp_def, same]
    exact sound.keys
  · show store.byKey = (store.rows.map f).map fun r => (r.idempotencyKey, r.id)
    simp only [List.map_map, Function.comp_def, same, keeps]
    exact sound.index

theorem Sound.updateWhere (sound : store.Sound) (p : EventRecord → Bool)
    (same : ∀ r, (f r).idempotencyKey = r.idempotencyKey) : (store.updateWhere p f keeps).Sound := by
  refine sound.update fun r => ?_
  split
  · exact same r
  · rfl

theorem Sound.updateRow (sound : store.Sound) (id : Nat)
    (same : ∀ r, (f r).idempotencyKey = r.idempotencyKey) : (store.updateRow f keeps id).Sound :=
  sound.updateWhere _ same

theorem Sound.updatePicked (sound : store.Sound) (ids : List Nat)
    (same : ∀ r, (f r).idempotencyKey = r.idempotencyKey) : (store.updatePicked f keeps ids).Sound := by
  unfold MemoryStore.updatePicked
  induction ids generalizing store with
  | nil => exact sound
  | cons id ids ih =>
    rw [List.foldl_cons]
    exact ih (sound.updateRow id same)

end

theorem Sound.releaseRows {acc : Nat × MemoryStore} (sound : acc.2.Sound) (nextAttemptAt : Int)
    (error : String) (ids : List Nat) : (ids.foldl (releaseRow nextAttemptAt error) acc).2.Sound := by
  induction ids generalizing acc with
  | nil => exact sound
  | cons id ids ih =>
    rw [List.foldl_cons]
    refine ih ?_
    unfold releaseRow
    split
    · split
      · dsimp only
        exact sound.updateRow id fun _ => rfl
      · exact sound
    · exact sound

/-- A key is in the index exactly where a row has it. -/
theorem Sound.lookup_none (sound : store.Sound) {key : String} :
    store.byKey.lookup key = none ↔ key ∉ store.rows.map fun r => r.idempotencyKey := by
  rw [List.lookup_eq_none_iff, sound.index]
  simp only [List.mem_map, forall_exists_index, and_imp, forall_apply_eq_imp_iff₂, bne_iff_ne, ne_eq,
    not_exists, not_and]
  exact forall₂_congr fun r _ => ⟨fun other same => other same.symm, fun other same => other same.symm⟩

theorem Sound.addRow (sound : store.Sound) {e : NewEvent}
    (fresh : store.byKey.lookup e.idempotencyKey = none) : (store.addRow e).Sound := by
  constructor
  · refine List.pairwise_append.mpr ⟨sound.sorted, List.pairwise_singleton _ _, ?_⟩
    intro r member r' new
    rw [List.mem_singleton.mp new]
    exact store.fresh r member
  · show ((store.rows ++ [EventRecord.ofNew e store.nextId]).map fun r => r.idempotencyKey).Nodup
    rw [List.map_append, List.nodup_append]
    refine ⟨sound.keys, List.nodup_singleton _, ?_⟩
    intro key member key' new same
    rw [List.map_singleton, List.mem_singleton] at new
    exact sound.lookup_none.mp fresh (by rw [same, new] at member; exact member)
  · show store.byKey ++ [(e.idempotencyKey, store.nextId)] =
      (store.rows ++ [EventRecord.ofNew e store.nextId]).map fun r => (r.idempotencyKey, r.id)
    rw [List.map_append, sound.index]
    rfl

/-- Deleting rows deletes the entries of their keys and no others. -/
theorem Sound.deleteRows (sound : store.Sound) {gone : List EventRecord}
    (sub : ∀ r ∈ gone, r ∈ store.rows) : (store.deleteRows gone).Sound := by
  constructor
  · exact sound.sorted.filter _
  · exact sound.keys.sublist (List.filter_sublist.map _)
  · show store.byKey.filter _ = (store.rows.filter _).map _
    rw [sound.index, List.filter_map]
    congr 1
    refine List.filter_congr fun r member => ?_
    simp only [Function.comp_apply, Bool.not_eq_eq_eq_not, Bool.not_not]
    rw [Bool.eq_iff_iff, List.contains_iff_mem, List.contains_iff_mem]
    constructor
    · intro listed
      obtain ⟨g, there, same⟩ := List.mem_map.mp listed
      rw [← List.inj_on_of_nodup_map sound.keys (sub g there) member same]
      exact List.mem_map_of_mem there
    · intro listed
      obtain ⟨g, there, same⟩ := List.mem_map.mp listed
      rw [← List.inj_on_of_nodup_map store.distinct (sub g there) member same]
      exact List.mem_map_of_mem there

theorem Sound.apply (sound : store.Sound) (op : StoreOp) : (store.apply op).2.Sound := by
  cases op with
  | insert e =>
    simp only [MemoryStore.apply, MemoryStore.insert]
    split
    · exact sound
    · rename_i fresh
      exact sound.addRow fresh
  | routesWithDueEvents now => exact sound
  | claimDue routeId now limit lease =>
    simp only [MemoryStore.apply, MemoryStore.claimDue]
    exact sound.updateWhere _ fun _ => rfl
  | markDelivered ids deliveredAt bulkRequestId =>
    simp only [MemoryStore.apply]
    exact sound.updatePicked ids fun _ => rfl
  | markFailed ids nextAttemptAt error =>
    simp only [MemoryStore.apply]
    exact sound.updatePicked ids fun _ => rfl
  | markParked ids error =>
    simp only [MemoryStore.apply]
    exact sound.updatePicked ids fun _ => rfl
  | releaseDelivering ids nextAttemptAt error => exact Sound.releaseRows sound nextAttemptAt error ids
  | recoverDelivering now owner =>
    simp only [MemoryStore.apply]
    exact sound.updateWhere _ fun _ => rfl
  | parkExpired now maxAgeMs =>
    simp only [MemoryStore.apply]
    exact sound.updateWhere _ fun _ => rfl
  | pruneBatch now deliveredDays ledgerDays limit =>
    simp only [MemoryStore.apply, MemoryStore.pruneBatch]
    split
    · exact sound
    simp only [pruneTo]
    split
    · refine sound.deleteRows fun r picked => ?_
      exact (List.mem_filter.mp (List.mem_filter.mp (List.mem_of_mem_take picked)).1).1
    · dsimp only
      exact sound.updateWhere _ fun _ => rfl
  | replay id now =>
    simp only [MemoryStore.apply, MemoryStore.replay]
    split
    · split
      · dsimp only
        exact sound.updateRow id fun _ => rfl
      · exact sound
    · exact sound
  | replayAllParked now =>
    simp only [MemoryStore.apply]
    exact sound.updateWhere _ fun _ => rfl

/-! ## What calls answer -/

theorem insert_inserted_iff (e : NewEvent) (id : Nat) :
    (store.insert e).1 = .inserted id ↔
      store.row? id = none ∧ ((store.insert e).2.row? id).isSome := by
  unfold MemoryStore.insert
  split
  · refine iff_of_false (fun same => by cases same) ?_
    rintro ⟨absent, present⟩
    rw [absent] at present
    cases present
  · rw [row?_addRow]
    constructor
    · intro same
      cases same
      rw [if_pos rfl]
      refine ⟨?_, rfl⟩
      cases found : store.row? store.nextId with
      | none => rfl
      | some r => exact absurd (row?_lt found) (Nat.lt_irrefl _)
    · rintro ⟨absent, present⟩
      by_cases next : id = store.nextId
      · rw [next]
      · rw [if_neg next, absent] at present
        cases present

/-- After an insert its key is one of a row. -/
theorem Sound.known (sound : store.Sound) (e : NewEvent) :
    e.idempotencyKey ∈ (store.insert e).2.rows.map fun r => r.idempotencyKey := by
  unfold MemoryStore.insert
  split
  · rename_i found
    by_contra absent
    rw [sound.lookup_none.mpr absent] at found
    cases found
  · exact List.mem_map.mpr ⟨.ofNew e store.nextId, List.mem_append_right _ (List.mem_singleton.mpr rfl), rfl⟩

theorem row?_of_claimed {routeId : String} {now : Int} {limit : Nat} {lease : Lease} {r : EventRecord}
    (member : r ∈ (store.dueRows routeId now limit).map (.claim now lease)) :
    (store.claimDue routeId now limit lease).2.row? r.id = some r := by
  obtain ⟨due, picked, rfl⟩ := List.mem_map.mp member
  unfold claimDue
  rw [EventRecord.claim_id, row?_updateWhere, row?_of_mem (mem_dueRows picked).1, Option.map_some,
    if_pos (List.contains_iff_mem.mpr (List.mem_map_of_mem picked))]

/-- The first rows a test takes. -/
theorem Picks.take (store : MemoryStore) (limit : Nat) (test : EventRecord → Bool) :
    Picks limit test store.rows ((store.rows.filter test).take limit) where
  distinct := store.distinct.sublist
    (((List.take_sublist _ _).trans List.filter_sublist).map _)
  taken _ picked := List.mem_filter.mp (List.mem_of_mem_take picked)
  count := by rw [List.length_take, List.countP_eq_length_filter]

theorem prunes_pruneTo (wipeCutoff deleteCutoff : Int) (limit : Nat) :
    Prunes wipeCutoff deleteCutoff limit store.rows (store.pruneTo wipeCutoff deleteCutoff limit).1
      (store.pruneTo wipeCutoff deleteCutoff limit).2.rows := by
  have wiping : (store.rows.filter fun r => r.isTerminal).filter (fun r =>
      decide (r.receivedAt < wipeCutoff) && !r.payload.isEmpty) =
        store.rows.filter (EventRecord.wipeable wipeCutoff) := by
    rw [List.filter_filter]
    refine List.filter_congr fun r _ => ?_
    unfold EventRecord.wipeable EventRecord.endedBefore
    cases r.isTerminal <;> simp
  have deleting : (store.rows.filter fun r => r.isTerminal).filter (fun r =>
      decide (r.receivedAt < deleteCutoff)) =
        store.rows.filter (EventRecord.endedBefore deleteCutoff) := by
    rw [List.filter_filter]
    refine List.filter_congr fun r _ => ?_
    unfold EventRecord.endedBefore
    cases r.isTerminal <;> simp
  have wipes := Picks.take store limit (EventRecord.wipeable wipeCutoff)
  have deletes := Picks.take store limit (EventRecord.endedBefore deleteCutoff)
  unfold MemoryStore.pruneTo
  simp only [wiping, deleting]
  split
  · rename_i none_
    have left : (store.deleteRows ((store.rows.filter
        (EventRecord.endedBefore deleteCutoff)).take limit)).rows =
        store.rows.filter fun r => r.id ∉ ((store.rows.filter
          (EventRecord.endedBefore deleteCutoff)).take limit).map fun p => p.id := by
      refine List.filter_congr fun r _ => ?_
      simp
    rw [left]
    refine .delete ?_ deletes
    rw [← wipes.count, List.isEmpty_iff.mp none_]
    rfl
  · rename_i some_
    have left : (store.updateWhere (fun r => (((store.rows.filter
        (EventRecord.wipeable wipeCutoff)).take limit).map fun w => w.id).contains
          r.id) .wipe EventRecord.wipe_id).rows =
        store.rows.map fun r => if r.id ∈ ((store.rows.filter
          (EventRecord.wipeable wipeCutoff)).take limit).map fun p => p.id
          then r.wipe else r := by
      refine List.map_congr_left fun r _ => ?_
      simp only [List.contains_iff_mem]
    rw [left]
    exact .wipe wipes fun none_ => some_ (List.isEmpty_iff.mpr none_)

theorem prunes_pruneBatch (now deliveredDays ledgerDays : Int) (limit : Nat) :
    PruneBatch now deliveredDays ledgerDays limit store.rows
      (store.pruneBatch now deliveredDays ledgerDays limit).1
      (store.pruneBatch now deliveredDays ledgerDays limit).2.rows := by
  unfold MemoryStore.pruneBatch
  split
  · rename_i undated
    exact .undated undated
  · rename_i dated
    exact .pruned dated (prunes_pruneTo _ _ limit)

end MemoryStore

/-- `MemoryEventStore` as its callers see it. -/
def memoryRecords : RecordStore where
  State := MemoryStore
  Choice := Unit
  empty := {}
  apply _ store op := store.apply op
  getById := MemoryStore.getById
  records store := store.rows
  Sound := MemoryStore.Sound
  sound_empty := ⟨List.Pairwise.nil, List.nodup_nil, rfl⟩
  sound_apply _ _ op sound := sound.apply op
  records_empty := rfl
  sorted _ sound := sound.sorted
  keys _ sound := sound.keys
  getById_eq _ _ _ := rfl
  moves _ _ op id _ := .change (MemoryStore.row?_apply op id)
  inserted _ _ e id _ := MemoryStore.insert_inserted_iff e id
  known _ _ e sound := sound.known e
  claimed _ _ _ _ _ _ _ := rfl
  holds _ _ _ _ _ _ _ _ member := MemoryStore.row?_of_claimed member
  prunes _ _ now deliveredDays ledgerDays limit _ :=
    MemoryStore.prunes_pruneBatch now deliveredDays ledgerDays limit

end EndCloseRelay
