import EndCloseRelay.Engine.RowChange
import EndCloseRelay.Interaction.Machine

/-!
# What the engine relies on of a store

A `RecordStore` is a store as its callers see it: records in the order of their
ids, and for each call what it does to the record of an id.  The in-memory store
and the SQLite store are two; what is proved of every run of a record store
holds of both.
-/

namespace EndCloseRelay

open Interaction MemoryStore

/-! ## What a call does to a record -/

/-- What a call to a store can do to what stands under an id. -/
inductive Moves : StoreOp → Option EventRecord → Option EventRecord → Prop
  | change {op old new} (change : RowChange op old new) : Moves op old new
  /-- A list of ids is a set to a statement. -/
  | failOnce {ids nextAttemptAt error r} (member : r.id ∈ ids) :
      Moves (.markFailed ids nextAttemptAt error) (some r) (some (r.fail nextAttemptAt error))
  /-- An empty iv reads back as none. -/
  | blankIv {e id} (blank : e.payloadIv = some []) :
      Moves (.insert e) none (some (.ofNew { e with payloadIv := none } id))

/-- Nothing but an insert puts a record where there was none. -/
theorem Moves.insert_of_new {op : StoreOp} {r : EventRecord} (moves : Moves op none (some r)) :
    ∃ e, op = .insert e := by
  cases moves with
  | change change =>
    cases change with
    | inserted => exact ⟨_, rfl⟩
  | blankIv _ => exact ⟨_, rfl⟩

namespace EventRecord

/-- A terminal record received before a cutoff. -/
def endedBefore (cutoff : Int) (r : EventRecord) : Bool := r.isTerminal && decide (r.receivedAt < cutoff)

/-- Such a record that has a payload. -/
def wipeable (cutoff : Int) (r : EventRecord) : Bool := r.endedBefore cutoff && !r.payload.isEmpty

/-- A record `claimDue` may return. -/
def claimable (routeId : String) (now : Int) (r : EventRecord) : Bool :=
  r.routeId == routeId && r.isDue now

end EventRecord

/-- As many of the records a test takes as a limit allows. -/
structure Picks (limit : Nat) (test : EventRecord → Bool) (records picked : List EventRecord) :
    Prop where
  distinct : (picked.map fun r => r.id).Nodup
  taken : ∀ r ∈ picked, r ∈ records ∧ test r
  count : picked.length = min limit (records.countP test)

/-- What `pruneBatch` answers and leaves: it wipes, or deletes where nothing is to wipe. -/
inductive Prunes (wipeCutoff deleteCutoff : Int) (limit : Nat) (records : List EventRecord) :
    Nat × Nat → List EventRecord → Prop
  | wipe {picked} (picks : Picks limit (EventRecord.wipeable wipeCutoff) records picked)
      (found : picked ≠ []) :
      Prunes wipeCutoff deleteCutoff limit records (picked.length, 0)
        (records.map fun r => if r.id ∈ picked.map fun p => p.id then r.wipe else r)
  | delete {picked} (none_ : min limit (records.countP (EventRecord.wipeable wipeCutoff)) = 0)
      (picks : Picks limit (EventRecord.endedBefore deleteCutoff) records picked) :
      Prunes wipeCutoff deleteCutoff limit records (0, picked.length)
        (records.filter fun r => r.id ∉ picked.map fun p => p.id)

/-- `pruneBatch`, which throws where a cutoff is no time. -/
inductive PruneBatch (now deliveredDays ledgerDays : Int) (limit : Nat) (records : List EventRecord) :
    Except RelayError (Nat × Nat) → List EventRecord → Prop
  | undated {err} (undated : cutoffs now deliveredDays ledgerDays = .error err) :
      PruneBatch now deliveredDays ledgerDays limit records (.error err) records
  | pruned {wipeCutoff deleteCutoff counts left}
      (dated : cutoffs now deliveredDays ledgerDays = .ok (wipeCutoff, deleteCutoff))
      (prunes : Prunes wipeCutoff deleteCutoff limit records counts left) :
      PruneBatch now deliveredDays ledgerDays limit records (.ok counts) left

/-- With cutoffs that are times it answers. -/
theorem PruneBatch.prunes {now deliveredDays ledgerDays wipeCutoff deleteCutoff : Int} {limit : Nat}
    {records left : List EventRecord} {answer : Except RelayError (Nat × Nat)}
    (prunes : PruneBatch now deliveredDays ledgerDays limit records answer left)
    (dated : cutoffs now deliveredDays ledgerDays = .ok (wipeCutoff, deleteCutoff)) :
    ∃ counts, answer = .ok counts ∧ Prunes wipeCutoff deleteCutoff limit records counts left := by
  cases prunes with
  | undated undated => cases undated.symm.trans dated
  | pruned dated' prunes =>
    obtain ⟨rfl, rfl⟩ := Prod.mk.inj (Except.ok.inj (dated'.symm.trans dated))
    exact ⟨_, rfl, prunes⟩

/-! ## Stores -/

/-- A store of event records.  A `Choice` is what a call leaves to the store, as
the order in which a query without one visits rows. -/
structure RecordStore where
  State : Type
  Choice : Type
  empty : State
  apply : Choice → State → (op : StoreOp) → op.Result × State
  getById : State → Nat → Option EventRecord
  /-- The records that are there, in the order of their ids. -/
  records : State → List EventRecord
  /-- What the implementation keeps of its own fields. -/
  Sound : State → Prop
  sound_empty : Sound empty
  sound_apply : ∀ choice s op, Sound s → Sound (apply choice s op).2
  records_empty : records empty = []
  sorted : ∀ s, Sound s → (records s).Pairwise fun r r' => r.id < r'.id
  keys : ∀ s, Sound s → ((records s).map fun r => r.idempotencyKey).Nodup
  getById_eq : ∀ s id, Sound s → getById s id = (records s).find? fun r => r.id == id
  moves : ∀ choice s op id, Sound s → Moves op (getById s id) (getById (apply choice s op).2 id)
  inserted : ∀ choice s e id, Sound s → ((apply choice s (.insert e)).1 = .inserted id ↔
    getById s id = none ∧ (getById (apply choice s (.insert e)).2 id).isSome)
  known : ∀ choice s e, Sound s → e.idempotencyKey ∈
    (records (apply choice s (.insert e)).2).map fun r => r.idempotencyKey
  claimed : ∀ choice s routeId now limit lease, Sound s →
    (apply choice s (.claimDue routeId now limit lease)).1 =
      (((records s).filter (EventRecord.claimable routeId now)).take limit).map (.claim now lease)
  holds : ∀ choice s routeId now limit lease, Sound s →
    ∀ r ∈ (((records s).filter (EventRecord.claimable routeId now)).take limit).map (.claim now lease),
      getById (apply choice s (.claimDue routeId now limit lease)).2 r.id = some r
  prunes : ∀ choice s now deliveredDays ledgerDays limit, Sound s →
    PruneBatch now deliveredDays ledgerDays limit (records s)
      (apply choice s (.pruneBatch now deliveredDays ledgerDays limit)).1
      (records (apply choice s (.pruneBatch now deliveredDays ledgerDays limit)).2)

namespace RecordStore

variable {S : RecordStore} {s : S.State}

/-- A store from its creation on. -/
def machine (S : RecordStore) : Machine S.State (S.Choice × StoreOp) where
  init := S.empty
  step s call := (S.apply call.1 s call.2).2

theorem sound_run (S : RecordStore) (calls : List (S.Choice × StoreOp)) : S.Sound (S.machine.run calls) :=
  S.machine.invariant S.Sound S.sound_empty (fun s call sound => S.sound_apply call.1 s call.2 sound) calls

theorem mem_of_getById (sound : S.Sound s) {id : Nat} {r : EventRecord}
    (found : S.getById s id = some r) : r ∈ S.records s ∧ r.id = id := by
  rw [S.getById_eq s id sound] at found
  have same := List.find?_some found
  exact ⟨List.mem_of_find?_eq_some found, beq_iff_eq.mp same⟩

theorem getById_of_mem (sound : S.Sound s) {r : EventRecord} (member : r ∈ S.records s) :
    S.getById s r.id = some r := by
  rw [S.getById_eq s r.id sound]
  have distinct : ((S.records s).map fun r => r.id).Nodup :=
    List.nodup_iff_pairwise_ne.mpr
      (List.pairwise_map.mpr ((S.sorted s sound).imp fun less => Nat.ne_of_lt less))
  cases found : (S.records s).find? fun r' => r'.id == r.id with
  | none => exact absurd (beq_self_eq_true _) (List.find?_eq_none.mp found r member)
  | some r' =>
    have same : (r'.id == r.id) = true := List.find?_some (p := fun r' : EventRecord => r'.id == r.id) found
    exact congrArg some (List.inj_on_of_nodup_map distinct (List.mem_of_find?_eq_some found) member
      (beq_iff_eq.mp same))

end RecordStore

end EndCloseRelay
