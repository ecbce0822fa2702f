import EndCloseRelay.Interaction.Machine
import EndCloseRelay.Sqlite.Stores

/-!
# Row ids over the life of a database

`events.id` is an `INTEGER PRIMARY KEY` without `AUTOINCREMENT`: a new row gets
one more than the largest id present.  The theorem says of which runs no id is
given out twice, and the run after it shows one that is.
-/

namespace EndCloseRelay

open Interaction Relational

namespace SqliteStore

/-! ## A database file -/

/-- What happens to a database file. -/
inductive FileAction
  | call (plan : Plan) (op : StoreOp)
  /-- The file is closed and opened again; every migration is in `schema_migrations`. -/
  | reopen

/-- The table, and the ids `insert` has returned, latest first. -/
structure File where
  events : Events := .empty
  issued : List Nat := []

/-- The id a call returned as that of a new row. -/
def issuedBy : (op : StoreOp) → op.Result → Option Nat
  | .insert _, .inserted id => some id
  | _, _ => none

/-- A database file from its creation on. -/
def file : Machine File FileAction where
  init := {}
  step s
    | .call plan op =>
      { events := (apply plan s.events op).2
        issued := (issuedBy op (apply plan s.events op).1).toList ++ s.issued }
    | .reopen => s

/-- No id that was given out is above the ids in the table. -/
def Topped (s : File) : Prop := ∀ id ∈ s.issued, ∃ r ∈ s.events.rows, id ≤ r.id

/-- A new key comes while the row of the largest id given out is in the table. -/
def InsertsOnTop (s : File) : FileAction → Prop
  | .call _ (.insert e) => e.idempotencyKey ∉ s.events.rows.map EventRow.idempotencyKey → Topped s
  | .call _ _ | .reopen => True

/-- Ids are given out from 1 on without a gap, and the rows have such ids. -/
structure Numbered (s : File) : Prop where
  rows : ∀ r ∈ s.events.rows, r.id ∈ s.issued
  positive : ∀ id ∈ s.issued, 0 < id
  below : ∀ id ∈ s.issued, ∀ n, 0 < n → n ≤ id → n ∈ s.issued

/-! ## One step -/

section

variable {s : File} {plan : Plan} {op : StoreOp}

/-- A call that is no insert gives out no id. -/
theorem issuedBy_of_not_insert (other : ∀ e, op ≠ .insert e) (result : op.Result) :
    issuedBy op result = none := by
  cases op with
  | insert e => exact absurd rfl (other e)
  | _ => rfl

/-- The rows a call that is no insert leaves are rows of before. -/
theorem row_of_apply (other : ∀ e, op ≠ .insert e) {r : EventRow}
    (member : r ∈ (apply plan s.events op).2.rows) : ∃ r' ∈ s.events.rows, r'.id = r.id := by
  have moves := record?_apply plan s.events op r.id
  have after : record? (apply plan s.events op).2 r.id = some (toRecord r) := by
    unfold record?
    rw [Table.row?_of_mem member, Option.map_some]
  rw [after] at moves
  cases before : s.events.row? r.id with
  | none =>
    have absent : record? s.events r.id = none := by
      unfold record?
      rw [before, Option.map_none]
    rw [absent] at moves
    obtain ⟨e, insert⟩ := moves.insert_of_new
    exact absurd insert (other e)
  | some r' =>
    obtain ⟨there, same⟩ := Table.row?_mem before
    exact ⟨r', there, same⟩

/-- The next id was given out before exactly where a larger one was. -/
theorem Numbered.next_issued (numbered : Numbered s) : s.events.nextRowid ∈ s.issued ↔ ¬ Topped s := by
  constructor
  · intro issued topped
    obtain ⟨r, member, above⟩ := topped _ issued
    have below := s.events.lt_nextRowid member
    omega
  · intro untopped
    unfold Topped at untopped
    push Not at untopped
    obtain ⟨id, issued, above⟩ := untopped
    refine numbered.below id issued _ s.events.nextRowid_pos ?_
    by_contra next
    obtain ⟨r, member, atLeast⟩ :=
      s.events.exists_of_lt_nextRowid (numbered.positive id issued) (by omega)
    have less := above r member
    omega

/-- The state an insert of a new key leaves. -/
theorem step_insert (plan : Plan) {e : NewEvent}
    (fresh : e.idempotencyKey ∉ s.events.rows.map EventRow.idempotencyKey) :
    (file.step s (.call plan (.insert e))).issued = s.events.nextRowid :: s.issued ∧
      (file.step s (.call plan (.insert e))).events.rows =
        s.events.rows ++ [.inserted (insertRow e) s.events.nextRowid] := by
  show (issuedBy (.insert e) (insert s.events e).1).toList ++ s.issued = _ ∧
    (insert s.events e).2.rows = _
  rcases insert_cases s.events e with ⟨known, -⟩ | ⟨absent, added⟩
  · exact absurd known fresh
  · rw [added]
    exact ⟨rfl, rfl⟩

/-- An insert of a key that is there leaves the file as it is. -/
theorem step_duplicate {e : NewEvent}
    (known : e.idempotencyKey ∈ s.events.rows.map EventRow.idempotencyKey) :
    file.step s (.call plan (.insert e)) = s := by
  rcases insert_cases s.events e with ⟨-, same⟩ | ⟨fresh, -⟩
  · show File.mk (insert s.events e).2 ((issuedBy (.insert e) (insert s.events e).1).toList ++ s.issued) = s
    rw [same]
    rfl
  · exact absurd known fresh

/-- A call that is no insert gives out nothing. -/
theorem issued_step (s : File) (plan : Plan) (other : ∀ e, op ≠ .insert e) :
    (file.step s (.call plan op)).issued = s.issued := by
  show (issuedBy op (apply plan s.events op).1).toList ++ s.issued = s.issued
  rw [issuedBy_of_not_insert other]
  rfl

theorem Numbered.step (numbered : Numbered s) (a : FileAction) : Numbered (file.step s a) := by
  rcases a with ⟨plan, op⟩ | -
  · by_cases inserts : ∃ e, op = .insert e
    · obtain ⟨e, rfl⟩ := inserts
      by_cases known : e.idempotencyKey ∈ s.events.rows.map EventRow.idempotencyKey
      · rw [step_duplicate known]
        exact numbered
      · obtain ⟨issued, rows⟩ := step_insert plan known
        constructor
        · intro r member
          rw [rows] at member
          rw [issued]
          rcases List.mem_append.mp member with old | new
          · exact List.mem_cons_of_mem _ (numbered.rows r old)
          · rw [List.mem_singleton.mp new]
            exact List.mem_cons_self
        · rw [issued]
          exact List.forall_mem_cons.mpr ⟨s.events.nextRowid_pos, numbered.positive⟩
        · intro id member n positive atMost
          rw [issued] at member ⊢
          rcases List.mem_cons.mp member with rfl | old
          · by_cases same : n = s.events.nextRowid
            · rw [same]
              exact List.mem_cons_self
            · obtain ⟨r, there, above⟩ := s.events.exists_of_lt_nextRowid positive (by omega)
              exact List.mem_cons_of_mem _ (numbered.below _ (numbered.rows r there) n positive above)
          · exact List.mem_cons_of_mem _ (numbered.below id old n positive atMost)
    · have other : ∀ e, op ≠ .insert e := fun e same => inserts ⟨e, same⟩
      have issued := issued_step s plan other
      constructor
      · intro r member
        obtain ⟨r', there, same⟩ := row_of_apply other member
        rw [issued, ← same]
        exact numbered.rows r' there
      · rw [issued]
        exact numbered.positive
      · rw [issued]
        exact numbered.below
  · exact numbered

/-- A step keeps the ids apart exactly where it inserts on top. -/
theorem Numbered.nodup_step (numbered : Numbered s) (a : FileAction) :
    (file.step s a).issued.Nodup ↔ s.issued.Nodup ∧ InsertsOnTop s a := by
  rcases a with ⟨plan, op⟩ | -
  · by_cases inserts : ∃ e, op = .insert e
    · obtain ⟨e, rfl⟩ := inserts
      show _ ↔ s.issued.Nodup ∧
        (e.idempotencyKey ∉ s.events.rows.map EventRow.idempotencyKey → Topped s)
      by_cases known : e.idempotencyKey ∈ s.events.rows.map EventRow.idempotencyKey
      · rw [step_duplicate known]
        exact (and_iff_left (absurd known)).symm
      · rw [(step_insert plan known).1, List.nodup_cons, numbered.next_issued, not_not, and_comm]
        exact and_congr_right fun _ => (imp_iff_right known).symm
    · have other : ∀ e, op ≠ .insert e := fun e same => inserts ⟨e, same⟩
      have free : InsertsOnTop s (.call plan op) := by
        cases op with
        | insert e => exact absurd rfl (other e)
        | _ => trivial
      rw [issued_step s plan other]
      exact (and_iff_left free).symm
  · exact (and_iff_left trivial).symm

end

/-! ## Every run -/

theorem numbered_run (actions : List FileAction) : Numbered (file.run actions) := by
  refine file.invariant Numbered ⟨?_, ?_, ?_⟩ (fun s a numbered => numbered.step a) actions
  · intro r member
    cases member
  · intro id member
    cases member
  · intro id member
    cases member

/-- No id is given out twice in exactly the runs that add a row only while the
row of the largest id given out is in the table. -/
theorem ids_stay_apart (actions : List FileAction) :
    (file.run actions).issued.Nodup ↔ file.Guarded InsertsOnTop actions := by
  induction actions using List.reverseRecOn with
  | nil => exact iff_of_true List.nodup_nil trivial
  | append_singleton actions a ih =>
    rw [Machine.run_concat, Machine.guarded_concat, (numbered_run actions).nodup_step, ih]

/-- Retention deletes the only row, and the next event gets its id. -/
theorem id_given_out_again : ¬ (file.run
    [.call byId (.insert (storedEvent "a" 0)),
      .call byId (.claimDue "r1" 1 50 ⟨"d1", 2⟩),
      .call byId (.markDelivered [1] 1 none),
      .call byId (.pruneBatch (91 * MemoryStore.dayMs) 14 90 500),
      .call byId (.pruneBatch (91 * MemoryStore.dayMs) 14 90 500),
      .call byId (.insert (storedEvent "b" (91 * MemoryStore.dayMs)))]).issued.Nodup := by
  decide

end SqliteStore

end EndCloseRelay
