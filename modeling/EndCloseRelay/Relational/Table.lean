import Mathlib.Data.List.Nodup
import Mathlib.Data.List.Pairwise

/-!
# Tables with a row id

A table is its rows in the order of their ids, under a column without
duplicates.  Conditions over columns that may be `NULL` have three truth values,
and a statement takes the rows its condition is true of.
-/

namespace Relational

/-! ## Truth values -/

/-- The value of a condition; `none` is unknown. -/
abbrev Truth := Option Bool

namespace Truth

variable {α β : Type}

/-- A row is taken where the condition is true, not where it is unknown. -/
def holds (t : Truth) : Bool := t == some true

/-- `OR`. -/
def or : Truth → Truth → Truth
  | some true, _ => some true
  | _, some true => some true
  | some false, some false => some false
  | _, _ => none

/-- `AND`. -/
def and : Truth → Truth → Truth
  | some false, _ => some false
  | _, some false => some false
  | some true, some true => some true
  | _, _ => none

/-- `IS NULL`. -/
def isNull (a : Option α) : Truth := some a.isNone

/-- A comparison, unknown where a side is `NULL`. -/
def compare (p : α → β → Bool) (a : Option α) (b : Option β) : Truth :=
  a.bind fun a => b.map fun b => p a b

@[simp] theorem holds_some (b : Bool) : holds (some b) = b := by cases b <;> rfl

@[simp] theorem holds_or (t u : Truth) : (or t u).holds = (t.holds || u.holds) := by
  rcases t with _ | _ | _ <;> rcases u with _ | _ | _ <;> rfl

@[simp] theorem holds_and (t u : Truth) : (and t u).holds = (t.holds && u.holds) := by
  rcases t with _ | _ | _ <;> rcases u with _ | _ | _ <;> rfl

@[simp] theorem holds_isNull (a : Option α) : (isNull a).holds = a.isNone := holds_some _

@[simp] theorem holds_compare_some (p : α → β → Bool) (a : Option α) (b : β) :
    (compare p a (some b)).holds = a.any (p · b) := by
  cases a with
  | none => rfl
  | some a => exact holds_some _

@[simp] theorem holds_compare_none (p : α → β → Bool) (a : Option α) :
    (compare p a none).holds = false := by
  cases a <;> rfl

end Truth

/-! ## Tables -/

/-- Rows with an `INTEGER PRIMARY KEY`, in its order, and a `UNIQUE` column. -/
structure Table (ρ κ : Type) (id : ρ → Nat) (key : ρ → κ) where
  rows : List ρ
  sorted : rows.Pairwise fun r r' => id r < id r'
  unique : (rows.map key).Nodup

namespace Table

variable {ρ κ : Type} {id : ρ → Nat} {key : ρ → κ} (t : Table ρ κ id key)

/-- A table without rows. -/
def empty : Table ρ κ id key where
  rows := []
  sorted := List.Pairwise.nil
  unique := List.nodup_nil

/-- The row of an id. -/
def row? (n : Nat) : Option ρ := t.rows.find? fun r => id r == n

/-- The id the next row gets: one more than the largest there is, or 1. -/
def nextRowid : Nat := (t.rows.getLast?.map id).elim 1 (· + 1)

theorem le_last {r last : ρ} (ends : t.rows.getLast? = some last) (member : r ∈ t.rows) :
    id r ≤ id last := by
  obtain ⟨front, split⟩ := List.getLast?_eq_some_iff.mp ends
  have sorted := t.sorted
  rw [split] at member sorted
  rcases List.mem_append.mp member with before | same
  · exact Nat.le_of_lt ((List.pairwise_append.mp sorted).2.2 r before last (List.mem_singleton.mpr rfl))
  · exact Nat.le_of_eq (congrArg id (List.mem_singleton.mp same))

theorem lt_nextRowid {r : ρ} (member : r ∈ t.rows) : id r < t.nextRowid := by
  unfold nextRowid
  cases ends : t.rows.getLast? with
  | none =>
    rw [List.getLast?_eq_none_iff.mp ends] at member
    cases member
  | some last => exact Nat.lt_succ_of_le (t.le_last ends member)

theorem nextRowid_pos : 0 < t.nextRowid := by
  unfold nextRowid
  cases t.rows.getLast? with
  | none => exact Nat.one_pos
  | some last => exact Nat.succ_pos _

/-- Below the next id, a row has an id as large. -/
theorem exists_of_lt_nextRowid {n : Nat} (positive : 0 < n) (below : n < t.nextRowid) :
    ∃ r ∈ t.rows, n ≤ id r := by
  unfold nextRowid at below
  cases ends : t.rows.getLast? with
  | none =>
    rw [ends, Option.map_none, Option.elim_none] at below
    omega
  | some last =>
    rw [ends, Option.map_some, Option.elim_some] at below
    exact ⟨last, List.mem_of_getLast? ends, by omega⟩

/-- `INSERT` of a row under the next id. -/
def insert (row : ρ) (new : id row = t.nextRowid) (fresh : key row ∉ t.rows.map key) :
    Table ρ κ id key where
  rows := t.rows ++ [row]
  sorted := by
    refine List.pairwise_append.mpr ⟨t.sorted, List.pairwise_singleton _ _, ?_⟩
    intro r member r' last
    rw [List.mem_singleton.mp last, new]
    exact t.lt_nextRowid member
  unique := by
    rw [List.map_append, List.nodup_append]
    refine ⟨t.unique, List.nodup_singleton _, ?_⟩
    intro k member k' last same
    rw [List.map_singleton, List.mem_singleton] at last
    exact fresh (last ▸ same ▸ member)

/-- `UPDATE … SET … WHERE …`. -/
def update (p : ρ → Truth) (set : ρ → ρ) (ids : ∀ r, id (set r) = id r)
    (keys : ∀ r, key (set r) = key r) : Table ρ κ id key where
  rows := t.rows.map fun r => if (p r).holds then set r else r
  sorted := by
    refine List.pairwise_map.mpr (t.sorted.imp ?_)
    intro r r' less
    have same : ∀ r, id (if (p r).holds then set r else r) = id r := by
      intro r
      split
      · exact ids r
      · rfl
    rw [same, same]
    exact less
  unique := by
    have same : (key ∘ fun r => if (p r).holds then set r else r) = key := by
      funext r
      show key (if (p r).holds then set r else r) = key r
      split
      · exact keys r
      · rfl
    rw [List.map_map, same]
    exact t.unique

/-- `DELETE … WHERE …`. -/
def delete (p : ρ → Truth) : Table ρ κ id key where
  rows := t.rows.filter fun r => !(p r).holds
  sorted := t.sorted.filter _
  unique := t.unique.sublist (List.filter_sublist.map _)

/-- `SELECT * … WHERE …`, in the order of ids. -/
def select (p : ρ → Truth) : List ρ := t.rows.filter fun r => (p r).holds

/-- How many rows a condition is true of. -/
def count (p : ρ → Truth) : Nat := t.rows.countP fun r => (p r).holds

/-! ## The row of an id -/

variable {t}

theorem ids_nodup : (t.rows.map id).Nodup :=
  List.nodup_iff_pairwise_ne.mpr (List.pairwise_map.mpr (t.sorted.imp fun less => Nat.ne_of_lt less))

theorem row?_mem {n : Nat} {r : ρ} (found : t.row? n = some r) : r ∈ t.rows ∧ id r = n := by
  have same : (id r == n) = true := List.find?_some (p := fun r => id r == n) found
  exact ⟨List.mem_of_find?_eq_some found, beq_iff_eq.mp same⟩

theorem row?_of_mem {r : ρ} (member : r ∈ t.rows) : t.row? (id r) = some r := by
  unfold row?
  cases found : t.rows.find? fun r' => id r' == id r with
  | none => exact absurd (beq_self_eq_true _) (List.find?_eq_none.mp found r member)
  | some r' =>
    have same : id r' = id r := (row?_mem (t := t) found).2
    exact congrArg some (List.inj_on_of_nodup_map ids_nodup (List.mem_of_find?_eq_some found) member same)

theorem row?_update (p : ρ → Truth) (set : ρ → ρ) (ids : ∀ r, id (set r) = id r)
    (keys : ∀ r, key (set r) = key r) (n : Nat) :
    (t.update p set ids keys).row? n =
      (t.row? n).map fun r => if (p r).holds then set r else r := by
  have same : ∀ r, id (if (p r).holds then set r else r) = id r := by
    intro r
    split
    · exact ids r
    · rfl
  unfold row? update
  simp only [List.find?_map, Function.comp_def, same]

theorem row?_delete (p : ρ → Truth) (n : Nat) :
    (t.delete p).row? n = (t.row? n).filter fun r => !(p r).holds := by
  cases found : t.row? n with
  | none =>
    refine List.find?_eq_none.mpr fun r member => ?_
    exact List.find?_eq_none.mp found r (List.mem_filter.mp member).1
  | some r =>
    obtain ⟨member, rfl⟩ := row?_mem found
    rw [Option.filter_some]
    by_cases gone : (p r).holds
    · rw [if_neg (by simp [gone])]
      refine List.find?_eq_none.mpr fun r' kept same => ?_
      obtain ⟨there, stays⟩ := List.mem_filter.mp kept
      have r'_eq := List.inj_on_of_nodup_map ids_nodup there member (beq_iff_eq.mp same)
      rw [r'_eq, gone] at stays
      cases stays
    · rw [if_pos (by simp [gone])]
      exact row?_of_mem (t := t.delete p) (List.mem_filter.mpr ⟨member, by simp [gone]⟩)

theorem row?_insert {row : ρ} (new : id row = t.nextRowid) (fresh : key row ∉ t.rows.map key) (n : Nat) :
    (t.insert row new fresh).row? n = if n = t.nextRowid then some row else t.row? n := by
  by_cases next : n = t.nextRowid
  · rw [if_pos next, next, ← new]
    exact row?_of_mem (t := t.insert row new fresh) (List.mem_append_right _ (List.mem_singleton.mpr rfl))
  · rw [if_neg next]
    show (t.rows ++ [row]).find? _ = t.rows.find? _
    rw [List.find?_append, List.find?_singleton, new, if_neg (by simpa using Ne.symm next), Option.or_none]

theorem mem_select {p : ρ → Truth} {r : ρ} : r ∈ t.select p ↔ r ∈ t.rows ∧ (p r).holds :=
  List.mem_filter

end Table

end Relational
