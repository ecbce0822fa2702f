import Mathlib.Data.List.Basic

/-!
# Glob patterns

A glob is a list of literal characters and stars, a star standing for any run of
characters.  `Covers ok` restricts the characters a star may stand for, and
`covers_iff_countP` says what the restriction costs: the characters it forbids
are all written out in the pattern.
-/

namespace Scanning

variable {α : Type}

/-- A pattern: `some a` stands for `a`, and `none` for any run. -/
abbrev Glob (α : Type) := List (Option α)

namespace Glob

/-- The text is what the pattern becomes when each star is replaced by a run of
characters that are `ok`. -/
inductive Covers (ok : α → Prop) : Glob α → List α → Prop
  | nil : Covers ok [] []
  | literal {a : α} {pattern : Glob α} {text : List α} (rest : Covers ok pattern text) :
      Covers ok (some a :: pattern) (a :: text)
  | star {run : List α} {pattern : Glob α} {text : List α} (fits : ∀ a ∈ run, ok a)
      (rest : Covers ok pattern text) : Covers ok (none :: pattern) (run ++ text)

/-- The literal characters of a pattern. -/
def literals (pattern : Glob α) : List α := pattern.filterMap id

@[simp] theorem literals_literal (a : α) (pattern : Glob α) :
    literals (some a :: pattern) = a :: literals pattern := rfl

@[simp] theorem literals_star (pattern : Glob α) : literals (none :: pattern) = literals pattern := rfl

variable {ok ok' : α → Prop} {pattern : Glob α} {text : List α}

theorem Covers.mono (weaker : ∀ a, ok a → ok' a) (covers : Covers ok pattern text) :
    Covers ok' pattern text := by
  induction covers with
  | nil => exact .nil
  | literal _ ih => exact .literal ih
  | star fits _ ih => exact .star (fun a member => weaker a (fits a member)) ih

theorem covers_nil_iff : Covers ok [] text ↔ text = [] := by
  constructor
  · intro covers
    cases covers
    rfl
  · rintro rfl
    exact .nil

theorem covers_literal_iff {a : α} :
    Covers ok (some a :: pattern) text ↔ ∃ rest, text = a :: rest ∧ Covers ok pattern rest := by
  constructor
  · intro covers
    cases covers with
    | literal rest => exact ⟨_, rfl, rest⟩
  · rintro ⟨rest, rfl, covers⟩
    exact .literal covers

/-- A star in front of a text stands for nothing, or for one character more. -/
theorem covers_star_iff : Covers ok (none :: pattern) text ↔
    Covers ok pattern text ∨ ∃ a rest, text = a :: rest ∧ ok a ∧ Covers ok (none :: pattern) rest := by
  constructor
  · intro covers
    cases covers with
    | @star run _ text fits rest =>
      cases run with
      | nil => exact .inl rest
      | cons a run =>
        have later : Covers ok (none :: pattern) (run ++ text) :=
          .star (fun b member => fits b (List.mem_cons_of_mem a member)) rest
        exact .inr ⟨a, run ++ text, rfl, fits a List.mem_cons_self, later⟩
  · rintro (covers | ⟨a, rest, rfl, fits, covers⟩)
    · exact @Covers.star _ _ [] _ _ (fun a member => absurd member List.not_mem_nil) covers
    · cases covers with
      | @star run _ text others covers =>
        refine @Covers.star _ _ (a :: run) _ _ (fun b member => ?_) covers
        rcases List.mem_cons.mp member with rfl | member
        · exact fits
        · exact others b member

/-- The forbidden characters of a text are at least those the pattern writes out. -/
theorem Covers.countP_le {bad : α → Bool} (covers : Covers ok pattern text) :
    (literals pattern).countP bad ≤ text.countP bad := by
  induction covers with
  | nil => exact Nat.le_refl _
  | literal _ ih =>
    rw [literals_literal, List.countP_cons, List.countP_cons]
    omega
  | star _ _ ih =>
    rw [literals_star, List.countP_append]
    omega

/-- Stars can do without some characters exactly when the pattern writes out all
that the text has of them. -/
theorem covers_iff_countP {bad : α → Bool} :
    Covers (fun a => bad a = false) pattern text ↔
      Covers (fun _ => True) pattern text ∧ (literals pattern).countP bad = text.countP bad := by
  constructor
  · intro covers
    refine ⟨covers.mono fun _ _ => trivial, ?_⟩
    induction covers with
    | nil => rfl
    | literal _ ih => rw [literals_literal, List.countP_cons, List.countP_cons, ih]
    | @star run _ _ fits _ ih =>
      have none_ : run.countP bad = 0 := by
        rw [List.countP_eq_zero]
        intro a member isBad
        rw [fits a member] at isBad
        cases isBad
      rw [literals_star, List.countP_append, none_, Nat.zero_add, ih]
  · rintro ⟨covers, same⟩
    induction covers with
    | nil => exact .nil
    | literal rest ih =>
      rw [literals_literal, List.countP_cons, List.countP_cons] at same
      exact .literal (ih (by omega))
    | @star run pattern text _ rest ih =>
      have fewer : (literals pattern).countP bad ≤ text.countP bad := rest.countP_le
      rw [literals_star, List.countP_append] at same
      have none_ : run.countP bad = 0 := by omega
      rw [List.countP_eq_zero] at none_
      exact .star (fun a member => Bool.eq_false_iff.mpr (none_ a member)) (ih (by omega))

end Glob

end Scanning
