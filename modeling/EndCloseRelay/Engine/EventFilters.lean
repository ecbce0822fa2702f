import EndCloseRelay.Engine.Ingest
import EndCloseRelay.Js.RegExp
import EndCloseRelay.Scanning.Globs

/-!
# Event filters

`eventTypeMatches` of `engine/ingest.ts` turns a pattern with a star into a
regular expression.  `test_globSource` reads the source it builds back, whatever
characters the pattern has, and `eventTypeMatches_iff` says what the filter
accepts: a star stands for any run without a line terminator.
-/

namespace EndCloseRelay

open Js Scanning

namespace Ingest

/-! ## What a pattern stands for -/

/-- A pattern as a glob. -/
def globOf (pattern : List Char) : Glob Char := pattern.map fun c => if c = '*' then none else some c

/-- The event type is what the pattern becomes when each star is replaced by some
text. -/
def Covers (pattern eventType : String) : Prop :=
  Glob.Covers (fun _ => True) (globOf pattern.toList) eventType.toList

/-- How many line terminators a text has. -/
def lineTerminators (text : String) : Nat := text.toList.countP isLineTerminator

theorem globMatches_plain {c : Char} (plain : c ≠ '*') (pattern text : List Char) :
    globMatches (c :: pattern) text =
      match text with
      | [] => false
      | d :: text => c == d && globMatches pattern text := by
  rw [globMatches.eq_def]
  split
  · rename_i h
    cases h
  · rename_i h
    exact absurd (List.cons.inj h).1 plain
  · rename_i h
    obtain ⟨rfl, rfl⟩ := List.cons.inj h
    rfl

section

variable {ok : Char → Prop} {pattern text : List Char}

theorem globOf_star (pattern : List Char) : globOf ('*' :: pattern) = none :: globOf pattern := rfl

theorem globOf_plain {c : Char} (plain : c ≠ '*') (pattern : List Char) :
    globOf (c :: pattern) = some c :: globOf pattern := by
  rw [globOf, List.map_cons, if_neg plain]
  rfl

/-- A pattern without a star stands for itself. -/
theorem covers_of_plain (plain : '*' ∉ pattern) : Glob.Covers ok (globOf pattern) text ↔ pattern = text := by
  induction pattern generalizing text with
  | nil => exact Glob.covers_nil_iff.trans eq_comm
  | cons c pattern ih =>
    obtain ⟨here, there⟩ := not_or.mp (mt List.mem_cons.mpr plain)
    rw [globOf_plain (Ne.symm here), Glob.covers_literal_iff]
    constructor
    · rintro ⟨rest, rfl, covers⟩
      rw [(ih there).mp covers]
    · rintro rfl
      exact ⟨pattern, rfl, (ih there).mpr rfl⟩

theorem starMatches_iff {matches_ : List Char → Bool} {glob : Glob Char}
    (each : ∀ text, matches_ text ↔ Glob.Covers (fun c => isLineTerminator c = false) glob text) :
    starMatches matches_ text ↔
      Glob.Covers (fun c => isLineTerminator c = false) (none :: glob) text := by
  induction text with
  | nil =>
    rw [Glob.covers_star_iff, starMatches, each]
    constructor
    · exact .inl
    · rintro (covers | ⟨a, rest, shape, -⟩)
      · exact covers
      · cases shape
  | cons c text ih =>
    rw [Glob.covers_star_iff, starMatches, Bool.or_eq_true, Bool.and_eq_true, Bool.not_eq_true', each, ih]
    constructor
    · rintro (covers | ⟨fits, covers⟩)
      · exact .inl covers
      · exact .inr ⟨c, text, rfl, fits, covers⟩
    · rintro (covers | ⟨a, rest, shape, fits, covers⟩)
      · exact .inl covers
      · obtain ⟨rfl, rfl⟩ := List.cons.inj shape
        exact .inr ⟨fits, covers⟩

/-- The matcher finds the runs that have no line terminator. -/
theorem globMatches_iff : globMatches pattern text ↔
    Glob.Covers (fun c => isLineTerminator c = false) (globOf pattern) text := by
  induction pattern generalizing text with
  | nil =>
    rw [globMatches, List.isEmpty_iff]
    exact Glob.covers_nil_iff.symm
  | cons c pattern ih =>
    by_cases star : c = '*'
    · subst star
      exact starMatches_iff fun _ => ih
    · rw [globOf_plain star, Glob.covers_literal_iff, globMatches_plain star]
      cases text with
      | nil => simp
      | cons d text =>
        simp only [Bool.and_eq_true, beq_iff_eq, ih]
        constructor
        · rintro ⟨rfl, covers⟩
          exact ⟨text, rfl, covers⟩
        · rintro ⟨rest, shape, covers⟩
          obtain ⟨rfl, rfl⟩ := List.cons.inj shape
          exact ⟨rfl, covers⟩

theorem countP_literals (pattern : List Char) :
    (Glob.literals (globOf pattern)).countP isLineTerminator = pattern.countP isLineTerminator := by
  induction pattern with
  | nil => rfl
  | cons c pattern ih =>
    by_cases star : c = '*'
    · subst star
      rw [globOf_star, Glob.literals_star, ih]
      rfl
    · rw [globOf_plain star, Glob.literals_literal, List.countP_cons, List.countP_cons, ih]

end

/-! ## The expression of a pattern -/

/-- The source built for a pattern: `^`, the escaped pieces joined by `.*`, `$`. -/
def globSource (pattern : String) : String :=
  "^" ++ join ".*" ((split pattern '*').map escapeRe) ++ "$"

/-- The tokens of pieces joined by `.*`. -/
def pieceTokens : List (List Char) → List RegExp.Token
  | [] => []
  | [piece] => piece.map .literal
  | piece :: pieces => piece.map .literal ++ [.operator '.', .operator '*'] ++ pieceTokens pieces

/-- The tokens one character of a pattern comes to. -/
def charTokens (c : Char) : List RegExp.Token :=
  if c = '*' then [.operator '.', .operator '*'] else [.literal c]

/-- The term one character of a pattern comes to. -/
def charTerm (c : Char) : RegExp.Term :=
  if c = '*' then { atom := .any, starred := true } else { atom := .char c }

theorem lex_join (pieces : List (List Char)) (source : List Char) :
    RegExp.lex ((join ".*" ((pieces.map String.ofList).map escapeRe)).toList ++ source) =
      (RegExp.lex source).map (pieceTokens pieces ++ ·) := by
  induction pieces with
  | nil => exact Option.map_id'.symm
  | cons piece pieces ih =>
    cases pieces with
    | nil =>
      have read := RegExp.lex_escapeRe (String.ofList piece) source
      rw [String.toList_ofList] at read
      exact read
    | cons next pieces =>
      have read := RegExp.lex_escapeRe (String.ofList piece)
        ('.' :: '*' :: ((join ".*" (((next :: pieces).map String.ofList).map escapeRe)).toList ++ source))
      have operators : RegExp.lex ('.' :: '*' ::
          ((join ".*" (((next :: pieces).map String.ofList).map escapeRe)).toList ++ source)) =
          (RegExp.lex source).map fun tokens =>
            .operator '.' :: .operator '*' :: (pieceTokens (next :: pieces) ++ tokens) := by
        rw [RegExp.lex_operator (by decide) (by decide), RegExp.lex_operator (by decide) (by decide),
          ih, Option.map_map, Option.map_map]
        rfl
      rw [operators, String.toList_ofList, Option.map_map] at read
      have shape : (join ".*" (((piece :: next :: pieces).map String.ofList).map escapeRe)).toList ++
          source = (escapeRe (String.ofList piece)).toList ++ ('.' :: '*' ::
            ((join ".*" (((next :: pieces).map String.ofList).map escapeRe)).toList ++ source)) := by
        show (escapeRe (String.ofList piece) ++ ".*" ++ join ".*" _).toList ++ source = _
        rw [String.toList_append, String.toList_append, List.append_assoc, List.append_assoc]
        rfl
      rw [shape, read]
      refine congrArg (Option.map · _) (funext fun tokens => ?_)
      simp only [Function.comp_apply, pieceTokens, List.append_assoc, List.cons_append, List.nil_append]

/-- Splitting at the stars and joining by `.*` puts `.*` for each star. -/
theorem pieceTokens_splitOn (text : List Char) :
    pieceTokens (text.splitOn '*') = text.flatMap charTokens := by
  induction text with
  | nil => rfl
  | cons c text ih =>
    obtain ⟨head, rest, pieces⟩ := List.exists_cons_of_ne_nil (List.splitOn_ne_nil '*' text)
    rw [List.splitOn_cons_eq_if_modifyHead, List.flatMap_cons, ← ih, pieces, charTokens]
    by_cases star : c = '*'
    · rw [if_pos (beq_iff_eq.mpr star), if_pos star]
      rfl
    · rw [if_neg (fun same => star (beq_iff_eq.mp same)), if_neg star]
      cases rest <;> rfl

theorem lex_globSource (pattern : String) : RegExp.lex (globSource pattern).toList =
    some (.operator '^' :: (pattern.toList.flatMap charTokens ++ [.operator '$'])) := by
  have text : (globSource pattern).toList =
      '^' :: ((join ".*" (((pattern.toList.splitOn '*').map String.ofList).map escapeRe)).toList ++
        ['$']) := by
    unfold globSource split
    rw [String.toList_append, String.toList_append]
    rfl
  rw [text, RegExp.lex_operator (by decide) (by decide), lex_join, pieceTokens_splitOn]
  rfl

theorem terms_charTokens (text : List Char) :
    RegExp.terms (text.flatMap charTokens ++ [.operator '$']) = some (text.map charTerm) := by
  induction text with
  | nil => rfl
  | cons c text ih =>
    rw [List.flatMap_cons, List.map_cons, charTokens, charTerm]
    by_cases star : c = '*'
    · rw [if_pos star, if_pos star]
      exact (RegExp.terms_any _).trans (congrArg (Option.map _) ih)
    · rw [if_neg star, if_neg star, List.append_assoc, List.singleton_append, RegExp.terms_literal, ih]
      · rfl
      · cases text with
        | nil => decide
        | cons d text =>
          rw [List.flatMap_cons, charTokens]
          split <;> simp

/-- The terms of a pattern match what the pattern matches. -/
theorem matchTerms_charTerm (pattern text : List Char) :
    RegExp.matchTerms (pattern.map charTerm) text = globMatches pattern text := by
  induction pattern generalizing text with
  | nil => rfl
  | cons c pattern ih =>
    rw [List.map_cons, charTerm]
    by_cases star : c = '*'
    · subst star
      rw [if_pos rfl]
      show RegExp.repeats _ _ text = starMatches (globMatches pattern) text
      induction text with
      | nil => exact ih []
      | cons d text more => rw [RegExp.repeats, starMatches, more, ih]; rfl
    · rw [if_neg star, globMatches_plain star]
      cases text with
      | nil => rfl
      | cons d text =>
        show (c == d && RegExp.matchTerms (pattern.map charTerm) text) = _
        rw [ih]

/-- The expression built for a pattern matches what the pattern matches. -/
theorem test_globSource (pattern text : String) :
    RegExp.test (globSource pattern) text = some (globMatches pattern.toList text.toList) := by
  unfold RegExp.test RegExp.parse
  rw [lex_globSource, Option.bind_some]
  show (RegExp.terms _).map _ = _
  rw [terms_charTokens, Option.map_some, matchTerms_charTerm]

/-! ## What the filter accepts -/

/-- The filter accepts what some pattern covers with runs that have no line terminator. -/
theorem eventTypeMatches_iff {patterns : List String} (some_ : patterns ≠ []) (eventType : String) :
    eventTypeMatches patterns (some eventType) ↔ ∃ pattern ∈ patterns,
      Glob.Covers (fun c => isLineTerminator c = false) (globOf pattern.toList) eventType.toList := by
  have tested : ∀ pattern : String,
      (if '*' ∈ pattern.toList then globMatches pattern.toList eventType.toList
        else pattern == eventType) = true ↔
      Glob.Covers (fun c => isLineTerminator c = false) (globOf pattern.toList) eventType.toList := by
    intro pattern
    split
    · exact globMatches_iff
    · rename_i plain
      rw [covers_of_plain plain, beq_iff_eq, String.toList_inj]
  unfold eventTypeMatches
  rw [if_neg (by rwa [List.isEmpty_iff]), List.any_eq_true]
  simp only [tested]

/-- A pattern covers an event type with runs that have no line terminator exactly
when it writes out all that the event type has. -/
theorem covers_iff_lineTerminators (pattern eventType : String) :
    Glob.Covers (fun c => isLineTerminator c = false) (globOf pattern.toList) eventType.toList ↔
      Covers pattern eventType ∧ lineTerminators pattern = lineTerminators eventType := by
  rw [Glob.covers_iff_countP, countP_literals]
  rfl

/-- The filter accepts an event type exactly when some pattern covers it, if and
only if no pattern covers the event type or one of those that do has as many line
terminators as it. -/
theorem filter_means_globs_iff {patterns : List String} (some_ : patterns ≠ []) (eventType : String) :
    (eventTypeMatches patterns (some eventType) = true ↔
      ∃ pattern ∈ patterns, Covers pattern eventType) ↔
    ((∀ pattern ∈ patterns, ¬ Covers pattern eventType) ∨ ∃ pattern ∈ patterns,
      Covers pattern eventType ∧ lineTerminators pattern = lineTerminators eventType) := by
  rw [eventTypeMatches_iff some_]
  simp only [covers_iff_lineTerminators]
  constructor
  · intro same
    by_cases covered : ∃ pattern ∈ patterns, Covers pattern eventType
    · exact .inr (same.mpr covered)
    · exact .inl fun pattern member covers => covered ⟨pattern, member, covers⟩
  · rintro (none_ | found)
    · constructor
      · rintro ⟨pattern, member, covers, -⟩
        exact ⟨pattern, member, covers⟩
      · rintro ⟨pattern, member, covers⟩
        exact absurd covers (none_ pattern member)
    · refine ⟨?_, fun _ => found⟩
      rintro ⟨pattern, member, covers, -⟩
      exact ⟨pattern, member, covers⟩

theorem filter_means_globs_iff_transfer :
    (eventTypeMatches ["Transfer*"] (some "TransferFunded") = true ↔
      ∃ pattern ∈ ["Transfer*"], Covers pattern "TransferFunded") ↔
    ((∀ pattern ∈ ["Transfer*"], ¬ Covers pattern "TransferFunded") ∨ ∃ pattern ∈ ["Transfer*"],
      Covers pattern "TransferFunded" ∧
        lineTerminators pattern = lineTerminators "TransferFunded") :=
  filter_means_globs_iff (by decide) "TransferFunded"

/-- An event type inside the glob that the filter drops. -/
theorem line_break_dropped : Covers "Transfer*" "Transfer\nFunded" ∧
    eventTypeMatches ["Transfer*"] (some "Transfer\nFunded") = false := by
  have rest : Glob.Covers (fun _ : Char => True) [none] ("\nFunded".toList ++ []) :=
    .star (fun _ _ => trivial) .nil
  exact ⟨.literal (.literal (.literal (.literal (.literal (.literal (.literal (.literal rest))))))),
    by decide⟩

end Ingest

end EndCloseRelay
