import EndCloseRelay.Js.Text

/-!
# Regular expressions built at run time

`new RegExp(source).test(text)` for sources that are anchored at both ends and
made of characters, `.` and `*`, without flags.  A source outside of that is not
read.
-/

namespace EndCloseRelay.Js

/-- The `SyntaxCharacter`s: what stands for itself only behind a backslash. -/
def syntaxCharacters : List Char :=
  ['^', '$', '\\', '.', '*', '+', '?', '(', ')', '[', ']', '\x7b', '\x7d', '|']

namespace RegExp

/-- A piece of a source: a character that stands for itself, or an operator. -/
inductive Token
  | literal (c : Char)
  | operator (c : Char)
deriving DecidableEq

/-- The pieces of a source; an escape of anything but an operator is not read. -/
def lex : List Char → Option (List Token)
  | [] => some []
  | c :: source =>
    if c = '\\' then
      match source with
      | d :: source => if d ∈ syntaxCharacters then (lex source).map (.literal d :: ·) else none
      | [] => none
    else if c ∈ syntaxCharacters then (lex source).map (.operator c :: ·)
    else (lex source).map (.literal c :: ·)

/-- What one character of a text is tested by. -/
inductive Atom
  | char (c : Char)
  | any
deriving DecidableEq

/-- An atom, repeated or not. -/
structure Term where
  atom : Atom
  starred : Bool := false
deriving DecidableEq

/-- A term at the head of an expression, given that a `*` follows or not. -/
def Token.atom : Token → Option Atom
  | literal c => some (.char c)
  | operator '.' => some .any
  | operator _ => none

/-- The terms up to the final `$`. -/
def terms : List Token → Option (List Term)
  | [] => none
  | [.operator '$'] => some []
  | t :: .operator '*' :: source => do return { atom := ← t.atom, starred := true } :: (← terms source)
  | t :: source => do return { atom := ← t.atom } :: (← terms source)

/-- The terms of a source that is anchored at both ends. -/
def parse (source : String) : Option (List Term) :=
  (lex source.toList).bind fun tokens =>
    match tokens with
    | .operator '^' :: tokens => terms tokens
    | _ => none

/-- An atom accepts a character. -/
def Atom.accepts : Atom → Char → Bool
  | char c, d => c == d
  | any, d => !isLineTerminator d

/-- A repeated atom and then the rest of an expression. -/
def repeats (accepts : Char → Bool) (rest : List Char → Bool) : List Char → Bool
  | [] => rest []
  | c :: text => rest (c :: text) || (accepts c && repeats accepts rest text)

/-- An expression matches the whole of a text. -/
def matchTerms : List Term → List Char → Bool
  | [], text => text.isEmpty
  | { atom, starred := true } :: terms, text => repeats atom.accepts (matchTerms terms) text
  | { atom, starred := false } :: terms, text =>
    match text with
    | [] => false
    | c :: text => atom.accepts c && matchTerms terms text

/-- `new RegExp(source).test(text)`. -/
def test (source text : String) : Option Bool :=
  (parse source).map fun terms => matchTerms terms text.toList

end RegExp

/-- `s.replace(/[.*+?^${}()|[\]\\]/g, '\\$&')`. -/
def escapeRe (s : String) : String :=
  String.ofList (s.toList.flatMap fun c => if c ∈ syntaxCharacters then ['\\', c] else [c])

/-! ## Escaped texts -/

namespace RegExp

theorem lex_plain {c : Char} (plain : c ∉ syntaxCharacters) (source : List Char) :
    lex (c :: source) = (lex source).map (.literal c :: ·) := by
  have unescaped : c ≠ '\\' := by
    rintro rfl
    exact plain (by decide)
  rw [lex.eq_def]
  simp only [if_neg unescaped, if_neg plain]

theorem lex_operator {c : Char} (operator : c ∈ syntaxCharacters) (notEscape : c ≠ '\\')
    (source : List Char) : lex (c :: source) = (lex source).map (.operator c :: ·) := by
  rw [lex.eq_def]
  simp only [if_neg notEscape, if_pos operator]

theorem lex_escaped {c : Char} (escaped : c ∈ syntaxCharacters) (source : List Char) :
    lex ('\\' :: c :: source) = (lex source).map (.literal c :: ·) := if_pos escaped

/-- An escaped text is read as its characters. -/
theorem lex_escapeRe (s : String) (source : List Char) :
    lex ((escapeRe s).toList ++ source) =
      (lex source).map fun tokens => s.toList.map .literal ++ tokens := by
  rw [escapeRe, String.toList_ofList]
  generalize s.toList = text
  induction text with
  | nil =>
    rw [List.flatMap_nil, List.nil_append]
    exact Option.map_id'.symm
  | cons c text ih =>
    have onward : (lex (text.flatMap (fun c => if c ∈ syntaxCharacters then ['\\', c] else [c]) ++
        source)).map (Token.literal c :: ·) =
        (lex source).map fun tokens => (c :: text).map .literal ++ tokens := by
      rw [ih, Option.map_map]
      rfl
    rw [List.flatMap_cons, List.append_assoc]
    by_cases escaped : c ∈ syntaxCharacters
    · rw [if_pos escaped, ← onward]
      exact lex_escaped escaped _
    · rw [if_neg escaped, ← onward]
      exact lex_plain escaped _

/-- `.*` at the head of an expression. -/
theorem terms_any (source : List Token) : terms (.operator '.' :: .operator '*' :: source) =
    (terms source).map ({ atom := .any, starred := true } :: ·) := by
  show (do return _ :: (← terms source)) = _
  cases terms source <;> rfl

/-- A character at the head of an expression, unless it is repeated. -/
theorem terms_literal {c : Char} {source : List Token} (plain : source.head? ≠ some (.operator '*')) :
    terms (.literal c :: source) = (terms source).map ({ atom := .char c } :: ·) := by
  cases source with
  | nil => rfl
  | cons t source =>
    rw [terms.eq_def]
    split
    · rename_i h
      cases h
    · rename_i h
      cases h
    · rename_i h
      obtain ⟨-, rfl, -⟩ := h
      exact absurd rfl plain
    · rename_i h
      cases h
      show (do return _ :: (← terms (t :: source))) = _
      cases terms (t :: source) <;> rfl

end RegExp

end EndCloseRelay.Js
