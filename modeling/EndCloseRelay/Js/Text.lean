import EndCloseRelay.Js.Utf16
import Mathlib.Data.List.DropRight

/-!
# JavaScript text

The string built-ins the relay leans on, over Lean strings.  A test of a
regular expression's character class is a predicate on one character; `split`,
`trim` and `padStart` act on the character list.  These are texts of characters:
what surrogates that stand alone come to is said with `Js.Units`.
-/

namespace EndCloseRelay.Js

/-! ## Character classes -/

/-- `\d`. -/
def isDigit (c : Char) : Bool := '0' ≤ c && c ≤ '9'

/-- `[a-z]`. -/
def isLowerAscii (c : Char) : Bool := 'a' ≤ c && c ≤ 'z'

/-- `[A-Z]`. -/
def isUpperAscii (c : Char) : Bool := 'A' ≤ c && c ≤ 'Z'

/-- `\w`, the word characters `\b` is defined by. -/
def isWordChar (c : Char) : Bool :=
  isDigit c || isLowerAscii c || isUpperAscii c || c == '_'

/-- `\s`, which is also the set `String.prototype.trim` removes: the
`WhiteSpace` and `LineTerminator` code points. -/
def isSpace (c : Char) : Bool :=
  let n := c.toNat
  (9 ≤ n && n ≤ 13) || n == 0x20 || n == 0xA0 || n == 0x1680 ||
    (0x2000 ≤ n && n ≤ 0x200A) || n == 0x2028 || n == 0x2029 || n == 0x202F ||
    n == 0x205F || n == 0x3000 || n == 0xFEFF

/-- The `LineTerminator` code points, which `.` does not match. -/
def isLineTerminator (c : Char) : Bool :=
  c == '\n' || c == '\r' || c.toNat == 0x2028 || c.toNat == 0x2029

/-- The upper-case form a case-insensitive expression without the `u` flag
compares by: only ASCII letters can meet an ASCII letter of the pattern. -/
def upperAscii (c : Char) : Char :=
  if isLowerAscii c then Char.ofNat (c.toNat - 32) else c

/-! ## Strings -/

/-- `s.split(sep)` for a one-character separator. -/
def split (s : String) (sep : Char) : List String :=
  (s.toList.splitOn sep).map String.ofList

/-- `parts.join(sep)`. -/
def join (sep : String) : List String → String
  | [] => ""
  | [part] => part
  | part :: parts => part ++ sep ++ join sep parts

/-- `s.slice(0, n)`, as it is stored and sent: the half of a pair that is cut is
shown as U+FFFD. -/
def sliceTo (s : String) (n : Nat) : String := shown ((units s).take n)

theorem sliceTo_append {a : String} {n : Nat} (whole : (units a).length = n) (b : String) :
    sliceTo (a ++ b) n = a := by
  rw [sliceTo, units_append, ← whole, List.take_left, shown_units]

/-- A cut leaves the first character, if it is of the first plane. -/
theorem head?_sliceTo {s : String} {c : Char} (head : s.toList.head? = some c) (first : c.toNat < 0x10000)
    (n : Nat) : (sliceTo s (n + 1)).toList.head? = some c := by
  obtain ⟨text, chars⟩ := List.head?_eq_some_iff.mp head
  have cut : (units s).take (n + 1) = unitsOf c ++ (units (String.ofList text)).take n := by
    rw [units, chars, List.flatMap_cons, unitsOf, if_pos first, units, String.toList_ofList]
    rfl
  rw [sliceTo, cut, shown, String.toList_ofList, decode_unitsOf_append]
  rfl

/-- `s.trim()`. -/
def trim (s : String) : String :=
  String.ofList
    (((s.toList.dropWhile isSpace).reverse.dropWhile isSpace).reverse)

/-- A text with space at neither end is trimmed already. -/
theorem trim_eq_self {text : List Char} (starts : ∀ c ∈ text.head?, isSpace c = false)
    (ends : ∀ c ∈ text.getLast?, isSpace c = false) : trim (String.ofList text) = String.ofList text := by
  unfold trim
  rw [String.toList_ofList]
  have front : text.dropWhile isSpace = text := by
    cases text with
    | nil => rfl
    | cons c text => exact List.dropWhile_cons_of_neg (by rw [starts c rfl]; decide)
  have back : text.rdropWhile isSpace = text := by
    rw [List.rdropWhile_eq_self_iff]
    intro some_
    rw [ends _ (List.getLast?_eq_getLast_of_ne_nil some_)]
    decide
  rw [front]
  exact congrArg String.ofList back

/-- `s.padStart(n, '0')`. -/
def padStartZero (s : String) (n : Nat) : String :=
  String.ofList (List.replicate (n - s.toList.length) '0' ++ s.toList)

/-- `s.slice(s.indexOf(c) + 1)` when `c` occurs in `s`, and `s` otherwise. -/
def afterFirst (s : String) (c : Char) : String :=
  if c ∈ s.toList then String.ofList ((s.toList.dropWhile (· ≠ c)).drop 1) else s

/-- The value of a run of decimal digits. -/
def digitsValue (digits : List Char) : Nat :=
  digits.foldl (fun value c => value * 10 + (c.toNat - '0'.toNat)) 0

end EndCloseRelay.Js
