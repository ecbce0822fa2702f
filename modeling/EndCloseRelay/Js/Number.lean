import EndCloseRelay.Js.Text
import Mathlib.Algebra.Group.Nat.Defs
import Mathlib.Data.List.TakeWhile

/-!
# JavaScript numbers

A JSON number reaches the relay as a double and leaves it only through
`String(n)` and `JSON.stringify(n)`.  `Number` therefore is the double known by
that rendering.  `arrayIndex` is the element `node[Number(head)]` selects,
`Double` the values the amount arithmetic produces, and `toISOString` the
rendering of a time value.
-/

namespace EndCloseRelay.Js

/-! ## Numbers by their rendering -/

/-- Drop a run of digits; `none` when there is none. -/
def dropDigits (text : List Char) : Option (List Char) :=
  match text.dropWhile isDigit with
  | rest => if rest.length < text.length then some rest else none

/-- The shapes `Number::toString` gives a finite double: an optional sign,
digits, optionally a fraction, optionally an exponent. -/
def isRendering (text : List Char) : Bool :=
  let unsigned := match text with
    | '-' :: rest => rest
    | _ => text
  match dropDigits unsigned with
  | none => false
  | some rest =>
    let afterFraction := match rest with
      | '.' :: fraction => dropDigits fraction
      | _ => some rest
    match afterFraction with
    | none => false
    | some [] => true
    | some ('e' :: sign :: exponent) =>
      (sign == '+' || sign == '-') && dropDigits exponent == some []
    | some _ => false

/-- A finite double, by its decimal rendering (`0` and `-0` both render as
`0`, and the relay cannot tell them apart). -/
structure Number where
  text : String
  valid : isRendering text.toList = true := by decide
deriving DecidableEq

/-! ## Natural numbers -/

theorem isDigit_of_mem_toString {n : Nat} {c : Char} (member : c ∈ (toString n).toList) :
    isDigit c := by
  rw [Nat.toString_eq_repr, Nat.toList_repr] at member
  have digit := Nat.isDigit_of_mem_toDigits (by decide) (by decide) member
  rw [Char.isDigit, Bool.and_eq_true, decide_eq_true_iff, decide_eq_true_iff] at digit
  rw [isDigit, Bool.and_eq_true, decide_eq_true_iff, decide_eq_true_iff]
  exact digit

/-- A natural number as JavaScript renders it. -/
def Number.ofNat (n : Nat) : Number where
  text := toString n
  valid := by
    have digits : ∀ c ∈ (toString n).toList, isDigit c := fun c => isDigit_of_mem_toString
    have some_ : (toString n).toList ≠ [] := by
      rw [Nat.toString_eq_repr, Nat.toList_repr]
      exact Nat.toDigits_ne_nil
    generalize (toString n).toList = text at digits some_
    have all : text.dropWhile isDigit = [] := List.dropWhile_eq_nil_iff.mpr digits
    have dropped : dropDigits text = some [] := by
      have long : 0 < text.length := List.length_pos_iff.mpr some_
      unfold dropDigits
      rw [all]
      exact if_pos long
    have unsigned : ∀ rest, text ≠ '-' :: rest := by
      rintro rest rfl
      exact absurd (digits '-' (List.mem_cons_self ..)) (by decide)
    unfold isRendering
    split
    · rename_i rest
      exact absurd rfl (unsigned rest)
    · simp only [dropped]

/-- The natural number a rendering denotes in decimal: digits, from `1e21` on with
an exponent. -/
def Number.toNat? (n : Number) : Option Nat :=
  let text := n.text.toList
  let digits := text.takeWhile isDigit
  match text.dropWhile isDigit with
  | [] => some (digitsValue digits)
  | '.' :: rest =>
    let fraction := rest.takeWhile isDigit
    match rest.dropWhile isDigit with
    | 'e' :: '+' :: exponent =>
      some (digitsValue (digits ++ fraction) * 10 ^ (digitsValue exponent - fraction.length))
    | _ => none
  | 'e' :: '+' :: exponent => some (digitsValue digits * 10 ^ digitsValue exponent)
  | _ => none

theorem Number.toNat?_ofNat (n : Nat) : (Number.ofNat n).toNat? = some n := by
  have digits : ∀ c ∈ (toString n).toList, isDigit c := fun c => isDigit_of_mem_toString
  have all : (toString n).toList.dropWhile isDigit = [] := List.dropWhile_eq_nil_iff.mpr digits
  have taken : (toString n).toList.takeWhile isDigit = (toString n).toList := by
    have whole := List.takeWhile_append_dropWhile (p := isDigit) (l := (toString n).toList)
    rwa [all, List.append_nil] at whole
  have value : digitsValue (toString n).toList = n := by
    rw [Nat.toString_eq_repr, Nat.toList_repr]
    have back := Nat.ofDigitChars_ten_toDigits (n := n)
    rw [Nat.ofDigitChars] at back
    simp only [digitsValue, Nat.mul_comm _ 10]
    exact back
  unfold Number.toNat?
  simp only [Number.ofNat, all, taken, value]

/-! ## Array indexes -/

/-- `n` is the double nearest to `num / den`. Zero takes what is at most half
the least denormal, `2 ^ -1075`. Any other `n` takes what lies within half a unit in
the last place, which is halved below a power of two; a tie goes to `n`,
whose significand is even. -/
def isNearestDouble (num den n : Nat) : Bool :=
  if n = 0 then num * (2 ^ 215) ^ 5 ≤ den
  else
    let unit := n.log2
    let below := if n = 2 ^ unit then 54 else 53
    num * 2 ^ 53 ≤ den * (n * 2 ^ 53 + 2 ^ unit) &&
      den * (n * 2 ^ below) ≤ num * 2 ^ below + den * 2 ^ unit

/-- The integer the quotient `num / den` denotes as a double, if any. -/
def integerQuotient (num den : Nat) : Option Nat :=
  let floor := num / den
  if isNearestDouble num den floor then some floor
  else if isNearestDouble num den (floor + 1) then some (floor + 1)
  else none

/-- The value of a digit in base 16 and below. -/
def hexDigit? (c : Char) : Option Nat :=
  if isDigit c then some (c.toNat - '0'.toNat)
  else if 'a' ≤ c ∧ c ≤ 'f' then some (c.toNat - 'a'.toNat + 10)
  else if 'A' ≤ c ∧ c ≤ 'F' then some (c.toNat - 'A'.toNat + 10)
  else none

/-- A non-empty run of digits of one base. -/
def radixValue (base : Nat) : List Char → Option Nat
  | [] => none
  | text => text.foldl (fun value c => do
      let value ← value
      let digit ← hexDigit? c
      if digit < base then some (value * base + digit) else none) (some 0)

/-- The exponent part of a decimal literal: `none` when it is malformed. -/
def exponentOf : List Char → Option Int
  | [] => some 0
  | e :: rest =>
    if e = 'e' ∨ e = 'E' then
      match rest with
      | '+' :: digits => (radixValue 10 digits).map Int.ofNat
      | '-' :: digits => (radixValue 10 digits).map fun n => -Int.ofNat n
      | digits => (radixValue 10 digits).map Int.ofNat
    else none

/-- A decimal literal without a sign or a point, as an array index. -/
def decimalIndex (text : List Char) : Option Nat := do
  let rest ← dropDigits text
  let digits := text.take (text.length - rest.length)
  match ← exponentOf rest with
  | .ofNat e => some (digitsValue digits * 10 ^ e)
  | .negSucc e => integerQuotient (digitsValue digits) (10 ^ (e + 1))

/-- The index `i` for which `node[Number(head)]` is `node[i]`, for a segment
`head` of a dot path (so with no point and no white space): `none` when
`Number(head)` is not a non-negative integer.  `-0` renders as `0`. -/
def arrayIndex (head : String) : Option Nat :=
  match head.toList with
  | '0' :: 'x' :: digits | '0' :: 'X' :: digits => radixValue 16 digits
  | '0' :: 'o' :: digits | '0' :: 'O' :: digits => radixValue 8 digits
  | '0' :: 'b' :: digits | '0' :: 'B' :: digits => radixValue 2 digits
  | '+' :: text => decimalIndex text
  | '-' :: text => (decimalIndex text).filter (· = 0)
  | text => decimalIndex text

example : arrayIndex "00" = some 0 ∧ arrayIndex "1e1" = some 10 ∧
    arrayIndex "0x1F" = some 31 ∧ arrayIndex "-0" = some 0 ∧
    arrayIndex "length" = none ∧ arrayIndex "5e-1" = none := by decide

/-! ## Integer arithmetic on doubles -/

/-- The doubles the amount arithmetic can produce: it never leaves the
integers except by overflow. -/
inductive Double
  | integer (n : Int)
  | infinity (negative : Bool)
deriving DecidableEq

/-- A natural number as a double: exact below `2^53`, rounded to 53
significant bits (half to even) above, infinite past the largest double. -/
def roundNat (n : Nat) : Double :=
  if n < 2 ^ 53 then .integer n
  else
    let unit := 2 ^ (n.log2 - 52)
    let floor := n / unit
    let rounded :=
      if 2 * (n % unit) < unit ∨ (2 * (n % unit) = unit ∧ floor % 2 = 0) then floor
      else floor + 1
    if rounded * unit < (2 ^ 256) ^ 4 then .integer (rounded * unit : Nat) else .infinity false

/-- `-x`. -/
def Double.neg : Double → Double
  | .integer n => .integer (-n)
  | .infinity negative => .infinity (!negative)

/-- `x * n` for a non-negative `x` and a small positive literal `n`. -/
def Double.scale (n : Nat) : Double → Double
  | .integer m => roundNat (m.toNat * n)
  | .infinity negative => .infinity negative

/-- `x + n` for a non-negative `x`. -/
def Double.addNat (n : Nat) : Double → Double
  | .integer m => roundNat (m.toNat + n)
  | .infinity negative => .infinity negative

/-! ## Time values -/

/-- `new Date(ms).toISOString()`: the proleptic Gregorian date of the day and
the time within it; years outside `0..9999` take a sign and six digits. -/
def toISOString (ms : Int) : String :=
  let day := ms / 86400000
  let milli := (ms % 86400000).toNat
  -- Days are counted from 0000-03-01, so that a leap day ends its year.
  let shifted := day + 719468
  let era := shifted / 146097
  let dayOfEra := (shifted % 146097).toNat
  let yearOfEra :=
    (dayOfEra - dayOfEra / 1460 + dayOfEra / 36524 - dayOfEra / 146096) / 365
  let dayOfYear := dayOfEra - (365 * yearOfEra + yearOfEra / 4 - yearOfEra / 100)
  let monthFromMarch := (5 * dayOfYear + 2) / 153
  let date := dayOfYear - (153 * monthFromMarch + 2) / 5 + 1
  let month := if monthFromMarch < 10 then monthFromMarch + 3 else monthFromMarch - 9
  let year := (yearOfEra : Int) + era * 400 + (if month ≤ 2 then 1 else 0)
  let pad (n width : Nat) := padStartZero (toString n) width
  let yearText :=
    if year < 0 then "-" ++ pad year.natAbs 6
    else if year ≤ 9999 then pad year.toNat 4
    else "+" ++ pad year.toNat 6
  yearText ++ "-" ++ pad month 2 ++ "-" ++ pad date 2 ++ "T" ++
    pad (milli / 3600000) 2 ++ ":" ++ pad (milli / 60000 % 60) 2 ++ ":" ++
    pad (milli / 1000 % 60) 2 ++ "." ++ pad (milli % 1000) 3 ++ "Z"

example : toISOString 1783088545006 = "2026-07-03T14:22:25.006Z" := by decide

end EndCloseRelay.Js
