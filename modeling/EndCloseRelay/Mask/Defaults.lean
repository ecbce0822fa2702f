import EndCloseRelay.Js.Json

/-!
# The hard denylist

`mask/defaults.ts`: the names of sensitive fields, and the redaction of SSN
shapes and Luhn-valid card numbers that every mapped value passes through.
Each regular expression is a matcher on the text from one position on, given
the character before it.
-/

namespace EndCloseRelay

open Js

/-! ## Word boundaries and replacement -/

/-- `\b` between two characters, `none` being an end of the text. -/
def wordBoundary (prev next : Option Char) : Bool :=
  prev.any isWordChar != next.any isWordChar

/-- `text.replace(re, sub)` for a global expression.  `matchAt prev text` is
the length of the match at the head of `text`; `skip` counts the characters of
a match still to be passed over. -/
def replaceAll (matchAt : Option Char → List Char → Option Nat)
    (sub : List Char → List Char) : Option Char → Nat → List Char → List Char
  | _, _, [] => []
  | _, skip + 1, c :: rest => replaceAll matchAt sub (some c) skip rest
  | prev, 0, c :: rest =>
    match matchAt prev (c :: rest) with
    | some n => sub ((c :: rest).take n) ++ replaceAll matchAt sub (some c) (n - 1) rest
    | none => c :: replaceAll matchAt sub (some c) 0 rest

/-! ## Sensitive names -/

/-- Two words with an optional dash or underscore between them. -/
def spellings (first second : String) : List String :=
  [first ++ second, first ++ "-" ++ second, first ++ "_" ++ second]

/-- The alternatives of `SENSITIVE_KEY_RE`. -/
def sensitiveWords : List String :=
  ["cvv", "cvv2", "cvc", "cid", "pin", "password", "passwd", "secret", "ssn"] ++
    spellings "api" "key" ++ spellings "private" "key" ++ spellings "access" "token" ++
    spellings "refresh" "token" ++ spellings "social" "security" ++
    spellings "routing" "number" ++ spellings "account" "number"

/-- `(^|_|\b)` before a word, and `($|_|\b)` after one: the text ends there, or
the neighbour is an underscore or no word character. -/
def wordEdge (neighbour : Option Char) : Bool :=
  neighbour.all fun c => c == '_' || !isWordChar c

/-- `SENSITIVE_KEY_RE` matches one of its words at the head of `text`. -/
def sensitiveAt (prev : Option Char) (text : List Char) : Bool :=
  wordEdge prev && sensitiveWords.any fun word =>
    (text.take word.length).map upperAscii == word.toList.map upperAscii &&
      wordEdge (text.drop word.length).head?

/-- `SENSITIVE_KEY_RE.test`. -/
def sensitiveFrom : Option Char → List Char → Bool
  | _, [] => false
  | prev, c :: rest => sensitiveAt prev (c :: rest) || sensitiveFrom (some c) rest

/-- `key.replace(/([a-z0-9])([A-Z])/g, '$1_$2')`.  The second character of a
pair is no lower-case letter or digit, so pairs never overlap. -/
def splitCamel : List Char → List Char
  | a :: b :: rest =>
    if (isLowerAscii a || isDigit a) && isUpperAscii b then a :: '_' :: splitCamel (b :: rest)
    else a :: splitCamel (b :: rest)
  | text => text

/-- `keyNameIsSensitive(key)`. -/
def keyNameIsSensitive (key : String) : Bool := sensitiveFrom none (splitCamel key.toList)

example : ["cvv", "CVV2", "card_cvc", "apiKey", "api_key", "AccountNumber"].all keyNameIsSensitive
    ∧ ["amount", "batchNumber", "transferId"].all (!keyNameIsSensitive ·) := by decide

/-! ## Redaction -/

/-- `REDACTED`. -/
def redacted : String := "[REDACTED]"

/-- `SSN_RE` at the head of `text`. -/
def matchSsn (prev : Option Char) (text : List Char) : Option Nat :=
  match text with
  | a :: b :: c :: d1 :: d :: e :: d2 :: f :: g :: h :: i :: rest =>
    if wordBoundary prev (some a) && [a, b, c, d, e, f, g, h, i].all isDigit &&
        d1 == '-' && d2 == '-' && wordBoundary (some i) rest.head? then some 11
    else none
  | _ => none

/-- The lengths `[ -]?\d` can be repeated to from the head of `text`, one for
each number of repetitions up to `limit`. -/
def panLengths : (limit : Nat) → (consumed : Nat) → List Char → List Nat
  | 0, _, _ => []
  | limit + 1, consumed, a :: rest =>
    if isDigit a then (consumed + 1) :: panLengths limit (consumed + 1) rest
    else if a == ' ' || a == '-' then
      match rest with
      | b :: rest =>
        if isDigit b then (consumed + 2) :: panLengths limit (consumed + 2) rest else []
      | [] => []
    else []
  | _ + 1, _, [] => []

/-- `PAN_CANDIDATE_RE` at the head of `text`: a digit and 12 to 18 more, as
many as leave a word boundary behind them. -/
def matchPan (prev : Option Char) (text : List Char) : Option Nat :=
  match text with
  | a :: rest =>
    if isDigit a && wordBoundary prev (some a) then
      ((panLengths 18 1 rest).drop 11).reverse.find? fun n =>
        wordBoundary (text[n - 1]?) (text[n]?)
    else none
  | [] => none

/-- `luhnValid` over the digits from the last to the first. -/
def luhnSum : (double : Bool) → List Nat → Nat
  | _, [] => 0
  | false, d :: digits => d + luhnSum true digits
  | true, d :: digits => (if d * 2 > 9 then d * 2 - 9 else d * 2) + luhnSum false digits

/-- `luhnValid(digits)`. -/
def luhnValid (digits : List Char) : Bool :=
  luhnSum false (digits.reverse.map fun c => c.toNat - '0'.toNat) % 10 == 0

/-- The replacement of one card-number candidate. -/
def redactPan (candidate : List Char) : List Char :=
  let digits := candidate.filter fun c => !(c == ' ' || c == '-')
  if 13 ≤ digits.length && digits.length ≤ 19 && luhnValid digits then redacted.toList
  else candidate

/-- `hardDenyValue(value)`. -/
def hardDenyValue (value : String) : String :=
  let out := replaceAll matchSsn (fun _ => redacted.toList) none 0 value.toList
  String.ofList (replaceAll matchPan redactPan none 0 out)

example : hardDenyValue "ssn 123-45-6789" = "ssn [REDACTED]" ∧
    hardDenyValue "pan 4111-1111-1111-1111" = "pan [REDACTED]" ∧
    hardDenyValue "order 1234567890123456" = "order 1234567890123456" := by decide

/-! ## The recursive filter -/

mutual

/-- `hardDenyDeep(value)`: `hardDenyValue` at every string inside a value. -/
def hardDenyDeep : Json → Json
  | .str s => .str (hardDenyValue s)
  | .arr items => .arr (hardDenyItems items)
  | .obj entries => .obj (hardDenyEntries entries)
  | .inherited .objectPrototype => .obj []
  | value => value

/-- `value.map(hardDenyDeep)` for an array. -/
def hardDenyItems : List Json → List Json
  | [] => []
  | item :: items => hardDenyDeep item :: hardDenyItems items

/-- `hardDenyDeep` at every member of an object; the names stay. -/
def hardDenyEntries : List (String × Json) → List (String × Json)
  | [] => []
  | (key, value) :: entries => (key, hardDenyDeep value) :: hardDenyEntries entries

end

mutual

/-- Every string inside a value, in order; names of members are no values. -/
def Json.strings : Json → List String
  | .str s => [s]
  | .arr items => itemStrings items
  | .obj entries => entryStrings entries
  | _ => []

/-- The strings inside the elements of an array. -/
def Json.itemStrings : List Json → List String
  | [] => []
  | item :: items => item.strings ++ itemStrings items

/-- The strings inside the members of an object. -/
def Json.entryStrings : List (String × Json) → List String
  | [] => []
  | (_, value) :: entries => value.strings ++ entryStrings entries

end

mutual

/-- The filter replaces every string at every depth by its image, and adds
and drops none. -/
theorem strings_hardDenyDeep (value : Json) :
    (hardDenyDeep value).strings = value.strings.map hardDenyValue := by
  cases value with
  | arr items => exact strings_hardDenyItems items
  | obj entries => exact strings_hardDenyEntries entries
  | inherited member => cases member <;> rfl
  | _ => rfl

theorem strings_hardDenyItems (items : List Json) :
    Json.itemStrings (hardDenyItems items) = (Json.itemStrings items).map hardDenyValue := by
  cases items with
  | nil => rfl
  | cons item items =>
    simp only [hardDenyItems, Json.itemStrings, List.map_append,
      strings_hardDenyDeep item, strings_hardDenyItems items]

theorem strings_hardDenyEntries (entries : List (String × Json)) :
    Json.entryStrings (hardDenyEntries entries) =
      (Json.entryStrings entries).map hardDenyValue := by
  cases entries with
  | nil => rfl
  | cons entry entries =>
    simp only [hardDenyEntries, Json.entryStrings, List.map_append,
      strings_hardDenyDeep entry.2, strings_hardDenyEntries entries]

end

end EndCloseRelay
