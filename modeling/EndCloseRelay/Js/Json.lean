import EndCloseRelay.Js.Number

/-!
# JSON values as JavaScript sees them

`Json` is what `JSON.parse` returns.  Reading a member of an object can also
find one inherited from `Object.prototype`, so the type has a last constructor
for those: no document contains one, and `getAtPath` can return one.
-/

namespace EndCloseRelay

open Js

/-- What a member read can find on `Object.prototype`. -/
inductive Inherited
  | function (name : String)
  | objectPrototype
deriving DecidableEq

/-- A JSON value; an object lists its own members in enumeration order. -/
inductive Json
  | null
  | bool (b : Bool)
  | num (n : Number)
  | str (s : String)
  | arr (items : List Json)
  | obj (entries : List (String × Json))
  | inherited (member : Inherited)

namespace Json

/-- The function-valued properties of `Object.prototype`. -/
def prototypeFunctions : List String :=
  ["constructor", "__defineGetter__", "__defineSetter__", "hasOwnProperty",
    "__lookupGetter__", "__lookupSetter__", "isPrototypeOf",
    "propertyIsEnumerable", "toString", "valueOf", "toLocaleString"]

/-- What reading `key` finds on an object without an own member of that name. -/
def prototypeMember (key : String) : Option Json :=
  if key = "__proto__" then some (.inherited .objectPrototype)
  else if key ∈ prototypeFunctions then some (.inherited (.function key))
  else none

/-- `value !== null && typeof value === 'object'`. -/
def isObject : Json → Bool
  | arr _ | obj _ | inherited .objectPrototype => true
  | _ => false

/-- `Array.isArray(node) ? node : Object.values(node)` for an object `node`. -/
def values : Json → List Json
  | arr items => items
  | obj entries => entries.map Prod.snd
  | _ => []

/-- `Array.isArray(node) ? node[Number(head)] : node[head]` for an object
`node`; `none` is `undefined`. -/
def child (node : Json) (head : String) : Option Json :=
  match node with
  | arr items => (arrayIndex head).bind (items[·]?)
  | obj entries => (entries.lookup head).or (prototypeMember head)
  | inherited .objectPrototype =>
    if head = "__proto__" then some null else prototypeMember head
  | _ => none

mutual

/-- A value `JSON.parse` can return: nothing inherited inside it. -/
def isDocument : Json → Bool
  | arr items => isDocumentItems items
  | obj entries => isDocumentEntries entries
  | inherited _ => false
  | _ => true

/-- Every element of an array is a document. -/
def isDocumentItems : List Json → Bool
  | [] => true
  | item :: items => item.isDocument && isDocumentItems items

/-- Every member of an object is a document. -/
def isDocumentEntries : List (String × Json) → Bool
  | [] => true
  | (_, value) :: entries => value.isDocument && isDocumentEntries entries

end

/-! ## `JSON.stringify` -/

/-- One character inside a JSON string literal. -/
def quoteChar (c : Char) : String :=
  if c = '"' then "\\\""
  else if c = '\\' then "\\\\"
  else if c = '\n' then "\\n"
  else if c = '\r' then "\\r"
  else if c = '\t' then "\\t"
  else if c.toNat = 8 then "\\b"
  else if c.toNat = 12 then "\\f"
  else if c.toNat < 32 then
    "\\u00" ++ (if c.toNat < 16 then "0" else "1") ++
      String.ofList [Nat.digitChar (c.toNat % 16)]
  else String.ofList [c]

/-- A JSON string literal. -/
def quote (s : String) : String := "\"" ++ String.join (s.toList.map quoteChar) ++ "\""

mutual

/-- `JSON.stringify(value)`; `none` is `undefined`, the answer for a function. -/
def stringify : Json → Option String
  | null => some "null"
  | bool b => some (if b then "true" else "false")
  | num n => some n.text
  | str s => some (quote s)
  | arr items => some ("[" ++ join "," (stringifyItems items) ++ "]")
  | obj entries => some ("\x7b" ++ join "," (stringifyEntries entries) ++ "\x7d")
  | inherited (.function _) => none
  | inherited .objectPrototype => some "\x7b\x7d"

/-- The elements of an array: a function becomes `null`. -/
def stringifyItems : List Json → List String
  | [] => []
  | item :: items => (stringify item).getD "null" :: stringifyItems items

/-- The members of an object: one holding a function is left out. -/
def stringifyEntries : List (String × Json) → List String
  | [] => []
  | (key, value) :: entries =>
    match stringify value with
    | some text => (quote key ++ ":" ++ text) :: stringifyEntries entries
    | none => stringifyEntries entries

end

example : stringify (.obj [("a", .arr [.str "x\n", .null]), ("f", .inherited (.function "f"))])
    = some "\x7b\"a\":[\"x\\n\",null]\x7d" := by decide

end Json

end EndCloseRelay
