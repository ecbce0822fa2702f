import EndCloseRelay.Engine.Errors
import EndCloseRelay.Mask.Defaults

/-!
# Values from the host

`forward/enrich.ts`: what a host function may return, and the check that turns
it into JSON fit for a record.
-/

namespace EndCloseRelay

/-- `EnrichContext`. -/
structure EnrichContext where
  routeId : String
  source : String
  eventId : String
  eventType : Option String
  receivedAt : String
  field : String
  payload : Json

/-- What a host function can return.  `notFinite` is `NaN` or an infinity by
its text, `exotic` a value that is no JSON by what `describe` calls it; an
element of an array can be missing, which makes a hole. -/
inductive HostValue
  | undefined
  | null
  | bool (b : Bool)
  | num (n : Js.Number)
  | notFinite (text : String)
  | str (s : String)
  | arr (items : List (Option HostValue))
  | obj (entries : List (String × HostValue))
  | exotic (description : String)

namespace HostValue

/-- `enriched value at "path" is not JSON`. -/
def notJson (path described : String) : RelayError :=
  .enrichment ("enriched value at \"" ++ path ++ "\" is not JSON (" ++ described ++ ")")

/-- `enriched value at "path" matches the hard denylist`. -/
def denied (path : String) : RelayError :=
  .enrichment ("enriched value at \"" ++ path ++
    "\" matches the hard denylist (cvv/ssn/account number/...) and cannot be forwarded")

mutual

/-- `assertJson(value, path)`, with the JSON value it has then seen. -/
def assertJson (path : String) : HostValue → Except RelayError Json
  | null => .ok .null
  | bool b => .ok (.bool b)
  | str s => .ok (.str s)
  | num n => .ok (.num n)
  | notFinite text => .error (notJson path ("number " ++ text))
  | arr items => (assertItems path 0 items).map .arr
  | obj entries => (assertEntries path entries).map .obj
  | exotic description => .error (notJson path description)
  | undefined => .error (notJson path "a undefined")

/-- `assertJson` on the elements of an array, from an index on.  `forEach` passes
over a hole, and the text of a record has `null` for it. -/
def assertItems (path : String) (index : Nat) :
    List (Option HostValue) → Except RelayError (List Json)
  | [] => .ok []
  | none :: items => do
    let values ← assertItems path (index + 1) items
    pure (.null :: values)
  | some item :: items => do
    let value ← assertJson (path ++ "[" ++ toString index ++ "]") item
    let values ← assertItems path (index + 1) items
    pure (value :: values)

/-- `assertJson` on the members of an object, whose names it checks first. -/
def assertEntries (path : String) :
    List (String × HostValue) → Except RelayError (List (String × Json))
  | [] => .ok []
  | (key, value) :: entries => do
    if keyNameIsSensitive key then throw (denied (path ++ "." ++ key))
    let value ← assertJson (path ++ "." ++ key) value
    let values ← assertEntries path entries
    pure ((key, value) :: values)

end

end HostValue

/-- `validateEnrichedValue(value, field)`: `none` leaves the field out. -/
def validateEnrichedValue (value : HostValue) (field : String) : Except RelayError (Option Json) :=
  match value with
  | .undefined => .ok none
  | value => (value.assertJson field).map fun value => some (hardDenyDeep value)

example : (validateEnrichedValue (.obj [("cvv", .str "737")]) "metadata.card").isOk = false := by
  decide

/-- What passes the check is a hard-denied value. -/
theorem validateEnrichedValue_ok {value : HostValue} {field : String} {json : Json}
    (valid : validateEnrichedValue value field = .ok (some json)) :
    ∃ given, value.assertJson field = .ok given ∧ json = hardDenyDeep given := by
  unfold validateEnrichedValue at valid
  split at valid
  · cases valid
  · cases checked : value.assertJson field with
    | error err =>
      rw [checked] at valid
      cases valid
    | ok given =>
      rw [checked] at valid
      cases valid
      exact ⟨given, rfl, rfl⟩

end EndCloseRelay
