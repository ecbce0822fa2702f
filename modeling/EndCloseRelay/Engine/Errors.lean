import EndCloseRelay.Js.Json

/-!
# Errors and the platform

The classes of error the engine tells apart by `instanceof`, and what the
JavaScript platform and `node:crypto` supply.  `Runtime` is a parameter of the
model: the theorems hold for every Unicode lower-casing, every reading of a
date string, every JSON parser and every hash.
-/

namespace EndCloseRelay

/-- The content of a `Buffer`. -/
abbrev Bytes := List UInt8

/-- `Buffer.from(text, 'utf8')`. -/
def utf8 (text : String) : Bytes := text.toList.flatMap String.utf8EncodeChar

theorem utf8_injective : Function.Injective utf8 := by
  intro a b same
  rw [← String.toByteArray_inj, ← String.utf8Encode_toList, ← String.utf8Encode_toList]
  exact congrArg List.toByteArray same

/-- `Buffer.from(text, 'utf8')` of any JavaScript text: a surrogate that stands alone
is encoded as U+FFFD. -/
def utf8Units (text : Js.Units) : Bytes := utf8 (Js.shown text)

theorem utf8Units_units (text : String) : utf8Units (Js.units text) = utf8 text :=
  congrArg utf8 (Js.shown_units text)

/-- A thrown value.  `other` is any `Error` that is none of the engine's own
classes: a `TypeError`, a decipher failure, whatever a host function throws. -/
inductive RelayError
  | mapping (message : String)
  | enrichment (message : String)
  | store (message op : String)
  | storeUnavailable (message op : String)
  | transientHttp (message : String) (status : Option Nat)
  | permanentHttp (message : String) (status : Nat) (body : String)
  | other (message : String)
deriving DecidableEq

/-- `err.message`. -/
def RelayError.message : RelayError → String
  | .mapping message | .enrichment message | .store message _ | .storeUnavailable message _
  | .transientHttp message _ | .permanentHttp message _ _ | .other message => message

/-- `storeOp(err)`. -/
def RelayError.storeOp : RelayError → Option String
  | .store _ op | .storeUnavailable _ op => some op
  | _ => none

/-- What JavaScript and `node:crypto` provide. -/
structure Runtime where
  /-- `text.toLowerCase()`. -/
  toLowerCase : String → String
  /-- `new Date(text).getTime()`, `none` for `NaN`. -/
  dateParse : String → Option Int
  /-- `JSON.parse(bytes.toString('utf8'))`, an error carrying its message. -/
  jsonParse : Bytes → Except String Json
  /-- `createHmac('sha256', key).update(text, 'utf8').digest('hex')`. -/
  hmacSha256Hex : Bytes → String → String
  /-- `createHash('sha256').update(bytes).digest('hex')`. -/
  sha256Hex : Bytes → String

/-- A platform for runs on fixed inputs: it parses the documents it is given,
knows no date string, lower-cases ASCII and spells bytes out where the real one
would digest them. -/
def Runtime.knowing (documents : List (Bytes × Json)) : Runtime where
  toLowerCase text := String.ofList (text.toList.map fun c =>
    if Js.isUpperAscii c then Char.ofNat (c.toNat + 32) else c)
  dateParse _ := none
  jsonParse bytes :=
    match documents.lookup bytes with
    | some document => .ok document
    | none => .error "Unexpected token"
  hmacSha256Hex _ text := text
  sha256Hex bytes := String.ofList (bytes.map fun b => Char.ofNat b.toNat)

theorem toNat_charOfNat {n : Nat} (small : n < 256) : (Char.ofNat n).toNat = n := by
  have valid : n.isValidChar := .inl (by omega)
  rw [Char.ofNat, dif_pos valid]
  rfl

/-- What the platform for runs on fixed inputs spells out is the content. -/
theorem Runtime.sha256Hex_knowing_injective (documents : List (Bytes × Json)) :
    Function.Injective (Runtime.knowing documents).sha256Hex := by
  have spelled : Function.Injective fun b : UInt8 => Char.ofNat b.toNat := by
    intro a b same
    have numbers := congrArg Char.toNat same
    have valid : ∀ c : UInt8, (Char.ofNat c.toNat).toNat = c.toNat := by
      intro c
      have small := c.toNat_lt
      exact toNat_charOfNat small
    simp only [valid] at numbers
    exact UInt8.toNat_inj.mp numbers
  intro a b same
  exact List.map_injective_iff.mpr spelled (String.ofList_injective same)

end EndCloseRelay
