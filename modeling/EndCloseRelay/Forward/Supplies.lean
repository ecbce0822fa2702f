import EndCloseRelay.Forward.Denylist

/-!
# Which values of a host may enter a record

A value is JSON where its arrays have no holes; `Fit` says which JSON may enter
a field.  `checkReturned_fit` and `checkReturned_unfit` compare that with the
check of `forward/enrich.ts`, which reads a hole as `null`.
-/

namespace EndCloseRelay

/-! ## Pure JSON -/

namespace HostValue

mutual

/-- The JSON a returned value is, where a hole in an array is read as given. -/
def json (hole : Option Json) : HostValue → Option Json
  | null => some .null
  | bool b => some (.bool b)
  | num n => some (.num n)
  | str s => some (.str s)
  | arr items => (jsonItems hole items).map .arr
  | obj entries => (jsonEntries hole entries).map .obj
  | notFinite _ | exotic _ | undefined => none

/-- The elements of an array as JSON. -/
def jsonItems (hole : Option Json) : List (Option HostValue) → Option (List Json)
  | [] => some []
  | none :: items => do
    let value ← hole
    let values ← jsonItems hole items
    pure (value :: values)
  | some item :: items => do
    let value ← item.json hole
    let values ← jsonItems hole items
    pure (value :: values)

/-- The members of an object as JSON. -/
def jsonEntries (hole : Option Json) : List (String × HostValue) → Option (List (String × Json))
  | [] => some []
  | (key, value) :: entries => do
    let value ← value.json hole
    let values ← jsonEntries hole entries
    pure ((key, value) :: values)

end

mutual

/-- What is pure JSON is that JSON however holes are read. -/
theorem json_of_pure (hole : Option Json) {value : HostValue} {v : Json}
    (pure_ : value.json none = some v) : value.json hole = some v := by
  cases value with
  | arr items =>
    obtain ⟨values, each, rfl⟩ := Option.map_eq_some_iff.mp pure_
    exact Option.map_eq_some_iff.mpr ⟨values, jsonItems_of_pure hole each, rfl⟩
  | obj entries =>
    obtain ⟨values, each, rfl⟩ := Option.map_eq_some_iff.mp pure_
    exact Option.map_eq_some_iff.mpr ⟨values, jsonEntries_of_pure hole each, rfl⟩
  | _ => exact pure_

theorem jsonItems_of_pure (hole : Option Json) {items : List (Option HostValue)} {values : List Json}
    (pure_ : jsonItems none items = some values) : jsonItems hole items = some values := by
  cases items with
  | nil => exact pure_
  | cons item items =>
    cases item with
    | none => cases pure_
    | some item =>
      obtain ⟨v, first, rest⟩ := Option.bind_eq_some_iff.mp pure_
      obtain ⟨vs, others, rest⟩ := Option.bind_eq_some_iff.mp rest
      refine Option.bind_eq_some_iff.mpr ⟨v, json_of_pure hole first, ?_⟩
      exact Option.bind_eq_some_iff.mpr ⟨vs, jsonItems_of_pure hole others, rest⟩

theorem jsonEntries_of_pure (hole : Option Json) {entries : List (String × HostValue)}
    {values : List (String × Json)} (pure_ : jsonEntries none entries = some values) :
    jsonEntries hole entries = some values := by
  cases entries with
  | nil => exact pure_
  | cons entry entries =>
    obtain ⟨v, first, rest⟩ := Option.bind_eq_some_iff.mp pure_
    obtain ⟨vs, others, rest⟩ := Option.bind_eq_some_iff.mp rest
    refine Option.bind_eq_some_iff.mpr ⟨v, json_of_pure hole first, ?_⟩
    exact Option.bind_eq_some_iff.mpr ⟨vs, jsonEntries_of_pure hole others, rest⟩

end

/-- None of the names is on the denylist. -/
def Unlisted (names : List String) : Prop := ∀ name ∈ names, keyNameIsSensitive name = false

/-- A check passes what is JSON without a name of the denylist, and refuses the
rest with an `EnrichmentError`. -/
def Checks {α : Type} (names : α → List String) (is : Option α) : Except RelayError α → Prop
  | .ok v => is = some v ∧ Unlisted (names v)
  | .error err => (∃ message, err = .enrichment message) ∧ ∀ v, is = some v → ¬ Unlisted (names v)

section

variable {α β γ : Type} {names : α → List String} {names' : β → List String}
  {names'' : γ → List String} {is : Option α} {is' : Option β} {r : Except RelayError α}
  {r' : Except RelayError β}

theorem Checks.map {f : α → β} (checks : Checks names is r) (same : ∀ a, names' (f a) = names a) :
    Checks names' (is.map f) (r.map f) := by
  cases r with
  | ok v =>
    obtain ⟨rfl, unlisted⟩ := checks
    exact ⟨rfl, (same v).symm ▸ unlisted⟩
  | error err =>
    refine ⟨checks.1, fun v found => ?_⟩
    obtain ⟨a, there, rfl⟩ := Option.map_eq_some_iff.mp found
    rw [same]
    exact checks.2 a there

/-- One check and then another. -/
theorem Checks.both {f : α → β → γ} (first : Checks names is r) (second : Checks names' is' r')
    (split : ∀ a b, names'' (f a b) = names a ++ names' b) :
    Checks names'' (do let a ← is; let b ← is'; pure (f a b))
      (do let a ← r; let b ← r'; pure (f a b)) := by
  have parts : ∀ v, (do let a ← is; let b ← is'; pure (f a b)) = some v →
      ∃ a b, is = some a ∧ is' = some b ∧ f a b = v := by
    intro v found
    obtain ⟨a, there, found⟩ := Option.bind_eq_some_iff.mp found
    obtain ⟨b, there', found⟩ := Option.bind_eq_some_iff.mp found
    exact ⟨a, b, there, there', Option.some.inj found⟩
  cases r with
  | error err =>
    refine ⟨first.1, fun v found unlisted => ?_⟩
    obtain ⟨a, b, there, -, rfl⟩ := parts v found
    rw [split] at unlisted
    exact first.2 a there (List.forall_mem_append.mp unlisted).1
  | ok a =>
    obtain ⟨rfl, unlisted⟩ := first
    cases r' with
    | error err =>
      refine ⟨second.1, fun v found unlisted' => ?_⟩
      obtain ⟨a', b, -, there, rfl⟩ := parts v found
      rw [split] at unlisted'
      exact second.2 b there (List.forall_mem_append.mp unlisted').2
    | ok b =>
      obtain ⟨rfl, unlisted'⟩ := second
      refine ⟨rfl, ?_⟩
      rw [split]
      exact List.forall_mem_append.mpr ⟨unlisted, unlisted'⟩

/-- Another name that is not on the denylist. -/
theorem Checks.named {key : String} (checks : Checks names is r)
    (allowed : keyNameIsSensitive key = false) : Checks (fun a => key :: names a) is r := by
  have more : ∀ a, Unlisted (key :: names a) ↔ Unlisted (names a) := by
    intro a
    rw [Unlisted, List.forall_mem_cons]
    exact and_iff_right allowed
  cases r with
  | ok v => exact ⟨checks.1, (more v).mpr checks.2⟩
  | error err => exact ⟨checks.1, fun v found unlisted => checks.2 v found ((more v).mp unlisted)⟩

end

mutual

/-- `assertJson` passes the values that are JSON, holes being `null`, without a
name of the denylist. -/
theorem assertJson_checks (path : String) (value : HostValue) :
    Checks Json.names (value.json (some .null)) (value.assertJson path) := by
  cases value with
  | arr items => exact (assertItems_checks path 0 items).map fun _ => rfl
  | obj entries => exact (assertEntries_checks path entries).map fun _ => rfl
  | notFinite text => exact ⟨⟨_, rfl⟩, fun _ is => by cases is⟩
  | exotic description => exact ⟨⟨_, rfl⟩, fun _ is => by cases is⟩
  | undefined => exact ⟨⟨_, rfl⟩, fun _ is => by cases is⟩
  | _ => exact ⟨rfl, List.forall_mem_nil _⟩

theorem assertItems_checks (path : String) (index : Nat) (items : List (Option HostValue)) :
    Checks Json.itemNames (jsonItems (some .null) items) (assertItems path index items) := by
  cases items with
  | nil => exact ⟨rfl, List.forall_mem_nil _⟩
  | cons item items =>
    have rest := assertItems_checks path (index + 1) items
    cases item with
    | none =>
      have hole : Checks Json.names (some .null) (.ok .null) := ⟨rfl, List.forall_mem_nil _⟩
      exact hole.both rest fun _ _ => rfl
    | some item => exact (assertJson_checks _ item).both rest fun _ _ => rfl

theorem assertEntries_checks (path : String) (entries : List (String × HostValue)) :
    Checks Json.entryNames (jsonEntries (some .null) entries) (assertEntries path entries) := by
  cases entries with
  | nil => exact ⟨rfl, List.forall_mem_nil _⟩
  | cons entry entries =>
    obtain ⟨key, value⟩ := entry
    have rest := assertEntries_checks path entries
    rw [assertEntries]
    cases sensitive : keyNameIsSensitive key with
    | true =>
      refine ⟨⟨_, rfl⟩, fun vs found unlisted => ?_⟩
      obtain ⟨v, -, found⟩ := Option.bind_eq_some_iff.mp found
      obtain ⟨vs', -, found⟩ := Option.bind_eq_some_iff.mp found
      obtain rfl := Option.some.inj found
      have allowed := unlisted key List.mem_cons_self
      rw [sensitive] at allowed
      cases allowed
    | false =>
      exact ((assertJson_checks _ value).named sensitive).both rest fun _ _ => rfl

end

end HostValue

/-! ## What may enter a record -/

/-- A returned value may enter a field as JSON: without a name of the denylist
at any depth, and as a text if the field is the description. -/
structure Fit (hole : Option Json) (field : String) (value : HostValue) (v : Json) : Prop where
  json : value.json hole = some v
  unlisted : HostValue.Unlisted v.names
  text : field = "description" → ∃ s, v = .str s

theorem Fit.loosen {field : String} {value : HostValue} {v : Json} (hole : Option Json)
    (fit : Fit none field value v) : Fit hole field value v :=
  ⟨HostValue.json_of_pure hole fit.json, fit.unlisted, fit.text⟩

namespace Dispatcher

theorem checkReturned_undefined (field : String) :
    checkReturned field (.ok .undefined) = .ok none := rfl

theorem validate_eq {value : HostValue} (given : value ≠ .undefined) (field : String) :
    validateEnrichedValue value field = (value.assertJson field).map fun v => some (hardDenyDeep v) := by
  cases value with
  | undefined => contradiction
  | _ => rfl

theorem isText_hardDenyDeep {v : Json} : (∃ s, hardDenyDeep v = .str s) ↔ ∃ s, v = .str s := by
  cases v with
  | str s => exact ⟨fun _ => ⟨s, rfl⟩, fun _ => ⟨_, rfl⟩⟩
  | inherited member => cases member <;> simp [hardDenyDeep]
  | _ => simp [hardDenyDeep]

/-- The last of the checks, on a value that is valid for any field. -/
theorem checkReturned_valid {field : String} {value : HostValue} {w : Json}
    (valid : validateEnrichedValue value field = .ok (some w)) :
    (field = "description" → ∃ s, w = .str s) ∧ checkReturned field (.ok value) = .ok (some w) ∨
      (field = "description" ∧ ¬ ∃ s, w = .str s) ∧
        ∃ message, checkReturned field (.ok value) = .error (.enrichment message) := by
  unfold checkReturned
  simp only [bind, Except.bind, valid]
  by_cases described : field = "description"
  · cases w with
    | str s => exact .inl ⟨fun _ => ⟨s, rfl⟩, rfl⟩
    | _ => exact .inr ⟨⟨described, by simp⟩, _, if_pos described⟩
  · refine .inl ⟨fun same => absurd same described, ?_⟩
    cases w with
    | str s => rfl
    | _ => exact if_neg described

/-- What is fit is passed, filtered. -/
theorem checkReturned_fit {field : String} {value : HostValue} {v : Json}
    (fit : Fit (some .null) field value v) :
    checkReturned field (.ok value) = .ok (some (hardDenyDeep v)) := by
  have given : value ≠ .undefined := by
    rintro rfl
    cases fit.json
  have checks := HostValue.assertJson_checks field value
  have passes : value.assertJson field = .ok v := by
    cases checked : value.assertJson field with
    | ok v' =>
      rw [checked] at checks
      rw [Option.some.inj (checks.1.symm.trans fit.json)]
    | error err =>
      rw [checked] at checks
      exact absurd fit.unlisted (checks.2 v fit.json)
  have valid : validateEnrichedValue value field = .ok (some (hardDenyDeep v)) := by
    rw [validate_eq given, passes]
    rfl
  rcases checkReturned_valid valid with ⟨-, passed⟩ | ⟨⟨described, other⟩, -⟩
  · exact passed
  · exact absurd (isText_hardDenyDeep.mpr (fit.text described)) other

/-- What is not fit is refused. -/
theorem checkReturned_unfit {field : String} {value : HostValue} (given : value ≠ .undefined)
    (unfit : ∀ v, ¬ Fit (some .null) field value v) :
    ∃ message, checkReturned field (.ok value) = .error (.enrichment message) := by
  have checks := HostValue.assertJson_checks field value
  cases checked : value.assertJson field with
  | error err =>
    rw [checked] at checks
    obtain ⟨⟨message, rfl⟩, -⟩ := checks
    refine ⟨message, ?_⟩
    show (validateEnrichedValue value field >>= _) = _
    rw [validate_eq given, checked]
    rfl
  | ok v =>
    rw [checked] at checks
    have valid : validateEnrichedValue value field = .ok (some (hardDenyDeep v)) := by
      rw [validate_eq given, checked]
      rfl
    rcases checkReturned_valid valid with ⟨text, -⟩ | ⟨-, refused⟩
    · exact absurd ⟨checks.1, checks.2, fun described => isText_hardDenyDeep.mp (text described)⟩ (unfit v)
    · exact refused

end Dispatcher

end EndCloseRelay
