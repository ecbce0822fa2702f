import EndCloseRelay.Calendar.Dates
import EndCloseRelay.Forward.Exposure
import EndCloseRelay.Js.JsonText
import EndCloseRelay.Mask.Completeness

/-!
# What a digest tells apart

A field with `hash` leaves as an HMAC of its value's text, which is
`JSON.stringify` of it unless it is a string.  That text shows the value up to
what a document can hold, so a digest tells two values apart that differ in more
than their strings.  A digest passes the other transforms and the denylist as it
is.
-/

namespace EndCloseRelay

open Js

namespace Json

/-! ## What `JSON.stringify` shows -/

mutual

/-- A value as `JSON.stringify` shows it. -/
def seen : Json → Json
  | arr items => arr (seenItems items)
  | inherited (.function _) => null
  | inherited .objectPrototype => obj []
  | value => value

def seenItems : List Json → List Json
  | [] => []
  | item :: items => seen item :: seenItems items

end

mutual

/-- A value a path can read of a document: something inherited stands alone, or in
the arrays of wildcards. -/
def isReading : Json → Bool
  | arr items => isReadingItems items
  | inherited _ => true
  | value => value.isDocument

def isReadingItems : List Json → Bool
  | [] => true
  | item :: items => item.isReading && isReadingItems items

end

theorem isReadingItems_iff {items : List Json} :
    isReadingItems items ↔ ∀ item ∈ items, item.isReading := by
  induction items with
  | nil => simp [isReadingItems]
  | cons item items ih =>
    rw [isReadingItems, Bool.and_eq_true, ih]
    simp

mutual

theorem isReading_of_isDocument {v : Json} (document : v.isDocument) : v.isReading := by
  cases v with
  | arr items => exact isReadingItems_of_isDocumentItems document
  | inherited member => rfl
  | _ => exact document

theorem isReadingItems_of_isDocumentItems {items : List Json} (documents : isDocumentItems items) :
    isReadingItems items := by
  cases items with
  | nil => rfl
  | cons item items =>
    rw [isDocumentItems, Bool.and_eq_true] at documents
    rw [isReadingItems, Bool.and_eq_true]
    exact ⟨isReading_of_isDocument documents.1, isReadingItems_of_isDocumentItems documents.2⟩

end

mutual

theorem stringify_seen {v : Json} (plain : v.NotFunction) : stringify (seen v) = stringify v := by
  cases v with
  | arr items => exact congrArg (fun texts => some ("[" ++ join "," texts ++ "]")) (stringifyItems_seen items)
  | inherited member =>
    cases member with
    | function name => exact absurd rfl (plain name)
    | objectPrototype => rfl
  | _ => rfl

theorem stringifyItems_seen (items : List Json) : stringifyItems (seenItems items) = stringifyItems items := by
  cases items with
  | nil => rfl
  | cons item items =>
    have first : (stringify (seen item)).getD "null" = (stringify item).getD "null" := by
      cases item with
      | inherited member => cases member <;> rfl
      | arr items => rw [stringify_seen fun _ same => Json.noConfusion same]
      | _ => rfl
    rw [seenItems, stringifyItems, stringifyItems, first, stringifyItems_seen items]

end

mutual

theorem isDocument_seen {v : Json} (reading : v.isReading) : (seen v).isDocument := by
  cases v with
  | arr items => exact isDocumentItems_seen reading
  | inherited member => cases member <;> rfl
  | _ => exact reading

theorem isDocumentItems_seen {items : List Json} (readings : isReadingItems items) :
    isDocumentItems (seenItems items) := by
  cases items with
  | nil => rfl
  | cons item items =>
    rw [isReadingItems, Bool.and_eq_true] at readings
    rw [seenItems, isDocumentItems, Bool.and_eq_true]
    exact ⟨isDocument_seen readings.1, isDocumentItems_seen readings.2⟩

end

/-- `JSON.stringify` tells apart what it shows apart. -/
theorem seen_of_stringify {v v' : Json} (reading : v.isReading) (reading' : v'.isReading)
    (plain : v.NotFunction) (plain' : v'.NotFunction) (same : stringify v = stringify v') :
    seen v = seen v' := by
  obtain ⟨text, spelled, -⟩ := stringify_document (isDocument_seen reading)
  have spelled' : stringify (seen v') = some text := by
    rw [stringify_seen plain', ← same, ← stringify_seen plain, spelled]
  exact Option.some.inj ((read_stringify (isDocument_seen reading) spelled).symm.trans
    (read_stringify (isDocument_seen reading') spelled'))

mutual

theorem shape_seen (v : Json) : (seen v).shape = v.shape := by
  cases v with
  | arr items => exact congrArg arr (shapeItems_seen items)
  | inherited member => cases member <;> rfl
  | _ => rfl

theorem shapeItems_seen (items : List Json) : shapeItems (seenItems items) = shapeItems items := by
  cases items with
  | nil => rfl
  | cons item items => rw [seenItems, shapeItems, shapeItems, shape_seen item, shapeItems_seen items]

end

/-! ## What a path reads of a document -/

theorem isDocument_values {node c : Json} (document : node.isDocument) (member : c ∈ node.values) :
    c.isDocument := by
  cases node with
  | arr items => exact isDocumentItems_iff.mp document c member
  | obj entries =>
    obtain ⟨entry, there, rfl⟩ := List.mem_map.mp member
    exact isDocumentEntries_iff.mp document entry there
  | _ => cases member

/-- A node a path comes to: a part of the document, or something inherited. -/
def IsNode (node : Json) : Prop := node.isDocument ∨ ∃ member, node = inherited member

theorem isNode_prototypeMember {head : String} {c : Json} (found : prototypeMember head = some c) :
    c.IsNode := by
  unfold prototypeMember at found
  split at found
  · exact .inr ⟨_, (Option.some.inj found).symm⟩
  · split at found
    · exact .inr ⟨_, (Option.some.inj found).symm⟩
    · cases found

theorem IsNode.child {node c : Json} {head : String} (of : node.IsNode) (found : node.child head = some c) :
    c.IsNode := by
  cases node with
  | arr items =>
    obtain ⟨i, -, there⟩ := Option.bind_eq_some_iff.mp found
    refine .inl (isDocument_values (of.resolve_right nofun) ?_)
    exact List.mem_of_getElem? there
  | obj entries =>
    rcases Option.or_eq_some_iff.mp found with own | ⟨-, other⟩
    · have document := of.resolve_right nofun
      obtain ⟨before, after, rfl, -⟩ := List.lookup_eq_some_iff.mp own
      refine .inl (isDocumentEntries_iff.mp document (head, c) ?_)
      exact List.mem_append_right before List.mem_cons_self
    · exact isNode_prototypeMember other
  | inherited member =>
    cases member with
    | function name => cases found
    | objectPrototype =>
      have found : (if head = "__proto__" then some null else prototypeMember head) = some c := found
      split at found
      · obtain rfl := Option.some.inj found
        exact .inl rfl
      · exact isNode_prototypeMember found
  | _ => cases found

theorem isReading_getSegments {segs : List String} {node v : Json} (of : node.IsNode)
    (read : getSegments segs node = some v) : v.isReading := by
  induction segs generalizing node v with
  | nil =>
    obtain rfl := Option.some.inj read
    rcases of with document | ⟨member, rfl⟩
    · exact isReading_of_isDocument document
    · rfl
  | cons head rest ih =>
    rw [getSegments] at read
    split at read
    · cases read
    split at read
    · obtain rfl := Option.some.inj read
      refine isReadingItems_iff.mpr fun item member => ?_
      obtain ⟨c, there, reads⟩ := List.mem_filterMap.mp member
      refine ih ?_ reads
      rcases of with document | ⟨inherits, rfl⟩
      · exact .inl (isDocument_values document there)
      · cases there
    · obtain ⟨c, found, reads⟩ := Option.bind_eq_some_iff.mp read
      exact ih (of.child found) reads

theorem isDocument_setChild {node c : Json} (document : node.isDocument) (part : c.isDocument) (i : Nat) :
    (node.setChild i c).isDocument := by
  cases node with
  | arr items =>
    refine isDocumentItems_iff.mpr fun item member => ?_
    rcases List.mem_or_eq_of_mem_set member with old | rfl
    · exact isDocumentItems_iff.mp document item old
    · exact part
  | obj entries =>
    refine isDocumentEntries_iff.mpr fun entry member => ?_
    have among : entry.2 ∈ (entries.map Prod.snd).set i c := by
      rw [← map_snd_modify]
      exact List.mem_map_of_mem member
    rcases List.mem_or_eq_of_mem_set among with old | same
    · exact @isDocument_values (obj entries) _ document old
    · exact same ▸ part
  | _ => exact document

theorem isDocument_setAt {node w : Json} (document : node.isDocument) (part : w.isDocument)
    (pos : List Nat) : (node.setAt w pos).isDocument := by
  induction pos generalizing node with
  | nil => exact part
  | cons i pos ih =>
    rw [setAt]
    split
    · rename_i c found
      exact isDocument_setChild document (ih (isDocument_values document (List.mem_of_getElem? found))) i
    · exact document

end Json

/-! ## Digests -/

/-- What `hashValue` makes of a text. -/
def digestText (rt : Runtime) (maskingKey : Bytes) (raw : String) : String :=
  "hmac256:" ++ rt.hmacSha256Hex maskingKey raw

theorem toList_digestText (rt : Runtime) (maskingKey : Bytes) (raw : String) :
    (digestText rt maskingKey raw).toList =
      "hmac256:".toList ++ (rt.hmacSha256Hex maskingKey raw).toList := String.toList_append

/-- What is assumed of the platform where values are hashed: digests tell texts
apart, they are of at least 64 hexadecimal digits in lower case, and
`toLowerCase` leaves a text of ASCII without upper case. -/
structure Runtime.Digests (rt : Runtime) (maskingKey : Bytes) : Prop where
  injective : Function.Injective (rt.hmacSha256Hex maskingKey)
  long : ∀ raw, 64 ≤ (rt.hmacSha256Hex maskingKey raw).toList.length
  hex : ∀ raw, ∀ c ∈ (rt.hmacSha256Hex maskingKey raw).toList, isDigit c ∨ ('a' ≤ c ∧ c ≤ 'f')
  lower : ∀ text : String, (∀ c ∈ text.toList, c.toNat < 128 ∧ ¬ isUpperAscii c) →
    rt.toLowerCase text = text

/-- The text `hashValue` digests. -/
def rawText : Json → Option String
  | .str s => some s
  | value => value.stringify

theorem hashValue_of_rawText {rt : Runtime} {maskingKey : Bytes} {value : Json} {raw : String}
    (text : rawText value = some raw) :
    hashValue rt maskingKey value = .ok (digestText rt maskingKey raw) := by
  unfold hashValue
  cases value with
  | str s =>
    obtain rfl := Option.some.inj text
    rfl
  | _ =>
    simp only [rawText] at text
    simp only [text]
    rfl

theorem hashValue_of_no_rawText {rt : Runtime} {maskingKey : Bytes} {value : Json}
    (textless : rawText value = none) :
    ∃ e, hashValue rt maskingKey value = .error e := by
  cases value with
  | inherited member =>
    cases member with
    | function name => exact ⟨_, rfl⟩
    | objectPrototype => cases textless
  | _ => cases textless

/-! ### A digest passes everything as it is -/

theorem panLengths_le {limit consumed n : Nat} {text : List Char}
    (listed : n ∈ panLengths limit consumed text) : n ≤ consumed + 2 * limit := by
  induction limit generalizing consumed text with
  | zero => cases listed
  | succ limit ih =>
    cases text with
    | nil => cases listed
    | cons a rest =>
      unfold panLengths at listed
      split at listed
      · rcases List.mem_cons.mp listed with rfl | later
        · omega
        · have bound := ih later
          omega
      · split at listed
        · cases rest with
          | nil => cases listed
          | cons b rest =>
            simp only at listed
            split at listed
            · rcases List.mem_cons.mp listed with rfl | later
              · omega
              · have bound := ih later
                omega
            · cases listed
        · cases listed

theorem matchPan_le {prev : Option Char} {text : List Char} {n : Nat}
    (found : matchPan prev text = some n) : n ≤ 37 := by
  cases text with
  | nil => cases found
  | cons a rest =>
    unfold matchPan at found
    simp only at found
    split at found
    · exact panLengths_le
        (List.mem_of_mem_drop (List.mem_reverse.mp (List.mem_of_find?_eq_some found)))
    · cases found

/-- Word characters are too many for a card number, or begin with none. -/
theorem matchPan_word {prev : Option Char} {text : List Char} (word : ∀ c ∈ text, isWordChar c)
    (wide : prev.any isWordChar ∨ 37 < text.length) : matchPan prev text = none := by
  by_contra found
  obtain ⟨n, found⟩ := Option.ne_none_iff_exists'.mp found
  obtain ⟨run, after, first, last, rfl, rfl, starts, -, ends, digit, before, behind⟩ :=
    matchPan_ends found
  have edge {c : Char} (member : c ∈ run ++ after) : (some c).any isWordChar = true := word c member
  rcases wide with inside | long
  · rw [starts, wordBoundary, inside,
      edge (List.mem_append_left after (List.mem_of_mem_head? starts))] at before
    cases before
  · have bound := matchPan_le found
    cases after with
    | nil =>
      rw [List.append_nil] at long
      omega
    | cons c after =>
      rw [ends, List.head?_cons, wordBoundary,
        edge (List.mem_append_left _ (List.mem_of_mem_getLast? ends)),
        edge (List.mem_append_right run List.mem_cons_self)] at behind
      cases behind

theorem replaceAll_word {sub : List Char → List Char} {prev : Option Char} {text : List Char}
    (word : ∀ c ∈ text, isWordChar c) (wide : prev.any isWordChar ∨ 37 < text.length) :
    replaceAll matchPan sub prev 0 text = text := by
  induction text generalizing prev with
  | nil => rfl
  | cons c text ih =>
    rw [replaceAll, matchPan_word word wide]
    exact congrArg (c :: ·) (ih (fun d member => word d (List.mem_cons_of_mem c member))
      (.inl (word c List.mem_cons_self)))

theorem matchSsn_dash {prev : Option Char} {text : List Char} {n : Nat}
    (found : matchSsn prev text = some n) : '-' ∈ text := by
  unfold matchSsn at found
  split at found
  · split at found
    · rename_i shape
      simp only [Bool.and_eq_true, beq_iff_eq] at shape
      simp [shape.1.1.2]
    · cases found
  · cases found

theorem replaceAll_dashless {sub : List Char → List Char} {prev : Option Char} {text : List Char}
    (dashless : '-' ∉ text) : replaceAll matchSsn sub prev 0 text = text := by
  induction text generalizing prev with
  | nil => rfl
  | cons c text ih =>
    have unmatched : matchSsn prev (c :: text) = none := by
      by_contra found
      obtain ⟨n, found⟩ := Option.ne_none_iff_exists'.mp found
      exact dashless (matchSsn_dash found)
    rw [replaceAll, unmatched]
    exact congrArg (c :: ·) (ih fun member => dashless (List.mem_cons_of_mem c member))

section Passing

variable {rt : Runtime} {maskingKey : Bytes} (digests : rt.Digests maskingKey) (raw : String)
include digests

theorem Runtime.Digests.code {c : Char} (member : c ∈ (rt.hmacSha256Hex maskingKey raw).toList) :
    (48 ≤ c.toNat ∧ c.toNat ≤ 57) ∨ (97 ≤ c.toNat ∧ c.toNat ≤ 102) := by
  rcases digests.hex raw c member with digit | letter
  · simp only [isDigit, Bool.and_eq_true, decide_eq_true_eq] at digit
    exact .inl digit
  · exact .inr letter

theorem Runtime.Digests.word {c : Char} (member : c ∈ (rt.hmacSha256Hex maskingKey raw).toList) :
    isWordChar c := by
  rcases digests.hex raw c member with digit | letter
  · simp [isWordChar, digit]
  · have lower : isLowerAscii c := by
      rw [isLowerAscii, Bool.and_eq_true, decide_eq_true_eq, decide_eq_true_eq]
      exact ⟨letter.1, Char.le_trans letter.2 (by decide)⟩
    simp [isWordChar, lower]

/-- The denylist finds nothing in a digest. -/
theorem hardDenyValue_digest :
    hardDenyValue (digestText rt maskingKey raw) = digestText rt maskingKey raw := by
  have dashless : '-' ∉ (digestText rt maskingKey raw).toList := by
    rw [toList_digestText, List.mem_append, not_or]
    refine ⟨by decide, fun member => ?_⟩
    have code : (45 ≥ 48 ∧ _) ∨ (45 ≥ 97 ∧ _) := digests.code raw member
    omega
  have label (text : List Char) : replaceAll matchPan redactPan none 0 ("hmac256:".toList ++ text) =
      "hmac256:".toList ++ replaceAll matchPan redactPan (some ':') 0 text := rfl
  have hex := @replaceAll_word redactPan (some ':') _ (fun _ => digests.word raw)
    (.inr (by have long := digests.long raw; omega))
  show String.ofList (replaceAll matchPan redactPan none 0
    (replaceAll matchSsn (fun _ => redacted.toList) none 0 (digestText rt maskingKey raw).toList)) = _
  rw [replaceAll_dashless dashless, toList_digestText, label, hex, ← toList_digestText,
    String.ofList_toList]

theorem trim_digest : trim (digestText rt maskingKey raw) = digestText rt maskingKey raw := by
  have text := toList_digestText rt maskingKey raw
  have spaceless : "hmac256:".toList.all (!isSpace ·) = true := rfl
  have trimmed : trim (String.ofList (digestText rt maskingKey raw).toList) =
      String.ofList (digestText rt maskingKey raw).toList := by
    refine trim_eq_self ?_ ?_
    · rw [text]
      intro c head
      obtain rfl := Option.some.inj head
      decide
    · intro c last
      rw [text] at last
      rcases List.mem_append.mp (List.mem_of_mem_getLast? last) with member | member
      · simpa using List.all_eq_true.mp spaceless c member
      · have code := digests.code raw member
        simp only [isSpace, Bool.or_eq_false_iff, Bool.and_eq_false_iff, decide_eq_false_iff_not,
          beq_eq_false_iff_ne]
        omega
  rwa [String.ofList_toList] at trimmed

theorem toLowerCase_digest :
    rt.toLowerCase (digestText rt maskingKey raw) = digestText rt maskingKey raw := by
  have label : ("hmac256:".toList.all fun c => c.toNat < 128 && !isUpperAscii c) = true := rfl
  refine digests.lower _ fun c member => ?_
  rw [toList_digestText] at member
  rcases List.mem_append.mp member with member | member
  · simpa using List.all_eq_true.mp label c member
  · have code := digests.code raw member
    refine ⟨by omega, fun upper => ?_⟩
    simp only [isUpperAscii, Bool.and_eq_true, decide_eq_true_eq] at upper
    have bounds : 65 ≤ c.toNat ∧ c.toNat ≤ 90 := upper
    omega

theorem digestText_injective : Function.Injective (digestText rt maskingKey) :=
  fun _ _ same => digests.injective ((String.append_right_inj _).mp same)

/-- Transforms take a digest to a digest, of a text that tells the first text. -/
theorem transforms_digest (names : List TransformName) : ∃ again : String → String,
    Function.Injective again ∧ ∀ raw, names.foldlM (applyTransform rt maskingKey)
      (.str (digestText rt maskingKey raw)) = .ok (.str (digestText rt maskingKey (again raw))) := by
  induction names with
  | nil => exact ⟨id, Function.injective_id, fun raw => rfl⟩
  | cons name names ih =>
    obtain ⟨again, tells, rest⟩ := ih
    cases name with
    | hash =>
      refine ⟨again ∘ digestText rt maskingKey, tells.comp (digestText_injective digests), fun raw => ?_⟩
      exact rest _
    | trim =>
      refine ⟨again, tells, fun raw => ?_⟩
      rw [List.foldlM_cons]
      show names.foldlM _ (Json.str (trim (digestText rt maskingKey raw))) = _
      rw [trim_digest digests]
      exact rest raw
    | lowercase =>
      refine ⟨again, tells, fun raw => ?_⟩
      rw [List.foldlM_cons]
      show names.foldlM _ (Json.str (rt.toLowerCase (digestText rt maskingKey raw))) = _
      rw [toLowerCase_digest digests]
      exact rest raw

end Passing

/-! ### What a hashed reference tells -/

mutual

theorem isReading_applyText (f : String → String) {v : Json} (reading : v.isReading) :
    (applyText f v).isReading := by
  cases v with
  | arr items => exact isReadingItems_applyTextItems f reading
  | _ => exact reading

theorem isReadingItems_applyTextItems (f : String → String) {items : List Json}
    (readings : Json.isReadingItems items) : Json.isReadingItems (applyTextItems f items) := by
  cases items with
  | nil => rfl
  | cons item items =>
    rw [Json.isReadingItems, Bool.and_eq_true] at readings
    rw [applyTextItems, Json.isReadingItems, Bool.and_eq_true]
    exact ⟨isReading_applyText f readings.1, isReadingItems_applyTextItems f readings.2⟩

end

theorem isReading_textImage (rt : Runtime) (names : List TransformName) {v : Json}
    (reading : v.isReading) : (textImage rt names v).isReading := by
  induction names generalizing v with
  | nil => exact reading
  | cons name names ih =>
    cases name with
    | trim | lowercase => exact ih (isReading_applyText _ reading)
    | hash => exact ih reading

/-- What is digested tells the shape of a value that is no string. -/
theorem shape_of_rawText {v v' : Json} {raw : String} (reading : v.isReading) (reading' : v'.isReading)
    (textless : v.shape ≠ .str "") (textless' : v'.shape ≠ .str "") (text : rawText v = some raw)
    (text' : rawText v' = some raw) : v.shape = v'.shape := by
  have written {u : Json} (bare : u.shape ≠ .str "") (digested : rawText u = some raw) :
      u.stringify = some raw ∧ u.NotFunction := by
    have spelled : u.stringify = some raw := by
      cases u with
      | str s => exact absurd rfl bare
      | _ => exact digested
    refine ⟨spelled, fun name same => ?_⟩
    rw [same] at spelled
    cases spelled
  obtain ⟨spelled, plain⟩ := written textless text
  obtain ⟨spelled', plain'⟩ := written textless' text'
  rw [← Json.shape_seen v, ← Json.shape_seen v',
    Json.seen_of_stringify reading reading' plain plain' (spelled.trans spelled'.symm)]

/-- A reference with `hash` is read as nothing, or as a digest that tells the text
of what its path finds. -/
theorem resolve_hashed {rt : Runtime} {maskingKey : Bytes} (digests : rt.Digests maskingKey)
    {ref : EnrichableFieldRef} (hashed : .hash ∈ refTransforms ref) :
    ∃ (names : List TransformName) (again : String → String), Function.Injective again ∧
      ∀ payload d, resolve rt maskingKey payload ref = .ok d →
        (getAtPath payload (refSource ref) = none ∧ d = none) ∨
          ∃ value raw, getAtPath payload (refSource ref) = some value ∧
            rawText (textImage rt names value) = some raw ∧
            d = some (.str (digestText rt maskingKey (again raw))) := by
  obtain ⟨names, rest, split, fresh⟩ := List.eq_append_cons_of_mem hashed
  obtain ⟨again, tells, passes⟩ := transforms_digest digests rest
  have fold (value : Json) : (refTransforms ref).foldlM (applyTransform rt maskingKey) value =
      (hashValue rt maskingKey (textImage rt names value)).bind fun text =>
        rest.foldlM (applyTransform rt maskingKey) (.str text) := by
    rw [split, List.foldlM_append, foldlM_clear rt maskingKey fresh]
    show (List.foldlM _ _ _ : Except RelayError Json) = _
    rw [List.foldlM_cons]
    cases digested : hashValue rt maskingKey (textImage rt names value) <;>
      simp only [applyTransform, digested] <;> rfl
  refine ⟨names, again, tells, fun payload d read => ?_⟩
  unfold resolve at read
  cases found : getAtPath payload (refSource ref) with
  | none =>
    rw [found] at read
    exact .inl ⟨rfl, (Except.ok.inj read).symm⟩
  | some value =>
    refine .inr ⟨value, ?_⟩
    rw [found] at read
    simp only [fold] at read
    cases text : rawText (textImage rt names value) with
    | none =>
      obtain ⟨e, refused⟩ := @hashValue_of_no_rawText rt maskingKey _ text
      rw [refused] at read
      cases read
    | some raw =>
      rw [hashValue_of_rawText text] at read
      have digested := (congrArg (Except.map some) (passes raw)).symm.trans read
      exact ⟨raw, rfl, rfl, (Except.ok.inj digested).symm⟩

/-! ### A platform with digests -/

/-- A text spelled out in digits, with zeros before it. -/
def spelledDigits (text : String) : List Char :=
  List.replicate 64 '0' ++ text.toList.flatMap fun c => Calendar.fixed 7 c.toNat

/-- A platform for runs on fixed inputs that knows one digest and spells every other
text out in digits. -/
def Runtime.digesting (text digest : String) : Runtime :=
  { Runtime.knowing [] with
    hmacSha256Hex _ raw := if raw = text then digest else String.ofList (spelledDigits raw) }

theorem spelledDigits_injective : Function.Injective spelledDigits := by
  intro text text' same
  have codes := List.append_cancel_left same
  refine String.toList_injective ?_
  revert codes
  generalize text.toList = chars
  generalize text'.toList = chars'
  intro codes
  induction chars generalizing chars' with
  | nil =>
    cases chars' with
    | nil => rfl
    | cons c' chars' =>
      have lengths := congrArg List.length codes
      simp at lengths
      omega
  | cons c chars ih =>
    cases chars' with
    | nil =>
      have lengths := congrArg List.length codes
      simp at lengths
    | cons c' chars' =>
      rw [List.flatMap_cons, List.flatMap_cons] at codes
      obtain ⟨first, rest⟩ := List.append_inj codes (by rw [Calendar.length_fixed, Calendar.length_fixed])
      have small (d : Char) : d.toNat < 10 ^ 7 := by
        have valid := d.valid
        have bound : d.toNat < 0x110000 := by
          rcases valid with low | high
          · exact Nat.lt_trans low (by decide)
          · exact high.2
        omega
      rw [Char.toNat_inj.mp (Calendar.fixed_injective (small c) (small c') first), ih chars' rest]

/-- A digest of hexadecimal digits that does not begin with a zero is apart from
every text spelled out. -/
theorem Runtime.digests_digesting {text digest : String} (maskingKey : Bytes)
    (long : 64 ≤ digest.toList.length) (starts : digest.toList.head? ≠ some '0')
    (hex : (digest.toList.all fun c => isDigit c || ('a' ≤ c && c ≤ 'f')) = true) :
    (Runtime.digesting text digest).Digests maskingKey where
  injective := by
    have apart (raw : String) : String.ofList (spelledDigits raw) ≠ digest := by
      intro same
      rw [← same, String.toList_ofList] at starts
      exact starts rfl
    intro raw raw' same
    have same : (if raw = text then digest else String.ofList (spelledDigits raw)) =
        if raw' = text then digest else String.ofList (spelledDigits raw') := same
    by_cases known : raw = text <;> by_cases known' : raw' = text
    · exact known.trans known'.symm
    · rw [if_pos known, if_neg known'] at same
      exact absurd same.symm (apart raw')
    · rw [if_neg known, if_pos known'] at same
      exact absurd same (apart raw)
    · rw [if_neg known, if_neg known'] at same
      exact spelledDigits_injective (String.ofList_injective same)
  long raw := by
    show 64 ≤ (if raw = text then digest else String.ofList (spelledDigits raw)).toList.length
    split
    · exact long
    · rw [String.toList_ofList, spelledDigits, List.length_append, List.length_replicate]
      omega
  hex raw := by
    show ∀ c ∈ (if raw = text then digest else String.ofList (spelledDigits raw)).toList, _
    split
    · intro c member
      simpa using List.all_eq_true.mp hex c member
    · intro c member
      rw [String.toList_ofList] at member
      refine .inl ?_
      rcases List.mem_append.mp member with zero | digit
      · rw [List.eq_of_mem_replicate zero]
        rfl
      · obtain ⟨d, -, there⟩ := List.mem_flatMap.mp digit
        exact Calendar.isDigit_of_mem_fixed there
  lower raw plain := by
    show String.ofList (raw.toList.map fun c =>
      if isUpperAscii c then Char.ofNat (c.toNat + 32) else c) = raw
    have same : (raw.toList.map fun c => if isUpperAscii c then Char.ofNat (c.toNat + 32) else c) =
        raw.toList := by
      conv_rhs => rw [← List.map_id raw.toList]
      exact List.map_congr_left fun c member => if_neg (plain c member).2
    rw [same, String.ofList_toList]

end EndCloseRelay
