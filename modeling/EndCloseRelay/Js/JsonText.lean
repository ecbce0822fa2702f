import EndCloseRelay.Js.Json

/-!
# JSON text, read back

What `JSON.parse` makes of a text that `JSON.stringify` wrote: no white space
between tokens, and every number in the rendering of the double it denotes.  A
document read back from its own text is the same document.
-/

namespace EndCloseRelay.Json

open Js

/-! ## The reader -/

/-- The character of a one-letter escape. -/
def unescape (c : Char) : Option Char :=
  [('"', '"'), ('\\', '\\'), ('/', '/'), ('n', '\n'), ('r', '\r'), ('t', '\t'),
    ('b', Char.ofNat 8), ('f', Char.ofNat 12)].lookup c

/-- The rest of a string literal, after its opening quote. -/
def readString : List Char → Option (List Char × List Char)
  | [] => none
  | c :: rest =>
    if c = '"' then some ([], rest)
    else if c = '\\' then
      match rest with
      | 'u' :: h :: i :: j :: k :: rest => do
        let code ← radixValue 16 [h, i, j, k]
        let (text, rest) ← readString rest
        return (Char.ofNat code :: text, rest)
      | e :: rest => do
        let c ← unescape e
        let (text, rest) ← readString rest
        return (c :: text, rest)
      | [] => none
    else do
      let (text, rest) ← readString rest
      return (c :: text, rest)

/-- A character a number can hold. -/
def isNumberChar (c : Char) : Bool := isDigit c || c == '-' || c == '+' || c == '.' || c == 'e'

/-- A number, as far as its characters go. -/
def readNumber (text : List Char) : Option (Json × List Char) :=
  let token := text.takeWhile isNumberChar
  if valid : isRendering (String.ofList token).toList then
    some (num ⟨String.ofList token, valid⟩, text.dropWhile isNumberChar)
  else none

/-- `item (',' item)* close`. -/
def readItems {α : Type} (item : List Char → Option (α × List Char)) (close : Char) :
    Nat → List Char → Option (List α × List Char)
  | 0, _ => none
  | count + 1, text => do
    let (first, rest) ← item text
    match rest with
    | c :: rest =>
      if c = close then return ([first], rest)
      else if c = ',' then
        let (items, rest) ← readItems item close count rest
        return (first :: items, rest)
      else none
    | [] => none

/-- The rest of a list, after its opening bracket. -/
def readList {α : Type} (item : List Char → Option (α × List Char)) (close : Char) :
    List Char → Option (List α × List Char)
  | [] => none
  | c :: rest =>
    if c = close then some ([], rest) else readItems item close (rest.length + 1) (c :: rest)

/-- One member of an object. -/
def readMember (value : List Char → Option (Json × List Char)) :
    List Char → Option ((String × Json) × List Char)
  | '"' :: text => do
    match ← readString text with
    | (key, ':' :: rest) =>
      let (v, rest) ← value rest
      return ((String.ofList key, v), rest)
    | _ => none
  | _ => none

/-- A word that stands for a value. -/
def readWord (word : String) (v : Json) (text : List Char) : Option (Json × List Char) :=
  if word.toList.isPrefixOf text then some (v, text.drop word.length) else none

/-- One value; a value nests in fewer levels than its text has characters. -/
def readValue : Nat → List Char → Option (Json × List Char)
  | 0, _ => none
  | _, [] => none
  | depth + 1, c :: rest =>
    if c = '"' then do
      let (text, rest) ← readString rest
      return (str (String.ofList text), rest)
    else if c = '[' then do
      let (items, rest) ← readList (readValue depth) ']' rest
      return (arr items, rest)
    else if c = '\x7b' then do
      let (entries, rest) ← readList (readMember (readValue depth)) '\x7d' rest
      return (obj entries, rest)
    else if c = 'n' then readWord "null" null (c :: rest)
    else if c = 't' then readWord "true" (bool true) (c :: rest)
    else if c = 'f' then readWord "false" (bool false) (c :: rest)
    else readNumber (c :: rest)

/-- `JSON.parse(text)`. -/
def read (text : String) : Option Json :=
  match readValue text.length text.toList with
  | some (v, []) => some v
  | _ => none

/-! ## Strings -/

theorem readString_quoteChar (c : Char) (text : List Char) :
    readString ((quoteChar c).toList ++ text) = (readString text).map fun read => (c :: read.1, read.2) := by
  have escaped : ∀ e : Char, e ≠ 'u' → unescape e = some c →
      readString ('\\' :: e :: text) = (readString text).map fun read => (c :: read.1, read.2) := by
    intro e notCode escape
    rw [readString.eq_def]
    simp only [Char.reduceEq, if_false, if_true]
    split
    · rename_i same
      exact absurd (List.cons.inj same).1 notCode
    · rename_i same
      obtain ⟨rfl, rfl⟩ := List.cons.inj same
      rw [escape]
      cases readString text <;> rfl
    · rename_i same
      cases same
  unfold quoteChar
  split
  · rename_i same
    subst same
    exact escaped '"' (by decide) rfl
  split
  · rename_i same
    subst same
    exact escaped '\\' (by decide) rfl
  split
  · rename_i same
    subst same
    exact escaped 'n' (by decide) rfl
  split
  · rename_i same
    subst same
    exact escaped 'r' (by decide) rfl
  split
  · rename_i same
    subst same
    exact escaped 't' (by decide) rfl
  split
  · rename_i same
    refine escaped 'b' (by decide) ?_
    rw [← Char.ofNat_toNat c, same]
    rfl
  split
  · rename_i same
    refine escaped 'f' (by decide) ?_
    rw [← Char.ofNat_toNat c, same]
    rfl
  split
  · rename_i control
    have code : ∀ n < 32, radixValue 16 ['0', '0', (if n < 16 then '0' else '1'), Nat.digitChar (n % 16)] =
        some n := by decide
    have spelled : ("\\u00" ++ (if c.toNat < 16 then "0" else "1") ++
        String.ofList [Nat.digitChar (c.toNat % 16)]).toList =
        ['\\', 'u', '0', '0', (if c.toNat < 16 then '0' else '1'), Nat.digitChar (c.toNat % 16)] := by
      split <;> simp
    rw [spelled, List.cons_append, readString.eq_def]
    simp only [List.cons_append, List.nil_append, Char.reduceEq, if_false, if_true, code _ control]
    cases readString text with
    | none => rfl
    | some read =>
      show some (Char.ofNat c.toNat :: read.1, read.2) = _
      rw [Char.ofNat_toNat]
      rfl
  · rename_i quote backslash _ _ _ _ _ _
    rw [String.toList_ofList, List.singleton_append, readString.eq_def]
    simp only [quote, backslash, if_false]
    cases readString text <;> rfl

theorem readString_quote (cs text : List Char) :
    readString ((String.join (cs.map quoteChar)).toList ++ '"' :: text) = some (cs, text) := by
  induction cs with
  | nil =>
    rw [List.map_nil, String.join_nil, String.toList_empty, List.nil_append, readString.eq_def]
    rfl
  | cons c cs ih =>
    rw [List.map_cons, String.join_cons, String.toList_append, List.append_assoc,
      readString_quoteChar, ih]
    rfl

/-! ## Numbers -/

theorem numberChar_of_digit {c : Char} (digit : isDigit c) : isNumberChar c := by
  unfold isNumberChar
  rw [digit]
  rfl

/-- What `dropDigits` leaves follows a run of digits. -/
theorem dropDigits_eq {text rest : List Char} (drops : dropDigits text = some rest) :
    ∃ digits, text = digits ++ rest ∧ digits ≠ [] ∧ ∀ c ∈ digits, isDigit c := by
  simp only [dropDigits] at drops
  split at drops
  rename_i shorter
  obtain rfl := Option.some.inj drops
  refine ⟨text.takeWhile isDigit, (List.takeWhile_append_dropWhile).symm, ?_, ?_⟩
  · intro none_
    have whole := List.takeWhile_append_dropWhile (p := isDigit) (l := text)
    rw [none_, List.nil_append] at whole
    rw [whole] at shorter
    exact absurd shorter (Nat.lt_irrefl _)
  · exact fun c member => List.mem_takeWhile_imp member
  · cases drops

theorem numberChars_of_dropDigits {text rest : List Char} (drops : dropDigits text = some rest)
    (after : ∀ c ∈ rest, isNumberChar c) : ∀ c ∈ text, isNumberChar c := by
  obtain ⟨digits, rfl, -, run⟩ := dropDigits_eq drops
  intro c member
  rcases List.mem_append.mp member with inside | behind
  · exact numberChar_of_digit (run c inside)
  · exact after c behind

/-- The part of a rendering after its sign holds only characters of numbers. -/
theorem unsigned_chars {unsigned rest : List Char} (drops : dropDigits unsigned = some rest)
    (valid : (match (match rest with
        | '.' :: fraction => dropDigits fraction
        | _ => some rest) with
      | none => false
      | some [] => true
      | some ('e' :: sign :: exponent) =>
        (sign == '+' || sign == '-') && dropDigits exponent == some []
      | some _ => false) = true) :
    ∀ c ∈ unsigned, isNumberChar c := by
  refine numberChars_of_dropDigits drops ?_
  have tail : ∀ {after : List Char}, (match some after with
      | none => false
      | some [] => true
      | some ('e' :: sign :: exponent) =>
        (sign == '+' || sign == '-') && dropDigits exponent == some []
      | some _ => false) = true → ∀ c ∈ after, isNumberChar c := by
    intro after valid
    split at valid
    · cases valid
    · rename_i empty
      obtain rfl := Option.some.inj empty
      exact fun c member => absurd member List.not_mem_nil
    · rename_i sign exponent same
      obtain rfl := Option.some.inj same
      rw [Bool.and_eq_true, Bool.or_eq_true, beq_iff_eq, beq_iff_eq, beq_iff_eq] at valid
      intro c member
      rcases List.mem_cons.mp member with rfl | member
      · decide
      · rcases List.mem_cons.mp member with rfl | member
        · rcases valid.1 with rfl | rfl
          · decide
          · decide
        · exact numberChars_of_dropDigits valid.2 (fun c member => absurd member List.not_mem_nil) c member
    · cases valid
  cases rest with
  | nil => exact fun c member => absurd member List.not_mem_nil
  | cons point fraction =>
    by_cases isPoint : point = '.'
    · subst isPoint
      simp only at valid
      cases drops' : dropDigits fraction with
      | none =>
        rw [drops'] at valid
        cases valid
      | some after =>
        rw [drops'] at valid
        intro c member
        rcases List.mem_cons.mp member with rfl | member
        · decide
        · exact numberChars_of_dropDigits drops' (tail valid) c member
    · have plain : (match point :: fraction with
          | '.' :: fraction => dropDigits fraction
          | _ => some (point :: fraction)) = some (point :: fraction) := by
        split
        · rename_i same
          exact absurd (List.cons.inj same).1 isPoint
        · rfl
      rw [plain] at valid
      exact tail valid

/-- A rendering is a run of characters of numbers. -/
theorem rendering_chars {text : List Char} (valid : isRendering text) :
    ∃ c rest, text = c :: rest ∧ ∀ c ∈ text, isNumberChar c := by
  unfold isRendering at valid
  extract_lets unsigned at valid
  have rendered : ∀ c ∈ unsigned, isNumberChar c := by
    split at valid
    · cases valid
    · rename_i drops
      exact unsigned_chars drops valid
  have filled : unsigned ≠ [] := by
    intro empty
    rw [empty] at valid
    cases valid
  cases text with
  | nil => exact absurd rfl filled
  | cons c rest =>
    refine ⟨c, rest, rfl, ?_⟩
    simp only [unsigned] at rendered
    split at rendered
    · rename_i same
      obtain ⟨rfl, rfl⟩ := List.cons.inj same
      intro c member
      rcases List.mem_cons.mp member with rfl | member
      · decide
      · exact rendered c member
    · exact rendered

/-- What follows a value in a text does not go on like a number. -/
def Ends (rest : List Char) : Prop := ∀ c, rest.head? = some c → isNumberChar c = false

theorem readNumber_text (n : Number) {rest : List Char} (ends : Ends rest) :
    readNumber (n.text.toList ++ rest) = some (num n, rest) := by
  obtain ⟨-, -, -, chars⟩ := rendering_chars n.valid
  have token : (n.text.toList ++ rest).takeWhile isNumberChar = n.text.toList := by
    rw [List.takeWhile_append_of_pos chars]
    cases rest with
    | nil => rw [List.takeWhile_nil, List.append_nil]
    | cons c rest =>
      rw [List.takeWhile_cons_of_neg (by rw [ends c rfl]; decide), List.append_nil]
  have after : (n.text.toList ++ rest).dropWhile isNumberChar = rest := by
    rw [List.dropWhile_append_of_pos chars]
    cases rest with
    | nil => rfl
    | cons c rest => rw [List.dropWhile_cons_of_neg (by rw [ends c rfl]; decide)]
  unfold readNumber
  simp only [token, after, String.ofList_toList, n.valid, dite_true]

/-! ## Lists -/

theorem join_cons_cons (sep first second : String) (parts : List String) :
    join sep (first :: second :: parts) = first ++ sep ++ join sep (second :: parts) := rfl

theorem length_le_join {sep part : String} {parts : List String} (member : part ∈ parts) :
    part.length ≤ (join sep parts).length := by
  induction parts with
  | nil => cases member
  | cons first parts ih =>
    cases parts with
    | nil =>
      obtain rfl := List.mem_singleton.mp member
      exact Nat.le_refl _
    | cons second parts =>
      rw [join_cons_cons, String.length_append, String.length_append]
      rcases List.mem_cons.mp member with rfl | behind
      · omega
      · have rest := ih behind
        omega

theorem count_le_join (parts : List String) : parts.length ≤ (join "," parts).length + 1 := by
  induction parts with
  | nil => exact Nat.zero_le _
  | cons first parts ih =>
    cases parts with
    | nil => exact Nat.le_add_left _ _
    | cons second parts =>
      rw [join_cons_cons, String.length_append, String.length_append, List.length_cons]
      have comma : (",").length = 1 := rfl
      omega

theorem ends_cons {c : Char} {rest : List Char} (other : isNumberChar c = false) :
    Ends (c :: rest) := by
  intro c' same
  obtain rfl := Option.some.inj same
  exact other

theorem ends_nil : Ends [] := fun _ none_ => by cases none_

/-- A list of items, each of which reads back from its own text, reads back. -/
theorem readItems_join {α : Type} (item : List Char → Option (α × List Char)) {close : Char}
    (closes : isNumberChar close = false) (other : close ≠ ',') (items : List (α × String))
    (filled : items ≠ []) (reads : ∀ p ∈ items, ∀ rest, Ends rest →
      item (p.2.toList ++ rest) = some (p.1, rest))
    {count : Nat} (enough : items.length ≤ count) (rest : List Char) :
    readItems item close count ((join "," (items.map Prod.snd)).toList ++ close :: rest) =
      some (items.map Prod.fst, rest) := by
  induction items generalizing count with
  | nil => exact absurd rfl filled
  | cons first items ih =>
    cases count with
    | zero => exact absurd enough (Nat.not_succ_le_zero _)
    | succ count =>
      have head := reads first List.mem_cons_self
      cases items with
      | nil =>
        show readItems item close (count + 1) (first.2.toList ++ close :: rest) = _
        rw [readItems, head _ (ends_cons closes)]
        simp
      | cons second items =>
        have tail := ih (List.cons_ne_nil _ _)
          (fun p member => reads p (List.mem_cons_of_mem _ member)) (Nat.le_of_succ_le_succ enough)
        have spelled : (join "," ((first :: second :: items).map Prod.snd)).toList ++ close :: rest =
            first.2.toList ++ ',' ::
              ((join "," ((second :: items).map Prod.snd)).toList ++ close :: rest) := by
          rw [List.map_cons, List.map_cons, join_cons_cons, String.toList_append, String.toList_append,
            List.append_assoc, List.append_assoc]
          rfl
        rw [spelled, readItems, head _ (ends_cons (by decide))]
        simp only [Option.bind_eq_bind, Option.bind_some, if_neg (Ne.symm other), if_true]
        rw [tail]
        rfl

theorem readList_join {α : Type} (item : List Char → Option (α × List Char)) {close : Char}
    (closes : isNumberChar close = false) (other : close ≠ ',') (items : List (α × String))
    (opens : ∀ p ∈ items, ∃ c rest, p.2.toList = c :: rest ∧ c ≠ close)
    (reads : ∀ p ∈ items, ∀ rest, Ends rest → item (p.2.toList ++ rest) = some (p.1, rest))
    (rest : List Char) :
    readList item close ((join "," (items.map Prod.snd)).toList ++ close :: rest) =
      some (items.map Prod.fst, rest) := by
  cases items with
  | nil =>
    show readList item close (close :: rest) = _
    rw [readList, if_pos rfl]
    rfl
  | cons first items =>
    obtain ⟨c, cs, chars, open_⟩ := opens first List.mem_cons_self
    obtain ⟨tail, spelled⟩ : ∃ tail,
        (join "," ((first :: items).map Prod.snd)).toList ++ close :: rest = c :: tail := by
      cases items with
      | nil => exact ⟨cs ++ close :: rest, congrArg (· ++ close :: rest) chars⟩
      | cons second items =>
        rw [List.map_cons, List.map_cons, join_cons_cons, String.toList_append,
          String.toList_append, chars]
        exact ⟨_, rfl⟩
    have enough : (first :: items).length ≤ tail.length + 1 := by
      have counts := count_le_join ((first :: items).map Prod.snd)
      have lengths := congrArg List.length spelled
      rw [List.length_append, String.length_toList, List.length_cons, List.length_cons] at lengths
      rw [List.length_map] at counts
      omega
    have all := readItems_join item closes other _ (List.cons_ne_nil _ _) reads enough rest
    rw [spelled] at all ⊢
    rw [readList, if_neg open_, all]

/-! ## Documents -/

theorem isDocumentItems_iff {items : List Json} :
    isDocumentItems items ↔ ∀ item ∈ items, item.isDocument := by
  induction items with
  | nil => simp [isDocumentItems]
  | cons item items ih =>
    rw [isDocumentItems, Bool.and_eq_true, ih]
    simp

theorem isDocumentEntries_iff {entries : List (String × Json)} :
    isDocumentEntries entries ↔ ∀ entry ∈ entries, entry.2.isDocument := by
  induction entries with
  | nil => simp [isDocumentEntries]
  | cons entry entries ih =>
    obtain ⟨key, value⟩ := entry
    rw [isDocumentEntries, Bool.and_eq_true, ih]
    simp

/-- A document has a text, and it begins with no closing bracket. -/
theorem stringify_document {v : Json} (document : v.isDocument) :
    ∃ text, stringify v = some text ∧
      ∃ c rest, text.toList = c :: rest ∧ c ≠ ']' := by
  cases v with
  | null => exact ⟨_, rfl, 'n', _, rfl, by decide⟩
  | bool b =>
    cases b with
    | true => exact ⟨_, rfl, 't', _, rfl, by decide⟩
    | false => exact ⟨_, rfl, 'f', _, rfl, by decide⟩
  | num n =>
    obtain ⟨c, rest, spelled, chars⟩ := rendering_chars n.valid
    refine ⟨n.text, rfl, c, rest, spelled, ?_⟩
    rintro rfl
    have number := chars ']' (by rw [spelled]; exact List.mem_cons_self)
    exact absurd number (by decide)
  | str s => exact ⟨_, rfl, '"', _, by rw [quote, String.toList_append, String.toList_append]; rfl, by decide⟩
  | arr items =>
    exact ⟨_, rfl, '[', _, by rw [String.toList_append, String.toList_append]; rfl, by decide⟩
  | obj entries =>
    exact ⟨_, rfl, '\x7b', _, by rw [String.toList_append, String.toList_append]; rfl, by decide⟩
  | inherited member => cases document

theorem stringifyItems_eq (items : List Json) :
    stringifyItems items = items.map fun item => (stringify item).getD "null" := by
  induction items with
  | nil => rfl
  | cons item items ih => rw [stringifyItems, ih, List.map_cons]

theorem stringifyEntries_eq {entries : List (String × Json)} (documents : isDocumentEntries entries) :
    stringifyEntries entries =
      entries.map fun entry => quote entry.1 ++ ":" ++ (stringify entry.2).getD "null" := by
  induction entries with
  | nil => rfl
  | cons entry entries ih =>
    obtain ⟨key, value⟩ := entry
    rw [isDocumentEntries, Bool.and_eq_true] at documents
    obtain ⟨text, spelled, -⟩ := stringify_document documents.1
    rw [stringifyEntries, spelled, List.map_cons, ← ih documents.2, spelled]
    rfl

theorem readString_quoted (s : String) (rest : List Char) :
    ∃ text, (quote s).toList ++ rest = '"' :: text ∧ readString text = some (s.toList, rest) := by
  refine ⟨(String.join (s.toList.map quoteChar)).toList ++ '"' :: rest, ?_, readString_quote _ _⟩
  rw [quote, String.toList_append, String.toList_append, List.append_assoc, List.append_assoc]
  rfl

theorem fst_paired {α β : Type} (items : List α) (f : α → β) :
    (items.map fun item => (item, f item)).map Prod.fst = items := by
  rw [List.map_map]
  exact List.map_id _

/-- The texts of a list of values and the values they belong to. -/
theorem texts_eq (items : List Json) : stringifyItems items =
    (items.map fun item => (item, (stringify item).getD "null")).map Prod.snd := by
  rw [stringifyItems_eq, List.map_map]
  rfl

/-- A document reads back from its text, whatever follows. -/
theorem readValue_stringify {depth : Nat} {v : Json} (document : v.isDocument) {text : String}
    (spelled : stringify v = some text) (enough : text.length ≤ depth) {rest : List Char}
    (ends : Ends rest) : readValue depth (text.toList ++ rest) = some (v, rest) := by
  induction depth generalizing v text rest with
  | zero =>
    obtain ⟨text', spelled', c, cs, chars, -⟩ := stringify_document document
    obtain rfl := Option.some.inj (spelled.symm.trans spelled')
    rw [← String.length_toList, chars] at enough
    exact absurd enough (Nat.not_succ_le_zero _)
  | succ depth ih =>
    cases v with
    | null =>
      obtain rfl := Option.some.inj spelled
      rfl
    | bool b =>
      obtain rfl := Option.some.inj spelled
      cases b with
      | true => rfl
      | false => rfl
    | num n =>
      obtain rfl := Option.some.inj spelled
      obtain ⟨c, cs, chars, numbers⟩ := rendering_chars n.valid
      have number := numbers c (by rw [chars]; exact List.mem_cons_self)
      have other : ∀ c', isNumberChar c' = false → c ≠ c' := by
        rintro c' no rfl
        rw [number] at no
        cases no
      have reads := readNumber_text n ends
      rw [chars, List.cons_append] at reads ⊢
      rw [readValue, if_neg (other _ (by decide)), if_neg (other _ (by decide)),
        if_neg (other _ (by decide)), if_neg (other _ (by decide)), if_neg (other _ (by decide)),
        if_neg (other _ (by decide)), reads]
    | str s =>
      obtain rfl := Option.some.inj spelled
      obtain ⟨inside, chars, reads⟩ := readString_quoted s rest
      rw [chars, readValue, if_pos rfl, reads]
      simp
    | arr items =>
      obtain rfl := Option.some.inj spelled
      have list := readList_join (readValue depth) (show isNumberChar ']' = false by decide) (by decide)
        (items.map fun item => (item, (stringify item).getD "null")) ?_ ?_ rest
      · rw [← texts_eq, fst_paired] at list
        rw [String.toList_append, String.toList_append, List.append_assoc, List.append_assoc]
        show readValue (depth + 1) ('[' :: ((join "," (stringifyItems items)).toList ++ ']' :: rest)) = _
        rw [readValue, if_neg (by decide), if_pos rfl, list]
        rfl
      · intro p member
        obtain ⟨item, inside, rfl⟩ := List.mem_map.mp member
        obtain ⟨t, spelled', c, cs, chars, open_⟩ := stringify_document (isDocumentItems_iff.mp document _ inside)
        exact ⟨c, cs, by rw [spelled']; exact chars, open_⟩
      · intro p member after ends'
        obtain ⟨item, inside, rfl⟩ := List.mem_map.mp member
        have within := isDocumentItems_iff.mp document _ inside
        obtain ⟨t, spelled', -⟩ := stringify_document within
        have part : t ∈ stringifyItems items := by
          rw [stringifyItems_eq]
          exact List.mem_map.mpr ⟨item, inside, by rw [spelled']; rfl⟩
        have shorter := @length_le_join "," _ _ part
        rw [String.length_append, String.length_append] at enough
        have open_ : ("[").length = 1 := rfl
        rw [spelled']
        exact ih within spelled' (by omega) ends'
    | obj entries =>
      obtain rfl := Option.some.inj spelled
      have list := readList_join (readMember (readValue depth)) (show isNumberChar '\x7d' = false by decide)
        (by decide) (entries.map fun entry =>
          (entry, quote entry.1 ++ ":" ++ (stringify entry.2).getD "null")) ?_ ?_ rest
      · have texts : stringifyEntries entries = (entries.map fun entry =>
            (entry, quote entry.1 ++ ":" ++ (stringify entry.2).getD "null")).map Prod.snd := by
          rw [stringifyEntries_eq document, List.map_map]
          rfl
        rw [← texts, fst_paired] at list
        rw [String.toList_append, String.toList_append, List.append_assoc, List.append_assoc]
        show readValue (depth + 1)
          ('\x7b' :: ((join "," (stringifyEntries entries)).toList ++ '\x7d' :: rest)) = _
        rw [readValue, if_neg (by decide), if_neg (by decide), if_pos rfl, list]
        rfl
      · intro p member
        obtain ⟨entry, -, rfl⟩ := List.mem_map.mp member
        obtain ⟨tail, chars, -⟩ := readString_quoted entry.1 (":" ++ (stringify entry.2).getD "null").toList
        refine ⟨'"', tail, ?_, by decide⟩
        rw [String.append_assoc, String.toList_append]
        exact chars
      · intro p member after ends'
        obtain ⟨entry, inside, rfl⟩ := List.mem_map.mp member
        have within := isDocumentEntries_iff.mp document _ inside
        obtain ⟨t, spelled', -⟩ := stringify_document within
        have part : quote entry.1 ++ ":" ++ t ∈ stringifyEntries entries := by
          rw [stringifyEntries_eq document]
          exact List.mem_map.mpr ⟨entry, inside, by rw [spelled']; rfl⟩
        have shorter := @length_le_join "," _ _ part
        rw [String.length_append, String.length_append] at enough shorter
        have open_ : ("\x7b").length = 1 := rfl
        obtain ⟨key, chars, reads⟩ := readString_quoted entry.1 (':' :: (t.toList ++ after))
        have value := ih within spelled' (by omega) ends'
        rw [spelled', String.toList_append, String.toList_append, List.append_assoc, List.append_assoc]
        show readMember (readValue depth) ((quote entry.1).toList ++ ':' :: (t.toList ++ after)) = _
        rw [chars, readMember, reads]
        simp [value]
    | inherited member => cases document

/-- `JSON.parse(JSON.stringify(v))` for a document. -/
theorem read_stringify {v : Json} (document : v.isDocument) {text : String}
    (spelled : stringify v = some text) : read text = some v := by
  have reads := readValue_stringify document spelled (Nat.le_refl _) ends_nil
  rw [List.append_nil] at reads
  rw [read, reads]

end EndCloseRelay.Json
