import EndCloseRelay.Mask.Defaults
import EndCloseRelay.Scanning.Borders

/-!
# Spellings of a name

A name is a list of words, written with separators between them or with a
capital at the head of each.  `keyNameIsSensitive` sees such a name through its
camel split, which cuts and glues words where a written word is all capitals;
`same_verdict_iff` says for which words this changes no verdict.
-/

namespace EndCloseRelay

open Js Scanning

/-! ## Words and spellings -/

/-- A word over `[a-z0-9]` that starts with a letter. -/
structure Word where
  chars : List Char
  first : chars.head?.any isLowerAscii
  alphabet : ∀ c ∈ chars, isLowerAscii c || isDigit c

/-- How a word is written in a name without separators. -/
inductive Case
  | lower
  | capitalised
  | capitals
deriving DecidableEq

/-- A word as it is written. -/
def Case.write : Case → List Char → List Char
  | lower, w => w
  | capitalised, w => w.modifyHead upperAscii
  | capitals, w => w.map upperAscii

/-- Words written one after the other. -/
def written (styled : List (Case × Word)) : List Char :=
  styled.flatMap fun entry => entry.1.write entry.2.chars

/-- The usual spellings of a list of words: `snake_case`, `kebab-case`, and
`camelCase` or `PascalCase` with any of the words in capitals. -/
inductive Usual (ws : List Word) : String → Prop
  | snake : Usual ws (String.ofList (['_'].intercalate (ws.map Word.chars)))
  | kebab : Usual ws (String.ofList (['-'].intercalate (ws.map Word.chars)))
  | humps (styled : List (Case × Word)) (words : styled.map Prod.snd = ws)
    (later : ∀ entry ∈ styled.tail, entry.1 ≠ .lower) : Usual ws (String.ofList (written styled))

/-! ## Sensitive words -/

/-- The sensitive names of two words. -/
def namePairs : List (String × String) :=
  [("api", "key"), ("private", "key"), ("access", "token"), ("refresh", "token"),
    ("social", "security"), ("routing", "number"), ("account", "number")]

/-- The sensitive names of one word. -/
def nameWords : List String :=
  ["cvv", "cvv2", "cvc", "cid", "pin", "password", "passwd", "secret", "ssn"] ++
    namePairs.map fun p => p.1 ++ p.2

/-- A sensitive name is among the words, or two of them next to each other are one. -/
def Named (ws : List (List Char)) : Prop :=
  (∃ w ∈ ws, String.ofList w ∈ nameWords) ∨
    ∃ a b, [a, b] <:+: ws ∧ (String.ofList a, String.ofList b) ∈ namePairs

/-! ## What the camel split makes of written words -/

/-- A word in capitals is cut after each digit before a letter. -/
def Case.cut : Case → List Char → List (List Char)
  | capitals, w => w.splitBy fun a b => !(isDigit a && isLowerAscii b)
  | _, w => [w]

/-- A written word that ends in a capital is glued to the next. -/
def Case.glues (case : Case) (w : List Char) : Bool := (case.write w).getLast?.any isUpperAscii

/-- The words that are left. -/
def chunks : List (Case × Word) → List (List Char)
  | [] => []
  | (case, w) :: rest =>
    if case.glues w.chars then weld (case.cut w.chars) (chunks rest)
    else case.cut w.chars ++ chunks rest

/-! ## Characters -/

/-- A letter or a digit. -/
def isAlnum (c : Char) : Bool := isDigit c || isLowerAscii c || isUpperAscii c

section

variable {c d : Char}

theorem isDigit_iff : isDigit c ↔ 48 ≤ c.toNat ∧ c.toNat ≤ 57 := by
  simp [isDigit, Char.le_def, UInt32.le_iff_toNat_le]

theorem isLowerAscii_iff : isLowerAscii c ↔ 97 ≤ c.toNat ∧ c.toNat ≤ 122 := by
  simp [isLowerAscii, Char.le_def, UInt32.le_iff_toNat_le]

theorem isUpperAscii_iff : isUpperAscii c ↔ 65 ≤ c.toNat ∧ c.toNat ≤ 90 := by
  simp [isUpperAscii, Char.le_def, UInt32.le_iff_toNat_le]

theorem toNat_upperAscii (c : Char) :
    (upperAscii c).toNat = if isLowerAscii c then c.toNat - 32 else c.toNat := by
  unfold upperAscii
  by_cases lower : isLowerAscii c
  · have range := isLowerAscii_iff.mp lower
    have valid : (c.toNat - 32).isValidChar := .inl (by omega)
    rw [if_pos lower, if_pos lower, Char.ofNat, dif_pos valid]
    rfl
  · rw [if_neg lower, if_neg lower]

theorem isAlnum_iff : isAlnum c ↔ isDigit c ∨ isLowerAscii c ∨ isUpperAscii c := by
  simp [isAlnum, or_assoc]

theorem isAlnum_upperAscii : isAlnum (upperAscii c) = isAlnum c := by
  rw [Bool.eq_iff_iff, isAlnum_iff, isAlnum_iff, isDigit_iff, isLowerAscii_iff, isUpperAscii_iff,
    isDigit_iff, isLowerAscii_iff, isUpperAscii_iff, toNat_upperAscii]
  split
  · rename_i lower
    have range := isLowerAscii_iff.mp lower
    omega
  · rfl

/-- On lower-case letters and digits the comparison without case is the plain one. -/
theorem upperAscii_inj (first : isLowerAscii c || isDigit c) (second : isLowerAscii d || isDigit d)
    (same : upperAscii c = upperAscii d) : c = d := by
  have values := congrArg Char.toNat same
  rw [toNat_upperAscii, toNat_upperAscii] at values
  rw [Bool.or_eq_true, isLowerAscii_iff, isDigit_iff] at first second
  refine Char.toNat_inj.mp ?_
  split at values <;> split at values <;> rename_i a b <;> rw [isLowerAscii_iff] at a b <;> omega

theorem wordEdge_alnum (alnum : isAlnum c) : wordEdge (some c) = false := by
  have word : isWordChar c := by
    unfold isWordChar
    unfold isAlnum at alnum
    rw [alnum]
    rfl
  have plain : (c == '_') = false := by
    rw [beq_eq_false_iff_ne]
    rintro rfl
    cases alnum
  simp [wordEdge, plain, word]

end

/-- A character that separates the words of a name. -/
def IsSeparator (c : Char) : Prop := c = '_' ∨ c = '-'

theorem IsSeparator.spec {c : Char} (separator : IsSeparator c) :
    isAlnum c = false ∧ wordEdge (some c) ∧ upperAscii c = c := by
  rcases separator with rfl | rfl <;> decide

/-- Letters and digits. -/
def Alnum (run : List Char) : Prop := ∀ c ∈ run, isAlnum c

theorem Alnum.map {run : List Char} (alnum : Alnum run) : Alnum (run.map upperAscii) := by
  intro c member
  obtain ⟨d, there, rfl⟩ := List.mem_map.mp member
  rw [isAlnum_upperAscii]
  exact alnum d there

/-! ## A name between separators -/

/-- What comes after a word: nothing, or a separator. -/
def Behind (rest : List Char) : Prop := ∀ c ∈ rest.head?, IsSeparator c

/-- Runs of letters and digits before separators end at the same place. -/
theorem run_eq {c v r t : List Char} (first : Alnum c) (second : Alnum v)
    (behind : ∀ x ∈ r.head?, isAlnum x = false) (behind' : ∀ x ∈ t.head?, isAlnum x = false)
    (same : c ++ r = v ++ t) : c = v ∧ r = t := by
  rcases List.append_eq_append_iff.mp same with ⟨a, rfl, rfl⟩ | ⟨a, rfl, rfl⟩
  · cases a with
    | nil => exact ⟨(List.append_nil c).symm, rfl⟩
    | cons x a =>
      have outside := behind x rfl
      rw [second x (by simp)] at outside
      cases outside
  · cases a with
    | nil => exact ⟨List.append_nil v, rfl⟩
    | cons x a =>
      have outside := behind' x rfl
      rw [first x (by simp)] at outside
      cases outside

/-- The expression's test for one of its alternatives at the head of a text. -/
def matchesAt (word text : List Char) : Bool :=
  (text.take word.length).map upperAscii == word.map upperAscii &&
    wordEdge (text.drop word.length).head?

theorem head?_map_upperAscii {rest : List Char} (behind : Behind rest) :
    ∀ x ∈ (rest.map upperAscii).head?, isAlnum x = false := by
  intro x head
  cases rest with
  | nil => cases head
  | cons y rest =>
    obtain rfl := Option.some.inj head
    rw [isAlnum_upperAscii]
    exact (behind y rfl).spec.1

theorem wordEdge_behind {rest : List Char} (behind : Behind rest) : wordEdge rest.head? := by
  cases rest with
  | nil => rfl
  | cons y rest => exact (behind y rfl).spec.2.1

/-- What a test leaves behind it starts with no letter or digit. -/
theorem not_alnum_of_edge {text : List Char} (edge : wordEdge text.head?) :
    ∀ x ∈ (text.map upperAscii).head?, isAlnum x = false := by
  intro x head
  cases text with
  | nil => cases head
  | cons y text =>
    obtain rfl := Option.some.inj head
    rw [isAlnum_upperAscii]
    by_contra alnum
    rw [List.head?_cons, wordEdge_alnum (Bool.not_eq_false _ ▸ alnum)] at edge
    cases edge

/-- One word is matched by itself. -/
theorem matchesAt_word {c v rest : List Char} (run : Alnum c) (word : Alnum v) (behind : Behind rest) :
    matchesAt v (c ++ rest) ↔ c.map upperAscii = v.map upperAscii := by
  unfold matchesAt
  rw [Bool.and_eq_true, beq_iff_eq]
  constructor
  · rintro ⟨taken, edge⟩
    have whole := congrArg (List.map upperAscii) (List.take_append_drop v.length (c ++ rest))
    rw [List.map_append, taken, List.map_append] at whole
    exact (run_eq run.map word.map (head?_map_upperAscii behind) (not_alnum_of_edge edge) whole.symm).1
  · intro same
    have length : v.length = c.length := by
      simpa using (congrArg List.length same).symm
    rw [length, List.take_left, List.drop_left]
    exact ⟨same, wordEdge_behind behind⟩

/-- A text before a separator, taken and dropped by the length of two words and a separator. -/
theorem pair_parts {c a : List Char} (mark : Char) (b rest : List Char)
    (length : a.length = c.length) :
    (c ++ mark :: rest).take (a ++ mark :: b).length = c ++ mark :: rest.take b.length ∧
      (c ++ mark :: rest).drop (a ++ mark :: b).length = rest.drop b.length := by
  have total : (a ++ mark :: b).length = c.length + (b.length + 1) := by
    rw [List.length_append, List.length_cons, length]
  rw [total, List.take_length_add_append, List.drop_length_add_append]
  exact ⟨rfl, rfl⟩

/-- Two words with a separator are matched by themselves with that separator. -/
theorem matchesAt_pair {c a b rest : List Char} {mark : Char} (run : Alnum c) (word : Alnum a)
    (separator : IsSeparator mark) (behind : Behind rest) :
    matchesAt (a ++ mark :: b) (c ++ rest) ↔ c.map upperAscii = a.map upperAscii ∧
      ∃ more, rest = mark :: more ∧ matchesAt b more := by
  unfold matchesAt
  simp only [Bool.and_eq_true, beq_iff_eq]
  have plain := separator.spec.2.2
  constructor
  · rintro ⟨taken, edge⟩
    have whole := congrArg (List.map upperAscii)
      (List.take_append_drop (a ++ mark :: b).length (c ++ rest))
    rw [List.map_append, taken, List.map_append, List.map_append, List.append_assoc] at whole
    have inside : ∀ x ∈ ((mark :: b).map upperAscii ++
        ((c ++ rest).drop (a ++ mark :: b).length).map upperAscii).head?, isAlnum x = false := by
      intro x head
      obtain rfl := Option.some.inj head
      rw [isAlnum_upperAscii]
      exact separator.spec.1
    obtain ⟨same, more⟩ := run_eq run.map word.map (head?_map_upperAscii behind) inside whole.symm
    refine ⟨same, ?_⟩
    cases rest with
    | nil => cases more
    | cons y rest =>
      obtain ⟨first, others⟩ := List.cons.inj more
      rw [plain, (behind y rfl).spec.2.2] at first
      subst first
      have length : a.length = c.length := by
        simpa using (congrArg List.length same).symm
      obtain ⟨head, tail⟩ := pair_parts y b rest length
      rw [head, List.map_append, List.map_append, List.map_cons, List.map_cons] at taken
      rw [tail] at edge
      have both := List.append_inj_right taken (by simpa using length.symm)
      exact ⟨rest, rfl, (List.cons.inj both).2, edge⟩
  · rintro ⟨same, more, rfl, taken, edge⟩
    have length : a.length = c.length := by
      simpa using (congrArg List.length same).symm
    obtain ⟨head, tail⟩ := pair_parts mark b more length
    rw [head, tail, List.map_append, List.map_append, List.map_cons, List.map_cons, same, taken]
    exact ⟨rfl, edge⟩

/-- A text of words before separators: the rest behind its first word. -/
def behind (mark : Char) (cs : List (List Char)) : List Char := cs.flatMap fun c => mark :: c

theorem behind_cons (mark : Char) (c : List Char) (cs : List (List Char)) :
    behind mark (c :: cs) = mark :: (c ++ behind mark cs) := rfl

theorem behind_behind {mark : Char} (separator : IsSeparator mark) (cs : List (List Char)) :
    Behind (behind mark cs) := by
  intro x head
  cases cs with
  | nil => cases head
  | cons c cs =>
    obtain rfl := Option.some.inj head
    exact separator

/-- What the expression looks for among the words of a text, in capitals. -/
def Heard (cs : List (List Char)) : Prop :=
  (∃ w ∈ nameWords, w.toList.map upperAscii ∈ cs) ∨
    ∃ p ∈ namePairs, [p.1.toList.map upperAscii, p.2.toList.map upperAscii] <:+: cs

theorem not_heard_nil : ¬ Heard [] := by
  rintro (⟨w, _, member⟩ | ⟨p, _, inside⟩)
  · cases member
  · cases List.eq_nil_of_infix_nil inside

theorem heard_cons (c : List Char) (cs : List (List Char)) : Heard (c :: cs) ↔
    ((∃ w ∈ nameWords, w.toList.map upperAscii = c) ∨ ∃ p ∈ namePairs,
      p.1.toList.map upperAscii = c ∧ cs.head? = some (p.2.toList.map upperAscii)) ∨ Heard cs := by
  simp only [Heard, List.mem_cons, List.infix_cons_iff, List.cons_prefix_cons,
    List.singleton_prefix_iff_head?_eq_some, and_or_left, exists_or]
  exact or_or_or_comm

/-- The alternatives of the expression are the names of one word and, with a separator, those of
two. -/
theorem mem_sensitiveWords (word : String) : word ∈ sensitiveWords ↔ word ∈ nameWords ∨
    ∃ p ∈ namePairs, ∃ mark, IsSeparator mark ∧ word.toList = p.1.toList ++ mark :: p.2.toList := by
  constructor
  · intro member
    have listed : ∀ w ∈ sensitiveWords, w ∈ nameWords ∨ ∃ p ∈ namePairs,
        w.toList = p.1.toList ++ '_' :: p.2.toList ∨ w.toList = p.1.toList ++ '-' :: p.2.toList := by
      decide
    rcases listed word member with single | ⟨p, pair, same | same⟩
    · exact .inl single
    · exact .inr ⟨p, pair, '_', .inl rfl, same⟩
    · exact .inr ⟨p, pair, '-', .inr rfl, same⟩
  · rintro (single | ⟨p, pair, mark, rfl | rfl, same⟩)
    · have listed : ∀ w ∈ nameWords, w ∈ sensitiveWords := by decide
      exact listed word single
    · have listed : ∀ p ∈ namePairs,
          String.ofList (p.1.toList ++ '_' :: p.2.toList) ∈ sensitiveWords := by
        decide
      have there := listed p pair
      rwa [← same, String.ofList_toList] at there
    · have listed : ∀ p ∈ namePairs,
          String.ofList (p.1.toList ++ '-' :: p.2.toList) ∈ sensitiveWords := by
        decide
      have there := listed p pair
      rwa [← same, String.ofList_toList] at there

theorem alnum_nameWords : ∀ w ∈ nameWords, ∀ c ∈ w.toList, isLowerAscii c || isDigit c := by
  have checked : nameWords.all fun w => w.toList.all fun c => isLowerAscii c || isDigit c := by
    decide
  simpa only [List.all_eq_true] using checked

theorem alnum_namePairs : ∀ p ∈ namePairs, (∀ c ∈ p.1.toList, isLowerAscii c || isDigit c) ∧
    ∀ c ∈ p.2.toList, isLowerAscii c || isDigit c := by
  have checked : namePairs.all fun p => (p.1.toList.all fun c => isLowerAscii c || isDigit c) &&
      p.2.toList.all fun c => isLowerAscii c || isDigit c := by
    decide
  simpa only [List.all_eq_true, Bool.and_eq_true] using checked

theorem Alnum.of_lower {run : List Char} (lower : ∀ c ∈ run, isLowerAscii c || isDigit c) :
    Alnum run := by
  intro c member
  rw [isAlnum_iff]
  have known := lower c member
  rw [Bool.or_eq_true] at known
  exact known.elim (fun l => .inr (.inl l)) .inl

/-- The expression at the head of a word: the word is a name, or with the next it is one of two. -/
theorem sensitiveAt_iff {mark : Char} {prev : Option Char} {c : List Char} {cs : List (List Char)}
    (separator : IsSeparator mark) (edge : wordEdge prev) (run : Alnum c) (runs : ∀ c ∈ cs, Alnum c) :
    sensitiveAt prev (c ++ behind mark cs) ↔
      (∃ w ∈ nameWords, w.toList.map upperAscii = c.map upperAscii) ∨ ∃ p ∈ namePairs,
        p.1.toList.map upperAscii = c.map upperAscii ∧
          (cs.map (List.map upperAscii)).head? = some (p.2.toList.map upperAscii) := by
  have shape : sensitiveAt prev (c ++ behind mark cs) ↔
      ∃ word ∈ sensitiveWords, matchesAt word.toList (c ++ behind mark cs) := by
    simp only [sensitiveAt, edge, Bool.true_and, List.any_eq_true, matchesAt, String.length_toList]
  have ends := behind_behind separator cs
  rw [shape]
  constructor
  · rintro ⟨word, member, matched⟩
    rcases (mem_sensitiveWords word).mp member with single | ⟨p, pair, mark', separator', same⟩
    · rw [matchesAt_word run (.of_lower (alnum_nameWords word single)) ends] at matched
      exact .inl ⟨word, single, matched.symm⟩
    · have first := Alnum.of_lower (alnum_namePairs p pair).1
      rw [same, matchesAt_pair run first separator' ends] at matched
      obtain ⟨first, more, rest, second⟩ := matched
      refine .inr ⟨p, pair, first.symm, ?_⟩
      cases cs with
      | nil => cases rest
      | cons c' cs =>
        obtain ⟨_, tail⟩ := List.cons.inj ((behind_cons mark c' cs).symm.trans rest)
        rw [← tail, matchesAt_word (runs c' (by simp)) (.of_lower (alnum_namePairs p pair).2)
          (behind_behind separator cs)] at second
        exact congrArg some second
  · rintro (⟨word, single, same⟩ | ⟨p, pair, first, second⟩)
    · refine ⟨word, (mem_sensitiveWords word).mpr (.inl single), ?_⟩
      rw [matchesAt_word run (.of_lower (alnum_nameWords word single)) ends]
      exact same.symm
    · cases cs with
      | nil => cases second
      | cons c' cs =>
        refine ⟨String.ofList (p.1.toList ++ mark :: p.2.toList),
          (mem_sensitiveWords _).mpr (.inr ⟨p, pair, mark, separator, String.toList_ofList⟩), ?_⟩
        rw [String.toList_ofList,
          matchesAt_pair run (.of_lower (alnum_namePairs p pair).1) separator ends]
        refine ⟨first.symm, c' ++ behind mark cs, rfl, ?_⟩
        rw [matchesAt_word (runs c' (by simp)) (.of_lower (alnum_namePairs p pair).2)
          (behind_behind separator cs)]
        exact Option.some.inj second

/-- Inside a word no alternative starts, and neither does one at the separator behind it. -/
theorem sensitiveFrom_inside {x : Char} {c rest : List Char} (before : isAlnum x) (run : Alnum c) :
    sensitiveFrom (some x) (c ++ rest) = sensitiveFrom rest.head? rest.tail := by
  induction c generalizing x with
  | nil =>
    cases rest with
    | nil => rfl
    | cons y rest =>
      rw [List.nil_append, sensitiveFrom, sensitiveAt, wordEdge_alnum before]
      rfl
  | cons y c ih =>
    rw [List.cons_append, sensitiveFrom, sensitiveAt, wordEdge_alnum before,
      ih (run y (by simp)) fun z member => run z (List.mem_cons_of_mem y member)]
    rfl

/-- A name starts with the word at the head of the text, or behind that word. -/
theorem sensitiveFrom_word {prev : Option Char} {c rest : List Char} (full : c ≠ []) (run : Alnum c) :
    sensitiveFrom prev (c ++ rest) =
      (sensitiveAt prev (c ++ rest) || sensitiveFrom rest.head? rest.tail) := by
  obtain ⟨x, tail, rfl⟩ := List.exists_cons_of_ne_nil full
  rw [List.cons_append, sensitiveFrom,
    sensitiveFrom_inside (run x (by simp)) fun z member => run z (List.mem_cons_of_mem x member)]

/-- The expression finds a name in separated words exactly when it hears one among them. -/
theorem sensitiveFrom_iff {mark : Char} {prev : Option Char} {c : List Char} {cs : List (List Char)}
    (separator : IsSeparator mark) (edge : wordEdge prev) (runs : ∀ w ∈ c :: cs, w ≠ [] ∧ Alnum w) :
    sensitiveFrom prev (c ++ behind mark cs) ↔ Heard ((c :: cs).map (List.map upperAscii)) := by
  induction cs generalizing c prev with
  | nil =>
    obtain ⟨full, run⟩ := runs c (by simp)
    have here := @sensitiveAt_iff mark prev c [] separator edge run (by simp)
    rw [sensitiveFrom_word full run, Bool.or_eq_true, here, List.map_cons, heard_cons]
    exact or_congr_right ⟨(absurd · Bool.false_ne_true), (absurd · not_heard_nil)⟩
  | cons c' cs ih =>
    obtain ⟨full, run⟩ := runs c (by simp)
    have here := sensitiveAt_iff separator edge run fun w member =>
      (runs w (List.mem_cons_of_mem _ member)).2
    have rest := ih separator.spec.2.1 fun w member => runs w (List.mem_cons_of_mem _ member)
    rw [sensitiveFrom_word full run, Bool.or_eq_true, here]
    exact (or_congr_right rest).trans (heard_cons (c.map upperAscii) _).symm

/-- The same for a whole text of separated words. -/
theorem sensitive_intercalate {mark : Char} {cs : List (List Char)} (separator : IsSeparator mark)
    (runs : ∀ w ∈ cs, w ≠ [] ∧ Alnum w) :
    sensitiveFrom none ([mark].intercalate cs) ↔ Heard (cs.map (List.map upperAscii)) := by
  cases cs with
  | nil => exact ⟨(absurd · Bool.false_ne_true), (absurd · not_heard_nil)⟩
  | cons c cs =>
    rw [intercalate_cons]
    exact sensitiveFrom_iff separator rfl runs

/-! ## Names without capitals -/

/-- Lower-case letters and digits. -/
def Lower (run : List Char) : Prop := ∀ c ∈ run, isLowerAscii c || isDigit c

theorem map_upperAscii_inj {v w : List Char} (first : Lower v) (second : Lower w)
    (same : v.map upperAscii = w.map upperAscii) : v = w := by
  induction v generalizing w with
  | nil => exact (List.map_eq_nil_iff.mp same.symm).symm
  | cons c v ih =>
    obtain ⟨d, w, rfl⟩ := List.exists_cons_of_ne_nil fun empty : w = [] => by
      rw [empty] at same
      cases same
    obtain ⟨head, tail⟩ := List.cons.inj same
    rw [upperAscii_inj (first c (by simp)) (second d (by simp)) head,
      ih (fun x member => first x (List.mem_cons_of_mem c member))
        (fun x member => second x (List.mem_cons_of_mem d member)) tail]

/-- Among words without capitals the expression hears the sensitive names. -/
theorem heard_iff_named {ws : List (List Char)} (lower : ∀ w ∈ ws, Lower w) :
    Heard (ws.map (List.map upperAscii)) ↔ Named ws := by
  refine or_congr (Iff.intro ?_ ?_) (Iff.intro ?_ ?_)
  · rintro ⟨name, listed, member⟩
    obtain ⟨w, there, same⟩ := List.mem_map.mp member
    have equal := map_upperAscii_inj (lower w there) (alnum_nameWords name listed) same
    refine ⟨w, there, ?_⟩
    rwa [equal, String.ofList_toList]
  · rintro ⟨w, there, listed⟩
    refine ⟨String.ofList w, listed, ?_⟩
    rw [String.toList_ofList]
    exact List.mem_map_of_mem there
  · rintro ⟨p, pair, inside⟩
    obtain ⟨parts, there, same⟩ := List.infix_map_iff.mp inside
    obtain ⟨a, rest, rfl, first, others⟩ := List.map_eq_cons_iff.mp same.symm
    obtain ⟨b, rest, rfl, second, none_⟩ := List.map_eq_cons_iff.mp others
    obtain rfl := List.map_eq_nil_iff.mp none_
    have members := there.subset
    have first := map_upperAscii_inj (lower a (members (by simp))) (alnum_namePairs p pair).1 first
    have second := map_upperAscii_inj (lower b (members (by simp))) (alnum_namePairs p pair).2 second
    refine ⟨a, b, there, ?_⟩
    rw [first, second, String.ofList_toList, String.ofList_toList]
    exact pair
  · rintro ⟨a, b, inside, pair⟩
    refine ⟨_, pair, ?_⟩
    rw [String.toList_ofList, String.toList_ofList]
    exact inside.map (List.map upperAscii)

theorem splitCamel_of_lower {text : List Char} (lower : ∀ c ∈ text, isUpperAscii c = false) :
    splitCamel text = text := by
  induction text with
  | nil => rfl
  | cons a text ih =>
    cases text with
    | nil => rfl
    | cons b text =>
      rw [splitCamel, lower b (by simp), Bool.and_false, if_neg Bool.false_ne_true,
        ih fun c member => lower c (List.mem_cons_of_mem a member)]

theorem not_upper {c : Char} (lower : isLowerAscii c || isDigit c) : isUpperAscii c = false := by
  rw [Bool.or_eq_true, isLowerAscii_iff, isDigit_iff] at lower
  rw [Bool.eq_false_iff, Ne, isUpperAscii_iff]
  omega

theorem Word.full (w : Word) : w.chars ≠ [] := by
  intro empty
  have first := w.first
  rw [empty] at first
  cases first

/-- Words with separators between them have the verdict of the words. -/
theorem keyName_separated {mark : Char} (separator : IsSeparator mark) (ws : List Word) :
    keyNameIsSensitive (String.ofList ([mark].intercalate (ws.map Word.chars))) ↔
      Named (ws.map Word.chars) := by
  have lower : ∀ w ∈ ws.map Word.chars, Lower w := by
    intro w member
    obtain ⟨word, _, rfl⟩ := List.mem_map.mp member
    exact word.alphabet
  have plain : ∀ c ∈ [mark].intercalate (ws.map Word.chars), isUpperAscii c = false := by
    intro c member
    rcases mem_intercalate member with rfl | ⟨w, there, inside⟩
    · rcases separator with rfl | rfl <;> decide
    · exact not_upper (lower w there c inside)
  have runs : ∀ w ∈ ws.map Word.chars, w ≠ [] ∧ Alnum w := by
    intro w member
    refine ⟨?_, .of_lower (lower w member)⟩
    obtain ⟨word, _, rfl⟩ := List.mem_map.mp member
    exact word.full
  rw [keyNameIsSensitive, String.toList_ofList, splitCamel_of_lower plain,
    sensitive_intercalate separator runs, heard_iff_named lower]

/-! ## Names with capitals -/

/-- `splitCamel` puts no separator between two characters. -/
def joined (a b : Char) : Bool := !((isLowerAscii a || isDigit a) && isUpperAscii b)

/-- The camel split separates the runs between its borders. -/
theorem splitCamel_eq (text : List Char) :
    splitCamel text = ['_'].intercalate (text.splitBy joined) := by
  induction text with
  | nil => rfl
  | cons a text ih =>
    cases text with
    | nil => rfl
    | cons b text =>
      obtain ⟨p, ps, split_⟩ := List.exists_cons_of_ne_nil
        (List.splitBy_ne_nil (r := joined).mpr (List.cons_ne_nil b text))
      rw [splitCamel, ih, splitBy_cons_cons, split_]
      unfold joined
      by_cases border : (isLowerAscii a || isDigit a) && isUpperAscii b
      · rw [if_pos border, border, if_neg (by decide), List.intercalate_cons_cons]
        rfl
      · rw [if_neg border, (Bool.not_eq_true _).mp border, if_pos (by decide)]
        exact List.intercalate_cons_cons_left.symm

section

variable {c : Char}

theorem isUpperAscii_upperAscii (lower : isLowerAscii c || isDigit c) :
    isUpperAscii (upperAscii c) = isLowerAscii c := by
  rw [Bool.or_eq_true, isLowerAscii_iff, isDigit_iff] at lower
  rw [Bool.eq_iff_iff, isUpperAscii_iff, toNat_upperAscii]
  split
  · rename_i letter
    rw [isLowerAscii_iff] at letter ⊢
    omega
  · rename_i digit
    rw [isLowerAscii_iff] at digit ⊢
    omega

theorem isLowerAscii_upperAscii : isLowerAscii (upperAscii c) = false := by
  rw [Bool.eq_false_iff, Ne, isLowerAscii_iff, toNat_upperAscii]
  split
  · rename_i letter
    rw [isLowerAscii_iff] at letter
    omega
  · rename_i other
    rwa [isLowerAscii_iff] at other

theorem upperAscii_upperAscii : upperAscii (upperAscii c) = upperAscii c := by
  show (if isLowerAscii (upperAscii c) then _ else upperAscii c) = upperAscii c
  rw [isLowerAscii_upperAscii, if_neg Bool.false_ne_true]

theorem isDigit_upperAscii : isDigit (upperAscii c) = isDigit c := by
  rw [Bool.eq_iff_iff, isDigit_iff, isDigit_iff, toNat_upperAscii]
  split
  · rename_i letter
    rw [isLowerAscii_iff] at letter
    omega
  · rfl

end

theorem map_upperAscii_twice (w : List Char) :
    (w.map upperAscii).map upperAscii = w.map upperAscii := by
  rw [List.map_map]
  exact List.map_congr_left fun c _ => upperAscii_upperAscii

/-- A word in which only the first character can be a capital is not split. -/
theorem split_of_lower {w : List Char} (full : w ≠ []) (lower : Lower w.tail) :
    w.splitBy joined = [w] := by
  refine splitBy_of_joined full fun a b member => ?_
  rw [joined, not_upper (lower b member), Bool.and_false]
  rfl

/-- What the camel split leaves of one written word, up to case. -/
theorem split_write (case : Case) (w : Word) :
    ((case.write w.chars).splitBy joined).map (List.map upperAscii) =
      (case.cut w.chars).map (List.map upperAscii) := by
  obtain ⟨c, tail, word⟩ := List.exists_cons_of_ne_nil w.full
  have later : Lower tail := by
    intro x member
    exact w.alphabet x (word ▸ List.mem_cons_of_mem c member)
  cases case with
  | lower =>
    rw [Case.write, word, split_of_lower (List.cons_ne_nil c tail) later]
    rfl
  | capitalised =>
    rw [Case.write, word, List.modifyHead_cons, split_of_lower (List.cons_ne_nil _ tail) later]
    show [upperAscii (upperAscii c) :: _] = _
    rw [upperAscii_upperAscii]
    rfl
  | capitals =>
    have same : ∀ a ∈ w.chars, ∀ b ∈ w.chars,
        joined (upperAscii a) (upperAscii b) = !(isDigit a && isLowerAscii b) := by
      intro a _ b member
      rw [joined, isLowerAscii_upperAscii, isDigit_upperAscii,
        isUpperAscii_upperAscii (w.alphabet b member), Bool.false_or]
    rw [Case.write, Case.cut, splitBy_map, splitBy_congr same, List.map_map]
    exact List.map_congr_left fun piece _ => map_upperAscii_twice piece

/-- A written word has letters and digits only. -/
theorem alnum_write (case : Case) (w : Word) : Alnum (case.write w.chars) := by
  have plain : Alnum w.chars := .of_lower w.alphabet
  cases case with
  | lower => exact plain
  | capitalised =>
    obtain ⟨c, tail, word⟩ := List.exists_cons_of_ne_nil w.full
    rw [word] at plain
    intro x member
    rw [Case.write, word, List.modifyHead_cons] at member
    rcases List.mem_cons.mp member with rfl | later
    · rw [isAlnum_upperAscii]
      exact plain c List.mem_cons_self
    · exact plain x (List.mem_cons_of_mem c later)
  | capitals => exact plain.map

theorem alnum_written (styled : List (Case × Word)) : Alnum (written styled) := by
  intro x member
  obtain ⟨entry, _, inside⟩ := List.mem_flatMap.mp member
  exact alnum_write entry.1 entry.2 x inside

/-- A word that is not in lower case starts with a capital. -/
theorem head_write {case : Case} (other : case ≠ .lower) (w : Word) :
    ∃ y rest, case.write w.chars = y :: rest ∧ isUpperAscii y := by
  obtain ⟨c, tail, word⟩ := List.exists_cons_of_ne_nil w.full
  have first : isLowerAscii c := by
    have first := w.first
    rwa [word] at first
  have capital : isUpperAscii (upperAscii c) := by
    rw [isUpperAscii_upperAscii (w.alphabet c (word ▸ List.mem_cons_self))]
    exact first
  rw [word]
  cases case with
  | lower => contradiction
  | capitalised => exact ⟨upperAscii c, tail, rfl, capital⟩
  | capitals => exact ⟨upperAscii c, tail.map upperAscii, rfl, capital⟩

theorem head_written {styled : List (Case × Word)} (later : ∀ entry ∈ styled, entry.1 ≠ .lower)
    {y : Char} (head : y ∈ (written styled).head?) : isUpperAscii y := by
  cases styled with
  | nil => cases head
  | cons entry rest =>
    obtain ⟨first, tail, word, capital⟩ := head_write (later entry List.mem_cons_self) entry.2
    rw [written, List.flatMap_cons, word] at head
    obtain rfl := Option.some.inj head
    exact capital

/-- Between a written word and a capital behind it there is a border unless it ends in a capital. -/
theorem joined_last {case : Case} {w : Word} {x y : Char} (last : x ∈ (case.write w.chars).getLast?)
    (capital : isUpperAscii y) : joined x y = case.glues w.chars := by
  have glues : case.glues w.chars = isUpperAscii x := by
    rw [Case.glues, last]
    rfl
  rw [joined, capital, Bool.and_true, glues]
  cases upper : isUpperAscii x with
  | true =>
    by_contra border
    rw [Bool.not_eq_true, Bool.not_eq_false'] at border
    rw [not_upper border] at upper
    cases upper
  | false =>
    have alnum := alnum_write case w x (List.mem_of_mem_getLast? last)
    rw [isAlnum, upper, Bool.or_false, Bool.or_comm] at alnum
    rw [alnum]
    rfl

/-- What the camel split leaves of a name with capitals, up to case. -/
theorem split_written {styled : List (Case × Word)} (later : ∀ entry ∈ styled.tail, entry.1 ≠ .lower) :
    ((written styled).splitBy joined).map (List.map upperAscii) =
      (chunks styled).map (List.map upperAscii) := by
  induction styled with
  | nil => rfl
  | cons entry rest ih =>
    obtain ⟨case, w⟩ := entry
    have below := ih fun entry member => later entry (List.mem_of_mem_tail member)
    have border : ∀ x ∈ (case.write w.chars).getLast?, ∀ y ∈ (written rest).head?,
        joined x y = case.glues w.chars :=
      fun x last y head => joined_last last (head_written later head)
    show ((case.write w.chars ++ written rest).splitBy joined).map _ = _
    rw [chunks]
    by_cases glues : case.glues w.chars
    · rw [if_pos glues, splitBy_append_of_joined, weld_map, weld_map, split_write, below]
      rwa [glues] at border
    · rw [if_neg glues, List.splitBy_append, List.map_append, List.map_append, split_write, below]
      rwa [(Bool.not_eq_true _).mp glues] at border

theorem flatten_cut (case : Case) (w : List Char) : (case.cut w).flatten = w := by
  cases case with
  | capitals => exact List.flatten_splitBy _ w
  | _ => exact List.append_nil w

theorem flatten_chunks (styled : List (Case × Word)) :
    (chunks styled).flatten = styled.flatMap fun entry => entry.2.chars := by
  induction styled with
  | nil => rfl
  | cons entry rest ih =>
    rw [chunks, List.flatMap_cons, ← ih]
    split
    · rw [weld_flatten, flatten_cut]
    · rw [List.flatten_append, flatten_cut]

theorem lower_chunks (styled : List (Case × Word)) : ∀ w ∈ chunks styled, Lower w := by
  intro w member c inside
  have there : c ∈ (chunks styled).flatten := List.mem_flatten.mpr ⟨w, member, inside⟩
  rw [flatten_chunks] at there
  obtain ⟨entry, _, letter⟩ := List.mem_flatMap.mp there
  exact entry.2.alphabet c letter

/-- A name with capitals has the verdict of the words that are left of it. -/
theorem keyName_written {styled : List (Case × Word)}
    (later : ∀ entry ∈ styled.tail, entry.1 ≠ .lower) :
    keyNameIsSensitive (String.ofList (written styled)) ↔ Named (chunks styled) := by
  have runs : ∀ w ∈ (written styled).splitBy joined, w ≠ [] ∧ Alnum w := by
    intro w member
    refine ⟨List.ne_nil_of_mem_splitBy member, fun c inside => ?_⟩
    have there : c ∈ ((written styled).splitBy joined).flatten :=
      List.mem_flatten.mpr ⟨w, member, inside⟩
    rw [List.flatten_splitBy] at there
    exact alnum_written styled c there
  rw [keyNameIsSensitive, String.toList_ofList, splitCamel_eq, sensitive_intercalate (.inl rfl) runs,
    split_written later, heard_iff_named (lower_chunks styled)]

/-! ## The verdict on all spellings -/

/-- All usual spellings of a list of words have one verdict exactly when the words that are left of
them, however they are written, hold a sensitive name whenever the words do. -/
theorem same_verdict_iff (ws : List Word) :
    (∀ s s', Usual ws s → Usual ws s' → keyNameIsSensitive s = keyNameIsSensitive s') ↔
      ∀ styled : List (Case × Word), styled.map Prod.snd = ws →
        (∀ entry ∈ styled.tail, entry.1 ≠ .lower) →
        (Named (chunks styled) ↔ Named (ws.map Word.chars)) := by
  constructor
  · intro same styled words later
    have verdict := same _ _ (.humps styled words later) .snake
    rw [← keyName_written later, ← keyName_separated (.inl rfl) ws, verdict]
  · intro agree
    have verdict : ∀ s, Usual ws s → (keyNameIsSensitive s ↔ Named (ws.map Word.chars)) := by
      intro s usual
      cases usual with
      | snake => exact keyName_separated (.inl rfl) ws
      | kebab => exact keyName_separated (.inr rfl) ws
      | humps styled words later => exact (keyName_written later).trans (agree styled words later)
    intro s s' usual usual'
    rw [Bool.eq_iff_iff, verdict s usual, verdict s' usual']

/-- Without words in capitals, or of one letter, all words are left as they are. -/
theorem keyName_humps {styled : List (Case × Word)}
    (later : ∀ entry ∈ styled.tail, entry.1 ≠ .lower)
    (plain : ∀ entry ∈ styled, entry.1 ≠ .capitals ∧ 1 < entry.2.chars.length) :
    keyNameIsSensitive (String.ofList (written styled)) ↔
      Named (styled.map fun entry => entry.2.chars) := by
  suffices same : chunks styled = styled.map fun entry => entry.2.chars by
    rw [keyName_written later, same]
  clear later
  induction styled with
  | nil => rfl
  | cons entry rest ih =>
    obtain ⟨case, w⟩ := entry
    have below := ih fun entry member => plain entry (List.mem_cons_of_mem _ member)
    obtain ⟨other, long⟩ := plain (case, w) List.mem_cons_self
    have border : case.glues w.chars = false := by
      rw [Bool.eq_false_iff, Ne, Case.glues, Option.any_eq_true]
      rintro ⟨x, last, capital⟩
      suffices letter : x ∈ w.chars by
        rw [not_upper (w.alphabet x letter)] at capital
        cases capital
      cases case with
      | lower => exact List.mem_of_getLast? last
      | capitals => contradiction
      | capitalised =>
        obtain ⟨c, tail, word⟩ := List.exists_cons_of_ne_nil w.full
        obtain ⟨d, tail, rfl⟩ := List.exists_cons_of_ne_nil fun empty : tail = [] => by
          rw [word, empty] at long
          exact Nat.lt_irrefl 1 long
        rw [Case.write, word, List.modifyHead_cons, List.getLast?_cons_cons] at last
        rw [word]
        exact List.mem_cons_of_mem c (List.mem_of_getLast? last)
    have whole : case.cut w.chars = [w.chars] := by
      cases case with
      | capitals => contradiction
      | _ => rfl
    rw [chunks, border, if_neg Bool.false_ne_true, whole, below]
    rfl

/-- Without these, a name with capitals has the verdict of the one with underscores. -/
theorem same_verdict_of_humps {styled : List (Case × Word)}
    (later : ∀ entry ∈ styled.tail, entry.1 ≠ .lower)
    (plain : ∀ entry ∈ styled, entry.1 ≠ .capitals ∧ 1 < entry.2.chars.length) :
    keyNameIsSensitive (String.ofList (written styled)) =
      keyNameIsSensitive (String.ofList (['_'].intercalate ((styled.map Prod.snd).map Word.chars))) := by
  rw [Bool.eq_iff_iff, keyName_humps later plain, keyName_separated (.inl rfl), List.map_map]
  rfl

/-- `ssn_last4` and `SSNLast4`: the capital of the second word is glued to the first. -/
theorem last4_two_verdicts : ∃ ws s s', ws ≠ [] ∧ Usual ws s ∧ Usual ws s' ∧
    keyNameIsSensitive s = true ∧ keyNameIsSensitive s' = false := by
  let ssn : Word := ⟨['s', 's', 'n'], rfl, by simp [isLowerAscii]⟩
  let last4 : Word := ⟨['l', 'a', 's', 't', '4'], rfl, by simp [isLowerAscii, isDigit]⟩
  refine ⟨[ssn, last4], _, _, List.cons_ne_nil _ _, .snake,
    .humps [(.capitals, ssn), (.capitalised, last4)] rfl (by simp), ?_, ?_⟩ <;> decide

end EndCloseRelay
