import EndCloseRelay.Mask.Defaults
import EndCloseRelay.Scanning.Pieces

/-!
# What redaction leaves

`hardDenyValue` against what it is for: no SSN and no card number stands in its
output.  It leaves no SSN.  A card number it leaves where every candidate that
overlaps it, as `PAN_CANDIDATE_RE` finds them, fails the Luhn check; the digits
that stand next to a card number decide which candidates these are.
-/

namespace EndCloseRelay

open Js Scanning

/-! ## The scans -/

theorem replaceAll_eq_render (matchAt : Finder Char) (sub : List Char → List Char)
    (prev : Option Char) (skip : Nat) (text : List Char) :
    replaceAll matchAt sub prev skip text = render sub (pieces matchAt prev skip text) := by
  induction text generalizing prev skip with
  | nil => cases skip <;> rfl
  | cons c rest ih =>
    cases skip with
    | succ skip => exact ih _ _
    | zero =>
      unfold replaceAll pieces
      cases matchAt prev (c :: rest) with
      | none => exact congrArg (c :: ·) (ih _ _)
      | some n => exact congrArg (sub ((c :: rest).take n) ++ ·) (ih _ _)

/-- An SSN shape: `ddd-dd-dddd`. -/
def isSsn : List Char → Bool
  | [a, b, c, d1, d, e, d2, f, g, h, i] =>
    [a, b, c, d, e, f, g, h, i].all isDigit && d1 == '-' && d2 == '-'
  | _ => false

/-- Digits with at most one space or dash between one and the next. -/
def isDigitRun : List Char → Bool
  | [] => false
  | [a] => isDigit a
  | a :: b :: rest =>
    isDigit a && (isDigitRun (b :: rest) || ((b == ' ' || b == '-') && isDigitRun rest))

/-- A card number: 13 to 19 digits that pass the Luhn check. -/
def isCardNumber (run : List Char) : Bool :=
  let digits := run.filter isDigit
  isDigitRun run && (13 ≤ digits.length && digits.length ≤ 19 && luhnValid digits)

/-- The candidate is one that `hardDenyValue` replaces. -/
def isReplaced (candidate : List Char) : Bool :=
  let digits := candidate.filter fun c => !(c == ' ' || c == '-')
  13 ≤ digits.length && digits.length ≤ 19 && luhnValid digits

/-- The text after the first replacement of `hardDenyValue`. -/
def withoutSsns (value : String) : List Char :=
  replaceAll matchSsn (fun _ => redacted.toList) none 0 value.toList

/-- `hardDenyValue`, by the pieces of its second scan. -/
theorem hardDenyValue_toList (value : String) : (hardDenyValue value).toList =
    render (fun _ => redacted.toList)
      (settle isReplaced (pieces matchPan none 0 (withoutSsns value))) := by
  unfold hardDenyValue
  rw [String.toList_ofList, replaceAll_eq_render, render_settle]
  rfl

/-! ## What the expressions match -/

/-- `SSN_RE` matches the SSN shapes between word boundaries. -/
theorem matchSsn_of_shape {prev : Option Char} {run after : List Char} (shape : isSsn run)
    (opens : wordBoundary prev run.head?) (closes : wordBoundary run.getLast? after.head?) :
    matchSsn prev (run ++ after) = some run.length := by
  unfold isSsn at shape
  split at shape
  · rename_i a b c d1 d e d2 f g h i
    have opens : wordBoundary prev (some a) = true := opens
    have closes : wordBoundary (some i) after.head? = true := closes
    have shape := shape
    simp only [Bool.and_eq_true] at shape
    show (if wordBoundary prev (some a) && [a, b, c, d, e, f, g, h, i].all isDigit && d1 == '-' &&
      d2 == '-' && wordBoundary (some i) after.head? then some 11 else none) = _
    rw [opens, closes, shape.1.1, shape.1.2, shape.2]
    rfl
  · cases shape

theorem matchSsn_shape {prev : Option Char} {text : List Char} {n : Nat}
    (found : matchSsn prev text = some n) : ∃ run after, text = run ++ after ∧ n = run.length ∧
      isSsn run ∧ wordBoundary prev run.head? ∧ wordBoundary run.getLast? after.head? := by
  unfold matchSsn at found
  split at found
  · rename_i a b c d1 d e d2 f g h i rest
    split at found
    · rename_i matched
      simp only [Bool.and_eq_true] at matched
      obtain ⟨⟨⟨⟨opens, digits⟩, first⟩, second⟩, closes⟩ := matched
      refine ⟨[a, b, c, d1, d, e, d2, f, g, h, i], rest, rfl, (Option.some.inj found).symm, ?_,
        opens, closes⟩
      show ([a, b, c, d, e, f, g, h, i].all isDigit && d1 == '-' && d2 == '-') = true
      rw [digits, first, second]
      rfl
    · cases found
  · cases found

theorem matchSsn_lawful : Finder.Lawful matchSsn := by
  intro prev text n found
  obtain ⟨run, after, rfl, rfl, shape, -⟩ := matchSsn_shape found
  cases run with
  | nil => cases shape
  | cons a run => simp

/-- The lengths of the repetitions end behind digits. -/
theorem digit_of_panLengths {limit consumed n : Nat} {text : List Char}
    (listed : n ∈ panLengths limit consumed text) :
    ∃ k d, n = consumed + k + 1 ∧ text[k]? = some d ∧ isDigit d := by
  induction limit generalizing consumed text with
  | zero => cases listed
  | succ limit ih =>
    cases text with
    | nil => cases listed
    | cons a rest =>
      unfold panLengths at listed
      by_cases digit : isDigit a
      · rw [if_pos digit] at listed
        rcases List.mem_cons.mp listed with rfl | later
        · exact ⟨0, a, rfl, rfl, digit⟩
        · obtain ⟨k, d, rfl, at_, isDigit_⟩ := ih later
          exact ⟨k + 1, d, by omega, at_, isDigit_⟩
      · rw [if_neg digit] at listed
        split at listed
        · cases rest with
          | nil => cases listed
          | cons b rest =>
            by_cases digit' : isDigit b
            · simp only [digit', if_true] at listed
              rcases List.mem_cons.mp listed with rfl | later
              · exact ⟨1, b, rfl, rfl, digit'⟩
              · obtain ⟨k, d, rfl, at_, isDigit_⟩ := ih later
                exact ⟨k + 2, d, by omega, at_, isDigit_⟩
            · simp only [digit'] at listed
              cases listed
        · cases listed

/-- What `PAN_CANDIDATE_RE` matches begins and ends with a digit, at word boundaries. -/
theorem matchPan_ends {prev : Option Char} {text : List Char} {n : Nat}
    (found : matchPan prev text = some n) : ∃ run after first last, text = run ++ after ∧
      n = run.length ∧ run.head? = some first ∧ isDigit first ∧ run.getLast? = some last ∧
      isDigit last ∧ wordBoundary prev run.head? ∧ wordBoundary run.getLast? after.head? := by
  cases text with
  | nil => cases found
  | cons a rest =>
    have found : (if isDigit a && wordBoundary prev (some a) then
      ((panLengths 18 1 rest).drop 11).reverse.find? fun n =>
        wordBoundary ((a :: rest)[n - 1]?) ((a :: rest)[n]?) else none) = some n := found
    split at found
    · rename_i starts
      rw [Bool.and_eq_true] at starts
      have edge := List.find?_some found
      obtain ⟨k, d, rfl, at_, digit⟩ :=
        digit_of_panLengths (List.mem_of_mem_drop
          (List.mem_reverse.mp (List.mem_of_find?_eq_some found)))
      have bound : k < rest.length := (List.getElem?_eq_some_iff.mp at_).1
      have behind : (a :: rest)[1 + k]? = some d := by
        rw [Nat.add_comm]
        exact at_
      have last : ((a :: rest).take (1 + k + 1)).getLast? = some d := by
        rw [List.getLast?_take, if_neg (by omega), show 1 + k + 1 - 1 = 1 + k by omega, behind]
        rfl
      refine ⟨(a :: rest).take (1 + k + 1), (a :: rest).drop (1 + k + 1), a, d,
        (List.take_append_drop _ _).symm, ?_, rfl, starts.1, last, digit, starts.2, ?_⟩
      · rw [List.length_take_of_le]
        simp only [List.length_cons]
        omega
      · rw [last, List.head?_drop, ← behind]
        exact edge
    · cases found

theorem matchPan_lawful : Finder.Lawful matchPan := by
  intro prev text n found
  obtain ⟨run, after, first, -, rfl, rfl, starts, -⟩ := matchPan_ends found
  cases run with
  | nil => cases starts
  | cons a run => simp

/-! ## Nothing but the redacted runs goes -/

/-- There is no boundary between two digits. -/
theorem wordBoundary_digits {a b : Char} (first : isDigit a) (second : isDigit b) :
    wordBoundary (some a) (some b) = false := by
  simp [wordBoundary, isWordChar, first, second]

/-- A shape whose substrings are digits, spaces and dashes, with digits at the ends. -/
structure Numeric (shape : List Char → Bool) : Prop where
  ends : ∀ run, shape run → ∃ first last, run.head? = some first ∧ isDigit first ∧
    run.getLast? = some last ∧ isDigit last
  chars : ∀ run, shape run → ∀ a ∈ run, isDigit a ∨ a = ' ' ∨ a = '-'

theorem Numeric.unmarked {shape : List Char → Bool} (numeric : Numeric shape) (run : List Char)
    (shaped : shape run) (a : Char) (member : a ∈ run) : a ∉ redacted.toList := by
  intro marked
  have letters : ∀ a ∈ redacted.toList, ¬ isDigit a ∧ a ≠ ' ' ∧ a ≠ '-' := by
    simp [redacted, isDigit]
  obtain ⟨digit, space, dash⟩ := letters a marked
  rcases numeric.chars run shaped a member with isDigit_ | rfl | rfl
  · exact digit isDigit_
  · exact space rfl
  · exact dash rfl

/-- Replacing runs that begin and end with digits, at word boundaries, leaves
the substrings of a numeric shape that no such run overlaps. -/
theorem Numeric.marks {shape : List Char → Bool} (numeric : Numeric shape)
    {ps : List (Piece Char)}
    (runs : ∀ qs hit qs', ps = qs ++ .hit hit :: qs' → ∃ first last, hit.head? = some first ∧
      isDigit first ∧ hit.getLast? = some last ∧ isDigit last ∧
      wordBoundary (source qs).getLast? hit.head? ∧ wordBoundary hit.getLast? (source qs').head?) :
    Marks wordBoundary shape redacted.toList ps where
  filled := by decide
  runs qs hit qs' split := by
    obtain ⟨first, last, starts, -, -, -, opens, closes⟩ := runs qs hit qs' split
    refine ⟨fun empty => ?_, opens, closes⟩
    rw [empty] at starts
    cases starts
  shaped run shaped empty := by
    obtain ⟨first, last, starts, -⟩ := numeric.ends run shaped
    rw [empty] at starts
    cases starts
  unmarked := numeric.unmarked
  joined run shaped qs hit qs' split := by
    obtain ⟨first, last, starts, digit, ends, digit', -⟩ := runs qs hit qs' split
    obtain ⟨first', last', starts', isDigit_, ends', isDigit'⟩ := numeric.ends run shaped
    rw [starts, ends, starts', ends']
    exact ⟨wordBoundary_digits digit' isDigit_, wordBoundary_digits isDigit' digit⟩

theorem isSsn_numeric : Numeric isSsn where
  ends run shaped := by
    unfold isSsn at shaped
    split at shaped
    · rename_i a b c d1 d e d2 f g h i
      simp only [List.all_cons, Bool.and_eq_true] at shaped
      exact ⟨a, i, rfl, shaped.1.1.1, rfl, shaped.1.1.2.2.2.2.2.2.2.2.1⟩
    · cases shaped
  chars run shaped x member := by
    unfold isSsn at shaped
    split at shaped
    · rename_i a b c d1 d e d2 f g h i
      simp only [Bool.and_eq_true, List.all_eq_true, beq_iff_eq] at shaped
      obtain ⟨⟨digits, rfl⟩, rfl⟩ := shaped
      by_cases dash : x = '-'
      · exact .inr (.inr dash)
      · refine .inl (digits x ?_)
        simp only [List.mem_cons, dash, false_or, List.not_mem_nil, or_false] at member ⊢
        exact member
    · cases shaped

theorem isDigitRun_ends {run : List Char} (shaped : isDigitRun run) : ∃ first last,
    run.head? = some first ∧ isDigit first ∧ run.getLast? = some last ∧ isDigit last := by
  fun_induction isDigitRun run with
  | case1 => cases shaped
  | case2 a => exact ⟨a, a, rfl, shaped, rfl, shaped⟩
  | case3 a b rest digits spaced =>
    simp only [Bool.and_eq_true, Bool.or_eq_true] at shaped
    obtain ⟨digit, next | ⟨-, next⟩⟩ := shaped
    · obtain ⟨-, last, -, -, ends, digit'⟩ := digits next
      exact ⟨a, last, rfl, digit, by rw [List.getLast?_cons_cons, ends], digit'⟩
    · obtain ⟨first, last, starts, -, ends, digit'⟩ := spaced next
      cases rest with
      | nil => cases starts
      | cons c rest =>
        exact ⟨a, last, rfl, digit, by rw [List.getLast?_cons_cons, List.getLast?_cons_cons, ends],
          digit'⟩

theorem isDigitRun_chars {run : List Char} (shaped : isDigitRun run) (x : Char)
    (member : x ∈ run) : isDigit x ∨ x = ' ' ∨ x = '-' := by
  fun_induction isDigitRun run with
  | case1 => cases member
  | case2 a => exact .inl (List.mem_singleton.mp member ▸ shaped)
  | case3 a b rest digits spaced =>
    simp only [Bool.and_eq_true, Bool.or_eq_true, beq_iff_eq] at shaped
    obtain ⟨digit, next | ⟨separator, next⟩⟩ := shaped
    · rcases List.mem_cons.mp member with rfl | member
      · exact .inl digit
      · exact digits next member
    · rcases List.mem_cons.mp member with rfl | member
      · exact .inl digit
      · rcases List.mem_cons.mp member with rfl | member
        · exact .inr separator
        · exact spaced next member

theorem isCardNumber_numeric : Numeric isCardNumber where
  ends _ shaped := isDigitRun_ends (Bool.and_eq_true_iff.mp shaped).1
  chars _ shaped := isDigitRun_chars (Bool.and_eq_true_iff.mp shaped).1

/-! ## What is left -/

/-- The runs of the first scan. -/
theorem ssn_runs (value : String) (qs : List (Piece Char)) (hit : List Char)
    (qs' : List (Piece Char))
    (split : pieces matchSsn none 0 value.toList = qs ++ .hit hit :: qs') : ∃ first last,
    hit.head? = some first ∧ isDigit first ∧ hit.getLast? = some last ∧ isDigit last ∧
      wordBoundary (source qs).getLast? hit.head? ∧
        wordBoundary hit.getLast? (source qs').head? := by
  have cut : matchSsn (lastOr none ([] ++ source qs)) (hit ++ source qs') = some hit.length :=
    cut_of_pieces matchSsn_lawful split
  obtain ⟨run, after, text, length, shape, opens, closes⟩ := matchSsn_shape cut
  obtain ⟨rfl, rfl⟩ := List.append_inj text length
  obtain ⟨first, last, starts, digit, ends, digit'⟩ := isSsn_numeric.ends hit shape
  rw [List.nil_append, lastOr_none] at opens
  exact ⟨first, last, starts, digit, ends, digit', opens, closes⟩

/-- The runs of the second scan that pass the Luhn check. -/
theorem pan_runs (value : String) (qs : List (Piece Char)) (hit : List Char)
    (qs' : List (Piece Char))
    (split : settle isReplaced (pieces matchPan none 0 (withoutSsns value)) =
      qs ++ .hit hit :: qs') :
    ∃ first last, hit.head? = some first ∧ isDigit first ∧ hit.getLast? = some last ∧
      isDigit last ∧ wordBoundary (source qs).getLast? hit.head? ∧
        wordBoundary hit.getLast? (source qs').head? := by
  obtain ⟨-, before, after, found, rfl, rfl⟩ := hit_of_settle split
  have cut : matchPan (lastOr none ([] ++ source before)) (hit ++ source after) = some hit.length :=
    cut_of_pieces matchPan_lawful found
  obtain ⟨run, behind, first, last, text, length, starts, digit, ends, digit', opens, closes⟩ :=
    matchPan_ends cut
  obtain ⟨rfl, rfl⟩ := List.append_inj text length
  rw [List.nil_append, lastOr_none] at opens
  rw [source_settle, source_settle]
  exact ⟨first, last, starts, digit, ends, digit', opens, closes⟩

/-- The first replacement leaves no SSN. -/
theorem withoutSsns_clean (value : String) : ¬ Exposes wordBoundary isSsn (withoutSsns value) := by
  unfold withoutSsns
  rw [replaceAll_eq_render, (isSsn_numeric.marks (ssn_runs value)).exposes_iff_plain]
  rintro ⟨qs, run, qs', split, shape, opens, closes⟩
  -- the scan has passed over the first digit of the shape, where it would have matched
  cases run with
  | nil => cases shape
  | cons a run =>
    rw [List.append_assoc] at split
    have cut : matchSsn (lastOr none ([] ++ source qs))
        (a :: source (run.map .plain ++ qs')) = none :=
      cut_of_pieces matchSsn_lawful split
    have plain : source (run.map .plain ++ qs') = run ++ source qs' := by
      rw [source, render_append, render_map_plain]
      rfl
    rw [List.nil_append, lastOr_none, plain] at cut
    cases cut.symm.trans (matchSsn_of_shape shape opens closes)

/-- `hardDenyValue` leaves no SSN. -/
theorem hardDenyValue_no_ssn (value : String) :
    ¬ Exposes wordBoundary isSsn (hardDenyValue value).toList := by
  rw [hardDenyValue_toList, (isSsn_numeric.marks (pan_runs value)).exposes_iff, source_settle]
  rintro ⟨before, run, after, stands, shape, -⟩
  rw [source_pieces matchPan_lawful] at stands
  exact withoutSsns_clean value ⟨before, run, after, stands, shape⟩

/-! ## Every card number is offered -/

/-- A digit run with one digit is that digit. -/
theorem eq_nil_of_one_digit {a : Char} {rest : List Char} (shaped : isDigitRun (a :: rest))
    (one : ((a :: rest).filter isDigit).length = 1) : rest = [] := by
  obtain ⟨first, last, starts, digit, ends, digit'⟩ := isDigitRun_ends shaped
  obtain rfl := Option.some.inj starts
  rw [List.filter_cons_of_pos digit, List.length_cons] at one
  by_contra more
  rw [List.getLast?_cons_of_ne_nil more] at ends
  have listed : last ∈ rest.filter isDigit :=
    List.mem_filter.mpr ⟨List.mem_of_getLast? ends, digit'⟩
  have positive := List.length_pos_of_mem listed
  omega

/-- The repetitions reach to the end of a digit run. -/
theorem panLengths_of_digitRun {limit consumed k : Nat} {a : Char} {rest after : List Char}
    (shaped : isDigitRun (a :: rest)) (count : ((a :: rest).filter isDigit).length = k + 2)
    (within : k < limit) :
    (panLengths limit consumed (rest ++ after))[k]? = some (consumed + rest.length) := by
  induction limit generalizing consumed k a rest with
  | zero => omega
  | succ limit ih =>
    have digit : isDigit a := by
      obtain ⟨first, last, starts, digit, -⟩ := isDigitRun_ends shaped
      exact Option.some.inj starts ▸ digit
    rw [List.filter_cons_of_pos digit, List.length_cons] at count
    -- what the rest of a digit run is worth, one or two characters on
    have onward : ∀ (b : Char) (rest : List Char) (step : Nat), isDigitRun (b :: rest) →
        ((b :: rest).filter isDigit).length = k + 1 →
        ((consumed + step) :: panLengths limit (consumed + step) (rest ++ after))[k]? =
          some (consumed + step + rest.length) := by
      intro b rest step shaped count
      cases k with
      | zero =>
        rw [eq_nil_of_one_digit shaped count]
        rfl
      | succ k => exact ih shaped count (by omega)
    cases rest with
    | nil => cases count
    | cons b rest =>
      unfold isDigitRun at shaped
      simp only [Bool.and_eq_true, Bool.or_eq_true] at shaped
      obtain ⟨-, next | ⟨separator, next⟩⟩ := shaped
      · have digit : isDigit b := by
          obtain ⟨first, last, starts, digit, -⟩ := isDigitRun_ends next
          exact Option.some.inj starts ▸ digit
        have same := onward b rest 1 next (by omega)
        rw [List.cons_append]
        unfold panLengths
        rw [if_pos digit, same, List.length_cons]
        exact congrArg some (by omega)
      · have plain : isDigit b = false := by
          simp only [beq_iff_eq] at separator
          rcases separator with rfl | rfl <;> rfl
        cases rest with
        | nil => cases next
        | cons c rest =>
          have digit : isDigit c := by
            obtain ⟨first, last, starts, digit, -⟩ := isDigitRun_ends next
            exact Option.some.inj starts ▸ digit
          rw [List.filter_cons_of_neg (by simp [plain])] at count
          have same := onward c rest 2 next (by omega)
          rw [List.cons_append]
          unfold panLengths
          rw [if_neg (by simp [plain]), if_pos (by simpa using separator)]
          show (if isDigit c then (consumed + 2) :: panLengths limit (consumed + 2) (rest ++ after)
            else [])[k]? = _
          rw [if_pos digit, same, List.length_cons, List.length_cons]
          exact congrArg some (by omega)

/-- `PAN_CANDIDATE_RE` matches where a card number begins. -/
theorem matchPan_of_card {prev : Option Char} {run after : List Char} (card : isCardNumber run)
    (opens : wordBoundary prev run.head?) (closes : wordBoundary run.getLast? after.head?) :
    matchPan prev (run ++ after) ≠ none := by
  unfold isCardNumber at card
  simp only [Bool.and_eq_true, decide_eq_true_eq] at card
  obtain ⟨shaped, ⟨least, most⟩, -⟩ := card
  cases run with
  | nil => cases shaped
  | cons a rest =>
    obtain ⟨first, last, starts, digit, ends, -⟩ := isDigitRun_ends shaped
    obtain rfl := Option.some.inj starts
    obtain ⟨k, count⟩ : ∃ k, ((a :: rest).filter isDigit).length = k + 2 :=
      ⟨((a :: rest).filter isDigit).length - 2, by omega⟩
    have reached : (panLengths 18 1 (rest ++ after))[k]? = some (1 + rest.length) :=
      panLengths_of_digitRun shaped count (by omega)
    have listed : 1 + rest.length ∈ ((panLengths 18 1 (rest ++ after)).drop 11).reverse := by
      refine List.mem_reverse.mpr (List.mem_of_getElem? (i := k - 11) ?_)
      rw [List.getElem?_drop, show 11 + (k - 11) = k by omega, reached]
    intro unmatched
    have tested : (if isDigit a && wordBoundary prev (some a) then
      ((panLengths 18 1 (rest ++ after)).drop 11).reverse.find? fun n =>
        wordBoundary ((a :: (rest ++ after))[n - 1]?) ((a :: (rest ++ after))[n]?) else none) =
          none := unmatched
    have opens : wordBoundary prev (some a) = true := opens
    rw [digit, opens] at tested
    have edge := List.find?_eq_none.mp tested _ listed
    refine edge ?_
    have behind : (a :: (rest ++ after))[1 + rest.length - 1]? = (a :: rest).getLast? := by
      rw [List.getLast?_eq_getElem?, ← List.cons_append, List.getElem?_append_left
        (by simp only [List.length_cons]; omega)]
      exact congrArg (fun n => (a :: rest)[n]?) (by simp only [List.length_cons]; omega)
    have next : (a :: (rest ++ after))[1 + rest.length]? = after.head? := by
      rw [← List.cons_append, List.getElem?_append_right (by simp only [List.length_cons]; omega),
        List.head?_eq_getElem?]
      exact congrArg (fun n => after[n]?) (by simp only [List.length_cons]; omega)
    rw [behind, next]
    exact closes

/-- A candidate overlaps every card number of a text. -/
theorem card_offered {text before run after : List Char}
    (stands : Stands wordBoundary text before run after) (card : isCardNumber run) :
    Struck (pieces matchPan none 0 text) before run := by
  by_contra unstruck
  have clear : ∀ qs hit qs', pieces matchPan none 0 text = qs ++ .hit hit :: qs' →
      (source qs).length + hit.length ≤ before.length ∨
        before.length + run.length ≤ (source qs).length := by
    intro qs hit qs' split
    by_contra overlap
    exact unstruck ⟨qs, hit, qs', split, by omega, by omega⟩
  have filled : ∀ qs hit qs', pieces matchPan none 0 text = qs ++ .hit hit :: qs' →
      id hit ≠ [] := by
    intro qs hit qs' split empty
    have cut : matchPan _ (hit ++ source qs') = some hit.length :=
      cut_of_pieces matchPan_lawful split
    have positive := (matchPan_lawful _ _ _ cut).1
    rw [show hit = [] from empty] at positive
    cases positive
  have cut_ := source_pieces matchPan_lawful none 0 text
  obtain ⟨qs, qs', split, rfl, rfl⟩ :=
    plain_of_clear (f := id) filled (cut_.trans stands.text) clear
  -- the scan has passed over the first digit of the card number, where it would have matched
  cases run with
  | nil => cases card
  | cons a run =>
    rw [List.append_assoc] at split
    have cut : matchPan (lastOr none ([] ++ source qs))
        (a :: source (run.map .plain ++ qs')) = none :=
      cut_of_pieces matchPan_lawful split
    have plain : source (run.map .plain ++ qs') = run ++ source qs' := by
      rw [source, render_append, render_map_plain]
      rfl
    rw [List.nil_append, lastOr_none, plain] at cut
    exact matchPan_of_card card stands.opens stands.closes cut

/-- A candidate of the scan that passes the Luhn check overlaps the run behind
some text. -/
def Caught (text before run : List Char) : Prop :=
  ∃ qs candidate qs', pieces matchPan none 0 text = qs ++ .hit candidate :: qs' ∧
    isReplaced candidate ∧ (source qs).length < before.length + run.length ∧
    before.length < (source qs).length + candidate.length

theorem struck_iff_caught (text before run : List Char) :
    Struck (settle isReplaced (pieces matchPan none 0 text)) before run ↔
      Caught text before run := by
  constructor
  · rintro ⟨qs, hit, qs', split, starts, ends⟩
    obtain ⟨replaced, before', after', found, rfl, rfl⟩ := hit_of_settle split
    rw [source_settle] at starts ends
    exact ⟨before', hit, after', found, replaced, starts, ends⟩
  · rintro ⟨qs, candidate, qs', split, replaced, starts, ends⟩
    refine ⟨settle isReplaced qs, candidate, settle isReplaced qs', ?_, ?_, ?_⟩
    · rw [split, settle_of_hit replaced]
    · rwa [source_settle]
    · rwa [source_settle]

/-- The output of `hardDenyValue` holds no card number just when every card number
of the input is caught. -/
theorem hardDenyValue_no_card_iff (value : String) :
    ¬ Exposes wordBoundary isCardNumber (hardDenyValue value).toList ↔
      ∀ before run after, Stands wordBoundary (withoutSsns value) before run after →
        isCardNumber run → Caught (withoutSsns value) before run := by
  rw [hardDenyValue_toList, (isCardNumber_numeric.marks (pan_runs value)).exposes_iff, source_settle,
    source_pieces matchPan_lawful]
  constructor
  · intro clean before run after stands card
    by_contra free
    exact clean ⟨before, run, after, stands, card, mt (struck_iff_caught _ _ _).mp free⟩
  · rintro caught ⟨before, run, after, stands, card, free⟩
    exact free ((struck_iff_caught _ _ _).mpr (caught before run after stands card))

/-- The output of `hardDenyValue` holds no SSN, and no card number just when a
candidate that passes the Luhn check overlaps every card number of the input. -/
theorem hardDenyValue_complete_iff (value : String) :
    (¬ Exposes wordBoundary isSsn (hardDenyValue value).toList ∧
      ¬ Exposes wordBoundary isCardNumber (hardDenyValue value).toList) ↔
    ∀ before run after, Stands wordBoundary (withoutSsns value) before run after →
      isCardNumber run → Caught (withoutSsns value) before run := by
  rw [and_iff_right (hardDenyValue_no_ssn value), hardDenyValue_no_card_iff]

/-- A card number before its expiry date stays. -/
theorem card_before_expiry_stays :
    hardDenyValue "4111 1111 1111 1111 12/26" = "4111 1111 1111 1111 12/26" ∧
      Exposes wordBoundary isCardNumber (hardDenyValue "4111 1111 1111 1111 12/26").toList := by
  have kept : hardDenyValue "4111 1111 1111 1111 12/26" = "4111 1111 1111 1111 12/26" := by decide
  refine ⟨kept, [], "4111 1111 1111 1111".toList, " 12/26".toList, ?_, by decide⟩
  rw [kept]
  exact ⟨by decide, by decide, by decide⟩

/-- A candidate overlaps every card number, so none is left where all candidates
pass the Luhn check. -/
theorem no_card_of_candidates (value : String)
    (replaced : ∀ qs candidate qs',
      pieces matchPan none 0 (withoutSsns value) = qs ++ .hit candidate :: qs' → isReplaced candidate) :
    ¬ Exposes wordBoundary isCardNumber (hardDenyValue value).toList := by
  refine (hardDenyValue_no_card_iff value).mpr fun before run after stands card => ?_
  obtain ⟨qs, candidate, qs', split, starts, ends⟩ := card_offered stands card
  exact ⟨qs, candidate, qs', split, replaced qs candidate qs' split, starts, ends⟩

end EndCloseRelay
