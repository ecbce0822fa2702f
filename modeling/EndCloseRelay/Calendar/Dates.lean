import Mathlib.Algebra.Group.Nat.Defs
import Mathlib.Data.List.Induction

/-!
# Calendar dates

Dates of the proleptic Gregorian calendar with years of four digits: which days
a month has, the text `YYYY-MM-DD`, and the date of a day counted from
0000-03-01, so that a leap day ends its year.
-/

namespace Calendar

/-! ## Digits of a fixed number -/

/-- The last `width` decimal digits of a number. -/
def fixed : Nat → Nat → List Char
  | 0, _ => []
  | width + 1, n => fixed width (n / 10) ++ [Nat.digitChar (n % 10)]

@[simp] theorem length_fixed (width n : Nat) : (fixed width n).length = width := by
  induction width generalizing n with
  | zero => rfl
  | succ width ih => rw [fixed, List.length_append, ih, List.length_singleton]

theorem isDigit_of_mem_fixed {width n : Nat} {c : Char} (member : c ∈ fixed width n) : c.isDigit := by
  induction width generalizing n with
  | zero => cases member
  | succ width ih =>
    rcases List.mem_append.mp member with before | last
    · exact ih before
    · rw [List.mem_singleton.mp last, Nat.isDigit_digitChar, decide_eq_true_iff]
      exact Nat.mod_lt n (by decide)

/-- The value of digits and one more. -/
theorem ofDigitChars_concat (digits : List Char) (c : Char) :
    Nat.ofDigitChars 10 (digits ++ [c]) 0 = 10 * Nat.ofDigitChars 10 digits 0 + (c.toNat - '0'.toNat) := by
  rw [Nat.ofDigitChars_append, Nat.ofDigitChars_cons, Nat.ofDigitChars_nil]

theorem ofDigitChars_fixed {width n : Nat} (small : n < 10 ^ width) :
    Nat.ofDigitChars 10 (fixed width n) 0 = n := by
  induction width generalizing n with
  | zero =>
    obtain rfl : n = 0 := by simpa using small
    rfl
  | succ width ih =>
    have above : n / 10 < 10 ^ width := by
      rw [Nat.pow_succ] at small
      omega
    have last := Nat.toNat_digitChar_sub_48_of_lt_ten (Nat.mod_lt n (by decide : 10 > 0))
    rw [fixed, ofDigitChars_concat, ih above]
    show 10 * (n / 10) + ((n % 10).digitChar.toNat - 48) = n
    omega

theorem fixed_injective {width a b : Nat} (first : a < 10 ^ width) (second : b < 10 ^ width)
    (same : fixed width a = fixed width b) : a = b := by
  rw [← ofDigitChars_fixed first, same, ofDigitChars_fixed second]

theorem digitChar_of_isDigit {c : Char} (digit : c.isDigit) :
    c.toNat - '0'.toNat < 10 ∧ Nat.digitChar (c.toNat - '0'.toNat) = c := by
  simp only [Char.isDigit, Bool.and_eq_true, decide_eq_true_iff] at digit
  have low : 48 ≤ c.toNat := digit.1
  have high : c.toNat ≤ 57 := digit.2
  have zero : '0'.toNat = 48 := rfl
  refine ⟨by omega, Char.toNat_inj.mp ?_⟩
  rw [Nat.toNat_digitChar_of_lt_ten (by omega)]
  omega

/-- Digits denote a number of no more digits. -/
theorem ofDigitChars_lt {digits : List Char} (all : ∀ c ∈ digits, c.isDigit) :
    Nat.ofDigitChars 10 digits 0 < 10 ^ digits.length := by
  induction digits using List.reverseRecOn with
  | nil => exact Nat.one_pos
  | append_singleton digits c ih =>
    have above := ih fun d member => all d (List.mem_append_left _ member)
    have low := (digitChar_of_isDigit (all c (List.mem_append_right _ List.mem_cons_self))).1
    rw [ofDigitChars_concat, List.length_append, List.length_singleton, Nat.pow_succ]
    omega

theorem fixed_zero (width : Nat) : fixed width 0 = List.replicate width '0' := by
  induction width with
  | zero => rfl
  | succ width ih =>
    rw [fixed, Nat.zero_div, ih, List.replicate_succ']
    rfl

/-- The digits of what digits denote are the digits, padded with zeros. -/
theorem fixed_ofDigitChars {digits : List Char} (all : ∀ c ∈ digits, c.isDigit) {width : Nat}
    (short : digits.length ≤ width) : fixed width (Nat.ofDigitChars 10 digits 0) =
      List.replicate (width - digits.length) '0' ++ digits := by
  induction digits using List.reverseRecOn generalizing width with
  | nil =>
    rw [Nat.ofDigitChars_nil, fixed_zero, List.append_nil]
    rfl
  | append_singleton digits c ih =>
    obtain ⟨low, char⟩ := digitChar_of_isDigit (all c (List.mem_append_right _ List.mem_cons_self))
    rw [List.length_append, List.length_singleton] at short
    obtain ⟨width, rfl⟩ := Nat.exists_eq_succ_of_ne_zero (n := width) (by omega)
    have above := ih (fun d member => all d (List.mem_append_left _ member)) (Nat.le_of_succ_le_succ short)
    rw [ofDigitChars_concat, fixed, Nat.mul_add_div (by decide), Nat.div_eq_of_lt low, Nat.add_zero, above,
      Nat.mul_add_mod, Nat.mod_eq_of_lt low, char, List.length_append, List.length_singleton,
      Nat.succ_sub_succ, List.append_assoc]

/-- A number padded to a width it fits in. -/
theorem fixed_of_toDigits {width n : Nat} (some_ : 0 < width) (small : n < 10 ^ width) :
    List.replicate (width - (Nat.toDigits 10 n).length) '0' ++ Nat.toDigits 10 n = fixed width n := by
  have digits : ∀ c ∈ Nat.toDigits 10 n, c.isDigit := fun c =>
    Nat.isDigit_of_mem_toDigits (by decide) (by decide)
  have short := (Nat.length_toDigits_le_iff (by decide : 1 < 10) some_).mpr small
  rw [← fixed_ofDigitChars digits short, Nat.ofDigitChars_ten_toDigits]

/-! ## Dates -/

/-- A leap year. -/
def IsLeap (year : Int) : Prop := year % 4 = 0 ∧ (year % 100 ≠ 0 ∨ year % 400 = 0)

instance (year : Int) : Decidable (IsLeap year) := inferInstanceAs (Decidable (_ ∧ _))

/-- The days of a month. -/
def daysIn (year : Int) (month : Nat) : Nat :=
  if month = 2 then if IsLeap year then 29 else 28
  else if month = 4 ∨ month = 6 ∨ month = 9 ∨ month = 11 then 30
  else 31

/-- A day the calendar has, in a year of at most four digits. -/
def IsDate (year month day : Nat) : Prop :=
  year < 10000 ∧ (1 ≤ month ∧ month ≤ 12) ∧ 1 ≤ day ∧ day ≤ daysIn year month

instance (year month day : Nat) : Decidable (IsDate year month day) := inferInstanceAs (Decidable (_ ∧ _))

/-- A date. -/
structure Date where
  year : Nat
  month : Nat
  day : Nat
  valid : IsDate year month day

/-- `YYYY-MM-DD`. -/
def layout (year month day : Nat) : List Char :=
  fixed 4 year ++ '-' :: (fixed 2 month ++ '-' :: fixed 2 day)

/-- The text of a date. -/
def Date.text (date : Date) : String := String.ofList (layout date.year date.month date.day)

theorem daysIn_le (year : Int) (month : Nat) : daysIn year month ≤ 31 := by
  unfold daysIn
  split
  · split <;> decide
  · split <;> decide

theorem layout_injective {year month day year' month' day' : Nat} (fits : year < 10000 ∧ month < 100 ∧ day < 100)
    (fits' : year' < 10000 ∧ month' < 100 ∧ day' < 100)
    (same : layout year month day = layout year' month' day') :
    year = year' ∧ month = month' ∧ day = day' := by
  obtain ⟨years, rest⟩ := List.append_inj same (by rw [length_fixed, length_fixed])
  obtain ⟨months, days⟩ := List.append_inj (List.cons.inj rest).2 (by rw [length_fixed, length_fixed])
  exact ⟨fixed_injective fits.1 fits'.1 years, fixed_injective fits.2.1 fits'.2.1 months,
    fixed_injective fits.2.2 fits'.2.2 (List.cons.inj days).2⟩

/-- A layout is the text of a date when its numbers are. -/
theorem exists_date_iff {year month day : Nat} (fits : year < 10000 ∧ month < 100 ∧ day < 100) :
    (∃ date : Date, date.text = String.ofList (layout year month day)) ↔ IsDate year month day := by
  constructor
  · rintro ⟨⟨year', month', day', valid⟩, same⟩
    have short := Nat.le_trans valid.2.2.2 (daysIn_le year' month')
    have fits' : year' < 10000 ∧ month' < 100 ∧ day' < 100 :=
      ⟨valid.1, Nat.lt_of_le_of_lt valid.2.1.2 (by decide), Nat.lt_of_le_of_lt short (by decide)⟩
    obtain ⟨rfl, rfl, rfl⟩ := layout_injective fits' fits (String.ofList_injective same)
    exact valid
  · exact fun valid => ⟨⟨year, month, day, valid⟩, rfl⟩

/-! ## Days -/

/-- The year of a day of an era of 400 years. -/
def yearOfEra (day : Nat) : Nat := (day - day / 1460 + day / 36524 - day / 146096) / 365

/-- The day of its year of a day of an era. -/
def dayOfYear (day : Nat) : Nat := day - (365 * yearOfEra day + yearOfEra day / 4 - yearOfEra day / 100)

/-- The month of a day of the year from March on. -/
def monthOf (day : Nat) : Nat :=
  if (5 * day + 2) / 153 < 10 then (5 * day + 2) / 153 + 3 else (5 * day + 2) / 153 - 9

/-- The day of its month. -/
def dayOf (day : Nat) : Nat := day - (153 * ((5 * day + 2) / 153) + 2) / 5 + 1

/-- Centuries, cycles of four years, years and days of an era. -/
theorem exists_parts {day : Nat} (inside : day < 146097) : ∃ century cycle year rest,
    day = 36524 * century + 1461 * cycle + 365 * year + rest ∧ century ≤ 3 ∧ cycle ≤ 24 ∧ year ≤ 3 ∧
      rest ≤ 365 ∧ (rest = 365 → year = 3 ∧ (cycle < 24 ∨ century = 3)) := by
  obtain ⟨c, r, rfl, few, short⟩ : ∃ c r, day = 36524 * c + r ∧ c ≤ 3 ∧ (r < 36524 ∨ c = 3 ∧ r = 36524) := by
    by_cases last : day = 146096
    · exact ⟨3, 36524, by omega, by omega, by omega⟩
    · exact ⟨day / 36524, day % 36524, by omega, by omega, by omega⟩
  obtain ⟨s, within⟩ : ∃ s, r = 1461 * (r / 1461) + s := ⟨r % 1461, by omega⟩
  by_cases leap : s = 1460
  · exact ⟨c, r / 1461, 3, 365, by omega, few, by omega, by omega, by omega, by omega⟩
  · exact ⟨c, r / 1461, s / 365, s % 365, by omega, few, by omega, by omega, by omega, by omega⟩

section

variable {century cycle year rest : Nat} (few : century ≤ 3) (cycles : cycle ≤ 24) (years : year ≤ 3)
  (days : rest ≤ 365) (leap : rest = 365 → year = 3 ∧ (cycle < 24 ∨ century = 3))

include few cycles years days leap

theorem yearOfEra_parts : yearOfEra (36524 * century + 1461 * cycle + 365 * year + rest) =
    100 * century + 4 * cycle + year := by
  have first : (36524 * century + 1461 * cycle + 365 * year + rest) / 1460 =
      25 * century + cycle + (if 1460 ≤ 24 * century + cycle + 365 * year + rest then 1 else 0) := by
    split <;> omega
  have second : (36524 * century + 1461 * cycle + 365 * year + rest) / 36524 =
      century + (if 36524 ≤ 1461 * cycle + 365 * year + rest then 1 else 0) := by
    split <;> omega
  have third : (36524 * century + 1461 * cycle + 365 * year + rest) / 146096 =
      (if century = 3 ∧ 36524 ≤ 1461 * cycle + 365 * year + rest then 1 else 0) := by
    split <;> omega
  unfold yearOfEra
  rw [first, second, third]
  split <;> split <;> split <;> omega

theorem dayOfYear_parts : dayOfYear (36524 * century + 1461 * cycle + 365 * year + rest) = rest := by
  unfold dayOfYear
  rw [yearOfEra_parts few cycles years days leap]
  omega

end

/-- A day of an era has one of its 400 years, and is the 366th of a leap year only. -/
theorem yearOfEra_spec {day : Nat} (inside : day < 146097) : yearOfEra day < 400 ∧ dayOfYear day ≤ 365 ∧
    day = 365 * yearOfEra day + yearOfEra day / 4 - yearOfEra day / 100 + dayOfYear day ∧
    (dayOfYear day = 365 → (yearOfEra day + 1) % 4 = 0 ∧
      ((yearOfEra day + 1) % 100 ≠ 0 ∨ (yearOfEra day + 1) % 400 = 0)) := by
  obtain ⟨century, cycle, year, rest, rfl, few, cycles, years, days, leap⟩ := exists_parts inside
  rw [yearOfEra_parts few cycles years days leap, dayOfYear_parts few cycles years days leap]
  have fourths : (100 * century + 4 * cycle + year) / 4 = 25 * century + cycle := by omega
  have hundredths : (100 * century + 4 * cycle + year) / 100 = century := by omega
  rw [fourths, hundredths]
  refine ⟨by omega, days, by omega, fun last => ?_⟩
  have final := leap last
  omega

/-- The month and the day of each day of a year from March on. -/
theorem monthOf_dayOf_spec : ∀ day < 366, (1 ≤ monthOf day ∧ monthOf day ≤ 12) ∧ 1 ≤ dayOf day ∧
    (monthOf day ≤ 2 ↔ 306 ≤ day) ∧
    if monthOf day = 2 then dayOf day ≤ 28 ∨ day = 365 ∧ dayOf day = 29
    else dayOf day ≤ if monthOf day = 4 ∨ monthOf day = 6 ∨ monthOf day = 9 ∨ monthOf day = 11 then 30 else 31 := by
  decide +kernel

/-- The year of a day. -/
def yearOf (day : Int) : Int :=
  (yearOfEra (day % 146097).toNat : Int) + day / 146097 * 400 +
    (if monthOf (dayOfYear (day % 146097).toNat) ≤ 2 then 1 else 0)

/-- Every day is one of its month. -/
theorem day_spec (day : Int) :
    let inYear := dayOfYear (day % 146097).toNat
    (1 ≤ monthOf inYear ∧ monthOf inYear ≤ 12) ∧ 1 ≤ dayOf inYear ∧
      dayOf inYear ≤ daysIn (yearOf day) (monthOf inYear) := by
  have inside : (day % 146097).toNat < 146097 := by omega
  obtain ⟨-, within, -, leap⟩ := yearOfEra_spec inside
  obtain ⟨months, first, early, last⟩ := monthOf_dayOf_spec _ (Nat.lt_succ_of_le within)
  refine ⟨months, first, ?_⟩
  unfold daysIn
  by_cases february : monthOf (dayOfYear (day % 146097).toNat) = 2
  · rw [if_pos february] at last ⊢
    rcases last with short | ⟨final, twentyNine⟩
    · split <;> omega
    · have leapYear : IsLeap (yearOf day) := by
        have parts := leap final
        unfold IsLeap yearOf
        rw [if_pos (by omega)]
        omega
      rw [if_pos leapYear]
      omega
  · rw [if_neg february] at last ⊢
    exact last

/-- The years of four digits. -/
theorem yearOf_spec (day : Int) : (0 ≤ yearOf day ↔ -60 ≤ day) ∧ (yearOf day ≤ 9999 ↔ day < 3652365) := by
  have inside : (day % 146097).toNat < 146097 := by omega
  obtain ⟨small, within, total, -⟩ := yearOfEra_spec inside
  obtain ⟨-, -, early, -⟩ := monthOf_dayOf_spec _ (Nat.lt_succ_of_le within)
  unfold yearOf
  generalize yearOfEra (day % 146097).toNat = year at *
  generalize dayOfYear (day % 146097).toNat = inYear at *
  have most : 365 * year + year / 4 - year / 100 ≤ 145731 := by omega
  -- the eras in which the years of four digits begin and end, and those around them
  have eras : day / 146097 < -1 ∨ day / 146097 = -1 ∨ (0 ≤ day / 146097 ∧ day / 146097 < 24) ∨
      day / 146097 = 24 ∨ 24 < day / 146097 := by omega
  split
  · have late := early.mp (by assumption)
    rcases eras with before | first | within | last | after <;> omega
  · have soon : ¬ 306 ≤ inYear := mt early.mpr (by assumption)
    rcases eras with before | first | within | last | after <;> omega

end Calendar
