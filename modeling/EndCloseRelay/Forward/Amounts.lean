import EndCloseRelay.Forward.Allowlist
import Mathlib.Algebra.Order.Ring.Abs
import Mathlib.Data.Rat.Cast.Order
import Mathlib.Tactic.FieldSimp
import Mathlib.Tactic.Linarith
import Mathlib.Tactic.NormNum
import Mathlib.Tactic.Ring

/-!
# Amounts

What `toCents` makes of a decimal amount.  `Amount` is the amount as it is
written, with its value; `amountParts` reads exactly the texts of amounts, and
the arithmetic on doubles is exact where the hundredths fit into 53 bits.
-/

namespace EndCloseRelay

open Js

/-! ## Amounts as they are written -/

/-- An amount: an optional sign, digits, and at most two decimals. -/
structure Amount where
  negative : Bool
  whole : List Char
  decimals : List Char
  written : whole ≠ []
  wholeDigits : ∀ c ∈ whole, isDigit c
  decimalDigits : ∀ c ∈ decimals, isDigit c
  short : decimals.length ≤ 2

namespace Amount

/-- The characters of an amount; without decimals there is no point. -/
def chars (a : Amount) : List Char :=
  (if a.negative then ['-'] else []) ++ a.whole ++
    (if a.decimals = [] then [] else '.' :: a.decimals)

/-- The text of an amount. -/
def text (a : Amount) : String := String.ofList a.chars

/-- The decimal value of an amount. -/
def value (a : Amount) : ℚ :=
  (if a.negative then -1 else 1) *
    (digitsValue a.whole + digitsValue a.decimals / 10 ^ a.decimals.length)

/-- The decimals as hundredths. -/
def hundredths (a : Amount) : Nat := digitsValue a.decimals * 10 ^ (2 - a.decimals.length)

/-- The hundredths of an amount, less its sign. -/
def cents (a : Amount) : Nat := digitsValue a.whole * 100 + a.hundredths

theorem hundred_value (a : Amount) : 100 * a.value = (if a.negative then -1 else 1) * (a.cents : ℚ) := by
  have scaled : (100 : ℚ) = 10 ^ (2 - a.decimals.length) * 10 ^ a.decimals.length := by
    rw [← pow_add, Nat.sub_add_cancel a.short]
    norm_num
  have power : (10 : ℚ) ^ a.decimals.length ≠ 0 := by positivity
  unfold value cents hundredths
  push_cast
  rw [mul_left_comm, mul_add, scaled]
  field_simp

/-- An amount is within a bound when its hundredths are. -/
theorem abs_hundred_value (a : Amount) : |100 * a.value| = a.cents := by
  rw [hundred_value]
  split
  · rw [neg_one_mul, abs_neg, Nat.abs_cast]
  · rw [one_mul, Nat.abs_cast]

end Amount

/-! ## Reading an amount -/

theorem digitsValue_eq (digits : List Char) : digitsValue digits = Nat.ofDigitChars 10 digits 0 := by
  rw [Nat.ofDigitChars_eq_foldl]
  unfold digitsValue
  simp only [Nat.mul_comm]

/-- Zeros behind the digits multiply by powers of ten. -/
theorem digitsValue_pad (digits : List Char) (n : Nat) :
    digitsValue (digits ++ List.replicate n '0') = digitsValue digits * 10 ^ n := by
  rw [digitsValue_eq, digitsValue_eq, Nat.ofDigitChars_append, Nat.ofDigitChars_replicate_zero,
    Nat.mul_comm]

theorem takeWhile_digits {digits rest : List Char} (all : ∀ c ∈ digits, isDigit c)
    (ends : ∀ c ∈ rest.head?, isDigit c = false) :
    (digits ++ rest).takeWhile isDigit = digits ∧ (digits ++ rest).dropWhile isDigit = rest := by
  have stops : rest.takeWhile isDigit = [] ∧ rest.dropWhile isDigit = rest := by
    cases rest with
    | nil => exact ⟨rfl, rfl⟩
    | cons c rest =>
      have stop := ends c rfl
      rw [List.takeWhile_cons, List.dropWhile_cons, stop]
      exact ⟨rfl, rfl⟩
  rw [List.takeWhile_append_of_pos all, List.dropWhile_append_of_pos all, stops.1, stops.2,
    List.append_nil]
  exact ⟨rfl, rfl⟩

/-- `amountParts` behind the sign. -/
def unsignedParts (negative : Bool) (text : List Char) : Option (Bool × List Char × List Char) :=
  if (text.takeWhile isDigit).isEmpty then none
  else match text.dropWhile isDigit with
    | [] => some (negative, text.takeWhile isDigit, [])
    | '.' :: frac =>
      if frac.all isDigit && (frac.length == 1 || frac.length == 2) then
        some (negative, text.takeWhile isDigit, frac)
      else none
    | _ => none

theorem amountParts_negative (text : List Char) : amountParts ('-' :: text) = unsignedParts true text :=
  rfl

theorem amountParts_unsigned {text : List Char} (unsigned : text.head? ≠ some '-') :
    amountParts text = unsignedParts false text := by
  unfold amountParts
  split
  rename_i negative rest same
  split at same
  · exact absurd rfl unsigned
  · obtain ⟨rfl, rfl⟩ := Prod.mk.inj same
    rfl

/-- The parts of an amount are read from its characters. -/
theorem amountParts_chars (a : Amount) :
    amountParts a.chars = some (a.negative, a.whole, a.decimals) := by
  have behind : ∀ c ∈ (if a.decimals = [] then [] else '.' :: a.decimals).head?, isDigit c = false := by
    intro c first
    split at first
    · cases first
    · obtain rfl := Option.some.inj first
      decide
  obtain ⟨taken, dropped⟩ := takeWhile_digits a.wholeDigits behind
  have full : a.whole.isEmpty = false := List.isEmpty_eq_false_iff.mpr a.written
  have parts : unsignedParts a.negative (a.whole ++ if a.decimals = [] then [] else '.' :: a.decimals) =
      some (a.negative, a.whole, a.decimals) := by
    unfold unsignedParts
    rw [taken, dropped, full]
    by_cases none_ : a.decimals = []
    · simp only [none_, if_true]
      rfl
    · have long : 0 < a.decimals.length := List.length_pos_iff.mpr none_
      have short := a.short
      have lengths : (a.decimals.length == 1 || a.decimals.length == 2) = true := by
        rw [Bool.or_eq_true, beq_iff_eq, beq_iff_eq]
        omega
      simp only [if_neg none_, List.all_eq_true.mpr a.decimalDigits, lengths, Bool.and_self, if_true]
      rfl
  unfold Amount.chars
  cases sign : a.negative with
  | true =>
    rw [sign] at parts
    rw [if_pos rfl, List.append_assoc, List.singleton_append, amountParts_negative, parts]
  | false =>
    rw [sign] at parts
    rw [if_neg Bool.false_ne_true, List.nil_append, amountParts_unsigned, parts]
    obtain ⟨c, rest, shape⟩ := List.exists_cons_of_ne_nil a.written
    rw [shape]
    rintro first
    obtain rfl := Option.some.inj first
    exact absurd (a.wholeDigits '-' (shape ▸ List.mem_cons_self)) (by decide)

/-- Only the characters of an amount are read. -/
theorem exists_amount_of_parts {text : List Char} {parts : Bool × List Char × List Char}
    (read : amountParts text = some parts) : ∃ a : Amount, a.chars = text := by
  have signed : ∃ negative unsigned, text = (if negative then ['-'] else []) ++ unsigned ∧
      unsignedParts negative unsigned = some parts := by
    by_cases sign : text.head? = some '-'
    · obtain ⟨rest, rfl⟩ := List.head?_eq_some_iff.mp sign
      exact ⟨true, rest, rfl, read⟩
    · rw [amountParts_unsigned sign] at read
      exact ⟨false, text, rfl, read⟩
  obtain ⟨negative, unsigned, rfl, behind⟩ := signed
  clear read
  unfold unsignedParts at behind
  split at behind
  · cases behind
  rename_i full
  have whole : unsigned.takeWhile isDigit ≠ [] := fun empty => full (List.isEmpty_iff.mpr empty)
  have digits : ∀ c ∈ unsigned.takeWhile isDigit, isDigit c := fun c member =>
    List.mem_takeWhile_imp member
  have split_ := List.takeWhile_append_dropWhile (p := isDigit) (l := unsigned)
  split at behind
  · rename_i rest
    rw [rest, List.append_nil] at split_
    refine ⟨⟨negative, _, [], whole, digits, fun c member => absurd member List.not_mem_nil,
      Nat.zero_le 2⟩, ?_⟩
    exact (List.append_nil _).trans (congrArg (_ ++ ·) split_)
  · rename_i frac rest
    split at behind
    · rename_i passes
      rw [Bool.and_eq_true, Bool.or_eq_true, beq_iff_eq, beq_iff_eq] at passes
      obtain ⟨all, lengths⟩ := passes
      have some_ : frac ≠ [] := by
        rintro rfl
        rcases lengths with length | length <;> cases length
      refine ⟨⟨negative, _, frac, whole, digits, List.all_eq_true.mp all, by omega⟩, ?_⟩
      unfold Amount.chars
      rw [if_neg some_, List.append_assoc, ← rest, split_]
    · cases behind
  · cases behind

/-! ## Arithmetic -/

theorem roundNat_small {n : Nat} (small : n < 2 ^ 53) : roundNat n = .integer n := if_pos small

/-- Below `2 ^ 53` hundredths the arithmetic on doubles is exact. -/
theorem cents_exact {whole hundredths : Nat} (small : whole * 100 + hundredths < 2 ^ 53) :
    ((roundNat whole).scale 100).addNat hundredths = .integer (whole * 100 + hundredths : Nat) := by
  rw [roundNat_small (by omega), Double.scale, Int.toNat_natCast, roundNat_small (by omega),
    Double.addNat, Int.toNat_natCast, roundNat_small small]

/-! ## What `toCents` returns -/

/-- The text `toCents` reads: a string without `$`, commas and white space, or the
rendering of a number. -/
def amountText : Json → Option String
  | .num n => some n.text
  | .str s => some (String.ofList (s.toList.filter fun c => !(c == '$' || c == ',' || isSpace c)))
  | _ => none

theorem toCents_of_amountText {v : Json} {text : String} (read : amountText v = some text) :
    toCents v =
      match amountParts text.toList with
      | none => .error (.mapping ("unparseable amount: " ++ text))
      | some (negative, whole, frac) =>
        let hundredths := digitsValue (frac ++ List.replicate (2 - frac.length) '0')
        let cents := ((roundNat (digitsValue whole)).scale 100).addNat hundredths
        .ok (if negative then cents.neg else cents) := by
  cases v with
  | num n | str s =>
    obtain rfl := Option.some.inj read
    rfl
  | _ => cases read

theorem toCents_of_amount {v : Json} {a : Amount} (read : amountText v = some a.text) :
    toCents v = .ok (if a.negative
      then (((roundNat (digitsValue a.whole)).scale 100).addNat a.hundredths).neg
      else ((roundNat (digitsValue a.whole)).scale 100).addNat a.hundredths) := by
  rw [toCents_of_amountText read, Amount.text, String.toList_ofList, amountParts_chars]
  simp only [digitsValue_pad]
  rfl

/-- `toCents` returns exactly on amounts. -/
theorem toCents_returns_iff {v : Json} :
    (∃ cents, toCents v = .ok cents) ↔ ∃ a : Amount, amountText v = some a.text := by
  constructor
  · rintro ⟨cents, returns⟩
    cases read : amountText v with
    | none =>
      cases v with
      | num n | str s => cases read
      | _ => cases returns
    | some text =>
      rw [toCents_of_amountText read] at returns
      cases parts : amountParts text.toList with
      | none =>
        rw [parts] at returns
        cases returns
      | some found =>
        obtain ⟨a, chars⟩ := exists_amount_of_parts parts
        refine ⟨a, congrArg some ?_⟩
        rw [Amount.text, chars, String.ofList_toList]
  · rintro ⟨a, read⟩
    exact ⟨_, toCents_of_amount read⟩

/-- What `toCents` returns for an amount of at most `2 ^ 53 - 1` hundredths. -/
theorem toCents_small {v : Json} {a : Amount} (read : amountText v = some a.text)
    (small : |100 * a.value| ≤ 2 ^ 53 - 1) :
    ∃ n : Int, toCents v = .ok (.integer n) ∧ (n : ℚ) = 100 * a.value := by
  have fits : a.cents < 2 ^ 53 := by
    rw [a.abs_hundred_value] at small
    have whole : (a.cents : ℚ) < 2 ^ 53 := by linarith
    exact_mod_cast whole
  rw [toCents_of_amount read, cents_exact fits, a.hundred_value]
  cases a.negative with
  | true => exact ⟨-(a.cents : Int), rfl, by simp⟩
  | false => exact ⟨(a.cents : Int), rfl, by simp⟩

/-- `toCents` returns exactly on amounts and throws a `MappingError` otherwise; up
to `2 ^ 53 - 1` hundredths it returns 100 times the value, so the number of cents
of whatever text renders that many. -/
theorem toCents_exact :
    (∀ v, (∃ cents, toCents v = .ok cents) ↔ ∃ a : Amount, amountText v = some a.text) ∧
    (∀ v e, toCents v = .error e → ∃ message, e = .mapping message) ∧
    (∀ v (a : Amount) cents, toCents v = .ok cents → amountText v = some a.text →
      |100 * a.value| ≤ 2 ^ 53 - 1 → ∃ n : Int, cents = .integer n ∧ (n : ℚ) = 100 * a.value) ∧
    ∀ (n : Int) (s : String) (a : Amount), |n| ≤ 2 ^ 53 - 1 → amountText (.str s) = some a.text →
      a.value = n / 100 → toCents (.str s) = .ok (.integer n) := by
  refine ⟨fun v => toCents_returns_iff, fun v e => toCents_error, ?_, ?_⟩
  · intro v a cents returns read small
    obtain ⟨n, returns', value⟩ := toCents_small read small
    rw [returns] at returns'
    exact ⟨n, Except.ok.inj returns', value⟩
  · intro n s a small read value
    have hundredths : 100 * a.value = n := by
      rw [value]
      ring
    have within : |100 * a.value| ≤ 2 ^ 53 - 1 := by
      rw [hundredths]
      exact_mod_cast small
    obtain ⟨m, returns, same⟩ := toCents_small read within
    rw [hundredths] at same
    rw [returns, Int.cast_injective same]

/-- Every number of cents has a rendering with two decimals, and one with a `$`
and separators wherever they are put. -/
theorem exists_rendering (n : Int) : ∃ a : Amount, a.value = n / 100 ∧ a.decimals.length = 2 ∧
    ∀ s : String, (s.toList.filter fun c => !(c == '$' || c == ',' || isSpace c)) = a.chars →
      amountText (.str s) = some a.text := by
  have digits : ∀ n c, c ∈ Nat.toDigits 10 n → isDigit c := by
    intro n c member
    rw [← Nat.toList_repr, ← Nat.toString_eq_repr] at member
    exact isDigit_of_mem_toString member
  let cents := n.natAbs
  let a : Amount := {
    negative := decide (n < 0)
    whole := Nat.toDigits 10 (cents / 100)
    decimals := [Nat.digitChar (cents / 10 % 10), Nat.digitChar (cents % 10)]
    written := Nat.toDigits_ne_nil
    wholeDigits := digits _
    decimalDigits := by
      intro c member
      rcases List.mem_cons.mp member with rfl | member
      · exact digits (cents / 10 % 10) _ (by rw [Nat.toDigits_of_lt_base (by omega)]; exact List.mem_cons_self)
      · obtain rfl := List.mem_singleton.mp member
        exact digits (cents % 10) _ (by rw [Nat.toDigits_of_lt_base (by omega)]; exact List.mem_cons_self)
    short := le_refl 2 }
  refine ⟨a, ?_, rfl, fun s filtered => congrArg (fun chars => some (String.ofList chars)) filtered⟩
  have decimals : digitsValue a.decimals = cents / 10 % 10 * 10 + cents % 10 := by
    rw [digitsValue_eq, Nat.ofDigitChars_cons_digitChar_of_lt_ten (by omega),
      Nat.ofDigitChars_cons_digitChar_of_lt_ten (by omega), Nat.ofDigitChars_nil]
    omega
  have whole : digitsValue a.whole = cents / 100 := by
    rw [digitsValue_eq]
    exact Nat.ofDigitChars_ten_toDigits
  have total : a.cents = cents := by
    unfold Amount.cents Amount.hundredths
    rw [decimals, whole]
    show cents / 100 * 100 + (cents / 10 % 10 * 10 + cents % 10) * 1 = cents
    omega
  have hundred := a.hundred_value
  rw [total] at hundred
  have signed : (if a.negative then (-1 : ℚ) else 1) * (cents : ℚ) = n := by
    show (if decide (n < 0) = true then (-1 : ℚ) else 1) * ((n.natAbs : ℕ) : ℚ) = n
    by_cases negative : n < 0
    · rw [decide_eq_true negative, if_pos rfl]
      rw [Nat.cast_natAbs, Int.cast_abs, abs_of_neg (Int.cast_lt_zero.mpr negative), neg_one_mul, neg_neg]
    · rw [decide_eq_false negative, if_neg Bool.false_ne_true]
      rw [Nat.cast_natAbs, Int.cast_abs, abs_of_nonneg (Int.cast_nonneg (not_lt.mp negative)), one_mul]
  rw [signed] at hundred
  linarith

example : toCents (.str "$ -1,2,3.4") = .ok (.integer (-12340)) := by decide

end EndCloseRelay
