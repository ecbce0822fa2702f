import Mathlib.Data.List.Basic

/-!
# The units of JavaScript text

A JavaScript string is a sequence of 16-bit units.  A character beyond the first
plane is a pair of surrogates; a surrogate that stands alone is no character, and
every encoder puts U+FFFD in its place.  A Lean string is the text of characters
only, which `units` spells out.
-/

namespace EndCloseRelay.Js

/-- A JavaScript string. -/
abbrev Units := List UInt16

/-! ## Surrogates -/

/-- The first half of a pair. -/
def isHigh (u : UInt16) : Bool := 0xD800 ≤ u.toNat && u.toNat < 0xDC00

/-- The second half of a pair. -/
def isLow (u : UInt16) : Bool := 0xDC00 ≤ u.toNat && u.toNat < 0xE000

/-- The character of a unit that is in no pair. -/
def single (u : UInt16) : Char :=
  if isHigh u || isLow u then '\uFFFD' else Char.ofNat u.toNat

/-- The character of a pair. -/
def pair (high low : UInt16) : Char :=
  Char.ofNat (0x10000 + (high.toNat - 0xD800) * 0x400 + (low.toNat - 0xDC00))

/-- The characters of a text, U+FFFD for each surrogate that stands alone. -/
def decode : Units → List Char
  | [] => []
  | [u] => [single u]
  | u :: v :: rest =>
    if isHigh u && isLow v then pair u v :: decode rest else single u :: decode (v :: rest)

/-- The units of a character. -/
def unitsOf (c : Char) : Units :=
  if c.toNat < 0x10000 then [UInt16.ofNat c.toNat]
  else
    [UInt16.ofNat (0xD800 + (c.toNat - 0x10000) / 0x400),
      UInt16.ofNat (0xDC00 + (c.toNat - 0x10000) % 0x400)]

/-- A text of characters as JavaScript has it. -/
def units (s : String) : Units := s.toList.flatMap unitsOf

/-- `t.toWellFormed()`, which is also what an encoder makes of a text. -/
def shown (t : Units) : String := String.ofList (decode t)

/-! ## Texts of characters -/

/-- A unit that opens no pair stands for itself. -/
theorem decode_cons {u : UInt16} {rest : Units} (alone : isHigh u = false ∨ ∀ v ∈ rest.head?, isLow v = false) :
    decode (u :: rest) = single u :: decode rest := by
  cases rest with
  | nil => rfl
  | cons v rest =>
    have no_pair : (isHigh u && isLow v) = false := by
      rcases alone with closed | follows
      · rw [closed, Bool.false_and]
      · rw [follows v rfl, Bool.and_false]
    rw [decode, no_pair]
    rfl

/-- Texts are decoded apart where no pair lies across. -/
theorem decode_append {a b : Units} (edge : ∀ v ∈ b.head?, isLow v = false) :
    decode (a ++ b) = decode a ++ decode b := by
  fun_induction decode a with
  | case1 => rfl
  | case2 u => exact decode_cons (.inr edge)
  | case3 u v rest paired ih =>
    rw [List.cons_append, List.cons_append, decode, if_pos paired, ih]
    rfl
  | case4 u v rest unpaired ih =>
    rw [List.cons_append, List.cons_append, decode, if_neg unpaired]
    exact congrArg (single u :: ·) ih

theorem toNat_ofNat {n : Nat} (small : n < 0x10000) : (UInt16.ofNat n).toNat = n := by
  rw [UInt16.toNat_ofNat']
  exact Nat.mod_eq_of_lt small

theorem isHigh_iff (u : UInt16) : isHigh u ↔ 0xD800 ≤ u.toNat ∧ u.toNat < 0xDC00 := by
  simp [isHigh]

theorem isLow_iff (u : UInt16) : isLow u ↔ 0xDC00 ≤ u.toNat ∧ u.toNat < 0xE000 := by
  simp [isLow]

/-- The units of a character are decoded to it. -/
theorem decode_unitsOf_append (c : Char) (rest : Units) : decode (unitsOf c ++ rest) = c :: decode rest := by
  have range : c.toNat < 0xD800 ∨ 0xDFFF < c.toNat ∧ c.toNat < 0x110000 := c.valid
  unfold unitsOf
  by_cases first : c.toNat < 0x10000
  · have number := toNat_ofNat first
    have high : isHigh (UInt16.ofNat c.toNat) = false := by
      rw [Bool.eq_false_iff, Ne, isHigh_iff, number]
      omega
    have low : isLow (UInt16.ofNat c.toNat) = false := by
      rw [Bool.eq_false_iff, Ne, isLow_iff, number]
      omega
    rw [if_pos first, List.singleton_append, decode_cons (.inl high), single, high, low, number,
      Char.ofNat_toNat]
    rfl
  · have highs := @toNat_ofNat (0xD800 + (c.toNat - 0x10000) / 0x400) (by omega)
    have lows := @toNat_ofNat (0xDC00 + (c.toNat - 0x10000) % 0x400) (by omega)
    have high : isHigh (UInt16.ofNat (0xD800 + (c.toNat - 0x10000) / 0x400)) := by
      rw [isHigh_iff, highs]
      omega
    have low : isLow (UInt16.ofNat (0xDC00 + (c.toNat - 0x10000) % 0x400)) := by
      rw [isLow_iff, lows]
      omega
    have whole : 0x10000 + (0xD800 + (c.toNat - 0x10000) / 0x400 - 0xD800) * 0x400 +
        (0xDC00 + (c.toNat - 0x10000) % 0x400 - 0xDC00) = c.toNat := by omega
    rw [if_neg first, List.cons_append, List.cons_append, List.nil_append, decode, high, low, pair, highs,
      lows, whole, Char.ofNat_toNat]
    rfl

/-- A text of characters is decoded to these, whatever follows. -/
theorem decode_units_append (s : String) (rest : Units) :
    decode (units s ++ rest) = s.toList ++ decode rest := by
  unfold units
  induction s.toList with
  | nil => rfl
  | cons c text ih =>
    rw [List.flatMap_cons, List.append_assoc, decode_unitsOf_append, ih]
    rfl

@[simp] theorem shown_units (s : String) : shown (units s) = s := by
  have whole := decode_units_append s []
  rw [List.append_nil] at whole
  rw [shown, whole, decode, List.append_nil, String.ofList_toList]

theorem decode_units (s : String) : decode (units s) = s.toList :=
  (String.toList_ofList).symm.trans (congrArg String.toList (shown_units s))

/-- No unit is lost altogether. -/
theorem decode_eq_nil_iff {t : Units} : decode t = [] ↔ t = [] := by
  fun_cases decode t <;> simp

theorem units_append (a b : String) : units (a ++ b) = units a ++ units b := by
  rw [units, String.toList_append, List.flatMap_append]
  rfl

/-- The characters of a text that has none beyond the first plane are its units. -/
theorem length_units {s : String} (first : ∀ c ∈ s.toList, c.toNat < 0x10000) :
    (units s).length = s.toList.length := by
  unfold units
  generalize s.toList = text at first ⊢
  induction text with
  | nil => rfl
  | cons c text ih =>
    rw [List.flatMap_cons, List.length_append, unitsOf, if_pos (first c List.mem_cons_self),
      ih fun c member => first c (List.mem_cons_of_mem _ member), List.length_singleton, List.length_cons]
    omega

/-! ## Texts that an encoder keeps -/

/-- A text that is shown without U+FFFD is one of characters. -/
theorem flatMap_unitsOf_decode {t : Units} (kept : '\uFFFD' ∉ decode t) :
    (decode t).flatMap unitsOf = t := by
  have alone : ∀ u : UInt16, '\uFFFD' ≠ single u → unitsOf (single u) = [u] := by
    intro u kept
    unfold single at kept ⊢
    by_cases surrogate : (isHigh u || isLow u) = true
    · rw [if_pos surrogate] at kept
      exact absurd rfl kept
    rw [if_neg surrogate]
    rw [Bool.or_eq_true, isHigh_iff, isLow_iff] at surrogate
    have bound := u.toNat_lt
    have valid : u.toNat.isValidChar := by
      unfold Nat.isValidChar
      omega
    have number : (Char.ofNat u.toNat).toNat = u.toNat := by
      rw [Char.ofNat, dif_pos valid]
      rfl
    rw [unitsOf, number, if_pos (by omega)]
    simp
  fun_induction decode t with
  | case1 => rfl
  | case2 u =>
    rw [List.mem_singleton] at kept
    rw [List.flatMap_singleton, alone u kept]
  | case3 u v rest paired ih =>
    rw [Bool.and_eq_true, isHigh_iff, isLow_iff] at paired
    rw [List.mem_cons, not_or] at kept
    have valid : (0x10000 + (u.toNat - 0xD800) * 0x400 + (v.toNat - 0xDC00)).isValidChar := by
      unfold Nat.isValidChar
      omega
    have number : (pair u v).toNat = 0x10000 + (u.toNat - 0xD800) * 0x400 + (v.toNat - 0xDC00) := by
      rw [pair, Char.ofNat, dif_pos valid]
      rfl
    have high : 0xD800 + ((pair u v).toNat - 0x10000) / 0x400 = u.toNat := by omega
    have low : 0xDC00 + ((pair u v).toNat - 0x10000) % 0x400 = v.toNat := by omega
    rw [List.flatMap_cons, ih kept.2, unitsOf, if_neg (by omega), high, low]
    simp
  | case4 u v rest unpaired ih =>
    rw [List.mem_cons, not_or] at kept
    rw [List.flatMap_cons, alone u kept.1, ih kept.2]
    rfl

/-- It is the only text that is decoded so. -/
theorem eq_of_decode {t t' : Units} (kept : '\uFFFD' ∉ decode t) (same : decode t' = decode t) : t' = t := by
  rw [← flatMap_unitsOf_decode kept, ← same, flatMap_unitsOf_decode (same ▸ kept)]

/-- A text that is shown with U+FFFD is not. -/
theorem exists_decode {t : Units} (lost : '\uFFFD' ∈ decode t) : ∃ t', t' ≠ t ∧ decode t' = decode t := by
  have decoded : decode (units (shown t)) = decode t := String.ofList_injective (shown_units (shown t))
  by_cases spelled : units (shown t) = t
  · obtain ⟨before, behind, parts⟩ := List.append_of_mem lost
    have text : shown t = String.ofList before ++ String.ofList ('\uFFFD' :: behind) := by
      rw [← String.ofList_append, ← parts]
      rfl
    have lone : decode ((0xDC00 : UInt16) :: units (String.ofList behind)) = '\uFFFD' :: behind := by
      have shows := shown_units (String.ofList behind)
      rw [decode_cons (.inl rfl)]
      exact congrArg ('\uFFFD' :: ·) (String.ofList_injective shows)
    refine ⟨units (String.ofList before) ++ 0xDC00 :: units (String.ofList behind), fun same => ?_, ?_⟩
    · rw [← spelled, text, units_append] at same
      have spells : units (String.ofList ('\uFFFD' :: behind)) =
          unitsOf '\uFFFD' ++ units (String.ofList behind) := by
        rw [units, String.toList_ofList, List.flatMap_cons, units, String.toList_ofList]
      have rest := (List.append_cancel_left same).trans spells
      exact absurd (List.cons.inj rest).1 (by decide)
    · rw [decode_units_append, lone, String.toList_ofList, parts]
  · exact ⟨units (shown t), spelled, decoded⟩

end EndCloseRelay.Js
