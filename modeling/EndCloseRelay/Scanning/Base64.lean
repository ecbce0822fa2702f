import Mathlib.Data.List.GetD
import Mathlib.Data.List.Nodup

/-!
# Base64

The standard alphabet with padding.  Bytes are read in groups of three, each
written as four digits; distinct bytes are written differently.
-/

namespace Scanning.Base64

/-- The digits, by their values. -/
def alphabet : List Char := "ABCDEFGHIJKLMNOPQRSTUVWXYZabcdefghijklmnopqrstuvwxyz0123456789+/".toList

/-- The digit of a value below 64. -/
def digit (n : Nat) : Char := alphabet.getD n '='

/-- The digits of bytes, padded to whole groups. -/
def encode : List UInt8 → List Char
  | [] => []
  | [a] => [digit (a.toNat / 4), digit (a.toNat % 4 * 16), '=', '=']
  | [a, b] =>
    [digit (a.toNat / 4), digit (a.toNat % 4 * 16 + b.toNat / 16), digit (b.toNat % 16 * 4), '=']
  | a :: b :: c :: bytes =>
    digit (a.toNat / 4) :: digit (a.toNat % 4 * 16 + b.toNat / 16) ::
      digit (b.toNat % 16 * 4 + c.toNat / 64) :: digit (c.toNat % 64) :: encode bytes

theorem length_alphabet : alphabet.length = 64 := by decide

theorem nodup_alphabet : alphabet.Nodup := by decide

theorem digit_eq {n : Nat} (small : n < 64) :
    ∃ inside : n < alphabet.length, digit n = alphabet[n] := by
  have inside : n < alphabet.length := by
    rw [length_alphabet]
    exact small
  exact ⟨inside, List.getD_eq_getElem _ _ inside⟩

theorem digit_inj {m n : Nat} (small : m < 64) (small' : n < 64) (same : digit m = digit n) : m = n := by
  obtain ⟨inside, shape⟩ := digit_eq small
  obtain ⟨inside', shape'⟩ := digit_eq small'
  rw [shape, shape'] at same
  exact (nodup_alphabet.getElem_inj_iff).mp same

theorem digit_ne_pad {n : Nat} (small : n < 64) : digit n ≠ '=' := by
  obtain ⟨inside, shape⟩ := digit_eq small
  rw [shape]
  intro same
  have member : '=' ∈ alphabet := by
    rw [← same]
    exact List.getElem_mem inside
  exact absurd member (by decide)

/-- Distinct bytes are written differently. -/
theorem encode_injective : Function.Injective encode := by
  intro bytes
  induction bytes using encode.induct with
  | case1 =>
    intro other same
    match other with
    | [] => rfl
    | [_] | [_, _] | _ :: _ :: _ :: _ => cases same
  | case2 a =>
    intro other same
    have small := a.toNat_lt
    match other with
    | [] => cases same
    | [b] =>
      have small' := b.toNat_lt
      simp only [encode, List.cons.injEq, and_true] at same
      have high := digit_inj (by omega) (by omega) same.1
      have low := digit_inj (by omega) (by omega) same.2
      rw [UInt8.toNat_inj.mp (show a.toNat = b.toNat by omega)]
    | [b, c] =>
      have small' := c.toNat_lt
      simp only [encode, List.cons.injEq] at same
      exact absurd same.2.2.1.symm (digit_ne_pad (by omega))
    | b :: c :: d :: bytes =>
      have small' := c.toNat_lt
      have small'' := d.toNat_lt
      simp only [encode, List.cons.injEq] at same
      exact absurd same.2.2.1.symm (digit_ne_pad (by omega))
  | case3 a b =>
    intro other same
    have small := a.toNat_lt
    have small' := b.toNat_lt
    match other with
    | [] => cases same
    | [c] =>
      simp only [encode, List.cons.injEq] at same
      exact absurd same.2.2.1 (digit_ne_pad (by omega))
    | [c, d] =>
      have small₁ := c.toNat_lt
      have small₂ := d.toNat_lt
      simp only [encode, List.cons.injEq, and_true] at same
      have first := digit_inj (by omega) (by omega) same.1
      have second := digit_inj (by omega) (by omega) same.2.1
      have third := digit_inj (by omega) (by omega) same.2.2
      rw [UInt8.toNat_inj.mp (show a.toNat = c.toNat by omega),
        UInt8.toNat_inj.mp (show b.toNat = d.toNat by omega)]
    | c :: d :: e :: bytes =>
      have small₁ := e.toNat_lt
      simp only [encode, List.cons.injEq] at same
      exact absurd same.2.2.2.1.symm (digit_ne_pad (by omega))
  | case4 a b c bytes ih =>
    intro other same
    have small := a.toNat_lt
    have small' := b.toNat_lt
    have small'' := c.toNat_lt
    match other with
    | [] => cases same
    | [d] =>
      simp only [encode, List.cons.injEq] at same
      exact absurd same.2.2.1 (digit_ne_pad (by omega))
    | [d, e] =>
      simp only [encode, List.cons.injEq] at same
      exact absurd same.2.2.2.1 (digit_ne_pad (by omega))
    | d :: e :: f :: bytes' =>
      have small₁ := d.toNat_lt
      have small₂ := e.toNat_lt
      have small₃ := f.toNat_lt
      simp only [encode, List.cons.injEq] at same
      obtain ⟨first, second, third, fourth, rest⟩ := same
      have first := digit_inj (by omega) (by omega) first
      have second := digit_inj (by omega) (by omega) second
      have third := digit_inj (by omega) (by omega) third
      have fourth := digit_inj (by omega) (by omega) fourth
      rw [UInt8.toNat_inj.mp (show a.toNat = d.toNat by omega),
        UInt8.toNat_inj.mp (show b.toNat = e.toNat by omega),
        UInt8.toNat_inj.mp (show c.toNat = f.toNat by omega), ih rest]

end Scanning.Base64
