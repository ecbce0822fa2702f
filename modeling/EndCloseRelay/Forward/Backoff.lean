import Mathlib.Data.Rat.Floor

/-!
# Backoff

`forward/backoff.ts`, in exact arithmetic: `random` is the value of
`Math.random()`, and the product is rounded once.
-/

namespace EndCloseRelay

/-- `backoffMs(attempts, baseMs, capMs)`: `base * 2^attempts`, capped, with 20% jitter. -/
def backoffMs (random : ℚ) (attempts baseMs capMs : Nat) : Int :=
  let raw := min (baseMs * 2 ^ min attempts 30) capMs
  let jitter := 4 / 5 + random * (2 / 5)
  ⌊raw * jitter + 1 / 2⌋

/-- `nextAttemptAt(attempts, baseMs, capMs)`. -/
def nextAttemptAt (now : Int) (random : ℚ) (attempts baseMs capMs : Nat) : Int :=
  now + backoffMs random attempts baseMs capMs

/-- The next attempt is never before now, and at most 1.2 caps (and rounding) later. -/
theorem nextAttemptAt_bounds {random : ℚ} (nonneg : 0 ≤ random) (below : random < 1)
    (now : Int) (attempts baseMs capMs : Nat) :
    now ≤ nextAttemptAt now random attempts baseMs capMs ∧
      5 * (nextAttemptAt now random attempts baseMs capMs - now) ≤ 6 * capMs + 3 := by
  have capped : ((min (baseMs * 2 ^ min attempts 30) capMs : Nat) : ℚ) ≤ capMs :=
    Nat.cast_le.mpr (min_le_right _ _)
  have positive : (0 : ℚ) ≤ (min (baseMs * 2 ^ min attempts 30) capMs : Nat) := Nat.cast_nonneg _
  unfold nextAttemptAt backoffMs
  simp only []
  generalize ((min (baseMs * 2 ^ min attempts 30) capMs : Nat) : ℚ) = raw at *
  constructor
  · have least : (0 : Int) ≤ ⌊raw * (4 / 5 + random * (2 / 5)) + 1 / 2⌋ := by
      rw [Int.floor_nonneg]
      positivity
    omega
  · have most := Int.floor_le (raw * (4 / 5 + random * (2 / 5)) + 1 / 2)
    have product : raw * (4 / 5 + random * (2 / 5)) ≤ capMs * (6 / 5) := by
      gcongr
      linarith
    have scaled : ((5 * ⌊raw * (4 / 5 + random * (2 / 5)) + 1 / 2⌋ : Int) : ℚ) ≤
        ((6 * capMs + 3 : Int) : ℚ) := by
      push_cast
      linarith
    have := Int.cast_le.mp scaled
    omega

end EndCloseRelay
