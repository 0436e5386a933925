import Mathlib

/-!
# Linear release of an amount over a time window

`released amount start stop now` is the floor of the linear interpolation from
nothing at `start` to `amount` at `stop`, held constant outside the window. The
times are unbounded integers; no machine width appears here.
-/
namespace MultiDistributor.Lib.LinearRelease

def released (amount : Nat) (start stop now : Int) : Nat :=
  if now < start then 0
  else if stop ≤ now then amount
  else amount * (now - start).toNat / (stop - start).toNat

theorem released_before (amount : Nat) {start now : Int} (stop : Int) (early : now < start) :
    released amount start stop now = 0 := by
  simp only [released, if_pos early]

theorem begun_of_released {amount : Nat} {start stop now : Int}
    (positive : 0 < released amount start stop now) : start ≤ now := by
  by_contra early
  rw [released_before amount stop (by omega)] at positive
  exact absurd positive (Nat.lt_irrefl 0)

theorem released_after (amount : Nat) {start stop now : Int} (begun : start ≤ now)
    (ended : stop ≤ now) : released amount start stop now = amount := by
  simp only [released, if_neg (Int.not_lt.mpr begun), if_pos ended]

theorem released_inside (amount : Nat) {start stop now : Int} (begun : start ≤ now)
    (running : now < stop) :
    released amount start stop now = amount * (now - start).toNat / (stop - start).toNat := by
  simp only [released, if_neg (Int.not_lt.mpr begun), if_neg (Int.not_le.mpr running)]

theorem released_le (amount : Nat) (start stop now : Int) :
    released amount start stop now ≤ amount := by
  unfold released
  split
  · exact Nat.zero_le _
  · split
    · exact Nat.le_refl _
    · apply Nat.div_le_of_le_mul
      rw [Nat.mul_comm]
      exact Nat.mul_le_mul_right _ (by omega)

/-- Later observations never see less: the quotient is monotone in its numerator
and the two clamps only meet it at its extreme values. -/
theorem released_mono (amount : Nat) (start stop : Int) {earlier later : Int}
    (ordered : earlier ≤ later) :
    released amount start stop earlier ≤ released amount start stop later := by
  by_cases early : earlier < start
  · rw [released_before amount stop early]
    exact Nat.zero_le _
  by_cases ended : stop ≤ later
  · rw [released_after amount (by omega) ended]
    exact released_le amount start stop earlier
  rw [released_inside amount (by omega) (by omega), released_inside amount (by omega) (by omega)]
  exact Nat.div_le_div_right (Nat.mul_le_mul_left _ (by omega))

/-- The part of the window that has passed. -/
def elapsed (start stop now : Int) : Int := max 0 (min (now - start) (stop - start))

theorem released_eq_floor (amount : Nat) {start stop : Int} (now : Int) (window : start < stop) :
    released amount start stop now =
      ⌊(amount : ℚ) * elapsed start stop now / ((stop - start : Int) : ℚ)⌋₊ := by
  obtain ⟨length, hlength⟩ := Int.eq_ofNat_of_zero_le (show 0 ≤ stop - start by omega)
  obtain ⟨passed, hpassed⟩ := Int.eq_ofNat_of_zero_le (show 0 ≤ elapsed start stop now from
    le_max_left _ _)
  have quotient : released amount start stop now = amount * passed / length := by
    unfold released
    unfold elapsed at hpassed
    split
    · rw [show passed = 0 by omega, Nat.mul_zero, Nat.zero_div]
    · split
      · rw [show passed = length by omega, Nat.mul_div_cancel _ (by omega)]
      · rw [show (now - start).toNat = passed by omega, show (stop - start).toNat = length by omega]
  rw [quotient, hlength, hpassed, ← Nat.floor_div_eq_div (K := ℚ)]
  push_cast
  rfl

end MultiDistributor.Lib.LinearRelease
