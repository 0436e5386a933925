import MultiDistributor.Lib.Checked

/-!
# The claimable amount of the TypeScript SDK

`MerkleDistributorAPI.calculateClaimableAmount` of `ts-sdk/src/index.ts`. Amounts are
`BN`, which is unbounded; timestamps stay `number`. A `number` is a double, so the 64-bit
timestamps of an answer and the differences the SDK takes of them are the doubles nearest to
them. A time is a rational, as the default `Date.now() / 1000` is.
-/
namespace MultiDistributor.Source.Sdk
open Lib.Checked

/-- `n / unit` rounded to the nearest natural number, to the even one of two. -/
def roundHalfEven (n unit : Nat) : Nat :=
  if 2 * (n % unit) < unit ∨ 2 * (n % unit) = unit ∧ n / unit % 2 = 0 then n / unit
  else n / unit + 1

/-- The double nearest to an integer: 53 significant bits. -/
def nearestDouble (n : Int) : Int :=
  let unit := 2 ^ (n.natAbs.log2 - 52)
  n.sign * (roundHalfEven n.natAbs unit * unit : Nat)

/-- The assertions of `BN`. -/
inductive BnError where
  | invalidCharacter
  | numberTooLarge
  | divisionByZero
  deriving DecidableEq, Repr

/-- `new BN(text)` of a decimal string. -/
def bnOfString (text : String) : Except BnError Int :=
  if text.toList.all Char.isDigit then .ok (Nat.ofDigitChars 10 text.toList 0)
  else .error .invalidCharacter

/-- `new BN(number)` of an integer. -/
def bnOfNumber (number : Int) : Except BnError Int :=
  if number.natAbs < 2 ^ 53 then .ok number else .error .numberTooLarge

/-- `BN.div`, which truncates. -/
def bnDiv (numerator denominator : Int) : Except BnError Int :=
  if denominator = 0 then .error .divisionByZero else .ok (numerator.tdiv denominator)

/-- The fields of a response that the calculation reads. The times are `number`s. -/
structure EligibilityResp where
  startTs : Int
  endTs : Int
  startAmount : String
  endAmount : String

def calculateClaimableAmount (u : EligibilityResp) (nowTs : ℚ) : Except BnError Int :=
  if nowTs < u.startTs then .ok 0
  else if u.endTs < nowTs then .ok 0
  else do
    let startAmount ← bnOfString u.startAmount
    let endAmount ← bnOfString u.endAmount
    let elapsed ← bnOfNumber (nearestDouble (nowTs.floor - u.startTs))
    let duration ← bnOfNumber (nearestDouble (u.endTs - u.startTs))
    let share ← bnDiv ((endAmount - startAmount) * elapsed) duration
    return share + startAmount

/-- Integers below `2 ^ 53` are doubles. -/
theorem nearestDouble_of_lt {n : Int} (small : n.natAbs < 2 ^ 53) : nearestDouble n = n := by
  have whole : n.natAbs.log2 - 52 = 0 := by
    have bound : n.natAbs.log2 < 53 := by
      by_cases zero : n.natAbs = 0
      · rw [zero]
        decide
      · exact (Nat.log2_lt zero).mpr small
    omega
  have exactly : roundHalfEven n.natAbs 1 = n.natAbs := by simp [roundHalfEven, Nat.mod_one]
  rw [nearestDouble, whole, pow_zero, exactly, mul_one, Int.sign_mul_natAbs]

/-- No integer from `2 ^ 53` on is rounded below it: its unit `u` is at least two, and it is
at least `2 ^ 52` units. -/
theorem le_natAbs_nearestDouble {n : Int} (large : 2 ^ 53 ≤ n.natAbs) :
    2 ^ 53 ≤ (nearestDouble n).natAbs := by
  have nonzero : n.natAbs ≠ 0 := by omega
  have bits : 53 ≤ n.natAbs.log2 := (Nat.le_log2 nonzero).mpr large
  have units : 2 ^ 52 ≤ n.natAbs / 2 ^ (n.natAbs.log2 - 52) := by
    rw [Nat.le_div_iff_mul_le (by positivity), ← pow_add,
      show 52 + (n.natAbs.log2 - 52) = n.natAbs.log2 by omega]
    exact Nat.log2_self_le nonzero
  have rounded : 2 ^ 52 ≤ roundHalfEven n.natAbs (2 ^ (n.natAbs.log2 - 52)) := by
    unfold roundHalfEven
    split <;> omega
  have unit : 2 ≤ 2 ^ (n.natAbs.log2 - 52) := Nat.le_self_pow (by omega) 2
  have sign : n.sign.natAbs = 1 := Int.natAbs_sign_of_ne_zero (Int.natAbs_ne_zero.mp nonzero)
  rw [nearestDouble, Int.natAbs_mul, sign, Nat.one_mul, Int.natAbs_natCast]
  exact Nat.mul_le_mul rounded unit

example : nearestDouble 9007199254740993 = 9007199254740992 ∧
    nearestDouble 9007199254740997 = 9007199254740996 := by decide

/-- A decimal string of the API reads back as its number. -/
theorem bnOfString_toString (n : Nat) : bnOfString (toString n) = .ok n := by
  have digits : (toString n).toList = Nat.toDigits 10 n := Nat.toList_repr
  have decimal : (Nat.toDigits 10 n).all Char.isDigit = true :=
    List.all_eq_true.mpr fun _ member => Nat.isDigit_of_mem_toDigits (by decide) (by decide) member
  rw [bnOfString, digits, if_pos decimal, Nat.ofDigitChars_ten_toDigits]

@[simp] theorem bnOfNumber_ok_iff {number value : Int} :
    bnOfNumber number = .ok value ↔ number.natAbs < 2 ^ 53 ∧ number = value := by
  unfold bnOfNumber
  split <;> simp_all

/-- `BN` takes a rounded difference exactly if the difference was small enough not to be
rounded. -/
@[simp] theorem bnOfNumber_nearestDouble_ok_iff {number value : Int} :
    bnOfNumber (nearestDouble number) = .ok value ↔ number.natAbs < 2 ^ 53 ∧ number = value := by
  rw [bnOfNumber_ok_iff]
  by_cases small : number.natAbs < 2 ^ 53
  · rw [nearestDouble_of_lt small]
  · have := le_natAbs_nearestDouble (Nat.not_lt.mp small)
    constructor
    · rintro ⟨taken, _⟩
      omega
    · rintro ⟨taken, _⟩
      exact absurd taken small

@[simp] theorem bnDiv_ok_iff {numerator denominator quotient : Int} :
    bnDiv numerator denominator = .ok quotient ↔
      denominator ≠ 0 ∧ numerator.tdiv denominator = quotient := by
  unfold bnDiv
  split <;> simp_all

/-- At a whole second and with decimal amounts: the calculation succeeds exactly within
its window, if the length of the window is a number `BN` takes. -/
theorem calculateClaimableAmount_inside {u : EligibilityResp} {startAmount endAmount : Nat}
    {now amount : Int} (first : u.startAmount = toString startAmount)
    (last : u.endAmount = toString endAmount) (begun : u.startTs ≤ now)
    (running : now ≤ u.endTs) (window : u.startTs < u.endTs) :
    calculateClaimableAmount u now = .ok amount ↔
      u.endTs - u.startTs < 2 ^ 53 ∧
        amount = (((endAmount : Int) - startAmount) * (now - u.startTs)).tdiv
          (u.endTs - u.startTs) + startAmount := by
  have notEarly : ¬ ((now : ℚ) < u.startTs) := by exact_mod_cast Int.not_lt.mpr begun
  have notLate : ¬ ((u.endTs : ℚ) < now) := by exact_mod_cast Int.not_lt.mpr running
  rw [calculateClaimableAmount, if_neg notEarly, if_neg notLate]
  simp only [first, last, bnOfString_toString, bind_ok_iff, bnOfNumber_nearestDouble_ok_iff,
    bnDiv_ok_iff, pure_ok_iff, Except.ok.injEq, exists_eq_left', Rat.floor_intCast]
  constructor
  · rintro ⟨elapsed, ⟨_, rfl⟩, duration, ⟨short, rfl⟩, share, ⟨_, rfl⟩, rfl⟩
    exact ⟨by omega, rfl⟩
  · rintro ⟨short, rfl⟩
    exact ⟨_, ⟨by omega, rfl⟩, _, ⟨by omega, rfl⟩, _, ⟨by omega, rfl⟩, rfl⟩

end MultiDistributor.Source.Sdk
