import Mathlib

/-!
# Byte strings

Fixed-width little-endian digits and 32-byte strings. Hash inputs are never decoded:
what they rely on is that fixed widths make concatenations unambiguous
(`leBytes_injective`, `append_fixed_inj`).
-/
namespace MultiDistributor.Lib.ByteString

abbrev Bytes := List UInt8

/-- The `width` low-order base-256 digits of `n`, least significant first. -/
def leBytes : Nat → Nat → Bytes
  | 0, _ => []
  | width + 1, n => UInt8.ofNat n :: leBytes width (n / 256)

@[simp] theorem leBytes_length (width n : Nat) : (leBytes width n).length = width := by
  induction width generalizing n with
  | zero => rfl
  | succ width ih => simp [leBytes, ih]

theorem leBytes_injective {width n m : Nat} (hn : n < 256 ^ width) (hm : m < 256 ^ width)
    (same : leBytes width n = leBytes width m) : n = m := by
  induction width generalizing n m with
  | zero =>
    simp only [Nat.pow_zero] at hn hm
    omega
  | succ width ih =>
    simp only [leBytes, List.cons.injEq] at same
    have low : n % 256 = m % 256 := by simpa using congrArg UInt8.toNat same.1
    have high : n / 256 = m / 256 := by
      apply ih _ _ same.2
      · rw [Nat.pow_succ] at hn
        exact Nat.div_lt_of_lt_mul (by omega)
      · rw [Nat.pow_succ] at hm
        exact Nat.div_lt_of_lt_mul (by omega)
    omega

/-- A `u64` in little-endian byte order. -/
def toLeBytes (n : UInt64) : Bytes := leBytes 8 n.toNat

@[simp] theorem toLeBytes_length (n : UInt64) : (toLeBytes n).length = 8 := leBytes_length 8 _

theorem toLeBytes_inj {n m : UInt64} (same : toLeBytes n = toLeBytes m) : n = m :=
  UInt64.toNat_inj.mp (leBytes_injective n.toNat_lt m.toNat_lt same)

theorem append_fixed_inj {a b c d : Bytes} (width : a.length = b.length)
    (same : a ++ c = b ++ d) : a = b ∧ c = d :=
  List.append_inj same width

/-- `[u8; 32]`. -/
structure Bytes32 where
  bytes : Bytes
  length_eq : bytes.length = 32
  deriving DecidableEq, Repr

theorem Bytes32.ext_bytes {a b : Bytes32} (same : a.bytes = b.bytes) : a = b := by
  cases a
  cases b
  simp_all

/-- Arrays of bytes compare lexicographically. -/
instance : LE Bytes32 := ⟨fun a b => a.bytes ≤ b.bytes⟩

instance (a b : Bytes32) : Decidable (a ≤ b) := inferInstanceAs (Decidable (a.bytes ≤ b.bytes))

theorem Bytes32.le_total (a b : Bytes32) : a ≤ b ∨ b ≤ a := List.le_total a.bytes b.bytes

theorem Bytes32.le_antisymm {a b : Bytes32} (hab : a ≤ b) (hba : b ≤ a) : a = b :=
  Bytes32.ext_bytes (List.le_antisymm hab hba)

/-- 32 copies of one byte. -/
def Bytes32.filled (byte : UInt8) : Bytes32 := ⟨List.replicate 32 byte, List.length_replicate⟩

end MultiDistributor.Lib.ByteString
