import Mathlib.Data.Nat.Size
import Mathlib.Tactic

/-! The number that a list of bytes denotes, most significant byte first. -/

namespace ZTG

def bigEndian : List (BitVec 8) → ℕ
  | [] => 0
  | byte :: bytes => byte.toNat * 2 ^ (8 * bytes.length) + bigEndian bytes

variable (byte : BitVec 8) (bytes bytes' : List (BitVec 8))

theorem bigEndian_lt : bigEndian bytes < 2 ^ (8 * bytes.length) := by
  induction bytes with
  | nil => exact Nat.one_pos
  | cons byte bytes ih =>
    have hbyte : byte.toNat + 1 ≤ 2 ^ 8 := byte.isLt
    calc bigEndian (byte :: bytes)
        < byte.toNat * 2 ^ (8 * bytes.length) + 2 ^ (8 * bytes.length) := by
          rw [bigEndian]
          omega
      _ = (byte.toNat + 1) * 2 ^ (8 * bytes.length) := by ring
      _ ≤ 2 ^ 8 * 2 ^ (8 * bytes.length) := Nat.mul_le_mul_right _ hbyte
      _ = 2 ^ (8 * (byte :: bytes).length) := by
          rw [List.length_cons, ← pow_add]
          ring

theorem bigEndian_append :
    bigEndian (bytes ++ bytes') = bigEndian bytes * 2 ^ (8 * bytes'.length) + bigEndian bytes' := by
  induction bytes with
  | nil => rw [List.nil_append, bigEndian, Nat.zero_mul, Nat.zero_add]
  | cons byte bytes ih =>
    rw [List.cons_append, bigEndian, bigEndian, ih, List.length_append, Nat.mul_add, pow_add]
    ring

/-- The bits of the number are those below the top of the first byte that is not 0. -/
theorem size_bigEndian (h : byte ≠ 0) :
    Nat.size (bigEndian (byte :: bytes)) = Nat.size byte.toNat + 8 * bytes.length := by
  have hpos : byte.toNat ≠ 0 := fun hzero => h (BitVec.eq_of_toNat_eq hzero)
  have hlt := bigEndian_lt bytes
  refine le_antisymm ?_ ?_
  · rw [Nat.size_le, bigEndian, pow_add]
    have hsize : byte.toNat + 1 ≤ 2 ^ Nat.size byte.toNat := Nat.lt_size_self _
    calc byte.toNat * 2 ^ (8 * bytes.length) + bigEndian bytes
        < (byte.toNat + 1) * 2 ^ (8 * bytes.length) := by
          rw [Nat.add_mul, Nat.one_mul]
          omega
      _ ≤ 2 ^ Nat.size byte.toNat * 2 ^ (8 * bytes.length) := Nat.mul_le_mul_right _ hsize
  · have hshift := Nat.size_shiftLeft hpos (8 * bytes.length)
    rw [Nat.shiftLeft_eq] at hshift
    rw [← hshift]
    exact Nat.size_le_size (Nat.le_add_right _ _)

end ZTG
