import Mathlib.Data.UInt

/-! # Numbers as bytes, least significant first

    `bytes k n` are the lower `k` bytes of `n`, `value` is the number that bytes
    stand for. Reading back gives the number modulo `256 ^ k`.
-/

namespace LittleEndian

/-- The lower `k` bytes of `n`. -/
def bytes : Nat → Nat → List UInt8
  | 0, _ => []
  | k + 1, n => UInt8.ofNat (n % 256) :: bytes k (n / 256)

/-- The number that `bs` stand for. -/
def value : List UInt8 → Nat
  | [] => 0
  | b :: bs => b.toNat + 256 * value bs

@[simp] theorem length_bytes (k n : Nat) : (bytes k n).length = k := by
  induction k generalizing n with
  | zero => rfl
  | succ k ih => rw [bytes, List.length_cons, ih]

/-- **What is written is read back.** -/
theorem value_bytes (k n : Nat) : value (bytes k n) = n % 256 ^ k := by
  induction k generalizing n with
  | zero => rw [bytes, value, Nat.pow_zero, Nat.mod_one]
  | succ k ih =>
    have hbyte : (UInt8.ofNat (n % 256)).toNat = n % 256 := by
      rw [UInt8.toNat_ofNat']
      omega
    rw [bytes, value, ih, hbyte, Nat.pow_succ, Nat.mul_comm (256 ^ k), Nat.mod_mul]

end LittleEndian
