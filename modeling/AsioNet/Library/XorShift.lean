import Mathlib.Data.BitVec
import Mathlib.Data.UInt
import Mathlib.Dynamics.PeriodicPts.Lemmas

/-! # Shift-xor steps on machine words

    Generators of the xorshift family mix a word with a shifted copy of itself.
    A shift drops bits, but the mix does not: the bits that the copy shifts in are
    known, and each further bit is mixed with one that has been found before.
    So the step is injective, for a left shift from the lowest bit up and for a
    right shift from the highest bit down.

    An injective step on a finite type goes round in circles: every sequence it
    makes is periodic from its start, and different sequences stay apart.
-/

namespace BitVec

variable {w : Nat}

/-- Mixing in a left shift keeps words apart. -/
theorem xor_shiftLeft_injective {k : Nat} (hk : 0 < k) :
    Function.Injective fun x : BitVec w => x ^^^ x <<< k := by
  intro x y h
  apply eq_of_getLsbD_eq
  intro i
  -- bit `i` of the mix is bit `i` with bit `i - k`
  induction i using Nat.strong_induction_on with
  | _ i ih =>
    intro hi
    have hbit := congrArg (fun z : BitVec w => z.getLsbD i) h
    simp only [getLsbD_xor, getLsbD_shiftLeft] at hbit
    by_cases hik : i < k
    · simpa [hik] using hbit
    · have hlow := ih (i - k) (by omega) (by omega)
      simpa [hik, hi, hlow] using hbit

/-- Mixing in a right shift keeps words apart. -/
theorem xor_shiftRight_injective {k : Nat} (hk : 0 < k) :
    Function.Injective fun x : BitVec w => x ^^^ x >>> k := by
  intro x y h
  -- the induction is on the distance of the bit from the top
  have hbits : ∀ d i, w ≤ i + d → x.getLsbD i = y.getLsbD i := by
    intro d
    induction d with
    | zero =>
      intro i hi
      rw [getLsbD_of_ge x i hi, getLsbD_of_ge y i hi]
    | succ d ih =>
      intro i hi
      have hbit := congrArg (fun z : BitVec w => z.getLsbD i) h
      simp only [getLsbD_xor, getLsbD_ushiftRight] at hbit
      have hhigh := ih (k + i) (by omega)
      simpa [hhigh] using hbit
  apply eq_of_getLsbD_eq
  intro i _
  exact hbits w i (by omega)

end BitVec

namespace UInt64

instance instFinite : Finite UInt64 := by
  apply Finite.of_injective (fun a : UInt64 => a.toBitVec.toFin)
  intro a b h
  exact toBitVec_injective (BitVec.toFin_inj.mp h)

/-- A word is shifted by the amount modulo its width. -/
theorem xor_shiftLeft_injective {k : UInt64} (hk : 0 < k.toNat % 64) :
    Function.Injective fun x : UInt64 => x ^^^ x <<< k := by
  intro x y h
  apply toBitVec_injective
  apply BitVec.xor_shiftLeft_injective hk
  simpa using congrArg UInt64.toBitVec h

theorem xor_shiftRight_injective {k : UInt64} (hk : 0 < k.toNat % 64) :
    Function.Injective fun x : UInt64 => x ^^^ x >>> k := by
  intro x y h
  apply toBitVec_injective
  apply BitVec.xor_shiftRight_injective hk
  simpa using congrArg UInt64.toBitVec h

end UInt64

namespace Function.Injective

variable {α : Type} {f : α → α}

/-- What starts away from a fixed point stays away from it. -/
theorem iterate_ne_of_fixed (hf : Function.Injective f) {z x : α} (hz : f z = z) (hx : x ≠ z)
    (n : Nat) : f^[n] x ≠ z := by
  intro h
  apply hx
  apply hf.iterate n
  rw [h, Function.iterate_fixed hz n]

/-- **Pure periodicity**: the sequence comes back to its start. -/
theorem exists_period [Finite α] (hf : Function.Injective f) (x : α) :
    ∃ p, 0 < p ∧ ∀ n, f^[n + p] x = f^[n] x := by
  obtain ⟨p, hp, hper⟩ := Function.mem_periodicPts.mp (hf.mem_periodicPts x)
  refine ⟨p, hp, ?_⟩
  intro n
  rw [Function.iterate_add_apply, hper]

end Function.Injective
