import AsioNet.Library.XorShift
import AsioNet.SessionLogic

/-! # The random source (`parallel_core/SafeRandom.hpp`)

    `SafeRandom` is an `xorshift64` generator behind a spin lock, so its calls
    are atomic and the source is a function of the number of calls. It seeds the
    sequence numbers and the ciphers of the sessions: `rc4_info::rc4_info` takes
    its modulus, key and offset from consecutive calls.

    A generator of this kind has one state it cannot leave, zero, from which all
    values are zero. No other state leads there: each of the three steps of
    `xorshift64` is injective.
-/

namespace AsioNet

structure SafeRandom where
  /-- `_rand_state->a` -/
  _rand_state : UInt64
  deriving DecidableEq, Repr

namespace SafeRandom

/-- The state after the call, which is also the value. -/
def xorshift64 (a : UInt64) : UInt64 :=
  let x := a
  let x := x ^^^ x <<< 13
  let x := x ^^^ x >>> 7
  let x := x ^^^ x <<< 17
  x

def seed (origin : UInt64) : SafeRandom where
  _rand_state := origin

/-- One call: its value and the source after it. -/
def next (r : SafeRandom) : UInt64 × SafeRandom :=
  (xorshift64 r._rand_state, { r with _rand_state := xorshift64 r._rand_state })

/-- The source after `n` calls. -/
def after (r : SafeRandom) : Nat → SafeRandom
  | 0 => r
  | n + 1 => (r.after n).next.2

/-- The value of the call that `n` calls precede. -/
def value (r : SafeRandom) (n : Nat) : UInt64 := (r.after n).next.1

/-! ### The generator is injective -/

theorem xorshift64_injective : Function.Injective xorshift64 := by
  have h13 := UInt64.xor_shiftLeft_injective (k := 13) (by decide)
  have h7 := UInt64.xor_shiftRight_injective (k := 7) (by decide)
  have h17 := UInt64.xor_shiftLeft_injective (k := 17) (by decide)
  exact h17.comp (h7.comp h13)

theorem xorshift64_zero : xorshift64 0 = 0 := by decide

theorem after_rand_state (r : SafeRandom) (n : Nat) :
    (r.after n)._rand_state = xorshift64^[n] r._rand_state := by
  induction n with
  | zero => rfl
  | succ n ih =>
    rw [Function.iterate_succ_apply', ← ih]
    rfl

theorem value_eq (r : SafeRandom) (n : Nat) : r.value n = xorshift64^[n + 1] r._rand_state :=
  after_rand_state r (n + 1)

theorem after_ne_zero {r : SafeRandom} (h : r._rand_state ≠ 0) (n : Nat) :
    (r.after n)._rand_state ≠ 0 := by
  rw [after_rand_state]
  exact xorshift64_injective.iterate_ne_of_fixed xorshift64_zero h n

/-- **The random source never dies**: no number of calls takes it to zero, its
    values repeat from the first one on, and sources in different states never
    meet. -/
theorem never_dies {origin : UInt64} (h : origin ≠ 0) :
    (∀ n, ((seed origin).after n)._rand_state ≠ 0) ∧
      Function.Bijective xorshift64 ∧
      (∃ p, 0 < p ∧ ∀ n, (seed origin).value (n + p) = (seed origin).value n) ∧
      ∀ a b : UInt64, a ≠ b → ∀ n, (seed a).after n ≠ (seed b).after n := by
  have hinj := xorshift64_injective
  refine ⟨after_ne_zero h, Finite.injective_iff_bijective.mp hinj, ?_, ?_⟩
  · obtain ⟨p, hp, hper⟩ := hinj.exists_period origin
    refine ⟨p, hp, ?_⟩
    intro n
    rw [value_eq, value_eq, Nat.add_right_comm]
    exact hper (n + 1)
  · intro a b hab n heq
    have hstate := congrArg SafeRandom._rand_state heq
    rw [after_rand_state, after_rand_state] at hstate
    exact hab (hinj.iterate n hstate)

theorem never_dies_one : ((seed 1).after 1000)._rand_state ≠ 0 :=
  (never_dies (by decide : (1 : UInt64) ≠ 0)).1 1000

end SafeRandom

/-! ### The parameters of a cipher -/

/-- `rand % 255 + 1` -/
def draw (rand : UInt64) : Nat := rand.toNat % 255 + 1

theorem draw_pos (rand : UInt64) : 1 ≤ draw rand := Nat.le_add_left 1 _

theorem draw_le (rand : UInt64) : draw rand ≤ 255 := Nat.mod_lt rand.toNat (by decide)

namespace rc4_info

/-- The loop that fills `n` bytes of the key, and the source after it. -/
def draw_key : Nat → SafeRandom → List UInt8 × SafeRandom
  | 0, r => ([], r)
  | n + 1, r =>
    let (rand, r) := r.next
    let (rc4_key_, r) := draw_key n r
    (UInt8.ofNat (draw rand) :: rc4_key_, r)

theorem length_draw_key (n : Nat) (r : SafeRandom) : (draw_key n r).1.length = n := by
  induction n generalizing r with
  | zero => rfl
  | succ n ih => exact congrArg (· + 1) (ih r.next.2)

/-- The constructor, and the source after it. -/
def new (r : SafeRandom) : rc4_info × SafeRandom :=
  let modvt := r.next
  let key := draw_key RC4_KEY_LEN modvt.2
  let subtract := key.2.next
  ({ rc4_modvt_ := draw modvt.1
     rc4_key_ := key.1
     rc4_subtract_ := draw subtract.1
     modvt_pos := draw_pos modvt.1
     modvt_le := draw_le modvt.1
     length_key := length_draw_key RC4_KEY_LEN modvt.2 },
    subtract.2)

end rc4_info

end AsioNet
