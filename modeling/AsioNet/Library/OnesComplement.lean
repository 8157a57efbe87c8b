import Mathlib.Tactic.Ring
import Mathlib.Data.UInt

/-! # One's-complement sums of 16-bit words

    `wordSum bs` adds up `bs` as big-endian 16-bit words (an odd last byte is
    the high byte of a word), `fold` brings a 32-bit sum back to 16 bits by
    adding the deferred carries, twice at most. Folding keeps a sum modulo
    `65535` and never turns a nonzero sum into `0`; so adding the complement of
    a folded sum brings the fold to `65535`, the other zero of one's-complement
    arithmetic.
-/

namespace OnesComplement

/-- The sum of `bs` read as big-endian 16-bit words. -/
def wordSum : List UInt8 → Nat
  | a :: b :: rest => 256 * a.toNat + b.toNat + wordSum rest
  | [a] => 256 * a.toNat
  | [] => 0

/-- Every word contributes at most `65535`. -/
theorem wordSum_le (bs : List UInt8) : wordSum bs ≤ 65535 * ((bs.length + 1) / 2) := by
  fun_induction wordSum bs with
  | case1 a b rest ih =>
    have ha := a.toNat_lt
    have hb := b.toNat_lt
    simp only [List.length_cons]
    omega
  | case2 a =>
    have ha := a.toNat_lt
    simp only [List.length_singleton]
    omega
  | case3 => simp

/-- The deferred carries of a 32-bit sum added in. -/
def fold (x : Nat) : Nat :=
  let y := x / 65536 + x % 65536
  if y < 65536 then y else y / 65536 + y % 65536

theorem fold_le {x : Nat} (h : x < 2 ^ 32) : fold x ≤ 65535 := by
  unfold fold
  simp only
  split <;> omega

theorem fold_mod (x : Nat) : fold x % 65535 = x % 65535 := by
  unfold fold
  simp only
  split <;> omega

theorem fold_eq_zero (x : Nat) : fold x = 0 ↔ x = 0 := by
  unfold fold
  simp only
  split <;> omega

/-- **Complement rule.** If `s` is the fold of two parts, adding `65535 - s` to
    the first part makes the fold of the two parts `65535`. -/
theorem fold_add_complement {h b : Nat} (hh : h + 65535 < 2 ^ 32) (hb : b + 65535 < 2 ^ 32) :
    fold (fold (h + (65535 - fold (fold h + b))) + b) = 65535 := by
  generalize hs : fold (fold h + b) = s
  -- `s` and `f` are known by their bounds, their residues and when they are zero;
  -- the carries themselves do not matter.
  have hs_le : s ≤ 65535 := by
    have := fold_le (x := h) (by omega)
    rw [← hs]
    exact fold_le (by omega)
  have hs_mod : s % 65535 = (h + b) % 65535 := by
    have h₁ := fold_mod (fold h + b)
    have h₂ := fold_mod h
    omega
  have hs_zero : s = 0 ↔ h = 0 ∧ b = 0 := by
    rw [← hs, fold_eq_zero, Nat.add_eq_zero_iff, fold_eq_zero]
  generalize hf : fold (h + (65535 - s)) = f
  have hf_le : f ≤ 65535 := by
    rw [← hf]
    exact fold_le (by omega)
  have hf_mod : f % 65535 = (h + (65535 - s)) % 65535 := by rw [← hf, fold_mod]
  have hf_zero : f = 0 ↔ h + (65535 - s) = 0 := by rw [← hf, fold_eq_zero]
  have hr_le : fold (f + b) ≤ 65535 := fold_le (by omega)
  have hr_mod := fold_mod (f + b)
  have hr_zero := fold_eq_zero (f + b)
  -- The sum is divisible by 65535 and not zero, so its fold is the other zero.
  have hdvd : fold (f + b) % 65535 = 0 := by omega
  have hne : fold (f + b) ≠ 0 := by omega
  omega

/-! ### Changing one byte -/

/-- What a byte at `i` counts for: it is the high or the low byte of its word. -/
def weight (i : Nat) : Nat := if i % 2 = 0 then 256 else 1

theorem weight_zero : weight 0 = 256 := rfl

theorem weight_one : weight 1 = 1 := rfl

theorem weight_add_two (i : Nat) : weight (i + 2) = weight i := by
  unfold weight
  rw [Nat.add_mod_right]

/-- A new byte counts for as much as the old one did. -/
theorem wordSum_set (bs : List UInt8) (i : Nat) (h : i < bs.length) (b : UInt8) :
    wordSum (bs.set i b) + weight i * bs[i].toNat = wordSum bs + weight i * b.toNat := by
  fun_induction wordSum bs generalizing i with
  | case1 c d rest ih =>
    match i with
    | 0 =>
      simp only [List.set_cons_zero, wordSum, List.getElem_cons_zero, weight_zero]
      omega
    | 1 =>
      simp only [List.set_cons_succ, List.set_cons_zero, wordSum, List.getElem_cons_succ,
        List.getElem_cons_zero, weight_one]
      omega
    | i + 2 =>
      have hrest := ih i (by simpa using h)
      simp only [List.set_cons_succ, wordSum, List.getElem_cons_succ, weight_add_two]
      omega
  | case2 c =>
    have hi : i = 0 := by simpa using h
    subst hi
    simp only [List.set_cons_zero, wordSum, List.getElem_cons_zero, weight_zero]
    omega
  | case3 => exact absurd h (Nat.not_lt_zero i)

/-- The weight of a changed byte times the change is no multiple of `65535`. -/
theorem add_wordSum_set_mod {bs : List UInt8} {i : Nat} (h : i < bs.length) {b : UInt8}
    (hne : b ≠ bs[i]) {c : Nat} (hdvd : (c + wordSum bs) % 65535 = 0) :
    (c + wordSum (bs.set i b)) % 65535 ≠ 0 := by
  have hsum := wordSum_set bs i h b
  have hold := bs[i].toNat_lt
  have hnew := b.toNat_lt
  have hbyte : b.toNat ≠ bs[i].toNat := fun heq => hne (UInt8.toNat_inj.mp heq)
  unfold weight at hsum
  split at hsum <;> omega

/-- A fold is the other zero of one's-complement arithmetic exactly when the sum is a
    nonzero multiple of `65535`. -/
theorem fold_eq_max_iff {x : Nat} (h : x < 2 ^ 32) :
    fold x = 65535 ↔ x % 65535 = 0 ∧ x ≠ 0 := by
  have hle := fold_le h
  have hmod := fold_mod x
  have hzero := fold_eq_zero x
  constructor
  · intro hmax
    omega
  · intro hdvd
    omega

end OnesComplement
