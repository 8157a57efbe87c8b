import Mathlib.Data.List.Range
import Mathlib.Data.Nat.ModEq
import Mathlib.Logic.Function.Basic

/-! # Circular buffers

    `c` cells hold a window of an unbounded sequence of positions: position `p`
    lies in cell `p % c`. Positions less than one round apart never share a cell
    (`cell_ne`), so a window shorter than the ring is untouched by stores behind
    its end (`window_store_of_free`) and grows by what is stored there
    (`window_store_append`). Two indices that name a read and a write position
    tell how far these are apart (`distance_of_modEq`), also while an index has
    not been reduced to a cell number yet.
-/

namespace CircularBuffer

variable {α : Type}

/-- The elements at the `n` positions from `pos` on. -/
def window (cells : Nat → α) (c pos n : Nat) : List α :=
  (List.range n).map fun i => cells ((pos + i) % c)

/-- The cells after `xs` is stored at the positions from `pos` on. -/
def store (cells : Nat → α) (c : Nat) : Nat → List α → Nat → α
  | _, [] => cells
  | pos, x :: xs => store (Function.update cells (pos % c) x) c (pos + 1) xs

/-! ### Cells and positions -/

/-- Positions less than one round apart lie in different cells. -/
theorem cell_ne {c p q : Nat} (hlt : p < q) (hround : q < p + c) : p % c ≠ q % c := by
  intro heq
  -- equal cells would put the positions a multiple of `c` apart
  have hdvd : c ∣ q - p := (Nat.modEq_iff_dvd' (Nat.le_of_lt hlt)).mp heq
  obtain ⟨k, hk⟩ := hdvd
  rcases Nat.eq_zero_or_pos k with rfl | hpos
  · omega
  · have : c ≤ c * k := Nat.le_mul_of_pos_right c hpos
    omega

/-- The distance of two positions from numbers that name their cells. -/
theorem distance_of_modEq {c R W r w : Nat} (hw : w % c = W % c) (hr : r % c = R % c)
    (hrw : r ≤ w + c) (hle : R ≤ W) (hlt : W < R + c) : (w + c - r) % c = W - R := by
  have hcongr : w + c - r ≡ W - R [MOD c] := by
    apply Nat.ModEq.add_right_cancel hr
    show (w + c - r + r) % c = (W - R + R) % c
    rw [Nat.sub_add_cancel hrw, Nat.sub_add_cancel hle, Nat.add_mod_right, hw]
  have hmod : (w + c - r) % c = (W - R) % c := hcongr
  rw [hmod, Nat.mod_eq_of_lt (by omega)]

/-! ### Windows -/

@[simp] theorem length_window (cells : Nat → α) (c pos n : Nat) :
    (window cells c pos n).length = n := by
  simp [window]

@[simp] theorem window_zero (cells : Nat → α) (c pos : Nat) : window cells c pos 0 = [] := rfl

@[simp] theorem getElem_window (cells : Nat → α) (c pos n i : Nat)
    (h : i < (window cells c pos n).length) :
    (window cells c pos n)[i] = cells ((pos + i) % c) := by
  simp [window]

/-- Two adjacent windows make one. -/
theorem window_add (cells : Nat → α) (c pos n k : Nat) :
    window cells c pos (n + k) = window cells c pos n ++ window cells c (pos + n) k := by
  simp [window, List.range_add, Nat.add_assoc, Function.comp_def]

/-- Only the cell of the first position matters. -/
theorem window_of_modEq {cells : Nat → α} {c pos pos' : Nat} (h : pos % c = pos' % c) (n : Nat) :
    window cells c pos n = window cells c pos' n := by
  unfold window
  apply List.map_congr_left
  intro i _
  rw [Nat.add_mod, h, ← Nat.add_mod]

theorem window_congr {cells cells' : Nat → α} {c pos n : Nat}
    (h : ∀ i, i < n → cells ((pos + i) % c) = cells' ((pos + i) % c)) :
    window cells c pos n = window cells' c pos n := by
  unfold window
  apply List.map_congr_left
  intro i hi
  exact h i (List.mem_range.mp hi)

theorem take_window (cells : Nat → α) (c pos n k : Nat) (h : k ≤ n) :
    (window cells c pos n).take k = window cells c pos k := by
  obtain ⟨d, rfl⟩ := Nat.exists_eq_add_of_le h
  rw [window_add, List.take_left' (length_window ..)]

theorem drop_window (cells : Nat → α) (c pos n k : Nat) (h : k ≤ n) :
    (window cells c pos n).drop k = window cells c (pos + k) (n - k) := by
  obtain ⟨d, rfl⟩ := Nat.exists_eq_add_of_le h
  rw [window_add, List.drop_left' (length_window ..), Nat.add_sub_cancel_left]

/-! ### Stores -/

/-- A cell stored behind the end of a window, less than a round from its start. -/
theorem window_update_of_free {cells : Nat → α} {c pos n q : Nat} (x : α) (hle : pos + n ≤ q)
    (hround : q < pos + c) :
    window (Function.update cells (q % c) x) c pos n = window cells c pos n := by
  apply window_congr
  intro i hi
  rw [Function.update_of_ne]
  exact cell_ne (by omega) (by omega)

/-- Stores behind the end of a window leave it alone while they stay less than a
    round from its start. -/
theorem window_store_of_free {cells : Nat → α} {c pos n q : Nat} {xs : List α}
    (hle : pos + n ≤ q) (hround : q + xs.length ≤ pos + c) :
    window (store cells c q xs) c pos n = window cells c pos n := by
  induction xs generalizing cells q with
  | nil => rfl
  | cons x xs ih =>
    rw [List.length_cons] at hround
    rw [store, ih (by omega) (by omega), window_update_of_free x hle (by omega)]

/-- A window just stored. -/
theorem window_store {cells : Nat → α} {c q : Nat} {xs : List α} (h : xs.length ≤ c) :
    window (store cells c q xs) c q xs.length = xs := by
  induction xs generalizing cells q with
  | nil => rfl
  | cons x xs ih =>
    rw [List.length_cons] at h
    -- the first cell is stored before the others and not met by them
    have hfirst : window (store (Function.update cells (q % c) x) c (q + 1) xs) c q 1 = [x] := by
      rw [window_store_of_free (by omega) (by omega)]
      simp [window]
    rw [List.length_cons, Nat.add_comm xs.length 1, window_add, store, hfirst, ih (by omega),
      List.singleton_append]

/-- What is stored right behind a window prolongs it. -/
theorem window_store_append {cells : Nat → α} {c pos n q : Nat} {xs : List α} (hq : q = pos + n)
    (h : n + xs.length ≤ c) :
    window (store cells c q xs) c pos (n + xs.length) = window cells c pos n ++ xs := by
  subst hq
  rw [window_add, window_store_of_free (Nat.le_refl _) (by omega), window_store (by omega)]

/-- Only the cell of the first position matters. -/
theorem store_of_modEq {cells : Nat → α} {c pos pos' : Nat} (h : pos % c = pos' % c)
    (xs : List α) : store cells c pos xs = store cells c pos' xs := by
  induction xs generalizing cells pos pos' with
  | nil => rfl
  | cons x xs ih =>
    have hnext : (pos + 1) % c = (pos' + 1) % c := by
      rw [Nat.add_mod, h, ← Nat.add_mod]
    rw [store, store, h, ih hnext]

end CircularBuffer
