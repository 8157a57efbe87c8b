import Mathlib.Data.List.Basic
import Mathlib.Data.List.Range

/-! # Addressed memory: reading and writing regions

    A memory is a function from addresses to cells. `read m pos n` lists the
    `n` cells from `pos` on, `write m pos bs` stores `bs` there. The rules are
    the frame rules of a flat memory: a region just written reads back, a
    disjoint region is untouched, adjacent regions split and join.
-/

namespace ByteMemory

variable {β : Type}

/-- The `n` cells of `m` from address `pos` on. -/
def read (m : Nat → β) (pos n : Nat) : List β :=
  (List.range n).map fun i => m (pos + i)

/-- `m` with `bs` stored from address `pos` on. -/
def write (m : Nat → β) (pos : Nat) (bs : List β) : Nat → β :=
  fun a => if pos ≤ a then (bs[a - pos]?).getD (m a) else m a

/-! ### Reading -/

@[simp] theorem length_read (m : Nat → β) (pos n : Nat) : (read m pos n).length = n := by
  simp [read]

@[simp] theorem read_zero (m : Nat → β) (pos : Nat) : read m pos 0 = [] := rfl

@[simp] theorem getElem_read (m : Nat → β) (pos n i : Nat) (h : i < (read m pos n).length) :
    (read m pos n)[i] = m (pos + i) := by
  simp [read]

/-- Two adjacent regions read as one. -/
theorem read_add (m : Nat → β) (pos n k : Nat) :
    read m pos (n + k) = read m pos n ++ read m (pos + n) k := by
  simp [read, List.range_add, Nat.add_assoc, Function.comp_def]

/-- Two memories that agree on a region read the same there. -/
theorem read_congr {m m' : Nat → β} {pos n : Nat}
    (h : ∀ i, i < n → m (pos + i) = m' (pos + i)) : read m pos n = read m' pos n := by
  unfold read
  apply List.map_congr_left
  intro i hi
  exact h i (List.mem_range.mp hi)

theorem take_read (m : Nat → β) (pos n k : Nat) (h : k ≤ n) :
    (read m pos n).take k = read m pos k := by
  obtain ⟨d, rfl⟩ := Nat.exists_eq_add_of_le h
  rw [read_add, List.take_left' (length_read ..)]

theorem drop_read (m : Nat → β) (pos n k : Nat) (h : k ≤ n) :
    (read m pos n).drop k = read m (pos + k) (n - k) := by
  obtain ⟨d, rfl⟩ := Nat.exists_eq_add_of_le h
  rw [read_add, List.drop_left' (length_read ..), Nat.add_sub_cancel_left]

/-- A part of a region whose cells are known. -/
theorem read_part {m : Nat → β} {pos n k l : Nat} {bs : List β} (h : read m pos n = bs)
    (hle : k + l ≤ n) : read m (pos + k) l = (bs.drop k).take l := by
  rw [← h, drop_read _ _ _ _ (by omega), take_read _ _ _ _ (by omega)]

/-- All of such a region but its first cells. -/
theorem read_rest {m : Nat → β} {pos n k : Nat} {bs : List β} (h : read m pos n = bs)
    (hle : k ≤ n) : read m (pos + k) (n - k) = bs.drop k := by
  rw [← h, drop_read _ _ _ _ hle]

/-! ### Writing -/

theorem write_apply_of_lt (m : Nat → β) (pos a : Nat) (bs : List β) (h : a < pos) :
    write m pos bs a = m a := by
  simp [write, Nat.not_le.mpr h]

theorem write_apply_of_ge (m : Nat → β) (pos a : Nat) (bs : List β) (h : pos + bs.length ≤ a) :
    write m pos bs a = m a := by
  have hlen : bs.length ≤ a - pos := by omega
  simp [write, List.getElem?_eq_none hlen]

theorem write_apply_add (m : Nat → β) (pos i : Nat) (bs : List β) (h : i < bs.length) :
    write m pos bs (pos + i) = bs[i] := by
  simp [write, h]

@[simp] theorem write_nil (m : Nat → β) (pos : Nat) : write m pos [] = m := by
  funext a
  simp [write]

/-- Storing two runs of cells one after the other stores their concatenation. -/
theorem write_append (m : Nat → β) (pos : Nat) (bs cs : List β) :
    write m pos (bs ++ cs) = write (write m pos bs) (pos + bs.length) cs := by
  funext a
  by_cases h₁ : a < pos
  · -- before both runs
    rw [write_apply_of_lt _ _ _ _ h₁, write_apply_of_lt _ _ _ _ (by omega),
      write_apply_of_lt _ _ _ _ h₁]
  · obtain ⟨i, rfl⟩ := Nat.exists_eq_add_of_le (Nat.not_lt.mp h₁)
    by_cases h₂ : i < bs.length
    · -- in the first run
      rw [write_apply_add _ _ _ _ (by simp; omega), write_apply_of_lt _ _ _ _ (by omega),
        write_apply_add _ _ _ _ h₂, List.getElem_append_left h₂]
    · -- in the second run, or behind both
      by_cases h₃ : i < bs.length + cs.length
      · obtain ⟨j, rfl⟩ := Nat.exists_eq_add_of_le (Nat.not_lt.mp h₂)
        rw [write_apply_add _ _ _ _ (by simpa using h₃),
          List.getElem_append_right (Nat.le_add_right ..), ← Nat.add_assoc,
          write_apply_add _ _ _ _ (by omega)]
        simp
      · rw [write_apply_of_ge _ _ _ _ (by simp; omega), write_apply_of_ge _ _ _ _ (by omega),
          write_apply_of_ge _ _ _ _ (by omega)]

/-! ### Reading back what was written -/

/-- A region just written reads back. -/
@[simp] theorem read_write (m : Nat → β) (pos : Nat) (bs : List β) :
    read (write m pos bs) pos bs.length = bs := by
  apply List.ext_getElem (by simp)
  intro i h₁ h₂
  rw [getElem_read, write_apply_add _ _ _ _ h₂]

/-- A region just written reads back, for a length known otherwise. -/
theorem read_write_of_length (m : Nat → β) (pos n : Nat) (bs : List β) (h : bs.length = n) :
    read (write m pos bs) pos n = bs := by
  subst h
  exact read_write m pos bs

/-- Writing leaves a disjoint region alone. -/
theorem read_write_of_disjoint (m : Nat → β) (pos pos' n : Nat) (bs : List β)
    (h : pos' + n ≤ pos ∨ pos + bs.length ≤ pos') :
    read (write m pos bs) pos' n = read m pos' n := by
  apply read_congr
  intro i hi
  rcases h with h | h
  · exact write_apply_of_lt _ _ _ _ (by omega)
  · exact write_apply_of_ge _ _ _ _ (by omega)

/-- Reading from before a write that starts inside the region: the old cells,
    then the written ones. -/
theorem read_write_after (m : Nat → β) (pos n : Nat) (bs : List β) :
    read (write m (pos + n) bs) pos (n + bs.length) = read m pos n ++ bs := by
  rw [read_add, read_write, read_write_of_disjoint _ _ _ _ _ (Or.inl (Nat.le_refl _))]

/-- Storing right behind a region whose cells are known extends it. -/
theorem read_append {m : Nat → β} {pos : Nat} {bs : List β} (h : read m pos bs.length = bs)
    (cs : List β) :
    read (write m (pos + bs.length) cs) pos (bs ++ cs).length = bs ++ cs := by
  rw [List.length_append, read_write_after, h]

end ByteMemory
