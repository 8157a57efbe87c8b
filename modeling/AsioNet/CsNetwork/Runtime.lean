import Mathlib.Data.UInt
import AsioNet.Library.Exec

/-! # What the client's code runs on

    `int` is Lean's `Int32`, with the same unchecked arithmetic. An array is a
    reference that may be null; an index outside it and a null reference throw.
    A wait on a flag that nobody will clear never ends.
-/

namespace AsioNet.CsNetwork

/-- Ways in which a call does not return. -/
inductive stop where
  | NullReferenceException
  | IndexOutOfRangeException
  | InvalidOperationException
  | ArgumentException
  | EndOfStreamException
  | MissingMethodException
  | StackOverflowException
  /-- Unsafe code reads outside the array it points into. -/
  | reads_outside
  /-- The loop `while (_flag == 1) ;` goes on for ever. -/
  | spins
  deriving DecidableEq, Repr

/-! ### Arrays -/

/-- A reference to a `Byte[]`. -/
abbrev byte_array := Option (List UInt8)

/-- What a reference refers to. -/
def deref {α : Type} : Option α → Except stop α
  | none => .error .NullReferenceException
  | some a => .ok a

/-- `cells[i]` -/
def load {α : Type} [Inhabited α] (cells : List α) (i : Int32) : Except stop α :=
  if 0 ≤ i ∧ i.toInt < cells.length then .ok (cells.getD i.toNatClampNeg default)
  else .error .IndexOutOfRangeException

/-- `cells[i] = b` -/
def store {α : Type} (cells : List α) (i : Int32) (b : α) : Except stop (List α) :=
  if 0 ≤ i ∧ i.toInt < cells.length then .ok (cells.set i.toNatClampNeg b)
  else .error .IndexOutOfRangeException

section

variable {α : Type}

theorem ofNat_nonneg {i : Nat} (h : i < 2 ^ 31) : (0 : Int32) ≤ Int32.ofNat i := by
  rw [Int32.le_iff_toInt_le, Int32.toInt_ofNat_of_lt h]
  exact Int.natCast_nonneg i

theorem toNatClampNeg_ofNat {i : Nat} (h : i < 2 ^ 31) : (Int32.ofNat i).toNatClampNeg = i := by
  rw [Int32.toNatClampNeg, Int32.toInt_ofNat_of_lt h, Int.toNat_natCast]

theorem load_of_lt [Inhabited α] {cells : List α} {i : Nat} (hi : i < 2 ^ 31)
    (h : i < cells.length) : load cells (Int32.ofNat i) = .ok (cells.getD i default) := by
  unfold load
  rw [Int32.toInt_ofNat_of_lt hi, if_pos ⟨ofNat_nonneg hi, Int.ofNat_lt.mpr h⟩,
    toNatClampNeg_ofNat hi]

theorem store_of_lt {cells : List α} {i : Nat} (hi : i < 2 ^ 31) (h : i < cells.length) (b : α) :
    store cells (Int32.ofNat i) b = .ok (cells.set i b) := by
  unfold store
  rw [Int32.toInt_ofNat_of_lt hi, if_pos ⟨ofNat_nonneg hi, Int.ofNat_lt.mpr h⟩,
    toNatClampNeg_ofNat hi]

theorem length_of_store {cells cells' : List α} {i : Int32} {b : α}
    (h : store cells i b = .ok cells') : cells'.length = cells.length := by
  unfold store at h
  split at h
  · rw [Except.ok.injEq] at h
    rw [← h, List.length_set]
  · simp at h

/-- A load that returns has stayed inside. -/
theorem of_load_ok [Inhabited α] {cells : List α} {i : Nat} (hi : i < 2 ^ 31) {b : α}
    (h : load cells (Int32.ofNat i) = .ok b) : cells[i]? = some b := by
  unfold load at h
  split at h
  · rename_i hin
    rw [Int32.toInt_ofNat_of_lt hi] at hin
    have hlt : i < cells.length := Int.ofNat_lt.mp hin.2
    rw [Except.ok.injEq, toNatClampNeg_ofNat hi, List.getD_eq_getElem?_getD,
      List.getElem?_eq_getElem hlt, Option.getD_some] at h
    rw [← h, List.getElem?_eq_getElem hlt]
  · simp at h

/-- So has a store. -/
theorem of_store_ok {cells cells' : List α} {i : Nat} (hi : i < 2 ^ 31) {b : α}
    (h : store cells (Int32.ofNat i) b = .ok cells') :
    i < cells.length ∧ cells' = cells.set i b := by
  unfold store at h
  split at h
  · rename_i hin
    rw [Int32.toInt_ofNat_of_lt hi] at hin
    rw [Except.ok.injEq, toNatClampNeg_ofNat hi] at h
    exact ⟨Int.ofNat_lt.mp hin.2, h.symm⟩
  · simp at h

/-- An array of one value has this value in every cell. -/
theorem load_replicate [Inhabited α] (n : Nat) (a : α) (i : Int32) :
    load (List.replicate n a) i = .ok a ∨
      load (List.replicate n a) i = .error .IndexOutOfRangeException := by
  unfold load
  split
  · rename_i h
    rw [List.length_replicate] at h
    have hlt : i.toNatClampNeg < n := by
      have hnonneg := Int32.le_iff_toInt_le.mp h.1
      rw [Int32.toNatClampNeg]
      have hzero : (0 : Int32).toInt = 0 := rfl
      omega
    left
    rw [List.getD_eq_getElem?_getD, List.getElem?_replicate, if_pos hlt, Option.getD_some]
  · right
    rfl

end

end AsioNet.CsNetwork
