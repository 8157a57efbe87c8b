import AsioNet.Library.ByteMemory
import AsioNet.NetUtils

/-! # Pooled buffers (`reusabel_buffer.hpp`)

    A buffer is an array of `SIZE` bytes with an `offset` where its content
    starts and the content's `length`. `load` and `store` are the accesses of
    `memcpy` and friends through the pointers `buffer()` and `origin_buffer()`
    return; outside the array they are a fault. A buffer taken from the pool by
    `TEMP_BUFFER` or `TINY_BUFFER` still holds the bytes of its previous use.
-/

namespace AsioNet

open ByteMemory

structure reusabel_buffer (SIZE : Nat) where
  offset : Nat
  length : Nat
  /-- Only the cells below `SIZE` are the buffer's own; see `load` and `store`. -/
  _buffer : Nat → UInt8

abbrev tiny_buffer : Type := reusabel_buffer TINY_ONCE_BUFFER_SIZE
abbrev once_buffer : Type := reusabel_buffer ONCE_BUFFER_SIZE

/-- What the buffers successively taken from the pool hold. -/
abbrev recycled : Type := Nat → Nat → UInt8

namespace reusabel_buffer

variable {SIZE : Nat}

/-- Index in the array of the cell `buffer(explicit_offset)` points to. -/
def buffer (b : reusabel_buffer SIZE) (explicit_offset : Nat) : Nat :=
  size_t_add b.offset explicit_offset

/-- Index in the array of the cell `origin_buffer(explicit_offset)` points to. -/
def origin_buffer (_b : reusabel_buffer SIZE) (explicit_offset : Nat) : Nat := explicit_offset

def available_capacity (b : reusabel_buffer SIZE) : Nat := size_t_sub SIZE b.offset

def reset (b : reusabel_buffer SIZE) : reusabel_buffer SIZE := { b with offset := 0, length := 0 }

def resize (b : reusabel_buffer SIZE) (s : Nat) : reusabel_buffer SIZE := { b with length := s }

/-- Read `n` bytes from index `pos` on. -/
def load (b : reusabel_buffer SIZE) (pos n : Nat) : Checked (List UInt8) :=
  if pos + n ≤ SIZE then pure (read b._buffer pos n) else throw .out_of_bounds

/-- Write `bytes` from index `pos` on. -/
def store (b : reusabel_buffer SIZE) (pos : Nat) (bytes : List UInt8) :
    Checked (reusabel_buffer SIZE) :=
  if pos + bytes.length ≤ SIZE then pure { b with _buffer := write b._buffer pos bytes }
  else throw .out_of_bounds

/-- The bytes `[offset, offset + length)`, when these lie in the array. -/
def content (b : reusabel_buffer SIZE) : List UInt8 := read b._buffer b.offset b.length

theorem load_of_le (b : reusabel_buffer SIZE) {pos n : Nat} (h : pos + n ≤ SIZE) :
    b.load pos n = .ok (read b._buffer pos n) := by
  simp [load, h]

theorem load_of_lt (b : reusabel_buffer SIZE) {pos n : Nat} (h : SIZE < pos + n) :
    b.load pos n = .error .out_of_bounds := by
  simp only [load, if_neg (Nat.not_le.mpr h)]
  rfl

/-- A load that goes through gives the bytes there. -/
theorem load_eq_ok {b : reusabel_buffer SIZE} {pos n : Nat} {bytes : List UInt8}
    (h : b.load pos n = .ok bytes) : pos + n ≤ SIZE ∧ bytes = read b._buffer pos n := by
  by_cases hle : pos + n ≤ SIZE
  · rw [load_of_le b hle] at h
    exact ⟨hle, (Except.ok.inj h).symm⟩
  · rw [load_of_lt b (Nat.not_le.mp hle)] at h
    cases h

theorem length_of_load {b : reusabel_buffer SIZE} {pos n : Nat} {bytes : List UInt8}
    (h : b.load pos n = .ok bytes) : bytes.length = n := by
  obtain ⟨-, rfl⟩ := load_eq_ok h
  exact length_read _ _ _

theorem store_of_le (b : reusabel_buffer SIZE) {pos : Nat} {bytes : List UInt8}
    (h : pos + bytes.length ≤ SIZE) :
    b.store pos bytes = .ok { b with _buffer := write b._buffer pos bytes } := by
  simp [store, h]

theorem store_of_lt (b : reusabel_buffer SIZE) {pos : Nat} {bytes : List UInt8}
    (h : SIZE < pos + bytes.length) : b.store pos bytes = .error .out_of_bounds := by
  simp only [store, if_neg (Nat.not_le.mpr h)]
  rfl

/-- A store that goes through changes the array only. -/
theorem store_eq_ok {b b' : reusabel_buffer SIZE} {pos : Nat} {bytes : List UInt8}
    (h : b.store pos bytes = .ok b') :
    pos + bytes.length ≤ SIZE ∧ b' = { b with _buffer := write b._buffer pos bytes } := by
  by_cases hle : pos + bytes.length ≤ SIZE
  · rw [store_of_le b hle] at h
    exact ⟨hle, (Except.ok.inj h).symm⟩
  · rw [store_of_lt b (Nat.not_le.mp hle)] at h
    cases h

theorem buffer_of_lt (b : reusabel_buffer SIZE) {n : Nat} (h : b.offset + n < 2 ^ 64) :
    b.buffer n = b.offset + n :=
  size_t_add_of_lt h

theorem buffer_zero (b : reusabel_buffer SIZE) (h : b.offset < 2 ^ 64) :
    b.buffer 0 = b.offset :=
  b.buffer_of_lt h

theorem buffer_zero_of_eq {b : reusabel_buffer SIZE} {n : Nat} (h : b.offset = n)
    (hn : n ≤ ONCE_BUFFER_SIZE) : b.buffer 0 = n := by
  have hsmall : ONCE_BUFFER_SIZE < 2 ^ 64 := by decide
  rw [buffer_zero _ (by omega), h]

/-- What was stored is loaded again. -/
theorem load_of_write {b : reusabel_buffer SIZE} {m : Nat → UInt8} {pos n : Nat}
    {bytes : List UInt8} (hm : b._buffer = write m pos bytes) (hn : bytes.length = n)
    (h : pos + n ≤ SIZE) : b.load pos n = .ok bytes := by
  rw [load_of_le _ h, hm, read_write_of_length _ _ _ _ hn]

@[simp] theorem origin_buffer_eq (b : reusabel_buffer SIZE) (n : Nat) :
    b.origin_buffer n = n := rfl

end reusabel_buffer

/-- `TEMP_BUFFER`, handed out with the given stale content. -/
def TEMP_BUFFER (stale : Nat → UInt8) : once_buffer := { offset := 0, length := 0, _buffer := stale }

/-- `TINY_BUFFER`, handed out with the given stale content. -/
def TINY_BUFFER (stale : Nat → UInt8) : tiny_buffer := { offset := 0, length := 0, _buffer := stale }

end AsioNet
