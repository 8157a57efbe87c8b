import AsioNet.Library.CircularBuffer
import AsioNet.NetUtils

/-! # The ring buffer between session and consumer (`parallel_core/RingBuffer.h`)

    The session's strand writes, the consumer reads. One cell always stays
    free, so equal indices mean an empty ring.

    `contents` lists the stored elements, the oldest first. As long as nobody
    asks for more than there is, the ring is a queue of them: a write appends
    (`tryWrite_of_fit`), a read takes from the front (`tryRead_of_le`).
-/

namespace AsioNet

open CircularBuffer

structure RingBuffer (T : Type) where
  _buffer : Nat → T
  _readIndex : Nat
  _writeIndex : Nat
  _capacity : Nat
  _readIndex_lt : _readIndex < _capacity
  _writeIndex_lt : _writeIndex < _capacity

namespace RingBuffer

variable {T : Type}

def count (r : RingBuffer T) : Nat :=
  size_t_add (size_t_sub r._writeIndex r._readIndex) r._capacity % r._capacity

def full (r : RingBuffer T) (add : Nat) : Bool := decide (size_t_add r.count add ≥ r._capacity)

/-- A `size_t` is not negative, so the comparison is one with zero. -/
def empty (r : RingBuffer T) (del : Nat) : Bool := decide (size_t_sub r.count del ≤ 0)

/-- `_readIndex += length; _readIndex %= _capacity` -/
def shift_read (r : RingBuffer T) (length : Nat) : RingBuffer T :=
  { r with
    _readIndex := size_t_add r._readIndex length % r._capacity
    _readIndex_lt := Nat.mod_lt _ (Nat.zero_lt_of_lt r._readIndex_lt) }

/-- `_writeIndex += length; _writeIndex %= _capacity` -/
def shift_write (r : RingBuffer T) (length : Nat) : RingBuffer T :=
  { r with
    _writeIndex := size_t_add r._writeIndex length % r._capacity
    _writeIndex_lt := Nat.mod_lt _ (Nat.zero_lt_of_lt r._writeIndex_lt) }

/-- What the read loop stores in `ret`; none when `false` is returned. -/
def tryRead (r : RingBuffer T) (length : Nat) (withoutShift : Bool) :
    RingBuffer T × Option (List T) :=
  if r.empty 0 then (r, none)
  else
    let ret := (List.range length).map fun i => r._buffer ((r._readIndex + i) % r._capacity)
    if withoutShift then (r, some ret) else (r.shift_read length, some ret)

/-- The write loop: `data` from cell `_writeIndex` on, around the end. -/
def write_cells (capacity writeIndex : Nat) (cells : Nat → T) : Nat → List T → Nat → T
  | _, [] => cells
  | i, x :: data =>
    write_cells capacity writeIndex
      (fun a => if a = (writeIndex + i) % capacity then x else cells a) (i + 1) data

def tryWrite (r : RingBuffer T) (data : List T) : RingBuffer T × Bool :=
  if r.full 0 then (r, false)
  else if size_t_add data.length r.count ≥ r._capacity then (r, false)
  else
    (shift_write
      { r with _buffer := write_cells r._capacity r._writeIndex r._buffer 0 data } data.length,
      true)

def tryReadShift (r : RingBuffer T) (length : Nat) : RingBuffer T × Bool :=
  if r.empty length then (r, false) else (r.shift_read length, true)

def tryWriteShit (r : RingBuffer T) (length : Nat) : RingBuffer T × Bool :=
  if r.full length then (r, false) else (r.shift_write length, true)

def clear (r : RingBuffer T) : RingBuffer T :=
  { r with
    _readIndex := 0
    _writeIndex := 0
    _readIndex_lt := Nat.zero_lt_of_lt r._readIndex_lt
    _writeIndex_lt := Nat.zero_lt_of_lt r._readIndex_lt }

/-! ### The number of stored elements -/

theorem capacity_pos (r : RingBuffer T) : 0 < r._capacity := Nat.zero_lt_of_lt r._readIndex_lt

/-- The number of cells from the read index to the write index. -/
theorem count_eq (r : RingBuffer T) (h : r._capacity < 2 ^ 63) :
    r.count = if r._readIndex ≤ r._writeIndex then r._writeIndex - r._readIndex
      else r._writeIndex + r._capacity - r._readIndex := by
  have hr := r._readIndex_lt
  have hw := r._writeIndex_lt
  -- the difference may wrap around, adding the capacity wraps it back
  have hsum : size_t_add (size_t_sub r._writeIndex r._readIndex) r._capacity =
      r._writeIndex + r._capacity - r._readIndex := by
    unfold size_t_add size_t_sub
    omega
  rw [count, hsum]
  split
  · rw [Nat.mod_eq_sub_mod (by omega), Nat.mod_eq_of_lt (by omega)]
    omega
  · rw [Nat.mod_eq_of_lt (by omega)]

theorem count_lt (r : RingBuffer T) : r.count < r._capacity := Nat.mod_lt _ r.capacity_pos

/-- The ring always has a free cell, so a write of nothing is never refused. -/
@[simp] theorem full_zero (r : RingBuffer T) : r.full 0 = false := by
  have hlt := r.count_lt
  have hle : r.count % 2 ^ 64 ≤ r.count := Nat.mod_le _ _
  rw [full, size_t_add, decide_eq_false_iff_not]
  omega

/-- Amounts that make sense for a ring do not wrap around. -/
theorem full_eq (r : RingBuffer T) {add : Nat} (hcap : r._capacity < 2 ^ 63) (hadd : add < 2 ^ 63) :
    r.full add = decide (r.count + add ≥ r._capacity) := by
  have hlt := r.count_lt
  rw [full, size_t_add_of_lt (by omega)]

/-- `empty` compares for equality. -/
theorem empty_iff (r : RingBuffer T) {del : Nat} (hcap : r._capacity < 2 ^ 63)
    (hdel : del < 2 ^ 64) : r.empty del = true ↔ r.count = del := by
  have hlt := r.count_lt
  rw [empty, decide_eq_true_eq, size_t_sub]
  omega

/-- The write index is as far behind the read index as `count` says. -/
theorem writeIndex_eq (r : RingBuffer T) (hcap : r._capacity < 2 ^ 63) :
    r._writeIndex = (r._readIndex + r.count) % r._capacity := by
  have hr := r._readIndex_lt
  have hw := r._writeIndex_lt
  have hcount := r.count_eq hcap
  split_ifs at hcount with hle
  · rw [Nat.mod_eq_of_lt (by omega)]
    omega
  · rw [Nat.mod_eq_sub_mod (by omega), Nat.mod_eq_of_lt (by omega)]
    omega

/-- The count of a ring whose indices are those of two positions. -/
theorem count_of_positions {r : RingBuffer T} (hcap : r._capacity < 2 ^ 63) {R W : Nat}
    (hr : r._readIndex = R % r._capacity) (hw : r._writeIndex = W % r._capacity) (hle : R ≤ W)
    (hlt : W < R + r._capacity) : r.count = W - R := by
  have hpos := r.capacity_pos
  have hr_lt := r._readIndex_lt
  have hw_lt := r._writeIndex_lt
  have hsum : size_t_add (size_t_sub r._writeIndex r._readIndex) r._capacity =
      r._writeIndex + r._capacity - r._readIndex := by
    unfold size_t_add size_t_sub
    omega
  rw [count, hsum]
  apply distance_of_modEq _ _ (by omega) hle hlt
  · rw [hw, Nat.mod_mod]
  · rw [hr, Nat.mod_mod]

/-! ### The stored elements -/

/-- The stored elements, in the order in which they are read. -/
def contents (r : RingBuffer T) : List T := window r._buffer r._capacity r._readIndex r.count

@[simp] theorem length_contents (r : RingBuffer T) : r.contents.length = r.count :=
  length_window ..

theorem contents_eq_nil (r : RingBuffer T) : r.contents = [] ↔ r.count = 0 := by
  rw [← List.length_eq_zero_iff, length_contents]

@[simp] theorem shift_read_capacity (r : RingBuffer T) (length : Nat) :
    (r.shift_read length)._capacity = r._capacity := rfl

@[simp] theorem shift_write_capacity (r : RingBuffer T) (length : Nat) :
    (r.shift_write length)._capacity = r._capacity := rfl

@[simp] theorem tryWrite_capacity (r : RingBuffer T) (data : List T) :
    (r.tryWrite data).1._capacity = r._capacity := by
  unfold tryWrite
  split
  · rfl
  · split <;> rfl

theorem write_cells_eq (capacity writeIndex : Nat) (cells : Nat → T) (i : Nat) (data : List T) :
    write_cells capacity writeIndex cells i data = store cells capacity (writeIndex + i) data := by
  induction data generalizing cells i with
  | nil => rfl
  | cons x data ih =>
    have hcell : (fun a => if a = (writeIndex + i) % capacity then x else cells a) =
        Function.update cells ((writeIndex + i) % capacity) x := by
      funext a
      rw [Function.update_apply]
    rw [write_cells, store, hcell, ih, Nat.add_assoc]

/-- A write that fits appends. -/
theorem tryWrite_of_fit {r : RingBuffer T} {data : List T} (hcap : r._capacity < 2 ^ 63)
    (h : r.count + data.length < r._capacity) :
    (r.tryWrite data).2 = true ∧ (r.tryWrite data).1.count = r.count + data.length ∧
      (r.tryWrite data).1.contents = r.contents ++ data := by
  have hr := r._readIndex_lt
  have hw := r._writeIndex_lt
  have hwrite : r.tryWrite data = (shift_write
      { r with _buffer := write_cells r._capacity r._writeIndex r._buffer 0 data } data.length,
      true) := by
    rw [tryWrite, if_neg (by simp), if_neg (by rw [size_t_add_of_lt (by omega)]; omega)]
  -- the new write index names the position behind the data
  have hindex : (r._writeIndex + data.length) % r._capacity =
      (r._readIndex + (r.count + data.length)) % r._capacity := by
    rw [r.writeIndex_eq hcap, Nat.mod_add_mod, Nat.add_assoc]
  have hcount : (r.tryWrite data).1.count = r.count + data.length := by
    have hpos := count_of_positions (r := (r.tryWrite data).1) (by rwa [tryWrite_capacity])
      (R := r._readIndex) (W := r._readIndex + (r.count + data.length))
      (by rw [hwrite]; exact (Nat.mod_eq_of_lt hr).symm)
      (by
        rw [hwrite]
        show size_t_add r._writeIndex data.length % r._capacity = _
        rw [size_t_add_of_lt (by omega), hindex]
        rfl)
      (by omega) (by rw [tryWrite_capacity]; omega)
    rw [hpos]
    omega
  refine ⟨by rw [hwrite], hcount, ?_⟩
  rw [contents, hcount, hwrite]
  show window (write_cells r._capacity r._writeIndex r._buffer 0 data) r._capacity r._readIndex
    (r.count + data.length) = _
  have hstart : r._writeIndex % r._capacity = (r._readIndex + r.count) % r._capacity := by
    rw [Nat.mod_eq_of_lt hw]
    exact r.writeIndex_eq hcap
  rw [write_cells_eq, Nat.add_zero, store_of_modEq hstart, window_store_append rfl (by omega),
    contents]

/-- `r'` is `r` with `xs` written behind its elements. -/
structure Appends (r r' : RingBuffer T) (xs : List T) : Prop where
  capacity : r'._capacity = r._capacity
  contents : r'.contents = r.contents ++ xs

theorem Appends.count {r r' : RingBuffer T} {xs : List T} (h : Appends r r' xs) :
    r'.count = r.count + xs.length := by
  rw [← length_contents, h.contents, List.length_append, length_contents]

theorem appends_tryWrite {r : RingBuffer T} (data : List T) (hcap : r._capacity < 2 ^ 63)
    (h : r.count + data.length < r._capacity) : Appends r (r.tryWrite data).1 data :=
  ⟨tryWrite_capacity r data, (tryWrite_of_fit hcap h).2.2⟩

/-- Several writes, when all of it fits. -/
theorem Appends.tryWrite {r r' : RingBuffer T} {xs : List T} (h : Appends r r' xs)
    (data : List T) (hcap : r._capacity < 2 ^ 63) (hfit : r.count + xs.length + data.length < r._capacity) :
    Appends r (r'.tryWrite data).1 (xs ++ data) := by
  have hstep : Appends r' (r'.tryWrite data).1 data :=
    appends_tryWrite data (by rw [h.capacity]; exact hcap)
      (by rw [h.capacity, h.count]; exact hfit)
  refine ⟨hstep.capacity.trans h.capacity, ?_⟩
  rw [hstep.contents, h.contents, List.append_assoc]

/-- Taking elements off the front. -/
theorem shift_read_of_le {r : RingBuffer T} {length : Nat} (hcap : r._capacity < 2 ^ 63)
    (h : length ≤ r.count) :
    (r.shift_read length).count = r.count - length ∧
      (r.shift_read length).contents = r.contents.drop length := by
  have hr := r._readIndex_lt
  have hlt := r.count_lt
  have hindex : (r.shift_read length)._readIndex = (r._readIndex + length) % r._capacity := by
    show size_t_add r._readIndex length % r._capacity = _
    rw [size_t_add_of_lt (by omega)]
  have hcount : (r.shift_read length).count = r.count - length := by
    have hpos := count_of_positions (r := r.shift_read length) hcap
      (R := r._readIndex + length) (W := r._readIndex + r.count) hindex
      (r.writeIndex_eq hcap) (by omega) (by rw [shift_read_capacity]; omega)
    rw [hpos]
    omega
  refine ⟨hcount, ?_⟩
  rw [contents, hcount, contents, drop_window _ _ _ _ _ h]
  apply window_of_modEq
  rw [hindex]
  exact Nat.mod_mod _ _

/-- A read of what is there takes it off the front. -/
theorem tryRead_of_le {r : RingBuffer T} {length : Nat} (hcap : r._capacity < 2 ^ 63)
    (hpos : 0 < r.count) (h : length ≤ r.count) :
    r.tryRead length false = (r.shift_read length, some (r.contents.take length)) := by
  have hempty : r.empty 0 = false := by
    rw [Bool.eq_false_iff, ne_eq, empty_iff r hcap (by decide)]
    omega
  rw [tryRead, if_neg (by simp [hempty]), contents, take_window _ _ _ _ _ h]
  rfl

/-- An empty ring gives nothing. -/
theorem tryRead_of_empty {r : RingBuffer T} {length : Nat} {withoutShift : Bool}
    (hcap : r._capacity < 2 ^ 63) (h : r.count = 0) :
    r.tryRead length withoutShift = (r, none) := by
  have hempty : r.empty 0 = true := (empty_iff r hcap (by decide)).mpr h
  rw [tryRead, if_pos hempty]

/-- Anything else gives something, whatever the length. -/
theorem tryRead_of_pos {r : RingBuffer T} {length : Nat} {withoutShift : Bool}
    (hcap : r._capacity < 2 ^ 63) (h : 0 < r.count) :
    r.tryRead length withoutShift =
      (if withoutShift then r else r.shift_read length,
        some (window r._buffer r._capacity r._readIndex length)) := by
  have hempty : r.empty 0 = false := by
    rw [Bool.eq_false_iff, ne_eq, empty_iff r hcap (by decide)]
    omega
  rw [tryRead, if_neg (by simp [hempty])]
  cases withoutShift <;> rfl

end RingBuffer

end AsioNet
