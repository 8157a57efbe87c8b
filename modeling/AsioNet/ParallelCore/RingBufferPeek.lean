import AsioNet.ParallelCore.RingBufferRuns

/-! # Two ways to read, two ways to write

    A consumer either reads and moves the index in one call, or reads without
    moving it and calls `tryReadShift` afterwards; a producer either copies with
    `tryWrite`, or fills the cells itself and calls `tryWriteShit`.

    The writing calls compare the same sums. The reading ones do not:
    `tryReadShift` refuses to take the last element, because `empty(length)`
    says that the count is `length` where it should say that it is less.
-/

namespace AsioNet

open CircularBuffer TransitionSystem

/-- Every value of the loop counter is an `int`. -/
def counter_defined (length : Nat) : Prop := ∀ i, i ≤ length → i ≤ INT_MAX

theorem counter_defined_iff (length : Nat) : counter_defined length ↔ length ≤ INT_MAX := by
  constructor
  · intro h
    exact h length (Nat.le_refl length)
  · intro h i hi
    exact Nat.le_trans hi h

namespace RingBuffer

variable {T : Type}

/-- Peeking at `n` elements and shifting by `n` is reading `n` elements. -/
structure PeekShift (r : RingBuffer T) (n : Nat) : Prop where
  counter : counter_defined n
  peeked : (r.tryRead n true).2.isSome = true
  shifted : ((r.tryRead n true).1.tryReadShift n).2 = true
  same_bytes : (r.tryRead n true).2 = (r.tryRead n false).2
  same_ring : ((r.tryRead n true).1.tryReadShift n).1 = (r.tryRead n false).1

/-- Shifting by the length of `data` moves the indices like writing `data`. -/
structure WriteShift (r : RingBuffer T) (data : List T) : Prop where
  counter : counter_defined data.length
  same_result : (r.tryWriteShit data.length).2 = (r.tryWrite data).2
  same_writeIndex : (r.tryWriteShit data.length).1._writeIndex = (r.tryWrite data).1._writeIndex
  same_readIndex : (r.tryWriteShit data.length).1._readIndex = (r.tryWrite data).1._readIndex

/-- `tryReadShift` goes through unless it is asked for all there is. -/
theorem tryReadShift_succeeds_iff (r : RingBuffer T) {n : Nat} (hcap : r._capacity < 2 ^ 63)
    (hn : n < 2 ^ 64) : (r.tryReadShift n).2 = true ↔ r.count ≠ n := by
  have hempty := r.empty_iff hcap hn
  unfold tryReadShift
  by_cases h : r.empty n = true
  · rw [if_pos h]
    exact ⟨fun hfalse => Bool.noConfusion hfalse, fun hne => absurd (hempty.mp h) hne⟩
  · rw [if_neg h]
    exact ⟨fun _ heq => h (hempty.mpr heq), fun _ => rfl⟩

theorem tryReadShift_of_ne {r : RingBuffer T} {n : Nat} (hcap : r._capacity < 2 ^ 63)
    (hn : n < 2 ^ 64) (h : r.count ≠ n) : r.tryReadShift n = (r.shift_read n, true) := by
  have hempty : ¬ r.empty n = true := fun he => h ((r.empty_iff hcap hn).mp he)
  unfold tryReadShift
  rw [if_neg hempty]

theorem peek_shift_iff {r : RingBuffer T} {n : Nat} (hcap : r._capacity < 2 ^ 63) (hpos : 1 ≤ n)
    (hle : n ≤ r.count) : PeekShift r n ↔ n < r.count ∧ n ≤ INT_MAX := by
  have hlt := r.count_lt
  have hcount : 0 < r.count := by omega
  have hpeek : r.tryRead n true = (r, some (window r._buffer r._capacity r._readIndex n)) :=
    tryRead_of_pos hcap hcount
  have hread : r.tryRead n false =
      (r.shift_read n, some (window r._buffer r._capacity r._readIndex n)) :=
    tryRead_of_pos hcap hcount
  constructor
  · intro h
    -- the peek leaves the ring alone, so the shift meets the same count
    have hshift : (r.tryReadShift n).2 = true := by
      have h' := h.shifted
      rw [hpeek] at h'
      exact h'
    have hne := (tryReadShift_succeeds_iff r hcap (by omega)).mp hshift
    exact ⟨by omega, (counter_defined_iff n).mp h.counter⟩
  · intro ⟨hless, hmax⟩
    have hshift : r.tryReadShift n = (r.shift_read n, true) :=
      tryReadShift_of_ne hcap (by omega) (by omega)
    refine ⟨(counter_defined_iff n).mpr hmax, ?_, ?_, ?_, ?_⟩
    · rw [hpeek]
      rfl
    · rw [hpeek, hshift]
    · rw [hpeek, hread]
    · rw [hpeek, hread, hshift]

theorem write_shift_iff {r : RingBuffer T} {data : List T} (hcap : r._capacity < 2 ^ 63)
    (hfit : r.count + data.length < r._capacity) :
    WriteShift r data ↔ data.length ≤ INT_MAX := by
  have hwrite : r.tryWrite data = (shift_write
      { r with _buffer := write_cells r._capacity r._writeIndex r._buffer 0 data } data.length,
      true) := by
    rw [tryWrite, if_neg (by simp), if_neg (by rw [size_t_add_of_lt (by omega)]; omega)]
  have hshift : r.tryWriteShit data.length = (r.shift_write data.length, true) := by
    have hfull : r.full data.length = false := by
      rw [full_eq r hcap (by omega)]
      exact decide_eq_false (by omega)
    unfold tryWriteShit
    rw [hfull]
    rfl
  constructor
  · intro h
    exact (counter_defined_iff _).mp h.counter
  · intro hmax
    refine ⟨(counter_defined_iff _).mpr hmax, ?_, ?_, ?_⟩
    · rw [hwrite, hshift]
    · rw [hwrite, hshift]
      rfl
    · rw [hwrite, hshift]
      rfl

/-- In every reachable ring: peeking and shifting is reading unless it would
    empty the ring; writing and shifting agree wherever the data fits. Either
    way the copy loop must be able to count. -/
theorem peek_shift_and_write_shift (r : RingBuffer T) (hr : (system T).Reachable r) :
    (∀ n, 1 ≤ n → n ≤ r.count → (PeekShift r n ↔ n < r.count ∧ n ≤ INT_MAX)) ∧
      ∀ data : List T, r.count + data.length < r._capacity →
        (WriteShift r data ↔ data.length ≤ INT_MAX) := by
  have hcap := capacity_of_reachable hr
  constructor
  · intro n hpos hle
    exact peek_shift_iff hcap hpos hle
  · intro data hfit
    exact write_shift_iff hcap hfit

/-- One more element than `one_element`. -/
def two_elements : RingBuffer UInt8 := (one_element.tryWrite [0x62]).1

theorem reachable_two_elements : (system UInt8).Reachable two_elements :=
  .step (.tryWrite [0x62]) reachable_one_element rfl

theorem peek_shift_two_elements : PeekShift two_elements 1 ∧ WriteShift two_elements [0x63] := by
  have h := peek_shift_and_write_shift two_elements reachable_two_elements
  exact ⟨(h.1 1 (by decide +kernel) (by decide +kernel)).mpr (by decide +kernel),
    (h.2 [0x63] (by decide +kernel)).mpr (by decide +kernel)⟩

/-- The only element of a ring is peeked at, but the shift refuses it. -/
theorem not_always_peek_shift : ¬ ∀ r : RingBuffer UInt8, (system UInt8).Reachable r →
    ∀ n, 1 ≤ n → n ≤ r.count → PeekShift r n := by
  intro hall
  have h := (hall one_element reachable_one_element 1 (by decide) (by decide +kernel)).shifted
  exact absurd h (by decide +kernel)

end RingBuffer

end AsioNet
