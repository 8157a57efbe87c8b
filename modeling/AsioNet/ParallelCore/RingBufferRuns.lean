import AsioNet.Library.TransitionSystem
import AsioNet.ParallelCore.RingBuffer

/-! # What the ring hands out

    The runs of one ring: `tryWrite`, `tryRead`, `tryReadShift`, `tryWriteShit`
    and `clear`, in any order and with any arguments. In every state reached the
    ring should give no more than it holds, and a call it refuses should change
    nothing.

    `empty(del)` is meant to say `count() <= del`. Its subtraction is one of
    `size_t`, which is never negative, so it says `count() == del`, and the
    reading calls ask nothing else: `hands_out_iff`.
-/

namespace AsioNet

open CircularBuffer TransitionSystem

/-- The calls, with what their parameters may be. -/
inductive ring_call (T : Type) where
  | tryWrite (data : List T)
  | tryRead (length : Nat) (withoutShift : Bool)
  | tryReadShift (length : Nat)
  | tryWriteShit (length : Nat)
  | clear

namespace RingBuffer

variable {T : Type}

/-- A ring as it is constructed. `malloc` leaves the cells as they are. -/
def new (capacity : Nat) (cells : Nat → T) (h : 0 < capacity) : RingBuffer T where
  _buffer := cells
  _readIndex := 0
  _writeIndex := 0
  _capacity := capacity
  _readIndex_lt := h
  _writeIndex_lt := h

/-- `r'` is the ring after a call on `r`. -/
def CallStep (r : RingBuffer T) (c : ring_call T) (r' : RingBuffer T) : Prop :=
  match c with
  | .tryWrite data => r' = (r.tryWrite data).1
  | .tryRead length withoutShift => r' = (r.tryRead length withoutShift).1
  | .tryReadShift length => r' = (r.tryReadShift length).1
  | .tryWriteShit length => r' = (r.tryWriteShit length).1
  | .clear => r' = r.clear

/-- All rings; no array has `2 ^ 63` cells. -/
def system (T : Type) : System (RingBuffer T) (ring_call T) where
  init := fun r => ∃ capacity cells h, capacity < 2 ^ 63 ∧ r = new capacity cells h
  step := CallStep

/-- The calls with length `n` in state `r`. -/
structure HandsOut (r : RingBuffer T) (n : Nat) : Prop where
  /-- `empty(n)` says that there are no more than `n` elements. -/
  empty_iff : r.empty n = true ↔ r.count ≤ n
  read_le : ∀ withoutShift, (r.tryRead n withoutShift).2.isSome = true → n ≤ r.count
  readShift_le : (r.tryReadShift n).2 = true → n ≤ r.count
  read_count : (r.tryRead n false).2.isSome = true → (r.tryRead n false).1.count + n = r.count
  readShift_count : (r.tryReadShift n).2 = true → (r.tryReadShift n).1.count + n = r.count
  /-- The counter of the read loop gets to `n`. -/
  read_defined : ∀ withoutShift, (r.tryRead n withoutShift).2.isSome = true → n ≤ INT_MAX
  read_refused : ∀ withoutShift, (r.tryRead n withoutShift).2 = none →
    (r.tryRead n withoutShift).1 = r
  readShift_refused : (r.tryReadShift n).2 = false → (r.tryReadShift n).1 = r
  writeShit_refused : (r.tryWriteShit n).2 = false → (r.tryWriteShit n).1 = r
  write_refused : ∀ data : List T, data.length = n → (r.tryWrite data).2 = false →
    (r.tryWrite data).1 = r

/-! ### Capacities -/

theorem tryRead_capacity (r : RingBuffer T) (length : Nat) (withoutShift : Bool) :
    (r.tryRead length withoutShift).1._capacity = r._capacity := by
  unfold tryRead
  split
  · rfl
  · cases withoutShift <;> rfl

theorem tryReadShift_capacity (r : RingBuffer T) (length : Nat) :
    (r.tryReadShift length).1._capacity = r._capacity := by
  unfold tryReadShift
  split <;> rfl

theorem tryWriteShit_capacity (r : RingBuffer T) (length : Nat) :
    (r.tryWriteShit length).1._capacity = r._capacity := by
  unfold tryWriteShit
  split <;> rfl

theorem CallStep.capacity {r r' : RingBuffer T} {c : ring_call T} (h : CallStep r c r') :
    r'._capacity = r._capacity := by
  unfold CallStep at h
  cases c with
  | tryWrite data =>
    rw [show r' = (r.tryWrite data).1 from h, tryWrite_capacity]
  | tryRead length withoutShift =>
    rw [show r' = (r.tryRead length withoutShift).1 from h, tryRead_capacity]
  | tryReadShift length =>
    rw [show r' = (r.tryReadShift length).1 from h, tryReadShift_capacity]
  | tryWriteShit length =>
    rw [show r' = (r.tryWriteShit length).1 from h, tryWriteShit_capacity]
  | clear =>
    rw [show r' = r.clear from h]
    rfl

theorem capacity_of_reachable {r : RingBuffer T} (h : (system T).Reachable r) :
    r._capacity < 2 ^ 63 := by
  induction h with
  | init h =>
    obtain ⟨capacity, cells, hpos, hcap, rfl⟩ := h
    exact hcap
  | step c _ hstep hcap =>
    rw [CallStep.capacity hstep]
    exact hcap

/-! ### Refused calls -/

theorem tryRead_refused {r : RingBuffer T} {length : Nat} {withoutShift : Bool}
    (hcap : r._capacity < 2 ^ 63) (h : (r.tryRead length withoutShift).2 = none) :
    (r.tryRead length withoutShift).1 = r := by
  rcases Nat.eq_zero_or_pos r.count with hzero | hpos
  · rw [tryRead_of_empty hcap hzero]
  · rw [tryRead_of_pos hcap hpos] at h
    cases h

theorem tryReadShift_refused (r : RingBuffer T) (length : Nat)
    (h : (r.tryReadShift length).2 = false) : (r.tryReadShift length).1 = r := by
  unfold tryReadShift at h ⊢
  split
  · rfl
  · next hempty =>
    rw [if_neg hempty] at h
    cases h

theorem tryWriteShit_refused (r : RingBuffer T) (length : Nat)
    (h : (r.tryWriteShit length).2 = false) : (r.tryWriteShit length).1 = r := by
  unfold tryWriteShit at h ⊢
  split
  · rfl
  · next hfull =>
    rw [if_neg hfull] at h
    cases h

theorem tryWrite_refused (r : RingBuffer T) (data : List T) (h : (r.tryWrite data).2 = false) :
    (r.tryWrite data).1 = r := by
  unfold tryWrite at h ⊢
  split
  · rfl
  · next hfull =>
    rw [if_neg hfull] at h
    split
    · rfl
    · next hfit =>
      rw [if_neg hfit] at h
      cases h

/-! ### The calls that read -/

/-- Only an empty ring refuses `tryRead`. -/
theorem isSome_tryRead (r : RingBuffer T) (n : Nat) (withoutShift : Bool)
    (hcap : r._capacity < 2 ^ 63) :
    (r.tryRead n withoutShift).2.isSome = true ↔ 0 < r.count := by
  rcases Nat.eq_zero_or_pos r.count with hzero | hpos
  · rw [tryRead_of_empty hcap hzero, hzero]
    exact ⟨nofun, fun h => absurd h (Nat.lt_irrefl 0)⟩
  · rw [tryRead_of_pos hcap hpos]
    exact ⟨fun _ => hpos, fun _ => rfl⟩

theorem hands_out_of_le {r : RingBuffer T} {n : Nat} (hcap : r._capacity < 2 ^ 63)
    (hle : n ≤ r.count) (hmax : n ≤ INT_MAX) : HandsOut r n := by
  have hlt := r.count_lt
  have hshift := (shift_read_of_le hcap hle).1
  have hempty : r.empty n = true ↔ r.count = n := empty_iff r hcap (by omega)
  refine ⟨?_, fun _ _ => hle, fun _ => hle, ?_, ?_, fun _ _ => hmax, ?_, ?_, ?_, ?_⟩
  · rw [hempty]
    omega
  · intro h
    have hpos := (isSome_tryRead r n false hcap).mp h
    rw [tryRead_of_le hcap hpos hle]
    show (r.shift_read n).count + n = r.count
    omega
  · intro h
    -- the call went through, so the indices have moved
    have hmoved : r.tryReadShift n = (r.shift_read n, true) := by
      unfold tryReadShift at h ⊢
      split
      · next hfalse =>
        rw [if_pos hfalse] at h
        cases h
      · rfl
    rw [hmoved]
    show (r.shift_read n).count + n = r.count
    omega
  · intro withoutShift h
    exact tryRead_refused hcap h
  · exact tryReadShift_refused r n
  · exact tryWriteShit_refused r n
  · intro data _ h
    exact tryWrite_refused r data h

/-- **The ring hands out what it holds** exactly for the lengths up to `count()`
    (which the read loop must be able to count). -/
theorem hands_out_iff (r : RingBuffer T) (hr : (system T).Reachable r) (n : Nat)
    (hn : n < 2 ^ 64) : HandsOut r n ↔ n ≤ r.count ∧ n ≤ INT_MAX := by
  have hcap := capacity_of_reachable hr
  refine ⟨?_, fun ⟨hle, hmax⟩ => hands_out_of_le hcap hle hmax⟩
  intro h
  -- `empty(n)` says that the count is `n`, so the count is not below
  have hempty := (RingBuffer.empty_iff r hcap hn).symm.trans h.empty_iff
  have hle : n ≤ r.count := by
    rcases Nat.lt_or_ge r.count n with hlt | hge
    · have := hempty.mpr (Nat.le_of_lt hlt)
      omega
    · exact hge
  refine ⟨hle, ?_⟩
  rcases Nat.eq_zero_or_pos r.count with hzero | hpos
  · have hnil : n = 0 := by omega
    rw [hnil]
    exact Nat.zero_le _
  · exact h.read_defined false ((isSome_tryRead r n false hcap).mpr hpos)

/-- A ring of four cells that holds one element. -/
def one_element : RingBuffer UInt8 := ((new 4 (fun _ => 0) (by decide)).tryWrite [0x61]).1

theorem reachable_one_element : (system UInt8).Reachable one_element :=
  .step (.tryWrite [0x61]) (.init ⟨4, fun _ => 0, by decide, by decide, rfl⟩) rfl

/-- One element can be read. -/
theorem hands_out_one_element : HandsOut one_element 1 :=
  (hands_out_iff one_element reachable_one_element 1 (by decide)).mpr (by decide +kernel)

/-- Two can be, too. -/
theorem not_always_hands_out :
    ¬ ∀ r : RingBuffer UInt8, (system UInt8).Reachable r → ∀ n, n < 2 ^ 64 → HandsOut r n := by
  intro hall
  have hread := (hall one_element reachable_one_element 2 (by decide)).read_le false
    (by decide +kernel)
  exact absurd hread (by decide +kernel)

end RingBuffer

end AsioNet
