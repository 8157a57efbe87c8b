import AsioNet.Library.Lockstep
import AsioNet.CsNetwork.Runtime

/-! # The client's ring buffer (`RingBuffer.cs`)

    The send thread, the receive thread and the frame parser of the client share
    two of these. The index advance adds the loop counter instead of one, no
    index ever wraps around, and neither `TryRead` nor `TryWrite` has a
    `return true`. Against a bounded queue the ring therefore answers rightly only
    as long as nothing fits and nothing is there.
-/

namespace AsioNet.CsNetwork

open Exec Lockstep

structure RingBuffer where
  _buffer : List UInt8
  _readIndex : Int32
  _writeIndex : Int32
  _capacity : Int32

namespace RingBuffer

/-- `new RingBuffer(capacity)` -/
def make (capacity : Int32) : RingBuffer where
  _buffer := List.replicate capacity.toNatClampNeg 0
  _readIndex := 0
  _writeIndex := 0
  _capacity := capacity

def Count (r : RingBuffer) : Int32 := (r._writeIndex - r._readIndex) % r._capacity

def Full (r : RingBuffer) (add : Int32) : Bool := decide (r.Count + add ≥ r._capacity)

def Empty (r : RingBuffer) : Bool := decide (r.Count ≤ 0)

/-- One round of the loop of `TryRead`, on the ring and `ret`. -/
def read_round (withoutShift : Bool) (i : Nat) : Exec stop (RingBuffer × byte_array) PUnit := do
  if withoutShift then
    let s ← get
    let b ← lift (load s.1._buffer (s.1._readIndex + Int32.ofNat i))
    let ret ← lift (deref s.2 >>= fun cells => store cells (Int32.ofNat i) b)
    set (s.1, some ret)
  else
    modify fun s => ({ s.1 with _readIndex := s.1._readIndex + Int32.ofNat i }, s.2)
    let s ← get
    let b ← lift (load s.1._buffer s.1._readIndex)
    let ret ← lift (deref s.2 >>= fun cells => store cells (Int32.ofNat i) b)
    set (s.1, some ret)

def TryRead (size : Int32) (withoutShift : Bool) : Exec stop (RingBuffer × byte_array) Bool := do
  let s ← get
  if s.1.Empty then pure false
  else if s.1.Count - size ≤ 0 then pure false
  else
    for_loop (read_round withoutShift) size.toNatClampNeg 0
    -- after the loop the source falls through to its last line
    pure false

def TryReadShift (size : Int32) : Exec stop RingBuffer Bool := do
  let r ← get
  if r.Count - size ≤ 0 then pure false
  else
    set { r with _readIndex := r._readIndex + size }
    pure true

/-- The number of bytes `TryWrite` is asked to write. -/
def write_size (data : List UInt8) (length : Int32) : Int32 :=
  if length ≠ 0 then length else Int32.ofNat data.length

/-- One round of the loop of `TryWrite`. -/
def write_round (data : List UInt8) (i : Nat) : Exec stop RingBuffer PUnit := do
  modify fun r => { r with _writeIndex := r._writeIndex + Int32.ofNat i }
  let r ← get
  let b ← lift (load data (Int32.ofNat i))
  let cells ← lift (store r._buffer r._writeIndex b)
  set { r with _buffer := cells }

def TryWrite (data : List UInt8) (length : Int32) : Exec stop RingBuffer Bool := do
  let r ← get
  if r.Full 0 then pure false
  else if write_size data length + r.Count ≥ r._capacity then pure false
  else
    for_loop (write_round data) (write_size data length).toNatClampNeg 0
    pure false

def Clear : Exec stop RingBuffer PUnit :=
  modify fun r => { r with _readIndex := 0, _writeIndex := 0 }

/-! ### What the calls can return -/

/-- **`TryWrite` never reports success.** -/
theorem TryWrite_ne_true (data : List UInt8) (length : Int32) (r : RingBuffer) :
    (exec (TryWrite data length) r).1 ≠ .ok true := by
  unfold TryWrite
  simp only [exec_get_bind, exec_ite, exec_pure]
  split
  · simp
  split
  · simp
  intro h
  obtain ⟨_, _, _, hret⟩ := of_exec_bind_ok h
  simp at hret

/-! ### Calls and their answers -/

/-- The calls on a ring. -/
inductive call where
  | TryWrite (data : List UInt8) (length : Int32)
  | TryRead (size : Int32) (ret : List UInt8) (withoutShift : Bool)
  | TryReadShift (size : Int32)
  | Full (add : Int32)
  | Empty
  | Clear

/-- What a caller sees of a call: the value returned (`Clear` returns none), the
    array handed over as `ret`, and `Count` afterwards. -/
structure response where
  returned : Option Bool
  ret : List UInt8
  Count : Int
  deriving DecidableEq

/-- The response of a call that came to `outcome`. -/
def respond (outcome : Except stop Bool × RingBuffer) : Except stop response × RingBuffer :=
  (outcome.1.map fun returned => ⟨some returned, [], outcome.2.Count.toInt⟩, outcome.2)

def perform (r : RingBuffer) : call → Except stop response × RingBuffer
  | .TryWrite data length => respond (exec (RingBuffer.TryWrite data length) r)
  | .TryRead size ret withoutShift =>
    let outcome := exec (RingBuffer.TryRead size withoutShift) (r, some ret)
    (outcome.1.map fun returned =>
      ⟨some returned, outcome.2.2.getD [], outcome.2.1.Count.toInt⟩, outcome.2.1)
  | .TryReadShift size => respond (exec (RingBuffer.TryReadShift size) r)
  | .Full add => respond (.ok (r.Full add), r)
  | .Empty => respond (.ok r.Empty, r)
  | .Clear =>
    let r := (exec RingBuffer.Clear r).2
    (.ok ⟨none, [], r.Count.toInt⟩, r)

/-- The ring as a machine. -/
def ring : Machine RingBuffer call (Except stop response) where
  step := perform

/-! ### The queue the ring stands for

    The queue holds the bytes written and not yet consumed, fewer than
    `capacity`. A negative size is no number of bytes and is refused.
-/

/-- What a queue that holds `q` answers. -/
def queue_answer (q : List UInt8) (returned : Option Bool) (ret : List UInt8) :
    Except stop response × List UInt8 :=
  (.ok ⟨returned, ret, q.length⟩, q)

def queue_step (capacity : Int32) (q : List UInt8) : call → Except stop response × List UInt8
  | .TryWrite data length =>
    let size := write_size data length
    if 0 ≤ size.toInt ∧ size.toInt + q.length < capacity.toInt then
      queue_answer (q ++ data.take size.toNatClampNeg) (some true) []
    else queue_answer q (some false) []
  | .TryRead size ret withoutShift =>
    let n := size.toNatClampNeg
    if 0 ≤ size.toInt ∧ size.toInt ≤ q.length then
      queue_answer (if withoutShift then q else q.drop n) (some true) (q.take n ++ ret.drop n)
    else queue_answer q (some false) ret
  | .TryReadShift size =>
    if 0 ≤ size.toInt ∧ size.toInt ≤ q.length then
      queue_answer (q.drop size.toNatClampNeg) (some true) []
    else queue_answer q (some false) []
  | .Full add => queue_answer q (some (decide ((q.length : Int) + add.toInt ≥ capacity.toInt))) []
  | .Empty => queue_answer q (some (decide (q = []))) []
  | .Clear => queue_answer [] none []

def bounded_queue (capacity : Int32) : Machine (List UInt8) call (Except stop response) where
  step := queue_step capacity

/-! ### The ring against the queue -/

/-- The queue that holds nothing refuses the call, and the ring does too. -/
def Refused (capacity : Int32) : call → Prop
  | .TryWrite data length =>
    ¬(0 ≤ (write_size data length).toInt ∧ (write_size data length).toInt < capacity.toInt)
  | .TryRead size _ _ => size ≠ 0
  | .TryReadShift size => size ≠ 0 ∧ -size ≤ 0
  | .Full _ => True
  | .Empty => True
  | .Clear => True

@[simp] theorem Count_make (capacity : Int32) : (make capacity).Count = 0 := by
  rw [← Int32.toInt_inj]
  simp [Count, make]

@[simp] theorem Empty_make (capacity : Int32) : (make capacity).Empty = true := by
  simp [Empty]

theorem exec_TryRead_make (capacity size : Int32) (withoutShift : Bool) (ret : byte_array) :
    exec (RingBuffer.TryRead size withoutShift) (make capacity, ret) =
      (.ok false, (make capacity, ret)) := by
  unfold RingBuffer.TryRead
  simp only [exec_get_bind, Empty_make, if_true, exec_pure]

theorem exec_TryReadShift_make (capacity size : Int32) :
    exec (RingBuffer.TryReadShift size) (make capacity) =
      if -size ≤ 0 then (.ok false, make capacity)
      else (.ok true, { make capacity with _readIndex := size }) := by
  unfold RingBuffer.TryReadShift
  simp only [exec_get_bind, Count_make, Int32.zero_sub, exec_ite, exec_pure, exec_set_bind]
  simp [make]

theorem refused_write_iff (capacity : Int32) (data : List UInt8) (length : Int32) :
    Refused capacity (.TryWrite data length) ↔
      ¬(0 ≤ (write_size data length).toInt ∧
        (write_size data length).toInt + (([] : List UInt8).length : Int) < capacity.toInt) := by
  simp [Refused]

/-- The empty queue has no bytes to give. -/
theorem not_available {size : Int32} (h : size ≠ 0) :
    ¬(0 ≤ size.toInt ∧ size.toInt ≤ (([] : List UInt8).length : Int)) := by
  rintro ⟨hnonneg, hle⟩
  apply h
  rw [← Int32.toInt_inj]
  show size.toInt = 0
  rw [List.length_nil] at hle
  omega

/-- A write that a queue would refuse changes nothing. -/
theorem exec_TryWrite_make {capacity : Int32} (hcap : 2 ≤ capacity) {data : List UInt8}
    {length : Int32} (h : Refused capacity (.TryWrite data length)) :
    exec (RingBuffer.TryWrite data length) (make capacity) = (.ok false, make capacity) := by
  have hpos : (2 : Int) ≤ capacity.toInt := Int32.le_iff_toInt_le.mp hcap
  have hfull : (make capacity).Full 0 = false := by
    have hlt : (0 : Int32) < capacity := Int32.lt_iff_toInt_lt.mpr (by
      show (0 : Int) < capacity.toInt
      omega)
    simp only [Full, Count_make]
    simpa [make] using hlt
  unfold RingBuffer.TryWrite
  simp only [exec_get_bind, hfull, Count_make, exec_ite, exec_pure, Int32.add_zero]
  rw [if_neg (by simp)]
  split
  · rfl
  · rename_i hge
    -- what is not too long is negative, and then the loop has no rounds
    have hlt : (write_size data length).toInt < capacity.toInt := by
      rw [← Int32.lt_iff_toInt_lt, ← Int32.not_le]
      exact hge
    have hneg : (write_size data length).toInt < 0 := by
      by_contra hnonneg
      exact h ⟨by omega, hlt⟩
    have hzero : (write_size data length).toNatClampNeg = 0 := by
      rw [Int32.toNatClampNeg]
      omega
    rw [hzero]
    rfl

/-- The answer to a call on the empty ring is the queue's exactly when the queue
    refuses it. -/
theorem answer_make {capacity : Int32} (hcap : 2 ≤ capacity) (c : call) :
    (perform (make capacity) c).1 = (queue_step capacity [] c).1 ↔ Refused capacity c := by
  have hpos : (2 : Int) ≤ capacity.toInt := Int32.le_iff_toInt_le.mp hcap
  cases c with
  | TryWrite data length =>
    by_cases h : Refused capacity (.TryWrite data length)
    · have hqueue := (refused_write_iff capacity data length).mp h
      simp only [perform, exec_TryWrite_make hcap h, queue_step, if_neg hqueue]
      simp [respond, queue_answer, h, Except.map]
    · have hqueue := not_not.mp ((refused_write_iff capacity data length).not.mp h)
      have hne := TryWrite_ne_true data length (make capacity)
      simp only [perform, queue_step, if_pos hqueue, h, iff_false]
      rcases hrun : exec (RingBuffer.TryWrite data length) (make capacity) with ⟨_ | b, r⟩
      · simp [respond, queue_answer, Except.map]
      · rw [hrun] at hne
        simp only [respond, queue_answer, Except.map]
        simp_all
  | TryRead size ret withoutShift =>
    simp only [perform, exec_TryRead_make, queue_step, Refused]
    by_cases hsize : size = 0
    · rw [hsize]
      simp [queue_answer, Except.map]
    · rw [if_neg (not_available hsize)]
      simp [queue_answer, Except.map, hsize]
  | TryReadShift size =>
    simp only [perform, exec_TryReadShift_make, queue_step, Refused]
    by_cases hsize : size = 0
    · rw [hsize]
      simp [respond, queue_answer, Except.map]
    · rw [if_neg (not_available hsize)]
      by_cases hneg : -size ≤ 0
      · rw [if_pos hneg]
        simp [respond, queue_answer, Except.map, hsize, hneg]
      · rw [if_neg hneg]
        simp [respond, queue_answer, Except.map, hneg]
  | Full add =>
    have hcapacity : (make capacity)._capacity = capacity := rfl
    simp [perform, respond, queue_step, queue_answer, Refused, Except.map, RingBuffer.Full,
      hcapacity, Int32.le_iff_toInt_le]
  | Empty => simp [perform, respond, queue_step, queue_answer, Refused, Except.map]
  | Clear =>
    have hclear : exec RingBuffer.Clear (make capacity) = (.ok .unit, make capacity) := rfl
    simp [perform, hclear, queue_step, queue_answer, Refused]

/-- After a refused call the ring is as new and the queue is empty. -/
theorem stays_of_refused {capacity : Int32} (hcap : 2 ≤ capacity) {c : call}
    (h : Refused capacity c) :
    (perform (make capacity) c).2 = make capacity ∧ (queue_step capacity [] c).2 = [] := by
  cases c with
  | TryWrite data length =>
    have hqueue := (refused_write_iff capacity data length).mp h
    simp only [perform, exec_TryWrite_make hcap h, queue_step, if_neg hqueue]
    exact ⟨rfl, rfl⟩
  | TryRead size ret withoutShift =>
    simp only [perform, exec_TryRead_make, queue_step, if_neg (not_available h)]
    simp [queue_answer]
  | TryReadShift size =>
    simp only [perform, exec_TryReadShift_make, if_pos h.2, queue_step,
      if_neg (not_available h.1)]
    simp [respond, queue_answer]
  | Full add => exact ⟨rfl, rfl⟩
  | Empty => exact ⟨rfl, rfl⟩
  | Clear => exact ⟨rfl, rfl⟩

/-- **The ring behaves as a queue exactly in the runs in which a queue would
    refuse every call.** -/
theorem agrees_with_queue_iff {capacity : Int32} (hcap : 2 ≤ capacity) (calls : List call) :
    ring.Agrees (bounded_queue capacity) (make capacity) [] calls ↔
      ∀ c ∈ calls, Refused capacity c := by
  have halong : (bounded_queue capacity).Along (fun _ => Refused capacity) [] calls ↔
      ∀ c ∈ calls, Refused capacity c := by
    apply Machine.along_iff_forall
    intro c hrefused
    exact (stays_of_refused hcap hrefused).2
  rw [← halong]
  apply Machine.agrees_iff_along fun r q => r = make capacity ∧ q = []
  · rintro _ _ c ⟨rfl, rfl⟩
    exact answer_make hcap c
  · rintro _ _ c ⟨rfl, rfl⟩ hrefused
    exact stays_of_refused hcap hrefused
  · exact ⟨rfl, rfl⟩

theorem agrees_with_queue_a :
    ring.Agrees (bounded_queue 2) (make 2) [] [.TryRead 1 [0] false] ↔
      ∀ c ∈ [call.TryRead 1 [0] false], Refused 2 c :=
  agrees_with_queue_iff (by decide) _

/-- One byte written to a ring of two cells. -/
theorem write_not_reported :
    ¬ring.Agrees (bounded_queue 2) (make 2) [] [.TryWrite [0x61] 0] := by
  intro h
  exact absurd h.1 (by decide)

end RingBuffer

end AsioNet.CsNetwork
