import AsioNet.Library.TransitionSystem
import AsioNet.ParallelCore.RingBuffer

/-! # One producer and one consumer on the ring

    "consumer & producer are single, lock-free queue": one thread calls
    `tryWrite`, another one calls `count` and then `tryRead` for at most as many
    elements as it was told. A step is a single load or store of an index or a
    cell, and the steps of the two threads interleave in any order.

    Each index is updated in two stores, `+= length` and `%= _capacity`. Between
    them the read index may be above the capacity. If the producer passes the end
    of the ring meanwhile, `_writeIndex - _readIndex + _capacity` is negative and
    wraps around at `2 ^ 64`, which is not a multiple of the capacity unless that
    is a power of two: `count` is wrong, and unread elements are overwritten.
    `fifo_of_reachable` holds as long as this does not happen.
-/

namespace AsioNet

open CircularBuffer TransitionSystem

/-! ### The threads -/

/-- The variables both threads use. -/
structure ring_memory (T : Type) where
  _buffer : Nat → T
  _readIndex : Nat
  _writeIndex : Nat

/-- A call of `count` that has loaded no index or one of them. The order of the
    two loads is not specified. -/
inductive count_call where
  | start
  | loaded_write (writeIndex : Nat)
  | loaded_read (readIndex : Nat)

/-- Where the producer is in `tryWrite(data, data.length)`. -/
inductive producer_pc (T : Type) where
  | idle
  /-- in `full()`; `entry` is the memory at the call, which no step reads -/
  | full (entry : ring_memory T) (data : List T) (c : count_call)
  /-- in `length + count() >= _capacity` -/
  | fit (entry : ring_memory T) (data : List T) (c : count_call)
  /-- in round `i` of the loop, with `_writeIndex` loaded or not -/
  | copy (data : List T) (i : Nat) (loaded : Option Nat)
  /-- `_writeIndex += length`, with the index loaded -/
  | add (data : List T) (writeIndex : Nat)
  /-- before `_writeIndex %= _capacity` -/
  | reduce (data : List T)
  /-- `_writeIndex %= _capacity`, with the index loaded -/
  | mod (data : List T) (writeIndex : Nat)

/-- Where the consumer is; `seen` is what is left of the last count it was told. -/
inductive consumer_pc (T : Type) where
  | idle (seen : Nat)
  | count (c : count_call)
  /-- `tryRead(length, ret)` is in `empty()` -/
  | empty (seen length : Nat) (c : count_call)
  /-- in the round of the loop that follows those which filled `ret` -/
  | copy (seen length : Nat) (ret : List T) (loaded : Option Nat)
  | add (seen length : Nat) (ret : List T) (readIndex : Nat)
  | reduce (seen length : Nat) (ret : List T)
  | mod (seen length : Nat) (ret : List T) (readIndex : Nat)

structure ring_threads (T : Type) where
  memory : ring_memory T
  producer : producer_pc T
  consumer : consumer_pc T
  /-- The data of the calls of `tryWrite` that returned `true`. -/
  written : List T
  /-- What the calls of `tryRead` delivered. -/
  read : List T

/-- What happens next. `write_first` is the order of the loads in `count`. -/
inductive ring_access (T : Type) where
  /-- the producer calls `tryWrite` -/
  | tryWrite (data : List T)
  | producer (write_first : Bool)
  /-- the consumer calls `count` -/
  | count
  /-- the consumer calls `tryRead` -/
  | tryRead (length : Nat)
  | consumer (write_first : Bool)

variable {T : Type}

/-- The next load of a call of `count`, or its result. -/
def count_call.step (capacity : Nat) (m : ring_memory T) (write_first : Bool) :
    count_call → count_call ⊕ Nat
  | .start =>
    if write_first then .inl (.loaded_write m._writeIndex) else .inl (.loaded_read m._readIndex)
  | .loaded_write w => .inr (size_t_add (size_t_sub w m._readIndex) capacity % capacity)
  | .loaded_read r => .inr (size_t_add (size_t_sub m._writeIndex r) capacity % capacity)

namespace ring_threads

/-- The producer's next access. -/
def producer_step (capacity : Nat) (write_first : Bool) (s : ring_threads T) :
    Option (ring_threads T) :=
  match s.producer with
  | .idle => none
  | .full entry data c =>
    match c.step capacity s.memory write_first with
    | .inl c => some { s with producer := .full entry data c }
    | .inr n =>
      -- `full()` answers and `tryWrite` returns `false`, or goes on
      if size_t_add n 0 ≥ capacity then some { s with producer := .idle }
      else some { s with producer := .fit entry data .start }
  | .fit entry data c =>
    match c.step capacity s.memory write_first with
    | .inl c => some { s with producer := .fit entry data c }
    | .inr n =>
      if size_t_add data.length n ≥ capacity then some { s with producer := .idle }
      else some { s with producer := .copy data 0 none }
  | .copy data i none =>
    if i < data.length then
      some { s with producer := .copy data i (some s.memory._writeIndex) }
    else some { s with producer := .add data s.memory._writeIndex }
  | .copy data i (some w) =>
    data[i]?.map fun x =>
      { s with
        memory := { s.memory with
          _buffer := Function.update s.memory._buffer ((w + i) % capacity) x }
        producer := .copy data (i + 1) none }
  | .add data w =>
    some { s with
      memory := { s.memory with _writeIndex := size_t_add w data.length }
      producer := .reduce data }
  | .reduce data => some { s with producer := .mod data s.memory._writeIndex }
  | .mod data w =>
    some { s with
      memory := { s.memory with _writeIndex := w % capacity }
      producer := .idle
      written := s.written ++ data }

/-- The consumer's next access. -/
def consumer_step (capacity : Nat) (write_first : Bool) (s : ring_threads T) :
    Option (ring_threads T) :=
  match s.consumer with
  | .idle _ => none
  | .count c =>
    match c.step capacity s.memory write_first with
    | .inl c => some { s with consumer := .count c }
    | .inr n => some { s with consumer := .idle n }
  | .empty seen length c =>
    match c.step capacity s.memory write_first with
    | .inl c => some { s with consumer := .empty seen length c }
    | .inr n =>
      if size_t_sub n 0 ≤ 0 then some { s with consumer := .idle seen }
      else some { s with consumer := .copy seen length [] none }
  | .copy seen length ret none =>
    if ret.length < length then
      some { s with consumer := .copy seen length ret (some s.memory._readIndex) }
    else some { s with consumer := .add seen length ret s.memory._readIndex }
  | .copy seen length ret (some r) =>
    let x := s.memory._buffer ((r + ret.length) % capacity)
    some { s with consumer := .copy seen length (ret ++ [x]) none }
  | .add seen length ret r =>
    some { s with
      memory := { s.memory with _readIndex := size_t_add r length }
      consumer := .reduce seen length ret }
  | .reduce seen length ret =>
    some { s with consumer := .mod seen length ret s.memory._readIndex }
  | .mod seen length ret r =>
    some { s with
      memory := { s.memory with _readIndex := r % capacity }
      consumer := .idle (seen - length)
      read := s.read ++ ret }

/-- The state after an access, none if it cannot happen. No array has `2 ^ 63`
    elements, and the consumer asks for no more than it was told there is. -/
def exec (capacity : Nat) (s : ring_threads T) : ring_access T → Option (ring_threads T)
  | .tryWrite data =>
    match s.producer with
    | .idle =>
      if data.length < 2 ^ 63 then some { s with producer := .full s.memory data .start }
      else none
    | _ => none
  | .producer write_first => s.producer_step capacity write_first
  | .count =>
    match s.consumer with
    | .idle _ => some { s with consumer := .count .start }
    | _ => none
  | .tryRead length =>
    match s.consumer with
    | .idle seen =>
      if 1 ≤ length ∧ length ≤ seen then some { s with consumer := .empty seen length .start }
      else none
    | _ => none
  | .consumer write_first => s.consumer_step capacity write_first

/-- The threads on a ring that was just constructed. -/
def start (cells : Nat → T) : ring_threads T where
  memory := { _buffer := cells, _readIndex := 0, _writeIndex := 0 }
  producer := .idle
  consumer := .idle 0
  written := []
  read := []

def system (T : Type) (capacity : Nat) : System (ring_threads T) (ring_access T) :=
  System.ofExec (fun s => ∃ cells, s = start cells) (exec capacity)

/-! ### Positions

    Elements are numbered in the order in which they are written. The element with
    number `p` lies in cell `p % capacity`. -/

/-- The data of a call whose `_writeIndex += length` is done; such a call can only
    return `true`. -/
def in_flight : producer_pc T → List T
  | .reduce data => data
  | .mod data _ => data
  | _ => []

/-- The elements successfully written. -/
def published (s : ring_threads T) : List T := s.written ++ in_flight s.producer

/-- How far `_readIndex` is ahead of what was delivered. -/
def taken : consumer_pc T → Nat
  | .reduce _ length _ => length
  | .mod _ length _ _ => length
  | _ => 0

/-- The number of the next element to be read. -/
def read_position (s : ring_threads T) : Nat := s.read.length + taken s.consumer

/-- **The queue property.** What was read is a prefix of what was successfully
    written, the rest lies untouched in the ring, and a call of `tryWrite` that
    returns `false` has changed nothing since its entry. -/
structure Fifo (capacity : Nat) (s : ring_threads T) : Prop where
  in_order : s.read <+: published s
  unread : window s.memory._buffer capacity (read_position s)
    ((published s).length - read_position s) = (published s).drop (read_position s)
  refused : ∀ entry data c a s', s.producer = .full entry data c ∨ s.producer = .fit entry data c →
    exec capacity s a = some s' → s'.producer = .idle →
    s'.memory._buffer = entry._buffer ∧ s'.memory._writeIndex = entry._writeIndex ∧
      published s' = published s

/-- The producer is about to load `_readIndex` in `count`. -/
def LoadsReadIndex (s : ring_threads T) (write_first : Bool) : Prop :=
  ∃ entry data c, (s.producer = .full entry data c ∨ s.producer = .fit entry data c) ∧
    (c = .start ∧ write_first = false ∨ ∃ w, c = .loaded_write w)

/-- The difference the producer computes in `count` does not wrap around, or this
    does not matter. -/
def Comparable (capacity : Nat) (s : ring_threads T) : ring_access T → Prop
  | .producer write_first => LoadsReadIndex s write_first →
    s.memory._readIndex ≤ s.memory._writeIndex + capacity ∨ capacity ∣ 2 ^ 64
  | _ => True

/-! ### What `count` computes -/

/-- The count of two indices, reduced to cells or not. -/
theorem count_of_indices {c w r W R : Nat} (hc : c < 2 ^ 31) (hw : w % c = W % c)
    (hr : r % c = R % c) (hw_lt : w < 2 * c) (hr_lt : r < 2 * c) (hcmp : r ≤ w + c ∨ c ∣ 2 ^ 64)
    (hle : R ≤ W) (hlt : W < R + c) : size_t_add (size_t_sub w r) c % c = W - R := by
  by_cases h : r ≤ w + c
  · have hsum : size_t_add (size_t_sub w r) c = w + c - r := by
      unfold size_t_add size_t_sub
      omega
    rw [hsum]
    exact distance_of_modEq hw hr h hle hlt
  · obtain ⟨k, hk⟩ := hcmp.resolve_left h
    -- the difference wraps around, by a multiple of the capacity
    have hsum : size_t_add (size_t_sub w r) c = w + 2 ^ 64 + c - r := by
      unfold size_t_add size_t_sub
      omega
    have hw' : (w + 2 ^ 64) % c = W % c := by
      rw [hk, Nat.add_mul_mod_self_left, hw]
    rw [hsum]
    exact distance_of_modEq hw' hr (by omega) hle hlt

/-- What the producer has got from a call of `count`: `_writeIndex` is its own, and
    a read index it loaded was right then. -/
def WriterCount (c writeIndex W position : Nat) : count_call → Prop
  | .start => True
  | .loaded_write w => w = writeIndex
  | .loaded_read r => ∃ R, r % c = R % c ∧ R ≤ position ∧ W < R + c ∧ r < 2 * c ∧
    (r ≤ writeIndex + c ∨ c ∣ 2 ^ 64)

/-- The same for the consumer. -/
def ReaderCount (c readIndex W R : Nat) : count_call → Prop
  | .start => True
  | .loaded_write w => ∃ W₀, w % c = W₀ % c ∧ R ≤ W₀ ∧ W₀ ≤ W ∧ w < 2 * c
  | .loaded_read r => r = readIndex

/-! ### The invariant -/

/-- The producer's progress: `W` elements are published, and `position` is the
    number of the next one to be read. -/
def ProducerOk (c : Nat) (cells : Nat → T) (writeIndex W position : Nat) : producer_pc T → Prop
  | .idle => writeIndex = W % c
  | .full entry data call => writeIndex = W % c ∧ cells = entry._buffer ∧
    writeIndex = entry._writeIndex ∧ data.length < 2 ^ 63 ∧ WriterCount c writeIndex W position call
  | .fit entry data call => writeIndex = W % c ∧ cells = entry._buffer ∧
    writeIndex = entry._writeIndex ∧ data.length < 2 ^ 63 ∧ WriterCount c writeIndex W position call
  | .copy data i loaded => writeIndex = W % c ∧ W + data.length < position + c ∧
    i ≤ data.length ∧ window cells c W i = data.take i ∧ ∀ w ∈ loaded, w = writeIndex
  | .add data w => writeIndex = W % c ∧ W + data.length < position + c ∧
    window cells c W data.length = data ∧ w = writeIndex
  | .reduce data => data.length ≤ W ∧ data.length < c ∧
    writeIndex = (W - data.length) % c + data.length
  | .mod data w => data.length ≤ W ∧ data.length < c ∧
    writeIndex = (W - data.length) % c + data.length ∧ w = writeIndex

/-- The consumer's progress: `R` elements are delivered. -/
def ConsumerOk (c readIndex : Nat) (published : List T) (R : Nat) : consumer_pc T → Prop
  | .idle seen => readIndex = R % c ∧ R + seen ≤ published.length
  | .count call => readIndex = R % c ∧ ReaderCount c readIndex published.length R call
  | .empty seen length call => readIndex = R % c ∧ R + seen ≤ published.length ∧
    length ≤ seen ∧ ReaderCount c readIndex published.length R call
  | .copy seen length ret loaded => readIndex = R % c ∧ R + seen ≤ published.length ∧
    length ≤ seen ∧ ret.length ≤ length ∧ ret = (published.drop R).take ret.length ∧
    ∀ r ∈ loaded, r = readIndex ∧ ret.length < length
  | .add seen length ret r => readIndex = R % c ∧ R + seen ≤ published.length ∧
    length ≤ seen ∧ ret = (published.drop R).take length ∧ r = readIndex
  | .reduce seen length ret => readIndex = R % c + length ∧ length < c ∧
    R + seen ≤ published.length ∧ length ≤ seen ∧ ret = (published.drop R).take length
  | .mod seen length ret r => readIndex = R % c + length ∧ length < c ∧
    R + seen ≤ published.length ∧ length ≤ seen ∧ ret = (published.drop R).take length ∧
    r = readIndex

/-- The invariant, over the parts of the state. -/
structure InvAt (c : Nat) (m : ring_memory T) (published read : List T) (p : producer_pc T)
    (q : consumer_pc T) : Prop where
  le : read.length + taken q ≤ published.length
  lt : published.length < read.length + taken q + c
  unread : window m._buffer c (read.length + taken q)
    (published.length - (read.length + taken q)) = published.drop (read.length + taken q)
  read_eq : read = published.take read.length
  producer_ok : ProducerOk c m._buffer m._writeIndex published.length (read.length + taken q) p
  consumer_ok : ConsumerOk c m._readIndex published read.length q

def Inv (c : Nat) (s : ring_threads T) : Prop :=
  InvAt c s.memory (published s) s.read s.producer s.consumer

/-! ### What a thread knows stays true when the other one moves -/

theorem WriterCount.mono {c writeIndex W position position' : Nat} {call : count_call}
    (h : WriterCount c writeIndex W position call) (hle : position ≤ position') :
    WriterCount c writeIndex W position' call := by
  cases call with
  | start => trivial
  | loaded_write w => exact h
  | loaded_read r =>
    obtain ⟨R, hr, hR, hW, hlt, hcmp⟩ := h
    exact ⟨R, hr, Nat.le_trans hR hle, hW, hlt, hcmp⟩

/-- More room for the producer. -/
theorem ProducerOk.mono {c : Nat} {cells : Nat → T} {writeIndex W position position' : Nat}
    {p : producer_pc T} (h : ProducerOk c cells writeIndex W position p)
    (hle : position ≤ position') : ProducerOk c cells writeIndex W position' p := by
  cases p with
  | idle => exact h
  | full entry data call =>
    obtain ⟨hw, hcells, hentry, hdata, hcall⟩ := h
    exact ⟨hw, hcells, hentry, hdata, hcall.mono hle⟩
  | fit entry data call =>
    obtain ⟨hw, hcells, hentry, hdata, hcall⟩ := h
    exact ⟨hw, hcells, hentry, hdata, hcall.mono hle⟩
  | copy data i loaded =>
    obtain ⟨hw, hroom, hi, hcopied, hloaded⟩ := h
    exact ⟨hw, by omega, hi, hcopied, hloaded⟩
  | add data w =>
    obtain ⟨hw, hroom, hcopied, hloaded⟩ := h
    exact ⟨hw, by omega, hcopied, hloaded⟩
  | reduce data => exact h
  | mod data w => exact h

theorem ReaderCount.mono {c readIndex W W' R : Nat} {call : count_call}
    (h : ReaderCount c readIndex W R call) (hle : W ≤ W') : ReaderCount c readIndex W' R call := by
  cases call with
  | start => trivial
  | loaded_write w =>
    obtain ⟨W₀, hw, hR, hW, hlt⟩ := h
    exact ⟨W₀, hw, hR, Nat.le_trans hW hle, hlt⟩
  | loaded_read r => exact h

theorem take_drop_append {xs ys : List T} {R n : Nat} (h : R + n ≤ xs.length) :
    ((xs ++ ys).drop R).take n = (xs.drop R).take n := by
  rw [List.drop_append_of_le_length (by omega), List.take_append_of_le_length]
  rw [List.length_drop]
  omega

/-- More elements for the consumer. -/
theorem ConsumerOk.mono {c readIndex R : Nat} {published : List T} {q : consumer_pc T}
    (h : ConsumerOk c readIndex published R q) (data : List T) :
    ConsumerOk c readIndex (published ++ data) R q := by
  have hle : published.length ≤ (published ++ data).length := by
    rw [List.length_append]
    exact Nat.le_add_right ..
  cases q with
  | idle seen =>
    obtain ⟨hr, hseen⟩ := h
    exact ⟨hr, Nat.le_trans hseen hle⟩
  | count call =>
    obtain ⟨hr, hcall⟩ := h
    exact ⟨hr, hcall.mono hle⟩
  | empty seen length call =>
    obtain ⟨hr, hseen, hlen, hcall⟩ := h
    exact ⟨hr, Nat.le_trans hseen hle, hlen, hcall.mono hle⟩
  | copy seen length ret loaded =>
    obtain ⟨hr, hseen, hlen, hret, hcopied, hloaded⟩ := h
    refine ⟨hr, Nat.le_trans hseen hle, hlen, hret, ?_, hloaded⟩
    rw [take_drop_append (by omega)]
    exact hcopied
  | add seen length ret r =>
    obtain ⟨hr, hseen, hlen, hcopied, hloaded⟩ := h
    refine ⟨hr, Nat.le_trans hseen hle, hlen, ?_, hloaded⟩
    rw [take_drop_append (by omega)]
    exact hcopied
  | reduce seen length ret =>
    obtain ⟨hr, hlt, hseen, hlen, hcopied⟩ := h
    refine ⟨hr, hlt, Nat.le_trans hseen hle, hlen, ?_⟩
    rw [take_drop_append (by omega)]
    exact hcopied
  | mod seen length ret r =>
    obtain ⟨hr, hlt, hseen, hlen, hcopied, hloaded⟩ := h
    refine ⟨hr, hlt, Nat.le_trans hseen hle, hlen, ?_, hloaded⟩
    rw [take_drop_append (by omega)]
    exact hcopied

/-! ### What a thread sees of the other one's index -/

/-- `_writeIndex` names the next position to be written, at all times. -/
theorem ProducerOk.writeIndex {c : Nat} {cells : Nat → T} {writeIndex W position : Nat}
    {p : producer_pc T} (hc : 0 < c) (h : ProducerOk c cells writeIndex W position p) :
    writeIndex % c = W % c ∧ writeIndex < 2 * c := by
  have hreduced : writeIndex = W % c → writeIndex % c = W % c ∧ writeIndex < 2 * c := by
    intro hw
    have hlt := Nat.mod_lt W hc
    exact ⟨by rw [hw, Nat.mod_mod], by omega⟩
  have hadded : ∀ n, n ≤ W → n < c → writeIndex = (W - n) % c + n →
      writeIndex % c = W % c ∧ writeIndex < 2 * c := by
    intro n hn hlt hw
    have hmod := Nat.mod_lt (W - n) hc
    refine ⟨?_, by omega⟩
    rw [hw, Nat.mod_add_mod, Nat.sub_add_cancel hn]
  cases p with
  | idle => exact hreduced h
  | full entry data call => exact hreduced h.1
  | fit entry data call => exact hreduced h.1
  | copy data i loaded => exact hreduced h.1
  | add data w => exact hreduced h.1
  | reduce data =>
    obtain ⟨hle, hlt, hw⟩ := h
    exact hadded data.length hle hlt hw
  | mod data w =>
    obtain ⟨hle, hlt, hw, -⟩ := h
    exact hadded data.length hle hlt hw

/-- `_readIndex` names the next position to be read, at all times. -/
theorem ConsumerOk.readIndex {c readIndex R : Nat} {published : List T} {q : consumer_pc T}
    (hc : 0 < c) (h : ConsumerOk c readIndex published R q) :
    readIndex % c = (R + taken q) % c ∧ readIndex < 2 * c := by
  have hreduced : readIndex = R % c → readIndex % c = R % c ∧ readIndex < 2 * c := by
    intro hr
    have hlt := Nat.mod_lt R hc
    exact ⟨by rw [hr, Nat.mod_mod], by omega⟩
  have hadded : ∀ n, n < c → readIndex = R % c + n →
      readIndex % c = (R + n) % c ∧ readIndex < 2 * c := by
    intro n hlt hr
    have hmod := Nat.mod_lt R hc
    exact ⟨by rw [hr, Nat.mod_add_mod], by omega⟩
  cases q with
  | idle seen => exact hreduced h.1
  | count call => exact hreduced h.1
  | empty seen length call => exact hreduced h.1
  | copy seen length ret loaded => exact hreduced h.1
  | add seen length ret r => exact hreduced h.1
  | reduce seen length ret => exact hadded length h.2.1 h.1
  | mod seen length ret r => exact hadded length h.2.1 h.1

/-- A step of the producer's call of `count`. A result is no less than the number of
    unread elements. -/
theorem writer_count {c W position : Nat} {m : ring_memory T} {call : count_call}
    {write_first : Bool} (hc : 0 < c ∧ c < 2 ^ 31) (hw : m._writeIndex = W % c)
    (hr : m._readIndex % c = position % c ∧ m._readIndex < 2 * c) (hle : position ≤ W)
    (hlt : W < position + c)
    (hcmp : (call = .start ∧ write_first = false ∨ ∃ w, call = .loaded_write w) →
      m._readIndex ≤ m._writeIndex + c ∨ c ∣ 2 ^ 64)
    (h : WriterCount c m._writeIndex W position call) :
    (∀ call', call.step c m write_first = .inl call' →
      WriterCount c m._writeIndex W position call') ∧
    (∀ n, call.step c m write_first = .inr n → W - position ≤ n ∧ n < c) := by
  have hW := Nat.mod_lt W hc.1
  have hw_mod : m._writeIndex % c = W % c := by rw [hw, Nat.mod_mod]
  cases call with
  | start =>
    refine ⟨?_, ?_⟩
    · intro call' hstep
      cases write_first with
      | true =>
        cases hstep
        rfl
      | false =>
        cases hstep
        exact ⟨position, hr.1, Nat.le_refl _, hlt, hr.2, hcmp (Or.inl ⟨rfl, rfl⟩)⟩
    · intro n hstep
      cases write_first <;> cases hstep
  | loaded_write w =>
    refine ⟨fun _ hstep => (by cases hstep), ?_⟩
    intro n hstep
    obtain rfl : w = m._writeIndex := h
    simp only [count_call.step] at hstep
    cases hstep
    rw [count_of_indices hc.2 hw_mod hr.1 (by omega) hr.2 (hcmp (Or.inr ⟨_, rfl⟩)) hle hlt]
    omega
  | loaded_read r =>
    refine ⟨fun _ hstep => (by cases hstep), ?_⟩
    intro n hstep
    -- the consumer may have moved on since the load
    obtain ⟨R, hrR, hR, hWR, hr_lt, hcmp'⟩ := h
    simp only [count_call.step] at hstep
    cases hstep
    rw [count_of_indices hc.2 hw_mod hrR (by omega) hr_lt hcmp' (by omega) hWR]
    omega

/-- A step of the consumer's call of `count`. A result is no more than the number of
    unread elements. -/
theorem reader_count {c W R : Nat} {m : ring_memory T} {call : count_call}
    {write_first : Bool} (hc : 0 < c ∧ c < 2 ^ 31) (hr : m._readIndex = R % c)
    (hw : m._writeIndex % c = W % c ∧ m._writeIndex < 2 * c) (hle : R ≤ W) (hlt : W < R + c)
    (h : ReaderCount c m._readIndex W R call) :
    (∀ call', call.step c m write_first = .inl call' → ReaderCount c m._readIndex W R call') ∧
    (∀ n, call.step c m write_first = .inr n → R + n ≤ W) := by
  have hR := Nat.mod_lt R hc.1
  have hr_mod : m._readIndex % c = R % c := by rw [hr, Nat.mod_mod]
  cases call with
  | start =>
    refine ⟨?_, ?_⟩
    · intro call' hstep
      cases write_first with
      | true =>
        cases hstep
        exact ⟨W, hw.1, hle, Nat.le_refl _, hw.2⟩
      | false =>
        cases hstep
        rfl
    · intro n hstep
      cases write_first <;> cases hstep
  | loaded_write w =>
    refine ⟨fun _ hstep => (by cases hstep), ?_⟩
    intro n hstep
    -- the producer may have moved on since the load
    obtain ⟨W₀, hwW, hRW, hWW, hw_lt⟩ := h
    simp only [count_call.step] at hstep
    cases hstep
    rw [count_of_indices hc.2 hwW hr_mod hw_lt (by omega) (Or.inl (by omega)) hRW (by omega)]
    omega
  | loaded_read r =>
    refine ⟨fun _ hstep => (by cases hstep), ?_⟩
    intro n hstep
    obtain rfl : r = m._readIndex := h
    simp only [count_call.step] at hstep
    cases hstep
    rw [count_of_indices hc.2 hw.1 hr_mod hw.2 (by omega) (Or.inl (by omega)) hle hlt]
    omega

/-! ### Steps -/

/-- A step that changes only where the producer is. -/
theorem InvAt.producer {c : Nat} {m : ring_memory T} {published read : List T}
    {p p' : producer_pc T} {q : consumer_pc T} (h : InvAt c m published read p q)
    (hp : ProducerOk c m._buffer m._writeIndex published.length (read.length + taken q) p') :
    InvAt c m published read p' q :=
  ⟨h.le, h.lt, h.unread, h.read_eq, hp, h.consumer_ok⟩

/-- A step that changes only where the consumer is. -/
theorem InvAt.consumer {c : Nat} {m : ring_memory T} {published read : List T}
    {p : producer_pc T} {q q' : consumer_pc T} (h : InvAt c m published read p q)
    (htaken : taken q' = taken q) (hq : ConsumerOk c m._readIndex published read.length q') :
    InvAt c m published read p q' := by
  obtain ⟨hle, hlt, hunread, hread, hp, -⟩ := h
  rw [← htaken] at hle hlt hunread hp
  exact ⟨hle, hlt, hunread, hread, hp, hq⟩

/-- A store of the producer into the cell of the position it has reached. -/
theorem InvAt.copy_cell {c : Nat} {m : ring_memory T} {published read data : List T} {i w : Nat}
    {q : consumer_pc T} (h : InvAt c m published read (.copy data i (some w)) q)
    (hi : i < data.length) :
    InvAt c { m with _buffer := Function.update m._buffer ((w + i) % c) data[i] } published read
      (.copy data (i + 1) none) q := by
  obtain ⟨hle, hlt, hunread, hread, ⟨hw, hroom, -, hcopied, hloaded⟩, hconsumer⟩ := h
  have hcell : (w + i) % c = (published.length + i) % c := by
    rw [hloaded w rfl, hw, Nat.mod_add_mod]
  rw [hcell]
  -- the cell is behind the unread elements and what was copied so far
  refine ⟨hle, hlt, ?_, hread, ⟨hw, hroom, hi, ?_, nofun⟩, hconsumer⟩
  · show window (Function.update m._buffer _ _) c _ _ = _
    rw [window_update_of_free _ (by omega) (by omega)]
    exact hunread
  · show window (Function.update m._buffer _ _) c _ _ = _
    rw [window_add, window_update_of_free _ (Nat.le_refl _) (by omega), hcopied,
      List.take_succ_eq_append_getElem hi]
    simp only [window, List.range_one, List.map_cons, List.map_nil, Nat.add_zero,
      Function.update_self]

/-- `_writeIndex += length`: the data is published. -/
theorem InvAt.publish {c w : Nat} {m : ring_memory T} {published read data : List T}
    {q : consumer_pc T} (hc : 0 < c ∧ c < 2 ^ 31) (h : InvAt c m published read (.add data w) q) :
    InvAt c { m with _writeIndex := size_t_add w data.length } (published ++ data) read
      (.reduce data) q := by
  obtain ⟨hle, hlt, hunread, hread, ⟨hw, hroom, hcopied, rfl⟩, hconsumer⟩ := h
  have hW := Nat.mod_lt published.length hc.1
  have hlen : (published ++ data).length = published.length + data.length := List.length_append
  refine ⟨?_, ?_, ?_, ?_, ⟨?_, ?_, ?_⟩, hconsumer.mono data⟩
  · omega
  · omega
  · have hsplit : (published ++ data).length - (read.length + taken q) =
        (published.length - (read.length + taken q)) + data.length := by omega
    have hend : read.length + taken q + (published.length - (read.length + taken q)) =
        published.length := by omega
    show window m._buffer c _ _ = _
    rw [hsplit, window_add, hunread, hend, hcopied, List.drop_append_of_le_length hle]
  · rw [List.take_append_of_le_length (by omega)]
    exact hread
  · omega
  · omega
  · show size_t_add m._writeIndex data.length = _
    rw [hlen, Nat.add_sub_cancel, hw, size_t_add_of_lt (by omega)]

/-- `_writeIndex %= _capacity`. -/
theorem InvAt.reduce_writeIndex {c w : Nat} {m : ring_memory T} {published read data : List T}
    {q : consumer_pc T} (hc : 0 < c) (h : InvAt c m published read (.mod data w) q) :
    InvAt c { m with _writeIndex := w % c } published read .idle q := by
  have hmod := (h.producer_ok.writeIndex hc).1
  obtain ⟨hle, hlt, hunread, hread, ⟨-, -, -, rfl⟩, hconsumer⟩ := h
  exact ⟨hle, hlt, hunread, hread, hmod, hconsumer⟩

/-- A load of the consumer from the cell of the position it has reached. -/
theorem InvAt.copy_out {c seen length r : Nat} {m : ring_memory T}
    {published read ret : List T} {p : producer_pc T}
    (h : InvAt c m published read p (.copy seen length ret (some r))) :
    InvAt c m published read p
      (.copy seen length (ret ++ [m._buffer ((r + ret.length) % c)]) none) := by
  obtain ⟨hr, hseen, hlen, hret, hcopied, hloaded⟩ := h.consumer_ok
  obtain ⟨rfl, hmore⟩ := hloaded r rfl
  have hle := h.le
  have hunread := h.unread
  simp only [taken, Nat.add_zero] at hle hunread
  have hdrop : ret.length < (published.drop read.length).length := by
    rw [List.length_drop]
    omega
  -- the cell is that of the unread element with number `read.length + ret.length`
  have hcell : m._buffer ((m._readIndex + ret.length) % c) =
      (published.drop read.length)[ret.length] := by
    have hget := congrArg (fun xs => xs[ret.length]?) hunread
    rw [List.getElem?_eq_getElem hdrop, List.getElem?_eq_getElem
      (by rw [length_window]; omega), getElem_window] at hget
    rw [hr, Nat.mod_add_mod]
    exact Option.some.inj hget
  refine h.consumer rfl ⟨hr, hseen, hlen, ?_, ?_, nofun⟩
  · rw [List.length_append, List.length_singleton]
    omega
  · rw [List.length_append, List.length_singleton, List.take_succ_eq_append_getElem hdrop,
      ← hcell, ← hcopied]

/-- `_readIndex += length`: the elements are taken, the producer may use their cells. -/
theorem InvAt.take {c seen length r : Nat} {m : ring_memory T} {published read ret : List T}
    {p : producer_pc T} (hc : 0 < c ∧ c < 2 ^ 31)
    (h : InvAt c m published read p (.add seen length ret r)) :
    InvAt c { m with _readIndex := size_t_add r length } published read p
      (.reduce seen length ret) := by
  obtain ⟨hle, hlt, hunread, hread, hproducer, ⟨hr, hseen, hlen, hcopied, rfl⟩⟩ := h
  simp only [taken, Nat.add_zero] at hle hlt hunread hproducer
  have hR := Nat.mod_lt read.length hc.1
  refine ⟨?_, ?_, ?_, hread, hproducer.mono (Nat.le_add_right _ _),
    ⟨?_, ?_, hseen, hlen, hcopied⟩⟩
  · show read.length + length ≤ published.length
    omega
  · show published.length < read.length + length + c
    omega
  · show window m._buffer c (read.length + length) (published.length - (read.length + length)) =
      published.drop (read.length + length)
    have hdrop := congrArg (List.drop length) hunread
    rw [drop_window _ _ _ _ _ (by omega), List.drop_drop, Nat.sub_sub] at hdrop
    exact hdrop
  · show size_t_add m._readIndex length = read.length % c + length
    rw [hr, size_t_add_of_lt (by omega)]
  · omega

/-- `_readIndex %= _capacity`: what was taken is delivered. -/
theorem InvAt.deliver {c seen length r : Nat} {m : ring_memory T} {published read ret : List T}
    {p : producer_pc T} (hc : 0 < c) (h : InvAt c m published read p (.mod seen length ret r)) :
    InvAt c { m with _readIndex := r % c } published (read ++ ret) p (.idle (seen - length)) := by
  have hmod := (h.consumer_ok.readIndex hc).1
  obtain ⟨hle, hlt, hunread, hread, hproducer, ⟨hr, hlen_lt, hseen, hlen, hcopied, rfl⟩⟩ := h
  simp only [taken] at hle hlt hunread hproducer hmod
  have hret : ret.length = length := by
    rw [hcopied, List.length_take, List.length_drop]
    omega
  have hread_len : (read ++ ret).length = read.length + length := by
    rw [List.length_append, hret]
  refine ⟨?_, ?_, ?_, ?_, ?_, ⟨?_, ?_⟩⟩
  · show (read ++ ret).length + 0 ≤ published.length
    omega
  · show published.length < (read ++ ret).length + 0 + c
    omega
  · show window m._buffer c ((read ++ ret).length + 0) (published.length -
      ((read ++ ret).length + 0)) = published.drop ((read ++ ret).length + 0)
    rw [hread_len]
    exact hunread
  · rw [hread_len, List.take_add, ← hread, hcopied]
  · show ProducerOk c m._buffer m._writeIndex published.length ((read ++ ret).length + 0) p
    rw [hread_len]
    exact hproducer
  · show m._readIndex % c = (read ++ ret).length % c
    rw [hread_len]
    exact hmod
  · omega

theorem inv_producer_step {c : Nat} {s s' : ring_threads T} {write_first : Bool}
    (hc : 0 < c ∧ c < 2 ^ 31) (h : Inv c s) (hcmp : Comparable c s (.producer write_first))
    (hstep : producer_step c write_first s = some s') : Inv c s' := by
  obtain ⟨m, p, q, written, read⟩ := s
  have hindex := h.consumer_ok.readIndex hc.1
  have hproducer := h.producer_ok
  cases p with
  | idle => cases hstep
  | full entry data call =>
    obtain ⟨hw, hcells, hentry, hdata, hcall⟩ := hproducer
    have hcount := writer_count hc hw hindex h.le h.lt
      (fun hload => hcmp ⟨entry, data, call, Or.inl rfl, hload⟩) hcall
    simp only [producer_step] at hstep
    cases hnext : call.step c m write_first with
    | inl call' =>
      simp only [hnext] at hstep
      cases hstep
      exact h.producer ⟨hw, hcells, hentry, hdata, hcount.1 call' hnext⟩
    | inr n =>
      simp only [hnext] at hstep
      split at hstep
      · cases hstep
        exact h.producer hw
      · cases hstep
        exact h.producer ⟨hw, hcells, hentry, hdata, trivial⟩
  | fit entry data call =>
    obtain ⟨hw, hcells, hentry, hdata, hcall⟩ := hproducer
    have hcount := writer_count hc hw hindex h.le h.lt
      (fun hload => hcmp ⟨entry, data, call, Or.inr rfl, hload⟩) hcall
    simp only [producer_step] at hstep
    cases hnext : call.step c m write_first with
    | inl call' =>
      simp only [hnext] at hstep
      cases hstep
      exact h.producer ⟨hw, hcells, hentry, hdata, hcount.1 call' hnext⟩
    | inr n =>
      obtain ⟨hge, hlt⟩ := hcount.2 n hnext
      simp only [hnext] at hstep
      split at hstep
      · cases hstep
        exact h.producer hw
      · next hfit =>
        cases hstep
        -- the data fits behind the elements that were unread at the load
        rw [size_t_add_of_lt (by omega)] at hfit
        refine h.producer ⟨hw, ?_, Nat.zero_le _, rfl, nofun⟩
        omega
  | copy data i loaded =>
    obtain ⟨hw, hroom, hi, hcopied, hloaded⟩ := hproducer
    cases loaded with
    | none =>
      simp only [producer_step] at hstep
      split at hstep
      · cases hstep
        refine h.producer ⟨hw, hroom, hi, hcopied, ?_⟩
        rintro w ⟨⟩
        rfl
      · next hdone =>
        cases hstep
        obtain rfl : i = data.length := by omega
        rw [List.take_length] at hcopied
        exact h.producer ⟨hw, hroom, hcopied, rfl⟩
    | some w =>
      simp only [producer_step] at hstep
      obtain ⟨x, hx, rfl⟩ := Option.map_eq_some_iff.mp hstep
      obtain ⟨hi_lt, rfl⟩ := List.getElem?_eq_some_iff.mp hx
      exact InvAt.copy_cell h hi_lt
  | add data w =>
    cases hstep
    have hpublish := InvAt.publish hc h
    have hpub : published ⟨m, .add data w, q, written, read⟩ ++ data = written ++ data := by
      show (written ++ []) ++ data = _
      rw [List.append_nil]
    rw [hpub] at hpublish
    exact hpublish
  | reduce data =>
    obtain ⟨hle, hlt, hw⟩ := hproducer
    cases hstep
    exact h.producer ⟨hle, hlt, hw, rfl⟩
  | mod data w =>
    cases hstep
    have hreduce := InvAt.reduce_writeIndex hc.1 h
    have hpub : published ⟨m, .mod data w, q, written, read⟩ = (written ++ data) ++ [] :=
      (List.append_nil _).symm
    rw [hpub] at hreduce
    exact hreduce

theorem inv_consumer_step {c : Nat} {s s' : ring_threads T} {write_first : Bool}
    (hc : 0 < c ∧ c < 2 ^ 31) (h : Inv c s)
    (hstep : consumer_step c write_first s = some s') : Inv c s' := by
  obtain ⟨m, p, q, written, read⟩ := s
  have hindex := h.producer_ok.writeIndex hc.1
  have hconsumer := h.consumer_ok
  have hle := h.le
  have hlt := h.lt
  cases q with
  | idle seen => cases hstep
  | count call =>
    obtain ⟨hr, hcall⟩ := hconsumer
    have hcount : _ ∧ ∀ n, call.step c m write_first = .inr n → _ :=
      reader_count hc hr hindex hle hlt hcall
    simp only [consumer_step] at hstep
    cases hnext : call.step c m write_first with
    | inl call' =>
      simp only [hnext] at hstep
      cases hstep
      exact h.consumer rfl ⟨hr, hcount.1 call' hnext⟩
    | inr n =>
      simp only [hnext] at hstep
      cases hstep
      exact h.consumer rfl ⟨hr, hcount.2 n hnext⟩
  | empty seen length call =>
    obtain ⟨hr, hseen, hlen, hcall⟩ := hconsumer
    have hcount : _ ∧ ∀ n, call.step c m write_first = .inr n → _ :=
      reader_count hc hr hindex hle hlt hcall
    simp only [consumer_step] at hstep
    cases hnext : call.step c m write_first with
    | inl call' =>
      simp only [hnext] at hstep
      cases hstep
      exact h.consumer rfl ⟨hr, hseen, hlen, hcount.1 call' hnext⟩
    | inr n =>
      simp only [hnext] at hstep
      split at hstep
      · cases hstep
        exact h.consumer rfl ⟨hr, hseen⟩
      · cases hstep
        exact h.consumer rfl ⟨hr, hseen, hlen, Nat.zero_le _, rfl, nofun⟩
  | copy seen length ret loaded =>
    obtain ⟨hr, hseen, hlen, hret, hcopied, hloaded⟩ := hconsumer
    cases loaded with
    | none =>
      simp only [consumer_step] at hstep
      split at hstep
      · next hmore =>
        cases hstep
        refine h.consumer rfl ⟨hr, hseen, hlen, hret, hcopied, ?_⟩
        rintro r ⟨⟩
        exact ⟨rfl, hmore⟩
      · next hdone =>
        cases hstep
        obtain rfl : ret.length = length := by omega
        exact h.consumer rfl ⟨hr, hseen, hlen, hcopied, rfl⟩
    | some r =>
      cases hstep
      exact InvAt.copy_out h
  | add seen length ret r =>
    cases hstep
    exact InvAt.take hc h
  | reduce seen length ret =>
    obtain ⟨hr, hlen_lt, hseen, hlen, hcopied⟩ := hconsumer
    cases hstep
    exact h.consumer rfl ⟨hr, hlen_lt, hseen, hlen, hcopied, rfl⟩
  | mod seen length ret r =>
    cases hstep
    exact InvAt.deliver hc.1 h

/-- The producer calls `tryWrite`. -/
theorem inv_tryWrite {c : Nat} {s s' : ring_threads T} {data : List T} (h : Inv c s)
    (hstep : exec c s (.tryWrite data) = some s') : Inv c s' := by
  obtain ⟨m, p, q, written, read⟩ := s
  cases p with
  | idle =>
    simp only [exec] at hstep
    split at hstep
    · next hdata =>
      cases hstep
      exact h.producer ⟨h.producer_ok, rfl, rfl, hdata, trivial⟩
    · cases hstep
  | _ => cases hstep

/-- The consumer calls `count`. -/
theorem inv_count {c : Nat} {s s' : ring_threads T} (h : Inv c s)
    (hstep : exec c s .count = some s') : Inv c s' := by
  obtain ⟨m, p, q, written, read⟩ := s
  cases q with
  | idle seen =>
    cases hstep
    exact h.consumer rfl ⟨h.consumer_ok.1, trivial⟩
  | _ => cases hstep

/-- The consumer calls `tryRead`. -/
theorem inv_tryRead {c length : Nat} {s s' : ring_threads T} (h : Inv c s)
    (hstep : exec c s (.tryRead length) = some s') : Inv c s' := by
  obtain ⟨m, p, q, written, read⟩ := s
  cases q with
  | idle seen =>
    simp only [exec] at hstep
    split at hstep
    · next hlen =>
      cases hstep
      exact h.consumer rfl ⟨h.consumer_ok.1, h.consumer_ok.2, hlen.2, trivial⟩
    · cases hstep
  | _ => cases hstep

theorem inv_exec {c : Nat} {s s' : ring_threads T} {a : ring_access T}
    (hc : 0 < c ∧ c < 2 ^ 31) (h : Inv c s) (hcmp : Comparable c s a)
    (hstep : exec c s a = some s') : Inv c s' := by
  cases a with
  | tryWrite data => exact inv_tryWrite h hstep
  | producer write_first => exact inv_producer_step hc h hcmp hstep
  | count => exact inv_count h hstep
  | tryRead length => exact inv_tryRead h hstep
  | consumer write_first => exact inv_consumer_step hc h hstep

theorem inv_start {c : Nat} (hc : 0 < c) (cells : Nat → T) : Inv c (start cells) where
  le := Nat.le_refl 0
  lt := by
    show 0 < 0 + 0 + c
    omega
  unread := rfl
  read_eq := rfl
  producer_ok := (Nat.zero_mod c).symm
  consumer_ok := ⟨(Nat.zero_mod c).symm, Nat.le_refl 0⟩

/-! ### The queue -/

theorem producer_of_consumer_step {c : Nat} {s s' : ring_threads T} {write_first : Bool}
    (hstep : consumer_step c write_first s = some s') : s'.producer = s.producer := by
  obtain ⟨m, p, q, written, read⟩ := s
  cases q with
  | idle seen => cases hstep
  | count call =>
    simp only [consumer_step] at hstep
    split at hstep <;> cases hstep <;> rfl
  | empty seen length call =>
    simp only [consumer_step] at hstep
    split at hstep
    · cases hstep
      rfl
    · split at hstep <;> cases hstep <;> rfl
  | copy seen length ret loaded =>
    cases loaded with
    | none =>
      simp only [consumer_step] at hstep
      split at hstep <;> cases hstep <;> rfl
    | some r =>
      cases hstep
      rfl
  | add seen length ret r =>
    cases hstep
    rfl
  | reduce seen length ret =>
    cases hstep
    rfl
  | mod seen length ret r =>
    cases hstep
    rfl

/-- Only the producer moves itself. -/
theorem producer_of_exec {c : Nat} {s s' : ring_threads T} {a : ring_access T}
    (hstep : exec c s a = some s') :
    (∃ data, a = .tryWrite data) ∨ (∃ write_first, a = .producer write_first) ∨
      s'.producer = s.producer := by
  cases a with
  | tryWrite data => exact Or.inl ⟨data, rfl⟩
  | producer write_first => exact Or.inr (Or.inl ⟨write_first, rfl⟩)
  | count =>
    obtain ⟨m, p, q, written, read⟩ := s
    cases q <;> cases hstep
    exact Or.inr (Or.inr rfl)
  | tryRead length =>
    obtain ⟨m, p, q, written, read⟩ := s
    cases q with
    | idle seen =>
      simp only [exec] at hstep
      split at hstep <;> cases hstep
      exact Or.inr (Or.inr rfl)
    | _ => cases hstep
  | consumer write_first => exact Or.inr (Or.inr (producer_of_consumer_step hstep))

/-- A call that returns from one of its guards has changed nothing. -/
theorem refused_of_inv {c : Nat} {s s' : ring_threads T} {a : ring_access T} {data : List T}
    {entry : ring_memory T} {call : count_call} (h : Inv c s)
    (hp : s.producer = .full entry data call ∨ s.producer = .fit entry data call)
    (hstep : exec c s a = some s') (hidle : s'.producer = .idle) :
    s'.memory._buffer = entry._buffer ∧ s'.memory._writeIndex = entry._writeIndex ∧
      published s' = published s := by
  have hmoved := producer_of_exec hstep
  obtain ⟨m, p, q, written, read⟩ := s
  -- in both guards the call returns when the answer is that there is no room
  rcases hp with hp | hp
  · obtain rfl : p = .full entry data call := hp
    obtain ⟨-, hcells, hindex, -, -⟩ := h.producer_ok
    rcases hmoved with ⟨data', rfl⟩ | ⟨write_first, rfl⟩ | hmoved
    · cases hstep
    · simp only [exec, producer_step] at hstep
      split at hstep
      · cases hstep
        cases hidle
      · split at hstep <;> cases hstep
        · exact ⟨hcells, hindex, rfl⟩
        · cases hidle
    · rw [hidle] at hmoved
      cases hmoved
  · obtain rfl : p = .fit entry data call := hp
    obtain ⟨-, hcells, hindex, -, -⟩ := h.producer_ok
    rcases hmoved with ⟨data', rfl⟩ | ⟨write_first, rfl⟩ | hmoved
    · cases hstep
    · simp only [exec, producer_step] at hstep
      split at hstep
      · cases hstep
        cases hidle
      · split at hstep <;> cases hstep
        · exact ⟨hcells, hindex, rfl⟩
        · cases hidle
    · rw [hidle] at hmoved
      cases hmoved

theorem fifo_of_inv {c : Nat} {s : ring_threads T} (h : Inv c s) : Fifo c s where
  in_order := by
    rw [h.read_eq]
    exact List.take_prefix _ _
  unread := h.unread
  refused := fun _ _ _ _ _ hp hstep hidle => refused_of_inv h hp hstep hidle

/-- **The ring is a queue for one producer and one consumer**, in every run in which
    the difference that the producer computes does not wrap around. -/
theorem fifo_of_reachable {capacity : Nat} (hcap : 2 ≤ capacity ∧ capacity ≤ 2 ^ 31 - 1)
    (s : ring_threads T)
    (hs : ((system T capacity).restrict (Comparable capacity)).Reachable s) :
    Fifo capacity s := by
  have hc : 0 < capacity ∧ capacity < 2 ^ 31 := by omega
  refine fifo_of_inv (System.invariant ?_ ?_ s hs)
  · rintro s ⟨cells, rfl⟩
    exact inv_start hc.1 cells
  · rintro s a s' h ⟨hcmp, hstep⟩
    exact inv_exec hc h hcmp hstep

/-- `n` accesses of each thread, in turns. -/
def in_turns (n : Nat) : List (ring_access UInt8) :=
  (List.replicate n [.producer true, .consumer true]).flatten

/-- On a ring of four cells the producer writes two elements across the end while the
    consumer reads the one before them, and a third while the consumer reads those. -/
def across_the_end : List (ring_access UInt8) :=
  .tryWrite [10, 11, 12] :: List.replicate 14 (.producer true) ++
    .count :: List.replicate 2 (.consumer true) ++
    .tryRead 2 :: List.replicate 10 (.consumer true) ++
    .tryWrite [13, 14] :: .tryRead 1 :: in_turns 8 ++ List.replicate 4 (.producer true) ++
    .count :: List.replicate 2 (.consumer true) ++
    .tryWrite [15] :: .tryRead 2 :: in_turns 10

theorem fifo_across_the_end : ∃ s : ring_threads UInt8,
    across_the_end.foldlM (exec 4) (start fun _ => 0) = some s ∧
      s.read = [10, 11, 12, 13, 14] ∧ published s = [10, 11, 12, 13, 14, 15] ∧ Fifo 4 s := by
  have hrun : (across_the_end.foldlM (exec 4) (start fun _ => 0)).map
      (fun s => (s.read, published s)) =
      some ([10, 11, 12, 13, 14], [10, 11, 12, 13, 14, 15]) := by
    decide +kernel
  obtain ⟨s, hs, hlists⟩ := Option.map_eq_some_iff.mp hrun
  obtain ⟨hread, hpub⟩ := Prod.mk.inj hlists
  refine ⟨s, hs, hread, hpub, fifo_of_reachable (by decide) s ?_⟩
  refine System.Reachable.of_foldlM (.init ⟨_, rfl⟩) across_the_end ?_ hs
  intro a _ t
  cases a with
  | producer write_first => exact fun _ => Or.inr (by decide)
  | _ => trivial

/-- Three rounds on a ring of three cells. In the third one the producer passes the
    end of the ring while the consumer is between its two stores, and takes the
    two unread elements for no elements. -/
def overwriting : List (ring_access UInt8) :=
  .tryWrite [10, 11] :: List.replicate 12 (.producer true) ++
    .count :: List.replicate 2 (.consumer true) ++
    .tryRead 2 :: List.replicate 10 (.consumer true) ++
    .tryWrite [12, 13] :: List.replicate 12 (.producer true) ++
    .count :: List.replicate 2 (.consumer true) ++
    .tryRead 2 :: List.replicate 8 (.consumer true) ++
    .tryWrite [14, 15] :: List.replicate 12 (.producer true) ++
    .tryWrite [16, 17] :: List.replicate 12 (.producer true) ++
    List.replicate 2 (.consumer true) ++
    .count :: List.replicate 2 (.consumer true) ++
    .tryRead 1 :: List.replicate 8 (.consumer true)

theorem not_always_fifo :
    ¬ ∀ capacity, 2 ≤ capacity ∧ capacity ≤ 2 ^ 31 - 1 → ∀ s : ring_threads UInt8,
      (system UInt8 capacity).Reachable s → Fifo capacity s := by
  intro hall
  have hrun : (overwriting.foldlM (exec 3) (start fun _ => 0)).map
      (fun s => (s.read, published s)) =
      some ([10, 11, 12, 13, 17], [10, 11, 12, 13, 14, 15, 16, 17]) := by
    decide +kernel
  obtain ⟨s, hs, hlists⟩ := Option.map_eq_some_iff.mp hrun
  obtain ⟨hread, hpub⟩ := Prod.mk.inj hlists
  have hreach : ((system UInt8 3).restrict fun _ _ => True).Reachable s :=
    System.Reachable.of_foldlM (.init ⟨_, rfl⟩) overwriting (fun _ _ _ => trivial) hs
  have hprefix_eq := (hall 3 (by decide) s hreach.of_restrict).in_order
  rw [hread, hpub] at hprefix_eq
  exact absurd hprefix_eq (by decide)

end ring_threads

end AsioNet
