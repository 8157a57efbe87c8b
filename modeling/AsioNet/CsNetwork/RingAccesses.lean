import AsioNet.CsNetwork.RingBuffer
import AsioNet.Library.CriticalSections
import Mathlib.Data.Nat.Choose.Basic

/-! # The client's ring, access by access (`RingBuffer.cs`)

    The source asks for a single consumer and a single producer: one thread writes to a
    ring while another one reads. The writer alone stores to `_writeIndex` and the cells,
    the reader alone to `_readIndex`, and a `Count` loads one index of the other side. Run
    alone, the accesses here are `TryWrite` and `TryRead`.

    A write of `n` bytes moves the index by `0 + 1 + ... + (n - 1)`, and nothing ever
    moves it back. So whatever the reader does in between, a write comes to its end as
    long as these sums stay below the capacity, and no byte is stored after that:
    `Lawful`.
-/

namespace AsioNet.CsNetwork.RingBuffer

open Exec CriticalSections

/-! ### The accesses -/

/-- The next access of a thread in `TryWrite`. -/
inductive write_pc where
  /-- `Full()` and `data.Length` -/
  | full (data : byte_array) (length : Int32)
  /-- `size + Count >= _capacity` -/
  | count (data : List UInt8) (size : Int32)
  /-- the test of the loop and `_writeIndex += i` -/
  | advance (data : List UInt8) (size : Int32) (i : Nat)
  /-- `_buffer[_writeIndex] = data[i]` -/
  | store (data : List UInt8) (size : Int32) (i : Nat)

/-- The ring when round `i` has moved the index. -/
def advanced (r : RingBuffer) (i : Nat) : RingBuffer :=
  { r with _writeIndex := r._writeIndex + Int32.ofNat i }

/-- The byte that round `i` stores. -/
def stored (r : RingBuffer) (data : List UInt8) (i : Nat) : Except stop (List UInt8) :=
  load data (Int32.ofNat i) >>= store r._buffer r._writeIndex

def write_access (r : RingBuffer) : write_pc → RingBuffer × (write_pc ⊕ Except stop Bool)
  | .full data length =>
    if r.Full 0 then (r, .inr (.ok false))
    else
      match data with
      | none => (r, .inr (.error .NullReferenceException))
      | some data => (r, .inl (.count data (write_size data length)))
  | .count data size =>
    if size + r.Count ≥ r._capacity then (r, .inr (.ok false))
    else (r, .inl (.advance data size 0))
  | .advance data size i =>
    if i < size.toNatClampNeg then
      (r.advanced i, .inl (.store data size i))
    else (r, .inr (.ok false))
  | .store data size i =>
    match r.stored data i with
    | .ok cells => ({ r with _buffer := cells }, .inl (.advance data size (i + 1)))
    | .error e => (r, .inr (.error e))

/-- The calls of `TryWrite(data, length)`. -/
def writes : Method RingBuffer (byte_array × Int32) write_pc (Except stop Bool) where
  start a := .full a.1 a.2
  access := write_access

/-- The next access of a thread in `TryRead`. -/
inductive read_pc where
  | empty (size : Int32) (ret : byte_array) (withoutShift : Bool)
  /-- `Count - size <= 0` -/
  | count (size : Int32) (ret : byte_array) (withoutShift : Bool)
  /-- the test of the loop and, unless `withoutShift`, `_readIndex += i` -/
  | shift (size : Int32) (ret : byte_array) (withoutShift : Bool) (i : Nat)
  /-- `ret[i] = ` the cell -/
  | load (size : Int32) (ret : byte_array) (withoutShift : Bool) (i : Nat)

/-- The ring when round `i` has moved the index. -/
def shifted (r : RingBuffer) (withoutShift : Bool) (i : Nat) : RingBuffer :=
  if withoutShift then r else { r with _readIndex := r._readIndex + Int32.ofNat i }

/-- The index round `i` then loads from. -/
def load_index (r : RingBuffer) (withoutShift : Bool) (i : Nat) : Int32 :=
  if withoutShift then r._readIndex + Int32.ofNat i else r._readIndex

/-- What is in `ret` when round `i` has loaded the byte at `index`. -/
def loaded (r : RingBuffer) (ret : byte_array) (index : Int32) (i : Nat) :
    Except stop (List UInt8) := do
  let b ← load r._buffer index
  let cells ← deref ret
  store cells (Int32.ofNat i) b

def read_access (r : RingBuffer) :
    read_pc → RingBuffer × (read_pc ⊕ (Except stop Bool × byte_array))
  | .empty size ret withoutShift =>
    if r.Empty then (r, .inr (.ok false, ret)) else (r, .inl (.count size ret withoutShift))
  | .count size ret withoutShift =>
    if r.Count - size ≤ 0 then (r, .inr (.ok false, ret))
    else (r, .inl (.shift size ret withoutShift 0))
  | .shift size ret withoutShift i =>
    if i < size.toNatClampNeg then
      (r.shifted withoutShift i, .inl (.load size ret withoutShift i))
    else (r, .inr (.ok false, ret))
  | .load size ret withoutShift i =>
    match r.loaded ret (r.load_index withoutShift i) i with
    | .ok cells => (r, .inl (.shift size (some cells) withoutShift (i + 1)))
    | .error e => (r, .inr (.error e, ret))

/-- The calls of `TryRead(size, ref ret, withoutShift)`, with what they leave in `ret`. -/
def reads : Method RingBuffer (Int32 × byte_array × Bool) read_pc
    (Except stop Bool × byte_array) where
  start a := .empty a.1 a.2.1 a.2.2
  access := read_access

/-! ### Accesses with nothing in between -/

theorem exec_write_round (data : List UInt8) (i : Nat) (r : RingBuffer) :
    exec (write_round data i) r =
      match (r.advanced i).stored data i with
      | .ok cells => (.ok PUnit.unit, { r.advanced i with _buffer := cells })
      | .error e => (.error e, r.advanced i) := by
  unfold write_round stored
  rw [exec_modify_bind, exec_get_bind]
  rcases load data (Int32.ofNat i) with e | b
  · exact exec_bind_of_error (exec_lift _ _) _
  rw [exec_bind_of_ok (exec_lift _ _)]
  show exec (lift (store (r.advanced i)._buffer (r.advanced i)._writeIndex b) >>= _)
      (r.advanced i) =
    match store (r.advanced i)._buffer (r.advanced i)._writeIndex b with
    | .ok cells => (.ok PUnit.unit, { r.advanced i with _buffer := cells })
    | .error e => (.error e, r.advanced i)
  rcases store (r.advanced i)._buffer (r.advanced i)._writeIndex b with e | cells
  · exact exec_bind_of_error (exec_lift _ _) _
  · exact exec_bind_of_ok (exec_lift _ _) _

/-- The rounds that are left when `i` have been made. -/
theorem write_rounds_alone (data : List UInt8) (size : Int32) {count i : Nat}
    (hi : i + count = size.toNatClampNeg) (r : RingBuffer) :
    let loop := exec (for_loop (write_round data) count i) r
    writes.Runs r (.inl (.advance data size i)) loop.2 (.inr (loop.1.map fun _ => false)) := by
  induction count generalizing i r with
  | zero =>
    have hend : writes.access r (.advance data size i) = (r, .inr (.ok false)) :=
      if_neg (by omega)
    exact .cons hend (.refl _ _)
  | succ count ih =>
    have hmove : writes.access r (.advance data size i) =
        (r.advanced i, .inl (.store data size i)) := if_pos (by omega)
    have hround := exec_write_round data i r
    refine .cons hmove ?_
    rw [for_loop]
    rcases hstored : (r.advanced i).stored data i with e | cells
    · rw [hstored] at hround
      rw [exec_bind_of_error hround]
      refine .cons ?_ (.refl _ _)
      simp only [writes, write_access, hstored]
      rfl
    · rw [hstored] at hround
      rw [exec_bind_of_ok hround]
      refine .cons ?_ (ih (by omega) _)
      simp only [writes, write_access, hstored]

/-- **The accesses of a write**, when they run alone, are `TryWrite`. -/
theorem TryWrite_alone (data : List UInt8) (length : Int32) (r : RingBuffer) :
    writes.Returns r (some data, length) (exec (TryWrite data length) r).2
      (exec (TryWrite data length) r).1 := by
  have hloop := write_rounds_alone data (write_size data length) (Nat.zero_add _) r
  unfold TryWrite
  simp only [exec_get_bind, exec_ite, exec_pure]
  by_cases hfull : r.Full 0 = true
  · rw [if_pos hfull]
    exact .cons (if_pos hfull) (.refl _ _)
  rw [if_neg hfull]
  refine .cons (if_neg hfull) ?_
  by_cases hcount : write_size data length + r.Count ≥ r._capacity
  · rw [if_pos hcount]
    exact .cons (if_pos hcount) (.refl _ _)
  rw [if_neg hcount]
  refine .cons (if_neg hcount) ?_
  rcases hrun : exec (for_loop (write_round data) (write_size data length).toNatClampNeg 0) r with
    ⟨_ | _, r'⟩
  · rw [hrun] at hloop
    rw [exec_bind_of_error hrun]
    exact hloop
  · rw [hrun] at hloop
    rw [exec_bind_of_ok hrun]
    exact hloop

theorem exec_read_round (withoutShift : Bool) (i : Nat) {r r' : RingBuffer} (ret : byte_array)
    (hr' : r' = r.shifted withoutShift i) :
    exec (read_round withoutShift i) (r, ret) =
      match r'.loaded ret (r'.load_index withoutShift i) i with
      | .ok cells => (.ok PUnit.unit, (r', some cells))
      | .error e => (.error e, (r', ret)) := by
  subst hr'
  -- what follows the move of the index
  have hload : ∀ (r : RingBuffer) (index : Int32),
      exec (do
        let b ← lift (load r._buffer index)
        let ret ← lift (deref ret >>= fun cells => store cells (Int32.ofNat i) b)
        set (r, some ret) : Exec stop (RingBuffer × byte_array) PUnit) (r, ret) =
      match r.loaded ret index i with
      | .ok cells => (.ok PUnit.unit, (r, some cells))
      | .error e => (.error e, (r, ret)) := by
    intro r index
    unfold loaded
    rcases load r._buffer index with e | b
    · exact exec_bind_of_error (exec_lift _ _) _
    rw [exec_bind_of_ok (exec_lift _ _)]
    show (_ : Except stop PUnit × RingBuffer × byte_array) =
      match (deref ret >>= fun cells => store cells (Int32.ofNat i) b :
        Except stop (List UInt8)) with
      | .ok cells => (.ok PUnit.unit, (r, some cells))
      | .error e => (.error e, (r, ret))
    rcases (deref ret >>= fun cells => store cells (Int32.ofNat i) b :
      Except stop (List UInt8)) with e | cells
    · exact exec_bind_of_error (exec_lift _ _) _
    · exact exec_bind_of_ok (exec_lift _ _) _
  unfold read_round
  cases withoutShift with
  | true => exact hload r (r._readIndex + Int32.ofNat i)
  | false => exact hload (r.shifted false i) (r.shifted false i)._readIndex

/-- The rounds that are left when `i` have been made. -/
theorem read_rounds_alone (size : Int32) (withoutShift : Bool) {count i : Nat}
    (hi : i + count = size.toNatClampNeg) (r : RingBuffer) (ret : byte_array) :
    let loop := exec (for_loop (read_round withoutShift) count i) (r, ret)
    reads.Runs r (.inl (.shift size ret withoutShift i)) loop.2.1
      (.inr (loop.1.map fun _ => false, loop.2.2)) := by
  induction count generalizing i r ret with
  | zero =>
    have hend : reads.access r (.shift size ret withoutShift i) = (r, .inr (.ok false, ret)) :=
      if_neg (by omega)
    exact .cons hend (.refl _ _)
  | succ count ih =>
    obtain ⟨r', hr'⟩ : ∃ r', r' = r.shifted withoutShift i := ⟨_, rfl⟩
    have hmove : reads.access r (.shift size ret withoutShift i) =
        (r', .inl (.load size ret withoutShift i)) := by
      rw [hr']
      exact if_pos (by omega)
    have hround := exec_read_round withoutShift i ret hr'
    refine .cons hmove ?_
    rw [for_loop]
    rcases hloaded : r'.loaded ret (r'.load_index withoutShift i) i with e | cells
    · rw [hloaded] at hround
      rw [exec_bind_of_error hround]
      refine .cons ?_ (.refl _ _)
      simp only [reads, read_access, hloaded]
      rfl
    · rw [hloaded] at hround
      rw [exec_bind_of_ok hround]
      refine .cons ?_ (ih (by omega) _ _)
      simp only [reads, read_access, hloaded]

/-- **The accesses of a read**, when they run alone, are `TryRead`. -/
theorem TryRead_alone (size : Int32) (ret : byte_array) (withoutShift : Bool) (r : RingBuffer) :
    reads.Returns r (size, ret, withoutShift) (exec (TryRead size withoutShift) (r, ret)).2.1
      ((exec (TryRead size withoutShift) (r, ret)).1,
        (exec (TryRead size withoutShift) (r, ret)).2.2) := by
  have hloop := read_rounds_alone size withoutShift (Nat.zero_add _) r ret
  unfold TryRead
  simp only [exec_get_bind, exec_ite, exec_pure]
  by_cases hempty : r.Empty = true
  · rw [if_pos hempty]
    exact .cons (if_pos hempty) (.refl _ _)
  rw [if_neg hempty]
  refine .cons (if_neg hempty) ?_
  by_cases hcount : r.Count - size ≤ 0
  · rw [if_pos hcount]
    exact .cons (if_pos hcount) (.refl _ _)
  rw [if_neg hcount]
  refine .cons (if_neg hcount) ?_
  rcases hrun : exec (for_loop (read_round withoutShift) size.toNatClampNeg 0) (r, ret) with
    ⟨_ | _, r'⟩
  · rw [hrun] at hloop
    rw [exec_bind_of_error hrun]
    exact hloop
  · rw [hrun] at hloop
    rw [exec_bind_of_ok hrun]
    exact hloop

/-! ### How far the writes come -/

/-- By how much a write of `n` bytes moves the index. -/
def moved (n : Nat) : Nat := n * (n - 1) / 2

theorem moved_succ (n : Nat) : moved (n + 1) = moved n + n := Nat.triangle_succ n

theorem moved_mono {m n : Nat} (h : m ≤ n) : moved m ≤ moved n :=
  Nat.div_le_div_right (Nat.mul_le_mul h (Nat.sub_le_sub_right h 1))

/-- No loop gets far before it leaves an array. -/
theorem le_of_moved_lt {i : Nat} (h : moved i < 2 ^ 31) : i ≤ 65536 := by
  by_contra hlt
  have hmono := moved_mono (show 65537 ≤ i by omega)
  have hfar : moved 65537 = 2147516416 := rfl
  omega

/-- The sum over the writes of a log. -/
def total (log : List (Nat × Bool)) : Nat := (log.map fun x => moved x.1).sum

theorem total_snoc (log : List (Nat × Bool)) (n : Nat) (whole : Bool) :
    total (log ++ [(n, whole)]) = total log + moved n := by
  simp [total]

/-- A write has stored all its bytes if and only if it has none, or the sums up to its own
    stay below the capacity. -/
def Lawful (capacity : Nat) (log : List (Nat × Bool)) : Prop :=
  ∀ before n whole after, log = before ++ (n, whole) :: after →
    (whole = true ↔ n = 0 ∨ total before + moved n < capacity)

theorem lawful_nil (capacity : Nat) : Lawful capacity [] := by
  intro before n whole after h
  simp at h

theorem Lawful.snoc {capacity : Nat} {log : List (Nat × Bool)} (h : Lawful capacity log)
    {n : Nat} {whole : Bool} (hwhole : whole = true ↔ n = 0 ∨ total log + moved n < capacity) :
    Lawful capacity (log ++ [(n, whole)]) := by
  intro before n' whole' after heq
  -- it is the new write, or it was in the log
  rcases List.eq_nil_or_concat after with rfl | ⟨after', x, rfl⟩
  · obtain ⟨rfl, hlast⟩ := List.append_inj' heq rfl
    cases hlast
    exact hwhole
  · rw [List.concat_eq_append, ← List.cons_append, ← List.append_assoc] at heq
    exact h before n' whole' after' (List.append_inj' heq rfl).1

namespace write_pc

/-- The rounds that have stored their byte. -/
def rounds : write_pc → Nat
  | .advance _ _ i | .store _ _ i => i
  | _ => 0

/-- The rounds that have moved the index. -/
def moves : write_pc → Nat
  | .advance _ _ i => i
  | .store _ _ i => i + 1
  | _ => 0

/-- The array holds as many bytes as are asked for. -/
def Fits : write_pc → Prop
  | .full data length =>
    ∀ cells, data = some cells → (write_size cells length).toNatClampNeg ≤ cells.length
  | .count data size => size.toNatClampNeg ≤ data.length
  | .advance data size i => size.toNatClampNeg ≤ data.length ∧ i ≤ size.toNatClampNeg
  | .store data size i => size.toNatClampNeg ≤ data.length ∧ i < size.toNatClampNeg

/-- What is written down of a write that got to its loop: its bytes, and whether it stored
    them all. -/
def record : write_pc → Except stop Bool → List (Nat × Bool)
  | .advance _ size _, _ => [(size.toNatClampNeg, true)]
  | .store _ size _, _ => [(size.toNatClampNeg, false)]
  | _, _ => []

end write_pc

/-- The ring with the write that is being made and those that have been. -/
structure Written (r : RingBuffer) (pc : Option write_pc) (log : List (Nat × Bool)) : Prop where
  small : r._buffer.length < 2 ^ 31
  lawful : Lawful r._buffer.length log
  fits : ∀ k, pc = some k → k.Fits
  /-- The index is where the sums say, or it has left the array for good. -/
  index :
    (total log + moved (pc.elim 0 write_pc.rounds) < r._buffer.length ∧
      r._writeIndex = Int32.ofNat (total log + moved (pc.elim 0 write_pc.moves))) ∨
    (r._buffer.length ≤ total log ∧ pc.elim 0 write_pc.rounds = 0 ∧
      ∃ m, r._buffer.length ≤ m ∧ m < 2 ^ 32 ∧ r._writeIndex = Int32.ofNat m)

/-- An index that has not gone once around stores inside the array or nowhere. -/
theorem store_ofNat {cells : List UInt8} (hsmall : cells.length < 2 ^ 31) {m : Nat}
    (hm : m < 2 ^ 32) (b : UInt8) :
    store cells (Int32.ofNat m) b =
      if m < cells.length then .ok (cells.set m b) else .error .IndexOutOfRangeException := by
  by_cases hlow : m < 2 ^ 31
  · unfold store
    rw [Int32.toInt_ofNat_of_lt hlow, toNatClampNeg_ofNat hlow]
    simp [ofNat_nonneg hlow]
  · -- it is negative
    have hneg : ¬(0 : Int32) ≤ Int32.ofNat m := by
      have hsize : Int32.size = 4294967296 := rfl
      rw [Int32.le_iff_toInt_le, Int32.toInt_ofNat', Int32.toInt_zero, hsize, Int.bmod_def]
      omega
    unfold store
    rw [if_neg fun h => hneg h.1, if_neg (by omega)]

variable {r : RingBuffer} {log : List (Nat × Bool)}

/-- What only the reader stores to is not in it. -/
theorem Written.of_read {pc : Option write_pc} (h : Written r pc log) (_readIndex : Int32) :
    Written { r with _readIndex := _readIndex } pc log :=
  ⟨h.small, h.lawful, h.fits, h.index⟩

theorem Written.call (h : Written r none log) {data : byte_array} {length : Int32}
    (hfits : (write_pc.full data length).Fits) : Written r (some (.full data length)) log where
  small := h.small
  lawful := h.lawful
  fits k hk := by
    cases hk
    exact hfits
  index := h.index

/-- A round that begins. -/
theorem Written.advance {data : List UInt8} {size : Int32} {i : Nat}
    (h : Written r (some (.advance data size i)) log) (hi : i < size.toNatClampNeg) :
    Written (r.advanced i) (some (.store data size i)) log where
  small := h.small
  lawful := h.lawful
  fits k hk := by
    cases hk
    exact ⟨(h.fits _ rfl).1, hi⟩
  index := by
    rcases h.index with ⟨hroom, hindex⟩ | ⟨hfull, hzero, m, hm, hlt, hindex⟩
    · refine .inl ⟨hroom, ?_⟩
      show r._writeIndex + Int32.ofNat i = Int32.ofNat (total log + moved (i + 1))
      rw [hindex, ← Int32.ofNat_add, moved_succ, ← Nat.add_assoc]
      rfl
    · -- outside the array it is the first round, which adds nothing
      refine .inr ⟨hfull, hzero, m, hm, hlt, ?_⟩
      have hi0 : i = 0 := hzero
      rw [← hindex, hi0]
      exact Int32.add_zero _

/-- Where a round stores: at the sum, or nowhere. -/
theorem Written.stored_eq {data : List UInt8} {size : Int32} {i : Nat}
    (h : Written r (some (.store data size i)) log) :
    ∃ m b, r._writeIndex = Int32.ofNat m ∧ m < 2 ^ 32 ∧
      (m < r._buffer.length → m = total log + moved (i + 1)) ∧
      (r._buffer.length ≤ m → r._buffer.length ≤ total log + moved size.toNatClampNeg) ∧
      r.stored data i = if m < r._buffer.length then .ok (r._buffer.set m b)
        else .error .IndexOutOfRangeException := by
  obtain ⟨hdata, hi⟩ := h.fits _ rfl
  have hsmall := h.small
  have hsize := size.toNatClampNeg_lt
  -- the data is long enough, so that only the ring's index can be wrong
  have hload : load data (Int32.ofNat i) = .ok (data.getD i default) :=
    load_of_lt (by omega) (by omega)
  have hstored : ∀ {m}, r._writeIndex = Int32.ofNat m → m < 2 ^ 32 → r.stored data i =
      if m < r._buffer.length then .ok (r._buffer.set m (data.getD i default))
      else .error .IndexOutOfRangeException := by
    intro m hindex hm
    unfold stored
    rw [hload, hindex]
    exact store_ofNat hsmall hm _
  rcases h.index with ⟨hroom, hindex⟩ | ⟨hfull, -, m, hm, hlt, hindex⟩
  · have hround : total log + moved i < r._buffer.length := hroom
    have hle := le_of_moved_lt (i := i) (by omega)
    -- the sum may pass `2 ^ 31`, but does not come around
    have hlt : total log + moved (i + 1) < 2 ^ 32 := by
      rw [moved_succ]
      omega
    refine ⟨_, _, hindex, hlt, fun _ => rfl, ?_, hstored hindex hlt⟩
    intro hout
    have hmono := moved_mono (show i + 1 ≤ size.toNatClampNeg from hi)
    have hout' : r._buffer.length ≤ total log + moved (i + 1) := hout
    omega
  · refine ⟨m, _, hindex, hlt, ?_, ?_, hstored hindex hlt⟩
    · intro hin
      omega
    · intro _
      exact Nat.le_trans hfull (Nat.le_add_right _ _)

/-- A byte that is stored. -/
theorem Written.store_ok {data : List UInt8} {size : Int32} {i : Nat} {cells : List UInt8}
    (h : Written r (some (.store data size i)) log) (hstored : r.stored data i = .ok cells) :
    Written { r with _buffer := cells } (some (.advance data size (i + 1))) log := by
  obtain ⟨hdata, hi⟩ := h.fits _ rfl
  obtain ⟨m, b, hindex, -, hin, -, heq⟩ := h.stored_eq
  rw [hstored] at heq
  split at heq
  · next hlt =>
    have hcells : cells = r._buffer.set m b := Except.ok.inj heq
    have hlength : cells.length = r._buffer.length := by rw [hcells, List.length_set]
    have hm := hin hlt
    refine ⟨?_, ?_, ?_, .inl ⟨?_, ?_⟩⟩
    · show cells.length < 2 ^ 31
      rw [hlength]
      exact h.small
    · show Lawful cells.length log
      rw [hlength]
      exact h.lawful
    · intro k hk
      cases hk
      exact ⟨hdata, hi⟩
    · show total log + moved (i + 1) < cells.length
      rw [hlength, ← hm]
      exact hlt
    · show r._writeIndex = Int32.ofNat (total log + moved (i + 1))
      rw [hindex, hm]
  · cases heq

/-- **The end of the array.** The write throws, and from now on every round does. -/
theorem Written.store_error {data : List UInt8} {size : Int32} {i : Nat} {e : stop}
    (h : Written r (some (.store data size i)) log) (hstored : r.stored data i = .error e) :
    Written r none (log ++ [(size.toNatClampNeg, false)]) := by
  obtain ⟨m, b, hindex, hm, -, hout, heq⟩ := h.stored_eq
  have hi : i < size.toNatClampNeg := (h.fits _ rfl).2
  rw [hstored] at heq
  split at heq
  · cases heq
  · next hge =>
    have hfull := hout (Nat.le_of_not_lt hge)
    refine ⟨h.small, h.lawful.snoc ?_, nofun, .inr ⟨?_, rfl, m, Nat.le_of_not_lt hge, hm, hindex⟩⟩
    · refine iff_of_false Bool.false_ne_true ?_
      omega
    · rw [total_snoc]
      exact hfull

/-- **The end of the write.** -/
theorem Written.finish {data : List UInt8} {size : Int32} {i : Nat}
    (h : Written r (some (.advance data size i)) log) (hi : ¬ i < size.toNatClampNeg) :
    Written r none (log ++ [(size.toNatClampNeg, true)]) := by
  have hn : i = size.toNatClampNeg := Nat.le_antisymm (h.fits _ rfl).2 (Nat.le_of_not_lt hi)
  rcases h.index with ⟨hroom, hindex⟩ | ⟨hfull, hzero, m, hm, hlt, hindex⟩
  · have hround : total log + moved size.toNatClampNeg < r._buffer.length := by
      rw [← hn]
      exact hroom
    refine ⟨h.small, h.lawful.snoc ⟨fun _ => .inr hround, fun _ => rfl⟩, nofun, .inl ⟨?_, ?_⟩⟩
    · rw [total_snoc]
      exact hround
    · rw [total_snoc, hindex, ← hn]
      rfl
  · -- outside the array only a write of no bytes ends
    have hzero' : size.toNatClampNeg = 0 := hn.symm.trans hzero
    refine ⟨h.small, h.lawful.snoc ⟨fun _ => .inl hzero', fun _ => rfl⟩, nofun,
      .inr ⟨?_, rfl, m, hm, hlt, hindex⟩⟩
    rw [total_snoc]
    exact Nat.le_trans hfull (Nat.le_add_right _ _)

/-- A step that leaves the ring alone, to a place before the loop's second round. -/
theorem Written.goto {pc pc' : Option write_pc} (h : Written r pc log)
    (hrounds : pc'.elim 0 write_pc.rounds = pc.elim 0 write_pc.rounds)
    (hmoves : pc'.elim 0 write_pc.moves = pc.elim 0 write_pc.moves)
    (hfits : ∀ k, pc' = some k → k.Fits) : Written r pc' log where
  small := h.small
  lawful := h.lawful
  fits := hfits
  index := by
    rw [hrounds, hmoves]
    exact h.index

/-- **One access of the writer.** -/
theorem Written.access {k : write_pc} (h : Written r (some k) log) :
    (∀ k', (write_access r k).2 = .inl k' → Written (write_access r k).1 (some k') log) ∧
    ∀ result, (write_access r k).2 = .inr result →
      Written (write_access r k).1 none (log ++ k.record result) := by
  -- a call that does not get to its loop leaves no record
  have hrefused : ∀ {k}, Written r (some k) log → k.rounds = 0 → k.moves = 0 →
      Written r none (log ++ []) := by
    intro k h hrounds hmoves
    rw [List.append_nil]
    exact h.goto hrounds.symm hmoves.symm nofun
  cases k with
  | full data length =>
    simp only [write_access]
    split
    · exact ⟨nofun, fun _ _ => hrefused h rfl rfl⟩
    split
    · exact ⟨nofun, fun _ _ => hrefused h rfl rfl⟩
    · next cells =>
      refine ⟨?_, nofun⟩
      rintro _ ⟨⟩
      refine h.goto rfl rfl ?_
      rintro _ ⟨⟩
      exact h.fits _ rfl cells rfl
  | count data size =>
    simp only [write_access]
    split
    · exact ⟨nofun, fun _ _ => hrefused h rfl rfl⟩
    · refine ⟨?_, nofun⟩
      rintro _ ⟨⟩
      refine h.goto rfl rfl ?_
      rintro _ ⟨⟩
      exact ⟨h.fits _ rfl, Nat.zero_le _⟩
  | advance data size i =>
    simp only [write_access]
    split
    · next hi =>
      refine ⟨?_, nofun⟩
      rintro _ ⟨⟩
      exact h.advance hi
    · next hi => exact ⟨nofun, fun _ _ => h.finish hi⟩
  | store data size i =>
    simp only [write_access]
    split
    · next cells hstored =>
      refine ⟨?_, nofun⟩
      rintro _ ⟨⟩
      exact h.store_ok hstored
    · next e hstored => exact ⟨nofun, fun _ _ => h.store_error hstored⟩

end AsioNet.CsNetwork.RingBuffer
