import AsioNet.CsNetwork.SocketClient

/-! # What the client delivers (`SocketClient.Recv`)

    The receive thread appends pieces of the stream to the ring, the game loop
    calls `Recv` in between. The stream is a run of frames in the documented
    format. A receiver of this format delivers the first frame as soon as all of
    it is there. `Recv` gives up at its first line, whatever is in the ring.
-/

namespace AsioNet.CsNetwork

open Exec Lockstep

/-! ### Peeking never succeeds -/

namespace RingBuffer

/-- A write leaves the read index and the size of the array alone. -/
theorem TryWrite_keeps (data : List UInt8) (length : Int32) (r : RingBuffer) :
    (exec (TryWrite data length) r).2._readIndex = r._readIndex ∧
      (exec (TryWrite data length) r).2._buffer.length = r._buffer.length := by
  let Inv : RingBuffer → Prop := fun r' =>
    r'._readIndex = r._readIndex ∧ r'._buffer.length = r._buffer.length
  have hround : ∀ i r', Inv r' → Inv (exec (write_round data i) r').2 := by
    intro i r' hinv
    unfold write_round
    rw [exec_modify_bind, exec_get_bind]
    rcases hload : load data (Int32.ofNat i) with e | b
    · rw [exec_bind_of_error (exec_lift _ _)]
      exact hinv
    · rw [exec_bind_of_ok (exec_lift _ _)]
      rcases hstore : store r'._buffer (r'._writeIndex + Int32.ofNat i) b with e | cells
      · rw [exec_bind_of_error (exec_lift _ _)]
        exact hinv
      · rw [exec_bind_of_ok (exec_lift _ _)]
        exact ⟨hinv.1, (length_of_store hstore).trans hinv.2⟩
  show Inv (exec (TryWrite data length) r).2
  have hr : Inv r := ⟨rfl, rfl⟩
  unfold TryWrite
  simp only [exec_get_bind, exec_ite, exec_pure]
  split
  · exact hr
  split
  · exact hr
  have hloop := for_loop_keeps Inv hround (write_size data length).toNatClampNeg 0 hr
  rcases hrun : exec (for_loop (write_round data) (write_size data length).toNatClampNeg 0) r with
    ⟨_ | _, r'⟩
  · rw [exec_bind_of_error hrun]
    rw [hrun] at hloop
    exact hloop
  · rw [exec_bind_of_ok hrun]
    rw [hrun] at hloop
    exact hloop

/-- A peek at bytes that are inside the array fails and leaves the ring alone. -/
theorem exec_TryRead_peek {r : RingBuffer} {ret : List UInt8} {size : Nat} (hsize : size < 2 ^ 31)
    (hindex : r._readIndex = 0) (hbuffer : size ≤ r._buffer.length) (hret : size ≤ ret.length) :
    ∃ ret', exec (TryRead (Int32.ofNat size) true) (r, some ret) =
      (.ok false, (r, some ret')) ∧ ret'.length = ret.length := by
  let Inv : Nat → RingBuffer × byte_array → Prop := fun _ s =>
    ∃ ret', s = (r, some ret') ∧ ret'.length = ret.length
  have hround : ∀ i s, i < size → Inv i s →
      ∃ s', exec (read_round true i) s = (.ok .unit, s') ∧ Inv (i + 1) s' := by
    rintro i _ hi ⟨ret', rfl, hlength⟩
    have hload : load r._buffer (r._readIndex + Int32.ofNat i) = .ok (r._buffer.getD i 0) := by
      rw [hindex, Int32.zero_add]
      exact load_of_lt (by omega) (by omega)
    have hstore : store ret' (Int32.ofNat i) (r._buffer.getD i 0) =
        .ok (ret'.set i (r._buffer.getD i 0)) := store_of_lt (by omega) (by omega) _
    refine ⟨(r, some (ret'.set i (r._buffer.getD i 0))), ?_, _, rfl, ?_⟩
    · unfold read_round
      rw [if_pos rfl, exec_get_bind]
      simp only [hload]
      rw [exec_bind_of_ok (exec_lift _ _)]
      have hderef : (deref (some ret') >>= fun cells =>
          store cells (Int32.ofNat i) (r._buffer.getD i 0)) =
          .ok (ret'.set i (r._buffer.getD i 0)) := hstore
      simp only [hderef]
      rw [exec_bind_of_ok (exec_lift _ _), exec_set]
    · rw [List.length_set, hlength]
  unfold TryRead
  simp only [exec_get_bind, exec_ite, exec_pure]
  split
  · exact ⟨ret, rfl, rfl⟩
  split
  · exact ⟨ret, rfl, rfl⟩
  rw [toNatClampNeg_ofNat hsize]
  obtain ⟨s', hrun, ret', rfl, hlength⟩ :=
    exec_for_loop Inv hround (Nat.zero_add size) (s := (r, some ret)) ⟨ret, rfl, rfl⟩
  rw [exec_bind_of_ok hrun]
  exact ⟨ret', rfl, hlength⟩

end RingBuffer

namespace SocketClient

variable {σ : Type}

/-- A client of this state peeks in vain. -/
structure Deaf (client : SocketClient) : Prop where
  readIndex : client._recvBuffer._readIndex = 0
  buffer : TcpContentHead.HEAD_SIZE ≤ client._recvBuffer._buffer.length
  head : client._recvFrameHead.length = TcpContentHead.HEAD_SIZE

/-- **`Recv` returns `false`**, calls no handler and leaves the ring as it is. -/
theorem exec_Recv (A : Allocator σ) (handler : Bool) {s : client_state σ} (h : Deaf s.client) :
    ∃ head, exec (Recv A handler) s =
        (.ok false, { s with client := { s.client with _recvFrameHead := head } }) ∧
      head.length = TcpContentHead.HEAD_SIZE := by
  have hsize : TcpContentHead.HEAD_SIZE < 2 ^ 31 := by decide
  obtain ⟨head, hpeek, hlength⟩ := RingBuffer.exec_TryRead_peek hsize h.readIndex h.buffer
    (Nat.le_of_eq h.head.symm)
  refine ⟨head, ?_, hlength.trans h.head⟩
  have hread : exec (read_head : Exec stop (client_state σ) Bool) s =
      (.ok false, { s with client := { s.client with _recvFrameHead := head } }) := by
    unfold read_head
    rw [exec_zoom, hpeek]
    rfl
  unfold Recv
  rw [exec_bind_of_ok hread, if_pos rfl, exec_pure]

/-! ### The documented format -/

/-- A frame: command, number and entries. -/
structure frame where
  cmd : UInt16
  seq : UInt32
  entries : List (List UInt8)
  entries_lt : ∀ pb ∈ entries, pb.length < 65536
  body_lt : (entries.map fun pb => pb.length + 2).sum < 2 ^ 32

/-- `size:2|pb|size:2|pb|...` -/
def frame.body (f : frame) : List UInt8 :=
  f.entries.flatMap fun pb => host_uint16 (UInt16.ofNat pb.length) ++ pb

/-- `fk:1:0x2e|len:4|cmd:2|seq:4|body` -/
def frame.bytes (f : frame) : List UInt8 :=
  TcpContentHead.STATIC_FRAME_KEY :: (host_uint32 (UInt32.ofNat f.body.length) ++
    host_uint16 f.cmd ++ host_uint32 f.seq ++ f.body)

/-! ### Appending and receiving -/

inductive event where
  /-- The next `n` bytes of the stream are appended. -/
  | append (n : Nat)
  | recv (handler : Bool)

/-- What a call of `Recv` shows: its result, the entries handed over, and the
    number of bytes it took out of the ring. -/
structure received where
  result : Bool
  entries : List (List UInt8)
  removed : Int
  deriving DecidableEq

/-- The client and the bytes the network has still to bring. -/
structure receiving (σ : Type) where
  state : client_state σ
  toCome : List UInt8

/-- The receive thread catches and logs what `TryWrite` throws. -/
def append_piece (client : SocketClient) (piece : List UInt8) : SocketClient :=
  { client with
    _recvBuffer :=
      (exec (RingBuffer.TryWrite piece (Int32.ofNat piece.length)) client._recvBuffer).2 }

/-- The first `size` bytes of an array that was handed over. -/
def entry_of (handed : byte_array × UInt16) : List UInt8 := (handed.1.getD []).take handed.2.toNat

def receive_step (A : Allocator σ) (s : receiving σ) :
    event → Option (Except stop received) × receiving σ
  | .append n =>
    (none, ⟨{ s.state with client := append_piece s.state.client (s.toCome.take n) },
      s.toCome.drop n⟩)
  | .recv handler =>
    let outcome := exec (Recv A handler) s.state
    let before := s.state.client
    let after := outcome.2.client
    (some (outcome.1.map fun result =>
      { result := result
        entries := (after.handled.drop before.handled.length).map entry_of
        removed := before._recvBuffer.Count.toInt - after._recvBuffer.Count.toInt }),
      ⟨outcome.2, s.toCome⟩)

/-- The client as a machine. -/
def receiver (A : Allocator σ) :
    Machine (receiving σ) event (Option (Except stop received)) where
  step := receive_step A

/-! ### What a receiver of the format does -/

/-- The frames not yet delivered, how many of their bytes have been appended, and
    how many have not. -/
structure expected where
  frames : List frame
  arrived : Nat
  toCome : Nat

/-- The first frame, when all of it has arrived. -/
def expected.complete (t : expected) : Option frame :=
  t.frames.head?.filter fun f => decide (f.bytes.length ≤ t.arrived)

def expected_step (t : expected) : event → Option (Except stop received) × expected
  | .append n =>
    (none, { t with arrived := t.arrived + min n t.toCome, toCome := t.toCome - n })
  | .recv _ =>
    match t.complete with
    | some f =>
      (some (.ok ⟨true, f.entries, f.bytes.length⟩),
        { t with frames := t.frames.tail, arrived := t.arrived - f.bytes.length })
    | none => (some (.ok ⟨false, [], 0⟩), t)

/-- The receiver of the documented format. -/
def format_receiver : Machine expected event (Option (Except stop received)) where
  step := expected_step

/-- The condition under which the client does what is expected: `Recv` is not
    called when a frame is there. -/
def NothingComplete (t : expected) : event → Prop
  | .append _ => True
  | .recv _ => t.complete = none

/-- A new client, its handlers set or not. -/
def new_client (cmds : Option (List UInt16)) (set : Bool) : SocketClient :=
  { make with OnNetworkCmd := cmds, RecvHandler := set }

theorem deaf_new_client (cmds : Option (List UInt16)) (set : Bool) : Deaf (new_client cmds set) where
  readIndex := rfl
  buffer := by
    show 11 ≤ (List.replicate MAX_RECV_BUFFER_SIZE.toNatClampNeg (0 : UInt8)).length
    rw [List.length_replicate]
    decide
  head := rfl

theorem Deaf.append_piece {client : SocketClient} (h : Deaf client) (piece : List UInt8) :
    Deaf (append_piece client piece) := by
  have hkeeps := RingBuffer.TryWrite_keeps piece (Int32.ofNat piece.length) client._recvBuffer
  refine ⟨hkeeps.1.trans h.readIndex, ?_, h.head⟩
  have hbuffer := h.buffer
  rw [← hkeeps.2] at hbuffer
  exact hbuffer

/-- What a call of `Recv` shows is what is expected when no frame is there. -/
theorem receive_answer_iff (A : Allocator σ) {s : receiving σ} (h : Deaf s.state.client)
    (t : expected) (e : event) :
    (receive_step A s e).1 = (expected_step t e).1 ↔ NothingComplete t e := by
  cases e with
  | append n => simp [receive_step, expected_step, NothingComplete]
  | recv handler =>
    obtain ⟨head, hrun, -⟩ := exec_Recv A handler h
    have hanswer : (receive_step A s (.recv handler)).1 = some (.ok ⟨false, [], 0⟩) := by
      simp [receive_step, hrun, Except.map]
    rw [hanswer]
    rcases hc : t.complete with _ | f
    · simp [expected_step, NothingComplete, hc]
    · simp [expected_step, NothingComplete, hc]

theorem Deaf.receive_step (A : Allocator σ) {s : receiving σ} (h : Deaf s.state.client)
    (e : event) : Deaf (SocketClient.receive_step A s e).2.state.client := by
  cases e with
  | append n => exact h.append_piece (s.toCome.take n)
  | recv handler =>
    obtain ⟨head, hrun, hlength⟩ := exec_Recv A handler h
    simp only [SocketClient.receive_step, hrun]
    exact ⟨h.readIndex, h.buffer, hlength⟩

/-- **The client delivers what it should exactly in the runs in which `Recv` is
    never called while a complete frame is there.** -/
theorem delivers_iff (A : Allocator σ) (pool : σ) (cmds : Option (List UInt16)) (set : Bool)
    (frames : List frame) (events : List event) :
    (receiver A).Agrees format_receiver ⟨⟨new_client cmds set, pool⟩, frames.flatMap frame.bytes⟩
        ⟨frames, 0, (frames.flatMap frame.bytes).length⟩ events ↔
      format_receiver.Along NothingComplete ⟨frames, 0, (frames.flatMap frame.bytes).length⟩
        events := by
  apply Machine.agrees_iff_along fun s _ => Deaf s.state.client
  · intro s t e h
    exact receive_answer_iff A h t e
  · intro s t e h _
    exact h.receive_step A e
  · exact deaf_new_client cmds set

/-- A frame with the one entry `0x61`. -/
def one_entry : frame where
  cmd := 0
  seq := 1
  entries := [[0x61]]
  entries_lt := by decide
  body_lt := by decide

/-- All of a frame is there, and `Recv` does not deliver it. -/
theorem one_entry_not_delivered :
    ¬(receiver Allocator.new_arrays).Agrees format_receiver
      ⟨⟨new_client none true, 0⟩, [one_entry].flatMap frame.bytes⟩
      ⟨[one_entry], 0, ([one_entry].flatMap frame.bytes).length⟩ [.append 14, .recv true] := by
  rintro ⟨-, hanswer, -⟩
  have hdeaf := (deaf_new_client none true).append_piece
    (([one_entry].flatMap frame.bytes).take 14)
  have hnone := (receive_answer_iff Allocator.new_arrays hdeaf _ (.recv true)).mp hanswer
  have hthere : (⟨[one_entry], 14, 0⟩ : expected).complete.isSome = true := by decide
  rw [show (⟨[one_entry], 14, 0⟩ : expected).complete = none from hnone] at hthere
  simp at hthere

end SocketClient

end AsioNet.CsNetwork
