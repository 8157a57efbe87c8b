import AsioNet.CsNetwork.FrameHeads
import AsioNet.CsNetwork.RecvRuns
import AsioNet.CsNetwork.RingAccesses
import AsioNet.Library.TransitionSystem

/-! # The client's threads (`SocketClient.cs`)

    The main thread calls `Send` and `Recv`. The send thread is to carry the bytes of the
    send ring to the socket, the receive thread those of the socket to the receive ring.
    A step is one access to a ring, one call of the allocator or one use of the socket.
    Any number of others may use the allocator in between. A call of `Recv` is one step:
    its `TryRead` stores nothing in the ring and returns `false` on every path, so
    accesses of others in between only decide which bytes `_recvFrameHead` is left with,
    and nothing reads those.

    No read of a ring succeeds, so nothing is sent and nothing handed over, and nothing
    written is ever made room for: `lost_of_reachable`. With the source's own pool no call
    of `Send` even gets to the ring: `unsent_of_reachable`.
-/

namespace AsioNet.CsNetwork

open Exec TransitionSystem RingBuffer

/-! ### The threads -/

/-- What the main thread is about to do. -/
inductive main_pc where
  | idle
  /-- `_sendBuffer.Full(len + HEAD_SIZE)` -/
  | full (data : List UInt8) (len : Int32)
  | wrap (data : List UInt8) (len : Int32)
  | write (wrappedData : DataBlock) (k : write_pc)
  | free (wrappedData : DataBlock)
  /-- a wait that never ends -/
  | spins

/-- What `sendThreadFunc` is about to do. -/
inductive sender_pc where
  /-- `_sendThread` is null -/
  | none
  | empty
  /-- `_sendBuffer.Count` -/
  | count
  | alloc (readAll : Int32)
  | read (readAll : Int32) (data : Option block) (k : read_pc)
  /-- `TryRead` has returned true -/
  | send (readAll : Int32) (data : Option block)
  | free (data : Option block)
  /-- something was thrown, or never returns -/
  | ended (e : stop)

/-- What `recvThreadFunc` is about to do. -/
inductive receiver_pc where
  /-- `_recvThread` is null -/
  | none
  | full
  | receive
  | write (k : write_pc)

/-- `startThread` starts a thread once. -/
def sender_pc.started : sender_pc → sender_pc
  | .none => .empty
  | sender => sender

def receiver_pc.started : receiver_pc → receiver_pc
  | .none => .full
  | receiver => receiver

structure socket_threads (σ : Type) where
  state : client_state σ
  _socketRecvBuffer : List UInt8
  main : main_pc
  sender : sender_pc
  receiver : receiver_pc
  /-- What `refSocket.Send` was given. -/
  sent : List (List UInt8)
  /-- How the calls of `Recv` ended. -/
  received : List (Except stop Bool)
  /-- The writes to the send ring that got to their loop, and those to the receive ring. -/
  sends : List (Nat × Bool)
  receives : List (Nat × Bool)

inductive client_step (σ : Type) where
  | Send (data : List UInt8) (len : Int32)
  | Recv (handler : Bool)
  /-- `stateEnter` of the connected state -/
  | startThread
  /-- the next step of a call of `Send` -/
  | main
  /-- `connected` is what the thread finds in `State` -/
  | send_thread (connected : Bool)
  /-- none when the state is another one or `Receive` throws -/
  | recv_thread (bytes : Option (List UInt8))
  /-- others have used the allocator -/
  | pool (pool : σ)

variable {σ : Type}

namespace socket_threads

def _sendBuffer (s : socket_threads σ) : RingBuffer := s.state.client._sendBuffer

def _recvBuffer (s : socket_threads σ) : RingBuffer := s.state.client._recvBuffer

def set_sendBuffer (s : socket_threads σ) (r : RingBuffer) : socket_threads σ :=
  { s with state := { s.state with client := { s.state.client with _sendBuffer := r } } }

def set_recvBuffer (s : socket_threads σ) (r : RingBuffer) : socket_threads σ :=
  { s with state := { s.state with client := { s.state.client with _recvBuffer := r } } }

/-- `Send` ends with an exception, or does not end. -/
def throws (s : socket_threads σ) (e : stop) : socket_threads σ :=
  match e with
  | .spins => { s with main := .spins }
  | _ => { s with main := .idle }

/-- The bytes of a reference. -/
def cells (data : Option block) : byte_array := data.map fun b => b.cells

/-- The next step of a call of `Send`. -/
def step_main (A : Allocator σ) (s : socket_threads σ) : socket_threads σ :=
  match s.main with
  | .idle | .spins => s
  | .full data len =>
    -- while the ring is full it sleeps
    if s._sendBuffer.Full (len + Int32.ofNat TcpContentHead.HEAD_SIZE) then s
    else { s with main := .wrap data len }
  | .wrap data len =>
    let wrapped := exec (SocketClient.WrapSendData A data len) s.state
    match wrapped.1 with
    | .ok wrappedData =>
      { s with
        state := wrapped.2
        main := .write wrappedData (writes.start (cells wrappedData.data, wrappedData.length)) }
    | .error e => throws { s with state := wrapped.2 } e
  | .write wrappedData k =>
    let access := write_access s._sendBuffer k
    let s := s.set_sendBuffer access.1
    match access.2 with
    | .inl k => { s with main := .write wrappedData k }
    | .inr result =>
      let s := { s with sends := s.sends ++ k.record result }
      match result with
      -- false is only asserted against
      | .ok _ => { s with main := .free wrappedData }
      | .error e => s.throws e
  | .free wrappedData =>
    let freed := exec (SocketClient.on_pool (A.Free wrappedData.data)) s.state
    match freed.1 with
    | .ok _ => { s with state := freed.2, main := .idle }
    | .error e => throws { s with state := freed.2 } e

/-- The next step of `sendThreadFunc`. -/
def step_sender (A : Allocator σ) (connected : Bool) (s : socket_threads σ) : socket_threads σ :=
  match s.sender with
  | .none | .ended _ => s
  | .empty => if s._sendBuffer.Empty then s else { s with sender := .count }
  | .count =>
    let readAll := s._sendBuffer.Count
    let readAll := if readAll > SocketClient.MAX_TCP_CONTENT_SIZE then
      SocketClient.MAX_TCP_CONTENT_SIZE else readAll
    { s with sender := .alloc readAll }
  | .alloc readAll =>
    let allocated := exec (SocketClient.on_pool (A.Alloc readAll)) s.state
    let s := { s with state := allocated.2 }
    match allocated.1 with
    | .ok data => { s with sender := .read readAll data (reads.start (readAll, cells data, false)) }
    | .error e => { s with sender := .ended e }
  | .read readAll data k =>
    let access := read_access s._sendBuffer k
    let s := s.set_sendBuffer access.1
    match access.2 with
    | .inl k => { s with sender := .read readAll data k }
    | .inr (.error e, _) => { s with sender := .ended e }
    | .inr (.ok found, ret) =>
      let data := data.map fun b => { b with cells := ret.getD b.cells }
      if found then { s with sender := .send readAll data }
      else { s with sender := .free data }
  | .send readAll data =>
    -- what the socket throws is logged
    { s with
      sent := if connected then s.sent ++ [((cells data).getD []).take readAll.toNatClampNeg]
        else s.sent
      sender := .free data }
  | .free data =>
    let freed := exec (SocketClient.on_pool (A.Free data)) s.state
    let s := { s with state := freed.2 }
    match freed.1 with
    | .ok _ => { s with sender := .empty }
    | .error e => { s with sender := .ended e }

/-- The next step of `recvThreadFunc`. No more bytes arrive at once than
    `_socketRecvBuffer` has room for. -/
def step_receiver (bytes : Option (List UInt8)) (s : socket_threads σ) :
    Option (socket_threads σ) :=
  match s.receiver with
  | .none => some s
  | .full => some (if s._recvBuffer.Full 0 then s else { s with receiver := .receive })
  | .receive =>
    match bytes with
    | none => some { s with receiver := .full }
    | some bytes =>
      if bytes.length ≤ s._socketRecvBuffer.length then
        let buffer := bytes ++ s._socketRecvBuffer.drop bytes.length
        some { s with
          _socketRecvBuffer := buffer
          receiver := .write (writes.start (some buffer, Int32.ofNat bytes.length)) }
      else none
  | .write k =>
    let access := write_access s._recvBuffer k
    let s := s.set_recvBuffer access.1
    match access.2 with
    | .inl k => some { s with receiver := .write k }
    -- what `TryWrite` throws is logged
    | .inr result =>
      some { s with receives := s.receives ++ k.record result, receiver := .full }

def exec (A : Allocator σ) (s : socket_threads σ) : client_step σ → Option (socket_threads σ)
  | .Send data len =>
    match s.main with
    | .idle => some { s with main := .full data len }
    | _ => none
  | .Recv handler =>
    match s.main with
    | .idle =>
      let result := Exec.exec (SocketClient.Recv A handler) s.state
      let s := { s with state := result.2, received := s.received ++ [result.1] }
      match result.1 with
      | .ok _ => some s
      | .error e => some (s.throws e)
    | _ => none
  | .startThread =>
    some { s with sender := s.sender.started, receiver := s.receiver.started }
  | .main => some (s.step_main A)
  | .send_thread connected => some (s.step_sender A connected)
  | .recv_thread bytes => s.step_receiver bytes
  | .pool pool => some { s with state := { s.state with pool := pool } }

/-- A new client with rings of these capacities, before its threads are started. -/
def start (cmds : Option (List UInt16)) (set : Bool) (send_capacity recv_capacity : Int32)
    (pool : σ) : socket_threads σ where
  state :=
    { client := { SocketClient.new_client cmds set with
        _sendBuffer := .make send_capacity
        _recvBuffer := .make recv_capacity }
      pool := pool }
  _socketRecvBuffer := List.replicate SocketClient.MAX_TCP_CONTENT_SIZE.toNatClampNeg 0
  main := .idle
  sender := .none
  receiver := .none
  sent := []
  received := []
  sends := []
  receives := []

/-- The source's capacities are both ten megabytes. -/
def system (A : Allocator σ) : System (socket_threads σ) (client_step σ) :=
  System.ofExec (fun s => ∃ cmds set send_capacity recv_capacity pool,
    0 < send_capacity ∧ TcpContentHead.HEAD_SIZE ≤ recv_capacity.toNatClampNeg ∧
    s = start cmds set send_capacity recv_capacity pool) (exec A)

end socket_threads

/-! ### What a step leaves alone -/

namespace RingBuffer

/-- A read moves its own index and nothing else. -/
theorem read_access_eq (r : RingBuffer) (k : read_pc) :
    ∃ _readIndex, (read_access r k).1 = { r with _readIndex := _readIndex } := by
  cases k with
  | empty size ret withoutShift =>
    simp only [read_access]
    split
    · exact ⟨_, rfl⟩
    · exact ⟨_, rfl⟩
  | count size ret withoutShift =>
    simp only [read_access]
    split
    · exact ⟨_, rfl⟩
    · exact ⟨_, rfl⟩
  | shift size ret withoutShift i =>
    simp only [read_access]
    split
    · cases withoutShift with
      | true => exact ⟨_, rfl⟩
      | false => exact ⟨_, rfl⟩
    · exact ⟨_, rfl⟩
  | load size ret withoutShift i =>
    simp only [read_access]
    split
    · exact ⟨_, rfl⟩
    · exact ⟨_, rfl⟩

/-- **No read succeeds**, whatever the writer does in between. -/
theorem read_access_ne_true (r : RingBuffer) (k : read_pc) (ret : byte_array) :
    (read_access r k).2 ≠ .inr (.ok true, ret) := by
  cases k with
  | empty size ret withoutShift =>
    simp only [read_access]
    split
    · intro h
      cases h
    · intro h
      cases h
  | count size ret withoutShift =>
    simp only [read_access]
    split
    · intro h
      cases h
    · intro h
      cases h
  | shift size ret withoutShift i =>
    simp only [read_access]
    split
    · intro h
      cases h
    · intro h
      cases h
  | load size ret withoutShift i =>
    simp only [read_access]
    split
    · intro h
      cases h
    · intro h
      cases h

/-- A write leaves the reader's index and the size of the array alone. -/
theorem write_access_keeps (r : RingBuffer) (k : write_pc) :
    (write_access r k).1._readIndex = r._readIndex ∧
      (write_access r k).1._buffer.length = r._buffer.length := by
  cases k with
  | full data length =>
    simp only [write_access]
    split
    · exact ⟨rfl, rfl⟩
    split
    · exact ⟨rfl, rfl⟩
    · exact ⟨rfl, rfl⟩
  | count data size =>
    simp only [write_access]
    split
    · exact ⟨rfl, rfl⟩
    · exact ⟨rfl, rfl⟩
  | advance data size i =>
    simp only [write_access]
    split
    · exact ⟨rfl, rfl⟩
    · exact ⟨rfl, rfl⟩
  | store data size i =>
    simp only [write_access]
    split
    · next cells hstored =>
      refine ⟨rfl, ?_⟩
      unfold stored at hstored
      rcases hload : load data (Int32.ofNat i) with e | b
      · rw [hload] at hstored
        cases hstored
      · rw [hload] at hstored
        exact length_of_store hstored
    · exact ⟨rfl, rfl⟩

theorem toNatClampNeg_ofNat_le (n : Nat) : (Int32.ofNat n).toNatClampNeg ≤ n := by
  have hsize : Int32.size = 4294967296 := rfl
  rw [Int32.toNatClampNeg, Int32.toInt_ofNat', hsize, Int.bmod_def]
  omega

/-- An array with enough bytes fits; without a length all of it is written. -/
theorem fits_full {cells : List UInt8} {length : Int32}
    (h : length.toNatClampNeg ≤ cells.length) : (write_pc.full (some cells) length).Fits := by
  intro cells' heq
  cases heq
  unfold write_size
  split
  · exact h
  · exact toNatClampNeg_ofNat_le _

end RingBuffer

namespace SocketClient

/-- What `WrapSendData` changes in the client. -/
theorem WrapSendData_client (A : Allocator σ) (data : List UInt8) (len : Int32)
    (s : client_state σ) : ∃ seq head, (exec (WrapSendData A data len) s).2.client =
      { s.client with _sendSeq := seq, _sendFrameHead := head } := by
  refine ⟨nextSeq s.client._sendSeq,
    head_bytes (if 0 < len then len else Int32.ofNat data.length).toUInt32
      TcpContentHead.COMMON_CMD (nextSeq s.client._sendSeq), ?_⟩
  unfold WrapSendData
  simp only [exec_get_bind, exec_set_bind]
  refine exec_bind_keeps (P := fun s' : client_state σ => s'.client = _) rfl ?_
  intro newRet s₁ h₁
  exact exec_bind_keeps (P := fun s' : client_state σ => s'.client = _) h₁ fun _ _ h₂ => h₂

/-- A copy loop that returns has stored to every cell of the frame. -/
theorem length_of_copy_loop {head data : List UInt8}
    (hhead : head.length = TcpContentHead.HEAD_SIZE) {n : Nat} (hn : n < 2 ^ 31)
    {newRet newRet' : Option block}
    (h : exec (for_loop (copy_round head data) n 0) newRet = (.ok .unit, newRet')) :
    ∀ b, newRet' = some b → n ≤ b.cells.length := by
  refine of_for_loop_ok (fun i (newRet : Option block) => ∀ b, newRet = some b →
    i ≤ b.cells.length) ?_ (Nat.zero_add n) h ?_
  · intro i r r' hi _ hround b hb
    obtain ⟨b', byte, -, -, hin, rfl⟩ := of_copy_round_ok hhead (by omega) hround
    cases hb
    rw [List.length_set]
    exact hin
  · intro b _
    exact Nat.zero_le _

/-- The array `WrapSendData` returns holds the bytes it is said to hold. -/
theorem fits_of_WrapSendData {A : Allocator σ} {data : List UInt8} {len : Int32}
    {s : client_state σ} {wrappedData : DataBlock}
    (h : (exec (WrapSendData A data len) s).1 = .ok wrappedData) :
    (write_pc.full (wrappedData.data.map fun b => b.cells) wrappedData.length).Fits := by
  unfold WrapSendData at h
  rw [exec_get_bind, exec_set_bind] at h
  obtain ⟨newRet, s₁, -, h⟩ := of_exec_bind_ok h
  obtain ⟨newRet', s₂, hcopied, h⟩ := of_exec_bind_ok h
  cases Except.ok.inj h
  rw [exec_of] at hcopied
  rcases hloop : exec (for_loop (copy_round _ data) _ 0) newRet with ⟨_ | _, copied⟩
  · rw [hloop] at hcopied
    cases (Prod.mk.inj hcopied).1
  rw [hloop] at hcopied
  have hnew : copied = newRet' := Except.ok.inj (Prod.mk.inj hcopied).1
  have hlong := length_of_copy_loop rfl (Int32.toNatClampNeg_lt _) hloop
  intro cells hcells
  obtain ⟨b, hb, rfl⟩ := Option.map_eq_some_iff.mp hcells
  exact fits_full (hlong b (hnew.trans hb)) _ rfl

end SocketClient

/-! ### What holds in every run -/

/-- The write to the send ring that is being made. -/
def main_pc.writing : main_pc → Option write_pc
  | .write _ k => some k
  | _ => none

/-- The write to the receive ring that is being made. -/
def receiver_pc.writing : receiver_pc → Option write_pc
  | .write k => some k
  | _ => .none

theorem receiver_pc.writing_started (receiver : receiver_pc) :
    receiver.started.writing = receiver.writing := by
  cases receiver with
  | _ => rfl

theorem sender_pc.send_of_started {sender : sender_pc} {readAll : Int32} {data : Option block}
    (h : sender.started = .send readAll data) : sender = .send readAll data := by
  cases sender with
  | none => cases h
  | _ => exact h

namespace socket_threads

structure Inv (s : socket_threads σ) : Prop where
  send : Written s._sendBuffer s.main.writing s.sends
  recv : Written s._recvBuffer s.receiver.writing s.receives
  deaf : SocketClient.Deaf s.state.client
  handled : s.state.client.handled = []
  received : ∀ r ∈ s.received, r = .ok false
  sent : s.sent = []
  sender : ∀ readAll data, s.sender ≠ .send readAll data

variable {s : socket_threads σ}

/-- The main thread goes on; of the client, the send ring and what only `Send` uses may
    have changed. -/
theorem Inv.of_main (h : Inv s) {state : client_state σ} {main : main_pc}
    {sends : List (Nat × Bool)} {seq : UInt32} {head : List UInt8} {ring : RingBuffer}
    (hclient : state.client = { s.state.client with
      _sendSeq := seq, _sendFrameHead := head, _sendBuffer := ring })
    (hsend : Written ring main.writing sends) :
    Inv { s with state := state, main := main, sends := sends } where
  send := by
    show Written state.client._sendBuffer main.writing sends
    rw [hclient]
    exact hsend
  recv := by
    show Written state.client._recvBuffer s.receiver.writing s.receives
    rw [hclient]
    exact h.recv
  deaf := by
    show SocketClient.Deaf state.client
    rw [hclient]
    exact ⟨h.deaf.readIndex, h.deaf.buffer, h.deaf.head⟩
  handled := by
    show state.client.handled = []
    rw [hclient]
    exact h.handled
  received := h.received
  sent := h.sent
  sender := h.sender

/-- The send thread goes on; the send ring may have been read. -/
theorem Inv.of_sender (h : Inv s) {state : client_state σ} {sender : sender_pc}
    {_readIndex : Int32}
    (hclient : state.client = { s.state.client with
      _sendBuffer := { s._sendBuffer with _readIndex := _readIndex } })
    (hsender : ∀ readAll data, sender ≠ .send readAll data) :
    Inv { s with state := state, sender := sender } where
  send := by
    show Written state.client._sendBuffer s.main.writing s.sends
    rw [hclient]
    exact h.send.of_read _readIndex
  recv := by
    show Written state.client._recvBuffer s.receiver.writing s.receives
    rw [hclient]
    exact h.recv
  deaf := by
    show SocketClient.Deaf state.client
    rw [hclient]
    exact ⟨h.deaf.readIndex, h.deaf.buffer, h.deaf.head⟩
  handled := by
    show state.client.handled = []
    rw [hclient]
    exact h.handled
  received := h.received
  sent := h.sent
  sender := hsender

theorem throws_eq (s : socket_threads σ) (e : stop) :
    ∃ main : main_pc, main.writing = none ∧ s.throws e = { s with main := main } := by
  cases e with
  | spins => exact ⟨.spins, rfl, rfl⟩
  | _ => exact ⟨.idle, rfl, rfl⟩

/-- An exception ends the call of `Send`. -/
theorem Inv.of_throws (h : Inv s) (state : client_state σ) {sends : List (Nat × Bool)}
    {seq : UInt32} {head : List UInt8} {ring : RingBuffer}
    (hclient : state.client = { s.state.client with
      _sendSeq := seq, _sendFrameHead := head, _sendBuffer := ring })
    (hsend : Written ring none sends) (e : stop) :
    Inv (throws { s with state := state, sends := sends } e) := by
  obtain ⟨main, hnone, heq⟩ := throws_eq { s with state := state, sends := sends } e
  rw [heq]
  refine h.of_main hclient ?_
  rw [hnone]
  exact hsend

/-- **A step of `Send`.** -/
theorem Inv.step_main (h : Inv s) (A : Allocator σ) : Inv (s.step_main A) := by
  have hsend := h.send
  unfold socket_threads.step_main
  dsimp only
  split
  · exact h
  · exact h
  · next data len hmain =>
    rw [hmain] at hsend
    split
    · exact h
    · exact h.of_main rfl hsend
  · next data len hmain =>
    rw [hmain] at hsend
    obtain ⟨seq, head, hclient⟩ := SocketClient.WrapSendData_client A data len s.state
    split
    · next wrappedData hwrapped =>
      exact h.of_main hclient (hsend.call (SocketClient.fits_of_WrapSendData hwrapped))
    · next e hwrapped => exact h.of_throws _ hclient hsend e
  · next wrappedData k hmain =>
    rw [hmain] at hsend
    obtain ⟨hgoes, hreturns⟩ := hsend.access
    split
    -- an access in the middle of `TryWrite`, then the one that it returns or throws with
    · next k' hk' => exact h.of_main rfl (hgoes k' hk')
    · next result hresult =>
      have hwritten := hreturns result hresult
      split
      · exact h.of_main rfl hwritten
      · next e =>
        exact h.of_throws (s.set_sendBuffer (write_access s._sendBuffer k).1).state rfl hwritten e
  · next wrappedData hmain =>
    rw [hmain] at hsend
    split
    · exact h.of_main rfl hsend
    · next e hfreed =>
      exact h.of_throws (Exec.exec (SocketClient.on_pool (A.Free wrappedData.data)) s.state).2 rfl
        hsend e

/-- **A step of the send thread.** -/
theorem Inv.step_sender (h : Inv s) (A : Allocator σ) (connected : Bool) :
    Inv (s.step_sender A connected) := by
  unfold socket_threads.step_sender
  dsimp only
  split
  · exact h
  · exact h
  · split
    · exact h
    · exact h.of_sender rfl nofun
  · exact h.of_sender rfl nofun
  · split
    · exact h.of_sender rfl nofun
    · exact h.of_sender rfl nofun
  · next readAll data k hsender =>
    obtain ⟨_readIndex, hring⟩ := read_access_eq s._sendBuffer k
    rw [hring]
    -- the read goes on, throws, or returns
    split
    · exact h.of_sender rfl nofun
    · exact h.of_sender rfl nofun
    · next found ret hresult =>
      cases found with
      | true => exact absurd hresult (read_access_ne_true s._sendBuffer k ret)
      | false => exact h.of_sender rfl nofun
  · next readAll data hsender => exact absurd hsender (h.sender readAll data)
  · split
    · exact h.of_sender rfl nofun
    · exact h.of_sender rfl nofun

/-- The receive thread goes on without an access to the ring. -/
theorem Inv.of_receiver (h : Inv s) {buffer : List UInt8} {receiver : receiver_pc}
    (hrecv : Written s._recvBuffer receiver.writing s.receives) :
    Inv { s with _socketRecvBuffer := buffer, receiver := receiver } :=
  ⟨h.send, hrecv, h.deaf, h.handled, h.received, h.sent, h.sender⟩

/-- The receive thread makes an access to the ring. -/
theorem Inv.of_receiver_write (h : Inv s) {k : write_pc} {receiver : receiver_pc}
    {receives : List (Nat × Bool)}
    (hrecv : Written (write_access s._recvBuffer k).1 receiver.writing receives) :
    Inv { s.set_recvBuffer (write_access s._recvBuffer k).1 with
      receiver := receiver, receives := receives } where
  send := h.send
  recv := hrecv
  deaf := by
    obtain ⟨hindex, hlength⟩ := write_access_keeps s._recvBuffer k
    refine ⟨hindex.trans h.deaf.readIndex, ?_, h.deaf.head⟩
    exact Nat.le_trans h.deaf.buffer (Nat.le_of_eq hlength.symm)
  handled := h.handled
  received := h.received
  sent := h.sent
  sender := h.sender

/-- **A step of the receive thread.** -/
theorem Inv.step_receiver (h : Inv s) {bytes : Option (List UInt8)} {s' : socket_threads σ}
    (hs : s.step_receiver bytes = some s') : Inv s' := by
  have hrecv := h.recv
  unfold socket_threads.step_receiver at hs
  dsimp only at hs
  split at hs
  · cases hs
    exact h
  · next hreceiver =>
    rw [hreceiver] at hrecv
    cases hs
    split
    · exact h
    · exact h.of_receiver hrecv
  · next hreceiver =>
    rw [hreceiver] at hrecv
    split at hs
    · cases hs
      exact h.of_receiver hrecv
    · next bytes =>
      split at hs
      · cases hs
        -- what has been received is at the front of the buffer
        refine h.of_receiver (hrecv.call (fits_full ?_))
        refine Nat.le_trans (toNatClampNeg_ofNat_le _) ?_
        rw [List.length_append]
        exact Nat.le_add_right _ _
      · cases hs
  · next k hreceiver =>
    rw [hreceiver] at hrecv
    obtain ⟨hgoes, hreturns⟩ := hrecv.access
    split at hs
    · next k' hk' =>
      cases hs
      exact h.of_receiver_write (hgoes k' hk')
    · next result hresult =>
      cases hs
      exact h.of_receiver_write (hreturns result hresult)

/-- **A call of `Recv`** looks at the ring in vain. -/
theorem Inv.recv_call (h : Inv s) (A : Allocator σ) {handler : Bool} {s' : socket_threads σ}
    (hs : s.exec A (.Recv handler) = some s') : Inv s' := by
  obtain ⟨head, hrun, hlength⟩ := SocketClient.exec_Recv A handler h.deaf
  unfold socket_threads.exec at hs
  dsimp only at hs
  split at hs
  · rw [hrun] at hs
    cases hs
    refine ⟨h.send, h.recv, ⟨h.deaf.readIndex, h.deaf.buffer, hlength⟩, h.handled, ?_, h.sent,
      h.sender⟩
    intro r hr
    rcases List.mem_append.mp hr with hold | hnew
    · exact h.received r hold
    · exact List.mem_singleton.mp hnew
  · cases hs

/-- **One step.** -/
theorem Inv.exec (h : Inv s) (A : Allocator σ) {l : client_step σ} {s' : socket_threads σ}
    (hs : s.exec A l = some s') : Inv s' := by
  cases l with
  | Send data len =>
    have hsend := h.send
    simp only [socket_threads.exec] at hs
    split at hs
    · next hmain =>
      rw [hmain] at hsend
      cases hs
      exact h.of_main rfl hsend
    · cases hs
  | Recv handler => exact h.recv_call A hs
  | startThread =>
    cases hs
    refine ⟨h.send, ?_, h.deaf, h.handled, h.received, h.sent, ?_⟩
    · show Written s._recvBuffer s.receiver.started.writing s.receives
      rw [receiver_pc.writing_started]
      exact h.recv
    · intro readAll data hstarted
      exact h.sender readAll data (sender_pc.send_of_started hstarted)
  | main =>
    cases hs
    exact h.step_main A
  | send_thread connected =>
    cases hs
    exact h.step_sender A connected
  | recv_thread bytes => exact h.step_receiver hs
  | pool pool =>
    cases hs
    exact ⟨h.send, h.recv, h.deaf, h.handled, h.received, h.sent, h.sender⟩

/-- A ring that nothing has been written to. -/
theorem written_make (capacity : Int32) (hpos : 0 < capacity.toNatClampNeg) :
    Written (.make capacity) none [] where
  small := by
    show (List.replicate capacity.toNatClampNeg (0 : UInt8)).length < 2 ^ 31
    rw [List.length_replicate]
    exact capacity.toNatClampNeg_lt
  lawful := lawful_nil _
  fits := nofun
  index := by
    refine .inl ⟨?_, rfl⟩
    show 0 < (List.replicate capacity.toNatClampNeg (0 : UInt8)).length
    rw [List.length_replicate]
    exact hpos

theorem inv_start (cmds : Option (List UInt16)) (set : Bool) {send_capacity recv_capacity : Int32}
    (hsend : 0 < send_capacity)
    (hrecv : TcpContentHead.HEAD_SIZE ≤ recv_capacity.toNatClampNeg) (pool : σ) :
    Inv (start cmds set send_capacity recv_capacity pool) where
  send := by
    refine written_make send_capacity ?_
    rw [Int32.lt_iff_toInt_lt, Int32.toInt_zero] at hsend
    rw [Int32.toNatClampNeg]
    omega
  recv := written_make recv_capacity (Nat.lt_of_lt_of_le (by decide) hrecv)
  deaf := by
    refine ⟨rfl, ?_, rfl⟩
    show _ ≤ (List.replicate recv_capacity.toNatClampNeg (0 : UInt8)).length
    rw [List.length_replicate]
    exact hrecv
  handled := rfl
  received := nofun
  sent := rfl
  sender := nofun

theorem inv_of_reachable {A : Allocator σ} (hr : (system A).Reachable s) : Inv s := by
  refine System.invariant ?_ ?_ s hr
  · rintro _ ⟨cmds, set, send_capacity, recv_capacity, pool, hsend, hrecv, rfl⟩
    exact inv_start cmds set hsend hrecv pool
  · intro s l s' h hs
    exact h.exec A hs

/-- **What becomes of the bytes.** Nothing is sent and nothing is handed over, and each ring
    takes writes, in whatever order the steps come, as long as the sums of `moved` stay
    below its size, and none of a byte or more from then on. -/
theorem lost_of_reachable {A : Allocator σ} (hr : (system A).Reachable s) :
    s.sent = [] ∧ (∀ r ∈ s.received, r = .ok false) ∧ s.state.client.handled = [] ∧
      Lawful s._sendBuffer._buffer.length s.sends ∧
      Lawful s._recvBuffer._buffer.length s.receives := by
  have h := inv_of_reachable hr
  exact ⟨h.sent, h.received, h.handled, h.send.lawful, h.recv.lawful⟩

/-- Two frames of twelve bytes for a ring of a hundred, three bytes from the socket, and a
    send thread that begins to read while the second frame is being written. -/
def two_frames : List (client_step Nat) :=
  [.startThread, .Send [0x61] 0] ++ List.replicate 30 .main ++
    List.replicate 3 (.send_thread true) ++ [.Send [0x62] 0] ++ List.replicate 20 .main ++
    List.replicate 33 (.send_thread true) ++ List.replicate 2 .main ++
    [.recv_thread none, .recv_thread (some [1, 2, 3])] ++ List.replicate 9 (.recv_thread none) ++
    [.Recv true]

theorem lost_two_frames :
    ∃ s, two_frames.foldlM (exec Allocator.new_arrays) (start none true 100 100 0) = some s ∧
      s.sends = [(12, true), (12, false)] ∧ s.receives = [(3, true)] ∧
      s.sent = [] ∧ (∀ r ∈ s.received, r = .ok false) ∧ s.state.client.handled = [] ∧
      Lawful s._sendBuffer._buffer.length s.sends ∧
      Lawful s._recvBuffer._buffer.length s.receives := by
  have hrun : (two_frames.foldlM (exec Allocator.new_arrays) (start none true 100 100 0)).map
      (fun s => (s.sends, s.receives)) = some ([(12, true), (12, false)], [(3, true)]) := by
    decide +kernel
  obtain ⟨s, hs, hlogs⟩ := Option.map_eq_some_iff.mp hrun
  obtain ⟨hsends, hreceives⟩ := Prod.mk.inj hlogs
  refine ⟨s, hs, hsends, hreceives, ?_⟩
  have hinit : ((system Allocator.new_arrays).restrict fun _ _ => True).Reachable
      (start none true 100 100 0) :=
    .init ⟨none, true, 100, 100, 0, by decide, by decide, rfl⟩
  exact lost_of_reachable (hinit.of_foldlM _ (fun _ _ _ => trivial) hs).of_restrict

end socket_threads

/-! ### With the source's pool

    The first use of `BlockPool.Instance` throws and every later one waits for ever, so no
    call of `Send` gets as far as the ring.
-/

namespace BlockPool

/-- Whoever uses the pool throws or waits. -/
def Unusable (pool : statics) : Prop := pool = .initial ∨ pool._flag = 1

theorem Unusable.instance {pool : statics} (h : Unusable pool) :
    ∃ e pool', exec Instance pool = (.error e, pool') ∧ Unusable pool' := by
  rcases h with rfl | hflag
  · exact ⟨_, _, exec_Instance_initial, .inr rfl⟩
  · exact ⟨_, _, exec_Instance_again hflag, .inr hflag⟩

end BlockPool

namespace SocketClient

theorem Alloc_of_unusable (client : SocketClient) {pool : BlockPool.statics}
    (h : BlockPool.Unusable pool) (size : Int32) :
    ∃ e s', exec (on_pool (BlockPool.allocator.Alloc size)) ⟨client, pool⟩ = (.error e, s') ∧
      BlockPool.Unusable s'.pool := by
  obtain ⟨e, pool', hrun, hpool'⟩ := h.instance
  have halloc : exec (BlockPool.allocator.Alloc size) pool = (.error e, pool') :=
    exec_bind_of_error hrun _
  refine ⟨e, ⟨client, pool'⟩, ?_, hpool'⟩
  unfold on_pool
  rw [exec_zoom, halloc]

/-- `WrapSendData` asks the pool for its array. -/
theorem WrapSendData_of_unusable {s : client_state BlockPool.statics}
    (h : BlockPool.Unusable s.pool) (data : List UInt8) (len : Int32) :
    ∃ e s', exec (WrapSendData BlockPool.allocator data len) s = (.error e, s') ∧
      BlockPool.Unusable s'.pool := by
  unfold WrapSendData
  rw [exec_get_bind, exec_set_bind]
  refine exec_bind_stops (P := fun s' : client_state BlockPool.statics =>
    BlockPool.Unusable s'.pool) ?_ _
  exact Alloc_of_unusable _ h _

end SocketClient

namespace socket_threads

/-- Others use the pool as its class lets them. -/
def UsesPool (s : socket_threads BlockPool.statics) : client_step BlockPool.statics → Prop
  | .pool pool =>
    (∃ size, pool = (Exec.exec (BlockPool.instance_Alloc size) s.state.pool).2) ∨
      ∃ data, pool = (Exec.exec (BlockPool.instance_Free data) s.state.pool).2
  | _ => True

/-- No call of `Send` has got past `WrapSendData`. -/
structure Unsent (capacity : Int32) (s : socket_threads BlockPool.statics) : Prop where
  pool : BlockPool.Unusable s.state.pool
  ring : s._sendBuffer = .make capacity
  main : s.main = .idle ∨ s.main = .spins ∨ (∃ data len, s.main = .full data len) ∨
    ∃ data len, s.main = .wrap data len
  sender : s.sender = .none ∨ s.sender = .empty
  sends : s.sends = []

variable {capacity : Int32} {s s' : socket_threads BlockPool.statics}

theorem Unsent.of_throws (h : Unsent capacity s) {state : client_state BlockPool.statics}
    (hpool : BlockPool.Unusable state.pool) (hring : state.client._sendBuffer = .make capacity)
    (e : stop) : Unsent capacity (throws { s with state := state } e) := by
  cases e with
  | spins => exact ⟨hpool, hring, .inr (.inl rfl), h.sender, h.sends⟩
  | _ => exact ⟨hpool, hring, .inl rfl, h.sender, h.sends⟩

theorem Unsent.step_main (h : Unsent capacity s) :
    Unsent capacity (s.step_main BlockPool.allocator) := by
  unfold socket_threads.step_main
  dsimp only
  rcases h.main with hmain | hmain | ⟨data, len, hmain⟩ | ⟨data, len, hmain⟩
  · rw [hmain]
    exact h
  · rw [hmain]
    exact h
  · rw [hmain]
    dsimp only
    split
    · exact h
    · exact ⟨h.pool, h.ring, .inr (.inr (.inr ⟨data, len, rfl⟩)), h.sender, h.sends⟩
  · rw [hmain]
    dsimp only
    -- the array is asked for, and the call ends or waits there
    obtain ⟨e, state, hrun, hpool⟩ := SocketClient.WrapSendData_of_unusable h.pool data len
    obtain ⟨seq, head, hclient⟩ :=
      SocketClient.WrapSendData_client BlockPool.allocator data len s.state
    rw [hrun] at hclient ⊢
    refine h.of_throws hpool ?_ e
    rw [hclient]
    exact h.ring

theorem Unsent.step_sender (h : Unsent capacity s) (connected : Bool) :
    Unsent capacity (s.step_sender BlockPool.allocator connected) := by
  unfold socket_threads.step_sender
  dsimp only
  rcases h.sender with hsender | hsender
  · rw [hsender]
    exact h
  · rw [hsender]
    dsimp only
    rw [h.ring, Empty_make]
    exact h

/-- The receive thread has a ring of its own and asks nobody for arrays. -/
theorem Unsent.step_receiver (h : Unsent capacity s) {bytes : Option (List UInt8)}
    (hs : s.step_receiver bytes = some s') : Unsent capacity s' := by
  unfold socket_threads.step_receiver at hs
  dsimp only at hs
  split at hs
  · cases hs
    exact h
  · cases hs
    split
    · exact h
    · exact ⟨h.pool, h.ring, h.main, h.sender, h.sends⟩
  · split at hs
    · cases hs
      exact ⟨h.pool, h.ring, h.main, h.sender, h.sends⟩
    · split at hs
      · cases hs
        exact ⟨h.pool, h.ring, h.main, h.sender, h.sends⟩
      · cases hs
  · split at hs
    · cases hs
      exact ⟨h.pool, h.ring, h.main, h.sender, h.sends⟩
    · cases hs
      exact ⟨h.pool, h.ring, h.main, h.sender, h.sends⟩

theorem Unsent.exec (h : Unsent capacity s) (hdeaf : SocketClient.Deaf s.state.client)
    {l : client_step BlockPool.statics} (huses : UsesPool s l)
    (hs : s.exec BlockPool.allocator l = some s') : Unsent capacity s' := by
  cases l with
  | Send data len =>
    simp only [socket_threads.exec] at hs
    split at hs
    · cases hs
      exact ⟨h.pool, h.ring, .inr (.inr (.inl ⟨data, len, rfl⟩)), h.sender, h.sends⟩
    · cases hs
  | Recv handler =>
    obtain ⟨head, hrun, -⟩ := SocketClient.exec_Recv BlockPool.allocator handler hdeaf
    unfold socket_threads.exec at hs
    dsimp only at hs
    split at hs
    · next hmain =>
      rw [hrun] at hs
      cases hs
      exact ⟨h.pool, h.ring, h.main, h.sender, h.sends⟩
    · cases hs
  | startThread =>
    cases hs
    refine ⟨h.pool, h.ring, h.main, .inr ?_, h.sends⟩
    show s.sender.started = .empty
    rcases h.sender with hsender | hsender
    · rw [hsender]
      rfl
    · rw [hsender]
      rfl
  | main =>
    cases hs
    exact h.step_main
  | send_thread connected =>
    cases hs
    exact h.step_sender connected
  | recv_thread bytes => exact h.step_receiver hs
  | pool pool =>
    cases hs
    refine ⟨?_, h.ring, h.main, h.sender, h.sends⟩
    obtain ⟨e, pool', hrun, hpool'⟩ := h.pool.instance
    rcases huses with ⟨size, rfl⟩ | ⟨data, rfl⟩
    · show BlockPool.Unusable (Exec.exec (BlockPool.instance_Alloc size) s.state.pool).2
      unfold BlockPool.instance_Alloc
      rw [exec_bind_of_error hrun]
      exact hpool'
    · show BlockPool.Unusable (Exec.exec (BlockPool.instance_Free data) s.state.pool).2
      unfold BlockPool.instance_Free
      rw [exec_bind_of_error hrun]
      exact hpool'

/-- **The client with its own pool** never writes to its send ring. -/
theorem unsent_of_reachable (cmds : Option (List UInt16)) (set : Bool)
    {send_capacity recv_capacity : Int32} (hsend : 0 < send_capacity)
    (hrecv : TcpContentHead.HEAD_SIZE ≤ recv_capacity.toNatClampNeg)
    (hr : (((system BlockPool.allocator).startingAt (start cmds set send_capacity recv_capacity
      BlockPool.statics.initial)).restrict UsesPool).Reachable s) :
    s.sends = [] ∧ s._sendBuffer = .make send_capacity := by
  have hboth : Inv s ∧ Unsent send_capacity s := by
    refine @System.invariant _ _ _ (fun s => Inv s ∧ Unsent send_capacity s) ?_ ?_ s hr
    · rintro _ rfl
      exact ⟨inv_start cmds set hsend hrecv BlockPool.statics.initial,
        .inl rfl, rfl, .inl rfl, .inl rfl, rfl⟩
    · -- that `Recv` looks in vain is in the first part
      rintro s l s' ⟨hinv, h⟩ ⟨huses, hs⟩
      exact ⟨hinv.exec BlockPool.allocator hs, h.exec hinv.deaf huses hs⟩
  exact ⟨hboth.2.sends, hboth.2.ring⟩

end socket_threads

end AsioNet.CsNetwork
