import AsioNet.BasicAsyncSession

/-! # Receiving on a session (`basic_async_session.cpp`)

    `async_recv_loop` starts a read into the free tail of `_recv_not_entire`,
    whose handler picks the entire messages out of the buffer and starts the
    next read. When the storage refuses a message, a timer is started whose
    handler picks again.

    The state is generic in what the session's logic works on. Pooled buffers
    have an identity, so that a read and the buffer it was started for can be
    told apart from the buffer the session holds later.
-/

namespace AsioNet

/-- A pooled buffer behind a `shared_ptr`. -/
structure once_buffer_sptr where
  id : Nat
  buf : once_buffer

/-- The memory given to an outstanding `async_read_some`. -/
structure read_region where
  id : Nat
  start : Nat
  size : Nat
  deriving DecidableEq, Repr

/-- The part of a session that receives. -/
structure recv_session (σ : Type) where
  _state : StateSocket
  _recv_not_entire : Option once_buffer_sptr
  logic : σ
  /-- Number of buffers taken from the pool so far. -/
  taken : Nat
  /-- Outstanding reads on the socket. -/
  reads : List read_region
  /-- A wait on `_timer` is pending. -/
  timer_pending : Bool
  /-- Handlers of elapsed waits that have not run yet. -/
  timer_elapsed : Nat
  /-- Handlers of cancelled waits that have not run yet. -/
  timer_cancelled : Nat
  /-- The frames given to `unwrap_received_data`, in order. -/
  passed : List (protocol_head × List UInt8)

namespace recv_session

variable {σ : Type} (L : session_logic_interface σ) (pool : Nat → recycled)

/-- A session that has not received anything yet. -/
def initial (state : StateSocket) (logic : σ) : recv_session σ where
  _state := state
  _recv_not_entire := none
  logic := logic
  taken := 0
  reads := []
  timer_pending := false
  timer_elapsed := 0
  timer_cancelled := 0
  passed := []

/-- `TEMP_BUFFER`, as the session takes it. -/
def take_buffer (s : recv_session σ) : once_buffer_sptr × recv_session σ :=
  ({ id := s.taken, buf := TEMP_BUFFER (pool s.taken 0) }, { s with taken := s.taken + 1 })

/-- The region `async_recv_loop` offers for a read. -/
def read_target (recv : once_buffer_sptr) : read_region where
  id := recv.id
  start := recv.buf.buffer recv.buf.length
  size := size_t_sub recv.buf.available_capacity recv.buf.length

def async_recv_loop (s : recv_session σ) : recv_session σ :=
  if s._state ≠ .CONNECTING then s
  else
    match s._recv_not_entire with
    | some recv => { s with reads := s.reads ++ [read_target recv] }
    | none =>
      let (recv, s) := s.take_buffer pool
      { s with _recv_not_entire := some recv, reads := s.reads ++ [read_target recv] }

/-- `_timer.expires_from_now` cancels a pending wait, then a new one starts. -/
def start_timer (s : recv_session σ) : recv_session σ :=
  { s with
    timer_pending := true
    timer_cancelled := s.timer_cancelled + if s.timer_pending then 1 else 0 }

/-- Returns `true` if a message was picked, and the buffer `data_block`. -/
def pick_a_entire_msg (s : recv_session σ) (data_block : once_buffer) :
    Checked (Bool × recv_session σ × once_buffer) :=
  match s._recv_not_entire with
  | none => pure (false, s, data_block)
  | some recv =>
    if recv.buf.length < PROTO_HEAD_SIZE then pure (false, s, data_block)
    else do
      let head_block ← recv.buf.load (recv.buf.buffer 0) PROTO_HEAD_SIZE
      let head := protocol_head.unpack_head head_block
      if recv.buf.length - PROTO_HEAD_SIZE < head.len.toNat then
        pure (false, s, data_block)
      else
        let already_read := PROTO_HEAD_SIZE
        let msg ← recv.buf.load (recv.buf.buffer already_read) head.len.toNat
        let data_block ← data_block.store (data_block.buffer 0) msg
        let data_block := { data_block with length := head.len.toNat }
        let already_read := already_read + head.len.toNat
        let (copied, logic, data_block) := L.handle_msg (pool s.taken) s.logic head data_block
        let s := { s with
          logic := logic, taken := s.taken + 1, passed := s.passed ++ [(head, msg)] }
        if copied = false then
          -- refused: the frame stays in the buffer and is picked again later
          pure (false, s.start_timer, data_block)
        else
          -- what is left moves to the start of the buffer, or the buffer is released
          let length := recv.buf.length - already_read
          if length ≠ 0 then
            let rest ← recv.buf.load (recv.buf.buffer already_read) length
            let buf ← recv.buf.store (recv.buf.buffer 0) rest
            pure (true,
              { s with _recv_not_entire := some { recv with buf := { buf with length := length } } },
              data_block)
          else
            pure (true, { s with _recv_not_entire := none }, data_block)

/-- The loop `while (pick_a_entire_msg(head, tmp_buffer))`. -/
def pick_while : Nat → recv_session σ → once_buffer → Checked (recv_session σ)
  | 0, _, _ => throw .diverges
  | fuel + 1, s, tmp_buffer => do
    let (picked, s, tmp_buffer) ← pick_a_entire_msg L pool s tmp_buffer
    if picked then pick_while fuel s tmp_buffer else pure s

/-- A message takes bytes off the buffer, so its length bounds the rounds. -/
def rounds (s : recv_session σ) : Nat :=
  match s._recv_not_entire with
  | none => 1
  | some recv => recv.buf.length + 1

/-- The messages are picked; what follows is `async_recv_loop`. -/
def pick_loop (s : recv_session σ) : Checked (recv_session σ) :=
  let (tmp_buffer, s) := s.take_buffer pool
  pick_while L pool s.rounds s tmp_buffer.buf

def pick_entire_msgs (s : recv_session σ) : Checked (recv_session σ) := do
  let s ← s.pick_loop L pool
  pure (s.async_recv_loop pool)

/-- The kernel stores what it received; the buffer may no longer be the one the
    session holds. -/
def receive_bytes (s : recv_session σ) (region : read_region) (bytes : List UInt8) :
    recv_session σ :=
  match s._recv_not_entire with
  | none => s
  | some recv =>
    if recv.id = region.id then
      { s with _recv_not_entire := some { recv with
          buf := { recv.buf with
            _buffer := ByteMemory.write recv.buf._buffer region.start bytes } } }
    else s

/-- `_recv_not_entire->length += length` -/
def add_length (s : recv_session σ) (length : Nat) : Checked (recv_session σ) :=
  match s._recv_not_entire with
  | none => throw .null_pointer
  | some recv =>
    pure { s with _recv_not_entire := some { recv with
        buf := { recv.buf with length := recv.buf.length + length } } }

/-- A read into `region` completes with `bytes`, and its handler adds them to
    the buffer. -/
def received (s : recv_session σ) (region : read_region) (bytes : List UInt8) :
    Checked (recv_session σ) :=
  let s := { s with reads := s.reads.erase region }
  let s := s.receive_bytes region bytes
  s.add_length bytes.length

/-- The handler of a read that received `bytes` into `region`. -/
def on_read (s : recv_session σ) (region : read_region) (bytes : List UInt8) :
    Checked (recv_session σ) := do
  let s ← s.received region bytes
  s.pick_entire_msgs L pool

end recv_session

end AsioNet
