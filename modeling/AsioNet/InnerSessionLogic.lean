import AsioNet.ParallelCore.RingBuffer
import AsioNet.ProtoMask
import AsioNet.SessionLogic

/-! # The logic of an inner pair (`inner_session_logic.cpp`)

    Both ends of an inner connection run this logic: frames are neither
    encrypted nor numbered, and what arrives is stored, with its head, in the
    ring the consumer reads. When the ring is full the frame is refused.
-/

namespace AsioNet

open reusabel_buffer proto_mask

structure inner_session_logic where
  _storage : RingBuffer UInt8

namespace inner_session_logic

def prefix_size (_l : inner_session_logic) : Nat := PROTO_HEAD_SIZE

def unwrap_received_data (l : inner_session_logic) (buffer : once_buffer) (head : protocol_head)
    (ret_block : once_buffer) : Checked (unwrapped inner_session_logic) := do
  -- ignore seq
  let body ← buffer.load (buffer.buffer 0) head.len.toNat
  if 0 ≠ get_mask head.bytes body then
    pure ⟨false, l, buffer, ret_block⟩
  else if head.len = 0 then
    pure ⟨false, l, buffer, ret_block⟩
  else
    let ret_block ← ret_block.store (ret_block.buffer 0) body
    pure ⟨true, l, buffer, ret_block.resize head.len.toNat⟩

/-- The head around `length` bytes. -/
def head_to_send (_l : inner_session_logic) (length : Nat) : protocol_head :=
  protocol_head.get_a_head FRAME_KEY (UInt16.ofNat length) 0
    protocol_cmd.Commands_RoutingTransparent.val false 0

def wrap_to_send_data (l : inner_session_logic) (buffer : once_buffer) : Checked once_buffer :=
  -- a wrong offset is only logged
  write_head (l.head_to_send buffer.length) buffer.length buffer

def try_copy_to_storage (l : inner_session_logic) (data : once_buffer) (head : protocol_head) :
    Checked (Bool × inner_session_logic) := do
  if l._storage.full (PROTO_HEAD_SIZE + data.length) then
    pure (false, l)
  else
    -- head and body go into the ring one after the other
    let storage := (l._storage.tryWrite head.bytes).1
    let bytes ← data.load (data.buffer 0) data.length
    let storage := (storage.tryWrite bytes).1
    pure (true, { l with _storage := storage })

theorem unwrap_received_data_offset {l : inner_session_logic} {buffer ret_block : once_buffer}
    {head : protocol_head} {r : unwrapped inner_session_logic}
    (h : l.unwrap_received_data buffer head ret_block = .ok r) :
    r.buffer.offset = buffer.offset := by
  simp only [unwrap_received_data] at h
  obtain ⟨body, -, h⟩ := bind_eq_ok.mp h
  split at h
  · cases h; rfl
  split at h
  · cases h; rfl
  obtain ⟨ret, -, h⟩ := bind_eq_ok.mp h
  cases h; rfl

/-- A verified frame with a body is copied to the output. -/
theorem unwrap_received_data_accepted {l : inner_session_logic} {head : protocol_head}
    (buffer ret_block : once_buffer) {body : List UInt8}
    (hmask : get_mask head.bytes body = 0) (hlen : head.len.toNat = body.length)
    (hbody : buffer.load (buffer.buffer 0) body.length = .ok body) (hne : head.len ≠ 0)
    (hfit : ret_block.offset + body.length ≤ ONCE_BUFFER_SIZE) :
    l.unwrap_received_data buffer head ret_block =
      .ok ⟨true, l, buffer,
        { ret_block with
          length := body.length
          _buffer := ByteMemory.write ret_block._buffer ret_block.offset body }⟩ := by
  simp only [unwrap_received_data, hlen, hbody, hmask, ne_eq, not_true_eq_false, if_false, ok_bind]
  rw [if_neg hne, buffer_zero_of_eq rfl (by omega), store_of_le _ hfit, ok_bind]
  rfl

/-- The logic as the receive loop runs it; a fault is kept in the state. -/
def interface : session_logic_interface (Checked inner_session_logic) where
  prefix_size
    | .ok l => l.prefix_size
    | .error _ => 0
  unwrap_received_data _ s buffer head ret_block :=
    match s >>= fun l => l.unwrap_received_data buffer head ret_block with
    | .ok r => ⟨r.accepted, .ok r.state, r.buffer, r.ret_block⟩
    | .error e => ⟨false, .error e, buffer, ret_block⟩
  try_copy_to_storage _ s data head :=
    match s >>= fun l => l.try_copy_to_storage data head with
    | .ok copied => (copied.1, .ok copied.2)
    | .error e => (true, .error e)
  unwrap_offset_le stale s buffer head ret_block := by
    split
    · next r h =>
      obtain ⟨l, -, h⟩ := bind_eq_ok.mp h
      simp only [unwrap_received_data_offset h]
      exact Nat.le_add_right ..
    · exact Nat.le_add_right ..

/-- Nothing is stored in a full ring, so a refusal leaves the logic alone. -/
theorem try_copy_to_storage_refused {l : inner_session_logic} {data : once_buffer}
    {head : protocol_head} (h : l._storage.full (PROTO_HEAD_SIZE + data.length) = true) :
    l.try_copy_to_storage data head = .ok (false, l) := by
  rw [try_copy_to_storage, if_pos h]
  rfl

end inner_session_logic

end AsioNet
