import AsioNet.ClientSessionLogic

/-! # The logic of a game server's session (`server_session_logic.cpp`)

    Between proxy and game server nothing is encrypted or compressed.
-/

namespace AsioNet

open ByteMemory reusabel_buffer proto_mask

structure server_session_logic where
  _seq : UInt32
  _server_info : server_info

namespace server_session_logic

def get_session_type (l : server_session_logic) : SessionType := l._server_info.link_type_

def get_server_id (l : server_session_logic) : server_id :=
  cal_server_uid l._server_info.area_id_ l._server_info.server_id_ l._server_info.platform_

def prefix_size (_l : server_session_logic) : Nat := PROTO_HEAD_SIZE - SIZEOF_SESSION_UID

def unwrap_received_data (l : server_session_logic) (buffer : once_buffer)
    (head : protocol_head) (ret_block : once_buffer) :
    Checked (unwrapped server_session_logic) := do
  let l := { l with _seq := l._seq + 1 }
  if head.seq ≠ l._seq then
    pure ⟨false, l, buffer, ret_block⟩
  else
    let body ← buffer.load (buffer.buffer 0) head.len.toNat
    if 0 ≠ get_mask head.bytes body then
      pure ⟨false, l, buffer, ret_block⟩
    else if head.len = 0 then
      pure ⟨false, l, buffer, ret_block⟩
    else
      let ret_block ← ret_block.store (ret_block.buffer 0) body
      pure ⟨true, l, buffer, ret_block.resize head.len.toNat⟩

/-- The head of all frames this logic builds around `length` bytes. -/
def head_to_send (l : server_session_logic) (cmd : protocol_cmd) (length : Nat) : protocol_head :=
  protocol_head.get_a_head FRAME_KEY (UInt16.ofNat length) 0 cmd.val false l._seq

def wrap_to_send_data (l : server_session_logic) (buffer : once_buffer) : Checked once_buffer := do
  let buffer ← write_head (l.head_to_send .Commands_RoutingTransparent buffer.length)
    buffer.length buffer
  if buffer.offset ≠ 0 then
    throw .assertion_failed
  else
    pure buffer

/-- The buffer `send_confirm_connect` gives to `async_send_multi`. -/
def pack_confirm_connect (l : server_session_logic) (stale : Nat → UInt8)
    (client_id : session_uid) (ip : UInt32) : Checked once_buffer := do
  let buffer := TEMP_BUFFER stale
  let (buffer, length) ← session_connect_confirm.pack buffer
    (buffer.origin_buffer (PROTO_HEAD_SIZE + SIZEOF_SESSION_UID)) ip
  let buffer := buffer.resize (length + PROTO_HEAD_SIZE + SIZEOF_SESSION_UID)
  let buffer ← buffer.store (buffer.origin_buffer PROTO_HEAD_SIZE) (write_uint32 client_id)
  -- `buffer->length` counts the head too
  let head := l.head_to_send .Commands_ConnectionConfirm buffer.length
  -- the mask covers the body only
  let body ← buffer.load (buffer.origin_buffer PROTO_HEAD_SIZE) (buffer.length - PROTO_HEAD_SIZE)
  buffer.store (buffer.origin_buffer 0) (masked_head head body).bytes

def inherit_logic (s : server_info) (seq : UInt32) : server_session_logic where
  _seq := seq
  _server_info := s

/-- A buffer with space for a head is framed as it is. -/
theorem wrap_to_send_data_eq (l : server_session_logic) {buffer : once_buffer}
    (hoff : buffer.offset = PROTO_HEAD_SIZE)
    (hfit : PROTO_HEAD_SIZE + buffer.length ≤ ONCE_BUFFER_SIZE) :
    l.wrap_to_send_data buffer =
      .ok (framed (l.head_to_send .Commands_RoutingTransparent buffer.length) buffer) := by
  rw [wrap_to_send_data, write_head_eq _ hoff hfit, ok_bind, if_neg (by simp), pure_eq_ok]

/-- The confirmation is a head and eight bytes; the head announces nineteen. -/
theorem pack_confirm_connect_spec (l : server_session_logic) (stale : Nat → UInt8)
    (client_id : session_uid) (ip : UInt32) :
    let body := write_uint32 client_id ++ write_uint32 ip
    ∃ b, l.pack_confirm_connect stale client_id ip = .ok b ∧ b.offset = 0 ∧ b.length = 19 ∧
      b.content = (masked_head (l.head_to_send .Commands_ConnectionConfirm 19) body).bytes ++
        body := by
  intro body
  have huid := length_write_uint32 client_id
  have hip := length_write_uint32 ip
  have hsize : ONCE_BUFFER_SIZE = 65536 := rfl
  have hhead : PROTO_HEAD_SIZE = 11 := rfl
  have hpos : PROTO_HEAD_SIZE + SIZEOF_SESSION_UID = 15 := rfl
  have hlen : 4 + PROTO_HEAD_SIZE + SIZEOF_SESSION_UID = 19 := rfl
  generalize hm : write (write stale 15 (write_uint32 ip)) 11 (write_uint32 client_id) = m
  -- uid and ip are adjacent, the head goes in front of them
  have hread : read m 11 8 = body := by
    rw [show (8 : Nat) = 4 + 4 from rfl, read_add, ← hm, read_write_of_length _ _ _ _ huid,
      read_write_of_disjoint _ _ _ _ _ (Or.inr (by omega)), read_write_of_length _ _ _ _ hip]
  rw [pack_confirm_connect]
  simp only [session_connect_confirm.pack, origin_buffer_eq, hpos, TEMP_BUFFER]
  rw [store_of_le _ (by omega), ok_bind, pure_eq_ok, ok_bind]
  simp only [resize, hlen]
  rw [hhead, store_of_le _ (by omega), ok_bind]
  simp only [hm]
  rw [load_of_le _ (by decide), ok_bind]
  simp only [Nat.reduceSub, hread]
  rw [store_of_le _ (by rw [protocol_head.length_bytes]; decide)]
  refine ⟨_, rfl, rfl, rfl, ?_⟩
  generalize hbytes : (masked_head (l.head_to_send .Commands_ConnectionConfirm 19) body).bytes =
    bytes
  have hbytes_len : bytes.length = 11 := by rw [← hbytes, protocol_head.length_bytes, hhead]
  calc read (write m 0 bytes) 0 (11 + 8)
      = bytes ++ read (write m 0 bytes) 11 8 := by
        rw [read_add, read_write_of_length _ _ _ _ hbytes_len]
    _ = bytes ++ body := by
        rw [read_write_of_disjoint _ _ _ _ _ (Or.inr (by omega)), hread]

/-- A verified frame with a body is copied to the output. -/
theorem unwrap_received_data_accepted {l : server_session_logic} {head : protocol_head}
    (buffer ret_block : once_buffer) {body : List UInt8} (hseq : head.seq = l._seq + 1)
    (hmask : get_mask head.bytes body = 0) (hlen : head.len.toNat = body.length)
    (hbody : buffer.load (buffer.buffer 0) body.length = .ok body) (hne : body ≠ [])
    (hfit : ret_block.offset + body.length ≤ ONCE_BUFFER_SIZE) :
    l.unwrap_received_data buffer head ret_block =
      .ok ⟨true, { l with _seq := l._seq + 1 }, buffer,
        { ret_block with
          length := body.length
          _buffer := write ret_block._buffer ret_block.offset body }⟩ := by
  have hzero : head.len ≠ 0 := by
    intro h
    rw [h, UInt16.toNat_zero] at hlen
    exact hne (List.length_eq_zero_iff.mp hlen.symm)
  simp only [unwrap_received_data, hseq, hlen, hbody, hmask, ne_eq, not_true_eq_false, if_false,
    ok_bind]
  rw [if_neg hzero, buffer_zero_of_eq rfl (by omega), store_of_le _ hfit, ok_bind]
  rfl

end server_session_logic

end AsioNet
