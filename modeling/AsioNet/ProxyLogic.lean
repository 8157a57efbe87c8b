import AsioNet.ProxyManager

/-! # The proxy's logics at work (`default_session_logic.cpp`, `client_session_logic.cpp`,
    `server_session_logic.cpp`)

    The methods of the three logics that reach beyond their own session, and the
    interface through which the receive loop of session `i` runs them on the
    proxy's state. A fault in one of them is a fault of the proxy; it is kept in
    the state.
-/

namespace AsioNet

open ByteMemory reusabel_buffer proto_mask

/-! ### `default_session_logic` -/

namespace default_session_logic

/-- `_server_info` as `verify_authentication` fills it in. -/
def set_server_info (l : default_session_logic) (aaa_request : authentication_aaa_request) :
    default_session_logic :=
  { l with
    _server_info := {
      area_id_ := aaa_request.area_id
      server_id_ := aaa_request.server_id
      platform_ := aaa_request.platform
      link_type_ := aaa_request.link_type } }

def echo_authentication_res (z : zlib) (stale : recycled) (w : proxy_manager) (i : session_sptr)
    (l : default_session_logic) (ec : TransferError) : Checked proxy_manager := do
  let send_buffer ← l.pack_authentication_res (stale 0) ec
  w.async_send z (stale 1) i send_buffer

/-- The question `verify_authentication` puts to the proxy. -/
def ask_proxy (stale : recycled) (w : proxy_manager) (i : session_sptr)
    (aaa_request : authentication_aaa_request) :
    Checked (Bool × Option session_uid × proxy_manager) :=
  w.verify_authentication (stale 2) aaa_request.link_type
    (cal_server_uid aaa_request.area_id aaa_request.server_id aaa_request.platform) i
    (w.sessions i)._uuid (w.sessions i).remote_ip

/-- Keep the logic's fields. If the session has got another logic meanwhile, they
    are those of an object that went back to its pool. -/
def store_logic (w : proxy_manager) (i : session_sptr) (l : default_session_logic) :
    proxy_manager :=
  match (w.sessions i)._logic with
  | .default_session _ => w.set_logic i (.default_session l)
  | _ => w

def verify_authentication (z : zlib) (stale : recycled) (w : proxy_manager) (i : session_sptr)
    (l : default_session_logic) (tmp_buffer : once_buffer) (cmd : UInt16) :
    Checked proxy_manager := do
  let aaa_request ← authentication_aaa_request.unpack tmp_buffer (tmp_buffer.buffer 0)
    (UInt16.ofNat tmp_buffer.length)
  let l := l.set_server_info aaa_request
  let w := w.set_logic i (.default_session l)
  let (verified, target_uid, w) ←
    if cmd ≠ protocol_cmd.Commands_AuthenticationAAA.val then pure (false, none, w)
    else ask_proxy stale w i aaa_request
  -- the proxy may have stored through the pointer to `_target_uid`
  let l := { l with _target_uid := target_uid.getD l._target_uid }
  if verified then
    let l := { l with _authentication := .VERIFY_SUCC }
    -- `async_send` wraps with the logic the session holds now
    echo_authentication_res z stale (store_logic w i l) i l .EC_Success
  else
    let l := { l with _authentication := .VERIFY_FAILED }
    echo_authentication_res z stale (store_logic w i l) i l .EC_ServerNotFound

def unwrap_received_data (z : zlib) (stale : recycled) (w : proxy_manager) (i : session_sptr)
    (l : default_session_logic) (buffer : once_buffer) (head : protocol_head)
    (ret_block : once_buffer) : Checked (unwrapped proxy_manager) := do
  let l := { l with _seq := l._seq + 1 }
  let w := w.set_logic i (.default_session l)
  if head.seq ≠ l._seq then
    pure ⟨false, w, buffer, ret_block⟩
  else
    let body ← buffer.load (buffer.buffer 0) head.len.toNat
    if 0 ≠ get_mask head.bytes body then
      pure ⟨false, w, buffer, ret_block⟩
    else if l._authentication = .BEFORE_VERIFY then
      let w ← verify_authentication z stale w i l buffer head.get_cmd
      pure ⟨false, w, buffer, ret_block⟩
    else
      pure ⟨false, w, buffer, ret_block⟩

end default_session_logic

/-! ### `client_session_logic` -/

namespace client_session_logic

def try_copy_to_storage (z : zlib) (stale : recycled) (w : proxy_manager) (i : session_sptr)
    (l : client_session_logic) (data : once_buffer) : Checked (Bool × proxy_manager) := do
  let data ← data.store (data.origin_buffer PROTO_HEAD_SIZE) (write_uint32 (w.sessions i)._uuid)
  -- the length stays as it was
  let data := { data with offset := size_t_sub data.offset SIZEOF_SESSION_UID }
  let w ← w.send_to_server z (stale 0) l._target_uid data
  pure (true, w)

/-- The two buffers `kick_peer` sends. -/
def pack_kick (l : client_session_logic) (stale : recycled) (uuid : session_uid) :
    Checked (tiny_buffer × once_buffer) := do
  let head_buffer := TINY_BUFFER (stale 0)
  let data_block := TEMP_BUFFER (stale 1)
  let data_block ← data_block.store (data_block.buffer 0) (write_uint32 uuid)
  let data_block := data_block.resize SIZEOF_SESSION_UID
  -- announces no body
  let head := protocol_head.get_a_head FRAME_KEY 0 0 protocol_cmd.Commands_Kick.val false l._seq
  let data ← data_block.load (data_block.buffer 0) data_block.length
  let head_buffer ← head_buffer.store (head_buffer.origin_buffer 0) (masked_head head data).bytes
  pure (head_buffer, data_block)

/-- The head is copied to the head buffer, whose length stays `0`. -/
theorem pack_kick_spec (l : client_session_logic) (stale : recycled) (uuid : session_uid) :
    ∃ head_buffer data_block, l.pack_kick stale uuid = .ok (head_buffer, data_block) ∧
      head_buffer.offset = 0 ∧ head_buffer.length = 0 ∧ data_block.offset = 0 ∧
      data_block.length = 4 ∧ data_block.content = write_uint32 uuid := by
  have huid := length_write_uint32 uuid
  have hsize : ONCE_BUFFER_SIZE = 65536 := rfl
  rw [pack_kick]
  simp only [TEMP_BUFFER, TINY_BUFFER]
  rw [buffer_zero_of_eq (n := 0) rfl (Nat.zero_le _), store_of_le _ (by omega), ok_bind]
  simp only [resize, SIZEOF_SESSION_UID, origin_buffer_eq]
  rw [buffer_zero_of_eq (n := 0) rfl (Nat.zero_le _), load_of_le _ (by omega), ok_bind,
    store_of_le _ (by rw [protocol_head.length_bytes]; decide), ok_bind, pure_eq_ok]
  exact ⟨_, _, rfl, rfl, rfl, rfl, rfl, read_write_of_length (stale 1) 0 4 _ huid⟩

def kick_peer (stale : recycled) (w : proxy_manager) (i : session_sptr)
    (l : client_session_logic) : Checked proxy_manager := do
  let (head_buffer, data_block) ← l.pack_kick stale (w.sessions i)._uuid
  w.send_to_server_multi l._target_uid head_buffer data_block

end client_session_logic

/-! ### `server_session_logic` -/

namespace server_session_logic

/-- The head buffer the relay of a broadcast builds for every target. -/
def pack_broadcast_head (l : server_session_logic) (stale : Nat → UInt8)
    (mutable_buffer : once_buffer) : Checked tiny_buffer := do
  let head_buffer := TINY_BUFFER stale
  let new_head := l.head_to_send .Commands_RoutingTransparent mutable_buffer.length
  let data ← mutable_buffer.load (mutable_buffer.buffer 0) mutable_buffer.length
  head_buffer.store (head_buffer.buffer 0) (masked_head new_head data).bytes

/-- Neither the head buffer nor the message it announces has a length. -/
theorem pack_broadcast_head_spec (l : server_session_logic) (stale : Nat → UInt8)
    {mutable_buffer : once_buffer} (hoff : mutable_buffer.offset = 0)
    (hlen : mutable_buffer.length = 0) :
    ∃ head_buffer, l.pack_broadcast_head stale mutable_buffer = .ok head_buffer ∧
      head_buffer.offset = 0 ∧ head_buffer.length = 0 := by
  rw [pack_broadcast_head]
  simp only [TINY_BUFFER, hlen]
  rw [buffer_zero_of_eq hoff (Nat.zero_le _), load_of_le _ (Nat.zero_le _), ok_bind,
    buffer_zero_of_eq (n := 0) rfl (Nat.zero_le _),
    store_of_le _ (by rw [protocol_head.length_bytes]; decide)]
  exact ⟨_, rfl, rfl, rfl⟩

/-- One round of the relay's loop. -/
def relay_to_target (stale : recycled) (l : server_session_logic) (data mutable_buffer : once_buffer)
    (w : proxy_manager) (i : Nat) : Checked proxy_manager := do
  let uid ← data.load (data.buffer (2 + i * 4)) 4
  let head_buffer ← l.pack_broadcast_head (stale (i + 1)) mutable_buffer
  w.send_to_client_multi (read_uint32 uid) head_buffer mutable_buffer

def try_copy_to_storage (z : zlib) (stale : recycled) (w : proxy_manager)
    (l : server_session_logic) (data : once_buffer) (head : protocol_head) :
    Checked (Bool × proxy_manager) := do
  if head.get_cmd = protocol_cmd.Commands_BroadCast.val then
    let count ← data.load (data.buffer 0) 2
    let size := (read_uint16 count).toNat
    let mutable_buffer := TEMP_BUFFER (stale 0)
    let rest ← data.load (data.buffer (2 + 4 * size)) (size_t_sub data.length (2 + 4 * size))
    -- the payload is copied, but the length of the copy is never set
    let mutable_buffer ← mutable_buffer.store (mutable_buffer.buffer 0) rest
    let w ← (List.range size).foldlM (relay_to_target stale l data mutable_buffer) w
    pure (true, w)
  else
    let target_client_uid ← data.load (data.buffer 0) 4
    let data := { data with
      offset := size_t_add data.offset SIZEOF_SESSION_UID
      length := size_t_sub data.length SIZEOF_SESSION_UID }
    let w ← w.send_to_client z (stale 0) (read_uint32 target_client_uid) data
    pure (true, w)

end server_session_logic

/-! ### The logic a session holds -/

namespace proxy_manager

def unwrap_received_data (z : zlib) (stale : recycled) (w : proxy_manager) (i : session_sptr)
    (buffer : once_buffer) (head : protocol_head) (ret_block : once_buffer) :
    Checked (unwrapped proxy_manager) :=
  match (w.sessions i)._logic with
  | .default_session l => l.unwrap_received_data z stale w i buffer head ret_block
  | .client_session l => do
    let r ← l.unwrap_received_data z buffer head ret_block
    pure ⟨r.accepted, w.set_logic i (.client_session r.state), r.buffer, r.ret_block⟩
  | .server_session l => do
    let r ← l.unwrap_received_data buffer head ret_block
    pure ⟨r.accepted, w.set_logic i (.server_session r.state), r.buffer, r.ret_block⟩

def try_copy_to_storage (z : zlib) (stale : recycled) (w : proxy_manager) (i : session_sptr)
    (data : once_buffer) (head : protocol_head) : Checked (Bool × proxy_manager) :=
  match (w.sessions i)._logic with
  | .default_session _ => pure (true, w)
  | .client_session l => l.try_copy_to_storage z stale w i data
  | .server_session l => l.try_copy_to_storage z stale w data head

end proxy_manager

end AsioNet
