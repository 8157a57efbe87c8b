import AsioNet.BasicAsyncSession
import AsioNet.ParallelCore.RingBuffer
import AsioNet.ProtoMask

/-! # The game server's side (`active_server_session_logic.cpp`,
    `active_server_session_mgr.cpp`)

    A game server connects to the proxy with one session. Its application sends
    to clients by uid, one at a time or to many at once, and reads what clients
    send from a ring.
-/

namespace AsioNet

open reusabel_buffer proto_mask

structure active_server_session_logic where
  _authentication : AuthenticationState
  _seq : UInt32
  _storage : RingBuffer UInt8
  /-- `_sock_info_map` of the manager: the clients' addresses. -/
  _sock_info_map : session_uid → Option UInt32

namespace active_server_session_logic

def prefix_size (_l : active_server_session_logic) : Nat := PROTO_HEAD_SIZE + SIZEOF_SESSION_UID

/-- What a logic from the pool goes through. -/
def reset (l : active_server_session_logic) : active_server_session_logic :=
  { l with _seq := 0, _authentication := .BEFORE_VERIFY }

/-- The command of what is sent in the present state. -/
def cmd_to_send (l : active_server_session_logic) : protocol_cmd :=
  if l._authentication = .BEFORE_VERIFY then .Commands_AuthenticationAAA
  else .Commands_RoutingTransparent

/-- The head of the next frame, around `length` bytes. -/
def head_to_send (l : active_server_session_logic) (length : Nat) : protocol_head :=
  protocol_head.get_a_head FRAME_KEY (UInt16.ofNat length) 0 l.cmd_to_send.val false (l._seq + 1)

def wrap_to_send_data (l : active_server_session_logic) (buffer : once_buffer) :
    Checked (active_server_session_logic × once_buffer) := do
  -- a wrong offset is only logged
  let buffer ← write_head (l.head_to_send buffer.length) buffer.length buffer
  pure ({ l with _seq := l._seq + 1 }, buffer)

/-- A buffer with space for a head is framed as it is. -/
theorem wrap_to_send_data_eq (l : active_server_session_logic) {buffer : once_buffer}
    (hoff : buffer.offset = PROTO_HEAD_SIZE)
    (hfit : PROTO_HEAD_SIZE + buffer.length ≤ ONCE_BUFFER_SIZE) :
    l.wrap_to_send_data buffer =
      .ok ({ l with _seq := l._seq + 1 }, framed (l.head_to_send buffer.length) buffer) := by
  rw [wrap_to_send_data, write_head_eq _ hoff hfit, ok_bind, pure_eq_ok]

def check_verify_res (l : active_server_session_logic) (data : once_buffer) :
    Checked active_server_session_logic := do
  let aaa_res ← authentication_aaa_response.unpack data (data.buffer 0) (UInt16.ofNat data.length)
  -- the branches are this way round in the source
  if aaa_res.ec = TransferError.EC_Success.val then
    pure { l with _authentication := .VERIFY_FAILED }
  else
    pure { l with _authentication := .VERIFY_SUCC }

/-- Also moves the start of `data` behind the uid. -/
def remote_session_info_confirm (l : active_server_session_logic) (data : once_buffer) :
    Checked (active_server_session_logic × once_buffer) := do
  let s_id ← data.load (data.buffer 0) 4
  let data : once_buffer := { data with
    offset := size_t_add data.offset SIZEOF_SESSION_UID
    length := size_t_sub data.length SIZEOF_SESSION_UID }
  let confirm_msg ← session_connect_confirm.unpack data (data.buffer 0)
  pure ({ l with
    _sock_info_map := fun uid =>
      if uid = read_uint32 s_id then some confirm_msg.ip else l._sock_info_map uid }, data)

def unwrap_received_data (l : active_server_session_logic) (buffer : once_buffer)
    (head : protocol_head) (ret_block : once_buffer) :
    Checked (unwrapped active_server_session_logic) := do
  let body ← buffer.load (buffer.buffer 0) head.len.toNat
  if 0 ≠ get_mask head.bytes body then
    pure ⟨false, l, buffer, ret_block⟩
  else if head.len = 0 then
    pure ⟨false, l, buffer, ret_block⟩
  else if l._authentication = .BEFORE_VERIFY then
    -- the only frame expected now is the answer to the authentication
    let l ← l.check_verify_res buffer
    pure ⟨false, l, buffer, ret_block⟩
  else if head.get_cmd = protocol_cmd.Commands_ConnectionConfirm.val then
    let (l, buffer) ← l.remote_session_info_confirm buffer
    pure ⟨false, l, buffer, ret_block⟩
  else
    let ret_block ← ret_block.store (ret_block.buffer 0) body
    pure ⟨true, l, buffer, ret_block.resize head.len.toNat⟩

/-- A verified frame with a body is copied to the output, once the proxy has answered. -/
theorem unwrap_received_data_accepted {l : active_server_session_logic} {head : protocol_head}
    (buffer ret_block : once_buffer) {body : List UInt8}
    (hauth : l._authentication ≠ .BEFORE_VERIFY)
    (hcmd : head.get_cmd ≠ protocol_cmd.Commands_ConnectionConfirm.val)
    (hmask : get_mask head.bytes body = 0) (hlen : head.len.toNat = body.length)
    (hbody : buffer.load (buffer.buffer 0) body.length = .ok body) (hne : head.len ≠ 0)
    (hfit : ret_block.offset + body.length ≤ ONCE_BUFFER_SIZE) :
    l.unwrap_received_data buffer head ret_block =
      .ok ⟨true, l, buffer,
        { ret_block with
          length := body.length
          _buffer := ByteMemory.write ret_block._buffer ret_block.offset body }⟩ := by
  simp only [unwrap_received_data, hlen, hbody, hmask, ne_eq, not_true_eq_false, if_false, ok_bind]
  rw [if_neg hne, if_neg hauth, if_neg hcmd, buffer_zero_of_eq rfl (by omega),
    store_of_le _ hfit, ok_bind]
  rfl

def try_copy_to_storage (l : active_server_session_logic) (data : once_buffer)
    (head : protocol_head) : Checked (Bool × active_server_session_logic) := do
  -- id(4) + cmd(2) + length(2) + data
  let target_client_uid ← data.load (data.buffer 0) 4
  let data : once_buffer := { data with
    offset := size_t_add data.offset SIZEOF_SESSION_UID
    length := size_t_sub data.length SIZEOF_SESSION_UID }
  if l._storage.full (size_t_add 8 data.length) then
    pure (false, l)
  else
    -- there is room for all four writes, so none of them is refused
    let storage := (l._storage.tryWrite (write_uint32 (read_uint32 target_client_uid))).1
    let storage := (storage.tryWrite (write_uint16 head.get_cmd)).1
    let storage := (storage.tryWrite (write_uint16 (UInt16.ofNat data.length))).1
    let bytes ← data.load (data.buffer 0) data.length
    let storage := (storage.tryWrite bytes).1
    pure (true, { l with _storage := storage })

/-! ### The interface -/

/-- The answer of the proxy ends the time before it, and changes nothing else. -/
theorem check_verify_res_eq_ok {l l' : active_server_session_logic} {data : once_buffer}
    (h : l.check_verify_res data = .ok l') :
    ∃ authentication, authentication ≠ .BEFORE_VERIFY ∧
      l' = { l with _authentication := authentication } := by
  unfold check_verify_res at h
  obtain ⟨aaa_res, -, h⟩ := bind_eq_ok.mp h
  split at h
  · cases h
    exact ⟨.VERIFY_FAILED, nofun, rfl⟩
  · cases h
    exact ⟨.VERIFY_SUCC, nofun, rfl⟩

/-- A confirmation changes the clients' addresses, and takes the uid off the front. -/
theorem remote_session_info_confirm_eq_ok {l : active_server_session_logic} {data : once_buffer}
    {r : active_server_session_logic × once_buffer}
    (h : l.remote_session_info_confirm data = .ok r) :
    (∃ map, r.1 = { l with _sock_info_map := map }) ∧
      r.2.offset = size_t_add data.offset SIZEOF_SESSION_UID := by
  unfold remote_session_info_confirm at h
  obtain ⟨s_id, -, h⟩ := bind_eq_ok.mp h
  obtain ⟨confirm_msg, -, h⟩ := bind_eq_ok.mp h
  cases h
  exact ⟨⟨_, rfl⟩, rfl⟩

/-- Only a connection confirmation moves the start of the body, by a uid. -/
theorem unwrap_received_data_offset_le {l : active_server_session_logic}
    {buffer ret_block : once_buffer} {head : protocol_head}
    {r : unwrapped active_server_session_logic}
    (h : l.unwrap_received_data buffer head ret_block = .ok r) :
    r.buffer.offset ≤ buffer.offset + SIZEOF_SESSION_UID := by
  simp only [unwrap_received_data] at h
  obtain ⟨body, -, h⟩ := bind_eq_ok.mp h
  split at h
  · cases h; exact Nat.le_add_right ..
  split at h
  · cases h; exact Nat.le_add_right ..
  split at h
  · obtain ⟨l', -, h⟩ := bind_eq_ok.mp h
    cases h; exact Nat.le_add_right ..
  split at h
  · obtain ⟨r', hconfirm, h⟩ := bind_eq_ok.mp h
    cases h
    show r'.2.offset ≤ _
    rw [(remote_session_info_confirm_eq_ok hconfirm).2]
    exact Nat.mod_le _ _
  · obtain ⟨ret, -, h⟩ := bind_eq_ok.mp h
    cases h; exact Nat.le_add_right ..

/-- The logic as the receive loop runs it; a fault is kept in the state. -/
def interface : session_logic_interface (Checked active_server_session_logic) where
  prefix_size
    | .ok l => l.prefix_size
    | .error _ => 0
  unwrap_received_data _ s buffer head ret_block :=
    match s >>= fun l => l.unwrap_received_data buffer head ret_block with
    | .ok r => ⟨r.accepted, .ok r.state, r.buffer, r.ret_block⟩
    | .error e => ⟨false, .error e, buffer, ret_block⟩
  try_copy_to_storage _ s data head :=
    match s >>= fun l => l.try_copy_to_storage data head with
    | .ok copied => (copied.1, .ok copied.2)
    | .error e => (true, .error e)
  unwrap_offset_le stale s buffer head ret_block := by
    have hsize : SIZEOF_SESSION_UID ≤ PROTO_HEAD_SIZE := by decide
    split
    · next r h =>
      obtain ⟨l, -, h⟩ := bind_eq_ok.mp h
      have hoff := unwrap_received_data_offset_le h
      simp only
      omega
    · exact Nat.le_add_right ..

/-- The space kept in front of the data, then unwrapping, then storing. -/
theorem handle_msg_eq (stale : recycled) (l : active_server_session_logic) (head : protocol_head)
    (data_block : once_buffer) :
    (interface.handle_msg stale (.ok l) head data_block).2.1 = (do
      let unwrap_data := { TEMP_BUFFER (stale 0) with offset := l.prefix_size }
      let r ← l.unwrap_received_data data_block head unwrap_data
      if r.accepted = false then pure r.state
      else
        let copied ← r.state.try_copy_to_storage r.ret_block head
        pure copied.2) := by
  unfold session_logic_interface.handle_msg
  -- a fault on the way is the outcome, in the interface as in the equation
  cases hr : l.unwrap_received_data data_block head
      { TEMP_BUFFER (stale 0) with offset := l.prefix_size } with
  | error e => simp [interface, hr]
  | ok r =>
    cases hacc : r.accepted with
    | false => simp [interface, hr, hacc]
    | true =>
      cases hc : r.state.try_copy_to_storage r.ret_block head with
      | error e => simp [interface, hr, hacc, hc]
      | ok copied => simp [interface, hr, hacc, hc]

end active_server_session_logic

/-! ### What the session sends on its own -/

/-- `send_verify_authentication`; `_server_info` is the logic's. -/
def active_server_session_logic.send_verify_authentication (stale : Nat → UInt8)
    (_session : basic_async_session active_server_session_logic) (_server_info : server_info) :
    Checked (basic_async_session active_server_session_logic) := do
  let send_buffer : once_buffer := { TEMP_BUFFER stale with offset := PROTO_HEAD_SIZE }
  let (send_buffer, len) ← authentication_aaa_request.pack send_buffer (send_buffer.buffer 0)
    _server_info.area_id_ _server_info.server_id_ SessionType.ACTIVE_GAMESVR
    _server_info.platform_ (UInt16.ofNat _server_info.platform_.length)
  _session.async_send active_server_session_logic.wrap_to_send_data (send_buffer.resize len.toNat)

/-- `tick_alive` when it is time for a keep-alive frame. -/
def active_server_session_logic.tick_alive (stale : Nat → UInt8)
    (_session : basic_async_session active_server_session_logic) :
    Checked (basic_async_session active_server_session_logic) :=
  if _session._state ≠ .CONNECTING then pure _session
  else
    let empty_buffer : once_buffer := {
      TEMP_BUFFER stale with offset := PROTO_HEAD_SIZE, length := 0 }
    _session.async_send active_server_session_logic.wrap_to_send_data empty_buffer

/-! ### The manager -/

namespace active_server_session_mgr

/-- The buffer `send` gives to `async_send`. -/
def pack_send (stale : Nat → UInt8) (l : active_server_session_logic) (target_id : session_uid)
    (data_block : List UInt8) : Checked once_buffer := do
  let tmp_buffer : once_buffer := { TEMP_BUFFER stale with offset := l.prefix_size }
  let tmp_buffer ← tmp_buffer.store (tmp_buffer.buffer 0) data_block
  let tmp_buffer := tmp_buffer.resize data_block.length
  let tmp_buffer ← tmp_buffer.store (tmp_buffer.origin_buffer PROTO_HEAD_SIZE)
    (write_uint32 target_id)
  pure { tmp_buffer with
    offset := size_t_sub tmp_buffer.offset SIZEOF_SESSION_UID
    length := size_t_add tmp_buffer.length SIZEOF_SESSION_UID }

def send (stale : Nat → UInt8) (_session : basic_async_session active_server_session_logic)
    (target_id : session_uid) (data_block : List UInt8) :
    Checked (basic_async_session active_server_session_logic) := do
  let tmp_buffer ← pack_send stale _session._logic target_id data_block
  _session.async_send active_server_session_logic.wrap_to_send_data tmp_buffer

/-- The buffer `broadcast` gives to `async_send`. -/
def pack_broadcast (stale : Nat → UInt8) (targets : List session_uid) (data_block : List UInt8) :
    Checked once_buffer := do
  let buffer : once_buffer := { TEMP_BUFFER stale with
    offset := PROTO_HEAD_SIZE + targets.length * SIZEOF_SESSION_UID + 2 }
  let buffer ← buffer.store (buffer.buffer 0) data_block
  let buffer := buffer.resize data_block.length
  let buffer ← buffer.store (buffer.origin_buffer PROTO_HEAD_SIZE)
    (write_uint16 (UInt16.ofNat targets.length))
  let buffer ← (List.range targets.length).foldlM (fun buffer i =>
    buffer.store (buffer.origin_buffer (PROTO_HEAD_SIZE + 2 + i * SIZEOF_SESSION_UID))
      (write_uint32 (targets.getD i 0))) buffer
  pure { buffer with offset := PROTO_HEAD_SIZE }

def broadcast (stale : Nat → UInt8) (_session : basic_async_session active_server_session_logic)
    (targets : List session_uid) (data_block : List UInt8) :
    Checked (basic_async_session active_server_session_logic) := do
  if targets.length > 0xFFFF then
    pure _session
  else
    let buffer ← pack_broadcast stale targets data_block
    _session.async_send active_server_session_logic.wrap_to_send_data buffer

/-! ### The frames the manager sends -/

open ByteMemory

/-- A buffer with space for a head goes out as one frame, and the sequence number
    advances. -/
theorem async_send_eq {_session : basic_async_session active_server_session_logic}
    {buffer : once_buffer} (hstate : _session._state = .CONNECTING)
    (hoff : buffer.offset = PROTO_HEAD_SIZE)
    (hfit : PROTO_HEAD_SIZE + buffer.length ≤ ONCE_BUFFER_SIZE) :
    _session.async_send active_server_session_logic.wrap_to_send_data buffer =
      .ok ((_session.modify_session_logic
        { _session._logic with _seq := _session._logic._seq + 1 }).async_write_some
          ((masked_head (_session._logic.head_to_send buffer.length) buffer.content).bytes ++
            buffer.content)) := by
  have hwrap := _session._logic.wrap_to_send_data_eq hoff hfit
  rw [basic_async_session.async_send_of_wrap hstate hwrap (by simpa using hfit),
    content_framed _ hoff]

/-- `send` puts the uid in front of the data. -/
theorem pack_send_spec (stale : Nat → UInt8) (l : active_server_session_logic)
    (target_id : session_uid) {data_block : List UInt8} (hlen : data_block.length ≤ 65521) :
    ∃ b, pack_send stale l target_id data_block = .ok b ∧ b.offset = PROTO_HEAD_SIZE ∧
      b.length = 4 + data_block.length ∧
      b.content = write_uint32 target_id ++ data_block := by
  have huid : (write_uint32 target_id).length = 4 := length_write_uint32 _
  have hsize : ONCE_BUFFER_SIZE = 65536 := rfl
  have hprefix_eq : l.prefix_size = 15 := rfl
  have hhead : PROTO_HEAD_SIZE = 11 := rfl
  have hwidth : SIZEOF_SESSION_UID = 4 := rfl
  rw [pack_send]
  simp only [hprefix_eq]
  rw [buffer_zero_of_eq (n := 15) rfl (by decide), store_of_le _ (by omega), ok_bind]
  simp only [resize, TEMP_BUFFER, origin_buffer_eq]
  rw [store_of_le _ (by omega), ok_bind, pure_eq_ok]
  refine ⟨_, rfl, ?_, ?_, ?_⟩
  · simp only
    decide
  · simp only
    rw [hwidth, size_t_add_of_lt (by omega), Nat.add_comm]
  · simp only [content, hwidth]
    -- the uid lies in front of the data, in the last 4 bytes of the prefix
    rw [size_t_sub_of_le (by omega) (by omega), size_t_add_of_lt (by omega), Nat.add_comm, read_add,
      hhead, read_write_of_length _ _ _ _ huid, read_write_of_disjoint _ _ _ _ _ (by omega),
      read_write]

/-- **What `send` puts on the stream.** -/
theorem send_eq (stale : Nat → UInt8)
    {_session : basic_async_session active_server_session_logic}
    (hstate : _session._state = .CONNECTING) (target_id : session_uid) {data_block : List UInt8}
    (hlen : data_block.length ≤ 65521) :
    let body := write_uint32 target_id ++ data_block
    send stale _session target_id data_block =
      .ok ((_session.modify_session_logic
        { _session._logic with _seq := _session._logic._seq + 1 }).async_write_some
          ((masked_head (_session._logic.head_to_send body.length) body).bytes ++ body)) := by
  intro body
  obtain ⟨b, hpack, hoff, hblen, hcontent⟩ :=
    pack_send_spec stale _session._logic target_id hlen
  have hbody : body.length = 4 + data_block.length := by
    simp only [body, List.length_append, length_write_uint32]
  have hsize : PROTO_HEAD_SIZE + b.length ≤ ONCE_BUFFER_SIZE := by
    rw [hblen]
    simp only [PROTO_HEAD_SIZE, ONCE_BUFFER_SIZE]
    omega
  rw [send, hpack, ok_bind, async_send_eq hstate hoff hsize, hcontent, hblen, hbody]

theorem length_flatMap_uids (targets : List session_uid) :
    (targets.flatMap write_uint32).length = targets.length * 4 := by
  induction targets with
  | nil => rfl
  | cons t targets ih =>
    rw [List.flatMap_cons, List.length_append, length_write_uint32, ih, List.length_cons]
    omega

/-- The loop of `broadcast` stores the uids one behind the other. -/
theorem store_uids (buffer : once_buffer) (targets : List session_uid)
    (hfit : PROTO_HEAD_SIZE + 2 + targets.length * 4 ≤ ONCE_BUFFER_SIZE) {k : Nat}
    (hk : k ≤ targets.length) :
    (List.range k).foldlM (fun (buffer : once_buffer) i =>
      buffer.store (buffer.origin_buffer (PROTO_HEAD_SIZE + 2 + i * SIZEOF_SESSION_UID))
        (write_uint32 (targets.getD i 0))) buffer =
      .ok { buffer with
        _buffer := write buffer._buffer (PROTO_HEAD_SIZE + 2)
          ((targets.take k).flatMap write_uint32) } := by
  have hwidth : SIZEOF_SESSION_UID = 4 := rfl
  -- round `k` appends one uid to the `k` uids stored so far
  induction k with
  | zero => simp
  | succ k ih =>
    have hget : targets.getD k 0 = targets[k] := by
      rw [List.getD_eq_getElem?_getD, List.getElem?_eq_getElem (by omega), Option.getD_some]
    have hlen : ((targets.take k).flatMap write_uint32).length = k * 4 := by
      rw [length_flatMap_uids, List.length_take, Nat.min_eq_left (by omega)]
    rw [List.range_succ, List.foldlM_append, ih (by omega), ok_bind, List.foldlM_cons,
      origin_buffer_eq, hwidth, store_of_le _ (by rw [length_write_uint32]; omega), ok_bind,
      List.foldlM_nil, pure_eq_ok, hget, ← List.take_concat_get' targets k (by omega),
      List.flatMap_append, write_append, hlen]
    simp

/-- What `broadcast` puts behind the head if its length counted everything. -/
def broadcast_content (targets : List session_uid) (data_block : List UInt8) : List UInt8 :=
  write_uint16 (UInt16.ofNat targets.length) ++ targets.flatMap write_uint32 ++ data_block

/-- `broadcast` stores count, uids and data but counts the data only. -/
theorem pack_broadcast_spec (stale : Nat → UInt8) {targets : List session_uid}
    {data_block : List UInt8}
    (hfit : PROTO_HEAD_SIZE + 2 + targets.length * 4 + data_block.length ≤ ONCE_BUFFER_SIZE) :
    ∃ b, pack_broadcast stale targets data_block = .ok b ∧ b.offset = PROTO_HEAD_SIZE ∧
      b.length = data_block.length ∧
      b.content = (broadcast_content targets data_block).take data_block.length := by
  have hsize : ONCE_BUFFER_SIZE = 65536 := rfl
  have hhead : PROTO_HEAD_SIZE = 11 := rfl
  have hwidth : SIZEOF_SESSION_UID = 4 := rfl
  have hcount := length_write_uint16 (UInt16.ofNat targets.length)
  have huids := length_flatMap_uids targets
  have hstart : PROTO_HEAD_SIZE + targets.length * SIZEOF_SESSION_UID + 2 =
      PROTO_HEAD_SIZE + 2 + targets.length * 4 := by
    rw [hwidth]
    omega
  generalize hn : PROTO_HEAD_SIZE + 2 + targets.length * 4 = n at hstart hfit
  rw [pack_broadcast, hstart]
  simp only
  rw [buffer_zero_of_eq (n := n) rfl (by omega), store_of_le _ hfit, ok_bind]
  simp only [resize, TEMP_BUFFER, origin_buffer_eq]
  rw [store_of_le _ (by omega), ok_bind]
  -- the buffer after data and count are stored
  have hloop := store_uids ({
    offset := n
    length := data_block.length
    _buffer := write (write stale n data_block) PROTO_HEAD_SIZE
      (write_uint16 (UInt16.ofNat targets.length)) } : once_buffer)
    targets (by omega) (Nat.le_refl _)
  simp only [origin_buffer_eq, List.take_length] at hloop
  rw [hloop, ok_bind, pure_eq_ok]
  refine ⟨_, rfl, rfl, rfl, ?_⟩
  simp only [content]
  have hall : read (write (write (write stale n data_block) PROTO_HEAD_SIZE
      (write_uint16 (UInt16.ofNat targets.length))) (PROTO_HEAD_SIZE + 2)
        (targets.flatMap write_uint32)) PROTO_HEAD_SIZE
        (2 + targets.length * 4 + data_block.length) = broadcast_content targets data_block := by
    -- count, uids and data lie one behind the other
    rw [read_add, read_add, read_write_of_disjoint _ _ _ _ _ (Or.inl (Nat.le_refl _)),
      read_write_of_length _ _ _ _ hcount, read_write_of_length _ _ _ _ huids,
      read_write_of_disjoint _ _ _ _ _ (Or.inr (by omega)),
      read_write_of_disjoint _ _ _ _ _ (Or.inr (by omega)), ← Nat.add_assoc, hn, read_write]
    rfl
  -- the length cuts off all but the first bytes
  rw [← hall, take_read _ _ _ _ (by omega)]

/-- **What `broadcast` puts on the stream**: a frame as long as the data, filled
    from the front with count and uids. -/
theorem broadcast_eq (stale : Nat → UInt8)
    {_session : basic_async_session active_server_session_logic}
    (hstate : _session._state = .CONNECTING) {targets : List session_uid}
    {data_block : List UInt8}
    (hfit : PROTO_HEAD_SIZE + 2 + targets.length * 4 + data_block.length ≤ ONCE_BUFFER_SIZE) :
    let body := (broadcast_content targets data_block).take data_block.length
    broadcast stale _session targets data_block =
      .ok ((_session.modify_session_logic
        { _session._logic with _seq := _session._logic._seq + 1 }).async_write_some
          ((masked_head (_session._logic.head_to_send data_block.length) body).bytes ++ body)) := by
  intro body
  obtain ⟨b, hpack, hoff, hlen, hcontent⟩ := pack_broadcast_spec stale hfit
  have hmany : ¬ targets.length > 0xFFFF := by
    simp only [PROTO_HEAD_SIZE, ONCE_BUFFER_SIZE] at hfit
    omega
  rw [broadcast, if_neg hmany, hpack, ok_bind, async_send_eq hstate hoff (by omega), hcontent,
    hlen]

end active_server_session_mgr

end AsioNet
