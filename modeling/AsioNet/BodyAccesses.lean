import AsioNet.ActiveServerSessionLogic
import AsioNet.InnerSessionLogic
import AsioNet.Library.Traced
import AsioNet.ProxyLogic

/-! # What is accessed of a received frame

    The functions that unpack, unwrap and store a received frame, once more, with a
    log of their accesses to the two buffers the frame passes through: `data_block`,
    where `unpack_msg` puts the body, and `unwrap_data`, where `unwrap_received_data`
    leaves what is to be stored. The lengths they subtract and the output regions they
    give to zlib are logged too.

    Erasing the log gives the functions of the other modules: the lemmas `result_…`.
-/

namespace AsioNet

open ByteMemory reusabel_buffer proto_mask Traced

inductive body_array where
  | data_block
  | unwrap_data
  deriving DecidableEq, Repr

inductive access where
  /-- `n` bytes are read from index `pos` on. -/
  | read (array : body_array) (pos n : Nat)
  /-- `n` bytes are written from index `pos` on. -/
  | write (array : body_array) (pos n : Nat)
  /-- A length is computed as `length - amount`. -/
  | sub (length amount : Nat)
  /-- zlib may put output into the `n` bytes from index `pos` on. -/
  | output (pos n : Nat)
  deriving DecidableEq, Repr

namespace access

def load (array : body_array) (b : once_buffer) (pos n : Nat) :
    Traced access fault (List UInt8) :=
  act (.read array pos n) (b.load pos n)

def store (array : body_array) (b : once_buffer) (pos : Nat) (bytes : List UInt8) :
    Traced access fault once_buffer :=
  act (.write array pos bytes.length) (b.store pos bytes)

/-- `length - amount` in `size_t` -/
def size_t_sub (length amount : Nat) : Traced access fault Nat :=
  act (.sub length amount) (.ok (AsioNet.size_t_sub length amount))

@[simp] theorem result_load (array : body_array) (b : once_buffer) (pos n : Nat) :
    (load array b pos n).result = b.load pos n := rfl

@[simp] theorem result_store (array : body_array) (b : once_buffer) (pos : Nat)
    (bytes : List UInt8) : (store array b pos bytes).result = b.store pos bytes := rfl

@[simp] theorem result_size_t_sub (length amount : Nat) :
    (size_t_sub length amount).result = .ok (AsioNet.size_t_sub length amount) := rfl

variable {P : access → Prop}

theorem always_load {array : body_array} {b : once_buffer} {pos n : Nat} :
    Always P (load array b pos n) ↔ P (.read array pos n) := always_act ..

theorem always_store {array : body_array} {b : once_buffer} {pos : Nat} {bytes : List UInt8} :
    Always P (store array b pos bytes) ↔ P (.write array pos bytes.length) := always_act ..

theorem always_size_t_sub {length amount : Nat} :
    Always P (size_t_sub length amount) ↔ P (.sub length amount) := always_act ..

end access

/-! ### `unpack_msg` -/

/-- The body goes to `data_block`. -/
def traced_unpack_msg (data_block : once_buffer) (msg : List UInt8) :
    Traced access fault once_buffer := do
  let data_block ← access.store .data_block data_block (data_block.buffer 0) msg
  pure { data_block with length := msg.length }

/-! ### `default_session_logic` -/

def authentication_aaa_request.traced_unpack (b : once_buffer) (block : Nat) (length : UInt16) :
    Traced access fault authentication_aaa_request := do
  let platform_len := length - 8
  let area_id ← access.load .data_block b block 2
  let server_id ← access.load .data_block b (block + 2) 2
  let link_type ← access.load .data_block b (block + 4) 1
  let platform ← access.load .data_block b (block + 5) (platform_len.toNat + 1)
  pure {
    area_id := read_uint16 area_id
    server_id := read_uint16 server_id
    link_type := link_type.getD 0 0
    platform := platform
    platform_len := platform_len }

theorem authentication_aaa_request.result_traced_unpack (b : once_buffer) (block : Nat)
    (length : UInt16) : (traced_unpack b block length).result = unpack b block length := by
  simp only [traced_unpack, unpack, result_bind, access.result_load, result_pure, pure_eq_ok]

namespace default_session_logic

/-- Everything `verify_authentication` reads of the frame is read by `unpack`. -/
def traced_verify_authentication (z : zlib) (stale : recycled) (w : proxy_manager)
    (i : session_sptr) (l : default_session_logic) (tmp_buffer : once_buffer) (cmd : UInt16) :
    Traced access fault proxy_manager := do
  let _ ← authentication_aaa_request.traced_unpack tmp_buffer (tmp_buffer.buffer 0)
    (UInt16.ofNat tmp_buffer.length)
  lift (l.verify_authentication z stale w i tmp_buffer cmd)

theorem result_traced_verify_authentication (z : zlib) (stale : recycled) (w : proxy_manager)
    (i : session_sptr) (l : default_session_logic) (tmp_buffer : once_buffer) (cmd : UInt16) :
    (l.traced_verify_authentication z stale w i tmp_buffer cmd).result =
      l.verify_authentication z stale w i tmp_buffer cmd := by
  unfold traced_verify_authentication
  rw [result_bind, authentication_aaa_request.result_traced_unpack]
  simp only [result_lift]
  -- where `unpack` fails, the function it is the first step of fails
  cases hunpack : authentication_aaa_request.unpack tmp_buffer (tmp_buffer.buffer 0)
      (UInt16.ofNat tmp_buffer.length) with
  | ok aaa_request => rfl
  | error e =>
    unfold verify_authentication
    rw [hunpack]
    rfl

def traced_unwrap_received_data (z : zlib) (stale : recycled) (w : proxy_manager)
    (i : session_sptr) (l : default_session_logic) (buffer : once_buffer) (head : protocol_head)
    (ret_block : once_buffer) : Traced access fault (unwrapped proxy_manager) := do
  let l := { l with _seq := l._seq + 1 }
  let w := w.set_logic i (.default_session l)
  if head.seq ≠ l._seq then
    pure ⟨false, w, buffer, ret_block⟩
  else
    let body ← access.load .data_block buffer (buffer.buffer 0) head.len.toNat
    if 0 ≠ get_mask head.bytes body then
      pure ⟨false, w, buffer, ret_block⟩
    else if l._authentication = .BEFORE_VERIFY then
      let w ← traced_verify_authentication z stale w i l buffer head.get_cmd
      pure ⟨false, w, buffer, ret_block⟩
    else
      pure ⟨false, w, buffer, ret_block⟩

theorem result_traced_unwrap_received_data (z : zlib) (stale : recycled) (w : proxy_manager)
    (i : session_sptr) (l : default_session_logic) (buffer : once_buffer) (head : protocol_head)
    (ret_block : once_buffer) :
    (l.traced_unwrap_received_data z stale w i buffer head ret_block).result =
      l.unwrap_received_data z stale w i buffer head ret_block := by
  simp only [traced_unwrap_received_data, unwrap_received_data, result_ite, result_bind,
    access.result_load, result_pure, pure_eq_ok, result_traced_verify_authentication]

end default_session_logic

/-! ### `client_session_logic` -/

namespace gzip

/-- The loop of `decompress`; `inflate` is given the region before it puts out. -/
def traced_decompress_loop (size : Nat) (output : once_buffer) (size_uncompressed : Nat)
    (rest : List UInt8) (ret : inflate_ret) : Traced access fault (Option once_buffer) := do
  let resize_to := size_uncompressed + 2 * size
  if resize_to > 1000000000 then
    pure none
  else
    let output := output.resize resize_to
    act (.output (output.buffer 0 + size_uncompressed) (2 * size)) (.ok ())
    let output ← access.store .unwrap_data output (output.buffer 0 + size_uncompressed)
      (rest.take (2 * size))
    if rest.length ≤ 2 * size ∧ ret = .Z_DATA_ERROR then
      pure none
    else if _h : 2 * size ≤ rest.length then
      if _h₀ : size = 0 then
        lift (throw .diverges)
      else
        traced_decompress_loop size output (size_uncompressed + 2 * size) (rest.drop (2 * size)) ret
    else
      pure (some (output.resize (size_uncompressed + rest.length)))
termination_by rest.length
decreasing_by
  simp only [List.length_drop]
  omega

def traced_decompress (z : zlib) (output src : once_buffer) (data size : Nat) :
    Traced access fault (Option once_buffer) := do
  if size > 1000000000 ∨ size * 2 > 1000000000 then
    pure none
  else
    let input ← access.load .data_block src data size
    match z.inflate input with
    | none => pure none
    | some run => traced_decompress_loop size output 0 run.output run.ret

theorem result_traced_decompress_loop (size : Nat) (output : once_buffer)
    (size_uncompressed : Nat) (rest : List UInt8) (ret : inflate_ret) :
    (traced_decompress_loop size output size_uncompressed rest ret).result =
      decompress_loop size output size_uncompressed rest ret := by
  rw [traced_decompress_loop, decompress_loop]
  simp only [result_ite, result_pure, result_bind, result_act, access.result_store, pure_eq_ok]
  split
  · rfl
  · rw [ok_bind]
    congr 1
    funext output'
    split
    · rfl
    · split
      · split
        · rfl
        · exact result_traced_decompress_loop ..
      · rfl
termination_by rest.length
decreasing_by
  simp only [List.length_drop]
  omega

theorem result_traced_decompress (z : zlib) (output src : once_buffer) (data size : Nat) :
    (traced_decompress z output src data size).result = decompress z output src data size := by
  unfold traced_decompress decompress
  simp only [result_ite, result_pure, result_bind, access.result_load, pure_eq_ok]
  split
  · rfl
  · congr 1
    funext input
    cases z.inflate input with
    | none => rfl
    | some run => exact result_traced_decompress_loop ..

end gzip

/-- Data handed to the session a table binds to `target` is read if that session
    sends. -/
def proxy_manager.traced_send_to (table : SafeHashMap session_uid session_sptr) (z : zlib)
    (stale : Nat → UInt8) (w : proxy_manager) (target : session_uid) (msg : once_buffer) :
    Traced access fault proxy_manager :=
  match table.try_get target with
  | none => pure w
  | some s =>
    if (w.sessions s)._state = .CONNECTING then
      act (.read .unwrap_data (msg.buffer 0) msg.length) (w.async_send z stale s msg)
    else
      lift (w.async_send z stale s msg)

theorem proxy_manager.result_traced_send_to (table : SafeHashMap session_uid session_sptr)
    (z : zlib) (stale : Nat → UInt8) (w : proxy_manager) (target : session_uid)
    (msg : once_buffer) :
    (traced_send_to table z stale w target msg).result = send_to table z stale w target msg := by
  unfold traced_send_to send_to
  cases table.try_get target with
  | none => rfl
  | some s =>
    simp only [result_ite, result_act, result_lift, ite_self]

namespace client_session_logic

def traced_crypt (l : client_session_logic) (buffer : once_buffer) (length : Nat) (E : Bool) :
    Traced access fault once_buffer := do
  let data ← access.load .data_block buffer (buffer.buffer 0) length
  access.store .data_block buffer (buffer.buffer 0)
    (rc4.rc4_crypt l._rc4_info.rc4_modvt_ l._rc4_info.rc4_key_ data l._rc4_info.rc4_subtract_ E)

theorem result_traced_crypt (l : client_session_logic) (buffer : once_buffer) (length : Nat)
    (E : Bool) : (l.traced_crypt buffer length E).result = l.crypt buffer length E := by
  simp only [traced_crypt, crypt, result_bind, access.result_load, access.result_store]

def traced_unwrap_received_data (z : zlib) (l : client_session_logic) (buffer : once_buffer)
    (head : protocol_head) (ret_block : once_buffer) :
    Traced access fault (unwrapped client_session_logic) := do
  let l := { l with _seq := l._seq + 1 }
  if head.seq ≠ l._seq then
    pure ⟨false, l, buffer, ret_block⟩
  else
    let body ← access.load .data_block buffer (buffer.buffer 0) head.len.toNat
    if 0 ≠ get_mask head.bytes body then
      pure ⟨false, l, buffer, ret_block⟩
    else if head.len = 0 then
      pure ⟨true, l, buffer, ret_block⟩
    else
      let buffer ← l.traced_crypt buffer head.len.toNat false
      if head.get_compressed then
        match ← gzip.traced_decompress z ret_block buffer (buffer.buffer 0) head.len.toNat with
        | none => pure ⟨false, l, buffer, ret_block⟩
        | some ret_block => pure ⟨true, l, buffer, ret_block⟩
      else
        pure ⟨true, l, buffer, ret_block⟩

theorem result_traced_unwrap_received_data (z : zlib) (l : client_session_logic)
    (buffer : once_buffer) (head : protocol_head) (ret_block : once_buffer) :
    (l.traced_unwrap_received_data z buffer head ret_block).result =
      l.unwrap_received_data z buffer head ret_block := by
  simp only [traced_unwrap_received_data, unwrap_received_data, result_ite, result_bind,
    access.result_load, result_pure, pure_eq_ok, result_traced_crypt,
    gzip.result_traced_decompress]
  split
  · rfl
  congr 1
  funext body
  split
  · rfl
  split
  · rfl
  congr 1
  funext buffer'
  split
  · congr 1
    funext decompressed
    cases decompressed with
    | none => rfl
    | some ret_block' => rfl
  · rfl

def traced_try_copy_to_storage (z : zlib) (stale : recycled) (w : proxy_manager)
    (i : session_sptr) (l : client_session_logic) (data : once_buffer) :
    Traced access fault (Bool × proxy_manager) := do
  let data ← access.store .unwrap_data data (data.origin_buffer PROTO_HEAD_SIZE)
    (write_uint32 (w.sessions i)._uuid)
  let data := { data with offset := size_t_sub data.offset SIZEOF_SESSION_UID }
  let w ← proxy_manager.traced_send_to w._server_sessions z (stale 0) w l._target_uid data
  pure (true, w)

theorem result_traced_try_copy_to_storage (z : zlib) (stale : recycled) (w : proxy_manager)
    (i : session_sptr) (l : client_session_logic) (data : once_buffer) :
    (l.traced_try_copy_to_storage z stale w i data).result =
      l.try_copy_to_storage z stale w i data := by
  simp only [traced_try_copy_to_storage, try_copy_to_storage, proxy_manager.send_to_server,
    result_bind, access.result_store, proxy_manager.result_traced_send_to, result_pure,
    pure_eq_ok]

end client_session_logic

/-! ### `server_session_logic` -/

namespace server_session_logic

def traced_unwrap_received_data (l : server_session_logic) (buffer : once_buffer)
    (head : protocol_head) (ret_block : once_buffer) :
    Traced access fault (unwrapped server_session_logic) := do
  let l := { l with _seq := l._seq + 1 }
  if head.seq ≠ l._seq then
    pure ⟨false, l, buffer, ret_block⟩
  else
    let body ← access.load .data_block buffer (buffer.buffer 0) head.len.toNat
    if 0 ≠ get_mask head.bytes body then
      pure ⟨false, l, buffer, ret_block⟩
    else if head.len = 0 then
      pure ⟨false, l, buffer, ret_block⟩
    else
      let ret_block ← access.store .unwrap_data ret_block (ret_block.buffer 0) body
      pure ⟨true, l, buffer, ret_block.resize head.len.toNat⟩

theorem result_traced_unwrap_received_data (l : server_session_logic) (buffer : once_buffer)
    (head : protocol_head) (ret_block : once_buffer) :
    (l.traced_unwrap_received_data buffer head ret_block).result =
      l.unwrap_received_data buffer head ret_block := by
  simp only [traced_unwrap_received_data, unwrap_received_data, result_ite, result_bind,
    access.result_load, access.result_store, result_pure, pure_eq_ok]

/-- One round of the relay's loop. -/
def traced_relay_to_target (stale : recycled) (l : server_session_logic)
    (data mutable_buffer : once_buffer) (w : proxy_manager) (i : Nat) :
    Traced access fault proxy_manager := do
  let uid ← access.load .unwrap_data data (data.buffer (2 + i * 4)) 4
  let head_buffer ← lift (l.pack_broadcast_head (stale (i + 1)) mutable_buffer)
  lift (w.send_to_client_multi (read_uint32 uid) head_buffer mutable_buffer)

def traced_try_copy_to_storage (z : zlib) (stale : recycled) (w : proxy_manager)
    (l : server_session_logic) (data : once_buffer) (head : protocol_head) :
    Traced access fault (Bool × proxy_manager) := do
  if head.get_cmd = protocol_cmd.Commands_BroadCast.val then
    let count ← access.load .unwrap_data data (data.buffer 0) 2
    let size := (read_uint16 count).toNat
    let mutable_buffer := TEMP_BUFFER (stale 0)
    let length ← access.size_t_sub data.length (2 + 4 * size)
    let rest ← access.load .unwrap_data data (data.buffer (2 + 4 * size)) length
    let mutable_buffer ← lift (mutable_buffer.store (mutable_buffer.buffer 0) rest)
    let w ← (List.range size).foldlM (traced_relay_to_target stale l data mutable_buffer) w
    pure (true, w)
  else
    let target_client_uid ← access.load .unwrap_data data (data.buffer 0) 4
    let length ← access.size_t_sub data.length SIZEOF_SESSION_UID
    let data := { data with
      offset := size_t_add data.offset SIZEOF_SESSION_UID
      length := length }
    let w ← proxy_manager.traced_send_to w._client_sessions z (stale 0) w
      (read_uint32 target_client_uid) data
    pure (true, w)

theorem result_traced_relay_to_target (stale : recycled) (l : server_session_logic)
    (data mutable_buffer : once_buffer) :
    (fun w i => (traced_relay_to_target stale l data mutable_buffer w i).result) =
      relay_to_target stale l data mutable_buffer := by
  funext w i
  simp only [traced_relay_to_target, relay_to_target, result_bind, access.result_load,
    result_lift]

theorem result_traced_try_copy_to_storage (z : zlib) (stale : recycled) (w : proxy_manager)
    (l : server_session_logic) (data : once_buffer) (head : protocol_head) :
    (l.traced_try_copy_to_storage z stale w data head).result =
      l.try_copy_to_storage z stale w data head := by
  unfold traced_try_copy_to_storage try_copy_to_storage
  rw [result_ite]
  split
  · rw [result_bind, access.result_load]
    congr 1
    funext count
    rw [result_bind, access.result_size_t_sub, ok_bind, result_bind, access.result_load]
    congr 1
    funext rest
    rw [result_bind, result_lift]
    congr 1
    funext mutable_buffer
    rw [result_bind, result_foldlM, result_traced_relay_to_target]
    rfl
  · rw [result_bind, access.result_load]
    congr 1
    funext target_client_uid
    rw [result_bind, access.result_size_t_sub, ok_bind, result_bind,
      proxy_manager.result_traced_send_to]
    rfl

end server_session_logic

/-! ### `active_server_session_logic` -/

namespace active_server_session_logic

def traced_check_verify_res (l : active_server_session_logic) (data : once_buffer) :
    Traced access fault active_server_session_logic := do
  let block := data.buffer 0
  let key_len := UInt16.ofNat data.length - 11
  let _ ← access.load .data_block data block 3
  let _ ← access.load .data_block data (block + 3) key_len.toNat
  let _ ← access.load .data_block data (block + key_len.toNat + 1 + 3) 4
  lift (l.check_verify_res data)

theorem result_traced_check_verify_res (l : active_server_session_logic) (data : once_buffer) :
    (l.traced_check_verify_res data).result = l.check_verify_res data := by
  simp only [traced_check_verify_res, result_bind, access.result_load, result_lift]
  -- these are the loads of `unpack`, which comes first
  cases hfixed : data.load (data.buffer 0) 3 with
  | error e =>
    unfold check_verify_res authentication_aaa_response.unpack
    rw [hfixed]
    rfl
  | ok fixed =>
    rw [ok_bind]
    cases hkey : data.load (data.buffer 0 + 3) (UInt16.ofNat data.length - 11).toNat with
    | error e =>
      unfold check_verify_res authentication_aaa_response.unpack
      rw [hfixed, ok_bind]
      simp only [hkey]
      rfl
    | ok key =>
      rw [ok_bind]
      cases hlink : data.load (data.buffer 0 + (UInt16.ofNat data.length - 11).toNat + 1 + 3) 4 with
      | error e =>
        unfold check_verify_res authentication_aaa_response.unpack
        rw [hfixed, ok_bind]
        simp only [hkey, ok_bind, hlink]
        rfl
      | ok link_no => rfl

def traced_remote_session_info_confirm (l : active_server_session_logic) (data : once_buffer) :
    Traced access fault (active_server_session_logic × once_buffer) := do
  let s_id ← access.load .data_block data (data.buffer 0) 4
  let length ← access.size_t_sub data.length SIZEOF_SESSION_UID
  let data : once_buffer := { data with
    offset := size_t_add data.offset SIZEOF_SESSION_UID
    length := length }
  let ip ← access.load .data_block data (data.buffer 0) 4
  pure ({ l with
    _sock_info_map := fun uid =>
      if uid = read_uint32 s_id then some (read_uint32 ip) else l._sock_info_map uid }, data)

theorem result_traced_remote_session_info_confirm (l : active_server_session_logic)
    (data : once_buffer) :
    (l.traced_remote_session_info_confirm data).result = l.remote_session_info_confirm data := by
  simp only [traced_remote_session_info_confirm, remote_session_info_confirm,
    session_connect_confirm.unpack, result_bind, access.result_load, access.result_size_t_sub,
    ok_bind, result_pure, pure_eq_ok, bind_assoc]

def traced_unwrap_received_data (l : active_server_session_logic) (buffer : once_buffer)
    (head : protocol_head) (ret_block : once_buffer) :
    Traced access fault (unwrapped active_server_session_logic) := do
  let body ← access.load .data_block buffer (buffer.buffer 0) head.len.toNat
  if 0 ≠ get_mask head.bytes body then
    pure ⟨false, l, buffer, ret_block⟩
  else if head.len = 0 then
    pure ⟨false, l, buffer, ret_block⟩
  else if l._authentication = .BEFORE_VERIFY then
    let l ← l.traced_check_verify_res buffer
    pure ⟨false, l, buffer, ret_block⟩
  else if head.get_cmd = protocol_cmd.Commands_ConnectionConfirm.val then
    let (l, buffer) ← l.traced_remote_session_info_confirm buffer
    pure ⟨false, l, buffer, ret_block⟩
  else
    let ret_block ← access.store .unwrap_data ret_block (ret_block.buffer 0) body
    pure ⟨true, l, buffer, ret_block.resize head.len.toNat⟩

theorem result_traced_unwrap_received_data (l : active_server_session_logic)
    (buffer : once_buffer) (head : protocol_head) (ret_block : once_buffer) :
    (l.traced_unwrap_received_data buffer head ret_block).result =
      l.unwrap_received_data buffer head ret_block := by
  simp only [traced_unwrap_received_data, unwrap_received_data, result_ite, result_bind,
    access.result_load, access.result_store, result_pure, pure_eq_ok,
    result_traced_check_verify_res, result_traced_remote_session_info_confirm]

def traced_try_copy_to_storage (l : active_server_session_logic) (data : once_buffer)
    (head : protocol_head) : Traced access fault (Bool × active_server_session_logic) := do
  let target_client_uid ← access.load .unwrap_data data (data.buffer 0) 4
  let length ← access.size_t_sub data.length SIZEOF_SESSION_UID
  let data : once_buffer := { data with
    offset := size_t_add data.offset SIZEOF_SESSION_UID
    length := length }
  if l._storage.full (size_t_add 8 data.length) then
    pure (false, l)
  else
    let storage := (l._storage.tryWrite (write_uint32 (read_uint32 target_client_uid))).1
    let storage := (storage.tryWrite (write_uint16 head.get_cmd)).1
    let storage := (storage.tryWrite (write_uint16 (UInt16.ofNat data.length))).1
    let bytes ← access.load .unwrap_data data (data.buffer 0) data.length
    let storage := (storage.tryWrite bytes).1
    pure (true, { l with _storage := storage })

theorem result_traced_try_copy_to_storage (l : active_server_session_logic)
    (data : once_buffer) (head : protocol_head) :
    (l.traced_try_copy_to_storage data head).result = l.try_copy_to_storage data head := by
  simp only [traced_try_copy_to_storage, try_copy_to_storage, result_ite, result_bind,
    access.result_load, access.result_size_t_sub, ok_bind, result_pure, pure_eq_ok]

end active_server_session_logic

/-! ### `inner_session_logic` -/

namespace inner_session_logic

def traced_unwrap_received_data (l : inner_session_logic) (buffer : once_buffer)
    (head : protocol_head) (ret_block : once_buffer) :
    Traced access fault (unwrapped inner_session_logic) := do
  let body ← access.load .data_block buffer (buffer.buffer 0) head.len.toNat
  if 0 ≠ get_mask head.bytes body then
    pure ⟨false, l, buffer, ret_block⟩
  else if head.len = 0 then
    pure ⟨false, l, buffer, ret_block⟩
  else
    let ret_block ← access.store .unwrap_data ret_block (ret_block.buffer 0) body
    pure ⟨true, l, buffer, ret_block.resize head.len.toNat⟩

theorem result_traced_unwrap_received_data (l : inner_session_logic) (buffer : once_buffer)
    (head : protocol_head) (ret_block : once_buffer) :
    (l.traced_unwrap_received_data buffer head ret_block).result =
      l.unwrap_received_data buffer head ret_block := by
  simp only [traced_unwrap_received_data, unwrap_received_data, result_ite, result_bind,
    access.result_load, access.result_store, result_pure, pure_eq_ok]

def traced_try_copy_to_storage (l : inner_session_logic) (data : once_buffer)
    (head : protocol_head) : Traced access fault (Bool × inner_session_logic) := do
  if l._storage.full (PROTO_HEAD_SIZE + data.length) then
    pure (false, l)
  else
    let storage := (l._storage.tryWrite head.bytes).1
    let bytes ← access.load .unwrap_data data (data.buffer 0) data.length
    let storage := (storage.tryWrite bytes).1
    pure (true, { l with _storage := storage })

theorem result_traced_try_copy_to_storage (l : inner_session_logic) (data : once_buffer)
    (head : protocol_head) :
    (l.traced_try_copy_to_storage data head).result = l.try_copy_to_storage data head := by
  simp only [traced_try_copy_to_storage, try_copy_to_storage, result_ite, result_bind,
    access.result_load, result_pure, pure_eq_ok]

end inner_session_logic

end AsioNet
