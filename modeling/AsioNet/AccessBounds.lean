import AsioNet.AuthenticationInput
import AsioNet.Framing
import AsioNet.MalformedFrames
import AsioNet.ZlibRegions

/-! # Unwrapping inside the buffers

    Which indices of `data_block` and `unwrap_data` are accessed for one frame, from
    `unpack_msg` to `try_copy_to_storage`. The space kept in front of the data differs
    from logic to logic, and none of them compares it, or what it reads of a frame, with
    the 65536 bytes there are: `in_arrays_iff` says which frames stay inside.
-/

namespace AsioNet

open ByteMemory reusabel_buffer proto_mask Traced

/-- The bytes accessed are bytes of the array. -/
def access.InArray : access → Prop
  | .read _ pos n => pos + n ≤ ONCE_BUFFER_SIZE
  | .write _ pos n => pos + n ≤ ONCE_BUFFER_SIZE
  | .sub .. => True
  | .output .. => True

namespace access

variable {α : Type}

/-- What follows a load sees the bytes that are there. -/
theorem inArray_load_bind {array : body_array} {b : once_buffer} {pos n : Nat}
    {f : List UInt8 → Traced access fault α} :
    Always InArray (load array b pos n >>= f) ↔
      pos + n ≤ ONCE_BUFFER_SIZE ∧ Always InArray (f (ByteMemory.read b._buffer pos n)) := by
  by_cases hin : pos + n ≤ ONCE_BUFFER_SIZE
  · rw [always_bind_of_ok (load_of_le b hin), always_load]
    rfl
  · rw [always_bind, always_load]
    exact ⟨fun h => absurd h.1 hin, fun h => absurd h.1 hin⟩

theorem inArray_store_bind {array : body_array} {b : once_buffer} {pos : Nat}
    {bytes : List UInt8} {f : once_buffer → Traced access fault α} :
    Always InArray (store array b pos bytes >>= f) ↔
      pos + bytes.length ≤ ONCE_BUFFER_SIZE ∧
        Always InArray (f { b with _buffer := ByteMemory.write b._buffer pos bytes }) := by
  by_cases hin : pos + bytes.length ≤ ONCE_BUFFER_SIZE
  · rw [always_bind_of_ok (store_of_le b hin), always_store]
    rfl
  · rw [always_bind, always_store]
    exact ⟨fun h => absurd h.1 hin, fun h => absurd h.1 hin⟩

/-- What is copied to the start of a buffer's content. -/
theorem inArray_copy_bind {array : body_array} {b : once_buffer} {bytes : List UInt8}
    {f : once_buffer → Traced access fault α} (hoff : b.offset ≤ ONCE_BUFFER_SIZE) :
    Always InArray (store array b (b.buffer 0) bytes >>= f) ↔
      b.offset + bytes.length ≤ ONCE_BUFFER_SIZE ∧
        Always InArray (f { b with _buffer := ByteMemory.write b._buffer b.offset bytes }) := by
  rw [inArray_store_bind, buffer_zero_of_eq rfl hoff]

theorem inArray_size_t_sub_bind {length amount : Nat} {f : Nat → Traced access fault α} :
    Always InArray (size_t_sub length amount >>= f) ↔
      Always InArray (f (AsioNet.size_t_sub length amount)) := by
  rw [always_bind_of_ok (result_size_t_sub length amount), always_size_t_sub]
  exact and_iff_right trivial

end access

open access (inArray_load_bind inArray_store_bind inArray_copy_bind inArray_size_t_sub_bind)

/-! ### One received frame -/

namespace proxy_manager

def traced_unwrap_received_data (z : zlib) (stale : recycled) (w : proxy_manager)
    (i : session_sptr) (buffer : once_buffer) (head : protocol_head) (ret_block : once_buffer) :
    Traced access fault (unwrapped proxy_manager) :=
  match (w.sessions i)._logic with
  | .default_session l => l.traced_unwrap_received_data z stale w i buffer head ret_block
  | .client_session l => do
    let r ← l.traced_unwrap_received_data z buffer head ret_block
    pure ⟨r.accepted, w.set_logic i (.client_session r.state), r.buffer, r.ret_block⟩
  | .server_session l => do
    let r ← l.traced_unwrap_received_data buffer head ret_block
    pure ⟨r.accepted, w.set_logic i (.server_session r.state), r.buffer, r.ret_block⟩

def traced_try_copy_to_storage (z : zlib) (stale : recycled) (w : proxy_manager)
    (i : session_sptr) (data : once_buffer) (head : protocol_head) :
    Traced access fault (Bool × proxy_manager) :=
  match (w.sessions i)._logic with
  | .default_session _ => pure (true, w)
  | .client_session l => l.traced_try_copy_to_storage z stale w i data
  | .server_session l => l.traced_try_copy_to_storage z stale w data head

/-- The `do … while (false)` block of `pick_a_entire_msg`. -/
def traced_handle_msg (z : zlib) (stale : recycled) (w : proxy_manager) (i : session_sptr)
    (head : protocol_head) (data_block : once_buffer) : Traced access fault proxy_manager := do
  let unwrap_data := { TEMP_BUFFER (stale 0) with offset := (w.sessions i)._logic.prefix_size }
  let r ← w.traced_unwrap_received_data z (fun n => stale (n + 1)) i data_block head unwrap_data
  if r.accepted = false then pure r.state
  else
    let copied ←
      r.state.traced_try_copy_to_storage z (fun n => stale (n + 1)) i r.ret_block head
    pure copied.2

theorem result_traced_unwrap_received_data (z : zlib) (stale : recycled) (w : proxy_manager)
    (i : session_sptr) (buffer : once_buffer) (head : protocol_head) (ret_block : once_buffer) :
    (w.traced_unwrap_received_data z stale i buffer head ret_block).result =
      w.unwrap_received_data z stale i buffer head ret_block := by
  unfold traced_unwrap_received_data unwrap_received_data
  cases (w.sessions i)._logic with
  | default_session l => exact default_session_logic.result_traced_unwrap_received_data ..
  | client_session l =>
    simp only [result_bind, client_session_logic.result_traced_unwrap_received_data, result_pure,
      pure_eq_ok]
  | server_session l =>
    simp only [result_bind, server_session_logic.result_traced_unwrap_received_data, result_pure,
      pure_eq_ok]

theorem result_traced_try_copy_to_storage (z : zlib) (stale : recycled) (w : proxy_manager)
    (i : session_sptr) (data : once_buffer) (head : protocol_head) :
    (w.traced_try_copy_to_storage z stale i data head).result =
      w.try_copy_to_storage z stale i data head := by
  unfold traced_try_copy_to_storage try_copy_to_storage
  cases (w.sessions i)._logic with
  | default_session l => rfl
  | client_session l => exact client_session_logic.result_traced_try_copy_to_storage ..
  | server_session l => exact server_session_logic.result_traced_try_copy_to_storage ..

theorem result_traced_handle_msg (z : zlib) (stale : recycled) (w : proxy_manager)
    (i : session_sptr) (head : protocol_head) (data_block : once_buffer) :
    (w.traced_handle_msg z stale i head data_block).result =
      ((interface z i).handle_msg stale (.ok w) head data_block).2.1 := by
  rw [handle_msg_eq]
  unfold traced_handle_msg
  simp only [result_bind, result_traced_unwrap_received_data, result_ite, result_pure,
    result_traced_try_copy_to_storage, pure_eq_ok]

end proxy_manager

def active_server_session_logic.traced_handle_msg (stale : recycled)
    (l : active_server_session_logic) (head : protocol_head) (data_block : once_buffer) :
    Traced access fault active_server_session_logic := do
  let unwrap_data := { TEMP_BUFFER (stale 0) with offset := l.prefix_size }
  let r ← l.traced_unwrap_received_data data_block head unwrap_data
  if r.accepted = false then pure r.state
  else
    let copied ← r.state.traced_try_copy_to_storage r.ret_block head
    pure copied.2

theorem active_server_session_logic.result_traced_handle_msg (stale : recycled)
    (l : active_server_session_logic) (head : protocol_head) (data_block : once_buffer) :
    (l.traced_handle_msg stale head data_block).result =
      (interface.handle_msg stale (.ok l) head data_block).2.1 := by
  rw [handle_msg_eq]
  unfold traced_handle_msg
  simp only [result_bind, result_traced_unwrap_received_data, result_ite, result_pure,
    result_traced_try_copy_to_storage, pure_eq_ok]

def inner_session_logic.traced_handle_msg (stale : recycled) (l : inner_session_logic)
    (head : protocol_head) (data_block : once_buffer) :
    Traced access fault inner_session_logic := do
  let unwrap_data := { TEMP_BUFFER (stale 0) with offset := l.prefix_size }
  let r ← l.traced_unwrap_received_data data_block head unwrap_data
  if r.accepted = false then pure r.state
  else
    let copied ← r.state.traced_try_copy_to_storage r.ret_block head
    pure copied.2

/-- A session that receives, with what its logic works on. -/
inductive receiving_session where
  /-- Session `i` of the proxy: a default, a client's or a server's session. -/
  | proxy (z : zlib) (w : proxy_manager) (i : session_sptr)
  | active_server (l : active_server_session_logic)
  | inner (l : inner_session_logic)

/-- What `pick_a_entire_msg` does with the frame of `head` and `body`. -/
def receiving_session.traced_receive (s : receiving_session) (stale : recycled)
    (data_block : once_buffer) (head : protocol_head) (body : List UInt8) :
    Traced access fault Unit := do
  let data_block ← traced_unpack_msg data_block body
  match s with
  | .proxy z w i => let _ ← w.traced_handle_msg z stale i head data_block
  | .active_server l => let _ ← l.traced_handle_msg stale head data_block
  | .inner l => let _ ← l.traced_handle_msg stale head data_block

/-- The block a body of the length announced was unpacked into. Its start may have
    moved with earlier frames, by no more than their sizes. -/
structure Unpacked (data_block : once_buffer) (head : protocol_head) (body : List UInt8) :
    Prop where
  read_eq : read data_block._buffer data_block.offset head.len.toNat = body
  length : data_block.length = head.len.toNat
  room : data_block.offset + (PROTO_HEAD_SIZE + head.len.toNat) ≤ ONCE_BUFFER_SIZE

namespace Unpacked

variable {data_block : once_buffer} {head : protocol_head} {body : List UInt8}

theorem length_body (h : Unpacked data_block head body) : body.length = head.len.toNat := by
  rw [← h.read_eq]
  exact length_read _ _ _

theorem buffer_zero (h : Unpacked data_block head body) :
    data_block.buffer 0 = data_block.offset := by
  have hroom := h.room
  exact buffer_zero_of_eq rfl (by omega)

/-- The body is where it was unpacked to. -/
theorem inArray_load_bind {α : Type} {f : List UInt8 → Traced access fault α}
    (h : Unpacked data_block head body) :
    Always access.InArray
        (access.load .data_block data_block (data_block.buffer 0) head.len.toNat >>= f) ↔
      Always access.InArray (f body) := by
  have hroom := h.room
  rw [access.inArray_load_bind, h.buffer_zero, h.read_eq]
  exact and_iff_right (by omega)

end Unpacked

/-! ### `default_session_logic` -/

theorem authentication_aaa_request.inArray_traced_unpack (b : once_buffer) {block : Nat}
    (length : UInt16) (hfixed : block + 5 ≤ ONCE_BUFFER_SIZE) :
    Always access.InArray (traced_unpack b block length) ↔
      block + 5 + ((length - 8).toNat + 1) ≤ ONCE_BUFFER_SIZE := by
  unfold traced_unpack
  rw [inArray_load_bind, inArray_load_bind, inArray_load_bind, inArray_load_bind]
  constructor
  · rintro ⟨-, -, -, h, -⟩
    exact h
  · intro h
    exact ⟨by omega, by omega, by omega, h, always_pure _⟩

namespace default_session_logic

/-- The platform's name, whose length `unpack` computes as eight less than the body's, is
    inside. -/
def RequestFits (l : default_session_logic) (start : Nat) (head : protocol_head)
    (body : List UInt8) : Prop :=
  head.seq = l._seq + 1 → get_mask head.bytes body = 0 → l._authentication = .BEFORE_VERIFY →
    start + 5 + ((UInt16.ofNat body.length - 8).toNat + 1) ≤ ONCE_BUFFER_SIZE

theorem inArray_traced_unwrap_received_data (z : zlib) (stale : recycled) (w : proxy_manager)
    (i : session_sptr) (l : default_session_logic) {data_block : once_buffer}
    {head : protocol_head} {body : List UInt8} (h : Unpacked data_block head body)
    (ret_block : once_buffer) :
    Always access.InArray
        (l.traced_unwrap_received_data z stale w i data_block head ret_block) ↔
      l.RequestFits data_block.offset head body := by
  have hhead : PROTO_HEAD_SIZE = 11 := rfl
  have hroom := h.room
  unfold traced_unwrap_received_data RequestFits
  simp only
  by_cases hseq : head.seq = l._seq + 1
  · rw [if_neg (not_not.mpr hseq), h.inArray_load_bind]
    by_cases hmask : get_mask head.bytes body = 0
    · rw [if_neg (not_not.mpr hmask.symm)]
      by_cases hauth : l._authentication = .BEFORE_VERIFY
      · unfold traced_verify_authentication
        rw [if_pos hauth, always_bind, always_bind, h.buffer_zero, h.length, ← h.length_body,
          authentication_aaa_request.inArray_traced_unpack _ _ (by omega)]
        constructor
        · rintro ⟨⟨hfits, -⟩, -⟩ _ _ _
          exact hfits
        · intro hfits
          exact ⟨⟨hfits hseq hmask hauth, fun _ _ => always_lift _⟩, fun _ _ => always_pure _⟩
      · rw [if_neg hauth]
        exact ⟨fun _ _ _ hbefore => absurd hbefore hauth, fun _ => always_pure _⟩
    · rw [if_pos fun heq => hmask heq.symm]
      exact ⟨fun _ _ hzero => absurd hzero hmask, fun _ => always_pure _⟩
  · rw [if_pos hseq]
    exact ⟨fun _ heq => absurd heq hseq, fun _ => always_pure _⟩

theorem inArray_traced_handle_msg (z : zlib) (stale : recycled) {w : proxy_manager}
    {i : session_sptr} {l : default_session_logic}
    (hlogic : (w.sessions i)._logic = .default_session l) {data_block : once_buffer}
    {head : protocol_head} {body : List UInt8} (h : Unpacked data_block head body) :
    Always access.InArray (w.traced_handle_msg z stale i head data_block) ↔
      l.RequestFits data_block.offset head body := by
  unfold proxy_manager.traced_handle_msg proxy_manager.traced_unwrap_received_data
  simp only [hlogic]
  rw [always_bind, inArray_traced_unwrap_received_data z _ w i l h, and_iff_left]
  -- nothing is stored
  intro r hr
  rw [result_traced_unwrap_received_data] at hr
  rw [if_pos (unwrap_received_data_leaves hr).1]
  exact always_pure _

end default_session_logic

/-! ### `inner_session_logic` -/

/-- The head's space and the longest body fill the array. -/
theorem inner_session_logic.inArray_traced_handle_msg (stale : recycled) (l : inner_session_logic)
    {data_block : once_buffer} {head : protocol_head} {body : List UInt8}
    (h : Unpacked data_block head body) :
    Always access.InArray (l.traced_handle_msg stale head data_block) := by
  have hroom := h.room
  have hlen := h.length_body
  have hspace : l.prefix_size = PROTO_HEAD_SIZE := rfl
  have hpos : ∀ (length : Nat) (bytes : Nat → UInt8),
      reusabel_buffer.buffer (⟨l.prefix_size, length, bytes⟩ : once_buffer) 0 =
        PROTO_HEAD_SIZE := fun _ _ => buffer_zero_of_eq rfl (by decide)
  unfold traced_handle_msg traced_unwrap_received_data traced_try_copy_to_storage
  simp only [bind_assoc, pure_bind, ite_bind]
  rw [h.inArray_load_bind]
  simp only [always_ite, always_pure, inArray_store_bind, inArray_load_bind, TEMP_BUFFER, resize,
    hpos]
  grind

/-! ### `server_session_logic` -/

/-- Data handed to a session is read if there is one that sends. -/
theorem proxy_manager.inArray_traced_send_to (table : SafeHashMap session_uid session_sptr)
    (z : zlib) (stale : Nat → UInt8) (w : proxy_manager) (target : session_uid)
    (msg : once_buffer) :
    Always access.InArray (traced_send_to table z stale w target msg) ↔
      ∀ s, table.try_get target = some s → (w.sessions s)._state = .CONNECTING →
        msg.buffer 0 + msg.length ≤ ONCE_BUFFER_SIZE := by
  unfold traced_send_to
  cases htable : table.try_get target with
  | none =>
    refine ⟨?_, fun _ => always_pure _⟩
    intro _ s hs
    cases hs
  | some t =>
    simp only [always_ite, always_act, always_lift, implies_true, and_true]
    constructor
    · intro h s hs hstate
      obtain rfl := Option.some.inj hs
      exact h hstate
    · intro h hstate
      exact h t rfl hstate

namespace server_session_logic

/-- The body is long enough, or it is for a single client that is not connected. -/
def BodyFits (l : server_session_logic) (stale : Nat → UInt8) (w : proxy_manager)
    (head : protocol_head) (body : List UInt8) : Prop :=
  head.seq = l._seq + 1 → get_mask head.bytes body = 0 → head.len ≠ 0 →
    LongEnough head body ∨ head.get_cmd ≠ protocol_cmd.Commands_BroadCast.val ∧
      ∀ s, w._client_sessions.try_get
          (read_uint32 (read (write stale l.prefix_size body) l.prefix_size 4)) = some s →
        (w.sessions s)._state ≠ .CONNECTING

/-- A target's uid is read inside the body. -/
theorem inArray_traced_relay_to_target (stale : recycled) (l : server_session_logic)
    {data mutable_buffer : once_buffer} (w : proxy_manager) {i : Nat}
    (hin : data.offset + (2 + i * 4) + 4 ≤ ONCE_BUFFER_SIZE) :
    Always access.InArray (traced_relay_to_target stale l data mutable_buffer w i) := by
  have hsize : ONCE_BUFFER_SIZE = 65536 := rfl
  have hpos : data.buffer (2 + i * 4) = data.offset + (2 + i * 4) :=
    buffer_of_lt _ (by omega)
  unfold traced_relay_to_target
  rw [inArray_load_bind, hpos, always_bind]
  exact ⟨hin, always_lift _, fun _ _ => always_lift _⟩

/-- A broadcast whose addressees do not fit its body has a payload of nearly 2^64 bytes. -/
theorem inArray_broadcast (z : zlib) (stale : recycled) (w : proxy_manager)
    (l : server_session_logic) {data : once_buffer} {head : protocol_head}
    (hfit : data.offset + data.length ≤ ONCE_BUFFER_SIZE)
    (hroom : data.offset + 2 ≤ ONCE_BUFFER_SIZE)
    (hcmd : head.get_cmd = protocol_cmd.Commands_BroadCast.val) :
    Always access.InArray (l.traced_try_copy_to_storage z stale w data head) ↔
      LongEnough head data.content := by
  have hsize : ONCE_BUFFER_SIZE = 65536 := rfl
  have hzero : data.buffer 0 = data.offset := buffer_zero_of_eq rfl (by omega)
  have hcount := (read_uint16 (read data._buffer data.offset 2)).toNat_lt
  unfold traced_try_copy_to_storage
  rw [longEnough_broadcast_iff hcmd, if_pos hcmd, hzero, inArray_load_bind]
  generalize (read_uint16 (read data._buffer data.offset 2)).toNat = size at hcount ⊢
  have hpos : data.buffer (2 + 4 * size) = data.offset + (2 + 4 * size) :=
    buffer_of_lt _ (by omega)
  rw [inArray_size_t_sub_bind, inArray_load_bind, hpos]
  constructor
  · rintro ⟨-, hpayload, -⟩
    by_contra hshort
    rw [size_t_sub_of_lt (Nat.not_le.mp hshort) (by omega)] at hpayload
    omega
  · intro hlong
    refine ⟨hroom, ?_, ?_⟩
    · rw [size_t_sub_of_le hlong (by omega)]
      omega
    · rw [always_bind]
      refine ⟨always_lift _, ?_⟩
      intro mutable_buffer _
      rw [always_bind]
      refine ⟨?_, fun _ _ => always_pure _⟩
      apply always_foldlM
      intro w' i hi
      have hlt := List.mem_range.mp hi
      exact inArray_traced_relay_to_target stale l w' (by omega)

/-- So has data for a single client that does not begin with a whole uid, but it is only
    read if the client is connected. -/
theorem inArray_transparent (z : zlib) (stale : recycled) (w : proxy_manager)
    (l : server_session_logic) {data : once_buffer} {head : protocol_head}
    (hfit : data.offset + data.length ≤ ONCE_BUFFER_SIZE)
    (hroom : data.offset + 4 ≤ ONCE_BUFFER_SIZE)
    (hcmd : head.get_cmd ≠ protocol_cmd.Commands_BroadCast.val) :
    Always access.InArray (l.traced_try_copy_to_storage z stale w data head) ↔
      LongEnough head data.content ∨
        ∀ s, w._client_sessions.try_get (read_uint32 (read data._buffer data.offset 4)) = some s →
          (w.sessions s)._state ≠ .CONNECTING := by
  have hsize : ONCE_BUFFER_SIZE = 65536 := rfl
  have hwidth : SIZEOF_SESSION_UID = 4 := rfl
  have hzero : data.buffer 0 = data.offset := buffer_zero_of_eq rfl (by omega)
  have hmsg : ∀ length, reusabel_buffer.buffer
      (⟨data.offset + 4, length, data._buffer⟩ : once_buffer) 0 = data.offset + 4 :=
    fun _ => buffer_zero_of_eq rfl hroom
  unfold traced_try_copy_to_storage
  rw [longEnough_transparent_iff hcmd, if_neg hcmd, hzero, inArray_load_bind,
    inArray_size_t_sub_bind, always_bind, proxy_manager.inArray_traced_send_to, hwidth,
    size_t_add_of_lt (by omega), hmsg]
  constructor
  · rintro ⟨-, hsend, -⟩
    rw [or_iff_not_imp_left]
    intro hshort s hs hstate
    have hin := hsend s hs hstate
    rw [size_t_sub_of_lt (Nat.not_le.mp hshort) (by omega)] at hin
    replace hin : data.offset + 4 + (data.length + 2 ^ 64 - 4) ≤ ONCE_BUFFER_SIZE := hin
    omega
  · intro h
    refine ⟨hroom, ?_, fun _ _ => always_pure _⟩
    intro s hs hstate
    rcases h with hlong | hdisconnected
    · rw [size_t_sub_of_le hlong (by omega)]
      show data.offset + 4 + (data.length - 4) ≤ ONCE_BUFFER_SIZE
      omega
    · exact absurd hstate (hdisconnected s hs)

theorem inArray_traced_try_copy_to_storage (z : zlib) (stale : recycled) (w : proxy_manager)
    (l : server_session_logic) {data : once_buffer} {head : protocol_head}
    (hfit : data.offset + data.length ≤ ONCE_BUFFER_SIZE)
    (hroom : data.offset + 4 ≤ ONCE_BUFFER_SIZE) :
    Always access.InArray (l.traced_try_copy_to_storage z stale w data head) ↔
      LongEnough head data.content ∨ head.get_cmd ≠ protocol_cmd.Commands_BroadCast.val ∧
        ∀ s, w._client_sessions.try_get (read_uint32 (read data._buffer data.offset 4)) = some s →
          (w.sessions s)._state ≠ .CONNECTING := by
  by_cases hcmd : head.get_cmd = protocol_cmd.Commands_BroadCast.val
  · rw [inArray_broadcast z stale w l hfit (by omega) hcmd]
    exact (or_iff_left fun h => h.1 hcmd).symm
  · rw [inArray_transparent z stale w l hfit hroom hcmd, and_iff_right hcmd]

theorem inArray_traced_handle_msg (z : zlib) (stale : recycled) {w : proxy_manager}
    {i : session_sptr} {l : server_session_logic}
    (hlogic : (w.sessions i)._logic = .server_session l)
    {data_block : once_buffer} {head : protocol_head} {body : List UInt8}
    (h : Unpacked data_block head body) :
    Always access.InArray (w.traced_handle_msg z stale i head data_block) ↔
      l.BodyFits (stale 0) w head body := by
  have hroom := h.room
  have hlen := h.length_body
  have hhead : PROTO_HEAD_SIZE = 11 := rfl
  have hsize : ONCE_BUFFER_SIZE = 65536 := rfl
  have hspace : l.prefix_size = 7 := rfl
  unfold proxy_manager.traced_handle_msg proxy_manager.traced_unwrap_received_data
    proxy_manager.traced_try_copy_to_storage traced_unwrap_received_data BodyFits
  simp only [hlogic, bind_assoc, pure_bind, ite_bind, proxy_manager.sessions_set_logic_self,
    basic_async_session.logic_modify_session_logic, if_true, Bool.true_eq_false, if_false]
  by_cases hseq : head.seq = l._seq + 1
  · rw [if_neg (not_not.mpr hseq), h.inArray_load_bind]
    by_cases hmask : get_mask head.bytes body = 0
    · rw [if_neg (not_not.mpr hmask.symm)]
      by_cases hempty : head.len = 0
      · rw [if_pos hempty]
        exact ⟨fun _ _ _ hne => absurd hempty hne, fun _ => always_pure _⟩
      · rw [if_neg hempty, inArray_copy_bind (show l.prefix_size ≤ ONCE_BUFFER_SIZE by omega)]
        obtain ⟨data, hdata⟩ : ∃ data : once_buffer, data =
          ⟨l.prefix_size, head.len.toNat, write (stale 0) l.prefix_size body⟩ := ⟨_, rfl⟩
        have hcontent : data.content = body := by
          rw [hdata]
          exact read_write_of_length _ _ _ _ hlen
        have hbounds : data.offset + data.length ≤ ONCE_BUFFER_SIZE ∧
            data.offset + 4 ≤ ONCE_BUFFER_SIZE := by
          rw [hdata]
          show l.prefix_size + head.len.toNat ≤ _ ∧ l.prefix_size + 4 ≤ _
          omega
        -- the sessions' states are those before the frame
        have hsessions : ∀ s, ((w.set_logic i
            (.server_session { l with _seq := l._seq + 1 })).sessions s)._state =
              (w.sessions s)._state := by
          intro s
          by_cases hs : s = i
          · rw [hs, proxy_manager.sessions_set_logic_self,
              basic_async_session.state_modify_session_logic]
          · rw [proxy_manager.sessions_set_logic_ne hs]
        change l.prefix_size + body.length ≤ ONCE_BUFFER_SIZE ∧ Always access.InArray
          (traced_try_copy_to_storage z _ _ _ (⟨l.prefix_size, head.len.toNat,
            write (stale 0) l.prefix_size body⟩ : once_buffer) head >>= fun copied =>
              pure copied.2) ↔ _
        rw [← hdata, and_iff_right (by omega), always_bind,
          and_iff_left (fun _ _ => always_pure _),
          inArray_traced_try_copy_to_storage _ _ _ _ hbounds.1 hbounds.2, hcontent, hdata,
          proxy_manager.client_sessions_set_logic]
        simp only [hsessions]
        exact ⟨fun h _ _ _ => h, fun h => h hseq hmask hempty⟩
    · rw [if_pos fun heq => hmask heq.symm]
      exact ⟨fun _ _ hzero => absurd hzero hmask, fun _ => always_pure _⟩
  · rw [if_pos hseq]
    exact ⟨fun _ heq => absurd heq hseq, fun _ => always_pure _⟩

end server_session_logic

/-! ### `active_server_session_logic` -/

namespace active_server_session_logic

/-- The key, whose length `unpack` computes as eleven less than the body's, is inside; or
    the body fits behind the space for a head and a uid, and it begins with a uid or is
    refused. -/
def BodyFits (l : active_server_session_logic) (start : Nat) (head : protocol_head)
    (body : List UInt8) : Prop :=
  get_mask head.bytes body = 0 → head.len ≠ 0 →
    if l._authentication = .BEFORE_VERIFY then
      start + (UInt16.ofNat body.length - 11).toNat + 1 + 3 + 4 ≤ ONCE_BUFFER_SIZE
    else head.get_cmd = protocol_cmd.Commands_ConnectionConfirm.val ∨
      l.prefix_size + body.length ≤ ONCE_BUFFER_SIZE ∧
        (SIZEOF_SESSION_UID ≤ body.length ∨
          l._storage.full (body.length + SIZEOF_SESSION_UID) = true)

theorem inArray_traced_check_verify_res (l : active_server_session_logic) {data : once_buffer}
    (hroom : data.offset + 3 ≤ ONCE_BUFFER_SIZE) :
    Always access.InArray (l.traced_check_verify_res data) ↔
      data.offset + (UInt16.ofNat data.length - 11).toNat + 1 + 3 + 4 ≤ ONCE_BUFFER_SIZE := by
  have hzero : data.buffer 0 = data.offset := buffer_zero_of_eq rfl (by omega)
  unfold traced_check_verify_res
  simp only [hzero]
  rw [inArray_load_bind, inArray_load_bind, inArray_load_bind]
  constructor
  · rintro ⟨-, -, h, -⟩
    exact h
  · intro h
    exact ⟨hroom, by omega, h, always_lift _⟩

/-- The uid and the address fit any body. -/
theorem inArray_traced_remote_session_info_confirm (l : active_server_session_logic)
    {data : once_buffer} (hroom : data.offset + 8 ≤ ONCE_BUFFER_SIZE) :
    Always access.InArray (l.traced_remote_session_info_confirm data) := by
  have hsize : ONCE_BUFFER_SIZE = 65536 := rfl
  have hwidth : SIZEOF_SESSION_UID = 4 := rfl
  have hzero : data.buffer 0 = data.offset := buffer_zero_of_eq rfl (by omega)
  have hmoved : ∀ length, reusabel_buffer.buffer
      (⟨data.offset + 4, length, data._buffer⟩ : once_buffer) 0 = data.offset + 4 :=
    fun _ => buffer_zero_of_eq rfl (by omega)
  unfold traced_remote_session_info_confirm
  simp only [hzero, hwidth]
  rw [inArray_load_bind, inArray_size_t_sub_bind, size_t_add_of_lt (by omega), inArray_load_bind,
    hmoved]
  exact ⟨by omega, by omega, always_pure _⟩

/-- A body without a whole uid has data of nearly 2^64 bytes, unless it is refused. -/
theorem inArray_traced_try_copy_to_storage (l : active_server_session_logic) {data : once_buffer}
    (head : protocol_head) (hfit : data.offset + data.length ≤ ONCE_BUFFER_SIZE)
    (hroom : data.offset + 4 ≤ ONCE_BUFFER_SIZE) :
    Always access.InArray (l.traced_try_copy_to_storage data head) ↔
      SIZEOF_SESSION_UID ≤ data.length ∨
        l._storage.full (data.length + SIZEOF_SESSION_UID) = true := by
  have hsize : ONCE_BUFFER_SIZE = 65536 := rfl
  have hwidth : SIZEOF_SESSION_UID = 4 := rfl
  have hzero : data.buffer 0 = data.offset := buffer_zero_of_eq rfl (by omega)
  have hmoved : ∀ length, reusabel_buffer.buffer
      (⟨data.offset + 4, length, data._buffer⟩ : once_buffer) 0 = data.offset + 4 :=
    fun _ => buffer_zero_of_eq rfl (by omega)
  unfold traced_try_copy_to_storage
  simp only [hzero, hwidth]
  rw [inArray_load_bind, inArray_size_t_sub_bind,
    size_t_add_of_lt (show data.offset + 4 < 2 ^ 64 by omega), always_ite, inArray_load_bind,
    hmoved]
  rcases Nat.lt_or_ge data.length 4 with hshort | hlong
  · have hadd : size_t_add 8 (data.length + 2 ^ 64 - 4) = data.length + 4 := by
      unfold size_t_add
      omega
    rw [size_t_sub_of_lt hshort (by decide), hadd, or_iff_right (Nat.not_le.mpr hshort)]
    constructor
    · rintro ⟨-, -, hstore⟩
      by_contra hfull
      have hin : data.offset + 4 + (data.length + 2 ^ 64 - 4) ≤ ONCE_BUFFER_SIZE :=
        (hstore hfull).1
      omega
    · intro hfull
      exact ⟨hroom, fun _ => always_pure _, fun hnot => absurd hfull hnot⟩
  · rw [size_t_sub_of_le hlong (by omega)]
    refine ⟨fun _ => Or.inl hlong, fun _ => ⟨hroom, fun _ => always_pure _, fun _ => ⟨?_, ?_⟩⟩⟩
    · show data.offset + 4 + (data.length - 4) ≤ ONCE_BUFFER_SIZE
      omega
    · exact always_pure _

theorem inArray_traced_handle_msg (stale : recycled) (l : active_server_session_logic)
    {data_block : once_buffer} {head : protocol_head} {body : List UInt8}
    (h : Unpacked data_block head body) :
    Always access.InArray (l.traced_handle_msg stale head data_block) ↔
      l.BodyFits data_block.offset head body := by
  have hroom := h.room
  have hlen := h.length_body
  have hhead : PROTO_HEAD_SIZE = 11 := rfl
  have hsize : ONCE_BUFFER_SIZE = 65536 := rfl
  have hspace : l.prefix_size = 15 := rfl
  unfold traced_handle_msg traced_unwrap_received_data BodyFits
  simp only [bind_assoc, pure_bind, ite_bind, if_true, Bool.true_eq_false, if_false]
  rw [h.inArray_load_bind]
  by_cases hmask : get_mask head.bytes body = 0
  · rw [if_neg (not_not.mpr hmask.symm)]
    by_cases hempty : head.len = 0
    · rw [if_pos hempty]
      exact ⟨fun _ _ hne => absurd hempty hne, fun _ => always_pure _⟩
    · rw [if_neg hempty]
      by_cases hauth : l._authentication = .BEFORE_VERIFY
      · rw [if_pos hauth, if_pos hauth, always_bind, and_iff_left (fun _ _ => always_pure _),
          inArray_traced_check_verify_res l (by omega), h.length, ← hlen]
        exact ⟨fun h _ _ => h, fun h => h hmask hempty⟩
      · rw [if_neg hauth, if_neg hauth]
        by_cases hcmd : head.get_cmd = protocol_cmd.Commands_ConnectionConfirm.val
        · rw [if_pos hcmd, always_bind, and_iff_left (fun _ _ => always_pure _)]
          refine ⟨fun _ _ _ => Or.inl hcmd, fun _ => ?_⟩
          exact inArray_traced_remote_session_info_confirm l (by omega)
        · rw [if_neg hcmd, or_iff_right hcmd,
            inArray_copy_bind (show l.prefix_size ≤ ONCE_BUFFER_SIZE by omega)]
          obtain ⟨data, hdata⟩ : ∃ data : once_buffer, data =
            ⟨l.prefix_size, head.len.toNat, write (stale 0) l.prefix_size body⟩ := ⟨_, rfl⟩
          change l.prefix_size + body.length ≤ ONCE_BUFFER_SIZE ∧ Always access.InArray
            (traced_try_copy_to_storage l (⟨l.prefix_size, head.len.toNat,
              write (stale 0) l.prefix_size body⟩ : once_buffer) head >>= fun copied =>
                pure copied.2) ↔ _
          rw [← hdata, always_bind, and_iff_left (fun _ _ => always_pure _)]
          have hstore := fun hfit : l.prefix_size + body.length ≤ ONCE_BUFFER_SIZE =>
            @inArray_traced_try_copy_to_storage l data head
              (by rw [hdata]; show l.prefix_size + head.len.toNat ≤ _; omega)
              (by rw [hdata]; show l.prefix_size + 4 ≤ _; omega)
          have hlength : data.length = body.length := by
            rw [hdata, hlen]
          rw [hlength] at hstore
          constructor
          · rintro ⟨hfit, hcopy⟩ _ _
            exact ⟨hfit, (hstore hfit).mp hcopy⟩
          · intro hfits
            obtain ⟨hfit, hcopy⟩ := hfits hmask hempty
            exact ⟨hfit, (hstore hfit).mpr hcopy⟩
  · rw [if_pos fun heq => hmask heq.symm]
    exact ⟨fun _ hzero => absurd hzero hmask, fun _ => always_pure _⟩

end active_server_session_logic

/-! ### `client_session_logic` -/

namespace gzip

/-- The loop writes what `inflate` puts out, piece by piece. -/
theorem inArray_decompress_loop {size : Nat} (hpos : size ≠ 0) (hsize : size ≤ ONCE_BUFFER_SIZE)
    (output : once_buffer) (size_uncompressed : Nat) (rest : List UInt8) (ret : inflate_ret)
    (hoff : output.offset ≤ ONCE_BUFFER_SIZE) (hmax : size_uncompressed + 2 * size ≤ 1000000000) :
    Always access.InArray (traced_decompress_loop size output size_uncompressed rest ret) ↔
      output.offset + size_uncompressed + rest.length ≤ ONCE_BUFFER_SIZE := by
  have hbytes : ONCE_BUFFER_SIZE = 65536 := rfl
  have hzero : (output.resize (size_uncompressed + 2 * size)).buffer 0 = output.offset :=
    buffer_zero_of_eq rfl hoff
  rw [traced_decompress_loop, if_neg (Nat.not_lt.mpr hmax)]
  simp only [hzero]
  rw [always_bind_of_ok (a := ()) rfl, always_act, and_iff_right (by trivial), inArray_store_bind,
    List.length_take]
  by_cases hlast : rest.length ≤ 2 * size ∧ ret = .Z_DATA_ERROR
  · rw [if_pos hlast, and_iff_left (always_pure _), Nat.min_eq_right hlast.1]
  · rw [if_neg hlast]
    by_cases hfull : 2 * size ≤ rest.length
    · rw [dif_pos hfull, dif_neg hpos, Nat.min_eq_left hfull]
      constructor
      · rintro ⟨hin, hrest⟩
        rw [inArray_decompress_loop hpos hsize _ _ _ _ (by exact hoff) (by omega),
          List.length_drop] at hrest
        simp only [resize] at hrest
        omega
      · intro hfit
        refine ⟨by omega, ?_⟩
        rw [inArray_decompress_loop hpos hsize _ _ _ _ (by exact hoff) (by omega),
          List.length_drop]
        simp only [resize]
        omega
    · rw [dif_neg hfull, and_iff_left (always_pure _), Nat.min_eq_right (by omega)]
termination_by rest.length
decreasing_by
  all_goals
    simp only [List.length_drop]
    omega

theorem inArray_traced_decompress (z : zlib) {output src : once_buffer} {data size : Nat}
    {input : List UInt8} (hload : src.load data size = .ok input) (hpos : size ≠ 0)
    (hsize : size ≤ ONCE_BUFFER_SIZE) (hoff : output.offset ≤ ONCE_BUFFER_SIZE) :
    Always access.InArray (traced_decompress z output src data size) ↔
      ∀ run, z.inflate input = some run →
        output.offset + run.output.length ≤ ONCE_BUFFER_SIZE := by
  have hbytes : ONCE_BUFFER_SIZE = 65536 := rfl
  obtain ⟨hin, rfl⟩ := load_eq_ok hload
  unfold traced_decompress
  rw [if_neg (by omega), inArray_load_bind, and_iff_right hin]
  cases hinflate : z.inflate (read src._buffer data size) with
  | none =>
    refine ⟨?_, fun _ => always_pure _⟩
    intro _ run hrun
    cases hrun
  | some run =>
    have hloop := inArray_decompress_loop hpos hsize output 0 run.output run.ret hoff (by omega)
    rw [Nat.add_zero] at hloop
    constructor
    · intro h run' hrun
      obtain rfl := Option.some.inj hrun
      exact hloop.mp h
    · intro h
      exact hloop.mpr (h run rfl)

/-- What comes out of the loop lies in the array, at the start of the output. -/
theorem decompress_loop_eq_some {size : Nat} {output b : once_buffer} {size_uncompressed : Nat}
    {rest : List UInt8} {ret : inflate_ret} (hoff : output.offset ≤ ONCE_BUFFER_SIZE)
    (h : decompress_loop size output size_uncompressed rest ret = .ok (some b)) :
    b.offset = output.offset ∧ b.offset + b.length ≤ ONCE_BUFFER_SIZE := by
  have hzero : (output.resize (size_uncompressed + 2 * size)).buffer 0 = output.offset :=
    buffer_zero_of_eq rfl hoff
  rw [decompress_loop] at h
  simp only [hzero] at h
  split at h
  · cases h
  obtain ⟨stored, hstore, h⟩ := bind_eq_ok.mp h
  obtain ⟨hin, rfl⟩ := store_eq_ok hstore
  rw [List.length_take] at hin
  split at h
  · cases h
  split at h
  · split at h
    · cases h
    · have hrest := decompress_loop_eq_some (by exact hoff) h
      exact hrest
  · next hlast =>
    cases h
    refine ⟨rfl, ?_⟩
    show output.offset + (size_uncompressed + rest.length) ≤ ONCE_BUFFER_SIZE
    omega
termination_by rest.length
decreasing_by
  simp only [List.length_drop]
  omega

end gzip

namespace client_session_logic

/-- What `inflate` makes of a compressed body fits behind the space for a head and a uid. -/
def OutputFits (z : zlib) (l : client_session_logic) (head : protocol_head) (body : List UInt8) :
    Prop :=
  head.seq = l._seq + 1 → get_mask head.bytes body = 0 → head.len ≠ 0 →
    head.get_compressed = true → ∀ run, z.inflate (l.decrypt body) = some run →
      l.prefix_size + run.output.length ≤ ONCE_BUFFER_SIZE

theorem inArray_traced_unwrap_received_data (z : zlib) (l : client_session_logic)
    {data_block : once_buffer} {head : protocol_head} {body : List UInt8}
    (h : Unpacked data_block head body) {ret_block : once_buffer}
    (hoff : ret_block.offset = l.prefix_size) :
    Always access.InArray (l.traced_unwrap_received_data z data_block head ret_block) ↔
      l.OutputFits z head body := by
  have hroom := h.room
  have hlen := h.length_body
  have hhead : PROTO_HEAD_SIZE = 11 := rfl
  have hsize : ONCE_BUFFER_SIZE = 65536 := rfl
  have hspace : l.prefix_size = 15 := rfl
  have hload : data_block.load (data_block.buffer 0) head.len.toNat = .ok body := by
    rw [h.buffer_zero, load_of_le _ (by omega), h.read_eq]
  unfold traced_unwrap_received_data OutputFits
  simp only
  by_cases hseq : head.seq = l._seq + 1
  · rw [if_neg (not_not.mpr hseq), h.inArray_load_bind]
    by_cases hmask : get_mask head.bytes body = 0
    · rw [if_neg (not_not.mpr hmask.symm)]
      by_cases hempty : head.len = 0
      · rw [if_pos hempty]
        exact ⟨fun _ _ _ hne => absurd hempty hne, fun _ => always_pure _⟩
      · have hcrypt := (result_traced_crypt { l with _seq := l._seq + 1 } data_block
          head.len.toNat false).trans (crypt_decrypt hload)
        have hquiet : Always access.InArray (traced_crypt { l with _seq := l._seq + 1 } data_block
            head.len.toNat false) := by
          unfold traced_crypt
          rw [h.inArray_load_bind, h.buffer_zero, access.always_store, rc4.length_rc4_crypt]
          show data_block.offset + body.length ≤ ONCE_BUFFER_SIZE
          omega
        rw [if_neg hempty, always_bind_of_ok hcrypt, and_iff_right hquiet]
        by_cases hcompressed : head.get_compressed = true
        · have hinflate := gzip.inArray_traced_decompress z
            (load_decrypted_block (l := { l with _seq := l._seq + 1 }) hload)
            (fun hzero => hempty (UInt16.toNat_inj.mp hzero)) (by omega)
            (show ret_block.offset ≤ ONCE_BUFFER_SIZE by omega)
          rw [if_pos hcompressed, always_bind, hinflate, hoff, and_iff_left ?_]
          · exact ⟨fun h _ _ _ _ => h, fun h => h hseq hmask hempty hcompressed⟩
          · intro decompressed _
            cases decompressed with
            | none => exact always_pure _
            | some b => exact always_pure _
        · rw [if_neg hcompressed]
          exact ⟨fun _ _ _ _ htrue => absurd htrue hcompressed, fun _ => always_pure _⟩
    · rw [if_pos fun heq => hmask heq.symm]
      exact ⟨fun _ _ hzero => absurd hzero hmask, fun _ => always_pure _⟩
  · rw [if_pos hseq]
    exact ⟨fun _ heq => absurd heq hseq, fun _ => always_pure _⟩

/-- What is accepted lies in the array, at the start of the output. -/
theorem ret_block_fits {z : zlib} {l : client_session_logic} {data_block ret_block : once_buffer}
    {head : protocol_head} {r : unwrapped client_session_logic}
    (hfit : ret_block.offset + ret_block.length ≤ ONCE_BUFFER_SIZE)
    (h : l.unwrap_received_data z data_block head ret_block = .ok r) :
    r.ret_block.offset = ret_block.offset ∧
      r.ret_block.offset + r.ret_block.length ≤ ONCE_BUFFER_SIZE := by
  unfold unwrap_received_data at h
  simp only at h
  split at h
  · cases h
    exact ⟨rfl, hfit⟩
  obtain ⟨body, -, h⟩ := bind_eq_ok.mp h
  split at h
  · cases h
    exact ⟨rfl, hfit⟩
  split at h
  · cases h
    exact ⟨rfl, hfit⟩
  obtain ⟨buffer, -, h⟩ := bind_eq_ok.mp h
  split at h
  · obtain ⟨decompressed, hdecompress, h⟩ := bind_eq_ok.mp h
    cases decompressed with
    | none =>
      cases h
      exact ⟨rfl, hfit⟩
    | some b =>
      cases h
      unfold gzip.decompress at hdecompress
      split at hdecompress
      · cases hdecompress
      obtain ⟨input, -, hdecompress⟩ := bind_eq_ok.mp hdecompress
      split at hdecompress
      · cases hdecompress
      · exact gzip.decompress_loop_eq_some (by omega) hdecompress
  · cases h
    exact ⟨rfl, hfit⟩

/-- The uid goes in front of the data, and they are sent with the data's length. -/
theorem inArray_traced_try_copy_to_storage (z : zlib) (stale : recycled) (w : proxy_manager)
    (i : session_sptr) (l : client_session_logic) {data : once_buffer}
    (hoff : data.offset = l.prefix_size) (hfit : data.offset + data.length ≤ ONCE_BUFFER_SIZE) :
    Always access.InArray (l.traced_try_copy_to_storage z stale w i data) := by
  have hsize : ONCE_BUFFER_SIZE = 65536 := rfl
  have hspace : l.prefix_size = 15 := rfl
  have hwidth : SIZEOF_SESSION_UID = 4 := rfl
  have hhead : PROTO_HEAD_SIZE = 11 := rfl
  have huid := length_write_uint32 (w.sessions i)._uuid
  unfold traced_try_copy_to_storage
  simp only
  rw [inArray_store_bind, always_bind, proxy_manager.inArray_traced_send_to, origin_buffer_eq, huid]
  refine ⟨by omega, ?_, fun _ _ => always_pure _⟩
  intro s _ _
  have hmoved : size_t_sub data.offset SIZEOF_SESSION_UID = 11 := by
    rw [hoff, hspace, hwidth]
    decide
  have hpos : ∀ (length : Nat) (bytes : Nat → UInt8),
      reusabel_buffer.buffer (⟨11, length, bytes⟩ : once_buffer) 0 = 11 :=
    fun _ _ => buffer_zero_of_eq rfl (by decide)
  simp only [hmoved, hpos]
  omega

theorem inArray_traced_handle_msg (z : zlib) (stale : recycled) {w : proxy_manager}
    {i : session_sptr} {l : client_session_logic}
    (hlogic : (w.sessions i)._logic = .client_session l)
    {data_block : once_buffer} {head : protocol_head} {body : List UInt8}
    (h : Unpacked data_block head body) :
    Always access.InArray (w.traced_handle_msg z stale i head data_block) ↔
      l.OutputFits z head body := by
  unfold proxy_manager.traced_handle_msg proxy_manager.traced_unwrap_received_data
    proxy_manager.traced_try_copy_to_storage
  simp only [hlogic, bind_assoc, pure_bind, proxy_manager.sessions_set_logic_self,
    basic_async_session.logic_modify_session_logic]
  rw [always_bind, inArray_traced_unwrap_received_data z l h rfl, and_iff_left]
  -- what is accepted can be stored
  intro r hr
  rw [result_traced_unwrap_received_data] at hr
  have hsize : ONCE_BUFFER_SIZE = 65536 := rfl
  have hprefix_size : (session_logic.client_session l).prefix_size = 15 := rfl
  have hspace : (session_logic.client_session l).prefix_size + 0 ≤ ONCE_BUFFER_SIZE := by
    omega
  obtain ⟨hoff, hfit⟩ := ret_block_fits hspace hr
  rw [always_ite]
  refine ⟨fun _ => always_pure _, fun _ => ?_⟩
  rw [always_bind]
  refine ⟨?_, fun _ _ => always_pure _⟩
  exact inArray_traced_try_copy_to_storage z _ _ i r.state hoff hfit

end client_session_logic

/-! ### All of them -/

namespace receiving_session

/-- What the logic computes from the frame's length fits the array. -/
def Fits (s : receiving_session) (stale : recycled) (start : Nat) (head : protocol_head)
    (body : List UInt8) : Prop :=
  match s with
  | .proxy z w i =>
    match (w.sessions i)._logic with
    | .default_session l => l.RequestFits start head body
    | .client_session l => l.OutputFits z head body
    | .server_session l => l.BodyFits (stale 0) w head body
  | .active_server l => l.BodyFits start head body
  | .inner _ => True

/-- The body is copied to the block, which is handed over. -/
theorem inArray_unpack_msg_bind {data_block : once_buffer} {head : protocol_head}
    {body : List UInt8} (hlen : body.length = head.len.toNat)
    (hroom : data_block.offset + (PROTO_HEAD_SIZE + body.length) ≤ ONCE_BUFFER_SIZE) :
    ∃ block, Unpacked block head body ∧ block.offset = data_block.offset ∧
      ∀ f : once_buffer → Traced access fault Unit,
        Always access.InArray (traced_unpack_msg data_block body >>= f) ↔
          Always access.InArray (f block) := by
  have hsize : ONCE_BUFFER_SIZE = 65536 := rfl
  refine ⟨recv_session.block_of data_block body, ⟨?_, hlen, hlen ▸ hroom⟩, rfl, ?_⟩
  · rw [← hlen]
    exact read_write _ _ _
  · intro f
    unfold traced_unpack_msg
    rw [bind_assoc, inArray_copy_bind (by omega), and_iff_right (by omega), pure_bind]
    rfl

/-- **Unwrapping stays inside the buffers** exactly for the frames that fit. -/
theorem in_arrays_iff (s : receiving_session) (stale : recycled) {data_block : once_buffer}
    {head : protocol_head} {body : List UInt8} (hlen : body.length = head.len.toNat)
    (hroom : data_block.offset + (PROTO_HEAD_SIZE + body.length) ≤ ONCE_BUFFER_SIZE) :
    Always access.InArray (s.traced_receive stale data_block head body) ↔
      s.Fits stale data_block.offset head body := by
  obtain ⟨block, hblock, hoff, hunpack⟩ := inArray_unpack_msg_bind hlen hroom
  unfold traced_receive Fits
  rw [hunpack, ← hoff]
  cases s with
  | proxy z w i =>
    simp only
    rw [always_bind, and_iff_left (fun _ _ => always_pure _)]
    cases hlogic : (w.sessions i)._logic with
    | default_session l =>
      exact default_session_logic.inArray_traced_handle_msg z stale hlogic hblock
    | client_session l =>
      exact client_session_logic.inArray_traced_handle_msg z stale hlogic hblock
    | server_session l =>
      exact server_session_logic.inArray_traced_handle_msg z stale hlogic hblock
  | active_server l =>
    simp only
    rw [always_bind, and_iff_left (fun _ _ => always_pure _)]
    exact active_server_session_logic.inArray_traced_handle_msg stale l hblock
  | inner l =>
    simp only
    rw [always_bind, and_iff_left (fun _ _ => always_pure _), iff_true]
    exact inner_session_logic.inArray_traced_handle_msg stale l hblock

/-- A session just accepted, in its table. -/
def one_visitor : proxy_manager :=
  (proxy_manager.initial fun _ => rc4_info.of_zero_rand).accept_a_session 0 0
    rc4_info.of_zero_rand ⟨0, 0, [], 0⟩ 0

/-- A request with an empty platform stays inside. -/
theorem in_arrays_eight_bytes :
    Always access.InArray ((receiving_session.proxy zlib.stored one_visitor 0).traced_receive
      (fun _ _ => 0) (TEMP_BUFFER fun _ => 0)
      (default_session_logic.first_head [0, 1, 0, 2, 9, 0, 0, 0]) [0, 1, 0, 2, 9, 0, 0, 0]) :=
  (in_arrays_iff _ _ rfl (by decide)).mpr fun _ _ _ => by decide

/-- One of seven bytes does not: its platform has a length of 65535. -/
theorem not_always_in_arrays :
    ¬ ∀ (s : receiving_session) (stale : recycled) (data_block : once_buffer)
      (head : protocol_head) (body : List UInt8), body.length = head.len.toNat →
      data_block.offset + (PROTO_HEAD_SIZE + body.length) ≤ ONCE_BUFFER_SIZE →
      Always access.InArray (s.traced_receive stale data_block head body) := by
  intro hall
  have hfits := (in_arrays_iff (.proxy zlib.stored one_visitor 0) (fun _ _ => 0) rfl
    (by decide)).mp (hall (.proxy zlib.stored one_visitor 0) (fun _ _ => 0)
      (TEMP_BUFFER fun _ => 0) (default_session_logic.first_head [0, 1, 0, 2, 9, 0, 0])
      [0, 1, 0, 2, 9, 0, 0] rfl (by decide))
  have hauthenticates := @default_session_logic.authenticates_first_head [0, 1, 0, 2, 9, 0, 0]
    (by decide)
  exact absurd (hfits hauthenticates.1 hauthenticates.2.1 hauthenticates.2.2) (by decide)

end receiving_session

end AsioNet
