import AsioNet.ServerSessionLogic

/-! # The logic of a session before authentication (`default_session_logic.cpp`)

    What the logic keeps, how it frames its answer and what it turns into.
    Receiving an authentication request involves the proxy's session tables and
    is modelled with them.
-/

namespace AsioNet

open ByteMemory reusabel_buffer proto_mask

structure default_session_logic where
  _authentication : AuthenticationState
  _target_uid : session_uid
  _rc4_info : rc4_info
  _server_info : server_info
  _seq : UInt32

namespace default_session_logic

def get_session_type (_l : default_session_logic) : SessionType :=
  SessionType.SINGLE_SESSION_BEGIN

def prefix_size (_l : default_session_logic) : Nat := PROTO_HEAD_SIZE

/-- `DEFAULT_SESSION_LOGIC`: a pooled object after `reset`, which draws a new
    cipher and leaves `_server_info` as it was. -/
def reset (new_one : rc4_info) (left_over : server_info) : default_session_logic where
  _authentication := .BEFORE_VERIFY
  _target_uid := 0
  _rc4_info := new_one
  _server_info := left_over
  _seq := 0

/-- The head of all frames this logic builds around `length` bytes. -/
def head_to_send (l : default_session_logic) (length : Nat) : protocol_head :=
  protocol_head.get_a_head FRAME_KEY (UInt16.ofNat length) 0
    protocol_cmd.Commands_AuthenticationAAA.val false l._seq

def wrap_to_send_data (l : default_session_logic) (buffer : once_buffer) :
    Checked once_buffer :=
  let head := l.head_to_send buffer.length
  -- the mask covers `head->len` bytes
  write_head head head.len.toNat buffer

def trans_to_server (l : default_session_logic) : server_session_logic :=
  server_session_logic.inherit_logic l._server_info l._seq

def trans_to_client (l : default_session_logic) : client_session_logic :=
  client_session_logic.inherit_logic l._rc4_info l._seq l._server_info l._target_uid

/-- The buffer `echo_authentication_res` gives to `async_send`. -/
def pack_authentication_res (l : default_session_logic) (stale : Nat → UInt8)
    (ec : TransferError) : Checked once_buffer := do
  let send_buffer := { TEMP_BUFFER stale with offset := l.prefix_size }
  let (send_buffer, len) ← authentication_aaa_response.pack send_buffer (send_buffer.buffer 0)
    ec.val (UInt8.ofInt l._rc4_info.rc4_subtract_) (UInt8.ofNat l._rc4_info.rc4_modvt_)
    l._rc4_info.rc4_key_ l._target_uid l._server_info.link_type_
  pure (send_buffer.resize (send_buffer.length + len))

/-- The bytes `pack` writes for this logic. -/
def response_fields (l : default_session_logic) (ec : TransferError) : List UInt8 :=
  authentication_aaa_response.fields ec.val (UInt8.ofInt l._rc4_info.rc4_subtract_)
    (UInt8.ofNat l._rc4_info.rc4_modvt_) l._rc4_info.rc4_key_ l._target_uid
    l._server_info.link_type_

@[simp] theorem length_response_fields (l : default_session_logic) (ec : TransferError) :
    (l.response_fields ec).length = 18 := by
  simp [response_fields, authentication_aaa_response.fields, l._rc4_info.length_key, RC4_KEY_LEN]

/-- The response counts two bytes more than it packs. -/
theorem pack_authentication_res_spec (l : default_session_logic) (stale : Nat → UInt8)
    (ec : TransferError) :
    ∃ b, l.pack_authentication_res stale ec = .ok b ∧ b.offset = PROTO_HEAD_SIZE ∧
      b.length = 20 ∧ b.content = l.response_fields ec ++ [stale 29, stale 30] := by
  have hkey : l._rc4_info.rc4_key_.length = 10 := l._rc4_info.length_key
  have hfields := l.length_response_fields ec
  rw [pack_authentication_res]
  simp only [prefix_size, TEMP_BUFFER]
  rw [buffer_zero_of_eq (n := PROTO_HEAD_SIZE) rfl (by decide),
    authentication_aaa_response.pack_eq _ (by rw [hkey]; decide), ok_bind, pure_eq_ok]
  refine ⟨_, rfl, rfl, ?_, ?_⟩
  · simp only [resize, hkey]
    rfl
  · simp only [resize, content, hkey]
    -- eighteen bytes are written, the two behind them are stale
    show read (write stale PROTO_HEAD_SIZE (l.response_fields ec)) PROTO_HEAD_SIZE (18 + 2) = _
    rw [read_add, read_write_of_length _ _ _ _ hfields,
      read_write_of_disjoint _ _ _ _ _ (Or.inr (by rw [hfields]))]
    rfl

theorem wrap_to_send_data_eq (l : default_session_logic) {buffer : once_buffer}
    (hoff : buffer.offset = PROTO_HEAD_SIZE)
    (hfit : PROTO_HEAD_SIZE + buffer.length ≤ ONCE_BUFFER_SIZE) :
    l.wrap_to_send_data buffer = .ok (framed (l.head_to_send buffer.length) buffer) := by
  have hlen : (l.head_to_send buffer.length).len.toNat = buffer.length := by
    simp only [head_to_send, protocol_head.get_a_head_len, UInt16.toNat_ofNat']
    simp only [PROTO_HEAD_SIZE, ONCE_BUFFER_SIZE] at hfit
    omega
  rw [wrap_to_send_data]
  simp only [hlen]
  exact write_head_eq _ hoff hfit

end default_session_logic

end AsioNet
