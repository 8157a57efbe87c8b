import AsioNet.Compression
import AsioNet.ProtoMask
import AsioNet.Rc4
import AsioNet.SessionLogic

/-! # The logic of a client's session (`client_session_logic.cpp`)

    Frames from the client are checked, decrypted and decompressed on their way
    in, data for the client is compressed, encrypted and framed on its way out.
-/

namespace AsioNet

open ByteMemory reusabel_buffer proto_mask

structure client_session_logic where
  _rc4_info : rc4_info
  _seq : UInt32
  _server_info : server_info
  _target_uid : session_uid

namespace client_session_logic

def get_session_type (_l : client_session_logic) : SessionType := SessionType.CLIENT_PROXY

def prefix_size (_l : client_session_logic) : Nat := PROTO_HEAD_SIZE + SIZEOF_SESSION_UID

/-- `rc4_crypt` over the content of `buffer`, in place. -/
def crypt (l : client_session_logic) (buffer : once_buffer) (length : Nat) (E : Bool) :
    Checked once_buffer := do
  let data ← buffer.load (buffer.buffer 0) length
  buffer.store (buffer.buffer 0)
    (rc4.rc4_crypt l._rc4_info.rc4_modvt_ l._rc4_info.rc4_key_ data l._rc4_info.rc4_subtract_ E)

def unwrap_received_data (z : zlib) (l : client_session_logic) (buffer : once_buffer)
    (head : protocol_head) (ret_block : once_buffer) :
    Checked (unwrapped client_session_logic) := do
  let l := { l with _seq := l._seq + 1 }
  if head.seq ≠ l._seq then
    pure ⟨false, l, buffer, ret_block⟩
  else
    let body ← buffer.load (buffer.buffer 0) head.len.toNat
    if 0 ≠ get_mask head.bytes body then
      pure ⟨false, l, buffer, ret_block⟩
    -- a keep-alive: nothing is decrypted, and the empty output is accepted
    else if head.len = 0 then
      pure ⟨true, l, buffer, ret_block⟩
    else
      let buffer ← l.crypt buffer head.len.toNat false
      if head.get_compressed then
        -- a thrown exception drops the frame
        match ← gzip.decompress z ret_block buffer (buffer.buffer 0) head.len.toNat with
        | none => pure ⟨false, l, buffer, ret_block⟩
        | some ret_block => pure ⟨true, l, buffer, ret_block⟩
      else
        pure ⟨true, l, buffer, ret_block⟩

/-- The first part of `wrap_to_send_data`: the buffer to send and whether it is
    compressed, `none` where the source returns early. -/
def compress_to_send (z : zlib) (stale : Nat → UInt8) (buffer : once_buffer) :
    Checked (Option (once_buffer × Bool)) := do
  if buffer.length > K_SIZE_COMPRESS then
    match ← gzip.compress z (TEMP_BUFFER stale) buffer (buffer.buffer 0) buffer.length with
    | none => pure none
    | some compress_ret =>
      if compress_ret.length = 0 then
        pure none
      else if compress_ret.length < buffer.length then
        pure (some (compress_ret, true))
      else
        pure (some (buffer, false))
  else
    pure (some (buffer, false))

/-- The head `wrap_to_send_data` puts in front of `length` bytes. -/
def head_to_send (l : client_session_logic) (length : Nat) (compressed : Bool) : protocol_head :=
  protocol_head.get_a_head FRAME_KEY (UInt16.ofNat length) 0
    protocol_cmd.Commands_RoutingTransparent.val compressed l._seq

/-- `stale` is the content of the buffer taken for the compressed data. -/
def wrap_to_send_data (z : zlib) (stale : Nat → UInt8) (l : client_session_logic)
    (buffer : once_buffer) : Checked once_buffer := do
  match ← compress_to_send z stale buffer with
  | none => pure buffer
  | some (buffer, compressed) =>
    let buffer ← l.crypt buffer buffer.length true
    let buffer ← write_head (l.head_to_send buffer.length compressed) buffer.length buffer
    if buffer.offset ≠ 0 then
      throw .assertion_failed
    else
      pure buffer

def inherit_logic (rc4_info_ : rc4_info) (seq_ : UInt32) (server_info_ : server_info)
    (target_uid : session_uid) : client_session_logic where
  _rc4_info := rc4_info_
  _seq := seq_
  _server_info := server_info_
  _target_uid := target_uid

/-! ### What `wrap_to_send_data` makes of a buffer -/

/-- The encrypted data. -/
def encrypt (l : client_session_logic) (data : List UInt8) : List UInt8 :=
  rc4.rc4_crypt l._rc4_info.rc4_modvt_ l._rc4_info.rc4_key_ data l._rc4_info.rc4_subtract_ true

def decrypt (l : client_session_logic) (data : List UInt8) : List UInt8 :=
  rc4.rc4_crypt l._rc4_info.rc4_modvt_ l._rc4_info.rc4_key_ data l._rc4_info.rc4_subtract_ false

@[simp] theorem length_encrypt (l : client_session_logic) (data : List UInt8) :
    (l.encrypt data).length = data.length :=
  rc4.length_rc4_crypt ..

@[simp] theorem decrypt_encrypt (l : client_session_logic) (data : List UInt8) :
    l.decrypt (l.encrypt data) = data :=
  rc4.rc4_crypt_cancel _ _ data _ true

theorem crypt_eq (l : client_session_logic) {buffer : once_buffer}
    (hfit : buffer.offset + buffer.length ≤ ONCE_BUFFER_SIZE) :
    l.crypt buffer buffer.length true =
      .ok { buffer with
        _buffer := write buffer._buffer buffer.offset (l.encrypt buffer.content) } := by
  have hpos : buffer.buffer 0 = buffer.offset := buffer_zero_of_eq rfl (by omega)
  have hlen : (l.encrypt buffer.content).length = buffer.length := by
    rw [length_encrypt, content, length_read]
  rw [crypt, hpos, load_of_le _ hfit, ok_bind]
  exact store_of_le _ (by rw [← hlen] at hfit; exact hfit)

theorem compress_to_send_small (z : zlib) (stale : Nat → UInt8) {buffer : once_buffer}
    (h : buffer.length ≤ K_SIZE_COMPRESS) :
    compress_to_send z stale buffer = .ok (some (buffer, false)) := by
  rw [compress_to_send, if_neg (Nat.not_lt.mpr h)]
  rfl

/-- `compress` throws when zlib cannot be initialised. -/
theorem compress_to_send_throws {z : zlib} (stale : Nat → UInt8) {buffer : once_buffer}
    (h : K_SIZE_COMPRESS < buffer.length)
    (hfit : buffer.offset + buffer.length ≤ ONCE_BUFFER_SIZE)
    (hz : z.deflate buffer.content = none) :
    compress_to_send z stale buffer = .ok none := by
  have hpos : buffer.buffer 0 = buffer.offset := buffer_zero_of_eq rfl (by omega)
  have hsize : ONCE_BUFFER_SIZE = 65536 := rfl
  unfold content at hz
  rw [compress_to_send, if_pos h, hpos, gzip.compress, if_neg (by omega), load_of_le _ hfit,
    ok_bind, hz]
  rfl

/-- A larger buffer is compressed first. -/
theorem compress_to_send_large {z : zlib} (stale : Nat → UInt8) {buffer : once_buffer}
    {s : List UInt8} (h : K_SIZE_COMPRESS < buffer.length)
    (hfit : buffer.offset + buffer.length ≤ ONCE_BUFFER_SIZE)
    (hs : z.deflate buffer.content = some s) :
    compress_to_send z stale buffer =
      if ONCE_BUFFER_SIZE < s.length then .error .out_of_bounds
      else .ok (if s.length = 0 then none
        else if s.length < buffer.length then
          some ({ offset := 0, length := s.length, _buffer := write stale 0 s }, true)
        else some (buffer, false)) := by
  have hpos : buffer.buffer 0 = buffer.offset := buffer_zero_of_eq rfl (by omega)
  have hsize : ONCE_BUFFER_SIZE = 65536 := rfl
  rw [compress_to_send, if_pos h, hpos, gzip.compress, if_neg (by omega), load_of_le _ hfit,
    ok_bind]
  rw [content] at hs
  simp only [hs]
  by_cases hover : ONCE_BUFFER_SIZE < s.length
  · -- the stream does not fit the output buffer
    rw [if_pos hover, gzip.compress_loop_overrun _ _ _ _ (by simpa [TEMP_BUFFER] using hover)
      (by simp [TEMP_BUFFER])]
    rfl
  · rw [if_neg hover, gzip.compress_loop_ok _ _ _ _ (by
      simp only [TEMP_BUFFER]; omega)]
    -- the three ways out: nothing produced, smaller, not smaller
    simp only [ok_bind, pure_eq_ok, TEMP_BUFFER, Nat.zero_add]
    split
    · rfl
    · split <;> rfl

/-- An early return leaves the buffer as it came. -/
theorem wrap_to_send_data_of_none {z : zlib} {stale : Nat → UInt8} (l : client_session_logic)
    {buffer : once_buffer} (h : compress_to_send z stale buffer = .ok none) :
    l.wrap_to_send_data z stale buffer = .ok buffer := by
  rw [wrap_to_send_data, h, ok_bind, pure_eq_ok]

/-- Data that stays uncompressed is encrypted where it is and framed. -/
theorem wrap_to_send_data_plain {z : zlib} {stale : Nat → UInt8} (l : client_session_logic)
    {buffer : once_buffer} (hoff : buffer.offset = PROTO_HEAD_SIZE)
    (hfit : PROTO_HEAD_SIZE + buffer.length ≤ ONCE_BUFFER_SIZE)
    (hplain : compress_to_send z stale buffer = .ok (some (buffer, false))) :
    ∃ b, l.wrap_to_send_data z stale buffer = .ok b ∧ b.offset = 0 ∧
      b.length = PROTO_HEAD_SIZE + buffer.length ∧
      b.content = (masked_head (l.head_to_send buffer.length false)
        (l.encrypt buffer.content)).bytes ++ l.encrypt buffer.content := by
  -- `b` is the buffer after encryption in place
  generalize hb : ({ buffer with
    _buffer := write buffer._buffer buffer.offset (l.encrypt buffer.content) } : once_buffer) = b
  have hb_off : b.offset = PROTO_HEAD_SIZE := by rw [← hb, hoff]
  have hb_len : b.length = buffer.length := by rw [← hb]
  have hb_content : b.content = l.encrypt buffer.content := by
    rw [← hb]
    exact read_write_of_length _ _ _ _ (by rw [length_encrypt, content, length_read])
  have hcrypt : l.crypt buffer buffer.length true = .ok b := by
    rw [← hb, crypt_eq l (by omega)]
  refine ⟨framed (l.head_to_send buffer.length false) b, ?_, rfl, ?_, ?_⟩
  · rw [wrap_to_send_data, hplain]
    simp only [ok_bind, hcrypt]
    rw [hb_len, ← hb_len, write_head_eq _ hb_off (by omega), ok_bind, if_neg (by simp),
      pure_eq_ok]
  · rw [framed_length, hb_len]
  · rw [content_framed _ hb_off, hb_content]

/-- Data that compresses leaves no space for the head: it overwrites the data and
    the offset wraps around, which the assertion at the end notices. -/
theorem wrap_to_send_data_compressed {z : zlib} {stale : Nat → UInt8} (l : client_session_logic)
    {buffer compressed : once_buffer} (hoff : compressed.offset = 0)
    (hfit : compressed.length ≤ ONCE_BUFFER_SIZE)
    (hcompressed : compress_to_send z stale buffer = .ok (some (compressed, true))) :
    l.wrap_to_send_data z stale buffer = .error .assertion_failed := by
  obtain ⟨b, hb, hwrapped⟩ := write_head_of_no_space (l.head_to_send compressed.length true)
    { compressed with
      _buffer := write compressed._buffer compressed.offset (l.encrypt compressed.content) }
    hoff hfit
  rw [wrap_to_send_data, hcompressed]
  simp only [ok_bind]
  rw [crypt_eq l (by omega), ok_bind, hb, ok_bind, if_pos hwrapped]
  rfl

end client_session_logic

end AsioNet
