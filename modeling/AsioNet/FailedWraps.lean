import AsioNet.ProxyManager

/-! # What is sent when wrapping fails (`client_session_logic.cpp`)

    `wrap_to_send_data` returns early when compressing throws or gives nothing. The
    buffer is then as it came, without a head and unencrypted, and `async_send` writes
    it all the same.

    The other way out without a frame is the failed assertion after compressing, which
    ends the process before anything is written. `frame_or_nothing_iff` says when the
    socket gets a frame or nothing.
-/

namespace AsioNet

open ByteMemory reusabel_buffer proto_mask

namespace client_session_logic

/-- A whole frame of this logic around `payload`: the head announces what follows, the
    mask verifies, and the body is the payload encrypted, compressed or not. -/
structure IsFrame (z : zlib) (l : client_session_logic) (payload region : List UInt8)
    (head : protocol_head) (body : List UInt8) : Prop where
  region_eq : region = head.bytes ++ body
  len : head.len.toNat = body.length
  mask : get_mask head.bytes body = 0
  seq : head.seq = l._seq
  cmd : head.get_cmd = protocol_cmd.Commands_RoutingTransparent.val
  encrypted : (head.get_compressed = false ∧ body = l.encrypt payload) ∨
    ∃ stream, head.get_compressed = true ∧ z.deflate payload = some stream ∧
      body = l.encrypt stream

/-- What `async_send` gives to the socket is one whole frame or nothing. -/
def FrameOrNothing (z : zlib) (stale : Nat → UInt8) (s : basic_async_session session_logic)
    (l : client_session_logic) (buffer : once_buffer) : Prop :=
  (∃ s', s.async_send (session_logic.wrap_to_send_data z stale) buffer = .ok s' ∧
    (s'.written = s.written ∨ ∃ region head body, s'.written = s.written ++ [region] ∧
      IsFrame z l buffer.content region head body)) ∨
  -- the process ends before the write
  s.async_send (session_logic.wrap_to_send_data z stale) buffer = .error .assertion_failed

/-! ### The early returns -/

variable {z : zlib} {stale : Nat → UInt8} {s : basic_async_session session_logic}
  {l : client_session_logic} {buffer : once_buffer}

/-- The buffer that comes out of an early return is written. -/
theorem async_send_of_none (hlogic : s._logic = .client_session l)
    (hstate : s._state = .CONNECTING)
    (hfit : buffer.offset + buffer.length ≤ ONCE_BUFFER_SIZE)
    (h : compress_to_send z stale buffer = .ok none) :
    ∃ s', s.async_send (session_logic.wrap_to_send_data z stale) buffer = .ok s' ∧
      s'.written = s.written ++ [buffer.content] := by
  have hwrap : session_logic.wrap_to_send_data z stale s._logic buffer =
      .ok (s._logic, buffer) := by
    rw [hlogic]
    simp only [session_logic.wrap_to_send_data, l.wrap_to_send_data_of_none h, ok_bind,
      pure_eq_ok]
  exact ⟨_, basic_async_session.async_send_of_wrap hstate hwrap hfit, rfl⟩

/-- A frame around a payload that was not compressed, and could not be into nothing, is
    longer than the payload. -/
theorem not_isFrame_content (hlong : K_SIZE_COMPRESS < buffer.length)
    (hz : ∀ stream, z.deflate buffer.content = some stream → stream = [])
    (head : protocol_head) (body : List UInt8) :
    ¬ IsFrame z l buffer.content buffer.content head body := by
  intro hframe
  have hlen := congrArg List.length hframe.region_eq
  have hcontent : buffer.content.length = buffer.length := length_read _ _ _
  have hhead : PROTO_HEAD_SIZE = 11 := rfl
  have hsize : K_SIZE_COMPRESS = 64 := rfl
  rw [List.length_append, protocol_head.length_bytes, hcontent] at hlen
  rcases hframe.encrypted with ⟨-, hbody⟩ | ⟨stream, -, hstream, hbody⟩
  · rw [hbody, length_encrypt, hcontent] at hlen
    omega
  · rw [hbody, length_encrypt, hz stream hstream, List.length_nil] at hlen
    omega

/-- Without a stream the payload goes out as it is. -/
theorem not_frame_or_nothing_of_no_stream (hlogic : s._logic = .client_session l)
    (hstate : s._state = .CONNECTING)
    (hfit : buffer.offset + buffer.length ≤ ONCE_BUFFER_SIZE)
    (hlong : K_SIZE_COMPRESS < buffer.length)
    (hz : ∀ stream, z.deflate buffer.content = some stream → stream = []) :
    ¬ FrameOrNothing z stale s l buffer := by
  -- an exception or an empty result
  have hnone : compress_to_send z stale buffer = .ok none := by
    cases hdeflate : z.deflate buffer.content with
    | none => exact compress_to_send_throws stale hlong hfit hdeflate
    | some stream =>
      obtain rfl := hz stream hdeflate
      rw [compress_to_send_large stale hlong hfit hdeflate]
      rfl
  obtain ⟨sent, hsent, hwritten⟩ := async_send_of_none hlogic hstate hfit hnone
  unfold FrameOrNothing
  rw [hsent]
  rintro (⟨s', hs', hok⟩ | herror)
  · obtain rfl := Except.ok.inj hs'
    rw [hwritten] at hok
    rcases hok with hnothing | ⟨region, head, body, hregion, hframe⟩
    · -- something was written
      exact absurd (congrArg List.length hnothing) (by simp)
    · obtain rfl := List.singleton_inj.mp (List.append_cancel_left hregion)
      exact not_isFrame_content hlong hz head body hframe
  · cases herror

/-- A stream that is too long is written over the end of its array. -/
theorem not_frame_or_nothing_of_overrun {stream : List UInt8}
    (hlogic : s._logic = .client_session l) (hstate : s._state = .CONNECTING)
    (hfit : buffer.offset + buffer.length ≤ ONCE_BUFFER_SIZE)
    (hlong : K_SIZE_COMPRESS < buffer.length) (hz : z.deflate buffer.content = some stream)
    (hover : ONCE_BUFFER_SIZE < stream.length) : ¬ FrameOrNothing z stale s l buffer := by
  have hcompress := compress_to_send_large stale hlong hfit hz
  rw [if_pos hover] at hcompress
  have hwrap : session_logic.wrap_to_send_data z stale s._logic buffer =
      .error .out_of_bounds := by
    rw [hlogic]
    simp only [session_logic.wrap_to_send_data, wrap_to_send_data, hcompress, error_bind]
  have hsent := basic_async_session.async_send_of_wrap_fault hstate hwrap
  unfold FrameOrNothing
  rw [hsent]
  rintro (⟨s', hs', -⟩ | herror)
  · cases hs'
  · cases herror

/-! ### The ways to a frame -/

/-- Data that stays uncompressed goes out as a frame. -/
theorem frame_or_nothing_of_plain (hlogic : s._logic = .client_session l)
    (hstate : s._state = .CONNECTING) (hoff : buffer.offset = PROTO_HEAD_SIZE)
    (hfit : PROTO_HEAD_SIZE + buffer.length ≤ ONCE_BUFFER_SIZE)
    (h : compress_to_send z stale buffer = .ok (some (buffer, false))) :
    FrameOrNothing z stale s l buffer := by
  obtain ⟨b, hb, hboff, hblen, hcontent⟩ := l.wrap_to_send_data_plain hoff hfit h
  have hwrap : session_logic.wrap_to_send_data z stale s._logic buffer = .ok (s._logic, b) := by
    rw [hlogic]
    simp only [session_logic.wrap_to_send_data, hb, ok_bind, pure_eq_ok]
  have hsent := basic_async_session.async_send_of_wrap hstate hwrap
    (by rw [hboff, hblen, Nat.zero_add]; exact hfit)
  have hsize : ONCE_BUFFER_SIZE = 65536 := rfl
  have hhead : PROTO_HEAD_SIZE = 11 := rfl
  have hlen : (l.encrypt buffer.content).length = buffer.length := by
    rw [length_encrypt]
    exact length_read _ _ _
  refine Or.inl ⟨_, hsent, Or.inr ⟨b.content, _, _, rfl, ⟨hcontent, ?_, ?_, ?_, ?_, ?_⟩⟩⟩
  · rw [masked_head_len, hlen]
    show (UInt16.ofNat buffer.length).toNat = buffer.length
    rw [UInt16.toNat_ofNat', Nat.mod_eq_of_lt (by omega)]
  · exact get_mask_masked_head _ _ rfl (by omega)
  · rfl
  · rw [masked_head_get_cmd]
    unfold head_to_send
    rw [protocol_head.get_cmd_get_a_head]
    decide
  · refine Or.inl ⟨?_, rfl⟩
    rw [masked_head_get_compressed]
    exact protocol_head.get_compressed_get_a_head ..

/-- Data that compresses runs into the assertion. -/
theorem frame_or_nothing_of_compressed {compressed : once_buffer}
    (hlogic : s._logic = .client_session l) (hstate : s._state = .CONNECTING)
    (hoff : compressed.offset = 0) (hfit : compressed.length ≤ ONCE_BUFFER_SIZE)
    (h : compress_to_send z stale buffer = .ok (some (compressed, true))) :
    FrameOrNothing z stale s l buffer := by
  have hfault := l.wrap_to_send_data_compressed hoff hfit h
  have hwrap : session_logic.wrap_to_send_data z stale s._logic buffer =
      .error .assertion_failed := by
    rw [hlogic]
    simp only [session_logic.wrap_to_send_data, hfault, error_bind]
  exact Or.inr (basic_async_session.async_send_of_wrap_fault hstate hwrap)

/-- A stream that fits is sent if it is smaller than the payload, and stops at the
    assertion; otherwise the payload is sent. -/
theorem frame_or_nothing_of_stream {stream : List UInt8} (hlogic : s._logic = .client_session l)
    (hstate : s._state = .CONNECTING) (hoff : buffer.offset = PROTO_HEAD_SIZE)
    (hfit : PROTO_HEAD_SIZE + buffer.length ≤ ONCE_BUFFER_SIZE)
    (hlong : K_SIZE_COMPRESS < buffer.length) (hz : z.deflate buffer.content = some stream)
    (hne : stream ≠ []) (hle : stream.length ≤ ONCE_BUFFER_SIZE) :
    FrameOrNothing z stale s l buffer := by
  have hcompress := compress_to_send_large stale hlong (by rw [hoff]; exact hfit) hz
  rw [if_neg (Nat.not_lt.mpr hle), if_neg (mt List.length_eq_zero_iff.mp hne)] at hcompress
  by_cases hsmaller : stream.length < buffer.length
  · rw [if_pos hsmaller] at hcompress
    exact frame_or_nothing_of_compressed hlogic hstate rfl hle hcompress
  · rw [if_neg hsmaller] at hcompress
    exact frame_or_nothing_of_plain hlogic hstate hoff hfit hcompress

/-- **A frame or nothing**: exactly if the payload is too short to be compressed, or
    compressing it gives a stream that is not empty and fits the buffer. -/
theorem frame_or_nothing_iff (z : zlib) (stale : Nat → UInt8)
    (hlogic : s._logic = .client_session l) (hstate : s._state = .CONNECTING)
    (hoff : buffer.offset = PROTO_HEAD_SIZE)
    (hfit : PROTO_HEAD_SIZE + buffer.length ≤ ONCE_BUFFER_SIZE) :
    FrameOrNothing z stale s l buffer ↔
      buffer.length ≤ K_SIZE_COMPRESS ∨ ∃ stream, z.deflate buffer.content = some stream ∧
        stream ≠ [] ∧ stream.length ≤ ONCE_BUFFER_SIZE := by
  have hfit' : buffer.offset + buffer.length ≤ ONCE_BUFFER_SIZE := by
    rw [hoff]
    exact hfit
  rcases Nat.lt_or_ge K_SIZE_COMPRESS buffer.length with hlong | hshort
  · have hnot : ¬ buffer.length ≤ K_SIZE_COMPRESS := Nat.not_le.mpr hlong
    rw [or_iff_right hnot]
    constructor
    · intro hframe
      by_contra hno
      refine not_frame_or_nothing_of_no_stream hlogic hstate hfit' hlong ?_ hframe
      intro stream hstream
      by_contra hne
      rcases Nat.lt_or_ge ONCE_BUFFER_SIZE stream.length with hover | hle
      · exact not_frame_or_nothing_of_overrun hlogic hstate hfit' hlong hstream hover hframe
      · exact hno ⟨stream, hstream, hne, hle⟩
    · rintro ⟨stream, hstream, hne, hle⟩
      exact frame_or_nothing_of_stream hlogic hstate hoff hfit hlong hstream hne hle
  · refine iff_of_true ?_ (Or.inl hshort)
    exact frame_or_nothing_of_plain hlogic hstate hoff hfit (compress_to_send_small z stale hshort)

/-- A payload of `length` zero bytes, with space for a head in front. -/
def zeros_to_send (length : Nat) : once_buffer where
  offset := PROTO_HEAD_SIZE
  length := length
  _buffer := fun _ => 0

/-- The logic of the client in a proxy with one client. -/
def one_client_logic : client_session_logic where
  _rc4_info := rc4_info.of_zero_rand
  _seq := 0
  _server_info := ⟨0, 0, [], 0⟩
  _target_uid := 7

/-- A payload that does not get shorter. -/
def count_up : List UInt8 := (List.range 65).map UInt8.ofNat

/-- What zlib makes of it. -/
def gzip_count_up : List UInt8 :=
  [0x1f, 0x8b, 0x08, 0x00, 0x00, 0x00, 0x00, 0x00, 0x00, 0x03, 0x63, 0x60, 0x64, 0x62, 0x66, 0x61,
    0x65, 0x63, 0xe7, 0xe0, 0xe4, 0xe2, 0xe6, 0xe1, 0xe5, 0xe3, 0x17, 0x10, 0x14, 0x12, 0x16,
    0x11, 0x15, 0x13, 0x97, 0x90, 0x94, 0x92, 0x96, 0x91, 0x95, 0x93, 0x57, 0x50, 0x54, 0x52,
    0x56, 0x51, 0x55, 0x53, 0xd7, 0xd0, 0xd4, 0xd2, 0xd6, 0xd1, 0xd5, 0xd3, 0x37, 0x30, 0x34,
    0x32, 0x36, 0x31, 0x35, 0x33, 0xb7, 0xb0, 0xb4, 0xb2, 0xb6, 0xb1, 0xb5, 0xb3, 0x77, 0x00,
    0x00, 0xd8, 0x6f, 0xc0, 0x40, 0x41, 0x00, 0x00, 0x00]

/-- A zlib that agrees with the real one on these bytes, too. -/
def stored_and_count_up : zlib :=
  { zlib.stored with
    deflate := fun p => if p = count_up then some gzip_count_up else zlib.stored.deflate p }

/-- The payload, with space for a head in front. -/
def count_up_to_send : once_buffer where
  offset := PROTO_HEAD_SIZE
  length := 65
  _buffer := write (fun _ => 0) PROTO_HEAD_SIZE count_up

/-- Its stream is longer than the payload, which goes out in a frame; a hundred zeros
    get shorter, and nothing goes out. -/
theorem frame_or_nothing_compressed :
    FrameOrNothing stored_and_count_up (fun _ => 0) (proxy_manager.one_client.sessions 0)
        one_client_logic count_up_to_send ∧
      FrameOrNothing zlib.stored (fun _ => 0) (proxy_manager.one_client.sessions 0)
        one_client_logic (zeros_to_send 100) := by
  constructor
  · refine (frame_or_nothing_iff _ _ rfl rfl rfl (by decide)).mpr
      (Or.inr ⟨gzip_count_up, ?_, List.cons_ne_nil _ _, by decide⟩)
    have hcontent : count_up_to_send.content = count_up := read_write _ _ _
    rw [hcontent]
    rfl
  · refine (frame_or_nothing_iff _ _ rfl rfl rfl (by decide)).mpr
      (Or.inr ⟨gzip_zeros, ?_, List.cons_ne_nil _ _, by decide⟩)
    rfl

/-- A payload of 65 bytes, with a zlib that throws, goes out as it is. -/
theorem not_always_frame_or_nothing :
    ¬ ∀ (z : zlib) (stale : Nat → UInt8) (s : basic_async_session session_logic)
      (l : client_session_logic) (buffer : once_buffer), s._logic = .client_session l →
      s._state = .CONNECTING → buffer.offset = PROTO_HEAD_SIZE →
      PROTO_HEAD_SIZE + buffer.length ≤ ONCE_BUFFER_SIZE → FrameOrNothing z stale s l buffer := by
  intro hall
  have hframe := hall { zlib.stored with deflate := fun _ => none } (fun _ => 0)
    (proxy_manager.one_client.sessions 0) one_client_logic (zeros_to_send 65) rfl rfl rfl
    (by decide)
  refine not_frame_or_nothing_of_no_stream rfl rfl (by decide) (by decide) ?_ hframe
  intro stream hstream
  cases hstream

end client_session_logic

end AsioNet
