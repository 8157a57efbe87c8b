import AsioNet.ActiveServerSessionLogic
import AsioNet.Framing
import AsioNet.InnerSessionLogic
import AsioNet.ServerSessionLogic

/-! # Peers that neither encrypt nor compress

    Game server and proxy, proxy and game server, and the two ends of an inner pair
    send their data as it is. Encoder and decoder are in different classes; here each
    pair is run against each other, from the buffer a message is wrapped in to the
    buffer its payload is unwrapped into.
-/

namespace AsioNet

open ByteMemory LengthPrefixed LengthPrefixed.Format reusabel_buffer proto_mask

/-! ### From the sender's buffer to the receiver's -/

/-- A logic that notes what it is given. -/
def noting : session_logic_interface (List (protocol_head × once_buffer)) where
  prefix_size _ := 0
  unwrap_received_data _ noted buffer head ret_block :=
    ⟨false, noted ++ [(head, buffer)], buffer, ret_block⟩
  try_copy_to_storage _ noted _ _ := (true, noted)
  unwrap_offset_le _ _ _ _ _ := Nat.le_add_right _ _

/-- A receive buffer with the bytes of `wire`, and nothing noted yet. -/
def holding (recv : once_buffer_sptr) : recv_session (List (protocol_head × once_buffer)) :=
  { recv_session.initial .CONNECTING [] with _recv_not_entire := some recv }

/-- The receiver gets the payload: `wire` starts at the start of its array, and when its
    bytes are in a receive buffer `pick_a_entire_msg` finds a frame in them that
    `unwrap_received_data` accepts. -/
def Understood {σ : Type} (wire : once_buffer) (payload : List UInt8) (prefix_size : Nat)
    (unwrap_received_data : once_buffer → protocol_head → once_buffer → Checked (unwrapped σ)) :
    Prop :=
  wire.offset = 0 ∧
  ∀ (pool : Nat → recycled) (recv : once_buffer_sptr) (stale stale' : Nat → UInt8),
    recv.buf.offset = 0 → recv.buf.length = wire.length → recv.buf.content = wire.content →
    ∃ s data_block head block,
      (holding recv).pick_a_entire_msg noting pool (TEMP_BUFFER stale) =
        .ok (true, s, data_block) ∧
      s.logic = [(head, block)] ∧
      ∃ r, unwrap_received_data block head { TEMP_BUFFER stale' with offset := prefix_size } =
          .ok r ∧
        r.accepted = true ∧ r.ret_block.content = payload ∧
        r.ret_block.length = payload.length

/-- The frame is found. -/
theorem pick_framed {head : protocol_head} {buffer : once_buffer}
    (hoff : buffer.offset = PROTO_HEAD_SIZE) (hlen : head.len.toNat = buffer.length)
    (hfit : PROTO_HEAD_SIZE + buffer.length ≤ ONCE_BUFFER_SIZE) (pool : Nat → recycled)
    {recv : once_buffer_sptr} (stale : Nat → UInt8) (hroff : recv.buf.offset = 0)
    (hrlen : recv.buf.length = (framed head buffer).length)
    (hcontent : recv.buf.content = (framed head buffer).content) :
    ∃ s data_block,
      (holding recv).pick_a_entire_msg noting pool (TEMP_BUFFER stale) =
        .ok (true, s, data_block) ∧
      s.logic = [(masked_head head buffer.content,
        recv_session.block_of (TEMP_BUFFER stale) buffer.content)] := by
  have hpayload : buffer.content.length = buffer.length := length_read ..
  have hwire := content_framed head hoff
  have hwire_len : (framed head buffer).content.length = PROTO_HEAD_SIZE + buffer.length := by
    rw [hwire, List.length_append, protocol_head.length_bytes, hpayload]
  have hframed_len : (framed head buffer).length = PROTO_HEAD_SIZE + buffer.length := rfl
  have hholds : (holding recv).BufferHolds recv (framed head buffer).content := by
    refine ⟨rfl, hroff, ?_, ?_, ?_⟩
    · rw [hrlen, hwire_len, hframed_len]
    · rw [hwire_len]
      exact hfit
    · rw [← hcontent, content, hroff, length_read]
  -- the stream is one frame
  have hfirst : protocol_head.format.firstFrame (framed head buffer).content =
      ((masked_head head buffer.content).bytes, buffer.content) := by
    have hhead : (masked_head head buffer.content).bytes.length = PROTO_HEAD_SIZE := rfl
    show ((framed head buffer).content.take PROTO_HEAD_SIZE,
      ((framed head buffer).content.drop PROTO_HEAD_SIZE).take
        (protocol_head.unpack_head ((framed head buffer).content.take PROTO_HEAD_SIZE)).len.toNat) =
      _
    rw [hwire, List.take_left' hhead, List.drop_left' hhead, protocol_head.unpack_head_bytes,
      masked_head_len, hlen, ← hpayload, List.take_length]
  have hframe : unpack_frame (protocol_head.format.firstFrame (framed head buffer).content) =
      (masked_head head buffer.content, buffer.content) := by
    rw [hfirst, unpack_frame, protocol_head.unpack_head_bytes]
  have hcomplete : protocol_head.format.Complete (framed head buffer).content := by
    have hsize : protocol_head.format.frameSize (framed head buffer).content =
        PROTO_HEAD_SIZE + buffer.length := by
      rw [recv_session.frameSize_eq, hwire,
        List.take_left' (show (masked_head head buffer.content).bytes.length = PROTO_HEAD_SIZE from
          rfl), protocol_head.unpack_head_bytes, masked_head_len, hlen]
    refine ⟨?_, ?_⟩
    · rw [hwire_len]
      exact Nat.le_add_right _ _
    · rw [hsize, hwire_len]
  have hroom : (TEMP_BUFFER stale).offset + (framed head buffer).content.length ≤
      ONCE_BUFFER_SIZE := by
    show 0 + _ ≤ _
    omega
  rcases recv_session.pick_a_entire_msg_of_frame noting pool hholds hcomplete hroom with
    ⟨hrefused, -⟩ | ⟨-, recv', hpick, -⟩
  · cases hrefused
  · refine ⟨_, _, hpick, ?_⟩
    rw [hframe]
    rfl

/-- What a receiver needs to understand a frame. -/
theorem understood_of_accepted {σ : Type} {head : protocol_head} {buffer : once_buffer}
    {prefix_size : Nat}
    {unwrap_received_data : once_buffer → protocol_head → once_buffer → Checked (unwrapped σ)}
    (hoff : buffer.offset = PROTO_HEAD_SIZE) (hlen : head.len.toNat = buffer.length)
    (hfit : PROTO_HEAD_SIZE + buffer.length ≤ ONCE_BUFFER_SIZE)
    (hroom : prefix_size + buffer.length ≤ ONCE_BUFFER_SIZE)
    (haccept : ∀ block ret_block : once_buffer,
      block.load (block.buffer 0) buffer.content.length = .ok buffer.content →
      ret_block.offset + buffer.content.length ≤ ONCE_BUFFER_SIZE →
      ∃ r, unwrap_received_data block (masked_head head buffer.content) ret_block = .ok r ∧
        r.accepted = true ∧ r.ret_block = { ret_block with
          length := buffer.content.length
          _buffer := write ret_block._buffer ret_block.offset buffer.content }) :
    Understood (framed head buffer) buffer.content prefix_size unwrap_received_data := by
  refine ⟨rfl, ?_⟩
  intro pool recv stale stale' hroff hrlen hcontent
  have hpayload : buffer.content.length = buffer.length := length_read ..
  obtain ⟨s, data_block, hpick, hlogic⟩ :=
    pick_framed hoff hlen hfit pool stale hroff hrlen hcontent
  refine ⟨s, data_block, _, _, hpick, hlogic, ?_⟩
  have hload : (recv_session.block_of (TEMP_BUFFER stale) buffer.content).load
      ((recv_session.block_of (TEMP_BUFFER stale) buffer.content).buffer 0)
      buffer.content.length = .ok buffer.content := by
    rw [buffer_zero_of_eq (n := 0) rfl (Nat.zero_le _)]
    exact load_of_write rfl rfl (by omega)
  obtain ⟨r, hr, haccepted, hret⟩ := haccept _
    { TEMP_BUFFER stale' with offset := prefix_size } hload (by
      show prefix_size + _ ≤ _
      omega)
  refine ⟨r, hr, haccepted, ?_, ?_⟩
  · rw [hret, content]
    exact read_write _ _ _
  · rw [hret]

/-! ### The pairs -/

/-- The head a plain sender signs announces the payload. -/
theorem len_of_payload {buffer : once_buffer}
    (hfit : PROTO_HEAD_SIZE + buffer.length ≤ ONCE_BUFFER_SIZE) (cmd : UInt16) (seq : UInt32) :
    (protocol_head.get_a_head FRAME_KEY (UInt16.ofNat buffer.length) 0 cmd false seq).len.toNat =
      buffer.length := by
  simp only [PROTO_HEAD_SIZE, ONCE_BUFFER_SIZE] at hfit
  rw [protocol_head.get_a_head_len, UInt16.toNat_ofNat', Nat.mod_eq_of_lt (by omega)]

/-- **Plain peers understand each other.** -/
theorem plain_peers_understand (buffer : once_buffer) (hoff : buffer.offset = PROTO_HEAD_SIZE)
    (hlen : 1 ≤ buffer.length ∧ buffer.length ≤ 65521) :
    (∀ (l : active_server_session_logic) (r : server_session_logic), r._seq = l._seq →
      ∃ l' wire, l.wrap_to_send_data buffer = .ok (l', wire) ∧
        Understood wire buffer.content r.prefix_size r.unwrap_received_data) ∧
    (∀ (l : server_session_logic) (r : active_server_session_logic),
      r._authentication ≠ .BEFORE_VERIFY →
      ∃ wire, l.wrap_to_send_data buffer = .ok wire ∧
        Understood wire buffer.content r.prefix_size r.unwrap_received_data) ∧
    (∀ l r : inner_session_logic,
      ∃ wire, l.wrap_to_send_data buffer = .ok wire ∧
        Understood wire buffer.content r.prefix_size r.unwrap_received_data) := by
  obtain ⟨hpos, hle⟩ := hlen
  have hsize : ONCE_BUFFER_SIZE = 65536 := rfl
  have hhead : PROTO_HEAD_SIZE = 11 := rfl
  have hfit : PROTO_HEAD_SIZE + buffer.length ≤ ONCE_BUFFER_SIZE := by omega
  have hpayload : buffer.content.length = buffer.length := length_read ..
  have hmask : ∀ head : protocol_head, head.mask = 0 →
      get_mask (masked_head head buffer.content).bytes buffer.content = 0 :=
    fun head hzero => get_mask_masked_head head _ hzero (by omega)
  have hne : ∀ head : protocol_head, head.len.toNat = buffer.length → head.len ≠ 0 := by
    intro head hlen hzero
    rw [hzero, UInt16.toNat_zero] at hlen
    omega
  refine ⟨?_, ?_, ?_⟩
  · intro l r hseq
    have hlen : (l.head_to_send buffer.length).len.toNat = buffer.length := len_of_payload hfit _ _
    refine ⟨_, _, l.wrap_to_send_data_eq hoff hfit, understood_of_accepted hoff hlen hfit ?_ ?_⟩
    · show 7 + buffer.length ≤ _
      omega
    · intro block ret_block hload hroom
      refine ⟨_, server_session_logic.unwrap_received_data_accepted block ret_block ?_
        (hmask _ rfl) ?_ hload ?_ hroom, rfl, rfl⟩
      · rw [hseq]
        rfl
      · rw [masked_head_len, hpayload]
        exact hlen
      · rw [← List.length_pos_iff]
        omega
  · intro l r hauth
    have hlen : (l.head_to_send .Commands_RoutingTransparent buffer.length).len.toNat =
        buffer.length := len_of_payload hfit _ _
    refine ⟨_, l.wrap_to_send_data_eq hoff hfit, understood_of_accepted hoff hlen hfit ?_ ?_⟩
    · show 15 + buffer.length ≤ _
      omega
    · intro block ret_block hload hroom
      refine ⟨_, active_server_session_logic.unwrap_received_data_accepted block ret_block hauth ?_
        (hmask _ rfl) ?_ hload (hne _ hlen) hroom, rfl, rfl⟩
      · -- what is routed is not taken for a confirmation
        rw [masked_head_get_cmd, server_session_logic.head_to_send,
          protocol_head.get_cmd_get_a_head]
        decide
      · rw [masked_head_len, hpayload]
        exact hlen
  · intro l r
    have hlen : (l.head_to_send buffer.length).len.toNat = buffer.length := len_of_payload hfit _ _
    refine ⟨_, write_head_eq _ hoff hfit, understood_of_accepted hoff hlen hfit ?_ ?_⟩
    · show 11 + buffer.length ≤ _
      omega
    · intro block ret_block hload hroom
      refine ⟨_, inner_session_logic.unwrap_received_data_accepted block ret_block
        (hmask _ rfl) ?_ hload (hne _ hlen) hroom, rfl, rfl⟩
      rw [masked_head_len, hpayload]
      exact hlen

/-- The payload 0x61 at offset 11. -/
def one_byte_payload : once_buffer where
  offset := PROTO_HEAD_SIZE
  length := 1
  _buffer := fun _ => 0x61

/-- A logic of each kind, with an empty ring where there is one. -/
def a_ring : RingBuffer UInt8 :=
  ⟨fun _ => 0, 0, 0, TOTAL_CACHE_SIZE, TOTAL_CACHE_SIZE_pos, TOTAL_CACHE_SIZE_pos⟩

def an_active_server : active_server_session_logic := ⟨.VERIFY_SUCC, 4, a_ring, fun _ => none⟩

def a_server : server_session_logic := ⟨4, ⟨1, 1, [], SessionType.GAMESVR_PROXY⟩⟩

def an_inner : inner_session_logic := ⟨a_ring⟩

/-- One byte goes from each of them to its peer. -/
theorem plain_peers_understand_a :
    (∃ l' wire, an_active_server.wrap_to_send_data one_byte_payload = .ok (l', wire) ∧
      Understood wire [0x61] a_server.prefix_size a_server.unwrap_received_data) ∧
    (∃ wire, a_server.wrap_to_send_data one_byte_payload = .ok wire ∧
      Understood wire [0x61] an_active_server.prefix_size
        an_active_server.unwrap_received_data) ∧
    (∃ wire, an_inner.wrap_to_send_data one_byte_payload = .ok wire ∧
      Understood wire [0x61] an_inner.prefix_size an_inner.unwrap_received_data) :=
  have h := plain_peers_understand one_byte_payload rfl (by decide)
  ⟨h.1 an_active_server a_server rfl, h.2.1 a_server an_active_server nofun,
    h.2.2 an_inner an_inner⟩

end AsioNet
