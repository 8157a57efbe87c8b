import AsioNet.ProxySession

/-! # From the client to the game server

    A client's frame passes `client_session_logic::unwrap_received_data`, then
    `try_copy_to_storage`, then the server session's `wrap_to_send_data`. The
    three share one buffer: 15 bytes of space, then the data. `unwrap` fills
    the buffer only when the frame is compressed, and putting the uid in front
    moves the start of the content without adding to its length. So what is sent
    never has room for uid and payload, and a keep-alive is relayed as a frame
    without a body.
-/

namespace AsioNet

open ByteMemory reusabel_buffer proto_mask proxy_manager

namespace client_session_logic

/-- A verified frame that is empty or not compressed leaves the output empty. -/
theorem unwrap_received_data_uncompressed (z : zlib) (stale : Nat → UInt8)
    {l : client_session_logic} {head : protocol_head} {body : List UInt8}
    (hseq : head.seq = l._seq + 1) (hmask : get_mask head.bytes body = 0)
    (hlen : head.len.toNat = body.length) (hle : body.length ≤ ONCE_BUFFER_SIZE)
    (hplain : body = [] ∨ head.get_compressed = false) (ret_block : once_buffer) :
    ∃ b, l.unwrap_received_data z (received_block stale body) head ret_block =
      .ok ⟨true, { l with _seq := l._seq + 1 }, b, ret_block⟩ := by
  simp only [unwrap_received_data, crypt, hseq, hlen, received_block_buffer,
    load_received_block stale hle, hmask, ne_eq, not_true_eq_false, if_false, ok_bind]
  by_cases hzero : head.len = 0
  · rw [if_pos hzero]
    exact ⟨_, rfl⟩
  · have hcompressed : head.get_compressed = false := by
      rcases hplain with hnil | h
      · rw [hnil] at hlen
        exact absurd (UInt16.toNat_inj.mp hlen) hzero
      · exact h
    rw [if_neg hzero, store_of_le _ (by simpa using hle), ok_bind]
    simp only [hcompressed]
    exact ⟨_, rfl⟩

/-- A verified compressed frame leaves the decompressed payload in the output. -/
theorem unwrap_received_data_compressed {z : zlib} (stale : Nat → UInt8)
    {l : client_session_logic} {head : protocol_head} {body gz p : List UInt8}
    (hseq : head.seq = l._seq + 1) (hmask : get_mask head.bytes body = 0)
    (hlen : head.len.toNat = body.length) (hle : body.length ≤ ONCE_BUFFER_SIZE)
    (hbody : body = rc4.rc4_crypt l._rc4_info.rc4_modvt_ l._rc4_info.rc4_key_ gz
      l._rc4_info.rc4_subtract_ true)
    (hne : body ≠ []) (hcompressed : head.get_compressed = true)
    (hgz : z.inflate gz = some ⟨p, .Z_STREAM_END⟩) (ret_block : once_buffer)
    (hfit : ret_block.offset + p.length ≤ ONCE_BUFFER_SIZE) :
    ∃ b, l.unwrap_received_data z (received_block stale body) head ret_block =
      .ok ⟨true, { l with _seq := l._seq + 1 }, b,
        { ret_block with
          length := p.length, _buffer := write ret_block._buffer ret_block.offset p }⟩ := by
  have hgz_len : gz.length = body.length := by
    rw [hbody, rc4.length_rc4_crypt]
  have hpos : 0 < body.length := List.length_pos_iff.mpr hne
  have hzero : head.len ≠ 0 := by
    intro h
    rw [h, UInt16.toNat_zero] at hlen
    omega
  have hdecrypt : rc4.rc4_crypt l._rc4_info.rc4_modvt_ l._rc4_info.rc4_key_ body
      l._rc4_info.rc4_subtract_ false = gz := by
    rw [hbody]
    exact rc4.rc4_crypt_cancel _ _ gz _ true
  have hsize : ONCE_BUFFER_SIZE = 65536 := rfl
  simp only [unwrap_received_data, crypt, hseq, hlen, received_block_buffer,
    load_received_block stale hle, hmask, ne_eq, not_true_eq_false, if_false, ok_bind, hdecrypt,
    hcompressed, if_true]
  rw [if_neg hzero, store_of_le _ (by omega), ok_bind, buffer_zero_of_eq (n := 0) rfl (Nat.zero_le _),
    gzip.decompress, if_neg (by omega), load_of_write rfl hgz_len (by omega), ok_bind]
  simp only [hgz]
  rw [gzip.decompress_loop_ok (by omega) _ _ _ (by omega) (by omega)]
  simp only [ok_bind, Nat.zero_add, Nat.add_zero]
  exact ⟨_, rfl⟩

/-- The uid is put in front of the data, but what is sent is no longer than the
    data was. -/
theorem try_copy_to_storage_eq (z : zlib) (stale : recycled) {w : proxy_manager}
    {i t : session_sptr} {l : client_session_logic} {ls : server_session_logic}
    {data : once_buffer} (hoff : data.offset = PROTO_HEAD_SIZE + SIZEOF_SESSION_UID)
    (hfit : PROTO_HEAD_SIZE + data.length ≤ ONCE_BUFFER_SIZE)
    (ht : w._server_sessions._container.lookup l._target_uid = some t)
    (hls : (w.sessions t)._logic = .server_session ls) :
    let sent := (write_uint32 (w.sessions i)._uuid ++ data.content).take data.length
    l.try_copy_to_storage z stale w i data =
      .ok (true, if (w.sessions t)._state = .CONNECTING then
        w.set_session t ((w.sessions t).async_write_some
          ((masked_head (ls.head_to_send .Commands_RoutingTransparent data.length) sent).bytes ++
            sent))
        else w) := by
  intro sent
  have huid : (write_uint32 (w.sessions i)._uuid).length = 4 := length_write_uint32 _
  have hspace : PROTO_HEAD_SIZE + 4 ≤ ONCE_BUFFER_SIZE := by decide
  generalize hframe : ({ data with
    offset := PROTO_HEAD_SIZE
    _buffer := write data._buffer PROTO_HEAD_SIZE (write_uint32 (w.sessions i)._uuid) } :
    once_buffer) = frame
  have hframe_len : frame.length = data.length := by rw [← hframe]
  have hframe_off : frame.offset = PROTO_HEAD_SIZE := by rw [← hframe]
  have hcontent : frame.content = sent := by
    -- uid and data are adjacent; `sent` is as much of them as the length covers
    have hboth : read frame._buffer PROTO_HEAD_SIZE (4 + data.length) =
        write_uint32 (w.sessions i)._uuid ++ data.content := by
      rw [← hframe, read_add, read_write_of_length _ _ _ _ huid,
        read_write_of_disjoint _ _ _ _ _ (Or.inr (by rw [huid])), content, hoff]
      rfl
    rw [content, hframe_off, hframe_len]
    simp only [sent]
    rw [← hboth, take_read _ _ _ _ (by omega)]
  have hsub : size_t_sub data.offset SIZEOF_SESSION_UID = PROTO_HEAD_SIZE := by
    rw [hoff]
    rfl
  rw [try_copy_to_storage, store_of_le _ (by rw [origin_buffer_eq, huid]; exact hspace), ok_bind]
  simp only [origin_buffer_eq, hsub, hframe, send_to_server, send_to, SafeHashMap.try_get_eq, ht]
  by_cases hstate : (w.sessions t)._state = .CONNECTING
  · rw [async_send_to_server_session z _ hstate hls hframe_off (by omega), ok_bind, if_pos hstate,
      hcontent, hframe_len, pure_eq_ok]
  · rw [async_send_of_not_connecting z _ hstate, ok_bind, if_neg hstate, pure_eq_ok]

end client_session_logic

/-! ### What one client frame does to the server's stream -/

/-- The stream of session `t` after session `i` received the frame: `ret` is the
    output of `unwrap_received_data`. -/
theorem written_on_client_frame {z : zlib} {stale : recycled} {w : proxy_manager}
    {i t : session_sptr} {l l' : client_session_logic} {ls : server_session_logic}
    {head : protocol_head} {body : List UInt8} {b ret : once_buffer}
    (hl : (w.sessions i)._logic = .client_session l)
    (hunwrap : l.unwrap_received_data z (received_block (stale 0) body) head
      { TEMP_BUFFER (stale 1) with offset := l.prefix_size } = .ok ⟨true, l', b, ret⟩)
    (hoff : ret.offset = PROTO_HEAD_SIZE + SIZEOF_SESSION_UID)
    (hfit : PROTO_HEAD_SIZE + ret.length ≤ ONCE_BUFFER_SIZE)
    (ht : w._server_sessions._container.lookup l'._target_uid = some t)
    (hls : (w.sessions t)._logic = .server_session ls) :
    let sent := (write_uint32 (w.sessions i)._uuid ++ ret.content).take ret.length
    ∃ w', w.on_frame z stale i head body = .ok w' ∧
      (w'.sessions t).written = (w.sessions t).written ++
        if (w.sessions t)._state = .CONNECTING then
          [(masked_head (ls.head_to_send .Commands_RoutingTransparent ret.length) sent).bytes ++
            sent]
        else [] := by
  intro sent
  have hti : t ≠ i := (client_ne_server hl hls).symm
  have hprefix_eq : (w.sessions i)._logic.prefix_size = l.prefix_size := by
    rw [hl]
    rfl
  -- what is stored is sent on the server's session, which unwrapping left alone
  have hcopy := client_session_logic.try_copy_to_storage_eq z (fun n => stale (n + 2))
    (w := w.set_logic i (.client_session l')) (i := i) (l := l') hoff hfit (t := t)
    (by simpa using ht) (by rw [sessions_set_logic_ne hti]; exact hls)
  simp only [sessions_set_logic_self, basic_async_session.uuid_modify_session_logic,
    sessions_set_logic_ne hti] at hcopy
  rw [on_frame_eq, hprefix_eq]
  simp only [unwrap_received_data, hl, hunwrap, ok_bind, pure_eq_ok, Bool.true_eq_false, if_false,
    try_copy_to_storage, sessions_set_logic_self,
    basic_async_session.logic_modify_session_logic, hcopy]
  refine ⟨_, rfl, ?_⟩
  by_cases hstate : (w.sessions t)._state = .CONNECTING
  · simp only [if_pos hstate, sessions_set_session_self,
      basic_async_session.written_async_write_some, sent]
  · simp only [if_neg hstate, sessions_set_logic_ne hti, List.append_nil]

/-- The body of a client's frame carries the payload `p`: nothing for a
    keep-alive, otherwise the encrypted payload or an encrypted gzip stream of it. -/
def Carries (z : zlib) (l : client_session_logic) (head : protocol_head) (body p : List UInt8) :
    Prop :=
  let encrypt := fun data => rc4.rc4_crypt l._rc4_info.rc4_modvt_ l._rc4_info.rc4_key_ data
    l._rc4_info.rc4_subtract_ true
  (p = [] ∧ body = []) ∨
    (p ≠ [] ∧
      ((head.get_compressed = false ∧ body = encrypt p) ∨
        (head.get_compressed = true ∧
          ∃ gz, z.inflate gz = some ⟨p, .Z_STREAM_END⟩ ∧ body = encrypt gz)))

/-- Session `i`, a client whose game server is session `t`, receives a frame that
    carries `p`, with the expected sequence number and a verifying mask, and
    everything fits the buffers. -/
structure ClientFrame (z : zlib) (w : proxy_manager) (i t : session_sptr)
    (l : client_session_logic) (head : protocol_head) (body p : List UInt8) : Prop where
  logic : (w.sessions i)._logic = .client_session l
  target : w._server_sessions._container.lookup l._target_uid = some t
  server : ∃ ls, (w.sessions t)._logic = .server_session ls
  seq : head.seq = l._seq + 1
  mask : get_mask head.bytes body = 0
  len : head.len.toNat = body.length
  frame_fits : PROTO_HEAD_SIZE + body.length ≤ ONCE_BUFFER_SIZE
  relay_fits : PROTO_HEAD_SIZE + SIZEOF_SESSION_UID + p.length ≤ ONCE_BUFFER_SIZE
  carries : Carries z l head body p

/-- The frame is relayed as it should be: a payload in exactly one frame to the
    server, behind the client's uid, and a keep-alive not at all. -/
def Relayed (z : zlib) (stale : recycled) (w : proxy_manager) (i t : session_sptr)
    (head : protocol_head) (body p : List UInt8) : Prop :=
  ∃ w', w.on_frame z stale i head body = .ok w' ∧
    if p = [] then (w'.sessions t).written = (w.sessions t).written
    else ∃ sent_head : protocol_head, (w'.sessions t).written =
      (w.sessions t).written ++ [sent_head.bytes ++ (write_uint32 (w.sessions i)._uuid ++ p)]

/-- What really reaches a connected server is one frame whose body is no longer
    than the payload. -/
theorem written_of_client_frame {z : zlib} {w : proxy_manager} {i t : session_sptr}
    {l : client_session_logic} {head : protocol_head} {body p : List UInt8}
    (h : ClientFrame z w i t l head body p) (stale : recycled) :
    ∃ w' sent_head sent, w.on_frame z stale i head body = .ok w' ∧ sent.length ≤ p.length ∧
      (w'.sessions t).written = (w.sessions t).written ++
        if (w.sessions t)._state = .CONNECTING then [protocol_head.bytes sent_head ++ sent]
        else [] := by
  obtain ⟨hl, ht, ⟨ls, hls⟩, hseq, hmask, hlen, hfit, hrelay, hcarries⟩ := h
  have hspace : PROTO_HEAD_SIZE ≤ ONCE_BUFFER_SIZE := by decide
  -- an empty or uncompressed frame leaves the output empty, so nothing but a head is
  -- sent; a compressed one is sent without its last four bytes
  by_cases hplain : body = [] ∨ head.get_compressed = false
  · obtain ⟨b, hunwrap⟩ := client_session_logic.unwrap_received_data_uncompressed z (stale 0)
      hseq hmask hlen (by omega) hplain { TEMP_BUFFER (stale 1) with offset := l.prefix_size }
    obtain ⟨w', hw', hwritten⟩ := written_on_client_frame hl hunwrap rfl hspace ht hls
    refine ⟨w', _, _, hw', ?_, hwritten⟩
    rw [List.length_take]
    exact Nat.le_trans (Nat.min_le_left ..) (Nat.zero_le _)
  · obtain ⟨hne, hcompressed⟩ := not_or.mp hplain
    rcases hcarries with ⟨-, hnil⟩ | ⟨-, ⟨hclear, -⟩ | ⟨hset, gz, hgz, hbody⟩⟩
    · exact absurd hnil hne
    · exact absurd hclear hcompressed
    · obtain ⟨b, hunwrap⟩ := client_session_logic.unwrap_received_data_compressed (stale 0)
        hseq hmask hlen (by omega) hbody hne hset hgz
        { TEMP_BUFFER (stale 1) with offset := l.prefix_size } hrelay
      obtain ⟨w', hw', hwritten⟩ := written_on_client_frame hl hunwrap rfl
        (by simp only [SIZEOF_SESSION_UID] at hrelay ⊢; omega) ht hls
      refine ⟨w', _, _, hw', ?_, hwritten⟩
      rw [List.length_take]
      exact Nat.min_le_left ..

/-- A connected server never gets a payload as it should. -/
theorem not_relayed_of_ne_nil {z : zlib} {w : proxy_manager} {i t : session_sptr}
    {l : client_session_logic} {head : protocol_head} {body p : List UInt8}
    (h : ClientFrame z w i t l head body p) (hp : p ≠ []) (stale : recycled) :
    ¬ Relayed z stale w i t head body p := by
  obtain ⟨w', sent_head, sent, hw', hsent, hwritten⟩ := written_of_client_frame h stale
  rintro ⟨w'', hw'', hrelayed⟩
  obtain rfl : w' = w'' := Except.ok.inj (hw'.symm.trans hw'')
  rw [if_neg hp, hwritten] at hrelayed
  obtain ⟨should_head, hframe⟩ := hrelayed
  have hframes := List.append_cancel_left hframe
  by_cases hstate : (w.sessions t)._state = .CONNECTING
  · -- the body is too short for uid and payload
    rw [if_pos hstate] at hframes
    have hlength := congrArg List.length (List.singleton_inj.mp hframes)
    simp only [List.length_append, protocol_head.length_bytes, length_write_uint32] at hlength
    omega
  · rw [if_neg hstate] at hframes
    cases hframes

/-- A keep-alive reaches the server whenever something can. -/
theorem relayed_nil_iff {z : zlib} {w : proxy_manager} {i t : session_sptr}
    {l : client_session_logic} {head : protocol_head} {body : List UInt8}
    (h : ClientFrame z w i t l head body []) (stale : recycled) :
    Relayed z stale w i t head body [] ↔ (w.sessions t)._state ≠ .CONNECTING := by
  obtain ⟨w', sent_head, sent, hw', -, hwritten⟩ := written_of_client_frame h stale
  constructor
  · rintro ⟨w'', hw'', hrelayed⟩ hstate
    obtain rfl : w' = w'' := Except.ok.inj (hw'.symm.trans hw'')
    rw [if_pos rfl, hwritten, if_pos hstate] at hrelayed
    exact absurd (List.append_right_eq_self.mp hrelayed) (List.cons_ne_nil _ _)
  · intro hstate
    refine ⟨w', hw', ?_⟩
    rw [if_pos rfl, hwritten, if_neg hstate, List.append_nil]

/-- **Relaying, exactly.** No payload is ever relayed as it should be, and a
    keep-alive is kept from the server only by a session that sends nothing. -/
theorem client_frame_relayed_iff {z : zlib} {w : proxy_manager} {i t : session_sptr}
    {l : client_session_logic} {head : protocol_head} {body p : List UInt8}
    (h : ClientFrame z w i t l head body p) (stale : recycled) :
    Relayed z stale w i t head body p ↔ p = [] ∧ (w.sessions t)._state ≠ .CONNECTING := by
  by_cases hp : p = []
  · subst hp
    rw [relayed_nil_iff h]
    exact (and_iff_right rfl).symm
  · constructor
    · intro hrelayed
      exact absurd hrelayed (not_relayed_of_ne_nil h hp stale)
    · intro hnil
      exact absurd hnil.1 hp

/-- The body of a frame with the payload `a`, from the client of `one_client`. -/
def body_a : List UInt8 := rc4.rc4_crypt 1 (List.replicate RC4_KEY_LEN 1) [0x61] 1 true

def head_a : protocol_head :=
  masked_head (protocol_head.get_a_head FRAME_KEY 1 0
    protocol_cmd.Commands_RoutingTransparent.val false 1) body_a

theorem client_frame_a :
    ∃ l, ClientFrame zlib.stored one_client 0 1 l head_a body_a [0x61] := by
  have hbody : body_a.length = 1 := rc4.length_rc4_crypt ..
  refine ⟨_, rfl, rfl, ⟨_, rfl⟩, rfl, ?_, hbody.symm, ?_, by decide, ?_⟩
  · exact get_mask_masked_head _ _ rfl (by omega)
  · rw [hbody]
    decide
  · exact Or.inr ⟨by decide, Or.inl ⟨by simp [head_a], rfl⟩⟩

theorem client_frame_relayed_a :
    ¬ Relayed zlib.stored (fun _ _ => 0) one_client 0 1 head_a body_a [0x61] := by
  obtain ⟨l, h⟩ := client_frame_a
  rw [client_frame_relayed_iff h]
  exact fun h => absurd h.1 (by decide)

/-- The payload `a` is not relayed, although everything is connected. -/
theorem not_all_client_frames_relayed :
    ¬ ∀ (z : zlib) (stale : recycled) (w : proxy_manager) (i t : session_sptr)
      (l : client_session_logic) (head : protocol_head) (body p : List UInt8),
      ClientFrame z w i t l head body p → (w.sessions t)._state = .CONNECTING →
        Relayed z stale w i t head body p := by
  intro hall
  obtain ⟨l, h⟩ := client_frame_a
  exact not_relayed_of_ne_nil h (by decide) _
    (hall zlib.stored (fun _ _ => 0) one_client 0 1 l head_a body_a [0x61] h rfl)

end AsioNet
