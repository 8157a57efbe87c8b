import AsioNet.ServerRelay

/-! # Broadcasts from the game server

    `active_server_session_mgr::broadcast` means to send the proxy one frame for
    many clients: the number of targets, their uids and the payload. What
    arrives is another frame: its command is that of a frame for a single
    client, and its body is cut off at the payload's length. The proxy takes the
    first four bytes of that body for a uid and, if a client has it, sends on
    what is left, which is always shorter than the payload.
-/

namespace AsioNet

open ByteMemory reusabel_buffer proto_mask proxy_manager active_server_session_mgr

/-! ### What any frame for a single client does to a client's stream -/

/-- A frame without a body reaches no client. -/
theorem on_empty_server_frame (z : zlib) (stale : recycled) {w : proxy_manager} {i : session_sptr}
    {l : server_session_logic} {head : protocol_head}
    (hl : (w.sessions i)._logic = .server_session l) (hseq : head.seq = l._seq + 1)
    (hmask : get_mask head.bytes [] = 0) (hlen : head.len.toNat = 0) :
    w.on_frame z stale i head [] =
      .ok (w.set_logic i (.server_session { l with _seq := l._seq + 1 })) := by
  have hzero : head.len = 0 := UInt16.toNat_inj.mp hlen
  have hbody : (received_block (stale 0) []).load 0 0 = .ok [] :=
    load_received_block (stale 0) (Nat.zero_le _)
  have hunwrap (ret_block : once_buffer) :
      l.unwrap_received_data (received_block (stale 0) []) head ret_block =
        .ok ⟨false, { l with _seq := l._seq + 1 }, received_block (stale 0) [], ret_block⟩ := by
    simp only [server_session_logic.unwrap_received_data, hseq, received_block_buffer, hzero,
      UInt16.toNat_zero, hbody, ok_bind, hmask, ne_eq, not_true_eq_false, if_false, if_true,
      pure_eq_ok]
  rw [on_frame_eq]
  simp only [unwrap_received_data, hl, hunwrap, ok_bind, pure_eq_ok, if_true]

/-- Data whose length ran below zero ends in a fault. -/
theorem async_send_oversized (z : zlib) (stale : Nat → UInt8) {w : proxy_manager}
    {c : session_sptr} {l : client_session_logic} {msg : once_buffer}
    (hstate : (w.sessions c)._state = .CONNECTING)
    (hl : (w.sessions c)._logic = .client_session l) (hlarge : 2000000000 < msg.length) :
    w.async_send z stale c msg = .error .out_of_bounds := by
  have hcompress : client_session_logic.compress_to_send z stale msg = .ok none := by
    have hk : K_SIZE_COMPRESS < msg.length := by
      simp only [K_SIZE_COMPRESS]
      omega
    rw [client_session_logic.compress_to_send, if_pos hk, gzip.compress, if_pos hlarge]
    rfl
  have hwrap : session_logic.wrap_to_send_data z stale (w.sessions c)._logic msg =
      .ok ((w.sessions c)._logic, msg) := by
    rw [hl]
    simp only [session_logic.wrap_to_send_data, client_session_logic.wrap_to_send_data, hcompress,
      ok_bind, pure_eq_ok]
  have hload : msg.load (msg.buffer 0) msg.length = .error .out_of_bounds :=
    load_of_lt _ (by simp only [ONCE_BUFFER_SIZE]; omega)
  rw [async_send, basic_async_session.async_send, if_neg (by simp [hstate]), hwrap, ok_bind]
  simp only [hload, error_bind]

/-- Sending on one session leaves the others alone. -/
theorem sessions_of_async_send {z : zlib} {stale : Nat → UInt8} {w w' : proxy_manager}
    {s c : session_sptr} {msg : once_buffer} (h : w.async_send z stale s msg = .ok w')
    (hne : c ≠ s) : w'.sessions c = w.sessions c := by
  rw [async_send] at h
  obtain ⟨s', -, h⟩ := bind_eq_ok.mp h
  cases h
  exact sessions_set_session_ne hne w s'

/-- The proxy puts at most one frame on a client's stream, around what follows the
    uid. -/
theorem written_of_server_frame {z : zlib} (hz : z.Lawful) {stale : recycled}
    {w w' : proxy_manager} {i c : session_sptr} {ls : server_session_logic}
    {l : client_session_logic} {head : protocol_head} {body : List UInt8}
    (hls : (w.sessions i)._logic = .server_session ls)
    (hl : (w.sessions c)._logic = .client_session l) (hseq : head.seq = ls._seq + 1)
    (hmask : get_mask head.bytes body = 0) (hlen : head.len.toNat = body.length)
    (hfit : PROTO_HEAD_SIZE + body.length ≤ ONCE_BUFFER_SIZE)
    (hcmd : head.get_cmd ≠ protocol_cmd.Commands_BroadCast.val)
    (h : w.on_frame z stale i head body = .ok w') :
    (w'.sessions c).written = (w.sessions c).written ∨
      ∃ q : List UInt8, q.length + 4 = body.length ∧
        (w'.sessions c).written = (w.sessions c).written ++
          [(masked_head (l.head_to_send q.length false) (l.encrypt q)).bytes ++ l.encrypt q] := by
  have hsize : ONCE_BUFFER_SIZE = 65536 := rfl
  have hhead : PROTO_HEAD_SIZE = 11 := rfl
  have hwidth : SIZEOF_SESSION_UID = 4 := rfl
  have hci : c ≠ i := client_ne_server hl hls
  have hsession : (w.set_logic i (.server_session { ls with _seq := ls._seq + 1 })).sessions c =
      w.sessions c := sessions_set_logic_ne hci ..
  by_cases hne : body = []
  · subst hne
    rw [on_empty_server_frame z stale hls hseq hmask hlen] at h
    cases h
    exact Or.inl (by rw [hsession])
  obtain ⟨uid, msg, hoff, hmsg_len, hlong, hframe⟩ :=
    on_server_frame z stale hls hseq hmask hlen hfit hcmd hne
  rw [hframe, send_to_client, send_to, SafeHashMap.try_get_eq] at h
  split at h
  · -- nobody has this uid
    cases h
    exact Or.inl (by rw [hsession])
  · next s _ =>
    by_cases hs : c = s
    · subst hs
      by_cases hstate : (w.sessions c)._state = .CONNECTING
      · by_cases hshort : body.length < 4
        · -- the length is below zero
          rw [async_send_oversized z (stale 2) (by rw [hsession]; exact hstate)
            (by rw [hsession]; exact hl) (by
              rw [hmsg_len, hwidth, size_t_sub_of_lt hshort (by decide)]; omega)] at h
          cases h
        · -- the data behind the uid is sent as any other data
          obtain ⟨-, hcontent⟩ := hlong (by omega)
          rw [hwidth, size_t_sub_of_le (by omega) (by omega)] at hmsg_len
          have hsend := async_send_to_client hz (stale 2)
            (w := w.set_logic i (.server_session { ls with _seq := ls._seq + 1 }))
            (hsession ▸ hstate) (hsession ▸ hl) hoff (by omega)
          have hq : msg.content.length = msg.length := by rw [content, length_read]
          rcases hsend with ⟨-, hok⟩ | ⟨-, e, hfault⟩
          · rw [hok] at h
            cases h
            refine Or.inr ⟨msg.content, by omega, ?_⟩
            rw [sessions_set_session_self, basic_async_session.written_async_write_some, hsession, hq]
          · rw [hfault] at h
            cases h
      · rw [async_send_of_not_connecting z (stale 2) (by rw [hsession]; exact hstate)] at h
        cases h
        exact Or.inl (by rw [hsession])
    · left
      rw [sessions_of_async_send h hs, hsession]

/-! ### What a broadcast leads to -/

/-- The broadcast equals individual sends: every connected client among the targets
    gets one frame for every time it is listed, and finds the payload in it. -/
def BroadcastRelayed (z : zlib) (stale : recycled)
    (a : basic_async_session active_server_session_logic) (w : proxy_manager) (i : session_sptr)
    (targets : List session_uid) (p : List UInt8) : Prop :=
  ∀ t ∈ targets, ∀ c l, w._client_sessions._container.lookup t = some c →
    (w.sessions c)._logic = .client_session l → (w.sessions c)._state = .CONNECTING →
    ∃ a' head body w' frames,
      broadcast (stale 0) a targets p = .ok a' ∧
      a'.written = a.written ++ [protocol_head.bytes head ++ body] ∧
      w.on_frame z (fun n => stale (n + 1)) i head body = .ok w' ∧
      (w'.sessions c).written = (w.sessions c).written ++ frames ∧
      frames.length =
        targets.countP (fun t => w._client_sessions._container.lookup t = some c) ∧
      ∀ f ∈ frames, ∃ sent_head sent,
        f = protocol_head.bytes sent_head ++ sent ∧ Decodes z l sent_head sent p

/-- No target is a connected client. -/
def NobodyListens (w : proxy_manager) (targets : List session_uid) : Prop :=
  ∀ t ∈ targets, ∀ c l, w._client_sessions._container.lookup t = some c →
    (w.sessions c)._logic = .client_session l → (w.sessions c)._state ≠ .CONNECTING

/-- A frame around other data does not decode to the payload. -/
theorem eq_of_decodes {z : zlib} {l : client_session_logic} {n : Nat} {q p : List UInt8}
    (h : Decodes z l (masked_head (l.head_to_send n false) (l.encrypt q)) (l.encrypt q) p) :
    q = p := by
  obtain ⟨-, -, hdecode⟩ := h
  rw [masked_head_get_compressed, client_session_logic.head_to_send,
    protocol_head.get_compressed_get_a_head, if_neg (by simp)] at hdecode
  rw [← hdecode, client_session_logic.decrypt_encrypt]

theorem length_broadcast_body (targets : List session_uid) (p : List UInt8) :
    ((broadcast_content targets p).take p.length).length = p.length := by
  rw [List.length_take, broadcast_content, List.length_append]
  omega

/-- No connected client gets what was broadcast. -/
theorem not_connecting_of_relayed {z : zlib} (hz : z.Lawful) {stale : recycled}
    {a : basic_async_session active_server_session_logic} {w : proxy_manager}
    {i : session_sptr} {ls : server_session_logic} {targets : List session_uid} {p : List UInt8}
    (hlink : ServerLink a w i ls)
    (hfit : PROTO_HEAD_SIZE + 2 + targets.length * 4 + p.length ≤ ONCE_BUFFER_SIZE)
    (h : BroadcastRelayed z stale a w i targets p) : NobodyListens w targets := by
  intro t ht c l hc hl hstate
  obtain ⟨a', head, body, w', frames, ha', hframe, hw', hwritten, hcount, hdecode⟩ :=
    h t ht c l hc hl hstate
  rw [broadcast_eq (stale 0) hlink.connected hfit] at ha'
  cases ha'
  rw [basic_async_session.written_async_write_some,
    basic_async_session.written_modify_session_logic] at hframe
  obtain ⟨rfl, rfl⟩ := last_frame_injective hframe
  have hlen := length_broadcast_body targets p
  obtain ⟨hseq, hmask, hbody_len, hcmd⟩ :=
    next_head_spec hlink ((broadcast_content targets p).take p.length) (by omega)
  rw [next_head, hlen] at hseq hmask hbody_len hcmd
  -- the client is listed, so it must get something
  have hpos : 0 < frames.length := by
    rw [hcount]
    exact List.countP_pos_iff.mpr ⟨t, ht, by simp [hc]⟩
  have hwhat := written_of_server_frame hz hlink.logic hl hseq hmask (by rw [hbody_len, hlen])
    (by omega) hcmd hw'
  rcases hwhat with hsame | ⟨q, hq, hone⟩
  · rw [hsame] at hwritten
    rw [List.append_right_eq_self.mp hwritten.symm] at hpos
    cases hpos
  · obtain rfl := List.append_cancel_left (hone.symm.trans hwritten)
    obtain ⟨sent_head, sent, hsent, hdecodes⟩ := hdecode _ (List.mem_singleton_self _)
    obtain ⟨rfl, rfl⟩ := frame_injective hsent
    -- what was sent is shorter than the payload by a uid
    have hqp := congrArg List.length (eq_of_decodes hdecodes)
    omega

/-- **Broadcasting, exactly.** A broadcast is relayed as individual sends are if and
    only if there is no one to relay it to. -/
theorem broadcast_relayed_iff {z : zlib} (hz : z.Lawful) (stale : recycled)
    {a : basic_async_session active_server_session_logic} {w : proxy_manager}
    {i : session_sptr} {ls : server_session_logic} {targets : List session_uid} {p : List UInt8}
    (hlink : ServerLink a w i ls)
    (hfit : PROTO_HEAD_SIZE + 2 + targets.length * 4 + p.length ≤ ONCE_BUFFER_SIZE) :
    BroadcastRelayed z stale a w i targets p ↔ NobodyListens w targets := by
  refine ⟨not_connecting_of_relayed hz hlink hfit, ?_⟩
  intro hnobody t ht c l hc hl hstate
  exact absurd hstate (hnobody t ht c l hc hl)

/-- Nobody has the uid `9`. -/
theorem broadcast_relayed_to_nobody :
    BroadcastRelayed zlib.stored (fun _ _ => 0) game_server one_client 1 [9] [0x61] := by
  obtain ⟨ls, hlink⟩ := link_game_server
  refine (broadcast_relayed_iff zlib.lawful_stored _ hlink (by decide)).mpr ?_
  intro t ht c l hc
  obtain rfl := List.mem_singleton.mp ht
  exact nomatch hc

/-- What a single send relays is not always relayed when it is broadcast. -/
theorem not_always_broadcast_relayed :
    ¬ ∀ (z : zlib) (stale : recycled) (a : basic_async_session active_server_session_logic)
      (w : proxy_manager) (i : session_sptr) (ls : server_session_logic)
      (targets : List session_uid) (p : List UInt8), z.Lawful → ServerLink a w i ls →
      PROTO_HEAD_SIZE + 2 + targets.length * 4 + p.length ≤ ONCE_BUFFER_SIZE →
      (∀ t ∈ targets, ∃ c l, w._client_sessions._container.lookup t = some c ∧
        (w.sessions c)._logic = .client_session l ∧ RelayedToClient z stale a w i c l t p) →
      BroadcastRelayed z stale a w i targets p := by
  intro hall
  obtain ⟨ls, hlink⟩ := link_game_server
  have hsend : ∃ l, one_client._client_sessions._container.lookup 5 = some 0 ∧
      (one_client.sessions 0)._logic = .client_session l ∧
      RelayedToClient zlib.stored (fun _ _ => 0) game_server one_client 1 0 l 5 [0x61] :=
    ⟨_, rfl, rfl, relayed_of_sendable zlib.lawful_stored _ hlink rfl rfl (by decide) rfl
      (Or.inl (by decide))⟩
  have hrelayed := hall zlib.stored (fun _ _ => 0) game_server one_client 1 ls [5] [0x61]
    zlib.lawful_stored hlink (by decide) (by
      intro t ht
      obtain rfl := List.mem_singleton.mp ht
      exact ⟨0, hsend⟩)
  exact not_connecting_of_relayed zlib.lawful_stored hlink (by decide) hrelayed 5
    (List.mem_singleton_self _) 0 _ rfl rfl rfl

end AsioNet
