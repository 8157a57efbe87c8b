import AsioNet.ActiveServerSessionLogic
import AsioNet.ProxySession

/-! # From the game server to the client

    `active_server_session_mgr::send` frames a payload behind the client's uid,
    the proxy unwraps the frame on the server session, takes the uid off again
    and sends the rest to the client's session, which compresses, encrypts and
    frames it. The payload keeps 11 bytes of space in front of it on the whole
    way, except when compression makes it smaller: the buffer it is compressed
    into has none.
-/

namespace AsioNet

open ByteMemory reusabel_buffer proto_mask proxy_manager active_server_session_mgr

/-! ### One frame from the game server -/

/-- The space kept in front, `prefix_size`, and the uid that is skipped add up to
    the size of a head. A body too short for a uid borrows from stale bytes. -/
theorem on_server_frame (z : zlib) (stale : recycled) {w : proxy_manager} {i : session_sptr}
    {l : server_session_logic} {head : protocol_head} {body : List UInt8}
    (hl : (w.sessions i)._logic = .server_session l) (hseq : head.seq = l._seq + 1)
    (hmask : get_mask head.bytes body = 0) (hlen : head.len.toNat = body.length)
    (hfit : PROTO_HEAD_SIZE + body.length ≤ ONCE_BUFFER_SIZE)
    (hcmd : head.get_cmd ≠ protocol_cmd.Commands_BroadCast.val) (hne : body ≠ []) :
    ∃ (uid : session_uid) (msg : once_buffer), msg.offset = PROTO_HEAD_SIZE ∧
      msg.length = size_t_sub body.length SIZEOF_SESSION_UID ∧
      (4 ≤ body.length → uid = read_uint32 (body.take 4) ∧ msg.content = body.drop 4) ∧
      w.on_frame z stale i head body =
        (w.set_logic i (.server_session { l with _seq := l._seq + 1 })).send_to_client z (stale 2)
          uid msg := by
  have hsize : ONCE_BUFFER_SIZE = 65536 := rfl
  have hhead : PROTO_HEAD_SIZE = 11 := rfl
  have hwidth : SIZEOF_SESSION_UID = 4 := rfl
  have hprefix_eq : (w.sessions i)._logic.prefix_size = 7 := by
    rw [hl]
    rfl
  have hunwrap := server_session_logic.unwrap_received_data_accepted (l := l)
    (received_block (stale 0) body) { TEMP_BUFFER (stale 1) with offset := 7 } hseq hmask hlen
    (by rw [received_block_buffer, load_received_block _ (by omega)]) hne
    (by simp only; omega)
  -- the output of `unwrap_received_data`, behind seven bytes of space
  generalize hdata : ({ offset := 7, length := body.length, _buffer := write (stale 1) 7 body } :
    once_buffer) = data
  have hdata_off : data.offset = 7 := by rw [← hdata]
  have hdata_len : data.length = body.length := by rw [← hdata]
  have hread : read data._buffer 7 body.length = body := by
    rw [← hdata]
    exact read_write _ _ _
  have hload : data.load 7 4 = .ok (read data._buffer 7 4) := load_of_le _ (by omega)
  refine ⟨read_uint32 (read data._buffer 7 4),
    { data with
      offset := PROTO_HEAD_SIZE, length := size_t_sub body.length SIZEOF_SESSION_UID },
    rfl, rfl, fun hlong => ⟨?_, ?_⟩, ?_⟩
  · rw [← take_read data._buffer 7 body.length 4 hlong, hread]
  · have hdrop := drop_read data._buffer 7 body.length 4 hlong
    rw [hread] at hdrop
    rw [hdrop, content, hwidth, size_t_sub_of_le hlong (by omega)]
    rfl
  · have hoff : size_t_add data.offset SIZEOF_SESSION_UID = PROTO_HEAD_SIZE := by
      rw [hdata_off]
      rfl
    rw [on_frame_eq, hprefix_eq]
    simp only [TEMP_BUFFER] at hunwrap
    simp only [unwrap_received_data, hl, TEMP_BUFFER, hunwrap, hdata, ok_bind, pure_eq_ok,
      Bool.true_eq_false, if_false, try_copy_to_storage, sessions_set_logic_self,
      basic_async_session.logic_modify_session_logic, server_session_logic.try_copy_to_storage,
      if_neg hcmd, buffer_zero_of_eq hdata_off (by decide), hload, hoff, hdata_len]
    cases (w.set_logic i (.server_session { l with _seq := l._seq + 1 })).send_to_client z
      (stale 2) (read_uint32 (read data._buffer 7 4)) { data with
        offset := PROTO_HEAD_SIZE, length := size_t_sub body.length SIZEOF_SESSION_UID } with
    | ok w' => rfl
    | error e => rfl

/-! ### What the client's session makes of it -/

/-- The client finds the payload `p` in the frame: the mask verifies, the length
    fits, and decrypting and, if flagged, decompressing the body gives `p`. -/
def Decodes (z : zlib) (l : client_session_logic) (head : protocol_head) (body p : List UInt8) :
    Prop :=
  head.len.toNat = body.length ∧ get_mask head.bytes body = 0 ∧
    if head.get_compressed then z.inflate (l.decrypt body) = some ⟨p, .Z_STREAM_END⟩
    else l.decrypt body = p

/-- The data gets to the socket: it is small, or zlib cannot make it smaller and
    what zlib makes of it fits a buffer. -/
def Sendable (z : zlib) (p : List UInt8) : Prop :=
  p.length ≤ K_SIZE_COMPRESS ∨
    ∀ s, z.deflate p = some s → p.length ≤ s.length ∧ s.length ≤ ONCE_BUFFER_SIZE

/-- The frame a client is sent for sendable data. -/
theorem decodes_masked_head (z : zlib) (l : client_session_logic) {p : List UInt8}
    (hfit : PROTO_HEAD_SIZE + p.length ≤ ONCE_BUFFER_SIZE) :
    Decodes z l (masked_head (l.head_to_send p.length false) (l.encrypt p)) (l.encrypt p) p := by
  have hlen : (l.encrypt p).length = p.length := l.length_encrypt p
  simp only [PROTO_HEAD_SIZE, ONCE_BUFFER_SIZE] at hfit
  refine ⟨?_, get_mask_masked_head _ _ rfl (by omega), ?_⟩
  · rw [hlen, masked_head_len, client_session_logic.head_to_send, protocol_head.get_a_head_len,
      UInt16.toNat_ofNat', Nat.mod_eq_of_lt (by omega)]
  · rw [masked_head_get_compressed, client_session_logic.head_to_send,
      protocol_head.get_compressed_get_a_head, if_neg (by simp)]
    exact l.decrypt_encrypt p

/-- Sendable data stays as it is. -/
theorem compress_to_send_of_sendable {z : zlib} (hz : z.Lawful) (stale : Nat → UInt8)
    {msg : once_buffer} (hfit : msg.offset + msg.length ≤ ONCE_BUFFER_SIZE)
    (h : Sendable z msg.content) :
    client_session_logic.compress_to_send z stale msg = .ok (some (msg, false)) := by
  have hlen : msg.content.length = msg.length := by rw [content, length_read]
  by_cases hsmall : msg.length ≤ K_SIZE_COMPRESS
  · exact client_session_logic.compress_to_send_small z stale hsmall
  · obtain ⟨s, hs⟩ := hz.deflate_ok msg.content
    rcases h with hsmall' | hlarge
    · exact absurd (hlen ▸ hsmall') hsmall
    -- compressed in vain: the original goes out
    obtain ⟨hle, hover⟩ := hlarge s hs
    rw [client_session_logic.compress_to_send_large stale (Nat.not_le.mp hsmall) hfit hs,
      if_neg (Nat.not_lt.mpr hover), if_neg (by omega), if_neg (by omega)]

/-- What zlib makes of other data overruns its buffer or fills it from the start. -/
theorem wrap_to_send_data_of_not_sendable {z : zlib} (hz : z.Lawful) (stale : Nat → UInt8)
    (l : client_session_logic) {msg : once_buffer}
    (hfit : msg.offset + msg.length ≤ ONCE_BUFFER_SIZE) (h : ¬ Sendable z msg.content) :
    ∃ e, l.wrap_to_send_data z stale msg = .error e := by
  have hlen : msg.content.length = msg.length := by rw [content, length_read]
  obtain ⟨s, hs⟩ := hz.deflate_ok msg.content
  have hne : s.length ≠ 0 := by
    intro hzero
    rw [List.length_eq_zero_iff.mp hzero] at hs
    exact hz.deflate_ne_nil _ hs
  simp only [Sendable, hlen, hs, Option.some.injEq, forall_eq', not_or, not_and_or,
    Nat.not_le] at h
  obtain ⟨hlarge, hbad⟩ := h
  have hcompress := client_session_logic.compress_to_send_large stale hlarge hfit hs
  -- too long for the buffer, or shorter than the data and so sent compressed
  by_cases hover : ONCE_BUFFER_SIZE < s.length
  · rw [if_pos hover] at hcompress
    exact ⟨.out_of_bounds, by rw [client_session_logic.wrap_to_send_data, hcompress, error_bind]⟩
  · have hshrinks : s.length < msg.length := hbad.resolve_right hover
    rw [if_neg hover, if_neg hne, if_pos hshrinks] at hcompress
    exact ⟨.assertion_failed,
      l.wrap_to_send_data_compressed rfl (Nat.not_lt.mp hover) hcompress⟩

/-- Sendable data leaves on the client's socket as one frame, all other data ends
    in a fault. -/
theorem async_send_to_client {z : zlib} (hz : z.Lawful) (stale : Nat → UInt8) {w : proxy_manager}
    {c : session_sptr} {l : client_session_logic} {msg : once_buffer}
    (hstate : (w.sessions c)._state = .CONNECTING)
    (hl : (w.sessions c)._logic = .client_session l) (hoff : msg.offset = PROTO_HEAD_SIZE)
    (hfit : PROTO_HEAD_SIZE + msg.length ≤ ONCE_BUFFER_SIZE) :
    (Sendable z msg.content ∧ w.async_send z stale c msg =
        .ok (w.set_session c ((w.sessions c).async_write_some
          ((masked_head (l.head_to_send msg.length false) (l.encrypt msg.content)).bytes ++
            l.encrypt msg.content)))) ∨
      (¬ Sendable z msg.content ∧ ∃ e, w.async_send z stale c msg = .error e) := by
  have hfit' : msg.offset + msg.length ≤ ONCE_BUFFER_SIZE := by omega
  by_cases hsendable : Sendable z msg.content
  · exact Or.inl ⟨hsendable, async_send_to_client_session_plain hstate hl hoff hfit
      (compress_to_send_of_sendable hz stale hfit' hsendable)⟩
  · obtain ⟨e, hwrap⟩ := wrap_to_send_data_of_not_sendable hz stale l hfit' hsendable
    exact Or.inr ⟨hsendable, e, async_send_to_client_session_fault hstate hl hwrap⟩

/-! ### From application to client -/

/-- A connected game server session `a` whose frames the proxy expects on its
    session `i`. -/
structure ServerLink (a : basic_async_session active_server_session_logic) (w : proxy_manager)
    (i : session_sptr) (l : server_session_logic) : Prop where
  connected : a._state = .CONNECTING
  logic : (w.sessions i)._logic = .server_session l
  in_step : l._seq = a._logic._seq

/-- The head of the next frame with the body `body`. -/
def next_head (a : basic_async_session active_server_session_logic) (body : List UInt8) :
    protocol_head :=
  masked_head (a._logic.head_to_send body.length) body

/-- What the proxy needs to accept the next frame. -/
theorem next_head_spec {a : basic_async_session active_server_session_logic} {w : proxy_manager}
    {i : session_sptr} {l : server_session_logic} (hlink : ServerLink a w i l)
    (body : List UInt8) (hfit : PROTO_HEAD_SIZE + body.length ≤ ONCE_BUFFER_SIZE) :
    (next_head a body).seq = l._seq + 1 ∧ get_mask (next_head a body).bytes body = 0 ∧
      (next_head a body).len.toNat = body.length ∧
      (next_head a body).get_cmd ≠ protocol_cmd.Commands_BroadCast.val := by
  simp only [PROTO_HEAD_SIZE, ONCE_BUFFER_SIZE] at hfit
  refine ⟨?_, get_mask_masked_head _ _ rfl (by omega), ?_, ?_⟩
  · rw [hlink.in_step]
    rfl
  · rw [next_head, masked_head_len, active_server_session_logic.head_to_send,
      protocol_head.get_a_head_len, UInt16.toNat_ofNat', Nat.mod_eq_of_lt (by omega)]
  · rw [next_head, masked_head_get_cmd, active_server_session_logic.head_to_send,
      protocol_head.get_cmd_get_a_head, active_server_session_logic.cmd_to_send]
    split <;> decide

/-- The payload gets through: what `send` puts on the stream makes the proxy put
    one frame on the client's stream, in which the client finds the payload. -/
def RelayedToClient (z : zlib) (stale : recycled)
    (a : basic_async_session active_server_session_logic) (w : proxy_manager)
    (i c : session_sptr) (l : client_session_logic) (target_id : session_uid) (p : List UInt8) :
    Prop :=
  ∃ a' head body w' sent_head sent,
    send (stale 0) a target_id p = .ok a' ∧
    a'.written = a.written ++ [protocol_head.bytes head ++ body] ∧
    w.on_frame z (fun n => stale (n + 1)) i head body = .ok w' ∧
    (w'.sessions c).written = (w.sessions c).written ++ [protocol_head.bytes sent_head ++ sent] ∧
    Decodes z l sent_head sent p

/-- The frame that `send` makes the proxy send, or the fault it ends in. -/
theorem on_frame_of_send {z : zlib} (hz : z.Lawful) (stale : recycled)
    {a : basic_async_session active_server_session_logic} {w : proxy_manager}
    {i c : session_sptr} {ls : server_session_logic} {l : client_session_logic}
    {target_id : session_uid} {p : List UInt8} (hlink : ServerLink a w i ls)
    (hc : w._client_sessions._container.lookup target_id = some c)
    (hl : (w.sessions c)._logic = .client_session l) (hle : p.length ≤ 65521) :
    let body := write_uint32 target_id ++ p
    ((w.sessions c)._state = .CONNECTING ∧ Sendable z p ∧
      ∃ w', w.on_frame z stale i (next_head a body) body = .ok w' ∧
        (w'.sessions c).written = (w.sessions c).written ++
          [(masked_head (l.head_to_send p.length false) (l.encrypt p)).bytes ++ l.encrypt p]) ∨
    ((w.sessions c)._state = .CONNECTING ∧ ¬ Sendable z p ∧
      ∃ e, w.on_frame z stale i (next_head a body) body = .error e) ∨
    ((w.sessions c)._state ≠ .CONNECTING ∧
      ∃ w', w.on_frame z stale i (next_head a body) body = .ok w' ∧
        (w'.sessions c).written = (w.sessions c).written) := by
  intro body
  have hbody_len : body.length = 4 + p.length := by
    simp only [body, List.length_append, length_write_uint32]
  have hsize : ONCE_BUFFER_SIZE = 65536 := rfl
  have hhead : PROTO_HEAD_SIZE = 11 := rfl
  have hci : c ≠ i := client_ne_server hl hlink.logic
  obtain ⟨hseq, hmask, hlen, hcmd⟩ := next_head_spec hlink body (by omega)
  obtain ⟨uid, msg, hoff, hmsg_len, hlong, hframe⟩ := on_server_frame z stale hlink.logic hseq
    hmask hlen (by omega) hcmd (List.ne_nil_of_length_pos (by omega))
  obtain ⟨huid, hcontent⟩ := hlong (by omega)
  -- the proxy reads back the uid that `send` put in front
  have hread := read_write_uint32 target_id []
  rw [List.append_nil] at hread
  rw [List.take_left' (length_write_uint32 target_id), hread] at huid
  rw [List.drop_left' (length_write_uint32 target_id)] at hcontent
  have hwidth : SIZEOF_SESSION_UID = 4 := rfl
  rw [hwidth, size_t_sub_of_le (by omega) (by omega), hbody_len, Nat.add_sub_cancel_left]
    at hmsg_len
  have hsession : (w.set_logic i (.server_session { ls with _seq := ls._seq + 1 })).sessions c =
      w.sessions c := sessions_set_logic_ne hci ..
  rw [hframe, huid, send_to_client, send_to, SafeHashMap.try_get_eq, client_sessions_set_logic, hc]
  by_cases hstate : (w.sessions c)._state = .CONNECTING
  · have hsend := async_send_to_client hz (stale 2)
      (w := w.set_logic i (.server_session { ls with _seq := ls._seq + 1 }))
      (hsession ▸ hstate) (hsession ▸ hl) hoff (by omega)
    rw [hcontent, hmsg_len, hsession] at hsend
    rcases hsend with ⟨hsendable, hok⟩ | ⟨hnot, hfault⟩
    · refine Or.inl ⟨hstate, hsendable, _, hok, ?_⟩
      rw [sessions_set_session_self, basic_async_session.written_async_write_some]
    · exact Or.inr (Or.inl ⟨hstate, hnot, hfault⟩)
  · refine Or.inr (Or.inr ⟨hstate, _, async_send_of_not_connecting z (stale 2)
      (hsession ▸ hstate) msg, ?_⟩)
    rw [hsession]

/-- What gets through was sendable. -/
theorem sendable_of_relayed {z : zlib} (hz : z.Lawful) {stale : recycled}
    {a : basic_async_session active_server_session_logic} {w : proxy_manager}
    {i c : session_sptr} {ls : server_session_logic} {l : client_session_logic}
    {target_id : session_uid} {p : List UInt8} (hlink : ServerLink a w i ls)
    (hc : w._client_sessions._container.lookup target_id = some c)
    (hl : (w.sessions c)._logic = .client_session l) (hle : p.length ≤ 65521)
    (h : RelayedToClient z stale a w i c l target_id p) :
    (w.sessions c)._state = .CONNECTING ∧ Sendable z p := by
  obtain ⟨a', head, body, w', sent_head, sent, ha', hframe, hw', hwritten, -⟩ := h
  rw [send_eq (stale 0) hlink.connected target_id hle] at ha'
  cases ha'
  rw [basic_async_session.written_async_write_some,
    basic_async_session.written_modify_session_logic] at hframe
  obtain ⟨rfl, rfl⟩ := last_frame_injective hframe
  -- of the three outcomes only the first puts a frame on the client's stream
  rcases on_frame_of_send hz (fun n => stale (n + 1)) hlink hc hl hle with
    ⟨hstate, hsendable, -⟩ | ⟨-, -, e, he⟩ | ⟨-, w'', hw'', hsame⟩
  · exact ⟨hstate, hsendable⟩
  · rw [next_head] at he
    rw [he] at hw'
    cases hw'
  · rw [next_head] at hw''
    obtain rfl : w'' = w' := Except.ok.inj (hw''.symm.trans hw')
    rw [hsame] at hwritten
    exact absurd (List.append_right_eq_self.mp hwritten.symm) (List.cons_ne_nil _ _)

/-- What is sendable gets through. -/
theorem relayed_of_sendable {z : zlib} (hz : z.Lawful) (stale : recycled)
    {a : basic_async_session active_server_session_logic} {w : proxy_manager}
    {i c : session_sptr} {ls : server_session_logic} {l : client_session_logic}
    {target_id : session_uid} {p : List UInt8} (hlink : ServerLink a w i ls)
    (hc : w._client_sessions._container.lookup target_id = some c)
    (hl : (w.sessions c)._logic = .client_session l) (hle : p.length ≤ 65521)
    (hstate : (w.sessions c)._state = .CONNECTING) (hsendable : Sendable z p) :
    RelayedToClient z stale a w i c l target_id p := by
  rcases on_frame_of_send hz (fun n => stale (n + 1)) hlink hc hl hle with
    ⟨-, -, w', hw', hwritten⟩ | ⟨-, hnot, -⟩ | ⟨hnot, -⟩
  · refine ⟨_, _, _, w', _, _, send_eq (stale 0) hlink.connected target_id hle, rfl, hw',
      hwritten, decodes_masked_head z l ?_⟩
    simp only [PROTO_HEAD_SIZE, ONCE_BUFFER_SIZE]
    omega
  · exact absurd hsendable hnot
  · exact absurd hstate hnot

/-- **Relaying to a client, exactly.** A payload gets through if and only if the
    client's session is connected and the payload is sendable. -/
theorem relayed_to_client_iff {z : zlib} (hz : z.Lawful) (stale : recycled)
    {a : basic_async_session active_server_session_logic} {w : proxy_manager}
    {i c : session_sptr} {ls : server_session_logic} {l : client_session_logic}
    {target_id : session_uid} {p : List UInt8} (hlink : ServerLink a w i ls)
    (hc : w._client_sessions._container.lookup target_id = some c)
    (hl : (w.sessions c)._logic = .client_session l) (hle : p.length ≤ 65521) :
    RelayedToClient z stale a w i c l target_id p ↔
      (w.sessions c)._state = .CONNECTING ∧ Sendable z p := by
  refine ⟨sendable_of_relayed hz hlink hc hl hle, ?_⟩
  rintro ⟨hstate, hsendable⟩
  exact relayed_of_sendable hz stale hlink hc hl hle hstate hsendable

/-- The game server at the other end of session `1` of `one_client`. -/
def game_server : basic_async_session active_server_session_logic where
  _state := .CONNECTING
  _uuid := 0
  _logic := {
    _authentication := .VERIFY_SUCC
    _seq := 0
    _storage := {
      _buffer := fun _ => 0
      _readIndex := 0
      _writeIndex := 0
      _capacity := TOTAL_CACHE_SIZE
      _readIndex_lt := TOTAL_CACHE_SIZE_pos
      _writeIndex_lt := TOTAL_CACHE_SIZE_pos }
    _sock_info_map := fun _ => none }
  remote_ip := 0
  written := []

theorem link_game_server : ∃ l, ServerLink game_server one_client 1 l :=
  ⟨_, rfl, rfl, rfl⟩

/-- The payload `a` gets through. -/
theorem relayed_to_client_a :
    ∃ l, RelayedToClient zlib.stored (fun _ _ => 0) game_server one_client 1 0 l 5 [0x61] := by
  obtain ⟨ls, hlink⟩ := link_game_server
  refine ⟨_, (relayed_to_client_iff zlib.lawful_stored _ hlink rfl rfl (by decide)).mpr ⟨rfl, ?_⟩⟩
  exact Or.inl (by decide)

/-- A hundred zero bytes, which zlib makes smaller, do not. -/
theorem not_always_relayed_to_client :
    ¬ ∀ (z : zlib) (stale : recycled) (a : basic_async_session active_server_session_logic)
      (w : proxy_manager) (i c : session_sptr) (ls : server_session_logic)
      (l : client_session_logic) (target_id : session_uid) (p : List UInt8), z.Lawful →
      ServerLink a w i ls → w._client_sessions._container.lookup target_id = some c →
      (w.sessions c)._logic = .client_session l → (w.sessions c)._state = .CONNECTING →
      1 ≤ p.length → p.length ≤ 65521 → RelayedToClient z stale a w i c l target_id p := by
  intro hall
  obtain ⟨ls, hlink⟩ := link_game_server
  have hrelayed := hall zlib.stored (fun _ _ => 0) game_server one_client 1 0 ls _ 5
    (List.replicate 100 0) zlib.lawful_stored hlink rfl rfl rfl (by decide) (by decide)
  obtain ⟨-, hsmall | hlarge⟩ :=
    sendable_of_relayed zlib.lawful_stored hlink rfl rfl (by decide) hrelayed
  · exact absurd hsmall (by decide)
  · exact absurd (hlarge gzip_zeros (by simp [zlib.stored])).1 (by decide)

end AsioNet
