import AsioNet.ServerRelay

/-! # Control frames on a session's stream

    Besides the frames of `wrap_to_send_data` the proxy writes frames it puts
    together by hand and sends with `async_send_multi`: the confirmation of a
    connection, the notice that a client left, and the copies of a broadcast.
    `put` is one such write, `Puts` says which bytes it adds to the stream.
    Whether the peer can cut the stream back into frames is decided by these
    bytes alone.
-/

namespace AsioNet

open ByteMemory LengthPrefixed LengthPrefixed.Format reusabel_buffer proto_mask proxy_manager

/-! ### Writes -/

/-- What the proxy puts on a session. Whoever calls `async_send` has left space
    for the head. -/
inductive outgoing where
  | wrapped (msg : once_buffer) (hoff : msg.offset = PROTO_HEAD_SIZE)
      (hfit : PROTO_HEAD_SIZE + msg.length ≤ ONCE_BUFFER_SIZE)
  /-- `send_confirm_connect` of the session's own logic -/
  | confirm_connect (l : server_session_logic) (client_id : session_uid) (ip : UInt32)
  /-- `kick_peer` of the logic of the client `uuid` -/
  | kick (l : client_session_logic) (uuid : session_uid)
  /-- one copy of a broadcast that the logic of a game server relays -/
  | broadcast (l : server_session_logic) (payload : List UInt8)

/-- A write together with the logic the session holds by then. -/
structure sending where
  stale : recycled
  logic : session_logic
  frame : outgoing

/-- One write to session `i`. -/
def put (z : zlib) (i : session_sptr) (w : proxy_manager) (m : sending) :
    Checked proxy_manager :=
  let w := w.set_logic i m.logic
  match m.frame with
  | .wrapped msg _ _ => w.async_send z (m.stale 0) i msg
  | .confirm_connect l client_id ip => w.send_confirm_connect i l (m.stale 0) client_id ip
  | .kick l uuid => do
    let (head_buffer, data_block) ← l.pack_kick m.stale uuid
    w.async_send_multi i (some head_buffer) (some data_block)
  | .broadcast l payload => do
    -- the copy of the payload that all targets share
    let mutable_buffer := TEMP_BUFFER (m.stale 0)
    let mutable_buffer ← mutable_buffer.store (mutable_buffer.buffer 0) payload
    let head_buffer ← l.pack_broadcast_head (m.stale 1) mutable_buffer
    w.async_send_multi i (some head_buffer) (some mutable_buffer)

def put_all (z : zlib) (i : session_sptr) (w : proxy_manager) (ms : List sending) :
    Checked proxy_manager :=
  ms.foldlM (put z i) w

/-- `kick_peer` writes to the session of the client's game server. -/
theorem kick_peer_eq (z : zlib) (stale : recycled) {w : proxy_manager} {i j : session_sptr}
    {l : client_session_logic} (h : w._server_sessions._container.lookup l._target_uid = some i) :
    l.kick_peer stale w j =
      put z i w ⟨stale, (w.sessions i)._logic, .kick l (w.sessions j)._uuid⟩ := by
  have hsame : w.set_logic i (w.sessions i)._logic = w := set_session_self w i
  rw [client_session_logic.kick_peer, put, hsame]
  simp only [send_to_server_multi, send_to_multi, SafeHashMap.try_get_eq, h]

/-- One round of the relay of a broadcast writes to the session of one target. -/
theorem relay_to_target_eq (z : zlib) (stale : recycled) {w : proxy_manager} {i : session_sptr}
    {l : server_session_logic} {data mutable_buffer : once_buffer} {k : Nat}
    {uid payload : List UInt8} (huid : data.load (data.buffer (2 + k * 4)) 4 = .ok uid)
    (h : w._client_sessions._container.lookup (read_uint32 uid) = some i)
    (hpayload : (TEMP_BUFFER (stale 0)).store 0 payload = .ok mutable_buffer) :
    l.relay_to_target stale data mutable_buffer w k =
      put z i w ⟨fun n => if n = 0 then stale 0 else stale (k + n), (w.sessions i)._logic,
        .broadcast l payload⟩ := by
  have hsame : w.set_logic i (w.sessions i)._logic = w := set_session_self w i
  have hpos : (TEMP_BUFFER (stale 0)).buffer 0 = 0 := buffer_zero_of_eq rfl (Nat.zero_le _)
  rw [server_session_logic.relay_to_target, huid, ok_bind, put, hsame]
  simp only [if_true, hpos, hpayload, ok_bind, Nat.one_ne_zero, if_false, send_to_client_multi,
    send_to_multi, SafeHashMap.try_get_eq, h]

/-! ### What is meant to arrive -/

/-- The body the peer is meant to find. -/
def intended_body (z : zlib) (m : sending) : List UInt8 :=
  match m.frame, m.logic with
  | .wrapped msg _ _, .client_session l =>
    match client_session_logic.compress_to_send z (m.stale 0) msg with
    | .ok (some (data, _)) => l.encrypt data.content
    | _ => msg.content
  | .wrapped msg _ _, _ => msg.content
  | .confirm_connect _ client_id ip, _ => write_uint32 client_id ++ write_uint32 ip
  | .kick _ uuid, _ => write_uint32 uuid
  | .broadcast _ payload, _ => payload

def intended_cmd (m : sending) : protocol_cmd :=
  match m.frame, m.logic with
  | .wrapped _ _ _, .default_session _ => .Commands_AuthenticationAAA
  | .wrapped _ _ _, _ => .Commands_RoutingTransparent
  | .confirm_connect _ _ _, _ => .Commands_ConnectionConfirm
  | .kick _ _, _ => .Commands_Kick
  | .broadcast _ _, _ => .Commands_RoutingTransparent

/-- `f` is the frame that `m` meant to send. -/
structure Intended (z : zlib) (m : sending) (f : Frame UInt8) : Prop where
  cmd : (protocol_head.unpack_head f.1).get_cmd = (intended_cmd m).val
  body : f.2 = intended_body z m
  mask : get_mask f.1 f.2 = 0

/-- Cutting what was written to session `i` between `w` and `w'` gives back the
    frames meant, one for every write, and leaves nothing over. -/
def ParsesBack (z : zlib) (i : session_sptr) (w w' : proxy_manager) (ms : List sending) : Prop :=
  ∃ pieces, (w'.sessions i).written = (w.sessions i).written ++ pieces ∧
    (protocol_head.format.cut pieces.flatten).2 = [] ∧
    List.Forall₂ (Intended z) ms (protocol_head.format.cut pieces.flatten).1

/-! ### What is written -/

/-- The bytes a write adds to the stream. -/
def Puts (z : zlib) (m : sending) (piece : List UInt8) : Prop :=
  match m.frame with
  | .wrapped _ _ _ => ∃ head : protocol_head,
    piece = head.bytes ++ intended_body z m ∧ head.len.toNat = (intended_body z m).length ∧
      Intended z m (head.bytes, intended_body z m)
  | .confirm_connect _ _ _ => ∃ head : protocol_head,
    piece = head.bytes ++ intended_body z m ∧ head.len = 19
  | .kick _ uuid => piece = write_uint32 uuid
  | .broadcast _ _ => piece = []

/-- A signed head in front of the body meant, with the command meant. -/
theorem puts_masked_head {z : zlib} {m : sending} {msg : once_buffer}
    {hoff : msg.offset = PROTO_HEAD_SIZE}
    {hfit : PROTO_HEAD_SIZE + msg.length ≤ ONCE_BUFFER_SIZE}
    (hframe : m.frame = .wrapped msg hoff hfit) (head : protocol_head) (hzero : head.mask = 0)
    (hlen : head.len = UInt16.ofNat msg.length)
    (hbody : (intended_body z m).length = msg.length)
    (hcmd : head.get_cmd = (intended_cmd m).val) :
    Puts z m ((masked_head head (intended_body z m)).bytes ++ intended_body z m) := by
  simp only [PROTO_HEAD_SIZE, ONCE_BUFFER_SIZE] at hfit
  simp only [Puts, hframe]
  refine ⟨_, rfl, ?_, ?_, rfl, ?_⟩
  · rw [masked_head_len, hlen, hbody, UInt16.toNat_ofNat', Nat.mod_eq_of_lt (by omega)]
  · rw [protocol_head.unpack_head_bytes, masked_head_get_cmd, hcmd]
  · exact get_mask_masked_head _ _ hzero (by omega)

/-- **One write**, to a connected session. -/
theorem put_spec {z : zlib} (hz : z.Lawful) {i : session_sptr} {w w' : proxy_manager}
    {m : sending} (hstate : (w.sessions i)._state = .CONNECTING) (h : put z i w m = .ok w') :
    (w'.sessions i)._state = .CONNECTING ∧
      ∃ piece, (w'.sessions i).written = (w.sessions i).written ++ [piece] ∧ Puts z m piece := by
  have hstate' : ((w.set_logic i m.logic).sessions i)._state = .CONNECTING := by
    rw [sessions_set_logic_self]
    exact hstate
  have hlogic : ((w.set_logic i m.logic).sessions i)._logic = m.logic := by
    rw [sessions_set_logic_self, basic_async_session.logic_modify_session_logic]
  have hwritten : ((w.set_logic i m.logic).sessions i).written = (w.sessions i).written := by
    rw [sessions_set_logic_self, basic_async_session.written_modify_session_logic]
  -- whatever is written becomes the next piece
  have hdone : ∀ piece, Puts z m piece →
      (w.set_logic i m.logic).set_session i
        (((w.set_logic i m.logic).sessions i).async_write_some piece) = w' →
      (w'.sessions i)._state = .CONNECTING ∧
        ∃ piece, (w'.sessions i).written = (w.sessions i).written ++ [piece] ∧
          Puts z m piece := by
    rintro piece hpiece rfl
    rw [sessions_set_session_self, basic_async_session.state_async_write_some,
      basic_async_session.written_async_write_some, hwritten]
    exact ⟨hstate', piece, rfl, hpiece⟩
  generalize hw : w.set_logic i m.logic = w₀ at *
  obtain ⟨stale, logic, frame⟩ := m
  cases frame with
  | wrapped msg hoff hfit =>
    have hlen : msg.content.length = msg.length := by rw [content, length_read]
    simp only [put, hw] at h
    cases logic with
    | default_session l =>
      rw [async_send_to_default_session z (stale 0) hstate' hlogic hoff hfit] at h
      exact hdone _ (puts_masked_head rfl _ rfl rfl hlen
        (protocol_head.get_cmd_get_a_head ..)) (Except.ok.inj h)
    | server_session l =>
      rw [async_send_to_server_session z (stale 0) hstate' hlogic hoff hfit] at h
      exact hdone _ (puts_masked_head rfl _ rfl rfl hlen
        (protocol_head.get_cmd_get_a_head ..)) (Except.ok.inj h)
    | client_session l =>
      rcases async_send_to_client hz (stale 0) hstate' hlogic hoff hfit with
        ⟨hplain, hok⟩ | ⟨-, e, hfault⟩
      · rw [hok] at h
        have hbody : intended_body z ⟨stale, .client_session l, .wrapped msg hoff hfit⟩ =
            l.encrypt msg.content := by
          simp only [intended_body, compress_to_send_of_sendable hz (stale 0)
            (by rw [hoff]; exact hfit) hplain]
        have hputs : Puts z ⟨stale, .client_session l, .wrapped msg hoff hfit⟩ _ :=
          puts_masked_head rfl (l.head_to_send msg.length false) rfl rfl
            (by rw [hbody, client_session_logic.length_encrypt, hlen])
            (protocol_head.get_cmd_get_a_head ..)
        rw [hbody] at hputs
        exact hdone _ hputs (Except.ok.inj h)
      · rw [hfault] at h
        cases h
  | confirm_connect l client_id ip =>
    obtain ⟨b, hb, hoff, hlen, hcontent⟩ := l.pack_confirm_connect_spec (stale 0) client_id ip
    simp only [put, hw, send_confirm_connect, hb, ok_bind] at h
    rw [async_send_multi_msg_eq hstate' (by rw [hoff, hlen]; decide), hcontent] at h
    exact hdone _ ⟨_, rfl, rfl⟩ (Except.ok.inj h)
  | kick l uuid =>
    obtain ⟨head_buffer, data_block, hpack, hhead_off, hhead_len, hoff, hlen, hcontent⟩ :=
      l.pack_kick_spec stale uuid
    simp only [put, hw, hpack, ok_bind] at h
    rw [async_send_multi_eq hstate' (by rw [hhead_off, hhead_len]; decide)
      (by rw [hoff, hlen]; decide), hcontent, content, hhead_len, read_zero, List.nil_append] at h
    exact hdone _ rfl (Except.ok.inj h)
  | broadcast l payload =>
    simp only [put, hw] at h
    obtain ⟨mutable_buffer, hstore, h⟩ := bind_eq_ok.mp h
    obtain ⟨-, hmutable⟩ := store_eq_ok hstore
    have hoff : mutable_buffer.offset = 0 := by rw [hmutable]; rfl
    have hlen : mutable_buffer.length = 0 := by rw [hmutable]; rfl
    obtain ⟨head_buffer, hpack, hhead_off, hhead_len⟩ :=
      l.pack_broadcast_head_spec (stale 1) hoff hlen
    rw [hpack, ok_bind, async_send_multi_eq hstate' (by rw [hhead_off, hhead_len]; decide)
      (by rw [hoff, hlen]; decide), content, hhead_len, content, hlen, read_zero, read_zero] at h
    exact hdone _ rfl (Except.ok.inj h)

/-- **A run of writes.** -/
theorem put_all_spec {z : zlib} (hz : z.Lawful) {i : session_sptr} {ms : List sending}
    {w w' : proxy_manager} (hstate : (w.sessions i)._state = .CONNECTING)
    (h : put_all z i w ms = .ok w') :
    ∃ pieces, (w'.sessions i).written = (w.sessions i).written ++ pieces ∧
      List.Forall₂ (Puts z) ms pieces := by
  induction ms generalizing w with
  | nil =>
    cases h
    exact ⟨[], (List.append_nil _).symm, .nil⟩
  | cons m ms ih =>
    rw [put_all, List.foldlM_cons] at h
    obtain ⟨w₁, hput, h⟩ := bind_eq_ok.mp h
    obtain ⟨hstate₁, piece, hwritten₁, hpiece⟩ := put_spec hz hstate hput
    obtain ⟨pieces, hwritten, hpieces⟩ := ih hstate₁ h
    refine ⟨piece :: pieces, ?_, .cons hpiece hpieces⟩
    rw [hwritten, hwritten₁, List.append_assoc, List.singleton_append]

/-! ### What the peer makes of it -/

/-- Written through `wrap_to_send_data`. -/
def sending.Wrapped (m : sending) : Prop := ∃ msg hoff hfit, m.frame = .wrapped msg hoff hfit

/-- No write is longer than the frame meant, head included. -/
theorem Puts.length_le {z : zlib} {m : sending} {piece : List UInt8} (h : Puts z m piece) :
    piece.length ≤ PROTO_HEAD_SIZE + (intended_body z m).length := by
  obtain ⟨stale, logic, frame⟩ := m
  cases frame with
  | wrapped msg hoff hfit =>
    obtain ⟨head, rfl, -⟩ := h
    rw [List.length_append, protocol_head.length_bytes]
  | confirm_connect l client_id ip =>
    obtain ⟨head, rfl, -⟩ := h
    rw [List.length_append, protocol_head.length_bytes]
  | kick l uuid =>
    simp only [Puts] at h
    rw [h, length_write_uint32]
    simp only [PROTO_HEAD_SIZE]
    omega
  | broadcast l payload =>
    simp only [Puts] at h
    rw [h]
    exact Nat.zero_le _

/-- A write by `async_send_multi` is never a frame with the body meant. -/
theorem Puts.wrapped {z : zlib} {m : sending} {piece : List UInt8} {f : Frame UInt8}
    (h : Puts z m piece) (hf : protocol_head.format.WellFormed f)
    (hbody : f.2 = intended_body z m) (heq : piece = f.1 ++ f.2) : m.Wrapped := by
  obtain ⟨stale, logic, frame⟩ := m
  obtain ⟨head_block, body⟩ := f
  obtain ⟨hsize, hlen⟩ := hf
  simp only [protocol_head.format] at hsize hlen hbody heq
  subst heq
  cases frame with
  | wrapped msg hoff hfit => exact ⟨msg, hoff, hfit, rfl⟩
  | confirm_connect l client_id ip =>
    -- the head announces nineteen bytes, the body has eight
    obtain ⟨head, hpiece, hnineteen⟩ := h
    obtain ⟨rfl, -⟩ := List.append_inj hpiece (by rw [hsize, protocol_head.length_bytes])
    rw [protocol_head.unpack_head_bytes, hnineteen, hbody] at hlen
    exact absurd hlen (by simp [intended_body])
  | kick l uuid =>
    -- four bytes are no head
    have htotal := congrArg List.length (h : head_block ++ body = write_uint32 uuid)
    rw [List.length_append, hsize, length_write_uint32] at htotal
    simp only [PROTO_HEAD_SIZE] at htotal
    omega
  | broadcast l payload =>
    -- nothing is written at all
    have htotal := congrArg List.length (h : head_block ++ body = [])
    rw [List.length_append, hsize] at htotal
    simp only [PROTO_HEAD_SIZE, List.length_nil] at htotal
    omega

theorem all_wrapped {z : zlib} {ms : List sending} {pieces : List (List UInt8)}
    {frames : List (Frame UInt8)} (hpieces : List.Forall₂ (Puts z) ms pieces)
    (hframes : List.Forall₂ (Intended z) ms frames)
    (hwf : ∀ f ∈ frames, protocol_head.format.WellFormed f)
    (heq : List.Forall₂ (fun p f => p = f.1 ++ f.2) pieces frames) : ∀ m ∈ ms, m.Wrapped := by
  induction hpieces generalizing frames with
  | nil => exact fun m hm => nomatch hm
  | cons hpiece _ ih =>
    cases hframes with
    | cons hframe hframes =>
      cases heq with
      | cons heq hrest =>
        have hhead := hpiece.wrapped (hwf _ List.mem_cons_self) hframe.body heq
        have htail := ih hframes (fun f hf => hwf f (List.mem_cons_of_mem _ hf)) hrest
        exact List.forall_mem_cons.mpr ⟨hhead, htail⟩

theorem pieces_le {z : zlib} {ms : List sending} {pieces : List (List UInt8)}
    {frames : List (Frame UInt8)} (hpieces : List.Forall₂ (Puts z) ms pieces)
    (hframes : List.Forall₂ (Intended z) ms frames)
    (hwf : ∀ f ∈ frames, protocol_head.format.WellFormed f) :
    List.Forall₂ (fun p f => p.length ≤ (f.1 ++ f.2).length) pieces frames := by
  induction hpieces generalizing frames with
  | nil =>
    cases hframes
    exact .nil
  | cons hpiece _ ih =>
    cases hframes with
    | cons hframe hframes =>
      have hsize : _ = PROTO_HEAD_SIZE := (hwf _ List.mem_cons_self).1
      refine .cons ?_ (ih hframes fun f hf => hwf f (List.mem_cons_of_mem _ hf))
      rw [List.length_append, hsize, hframe.body]
      exact hpiece.length_le

/-- A stream that parses back was written by `async_send` only. -/
theorem wrapped_of_parses_back {z : zlib} (hz : z.Lawful) {i : session_sptr}
    {w w' : proxy_manager} {ms : List sending} (hstate : (w.sessions i)._state = .CONNECTING)
    (hrun : put_all z i w ms = .ok w') (h : ParsesBack z i w w' ms) : ∀ m ∈ ms, m.Wrapped := by
  obtain ⟨pieces, hwritten, hrest, hframes⟩ := h
  obtain ⟨pieces', hwritten', hpieces⟩ := put_all_spec hz hstate hrun
  obtain rfl := List.append_cancel_left (hwritten'.symm.trans hwritten)
  have hwf := wellFormed_of_mem_cut (F := protocol_head.format) pieces'.flatten
  have hserial := serialize_cut (F := protocol_head.format) pieces'.flatten
  rw [hrest, List.append_nil] at hserial
  exact all_wrapped hpieces hframes hwf
    (eq_of_flatten_eq_serialize (pieces_le hpieces hframes hwf) hserial.symm)

/-- Frames of `wrap_to_send_data` are well formed and as meant. -/
theorem frames_of_wrapped {z : zlib} {ms : List sending} {pieces : List (List UInt8)}
    (hpieces : List.Forall₂ (Puts z) ms pieces) (h : ∀ m ∈ ms, m.Wrapped) :
    ∃ frames, pieces.flatten = serialize frames ∧ List.Forall₂ (Intended z) ms frames ∧
      ∀ f ∈ frames, protocol_head.format.WellFormed f := by
  induction hpieces with
  | nil => exact ⟨[], rfl, .nil, fun f hf => nomatch hf⟩
  | @cons m piece ms pieces hpiece _ ih =>
    obtain ⟨⟨msg, hoff, hfit, hframe⟩, hms⟩ := List.forall_mem_cons.mp h
    obtain ⟨frames, hserial, hframes, hwf⟩ := ih hms
    simp only [Puts, hframe] at hpiece
    obtain ⟨head, rfl, hlen, hintended⟩ := hpiece
    refine ⟨(head.bytes, intended_body z m) :: frames, ?_, .cons hintended hframes,
      List.forall_mem_cons.mpr ⟨⟨protocol_head.length_bytes head, ?_⟩, hwf⟩⟩
    · simp only [List.flatten_cons, hserial, serialize, List.flatMap_cons]
    · simp only [protocol_head.format, protocol_head.unpack_head_bytes]
      exact hlen

/-- **Control frames, exactly.** What is written to a connected session parses back
    if and only if nothing was written by `async_send_multi`. -/
theorem parses_back_iff {z : zlib} (hz : z.Lawful) {i : session_sptr} {w w' : proxy_manager}
    {ms : List sending} (hstate : (w.sessions i)._state = .CONNECTING)
    (hrun : put_all z i w ms = .ok w') :
    ParsesBack z i w w' ms ↔ ∀ m ∈ ms, m.Wrapped := by
  refine ⟨wrapped_of_parses_back hz hstate hrun, ?_⟩
  intro h
  obtain ⟨pieces, hwritten, hpieces⟩ := put_all_spec hz hstate hrun
  obtain ⟨frames, hserial, hframes, hwf⟩ := frames_of_wrapped hpieces h
  have hcut := cut_serialize hwf []
  rw [List.append_nil, ← hserial, cut_nil, List.append_nil] at hcut
  exact ⟨pieces, hwritten, by rw [hcut], by rw [hcut]; exact hframes⟩

/-- One byte for the game server of `one_client`. -/
def sending_a : sending where
  stale := fun _ _ => 0
  logic := (one_client.sessions 1)._logic
  frame := .wrapped { offset := 11, length := 1, _buffer := fun _ => 0x61 } rfl (by decide)

/-- Two of them parse back. -/
theorem parses_back_a :
    ∃ w', ParsesBack zlib.stored 1 one_client w' [sending_a, sending_a] := by
  obtain ⟨w', hrun⟩ : ∃ w', put_all zlib.stored 1 one_client [sending_a, sending_a] = .ok w' :=
    ⟨_, rfl⟩
  refine ⟨w', (parses_back_iff zlib.lawful_stored rfl hrun).mpr ?_⟩
  intro m hm
  obtain rfl : m = sending_a := by simpa using hm
  exact ⟨_, _, _, rfl⟩

/-- A confirmation does not. -/
theorem not_always_parses_back :
    ¬ ∀ (z : zlib) (i : session_sptr) (w w' : proxy_manager) (ms : List sending), z.Lawful →
      (w.sessions i)._state = .CONNECTING → put_all z i w ms = .ok w' →
      ParsesBack z i w w' ms := by
  intro hall
  let confirm : sending :=
    ⟨fun _ _ => 0, (one_client.sessions 1)._logic, .confirm_connect ⟨0, ⟨0, 0, [], 9⟩⟩ 5 0⟩
  obtain ⟨w', hrun⟩ : ∃ w', put_all zlib.stored 1 one_client [confirm] = .ok w' := ⟨_, rfl⟩
  obtain ⟨msg, hoff, hfit, hframe⟩ := wrapped_of_parses_back zlib.lawful_stored rfl hrun
    (hall zlib.stored 1 one_client w' [confirm] zlib.lawful_stored rfl hrun) confirm
    (List.mem_singleton_self _)
  cases hframe

end AsioNet
