import AsioNet.ProxySession

/-! # What a received frame can change

    Relaying, echoing and keep-alives write to sockets and advance sequence
    numbers, but leave the session tables, every session's uid and the kind of
    every session's logic alone: `Keeps`. The one exception is an authentication
    frame the proxy answers with yes. It may promote a session, `Promotes`: the
    one the uid leads to in `_un_managed_sessions`.
-/

namespace AsioNet

open reusabel_buffer proto_mask

/-- Which of the three logics a session holds. -/
inductive logic_kind where
  | default_session
  | client_session
  | server_session
  deriving DecidableEq, Repr

def session_logic.kind : session_logic → logic_kind
  | .default_session _ => .default_session
  | .client_session _ => .client_session
  | .server_session _ => .server_session

theorem session_logic.default_of_kind {logic : session_logic} (h : logic.kind = .default_session) :
    ∃ l, logic = .default_session l := by
  cases logic with
  | default_session l => exact ⟨l, rfl⟩
  | client_session l => cases h
  | server_session l => cases h

theorem session_logic.server_of_kind {logic : session_logic} (h : logic.kind = .server_session) :
    ∃ l, logic = .server_session l := by
  cases logic with
  | default_session l => cases h
  | client_session l => cases h
  | server_session l => exact ⟨l, rfl⟩

namespace proxy_manager

/-- Tables, uids and the kinds of the logics are the same. -/
structure Keeps (w w' : proxy_manager) : Prop where
  server_sessions : w'._server_sessions = w._server_sessions
  client_sessions : w'._client_sessions = w._client_sessions
  un_managed_sessions : w'._un_managed_sessions = w._un_managed_sessions
  uuid : ∀ j, (w'.sessions j)._uuid = (w.sessions j)._uuid
  kind : ∀ j, (w'.sessions j)._logic.kind = (w.sessions j)._logic.kind

/-- Session `s` became a game server under `uid`, and nothing else changed. -/
structure Promotes (uid : session_uid) (s : session_sptr) (w w' : proxy_manager) : Prop where
  server_sessions : w'._server_sessions = (w._server_sessions.insert uid s).1
  client_sessions : w'._client_sessions = w._client_sessions
  un_managed_sessions : w'._un_managed_sessions = w._un_managed_sessions
  found : w._un_managed_sessions._container.lookup uid = some s
  absent : uid ∉ w._server_sessions._container
  was_default : (w.sessions s)._logic.kind = .default_session
  is_server : (w'.sessions s)._logic.kind = .server_session
  uuid : ∀ j, (w'.sessions j)._uuid = (w.sessions j)._uuid
  kind : ∀ j, j ≠ s → (w'.sessions j)._logic.kind = (w.sessions j)._logic.kind

/-! ### Sending keeps -/

theorem Keeps.refl (w : proxy_manager) : Keeps w w := ⟨rfl, rfl, rfl, fun _ => rfl, fun _ => rfl⟩

theorem Keeps.trans {w w' w'' : proxy_manager} (h : Keeps w w') (h' : Keeps w' w'') :
    Keeps w w'' where
  server_sessions := h'.server_sessions.trans h.server_sessions
  client_sessions := h'.client_sessions.trans h.client_sessions
  un_managed_sessions := h'.un_managed_sessions.trans h.un_managed_sessions
  uuid j := (h'.uuid j).trans (h.uuid j)
  kind j := (h'.kind j).trans (h.kind j)

theorem Keeps.set_session {w : proxy_manager} {i : session_sptr}
    {s : basic_async_session session_logic} (huuid : s._uuid = (w.sessions i)._uuid)
    (hkind : s._logic.kind = (w.sessions i)._logic.kind) : Keeps w (w.set_session i s) := by
  refine ⟨rfl, rfl, rfl, ?_, ?_⟩
  · intro j
    by_cases hj : j = i
    · rw [hj, sessions_set_session_self, huuid]
    · rw [sessions_set_session_ne hj]
  · intro j
    by_cases hj : j = i
    · rw [hj, sessions_set_session_self, hkind]
    · rw [sessions_set_session_ne hj]

theorem Keeps.set_logic {w : proxy_manager} {i : session_sptr} {logic : session_logic}
    (hkind : logic.kind = (w.sessions i)._logic.kind) : Keeps w (w.set_logic i logic) :=
  Keeps.set_session rfl hkind

/-- Wrapping returns the logic it was given. -/
theorem wrap_to_send_data_fst {z : zlib} {stale : Nat → UInt8} {logic : session_logic}
    {buffer : once_buffer} {r : session_logic × once_buffer}
    (h : logic.wrap_to_send_data z stale buffer = .ok r) : r.1 = logic := by
  simp only [session_logic.wrap_to_send_data] at h
  split at h
  · obtain ⟨b, -, h⟩ := bind_eq_ok.mp h
    cases h
    rfl
  · obtain ⟨b, -, h⟩ := bind_eq_ok.mp h
    cases h
    rfl
  · obtain ⟨b, -, h⟩ := bind_eq_ok.mp h
    cases h
    rfl

/-- Sending to a session writes one region to its socket, or nothing. -/
theorem async_send_cases {z : zlib} {stale : Nat → UInt8} {w w' : proxy_manager}
    {i : session_sptr} {msg : once_buffer} (h : w.async_send z stale i msg = .ok w') :
    w' = w ∨ ∃ region, w' = w.set_session i ((w.sessions i).async_write_some region) := by
  rw [async_send] at h
  obtain ⟨s, hs, h⟩ := bind_eq_ok.mp h
  cases h
  rcases basic_async_session.async_send_eq_ok hs with rfl | ⟨r, region, hwrap, rfl⟩
  · exact Or.inl (set_session_self w i)
  · have hsame : (w.sessions i).modify_session_logic r.1 = w.sessions i := by
      rw [wrap_to_send_data_fst hwrap]
      rfl
    rw [hsame]
    exact Or.inr ⟨region, rfl⟩

theorem async_send_multi_cases {w w' : proxy_manager} {i : session_sptr}
    {head : Option tiny_buffer} {msg : Option once_buffer}
    (h : w.async_send_multi i head msg = .ok w') :
    w' = w ∨ ∃ region, w' = w.set_session i ((w.sessions i).async_write_some region) := by
  rw [async_send_multi] at h
  obtain ⟨s, hs, h⟩ := bind_eq_ok.mp h
  cases h
  rcases basic_async_session.async_send_multi_eq_ok hs with rfl | ⟨region, rfl⟩
  · exact Or.inl (set_session_self w i)
  · exact Or.inr ⟨region, rfl⟩

/-- `w'` is `w` with more frames written to its sockets. -/
structure Sends (w w' : proxy_manager) : Prop where
  server_sessions : w'._server_sessions = w._server_sessions
  client_sessions : w'._client_sessions = w._client_sessions
  un_managed_sessions : w'._un_managed_sessions = w._un_managed_sessions
  session : ∀ j, ∃ frames, w'.sessions j =
    { w.sessions j with written := (w.sessions j).written ++ frames }

theorem Sends.logic {w w' : proxy_manager} (h : Sends w w') (j : session_sptr) :
    (w'.sessions j)._logic = (w.sessions j)._logic := by
  obtain ⟨frames, hj⟩ := h.session j
  rw [hj]

theorem Sends.keeps {w w' : proxy_manager} (h : Sends w w') : Keeps w w' where
  server_sessions := h.server_sessions
  client_sessions := h.client_sessions
  un_managed_sessions := h.un_managed_sessions
  uuid j := by
    obtain ⟨frames, hj⟩ := h.session j
    rw [hj]
  kind j := congrArg session_logic.kind (h.logic j)

theorem Sends.refl (w : proxy_manager) : Sends w w :=
  ⟨rfl, rfl, rfl, fun _ => ⟨[], by rw [List.append_nil]⟩⟩

theorem Sends.trans {w w' w'' : proxy_manager} (h : Sends w w') (h' : Sends w' w'') :
    Sends w w'' := by
  refine ⟨h'.server_sessions.trans h.server_sessions, h'.client_sessions.trans h.client_sessions,
    h'.un_managed_sessions.trans h.un_managed_sessions, ?_⟩
  intro j
  obtain ⟨frames, hj⟩ := h.session j
  obtain ⟨frames', hj'⟩ := h'.session j
  refine ⟨frames ++ frames', ?_⟩
  rw [hj', hj, List.append_assoc]

theorem sends_of_write {w w' : proxy_manager} {i : session_sptr}
    (h : w' = w ∨ ∃ region, w' = w.set_session i ((w.sessions i).async_write_some region)) :
    Sends w w' := by
  rcases h with rfl | ⟨region, rfl⟩
  · exact Sends.refl _
  · refine ⟨rfl, rfl, rfl, ?_⟩
    intro j
    by_cases hj : j = i
    · refine ⟨[region], ?_⟩
      rw [hj, sessions_set_session_self]
      rfl
    · refine ⟨[], ?_⟩
      rw [sessions_set_session_ne hj, List.append_nil]

theorem sends_of_async_send {z : zlib} {stale : Nat → UInt8} {w w' : proxy_manager}
    {i : session_sptr} {msg : once_buffer} (h : w.async_send z stale i msg = .ok w') :
    Sends w w' := sends_of_write (async_send_cases h)

theorem sends_of_send_to {table : SafeHashMap session_uid session_sptr} {z : zlib}
    {stale : Nat → UInt8} {w w' : proxy_manager} {target : session_uid} {msg : once_buffer}
    (h : send_to table z stale w target msg = .ok w') : Sends w w' := by
  rw [send_to] at h
  split at h
  · cases h
    exact Sends.refl w
  · exact sends_of_async_send h

theorem sends_of_send_to_multi {table : SafeHashMap session_uid session_sptr}
    {w w' : proxy_manager} {target : session_uid} {head : tiny_buffer} {msg : once_buffer}
    (h : send_to_multi table w target head msg = .ok w') : Sends w w' := by
  rw [send_to_multi] at h
  split at h
  · cases h
    exact Sends.refl w
  · exact sends_of_write (async_send_multi_cases h)

theorem sends_of_tick_alive {z : zlib} {stale : recycled} {w w' : proxy_manager}
    {i : session_sptr} (h : w.tick_alive z stale i = .ok w') : Sends w w' := by
  rw [tick_alive] at h
  split at h
  · cases h
    exact Sends.refl w
  · exact sends_of_async_send h

theorem Sends.foldlM {α : Type} {f : proxy_manager → α → Checked proxy_manager}
    (hf : ∀ w a w', f w a = .ok w' → Sends w w') {as : List α} {w w' : proxy_manager}
    (h : as.foldlM f w = .ok w') : Sends w w' := by
  -- on the rounds of the loop; each adds to what the one before wrote
  induction as generalizing w with
  | nil =>
    cases h
    exact Sends.refl w'
  | cons a as ih =>
    rw [List.foldlM_cons] at h
    obtain ⟨w₁, hstep, h⟩ := bind_eq_ok.mp h
    exact (hf _ a w₁ hstep).trans (ih h)

/-! ### Authenticated sessions keep -/

theorem sends_of_relay_to_target {stale : recycled} {l : server_session_logic}
    {data mutable_buffer : once_buffer} {w w' : proxy_manager} {k : Nat}
    (h : l.relay_to_target stale data mutable_buffer w k = .ok w') : Sends w w' := by
  rw [server_session_logic.relay_to_target] at h
  obtain ⟨uid, -, h⟩ := bind_eq_ok.mp h
  obtain ⟨head_buffer, -, h⟩ := bind_eq_ok.mp h
  exact sends_of_send_to_multi h

theorem sends_of_try_copy_to_storage {z : zlib} {stale : recycled} {w : proxy_manager}
    {i : session_sptr} {data : once_buffer} {head : protocol_head} {r : Bool × proxy_manager}
    (h : w.try_copy_to_storage z stale i data head = .ok r) : Sends w r.2 := by
  unfold try_copy_to_storage at h
  split at h
  · cases h
    exact Sends.refl w
  · unfold client_session_logic.try_copy_to_storage at h
    obtain ⟨b, -, h⟩ := bind_eq_ok.mp h
    obtain ⟨w', hsend, h⟩ := bind_eq_ok.mp h
    cases h
    exact sends_of_send_to hsend
  · unfold server_session_logic.try_copy_to_storage at h
    split at h
    · obtain ⟨count, -, h⟩ := bind_eq_ok.mp h
      obtain ⟨rest, -, h⟩ := bind_eq_ok.mp h
      obtain ⟨mutable_buffer, -, h⟩ := bind_eq_ok.mp h
      obtain ⟨w', hloop, h⟩ := bind_eq_ok.mp h
      cases h
      exact Sends.foldlM (fun _ _ _ => sends_of_relay_to_target) hloop
    · obtain ⟨uid, -, h⟩ := bind_eq_ok.mp h
      obtain ⟨w', hsend, h⟩ := bind_eq_ok.mp h
      cases h
      exact sends_of_send_to hsend

theorem keeps_of_unwrap_received_data {z : zlib} {stale : recycled} {w : proxy_manager}
    {i : session_sptr} {buffer ret_block : once_buffer} {head : protocol_head}
    {r : unwrapped proxy_manager}
    (hkind : (w.sessions i)._logic.kind ≠ .default_session)
    (h : w.unwrap_received_data z stale i buffer head ret_block = .ok r) : Keeps w r.state := by
  unfold unwrap_received_data at h
  split at h
  · next l hl =>
    rw [hl] at hkind
    exact absurd rfl hkind
  · next l hl =>
    obtain ⟨r', -, h⟩ := bind_eq_ok.mp h
    cases h
    exact Keeps.set_logic (by rw [hl]; rfl)
  · next l hl =>
    obtain ⟨r', -, h⟩ := bind_eq_ok.mp h
    cases h
    exact Keeps.set_logic (by rw [hl]; rfl)

/-! ### Authentication -/

/-- The logic and the proxy as they are when an authentication frame has got as
    far as the question to the proxy. -/
structure Asks (w : proxy_manager) (stale : recycled) (i : session_sptr) (head : protocol_head)
    (body : List UInt8) (l : default_session_logic) (aaa_request : authentication_aaa_request) :
    Prop where
  logic : (w.sessions i)._logic = .default_session l
  in_step : head.seq = l._seq + 1
  mask : ∃ data, (received_block (stale 0) body).load 0 head.len.toNat = .ok data ∧
    get_mask head.bytes data = 0
  before_verify : l._authentication = .BEFORE_VERIFY
  request : authentication_aaa_request.unpack (received_block (stale 0) body) 0
    (UInt16.ofNat body.length) = .ok aaa_request
  cmd : head.get_cmd = protocol_cmd.Commands_AuthenticationAAA.val

/-- The logic of session `i` by then. -/
def asking (l : default_session_logic) (aaa_request : authentication_aaa_request) :
    default_session_logic :=
  { l with _seq := l._seq + 1 }.set_server_info aaa_request

/-- Session `i` processes an authentication frame that is accepted. -/
def Authenticates (w : proxy_manager) (stale : recycled) (i : session_sptr)
    (head : protocol_head) (body : List UInt8) : Prop :=
  ∃ l aaa_request target_uid w', w.Asks stale i head body l aaa_request ∧
    default_session_logic.ask_proxy (fun n => stale (n + 2))
      (w.set_logic i (.default_session (asking l aaa_request))) i aaa_request =
        .ok (true, target_uid, w')

theorem set_logic_set_logic (w : proxy_manager) (i : session_sptr) (a b : session_logic) :
    (w.set_logic i a).set_logic i b = w.set_logic i b := by
  simp [set_logic, set_session, basic_async_session.modify_session_logic]

/-- The reply. -/
theorem sends_of_echo {z : zlib} {stale : recycled} {w w' : proxy_manager} {i : session_sptr}
    {l : default_session_logic} {ec : TransferError}
    (h : l.echo_authentication_res z stale w i ec = .ok w') : Sends w w' := by
  rw [default_session_logic.echo_authentication_res] at h
  obtain ⟨b, -, h⟩ := bind_eq_ok.mp h
  exact sends_of_async_send h

theorem echo_to_not_connecting (z : zlib) (stale : recycled) {w : proxy_manager}
    {i : session_sptr} (l : default_session_logic) (ec : TransferError)
    (hstate : (w.sessions i)._state ≠ .CONNECTING) :
    l.echo_authentication_res z stale w i ec = .ok w := by
  obtain ⟨b, hpack, -⟩ := l.pack_authentication_res_spec (stale 0) ec
  rw [default_session_logic.echo_authentication_res, hpack, ok_bind,
    async_send_of_not_connecting z _ hstate]

/-- The logic of the session frames what it is told to say. -/
theorem echo_to_default_session (z : zlib) (stale : recycled) {w : proxy_manager}
    {i : session_sptr} {l₀ : default_session_logic} (l : default_session_logic)
    (ec : TransferError) (hstate : (w.sessions i)._state = .CONNECTING)
    (hlogic : (w.sessions i)._logic = .default_session l₀) :
    ∃ b : once_buffer, l.pack_authentication_res (stale 0) ec = .ok b ∧ b.length = 20 ∧
      b.content = l.response_fields ec ++ [stale 0 29, stale 0 30] ∧
      l.echo_authentication_res z stale w i ec =
        .ok (w.set_session i ((w.sessions i).async_write_some
          ((masked_head (l₀.head_to_send b.length) b.content).bytes ++ b.content))) := by
  obtain ⟨b, hpack, hoff, hlen, hcontent⟩ := l.pack_authentication_res_spec (stale 0) ec
  refine ⟨b, hpack, hlen, hcontent, ?_⟩
  rw [default_session_logic.echo_authentication_res, hpack, ok_bind,
    async_send_to_default_session z _ hstate hlogic hoff (by rw [hlen]; decide)]

theorem echo_to_server_session (z : zlib) (stale : recycled) {w : proxy_manager}
    {i : session_sptr} {ls : server_session_logic} (l : default_session_logic)
    (ec : TransferError) (hstate : (w.sessions i)._state = .CONNECTING)
    (hlogic : (w.sessions i)._logic = .server_session ls) :
    ∃ b : once_buffer, b.length = 20 ∧
      b.content = l.response_fields ec ++ [stale 0 29, stale 0 30] ∧
      l.echo_authentication_res z stale w i ec =
        .ok (w.set_session i ((w.sessions i).async_write_some
          ((masked_head (ls.head_to_send .Commands_RoutingTransparent b.length) b.content).bytes ++
            b.content))) := by
  obtain ⟨b, hpack, hoff, hlen, hcontent⟩ := l.pack_authentication_res_spec (stale 0) ec
  refine ⟨b, hlen, hcontent, ?_⟩
  rw [default_session_logic.echo_authentication_res, hpack, ok_bind,
    async_send_to_server_session z _ hstate hlogic hoff (by rw [hlen]; decide)]

theorem store_logic_of_default {w : proxy_manager} {i : session_sptr}
    {l₀ : default_session_logic} (l : default_session_logic)
    (hlogic : (w.sessions i)._logic = .default_session l₀) :
    default_session_logic.store_logic w i l = w.set_logic i (.default_session l) := by
  unfold default_session_logic.store_logic
  rw [hlogic]

/-- The session has got another logic meanwhile. -/
theorem store_logic_of_ne {w : proxy_manager} {i : session_sptr} (l : default_session_logic)
    (hkind : (w.sessions i)._logic.kind ≠ .default_session) :
    default_session_logic.store_logic w i l = w := by
  unfold default_session_logic.store_logic
  split
  · next l₀ hl₀ =>
    rw [hl₀] at hkind
    exact absurd rfl hkind
  · rfl

theorem keeps_store_logic (w : proxy_manager) (i : session_sptr) (l : default_session_logic) :
    Keeps w (default_session_logic.store_logic w i l) := by
  unfold default_session_logic.store_logic
  split
  · next l' hl' => exact Keeps.set_logic (by rw [hl']; rfl)
  · exact Keeps.refl w

theorem promotes_of_move {w w' : proxy_manager} {uid : session_uid}
    (habsent : uid ∉ w._server_sessions._container) (h : w.move_server_available uid = .ok w') :
    Keeps w w' ∨ ∃ s, Promotes uid s w w' := by
  rcases move_server_available_cases h with rfl | ⟨s, l, hfound, hl, rfl⟩
  · exact Or.inl (Keeps.refl w')
  · refine Or.inr ⟨s, rfl, rfl, rfl, hfound, habsent, by rw [hl]; rfl, ?_, ?_, ?_⟩
    · show ((w.set_logic s _).sessions s)._logic.kind = _
      rw [sessions_set_logic_self]
      rfl
    · intro j
      show ((w.set_logic s _).sessions j)._uuid = _
      by_cases hj : j = s
      · rw [hj, sessions_set_logic_self, basic_async_session.uuid_modify_session_logic]
      · rw [sessions_set_logic_ne hj]
    · intro j hj
      show ((w.set_logic s _).sessions j)._logic.kind = _
      rw [sessions_set_logic_ne hj]

theorem Promotes.of_keeps {uid : session_uid} {s : session_sptr} {w₀ w₁ w₂ w₃ : proxy_manager}
    (hbefore : Keeps w₀ w₁) (h : Promotes uid s w₁ w₂) (hafter : Keeps w₂ w₃) :
    Promotes uid s w₀ w₃ where
  server_sessions := by rw [hafter.server_sessions, h.server_sessions, hbefore.server_sessions]
  client_sessions := by rw [hafter.client_sessions, h.client_sessions, hbefore.client_sessions]
  un_managed_sessions := by
    rw [hafter.un_managed_sessions, h.un_managed_sessions, hbefore.un_managed_sessions]
  found := by rw [← hbefore.un_managed_sessions]; exact h.found
  absent := by rw [← hbefore.server_sessions]; exact h.absent
  was_default := by rw [← hbefore.kind]; exact h.was_default
  is_server := by rw [hafter.kind]; exact h.is_server
  uuid j := by rw [hafter.uuid, h.uuid, hbefore.uuid]
  kind j hj := by rw [hafter.kind, h.kind j hj, hbefore.kind]

/-- An answer is no, and nothing has changed, or yes. -/
theorem ask_proxy_cases {stale : recycled} {w : proxy_manager} {i : session_sptr}
    {aaa_request : authentication_aaa_request} {r : Bool × Option session_uid × proxy_manager}
    (h : default_session_logic.ask_proxy stale w i aaa_request = .ok r) :
    r = (false, none, w) ∨ (aaa_request.link_type > SessionType.MULTI_SESSION_BEGIN ∧
      (w.sessions i)._uuid ∉ w._server_sessions._container ∧
      ∃ w', w.move_server_available (w.sessions i)._uuid = .ok w' ∧ r = (true, none, w')) :=
  verify_authentication_cases h

/-- **What `verify_authentication` does**: the proxy says no, or it has tried to move a game
    server; then the logic is stored and the reply is sent. -/
theorem verify_authentication_steps {z : zlib} {stale : recycled} {w w' : proxy_manager}
    {i : session_sptr} {l : default_session_logic} {tmp_buffer : once_buffer} {cmd : UInt16}
    (h : l.verify_authentication z stale w i tmp_buffer cmd = .ok w') :
    ∃ aaa_request, authentication_aaa_request.unpack tmp_buffer (tmp_buffer.buffer 0)
        (UInt16.ofNat tmp_buffer.length) = .ok aaa_request ∧
      let asked := l.set_server_info aaa_request
      let w₀ := w.set_logic i (.default_session asked)
      ((∃ l₁, l₁ = { asked with _authentication := .VERIFY_FAILED } ∧
          l₁.echo_authentication_res z stale (default_session_logic.store_logic w₀ i l₁) i
            .EC_ServerNotFound = .ok w') ∨
        (cmd = protocol_cmd.Commands_AuthenticationAAA.val ∧
          aaa_request.link_type > SessionType.MULTI_SESSION_BEGIN ∧
          (w.sessions i)._uuid ∉ w₀._server_sessions._container ∧
          ∃ w₁ l₁, default_session_logic.ask_proxy stale w₀ i aaa_request = .ok (true, none, w₁) ∧
            w₀.move_server_available (w.sessions i)._uuid = .ok w₁ ∧
            l₁ = { asked with _authentication := .VERIFY_SUCC } ∧
            l₁.echo_authentication_res z stale (default_session_logic.store_logic w₁ i l₁) i
              .EC_Success = .ok w')) := by
  rw [default_session_logic.verify_authentication] at h
  obtain ⟨aaa_request, hrequest, h⟩ := bind_eq_ok.mp h
  refine ⟨aaa_request, hrequest, ?_⟩
  intro asked w₀
  by_cases hcmd : cmd = protocol_cmd.Commands_AuthenticationAAA.val
  · simp only [if_neg (not_not_intro hcmd)] at h
    obtain ⟨r, hanswer, h⟩ := bind_eq_ok.mp h
    rcases ask_proxy_cases hanswer with rfl | ⟨hgt, habsent, w₁, hmove, rfl⟩
    · exact Or.inl ⟨_, rfl, h⟩
    · rw [sessions_set_logic_self, basic_async_session.uuid_modify_session_logic] at habsent hmove
      exact Or.inr ⟨hcmd, hgt, habsent, w₁, _, hanswer, hmove, rfl, h⟩
  · simp only [if_pos hcmd] at h
    exact Or.inl ⟨_, rfl, h⟩

/-- **Authentication** leaves everything as it is or, on a yes, may promote. -/
theorem verify_authentication_keeps_or_promotes {z : zlib} {stale : recycled}
    {w w' : proxy_manager} {i : session_sptr} {l l₀ : default_session_logic}
    {tmp_buffer : once_buffer} {cmd : UInt16}
    (hl : (w.sessions i)._logic = .default_session l₀)
    (h : l.verify_authentication z stale w i tmp_buffer cmd = .ok w') :
    ∃ aaa_request, authentication_aaa_request.unpack tmp_buffer (tmp_buffer.buffer 0)
        (UInt16.ofNat tmp_buffer.length) = .ok aaa_request ∧
      (Keeps w w' ∨
        cmd = protocol_cmd.Commands_AuthenticationAAA.val ∧
        (∃ target_uid w₁, default_session_logic.ask_proxy stale
          (w.set_logic i (.default_session (l.set_server_info aaa_request))) i aaa_request =
            .ok (true, target_uid, w₁)) ∧
        ∃ s, Promotes (w.sessions i)._uuid s w w') := by
  obtain ⟨aaa_request, hrequest, hsteps⟩ := verify_authentication_steps h
  refine ⟨aaa_request, hrequest, ?_⟩
  have hset : Keeps w (w.set_logic i (.default_session (l.set_server_info aaa_request))) :=
    Keeps.set_logic (by rw [hl]; rfl)
  -- after the answer the logic is stored and the reply is sent
  have hreply : ∀ {w₁ w₂ : proxy_manager} {l₁ : default_session_logic} {ec : TransferError},
      l₁.echo_authentication_res z stale (default_session_logic.store_logic w₁ i l₁) i ec =
        .ok w₂ → Keeps w₁ w₂ := fun hecho =>
    (keeps_store_logic _ _ _).trans (sends_of_echo hecho).keeps
  rcases hsteps with ⟨l₁, -, hecho⟩ | ⟨hcmd, -, habsent, w₁, l₁, hanswer, hmove, -, hecho⟩
  · exact Or.inl (hset.trans (hreply hecho))
  · -- a yes has tried to move the session
    rcases promotes_of_move habsent hmove with hkeeps | ⟨s, hpromotes⟩
    · exact Or.inl (hset.trans (hkeeps.trans (hreply hecho)))
    · exact Or.inr ⟨hcmd, ⟨none, w₁, hanswer⟩, s, Promotes.of_keeps hset hpromotes (hreply hecho)⟩

/-- A session that is not authenticated stores nothing. -/
theorem on_frame_of_default {z : zlib} {stale : recycled} {w w' : proxy_manager}
    {i : session_sptr} {l : default_session_logic} {head : protocol_head} {body : List UInt8}
    (hl : (w.sessions i)._logic = .default_session l)
    (h : w.on_frame z stale i head body = .ok w') :
    w' = w.set_logic i (.default_session { l with _seq := l._seq + 1 }) ∨
      (head.seq = l._seq + 1 ∧ (∃ data, (received_block (stale 0) body).load 0 head.len.toNat =
          .ok data ∧ get_mask head.bytes data = 0) ∧ l._authentication = .BEFORE_VERIFY ∧
        default_session_logic.verify_authentication z (fun n => stale (n + 2))
          (w.set_logic i (.default_session { l with _seq := l._seq + 1 })) i
          { l with _seq := l._seq + 1 } (received_block (stale 0) body) head.get_cmd = .ok w') := by
  rw [on_frame_eq] at h
  obtain ⟨r, hr, h⟩ := bind_eq_ok.mp h
  simp only [unwrap_received_data, hl, default_session_logic.unwrap_received_data,
    received_block_buffer] at hr
  split at hr
  · cases hr
    exact Or.inl (Except.ok.inj h).symm
  next hseq =>
  obtain ⟨data, hdata, hr⟩ := bind_eq_ok.mp hr
  split at hr
  · cases hr
    exact Or.inl (Except.ok.inj h).symm
  next hmask =>
  split at hr
  · next hbefore =>
    obtain ⟨w₁, hverify, hr⟩ := bind_eq_ok.mp hr
    cases hr
    obtain rfl := Except.ok.inj h
    exact Or.inr ⟨not_ne_iff.mp hseq, ⟨data, hdata, (not_ne_iff.mp hmask).symm⟩, hbefore, hverify⟩
  · cases hr
    exact Or.inl (Except.ok.inj h).symm

/-- **One frame** keeps tables, uids and kinds, or it authenticates its session and
    promotes the one the uid leads to. -/
theorem on_frame_keeps_or_promotes {z : zlib} {stale : recycled} {w w' : proxy_manager}
    {i : session_sptr} {head : protocol_head} {body : List UInt8}
    (h : w.on_frame z stale i head body = .ok w') :
    Keeps w w' ∨
      (w.Authenticates stale i head body ∧ ∃ s, Promotes (w.sessions i)._uuid s w w') := by
  -- only a session that is not authenticated asks the proxy anything
  by_cases hkind : (w.sessions i)._logic.kind = .default_session
  · obtain ⟨l, hl⟩ := session_logic.default_of_kind hkind
    have hset : Keeps w (w.set_logic i (.default_session { l with _seq := l._seq + 1 })) :=
      Keeps.set_logic (by rw [hl]; rfl)
    rcases on_frame_of_default hl h with rfl | ⟨hseq, hmask, hbefore, hverify⟩
    · exact Or.inl hset
    · have hlogic : ((w.set_logic i (.default_session { l with _seq := l._seq + 1 })).sessions
          i)._logic = .default_session { l with _seq := l._seq + 1 } := by
        rw [sessions_set_logic_self, basic_async_session.logic_modify_session_logic]
      obtain ⟨aaa_request, hrequest, hkeeps | ⟨hcmd, ⟨target_uid, w₁, hask⟩, s, hpromotes⟩⟩ :=
        verify_authentication_keeps_or_promotes hlogic hverify
      · exact Or.inl (hset.trans hkeeps)
      · rw [received_block_buffer, received_block_length] at hrequest
        rw [set_logic_set_logic] at hask
        rw [sessions_set_logic_self, basic_async_session.uuid_modify_session_logic] at hpromotes
        exact Or.inr ⟨⟨l, aaa_request, target_uid, w₁,
          ⟨hl, hseq, hmask, hbefore, hrequest, hcmd⟩, hask⟩,
          s, Promotes.of_keeps hset hpromotes (Keeps.refl w')⟩
  · rw [on_frame_eq] at h
    obtain ⟨r, hr, h⟩ := bind_eq_ok.mp h
    have hunwrap := keeps_of_unwrap_received_data hkind hr
    split at h
    · cases h
      exact Or.inl hunwrap
    · obtain ⟨copied, hcopied, h⟩ := bind_eq_ok.mp h
      cases h
      exact Or.inl (hunwrap.trans (sends_of_try_copy_to_storage hcopied).keeps)

end proxy_manager

end AsioNet
