import AsioNet.ProxyRuns

/-! # The authentication response

    After a yes of the proxy, `default_session_logic` sends the peer a response
    with the cipher's parameters. `async_send` wraps it with the logic the session
    holds at that moment. If the yes promoted the session, that is no longer the
    logic that speaks in clear under the authentication command.
-/

namespace AsioNet

open ByteMemory reusabel_buffer proto_mask

/-- The cipher a logic uses. -/
def session_logic.cipher : session_logic → Option rc4_info
  | .default_session l => some l._rc4_info
  | .client_session l => some l._rc4_info
  | .server_session _ => none

/-- A peer without the key finds the parameters of the cipher in the body of a
    response. -/
structure CarriesCipher (info : rc4_info) (body : List UInt8) : Prop where
  subtract : body.getD 1 0 = UInt8.ofInt info.rc4_subtract_
  mod_vt : body.getD 2 0 = UInt8.ofNat info.rc4_modvt_
  key : (body.drop 3).take RC4_KEY_LEN = info.rc4_key_

theorem default_session_logic.carries_response (l : default_session_logic) (ec : TransferError)
    (rest : List UInt8) : CarriesCipher l._rc4_info (l.response_fields ec ++ rest) where
  subtract := rfl
  mod_vt := rfl
  key := by
    have hkey : l._rc4_info.rc4_key_.length = RC4_KEY_LEN := l._rc4_info.length_key
    simp only [response_fields, authentication_aaa_response.fields, List.cons_append,
      List.drop_succ_cons, List.drop_zero, List.append_assoc]
    exact List.take_left' hkey

namespace proxy_manager

/-! ### What is sent after a yes -/

/-- The logic that sends the response. -/
def accepted_logic (l : default_session_logic) (aaa_request : authentication_aaa_request) :
    default_session_logic :=
  { asking l aaa_request with _authentication := .VERIFY_SUCC }

/-- After a yes the frame's processing is the sending of the response. -/
theorem on_frame_of_yes (z : zlib) {stale : recycled} {w w₁ : proxy_manager} {i : session_sptr}
    {head : protocol_head} {body : List UInt8} {l : default_session_logic}
    {aaa_request : authentication_aaa_request} (hasks : w.Asks stale i head body l aaa_request)
    (hanswer : default_session_logic.ask_proxy (fun n => stale (n + 2))
      (w.set_logic i (.default_session (asking l aaa_request))) i aaa_request =
        .ok (true, none, w₁)) :
    w.on_frame z stale i head body =
      default_session_logic.echo_authentication_res z (fun n => stale (n + 2))
        (default_session_logic.store_logic w₁ i (accepted_logic l aaa_request)) i
        (accepted_logic l aaa_request) .EC_Success := by
  obtain ⟨data, hdata, hmask⟩ := hasks.mask
  have hverify : default_session_logic.verify_authentication z (fun n => stale (n + 2))
      (w.set_logic i (.default_session { l with _seq := l._seq + 1 })) i
      { l with _seq := l._seq + 1 } (received_block (stale 0) body) head.get_cmd =
        default_session_logic.echo_authentication_res z (fun n => stale (n + 2))
          (default_session_logic.store_logic w₁ i (accepted_logic l aaa_request)) i
          (accepted_logic l aaa_request) .EC_Success := by
    rw [default_session_logic.verify_authentication, received_block_buffer, received_block_length,
      hasks.request, ok_bind]
    simp only [set_logic_set_logic]
    rw [if_neg (by simp [hasks.cmd])]
    show (default_session_logic.ask_proxy _ (w.set_logic i (.default_session
      (asking l aaa_request))) i aaa_request >>= _) = _
    rw [hanswer, ok_bind]
    rfl
  rw [on_frame_eq]
  simp only [unwrap_received_data, hasks.logic, default_session_logic.unwrap_received_data,
    received_block_buffer, hdata, ok_bind, hasks.in_step, hmask, ne_eq, not_true_eq_false, if_false,
    hverify]
  rw [if_pos hasks.before_verify]
  cases default_session_logic.echo_authentication_res z (fun n => stale (n + 2))
    (default_session_logic.store_logic w₁ i (accepted_logic l aaa_request)) i
    (accepted_logic l aaa_request) .EC_Success with
  | ok w' => rfl
  | error e => rfl

/-- A yes promotes the session itself exactly if its uid leads to it. -/
theorem logic_after_yes {w w₁ : proxy_manager} {i : session_sptr} {l : default_session_logic}
    (hl : (w.sessions i)._logic = .default_session l)
    (h : w.move_server_available (w.sessions i)._uuid = .ok w₁) :
    (w₁.sessions i)._state = (w.sessions i)._state ∧
      (w₁.sessions i).written = (w.sessions i).written ∧
      if w._un_managed_sessions._container.lookup (w.sessions i)._uuid = some i then
        (w₁.sessions i)._logic = .server_session l.trans_to_server
      else (w₁.sessions i)._logic = .default_session l := by
  by_cases hfound : w._un_managed_sessions._container.lookup (w.sessions i)._uuid = some i
  · rw [move_server_available, move_available_eq, hfound] at h
    simp only [hl] at h
    obtain rfl := Except.ok.inj h
    rw [if_pos hfound]
    show ((w.set_logic i _).sessions i)._state = _ ∧ ((w.set_logic i _).sessions i).written = _ ∧
      ((w.set_logic i _).sessions i)._logic = _
    rw [sessions_set_logic_self]
    exact ⟨rfl, rfl, rfl⟩
  · -- whatever session the uid leads to, it is not this one
    rw [if_neg hfound]
    rcases move_server_available_cases h with rfl | ⟨s, l', hs, -, rfl⟩
    · exact ⟨rfl, rfl, hl⟩
    · have hne : i ≠ s := by
        rintro rfl
        exact hfound hs
      show ((w.set_logic s _).sessions i)._state = _ ∧
        ((w.set_logic s _).sessions i).written = _ ∧ ((w.set_logic s _).sessions i)._logic = _
      rw [sessions_set_logic_ne hne]
      exact ⟨rfl, rfl, hl⟩

/-! ### What the peer gets -/

/-- The response is an uncompressed frame with the authentication command, its body
    is what `pack` made, in clear, and carries the cipher the session uses from
    now on. -/
def ReadableResponse (l : default_session_logic) (stale : Nat → UInt8) (logic : session_logic)
    (frame : List UInt8) : Prop :=
  ∃ (head : protocol_head) (body : List UInt8) (packed : once_buffer),
    frame = head.bytes ++ body ∧
    head.get_cmd = protocol_cmd.Commands_AuthenticationAAA.val ∧ head.get_compressed = false ∧
    l.pack_authentication_res stale .EC_Success = .ok packed ∧ body = packed.content ∧
    ∀ info, logic.cipher = some info → CarriesCipher info body

/-- Processing the frame writes one readable response if the session is connected,
    and nothing otherwise. -/
def EchoReadable (z : zlib) (w : proxy_manager) (stale : recycled) (i : session_sptr)
    (head : protocol_head) (body : List UInt8) : Prop :=
  ∃ w' frames, w.on_frame z stale i head body = .ok w' ∧
    (w'.sessions i).written = (w.sessions i).written ++ frames ∧
    ((w.sessions i)._state = .CONNECTING → frames.length = 1) ∧
    ∀ frame ∈ frames, ∃ l aaa_request, w.Asks stale i head body l aaa_request ∧
      ReadableResponse (accepted_logic l aaa_request) (stale 2) (w'.sessions i)._logic frame

/-! ### Where the response goes out -/

/-- A session that is not connected is sent nothing. -/
theorem echo_of_not_connecting (z : zlib) (stale : recycled) {w : proxy_manager}
    {i : session_sptr} (l : default_session_logic)
    (hstate : (w.sessions i)._state ≠ .CONNECTING) :
    ∃ w', l.echo_authentication_res z stale (default_session_logic.store_logic w i l) i
        .EC_Success = .ok w' ∧ (w'.sessions i).written = (w.sessions i).written := by
  have hsame : ((default_session_logic.store_logic w i l).sessions i)._state =
        (w.sessions i)._state ∧
      ((default_session_logic.store_logic w i l).sessions i).written = (w.sessions i).written := by
    unfold default_session_logic.store_logic
    split
    · rw [sessions_set_logic_self]
      exact ⟨rfl, rfl⟩
    · exact ⟨rfl, rfl⟩
  exact ⟨_, echo_to_not_connecting z stale l .EC_Success (hsame.1 ▸ hstate), hsame.2⟩

/-- A game server's logic sends the response as relayed data. -/
theorem echo_of_server_session (z : zlib) (stale : recycled) {w : proxy_manager}
    {i : session_sptr} {ls : server_session_logic} (l : default_session_logic)
    (hstate : (w.sessions i)._state = .CONNECTING)
    (hlogic : (w.sessions i)._logic = .server_session ls) :
    ∃ w', l.echo_authentication_res z stale (default_session_logic.store_logic w i l) i
        .EC_Success = .ok w' ∧
      ∃ (head : protocol_head) (sent : List UInt8),
        (w'.sessions i).written = (w.sessions i).written ++ [head.bytes ++ sent] ∧
        head.get_cmd = protocol_cmd.Commands_RoutingTransparent.val := by
  obtain ⟨b, -, -, hecho⟩ := echo_to_server_session z stale l .EC_Success hstate hlogic
  rw [store_logic_of_ne l (by rw [hlogic]; exact nofun)]
  refine ⟨_, hecho, masked_head (ls.head_to_send .Commands_RoutingTransparent b.length) b.content,
    b.content, ?_, ?_⟩
  · rw [sessions_set_session_self, basic_async_session.written_async_write_some]
  · rw [masked_head_get_cmd]
    exact protocol_head.get_cmd_get_a_head ..

/-- The logic that answered sends a readable response. -/
theorem echo_of_default_session (z : zlib) (stale : recycled) {w : proxy_manager}
    {i : session_sptr} {l₀ : default_session_logic} (l : default_session_logic)
    (hstate : (w.sessions i)._state = .CONNECTING)
    (hlogic : (w.sessions i)._logic = .default_session l₀) :
    ∃ w', l.echo_authentication_res z stale (default_session_logic.store_logic w i l) i
        .EC_Success = .ok w' ∧
      ∃ sent, (w'.sessions i).written = (w.sessions i).written ++ [sent] ∧
        ReadableResponse l (stale 0) (w'.sessions i)._logic sent := by
  have hsession : (w.set_logic i (.default_session l)).sessions i =
      (w.sessions i).modify_session_logic (.default_session l) := sessions_set_logic_self ..
  have hstate' : ((w.set_logic i (.default_session l)).sessions i)._state = .CONNECTING := by
    rw [hsession]
    exact hstate
  have hlogic' : ((w.set_logic i (.default_session l)).sessions i)._logic = .default_session l := by
    rw [hsession, basic_async_session.logic_modify_session_logic]
  obtain ⟨b, hpack, hlen, hcontent, hecho⟩ :=
    echo_to_default_session z stale l .EC_Success hstate' hlogic'
  rw [store_logic_of_default l hlogic]
  refine ⟨_, hecho, _, ?_, masked_head (l.head_to_send b.length) b.content, b.content, b, rfl, ?_, ?_,
    hpack, rfl, ?_⟩
  · rw [sessions_set_session_self, basic_async_session.written_async_write_some, hsession,
      basic_async_session.written_modify_session_logic]
  · rw [masked_head_get_cmd]
    exact protocol_head.get_cmd_get_a_head ..
  · rw [masked_head_get_compressed]
    exact protocol_head.get_compressed_get_a_head ..
  · intro info hinfo
    rw [sessions_set_session_self, basic_async_session.logic_async_write_some, hsession,
      basic_async_session.logic_modify_session_logic] at hinfo
    obtain rfl := Option.some.inj hinfo
    rw [hcontent]
    exact l.carries_response .EC_Success _

/-! ### Exactly when the peer can read it -/

/-- After a yes, with what the promotion did to the session. -/
theorem Authenticates.answered (z : zlib) {w : proxy_manager} {stale : recycled}
    {i : session_sptr} {head : protocol_head} {body : List UInt8}
    (h : w.Authenticates stale i head body) :
    ∃ l aaa_request w₁, w.Asks stale i head body l aaa_request ∧
      w.on_frame z stale i head body =
        default_session_logic.echo_authentication_res z (fun n => stale (n + 2))
          (default_session_logic.store_logic w₁ i (accepted_logic l aaa_request)) i
          (accepted_logic l aaa_request) .EC_Success ∧
      (w₁.sessions i)._state = (w.sessions i)._state ∧
      (w₁.sessions i).written = (w.sessions i).written ∧
      if w._un_managed_sessions._container.lookup (w.sessions i)._uuid = some i then
        (w₁.sessions i)._logic = .server_session (asking l aaa_request).trans_to_server
      else (w₁.sessions i)._logic = .default_session (asking l aaa_request) := by
  obtain ⟨l, aaa_request, target_uid, w₁, hasks, hanswer⟩ := h
  rcases ask_proxy_cases hanswer with hno | ⟨-, -, w₂, hmove, hyes⟩
  · cases hno
  cases hyes
  have hasking : ((w.set_logic i (.default_session (asking l aaa_request))).sessions i)._logic =
      .default_session (asking l aaa_request) := by
    rw [sessions_set_logic_self, basic_async_session.logic_modify_session_logic]
  have hafter := logic_after_yes hasking hmove
  rw [un_managed_sessions_set_logic, sessions_set_logic_self,
    basic_async_session.uuid_modify_session_logic, basic_async_session.state_modify_session_logic,
    basic_async_session.written_modify_session_logic] at hafter
  exact ⟨l, aaa_request, w₁, hasks, on_frame_of_yes z hasks hanswer, hafter⟩

theorem not_found_of_echo_readable {z : zlib} {w : proxy_manager} {stale : recycled}
    {i : session_sptr} {head : protocol_head} {body : List UInt8}
    (hauth : w.Authenticates stale i head body) (h : EchoReadable z w stale i head body)
    (hstate : (w.sessions i)._state = .CONNECTING) :
    w._un_managed_sessions._container.lookup (w.sessions i)._uuid ≠ some i := by
  intro hfound
  obtain ⟨l, aaa_request, w₁, -, hframe, hstate₁, hwritten₁, hlogic⟩ := hauth.answered z
  -- the yes promoted the session, so the response is wrapped as relayed data
  rw [if_pos hfound] at hlogic
  obtain ⟨w', frames, hw', hwritten, -, hreadable⟩ := h
  obtain ⟨w₂, hw₂, sent_head, sent, hsent, hcmd⟩ := echo_of_server_session z
    (fun n => stale (n + 2)) (accepted_logic l aaa_request) (hstate₁.trans hstate) hlogic
  rw [← hframe, hw'] at hw₂
  cases hw₂
  rw [hwritten₁] at hsent
  obtain rfl := List.append_cancel_left (hsent.symm.trans hwritten)
  obtain ⟨l', aaa_request', -, head', body', packed, hbytes, hcmd', -⟩ :=
    hreadable _ (List.mem_singleton_self _)
  obtain ⟨rfl, -⟩ := frame_injective hbytes
  rw [hcmd] at hcmd'
  exact absurd hcmd' (by decide)

/-- **The response, exactly.** After a yes the peer can read the response if and
    only if the session is not connected, so that there is none, or the yes did
    not promote the session, because its uid leads to another one. -/
theorem echo_readable_iff (z : zlib) {w : proxy_manager} {stale : recycled} {i : session_sptr}
    {head : protocol_head} {body : List UInt8} (hauth : w.Authenticates stale i head body) :
    EchoReadable z w stale i head body ↔
      ((w.sessions i)._state ≠ .CONNECTING ∨
        w._un_managed_sessions._container.lookup (w.sessions i)._uuid ≠ some i) := by
  constructor
  · intro h
    by_cases hstate : (w.sessions i)._state = .CONNECTING
    · exact Or.inr (not_found_of_echo_readable hauth h hstate)
    · exact Or.inl hstate
  · intro h
    -- the other way round: nothing is sent, or the old logic sends it
    obtain ⟨l, aaa_request, w₁, hasks, hframe, hstate₁, hwritten₁, hlogic⟩ := hauth.answered z
    by_cases hstate : (w.sessions i)._state = .CONNECTING
    · rw [if_neg (h.resolve_left (not_not.mpr hstate))] at hlogic
      obtain ⟨w', hw', sent, hwritten, hreadable⟩ := echo_of_default_session z
        (fun n => stale (n + 2)) (accepted_logic l aaa_request) (hstate₁.trans hstate) hlogic
      refine ⟨w', [sent], hframe.trans hw', by rw [hwritten, hwritten₁], fun _ => rfl, ?_⟩
      intro frame hmem
      obtain rfl := List.mem_singleton.mp hmem
      exact ⟨l, aaa_request, hasks, hreadable⟩
    · obtain ⟨w', hw', hwritten⟩ := echo_of_not_connecting z (fun n => stale (n + 2))
        (accepted_logic l aaa_request) (by rw [hstate₁]; exact hstate)
      refine ⟨w', [], hframe.trans hw', by rw [hwritten, hwritten₁, List.append_nil], ?_, ?_⟩
      · intro hconnecting
        exact absurd hconnecting hstate
      · intro frame hmem
        cases hmem

end proxy_manager

namespace proxy_run

open proxy_manager

theorem authenticates_one_session :
    one_session.proxy.Authenticates (fun _ _ => 0) 0 request_head request_body :=
  ⟨_, _, _, _, ⟨rfl, rfl, ⟨_, rfl, by decide +kernel⟩, rfl, rfl, by decide +kernel⟩, rfl⟩

theorem authenticates_two_sessions :
    two_sessions.proxy.Authenticates (fun _ _ => 0) 1 request_head request_body :=
  ⟨_, _, _, _, ⟨rfl, rfl, ⟨_, rfl, by decide +kernel⟩, rfl, rfl, by decide +kernel⟩, rfl⟩

/-- The second of two sessions with one uid is not promoted and can read its
    response. -/
theorem echo_readable_two_sessions :
    EchoReadable zlib.stored two_sessions.proxy (fun _ _ => 0) 1 request_head request_body :=
  (echo_readable_iff zlib.stored authenticates_two_sessions).mpr (Or.inr (by decide +kernel))

/-- A session that is alone is promoted and cannot. -/
theorem not_always_echo_readable :
    ¬ ∀ (z : zlib) (s : proxy_run), (system z).Reachable s →
      ∀ (stale : recycled) (i : session_sptr) (head : protocol_head) (body : List UInt8),
        s.proxy.Authenticates stale i head body →
        EchoReadable z s.proxy stale i head body := by
  intro hall
  have hreachable := TransitionSystem.System.Reachable.of_restrict
    (reachable_one_session zlib.stored)
  exact not_found_of_echo_readable authenticates_one_session
    (hall zlib.stored one_session hreachable _ 0 _ _ authenticates_one_session) rfl rfl

end proxy_run

end AsioNet
