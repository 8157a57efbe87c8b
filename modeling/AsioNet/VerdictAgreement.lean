import AsioNet.SequenceNumbers
import AsioNet.VerdictFirst

/-! # Both ends and the verdict (`active_server_session_logic.cpp`,
    `default_session_logic.cpp`, `proxy_manager.cpp`)

    A game server, the proxy and the frames on their way between the two. All that the
    proxy writes to the game server are keep-alives and one answer, and the answer starts
    with the proxy's verdict.

    `check_verify_res` takes the two verdicts for each other. So both ends agree as long
    as the game server does not take the answer, and the step in which it does ends that:
    `agree_of_reachable`.
-/

namespace AsioNet

open ByteMemory LengthPrefixed LengthPrefixed.Format TransitionSystem reusabel_buffer proto_mask

namespace proxy_manager

/-! ### What the proxy writes -/

/-- No session is a client's. -/
structure NoClients (w : proxy_manager) : Prop where
  client_sessions : w._client_sessions = SafeHashMap.empty
  kind : ∀ j, (w.sessions j)._logic.kind ≠ .client_session

/-- A signed frame of twenty bytes that start with the error code. -/
def IsAnswer (ec : TransferError) (region : List UInt8) : Prop :=
  ∃ (head : protocol_head) (body : List UInt8), region = head.bytes ++ body ∧
    head.len.toNat = body.length ∧ get_mask head.bytes body = 0 ∧ body.length = 20 ∧
    body.head? = some ec.val

/-- The frame of a response, whichever logic wraps it. -/
theorem isAnswer_masked {l : default_session_logic} {stale : Nat → UInt8} {ec : TransferError}
    {b : once_buffer} (hlen : b.length = 20)
    (hcontent : b.content = l.response_fields ec ++ [stale 29, stale 30]) (cmd : protocol_cmd)
    (seq : UInt32) :
    IsAnswer ec ((masked_head (protocol_head.get_a_head FRAME_KEY (UInt16.ofNat b.length) 0
      cmd.val false seq) b.content).bytes ++ b.content) := by
  have hlength : b.content.length = 20 := by
    rw [hcontent, List.length_append, l.length_response_fields]
    rfl
  refine ⟨_, _, rfl, ?_, ?_, hlength, ?_⟩
  · rw [masked_head_len, protocol_head.get_a_head_len, hlength, hlen]
    rfl
  · apply get_mask_masked_head
    · rfl
    · rw [hlength]
      decide
  · rw [hcontent]
    rfl

/-- **The response** is written with its error code in front, or not at all. -/
theorem echo_cases {z : zlib} {stale : recycled} {w w' : proxy_manager} {i : session_sptr}
    {l : default_session_logic} {ec : TransferError}
    (hkind : (w.sessions i)._logic.kind ≠ .client_session)
    (h : l.echo_authentication_res z stale w i ec = .ok w') :
    w' = w ∨ ∃ region, IsAnswer ec region ∧
      w' = w.set_session i ((w.sessions i).async_write_some region) := by
  by_cases hstate : (w.sessions i)._state = .CONNECTING
  · right
    cases hlogic : (w.sessions i)._logic with
    | default_session l₀ =>
      obtain ⟨b, -, hlen, hcontent, hecho⟩ := echo_to_default_session z stale l ec hstate hlogic
      rw [hecho] at h
      cases h
      exact ⟨_, isAnswer_masked hlen hcontent .Commands_AuthenticationAAA l₀._seq, rfl⟩
    | client_session l₀ =>
      rw [hlogic] at hkind
      exact absurd rfl hkind
    | server_session l₀ =>
      obtain ⟨b, hlen, hcontent, hecho⟩ := echo_to_server_session z stale l ec hstate hlogic
      rw [hecho] at h
      cases h
      exact ⟨_, isAnswer_masked hlen hcontent .Commands_RoutingTransparent l₀._seq, rfl⟩
  · rw [echo_to_not_connecting z stale l ec hstate] at h
    cases h
    exact Or.inl rfl

theorem NoClients.try_get {w : proxy_manager} (h : NoClients w) (uid : session_uid) :
    w._client_sessions.try_get uid = none := by
  rw [h.client_sessions]
  rfl

/-- The loop of a broadcast finds none of its targets. -/
theorem relay_of_noClients {stale : recycled} {l : server_session_logic}
    {data mutable_buffer : once_buffer} {w w' : proxy_manager} (hno : NoClients w)
    {targets : List Nat}
    (h : targets.foldlM (l.relay_to_target stale data mutable_buffer) w = .ok w') : w' = w := by
  induction targets with
  | nil =>
    cases h
    rfl
  | cons k targets ih =>
    rw [List.foldlM_cons] at h
    obtain ⟨w₁, hstep, h⟩ := bind_eq_ok.mp h
    unfold server_session_logic.relay_to_target at hstep
    obtain ⟨uid, -, hstep⟩ := bind_eq_ok.mp hstep
    obtain ⟨head_buffer, -, hstep⟩ := bind_eq_ok.mp hstep
    unfold send_to_client_multi send_to_multi at hstep
    rw [hno.try_get] at hstep
    cases hstep
    exact ih h

/-- Without clients nothing is relayed. -/
theorem try_copy_to_storage_of_noClients {z : zlib} {stale : recycled} {w : proxy_manager}
    {i : session_sptr} {data : once_buffer} {head : protocol_head} {r : Bool × proxy_manager}
    (hno : NoClients w) (h : w.try_copy_to_storage z stale i data head = .ok r) : r.2 = w := by
  unfold try_copy_to_storage at h
  split at h
  · cases h
    rfl
  · next l hl =>
    have hkind := hno.kind i
    rw [hl] at hkind
    exact absurd rfl hkind
  · next l hl =>
    unfold server_session_logic.try_copy_to_storage at h
    split at h
    · obtain ⟨count, -, h⟩ := bind_eq_ok.mp h
      obtain ⟨rest, -, h⟩ := bind_eq_ok.mp h
      obtain ⟨mutable_buffer, -, h⟩ := bind_eq_ok.mp h
      obtain ⟨w', hloop, h⟩ := bind_eq_ok.mp h
      cases h
      exact relay_of_noClients hno hloop
    · obtain ⟨uid, -, h⟩ := bind_eq_ok.mp h
      obtain ⟨w', hsend, h⟩ := bind_eq_ok.mp h
      cases h
      unfold send_to_client send_to at hsend
      rw [hno.try_get] at hsend
      cases hsend
      rfl

/-! ### What a frame does to the sessions -/

/-- The session has not been authenticated yet. -/
def Awaiting (logic : session_logic) : Prop :=
  ∃ l, logic = .default_session l ∧ l._authentication = .BEFORE_VERIFY

/-- The verdict on a session, from what has become of its logic. -/
def answered : session_logic → Option TransferError
  | .default_session l =>
    match l._authentication with
    | .BEFORE_VERIFY => none
    | .VERIFY_SUCC => some .EC_Success
    | .VERIFY_FAILED => some .EC_ServerNotFound
  | _ => some .EC_Success

/-- The verdict a frame has brought about. -/
def verdict_of (before after : session_logic) : Option TransferError :=
  match before with
  | .default_session l => if l._authentication = .BEFORE_VERIFY then answered after else none
  | _ => none

theorem not_awaiting_of_answered {logic : session_logic} {ec : TransferError}
    (h : answered logic = some ec) : ¬ Awaiting logic := by
  rintro ⟨l, rfl, hl⟩
  unfold answered at h
  simp only [hl] at h
  cases h

/-- A frame of session `i` writes nothing but the answer it brings about, and on no other
    session. -/
structure FrameEffect (i : session_sptr) (w w' : proxy_manager) : Prop where
  own : ∃ regions, (w'.sessions i).written = (w.sessions i).written ++ regions ∧
    ∀ region ∈ regions, ∃ ec,
      verdict_of (w.sessions i)._logic (w'.sessions i)._logic = some ec ∧ IsAnswer ec region
  own_logic : Awaiting (w'.sessions i)._logic → Awaiting (w.sessions i)._logic ∧
    verdict_of (w.sessions i)._logic (w'.sessions i)._logic = none
  written : ∀ j, j ≠ i → (w'.sessions j).written = (w.sessions j).written
  logic : ∀ j, j ≠ i → Awaiting (w'.sessions j)._logic → Awaiting (w.sessions j)._logic

/-- The logic of session `i` is replaced, and nothing is written. -/
theorem frameEffect_set_logic {w : proxy_manager} {i : session_sptr} {logic : session_logic}
    (hverdict : verdict_of (w.sessions i)._logic logic = none)
    (hawaiting : Awaiting logic → Awaiting (w.sessions i)._logic) :
    FrameEffect i w (w.set_logic i logic) := by
  have hlogic : ((w.set_logic i logic).sessions i)._logic = logic := by
    rw [sessions_set_logic_self]
    rfl
  refine ⟨⟨[], ?_, nofun⟩, ?_, ?_, ?_⟩
  · rw [sessions_set_logic_self, List.append_nil]
    rfl
  · rw [hlogic]
    exact fun h => ⟨hawaiting h, hverdict⟩
  · intro j hj
    rw [sessions_set_logic_ne hj]
  · intro j hj
    rw [sessions_set_logic_ne hj]
    exact id

/-- What a promotion changes: a logic that is not authenticated is converted. -/
theorem move_server_changes {w w' : proxy_manager} {uid : session_uid}
    (h : w.move_server_available uid = .ok w') (j : session_sptr) :
    (w'.sessions j).written = (w.sessions j).written ∧
      ((w'.sessions j)._logic = (w.sessions j)._logic ∨
        ∃ l, (w'.sessions j)._logic = .server_session l) := by
  rcases move_server_available_cases h with rfl | ⟨s, l, -, -, rfl⟩
  · exact ⟨rfl, Or.inl rfl⟩
  · show ((w.set_logic s _).sessions j).written = _ ∧
      (((w.set_logic s _).sessions j)._logic = _ ∨ ∃ l, ((w.set_logic s _).sessions j)._logic = _)
    by_cases hj : j = s
    · rw [hj, sessions_set_logic_self]
      exact ⟨rfl, Or.inr ⟨_, rfl⟩⟩
    · rw [sessions_set_logic_ne hj]
      exact ⟨rfl, Or.inl rfl⟩

/-- A session that `w₁` has as `w` or as a game server's, and the response of session `i`. -/
theorem frameEffect_of_echo {z : zlib} {stale : recycled} {w w₁ w' : proxy_manager}
    {i : session_sptr} {l : default_session_logic} {ec : TransferError}
    (hkind : (w₁.sessions i)._logic.kind ≠ .client_session)
    (hown : (w₁.sessions i).written = (w.sessions i).written)
    (hverdict : verdict_of (w.sessions i)._logic (w₁.sessions i)._logic = some ec)
    (hwritten : ∀ j, j ≠ i → (w₁.sessions j).written = (w.sessions j).written)
    (hlogic : ∀ j, j ≠ i → Awaiting (w₁.sessions j)._logic → Awaiting (w.sessions j)._logic)
    (h : l.echo_authentication_res z stale w₁ i ec = .ok w') : FrameEffect i w w' := by
  have hnot : ¬ Awaiting (w₁.sessions i)._logic := by
    unfold verdict_of at hverdict
    split at hverdict
    · split at hverdict
      · exact not_awaiting_of_answered hverdict
      · cases hverdict
    · cases hverdict
  rcases echo_cases hkind h with rfl | ⟨region, hanswer, rfl⟩
  · refine ⟨⟨[], ?_, nofun⟩, fun h => absurd h hnot, hwritten, hlogic⟩
    rw [hown, List.append_nil]
  · have hsame : ((w₁.set_session i ((w₁.sessions i).async_write_some region)).sessions i)._logic =
        (w₁.sessions i)._logic := by
      rw [sessions_set_session_self]
      rfl
    refine ⟨⟨[region], ?_, ?_⟩, ?_, ?_, ?_⟩
    · rw [sessions_set_session_self, basic_async_session.written_async_write_some, hown]
    · intro r hr
      obtain rfl := List.mem_singleton.mp hr
      rw [hsame]
      exact ⟨ec, hverdict, hanswer⟩
    · rw [hsame]
      exact fun h => absurd h hnot
    · intro j hj
      rw [sessions_set_session_ne hj]
      exact hwritten j hj
    · intro j hj
      rw [sessions_set_session_ne hj]
      exact hlogic j hj

/-- The logic is stored and the response is written, from a state `w₁` in which the session
    is not yet told. -/
theorem frameEffect_of_reply {z : zlib} {stale : recycled} {w w₁ w' : proxy_manager}
    {i : session_sptr} {l : default_session_logic} {ec : TransferError}
    (hawaiting : Awaiting (w.sessions i)._logic)
    (hwritten : ∀ j, (w₁.sessions j).written = (w.sessions j).written)
    (hlogic : ∀ j, j ≠ i → Awaiting (w₁.sessions j)._logic → Awaiting (w.sessions j)._logic)
    (hsession : (∃ l₁, (w₁.sessions i)._logic = .default_session l₁) ∨
      ec = .EC_Success ∧ ∃ l₁, (w₁.sessions i)._logic = .server_session l₁)
    (hec : answered (.default_session l) = some ec)
    (h : l.echo_authentication_res z stale (default_session_logic.store_logic w₁ i l) i ec =
      .ok w') : FrameEffect i w w' := by
  obtain ⟨l₀, hl₀, hauth⟩ := hawaiting
  have hverdict : ∀ logic, verdict_of (w.sessions i)._logic logic = answered logic := by
    intro logic
    unfold verdict_of
    rw [hl₀]
    simp only [hauth, if_true]
  rcases hsession with ⟨l₁, hl₁⟩ | ⟨rfl, l₁, hl₁⟩
  · rw [store_logic_of_default l hl₁] at h
    have hown : ((w₁.set_logic i (.default_session l)).sessions i)._logic = .default_session l := by
      rw [sessions_set_logic_self, basic_async_session.logic_modify_session_logic]
    refine frameEffect_of_echo ?_ ?_ ?_ ?_ ?_ h
    · rw [hown]
      exact nofun
    · rw [sessions_set_logic_self]
      exact hwritten i
    · rw [hverdict, hown]
      exact hec
    · intro j hj
      rw [sessions_set_logic_ne hj]
      exact hwritten j
    · intro j hj
      rw [sessions_set_logic_ne hj]
      exact hlogic j hj
  · -- the session has got another logic meanwhile
    rw [store_logic_of_ne l (by rw [hl₁]; exact nofun)] at h
    refine frameEffect_of_echo ?_ (hwritten i) ?_ (fun j _ => hwritten j) hlogic h
    · rw [hl₁]
      exact nofun
    · rw [hverdict, hl₁]
      rfl

/-- **Authentication** is answered, one way or the other. -/
theorem frameEffect_of_verify_authentication {z : zlib} {stale : recycled} {w w' : proxy_manager}
    {i : session_sptr} {l₀ l : default_session_logic} {tmp_buffer : once_buffer} {cmd : UInt16}
    (hawaiting : Awaiting (w.sessions i)._logic)
    (h : l.verify_authentication z stale (w.set_logic i (.default_session l₀)) i tmp_buffer cmd =
      .ok w') : FrameEffect i w w' := by
  obtain ⟨aaa_request, -, hsteps⟩ := verify_authentication_steps h
  simp only [set_logic_set_logic] at hsteps
  generalize hw₁ : w.set_logic i (.default_session (l.set_server_info aaa_request)) = w₁ at hsteps
  have hown : (w₁.sessions i)._logic = .default_session (l.set_server_info aaa_request) := by
    rw [← hw₁, sessions_set_logic_self, basic_async_session.logic_modify_session_logic]
  have hwritten : ∀ j, (w₁.sessions j).written = (w.sessions j).written := by
    intro j
    rw [← hw₁]
    by_cases hj : j = i
    · rw [hj, sessions_set_logic_self]
      rfl
    · rw [sessions_set_logic_ne hj]
  have hlogic : ∀ j, j ≠ i → Awaiting (w₁.sessions j)._logic → Awaiting (w.sessions j)._logic := by
    intro j hj
    rw [← hw₁, sessions_set_logic_ne hj]
    exact id
  rcases hsteps with ⟨l₁, rfl, hecho⟩ | ⟨-, -, -, w₂, l₁, -, hmove, rfl, hecho⟩
  · exact frameEffect_of_reply hawaiting hwritten hlogic (Or.inl ⟨_, hown⟩) rfl hecho
  · have hchanges := move_server_changes hmove
    refine frameEffect_of_reply hawaiting ?_ ?_ ?_ rfl hecho
    · intro j
      exact (hchanges j).1.trans (hwritten j)
    · intro j hj hawait
      rcases (hchanges j).2 with hsame | ⟨ls, hserver⟩
      · rw [hsame] at hawait
        exact hlogic j hj hawait
      · obtain ⟨l₂, hl₂, -⟩ := hawait
        rw [hserver] at hl₂
        cases hl₂
    · rcases (hchanges i).2 with hsame | hserver
      · exact Or.inl ⟨_, hsame.trans hown⟩
      · exact Or.inr ⟨rfl, hserver⟩

theorem NoClients.set_logic {w : proxy_manager} (h : NoClients w) {i : session_sptr}
    {logic : session_logic} (hkind : logic.kind ≠ .client_session) :
    NoClients (w.set_logic i logic) := by
  refine ⟨h.client_sessions, ?_⟩
  intro j
  by_cases hj : j = i
  · rw [hj, sessions_set_logic_self]
    exact hkind
  · rw [sessions_set_logic_ne hj]
    exact h.kind j

/-- A logic that is a game server's has no verdict to come. -/
theorem frameEffect_set_server_logic {w : proxy_manager} {i : session_sptr}
    {l l' : server_session_logic} (hl : (w.sessions i)._logic = .server_session l) :
    FrameEffect i w (w.set_logic i (.server_session l')) := by
  apply frameEffect_set_logic
  · rw [hl]
    rfl
  · rintro ⟨l₁, hl₁, -⟩
    cases hl₁

/-- **One frame of session `i`.** -/
theorem frameEffect_of_on_frame {z : zlib} {stale : recycled} {w w' : proxy_manager}
    {i : session_sptr} {head : protocol_head} {body : List UInt8} (hno : NoClients w)
    (h : w.on_frame z stale i head body = .ok w') : FrameEffect i w w' := by
  cases hl : (w.sessions i)._logic with
  | default_session l =>
    rcases on_frame_of_default hl h with rfl | ⟨-, -, hauth, hverify⟩
    · apply frameEffect_set_logic
      · rw [hl]
        unfold verdict_of
        simp only
        split
        · next hauth =>
          unfold answered
          simp only [hauth]
        · rfl
      · rintro ⟨l₁, hl₁, hauth⟩
        cases hl₁
        exact ⟨l, hl, hauth⟩
    · exact frameEffect_of_verify_authentication ⟨l, hl, hauth⟩ hverify
  | client_session l =>
    have hkind := hno.kind i
    rw [hl] at hkind
    exact absurd rfl hkind
  | server_session l =>
    rw [on_frame_eq] at h
    obtain ⟨r, hr, h⟩ := bind_eq_ok.mp h
    unfold unwrap_received_data at hr
    rw [hl] at hr
    obtain ⟨r', -, hr⟩ := bind_eq_ok.mp hr
    cases hr
    split at h
    · cases h
      exact frameEffect_set_server_logic hl
    · obtain ⟨copied, hcopied, h⟩ := bind_eq_ok.mp h
      have hno' : NoClients (w.set_logic i (.server_session r'.state)) := hno.set_logic nofun
      have hsame := try_copy_to_storage_of_noClients hno' hcopied
      rw [hsame] at h
      cases h
      exact frameEffect_set_server_logic hl

/-! ### What else the proxy does -/

theorem noClients_initial (ciphers : session_sptr → rc4_info) : NoClients (initial ciphers) :=
  ⟨rfl, fun _ => nofun⟩

/-- No session ever becomes a client's. -/
theorem noClients_of_exec {z : zlib} {s s' : proxy_run} {e : proxy_event} (hno : NoClients s.proxy)
    (h : proxy_run.exec z s e = some s') : NoClients s'.proxy := by
  rcases proxy_run.exec_cases h with ⟨clock, new_one, left_over, ip, -, hproxy, -⟩ |
    ⟨-, i, stale, head, body, t, -, -, -, hpromotes⟩ | ⟨-, hkeeps⟩
  · rw [hproxy]
    refine ⟨hno.client_sessions, ?_⟩
    intro j
    unfold accept_a_session
    by_cases hj : j = s.accepted
    · rw [hj, sessions_set_session_self]
      exact nofun
    · rw [sessions_set_session_ne hj]
      exact hno.kind j
  · refine ⟨hpromotes.client_sessions.trans hno.client_sessions, ?_⟩
    intro j
    by_cases hj : j = t
    · rw [hj, hpromotes.is_server]
      exact nofun
    · rw [hpromotes.kind j hj]
      exact hno.kind j
  · refine ⟨hkeeps.client_sessions.trans hno.client_sessions, ?_⟩
    intro j
    rw [hkeeps.kind j]
    exact hno.kind j

theorem noClients_of_reachable {z : zlib} {s : proxy_run} (hr : (proxy_run.system z).Reachable s) :
    NoClients s.proxy := by
  induction hr with
  | init h =>
    obtain ⟨ciphers, rfl⟩ := h
    exact noClients_initial ciphers
  | step e _ hstep hno => exact noClients_of_exec hno hstep

/-- Session `i` is only sent keep-alives, and is not taken back to before its verdict. -/
structure OnlyTicks (i : session_sptr) (w w' : proxy_manager) : Prop where
  written : ∃ regions : List (List UInt8),
    (w'.sessions i).written = (w.sessions i).written ++ regions ∧
      ∀ region ∈ regions, region.length ≤ PROTO_HEAD_SIZE
  logic : Awaiting (w'.sessions i)._logic → Awaiting (w.sessions i)._logic

theorem OnlyTicks.of_same {i : session_sptr} {w w' : proxy_manager}
    (hwritten : (w'.sessions i).written = (w.sessions i).written)
    (hlogic : Awaiting (w'.sessions i)._logic → Awaiting (w.sessions i)._logic) :
    OnlyTicks i w w' := by
  refine ⟨⟨[], ?_, nofun⟩, hlogic⟩
  rw [hwritten, List.append_nil]

/-- **Whatever else the proxy does** sends session `i` nothing but keep-alives. -/
theorem onlyTicks_of_exec {z : zlib} {s s' : proxy_run} {e : proxy_event} {i : session_sptr}
    (hno : NoClients s.proxy) (hi : i < s.accepted) (he : ¬ OnSession i e)
    (h : proxy_run.exec z s e = some s') : OnlyTicks i s.proxy s'.proxy := by
  cases e with
  | accept clock new_one left_over ip =>
    simp only [proxy_run.exec] at h
    split at h
    · cases h
      have hsame : ((s.proxy.accept_a_session s.accepted clock new_one left_over ip).sessions i) =
          s.proxy.sessions i := by
        unfold accept_a_session
        rw [sessions_set_session_ne (Nat.ne_of_lt hi)]
      apply OnlyTicks.of_same
      · rw [hsame]
      · rw [hsame]
        exact id
    · cases h
  | frame j stale head body =>
    simp only [proxy_run.exec] at h
    split at h
    · obtain ⟨w, hw, rfl⟩ := proxy_run.eq_some_of_toOption h
      have heffect := frameEffect_of_on_frame hno hw
      have hij : i ≠ j := fun hij => he hij.symm
      exact OnlyTicks.of_same (heffect.written i hij) (heffect.logic i hij)
    · cases h
  | tick j stale =>
    obtain ⟨w, hw, rfl⟩ := proxy_run.eq_some_of_toOption h
    rcases strand_run.tick_alive_cases (hno.kind j) hw with rfl | ⟨region, hlen, rfl⟩
    · exact OnlyTicks.of_same rfl id
    · by_cases hij : i = j
      · subst hij
        refine ⟨⟨[region], ?_, ?_⟩, ?_⟩
        · show ((s.proxy.set_session i _).sessions i).written = _
          rw [sessions_set_session_self, basic_async_session.written_async_write_some]
        · intro r hr
          obtain rfl := List.mem_singleton.mp hr
          exact hlen
        · show Awaiting ((s.proxy.set_session i _).sessions i)._logic → _
          rw [sessions_set_session_self]
          exact id
      · apply OnlyTicks.of_same
        · show ((s.proxy.set_session j _).sessions i).written = _
          rw [sessions_set_session_ne hij]
        · show Awaiting ((s.proxy.set_session j _).sessions i)._logic → _
          rw [sessions_set_session_ne hij]
          exact id
  | socket j state =>
    cases h
    by_cases hij : i = j
    · subst hij
      apply OnlyTicks.of_same
      · show ((s.proxy.set_session i _).sessions i).written = _
        rw [sessions_set_session_self]
      · show Awaiting ((s.proxy.set_session i _).sessions i)._logic → _
        rw [sessions_set_session_self]
        exact id
    · apply OnlyTicks.of_same
      · show ((s.proxy.set_session j _).sessions i).written = _
        rw [sessions_set_session_ne hij]
      · show Awaiting ((s.proxy.set_session j _).sessions i)._logic → _
        rw [sessions_set_session_ne hij]
        exact id
  | clean_up =>
    cases h
    exact OnlyTicks.of_same rfl id

end proxy_manager

namespace active_server_session_logic

/-! ### What the game server makes of a frame -/

/-- Sending does not touch `_authentication`. -/
theorem authentication_of_call {stale : Nat → UInt8}
    {s s' : basic_async_session active_server_session_logic} {call : server_call}
    (h : call.run stale s = .ok s') : s'._logic._authentication = s._logic._authentication := by
  rcases numbers_of_call h with rfl | ⟨head, body, -, -, rfl⟩
  · rfl
  · rfl

/-- A keep-alive changes nothing. -/
theorem unwrap_received_data_empty (l : active_server_session_logic)
    {buffer ret_block : once_buffer} {head : protocol_head} (hoff : buffer.offset = 0)
    (hlen : head.len = 0) :
    l.unwrap_received_data buffer head ret_block = .ok ⟨false, l, buffer, ret_block⟩ := by
  have hload : buffer.load (buffer.buffer 0) head.len.toNat = .ok [] := by
    rw [hlen, buffer_zero_of_eq hoff (Nat.zero_le _), load_of_le _ (Nat.zero_le _)]
    rfl
  unfold unwrap_received_data
  rw [hload, ok_bind]
  split
  · rfl
  · rfl

/-- What `check_verify_res` makes of an error code. -/
def taken_for (ec : TransferError) : AuthenticationState :=
  if ec = .EC_Success then .VERIFY_FAILED else .VERIFY_SUCC

/-- **The answer** as `check_verify_res` reads it. -/
theorem check_verify_res_of_answer (l : active_server_session_logic) {data : once_buffer}
    {body : List UInt8} {ec : TransferError} (hoff : data.offset = 0) (hlen : data.length = 20)
    (hcontent : data.content = body) (hec : body.head? = some ec.val) :
    l.check_verify_res data = .ok { l with _authentication := taken_for ec } := by
  have hfirst : data._buffer 0 = ec.val := by
    rw [← hcontent, content, hoff, hlen] at hec
    exact Option.some.inj hec
  unfold check_verify_res authentication_aaa_response.unpack
  -- twenty bytes are counted, nine of them are taken for the key
  rw [hlen, buffer_zero_of_eq hoff (Nat.zero_le _), load_of_le _ (by decide), ok_bind]
  simp only
  rw [load_of_le _ (by decide), ok_bind, load_of_le _ (by decide), ok_bind, pure_eq_ok, ok_bind]
  show (if data._buffer 0 = _ then _ else _) = _
  rw [hfirst]
  cases ec with
  | EC_Success => rfl
  | EC_ServerNotFound => rfl

theorem unwrap_received_data_of_answer {l : active_server_session_logic}
    {buffer ret_block : once_buffer} {head : protocol_head} {body : List UInt8}
    {ec : TransferError} (hauth : l._authentication = .BEFORE_VERIFY) (hoff : buffer.offset = 0)
    (hblen : buffer.length = 20) (hcontent : buffer.content = body)
    (hlen : head.len.toNat = body.length) (hbody : body.length = 20)
    (hmask : get_mask head.bytes body = 0) (hec : body.head? = some ec.val) :
    l.unwrap_received_data buffer head ret_block =
      .ok ⟨false, { l with _authentication := taken_for ec }, buffer, ret_block⟩ := by
  have hload : buffer.load (buffer.buffer 0) head.len.toNat = .ok body := by
    rw [hlen, hbody, buffer_zero_of_eq hoff (Nat.zero_le _), load_of_le _ (by decide), ← hcontent,
      content, hoff, hblen]
  have hne : head.len ≠ 0 := by
    intro hzero
    rw [hzero, hbody] at hlen
    cases hlen
  unfold unwrap_received_data
  rw [hload, ok_bind, hmask]
  simp only [ne_eq, not_true_eq_false, if_false]
  rw [if_neg hne, if_pos hauth, check_verify_res_of_answer l hoff hblen hcontent hec]
  rfl

/-- Nothing is stored of a frame that is not accepted. -/
theorem handle_msg_of_not_accepted {stale : recycled} {l l' : active_server_session_logic}
    {head : protocol_head} {data_block buffer ret_block : once_buffer}
    (h : l.unwrap_received_data data_block head
      { TEMP_BUFFER (stale 0) with offset := l.prefix_size } =
        .ok ⟨false, l', buffer, ret_block⟩) :
    (interface.handle_msg stale (.ok l) head data_block).2.1 = .ok l' := by
  rw [handle_msg_eq]
  simp only [h, ok_bind, if_true]
  rfl

end active_server_session_logic

/-! ### Runs -/

/-- A game server, the proxy, and what is on its way between them. -/
structure verdict_run where
  server : basic_async_session active_server_session_logic
  /-- The number of the game server's frames that have arrived at the proxy. -/
  arrived_up : Nat
  proxy : proxy_run
  /-- The number of the proxy's frames that have arrived at the game server. -/
  arrived_down : Nat
  /-- What the proxy has decided on the session. -/
  verdict : Option TransferError

inductive verdict_event where
  /-- The game server sends. -/
  | call (call : active_server_session_logic.server_call) (stale : Nat → UInt8)
  /-- The proxy takes the next frame of the game server. -/
  | up (stale : recycled)
  /-- The game server takes the next frame of the proxy. -/
  | down (stale : recycled)
  /-- The game server's socket closes or fails. -/
  | socket (state : StateSocket)
  /-- Anything else happens to the proxy. -/
  | proxy (e : proxy_event)

namespace verdict_run

open proxy_manager

variable (z : zlib) (i : session_sptr)

def exec (s : verdict_run) : verdict_event → Option verdict_run
  | .call call stale =>
    (call.run stale s.server).toOption.map fun server => { s with server := server }
  | .up stale =>
    match s.server.written[s.arrived_up]? with
    | none => none
    | some region =>
      let f := unpack_frame (seq_run.frame_of region)
      (proxy_run.exec z s.proxy (.frame i stale f.1 f.2)).map fun proxy =>
        { s with
          arrived_up := s.arrived_up + 1
          proxy := proxy
          verdict := s.verdict.or (verdict_of (s.proxy.proxy.sessions i)._logic
            (proxy.proxy.sessions i)._logic) }
  | .down stale =>
    match (s.proxy.proxy.sessions i).written[s.arrived_down]? with
    | none => none
    | some region =>
      let f := unpack_frame (seq_run.frame_of region)
      if f.1.len.toNat = f.2.length then
        (active_server_session_logic.interface.handle_msg (fun n => stale (n + 1))
          (.ok s.server._logic) f.1
          (recv_session.block_of (TEMP_BUFFER (stale 0)) f.2)).2.1.toOption.map fun logic =>
            { s with
              server := s.server.modify_session_logic logic
              arrived_down := s.arrived_down + 1 }
      else none
  | .socket state => some { s with server := { s.server with _state := state } }
  | .proxy e =>
    -- the frames of session `i` come in through `up`
    if OnSession i e then none
    else (proxy_run.exec z s.proxy e).map fun proxy => { s with proxy := proxy }

/-- Nothing is on its way yet. -/
def start (server : basic_async_session active_server_session_logic) (proxy : proxy_run) :
    verdict_run where
  server := server
  arrived_up := 0
  proxy := proxy
  arrived_down := 0
  verdict := none

/-- A game server has connected, and the proxy, after any run, has accepted session `i`. -/
def Starts (s : verdict_run) : Prop :=
  ∃ server l r r' clock new_one left_over ip,
    server._logic = active_server_session_logic.reset l ∧ server.written = [] ∧
    (proxy_run.system z).Reachable r ∧ r.accepted = i ∧
    proxy_run.exec z r (.accept clock new_one left_over ip) = some r' ∧ s = start server r'

def system : System verdict_run verdict_event := System.ofExec (Starts z i) (exec z i)

/-- **Both ends agree** on the verdict. -/
structure Agree (s : verdict_run) : Prop where
  succ : s.server._logic._authentication = .VERIFY_SUCC →
    s.verdict = some .EC_Success ∧ Listed s.proxy.proxy._server_sessions i
  failed : s.server._logic._authentication = .VERIFY_FAILED →
    ∃ ec, s.verdict = some ec ∧ ec ≠ .EC_Success

/-- The game server takes no frame with a body. -/
def Unanswered (s : verdict_run) : verdict_event → Prop
  | .down _ => ∀ region ∈ (s.proxy.proxy.sessions i).written[s.arrived_down]?,
    region.length ≤ PROTO_HEAD_SIZE
  | _ => True

instance (s : verdict_run) (e : verdict_event) : Decidable (Unanswered i s e) := by
  cases e <;> unfold Unanswered <;> infer_instance

/-- What holds in every state of a run in which the game server takes no answer. -/
structure Inv (s : verdict_run) : Prop where
  before_verify : s.server._logic._authentication = .BEFORE_VERIFY
  accepted : i < s.proxy.accepted
  noClients : NoClients s.proxy.proxy
  /-- The proxy writes keep-alives and its verdict. -/
  written : ∀ region ∈ (s.proxy.proxy.sessions i).written, region.length ≤ PROTO_HEAD_SIZE ∨
    ∃ ec, s.verdict = some ec ∧ IsAnswer ec region
  /-- It decides once. -/
  decided : s.verdict ≠ none → ¬ Awaiting (s.proxy.proxy.sessions i)._logic

variable {z i}

theorem Inv.agree {s : verdict_run} (h : Inv i s) : Agree i s := by
  refine ⟨?_, ?_⟩
  · intro hauth
    rw [h.before_verify] at hauth
    cases hauth
  · intro hauth
    rw [h.before_verify] at hauth
    cases hauth

/-- A logic that does not wait for its verdict is given none. -/
theorem verdict_of_eq_none {before after : session_logic} (h : ¬ Awaiting before) :
    verdict_of before after = none := by
  unfold verdict_of
  split
  · next l =>
    split
    · next hauth => exact absurd ⟨l, rfl, hauth⟩ h
    · rfl
  · rfl

/-- The first verdict stands. -/
theorem Inv.verdict_or {s : verdict_run} (h : Inv i s) {after : session_logic} {ec : TransferError}
    (hec : verdict_of (s.proxy.proxy.sessions i)._logic after = some ec) : s.verdict = none := by
  by_contra hdecided
  rw [verdict_of_eq_none (h.decided hdecided)] at hec
  cases hec

/-- **A frame of the game server** reaches the proxy. -/
theorem inv_up {s s' : verdict_run} (h : Inv i s) {stale : recycled}
    (hexec : exec z i s (.up stale) = some s') : Inv i s' := by
  simp only [exec] at hexec
  split at hexec
  · cases hexec
  next region hregion =>
  obtain ⟨proxy, hproxy, rfl⟩ := Option.map_eq_some_iff.mp hexec
  have hno := noClients_of_exec h.noClients hproxy
  simp only [proxy_run.exec] at hproxy
  split at hproxy
  swap
  · cases hproxy
  obtain ⟨w, hw, rfl⟩ := proxy_run.eq_some_of_toOption hproxy
  have heffect := frameEffect_of_on_frame h.noClients hw
  obtain ⟨regions, hwritten, hanswers⟩ := heffect.own
  refine ⟨h.before_verify, h.accepted, hno, ?_, ?_⟩
  · intro region hregion
    simp only [hwritten] at hregion
    rcases List.mem_append.mp hregion with hold | hnew
    · -- what was written before is still what it was
      rcases h.written region hold with hlen | ⟨ec, hverdict, hanswer⟩
      · exact Or.inl hlen
      · refine Or.inr ⟨ec, ?_, hanswer⟩
        simp only [hverdict, Option.some_or]
    · obtain ⟨ec, hverdict, hanswer⟩ := hanswers region hnew
      refine Or.inr ⟨ec, ?_, hanswer⟩
      simp only [h.verdict_or hverdict, Option.none_or, hverdict]
  · intro hdecided hawaiting
    obtain ⟨hbefore, hnone⟩ := heffect.own_logic hawaiting
    refine h.decided ?_ hbefore
    simp only [hnone, Option.or_none] at hdecided
    exact hdecided

/-- **Anything else** the proxy does. -/
theorem inv_proxy {s s' : verdict_run} (h : Inv i s) {e : proxy_event}
    (hexec : exec z i s (.proxy e) = some s') : Inv i s' := by
  simp only [exec] at hexec
  split at hexec
  · cases hexec
  next he =>
  obtain ⟨proxy, hproxy, rfl⟩ := Option.map_eq_some_iff.mp hexec
  have hticks := onlyTicks_of_exec h.noClients h.accepted he hproxy
  obtain ⟨regions, hwritten, hlen⟩ := hticks.written
  refine ⟨h.before_verify, (seq_of_exec h.accepted he hproxy).1,
    noClients_of_exec h.noClients hproxy, ?_, ?_⟩
  · intro region hregion
    simp only [hwritten] at hregion
    rcases List.mem_append.mp hregion with hold | hnew
    · exact h.written region hold
    · exact Or.inl (hlen region hnew)
  · intro hdecided hawaiting
    exact h.decided hdecided (hticks.logic hawaiting)

/-- The game server gets a new logic with its frame. -/
theorem exec_down_cases {s s' : verdict_run} {stale : recycled}
    (hexec : exec z i s (.down stale) = some s') :
    ∃ region, (s.proxy.proxy.sessions i).written[s.arrived_down]? = some region ∧
      (unpack_frame (seq_run.frame_of region)).1.len.toNat =
        (unpack_frame (seq_run.frame_of region)).2.length ∧
      ∃ logic, (active_server_session_logic.interface.handle_msg (fun n => stale (n + 1))
          (.ok s.server._logic) (unpack_frame (seq_run.frame_of region)).1
          (recv_session.block_of (TEMP_BUFFER (stale 0))
            (unpack_frame (seq_run.frame_of region)).2)).2.1 = .ok logic ∧
        s' = { s with
          server := s.server.modify_session_logic logic
          arrived_down := s.arrived_down + 1 } := by
  simp only [exec] at hexec
  split at hexec
  · cases hexec
  next region hregion =>
  split at hexec
  · next hlen =>
    obtain ⟨logic, hlogic, rfl⟩ := proxy_run.eq_some_of_toOption hexec
    exact ⟨region, hregion, hlen, logic, hlogic, rfl⟩
  · cases hexec

/-- **A keep-alive** reaches the game server. -/
theorem inv_down {s s' : verdict_run} (h : Inv i s) {stale : recycled}
    (hun : Unanswered i s (.down stale)) (hexec : exec z i s (.down stale) = some s') :
    Inv i s' := by
  obtain ⟨region, hregion, hlen, logic, hlogic, rfl⟩ := exec_down_cases hexec
  have hshort : region.length ≤ PROTO_HEAD_SIZE := hun region hregion
  have hbody : (unpack_frame (seq_run.frame_of region)).2 = [] := List.drop_of_length_le hshort
  rw [hbody] at hlen
  have hzero : (unpack_frame (seq_run.frame_of region)).1.len = 0 :=
    UInt16.toNat_inj.mp hlen
  rw [active_server_session_logic.handle_msg_of_not_accepted
    (s.server._logic.unwrap_received_data_empty rfl hzero)] at hlogic
  cases hlogic
  exact ⟨h.before_verify, h.accepted, h.noClients, h.written, h.decided⟩

theorem inv_exec {s s' : verdict_run} (h : Inv i s) {e : verdict_event} (hun : Unanswered i s e)
    (hexec : exec z i s e = some s') : Inv i s' := by
  cases e with
  | call call stale =>
    obtain ⟨server, hserver, rfl⟩ := proxy_run.eq_some_of_toOption hexec
    refine ⟨?_, h.accepted, h.noClients, h.written, h.decided⟩
    exact (active_server_session_logic.authentication_of_call hserver).trans h.before_verify
  | up stale => exact inv_up h hexec
  | down stale => exact inv_down h hun hexec
  | socket state =>
    cases hexec
    exact ⟨h.before_verify, h.accepted, h.noClients, h.written, h.decided⟩
  | proxy e => exact inv_proxy h hexec

theorem inv_start {s : verdict_run} (h : Starts z i s) : Inv i s := by
  obtain ⟨server, l, r, r', clock, new_one, left_over, ip, hserver, -, hr, rfl, haccept, rfl⟩ := h
  have hno := noClients_of_exec (noClients_of_reachable hr) haccept
  simp only [proxy_run.exec] at haccept
  split at haccept
  swap
  · cases haccept
  cases haccept
  refine ⟨?_, Nat.lt_succ_self _, hno, ?_, fun h => absurd rfl h⟩
  · show server._logic._authentication = _
    rw [hserver]
    rfl
  · intro region hregion
    -- nothing is written on a session that has just been accepted
    simp only [start, accept_a_session, sessions_set_session_self] at hregion
    cases hregion

/-- **The answer** reaches the game server, which takes it for its opposite. -/
theorem not_agree_down {s s' : verdict_run} (h : Inv i s) {stale : recycled}
    (hun : ¬ Unanswered i s (.down stale)) (hexec : exec z i s (.down stale) = some s') :
    ¬ Agree i s' := by
  obtain ⟨region, hregion, hlen, logic, hlogic, rfl⟩ := exec_down_cases hexec
  have hlong : ¬ region.length ≤ PROTO_HEAD_SIZE := by
    intro hshort
    refine hun ?_
    intro r hr
    rw [hregion] at hr
    cases hr
    exact hshort
  rcases h.written region (List.mem_of_getElem? hregion) with hshort | ⟨ec, hverdict, hanswer⟩
  · exact absurd hshort hlong
  obtain ⟨head, body, rfl, hhead, hmask, hbody, hec⟩ := hanswer
  have hframe : unpack_frame (seq_run.frame_of (head.bytes ++ body)) = (head, body) := by
    rw [seq_run.frame_of_append]
    show (protocol_head.unpack_head head.bytes, body) = _
    rw [protocol_head.unpack_head_bytes]
  simp only [hframe] at hlogic
  have hcontent : (recv_session.block_of (TEMP_BUFFER (stale 0)) body).content = body := by
    show read (write (stale 0) 0 body) 0 body.length = body
    rw [read_write]
  rw [active_server_session_logic.handle_msg_of_not_accepted
    (active_server_session_logic.unwrap_received_data_of_answer h.before_verify rfl hbody hcontent
      hhead hbody hmask hec)] at hlogic
  cases hlogic
  intro hagree
  cases ec with
  | EC_Success =>
    obtain ⟨ec, hec, hne⟩ := hagree.failed rfl
    rw [hverdict] at hec
    exact hne (Option.some.inj hec).symm
  | EC_ServerNotFound =>
    have hec := (hagree.succ rfl).1
    rw [hverdict] at hec
    cases hec

/-- **The verdict.** Both ends agree as long as the game server takes no answer, and not
    after the step in which it does. -/
theorem agree_of_reachable {s : verdict_run}
    (hr : ((system z i).restrict (Unanswered i)).Reachable s) :
    Agree i s ∧ ∀ e s', (system z i).step s e s' → (Agree i s' ↔ Unanswered i s e) := by
  have hinv : Inv i s := by
    refine System.invariant ?_ ?_ s hr
    · intro s hs
      exact inv_start hs
    · intro s e s' hs hstep
      exact inv_exec hs hstep.1 hstep.2
  refine ⟨hinv.agree, ?_⟩
  intro e s' hstep
  constructor
  · intro hagree
    by_contra hun
    cases e with
    | down stale => exact not_agree_down hinv hun hstep hagree
    | call call stale => exact hun trivial
    | up stale => exact hun trivial
    | socket state => exact hun trivial
    | proxy e => exact hun trivial
  · intro hun
    exact (inv_exec hinv hun hstep).agree

/-- The proxy sends a keep-alive, the game server takes it, and the proxy says yes to its
    request. -/
def unanswered_yes : List verdict_event :=
  [.proxy (.tick 0 fun _ _ => 0), .call (.send_verify_authentication ⟨0, 0, [], 0⟩) fun _ => 0,
    .down fun _ _ => 0, .up fun _ _ => 0]

theorem starts_connected : Starts zlib.stored 0 (start seq_run.connected_server
    proxy_run.one_session) :=
  ⟨_, _, proxy_run.start fun _ => rc4_info.of_zero_rand, _, 0, rc4_info.of_zero_rand,
    ⟨0, 0, [], 0⟩, 0, rfl, rfl, .init ⟨_, rfl⟩, rfl, rfl, rfl⟩

/-- Until the game server takes the answer, both ends agree. -/
theorem agree_before_answer :
    ∃ s, unanswered_yes.foldlM (exec zlib.stored 0)
        (start seq_run.connected_server proxy_run.one_session) = some s ∧
      s.arrived_down = 1 ∧ s.verdict = some .EC_Success ∧ Agree 0 s := by
  have hrun : (unanswered_yes.foldlM (fun s e => if Unanswered 0 s e then exec zlib.stored 0 s e
      else none) (start seq_run.connected_server proxy_run.one_session)).map
        (fun s => (s.arrived_down, s.verdict)) = some (1, some .EC_Success) := by
    decide +kernel
  obtain ⟨s, hs, heq⟩ := Option.map_eq_some_iff.mp hrun
  obtain ⟨hdown, hverdict⟩ := Prod.mk.inj heq
  have hinit : ((system zlib.stored 0).restrict (Unanswered 0)).Reachable _ :=
    .init starts_connected
  obtain ⟨hreach, hsteps⟩ := hinit.of_guarded_foldlM _ hs
  exact ⟨s, hsteps, hdown, hverdict, (agree_of_reachable hreach).1⟩

/-- Once it has taken it, it holds a yes for a no. -/
theorem not_always_agree :
    ¬ ∀ (z : zlib) (i : session_sptr) (s : verdict_run), (system z i).Reachable s →
      Agree i s := by
  intro hall
  have hrun : ((unanswered_yes ++ [verdict_event.down fun _ _ => 0]).foldlM (exec zlib.stored 0)
      (start seq_run.connected_server proxy_run.one_session)).map
        (fun s => (s.server._logic._authentication, s.verdict)) =
          some (.VERIFY_FAILED, some .EC_Success) := by
    decide +kernel
  obtain ⟨s, hs, heq⟩ := Option.map_eq_some_iff.mp hrun
  obtain ⟨hauth, hverdict⟩ := Prod.mk.inj heq
  have hinit : ((system zlib.stored 0).restrict fun _ _ => True).Reachable _ :=
    .init starts_connected
  have hreach := hinit.of_foldlM _ (fun _ _ _ => trivial) hs
  obtain ⟨ec, hec, hne⟩ := (hall zlib.stored 0 s hreach.of_restrict).failed hauth
  rw [hverdict] at hec
  exact hne (Option.some.inj hec).symm

end verdict_run

end AsioNet
