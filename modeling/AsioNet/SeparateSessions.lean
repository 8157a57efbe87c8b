import AsioNet.Library.SideBySide
import AsioNet.SessionRegistry

/-! # Sessions that do not meet

    While the proxy handles one event after the other, what a session does depends on
    nothing but its own events: it is what the session would do if nobody else had ever
    connected. No frame of one session makes the proxy write to the socket of another
    one. The tables through which it would do so hold no clients, and a session finds
    nobody but itself in the others (`Own`).

    An event is one step here, and every session has the logic that was made for it.
    A handler that the acceptor overtakes, and whose logic it hands to a new session, is
    what `LogicInUse` is about; it does meet another session.

    `Alike` relates two proxies that have one session in common, each under its own
    number. A frame on this session ends in the same fault in both, or leaves them
    alike, and the other sessions as they were.
-/

namespace AsioNet

open TransitionSystem SideBySide reusabel_buffer

namespace proxy_manager

/-- There are no clients, and session `i` is found under its own uid: among the game
    servers, too, if it is one. -/
structure Own (w : proxy_manager) (i : session_sptr) : Prop where
  client_sessions : w._client_sessions = SafeHashMap.empty
  kind : (w.sessions i)._logic.kind ≠ .client_session
  un_managed_sessions : w._un_managed_sessions._container.lookup (w.sessions i)._uuid = some i
  server_sessions : (w.sessions i)._uuid ∈ w._server_sessions._container ↔
    (w.sessions i)._logic.kind = .server_session

/-- Session `j` of `w'` is session `i` of `w`, whose other sessions are those of `w₀`. -/
structure Alike (w₀ : proxy_manager) (i j : session_sptr) (w w' : proxy_manager) : Prop where
  session : w'.sessions j = w.sessions i
  others : ∀ k, k ≠ i → w.sessions k = w₀.sessions k
  own : w.Own i
  own' : w'.Own j

variable {w₀ w w' : proxy_manager} {i j : session_sptr}

/-! ### Sending -/

theorem Own.set_session (h : w.Own i) {s : basic_async_session session_logic}
    (huuid : s._uuid = (w.sessions i)._uuid)
    (hkind : s._logic.kind = (w.sessions i)._logic.kind) : (w.set_session i s).Own i := by
  refine ⟨h.client_sessions, ?_, ?_, ?_⟩
  · rw [sessions_set_session_self, hkind]
    exact h.kind
  · rw [sessions_set_session_self, huuid]
    exact h.un_managed_sessions
  · rw [sessions_set_session_self, huuid, hkind]
    exact h.server_sessions

theorem Alike.set_session (h : Alike w₀ i j w w') {s : basic_async_session session_logic}
    (huuid : s._uuid = (w.sessions i)._uuid)
    (hkind : s._logic.kind = (w.sessions i)._logic.kind) :
    Alike w₀ i j (w.set_session i s) (w'.set_session j s) := by
  refine ⟨?_, ?_, h.own.set_session huuid hkind, ?_⟩
  · rw [sessions_set_session_self, sessions_set_session_self]
  · intro k hk
    rw [sessions_set_session_ne hk]
    exact h.others k hk
  · rw [← h.session] at huuid hkind
    exact h.own'.set_session huuid hkind

theorem Alike.set_logic (h : Alike w₀ i j w w') {logic : session_logic}
    (hkind : logic.kind = (w.sessions i)._logic.kind) :
    Alike w₀ i j (w.set_logic i logic) (w'.set_logic j logic) := by
  unfold proxy_manager.set_logic
  rw [h.session]
  exact h.set_session rfl hkind

theorem Alike.async_send (h : Alike w₀ i j w w') (z : zlib) (stale : Nat → UInt8)
    (msg : once_buffer) :
    Related (Alike w₀ i j) (w.async_send z stale i msg) (w'.async_send z stale j msg) := by
  unfold proxy_manager.async_send
  rw [h.session]
  refine .bind_same _ ?_
  intro s hs
  rcases basic_async_session.async_send_eq_ok hs with rfl | ⟨r, region, hwrap, rfl⟩
  · exact .ok (h.set_session rfl rfl)
  · refine .ok (h.set_session rfl ?_)
    exact congrArg session_logic.kind (wrap_to_send_data_fst hwrap)

theorem Alike.tick_alive (h : Alike w₀ i j w w') (z : zlib) (stale : recycled) :
    Related (Alike w₀ i j) (w.tick_alive z stale i) (w'.tick_alive z stale j) := by
  unfold proxy_manager.tick_alive
  rw [h.session]
  split
  · exact .ok h
  · exact h.async_send z _ _

/-! ### Authentication -/

/-- The session is registered as a game server. -/
theorem Own.register (h : w.Own i) (hkind : (w.sessions i)._logic.kind = .default_session)
    (l : server_session_logic) :
    Own { w.set_logic i (.server_session l) with
      _server_sessions := (w._server_sessions.insert (w.sessions i)._uuid i).1 } i := by
  have hself : (w.set_logic i (.server_session l)).sessions i =
      (w.sessions i).modify_session_logic (.server_session l) := sessions_set_logic_self ..
  have habsent : (w.sessions i)._uuid ∉ w._server_sessions._container := by
    rw [h.server_sessions, hkind]
    exact nofun
  refine ⟨h.client_sessions, ?_, ?_, ?_⟩
  · show ((w.set_logic i (.server_session l)).sessions i)._logic.kind ≠ .client_session
    rw [hself]
    exact nofun
  · show w._un_managed_sessions._container.lookup
      ((w.set_logic i (.server_session l)).sessions i)._uuid = some i
    rw [hself]
    exact h.un_managed_sessions
  · show ((w.set_logic i (.server_session l)).sessions i)._uuid ∈
      (w._server_sessions.insert (w.sessions i)._uuid i).1._container ↔
        ((w.set_logic i (.server_session l)).sessions i)._logic.kind = .server_session
    rw [hself]
    refine iff_of_true ?_ rfl
    refine AList.lookup_isSome.mp ?_
    rw [basic_async_session.uuid_modify_session_logic, SafeHashMap.lookup_insert_self habsent]
    rfl

/-- A session that is not authenticated becomes a game server, and no other one does. -/
theorem Alike.move_server_available (h : Alike w₀ i j w w')
    (hkind : (w.sessions i)._logic.kind = .default_session) :
    Related (Alike w₀ i j) (w.move_server_available (w.sessions i)._uuid)
      (w'.move_server_available (w.sessions i)._uuid) := by
  obtain ⟨l, hl⟩ := session_logic.default_of_kind hkind
  have hfound' := h.own'.un_managed_sessions
  have hown' := h.own'.register (by rw [h.session, hkind]) l.trans_to_server
  rw [h.session] at hfound' hown'
  unfold proxy_manager.move_server_available
  rw [move_available_eq, move_available_eq, h.own.un_managed_sessions, hfound']
  simp only [h.session, hl]
  refine .ok ⟨?_, ?_, h.own.register hkind _, hown'⟩
  · show (w'.set_logic j (.server_session l.trans_to_server)).sessions j =
      (w.set_logic i (.server_session l.trans_to_server)).sessions i
    rw [sessions_set_logic_self, sessions_set_logic_self, h.session]
  · intro k hk
    show (w.set_logic i (.server_session l.trans_to_server)).sessions k = w₀.sessions k
    rw [sessions_set_logic_ne hk]
    exact h.others k hk

/-- The same answer, from proxies that are alike. -/
structure SameAnswer (w₀ : proxy_manager) (i j : session_sptr)
    (r r' : Bool × Option session_uid × proxy_manager) : Prop where
  verified : r'.1 = r.1
  target_uid : r'.2.1 = r.2.1
  alike : Alike w₀ i j r.2.2 r'.2.2

theorem Alike.ask_proxy (h : Alike w₀ i j w w')
    (hkind : (w.sessions i)._logic.kind = .default_session) (stale : recycled)
    (aaa_request : authentication_aaa_request) :
    Related (SameAnswer w₀ i j) (default_session_logic.ask_proxy stale w i aaa_request)
      (default_session_logic.ask_proxy stale w' j aaa_request) := by
  have habsent : (w.sessions i)._uuid ∉ w._server_sessions._container := by
    rw [h.own.server_sessions, hkind]
    exact nofun
  have habsent' : (w.sessions i)._uuid ∉ w'._server_sessions._container := by
    rw [← h.session, h.own'.server_sessions, h.session, hkind]
    exact nofun
  have hno : Related (SameAnswer w₀ i j)
      (.ok (false, none, w) : Checked (Bool × Option session_uid × proxy_manager))
      (.ok (false, none, w')) := .ok ⟨rfl, rfl, h⟩
  unfold default_session_logic.ask_proxy
  rw [h.session]
  by_cases hclient : aaa_request.link_type = SessionType.CLIENT_PROXY
  · rw [hclient, verify_authentication_client, verify_authentication_client]
    exact hno
  by_cases hgt : aaa_request.link_type > SessionType.MULTI_SESSION_BEGIN
  · rw [verify_authentication_server hgt habsent, verify_authentication_server hgt habsent']
    refine (h.move_server_available hkind).bind ?_
    intro w₁ w₁' h₁
    exact .ok ⟨rfl, rfl, h₁⟩
  · rw [verify_authentication_other hclient hgt, verify_authentication_other hclient hgt]
    exact hno

theorem Alike.store_logic (h : Alike w₀ i j w w') (l : default_session_logic) :
    Alike w₀ i j (default_session_logic.store_logic w i l)
      (default_session_logic.store_logic w' j l) := by
  unfold default_session_logic.store_logic
  rw [h.session]
  split
  · next l₀ hl₀ => exact h.set_logic (by rw [hl₀]; rfl)
  · exact h

theorem Alike.echo (h : Alike w₀ i j w w') (z : zlib) (stale : recycled)
    (l : default_session_logic) (ec : TransferError) :
    Related (Alike w₀ i j) (l.echo_authentication_res z stale w i ec)
      (l.echo_authentication_res z stale w' j ec) := by
  unfold default_session_logic.echo_authentication_res
  exact .bind_same _ fun b _ => h.async_send z _ b

theorem Alike.verify_authentication (h : Alike w₀ i j w w')
    (hkind : (w.sessions i)._logic.kind = .default_session) (z : zlib) (stale : recycled)
    (l : default_session_logic) (tmp_buffer : once_buffer) (cmd : UInt16) :
    Related (Alike w₀ i j) (l.verify_authentication z stale w i tmp_buffer cmd)
      (l.verify_authentication z stale w' j tmp_buffer cmd) := by
  unfold default_session_logic.verify_authentication
  refine .bind_same _ ?_
  intro aaa_request _
  have hasked : Alike w₀ i j (w.set_logic i (.default_session (l.set_server_info aaa_request)))
      (w'.set_logic j (.default_session (l.set_server_info aaa_request))) :=
    h.set_logic hkind.symm
  by_cases hcmd : cmd = protocol_cmd.Commands_AuthenticationAAA.val
  · simp only [if_neg (not_not_intro hcmd)]
    refine (hasked.ask_proxy ?_ stale aaa_request).bind ?_
    · rw [sessions_set_logic_self]
      rfl
    intro ⟨verified, target_uid, w₁⟩ ⟨verified', target_uid', w₁'⟩ hsame
    obtain rfl : verified' = verified := hsame.verified
    obtain rfl : target_uid' = target_uid := hsame.target_uid
    simp only
    split
    · exact (hsame.alike.store_logic _).echo z stale _ _
    · exact (hsame.alike.store_logic _).echo z stale _ _
  · simp only [if_pos hcmd]
    exact (hasked.store_logic _).echo z stale _ _

/-! ### One frame -/

/-- Unwrapping ends alike. -/
structure SameUnwrapped (w₀ : proxy_manager) (i j : session_sptr)
    (r r' : unwrapped proxy_manager) : Prop where
  accepted : r'.accepted = r.accepted
  ret_block : r'.ret_block = r.ret_block
  alike : Alike w₀ i j r.state r'.state

theorem Alike.unwrap_default (h : Alike w₀ i j w w') {l₀ : default_session_logic}
    (hl₀ : (w.sessions i)._logic = .default_session l₀) (z : zlib) (stale : recycled)
    (l : default_session_logic) (buffer : once_buffer) (head : protocol_head)
    (ret_block : once_buffer) :
    Related (SameUnwrapped w₀ i j) (l.unwrap_received_data z stale w i buffer head ret_block)
      (l.unwrap_received_data z stale w' j buffer head ret_block) := by
  have hcounted : Alike w₀ i j
      (w.set_logic i (.default_session { l with _seq := l._seq + 1 }))
      (w'.set_logic j (.default_session { l with _seq := l._seq + 1 })) :=
    h.set_logic (by rw [hl₀]; rfl)
  unfold default_session_logic.unwrap_received_data
  simp only
  split
  · exact .ok ⟨rfl, rfl, hcounted⟩
  refine .bind_same _ ?_
  intro body _
  split
  · exact .ok ⟨rfl, rfl, hcounted⟩
  split
  · refine (hcounted.verify_authentication ?_ z stale _ buffer _).bind ?_
    · rw [sessions_set_logic_self]
      rfl
    intro w₁ w₁' h₁
    exact .ok ⟨rfl, rfl, h₁⟩
  · exact .ok ⟨rfl, rfl, hcounted⟩

theorem Alike.unwrap_received_data (h : Alike w₀ i j w w') (z : zlib) (stale : recycled)
    (buffer : once_buffer) (head : protocol_head) (ret_block : once_buffer) :
    Related (SameUnwrapped w₀ i j) (w.unwrap_received_data z stale i buffer head ret_block)
      (w'.unwrap_received_data z stale j buffer head ret_block) := by
  unfold proxy_manager.unwrap_received_data
  rw [h.session]
  split
  · next l hl => exact h.unwrap_default hl z stale l buffer head ret_block
  · next l hl => exact absurd (by rw [hl]; rfl) h.own.kind
  · next l hl =>
    refine .bind_same _ ?_
    intro r _
    exact .ok ⟨rfl, rfl, h.set_logic (by rw [hl]; rfl)⟩

/-- There is nobody to send to. -/
theorem send_to_empty {w : proxy_manager} (hempty : w._client_sessions = SafeHashMap.empty)
    (z : zlib) (stale : Nat → UInt8) (client_uid : session_uid) (msg : once_buffer) :
    w.send_to_client z stale client_uid msg = .ok w := by
  unfold send_to_client send_to
  rw [hempty]
  rfl

theorem send_to_multi_empty {w : proxy_manager}
    (hempty : w._client_sessions = SafeHashMap.empty) (client_uid : session_uid)
    (head : tiny_buffer) (msg : once_buffer) :
    w.send_to_client_multi client_uid head msg = .ok w := by
  unfold send_to_client_multi send_to_multi
  rw [hempty]
  rfl

theorem Alike.relay_to_target (h : Alike w₀ i j w w') (stale : recycled)
    (l : server_session_logic) (data mutable_buffer : once_buffer) (n : Nat) :
    Related (Alike w₀ i j) (l.relay_to_target stale data mutable_buffer w n)
      (l.relay_to_target stale data mutable_buffer w' n) := by
  unfold server_session_logic.relay_to_target
  refine .bind_same _ ?_
  intro uid _
  refine .bind_same _ ?_
  intro head_buffer _
  rw [send_to_multi_empty h.own.client_sessions, send_to_multi_empty h.own'.client_sessions]
  exact .ok h

theorem Alike.try_copy_to_storage (h : Alike w₀ i j w w') (z : zlib) (stale : recycled)
    (data : once_buffer) (head : protocol_head) :
    Related (fun r r' => Alike w₀ i j r.2 r'.2) (w.try_copy_to_storage z stale i data head)
      (w'.try_copy_to_storage z stale j data head) := by
  unfold proxy_manager.try_copy_to_storage
  rw [h.session]
  split
  · exact .ok h
  · next l hl => exact absurd (by rw [hl]; rfl) h.own.kind
  · unfold server_session_logic.try_copy_to_storage
    split
    · refine .bind_same _ ?_
      intro count _
      refine .bind_same _ ?_
      intro rest _
      refine .bind_same _ ?_
      intro mutable_buffer _
      refine Related.bind (Related.foldlM ?_ _ h) fun _ _ h₁ => .ok h₁
      intro w₁ w₁' n h₁
      exact h₁.relay_to_target stale _ _ _ n
    · refine .bind_same _ ?_
      intro uid _
      simp only
      rw [send_to_empty h.own.client_sessions, send_to_empty h.own'.client_sessions]
      exact .ok h

/-- **One frame** on a session that two proxies have in common. -/
theorem Alike.on_frame (h : Alike w₀ i j w w') (z : zlib) (stale : recycled)
    (head : protocol_head) (body : List UInt8) :
    Related (Alike w₀ i j) (w.on_frame z stale i head body)
      (w'.on_frame z stale j head body) := by
  rw [on_frame_eq, on_frame_eq, h.session]
  refine (h.unwrap_received_data z _ _ head _).bind ?_
  intro r r' hsame
  rw [hsame.accepted, hsame.ret_block]
  split
  · exact .ok hsame.alike
  · exact (hsame.alike.try_copy_to_storage z _ _ head).bind fun _ _ h₁ => .ok h₁

/-- A frame changes the session it arrives on, and no other one. -/
theorem Own.on_frame_others (h : w.Own i) {z : zlib} {stale : recycled} {head : protocol_head}
    {body : List UInt8} (hframe : w.on_frame z stale i head body = .ok w') :
    ∀ k, k ≠ i → w'.sessions k = w.sessions k := by
  have hself : Alike w i i w w := ⟨rfl, fun _ _ => rfl, h, h⟩
  obtain ⟨_, -, halike⟩ := (hself.on_frame z stale head body).exists_ok hframe
  exact halike.others

theorem tick_alive_others {z : zlib} {stale : recycled}
    (htick : w.tick_alive z stale i = .ok w') : ∀ k, k ≠ i → w'.sessions k = w.sessions k := by
  intro k hk
  unfold proxy_manager.tick_alive at htick
  split at htick
  · cases htick
    rfl
  · rcases async_send_cases htick with rfl | ⟨region, rfl⟩
    · rfl
    · exact sessions_set_session_ne hk w _

end proxy_manager

/-! ### Runs -/

namespace proxy_run

open proxy_manager

variable {z : zlib} {s s' t : proxy_run} {i j : session_sptr} {e a : proxy_event}

/-- What an event is for session `i`, which is session `j` elsewhere. -/
def own (i j : session_sptr) : proxy_event → Option proxy_event
  | .frame k stale head body => if k = i then some (.frame j stale head body) else none
  | .tick k stale => if k = i then some (.tick j stale) else none
  | .socket k state => if k = i then some (.socket j state) else none
  | .accept _ _ _ _ | .clean_up => none

/-- An event that is dropped is on another session. -/
theorem ne_of_dropped {k : session_sptr} (h : (if k = i then some a else none) = none) :
    i ≠ k := by
  intro heq
  rw [if_pos heq.symm] at h
  cases h

theorem Registry.own (h : Registry s) (hi : i < s.accepted) : s.proxy.Own i := by
  refine ⟨h.client_sessions, h.kind i, (h.un_managed_sessions _ i).mpr ⟨hi, rfl⟩, ?_⟩
  constructor
  · intro hmem
    obtain ⟨k, hk⟩ := Option.isSome_iff_exists.mp (AList.lookup_isSome.mpr hmem)
    obtain ⟨hlt, huuid, hkind⟩ := (h.server_sessions _ k).mp hk
    -- nobody else has the uid
    have hfound := (h.un_managed_sessions _ k).mpr ⟨hlt, huuid⟩
    rw [(h.un_managed_sessions _ i).mpr ⟨hi, rfl⟩] at hfound
    obtain rfl := Option.some.inj hfound
    exact hkind
  · intro hkind
    have hfound := (h.server_sessions _ i).mpr ⟨hi, rfl, hkind⟩
    exact AList.lookup_isSome.mp (by rw [hfound]; rfl)

/-- Session `i` of one proxy is session `j` of the other one. -/
structure Twins (i j : session_sptr) (s t : proxy_run) : Prop where
  session : t.proxy.sessions j = s.proxy.sessions i
  registry : Registry s
  accepted : i < s.accepted
  registry' : Registry t
  accepted' : j < t.accepted

theorem Twins.alike (h : Twins i j s t) : Alike s.proxy i j s.proxy t.proxy :=
  ⟨h.session, fun _ _ => rfl, h.registry.own h.accepted, h.registry'.own h.accepted'⟩

/-- **Events of others** do not touch the session. -/
theorem Twins.other_step (h : Twins i j s t) (hfresh : s.FreshUid e)
    (hstep : exec z s e = some s') (hown : own i j e = none) : Twins i j s' t := by
  have hregistry := h.registry.step hfresh hstep
  have hsame : s'.proxy.sessions i = s.proxy.sessions i ∧ s.accepted ≤ s'.accepted := by
    cases e with
    | accept clock new_one left_over ip =>
      simp only [exec] at hstep
      obtain ⟨-, hs'⟩ := Option.ite_none_right_eq_some.mp hstep
      cases hs'
      exact ⟨sessions_accept s _ _ _ _ (Nat.ne_of_lt h.accepted), Nat.le_succ _⟩
    | frame k stale head body =>
      simp only [exec] at hstep
      obtain ⟨hk, hmap⟩ := Option.ite_none_right_eq_some.mp hstep
      obtain ⟨w, hw, rfl⟩ := eq_some_of_toOption hmap
      exact ⟨(h.registry.own hk.1).on_frame_others hw i (ne_of_dropped hown), Nat.le_refl _⟩
    | tick k stale =>
      simp only [exec] at hstep
      obtain ⟨w, hw, rfl⟩ := eq_some_of_toOption hstep
      exact ⟨tick_alive_others hw i (ne_of_dropped hown), Nat.le_refl _⟩
    | socket k state =>
      cases hstep
      exact ⟨sessions_set_session_ne (ne_of_dropped hown) _ _, Nat.le_refl _⟩
    | clean_up =>
      cases hstep
      exact ⟨rfl, Nat.le_refl _⟩
  exact ⟨h.session.trans hsame.1.symm, hregistry, Nat.lt_of_lt_of_le h.accepted hsame.2,
    h.registry', h.accepted'⟩

/-- **Its own events** have the same outcome elsewhere. -/
theorem Twins.own_step (h : Twins i j s t) (hfresh : s.FreshUid e)
    (hstep : exec z s e = some s') (hown : own i j e = some a) :
    ∃ t', exec z t a = some t' ∧ Twins i j s' t' := by
  have hregistry := h.registry.step hfresh hstep
  cases e with
  | accept clock new_one left_over ip => cases hown
  | frame k stale head body =>
    obtain ⟨rfl, ha⟩ := Option.ite_none_right_eq_some.mp hown
    cases ha
    simp only [exec] at hstep
    obtain ⟨⟨hk, hlen⟩, hmap⟩ := Option.ite_none_right_eq_some.mp hstep
    obtain ⟨w, hw, rfl⟩ := eq_some_of_toOption hmap
    obtain ⟨w', hw', halike⟩ := (h.alike.on_frame z stale head body).exists_ok hw
    have hexec : exec z t (.frame j stale head body) = some { t with proxy := w' } := by
      simp only [exec, hw']
      exact if_pos ⟨h.accepted', hlen⟩
    exact ⟨_, hexec, halike.session, hregistry, hk,
      h.registry'.step (e := .frame j stale head body) trivial hexec, h.accepted'⟩
  | tick k stale =>
    obtain ⟨rfl, ha⟩ := Option.ite_none_right_eq_some.mp hown
    cases ha
    simp only [exec] at hstep
    obtain ⟨w, hw, rfl⟩ := eq_some_of_toOption hstep
    obtain ⟨w', hw', halike⟩ := (h.alike.tick_alive z stale).exists_ok hw
    have hexec : exec z t (.tick j stale) = some { t with proxy := w' } := by
      simp only [exec, hw']
      rfl
    exact ⟨_, hexec, halike.session, hregistry, h.accepted,
      h.registry'.step (e := .tick j stale) trivial hexec, h.accepted'⟩
  | socket k state =>
    obtain ⟨rfl, ha⟩ := Option.ite_none_right_eq_some.mp hown
    cases ha
    cases hstep
    refine ⟨_, rfl, ?_, hregistry, h.accepted,
      h.registry'.step (z := z) (e := .socket j state) trivial rfl, h.accepted'⟩
    show (t.proxy.set_session j _).sessions j = (s.proxy.set_session k _).sessions k
    rw [sessions_set_session_self, sessions_set_session_self, h.session]
  | clean_up => cases hown

/-- **Separate sessions.** If events are handled one after the other, a session does from the
    moment it is accepted what it would do in a proxy that nobody else connects to: whatever
    the others send and whatever happens to them, its state and all it has written are those
    after its own events. -/
theorem alone_of_run (z : zlib) (ciphers : session_sptr → rc4_info) {s s₁ s' : proxy_run}
    {clock : Nat} {new_one : rc4_info} {left_over : server_info} {ip : UInt32}
    {es : List proxy_event} (hr : ((system z).restrict FreshUid).Reachable s)
    (haccept : ((system z).restrict FreshUid).step s (.accept clock new_one left_over ip) s₁)
    (hrun : ((system z).restrict FreshUid).Run s₁ es s') :
    ∃ t, (.accept clock new_one left_over ip :: es.filterMap (own s.accepted 0)).foldlM
        (exec z) (start ciphers) = some t ∧
      t.proxy.sessions 0 = s'.proxy.sessions s.accepted := by
  obtain ⟨hfresh, hexec⟩ := haccept
  have hstart : exec z (start ciphers) (.accept clock new_one left_over ip) = some
      { proxy := (start ciphers).proxy.accept_a_session 0 clock new_one left_over ip
        accepted := 1
        clock := clock } := by
    unfold exec
    exact if_pos (Nat.zero_le clock)
  have htwins : Twins s.accepted 0 s₁
      { proxy := (start ciphers).proxy.accept_a_session 0 clock new_one left_over ip
        accepted := 1
        clock := clock } := by
    have hregistry := (Registry.of_reachable hr).step hfresh hexec
    simp only [system, System.ofExec, exec] at hexec
    obtain ⟨-, hs₁⟩ := Option.ite_none_right_eq_some.mp hexec
    cases hs₁
    refine ⟨?_, hregistry, Nat.lt_succ_self _, ?_, Nat.zero_lt_one⟩
    · unfold accept_a_session
      rw [sessions_set_session_self, sessions_set_session_self]
    · have hfree : (start ciphers).FreshUid (.accept clock new_one left_over ip) :=
        List.not_mem_nil
      exact (registry_start ciphers).step hfree hstart
  have hother : ∀ u e u' t, Twins s.accepted 0 u t → ((system z).restrict FreshUid).step u e u' →
      own s.accepted 0 e = none → Twins s.accepted 0 u' t :=
    fun u e u' t h hstep hdropped => h.other_step hstep.1 hstep.2 hdropped
  have hself : ∀ u e u' t a, Twins s.accepted 0 u t →
      ((system z).restrict FreshUid).step u e u' → own s.accepted 0 e = some a →
      ∃ t', exec z t a = some t' ∧ Twins s.accepted 0 u' t' :=
    fun u e u' t a h hstep hkept => h.own_step hstep.1 hstep.2 hkept
  obtain ⟨t, hfold, h⟩ := hrun.view hother hself htwins
  refine ⟨t, ?_, h.session⟩
  rw [List.foldlM_cons, hstart]
  exact hfold

instance instDecidableFreshUid (s : proxy_run) (e : proxy_event) : Decidable (s.FreshUid e) :=
  match e with
  | .accept clock _ _ _ => inferInstanceAs (Decidable
      (basic_async_session.generate_uuid clock ∉ s.proxy._un_managed_sessions._container))
  | .frame _ _ _ _ => isTrue trivial
  | .tick _ _ => isTrue trivial
  | .socket _ _ => isTrue trivial
  | .clean_up => isTrue trivial

def accept_at_one : proxy_event := .accept 1 rc4_info.of_zero_rand ⟨0, 0, [], 0⟩ 0

/-- Two game servers register, and the first one goes away. -/
def two_servers : List proxy_event :=
  [request_on 0, .tick 1 (fun _ _ => 0), request_on 1, .socket 0 .CLOSE_DONE, .clean_up,
    .tick 1 (fun _ _ => 0)]

/-- The second one alone. -/
def one_server : List proxy_event :=
  [accept_at_one, .tick 0 (fun _ _ => 0), request_on 0, .tick 0 (fun _ _ => 0)]

theorem alone_second_server : ∃ s' t : proxy_run, (s'.proxy.sessions 1).written.length = 3 ∧
    one_server.foldlM (exec zlib.stored) (start fun _ => rc4_info.of_zero_rand) = some t ∧
      t.proxy.sessions 0 = s'.proxy.sessions 1 := by
  have hwritten : ((accept_at_one :: two_servers).foldlM
      (fun s e => if FreshUid s e then exec zlib.stored s e else none) one_session).map
        (fun s => (s.proxy.sessions 1).written.length) = some 3 := by
    decide +kernel
  obtain ⟨s', hs', hlength⟩ := Option.map_eq_some_iff.mp hwritten
  have hrun : ((system zlib.stored).restrict FreshUid).Run one_session
      (accept_at_one :: two_servers) s' := System.Run.of_guarded_foldlM _ hs'
  cases hrun with
  | cons haccept hrest =>
    obtain ⟨t, hfold, hsame⟩ := alone_of_run zlib.stored (fun _ => rc4_info.of_zero_rand)
      (reachable_one_session zlib.stored) haccept hrest
    exact ⟨s', t, hlength, hfold, hsame⟩

end proxy_run

end AsioNet
