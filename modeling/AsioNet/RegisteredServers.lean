import AsioNet.AuthenticationResponse
import AsioNet.SessionTables

/-! # Which game servers are registered

    Clients ask for a game server by its id, `verify_authentication` looks through
    `_server_sessions` for it. The table's key is the session's uid, and so is what
    the check for duplicates asks for: a second session that announces the same
    server is registered beside the first. `distinct_ids_iff` says that every such
    registration breaks the uniqueness of ids, and nothing else does.
-/

namespace AsioNet

open TransitionSystem proxy_manager

namespace proxy_manager

/-- The id clients know a session by. -/
def get_server_id (w : proxy_manager) (s : session_sptr) : Option server_id :=
  match (w.sessions s)._logic with
  | .server_session l => some l.get_server_id
  | _ => none

/-- No two registered game servers have the same id. -/
def DistinctIds (w : proxy_manager) : Prop :=
  ∀ uid₁ uid₂ s₁ s₂ id, w._server_sessions._container.lookup uid₁ = some s₁ →
    w._server_sessions._container.lookup uid₂ = some s₂ → s₁ ≠ s₂ →
    w.get_server_id s₁ = some id → w.get_server_id s₂ ≠ some id

/-- Server table and ids are the same. -/
structure SameServers (w w' : proxy_manager) : Prop where
  server_sessions : w'._server_sessions = w._server_sessions
  un_managed_sessions : w'._un_managed_sessions = w._un_managed_sessions
  get_server_id : ∀ j, w'.get_server_id j = w.get_server_id j

theorem SameServers.refl (w : proxy_manager) : SameServers w w := ⟨rfl, rfl, fun _ => rfl⟩

theorem SameServers.trans {w w' w'' : proxy_manager} (h : SameServers w w')
    (h' : SameServers w' w'') : SameServers w w'' :=
  ⟨h'.server_sessions.trans h.server_sessions,
    h'.un_managed_sessions.trans h.un_managed_sessions,
    fun j => (h'.get_server_id j).trans (h.get_server_id j)⟩

theorem get_server_id_of_logic {w w' : proxy_manager} {j : session_sptr}
    (h : (w'.sessions j)._logic = (w.sessions j)._logic) :
    w'.get_server_id j = w.get_server_id j := by
  unfold get_server_id
  rw [h]

theorem Sends.sameServers {w w' : proxy_manager} (h : Sends w w') : SameServers w w' :=
  ⟨h.server_sessions, h.un_managed_sessions, fun j => get_server_id_of_logic (h.logic j)⟩

/-- A logic for another of the same id. -/
theorem sameServers_set_logic {w : proxy_manager} {i : session_sptr} {logic : session_logic}
    (h : (w.set_logic i logic).get_server_id i = w.get_server_id i) :
    SameServers w (w.set_logic i logic) := by
  refine ⟨rfl, rfl, ?_⟩
  intro j
  by_cases hj : j = i
  · rw [hj, h]
  · exact get_server_id_of_logic (by rw [sessions_set_logic_ne hj])

theorem sameServers_set_default {w : proxy_manager} {i : session_sptr}
    {l₀ l : default_session_logic} (hl : (w.sessions i)._logic = .default_session l₀) :
    SameServers w (w.set_logic i (.default_session l)) := by
  apply sameServers_set_logic
  unfold get_server_id
  rw [sessions_set_logic_self, basic_async_session.logic_modify_session_logic, hl]

theorem sameServers_store_logic (w : proxy_manager) (i : session_sptr)
    (l : default_session_logic) : SameServers w (default_session_logic.store_logic w i l) := by
  unfold default_session_logic.store_logic
  split
  · next l' hl' => exact sameServers_set_default hl'
  · exact SameServers.refl w

theorem sameServers_of_unwrap {z : zlib} {stale : recycled} {w : proxy_manager} {i : session_sptr}
    {buffer ret_block : once_buffer} {head : protocol_head} {r : unwrapped proxy_manager}
    (hkind : (w.sessions i)._logic.kind ≠ .default_session)
    (h : w.unwrap_received_data z stale i buffer head ret_block = .ok r) :
    SameServers w r.state := by
  unfold unwrap_received_data at h
  split at h
  · next l hl =>
    rw [hl] at hkind
    exact absurd rfl hkind
  · next l hl =>
    obtain ⟨r', -, h⟩ := bind_eq_ok.mp h
    cases h
    apply sameServers_set_logic
    unfold proxy_manager.get_server_id
    rw [sessions_set_logic_self, basic_async_session.logic_modify_session_logic, hl]
  · next l hl =>
    obtain ⟨r', hr', h⟩ := bind_eq_ok.mp h
    cases h
    apply sameServers_set_logic
    unfold proxy_manager.get_server_id
    rw [sessions_set_logic_self, basic_async_session.logic_modify_session_logic, hl]
    rw [(server_session_logic.unwrap_received_data_leaves hr').1]
    rfl

/-! ### Registration -/

/-- The frame makes the proxy register session `t` as the game server `id`: the
    session asks as a server, its uid is not taken, and leads to `t`. -/
def Registers (w : proxy_manager) (stale : recycled) (i : session_sptr) (head : protocol_head)
    (body : List UInt8) (t : session_sptr) (id : server_id) : Prop :=
  ∃ l aaa_request l', w.Asks stale i head body l aaa_request ∧
    aaa_request.link_type > SessionType.MULTI_SESSION_BEGIN ∧
    (w.sessions i)._uuid ∉ w._server_sessions._container ∧
    w._un_managed_sessions._container.lookup (w.sessions i)._uuid = some t ∧
    ((w.set_logic i (.default_session (asking l aaa_request))).sessions t)._logic =
      .default_session l' ∧
    l'.trans_to_server.get_server_id = id

/-- Session `t` is entered with the id `id`, and all others stay. -/
structure Registered (uid : session_uid) (t : session_sptr) (id : server_id)
    (w w' : proxy_manager) : Prop where
  server_sessions : w'._server_sessions = (w._server_sessions.insert uid t).1
  un_managed_sessions : w'._un_managed_sessions = w._un_managed_sessions
  entered : w'.get_server_id t = some id
  get_server_id : ∀ j, j ≠ t → w'.get_server_id j = w.get_server_id j

theorem Registered.of_same {uid : session_uid} {t : session_sptr} {id : server_id}
    {w₀ w₁ w₂ w₃ : proxy_manager} (hbefore : SameServers w₀ w₁) (h : Registered uid t id w₁ w₂)
    (hafter : SameServers w₂ w₃) : Registered uid t id w₀ w₃ where
  server_sessions := by rw [hafter.server_sessions, h.server_sessions, hbefore.server_sessions]
  un_managed_sessions := by
    rw [hafter.un_managed_sessions, h.un_managed_sessions, hbefore.un_managed_sessions]
  entered := (hafter.get_server_id t).trans h.entered
  get_server_id j hj := by
    rw [hafter.get_server_id, h.get_server_id j hj, hbefore.get_server_id]

/-- A move enters the session found under the uid. -/
theorem registered_of_move {w : proxy_manager} {uid : session_uid} {t : session_sptr}
    {l : default_session_logic} (hfound : w._un_managed_sessions._container.lookup uid = some t)
    (hl : (w.sessions t)._logic = .default_session l) :
    ∃ w', w.move_server_available uid = .ok w' ∧
      Registered uid t l.trans_to_server.get_server_id w w' := by
  have hmove : w.move_server_available uid = .ok
      { w.set_logic t (.server_session l.trans_to_server) with
        _server_sessions := (w._server_sessions.insert uid t).1 } := by
    rw [move_server_available, move_available_eq, hfound]
    simp only [hl]
    rfl
  refine ⟨_, hmove, rfl, rfl, ?_, ?_⟩
  · show (match ((w.set_logic t _).sessions t)._logic with
      | .server_session l => some l.get_server_id
      | _ => none) = _
    rw [sessions_set_logic_self, basic_async_session.logic_modify_session_logic]
  · intro j hj
    apply get_server_id_of_logic
    show ((w.set_logic t _).sessions j)._logic = _
    rw [sessions_set_logic_ne hj]

theorem registered_of_registers {z : zlib} {w w' : proxy_manager} {stale : recycled}
    {i t : session_sptr} {head : protocol_head} {body : List UInt8} {id : server_id}
    (h : w.Registers stale i head body t id) (hframe : w.on_frame z stale i head body = .ok w') :
    Registered (w.sessions i)._uuid t id w w' := by
  obtain ⟨l, aaa_request, l', hasks, hgt, habsent, hfound, hl', rfl⟩ := h
  have hset : SameServers w (w.set_logic i (.default_session (asking l aaa_request))) :=
    sameServers_set_default hasks.logic
  obtain ⟨w₁, hmove, hregistered⟩ := registered_of_move
    (w := w.set_logic i (.default_session (asking l aaa_request))) hfound hl'
  have hanswer : default_session_logic.ask_proxy (fun n => stale (n + 2))
      (w.set_logic i (.default_session (asking l aaa_request))) i aaa_request =
        .ok (true, none, w₁) := by
    rw [default_session_logic.ask_proxy, sessions_set_logic_self,
      basic_async_session.uuid_modify_session_logic,
      verify_authentication_server (w := w.set_logic i (.default_session (asking l aaa_request)))
        hgt habsent, hmove]
    rfl
  rw [on_frame_of_yes z hasks hanswer] at hframe
  -- after the move the logic is stored and the reply is sent
  exact Registered.of_same hset hregistered
    ((sameServers_store_logic _ _ _).trans (sends_of_echo hframe).sameServers)

/-- The processing of an authentication frame that registers nobody. -/
theorem sameServers_of_verify {z : zlib} {stale : recycled} {w w' : proxy_manager}
    {i : session_sptr} {l l₀ : default_session_logic} {tmp_buffer : once_buffer} {cmd : UInt16}
    (hl : (w.sessions i)._logic = .default_session l₀)
    (hnot : ∀ aaa_request t l', authentication_aaa_request.unpack tmp_buffer
        (tmp_buffer.buffer 0) (UInt16.ofNat tmp_buffer.length) = .ok aaa_request →
      cmd = protocol_cmd.Commands_AuthenticationAAA.val →
      aaa_request.link_type > SessionType.MULTI_SESSION_BEGIN →
      (w.sessions i)._uuid ∉ w._server_sessions._container →
      w._un_managed_sessions._container.lookup (w.sessions i)._uuid = some t →
      ((w.set_logic i (.default_session (l.set_server_info aaa_request))).sessions t)._logic ≠
        .default_session l')
    (h : l.verify_authentication z stale w i tmp_buffer cmd = .ok w') : SameServers w w' := by
  obtain ⟨aaa_request, hrequest, hsteps⟩ := verify_authentication_steps h
  have hset : SameServers w
      (w.set_logic i (.default_session (l.set_server_info aaa_request))) :=
    sameServers_set_default hl
  have hreply : ∀ {w₁ w₂ : proxy_manager} {l₁ : default_session_logic} {ec : TransferError},
      l₁.echo_authentication_res z stale (default_session_logic.store_logic w₁ i l₁) i ec =
        .ok w₂ → SameServers w₁ w₂ := fun hecho =>
    (sameServers_store_logic _ _ _).trans (sends_of_echo hecho).sameServers
  rcases hsteps with ⟨l₁, -, hecho⟩ | ⟨hcmd, hgt, habsent, w₁, l₁, -, hmove, -, hecho⟩
  · exact hset.trans (hreply hecho)
  · rcases move_server_available_cases hmove with rfl | ⟨t, l', hfound, hl', -⟩
    · exact hset.trans (hreply hecho)
    · -- a move that does something registers the session found
      exact absurd hl' (hnot aaa_request t l' hrequest hcmd hgt habsent hfound)

/-- **One frame** registers a session, or leaves table and ids as they are. -/
theorem sameServers_of_not_registers {z : zlib} {w w' : proxy_manager} {stale : recycled}
    {i : session_sptr} {head : protocol_head} {body : List UInt8}
    (hnot : ∀ t id, ¬ w.Registers stale i head body t id)
    (h : w.on_frame z stale i head body = .ok w') : SameServers w w' := by
  by_cases hkind : (w.sessions i)._logic.kind = .default_session
  · obtain ⟨l, hl⟩ := session_logic.default_of_kind hkind
    have hset : SameServers w
        (w.set_logic i (.default_session { l with _seq := l._seq + 1 })) :=
      sameServers_set_default hl
    rcases on_frame_of_default hl h with rfl | ⟨hseq, hmask, hbefore, hverify⟩
    · exact hset
    · refine hset.trans (sameServers_of_verify (by
        rw [sessions_set_logic_self, basic_async_session.logic_modify_session_logic]) ?_ hverify)
      intro aaa_request t l' hrequest hcmd hgt habsent hfound hl'
      rw [received_block_buffer, received_block_length] at hrequest
      rw [sessions_set_logic_self, basic_async_session.uuid_modify_session_logic] at habsent hfound
      rw [set_logic_set_logic] at hl'
      exact hnot t _ ⟨l, aaa_request, l', ⟨hl, hseq, hmask, hbefore, hrequest, hcmd⟩, hgt,
        habsent, hfound, hl', rfl⟩
  · rw [on_frame_eq] at h
    obtain ⟨r, hr, h⟩ := bind_eq_ok.mp h
    have hunwrap := sameServers_of_unwrap hkind hr
    split at h
    · cases h
      exact hunwrap
    · obtain ⟨copied, hcopied, h⟩ := bind_eq_ok.mp h
      cases h
      exact hunwrap.trans (sends_of_try_copy_to_storage hcopied).sameServers

/-! ### Distinct ids -/

/-- Only the ids of registered sessions matter. -/
theorem DistinctIds.of_listed {w w' : proxy_manager} (h : w.DistinctIds)
    (htable : w'._server_sessions = w._server_sessions)
    (hids : ∀ uid s, w._server_sessions._container.lookup uid = some s →
      w'.get_server_id s = w.get_server_id s) : w'.DistinctIds := by
  intro uid₁ uid₂ s₁ s₂ id h₁ h₂ hne hid
  rw [htable] at h₁ h₂
  rw [hids uid₁ s₁ h₁] at hid
  rw [hids uid₂ s₂ h₂]
  exact h uid₁ uid₂ s₁ s₂ id h₁ h₂ hne hid

theorem DistinctIds.of_same {w w' : proxy_manager} (h : w.DistinctIds) (hsame : SameServers w w') :
    w'.DistinctIds :=
  h.of_listed hsame.server_sessions fun _ s _ => hsame.get_server_id s

/-- No other registered session has the id. -/
def IdFree (w : proxy_manager) (t : session_sptr) (id : server_id) : Prop :=
  ∀ uid s, w._server_sessions._container.lookup uid = some s → s ≠ t → w.get_server_id s ≠ some id

theorem DistinctIds.of_registered {w w' : proxy_manager} {uid : session_uid} {t : session_sptr}
    {id : server_id} (h : w.DistinctIds) (habsent : uid ∉ w._server_sessions._container)
    (hreg : Registered uid t id w w') (hfree : w.IdFree t id) : w'.DistinctIds := by
  -- an entry is the new one or an old one
  have hentry : ∀ {uid' s}, w'._server_sessions._container.lookup uid' = some s → s ≠ t →
      w._server_sessions._container.lookup uid' = some s := by
    intro uid' s hs hne
    rw [hreg.server_sessions] at hs
    by_cases huid : uid' = uid
    · rw [huid, SafeHashMap.lookup_insert_self habsent] at hs
      exact absurd (Option.some.inj hs).symm hne
    · rwa [SafeHashMap.lookup_insert_ne huid] at hs
  intro uid₁ uid₂ s₁ s₂ id' h₁ h₂ hne hid
  by_cases ht₁ : s₁ = t
  · have ht₂ : s₂ ≠ t := fun ht₂ => hne (ht₁.trans ht₂.symm)
    rw [ht₁, hreg.entered] at hid
    rw [hreg.get_server_id _ ht₂, ← hid]
    exact hfree uid₂ s₂ (hentry h₂ ht₂) ht₂
  · rw [hreg.get_server_id _ ht₁] at hid
    by_cases ht₂ : s₂ = t
    · rw [ht₂, hreg.entered]
      intro hsame
      exact hfree uid₁ s₁ (hentry h₁ ht₁) ht₁ (hid.trans hsame.symm)
    · rw [hreg.get_server_id _ ht₂]
      exact h uid₁ uid₂ s₁ s₂ id' (hentry h₁ ht₁) (hentry h₂ ht₂) hne hid

/-- A registration under an id that is taken. -/
theorem not_distinct_of_registered {w w' : proxy_manager} {uid : session_uid} {t : session_sptr}
    {id : server_id} (habsent : uid ∉ w._server_sessions._container)
    (hreg : Registered uid t id w w') (hfree : ¬ w.IdFree t id) : ¬ w'.DistinctIds := by
  intro hdistinct
  apply hfree
  intro uid' s hs hne hid
  have ht : w'._server_sessions._container.lookup uid = some t := by
    rw [hreg.server_sessions]
    exact SafeHashMap.lookup_insert_self habsent _
  have hs' : w'._server_sessions._container.lookup uid' = some s := by
    rw [hreg.server_sessions]
    exact SafeHashMap.lookup_insert_of_some hs
  exact hdistinct uid' uid s t id hs' ht hne ((hreg.get_server_id s hne).trans hid) hreg.entered

end proxy_manager

namespace proxy_run

/-- A session that is registered gets an id that no registered session has. -/
def FreshId (s : proxy_run) : proxy_event → Prop
  | .frame i stale head body =>
    ∀ t id, s.proxy.Registers stale i head body t id → s.proxy.IdFree t id
  | _ => True

/-- Registered sessions have been accepted, and no two have the same id. -/
structure ServersDistinct (s : proxy_run) : Prop where
  accepted : ∀ uid j, s.proxy._server_sessions._container.lookup uid = some j → j < s.accepted
  waiting : ∀ uid j, s.proxy._un_managed_sessions._container.lookup uid = some j → j < s.accepted
  distinct : s.proxy.DistinctIds

theorem ServersDistinct.of_same {s s' : proxy_run} (h : s.ServersDistinct)
    (haccepted : s'.accepted = s.accepted) (hsame : SameServers s.proxy s'.proxy) :
    s'.ServersDistinct where
  accepted := by
    rw [hsame.server_sessions, haccepted]
    exact h.accepted
  waiting := by
    rw [hsame.un_managed_sessions, haccepted]
    exact h.waiting
  distinct := h.distinct.of_same hsame

/-- A new session is in no one's way. -/
theorem serversDistinct_accept {s : proxy_run} (h : s.ServersDistinct) (clock : Nat)
    (new_one : rc4_info) (left_over : server_info) (ip : UInt32) :
    ServersDistinct {
      proxy := s.proxy.accept_a_session s.accepted clock new_one left_over ip
      accepted := s.accepted + 1
      clock := clock } where
  accepted := fun uid j hj => Nat.lt_succ_of_lt (h.accepted uid j hj)
  waiting := by
    intro uid j hj
    simp only [accept_a_session, un_managed_sessions_set_session] at hj
    by_cases hmem : basic_async_session.generate_uuid clock ∈
        s.proxy._un_managed_sessions._container
    · rw [SafeHashMap.insert_of_mem hmem] at hj
      exact Nat.lt_succ_of_lt (h.waiting uid j hj)
    · by_cases huid : uid = basic_async_session.generate_uuid clock
      · rw [huid, SafeHashMap.lookup_insert_self hmem] at hj
        exact Nat.lt_succ_of_le (Nat.le_of_eq (Option.some.inj hj).symm)
      · rw [SafeHashMap.lookup_insert_ne huid] at hj
        exact Nat.lt_succ_of_lt (h.waiting uid j hj)
  distinct := by
    refine h.distinct.of_listed rfl ?_
    intro uid j hj
    have hne : j ≠ s.accepted := Nat.ne_of_lt (h.accepted uid j hj)
    apply get_server_id_of_logic
    rw [accept_a_session, sessions_set_session_ne hne]

theorem serversDistinct_frame {z : zlib} {s : proxy_run} {w : proxy_manager} {i : session_sptr}
    {stale : recycled} {head : protocol_head} {body : List UInt8} (h : s.ServersDistinct)
    (hguard : s.FreshId (.frame i stale head body))
    (hframe : s.proxy.on_frame z stale i head body = .ok w) :
    ServersDistinct { s with proxy := w } := by
  by_cases hregisters : ∃ t id, s.proxy.Registers stale i head body t id
  · obtain ⟨t, id, hregisters⟩ := hregisters
    have hreg := registered_of_registers hregisters hframe
    have hfree := hguard t id hregisters
    obtain ⟨-, -, -, -, -, habsent, hfound, -, -⟩ := hregisters
    refine ⟨?_, ?_, h.distinct.of_registered habsent hreg hfree⟩
    · intro uid j hj
      rw [hreg.server_sessions] at hj
      by_cases huid : uid = (s.proxy.sessions i)._uuid
      · rw [huid, SafeHashMap.lookup_insert_self habsent] at hj
        obtain rfl := Option.some.inj hj
        exact h.waiting _ _ hfound
      · rw [SafeHashMap.lookup_insert_ne huid] at hj
        exact h.accepted uid j hj
    · rw [hreg.un_managed_sessions]
      exact h.waiting
  · have hsame := sameServers_of_not_registers (fun t id hr => hregisters ⟨t, id, hr⟩) hframe
    exact h.of_same rfl hsame

theorem serversDistinct_step {z : zlib} {s s' : proxy_run} {e : proxy_event}
    (h : s.ServersDistinct) (hguard : s.FreshId e) (hstep : exec z s e = some s') :
    s'.ServersDistinct := by
  cases e with
  | accept clock new_one left_over ip =>
    simp only [exec] at hstep
    split at hstep <;> cases hstep
    exact serversDistinct_accept h clock new_one left_over ip
  | frame i stale head body =>
    simp only [exec] at hstep
    split at hstep
    · obtain ⟨w, hw, rfl⟩ := eq_some_of_toOption hstep
      exact serversDistinct_frame h hguard hw
    · cases hstep
  | tick i stale =>
    obtain ⟨w, hw, rfl⟩ := eq_some_of_toOption hstep
    exact h.of_same rfl (sends_of_tick_alive hw).sameServers
  | socket i state =>
    cases hstep
    refine h.of_same rfl ⟨rfl, rfl, ?_⟩
    intro j
    apply get_server_id_of_logic
    by_cases hj : j = i
    · rw [hj, sessions_set_session_self]
    · rw [sessions_set_session_ne hj]
  | clean_up =>
    cases hstep
    exact h

theorem serversDistinct_of_reachable (z : zlib) :
    ∀ s, ((system z).restrict FreshId).Reachable s → s.ServersDistinct := by
  refine System.invariant ?_ ?_
  · rintro s ⟨ciphers, rfl⟩
    exact ⟨nofun, nofun, nofun⟩
  · rintro s e s' h ⟨hguard, hstep⟩
    exact serversDistinct_step h hguard hstep

/-- **One session a server, exactly.** While no session is registered under an id
    that is taken, no two registered sessions have the same id; the first
    registration under one that is taken makes two that have. -/
theorem distinct_ids_iff (z : zlib) :
    (∀ s, ((system z).restrict FreshId).Reachable s → s.proxy.DistinctIds) ∧
    ∀ s e s', ((system z).restrict FreshId).Reachable s → (system z).step s e s' →
      (s'.proxy.DistinctIds ↔ s.FreshId e) := by
  refine ⟨fun s hs => (serversDistinct_of_reachable z s hs).distinct, ?_⟩
  intro s e s' hs hstep
  constructor
  · intro hdistinct
    by_contra hguard
    cases e with
    | frame i stale head body =>
      simp only [FreshId, not_forall] at hguard
      obtain ⟨t, id, hregisters, hfree⟩ := hguard
      have habsent : (s.proxy.sessions i)._uuid ∉ s.proxy._server_sessions._container := by
        obtain ⟨-, -, -, -, -, habsent, -⟩ := hregisters
        exact habsent
      have hrun : exec z s (.frame i stale head body) = some s' := hstep
      simp only [exec] at hrun
      split at hrun
      · obtain ⟨w, hw, rfl⟩ := eq_some_of_toOption hrun
        exact not_distinct_of_registered habsent (registered_of_registers hregisters hw) hfree
          hdistinct
      · cases hrun
    | _ => exact hguard trivial
  · intro hguard
    exact (serversDistinct_step (serversDistinct_of_reachable z s hs) hguard hstep).distinct

/-- A proxy under the events. -/
def run (es : List proxy_event) : Option proxy_run :=
  es.foldlM (exec zlib.stored) (start fun _ => rc4_info.of_zero_rand)

/-- The request of a game server of area `0` with another server id. -/
def other_request_body : List UInt8 := [0, 0, 0, 1, SessionType.GAMESVR_PROXY, 0, 0, 0]

def other_request_on (i : session_sptr) : proxy_event :=
  .frame i (fun _ _ => 0)
    (proto_mask.masked_head (protocol_head.get_a_head FRAME_KEY 8 0
      protocol_cmd.Commands_AuthenticationAAA.val false 1) other_request_body) other_request_body

/-- Two sessions of different uids ask to be registered as different servers. -/
def different_servers : List proxy_event :=
  [accept_at_zero, .accept 1 rc4_info.of_zero_rand ⟨0, 0, [], 0⟩ 0, request_on 0,
    other_request_on 1]

/-- The first of them finds no server registered, the second one another id. -/
theorem freshId_different_servers :
    ∃ s, ((system zlib.stored).restrict FreshId).Reachable s ∧
      s.proxy._server_sessions._container.keys = [1, 0] ∧
      s.proxy.get_server_id 0 = some (cal_server_uid 0 0 []) ∧
      s.proxy.get_server_id 1 = some (cal_server_uid 0 1 []) := by
  have hkeys : ((run (different_servers.take 2)).bind fun s₂ =>
      (exec zlib.stored s₂ (request_on 0)).bind fun s₃ =>
        (exec zlib.stored s₃ (other_request_on 1)).map fun s₄ =>
          (s₂.proxy._server_sessions._container.keys, s₃.proxy._server_sessions._container.keys,
            s₄.proxy._server_sessions._container.keys)) = some ([], [0], [1, 0]) := by
    decide +kernel
  have hids : ((run (different_servers.take 2)).bind fun s₂ =>
      (exec zlib.stored s₂ (request_on 0)).bind fun s₃ =>
        (exec zlib.stored s₃ (other_request_on 1)).map fun s₄ =>
          (s₃.proxy.get_server_id 0, s₄.proxy.get_server_id 0, s₄.proxy.get_server_id 1)) =
      some (some (cal_server_uid 0 0 []), some (cal_server_uid 0 0 []),
        some (cal_server_uid 0 1 [])) := by
    decide +kernel
  have hfound : ((run (different_servers.take 2)).bind fun s₂ =>
      (exec zlib.stored s₂ (request_on 0)).map fun s₃ =>
        (s₃.proxy._server_sessions._container.lookup 0,
          s₃.proxy._un_managed_sessions._container.lookup (s₃.proxy.sessions 1)._uuid)) =
      some (some 0, some 1) := by
    decide +kernel
  obtain ⟨s₂, hs₂, hkeys⟩ := Option.bind_eq_some_iff.mp hkeys
  obtain ⟨s₃, hs₃, hkeys⟩ := Option.bind_eq_some_iff.mp hkeys
  obtain ⟨s₄, hs₄, hkeys⟩ := Option.map_eq_some_iff.mp hkeys
  simp only [hs₂, hs₃, hs₄, Option.bind_some, Option.map_some, Option.some.injEq,
    Prod.mk.injEq] at hkeys hids hfound
  obtain ⟨hnone, hone, htwo⟩ := hkeys
  obtain ⟨hid₀, hid₀', hid₁⟩ := hids
  obtain ⟨hzero, hfound⟩ := hfound
  have hkey {s : proxy_run} {uid : session_uid} {j : session_sptr}
      (h : s.proxy._server_sessions._container.lookup uid = some j) :
      uid ∈ s.proxy._server_sessions._container.keys :=
    AList.lookup_isSome.mp (Option.isSome_of_eq_some h)
  have hreach₂ : ((system zlib.stored).restrict FreshId).Reachable s₂ := by
    cases hs₂
    exact .step (.accept 1 rc4_info.of_zero_rand ⟨0, 0, [], 0⟩ 0)
      (.step accept_at_zero (.init ⟨_, rfl⟩) ⟨trivial, rfl⟩) ⟨trivial, rfl⟩
  have hreach₃ : ((system zlib.stored).restrict FreshId).Reachable s₃ := by
    refine .step (request_on 0) hreach₂ ⟨?_, hs₃⟩
    intro t id _ uid j hj
    have huid := hkey hj
    rw [hnone] at huid
    exact absurd huid List.not_mem_nil
  refine ⟨s₄, .step (other_request_on 1) hreach₃ ⟨?_, hs₄⟩, htwo, hid₀', hid₁⟩
  intro t id hregisters uid j hj hne
  -- the session that is registered is session `1`, under its own id
  have hid : some id = some (cal_server_uid 0 1 []) := by
    have hexec : exec zlib.stored s₃ (other_request_on 1) = some s₄ := hs₄
    simp only [exec, other_request_on] at hexec
    split at hexec
    · obtain ⟨w, hw, rfl⟩ := eq_some_of_toOption hexec
      have hreg := registered_of_registers hregisters hw
      obtain ⟨_, _, _, _, _, _, hlookup, _⟩ := hregisters
      rw [hfound, Option.some.injEq] at hlookup
      rw [← hreg.entered, ← hlookup]
      exact hid₁
    · cases hexec
  have huid := hkey hj
  rw [hone, List.mem_singleton] at huid
  rw [huid, hzero, Option.some.injEq] at hj
  rw [← hj, hid, hid₀]
  decide +kernel

/-- They are registered under different ids. -/
theorem distinct_different_servers :
    ∃ s : proxy_run, s.proxy._server_sessions._container.keys = [1, 0] ∧
      s.proxy.get_server_id 0 = some (cal_server_uid 0 0 []) ∧
      s.proxy.get_server_id 1 = some (cal_server_uid 0 1 []) ∧ s.proxy.DistinctIds := by
  obtain ⟨s, hs, hkeys, hid₀, hid₁⟩ := freshId_different_servers
  exact ⟨s, hkeys, hid₀, hid₁, (distinct_ids_iff zlib.stored).1 s hs⟩

/-- Two sessions of different uids ask to be registered as the same server. -/
def same_server_twice : List proxy_event :=
  [accept_at_zero, .accept 1 rc4_info.of_zero_rand ⟨0, 0, [], 0⟩ 0, request_on 0, request_on 1]

/-- Both are. -/
theorem not_always_distinct :
    ¬ ∀ (z : zlib) (s : proxy_run), (system z).Reachable s → s.proxy.DistinctIds := by
  intro hall
  have hrun : (run same_server_twice).map (fun s =>
      (s.proxy._server_sessions._container.lookup 0, s.proxy._server_sessions._container.lookup 1,
        s.proxy.get_server_id 0, s.proxy.get_server_id 1)) =
          some (some 0, some 1, some (cal_server_uid 0 0 []), some (cal_server_uid 0 0 [])) := by
    decide +kernel
  obtain ⟨s, hs, hs'⟩ := Option.map_eq_some_iff.mp hrun
  simp only [Prod.mk.injEq] at hs'
  obtain ⟨h₀, h₁, hid₀, hid₁⟩ := hs'
  have hreach : ((system zlib.stored).restrict fun _ _ => True).Reachable s :=
    .of_foldlM (.init ⟨_, rfl⟩) _ (fun _ _ _ => trivial) hs
  exact hall zlib.stored s hreach.of_restrict 0 1 0 1 _ h₀ h₁ (by decide) hid₀ hid₁

end proxy_run

end AsioNet
