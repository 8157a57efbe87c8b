import AsioNet.ProxyRuns

/-! # Authentication and the session tables

    `verify_authentication` is meant to be all or nothing: a yes moves the
    session from `_un_managed_sessions` to the table of its type and converts its
    logic, a no changes nothing. `AllOrNothing` states this of one call. Since
    the tables' maps never remove anything and never run a handler, it is true of
    the calls that are rightly answered no (`Answerable`), and of no others.
-/

namespace AsioNet

open TransitionSystem proxy_manager

namespace proxy_manager

/-! ### What one call is meant to do -/

/-- A table has an entry for session `s`. -/
def Listed (table : SafeHashMap session_uid session_sptr) (s : session_sptr) : Prop :=
  ∃ uid, table._container.lookup uid = some s

/-- `t` is the uid of a registered game server with the id `id`. -/
def IsServer (w : proxy_manager) (id : server_id) (t : session_uid) : Prop :=
  ∃ uid s l, w._server_sessions._container.lookup uid = some s ∧
    (w.sessions s)._logic = .server_session l ∧ l.get_server_id = id ∧ (w.sessions s)._uuid = t

/-- The session found under `uid` left `_un_managed_sessions` for the table of its
    type only, with the converted logic. -/
def Moved (w : proxy_manager) (session_type_ : SessionType) (uid : session_uid)
    (w' : proxy_manager) : Prop :=
  ∃ s l, w._un_managed_sessions._container.lookup uid = some s ∧
    (w.sessions s)._logic = .default_session l ∧ uid ∉ w'._un_managed_sessions._container ∧
    if session_type_ = SessionType.CLIENT_PROXY then
      w'._client_sessions._container.lookup uid = some s ∧ ¬ Listed w'._server_sessions s ∧
        ∃ target, (w'.sessions s)._logic =
          .client_session { l with _target_uid := target }.trans_to_client
    else
      w'._server_sessions._container.lookup uid = some s ∧ ¬ Listed w'._client_sessions s ∧
        (w'.sessions s)._logic = .server_session l.trans_to_server

/-- Tables and logics are the same. -/
def Untouched (w w' : proxy_manager) : Prop :=
  w'._server_sessions = w._server_sessions ∧ w'._client_sessions = w._client_sessions ∧
    w'._un_managed_sessions = w._un_managed_sessions ∧
    ∀ j, (w'.sessions j)._logic = (w.sessions j)._logic

/-- The call moves the session on a yes and changes nothing on a no, and says yes
    to a client if and only if its server is registered. -/
def AllOrNothing (stale : Nat → UInt8) (w : proxy_manager) (session_type_ : SessionType)
    (server_id_ : server_id) (target_uid : session_sptr) (session_uid_ : session_uid)
    (ip : UInt32) : Prop :=
  ∃ verdict stored w',
    w.verify_authentication stale session_type_ server_id_ target_uid session_uid_ ip =
      .ok (verdict, stored, w') ∧
    (verdict = true → Moved w session_type_ session_uid_ w' ∧
      (session_type_ = SessionType.CLIENT_PROXY →
        ∃ t, stored = some t ∧ IsServer w server_id_ t)) ∧
    (verdict = false → stored = none ∧ Untouched w w') ∧
    (session_type_ = SessionType.CLIENT_PROXY →
      (verdict = true ↔ ∃ t, IsServer w server_id_ t))

/-- The request is rightly answered no: a client's if its server is not registered,
    a game server's if its uid is taken, any other always. -/
def Answerable (w : proxy_manager) (session_type_ : SessionType) (server_id_ : server_id)
    (session_uid_ : session_uid) : Prop :=
  if session_type_ = SessionType.CLIENT_PROXY then ¬ ∃ t, IsServer w server_id_ t
  else session_type_ > SessionType.MULTI_SESSION_BEGIN →
    session_uid_ ∈ w._server_sessions._container

theorem untouched_self (w : proxy_manager) : Untouched w w := ⟨rfl, rfl, rfl, fun _ => rfl⟩

/-- A game server's move takes nothing out of `_un_managed_sessions`. -/
theorem not_moved_of_move_server {w w' : proxy_manager} {session_type_ : SessionType}
    {uid : session_uid} (h : w.move_server_available uid = .ok w') :
    ¬ Moved w session_type_ uid w' := by
  rintro ⟨s, l, hfound, -, hgone, -⟩
  have hsame : w'._un_managed_sessions = w._un_managed_sessions := by
    rcases move_server_available_cases h with rfl | ⟨s', l', -, -, rfl⟩
    · rfl
    · rfl
  rw [hsame] at hgone
  exact hgone (AList.lookup_isSome.mp (by rw [hfound]; rfl))

/-- What is not rightly answered no goes wrong. -/
theorem answerable_of_all_or_nothing {stale : Nat → UInt8} {w : proxy_manager}
    {session_type_ : SessionType} {server_id_ : server_id} {target_uid : session_sptr}
    {session_uid_ : session_uid} {ip : UInt32}
    (h : AllOrNothing stale w session_type_ server_id_ target_uid session_uid_ ip) :
    Answerable w session_type_ server_id_ session_uid_ := by
  obtain ⟨verdict, stored, w', hcall, hyes, -, hclient⟩ := h
  by_cases htype : session_type_ = SessionType.CLIENT_PROXY
  · rw [Answerable, if_pos htype]
    intro hserver
    -- the server is registered, but the search for it never ran
    have htrue := (hclient htype).mpr hserver
    subst htype
    rw [verify_authentication_client] at hcall
    cases hcall
    cases htrue
  · rw [Answerable, if_neg htype]
    intro hgt
    by_contra hmem
    rw [verify_authentication_server hgt hmem] at hcall
    obtain ⟨w₁, hmove, hcall⟩ := bind_eq_ok.mp hcall
    cases hcall
    -- answered yes, and the session is still in `_un_managed_sessions`
    exact not_moved_of_move_server hmove (hyes rfl).1

/-- What is rightly answered no is answered no. -/
theorem all_or_nothing_of_answerable (stale : Nat → UInt8) {w : proxy_manager}
    {session_type_ : SessionType} {server_id_ : server_id} (target_uid : session_sptr)
    {session_uid_ : session_uid} (ip : UInt32)
    (h : Answerable w session_type_ server_id_ session_uid_) :
    AllOrNothing stale w session_type_ server_id_ target_uid session_uid_ ip := by
  rw [Answerable] at h
  by_cases htype : session_type_ = SessionType.CLIENT_PROXY
  · rw [if_pos htype] at h
    subst htype
    refine ⟨false, none, w, verify_authentication_client .., ?_, ?_, ?_⟩
    · intro hyes
      cases hyes
    · intro _
      exact ⟨rfl, untouched_self w⟩
    · intro _
      constructor
      · intro hyes
        cases hyes
      · intro hserver
        exact absurd hserver h
  · rw [if_neg htype] at h
    have hno : w.verify_authentication stale session_type_ server_id_ target_uid session_uid_ ip =
        .ok (false, none, w) := by
      by_cases hgt : session_type_ > SessionType.MULTI_SESSION_BEGIN
      · exact verify_authentication_duplicate hgt (h hgt) ..
      · exact verify_authentication_other htype hgt ..
    refine ⟨false, none, w, hno, ?_, ?_, ?_⟩
    · intro hyes
      cases hyes
    · intro _
      exact ⟨rfl, untouched_self w⟩
    · intro hclient
      exact absurd hclient htype

/-! ### Runs -/

/-- No session is in two tables. -/
def AtMostOneTable (w : proxy_manager) : Prop :=
  ∀ s, ¬ (Listed w._un_managed_sessions s ∧ Listed w._client_sessions s) ∧
    ¬ (Listed w._un_managed_sessions s ∧ Listed w._server_sessions s) ∧
    ¬ (Listed w._client_sessions s ∧ Listed w._server_sessions s)

/-- No session is registered as a client or as a game server. -/
def NobodyRegistered (w : proxy_manager) : Prop :=
  w._client_sessions = SafeHashMap.empty ∧ w._server_sessions = SafeHashMap.empty

theorem not_listed_empty (s : session_sptr) : ¬ Listed SafeHashMap.empty s := by
  rintro ⟨uid, hfound⟩
  cases hfound

theorem NobodyRegistered.at_most_one {w : proxy_manager} (h : NobodyRegistered w) :
    AtMostOneTable w := by
  intro s
  rw [h.1, h.2]
  refine ⟨?_, ?_, ?_⟩
  · intro hs
    exact not_listed_empty s hs.2
  · intro hs
    exact not_listed_empty s hs.2
  · intro hs
    exact not_listed_empty s hs.2

/-- A request that is rightly answered no does not authenticate its session. -/
theorem not_authenticates_of_answerable {w : proxy_manager} {stale : recycled}
    {i : session_sptr} {head : protocol_head} {body : List UInt8}
    (h : ∀ l aaa_request, w.Asks stale i head body l aaa_request →
      Answerable w aaa_request.link_type (cal_server_uid aaa_request.area_id
        aaa_request.server_id aaa_request.platform) (w.sessions i)._uuid) :
    ¬ w.Authenticates stale i head body := by
  rintro ⟨l, aaa_request, target_uid, w', hasks, hanswer⟩
  have hanswerable := h l aaa_request hasks
  rcases ask_proxy_cases hanswer with hno | ⟨hgt, habsent, -⟩
  · cases hno
  · rw [sessions_set_logic_self, basic_async_session.uuid_modify_session_logic] at habsent
    rw [Answerable, if_neg (ne_client_of_gt hgt)] at hanswerable
    exact habsent (hanswerable hgt)

end proxy_manager

namespace proxy_run

/-- An authentication request that gets to the proxy is rightly answered no. -/
def RightlyRefused (s : proxy_run) : proxy_event → Prop
  | .frame i stale head body => ∀ l aaa_request, s.proxy.Asks stale i head body l aaa_request →
    Answerable s.proxy aaa_request.link_type (cal_server_uid aaa_request.area_id
      aaa_request.server_id aaa_request.platform) (s.proxy.sessions i)._uuid
  | _ => True

theorem nobody_registered_step {z : zlib} {s s' : proxy_run} {e : proxy_event}
    (h : NobodyRegistered s.proxy) (hrefused : s.RightlyRefused e)
    (hstep : exec z s e = some s') : NobodyRegistered s'.proxy := by
  rcases exec_cases hstep with ⟨clock, new_one, left_over, ip, rfl, hproxy, -⟩ |
    ⟨-, i, stale, head, body, t, rfl, -, hauth, -⟩ | ⟨-, hkeeps⟩
  · rw [hproxy]
    exact h
  · exact absurd hauth (not_authenticates_of_answerable hrefused)
  · exact ⟨hkeeps.client_sessions.trans h.1, hkeeps.server_sessions.trans h.2⟩

theorem nobody_registered_of_reachable (z : zlib) :
    ∀ s, ((system z).restrict RightlyRefused).Reachable s → NobodyRegistered s.proxy := by
  refine System.invariant ?_ ?_
  · rintro s ⟨ciphers, rfl⟩
    exact ⟨rfl, rfl⟩
  · intro s e s' hnobody ⟨hrefused, hstep⟩
    exact nobody_registered_step hnobody hrefused hstep

/-- **Authentication, exactly.** A call is all or nothing if and only if the request
    is rightly answered no, and in runs where all requests are, no session is in
    two tables. -/
theorem all_or_nothing_iff (stale : Nat → UInt8) (w : proxy_manager)
    (session_type_ : SessionType) (server_id_ : server_id) (target_uid : session_sptr)
    (session_uid_ : session_uid) (ip : UInt32) (z : zlib) :
    (AllOrNothing stale w session_type_ server_id_ target_uid session_uid_ ip ↔
      Answerable w session_type_ server_id_ session_uid_) ∧
    ∀ s, ((system z).restrict RightlyRefused).Reachable s → AtMostOneTable s.proxy := by
  refine ⟨⟨answerable_of_all_or_nothing, all_or_nothing_of_answerable stale target_uid ip⟩, ?_⟩
  intro s hr
  have hnobody := nobody_registered_of_reachable z s hr
  exact hnobody.at_most_one

/-- No game server's request is rightly refused before one is registered. -/
theorem not_answerable_one_session :
    ¬ Answerable one_session.proxy SessionType.GAMESVR_PROXY 0 0 := by
  rw [Answerable, if_neg (by decide)]
  intro h
  exact absurd (h (by decide)) List.not_mem_nil

/-- A request for a server that nobody is comes to nothing, and a run of one
    accepted session has it in one table. -/
theorem all_or_nothing_one_session :
    AllOrNothing (fun _ => 0) one_session.proxy SessionType.CLIENT_PROXY 0 0 0 0 ∧
      AtMostOneTable one_session.proxy := by
  obtain ⟨hcall, hruns⟩ := all_or_nothing_iff (fun _ => 0) one_session.proxy
    SessionType.CLIENT_PROXY 0 0 0 0 zlib.stored
  refine ⟨hcall.mpr ?_, hruns one_session (.step accept_at_zero (.init ⟨_, rfl⟩) ⟨trivial, rfl⟩)⟩
  rw [Answerable, if_pos rfl]
  rintro ⟨t, uid, s, l, hfound, -⟩
  cases hfound

/-- The first game server's request is not all or nothing. -/
theorem not_always_all_or_nothing :
    ¬ ∀ (z : zlib) (s : proxy_run), (system z).Reachable s →
      ∀ (stale : Nat → UInt8) (session_type_ : SessionType) (server_id_ : server_id)
        (target_uid : session_sptr) (session_uid_ : session_uid) (ip : UInt32),
        AllOrNothing stale s.proxy session_type_ server_id_ target_uid session_uid_ ip := by
  intro hall
  exact not_answerable_one_session (answerable_of_all_or_nothing
    (hall zlib.stored one_session (System.Reachable.of_restrict (reachable_one_session _))
      (fun _ => 0) SessionType.GAMESVR_PROXY 0 0 0 0))

end proxy_run

end AsioNet
