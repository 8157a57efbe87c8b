import AsioNet.SessionTables

/-! # Kicking a game server's peers (`proxy_manager::kick_server_peer`)

    When a game server closes, its clients and the sessions of its type are to be
    kicked. The two loops are handlers for `complex_operation`, which runs none, so
    nobody ever is (`kicks_exactly_iff`).

    The loop over the clients would not find the right ones either: the type it
    compares is the one the client announced for itself, not its server's
    (`mem_kick_both`).
-/

namespace AsioNet

/-- `_server_info` is what the client's own request said. -/
def client_session_logic.get_target_server_type (l : client_session_logic) : SessionType :=
  l._server_info.link_type_

namespace proxy_manager

/-- The body of both loops: kick the session if its logic passes the test. Kicked
    sessions are noted in their order. -/
def kick_round (test : session_logic → Checked Bool) (w : proxy_manager)
    (captured : Checked (List session_sptr)) (pair : Sigma fun _ : session_uid => session_sptr) :
    Checked (List session_sptr) := do
  let kicked ← captured
  let kick ← test (w.sessions pair.2)._logic
  pure (if kick then kicked ++ [pair.2] else kicked)

def kick_loop (test : session_logic → Checked Bool) (w : proxy_manager) :
    SafeHashMap.container_handler session_uid session_sptr (Checked (List session_sptr)) :=
  fun container captured => container.entries.foldl (kick_round test w) captured

def kick_method (server_type : SessionType) : proxy_manager →
    SafeHashMap.container_handler session_uid session_sptr (Checked (List session_sptr)) :=
  kick_loop fun logic =>
    match logic with
    | .client_session cln_logic => pure (cln_logic.get_target_server_type = server_type)
    | _ => throw .null_pointer

def kick_self_method (server_type : SessionType) : proxy_manager →
    SafeHashMap.container_handler session_uid session_sptr (Checked (List session_sptr)) :=
  kick_loop fun logic => pure (logic.get_session_type = server_type)

/-- Returns the verdict and the sessions that were kicked. -/
def kick_server_peer (w : proxy_manager) (server_type : SessionType) :
    Checked (Bool × List session_sptr × proxy_manager) := do
  let ret := w._client_sessions.complex_operation (kick_method server_type w) (pure [])
  let w := { w with _client_sessions := ret.1 }
  let kicked ← ret.2
  let ret := w._server_sessions.complex_operation (kick_self_method server_type w) (pure kicked)
  let w := { w with _server_sessions := ret.1 }
  let kicked ← ret.2
  pure (false, kicked, w)

/-- Neither handler runs. -/
theorem kick_server_peer_eq (w : proxy_manager) (server_type : SessionType) :
    w.kick_server_peer server_type = .ok (false, [], w) := rfl

/-! ### What the loops do -/

/-- A round that faults ends in a fault. -/
theorem foldl_kick_round_error (test : session_logic → Checked Bool) (w : proxy_manager)
    (e : fault) (pairs : List (Sigma fun _ : session_uid => session_sptr)) :
    pairs.foldl (kick_round test w) (.error e) = .error e := by
  induction pairs with
  | nil => rfl
  | cons pair pairs ih => rw [List.foldl_cons, kick_round, error_bind, ih]

theorem kick_round_ok {test : session_logic → Checked Bool} {w : proxy_manager}
    {before kicked : List session_sptr} {pair : Sigma fun _ : session_uid => session_sptr}
    (h : kick_round test w (.ok before) pair = .ok kicked) (s : session_sptr) :
    s ∈ kicked ↔ s ∈ before ∨ (pair.2 = s ∧ test (w.sessions s)._logic = .ok true) := by
  rw [kick_round, ok_bind] at h
  obtain ⟨kick, htest, hkicked⟩ := bind_eq_ok.mp h
  obtain rfl := Except.ok.inj hkicked
  cases kick with
  | false =>
    have hno : ¬ (pair.2 = s ∧ test (w.sessions s)._logic = .ok true) := by
      intro hs
      rw [hs.1, hs.2] at htest
      cases htest
    simp [hno]
  | true =>
    have hyes : pair.2 = s → test (w.sessions s)._logic = .ok true := by
      intro hs
      rw [← hs, htest]
    simp only [if_true, List.mem_append, List.mem_singleton]
    apply or_congr Iff.rfl
    constructor
    · intro hs
      exact ⟨hs.symm, hyes hs.symm⟩
    · intro hs
      exact hs.1.symm

theorem mem_foldl_kick_round {test : session_logic → Checked Bool} {w : proxy_manager}
    {pairs : List (Sigma fun _ : session_uid => session_sptr)} {before kicked : List session_sptr}
    (h : pairs.foldl (kick_round test w) (.ok before) = .ok kicked) (s : session_sptr) :
    s ∈ kicked ↔ s ∈ before ∨ ∃ pair ∈ pairs, pair.2 = s ∧
      test (w.sessions s)._logic = .ok true := by
  induction pairs generalizing before with
  | nil =>
    obtain rfl := Except.ok.inj h
    simp
  | cons pair pairs ih =>
    rw [List.foldl_cons] at h
    rcases hround : kick_round test w (.ok before) pair with e | between
    · rw [hround, foldl_kick_round_error] at h
      cases h
    · rw [hround] at h
      rw [ih h, kick_round_ok hround]
      simp only [List.mem_cons, or_assoc, exists_eq_or_imp]

/-- A loop that runs to its end has kicked the sessions of the table that pass the
    test. -/
theorem mem_kick_loop {test : session_logic → Checked Bool} {w : proxy_manager}
    {table : SafeHashMap session_uid session_sptr} {before kicked : List session_sptr}
    (h : kick_loop test w table._container (pure before) = .ok kicked) (s : session_sptr) :
    s ∈ kicked ↔ s ∈ before ∨ (Listed table s ∧ test (w.sessions s)._logic = .ok true) := by
  rw [mem_foldl_kick_round h]
  apply or_congr Iff.rfl
  constructor
  · intro hs
    obtain ⟨pair, hmem, rfl, htest⟩ := hs
    exact ⟨⟨pair.1, AList.mem_lookup_iff.mpr hmem⟩, htest⟩
  · intro hs
    obtain ⟨⟨uid, hfound⟩, htest⟩ := hs
    exact ⟨⟨uid, s⟩, AList.mem_lookup_iff.mp hfound, rfl, htest⟩

/-- The loop over the clients kicks those that announced the type for themselves. -/
theorem mem_kick_method {w : proxy_manager} {server_type : SessionType}
    {before kicked : List session_sptr}
    (h : kick_method server_type w w._client_sessions._container (pure before) = .ok kicked)
    (s : session_sptr) :
    s ∈ kicked ↔ s ∈ before ∨ (Listed w._client_sessions s ∧
      ∃ l, (w.sessions s)._logic = .client_session l ∧
        l._server_info.link_type_ = server_type) := by
  rw [mem_kick_loop h]
  apply or_congr Iff.rfl
  apply and_congr Iff.rfl
  cases hl : (w.sessions s)._logic with
  | client_session l =>
    have htest : (Except.ok (decide (l.get_target_server_type = server_type)) : Checked Bool) =
        .ok true ↔ l._server_info.link_type_ = server_type := by
      rw [Except.ok.injEq, decide_eq_true_iff]
      rfl
    simpa using htest
  | default_session l => simp [throw, throwThe, MonadExceptOf.throw]
  | server_session l => simp [throw, throwThe, MonadExceptOf.throw]

/-- The loop over the game servers kicks those of the type. -/
theorem mem_kick_self_method {w : proxy_manager} {server_type : SessionType}
    {before kicked : List session_sptr}
    (h : kick_self_method server_type w w._server_sessions._container (pure before) = .ok kicked)
    (s : session_sptr) :
    s ∈ kicked ↔ s ∈ before ∨ (Listed w._server_sessions s ∧
      (w.sessions s)._logic.get_session_type = server_type) := by
  rw [mem_kick_loop h]
  simp [pure_eq_ok]

/-- Both loops, one after the other. -/
def kick_both (w : proxy_manager) (server_type : SessionType) : Checked (List session_sptr) := do
  let kicked ← kick_method server_type w w._client_sessions._container (pure [])
  kick_self_method server_type w w._server_sessions._container (pure kicked)

/-- **If the loops ran**, they would kick the game servers of the type and the clients
    that said they were of it, whatever their server is. -/
theorem mem_kick_both {w : proxy_manager} {server_type : SessionType}
    {kicked : List session_sptr} (h : w.kick_both server_type = .ok kicked) (s : session_sptr) :
    s ∈ kicked ↔
      (Listed w._client_sessions s ∧ ∃ l, (w.sessions s)._logic = .client_session l ∧
        l._server_info.link_type_ = server_type) ∨
      (Listed w._server_sessions s ∧
        (w.sessions s)._logic.get_session_type = server_type) := by
  obtain ⟨clients, hclients, hservers⟩ := bind_eq_ok.mp h
  rw [mem_kick_self_method hservers, mem_kick_method hclients]
  simp only [List.not_mem_nil, false_or]

/-! ### Whom the call kicks -/

/-- The session is one of the server's type, or a client of one. -/
def IsPeer (w : proxy_manager) (server_type : SessionType) (s : session_sptr) : Prop :=
  (Listed w._client_sessions s ∧ ∃ l server, (w.sessions s)._logic = .client_session l ∧
    w._server_sessions._container.lookup l._target_uid = some server ∧
    (w.sessions server)._logic.get_session_type = server_type) ∨
  (Listed w._server_sessions s ∧ (w.sessions s)._logic.get_session_type = server_type)

/-- The call kicks the peers, each once, and nobody else, and leaves the tables as
    they are. -/
def KicksExactly (w : proxy_manager) (server_type : SessionType) : Prop :=
  ∃ verdict kicked w', w.kick_server_peer server_type = .ok (verdict, kicked, w') ∧
    kicked.Nodup ∧ (∀ s, s ∈ kicked ↔ IsPeer w server_type s) ∧
    w'._client_sessions = w._client_sessions ∧ w'._server_sessions = w._server_sessions ∧
    w'._un_managed_sessions = w._un_managed_sessions

/-- **Kicking, exactly.** It hits the peers if and only if there are none: nobody is
    kicked. -/
theorem kicks_exactly_iff (w : proxy_manager) (server_type : SessionType) :
    KicksExactly w server_type ↔ ∀ s, ¬ IsPeer w server_type s := by
  unfold KicksExactly
  rw [kick_server_peer_eq]
  constructor
  · intro h
    obtain ⟨verdict, kicked, w', hcall, -, hexact, -⟩ := h
    obtain ⟨-, rfl, -⟩ := Prod.mk.inj (Except.ok.inj hcall)
    intro s hs
    exact List.not_mem_nil ((hexact s).mpr hs)
  · intro hnone
    refine ⟨false, [], w, rfl, List.nodup_nil, ?_, rfl, rfl, rfl⟩
    intro s
    exact iff_of_false List.not_mem_nil (hnone s)

/-- The client of an active game server is not kicked. -/
theorem not_always_kicks_exactly :
    ¬ ∀ (w : proxy_manager) (server_type : SessionType), KicksExactly w server_type := by
  intro hall
  have hnone := (kicks_exactly_iff one_client SessionType.ACTIVE_GAMESVR).mp (hall _ _)
  exact hnone 0 (Or.inl ⟨⟨5, rfl⟩, _, 1, rfl, rfl, rfl⟩)

end proxy_manager

end AsioNet
