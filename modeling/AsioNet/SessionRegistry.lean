import AsioNet.ProxyRuns
import AsioNet.VerdictAgreement

/-! # What the tables say

    In runs in which no new session gets a uid that is in `_un_managed_sessions` the
    tables say no more and no less than the sessions themselves: everybody who was ever
    accepted is in `_un_managed_sessions` under its own uid, everybody whose logic is a
    game server's is in `_server_sessions` as well, and there are no clients.

    Nobody ever leaves a table, whatever closes and however often closed sessions are
    cleaned up.
-/

namespace AsioNet

open TransitionSystem proxy_manager

namespace proxy_run

/-- The tables are what the sessions say. -/
structure Registry (s : proxy_run) : Prop where
  un_managed_sessions : ∀ uid i,
    s.proxy._un_managed_sessions._container.lookup uid = some i ↔
      i < s.accepted ∧ (s.proxy.sessions i)._uuid = uid
  server_sessions : ∀ uid i, s.proxy._server_sessions._container.lookup uid = some i ↔
    i < s.accepted ∧ (s.proxy.sessions i)._uuid = uid ∧
      (s.proxy.sessions i)._logic.kind = .server_session
  client_sessions : s.proxy._client_sessions = SafeHashMap.empty
  kind : ∀ i, (s.proxy.sessions i)._logic.kind ≠ .client_session

/-- Whoever is in a table of `s` is in that of `t`, under the same uid. -/
structure Stays (s t : proxy_run) : Prop where
  un_managed_sessions : ∀ uid i, s.proxy._un_managed_sessions._container.lookup uid = some i →
    t.proxy._un_managed_sessions._container.lookup uid = some i
  server_sessions : ∀ uid i, s.proxy._server_sessions._container.lookup uid = some i →
    t.proxy._server_sessions._container.lookup uid = some i

theorem lookup_insert {table : SafeHashMap session_uid session_sptr} {uid : session_uid}
    (h : uid ∉ table._container) (i : session_sptr) (uid' : session_uid) :
    (table.insert uid i).1._container.lookup uid' =
      if uid' = uid then some i else table._container.lookup uid' := by
  split
  · next heq =>
    rw [heq]
    exact SafeHashMap.lookup_insert_self h i
  · next hne => exact SafeHashMap.lookup_insert_ne hne i

variable {z : zlib} {s s' : proxy_run} {e : proxy_event}

theorem sessions_accept (s : proxy_run) (clock : Nat) (new_one : rc4_info)
    (left_over : server_info) (ip : UInt32) {i : session_sptr} (hi : i ≠ s.accepted) :
    (s.proxy.accept_a_session s.accepted clock new_one left_over ip).sessions i =
      s.proxy.sessions i := by
  unfold accept_a_session
  exact sessions_set_session_ne hi _ _

/-- **A session is accepted.** -/
theorem Registry.accept (h : Registry s) {clock : Nat} {new_one : rc4_info}
    {left_over : server_info} {ip : UInt32}
    (hfresh : s.FreshUid (.accept clock new_one left_over ip))
    (hproxy : s'.proxy = s.proxy.accept_a_session s.accepted clock new_one left_over ip)
    (haccepted : s'.accepted = s.accepted + 1) : Registry s' := by
  have hsame : ∀ i, i ≠ s.accepted → s'.proxy.sessions i = s.proxy.sessions i := by
    intro i hi
    rw [hproxy]
    exact sessions_accept s clock new_one left_over ip hi
  have huuid : (s'.proxy.sessions s.accepted)._uuid =
      basic_async_session.generate_uuid clock := by
    rw [hproxy]
    unfold accept_a_session
    rw [sessions_set_session_self]
  have hkind : (s'.proxy.sessions s.accepted)._logic.kind = .default_session := by
    rw [hproxy]
    unfold accept_a_session
    rw [sessions_set_session_self]
    rfl
  refine ⟨?_, ?_, ?_, ?_⟩
  · intro uid i
    have htable : s'.proxy._un_managed_sessions = (s.proxy._un_managed_sessions.insert
        (basic_async_session.generate_uuid clock) s.accepted).1 := by
      rw [hproxy]
      rfl
    rw [htable, lookup_insert hfresh, haccepted]
    by_cases hi : i = s.accepted
    · subst hi
      rw [huuid]
      split
      · next huid => exact ⟨fun _ => ⟨Nat.lt_succ_self _, huid.symm⟩, fun _ => rfl⟩
      · next huid =>
        constructor
        · intro hfound
          exact absurd ((h.un_managed_sessions _ _).mp hfound).1 (Nat.lt_irrefl _)
        · intro ⟨_, heq⟩
          exact absurd heq.symm huid
    · rw [hsame i hi]
      have hlt : i < s.accepted + 1 ↔ i < s.accepted :=
        ⟨fun hlt => Nat.lt_of_le_of_ne (Nat.lt_succ_iff.mp hlt) hi, Nat.lt_succ_of_lt⟩
      rw [hlt]
      split
      · next huid =>
        -- nobody had the uid
        constructor
        · intro hfound
          exact absurd (Option.some.inj hfound).symm hi
        · intro hold
          have hfound := (h.un_managed_sessions _ _).mpr hold
          rw [huid] at hfound
          exact absurd (AList.lookup_isSome.mp (by rw [hfound]; rfl)) hfresh
      · exact h.un_managed_sessions uid i
  · intro uid i
    have htable : s'.proxy._server_sessions = s.proxy._server_sessions := by
      rw [hproxy]
      rfl
    rw [htable, h.server_sessions, haccepted]
    by_cases hi : i = s.accepted
    · subst hi
      rw [hkind]
      exact ⟨fun hold => absurd hold.1 (Nat.lt_irrefl _), fun hnew => nomatch hnew.2.2⟩
    · rw [hsame i hi]
      have hlt : i < s.accepted + 1 ↔ i < s.accepted :=
        ⟨fun hlt => Nat.lt_of_le_of_ne (Nat.lt_succ_iff.mp hlt) hi, Nat.lt_succ_of_lt⟩
      rw [hlt]
  · rw [hproxy]
    exact h.client_sessions
  · intro i
    by_cases hi : i = s.accepted
    · rw [hi, hkind]
      exact nofun
    · rw [hsame i hi]
      exact h.kind i

/-- **A session is promoted.** -/
theorem Registry.promote (h : Registry s) {uid : session_uid} {t : session_sptr}
    (hpromotes : Promotes uid t s.proxy s'.proxy) (haccepted : s'.accepted = s.accepted) :
    Registry s' := by
  obtain ⟨ht, huuid⟩ := (h.un_managed_sessions uid t).mp hpromotes.found
  refine ⟨?_, ?_, hpromotes.client_sessions.trans h.client_sessions, ?_⟩
  · intro uid' i
    rw [hpromotes.un_managed_sessions, hpromotes.uuid, haccepted]
    exact h.un_managed_sessions uid' i
  · intro uid' i
    rw [hpromotes.server_sessions, lookup_insert hpromotes.absent, hpromotes.uuid, haccepted]
    by_cases hi : i = t
    · subst hi
      rw [huuid, hpromotes.is_server]
      split
      · next huid => exact ⟨fun _ => ⟨ht, huid.symm, rfl⟩, fun _ => rfl⟩
      · next huid =>
        constructor
        · intro hfound
          exact absurd (huuid.symm.trans ((h.server_sessions _ _).mp hfound).2.1).symm huid
        · intro ⟨_, heq, _⟩
          exact absurd heq.symm huid
    · rw [hpromotes.kind i hi]
      split
      · next huid =>
        -- `t` is the only one with the uid
        constructor
        · intro hfound
          exact absurd (Option.some.inj hfound).symm hi
        · intro ⟨hlt, heq, _⟩
          have hfound := (h.un_managed_sessions uid' i).mpr ⟨hlt, heq⟩
          rw [huid, hpromotes.found] at hfound
          exact absurd (Option.some.inj hfound).symm hi
      · exact h.server_sessions uid' i
  · intro i
    by_cases hi : i = t
    · rw [hi, hpromotes.is_server]
      exact nofun
    · rw [hpromotes.kind i hi]
      exact h.kind i

/-- Anything else leaves tables, uids and kinds as they are. -/
theorem Registry.keep (h : Registry s) (hkeeps : Keeps s.proxy s'.proxy)
    (haccepted : s'.accepted = s.accepted) : Registry s' := by
  refine ⟨?_, ?_, hkeeps.client_sessions.trans h.client_sessions, ?_⟩
  · intro uid i
    rw [hkeeps.un_managed_sessions, hkeeps.uuid, haccepted]
    exact h.un_managed_sessions uid i
  · intro uid i
    rw [hkeeps.server_sessions, hkeeps.uuid, hkeeps.kind, haccepted]
    exact h.server_sessions uid i
  · intro i
    rw [hkeeps.kind]
    exact h.kind i

theorem Registry.step (h : Registry s) (hfresh : s.FreshUid e) (hstep : exec z s e = some s') :
    Registry s' := by
  rcases exec_cases hstep with ⟨clock, new_one, left_over, ip, rfl, hproxy, haccepted⟩ |
    ⟨haccepted, i, stale, head, body, t, -, -, -, hpromotes⟩ | ⟨haccepted, hkeeps⟩
  · exact h.accept hfresh hproxy haccepted
  · exact h.promote hpromotes haccepted
  · exact h.keep hkeeps haccepted

/-! ### Nobody leaves -/

theorem Stays.refl (s : proxy_run) : Stays s s := ⟨fun _ _ h => h, fun _ _ h => h⟩

theorem Stays.step {s₀ : proxy_run} (h : Stays s₀ s) (hstep : exec z s e = some s') :
    Stays s₀ s' := by
  rcases exec_cases hstep with ⟨clock, new_one, left_over, ip, -, hproxy, -⟩ |
    ⟨-, i, stale, head, body, t, -, -, -, hpromotes⟩ | ⟨-, hkeeps⟩
  · refine ⟨?_, ?_⟩
    · intro uid j hj
      rw [hproxy]
      exact SafeHashMap.lookup_insert_of_some (h.un_managed_sessions uid j hj)
    · intro uid j hj
      rw [hproxy]
      exact h.server_sessions uid j hj
  · refine ⟨?_, ?_⟩
    · intro uid j hj
      rw [hpromotes.un_managed_sessions]
      exact h.un_managed_sessions uid j hj
    · intro uid j hj
      rw [hpromotes.server_sessions]
      exact SafeHashMap.lookup_insert_of_some (h.server_sessions uid j hj)
  · refine ⟨?_, ?_⟩
    · intro uid j hj
      rw [hkeeps.un_managed_sessions]
      exact h.un_managed_sessions uid j hj
    · intro uid j hj
      rw [hkeeps.server_sessions]
      exact h.server_sessions uid j hj

theorem registry_start (ciphers : session_sptr → rc4_info) : Registry (start ciphers) := by
  refine ⟨?_, ?_, rfl, fun _ => nofun⟩
  · intro uid i
    exact ⟨nofun, fun hi => absurd hi.1 (Nat.not_lt_zero _)⟩
  · intro uid i
    exact ⟨nofun, fun hi => absurd hi.1 (Nat.not_lt_zero _)⟩

theorem Registry.of_reachable (hr : ((system z).restrict FreshUid).Reachable s) : Registry s := by
  refine System.invariant ?_ ?_ s hr
  · intro s hs
    obtain ⟨ciphers, rfl⟩ := hs
    exact registry_start ciphers
  · intro s e s' hs ⟨hfresh, hstep⟩
    exact hs.step hfresh hstep

/-- **The tables in every reachable state**: they are what the sessions say, and what is in
    them stays in them whatever happens next. -/
theorem registry_of_reachable (z : zlib) (s : proxy_run)
    (hr : ((system z).restrict FreshUid).Reachable s) :
    Registry s ∧ ∀ t, ((system z).startingAt s).Reachable t → Stays s t := by
  refine ⟨Registry.of_reachable hr, ?_⟩
  exact System.invariant_startingAt (Stays.refl s) fun _ _ _ h hstep => h.step hstep

/-- A game server is accepted and asks to be registered. -/
theorem registry_one_server : ∃ s, s.proxy._server_sessions._container.lookup 0 = some 0 ∧
    Registry s ∧ ∀ t, ((system zlib.stored).startingAt s).Reachable t → Stays s t := by
  have hrun : (exec zlib.stored one_session (request_on 0)).map
      (fun s => s.proxy._server_sessions._container.lookup 0) = some (some 0) := by
    decide +kernel
  obtain ⟨s, hs, hfound⟩ := Option.map_eq_some_iff.mp hrun
  have hreach : ((system zlib.stored).restrict FreshUid).Reachable s :=
    .step (request_on 0) (reachable_one_session zlib.stored) ⟨trivial, hs⟩
  exact ⟨s, hfound, registry_of_reachable zlib.stored s hreach⟩

end proxy_run

end AsioNet
