import AsioNet.SessionTables

/-! # Cleaning up closed sessions (`proxy_manager.cpp`)

    The handler of the clean-up timer goes through the tables and erases what is
    closed. The loop itself is right (`lookup_close_method`), but it is given the
    container by value, `complex_operation` does not even run it, and one of the
    three tables is not gone through at all.
-/

namespace AsioNet

namespace proxy_manager

/-- `close_method`: the loop over the container it is given. -/
def close_method (is_session_closed : session_sptr → Bool)
    (container : unordered_map session_uid session_sptr) :
    unordered_map session_uid session_sptr :=
  container.entries.foldl (fun container pair =>
    if is_session_closed pair.2 then AList.erase pair.1 container else container) container

def is_session_closed (w : proxy_manager) (s : session_sptr) : Bool :=
  decide ((w.sessions s)._state = .CLOSE_DONE)

/-- The handler runs the loop on its own copy and captures nothing. -/
theorem clean_up_closed_session_eq_loop (w : proxy_manager) :
    w.clean_up_closed_session =
      let close : SafeHashMap.container_handler session_uid session_sptr Unit :=
        fun container captured =>
          let _ := close_method w.is_session_closed container
          captured
      { w with
        _client_sessions := (w._client_sessions.complex_operation close ()).1
        _server_sessions := (w._server_sessions.complex_operation close ()).1 } := rfl

/-! ### What the loop does -/

theorem lookup_foldl_erase (closed : session_sptr → Bool) (k : session_uid)
    (pairs : List (Sigma fun _ : session_uid => session_sptr))
    (container : unordered_map session_uid session_sptr) :
    (pairs.foldl (fun container pair =>
      if closed pair.2 then AList.erase pair.1 container else container) container).lookup k =
        if ∃ pair ∈ pairs, pair.1 = k ∧ closed pair.2 = true then none
        else container.lookup k := by
  -- on the rounds of the loop; erasing twice is erasing once
  induction pairs generalizing container with
  | nil => simp
  | cons pair pairs ih =>
    rw [List.foldl_cons, ih]
    by_cases hrest : ∃ pair ∈ pairs, pair.1 = k ∧ closed pair.2 = true
    · obtain ⟨p, hp, hk⟩ := hrest
      rw [if_pos ⟨p, hp, hk⟩, if_pos ⟨p, List.mem_cons_of_mem _ hp, hk⟩]
    rw [if_neg hrest]
    by_cases hclosed : closed pair.2 = true
    · rw [if_pos hclosed]
      by_cases hk : pair.1 = k
      · rw [if_pos ⟨pair, List.mem_cons_self, hk, hclosed⟩, ← hk, AList.lookup_erase]
      · rw [AList.lookup_erase_ne (Ne.symm hk), if_neg]
        rintro ⟨p, hp, hpk, hpc⟩
        rcases List.mem_cons.mp hp with rfl | hp
        · exact hk hpk
        · exact hrest ⟨p, hp, hpk, hpc⟩
    · rw [if_neg hclosed, if_neg]
      rintro ⟨p, hp, hpk, hpc⟩
      rcases List.mem_cons.mp hp with rfl | hp
      · exact hclosed hpc
      · exact hrest ⟨p, hp, hpk, hpc⟩

/-- **The loop** takes out the closed sessions and nothing else. -/
theorem lookup_close_method (closed : session_sptr → Bool)
    (container : unordered_map session_uid session_sptr) (k : session_uid) (s : session_sptr) :
    (close_method closed container).lookup k = some s ↔
      container.lookup k = some s ∧ closed s = false := by
  have hentry : ∀ {s}, container.lookup k = some s ↔ ⟨k, s⟩ ∈ container.entries := by
    intro s
    rw [← Option.mem_def]
    exact AList.mem_lookup_iff
  rw [close_method, lookup_foldl_erase]
  split
  · next hclosed =>
    obtain ⟨⟨k', s'⟩, hmem, rfl, hs'⟩ := hclosed
    -- the one session bound to the key is a closed one
    refine iff_of_false nofun ?_
    rintro ⟨hs, hopen⟩
    rw [hentry.mpr hmem] at hs
    obtain rfl := Option.some.inj hs
    rw [hs'] at hopen
    cases hopen
  · next hnone =>
    constructor
    · intro hs
      refine ⟨hs, Bool.eq_false_of_not_eq_true ?_⟩
      intro hclosed
      exact hnone ⟨⟨k, s⟩, hentry.mp hs, rfl, hclosed⟩
    · rintro ⟨hs, -⟩
      exact hs

/-! ### What the clean-up does -/

/-- A table of `w'` binds what the table of `w` did, up to closed sessions. -/
def TableCleaned (w : proxy_manager) (table table' : SafeHashMap session_uid session_sptr) : Prop :=
  (∀ s, (w.sessions s)._state = .CLOSE_DONE → ¬ Listed table' s) ∧
    ∀ uid s, (w.sessions s)._state ≠ .CLOSE_DONE → table._container.lookup uid = some s →
      table'._container.lookup uid = some s

/-- The closed sessions are gone and the others are where they were. -/
def CleanedUp (w w' : proxy_manager) : Prop :=
  TableCleaned w w._client_sessions w'._client_sessions ∧
    TableCleaned w w._server_sessions w'._server_sessions ∧
    TableCleaned w w._un_managed_sessions w'._un_managed_sessions

/-- No session in the table is closed. -/
def NoneClosed (w : proxy_manager) (table : SafeHashMap session_uid session_sptr) : Prop :=
  ∀ uid s, table._container.lookup uid = some s → (w.sessions s)._state ≠ .CLOSE_DONE

/-- A table that is left as it is is clean if it was before. -/
theorem tableCleaned_self_iff (w : proxy_manager) (table : SafeHashMap session_uid session_sptr) :
    TableCleaned w table table ↔ NoneClosed w table := by
  constructor
  · rintro ⟨hgone, -⟩ uid s hs hclosed
    exact hgone s hclosed ⟨uid, hs⟩
  · intro h
    refine ⟨?_, fun _ _ _ hs => hs⟩
    rintro s hclosed ⟨uid, hs⟩
    exact h uid s hs hclosed

/-- The loop, if it worked on the table, would clean it. -/
theorem tableCleaned_close_method (w : proxy_manager)
    (table : SafeHashMap session_uid session_sptr) :
    TableCleaned w table ⟨close_method w.is_session_closed table._container⟩ := by
  constructor
  · rintro s hclosed ⟨uid, hs⟩
    have hopen := ((lookup_close_method _ _ _ _).mp hs).2
    rw [is_session_closed, decide_eq_false_iff_not] at hopen
    exact hopen hclosed
  · intro uid s hopen hs
    refine (lookup_close_method _ _ _ _).mpr ⟨hs, ?_⟩
    rw [is_session_closed, decide_eq_false_iff_not]
    exact hopen

/-- **The clean-up, exactly.** It does what it is for if and only if there is nothing
    to do. Even if the loop worked on the two tables it is passed to, it would take
    that no session in the third is closed. -/
theorem cleaned_up_iff (w : proxy_manager) :
    (CleanedUp w w.clean_up_closed_session ↔ NoneClosed w w._client_sessions ∧
      NoneClosed w w._server_sessions ∧ NoneClosed w w._un_managed_sessions) ∧
    (CleanedUp w { w with
        _client_sessions := ⟨close_method w.is_session_closed w._client_sessions._container⟩
        _server_sessions := ⟨close_method w.is_session_closed w._server_sessions._container⟩ } ↔
      NoneClosed w w._un_managed_sessions) := by
  refine ⟨?_, ?_⟩
  · rw [clean_up_closed_session_eq]
    simp only [CleanedUp, tableCleaned_self_iff]
  · simp only [CleanedUp, tableCleaned_self_iff, tableCleaned_close_method, true_and]

/-- A closed session that was never authenticated, in its table. -/
def one_closed : proxy_manager :=
  let w := (initial fun _ => rc4_info.of_zero_rand).accept_a_session 0 0 rc4_info.of_zero_rand
    ⟨0, 0, [], 0⟩ 0
  w.set_session 0 { w.sessions 0 with _state := .CLOSE_DONE }

/-- The clean-up leaves it there. -/
theorem not_always_cleaned_up : ¬ ∀ w : proxy_manager, CleanedUp w w.clean_up_closed_session := by
  intro hall
  have hgone := (hall one_closed).2.2.1 0 rfl
  exact hgone ⟨0, rfl⟩

end proxy_manager

end AsioNet
