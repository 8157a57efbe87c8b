import AsioNet.LogicPool

/-! # Logics in use and logics in the free lists

    A logic to which some `shared_ptr` points is never in a free list, in any run
    (`not_free_of_reachable`). A running member function is another matter: nothing
    keeps its logic alive, and a promotion lets go of the logic it replaces while the
    call that asked for the promotion has not returned.
-/

namespace AsioNet

open TransitionSystem reusabel_buffer proto_mask

/-- The session that gets a new logic in the next step, and that logic. -/
def pooled_strand.installs : pooled_strand → Option (session_sptr × Nat)
  | modify _ _ _ s_s _ new_server_logic => some (s_s, new_server_logic)
  | _ => none

namespace pooled_run

/-! ### What the writes change -/

@[simp] theorem strand_go_on_self (s : pooled_run) (i : session_sptr) (next : pooled_strand) :
    (s.go_on i next).strand i = next := by
  simp [go_on]

@[simp] theorem strand_go_on_ne {i j : session_sptr} (h : j ≠ i) (s : pooled_run)
    (next : pooled_strand) : (s.go_on i next).strand j = s.strand j := by
  simp [go_on, h]

@[simp] theorem sessions_set_session_self (s : pooled_run) (i : session_sptr)
    (session : basic_async_session (Option logic_sptr)) :
    (s.set_session i session).sessions i = session := by
  simp [set_session]

@[simp] theorem sessions_set_session_ne {i j : session_sptr} (h : j ≠ i) (s : pooled_run)
    (session : basic_async_session (Option logic_sptr)) :
    (s.set_session i session).sessions j = s.sessions j := by
  simp [set_session, h]

/-- Whether a logic is out depends on the pools alone. -/
theorem out_congr {s s' : pooled_run} (hdefault : s'.default_pool = s.default_pool)
    (hserver : s'.server_pool = s.server_pool) (p : logic_sptr) : s'.Out p ↔ s.Out p := by
  cases p with
  | default_session p =>
    unfold Out
    rw [hdefault]
  | server_session p =>
    unfold Out
    rw [hserver]

@[simp] theorem out_go_on (s : pooled_run) (i : session_sptr) (next : pooled_strand)
    (p : logic_sptr) : (s.go_on i next).Out p ↔ s.Out p :=
  out_congr rfl rfl p

@[simp] theorem out_set_session (s : pooled_run) (i : session_sptr)
    (session : basic_async_session (Option logic_sptr)) (p : logic_sptr) :
    (s.set_session i session).Out p ↔ s.Out p :=
  out_congr rfl rfl p

@[simp] theorem out_set_default (s : pooled_run) (q : Nat) (l : default_session_logic)
    (p : logic_sptr) : (s.set_default q l).Out p ↔ s.Out p := by
  cases p <;> rfl

@[simp] theorem out_set_server (s : pooled_run) (q : Nat) (l : server_session_logic)
    (p : logic_sptr) : (s.set_server q l).Out p ↔ s.Out p := by
  cases p <;> rfl

@[simp] theorem out_apply_session (s : pooled_run) (i : session_sptr) (q p : logic_sptr) :
    (s.apply_session i q).Out p ↔ s.Out p := by
  cases q <;> cases p <;> rfl

theorem out_release (s : pooled_run) (p q : logic_sptr) :
    (s.release p).Out q ↔ s.Out q ∧ q ≠ p := by
  cases p <;> cases q <;> simp [release, Out, ThreadSafeObjectPool.out_release]

theorem free_release (s : pooled_run) (p q : logic_sptr) :
    (s.release p).Free q ↔ s.Free q ∨ q = p := by
  cases p <;> cases q <;> simp [release, Free, ThreadSafeObjectPool.free_release]

theorem not_free_of_out {s : pooled_run} {p : logic_sptr} (h : s.Out p) : ¬ s.Free p := by
  cases p <;> exact h.2

/-- Giving a logic back changes no pointer. -/
theorem release_eq (s : pooled_run) (p : logic_sptr) :
    (s.release p).sessions = s.sessions ∧ (s.release p).strand = s.strand ∧
      (s.release p).acceptor = s.acceptor ∧ (s.release p).accepted = s.accepted ∧
      (s.release p)._un_managed_sessions = s._un_managed_sessions := by
  cases p <;> exact ⟨rfl, rfl, rfl, rfl, rfl⟩

/-- Whether somebody holds a logic does not depend on the pools. -/
theorem referred_congr {s s' : pooled_run} (hsessions : s'.sessions = s.sessions)
    (hstrand : s'.strand = s.strand) (hacceptor : s'.acceptor = s.acceptor)
    (haccepted : s'.accepted = s.accepted) (p : logic_sptr) :
    s'.Referred p ↔ s.Referred p := by
  unfold Referred
  rw [hsessions, hstrand, hacceptor, haccepted]

theorem running_congr {s s' : pooled_run} (hstrand : s'.strand = s.strand)
    (haccepted : s'.accepted = s.accepted) (p : logic_sptr) : s'.Running p ↔ s.Running p := by
  unfold Running
  rw [hstrand, haccepted]

/-- `forget` gives the logic back, or does nothing. -/
theorem forget_cases (s : pooled_run) (p : logic_sptr) :
    (s.Referred p ∧ s.forget p = s) ∨ (¬ s.Referred p ∧ s.forget p = s.release p) := by
  unfold forget
  by_cases h : s.Referred p
  · exact Or.inl ⟨h, if_pos h⟩
  · exact Or.inr ⟨h, if_neg h⟩

theorem referred_forget (s : pooled_run) (p q : logic_sptr) :
    (s.forget p).Referred q ↔ s.Referred q := by
  rcases forget_cases s p with ⟨-, heq⟩ | ⟨-, heq⟩
  · rw [heq]
  · rw [heq]
    obtain ⟨hsessions, hstrand, hacceptor, haccepted, -⟩ := release_eq s p
    exact referred_congr hsessions hstrand hacceptor haccepted q

theorem running_forget (s : pooled_run) (p q : logic_sptr) :
    (s.forget p).Running q ↔ s.Running q := by
  rcases forget_cases s p with ⟨-, heq⟩ | ⟨-, heq⟩
  · rw [heq]
  · rw [heq]
    obtain ⟨-, hstrand, -, haccepted, -⟩ := release_eq s p
    exact running_congr hstrand haccepted q

theorem out_forget_of_ne {s : pooled_run} {p q : logic_sptr} (h : s.Out q) (hne : q ≠ p) :
    (s.forget p).Out q := by
  rcases forget_cases s p with ⟨-, heq⟩ | ⟨-, heq⟩
  · rw [heq]
    exact h
  · rw [heq]
    exact (out_release s p q).mpr ⟨h, hne⟩

/-! ### Every `shared_ptr` points to a logic that is out -/

structure Owned (s : pooled_run) : Prop where
  default_pool : s.default_pool.WellFormed
  server_pool : s.server_pool.WellFormed
  session : ∀ i p, (s.sessions i)._logic = some p → s.Out p
  call : ∀ i p, p ∈ (s.strand i).locals → s.Out p
  acceptor_out : ∀ p, p ∈ s.acceptor.locals → s.Out p
  /-- Nothing has happened on sessions that are not accepted. -/
  later_strand : ∀ i, s.accepted ≤ i → s.strand i = .idle
  later_session : ∀ i, s.accepted < i → (s.sessions i)._logic = none
  managed : ∀ uid i, s._un_managed_sessions._container.lookup uid = some i → i < s.accepted
  moving : ∀ i t n, (s.strand i).installs = some (t, n) → t < s.accepted

namespace Owned

variable {s s' : pooled_run}

theorem lt_of_ne_idle (h : s.Owned) {i : session_sptr} (hi : s.strand i ≠ .idle) :
    i < s.accepted := by
  by_contra hle
  exact hi (h.later_strand i (Nat.le_of_not_lt hle))

theorem referred_of_session (h : s.Owned) {i : session_sptr} {p : logic_sptr}
    (hi : (s.sessions i)._logic = some p) : s.Referred p := by
  refine Or.inl ⟨i, ?_, hi⟩
  by_contra hle
  rw [h.later_session i (by omega)] at hi
  cases hi

theorem referred_of_call (h : s.Owned) {i : session_sptr} {p : logic_sptr}
    (hi : p ∈ (s.strand i).locals) : s.Referred p := by
  refine Or.inr (Or.inl ⟨i, h.lt_of_ne_idle ?_, hi⟩)
  intro hidle
  rw [hidle] at hi
  exact absurd hi List.not_mem_nil

/-- The session whose logic is called is an accepted one. -/
theorem lt_of_this (h : s.Owned) {i : session_sptr} {p : logic_sptr}
    (hthis : (s.strand i).this = some p) : i < s.accepted := by
  refine h.lt_of_ne_idle ?_
  intro hidle
  rw [hidle] at hthis
  cases hthis

theorem running_of_this (h : s.Owned) {i : session_sptr} {p : logic_sptr}
    (hi : (s.strand i).this = some p) : s.Running p :=
  ⟨i, h.lt_of_this hi, hi⟩

theorem out_of_referred (h : s.Owned) {p : logic_sptr} (hp : s.Referred p) : s.Out p := by
  rcases hp with ⟨i, -, hi⟩ | ⟨i, -, hi⟩ | hp
  · exact h.session i p hi
  · exact h.call i p hi
  · exact h.acceptor_out p hp

/-- Only the pools change, and nothing that was out comes back. -/
theorem of_pools (h : s.Owned) (hdefault : s'.default_pool.WellFormed)
    (hserver : s'.server_pool.WellFormed) (hout : ∀ p, s.Out p → s'.Out p)
    (hsessions : s'.sessions = s.sessions) (hstrand : s'.strand = s.strand)
    (hacceptor : s'.acceptor = s.acceptor) (haccepted : s'.accepted = s.accepted)
    (hmanaged : s'._un_managed_sessions = s._un_managed_sessions) : s'.Owned where
  default_pool := hdefault
  server_pool := hserver
  session i p hi := hout p (h.session i p (hsessions ▸ hi))
  call i p hi := hout p (h.call i p (hstrand ▸ hi))
  acceptor_out p hp := hout p (h.acceptor_out p (hacceptor ▸ hp))
  later_strand i hi := by
    rw [hstrand]
    exact h.later_strand i (haccepted ▸ hi)
  later_session i hi := by
    rw [hsessions]
    exact h.later_session i (haccepted ▸ hi)
  managed uid i hi := by
    rw [haccepted]
    exact h.managed uid i (hmanaged ▸ hi)
  moving i t n hi := by
    rw [haccepted]
    exact h.moving i t n (hstrand ▸ hi)

theorem set_default (h : s.Owned) (p : Nat) (l : default_session_logic) :
    (s.set_default p l).Owned :=
  h.of_pools (h.default_pool.set _ _) h.server_pool (fun q => (out_set_default s p l q).mpr)
    rfl rfl rfl rfl rfl

theorem set_server (h : s.Owned) (p : Nat) (l : server_session_logic) :
    (s.set_server p l).Owned :=
  h.of_pools h.default_pool (h.server_pool.set _ _) (fun q => (out_set_server s p l q).mpr)
    rfl rfl rfl rfl rfl

theorem apply_session (h : s.Owned) (i : session_sptr) (p : logic_sptr) :
    (s.apply_session i p).Owned := by
  have hout : ∀ q, s.Out q → (s.apply_session i p).Out q :=
    fun q => (out_apply_session s i p q).mpr
  cases p with
  | default_session p =>
    exact h.of_pools (h.default_pool.set _ _) h.server_pool hout rfl rfl rfl rfl rfl
  | server_session p =>
    exact h.of_pools h.default_pool (h.server_pool.set _ _) hout rfl rfl rfl rfl rfl

theorem go_on (h : s.Owned) {i : session_sptr} {next : pooled_strand} (hi : i < s.accepted)
    (hlocals : ∀ p ∈ next.locals, s.Out p)
    (hinstalls : ∀ t n, next.installs = some (t, n) → t < s.accepted) :
    (s.go_on i next).Owned where
  default_pool := h.default_pool
  server_pool := h.server_pool
  session j p hj := (out_go_on s i next p).mpr (h.session j p hj)
  call j p hj := by
    rw [out_go_on]
    by_cases hji : j = i
    · rw [hji, strand_go_on_self] at hj
      exact hlocals p hj
    · rw [strand_go_on_ne hji] at hj
      exact h.call j p hj
  acceptor_out p hp := (out_go_on s i next p).mpr (h.acceptor_out p hp)
  later_strand j hj := by
    have hji : j ≠ i := fun heq => absurd hi (Nat.not_lt.mpr (heq ▸ hj))
    rw [strand_go_on_ne hji]
    exact h.later_strand j hj
  later_session := h.later_session
  managed := h.managed
  moving j t n hj := by
    by_cases hji : j = i
    · rw [hji, strand_go_on_self] at hj
      exact hinstalls t n hj
    · rw [strand_go_on_ne hji] at hj
      exact h.moving j t n hj

theorem returns (h : s.Owned) {i : session_sptr} (hi : i < s.accepted) :
    (s.go_on i .idle).Owned :=
  h.go_on hi nofun nofun

/-- The table of game servers holds no logics. -/
theorem enter_server (h : s.Owned) (servers : SafeHashMap session_uid session_sptr) :
    { s with _server_sessions := servers : pooled_run }.Owned :=
  h.of_pools h.default_pool h.server_pool (fun p => (out_congr rfl rfl p).mpr)
    rfl rfl rfl rfl rfl

theorem set_session (h : s.Owned) {i : session_sptr}
    (session : basic_async_session (Option logic_sptr)) (hi : i ≤ s.accepted)
    (hlogic : ∀ p, session._logic = some p → s.Out p) : (s.set_session i session).Owned where
  default_pool := h.default_pool
  server_pool := h.server_pool
  session j p hj := by
    rw [out_set_session]
    by_cases hji : j = i
    · rw [hji, sessions_set_session_self] at hj
      exact hlogic p hj
    · rw [sessions_set_session_ne hji] at hj
      exact h.session j p hj
  call j p hj := (out_set_session s i session p).mpr (h.call j p hj)
  acceptor_out p hp := (out_set_session s i session p).mpr (h.acceptor_out p hp)
  later_strand := h.later_strand
  later_session j hj := by
    have hji : j ≠ i := fun heq => absurd hi (Nat.not_le.mpr (heq ▸ hj))
    rw [sessions_set_session_ne hji]
    exact h.later_session j hj
  managed := h.managed
  moving := h.moving

/-- A `shared_ptr` that is gone leaves the others their logics. -/
theorem forget (h : s.Owned) {p : logic_sptr} (hp : s.Out p) : (s.forget p).Owned := by
  rcases forget_cases s p with ⟨-, heq⟩ | ⟨hnone, heq⟩
  · rw [heq]
    exact h
  rw [heq]
  obtain ⟨hsessions, hstrand, hacceptor, haccepted, hmanaged⟩ := release_eq s p
  have hout : ∀ q, s.Out q → q ≠ p → (s.release p).Out q :=
    fun q hq hne => (out_release s p q).mpr ⟨hq, hne⟩
  have hpools : (s.release p).default_pool.WellFormed ∧ (s.release p).server_pool.WellFormed := by
    cases p with
    | default_session p => exact ⟨h.default_pool.release hp, h.server_pool⟩
    | server_session p => exact ⟨h.default_pool, h.server_pool.release hp⟩
  exact {
    default_pool := hpools.1
    server_pool := hpools.2
    session := by
      intro i q hi
      rw [hsessions] at hi
      exact hout q (h.session i q hi) (fun heq => hnone (heq ▸ h.referred_of_session hi))
    call := by
      intro i q hi
      rw [hstrand] at hi
      exact hout q (h.call i q hi) (fun heq => hnone (heq ▸ h.referred_of_call hi))
    acceptor_out := by
      intro q hq
      rw [hacceptor] at hq
      exact hout q (h.acceptor_out q hq) (fun heq => hnone (heq ▸ Or.inr (Or.inr hq)))
    later_strand := by
      rw [hstrand, haccepted]
      exact h.later_strand
    later_session := by
      rw [hsessions, haccepted]
      exact h.later_session
    managed := by
      rw [hmanaged, haccepted]
      exact h.managed
    moving := by
      rw [hstrand, haccepted]
      exact h.moving }

/-- Several of them. -/
theorem forget_all (ps : List logic_sptr) (h : s.Owned) (hnodup : ps.Nodup)
    (hout : ∀ p ∈ ps, s.Out p) : (ps.foldl pooled_run.forget s).Owned := by
  induction ps generalizing s with
  | nil => exact h
  | cons p ps ih =>
    rw [List.nodup_cons] at hnodup
    refine ih (h.forget (hout p List.mem_cons_self)) hnodup.2 ?_
    intro q hq
    have hne : q ≠ p := fun heq => hnodup.1 (heq ▸ hq)
    exact out_forget_of_ne (hout q (List.mem_cons_of_mem p hq)) hne

end Owned

/-! ### What a step of a strand does -/

/-- The call on `this` goes on or returns; the logic keeps its cipher and its
    target, and nothing else changes. -/
def Proceeds (s : pooled_run) (i : session_sptr) (this : Nat) (s' : pooled_run) : Prop :=
  ∃ l next, s' = (s.set_default this l).go_on i next ∧
    l._rc4_info = (s.default_pool.objects this).logic._rc4_info ∧
    l._target_uid = (s.default_pool.objects this).logic._target_uid ∧
    (next.this = none ∨ next.this = some (.default_session this)) ∧
    next.locals = [] ∧ next.installs = none

theorem set_default_self (s : pooled_run) (this : Nat) :
    s.set_default this (s.default_pool.objects this).logic = s := by
  unfold set_default ThreadSafeObjectPool.set
  rw [Function.update_eq_self]

theorem proceeds_go_on {s : pooled_run} {i : session_sptr} {this : Nat} {next : pooled_strand}
    (hthis : next.this = none ∨ next.this = some (.default_session this))
    (hlocals : next.locals = []) (hinstalls : next.installs = none) :
    s.Proceeds i this (s.go_on i next) :=
  ⟨_, next, by rw [set_default_self], rfl, rfl, hthis, hlocals, hinstalls⟩

theorem proceeds_echo (s : pooled_run) (i : session_sptr) (this : Nat) (holder : session_sptr)
    (verified : Bool) : s.Proceeds i this (s.go_on i (.echo this holder verified)) :=
  proceeds_go_on (Or.inr rfl) rfl rfl

theorem unwrap_default_eq_ok {s s' : pooled_run} {i : session_sptr} {this : Nat}
    {buffer : once_buffer} {head : protocol_head}
    (h : s.unwrap_default i this buffer head = .ok s') : s.Proceeds i this s' := by
  unfold unwrap_default at h
  simp only at h
  split at h
  · cases h
    exact ⟨_, .idle, rfl, rfl, rfl, Or.inl rfl, rfl, rfl⟩
  obtain ⟨body, -, h⟩ := bind_eq_ok.mp h
  split at h
  · cases h
    exact ⟨_, .idle, rfl, rfl, rfl, Or.inl rfl, rfl, rfl⟩
  split at h
  · cases h
    exact ⟨_, .verify this buffer head.get_cmd, rfl, rfl, rfl, Or.inr rfl, rfl, rfl⟩
  · cases h
    exact ⟨_, .idle, rfl, rfl, rfl, Or.inl rfl, rfl, rfl⟩

theorem unwrap_server_eq_ok {stale : Nat → UInt8} {s s' : pooled_run} {i : session_sptr}
    {this : Nat} {buffer : once_buffer} {head : protocol_head}
    (h : unwrap_server stale s i this buffer head = .ok s') :
    ∃ l next, s' = (s.set_server this l).go_on i next ∧
      (next = .idle ∨ ∃ logic, (s.sessions i)._logic = some logic ∧ next = .copy logic) := by
  unfold unwrap_server at h
  simp only at h
  obtain ⟨r, -, h⟩ := bind_eq_ok.mp h
  split at h
  · cases h
    exact ⟨_, .idle, rfl, Or.inl rfl⟩
  split at h
  · cases h
  · next logic hlogic =>
    cases h
    exact ⟨_, .copy logic, rfl, Or.inr ⟨logic, hlogic, rfl⟩⟩

theorem verify_authentication_eq_ok {s s' : pooled_run} {i : session_sptr} {this : Nat}
    {tmp_buffer : once_buffer} {cmd : UInt16}
    (h : s.verify_authentication i this tmp_buffer cmd = .ok s') : s.Proceeds i this s' := by
  unfold verify_authentication at h
  obtain ⟨aaa_request, -, h⟩ := bind_eq_ok.mp h
  simp only at h
  split at h
  · cases h
    exact ⟨_, .idle, rfl, rfl, rfl, Or.inl rfl, rfl, rfl⟩
  · next holder _ =>
    split at h
    · cases h
      exact ⟨_, .echo this holder false, rfl, rfl, rfl, Or.inr rfl, rfl, rfl⟩
    · cases h
      exact ⟨_, .ask this holder aaa_request.link_type, rfl, rfl, rfl, Or.inr rfl, rfl, rfl⟩

theorem proceeds_ask_proxy (s : pooled_run) (i : session_sptr) (this : Nat)
    (holder : session_sptr) (session_type_ : SessionType) :
    s.Proceeds i this (s.ask_proxy i this holder session_type_) := by
  unfold ask_proxy
  split
  · exact proceeds_echo ..
  split
  · split
    · exact proceeds_echo ..
    · exact proceeds_go_on (Or.inr rfl) rfl rfl
  · exact proceeds_echo ..

theorem move_server_available_eq_ok {s s' : pooled_run} {i : session_sptr} {thread this : Nat}
    {holder : session_sptr} {server_uid : session_uid}
    (h : s.move_server_available i thread this holder server_uid = .ok s') :
    s.Proceeds i this s' ∨
      ∃ s_s default_logic, s._un_managed_sessions._container.lookup server_uid = some s_s ∧
        (s.sessions s_s)._logic = some (.default_session default_logic) ∧
        s' = (s.trans_to_server thread default_logic).2.go_on i
          (.modify this holder server_uid s_s default_logic
            (s.trans_to_server thread default_logic).1) := by
  unfold move_server_available at h
  rw [SafeHashMap.try_get_eq] at h
  split at h
  · cases h
    exact Or.inl (proceeds_echo ..)
  next s_s hs =>
  split at h
  · cases h
  next origin_logic hlogic =>
  split at h
  · cases h
    exact Or.inl (proceeds_echo ..)
  cases origin_logic with
  | default_session default_logic =>
    cases h
    exact Or.inr ⟨s_s, default_logic, hs, hlogic, rfl⟩
  | server_session p => cases h

theorem echo_authentication_res_eq_ok {z : zlib} {stale : recycled} {s s' : pooled_run}
    {i : session_sptr} {this : Nat} {verified : Bool}
    (h : echo_authentication_res z stale s i this verified = .ok s') :
    s.Proceeds i this s' ∨
      ∃ l send_buffer target session,
        l._rc4_info = (s.default_pool.objects this).logic._rc4_info ∧
        l._target_uid = (s.default_pool.objects this).logic._target_uid ∧
        l.pack_authentication_res (stale 0) (verdict verified).2 = .ok send_buffer ∧
        (s.default_pool.objects this)._session_holder = some target ∧
        (s.sessions target)._logic.isSome ∧
        session._logic = (s.sessions target)._logic ∧
        s' = { ((s.set_default this l).set_session target session).go_on i .idle with
          replies := s.replies ++
            [{ asker := i, send_buffer := send_buffer, target := target }] } := by
  unfold echo_authentication_res at h
  simp only at h
  obtain ⟨send_buffer, hpack, h⟩ := bind_eq_ok.mp h
  split at h
  · cases h
    exact Or.inl ⟨_, .idle, rfl, rfl, rfl, Or.inl rfl, rfl, rfl⟩
  next target htarget =>
  obtain ⟨session, hsend, h⟩ := bind_eq_ok.mp h
  cases h
  have hlock := Option.filter_eq_some_iff.mp htarget
  have hholder : (s.default_pool.objects this)._session_holder = some target := by
    have hset := hlock.1
    simpa [set_default] using hset
  refine Or.inr ⟨{ (s.default_pool.objects this).logic with
    _authentication := (verdict verified).1 }, send_buffer, target, session, rfl, rfl, hpack,
    hholder, hlock.2, ?_, rfl⟩
  -- sending leaves the session its logic
  rcases basic_async_session.async_send_eq_ok hsend with rfl | ⟨r, region, hwrap, rfl⟩
  · rfl
  · rw [basic_async_session.logic_async_write_some,
      basic_async_session.logic_modify_session_logic]
    unfold wrap_to_send_data at hwrap
    split at hwrap
    · cases hwrap
    · next p hp =>
      obtain ⟨w, -, hwrap⟩ := bind_eq_ok.mp hwrap
      cases hwrap
      exact hp.symm

/-- The state when a promotion has let go of its logics, before any deleter runs. -/
def let_go (s : pooled_run) (i : session_sptr) : pooled_run :=
  match s.strand i with
  | .modify this holder server_uid s_s default_logic new_server_logic =>
    s.install i this holder server_uid s_s default_logic new_server_logic
  | .leave this holder _ _ _ => s.go_on i (.echo this holder true)
  | _ => s

/-- **One step of a strand.** -/
theorem step_strand_cases {z : zlib} {stale : recycled} {thread : Nat} {s s' : pooled_run}
    {i : session_sptr} (h : s.step_strand z stale thread i = .ok s') :
    s' = s ∨
    (∃ this, (s.strand i).this = some (.default_session this) ∧ s.Proceeds i this s') ∨
    (∃ this l next, (s.strand i).this = some (.server_session this) ∧
      s' = (s.set_server this l).go_on i next ∧
      (next = .idle ∨ ∃ logic, (s.sessions i)._logic = some logic ∧ next = .copy logic)) ∨
    (s.strand i ≠ .idle ∧ s' = s.go_on i .idle) ∨
    (∃ this holder server_uid s_s default_logic,
      s.strand i = .move this holder server_uid ∧
      s._un_managed_sessions._container.lookup server_uid = some s_s ∧
      (s.sessions s_s)._logic = some (.default_session default_logic) ∧
      s' = (s.trans_to_server thread default_logic).2.go_on i
        (.modify this holder server_uid s_s default_logic
          (s.trans_to_server thread default_logic).1)) ∨
    (((∃ this holder server_uid s_s default_logic new_server_logic,
        s.strand i = .modify this holder server_uid s_s default_logic new_server_logic) ∨
      ∃ this holder s_s default_logic new_server_logic,
        s.strand i = .leave this holder s_s default_logic new_server_logic) ∧
      s' = (s.lets_go i).foldl forget (s.let_go i)) ∨
    (∃ this holder verified, s.strand i = .echo this holder verified ∧
      echo_authentication_res z stale s i this verified = .ok s' ∧ ¬ s.Proceeds i this s') := by
  unfold step_strand at h
  cases hstrand : s.strand i with
  | idle =>
    rw [hstrand] at h
    exact Or.inl (Except.ok.inj h).symm
  | unwrap this buffer head =>
    -- the frame is unwrapped and copied: server logics are done with that
    rw [hstrand] at h
    cases this with
    | default_session this =>
      exact Or.inr (Or.inl ⟨this, rfl, unwrap_default_eq_ok h⟩)
    | server_session this =>
      obtain ⟨l, next, hs', hnext⟩ := unwrap_server_eq_ok h
      exact Or.inr (Or.inr (Or.inl ⟨this, l, next, rfl, hs', hnext⟩))
  | copy this =>
    rw [hstrand] at h
    exact Or.inr (Or.inr (Or.inr (Or.inl ⟨nofun, (Except.ok.inj h).symm⟩)))
  | verify this tmp_buffer cmd =>
    -- a default logic goes on to ask the proxy
    rw [hstrand] at h
    exact Or.inr (Or.inl ⟨this, rfl, verify_authentication_eq_ok h⟩)
  | ask this holder session_type_ =>
    rw [hstrand] at h
    obtain rfl := Except.ok.inj h
    exact Or.inr (Or.inl ⟨this, rfl, proceeds_ask_proxy ..⟩)
  | move this holder server_uid =>
    -- a promotion: the new logic is made, installed, and the holders are given up
    rw [hstrand] at h
    rcases move_server_available_eq_ok h with hproceeds | ⟨s_s, default_logic, hs, hlogic, hs'⟩
    · exact Or.inr (Or.inl ⟨this, rfl, hproceeds⟩)
    · exact Or.inr (Or.inr (Or.inr (Or.inr (Or.inl
        ⟨this, holder, server_uid, s_s, default_logic, rfl, hs, hlogic, hs'⟩))))
  | modify this holder server_uid s_s default_logic new_server_logic =>
    rw [hstrand] at h
    have hlet : s.let_go i =
        s.install i this holder server_uid s_s default_logic new_server_logic := by
      unfold let_go
      rw [hstrand]
    rw [hlet]
    exact Or.inr (Or.inr (Or.inr (Or.inr (Or.inr (Or.inl
      ⟨Or.inl ⟨_, _, _, _, _, _, rfl⟩, (Except.ok.inj h).symm⟩)))))
  | leave this holder s_s default_logic new_server_logic =>
    rw [hstrand] at h
    have hlet : s.let_go i = s.go_on i (.echo this holder true) := by
      unfold let_go
      rw [hstrand]
    rw [hlet]
    exact Or.inr (Or.inr (Or.inr (Or.inr (Or.inr (Or.inl
      ⟨Or.inr ⟨_, _, _, _, _, rfl⟩, (Except.ok.inj h).symm⟩)))))
  | echo this holder verified =>
    -- the response is written, by whatever logic the session holds then
    rw [hstrand] at h
    by_cases hproceeds : s.Proceeds i this s'
    · exact Or.inr (Or.inl ⟨this, rfl, hproceeds⟩)
    · exact Or.inr (Or.inr (Or.inr (Or.inr (Or.inr (Or.inr
        ⟨this, holder, verified, rfl, h, hproceeds⟩)))))

/-! ### Every step keeps it -/

/-- A new server logic comes out of the pool. -/
theorem trans_to_server_spec {s : pooled_run} (hpool : s.server_pool.WellFormed)
    (thread default_logic : Nat) :
    (s.trans_to_server thread default_logic).2.server_pool.WellFormed ∧
      ¬ s.Out (.server_session (s.trans_to_server thread default_logic).1) ∧
      ∀ p, (s.trans_to_server thread default_logic).2.Out p ↔
        s.Out p ∨ p = .server_session (s.trans_to_server thread default_logic).1 := by
  obtain ⟨hwell, hnew, hout⟩ := hpool.get_shared thread
  refine ⟨hwell.set _ _, hnew, ?_⟩
  intro p
  cases p with
  | default_session p =>
    show s.default_pool.Out p ↔ s.default_pool.Out p ∨ _
    simp
  | server_session p =>
    show (s.server_pool.get_shared thread).2.Out p ↔
      s.server_pool.Out p ∨ logic_sptr.server_session p = .server_session _
    rw [hout p, logic_sptr.server_session.injEq]
    rfl

namespace Owned

variable {s s' : pooled_run} {i : session_sptr}

theorem proceeds (h : s.Owned) (hi : i < s.accepted) {this : Nat}
    (hproceeds : s.Proceeds i this s') : s'.Owned := by
  obtain ⟨l, next, rfl, -, -, -, hlocals, hinstalls⟩ := hproceeds
  refine (h.set_default this l).go_on hi ?_ ?_
  · intro p hp
    rw [hlocals] at hp
    exact absurd hp List.not_mem_nil
  · intro t n hn
    rw [hinstalls] at hn
    cases hn

theorem trans_to_server (h : s.Owned) (thread default_logic : Nat) :
    (s.trans_to_server thread default_logic).2.Owned := by
  obtain ⟨hwell, -, hout⟩ := trans_to_server_spec h.server_pool thread default_logic
  exact h.of_pools h.default_pool hwell (fun p hp => (hout p).mpr (Or.inl hp)) rfl rfl rfl rfl rfl

/-- What a promotion lets go of is out until then. -/
theorem out_lets_go (h : s.Owned) : ∀ p ∈ s.lets_go i, s.Out p := by
  intro p hp
  unfold lets_go at hp
  split at hp
  · next hstrand => exact h.session _ p (Option.mem_toList.mp hp)
  · next hstrand =>
    refine h.call i p ?_
    rw [hstrand]
    exact hp
  · exact absurd hp List.not_mem_nil

theorem nodup_lets_go (s : pooled_run) (i : session_sptr) : (s.lets_go i).Nodup := by
  unfold lets_go
  split
  · next s_s _ _ _ =>
    cases (s.sessions s_s)._logic with
    | none => exact List.nodup_nil
    | some p => exact List.nodup_singleton p
  · simp
  · exact List.nodup_nil

theorem out_let_go (p : logic_sptr) : (s.let_go i).Out p ↔ s.Out p := by
  unfold let_go
  split
  · unfold install modify_session_logic
    rw [out_go_on]
    show ((s.set_session _ _).apply_session _ _).Out p ↔ s.Out p
    rw [out_apply_session, out_set_session]
  · exact out_go_on ..
  · exact Iff.rfl

theorem let_go (h : s.Owned) (hi : i < s.accepted) : (s.let_go i).Owned := by
  unfold pooled_run.let_go
  split
  · next this holder server_uid s_s default_logic new_server_logic hstrand =>
    have hlocals : ∀ p ∈ (s.strand i).locals, s.Out p := h.call i
    rw [hstrand] at hlocals
    have hs_s : s_s < s.accepted := h.moving i s_s new_server_logic (by rw [hstrand]; rfl)
    have hmodified : (s.modify_session_logic s_s (.server_session new_server_logic)).Owned := by
      refine (h.set_session _ (Nat.le_of_lt hs_s) ?_).apply_session s_s _
      intro p hp
      rw [basic_async_session.logic_modify_session_logic] at hp
      cases hp
      exact hlocals _ List.mem_cons_self
    refine (hmodified.enter_server (s._server_sessions.insert server_uid s_s).1).go_on hi ?_ nofun
    intro p hp
    have hout : (s.let_go i).Out p := (out_let_go p).mpr (hlocals p hp)
    unfold pooled_run.let_go at hout
    rw [hstrand] at hout
    exact (out_go_on ..).mp hout
  · exact h.go_on hi nofun nofun
  · exact h

/-- A step of a strand. -/
theorem step_strand {z : zlib} {stale : recycled} {thread : Nat} (h : s.Owned)
    (hstep : s.step_strand z stale thread i = .ok s') : s'.Owned := by
  rcases step_strand_cases hstep with rfl | ⟨this, hthis, hproceeds⟩ |
    ⟨this, l, next, hthis, rfl, hnext⟩ | ⟨hbusy, rfl⟩ |
    ⟨this, holder, server_uid, s_s, default_logic, hstrand, hfound, hlogic, rfl⟩ |
    ⟨hstrand, rfl⟩ | ⟨this, holder, verified, hstrand, hecho, hother⟩
  · exact h
  · exact h.proceeds (h.lt_of_this hthis) hproceeds
  · refine (h.set_server this l).go_on (h.lt_of_this hthis) ?_ ?_
    · rcases hnext with rfl | ⟨logic, -, rfl⟩ <;> exact nofun
    · rcases hnext with rfl | ⟨logic, -, rfl⟩ <;> exact nofun
  · exact h.returns (h.lt_of_ne_idle hbusy)
  · obtain ⟨-, -, hout⟩ := trans_to_server_spec h.server_pool thread default_logic
    have hi : i < s.accepted := h.lt_of_ne_idle (by rw [hstrand]; exact nofun)
    refine (h.trans_to_server thread default_logic).go_on hi ?_ ?_
    · intro p hp
      rw [hout p]
      rcases List.mem_cons.mp hp with rfl | hp
      · exact Or.inr rfl
      · rw [List.mem_singleton.mp hp]
        exact Or.inl (h.session s_s _ hlogic)
    · intro t n hn
      cases hn
      exact h.managed server_uid s_s hfound
  · have hi : i < s.accepted := by
      refine h.lt_of_ne_idle ?_
      rcases hstrand with ⟨_, _, _, _, _, _, hstrand⟩ | ⟨_, _, _, _, _, hstrand⟩
      · rw [hstrand]
        exact nofun
      · rw [hstrand]
        exact nofun
    exact forget_all _ (h.let_go hi) (nodup_lets_go s i)
      (fun p hp => (out_let_go p).mpr (h.out_lets_go p hp))
  · have hi : i < s.accepted := h.lt_of_ne_idle (by rw [hstrand]; exact nofun)
    rcases echo_authentication_res_eq_ok hecho with hproceeds |
      ⟨l, send_buffer, target, session, -, -, -, -, halive, hsession, rfl⟩
    · exact absurd hproceeds hother
    have htarget : target ≤ s.accepted := by
      by_contra hlt
      rw [h.later_session target (Nat.lt_of_not_le hlt)] at halive
      cases halive
    have hsent := ((h.set_default this l).set_session session htarget (by
      intro p hp
      rw [hsession] at hp
      exact (h.set_default this l).session target p hp)).returns hi
    exact hsent.of_pools hsent.default_pool hsent.server_pool
      (fun p => (out_congr rfl rfl p).mpr) rfl rfl rfl rfl rfl

/-- The acceptor takes a logic. -/
theorem take (h : s.Owned) (clock : Nat) (new_session : basic_async_session (Option logic_sptr))
    (hnew : new_session._logic = none) :
    { s.set_session s.accepted new_session with
      default_pool := (s.default_pool.get_shared acceptor_thread).2
      acceptor := .taken (s.default_pool.get_shared acceptor_thread).1
      clock := clock : pooled_run }.Owned := by
  obtain ⟨hwell, -, hout⟩ := h.default_pool.get_shared acceptor_thread
  have hsession := h.set_session new_session (Nat.le_refl _) (by
    intro p hp
    rw [hnew] at hp
    cases hp)
  have hkept : ∀ p, s.Out p → { s.set_session s.accepted new_session with
      default_pool := (s.default_pool.get_shared acceptor_thread).2
      acceptor := .taken (s.default_pool.get_shared acceptor_thread).1
      clock := clock : pooled_run }.Out p := by
    intro p hp
    cases p with
    | default_session p => exact (hout p).mpr (Or.inl hp)
    | server_session p => exact hp
  exact {
    default_pool := hwell
    server_pool := h.server_pool
    session := fun j p hj => hkept p ((out_set_session ..).mp (hsession.session j p hj))
    call := fun j p hj => hkept p ((out_set_session ..).mp (hsession.call j p hj))
    acceptor_out := by
      intro p hp
      rw [List.mem_singleton.mp hp]
      exact (hout _).mpr (Or.inr rfl)
    later_strand := hsession.later_strand
    later_session := hsession.later_session
    managed := hsession.managed
    moving := hsession.moving }

/-- The acceptor goes on with the logic it has. -/
theorem of_acceptor (h : s.Owned) (acceptor : acceptor_strand)
    (hlocals : ∀ p ∈ acceptor.locals, s.Out p) :
    { s with acceptor := acceptor : pooled_run }.Owned where
  default_pool := h.default_pool
  server_pool := h.server_pool
  session j p hj := (out_congr rfl rfl p).mpr (h.session j p hj)
  call j p hj := (out_congr rfl rfl p).mpr (h.call j p hj)
  acceptor_out p hp := (out_congr rfl rfl p).mpr (hlocals p hp)
  later_strand := h.later_strand
  later_session := h.later_session
  managed := h.managed
  moving := h.moving

/-- The connected session gets its place and the acceptor turns to the next one. -/
theorem accept (h : s.Owned) (session : basic_async_session (Option logic_sptr))
    (hlogic : session._logic = (s.sessions s.accepted)._logic) (uid : session_uid) :
    { s.set_session s.accepted session with
      _un_managed_sessions := (s._un_managed_sessions.insert uid s.accepted).1
      acceptor := .idle
      accepted := s.accepted + 1 : pooled_run }.Owned := by
  have hsession := h.set_session session (Nat.le_refl _) (by
    intro p hp
    rw [hlogic] at hp
    exact h.session _ p hp)
  have hidle := hsession.of_acceptor .idle nofun
  exact {
    default_pool := hidle.default_pool
    server_pool := hidle.server_pool
    session := fun j p hj => (out_congr rfl rfl p).mpr (hidle.session j p hj)
    call := fun j p hj => (out_congr rfl rfl p).mpr (hidle.call j p hj)
    acceptor_out := nofun
    later_strand := fun j hj => hidle.later_strand j (Nat.le_of_succ_le hj)
    later_session := fun j hj => hidle.later_session j (Nat.lt_of_succ_lt hj)
    managed := by
      intro uid' j hj
      by_cases huid : uid ∈ s._un_managed_sessions._container
      · rw [SafeHashMap.insert_of_mem huid] at hj
        exact Nat.lt_succ_of_lt (h.managed uid' j hj)
      by_cases hsame : uid' = uid
      · rw [hsame, SafeHashMap.lookup_insert_self huid] at hj
        cases hj
        exact Nat.lt_succ_self _
      · rw [SafeHashMap.lookup_insert_ne hsame] at hj
        exact Nat.lt_succ_of_lt (h.managed uid' j hj)
    moving := fun j t n hj => Nat.lt_succ_of_lt (hidle.moving j t n hj) }

/-- A session is gone, and with it its `shared_ptr`. -/
theorem destroy (h : s.Owned) (hi : i < s.accepted) :
    ((s.sessions i)._logic.toList.foldl pooled_run.forget
      (s.set_session i { s.sessions i with _logic := none })).Owned := by
  have hgone := h.set_session { s.sessions i with _logic := none } (Nat.le_of_lt hi) nofun
  refine forget_all _ hgone ?_ ?_
  · cases (s.sessions i)._logic with
    | none => exact List.nodup_nil
    | some p => exact List.nodup_singleton p
  · intro p hp
    exact (out_set_session ..).mpr (h.session i p (Option.mem_toList.mp hp))

end Owned

theorem step_strand_of_exec {z : zlib} {s s' : pooled_run} {i : session_sptr} {stale : recycled}
    {thread : Nat} (h : exec z s (.strand i stale thread) = some s') :
    s.step_strand z stale thread i = .ok s' := by
  simp only [exec] at h
  cases hs : s.step_strand z stale thread i with
  | ok t =>
    rw [hs] at h
    exact congrArg Except.ok (Option.some.inj h)
  | error e =>
    rw [hs] at h
    cases h

/-- A step that lets go of logics does nothing else. -/
theorem step_strand_of_lets_go {z : zlib} {stale : recycled} {thread : Nat} {s s' : pooled_run}
    {i : session_sptr} (h : s.step_strand z stale thread i = .ok s') (hlets : s.lets_go i ≠ []) :
    s' = (s.lets_go i).foldl forget (s.let_go i) := by
  unfold step_strand at h
  cases hstrand : s.strand i with
  | modify this holder server_uid s_s default_logic new_server_logic =>
    rw [hstrand] at h
    unfold let_go
    rw [hstrand]
    exact (Except.ok.inj h).symm
  | leave this holder s_s default_logic new_server_logic =>
    rw [hstrand] at h
    unfold let_go
    rw [hstrand]
    exact (Except.ok.inj h).symm
  | _ =>
    refine absurd ?_ hlets
    unfold lets_go
    rw [hstrand]

/-- **One step of the proxy.** -/
theorem owned_step {z : zlib} {s s' : pooled_run} {e : pooled_event} (h : s.Owned)
    (hstep : exec z s e = some s') : s'.Owned := by
  cases e with
  | take clock =>
    simp only [exec] at hstep
    split at hstep
    · split at hstep
      · cases hstep
        exact h.take clock _ rfl
      · cases hstep
    · cases hstep
  | reset new_one =>
    simp only [exec] at hstep
    split at hstep
    · next p hacceptor =>
      cases hstep
      refine (h.set_default p _).of_acceptor (.reset p) ?_
      intro q hq
      refine (out_set_default ..).mpr (h.acceptor_out q ?_)
      rw [hacceptor]
      exact hq
    · cases hstep
  | apply =>
    simp only [exec] at hstep
    split at hstep
    · next p hacceptor =>
      cases hstep
      have hp : s.Out (.default_session p) := by
        refine h.acceptor_out _ ?_
        rw [hacceptor]
        exact List.mem_singleton_self _
      have hmodified : (s.modify_session_logic s.accepted (.default_session p)).Owned := by
        refine (h.set_session _ (Nat.le_refl _) ?_).apply_session s.accepted _
        intro q hq
        rw [basic_async_session.logic_modify_session_logic] at hq
        cases hq
        exact hp
      have happlied := hmodified.of_acceptor .applied nofun
      exact happlied.of_pools happlied.default_pool happlied.server_pool
        (fun q => (out_congr rfl rfl q).mpr) rfl rfl rfl rfl rfl
    · cases hstep
  | accept ip =>
    simp only [exec] at hstep
    split at hstep
    · cases hstep
      exact h.accept { s.sessions s.accepted with _state := .CONNECTING, remote_ip := ip } rfl _
    · cases hstep
  | frame i stale head body =>
    simp only [exec] at hstep
    split at hstep
    · split at hstep
      · next hframe =>
        cases hstep
        exact h.go_on hframe.1 nofun nofun
      · cases hstep
    · cases hstep
  | strand i stale thread =>
    exact h.step_strand (step_strand_of_exec hstep)
  | socket i state =>
    obtain ⟨hsocket, hstep⟩ := Option.ite_none_right_eq_some.mp hstep
    cases hstep
    exact h.set_session _ (Nat.le_of_lt hsocket.1) (h.session i)
  | destroy i =>
    obtain ⟨habandoned, hstep⟩ := Option.ite_none_right_eq_some.mp hstep
    cases hstep
    exact h.destroy habandoned.1

theorem owned_of_starts {s : pooled_run} (h : s.Starts) : s.Owned where
  default_pool := {
    nodup := fun thread => by rw [h.default_pool.1]; exact List.nodup_nil
    one_list := fun p thread _ hp => by rw [h.default_pool.1] at hp; cases hp
    constructed := fun p ⟨thread, hp⟩ => by rw [h.default_pool.1] at hp; cases hp }
  server_pool := {
    nodup := fun thread => by rw [h.server_pool.1]; exact List.nodup_nil
    one_list := fun p thread _ hp => by rw [h.server_pool.1] at hp; cases hp
    constructed := fun p ⟨thread, hp⟩ => by rw [h.server_pool.1] at hp; cases hp }
  session i p hi := by
    rw [h.sessions i] at hi
    cases hi
  call i p hi := by
    rw [h.strand i] at hi
    cases hi
  acceptor_out p hp := by
    rw [h.acceptor] at hp
    cases hp
  later_strand i _ := h.strand i
  later_session i _ := h.sessions i
  managed uid i hi := by
    rw [h.un_managed] at hi
    cases hi
  moving i t n hi := by
    rw [h.strand i] at hi
    cases hi

theorem owned_of_reachable {z : zlib} {s : pooled_run} (hr : (system z).Reachable s) : s.Owned :=
  System.invariant (fun _ => owned_of_starts) (fun _ _ _ => owned_step) s hr

/-- **No `shared_ptr` into a free list.** In every run, the logics that sessions, calls
    and the acceptor hold are in no free list. -/
theorem not_free_of_reachable {z : zlib} {s : pooled_run} (hr : (system z).Reachable s)
    {p : logic_sptr} (hp : s.Referred p) : ¬ s.Free p :=
  not_free_of_out ((owned_of_reachable hr).out_of_referred hp)

end pooled_run

end AsioNet
