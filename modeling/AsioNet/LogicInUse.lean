import AsioNet.LogicRuns
import AsioNet.ProxyRuns

/-! # A logic that is running is not given back

    An ordinary game server finds itself under its own uid, so its promotion gives back
    the very logic that asked for it. The acceptor may then take that logic for another
    session, and the response goes there with that session's key. `Harmless` excludes
    the steps in which a promotion gives back a logic while one of its member functions
    is running; without them everything stays in order, and not one step longer
    (`in_order_iff`).
-/

namespace AsioNet

open TransitionSystem reusabel_buffer proto_mask

/-- What a call installs it also holds. -/
theorem pooled_strand.mem_locals_of_installs {c : pooled_strand} {t : session_sptr} {n : Nat}
    (h : c.installs = some (t, n)) : logic_sptr.server_session n ∈ c.locals := by
  cases c with
  | modify this holder server_uid s_s default_logic new_server_logic =>
    cases h
    exact List.mem_cons_self
  | _ => cases h

namespace pooled_run

/-! ### What is to be shown -/

/-- The response is made of the key and the target the asking session was given, and
    it is sent to that session. -/
def OwnReply (s : pooled_run) (r : authentication_reply) : Prop :=
  r.target = r.asker ∧ ∃ info ec, r.send_buffer.content.take 18 =
    { s.given r.asker with _server_info := info }.response_fields ec

structure InOrder (s : pooled_run) : Prop where
  not_free : ∀ p, s.Referred p ∨ s.Running p → ¬ s.Free p
  own_reply : ∀ r ∈ s.replies, s.OwnReply r

/-- Of the logics a promotion lets go of, each is still held by somebody or has no
    running member function. -/
def Harmless (s : pooled_run) : pooled_event → Prop
  | .strand i _ _ => ∀ p ∈ s.lets_go i, (s.let_go i).Referred p ∨ ¬ s.Running p
  | _ => True

instance (s : pooled_run) (e : pooled_event) : Decidable (s.Harmless e) := by
  unfold Harmless
  split <;> infer_instance

/-- A `shared_ptr` outside the call on session `i` points to the logic. -/
def HeldBesides (s : pooled_run) (i : session_sptr) (p : logic_sptr) : Prop :=
  (∃ j, j < s.accepted + 1 ∧ (s.sessions j)._logic = some p) ∨
    (∃ j, j < s.accepted ∧ j ≠ i ∧ p ∈ (s.strand j).locals) ∨ p ∈ s.acceptor.locals

theorem referred_go_on_iff {s : pooled_run} {i : session_sptr} {next : pooled_strand}
    (hlocals : next.locals = []) (p : logic_sptr) :
    (s.go_on i next).Referred p ↔ s.HeldBesides i p := by
  have hcall (j : session_sptr) :
      p ∈ ((s.go_on i next).strand j).locals ↔ j ≠ i ∧ p ∈ (s.strand j).locals := by
    by_cases hji : j = i
    · rw [hji, strand_go_on_self, hlocals]
      exact iff_of_false List.not_mem_nil fun h => h.1 rfl
    · rw [strand_go_on_ne hji]
      exact (and_iff_right hji).symm
  unfold Referred HeldBesides
  simp only [hcall]
  exact Iff.rfl

/-- When `move_server_available` returns, its two locals go: each must be held elsewhere,
    or no strand stands in a call of it. -/
theorem harmless_leave_iff {s : pooled_run} {i holder s_s : session_sptr}
    {this default_logic new_server_logic : Nat}
    (hstrand : s.strand i = .leave this holder s_s default_logic new_server_logic)
    (stale : recycled) (thread : Nat) :
    s.Harmless (.strand i stale thread) ↔
      ∀ p ∈ [logic_sptr.server_session new_server_logic, .default_session default_logic],
        s.HeldBesides i p ∨ ∀ j, j < s.accepted → (s.strand j).this ≠ some p := by
  have hnext : (pooled_strand.echo this holder true).locals = [] := rfl
  have hlets_go : s.lets_go i =
      [.server_session new_server_logic, .default_session default_logic] := by
    unfold lets_go
    rw [hstrand]
  have hlet_go : s.let_go i = s.go_on i (.echo this holder true) := by
    unfold let_go
    rw [hstrand]
  unfold Harmless Running
  simp only [hlets_go, hlet_go, referred_go_on_iff hnext, not_exists, not_and, ne_eq]

/-- So a session that was found under its own uid may not return. -/
theorem not_harmless_of_own {s : pooled_run} {i holder s_s : session_sptr}
    {this new_server_logic : Nat} (hi : i < s.accepted)
    (hstrand : s.strand i = .leave this holder s_s this new_server_logic)
    (hlast : ¬ s.HeldBesides i (.default_session this)) (stale : recycled) (thread : Nat) :
    ¬ s.Harmless (.strand i stale thread) := by
  intro hharmless
  rcases (harmless_leave_iff hstrand stale thread).mp hharmless (.default_session this)
    (by simp) with hheld | hidle
  · exact hlast hheld
  · exact hidle i hi (by rw [hstrand]; rfl)

/-- `modify_session_logic` gives up the logic of the session the look-up found. It is
    the local `default_logic`, unless another promotion has replaced it since. -/
theorem harmless_of_modify {s : pooled_run} {i holder s_s : session_sptr}
    {this default_logic new_server_logic : Nat} {server_uid : session_uid} (hi : i < s.accepted)
    (hstrand : s.strand i = .modify this holder server_uid s_s default_logic new_server_logic)
    (hlogic : (s.sessions s_s)._logic = some (.default_session default_logic))
    (stale : recycled) (thread : Nat) : s.Harmless (.strand i stale thread) := by
  have hlet_go : s.let_go i =
      s.install i this holder server_uid s_s default_logic new_server_logic := by
    unfold let_go
    rw [hstrand]
  intro p hp
  unfold lets_go at hp
  rw [hstrand] at hp
  simp only [hlogic, Option.toList_some, List.mem_singleton] at hp
  subst hp
  rw [hlet_go]
  refine Or.inl (Or.inr (Or.inl ⟨i, hi, ?_⟩))
  simp [install, pooled_strand.locals]

/-! ### Whose logic it is -/

/-- The logic was applied to session `i` and has what that session was given. -/
def Given (s : pooled_run) : logic_sptr → session_sptr → Prop
  | .default_session p, i => (s.default_pool.objects p)._session_holder = some i ∧
      (s.default_pool.objects p).logic._rc4_info = (s.given i)._rc4_info ∧
      (s.default_pool.objects p).logic._target_uid = (s.given i)._target_uid
  | .server_session p, i => (s.server_pool.objects p)._session_holder = some i

theorem Given.unique {s : pooled_run} {p : logic_sptr} {i j : session_sptr} (hi : s.Given p i)
    (hj : s.Given p j) : i = j := by
  cases p with
  | default_session p => exact Option.some.inj (hi.1.symm.trans hj.1)
  | server_session p =>
    have hi : (s.server_pool.objects p)._session_holder = some i := hi
    have hj : (s.server_pool.objects p)._session_holder = some j := hj
    exact Option.some.inj (hi.symm.trans hj)

theorem given_congr {s s' : pooled_run} (hdefault : s'.default_pool = s.default_pool)
    (hserver : s'.server_pool = s.server_pool) (hhistory : s'.given = s.given) (p : logic_sptr)
    (i : session_sptr) : s'.Given p i ↔ s.Given p i := by
  cases p with
  | default_session p =>
    unfold Given
    rw [hdefault, hhistory]
  | server_session p =>
    unfold Given
    rw [hserver]

@[simp] theorem given_go_on (s : pooled_run) (i j : session_sptr) (next : pooled_strand)
    (p : logic_sptr) : (s.go_on i next).Given p j ↔ s.Given p j :=
  given_congr rfl rfl rfl p j

@[simp] theorem given_set_session (s : pooled_run) (i j : session_sptr)
    (session : basic_async_session (Option logic_sptr)) (p : logic_sptr) :
    (s.set_session i session).Given p j ↔ s.Given p j :=
  given_congr rfl rfl rfl p j

@[simp] theorem given_set_server (s : pooled_run) (q : Nat) (l : server_session_logic)
    (p : logic_sptr) (i : session_sptr) : (s.set_server q l).Given p i ↔ s.Given p i := by
  cases p with
  | default_session p => exact Iff.rfl
  | server_session p =>
    by_cases hp : p = q
    · subst hp
      simp [Given, set_server]
    · simp [Given, set_server, hp]

theorem given_set_default {s : pooled_run} {q : Nat} {l : default_session_logic}
    (hkey : l._rc4_info = (s.default_pool.objects q).logic._rc4_info)
    (htarget : l._target_uid = (s.default_pool.objects q).logic._target_uid)
    (p : logic_sptr) (i : session_sptr) : (s.set_default q l).Given p i ↔ s.Given p i := by
  cases p with
  | default_session p =>
    by_cases hp : p = q
    · subst hp
      simp [Given, set_default, hkey, htarget]
    · simp [Given, set_default, hp]
  | server_session p => exact Iff.rfl

/-- Letting go of logics ends no call. -/
theorem running_let_go (s : pooled_run) (i : session_sptr) (p : logic_sptr) :
    (s.let_go i).Running p ↔ s.Running p := by
  have hthis : ∀ next : pooled_strand, next.this = (s.strand i).this →
      ∀ j, ((s.go_on i next).strand j).this = (s.strand j).this := by
    intro next hnext j
    by_cases hji : j = i
    · rw [hji, strand_go_on_self, hnext]
    · rw [strand_go_on_ne hji]
  unfold let_go
  split
  · next this holder server_uid s_s default_logic new_server_logic hstrand =>
    have hsame := hthis (.leave this holder s_s default_logic new_server_logic)
      (by rw [hstrand]; rfl)
    refine exists_congr fun j => and_congr_right fun _ => ?_
    rw [← hsame j]
    rfl
  · next this holder s_s default_logic new_server_logic hstrand =>
    have hsame := hthis (.echo this holder true) (by rw [hstrand]; rfl)
    refine exists_congr fun j => and_congr_right fun _ => ?_
    rw [← hsame j]
  · exact Iff.rfl

theorem given_release (s : pooled_run) (q p : logic_sptr) (i : session_sptr) :
    (s.release q).Given p i ↔ s.Given p i := by
  cases q <;> cases p <;> exact Iff.rfl

/-! ### The invariant of harmless runs -/

structure Sound (s : pooled_run) : Prop where
  owned : s.Owned
  session : ∀ i p, (s.sessions i)._logic = some p → s.Given p i ∧ p ∉ s.acceptor.locals
  running : ∀ i p, (s.strand i).this = some p →
    s.Out p ∧ s.Given p i ∧ p ∉ s.acceptor.locals
  call : ∀ i p, p ∈ (s.strand i).locals → p ∉ s.acceptor.locals
  installing : ∀ i t n, (s.strand i).installs = some (t, n) → s.Given (.server_session n) t
  replies : ∀ r ∈ s.replies, r.asker < s.accepted ∧ s.OwnReply r

namespace Sound

variable {s s' : pooled_run} {i : session_sptr}

/-- A sound state is in order. -/
theorem in_order (h : s.Sound) : s.InOrder where
  not_free := by
    intro p hp
    rcases hp with hreferred | ⟨i, -, hthis⟩
    · exact not_free_of_out (h.owned.out_of_referred hreferred)
    · exact not_free_of_out (h.running i p hthis).1
  own_reply r hr := (h.replies r hr).2

/-- Only the contents of the pools change, and what is in use stays as it is. -/
theorem of_pools (h : s.Sound) (howned : s'.Owned) (hout : ∀ p, s.Out p → s'.Out p)
    (hgiven : ∀ p i, s.Out p → p ∉ s.acceptor.locals → s.Given p i → s'.Given p i)
    (hsessions : s'.sessions = s.sessions) (hstrand : s'.strand = s.strand)
    (hacceptor : ∀ p, p ∈ s'.acceptor.locals → p ∈ s.acceptor.locals)
    (haccepted : s'.accepted = s.accepted)
    (hreplies : s'.replies = s.replies) (hhistory : s'.given = s.given) : s'.Sound where
  owned := howned
  session i p hi := by
    rw [hsessions] at hi
    obtain ⟨hp, hfree⟩ := h.session i p hi
    exact ⟨hgiven p i (h.owned.session i p hi) hfree hp, fun hmem => hfree (hacceptor p hmem)⟩
  running i p hi := by
    rw [hstrand] at hi
    obtain ⟨hpout, hp, hfree⟩ := h.running i p hi
    exact ⟨hout p hpout, hgiven p i hpout hfree hp, fun hmem => hfree (hacceptor p hmem)⟩
  call i p hi := by
    rw [hstrand] at hi
    exact fun hmem => h.call i p hi (hacceptor p hmem)
  installing i t n hi := by
    rw [hstrand] at hi
    have hlocal := pooled_strand.mem_locals_of_installs hi
    exact hgiven _ t (h.owned.call i _ hlocal) (h.call i _ hlocal) (h.installing i t n hi)
  replies r hr := by
    rw [hreplies] at hr
    unfold OwnReply
    rw [haccepted, hhistory]
    exact h.replies r hr

theorem set_default (h : s.Sound) {q : Nat} {l : default_session_logic}
    (hkey : l._rc4_info = (s.default_pool.objects q).logic._rc4_info)
    (htarget : l._target_uid = (s.default_pool.objects q).logic._target_uid) :
    (s.set_default q l).Sound :=
  h.of_pools (h.owned.set_default q l) (fun p => (out_set_default s q l p).mpr)
    (fun p i _ _ => (given_set_default hkey htarget p i).mpr) rfl rfl (fun _ => id) rfl rfl rfl

theorem set_server (h : s.Sound) (q : Nat) (l : server_session_logic) :
    (s.set_server q l).Sound :=
  h.of_pools (h.owned.set_server q l) (fun p => (out_set_server s q l p).mpr)
    (fun p i _ _ => (given_set_server s q l p i).mpr) rfl rfl (fun _ => id) rfl rfl rfl

theorem go_on (h : s.Sound) {next : pooled_strand} (hi : i < s.accepted)
    (hthis : ∀ p, next.this = some p → s.Out p ∧ s.Given p i ∧ p ∉ s.acceptor.locals)
    (hlocals : ∀ p ∈ next.locals, s.Out p ∧ p ∉ s.acceptor.locals)
    (hinstalls : ∀ t n, next.installs = some (t, n) →
      t < s.accepted ∧ s.Given (.server_session n) t) : (s.go_on i next).Sound where
  owned := h.owned.go_on hi (fun p hp => (hlocals p hp).1) (fun t n hn => (hinstalls t n hn).1)
  session j p hj := by
    rw [given_go_on]
    exact h.session j p hj
  running j p hj := by
    rw [out_go_on, given_go_on]
    by_cases hji : j = i
    · rw [hji, strand_go_on_self] at hj
      rw [hji]
      exact hthis p hj
    · rw [strand_go_on_ne hji] at hj
      exact h.running j p hj
  call j p hj := by
    by_cases hji : j = i
    · rw [hji, strand_go_on_self] at hj
      exact (hlocals p hj).2
    · rw [strand_go_on_ne hji] at hj
      exact h.call j p hj
  installing j t n hj := by
    rw [given_go_on]
    by_cases hji : j = i
    · rw [hji, strand_go_on_self] at hj
      exact (hinstalls t n hj).2
    · rw [strand_go_on_ne hji] at hj
      exact h.installing j t n hj
  replies := h.replies

/-- The call returns or goes on with the same logic. -/
theorem go_on_same (h : s.Sound) {next : pooled_strand} (hi : i < s.accepted)
    (hthis : next.this = none ∨ next.this = (s.strand i).this) (hlocals : next.locals = [])
    (hinstalls : next.installs = none) : (s.go_on i next).Sound := by
  refine h.go_on hi ?_ ?_ ?_
  · intro p hp
    rcases hthis with hnone | hsame
    · rw [hnone] at hp
      cases hp
    · rw [hsame] at hp
      exact h.running i p hp
  · intro p hp
    rw [hlocals] at hp
    exact absurd hp List.not_mem_nil
  · intro t n hn
    rw [hinstalls] at hn
    cases hn

theorem returns (h : s.Sound) (hi : i < s.accepted) : (s.go_on i .idle).Sound :=
  h.go_on_same hi (Or.inl rfl) rfl rfl

/-- The table of game servers holds no logics. -/
theorem enter_server (h : s.Sound) (servers : SafeHashMap session_uid session_sptr) :
    { s with _server_sessions := servers : pooled_run }.Sound :=
  h.of_pools (h.owned.enter_server servers) (fun p => (out_congr rfl rfl p).mpr)
    (fun p i _ _ => (given_congr rfl rfl rfl p i).mpr) rfl rfl (fun _ => id) rfl rfl rfl

theorem set_session (h : s.Sound) (session : basic_async_session (Option logic_sptr))
    (hi : i ≤ s.accepted)
    (hlogic : ∀ p, session._logic = some p →
      s.Out p ∧ s.Given p i ∧ p ∉ s.acceptor.locals) : (s.set_session i session).Sound where
  owned := h.owned.set_session session hi (fun p hp => (hlogic p hp).1)
  session j p hj := by
    rw [given_set_session]
    by_cases hji : j = i
    · rw [hji, sessions_set_session_self] at hj
      rw [hji]
      exact (hlogic p hj).2
    · rw [sessions_set_session_ne hji] at hj
      exact h.session j p hj
  running j p hj := by
    rw [out_set_session, given_set_session]
    exact h.running j p hj
  call := h.call
  installing j t n hj := (given_set_session ..).mpr (h.installing j t n hj)
  replies := h.replies

theorem forget (h : s.Sound) {p : logic_sptr} (hp : s.Out p)
    (hharmless : s.Referred p ∨ ¬ s.Running p) : (s.forget p).Sound := by
  have howned := h.owned.forget hp
  rcases forget_cases s p with ⟨-, heq⟩ | ⟨hnone, heq⟩
  · rw [heq]
    exact h
  rw [heq] at howned ⊢
  have hstill := hharmless.resolve_left hnone
  obtain ⟨hsessions, hstrand, hacceptor, haccepted, -⟩ := release_eq s p
  have hhistory : (s.release p).replies = s.replies ∧ (s.release p).given = s.given := by
    cases p <;> exact ⟨rfl, rfl⟩
  exact {
    owned := howned
    session := by
      intro i q hi
      rw [hsessions] at hi
      rw [given_release, hacceptor]
      exact h.session i q hi
    running := by
      intro i q hi
      rw [hstrand] at hi
      rw [given_release, hacceptor]
      obtain ⟨hout, hrest⟩ := h.running i q hi
      -- the logic that is given back is not running
      have hne : q ≠ p := fun heq => hstill (heq ▸ h.owned.running_of_this hi)
      exact ⟨(out_release s p q).mpr ⟨hout, hne⟩, hrest⟩
    call := by
      intro i q hi
      rw [hstrand] at hi
      rw [hacceptor]
      exact h.call i q hi
    installing := by
      intro i t n hi
      rw [hstrand] at hi
      exact (given_release ..).mpr (h.installing i t n hi)
    replies := by
      intro r hr
      rw [hhistory.1] at hr
      unfold OwnReply
      rw [haccepted, hhistory.2]
      exact h.replies r hr }

theorem forget_all (ps : List logic_sptr) (h : s.Sound) (hnodup : ps.Nodup)
    (hout : ∀ p ∈ ps, s.Out p) (hharmless : ∀ p ∈ ps, s.Referred p ∨ ¬ s.Running p) :
    (ps.foldl pooled_run.forget s).Sound := by
  induction ps generalizing s with
  | nil => exact h
  | cons p ps ih =>
    rw [List.nodup_cons] at hnodup
    refine ih (h.forget (hout p List.mem_cons_self) (hharmless p List.mem_cons_self)) hnodup.2
      ?_ ?_
    · intro q hq
      have hne : q ≠ p := fun heq => hnodup.1 (heq ▸ hq)
      exact out_forget_of_ne (hout q (List.mem_cons_of_mem p hq)) hne
    · intro q hq
      rw [referred_forget, running_forget]
      exact hharmless q (List.mem_cons_of_mem p hq)

/-! ### Every harmless step keeps it -/

theorem proceeds (h : s.Sound) {this : Nat}
    (hthis : (s.strand i).this = some (.default_session this))
    (hproceeds : s.Proceeds i this s') : s'.Sound := by
  obtain ⟨l, next, rfl, hkey, htarget, hnext, hlocals, hinstalls⟩ := hproceeds
  refine (h.set_default hkey htarget).go_on_same (h.owned.lt_of_this hthis) ?_ hlocals hinstalls
  rcases hnext with hnone | hsame
  · exact Or.inl hnone
  · exact Or.inr (hsame.trans hthis.symm)

/-- The new logic of a promotion belongs to the session that will get it. -/
theorem trans_to_server (h : s.Sound) (thread default_logic : Nat) :
    (s.trans_to_server thread default_logic).2.Sound := by
  obtain ⟨-, hnew, hout⟩ := trans_to_server_spec h.owned.server_pool thread default_logic
  refine h.of_pools (h.owned.trans_to_server thread default_logic)
    (fun p hp => (hout p).mpr (Or.inl hp)) ?_ rfl rfl (fun _ => id) rfl rfl rfl
  intro p i hp _ hgiven
  cases p with
  | default_session p => exact hgiven
  | server_session p =>
    have hne : p ≠ (s.server_pool.get_shared thread).1 := by
      rintro rfl
      exact hnew hp
    unfold Given pooled_run.trans_to_server
    simp only
    rw [ThreadSafeObjectPool.objects_set_ne hne, ThreadSafeObjectPool.objects_get_shared]
    exact hgiven

theorem given_trans_to_server {thread default_logic : Nat}
    (hgiven : s.Given (.default_session default_logic) i) :
    (s.trans_to_server thread default_logic).2.Given
      (.server_session (s.trans_to_server thread default_logic).1) i := by
  unfold Given pooled_run.trans_to_server
  simp only
  rw [ThreadSafeObjectPool.objects_set_self]
  exact hgiven.1

theorem install (h : s.Sound) {this : Nat} {holder : session_sptr} {server_uid : session_uid}
    {s_s : session_sptr} {default_logic new_server_logic : Nat}
    (hstrand : s.strand i = .modify this holder server_uid s_s default_logic new_server_logic) :
    (s.install i this holder server_uid s_s default_logic new_server_logic).Sound := by
  have hnew : logic_sptr.server_session new_server_logic ∈ (s.strand i).locals := by
    rw [hstrand]
    exact List.mem_cons_self
  have hinstalls : (s.strand i).installs = some (s_s, new_server_logic) := by
    rw [hstrand]
    rfl
  have hgiven := h.installing i s_s new_server_logic hinstalls
  have hs_s : s_s < s.accepted := h.owned.moving i s_s new_server_logic hinstalls
  have hset := h.set_session ((s.sessions s_s).modify_session_logic
    (some (.server_session new_server_logic))) (Nat.le_of_lt hs_s) (by
      intro p hp
      rw [basic_async_session.logic_modify_session_logic] at hp
      cases hp
      exact ⟨h.owned.call i _ hnew, hgiven, h.call i _ hnew⟩)
  have hmodified :
      (s.modify_session_logic s_s (.server_session new_server_logic)).Sound := by
    refine hset.of_pools (hset.owned.apply_session s_s (.server_session new_server_logic))
      (fun p => (out_apply_session ..).mpr) ?_ rfl rfl (fun _ => id) rfl rfl rfl
    intro p j _ _ hp
    cases p with
    | default_session p => exact hp
    | server_session p =>
      by_cases heq : p = new_server_logic
      · -- the logic already belongs to that session
        rw [heq] at hp ⊢
        obtain rfl := Given.unique hp ((given_set_session ..).mpr hgiven)
        unfold Given modify_session_logic pooled_run.apply_session
        simp only
        rw [ThreadSafeObjectPool.objects_set_self]
      · unfold Given modify_session_logic pooled_run.apply_session
        simp only
        rw [ThreadSafeObjectPool.objects_set_ne heq]
        exact hp
  have hentered := hmodified.enter_server (s._server_sessions.insert server_uid s_s).1
  refine hentered.go_on (h.owned.lt_of_ne_idle (by rw [hstrand]; exact nofun)) ?_ ?_ nofun
  · intro p hp
    refine hentered.running i p ?_
    show (s.strand i).this = some p
    rw [hstrand]
    exact hp
  · intro p hp
    have hmem : p ∈ (s.strand i).locals := by
      rw [hstrand]
      exact hp
    have hout := hentered.owned.call i p hmem
    exact ⟨hout, hentered.call i p hmem⟩

theorem let_go (h : s.Sound)
    (hstrand : (∃ this holder server_uid s_s default_logic new_server_logic,
        s.strand i = .modify this holder server_uid s_s default_logic new_server_logic) ∨
      ∃ this holder s_s default_logic new_server_logic,
        s.strand i = .leave this holder s_s default_logic new_server_logic) :
    (s.let_go i).Sound := by
  unfold pooled_run.let_go
  rcases hstrand with ⟨this, holder, server_uid, s_s, default_logic, new_server_logic, hstrand⟩ |
    ⟨this, holder, s_s, default_logic, new_server_logic, hstrand⟩
  · rw [hstrand]
    exact h.install hstrand
  · rw [hstrand]
    refine h.go_on_same (h.owned.lt_of_ne_idle (by rw [hstrand]; exact nofun)) (Or.inr ?_) rfl rfl
    rw [hstrand]
    rfl

/-- The response of a sound state goes where it belongs. -/
theorem echo (h : s.Sound) {z : zlib} {stale : recycled} {this : Nat} {holder : session_sptr}
    {verified : Bool} (hstrand : s.strand i = .echo this holder verified)
    (hecho : echo_authentication_res z stale s i this verified = .ok s')
    (hother : ¬ s.Proceeds i this s') : s'.Sound := by
  rcases echo_authentication_res_eq_ok hecho with hproceeds |
    ⟨l, send_buffer, target, session, hkey, htarget, hpack, hholder, -, hsession, rfl⟩
  · exact absurd hproceeds hother
  have hthis : (s.strand i).this = some (.default_session this) := by
    rw [hstrand]
    rfl
  have hi := h.owned.lt_of_this hthis
  obtain ⟨-, ⟨hown, hown_key, hown_target⟩, -⟩ := h.running i _ hthis
  -- the logic that answers was applied to the session that asks
  obtain rfl : target = i := Option.some.inj (hholder.symm.trans hown)
  have hset := h.set_default hkey htarget
  have hsent := (hset.set_session session (Nat.le_of_lt hi) (by
    intro p hp
    rw [hsession] at hp
    exact ⟨hset.owned.session _ p hp, hset.session _ p hp⟩)).returns hi
  obtain ⟨b, hb, -, -, hcontent⟩ := l.pack_authentication_res_spec (stale 0) (verdict verified).2
  have hreply : s.OwnReply { asker := target, send_buffer := send_buffer, target := target } := by
    refine ⟨rfl, l._server_info, (verdict verified).2, ?_⟩
    rw [hpack] at hb
    cases hb
    rw [hcontent, List.take_left' (l.length_response_fields _)]
    unfold default_session_logic.response_fields
    rw [hkey, htarget, hown_key, hown_target]
  exact {
    owned := hsent.owned.of_pools hsent.owned.default_pool hsent.owned.server_pool
      (fun p => (out_congr rfl rfl p).mpr) rfl rfl rfl rfl rfl
    session := by
      intro j p hj
      obtain ⟨hgiven, hfree⟩ := hsent.session j p hj
      exact ⟨(given_congr rfl rfl rfl p j).mpr hgiven, hfree⟩
    running := by
      intro j p hj
      obtain ⟨hout, hgiven, hfree⟩ := hsent.running j p hj
      exact ⟨(out_congr rfl rfl p).mpr hout, (given_congr rfl rfl rfl p j).mpr hgiven, hfree⟩
    call := hsent.call
    installing := by
      intro j t n hj
      exact hsent.installing j t n hj
    replies := by
      intro r hr
      rcases List.mem_append.mp hr with hr | hr
      · exact h.replies r hr
      · rw [List.mem_singleton.mp hr]
        exact ⟨hi, hreply⟩ }

/-- A step of a strand that is harmless. -/
theorem step_strand (h : s.Sound) {z : zlib} {stale : recycled} {thread : Nat}
    (hharmless : ∀ p ∈ s.lets_go i, (s.let_go i).Referred p ∨ ¬ s.Running p)
    (hstep : s.step_strand z stale thread i = .ok s') : s'.Sound := by
  rcases step_strand_cases hstep with rfl | ⟨this, hthis, hproceeds⟩ |
    ⟨this, l, next, hthis, rfl, hnext⟩ | ⟨hbusy, rfl⟩ |
    ⟨this, holder, server_uid, s_s, default_logic, hstrand, hfound, hlogic, rfl⟩ |
    ⟨hstrand, rfl⟩ | ⟨this, holder, verified, hstrand, hecho, hother⟩
  · exact h
  · exact h.proceeds hthis hproceeds
  · have hset := h.set_server this l
    have hi := h.owned.lt_of_this hthis
    rcases hnext with rfl | ⟨logic, hlogic, rfl⟩
    · exact hset.returns hi
    · refine hset.go_on hi ?_ nofun nofun
      intro p hp
      cases hp
      exact ⟨hset.owned.session i logic hlogic, hset.session i logic hlogic⟩
  · exact h.returns (h.owned.lt_of_ne_idle hbusy)
  · have hnew := h.trans_to_server thread default_logic
    have hi : i < s.accepted := h.owned.lt_of_ne_idle (by rw [hstrand]; exact nofun)
    obtain ⟨hdefault, hfree⟩ := h.session s_s _ hlogic
    obtain ⟨-, hnot, hout⟩ := trans_to_server_spec h.owned.server_pool thread default_logic
    refine hnew.go_on hi ?_ ?_ ?_
    · intro p hp
      refine hnew.running i p ?_
      show (s.strand i).this = some p
      rw [hstrand]
      exact hp
    · intro p hp
      rcases List.mem_cons.mp hp with rfl | hp
      · refine ⟨(hout _).mpr (Or.inr rfl), ?_⟩
        intro hmem
        exact hnot (h.owned.acceptor_out _ hmem)
      · rw [List.mem_singleton.mp hp]
        exact ⟨(hout _).mpr (Or.inl (h.owned.session s_s _ hlogic)), hfree⟩
    · intro t n hn
      cases hn
      exact ⟨h.owned.managed server_uid s_s hfound, given_trans_to_server hdefault⟩
  · refine forget_all _ (h.let_go hstrand) (Owned.nodup_lets_go s i) ?_ ?_
    · intro p hp
      exact (Owned.out_let_go p).mpr (h.owned.out_lets_go p hp)
    · intro p hp
      rw [running_let_go]
      exact hharmless p hp
  · exact h.echo hstrand hecho hother

/-- The acceptor takes a logic that nobody uses. -/
theorem take (h : s.Sound) (clock : Nat) (new_session : basic_async_session (Option logic_sptr))
    (hnew : new_session._logic = none) :
    { s.set_session s.accepted new_session with
      default_pool := (s.default_pool.get_shared acceptor_thread).2
      acceptor := .taken (s.default_pool.get_shared acceptor_thread).1
      clock := clock : pooled_run }.Sound := by
  have howned := h.owned.take clock new_session hnew
  obtain ⟨-, hnot, hout⟩ := h.owned.default_pool.get_shared acceptor_thread
  have hunused : ∀ p, s.Out p →
      p ∉ (acceptor_strand.taken (s.default_pool.get_shared acceptor_thread).1).locals := by
    intro p hp hmem
    rw [List.mem_singleton.mp hmem] at hp
    exact hnot hp
  have hkept : ∀ p j, s.Given p j → { s.set_session s.accepted new_session with
      default_pool := (s.default_pool.get_shared acceptor_thread).2
      acceptor := .taken (s.default_pool.get_shared acceptor_thread).1
      clock := clock : pooled_run }.Given p j := by
    intro p j hp
    cases p with
    | default_session p =>
      unfold Given at hp ⊢
      simp only [ThreadSafeObjectPool.objects_get_shared]
      exact hp
    | server_session p => exact hp
  exact {
    owned := howned
    session := by
      intro j p hj
      by_cases hja : j = s.accepted
      · have hnone : (s.set_session s.accepted new_session).sessions j = new_session := by
          rw [hja, sessions_set_session_self]
        have hj : ((s.set_session s.accepted new_session).sessions j)._logic = some p := hj
        rw [hnone, hnew] at hj
        cases hj
      · have hj : ((s.set_session s.accepted new_session).sessions j)._logic = some p := hj
        rw [sessions_set_session_ne hja] at hj
        exact ⟨hkept p j (h.session j p hj).1, hunused p (h.owned.session j p hj)⟩
    running := by
      intro j p hj
      obtain ⟨hp, hgiven, -⟩ := h.running j p hj
      refine ⟨?_, hkept p j hgiven, hunused p hp⟩
      cases p with
      | default_session p => exact (hout p).mpr (Or.inl hp)
      | server_session p => exact hp
    call := fun j p hj => hunused p (h.owned.call j p hj)
    installing := fun j t n hj => hkept _ t (h.installing j t n hj)
    replies := h.replies }

/-- The acceptor resets the logic it has. -/
theorem reset (h : s.Sound) {p : Nat} (hacceptor : s.acceptor = .taken p)
    (l : default_session_logic) :
    { s.set_default p l with acceptor := .reset p : pooled_run }.Sound := by
  have hmine : logic_sptr.default_session p ∈ s.acceptor.locals := by
    rw [hacceptor]
    exact List.mem_singleton_self _
  have hlocals : ∀ q, q ∈ (acceptor_strand.reset p).locals → q ∈ s.acceptor.locals := by
    intro q hq
    rw [List.mem_singleton.mp hq]
    exact hmine
  refine h.of_pools ((h.owned.set_default p l).of_acceptor (.reset p) ?_) ?_ ?_ rfl rfl hlocals
    rfl rfl rfl
  · intro q hq
    exact (out_set_default ..).mpr (h.owned.acceptor_out q (hlocals q hq))
  · intro q hq
    cases q <;> exact hq
  · -- nobody else uses that logic
    intro q i _ hother hgiven
    cases q with
    | default_session q =>
      have hne : q ≠ p := fun heq => hother (heq ▸ hmine)
      unfold Given at hgiven ⊢
      simp only [pooled_run.set_default, ThreadSafeObjectPool.objects_set_ne hne]
      exact hgiven
    | server_session q => exact hgiven

/-- The new session gets the logic. -/
theorem apply (h : s.Sound) {p : Nat} (hacceptor : s.acceptor = .reset p)
    (howned : { s.modify_session_logic s.accepted (.default_session p) with
      acceptor := .applied
      given := Function.update s.given s.accepted (s.default_pool.objects p).logic :
        pooled_run }.Owned) :
    { s.modify_session_logic s.accepted (.default_session p) with
      acceptor := .applied
      given := Function.update s.given s.accepted (s.default_pool.objects p).logic :
        pooled_run }.Sound := by
  have hmine : logic_sptr.default_session p ∈ s.acceptor.locals := by
    rw [hacceptor]
    exact List.mem_singleton_self _
  -- the sessions before it keep what they were given
  have hkept : ∀ q j, j < s.accepted → q ∉ s.acceptor.locals → s.Given q j →
      { s.modify_session_logic s.accepted (.default_session p) with
        acceptor := .applied
        given := Function.update s.given s.accepted (s.default_pool.objects p).logic :
          pooled_run }.Given q j := by
    intro q j hj hother hgiven
    cases q with
    | default_session q =>
      have hne : q ≠ p := fun heq => hother (heq ▸ hmine)
      unfold Given at hgiven ⊢
      simp only [modify_session_logic, pooled_run.apply_session, pooled_run.set_session,
        ThreadSafeObjectPool.objects_set_ne hne, Function.update_of_ne (Nat.ne_of_lt hj)]
      exact hgiven
    | server_session q => exact hgiven
  have hlt : ∀ j next, s.strand j = next → next ≠ .idle → j < s.accepted := by
    intro j next hj hnext
    exact h.owned.lt_of_ne_idle (hj ▸ hnext)
  exact {
    owned := howned
    session := by
      intro j q hj
      refine ⟨?_, List.not_mem_nil⟩
      have hj : ((s.set_session s.accepted ((s.sessions s.accepted).modify_session_logic
        (some (.default_session p)))).sessions j)._logic = some q := hj
      by_cases hja : j = s.accepted
      · rw [hja, sessions_set_session_self, basic_async_session.logic_modify_session_logic] at hj
        cases hj
        rw [hja]
        unfold Given
        simp only [modify_session_logic, pooled_run.apply_session, pooled_run.set_session,
          ThreadSafeObjectPool.objects_set_self, Function.update_self]
        exact ⟨trivial, trivial, trivial⟩
      · rw [sessions_set_session_ne hja] at hj
        have hle : j < s.accepted := by
          by_contra hge
          rw [h.owned.later_session j
            (Nat.lt_of_le_of_ne (Nat.le_of_not_lt hge) (Ne.symm hja))] at hj
          cases hj
        obtain ⟨hgiven, hother⟩ := h.session j q hj
        exact hkept q j hle hother hgiven
    running := by
      intro j q hj
      obtain ⟨hout, hgiven, hother⟩ := h.running j q hj
      refine ⟨?_, hkept q j (h.owned.lt_of_this hj) hother hgiven, List.not_mem_nil⟩
      exact (out_apply_session ..).mpr ((out_set_session ..).mpr hout)
    call := fun _ _ _ => List.not_mem_nil
    installing := by
      intro j t n hj
      have hlocal := pooled_strand.mem_locals_of_installs hj
      exact hkept _ t (h.owned.moving j t n hj) (h.call j _ hlocal) (h.installing j t n hj)
    replies := by
      intro r hr
      obtain ⟨hlt, htarget, info, ec, hcontent⟩ := h.replies r hr
      refine ⟨hlt, htarget, info, ec, ?_⟩
      show _ = default_session_logic.response_fields
        { Function.update s.given s.accepted (s.default_pool.objects p).logic r.asker with
          _server_info := info } ec
      rw [Function.update_of_ne (Nat.ne_of_lt hlt)]
      exact hcontent }

theorem accept (h : s.Sound) (session : basic_async_session (Option logic_sptr))
    (hlogic : session._logic = (s.sessions s.accepted)._logic) {uid : session_uid}
    (howned : { s.set_session s.accepted session with
      _un_managed_sessions := (s._un_managed_sessions.insert uid s.accepted).1
      acceptor := .idle
      accepted := s.accepted + 1 : pooled_run }.Owned) :
    { s.set_session s.accepted session with
      _un_managed_sessions := (s._un_managed_sessions.insert uid s.accepted).1
      acceptor := .idle
      accepted := s.accepted + 1 : pooled_run }.Sound := by
  have hsession := h.set_session session (Nat.le_refl _) (by
    intro p hp
    rw [hlogic] at hp
    exact ⟨h.owned.session _ p hp, h.session _ p hp⟩)
  exact {
    owned := howned
    session := by
      intro j p hj
      exact ⟨(given_congr rfl rfl rfl p j).mpr (hsession.session j p hj).1, nofun⟩
    running := by
      intro j p hj
      obtain ⟨hout, hgiven, -⟩ := hsession.running j p hj
      exact ⟨(out_congr rfl rfl p).mpr hout, (given_congr rfl rfl rfl p j).mpr hgiven, nofun⟩
    call := nofun
    installing := fun j t n hj => hsession.installing j t n hj
    replies := by
      intro r hr
      obtain ⟨hlt, hown⟩ := h.replies r hr
      exact ⟨Nat.lt_succ_of_lt hlt, hown⟩ }

/-- A session nobody holds any more is destroyed. Its logic is not running: it would
    run on that session's strand. -/
theorem destroy (h : s.Sound) (habandoned : s.Abandoned i) :
    ((s.sessions i)._logic.toList.foldl pooled_run.forget
      (s.set_session i { s.sessions i with _logic := none })).Sound := by
  have hgone := h.set_session { s.sessions i with _logic := none }
    (Nat.le_of_lt habandoned.1) nofun
  refine forget_all _ hgone ?_ ?_ ?_
  · cases (s.sessions i)._logic with
    | none => exact List.nodup_nil
    | some p => exact List.nodup_singleton p
  · intro p hp
    exact (out_set_session ..).mpr (h.owned.session i p (Option.mem_toList.mp hp))
  · intro p hp
    refine Or.inr ?_
    rintro ⟨j, -, hj⟩
    have hthis : (s.strand j).this = some p := hj
    obtain rfl := Given.unique (h.running j p hthis).2.1
      (h.session i p (Option.mem_toList.mp hp)).1
    rw [habandoned.2.1] at hthis
    cases hthis

end Sound

/-- **One harmless step.** -/
theorem sound_step {z : zlib} {s s' : pooled_run} {e : pooled_event} (h : s.Sound)
    (hharmless : s.Harmless e) (hstep : exec z s e = some s') : s'.Sound := by
  have howned := owned_step h.owned hstep
  cases e with
  | take clock =>
    simp only [exec] at hstep
    split at hstep
    · split at hstep
      · cases hstep
        exact h.take clock _ rfl
      · cases hstep
    · cases hstep
  | reset new_one =>
    simp only [exec] at hstep
    split at hstep
    · next p hacceptor =>
      cases hstep
      exact h.reset hacceptor _
    · cases hstep
  | apply =>
    simp only [exec] at hstep
    split at hstep
    · next p hacceptor =>
      cases hstep
      exact h.apply hacceptor howned
    · cases hstep
  | accept ip =>
    simp only [exec] at hstep
    split at hstep
    · cases hstep
      exact h.accept { s.sessions s.accepted with
        _state := .CONNECTING, remote_ip := ip } rfl howned
    · cases hstep
  | frame i stale head body =>
    simp only [exec] at hstep
    split at hstep
    · next logic _ hlogic =>
      split at hstep
      · next hframe =>
        cases hstep
        refine h.go_on hframe.1 ?_ (fun p hp => absurd hp List.not_mem_nil) ?_
        · intro p hp
          cases hp
          exact ⟨h.owned.session i logic hlogic, h.session i logic hlogic⟩
        · intro t n hn
          cases hn
      · cases hstep
    · cases hstep
  | strand i stale thread =>
    exact h.step_strand hharmless (step_strand_of_exec hstep)
  | socket i state =>
    obtain ⟨hsocket, hstep⟩ := Option.ite_none_right_eq_some.mp hstep
    cases hstep
    exact h.set_session _ (Nat.le_of_lt hsocket.1)
      (fun p hp => ⟨h.owned.session i p hp, h.session i p hp⟩)
  | destroy i =>
    obtain ⟨habandoned, hstep⟩ := Option.ite_none_right_eq_some.mp hstep
    cases hstep
    exact h.destroy habandoned

theorem sound_of_starts {s : pooled_run} (h : s.Starts) : s.Sound where
  owned := owned_of_starts h
  session i p hi := by
    rw [h.sessions i] at hi
    cases hi
  running i p hi := by
    rw [h.strand i] at hi
    cases hi
  call i p hi := by
    rw [h.strand i] at hi
    cases hi
  installing i t n hi := by
    rw [h.strand i] at hi
    cases hi
  replies r hr := by
    rw [h.replies] at hr
    cases hr

theorem sound_of_reachable {z : zlib} {s : pooled_run}
    (hr : ((system z).restrict Harmless).Reachable s) : s.Sound := by
  refine System.invariant ?_ ?_ s hr
  · intro s hs
    exact sound_of_starts hs
  · intro s e s' h hstep
    exact sound_step h hstep.1 hstep.2

/-! ### A step that is not harmless -/

theorem free_forget {s : pooled_run} {p q : logic_sptr} (h : s.Free q) : (s.forget p).Free q := by
  rcases forget_cases s p with ⟨-, heq⟩ | ⟨-, heq⟩
  · rw [heq]
    exact h
  · rw [heq]
    exact (free_release s p q).mpr (Or.inl h)

theorem free_forget_all {s : pooled_run} {q : logic_sptr} (ps : List logic_sptr)
    (h : s.Free q) : (ps.foldl forget s).Free q := by
  induction ps generalizing s with
  | nil => exact h
  | cons p ps ih => exact ih (free_forget h)

theorem running_forget_all {s : pooled_run} {q : logic_sptr} (ps : List logic_sptr) :
    (ps.foldl forget s).Running q ↔ s.Running q := by
  induction ps generalizing s with
  | nil => exact Iff.rfl
  | cons p ps ih => exact ih.trans (running_forget s p q)

/-- The last `shared_ptr` gives the logic back. -/
theorem free_of_last {s : pooled_run} {p : logic_sptr} (ps : List logic_sptr) (hp : p ∈ ps)
    (hnone : ¬ s.Referred p) : (ps.foldl forget s).Free p := by
  induction ps generalizing s with
  | nil => exact absurd hp List.not_mem_nil
  | cons q ps ih =>
    rcases List.mem_cons.mp hp with rfl | hp
    · refine free_forget_all ps ?_
      rcases forget_cases s p with ⟨hreferred, -⟩ | ⟨-, heq⟩
      · exact absurd hreferred hnone
      · rw [heq]
        exact (free_release s p p).mpr (Or.inr rfl)
    · exact ih hp (fun hreferred => hnone ((referred_forget s q p).mp hreferred))

/-- What is in order after a step shows that the step was harmless. -/
theorem harmless_of_in_order {z : zlib} {s s' : pooled_run} {e : pooled_event}
    (hstep : exec z s e = some s') (hin_order : s'.InOrder) : s.Harmless e := by
  cases e with
  | strand i stale thread =>
    intro p hp
    by_contra hnot
    obtain ⟨hnone, hrunning⟩ := not_or.mp hnot
    have hs' : s' = (s.lets_go i).foldl forget (s.let_go i) := by
      have hlets := step_strand_of_lets_go (step_strand_of_exec hstep)
      exact hlets (List.ne_nil_of_mem hp)
    -- the logic lies in its free list and is still running
    refine hin_order.not_free p (Or.inr ?_) ?_
    · rw [hs', running_forget_all, running_let_go]
      exact not_not.mp hrunning
    · rw [hs']
      exact free_of_last _ hp hnone
  | _ => exact True.intro

/-- **Logics in use, exactly.** After harmless steps no logic in use is free and every
    response is the asking session's own; one more step keeps this if and only if it is
    harmless. -/
theorem in_order_iff (z : zlib) (s : pooled_run)
    (hr : ((system z).restrict Harmless).Reachable s) :
    s.InOrder ∧ ∀ e s', (system z).step s e s' → (s'.InOrder ↔ s.Harmless e) := by
  have hsound := sound_of_reachable hr
  refine ⟨hsound.in_order, ?_⟩
  intro e s' hstep
  constructor
  · intro hin_order
    exact harmless_of_in_order hstep hin_order
  · intro hharmless
    exact (sound_step hsound hharmless hstep).in_order

/-! ### Two runs -/

/-- The proxy before anything happens. -/
def start : pooled_run where
  sessions _ := { _state := .INIT, _uuid := 0, _logic := none, remote_ip := 0, written := [] }
  _un_managed_sessions := SafeHashMap.empty
  _server_sessions := SafeHashMap.empty
  default_pool := {
    _container := fun _ => []
    count := 0
    pid := fun _ => 0
    objects := fun _ => ⟨default_session_logic.reset rc4_info.of_zero_rand ⟨0, 0, [], 0⟩, none⟩ }
  server_pool := {
    _container := fun _ => []
    count := 0
    pid := fun _ => 0
    objects := fun _ => ⟨server_session_logic.inherit_logic ⟨0, 0, [], 0⟩ 0, none⟩ }
  acceptor := .idle
  accepted := 0
  clock := 0
  strand _ := .idle
  given _ := default_session_logic.reset rc4_info.of_zero_rand ⟨0, 0, [], 0⟩
  replies := []

theorem starts_start : start.Starts where
  default_pool := ⟨fun _ => rfl, rfl⟩
  server_pool := ⟨fun _ => rfl, rfl⟩
  acceptor := rfl
  accepted := rfl
  sessions _ := rfl
  un_managed := rfl
  servers := rfl
  strand _ := rfl
  replies := rfl

/-- A session with a logic, all at clock `0`. -/
def new_session : List pooled_event := [.take 0, .reset rc4_info.of_zero_rand, .apply]

/-- The request of a game server arrives on session `i`, and its strand takes `n` steps. -/
def request (i : session_sptr) (n : Nat) : List pooled_event :=
  .frame i (fun _ _ => 0) proxy_run.request_head proxy_run.request_body ::
    List.replicate n (.strand i (fun _ _ => 0) 1)

/-- Two sessions have one uid, so the second one promotes the first. -/
def promotes_other : List pooled_event :=
  new_session ++ [.accept 0] ++ new_session ++ [.accept 0] ++ request 1 7

/-- The session is alone and promotes itself; while its strand rests, the acceptor takes
    the logic that has come back. -/
def promotes_itself : List pooled_event :=
  new_session ++ [.accept 0] ++ request 0 6 ++ new_session ++ [.strand 0 (fun _ _ => 0) 1]

/-- A promotion of another session ends with the asking session's own response. -/
theorem in_order_promotes_other :
    ∃ s : pooled_run, s.replies.map (fun r => (r.asker, r.target)) = [(1, 1)] ∧ s.InOrder := by
  have hrun : (promotes_other.foldlM
      (fun (s : pooled_run) e => if s.Harmless e then exec zlib.stored s e else none) start).map
      (fun s => s.replies.map fun r => (r.asker, r.target)) = some [(1, 1)] := by
    decide +kernel
  obtain ⟨s, hs, hreplies⟩ := Option.map_eq_some_iff.mp hrun
  obtain ⟨hr, -⟩ := System.Reachable.of_guarded_foldlM (.init starts_start) promotes_other hs
  exact ⟨s, hreplies, (in_order_iff zlib.stored s hr).1⟩

/-- An ordinary game server's response is sent to the next session. -/
theorem not_always_in_order :
    ¬ ∀ (z : zlib) (s : pooled_run), (system z).Reachable s → s.InOrder := by
  intro hall
  have hrun : (promotes_itself.foldlM (exec zlib.stored) start).map
      (fun s => s.replies.map fun r => (r.asker, r.target)) = some [(0, 1)] := by
    decide +kernel
  obtain ⟨s, hs, hreplies⟩ := Option.map_eq_some_iff.mp hrun
  have hreach : ((system zlib.stored).restrict fun _ _ => True).Reachable s :=
    System.Reachable.of_foldlM (.init starts_start) promotes_itself (fun _ _ _ => trivial) hs
  have hin_order := hall zlib.stored s (System.Reachable.of_restrict hreach)
  obtain ⟨r, hr, hpair⟩ := List.mem_map.mp (hreplies ▸ List.mem_singleton_self (0, 1))
  obtain ⟨hasker, htarget⟩ := Prod.mk.inj hpair
  have hown := (hin_order.own_reply r hr).1
  rw [hasker, htarget] at hown
  cases hown

end pooled_run

end AsioNet
