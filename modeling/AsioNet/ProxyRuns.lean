import AsioNet.Library.TransitionSystem
import AsioNet.Promotion

/-! # Runs of the proxy

    Sessions are accepted, frames arrive on them, keep-alives go out, sockets
    close, closed sessions are cleaned up, all in any order. Promotion goes by
    uid, and a uid is a reading of `clock()`. As long as no new session gets a
    uid that is in `_un_managed_sessions`, every session is found under its own
    uid (`Registered`), and promotion meets the session that asked for it.
-/

namespace AsioNet

open TransitionSystem reusabel_buffer proto_mask proxy_manager

/-! ### The system -/

structure proxy_run where
  proxy : proxy_manager
  /-- The number of sessions accepted so far. -/
  accepted : Nat
  /-- The last reading of `clock()`. -/
  clock : Nat

inductive proxy_event where
  | accept (clock : Nat) (new_one : rc4_info) (left_over : server_info) (ip : UInt32)
  /-- session `i` receives a frame -/
  | frame (i : session_sptr) (stale : recycled) (head : protocol_head) (body : List UInt8)
  | tick (i : session_sptr) (stale : recycled)
  /-- the socket of session `i` closes or fails -/
  | socket (i : session_sptr) (state : StateSocket)
  | clean_up

namespace proxy_run

/-- The state after an event; none if the event is impossible or ends in a fault. A handler
    runs to its end before the next event, and no look-up of an address throws. -/
def exec (z : zlib) (s : proxy_run) : proxy_event → Option proxy_run
  | .accept clock new_one left_over ip =>
    if s.clock ≤ clock then
      some {
        proxy := s.proxy.accept_a_session s.accepted clock new_one left_over ip
        accepted := s.accepted + 1
        clock := clock }
    else none
  | .frame i stale head body =>
    if i < s.accepted ∧ head.len.toNat = body.length then
      (s.proxy.on_frame z stale i head body).toOption.map fun w => { s with proxy := w }
    else none
  | .tick i stale => (s.proxy.tick_alive z stale i).toOption.map fun w => { s with proxy := w }
  | .socket i state =>
    some { s with
      proxy := s.proxy.set_session i { s.proxy.sessions i with _state := state } }
  | .clean_up => some { s with proxy := s.proxy.clean_up_closed_session }

/-- The proxy when it starts. -/
def start (ciphers : session_sptr → rc4_info) : proxy_run where
  proxy := proxy_manager.initial ciphers
  accepted := 0
  clock := 0

def system (z : zlib) : System proxy_run proxy_event :=
  System.ofExec (fun s => ∃ ciphers, s = start ciphers) (exec z)

theorem eq_some_of_toOption {α β : Type} {x : Checked α} {f : α → β} {b : β}
    (h : x.toOption.map f = some b) : ∃ a, x = .ok a ∧ f a = b := by
  cases x with
  | ok a => exact ⟨a, rfl, Option.some.inj h⟩
  | error e => cases h

/-- **One step**: a new session, a promotion, or tables, uids and kinds stay. -/
theorem exec_cases {z : zlib} {s s' : proxy_run} {e : proxy_event} (h : exec z s e = some s') :
    (∃ clock new_one left_over ip, e = .accept clock new_one left_over ip ∧
      s'.proxy = s.proxy.accept_a_session s.accepted clock new_one left_over ip ∧
      s'.accepted = s.accepted + 1) ∨
    (s'.accepted = s.accepted ∧ ∃ i stale head body t, e = .frame i stale head body ∧
      i < s.accepted ∧ s.proxy.Authenticates stale i head body ∧
      Promotes (s.proxy.sessions i)._uuid t s.proxy s'.proxy) ∨
    (s'.accepted = s.accepted ∧ Keeps s.proxy s'.proxy) := by
  cases e with
  | accept clock new_one left_over ip =>
    simp only [exec] at h
    split at h
    · cases h
      exact Or.inl ⟨clock, new_one, left_over, ip, rfl, rfl, rfl⟩
    · cases h
  | frame i stale head body =>
    simp only [exec] at h
    split at h
    · next hframe =>
      obtain ⟨w, hw, rfl⟩ := eq_some_of_toOption h
      rcases on_frame_keeps_or_promotes hw with hkeeps | ⟨hauth, t, hpromotes⟩
      · exact Or.inr (Or.inr ⟨rfl, hkeeps⟩)
      · exact Or.inr (Or.inl ⟨rfl, i, stale, head, body, t, rfl, hframe.1, hauth, hpromotes⟩)
    · cases h
  | tick i stale =>
    obtain ⟨w, hw, rfl⟩ := eq_some_of_toOption h
    exact Or.inr (Or.inr ⟨rfl, (sends_of_tick_alive hw).keeps⟩)
  | socket i state =>
    cases h
    exact Or.inr (Or.inr ⟨rfl, Keeps.set_session rfl rfl⟩)
  | clean_up =>
    cases h
    exact Or.inr (Or.inr ⟨rfl, Keeps.refl _⟩)

/-! ### Every session is found under its uid -/

/-- An accepted session gets a uid that no session in `_un_managed_sessions` has. -/
def FreshUid (s : proxy_run) : proxy_event → Prop
  | .accept clock _ _ _ =>
    basic_async_session.generate_uuid clock ∉ s.proxy._un_managed_sessions._container
  | _ => True

/-- Looking an accepted session up by its uid finds that session. -/
def Registered (s : proxy_run) : Prop :=
  ∀ i, i < s.accepted →
    s.proxy._un_managed_sessions._container.lookup (s.proxy.sessions i)._uuid = some i

theorem registered_step {z : zlib} {s s' : proxy_run} {e : proxy_event} (hreg : s.Registered)
    (hfresh : s.FreshUid e) (h : exec z s e = some s') : s'.Registered := by
  intro i hi
  rcases exec_cases h with ⟨clock, new_one, left_over, ip, rfl, hproxy, haccepted⟩ |
    ⟨haccepted, j, stale, head, body, t, rfl, -, -, hpromotes⟩ | ⟨haccepted, hkeeps⟩
  · rw [hproxy, accept_a_session]
    simp only [un_managed_sessions_set_session]
    by_cases hnew : i = s.accepted
    · rw [hnew, sessions_set_session_self]
      exact SafeHashMap.lookup_insert_self hfresh _
    · -- an earlier session keeps its place
      rw [sessions_set_session_ne hnew]
      exact SafeHashMap.lookup_insert_of_some (hreg i (by omega))
  · -- a promotion takes nothing out of the table
    rw [hpromotes.un_managed_sessions, hpromotes.uuid]
    exact hreg i (haccepted ▸ hi)
  · rw [hkeeps.un_managed_sessions, hkeeps.uuid]
    exact hreg i (haccepted ▸ hi)

/-- **Uids along a run.** -/
theorem registered_of_reachable {z : zlib} {s : proxy_run}
    (hr : ((system z).restrict FreshUid).Reachable s) : s.Registered := by
  refine System.invariant ?_ ?_ s hr
  · rintro s ⟨ciphers, rfl⟩ i hi
    exact absurd hi (Nat.not_lt_zero i)
  · intro s e s' hreg ⟨hfresh, hstep⟩
    exact registered_step hreg hfresh hstep

/-! ### Promotion -/

/-- Session `j` gets a client's or a server's logic or an entry in one of their
    tables. -/
def Gains (w w' : proxy_manager) (j : session_sptr) : Prop :=
  ((w'.sessions j)._logic.kind ≠ (w.sessions j)._logic.kind ∧
    (w'.sessions j)._logic.kind ≠ .default_session) ∨
  (∃ uid, w'._client_sessions._container.lookup uid = some j ∧
    w._client_sessions._container.lookup uid ≠ some j) ∨
  (∃ uid, w'._server_sessions._container.lookup uid = some j ∧
    w._server_sessions._container.lookup uid ≠ some j)

/-- Whoever is promoted is processing an accepted authentication frame. -/
def OwnPromotion (s : proxy_run) (e : proxy_event) (s' : proxy_run) : Prop :=
  ∀ j, Gains s.proxy s'.proxy j →
    ∃ stale head body, e = .frame j stale head body ∧
      s.proxy.Authenticates stale j head body

theorem not_gains_of_keeps {w w' : proxy_manager} (h : Keeps w w') (j : session_sptr) :
    ¬ Gains w w' j := by
  rintro (⟨hkind, -⟩ | ⟨uid, hnew, hold⟩ | ⟨uid, hnew, hold⟩)
  · exact hkind (h.kind j)
  · exact hold (h.client_sessions ▸ hnew)
  · exact hold (h.server_sessions ▸ hnew)

theorem not_gains_of_accept (w : proxy_manager) (i : session_sptr) (clock : Nat)
    (new_one : rc4_info) (left_over : server_info) (ip : UInt32) (j : session_sptr) :
    ¬ Gains w (w.accept_a_session i clock new_one left_over ip) j := by
  rintro (⟨hkind, hdefault⟩ | ⟨uid, hnew, hold⟩ | ⟨uid, hnew, hold⟩)
  · by_cases hj : j = i
    · apply hdefault
      rw [accept_a_session, hj]
      simp only [sessions_set_session_self]
      rfl
    · apply hkind
      rw [accept_a_session]
      simp only [sessions_set_session_ne hj]
  · exact hold hnew
  · exact hold hnew

/-- A promotion meets no session but the one found under the uid. -/
theorem eq_of_gains {uid : session_uid} {t j : session_sptr} {w w' : proxy_manager}
    (h : Promotes uid t w w') (hgains : Gains w w' j) : j = t := by
  rcases hgains with ⟨hkind, -⟩ | ⟨uid', hnew, hold⟩ | ⟨uid', hnew, hold⟩
  · by_contra hj
    exact hkind (h.kind j hj)
  · exact absurd (h.client_sessions ▸ hnew) hold
  · rw [h.server_sessions] at hnew
    by_cases huid : uid' = uid
    · rw [huid, SafeHashMap.lookup_insert_self h.absent] at hnew
      exact (Option.some.inj hnew).symm
    · -- other entries are those from before
      rw [SafeHashMap.lookup_insert_ne huid] at hnew
      exact absurd hnew hold

/-- **Promotion along a run.** While no accepted session gets a uid that is taken,
    a session is promoted only by its own accepted authentication. -/
theorem own_promotion_of_reachable {z : zlib} {s s' : proxy_run} {e : proxy_event}
    (hr : ((system z).restrict FreshUid).Reachable s) (hstep : (system z).step s e s') :
    OwnPromotion s e s' := by
  have hreg := registered_of_reachable hr
  intro j hgains
  rcases exec_cases hstep with ⟨clock, new_one, left_over, ip, rfl, hproxy, -⟩ |
    ⟨-, i, stale, head, body, t, rfl, hi, hauth, hpromotes⟩ | ⟨-, hkeeps⟩
  · rw [hproxy] at hgains
    exact absurd hgains (not_gains_of_accept _ _ _ _ _ _ j)
  · -- the uid leads back to the session that authenticates
    have hfound := hpromotes.found
    rw [hreg i hi] at hfound
    obtain rfl : i = t := Option.some.inj hfound
    obtain rfl := eq_of_gains hpromotes hgains
    exact ⟨stale, head, body, rfl, hauth⟩
  · exact absurd hgains (not_gains_of_keeps hkeeps j)

/-- A game server's request, of area `0`, server `0` and an empty platform name. -/
def request_body : List UInt8 := [0, 0, 0, 0, SessionType.GAMESVR_PROXY, 0, 0, 0]

def request_head : protocol_head :=
  masked_head (protocol_head.get_a_head FRAME_KEY 8 0
    protocol_cmd.Commands_AuthenticationAAA.val false 1) request_body

/-- The request arrives on session `i`. -/
def request_on (i : session_sptr) : proxy_event :=
  .frame i (fun _ _ => 0) request_head request_body

/-- A session is accepted when the clock reads `0`. -/
def accept_at_zero : proxy_event := .accept 0 rc4_info.of_zero_rand ⟨0, 0, [], 0⟩ 0

/-- The state after one such session. -/
def one_session : proxy_run where
  proxy := (start fun _ => rc4_info.of_zero_rand).proxy.accept_a_session 0 0
    rc4_info.of_zero_rand ⟨0, 0, [], 0⟩ 0
  accepted := 1
  clock := 0

/-- The state after two. -/
def two_sessions : proxy_run where
  proxy := one_session.proxy.accept_a_session 1 0 rc4_info.of_zero_rand ⟨0, 0, [], 0⟩ 0
  accepted := 2
  clock := 0

theorem reachable_one_session (z : zlib) :
    ((system z).restrict FreshUid).Reachable one_session :=
  .step accept_at_zero (.init ⟨_, rfl⟩) ⟨List.not_mem_nil, rfl⟩

theorem reachable_two_sessions (z : zlib) : (system z).Reachable two_sessions :=
  .step accept_at_zero (System.Reachable.of_restrict (reachable_one_session z)) rfl

/-- The session that is alone promotes itself. -/
theorem own_promotion_of_one_session :
    ∃ s', (s'.proxy.sessions 0)._logic.kind = .server_session ∧
      OwnPromotion one_session (request_on 0) s' := by
  have hstep : (exec zlib.stored one_session (request_on 0)).map
      (fun s' => (s'.proxy.sessions 0)._logic.kind) = some .server_session := by
    decide +kernel
  obtain ⟨s', hs', hkind⟩ := Option.map_eq_some_iff.mp hstep
  exact ⟨s', hkind, own_promotion_of_reachable (reachable_one_session zlib.stored) hs'⟩

/-- With two sessions of one uid the second one's request promotes the first. -/
theorem not_always_own_promotion :
    ¬ ∀ (z : zlib) (s s' : proxy_run) (e : proxy_event), (system z).Reachable s →
      (system z).step s e s' → OwnPromotion s e s' := by
  intro hall
  have hstep : (exec zlib.stored two_sessions (request_on 1)).map
      (fun s' => (s'.proxy.sessions 0)._logic.kind) = some .server_session := by
    decide +kernel
  obtain ⟨s', hs', hkind⟩ := Option.map_eq_some_iff.mp hstep
  -- session `0` got a game server's logic, but the frame came in on session `1`
  have hgains : Gains two_sessions.proxy s'.proxy 0 := by
    refine Or.inl ⟨?_, ?_⟩
    · rw [hkind]
      exact nofun
    · rw [hkind]
      exact nofun
  obtain ⟨stale, head, body, he, -⟩ :=
    hall zlib.stored two_sessions s' (request_on 1) (reachable_two_sessions _) hs' 0 hgains
  cases he

end proxy_run

end AsioNet
