import AsioNet.SessionLife

/-! # A session that is being closed

    An elegant `close` shuts down the sending side and waits for the peer:
    `CLOSE_DONE` is to come with the end of what the peer sends. For that a read
    has to be outstanding, and `listens_of_reachable` says when it is. The body
    of `close` also clears the timers. The tick starts its next wait even when it
    is told that the last one was cancelled, so that this stops no tick that has
    been started (`tick_stopped_iff`).
-/

namespace AsioNet

open TransitionSystem session_life

/-! ### Listening for the peer's close -/

/-- A session and what its peer has done. -/
structure peered_session where
  session : session_life
  /-- A connection has been reported. -/
  connected : Bool
  /-- The peer has closed or reset the connection. -/
  peer_gone : Bool

inductive peered_event where
  | session (e : session_event)
  | peer_closes

namespace session_life

instance (e : session_event) : Decidable (Connects e) := by
  cases e <;> unfold Connects <;> infer_instance

/-- A read that fails. -/
def ReadFails : session_event → Prop
  | .read_handler _ ec _ => ec = true
  | _ => False

instance (e : session_event) : Decidable (ReadFails e) := by
  cases e <;> unfold ReadFails <;> infer_instance

end session_life

namespace peered_session

/-- A read fails when the peer is gone or the socket was closed. -/
def exec (s : peered_session) : peered_event → Option peered_session
  | .peer_closes => some { s with peer_gone := true }
  | .session e =>
    if ReadFails e ∧ s.peer_gone = false ∧ s.session.is_open = true then none
    else
      (s.session.exec e).map fun session =>
        { s with session := session, connected := s.connected || decide (Connects e) }

def start (now : time_point) (interval : Nat) (timeout : Int) (count : Nat) : peered_session where
  session := constructed now interval timeout count
  connected := false
  peer_gone := false

def system : System peered_session peered_event :=
  System.ofExec (fun s => ∃ now interval timeout count, s = start now interval timeout count) exec

/-- A connected session that is being closed will see its peer's close. -/
def Listens (s : peered_session) : Prop :=
  s.connected = true → s.session._state = .TO_CLOSE → s.peer_gone = false → 0 < s.session.reads

/-- No data is read by a session that is being closed, unless another read is
    outstanding. -/
def ReadsOn (s : peered_session) : peered_event → Prop
  | .session (.read_handler _ ec _) =>
    s.connected = true → s.session._state = .TO_CLOSE → s.peer_gone = false → ec = false →
      1 < s.session.reads
  | _ => True

/-- What every state satisfies. -/
structure Invariant (s : peered_session) : Prop where
  unconnected : s.session._state = .INIT ∨ s.session._state = .WAIT_CONNECT → s.connected = false
  closing : s.session._state = .TO_CLOSE → s.session.is_open = true
  reading : s.connected = true → s.session.is_open = true → s.peer_gone = false →
    s.session._state = .CONNECTING ∨ s.session._state = .TO_CLOSE → 0 < s.session.reads

theorem Invariant.listens {s : peered_session} (h : s.Invariant) : s.Listens := by
  intro hconnected hstate hpeer
  exact h.reading hconnected (h.closing hstate) hpeer (Or.inr hstate)

theorem invariant_start (now : time_point) (interval : Nat) (timeout : Int) (count : Nat) :
    Invariant (start now interval timeout count) where
  unconnected := fun _ => rfl
  closing := nofun
  reading := nofun

/-- A step that neither moves the state nor takes the last read. -/
theorem Invariant.of_same_state {s s' : peered_session} (h : s.Invariant)
    (hstate : s'.session._state = s.session._state)
    (hopen : s'.session.is_open = s.session.is_open) (hconnected : s'.connected = s.connected)
    (hpeer : s'.peer_gone = s.peer_gone)
    (hreads : s.connected = true → s.session.is_open = true → s.peer_gone = false →
      s.session._state = .CONNECTING ∨ s.session._state = .TO_CLOSE → 0 < s'.session.reads) :
    s'.Invariant where
  unconnected := by
    rw [hstate, hconnected]
    exact h.unconnected
  closing := by
    rw [hstate, hopen]
    exact h.closing
  reading := by
    rw [hstate, hopen, hconnected, hpeer]
    exact hreads

theorem Invariant.of_sameLink {s s' : peered_session} (h : s.Invariant)
    (hlink : SameLink s.session s'.session) (hconnected : s'.connected = s.connected)
    (hpeer : s'.peer_gone = s.peer_gone) : s'.Invariant := by
  apply h.of_same_state hlink.state hlink.is_open hconnected hpeer
  rw [hlink.reads]
  exact h.reading

/-- The socket of a session without a connection opens. -/
theorem invariant_of_opens {s s' : peered_session} (h : s.Invariant)
    (hinit : s.session._state = .INIT) (hopen : s'.session.is_open = true)
    (hconnected : s'.connected = s.connected) : s'.Invariant where
  unconnected := fun _ => hconnected.trans (h.unconnected (Or.inl hinit))
  closing := fun _ => hopen
  reading := by
    rw [hconnected, h.unconnected (Or.inl hinit)]
    exact nofun

/-- A step that reports a connection starts a read. -/
theorem invariant_of_connects {s' : peered_session} (hstate : s'.session._state = .CONNECTING)
    (hreads : 0 < s'.session.reads) : s'.Invariant where
  unconnected := by
    rw [hstate]
    rintro (h | h) <;> cases h
  closing := by
    rw [hstate]
    exact nofun
  reading := fun _ _ _ _ => hreads

/-- A closed session has nothing to wait for. -/
theorem invariant_of_closed {s' : peered_session} (hstate : s'.session._state = .CLOSE_DONE) :
    s'.Invariant where
  unconnected := by
    rw [hstate]
    rintro (h | h) <;> cases h
  closing := by
    rw [hstate]
    exact nofun
  reading := by
    rw [hstate]
    rintro _ _ _ (h | h) <;> cases h

end peered_session

/-! ### What the steps do to the reads -/

namespace session_life

theorem is_open_async_recv_loop (s : session_life) : s.async_recv_loop.is_open = s.is_open := by
  unfold async_recv_loop
  split <;> rfl

theorem reads_async_recv_loop (s : session_life) :
    s.async_recv_loop.reads = if s._state = .CONNECTING then s.reads + 1 else s.reads := by
  unfold async_recv_loop
  by_cases h : s._state = .CONNECTING <;> simp [h]

/-- Picking messages ends with `async_recv_loop`. -/
theorem link_pick_entire_msgs (s : session_life) (refused : Bool) :
    (s.pick_entire_msgs refused).is_open = s.is_open ∧
      (s.pick_entire_msgs refused).reads =
        if s._state = .CONNECTING then s.reads + 1 else s.reads := by
  unfold pick_entire_msgs
  cases refused with
  | false => exact ⟨is_open_async_recv_loop s, reads_async_recv_loop s⟩
  | true => exact ⟨is_open_async_recv_loop _, reads_async_recv_loop _⟩

/-- A completed read is replaced while the session is connected. -/
theorem link_read_handler (s : session_life) (now : time_point) (ec refused : Bool) :
    (s.read_handler now ec refused).is_open = s.is_open ∧
      (s.read_handler now ec refused).reads =
        if s._state = .CONNECTING then s.reads - 1 + 1 else s.reads - 1 := by
  unfold read_handler
  cases ec with
  | false => exact link_pick_entire_msgs _ refused
  | true =>
    have hclose := sameLink_close { s with reads := s.reads - 1, _last_recv_time := now } false
    obtain ⟨hopen, hreads⟩ := link_pick_entire_msgs
      ({ s with reads := s.reads - 1, _last_recv_time := now }.close false) refused
    rw [hclose.is_open] at hopen
    rw [hclose.state, hclose.reads] at hreads
    exact ⟨hopen, hreads⟩

theorem link_retry_handler (s : session_life) (ec refused : Bool) :
    (s.retry_handler ec refused).is_open = s.is_open ∧
      s.reads ≤ (s.retry_handler ec refused).reads := by
  unfold retry_handler
  cases ec with
  | false =>
    obtain ⟨hopen, hreads⟩ := link_pick_entire_msgs s refused
    refine ⟨hopen, ?_⟩
    show s.reads ≤ (s.pick_entire_msgs refused).reads
    rw [hreads]
    split <;> omega
  | true =>
    have hclose := sameLink_close s false
    exact ⟨hclose.is_open, Nat.le_of_eq hclose.reads.symm⟩

/-- The body of `close` leaves the reads alone; it shuts down only an open socket. -/
theorem link_close_body (s : session_life) (elegantly : Bool) :
    (s.close_body elegantly).reads = s.reads ∧
      (SameLink s (s.close_body elegantly) ∨
        (s._state ≠ .CLOSE_DONE ∧ s.is_open = true ∧
          (s.close_body elegantly)._state = .TO_CLOSE ∧
          (s.close_body elegantly).is_open = true) ∨
        (s.close_body elegantly)._state = .CLOSE_DONE) := by
  unfold close_body
  split
  · exact ⟨rfl, Or.inl ⟨rfl, rfl, rfl⟩⟩
  next hstate =>
  simp only
  split
  · next hopen =>
    split
    · exact ⟨rfl, Or.inr (Or.inl ⟨hstate, hopen, rfl, hopen⟩)⟩
    · exact ⟨rfl, Or.inr (Or.inr rfl)⟩
  · exact ⟨rfl, Or.inl ⟨rfl, rfl, rfl⟩⟩

theorem reads_of_connects {s s' : session_life} {e : session_event} (h : s.exec e = some s')
    (he : Connects e) : s'._state = .CONNECTING ∧ 0 < s'.reads := by
  have hloop : ∀ t : session_life, 0 < { t with _state := .CONNECTING }.async_recv_loop.reads := by
    intro t
    rw [reads_async_recv_loop, if_pos rfl]
    exact Nat.succ_pos _
  rcases exec_cases h with ⟨hnot, -⟩ | ⟨rfl, -, rfl⟩ | ⟨rfl, rfl⟩ | ⟨ec, rfl, rfl⟩ | ⟨rfl, rfl⟩ |
    ⟨now, ec, refused, rfl, -, rfl⟩ | ⟨t, ec, refused, rfl, rfl⟩ | ⟨elegantly, posted, rfl, rfl⟩
  · exact absurd he hnot
  · exact he.elim
  · exact he.elim
  · obtain rfl : ec = false := he
    exact ⟨state_connect_handler s false, hloop { s with connects := s.connects - 1 }⟩
  · exact ⟨state_passively_connect_succ s, hloop s⟩
  · exact he.elim
  · exact he.elim
  · exact he.elim

end session_life

namespace peered_session

theorem exec_session {s s' : peered_session} {e : session_event}
    (h : s.exec (.session e) = some s') :
    s.session.exec e = some s'.session ∧ (¬ Connects e → s'.connected = s.connected) ∧
      s'.peer_gone = s.peer_gone ∧
      (ReadFails e → s.peer_gone = false → s.session.is_open = false) := by
  simp only [exec] at h
  split at h
  · cases h
  next hfails =>
  obtain ⟨session, hsession, rfl⟩ := Option.map_eq_some_iff.mp h
  refine ⟨hsession, fun he => by simp [he], rfl, ?_⟩
  intro hread hpeer
  by_contra hopen
  exact hfails ⟨hread, hpeer, Bool.eq_true_of_not_eq_false hopen⟩

/-- A completed read keeps the invariant, unless it was the last one of a session
    that is being closed. -/
theorem invariant_of_read {s s' : peered_session} {now : time_point} {ec refused : Bool}
    (h : s.Invariant) (hguard : s.ReadsOn (.session (.read_handler now ec refused)))
    (hexec : s.exec (.session (.read_handler now ec refused)) = some s')
    (hs' : s'.session = s.session.read_handler now ec refused) : s'.Invariant := by
  obtain ⟨-, hconnected, hpeer, hfails⟩ := exec_session hexec
  obtain ⟨hopen, hreads⟩ := link_read_handler s.session now ec refused
  have hstate := state_read_handler s.session now ec refused
  rw [← hs'] at hopen hreads hstate
  apply h.of_same_state hstate hopen (hconnected id) hpeer
  intro hconn hisopen hgone hst
  rw [hreads]
  rcases hst with hst | hst
  · rw [if_pos hst]
    exact Nat.succ_pos _
  · -- the read is not replaced, so another one has to be outstanding
    rw [if_neg (by rw [hst]; exact nofun)]
    have hec : ec = false := by
      by_contra hec
      have hclosed := hfails (Bool.eq_true_of_not_eq_false hec) hgone
      rw [hisopen] at hclosed
      cases hclosed
    have hother := hguard hconn hst hgone hec
    omega

/-- The body of `close` keeps the invariant: what was read from is read from still. -/
theorem invariant_of_close_body {s s' : peered_session} (h : s.Invariant) (posted : List Bool)
    (elegantly : Bool) (hs' : s'.session = { s.session with posted := posted }.close_body elegantly)
    (hconnected : s'.connected = s.connected) (hpeer : s'.peer_gone = s.peer_gone) :
    s'.Invariant := by
  obtain ⟨hreads, hsame | ⟨hnot, hopen, hstate, hopen'⟩ | hstate⟩ :=
    link_close_body { s.session with posted := posted } elegantly
  · rw [← hs'] at hsame
    exact h.of_sameLink ⟨hsame.state, hsame.is_open, hsame.reads⟩ hconnected hpeer
  · rw [← hs'] at hreads hstate hopen'
    refine ⟨?_, fun _ => hopen', ?_⟩
    · rw [hstate]
      rintro (h | h) <;> cases h
    rw [hconnected, hpeer, hreads]
    intro hconn _ hgone _
    apply h.reading hconn hopen hgone
    -- a session that was reported a connection is past `WAIT_CONNECT`
    have hpast : ¬ (s.session._state = .INIT ∨ s.session._state = .WAIT_CONNECT) := by
      intro hearly
      rw [h.unconnected hearly] at hconn
      cases hconn
    cases hst : s.session._state with
    | INIT => exact absurd (Or.inl hst) hpast
    | WAIT_CONNECT => exact absurd (Or.inr hst) hpast
    | CONNECTING => exact Or.inl rfl
    | TO_CLOSE => exact Or.inr rfl
    | CLOSE_DONE => exact absurd hst hnot
  · rw [← hs'] at hstate
    exact invariant_of_closed hstate

/-- **One step** keeps the invariant, unless it takes the last read from a session
    that is being closed. -/
theorem invariant_exec {s s' : peered_session} {e : peered_event} (h : s.Invariant)
    (hguard : s.ReadsOn e) (hexec : s.exec e = some s') : s'.Invariant := by
  cases e with
  | peer_closes =>
    cases hexec
    exact ⟨h.unconnected, h.closing, fun _ _ hpeer => nomatch hpeer⟩
  | session e =>
    obtain ⟨hstep, hconnected, hpeer, -⟩ := exec_session hexec
    by_cases he : Connects e
    · obtain ⟨hstate, hreads⟩ := reads_of_connects hstep he
      exact invariant_of_connects hstate hreads
    have hc := hconnected he
    rcases exec_cases hstep with ⟨-, hsame⟩ | ⟨rfl, hinit, hs'⟩ | ⟨rfl, hs'⟩ | ⟨ec, rfl, hs'⟩ |
      ⟨rfl, -⟩ | ⟨now, ec, refused, rfl, -, hs'⟩ | ⟨t, ec, refused, rfl, hs'⟩ |
      ⟨elegantly, posted, rfl, hs'⟩
    · exact h.of_sameLink hsame hc hpeer
    · exact invariant_of_opens h hinit (by rw [hs']) hc
    · unfold async_connect at hs'
      split at hs'
      · exact h.of_sameLink (hs' ▸ ⟨rfl, rfl, rfl⟩) hc hpeer
      split at hs'
      · exact h.of_sameLink (hs' ▸ ⟨rfl, rfl, rfl⟩) hc hpeer
      · next hinit => exact invariant_of_opens h (not_not.mp hinit) (by rw [hs']) hc
    · -- the connection failed
      obtain rfl : ec = true := Bool.eq_true_of_not_eq_false he
      have hclose := sameLink_close { s.session with connects := s.session.connects - 1 } false
      exact h.of_sameLink (hs' ▸ ⟨hclose.state, hclose.is_open, hclose.reads⟩) hc hpeer
    · exact absurd trivial he
    · exact invariant_of_read h hguard hexec hs'
    · obtain ⟨hopen, hreads⟩ := link_retry_handler { s.session with _timer := t } ec refused
      have hstate := state_retry_handler { s.session with _timer := t } ec refused
      rw [← hs'] at hopen hreads hstate
      apply h.of_same_state hstate hopen hc hpeer
      intro hconn hisopen hgone hst
      exact Nat.lt_of_lt_of_le (h.reading hconn hisopen hgone hst) hreads
    · exact invariant_of_close_body h posted elegantly hs' hc hpeer

theorem invariant_of_reachable :
    ∀ s, (system.restrict ReadsOn).Reachable s → s.Invariant := by
  refine System.invariant ?_ ?_
  · rintro s ⟨now, interval, timeout, count, rfl⟩
    exact invariant_start now interval timeout count
  · rintro s e s' h ⟨hguard, hexec⟩
    exact invariant_exec h hguard hexec

/-- Taking the last read makes it deaf. -/
theorem not_listens_of_not_readsOn {s s' : peered_session} {e : peered_event}
    (hexec : s.exec e = some s') (h : ¬ s.ReadsOn e) : ¬ s'.Listens := by
  intro hlistens
  apply h
  cases e with
  | peer_closes => trivial
  | session e =>
    cases e with
    | read_handler now ec refused =>
      intro hconn hstate hgone hec
      subst hec
      obtain ⟨hstep, hconnected, hpeer, -⟩ := exec_session hexec
      obtain ⟨-, hreads⟩ := link_read_handler s.session now false refused
      have hs' := exec_read_handler hstep
      rw [if_neg (by rw [hstate]; exact nofun), ← hs'] at hreads
      have hpos := hlistens ((hconnected id).trans hconn)
        (by rw [hs', state_read_handler]; exact hstate) (hpeer.trans hgone)
      omega
    | _ => trivial

/-- **Listening, exactly.** While no data takes the last read from a session that is
    being closed, every connected session that is being closed will see its peer's
    close; the first step that does take it leaves a session that will not. -/
theorem listens_iff {s : peered_session} (hs : (system.restrict ReadsOn).Reachable s) :
    s.Listens ∧ ∀ e s', system.step s e s' → (s'.Listens ↔ s.ReadsOn e) := by
  refine ⟨(invariant_of_reachable s hs).listens, ?_⟩
  intro e s' hstep
  constructor
  · intro hlistens
    by_contra hguard
    exact not_listens_of_not_readsOn hstep hguard hlistens
  · intro hguard
    exact (invariant_exec (invariant_of_reachable s hs) hguard hstep).listens

/-- A session that is accepted and kicked. -/
def kicked : List peered_event :=
  [.session .accept, .session .passively_connect_succ, .session .kick, .session .run_posted]

/-- A session with a tick of a second and a timeout of five, under the events. -/
def run (es : List peered_event) : Option peered_session := es.foldlM exec (start 0 1000 5000 0)

theorem listens_when_kicked :
    ∃ s, run kicked = some s ∧ s.session._state = .TO_CLOSE ∧ s.session.reads = 1 ∧ s.Listens := by
  obtain ⟨s, hs, hstate, hreads⟩ : ∃ s, run kicked = some s ∧ s.session._state = .TO_CLOSE ∧
      s.session.reads = 1 := ⟨_, rfl, rfl, rfl⟩
  refine ⟨s, hs, hstate, hreads, (listens_iff ?_).1⟩
  refine .of_foldlM (.init ⟨0, 1000, 5000, 0, rfl⟩) kicked ?_ hs
  intro e he t
  simp only [kicked, List.mem_cons, List.not_mem_nil, or_false] at he
  rcases he with rfl | rfl | rfl | rfl <;> trivial

/-- The peer's last data arrives after the kick. -/
theorem not_always_listens : ¬ ∀ s, system.Reachable s → s.Listens := by
  intro hall
  obtain ⟨s, hs, hconnected, hstate, hpeer, hreads⟩ :
      ∃ s, run (kicked ++ [.session (.read_handler 0 false false)]) = some s ∧
        s.connected = true ∧ s.session._state = .TO_CLOSE ∧ s.peer_gone = false ∧
        s.session.reads = 0 := ⟨_, rfl, rfl, rfl, rfl, rfl⟩
  have hreach : (system.restrict fun _ _ => True).Reachable s :=
    .of_foldlM (.init ⟨0, 1000, 5000, 0, rfl⟩) _ (fun _ _ _ => trivial) hs
  have hpos := hall s hreach.of_restrict hconnected hstate hpeer
  omega

end peered_session

/-! ### Ticking -/

namespace steady_timer

theorem take_handler_constructed (ec : Bool) :
    constructed.take_handler ec = none := by
  cases ec <;> rfl

theorem waits_take_handler {t t' : steady_timer} {ec : Bool}
    (h : t.take_handler ec = some t') : t'.waits = t.waits := by
  unfold steady_timer.take_handler at h
  split at h
  · split at h <;> cases h
    rfl
  · split at h <;> cases h
    rfl

theorem outstanding_cancel {t : steady_timer} (h : t.Outstanding) :
    t.cancel.Outstanding := by
  rcases h with hpending | helapsed | hcancelled
  · -- the pending wait has become a cancelled one
    refine Or.inr (Or.inr ?_)
    simp [steady_timer.cancel, hpending]
  · exact Or.inr (Or.inl helapsed)
  · exact Or.inr (Or.inr (Nat.lt_of_lt_of_le hcancelled (Nat.le_add_right _ _)))

end steady_timer

namespace session_life

/-- The part of a session its tick works on. -/
def tick_part (s : session_life) : steady_timer × Nat × Bool × Bool :=
  (s._tick_timer, s._tick_interval, s.destroyed, s.dangling)

theorem tick_part_close (s : session_life) (elegantly : Bool) :
    (s.close elegantly).tick_part = s.tick_part := by
  unfold close
  split <;> rfl

theorem tick_part_async_recv_loop (s : session_life) :
    s.async_recv_loop.tick_part = s.tick_part := by
  unfold async_recv_loop
  split <;> rfl

theorem tick_part_async_send (s : session_life) (now : time_point) :
    (s.async_send now).tick_part = s.tick_part := by
  unfold async_send
  split <;> rfl

theorem tick_part_pick_entire_msgs (s : session_life) (refused : Bool) :
    (s.pick_entire_msgs refused).tick_part = s.tick_part := by
  unfold pick_entire_msgs
  cases refused with
  | false => exact tick_part_async_recv_loop s
  | true => exact tick_part_async_recv_loop { s with _timer := s._timer.expires_from_now.async_wait }

theorem tick_part_read_handler (s : session_life) (now : time_point) (ec refused : Bool) :
    (s.read_handler now ec refused).tick_part = s.tick_part := by
  unfold read_handler
  simp only [tick_part_pick_entire_msgs]
  cases ec with
  | false => rfl
  | true => exact tick_part_close { s with reads := s.reads - 1, _last_recv_time := now } false

theorem tick_part_write_handler (s : session_life) (ec : Bool) :
    (s.write_handler ec).tick_part = s.tick_part := by
  unfold write_handler
  cases ec with
  | false => rfl
  | true => exact tick_part_close { s with writes := s.writes - 1 } false

theorem tick_part_retry_handler (s : session_life) (ec refused : Bool) :
    (s.retry_handler ec refused).tick_part = s.tick_part := by
  unfold retry_handler
  cases ec with
  | false => exact tick_part_pick_entire_msgs s refused
  | true => exact tick_part_close s false

theorem tick_part_async_connect (s : session_life) : s.async_connect.tick_part = s.tick_part := by
  unfold async_connect
  split
  · rfl
  split <;> rfl

theorem tick_part_connect_handler (s : session_life) (ec : Bool) :
    (s.connect_handler ec).tick_part = s.tick_part := by
  unfold connect_handler
  cases ec with
  | false =>
    exact tick_part_async_recv_loop { s with connects := s.connects - 1, _state := .CONNECTING }
  | true => exact tick_part_close { s with connects := s.connects - 1 } false

theorem tick_part_tick_alive (s : session_life) (now : time_point) :
    (s.tick_alive now).tick_part = s.tick_part := by
  unfold tick_alive kick
  split
  · rfl
  split
  · exact tick_part_close s true
  split
  · exact tick_part_async_send s now
  · rfl

/-- The body of `close` cancels the tick's wait, unless the session is closed. -/
theorem tick_part_close_body (s : session_life) (elegantly : Bool) :
    (s.close_body elegantly).tick_part =
      if s._state = .CLOSE_DONE then s.tick_part
      else (s._tick_timer.cancel, s._tick_interval, s.destroyed, s.dangling) := by
  unfold close_body
  split
  · rfl
  simp only
  split
  · split <;> rfl
  · rfl

/-- `_tick_interval` divides the precision at least once. -/
def Divides (s : session_life) : Prop := KEEP_ALIVE_PRECISION / s._tick_interval ≠ 0

/-- The tick starts its next wait. -/
theorem tick_part_fixed_tick {s s' : session_life} {now : time_point}
    (h : s.fixed_tick now = some s') :
    s.Divides ∧ s'.tick_part =
      (s._tick_timer.expires_from_now.async_wait, s._tick_interval, s.destroyed, s.dangling) := by
  unfold fixed_tick is_tick_frame_effective at h
  split at h
  · cases h
  next hdivides =>
  refine ⟨hdivides, ?_⟩
  cases h
  have halive := tick_part_tick_alive { s with _keep_alive_frame_count :=
    (s._keep_alive_frame_count + 1) % 2 ^ 64 % (KEEP_ALIVE_PRECISION / s._tick_interval) } now
  by_cases heffective : (s._keep_alive_frame_count + 1) % 2 ^ 64 %
      (KEEP_ALIVE_PRECISION / s._tick_interval) = 0
  · simp only [heffective, decide_true, if_true] at halive ⊢
    simp only [tick_part, Prod.mk.injEq] at halive ⊢
    exact ⟨by rw [halive.1], halive.2⟩
  · simp only [heffective, decide_false]
    rfl

theorem fixed_tick_of_divides {s : session_life} (h : s.Divides) (now : time_point) :
    ∃ s', s.fixed_tick now = some s' := by
  unfold fixed_tick is_tick_frame_effective
  rw [if_neg h]
  exact ⟨_, rfl⟩

/-- What an event of the tick's timer does to it. -/
theorem exec_tick_timer_cases {s s' : session_life} {e : session_event}
    (h : s.exec_tick_timer e = some s') :
    (s._tick_timer.pending = true ∧
      s'.tick_part = (s._tick_timer.elapse, s._tick_interval, s.destroyed, s.dangling)) ∨
    (∃ ec t, s._tick_timer.take_handler ec = some t ∧
      if s.destroyed then s'.tick_part = (t, s._tick_interval, true, true)
      else s.Divides ∧
        s'.tick_part = (t.expires_from_now.async_wait, s._tick_interval, false, s.dangling)) := by
  unfold exec_tick_timer at h
  split at h
  · split at h <;> cases h
    next hpending => exact Or.inl ⟨hpending, rfl⟩
  · next now ec =>
    unfold tick_handler at h
    obtain ⟨t, ht, h⟩ := Option.bind_eq_some_iff.mp h
    refine Or.inr ⟨ec, t, ht, ?_⟩
    simp only at h
    split at h
    · next hdestroyed =>
      cases h
      simp only [tick_part, hdestroyed, if_true]
    · next hdestroyed =>
      have htick := tick_part_fixed_tick h
      simp only [hdestroyed, if_false, Bool.false_eq_true] at htick ⊢
      exact ⟨htick.1, htick.2⟩
  · cases h

/-- **One step** as the tick sees it. -/
theorem exec_tick_cases {s s' : session_life} {e : session_event} (h : s.exec e = some s') :
    s'.tick_part = s.tick_part ∨
    (∃ interval timeout now, e = .start_tick interval timeout now ∧ s.destroyed = false ∧
      KEEP_ALIVE_PRECISION / interval ≠ 0 ∧
      s'.tick_part = (s._tick_timer.expires_from_now.async_wait, interval, false, s.dangling)) ∨
    (s._tick_timer.pending = true ∧
      s'.tick_part = (s._tick_timer.elapse, s._tick_interval, s.destroyed, s.dangling)) ∨
    (∃ ec t, s._tick_timer.take_handler ec = some t ∧
      if s.destroyed then s'.tick_part = (t, s._tick_interval, true, true)
      else s.Divides ∧
        s'.tick_part = (t.expires_from_now.async_wait, s._tick_interval, false, s.dangling)) ∨
    (s.destroyed = false ∧ ∃ destroyed,
      s'.tick_part = (s._tick_timer.cancel, s._tick_interval, destroyed, s.dangling)) := by
  unfold exec at h
  split at h
  · exact Or.inr (Or.inr ((exec_tick_timer_cases h).imp_right Or.inl))
  next hdestroyed =>
  have hd : s.destroyed = false := Bool.eq_false_of_not_eq_true hdestroyed
  cases e with
  | modify_session_logic =>
    cases h
    exact Or.inl rfl
  | accept =>
    simp only [exec_alive] at h
    split at h <;> cases h
    exact Or.inl rfl
  | async_connect =>
    cases h
    exact Or.inl (tick_part_async_connect s)
  | connect_handler ec =>
    simp only [exec_alive] at h
    split at h <;> cases h
    exact Or.inl (tick_part_connect_handler s ec)
  | passively_connect_succ =>
    cases h
    exact Or.inl (tick_part_async_recv_loop { s with _state := .CONNECTING })
  | start_tick interval timeout now =>
    simp only [exec_alive, start_tick] at h
    obtain ⟨hdivides, htick⟩ := tick_part_fixed_tick h
    simp only [hd] at htick
    exact Or.inr (Or.inl ⟨interval, timeout, now, rfl, hd, hdivides, htick⟩)
  | async_send now =>
    cases h
    exact Or.inl (tick_part_async_send s now)
  | read_handler now ec refused =>
    simp only [exec_alive] at h
    split at h <;> cases h
    exact Or.inl (tick_part_read_handler s now ec refused)
  | write_handler ec =>
    simp only [exec_alive] at h
    split at h <;> cases h
    exact Or.inl (tick_part_write_handler s ec)
  | timer_elapses =>
    simp only [exec_alive] at h
    split at h <;> cases h
    exact Or.inl rfl
  | retry_handler ec refused =>
    obtain ⟨t, -, rfl⟩ := Option.map_eq_some_iff.mp h
    exact Or.inl (tick_part_retry_handler { s with _timer := t } ec refused)
  | tick_timer_elapses =>
    have hcases := exec_tick_timer_cases (e := .tick_timer_elapses) h
    exact Or.inr (Or.inr (hcases.imp_right Or.inl))
  | fixed_tick now ec =>
    have hcases := exec_tick_timer_cases (e := .fixed_tick now ec) h
    exact Or.inr (Or.inr (hcases.imp_right Or.inl))
  | close elegantly =>
    cases h
    exact Or.inl (tick_part_close s elegantly)
  | kick =>
    cases h
    exact Or.inl (tick_part_close s true)
  | run_posted =>
    simp only [exec_alive] at h
    split at h <;> cases h
    next elegantly posted hposted =>
    have hbody := tick_part_close_body { s with posted := posted } elegantly
    split at hbody
    · exact Or.inl hbody
    · exact Or.inr (Or.inr (Or.inr (Or.inr ⟨hd, _, hbody⟩)))
  | destroy =>
    simp only [exec_alive] at h
    split at h <;> cases h
    exact Or.inr (Or.inr (Or.inr (Or.inr ⟨hd, true, rfl⟩)))

/-! ### A tick that was started goes on -/

/-- No wait was ever started, none is pending and none has left a handler. -/
def NotTicking (s : session_life) : Prop :=
  s._tick_timer = steady_timer.constructed ∧ s.dangling = false

/-- Once a wait was started there is always one, or a handler that starts the next. -/
structure Ticks (s : session_life) : Prop where
  not_started : s._tick_timer.waits = 0 → s.NotTicking
  outstanding : s.destroyed = false → 0 < s._tick_timer.waits → s._tick_timer.Outstanding
  divides : s.destroyed = false → 0 < s._tick_timer.waits → s.Divides

/-- Not the call that starts the tick. -/
def NoStart (_ : session_life) : session_event → Prop
  | .start_tick _ _ _ => False
  | _ => True

/-- A tick that was not started has nothing to run. -/
theorem notTicking_exec {s s' : session_life} {e : session_event} (h : s.NotTicking)
    (hguard : NoStart s e) (hexec : s.exec e = some s') : s'.NotTicking := by
  obtain ⟨htimer, hdangling⟩ := h
  have hpart : ∀ {t interval destroyed dangling}, s'.tick_part = (t, interval, destroyed, dangling) →
      t = steady_timer.constructed → dangling = false → s'.NotTicking := by
    intro t interval destroyed dangling hs' ht hd
    simp only [tick_part, Prod.mk.injEq] at hs'
    exact ⟨hs'.1.trans ht, hs'.2.2.2.trans hd⟩
  rcases exec_tick_cases hexec with hs' | ⟨interval, timeout, now, rfl, -⟩ | ⟨hpending, -⟩ |
    ⟨ec, t, ht, -⟩ | ⟨-, destroyed, hs'⟩
  · exact hpart hs' htimer hdangling
  · exact hguard.elim
  · rw [htimer] at hpending
    cases hpending
  · rw [htimer, steady_timer.take_handler_constructed] at ht
    cases ht
  · exact hpart hs' (by rw [htimer]; rfl) hdangling

theorem ticks_of_tick_part {s' : session_life} {t : steady_timer} {interval : Nat}
    {destroyed dangling : Bool} (hs' : s'.tick_part = (t, interval, destroyed, dangling))
    (hnot : t.waits = 0 → t = steady_timer.constructed ∧ dangling = false)
    (hout : destroyed = false → 0 < t.waits → t.Outstanding)
    (hdiv : destroyed = false → 0 < t.waits → KEEP_ALIVE_PRECISION / interval ≠ 0) :
    s'.Ticks := by
  simp only [tick_part, Prod.mk.injEq] at hs'
  obtain ⟨rfl, rfl, rfl, rfl⟩ := hs'
  exact ⟨hnot, hout, hdiv⟩

theorem ticks_exec {s s' : session_life} {e : session_event} (h : s.Ticks)
    (hexec : s.exec e = some s') : s'.Ticks := by
  rcases exec_tick_cases hexec with hs' | ⟨interval, timeout, now, -, -, hdivides, hs'⟩ |
    ⟨hpending, hs'⟩ | ⟨ec, t, ht, hs'⟩ | ⟨hd, destroyed, hs'⟩
  · exact ticks_of_tick_part hs' h.not_started h.outstanding h.divides
  · -- the tick is started
    refine ticks_of_tick_part hs' (fun hw => nomatch hw) ?_ (fun _ _ => hdivides)
    intro _ _
    exact Or.inl rfl
  · refine ticks_of_tick_part hs' ?_ ?_ h.divides
    · intro hw
      rw [(h.not_started hw).1] at hpending
      cases hpending
    · intro _ _
      exact Or.inr (Or.inl (Nat.succ_pos _))
  · split at hs'
    · next hd =>
      refine ticks_of_tick_part hs' ?_ nofun nofun
      intro hw
      -- a handler runs, so there was a wait
      rw [steady_timer.waits_take_handler ht] at hw
      rw [(h.not_started hw).1, steady_timer.take_handler_constructed] at ht
      cases ht
    · obtain ⟨hdivides, hs'⟩ := hs'
      refine ticks_of_tick_part hs' (fun hw => nomatch hw) ?_ (fun _ _ => hdivides)
      intro _ _
      exact Or.inl rfl
  · refine ticks_of_tick_part hs' ?_ ?_ ?_
    · intro hw
      obtain ⟨htimer, hdangling⟩ := h.not_started hw
      exact ⟨by rw [htimer]; rfl, hdangling⟩
    · intro _ hw
      exact steady_timer.outstanding_cancel (h.outstanding hd hw)
    · intro _ hw
      exact h.divides hd hw

theorem ticks_of_reachable : ∀ s, system.Reachable s → s.Ticks := by
  refine System.invariant ?_ ?_
  · rintro s ⟨now, interval, timeout, count, rfl⟩
    exact ⟨fun _ => ⟨rfl, rfl⟩, fun _ => nofun, fun _ => nofun⟩
  · intro s e s' h hexec
    exact ticks_exec h hexec

/-! ### Closing and the tick -/

/-- From `s` to `t` no wait of the tick was started; none is pending unless a handler
    is still to run; no handler has run on a destroyed object. -/
def TickStopped (s t : session_life) : Prop :=
  t._tick_timer.waits = s._tick_timer.waits ∧
    (t._tick_timer.elapsed = 0 → t._tick_timer.cancelled = 0 → t._tick_timer.pending = false) ∧
    t.dangling = false

theorem NotTicking.tickStopped {s t : session_life} (hs : s.NotTicking) (ht : t.NotTicking) :
    TickStopped s t := by
  refine ⟨by rw [hs.1, ht.1], ?_, ht.2⟩
  intro _ _
  rw [ht.1]
  rfl

/-- What the body of `close` leaves of the tick on an open session. -/
theorem exec_run_posted_tick {s s' : session_life} (hexec : s.exec .run_posted = some s')
    (hstate : s._state ≠ .CLOSE_DONE) :
    s.destroyed = false ∧
      s'.tick_part = (s._tick_timer.cancel, s._tick_interval, false, s.dangling) := by
  unfold exec at hexec
  split at hexec
  · cases hexec
  next hdestroyed =>
  have hd : s.destroyed = false := Bool.eq_false_of_not_eq_true hdestroyed
  simp only [exec_alive] at hexec
  split at hexec <;> cases hexec
  next elegantly posted hposted =>
  have hbody := tick_part_close_body { s with posted := posted } elegantly
  rw [if_neg hstate] at hbody
  exact ⟨hd, hbody.trans (by simp only [hd])⟩

/-- A handler that is queued starts the next wait. -/
theorem exec_fixed_tick_of_queued {s : session_life} (hd : s.destroyed = false)
    (hdivides : s.Divides) (hqueued : 0 < s._tick_timer.elapsed ∨ 0 < s._tick_timer.cancelled) :
    ∃ ec s', s.exec (.fixed_tick 0 ec) = some s' ∧
      s'._tick_timer.waits = s._tick_timer.waits + 1 := by
  obtain ⟨ec, t, ht⟩ : ∃ ec t, s._tick_timer.take_handler ec = some t := by
    rcases hqueued with h | h
    · exact ⟨false, _, by rw [steady_timer.take_handler, if_neg nofun, if_pos h]⟩
    · exact ⟨true, _, by rw [steady_timer.take_handler, if_pos rfl, if_pos h]⟩
  have hdivides' : ({ s with _tick_timer := t } : session_life).Divides := hdivides
  obtain ⟨s', hs'⟩ := fixed_tick_of_divides hdivides' 0
  refine ⟨ec, s', ?_, ?_⟩
  · rw [exec, if_neg (by simp [hd])]
    show s.tick_handler 0 ec = some s'
    rw [tick_handler, ht, Option.bind_eq_bind, Option.bind_some]
    simp only
    rw [if_neg (by simp [hd])]
    exact hs'
  · have htick := (tick_part_fixed_tick hs').2
    simp only [tick_part, Prod.mk.injEq] at htick
    rw [htick.1]
    show t.waits + 1 = _
    rw [steady_timer.waits_take_handler ht]

/-- **Stopping the tick, exactly.** After the body of a `close` has cleared the timers
    no wait of the tick is started, as long as `start_tick` is not called, if and
    only if none had been started before. -/
theorem tick_stopped_iff {s s' : session_life} (hr : system.Reachable s)
    (hstep : system.step s .run_posted s') (hstate : s._state ≠ .CLOSE_DONE) :
    (∀ t, ((system.restrict NoStart).startingAt s').Reachable t → TickStopped s' t) ↔
      s._tick_timer.waits = 0 := by
  have hticks := ticks_of_reachable s hr
  obtain ⟨hd, hpart⟩ := exec_run_posted_tick hstep hstate
  have hparts := hpart
  simp only [tick_part, Prod.mk.injEq] at hparts
  obtain ⟨htimer, hinterval, hd', -⟩ := hparts
  constructor
  · intro hstopped
    by_contra hwaits
    have hpos : 0 < s._tick_timer.waits := Nat.pos_of_ne_zero hwaits
    -- the wait was cancelled, and its handler is queued
    have hqueued : 0 < s'._tick_timer.elapsed ∨ 0 < s'._tick_timer.cancelled := by
      rw [htimer]
      rcases steady_timer.outstanding_cancel (hticks.outstanding hd hpos) with h | h | h
      · cases h
      · exact Or.inl h
      · exact Or.inr h
    have hdivides : s'.Divides := by
      unfold Divides
      rw [hinterval]
      exact hticks.divides hd hpos
    obtain ⟨ec, t, ht, hone⟩ := exec_fixed_tick_of_queued hd' hdivides hqueued
    have hnone := (hstopped t (.step (.fixed_tick 0 ec) (.init rfl) ⟨trivial, ht⟩)).1
    omega
  · intro hwaits t hrun
    have hnot : s'.NotTicking := notTicking_exec (hticks.not_started hwaits) (e := .run_posted) trivial hstep
    have ht : t.NotTicking := by
      refine System.invariant_startingAt hnot ?_ t hrun
      rintro t₁ e t₂ h ⟨hguard, hexec⟩
      exact notTicking_exec h hguard hexec
    exact hnot.tickStopped ht

/-- A session is accepted and kicked, and the body of `close` is about to run. -/
def accepted_and_kicked : List session_event := [.accept, .passively_connect_succ, .kick]

/-- Without a tick there is nothing to stop. -/
theorem tick_stopped_not_started :
    ∃ s', run (accepted_and_kicked ++ [.run_posted]) = some s' ∧ s'._state = .TO_CLOSE ∧
      ∀ t, ((system.restrict NoStart).startingAt s').Reachable t → TickStopped s' t := by
  obtain ⟨s, hs, hstate, hwaits⟩ : ∃ s, run accepted_and_kicked = some s ∧
      s._state ≠ .CLOSE_DONE ∧ s._tick_timer.waits = 0 := ⟨_, rfl, nofun, rfl⟩
  obtain ⟨s', hs', hstep⟩ : ∃ s', run (accepted_and_kicked ++ [.run_posted]) = some s' ∧
      s.exec .run_posted = some s' := by
    cases hs
    exact ⟨_, rfl, rfl⟩
  have hreach : (system.restrict fun _ _ => True).Reachable s :=
    .of_foldlM (.init ⟨0, 1000, 5000, 0, rfl⟩) _ (fun _ _ _ => trivial) hs
  refine ⟨s', hs', ?_, (tick_stopped_iff hreach.of_restrict hstep hstate).mpr hwaits⟩
  cases hs
  cases hstep
  rfl

/-- The cancelled handler of a tick starts the next wait. -/
theorem not_always_tick_stopped :
    ¬ ∀ s s', system.Reachable s → system.step s .run_posted s' → s.is_open = true →
      s._state ≠ .CLOSE_DONE →
      ∀ t, ((system.restrict NoStart).startingAt s').Reachable t → TickStopped s' t := by
  intro hall
  obtain ⟨s, hs⟩ : ∃ s, run (.start_tick 1000 5000 0 :: accepted_and_kicked) = some s := ⟨_, rfl⟩
  obtain ⟨s', hs', hwaits⟩ : ∃ s', s.exec .run_posted = some s' ∧ s'._tick_timer.waits = 1 := by
    cases hs
    exact ⟨_, rfl, rfl⟩
  obtain ⟨t, ht, hwaits'⟩ : ∃ t, s'.exec (.fixed_tick 0 true) = some t ∧
      t._tick_timer.waits = 2 := by
    cases hs
    cases hs'
    exact ⟨_, rfl, rfl⟩
  have hreach : (system.restrict fun _ _ => True).Reachable s :=
    .of_foldlM (.init ⟨0, 1000, 5000, 0, rfl⟩) _ (fun _ _ _ => trivial) hs
  have hstate : s.is_open = true ∧ s._state ≠ .CLOSE_DONE := by
    cases hs
    exact ⟨rfl, nofun⟩
  have hstopped := hall s s' hreach.of_restrict hs' hstate.1 hstate.2 t
    (.step (.fixed_tick 0 true) (.init rfl) ⟨trivial, ht⟩)
  have hsame := hstopped.1
  omega

end session_life

end AsioNet
