import Mathlib.Logic.Function.Basic
import AsioNet.SessionLife

/-! # Two ends that keep each other alive (`basic_async_session.cpp`)

    Both ends of a link tick. An end that has sent nothing for a while sends an
    empty frame, an end that has received nothing for longer than the timeout
    kicks. Time is explicit here: ticks and arrivals happen when they are due,
    the network chooses the delay of every frame.

    The frames' delays may differ by as much as `NET_PREDICTION_DELAY_MS_MAX`, and
    an end looks at what it has sent only once in `KEEP_ALIVE_PRECISION`. The
    timeout allows for the one or the other, but not for both: `never_kicked_iff`
    says that an end kicks exactly when it looks while a frame is overdue, and that
    none ever is if the delay grows by no more than the difference of the two from
    one frame to the next.
-/

namespace AsioNet

open TransitionSystem session_life

/-! ### The tick of one end -/

/-- Milliseconds in nanoseconds. -/
def ms (t : Int) : Int := t * NS_PER_MS

theorem duration_ms_le_iff {d t : Int} (ht : 0 ≤ t) : duration_ms d ≤ t ↔ d < ms (t + 1) := by
  unfold duration_ms ms NS_PER_MS
  rcases Int.le_total 0 d with hd | hd
  · rw [Int.tdiv_eq_ediv_of_nonneg hd]
    omega
  · -- rounding towards zero does not get above zero
    have hneg : 0 ≤ (-d).tdiv (1000000 : Nat) := Int.tdiv_nonneg (by omega) (by decide)
    rw [Int.neg_tdiv] at hneg
    omega

namespace session_life

/-- Number of ticks from one effective tick to the next. -/
def period (s : session_life) : Nat := KEEP_ALIVE_PRECISION / s._tick_interval

/-- The counter after the next tick, which is effective if this is zero. -/
def next_count (s : session_life) : Nat := (s._keep_alive_frame_count + 1) % 2 ^ 64 % s.period

/-- How long after the next tick the next effective one is, in milliseconds. -/
def wait_ms (s : session_life) : Nat :=
  (s.period - 1 - s._keep_alive_frame_count) * s._tick_interval

/-- The counter is one that a tick leaves. -/
structure Counts (s : session_life) : Prop where
  interval : s._tick_interval ∣ KEEP_ALIVE_PRECISION
  count : s._keep_alive_frame_count < s.period

theorem period_mul_interval {s : session_life} (h : s._tick_interval ∣ KEEP_ALIVE_PRECISION) :
    s.period * s._tick_interval = KEEP_ALIVE_PRECISION := Nat.div_mul_cancel h

theorem period_pos {s : session_life} (h : s._tick_interval ∣ KEEP_ALIVE_PRECISION) :
    0 < s.period := by
  have hmul := period_mul_interval h
  rcases Nat.eq_zero_or_pos s.period with hzero | hpos
  · rw [hzero, Nat.zero_mul] at hmul
    exact absurd hmul (by decide)
  · exact hpos

theorem next_count_lt {s : session_life} (h : s._tick_interval ∣ KEEP_ALIVE_PRECISION) :
    s.next_count < s.period := Nat.mod_lt _ (period_pos h)

theorem next_count_eq {s : session_life} (h : Counts s) :
    s.next_count = if s._keep_alive_frame_count + 1 = s.period then 0
      else s._keep_alive_frame_count + 1 := by
  have hcount := h.count
  have hle : s.period ≤ 1000 := Nat.div_le_self _ _
  unfold next_count
  rw [Nat.mod_eq_of_lt (by omega : s._keep_alive_frame_count + 1 < 2 ^ 64)]
  split
  · next heq => rw [heq, Nat.mod_self]
  · next hne => exact Nat.mod_eq_of_lt (by omega)

/-- A tick that only counts leaves the next effective one where it is. -/
theorem wait_ms_counted {s : session_life} (h : Counts s) (hcount : s.next_count ≠ 0) :
    { s with _keep_alive_frame_count := s.next_count }.wait_ms + s._tick_interval =
      s.wait_ms := by
  have hlt := next_count_lt h.interval
  rw [next_count_eq h] at hcount hlt ⊢
  split at hcount
  · exact absurd rfl hcount
  · next hne =>
    rw [if_neg hne] at hlt ⊢
    change (s.period - 1 - (s._keep_alive_frame_count + 1)) * s._tick_interval + s._tick_interval =
      (s.period - 1 - s._keep_alive_frame_count) * s._tick_interval
    rw [← Nat.succ_mul]
    congr 1
    omega

/-- From one effective tick to the next it is `KEEP_ALIVE_PRECISION`. -/
theorem wait_ms_zero {s : session_life} (h : s._tick_interval ∣ KEEP_ALIVE_PRECISION) :
    { s with _keep_alive_frame_count := 0 }.wait_ms + s._tick_interval = KEEP_ALIVE_PRECISION := by
  have hpos := period_pos h
  rw [← period_mul_interval h]
  change (s.period - 1 - 0) * s._tick_interval + s._tick_interval = s.period * s._tick_interval
  rw [← Nat.succ_mul]
  congr 1
  omega

theorem wait_ms_le {s : session_life} (h : Counts s) :
    s.wait_ms + s._tick_interval ≤ KEEP_ALIVE_PRECISION := by
  rw [← wait_ms_zero h.interval]
  exact Nat.add_le_add_right (Nat.mul_le_mul_right _ (Nat.sub_le_sub_left (Nat.zero_le _) _)) _

/-- **One tick** counts, and an effective one looks at the times. -/
theorem fixed_tick_cases {s s' : session_life} {now : time_point}
    (h : s.fixed_tick now = some s') :
    ∃ x, s' = { x with _tick_timer := x._tick_timer.expires_from_now.async_wait } ∧
      ((s.next_count ≠ 0 ∧ x = { s with _keep_alive_frame_count := s.next_count }) ∨
       (s.next_count = 0 ∧ x = { s with _keep_alive_frame_count := 0 }.tick_alive now)) := by
  unfold fixed_tick at h
  rcases Option.bind_eq_some_iff.mp h with ⟨⟨effective, count⟩, hcount, h⟩
  unfold is_tick_frame_effective at hcount
  split at hcount
  · cases hcount
  · obtain ⟨heffective, rfl⟩ := Prod.mk.inj (Option.some.inj hcount)
    refine ⟨_, (Option.some.inj h).symm, ?_⟩
    by_cases hzero : s.next_count = 0
    · right
      refine ⟨hzero, ?_⟩
      have htrue : effective = true := heffective.symm.trans (decide_eq_true hzero)
      have hzero' : (s._keep_alive_frame_count + 1) % 2 ^ 64 %
        (KEEP_ALIVE_PRECISION / s._tick_interval) = 0 := hzero
      rw [if_pos htrue, hzero']
    · left
      have hfalse : effective = false := heffective.symm.trans (decide_eq_false hzero)
      rw [hfalse]
      exact ⟨hzero, rfl⟩

/-- An end that is connected kicks, sends or does nothing. -/
theorem tick_alive_cases {s : session_life} (hstate : s._state = .CONNECTING) (now : time_point) :
    (duration_ms (now - s._last_recv_time) > s._keep_alive_timeout ∧
      s.tick_alive now = { s with posted := s.posted ++ [true] }) ∨
    (duration_ms (now - s._last_recv_time) ≤ s._keep_alive_timeout ∧
      duration_ms (now - s._last_send_time) > s._keep_alive_timeout - NET_PREDICTION_DELAY_MS_MAX ∧
      s.tick_alive now = { s with _last_send_time := now, writes := s.writes + 1 }) ∨
    (duration_ms (now - s._last_recv_time) ≤ s._keep_alive_timeout ∧
      duration_ms (now - s._last_send_time) ≤ s._keep_alive_timeout - NET_PREDICTION_DELAY_MS_MAX ∧
      s.tick_alive now = s) := by
  unfold tick_alive
  rw [if_neg (not_not_intro hstate)]
  split
  · next hlate =>
    left
    refine ⟨hlate, ?_⟩
    unfold kick close
    rw [if_neg]
    rw [hstate]
    decide
  · next hrecv =>
    right
    split
    · next hsend =>
      left
      refine ⟨not_lt.mp hrecv, hsend, ?_⟩
      unfold async_send
      rw [if_neg (not_not_intro hstate)]
    · next hsend => exact Or.inr ⟨not_lt.mp hrecv, not_lt.mp hsend, rfl⟩

end session_life

/-! ### The link -/

/-- A frame on its way. -/
structure net_frame where
  sent : time_point
  arrival : time_point

namespace net_frame

def delay (f : net_frame) : Int := f.arrival - f.sent

end net_frame

/-- What one end has sent to the other. -/
structure net_link where
  /-- The frame that arrived last. -/
  last_arrived : net_frame
  /-- The frames on their way, in order. -/
  in_flight : List net_frame

namespace net_link

/-- The frame that was sent last. -/
def last_sent (l : net_link) : net_frame := l.in_flight.getLastD l.last_arrived

end net_link

/-- One end of the link. -/
structure keep_alive_end where
  session : session_life
  /-- When the wait on `_tick_timer` elapses. -/
  next_tick : time_point

structure keep_alive_run where
  now : time_point
  ends : Bool → keep_alive_end
  /-- `link b` leads from end `b` to end `!b`. -/
  link : Bool → net_link

inductive keep_alive_event where
  /-- time goes on -/
  | elapse (t : time_point)
  /-- the tick of end `b` is due; the network delays the frame it may send -/
  | tick (b : Bool) (delay : Int)
  /-- the application of end `b` sends -/
  | app_send (b : Bool) (delay : Int)
  /-- the first frame end `b` has on its way arrives -/
  | deliver (b : Bool)

namespace keep_alive_run

/-- End `b` has got to the state `e`. If it wrote a frame, the network takes it: it
    is delayed by `delay` and does not overtake those before it. -/
def transmit (s : keep_alive_run) (b : Bool) (e : keep_alive_end) (delay : Int) :
    Option keep_alive_run :=
  let ends := Function.update s.ends b e
  if e.session.writes = (s.ends b).session.writes then some { s with ends := ends }
  else
    if 0 ≤ delay ∧ delay ≤ ms NET_PREDICTION_DELAY_MS_MAX ∧
        (s.link b).last_sent.arrival ≤ s.now + delay then
      some { s with
        ends := ends
        link := Function.update s.link b { s.link b with
          in_flight := (s.link b).in_flight ++ [⟨s.now, s.now + delay⟩] } }
    else none

/-- Nothing that is due by `t` is left behind. -/
def OnTime (s : keep_alive_run) (t : time_point) : Prop :=
  ∀ b, t ≤ (s.ends b).next_tick ∧ ∀ f ∈ (s.link b).in_flight.head?, t ≤ f.arrival

instance (s : keep_alive_run) (t : time_point) : Decidable (s.OnTime t) := by
  unfold OnTime
  infer_instance

def exec (s : keep_alive_run) : keep_alive_event → Option keep_alive_run
  | .elapse t => if s.now ≤ t ∧ s.OnTime t then some { s with now := t } else none
  | .tick b delay =>
    if s.now = (s.ends b).next_tick then do
      let session ← (s.ends b).session.fixed_tick s.now
      s.transmit b ⟨session, s.now + ms (s.ends b).session._tick_interval⟩ delay
    else none
  | .app_send b delay =>
    s.transmit b { s.ends b with session := (s.ends b).session.async_send s.now } delay
  | .deliver b =>
    match (s.link b).in_flight with
    | [] => none
    | f :: in_flight =>
      if f.arrival = s.now then
        some { s with
          ends := Function.update s.ends (!b) { s.ends (!b) with
            session := (s.ends (!b)).session.read_handler s.now false false }
          link := Function.update s.link b ⟨f, in_flight⟩ }
      else none

/-- The link is up and both ends have called `start_tick`, with the same timeout.
    The phase of the ticks is any. That the link has come up counts as the frame that
    arrived last. -/
structure Starts (T : Int) (s : keep_alive_run) : Prop where
  started : ∀ b, ∃ (session : session_life) (interval : Nat), session._state = .CONNECTING ∧
    session.posted = [] ∧ interval ∣ KEEP_ALIVE_PRECISION ∧
    session.start_tick interval T s.now = some (s.ends b).session ∧
    s.now ≤ (s.ends b).next_tick ∧ (s.ends b).next_tick ≤ s.now + ms interval
  quiet : ∀ b, s.link b = ⟨⟨s.now, s.now⟩, []⟩

def system (T : Int) : System keep_alive_run keep_alive_event := System.ofExec (Starts T) exec

/-- No end has called `kick`. -/
def NeverKicked (s : keep_alive_run) : Prop := ∀ b, (s.ends b).session.posted = []

/-- A tick of end `b` is effective and the last frame has arrived longer than the
    timeout ago, while the next one is on its way. -/
def Overdue (s : keep_alive_run) (b : Bool) : Prop :=
  (s.ends b).session.next_count = 0 ∧ (s.link (!b)).in_flight ≠ [] ∧
    duration_ms (s.now - (s.ends b).session._last_recv_time) >
      (s.ends b).session._keep_alive_timeout

/-- No frame on its way is overdue when an end looks. -/
def InTime (s : keep_alive_run) : keep_alive_event → Prop
  | .tick b _ => ¬ s.Overdue b
  | _ => True

/-- The delay grows by no more than the prediction leaves beyond the precision. -/
def Steady (s : keep_alive_run) : keep_alive_event → Prop
  | .tick b delay | .app_send b delay =>
    delay ≤ (s.link b).last_sent.delay +
      ms (NET_PREDICTION_DELAY_MS_MAX - KEEP_ALIVE_PRECISION)
  | _ => True

/-! ### One end -/

/-- An end of timeout `T` is connected and has not kicked, its ticks are on time, and
    the next effective one looks before the timeout less the prediction and plus the
    precision is over. -/
structure Ticking (T : Int) (now : time_point) (e : keep_alive_end) : Prop where
  state : e.session._state = .CONNECTING
  posted : e.session.posted = []
  timeout : e.session._keep_alive_timeout = T
  counts : e.session.Counts
  on_time : now ≤ e.next_tick
  sent : e.session._last_send_time ≤ now
  due : e.next_tick + ms e.session.wait_ms <
    e.session._last_send_time + ms (T - NET_PREDICTION_DELAY_MS_MAX + 1) + ms KEEP_ALIVE_PRECISION

/-- The session has written at `now`, or has not and remembers when it last did. -/
def Wrote (now : time_point) (s s' : session_life) : Prop :=
  (s'.writes = s.writes ∧ s'._last_send_time = s._last_send_time) ∨
    (s'.writes ≠ s.writes ∧ s'._last_send_time = now)

theorem ms_add (a b : Int) : ms (a + b) = ms a + ms b := Int.add_mul a b NS_PER_MS

theorem ms_le_ms {a b : Int} (h : a ≤ b) : ms a ≤ ms b :=
  Int.mul_le_mul_of_nonneg_right h (by decide)

theorem ms_pos {a : Int} (h : 0 < a) : 0 < ms a := Int.mul_pos h (by decide)

variable {T : Int} {now : time_point} {e : keep_alive_end}

/-- Sending moves the deadline of the next effective tick away. -/
theorem Ticking.async_send (h : Ticking T now e) :
    Ticking T now { e with session := e.session.async_send now } ∧
      (e.session.async_send now)._last_recv_time = e.session._last_recv_time ∧
      Wrote now e.session (e.session.async_send now) := by
  have hsend : e.session.async_send now =
      { e.session with _last_send_time := now, writes := e.session.writes + 1 } := by
    unfold session_life.async_send
    rw [if_neg (not_not_intro h.state)]
  rw [hsend]
  refine ⟨⟨h.state, h.posted, h.timeout, ⟨h.counts.interval, h.counts.count⟩, h.on_time,
    Int.le_refl _, ?_⟩, rfl, Or.inr ⟨Nat.succ_ne_self _, rfl⟩⟩
  calc e.next_tick + ms e.session.wait_ms
      < e.session._last_send_time + ms (T - NET_PREDICTION_DELAY_MS_MAX + 1) +
        ms KEEP_ALIVE_PRECISION := h.due
    _ ≤ now + ms (T - NET_PREDICTION_DELAY_MS_MAX + 1) + ms KEEP_ALIVE_PRECISION :=
      Int.add_le_add_right (Int.add_le_add_right h.sent _) _

theorem Ticking.read_handler (h : Ticking T now e) :
    Ticking T now { e with session := e.session.read_handler now false false } ∧
      (e.session.read_handler now false false)._last_recv_time = now ∧
      (e.session.read_handler now false false)._last_send_time = e.session._last_send_time := by
  have hread : e.session.read_handler now false false =
      { e.session with reads := e.session.reads - 1 + 1, _last_recv_time := now } := by
    unfold session_life.read_handler pick_entire_msgs async_recv_loop
    exact if_neg (not_not_intro h.state)
  rw [hread]
  exact ⟨⟨h.state, h.posted, h.timeout, ⟨h.counts.interval, h.counts.count⟩, h.on_time, h.sent,
    h.due⟩, rfl, rfl⟩

/-- A tick that does not kick keeps the deadline: it counts on, or the times are
    fresh. -/
theorem Ticking.fixed_tick (h : Ticking T now e) (hT : NET_PREDICTION_DELAY_MS_MAX < T)
    (hnow : now = e.next_tick) {session : session_life}
    (htick : e.session.fixed_tick now = some session)
    (hrecv : e.session.next_count = 0 →
      duration_ms (now - e.session._last_recv_time) ≤ e.session._keep_alive_timeout) :
    Ticking T now ⟨session, now + ms e.session._tick_interval⟩ ∧
      session._last_recv_time = e.session._last_recv_time ∧ Wrote now e.session session := by
  have hinterval : 0 ≤ ms e.session._tick_interval := ms_le_ms (Int.natCast_nonneg _)
  have hlater : now ≤ now + ms e.session._tick_interval :=
    Int.le_add_of_nonneg_right hinterval
  have hzero : Counts { e.session with _keep_alive_frame_count := 0 } :=
    ⟨h.counts.interval, period_pos h.counts.interval⟩
  -- after an effective tick the next one is `KEEP_ALIVE_PRECISION` away
  have hfull : ms e.session._tick_interval +
      ms { e.session with _keep_alive_frame_count := 0 }.wait_ms = ms KEEP_ALIVE_PRECISION := by
    rw [← ms_add, ← wait_ms_zero h.counts.interval, Int.add_comm]
    rfl
  have hwait := h.due
  rcases fixed_tick_cases htick with ⟨x, rfl, ⟨hcount, rfl⟩ | ⟨hcount, rfl⟩⟩
  · refine ⟨⟨h.state, h.posted, h.timeout, ⟨h.counts.interval, next_count_lt h.counts.interval⟩,
      hlater, h.sent, ?_⟩, rfl, Or.inl ⟨rfl, rfl⟩⟩
    have hmove : ms e.session._tick_interval +
        ms { e.session with _keep_alive_frame_count := e.session.next_count }.wait_ms =
        ms e.session.wait_ms := by
      rw [← ms_add, ← wait_ms_counted h.counts hcount, Int.add_comm]
      rfl
    change now + ms e.session._tick_interval +
      ms { e.session with _keep_alive_frame_count := e.session.next_count }.wait_ms < _
    rw [Int.add_assoc, hmove, hnow]
    exact h.due
  · have hfresh := hrecv hcount
    rcases tick_alive_cases (s := { e.session with _keep_alive_frame_count := 0 }) h.state now with
      ⟨hlate, -⟩ | ⟨-, -, halive⟩ | ⟨-, hsend, halive⟩
    · exact absurd hfresh (not_le.mpr hlate)
    · rw [halive]
      refine ⟨⟨h.state, h.posted, h.timeout, ⟨hzero.interval, hzero.count⟩, hlater,
        Int.le_refl _, ?_⟩, rfl, Or.inr ⟨Nat.succ_ne_self _, rfl⟩⟩
      have hpos : 0 < ms (T - NET_PREDICTION_DELAY_MS_MAX + 1) := ms_pos (by omega)
      change now + ms e.session._tick_interval +
        ms { e.session with _keep_alive_frame_count := 0 }.wait_ms < now + _ + _
      rw [Int.add_assoc, hfull]
      exact Int.add_lt_add_right (Int.lt_add_of_pos_right now hpos) _
    · rw [halive]
      refine ⟨⟨h.state, h.posted, h.timeout, ⟨hzero.interval, hzero.count⟩, hlater, h.sent, ?_⟩,
        rfl, Or.inl ⟨rfl, rfl⟩⟩
      change duration_ms (now - e.session._last_send_time) ≤
        e.session._keep_alive_timeout - NET_PREDICTION_DELAY_MS_MAX at hsend
      rw [h.timeout, duration_ms_le_iff (by omega)] at hsend
      change now + ms e.session._tick_interval +
        ms { e.session with _keep_alive_frame_count := 0 }.wait_ms <
        e.session._last_send_time + _ + _
      rw [Int.add_assoc, hfull]
      exact Int.add_lt_add_right (Int.lt_add_of_sub_left_lt hsend) _

/-! ### Both ends and the link -/

/-- The sender remembers when it sent the last frame, the receiver when the last one
    arrived, and none arrives before it is sent. -/
structure Carries (l : net_link) (last_send last_recv : time_point) : Prop where
  sent : l.last_sent.sent = last_send
  arrived : l.last_arrived.arrival = last_recv
  delays : ∀ f ∈ l.last_arrived :: l.in_flight, f.sent ≤ f.arrival

/-- **Invariant.** -/
def KeepsTime (T : Int) (s : keep_alive_run) : Prop :=
  ∀ b, Ticking T s.now (s.ends b) ∧
    Carries (s.link b) (s.ends b).session._last_send_time (s.ends (!b)).session._last_recv_time

theorem transmit_cases {s s' : keep_alive_run} {b : Bool} {e : keep_alive_end} {delay : Int}
    (h : s.transmit b e delay = some s') :
    (e.session.writes = (s.ends b).session.writes ∧
      s' = { s with ends := Function.update s.ends b e }) ∨
    (e.session.writes ≠ (s.ends b).session.writes ∧ 0 ≤ delay ∧
      (s.link b).last_sent.arrival ≤ s.now + delay ∧
      s' = { s with
        ends := Function.update s.ends b e
        link := Function.update s.link b { s.link b with
          in_flight := (s.link b).in_flight ++ [⟨s.now, s.now + delay⟩] } }) := by
  unfold transmit at h
  simp only at h
  split at h
  · next heq => exact Or.inl ⟨heq, (Option.some.inj h).symm⟩
  · next hne =>
    split at h
    · next hdelay => exact Or.inr ⟨hne, hdelay.1, hdelay.2.2, (Option.some.inj h).symm⟩
    · cases h

theorem carries_send {l : net_link} {last_send last_recv : time_point}
    (h : Carries l last_send last_recv) {delay : Int} (hdelay : 0 ≤ delay) :
    Carries { l with in_flight := l.in_flight ++ [⟨now, now + delay⟩] } now last_recv := by
  refine ⟨?_, h.arrived, ?_⟩
  · unfold net_link.last_sent
    rw [List.getLastD_concat]
  · intro f hf
    rw [List.mem_cons, List.mem_append, List.mem_singleton] at hf
    rcases hf with rfl | hf | rfl
    · exact h.delays _ List.mem_cons_self
    · exact h.delays f (List.mem_cons_of_mem _ hf)
    · exact Int.le_add_of_nonneg_right hdelay

theorem carries_deliver {l : net_link} {last_send last_recv : time_point}
    (h : Carries l last_send last_recv) {f : net_frame} {in_flight : List net_frame}
    (hflight : l.in_flight = f :: in_flight) :
    Carries ⟨f, in_flight⟩ last_send f.arrival := by
  refine ⟨?_, rfl, ?_⟩
  · rw [← h.sent]
    unfold net_link.last_sent
    rw [hflight, List.getLastD_cons]
  · intro g hg
    rw [← hflight] at hg
    exact h.delays g (List.mem_cons_of_mem _ hg)

/-- What one end does to itself and the network to its frame keeps the invariant. -/
theorem keepsTime_transmit {s s' : keep_alive_run} (hs : KeepsTime T s) {b : Bool} {delay : Int}
    (he : Ticking T s.now e)
    (hrecv : e.session._last_recv_time = (s.ends b).session._last_recv_time)
    (hwrote : Wrote s.now (s.ends b).session e.session) (h : s.transmit b e delay = some s') :
    KeepsTime T s' := by
  have hrecv' : ∀ c, (Function.update s.ends b e c).session._last_recv_time =
      (s.ends c).session._last_recv_time := by
    intro c
    rw [Function.update_apply]
    split
    · next hc => rw [hc, hrecv]
    · rfl
  intro c
  rcases transmit_cases h with ⟨hwrites, rfl⟩ | ⟨hwrites, hdelay, -, rfl⟩
  · have hsend : e.session._last_send_time = (s.ends b).session._last_send_time := by
      rcases hwrote with hsame | hnew
      · exact hsame.2
      · exact absurd hwrites hnew.1
    show Ticking T s.now (Function.update s.ends b e c) ∧ Carries (s.link c)
      (Function.update s.ends b e c).session._last_send_time
      (Function.update s.ends b e !c).session._last_recv_time
    rw [hrecv']
    by_cases hc : c = b
    · subst hc
      rw [Function.update_self, hsend]
      exact ⟨he, (hs c).2⟩
    · rw [Function.update_of_ne hc]
      exact hs c
  · have hsend : e.session._last_send_time = s.now := by
      rcases hwrote with hsame | hnew
      · exact absurd hsame.1 hwrites
      · exact hnew.2
    show Ticking T s.now (Function.update s.ends b e c) ∧ Carries (Function.update s.link b _ c)
      (Function.update s.ends b e c).session._last_send_time
      (Function.update s.ends b e !c).session._last_recv_time
    rw [hrecv']
    by_cases hc : c = b
    · subst hc
      rw [Function.update_self, Function.update_self, hsend]
      exact ⟨he, carries_send (hs c).2 hdelay⟩
    · rw [Function.update_of_ne hc, Function.update_of_ne hc]
      exact hs c

/-- If nothing is on its way to an end, the other end has looked recently enough. -/
theorem fresh_of_in_flight_eq_nil {s : keep_alive_run} (hs : KeepsTime T s)
    (hT : NET_PREDICTION_DELAY_MS_MAX < T) {b : Bool} (hnil : (s.link (!b)).in_flight = []) :
    duration_ms (s.now - (s.ends b).session._last_recv_time) ≤ T := by
  obtain ⟨hsender, hlink⟩ := hs (!b)
  rw [Bool.not_not] at hlink
  have hlast : (s.link (!b)).last_sent = (s.link (!b)).last_arrived := by
    unfold net_link.last_sent
    rw [hnil]
    rfl
  have hsent := hlink.delays _ List.mem_cons_self
  rw [← hlast, hlink.sent, hlast, hlink.arrived] at hsent
  have hwait : 0 ≤ ms (s.ends (!b)).session.wait_ms := ms_le_ms (Int.natCast_nonneg _)
  rw [duration_ms_le_iff (by omega)]
  refine Int.sub_left_lt_of_lt_add ?_
  calc s.now
      ≤ (s.ends (!b)).next_tick := hsender.on_time
    _ ≤ (s.ends (!b)).next_tick + ms (s.ends (!b)).session.wait_ms :=
      Int.le_add_of_nonneg_right hwait
    _ < (s.ends (!b)).session._last_send_time + ms (T - NET_PREDICTION_DELAY_MS_MAX + 1) +
        ms KEEP_ALIVE_PRECISION := hsender.due
    _ = (s.ends (!b)).session._last_send_time +
        ms (T - NET_PREDICTION_DELAY_MS_MAX + 1 + KEEP_ALIVE_PRECISION) := by
      rw [Int.add_assoc, ← ms_add]
    _ ≤ (s.ends b).session._last_recv_time + ms (T + 1) := by
      refine Int.add_le_add hsent (ms_le_ms ?_)
      unfold NET_PREDICTION_DELAY_MS_MAX KEEP_ALIVE_PRECISION
      omega

theorem fresh_of_not_overdue {s : keep_alive_run} (hs : KeepsTime T s)
    (hT : NET_PREDICTION_DELAY_MS_MAX < T) {b : Bool} (h : ¬ s.Overdue b)
    (hcount : (s.ends b).session.next_count = 0) :
    duration_ms (s.now - (s.ends b).session._last_recv_time) ≤
      (s.ends b).session._keep_alive_timeout := by
  by_cases hnil : (s.link (!b)).in_flight = []
  · rw [(hs b).1.timeout]
    exact fresh_of_in_flight_eq_nil hs hT hnil
  · by_contra hlate
    exact h ⟨hcount, hnil, not_le.mp hlate⟩

/-- **One step** at which no frame is overdue keeps the invariant. -/
theorem keepsTime_exec {s s' : keep_alive_run} {ev : keep_alive_event} (hs : KeepsTime T s)
    (hT : NET_PREDICTION_DELAY_MS_MAX < T) (hguard : InTime s ev) (h : s.exec ev = some s') :
    KeepsTime T s' := by
  unfold exec at h
  cases ev with
  | elapse t =>
    simp only at h
    split at h
    · next ht =>
      cases h
      intro b
      obtain ⟨hb, hlink⟩ := hs b
      exact ⟨⟨hb.state, hb.posted, hb.timeout, hb.counts, (ht.2 b).1, hb.sent.trans ht.1, hb.due⟩,
        hlink⟩
    · cases h
  | tick b delay =>
    simp only at h
    split at h
    · next hnow =>
      obtain ⟨session, htick, h⟩ := Option.bind_eq_some_iff.mp h
      obtain ⟨he, hrecv, hwrote⟩ := (hs b).1.fixed_tick hT hnow htick
        (fresh_of_not_overdue hs hT hguard)
      exact keepsTime_transmit hs he hrecv hwrote h
    · cases h
  | app_send b delay =>
    obtain ⟨he, hrecv, hwrote⟩ := (hs b).1.async_send
    exact keepsTime_transmit hs he hrecv hwrote h
  | deliver b =>
    simp only at h
    split at h
    · cases h
    · next f in_flight hflight =>
      split at h
      · next hnow =>
        cases h
        obtain ⟨he, hrecv, hsend⟩ := (hs (!b)).1.read_handler
        intro c
        by_cases hc : c = b
        · -- the frame's link: what arrived last is what the other end remembers
          subst hc
          have hne : c ≠ !c := by cases c <;> decide
          show Ticking T s.now (Function.update s.ends (!c) _ c) ∧
            Carries (Function.update s.link c _ c)
              (Function.update s.ends (!c) _ c).session._last_send_time
              (Function.update s.ends (!c) _ !c).session._last_recv_time
          rw [Function.update_self, Function.update_self, Function.update_of_ne hne, hrecv]
          exact ⟨(hs c).1, hnow ▸ carries_deliver (hs c).2 hflight⟩
        · have hcb : c = !b := by cases c <;> cases b <;> simp at hc ⊢
          subst hcb
          have hne : (!(!b)) ≠ !b := by cases b <;> decide
          show Ticking T s.now (Function.update s.ends (!b) _ !b) ∧
            Carries (Function.update s.link b _ !b)
              (Function.update s.ends (!b) _ !b).session._last_send_time
              (Function.update s.ends (!b) _ !(!b)).session._last_recv_time
          rw [Function.update_self, Function.update_of_ne hc, Function.update_of_ne hne, hsend]
          exact ⟨he, (hs (!b)).2⟩
      · cases h

/-! ### Runs -/

theorem ticking_of_fresh (hT : NET_PREDICTION_DELAY_MS_MAX < T)
    (hstate : e.session._state = .CONNECTING) (hposted : e.session.posted = [])
    (htimeout : e.session._keep_alive_timeout = T) (hcounts : e.session.Counts)
    (hsend : e.session._last_send_time = now) (hfirst : now ≤ e.next_tick)
    (hnext : e.next_tick ≤ now + ms e.session._tick_interval) : Ticking T now e := by
  refine ⟨hstate, hposted, htimeout, hcounts, hfirst, Int.le_of_eq hsend, ?_⟩
  have hle : (e.session.wait_ms + e.session._tick_interval : Int) ≤ KEEP_ALIVE_PRECISION :=
    Int.ofNat_le.mpr (wait_ms_le hcounts)
  rw [hsend]
  calc e.next_tick + ms e.session.wait_ms
      ≤ now + ms e.session._tick_interval + ms e.session.wait_ms := Int.add_le_add_right hnext _
    _ = now + ms (e.session.wait_ms + e.session._tick_interval) := by
      rw [Int.add_assoc, ← ms_add, Int.add_comm (e.session._tick_interval : Int)]
    _ ≤ now + ms KEEP_ALIVE_PRECISION := Int.add_le_add_left (ms_le_ms hle) _
    _ < now + ms (T - NET_PREDICTION_DELAY_MS_MAX + 1) + ms KEEP_ALIVE_PRECISION :=
      Int.add_lt_add_right (Int.lt_add_of_pos_right _ (ms_pos (by omega))) _

theorem keepsTime_of_starts {s : keep_alive_run} (hT : NET_PREDICTION_DELAY_MS_MAX < T)
    (h : Starts T s) : KeepsTime T s := by
  have hfresh : duration_ms (s.now - s.now) ≤ T := by
    rw [duration_ms_le_iff (by omega), Int.sub_self]
    exact ms_pos (by omega)
  have hends : ∀ b, Ticking T s.now (s.ends b) ∧ (s.ends b).session._last_send_time = s.now ∧
      (s.ends b).session._last_recv_time = s.now := by
    intro b
    obtain ⟨session, interval, hstate, hposted, hdvd, hstart, hfirst, hnext⟩ := h.started b
    obtain ⟨x, hx, ⟨-, rfl⟩ | ⟨-, rfl⟩⟩ := fixed_tick_cases hstart
    · refine ⟨ticking_of_fresh hT ?_ ?_ ?_ ⟨?_, ?_⟩ ?_ hfirst ?_, ?_, ?_⟩ <;> rw [hx]
      exacts [hstate, hposted, hdvd, next_count_lt hdvd, hnext]
    · rcases tick_alive_cases (s := { session with
          _tick_interval := interval
          _keep_alive_timeout := T
          _last_send_time := s.now
          _last_recv_time := s.now
          _keep_alive_frame_count := 0 }) hstate s.now with
        ⟨hlate, -⟩ | ⟨-, -, halive⟩ | ⟨-, -, halive⟩
      · exact absurd hfresh (not_le.mpr hlate)
      all_goals
        rw [halive] at hx
        refine ⟨ticking_of_fresh hT ?_ ?_ ?_ ⟨?_, ?_⟩ ?_ hfirst ?_, ?_, ?_⟩ <;> rw [hx]
        exacts [hstate, hposted, hdvd,
          period_pos (s := { session with _tick_interval := interval }) hdvd, hnext]
  intro b
  obtain ⟨he, hsend, -⟩ := hends b
  obtain ⟨-, -, hrecv⟩ := hends (!b)
  refine ⟨he, ?_⟩
  rw [hsend, hrecv, h.quiet b]
  refine ⟨rfl, rfl, ?_⟩
  intro f hf
  rw [List.mem_singleton.mp hf]

theorem keepsTime_of_reachable (hT : NET_PREDICTION_DELAY_MS_MAX < T) :
    ∀ s, ((system T).restrict InTime).Reachable s → KeepsTime T s := by
  refine System.invariant (fun s hs => keepsTime_of_starts hT hs) ?_
  rintro s ev s' hs ⟨hguard, hstep⟩
  exact keepsTime_exec hs hT hguard hstep

/-- An end that looks while a frame is overdue kicks. -/
theorem kicks_of_overdue {s s' : keep_alive_run} {b : Bool} {delay : Int} (hs : KeepsTime T s)
    (hlate : s.Overdue b) (h : s.exec (.tick b delay) = some s') : ¬ NeverKicked s' := by
  obtain ⟨hcount, -, hlate⟩ := hlate
  unfold exec at h
  simp only at h
  split at h
  · obtain ⟨session, htick, h⟩ := Option.bind_eq_some_iff.mp h
    have hposted : session.posted ≠ [] := by
      obtain ⟨x, rfl, ⟨hne, -⟩ | ⟨-, rfl⟩⟩ := fixed_tick_cases htick
      · exact absurd hcount hne
      · rcases tick_alive_cases (s := { (s.ends b).session with _keep_alive_frame_count := 0 })
          (hs b).1.state s.now with ⟨-, hkick⟩ | ⟨hfresh, -⟩ | ⟨hfresh, -⟩
        · rw [hkick]
          exact List.append_ne_nil_of_right_ne_nil _ (List.cons_ne_nil _ _)
        · exact absurd hlate (not_lt.mpr hfresh)
        · exact absurd hlate (not_lt.mpr hfresh)
    have hends : s'.ends b = ⟨session, s.now + ms (s.ends b).session._tick_interval⟩ := by
      rcases transmit_cases h with ⟨-, rfl⟩ | ⟨-, -, -, rfl⟩ <;> exact Function.update_self ..
    intro hnever
    have hb := hnever b
    rw [hends] at hb
    exact hposted hb
  · cases h

/-! ### Steady delays -/

/-- The frames arrive in order, none longer than the timeout after the one before it,
    and the first one on its way has not arrived. -/
structure Close (T : Int) (now : time_point) (l : net_link) : Prop where
  chain : (l.last_arrived :: l.in_flight).IsChain
    fun f g => f.arrival ≤ g.arrival ∧ g.arrival < f.arrival + ms (T + 1)
  ahead : ∀ f ∈ l.in_flight.head?, now ≤ f.arrival

theorem close_send {l : net_link} (h : Close T now l) {delay : Int} (hdelay : 0 ≤ delay)
    (horder : l.last_sent.arrival ≤ now + delay)
    (hnear : now + delay < l.last_sent.arrival + ms (T + 1)) :
    Close T now { l with in_flight := l.in_flight ++ [⟨now, now + delay⟩] } := by
  refine ⟨?_, ?_⟩
  · show (l.last_arrived :: l.in_flight ++ [_]).IsChain _
    refine h.chain.append (List.isChain_singleton _) ?_
    intro f hf g hg
    rw [List.getLast?_cons, ← List.getLastD_eq_getLast?] at hf
    cases hf
    cases hg
    exact ⟨horder, hnear⟩
  · intro f hf
    cases hl : l.in_flight with
    | nil =>
      rw [hl] at hf
      cases hf
      exact Int.le_add_of_nonneg_right hdelay
    | cons g gs =>
      rw [hl] at hf
      cases hf
      refine h.ahead _ ?_
      rw [hl]
      rfl

theorem close_deliver {l : net_link} (h : Close T now l) {f : net_frame}
    {in_flight : List net_frame} (hflight : l.in_flight = f :: in_flight) (hnow : f.arrival = now) :
    Close T now ⟨f, in_flight⟩ := by
  have hchain := h.chain
  rw [hflight, List.isChain_cons_cons] at hchain
  refine ⟨hchain.2, ?_⟩
  intro g hg
  cases in_flight with
  | nil => cases hg
  | cons g' gs =>
    cases hg
    rw [← hnow]
    exact (List.isChain_cons_cons.mp hchain.2).1.1

/-- A frame whose delay does not grow too much arrives soon enough after the last one. -/
theorem arrives_in_time {s : keep_alive_run} (hs : KeepsTime T s) {b : Bool} {delay : Int}
    (hsteady : delay ≤ (s.link b).last_sent.delay +
      ms (NET_PREDICTION_DELAY_MS_MAX - KEEP_ALIVE_PRECISION)) :
    s.now + delay < (s.link b).last_sent.arrival + ms (T + 1) := by
  obtain ⟨hsender, hlink⟩ := hs b
  have hwait : 0 ≤ ms (s.ends b).session.wait_ms := ms_le_ms (Int.natCast_nonneg _)
  have hnow : s.now < (s.link b).last_sent.sent + ms (T - NET_PREDICTION_DELAY_MS_MAX + 1) +
      ms KEEP_ALIVE_PRECISION := by
    rw [hlink.sent]
    calc s.now
        ≤ (s.ends b).next_tick := hsender.on_time
      _ ≤ (s.ends b).next_tick + ms (s.ends b).session.wait_ms := Int.le_add_of_nonneg_right hwait
      _ < _ := hsender.due
  have hsum : ms (T - NET_PREDICTION_DELAY_MS_MAX + 1) + ms KEEP_ALIVE_PRECISION +
      ms (NET_PREDICTION_DELAY_MS_MAX - KEEP_ALIVE_PRECISION) = ms (T + 1) := by
    rw [← ms_add, ← ms_add]
    congr 1
    omega
  have hsums : ∀ now sent arrival a p x : Int, now < sent + a + p →
      now + (arrival - sent + x) < arrival + (a + p + x) := by
    intros
    omega
  unfold net_frame.delay at hsteady
  rw [← hsum]
  calc s.now + delay
      ≤ s.now + ((s.link b).last_sent.arrival - (s.link b).last_sent.sent +
        ms (NET_PREDICTION_DELAY_MS_MAX - KEEP_ALIVE_PRECISION)) := Int.add_le_add_left hsteady _
    _ < (s.link b).last_sent.arrival + (ms (T - NET_PREDICTION_DELAY_MS_MAX + 1) +
        ms KEEP_ALIVE_PRECISION + ms (NET_PREDICTION_DELAY_MS_MAX - KEEP_ALIVE_PRECISION)) :=
      hsums _ _ _ _ _ _ hnow

/-- The links stay close in runs whose delays are steady. -/
theorem close_exec {s s' : keep_alive_run} {ev : keep_alive_event} (hs : KeepsTime T s)
    (hclose : ∀ b, Close T s.now (s.link b)) (hguard : Steady s ev) (h : s.exec ev = some s') :
    ∀ b, Close T s'.now (s'.link b) := by
  have htransmit : ∀ {b e delay}, delay ≤ (s.link b).last_sent.delay +
      ms (NET_PREDICTION_DELAY_MS_MAX - KEEP_ALIVE_PRECISION) → s.transmit b e delay = some s' →
      ∀ b, Close T s'.now (s'.link b) := by
    intro b e delay hsteady hsend c
    rcases transmit_cases hsend with ⟨-, rfl⟩ | ⟨-, hdelay, horder, rfl⟩
    · exact hclose c
    · show Close T s.now (Function.update s.link b _ c)
      by_cases hc : c = b
      · subst hc
        rw [Function.update_self]
        exact close_send (hclose c) hdelay horder (arrives_in_time hs hsteady)
      · rw [Function.update_of_ne hc]
        exact hclose c
  unfold exec at h
  cases ev with
  | elapse t =>
    simp only at h
    split at h
    · next ht =>
      cases h
      intro b
      exact ⟨(hclose b).chain, (ht.2 b).2⟩
    · cases h
  | tick b delay =>
    simp only at h
    split at h
    · obtain ⟨session, -, h⟩ := Option.bind_eq_some_iff.mp h
      exact htransmit hguard h
    · cases h
  | app_send b delay => exact htransmit hguard h
  | deliver b =>
    simp only at h
    split at h
    · cases h
    · next f in_flight hflight =>
      split at h
      · next hnow =>
        cases h
        intro c
        show Close T s.now (Function.update s.link b _ c)
        by_cases hc : c = b
        · subst hc
          rw [Function.update_self]
          exact close_deliver (hclose c) hflight hnow
        · rw [Function.update_of_ne hc]
          exact hclose c
      · cases h

theorem inTime_of_close {s : keep_alive_run} (hT : NET_PREDICTION_DELAY_MS_MAX < T)
    (hs : KeepsTime T s) (hclose : ∀ b, Close T s.now (s.link b)) (ev : keep_alive_event) :
    InTime s ev := by
  cases ev with
  | tick b delay =>
    rintro ⟨-, hne, hlate⟩
    obtain ⟨f, in_flight, hflight⟩ := List.exists_cons_of_ne_nil hne
    have hchain := (hclose (!b)).chain
    rw [hflight, List.isChain_cons_cons] at hchain
    have hahead : s.now ≤ f.arrival := by
      refine (hclose (!b)).ahead f ?_
      rw [hflight]
      rfl
    have harrived := (hs (!b)).2.arrived
    rw [Bool.not_not] at harrived
    refine absurd hlate (not_lt.mpr ?_)
    rw [(hs b).1.timeout, duration_ms_le_iff (by omega), ← harrived]
    exact Int.sub_left_lt_of_lt_add (hahead.trans_lt hchain.1.2)
  | elapse t => trivial
  | app_send b delay => trivial
  | deliver b => trivial

theorem close_of_reachable (hT : NET_PREDICTION_DELAY_MS_MAX < T) :
    ∀ s, ((system T).restrict Steady).Reachable s →
      KeepsTime T s ∧ ∀ b, Close T s.now (s.link b) := by
  refine System.invariant ?_ ?_
  · intro s hs
    refine ⟨keepsTime_of_starts hT hs, ?_⟩
    intro b
    rw [hs.quiet b]
    exact ⟨List.isChain_singleton _, nofun⟩
  · rintro s ev s' ⟨hs, hclose⟩ ⟨hguard, hstep⟩
    exact ⟨keepsTime_exec hs hT (inTime_of_close hT hs hclose ev) hstep,
      close_exec hs hclose hguard hstep⟩

theorem neverKicked_of_keepsTime {s : keep_alive_run} (hs : KeepsTime T s) : NeverKicked s :=
  fun b => (hs b).1.posted

/-- **No kick, exactly.** An end kicks if and only if it looks while a frame is
    overdue. No frame is ever overdue if the delays are steady. -/
theorem never_kicked_iff (T : Int)
    (hT : NET_PREDICTION_DELAY_MS_MAX + KEEP_ALIVE_PRECISION < T) :
    (∀ s, ((system T).restrict InTime).Reachable s → NeverKicked s) ∧
    (∀ s s' ev, ((system T).restrict InTime).Reachable s → (system T).step s ev s' →
      (NeverKicked s' ↔ InTime s ev)) ∧
    ∀ s, ((system T).restrict Steady).Reachable s → NeverKicked s := by
  have hD : (NET_PREDICTION_DELAY_MS_MAX : Int) < T := by
    unfold KEEP_ALIVE_PRECISION at hT
    omega
  refine ⟨fun s hr => neverKicked_of_keepsTime (keepsTime_of_reachable hD s hr), ?_,
    fun s hr => neverKicked_of_keepsTime (close_of_reachable hD s hr).1⟩
  intro s s' ev hr hstep
  have hs := keepsTime_of_reachable hD s hr
  constructor
  · intro hnever
    cases ev with
    | tick b delay =>
      intro hlate
      exact kicks_of_overdue hs hlate hstep hnever
    | elapse t => trivial
    | app_send b delay => trivial
    | deliver b => trivial
  · intro hguard
    exact neverKicked_of_keepsTime (keepsTime_exec hs hD hguard hstep)

/-! ### A run that kicks -/

/-- A session that is connected at time zero. -/
def connected : session_life := (session_life.constructed 0 0 0 0).passively_connect_succ

/-- End `false` ticks every second, end `true` every half second. -/
def interval (b : Bool) : Nat := if b then 500 else 1000

/-- Both ends have called `start_tick` at time zero. -/
def link_up (T : Int) : keep_alive_run where
  now := 0
  ends := fun b =>
    { session := (connected.start_tick (interval b) T 0).getD connected
      next_tick := ms (interval b) }
  link := fun _ => ⟨⟨0, 0⟩, []⟩

theorem starts_link_up {T : Int} (hstart : ∀ b, connected.start_tick (interval b) T 0 =
    some ((connected.start_tick (interval b) T 0).getD connected)) : Starts T (link_up T) := by
  refine ⟨?_, fun _ => rfl⟩
  intro b
  refine ⟨connected, interval b, rfl, rfl, ?_, hstart b, ?_, ?_⟩
  · cases b <;> decide
  · exact ms_le_ms (Int.natCast_nonneg (interval b))
  · exact Int.le_of_eq (Int.zero_add _).symm

/-- With a timeout of five seconds nobody kicks in the first second, in which a frame
    is on its way. -/
theorem never_kicked_first_second :
    ∃ s, [keep_alive_event.app_send false (ms 1000), .elapse (ms 500), .tick true 0,
      .elapse (ms 1000), .deliver false].foldlM exec (link_up 5000) = some s ∧
      NeverKicked s := by
  have hsome : ([keep_alive_event.app_send false (ms 1000), .elapse (ms 500), .tick true 0,
      .elapse (ms 1000), .deliver false].foldlM exec (link_up 5000)).isSome := by
    decide +kernel
  obtain ⟨s, hs⟩ := Option.isSome_iff_exists.mp hsome
  have hstart : Starts 5000 (link_up 5000) := starts_link_up (by intro b; cases b <;> rfl)
  refine ⟨s, hs, (never_kicked_iff 5000 (by decide)).2.2 s ?_⟩
  simp only [List.foldlM_cons, List.foldlM_nil] at hs
  obtain ⟨s₁, h₁, hs⟩ := Option.bind_eq_some_iff.mp hs
  obtain ⟨s₂, h₂, hs⟩ := Option.bind_eq_some_iff.mp hs
  obtain ⟨s₃, h₃, hs⟩ := Option.bind_eq_some_iff.mp hs
  obtain ⟨s₄, h₄, hs⟩ := Option.bind_eq_some_iff.mp hs
  obtain ⟨s₅, h₅, hs⟩ := Option.bind_eq_some_iff.mp hs
  cases hs
  -- the tick of end `true` finds its own link as it was
  have hlink : s₂.link true = ⟨⟨0, 0⟩, []⟩ := by
    have hlink₁ : s₁.link true = ⟨⟨0, 0⟩, []⟩ := by
      have hsend := h₁
      unfold exec at hsend
      rcases transmit_cases hsend with ⟨-, rfl⟩ | ⟨-, -, -, rfl⟩ <;> rfl
    unfold exec at h₂
    simp only at h₂
    split at h₂ <;> cases h₂
    exact hlink₁
  have hsteady : Steady s₂ (.tick true 0) := by
    show 0 ≤ (s₂.link true).last_sent.delay + _
    rw [hlink]
    decide
  have hsteady₁ : Steady (link_up 5000) (.app_send false (ms 1000)) := by
    show ms 1000 ≤ _
    decide
  exact .step (.deliver false) (.step (.elapse (ms 1000)) (.step (.tick true 0)
    (.step (.elapse (ms 500)) (.step (.app_send false (ms 1000)) (.init hstart) ⟨hsteady₁, h₁⟩)
      ⟨trivial, h₂⟩) ⟨hsteady, h₃⟩) ⟨trivial, h₄⟩) ⟨trivial, h₅⟩

/-- End `true` receives nothing while the first frame of end `false` takes two seconds. -/
theorem not_always_never_kicked :
    ¬ ∀ T : Int, NET_PREDICTION_DELAY_MS_MAX + KEEP_ALIVE_PRECISION < T →
      ∀ s, (system T).Reachable s → NeverKicked s := by
  intro hall
  have hrun : ([keep_alive_event.elapse (ms 500), .tick true 0, .elapse (ms 1000), .tick false 0,
      .tick true 0, .elapse (ms 1500), .tick true 0, .deliver true, .elapse (ms 2000),
      .tick false (ms 2000), .tick true 0, .elapse (ms 2500), .tick true 0, .elapse (ms 3000),
      .tick false 0, .tick true 0, .elapse (ms 3500), .tick true 0].foldlM exec
      (link_up 3001)).map (fun s => (s.ends true).session.posted) = some [true] := by
    decide +kernel
  obtain ⟨s, hs, hposted⟩ := Option.map_eq_some_iff.mp hrun
  have hreach : ((system 3001).restrict fun _ _ => True).Reachable s :=
    .of_foldlM (.init (starts_link_up (by intro b; cases b <;> rfl))) _ (fun _ _ _ => trivial) hs
  have hnever := hall 3001 (by decide) s hreach.of_restrict true
  rw [hposted] at hnever
  cases hnever

end keep_alive_run

end AsioNet
