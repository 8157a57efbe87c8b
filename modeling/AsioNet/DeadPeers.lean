import AsioNet.KeepAlive

/-! # A peer that falls silent (`basic_async_session.cpp`)

    One end of a link, and a peer that sends what it likes when it likes, or nothing any
    more. The end kicks at an effective tick that finds the last bytes too old, and only
    there. Since it looks once in a period, and a period is not longer than
    `KEEP_ALIVE_PRECISION`, a silent peer is noticed at most that long after the timeout.

    The interval need not divide the precision here: any one that `start_tick` can divide
    by will do.
-/

namespace AsioNet

open TransitionSystem session_life
open keep_alive_run (ms_add ms_le_ms ms_pos connected)

/-! ### The divider -/

namespace session_life

/-- The counter is below the period. -/
def InPeriod (s : session_life) : Prop := s._keep_alive_frame_count < s.period

variable {s : session_life}

theorem InPeriod.next (h : s.InPeriod) :
    s.next_count = if s._keep_alive_frame_count + 1 = s.period then 0
      else s._keep_alive_frame_count + 1 := by
  have hcount : s._keep_alive_frame_count < s.period := h
  have hle : s.period ≤ 1000 := Nat.div_le_self _ _
  unfold next_count
  rw [Nat.mod_eq_of_lt (by omega : s._keep_alive_frame_count + 1 < 2 ^ 64)]
  split
  · next heq => rw [heq, Nat.mod_self]
  · next hne => exact Nat.mod_eq_of_lt (by omega)

theorem InPeriod.next_lt (h : s.InPeriod) : s.next_count < s.period :=
  Nat.mod_lt _ (Nat.zero_lt_of_lt h)

/-- From a tick to the end of its period it is not longer than the precision. -/
theorem InPeriod.wait_ms_le (h : s.InPeriod) :
    s.wait_ms + s._tick_interval ≤ KEEP_ALIVE_PRECISION := by
  have hcount : s._keep_alive_frame_count < s.period := h
  calc s.wait_ms + s._tick_interval
      = (s.period - 1 - s._keep_alive_frame_count + 1) * s._tick_interval :=
        (Nat.succ_mul _ _).symm
    _ ≤ s.period * s._tick_interval := Nat.mul_le_mul_right _ (by omega)
    _ ≤ KEEP_ALIVE_PRECISION := Nat.div_mul_le_self _ _

/-- A tick that only counts leaves the next effective one where it is. -/
theorem InPeriod.wait_ms_next (h : s.InPeriod) (hcount : s.next_count ≠ 0) :
    { s with _keep_alive_frame_count := s.next_count }.wait_ms + s._tick_interval =
      s.wait_ms := by
  have hlt := h.next_lt
  rw [h.next] at hcount hlt ⊢
  split at hcount
  · exact absurd rfl hcount
  · next hne =>
    rw [if_neg hne] at hlt ⊢
    change (s.period - 1 - (s._keep_alive_frame_count + 1)) * s._tick_interval + s._tick_interval =
      (s.period - 1 - s._keep_alive_frame_count) * s._tick_interval
    rw [← Nat.succ_mul]
    congr 1
    omega

/-- A session that can divide can tick. -/
theorem InPeriod.fixed_tick_isSome (h : s.InPeriod) (now : time_point) :
    ∃ s', s.fixed_tick now = some s' := by
  have hne : ¬ KEEP_ALIVE_PRECISION / s._tick_interval = 0 := Nat.ne_of_gt (Nat.zero_lt_of_lt h)
  unfold fixed_tick is_tick_frame_effective
  rw [if_neg hne]
  exact ⟨_, rfl⟩

/-- A session that has ticked can divide. -/
theorem period_pos_of_fixed_tick {s' : session_life} {now : time_point}
    (h : s.fixed_tick now = some s') : 0 < s.period := by
  unfold fixed_tick is_tick_frame_effective at h
  split at h
  · cases h
  · next hne => exact Nat.pos_of_ne_zero hne

theorem interval_pos_of_period {s : session_life} (h : 0 < s.period) : 0 < s._tick_interval := by
  rcases Nat.eq_zero_or_pos s._tick_interval with hzero | hpos
  · unfold period at h
    rw [hzero, Nat.div_zero] at h
    cases h
  · exact hpos

/-- What a tick goes by, but the time of the last send. -/
def tick_fields (s : session_life) : StateSocket × Int × Nat × Nat × time_point :=
  (s._state, s._keep_alive_timeout, s._tick_interval, s._keep_alive_frame_count,
    s._last_recv_time)

theorem tick_fields_close (s : session_life) (elegantly : Bool) :
    (s.close elegantly).tick_fields = s.tick_fields := by
  unfold close
  split <;> rfl

theorem tick_fields_async_send (s : session_life) (now : time_point) :
    (s.async_send now).tick_fields = s.tick_fields := by
  unfold async_send
  split <;> rfl

theorem tick_fields_async_recv_loop (s : session_life) :
    s.async_recv_loop.tick_fields = s.tick_fields := by
  unfold async_recv_loop
  split <;> rfl

theorem tick_fields_pick_entire_msgs (s : session_life) (refused : Bool) :
    (s.pick_entire_msgs refused).tick_fields = s.tick_fields := by
  unfold pick_entire_msgs
  rw [tick_fields_async_recv_loop]
  split <;> rfl

theorem tick_fields_read_handler (s : session_life) (now : time_point) (ec refused : Bool) :
    (s.read_handler now ec refused).tick_fields =
      { s with _last_recv_time := now }.tick_fields := by
  unfold read_handler
  rw [tick_fields_pick_entire_msgs]
  split
  · rw [tick_fields_close]
    rfl
  · rfl

theorem tick_fields_write_handler (s : session_life) (ec : Bool) :
    (s.write_handler ec).tick_fields = s.tick_fields := by
  unfold write_handler
  simp only
  split
  · rw [tick_fields_close]
    rfl
  · rfl

theorem tick_fields_tick_alive (s : session_life) (now : time_point) :
    (s.tick_alive now).tick_fields = s.tick_fields := by
  unfold tick_alive kick
  split
  · rfl
  · split
    · exact tick_fields_close s true
    · split
      · exact tick_fields_async_send s now
      · rfl

theorem tick_fields_fixed_tick {s' : session_life} {now : time_point}
    (h : s.fixed_tick now = some s') :
    s'.tick_fields = { s with _keep_alive_frame_count := s.next_count }.tick_fields := by
  obtain ⟨x, rfl, ⟨-, rfl⟩ | ⟨hcount, rfl⟩⟩ := fixed_tick_cases h
  · rfl
  · rw [hcount]
    exact tick_fields_tick_alive { s with _keep_alive_frame_count := 0 } now

end session_life

/-! ### One end -/

/-- An end on its own. -/
structure lone_end extends keep_alive_end where
  now : time_point

inductive lone_event where
  /-- time goes on -/
  | elapse (t : time_point)
  | fixed_tick
  /-- the application sends -/
  | async_send
  /-- bytes arrive, or an error does; the storage may refuse a message -/
  | read_handler (ec refused : Bool)
  | write_handler (ec : Bool)
  | close (elegantly : Bool)

namespace lone_end

/-- What happens to an end until `close` is called for the first time. -/
def exec (s : lone_end) (e : lone_event) : Option lone_end :=
  if s.session.posted ≠ [] then none
  else
    match e with
    | .elapse t => if s.now ≤ t ∧ t ≤ s.next_tick then some { s with now := t } else none
    | .fixed_tick =>
      if s.now = s.next_tick then
        (s.session.fixed_tick s.now).map fun session =>
          { s with session := session, next_tick := s.now + ms s.session._tick_interval }
      else none
    | .async_send => some { s with session := s.session.async_send s.now }
    | .read_handler ec refused =>
      some { s with session := s.session.read_handler s.now ec refused }
    | .write_handler ec => some { s with session := s.session.write_handler ec }
    | .close elegantly => some { s with session := s.session.close elegantly }

/-- A connected session has called `start_tick`, on whatever the constructor left in the
    counter. -/
def Starts (T : Int) (s : lone_end) : Prop :=
  ∃ (session : session_life) (interval : Nat), session._state = .CONNECTING ∧
    session.posted = [] ∧ session.start_tick interval T s.now = some s.session ∧
    s.next_tick = s.now + ms interval

def system (T : Int) : System lone_end lone_event := System.ofExec (Starts T) exec

/-! ### The deadline -/

/-- `now` is before the time by which an end with timeout `T` has noticed that nothing
    has arrived since `recv`. -/
def Before (T : Int) (recv now : time_point) : Prop :=
  now < recv + ms (T + 1) + ms KEEP_ALIVE_PRECISION

/-- A connected end that has not kicked ticks on time, and its next effective tick is
    before the deadline. -/
structure Listens (T : Int) (s : lone_end) : Prop where
  state : s.session._state = .CONNECTING
  timeout : s.session._keep_alive_timeout = T
  divides : s.session.InPeriod
  on_time : s.now ≤ s.next_tick
  received : s.session._last_recv_time ≤ s.now
  due : Before T s.session._last_recv_time (s.next_tick + ms s.session.wait_ms)

/-- **Invariant.** -/
structure Notices (T : Int) (s : lone_end) : Prop where
  listens : s.session.posted = [] → Listens T s
  before : Before T s.session._last_recv_time s.now

variable {T : Int} {s s' : lone_end}

theorem Before.mono {recv recv' now : time_point} (h : Before T recv now) (hle : recv ≤ recv') :
    Before T recv' now :=
  h.trans_le (Int.add_le_add_right (Int.add_le_add_right hle _) _)

theorem Listens.before (h : Listens T s) : Before T s.session._last_recv_time s.now := by
  have hwait : 0 ≤ ms s.session.wait_ms := ms_le_ms (Int.natCast_nonneg _)
  calc s.now
      ≤ s.next_tick := h.on_time
    _ ≤ s.next_tick + ms s.session.wait_ms := Int.le_add_of_nonneg_right hwait
    _ < _ := h.due

theorem Listens.notices (h : Listens T s) : Notices T s := ⟨fun _ => h, h.before⟩

/-- What leaves the tick alone keeps the end listening. -/
theorem Listens.of_tick_fields (h : Listens T s) {session : session_life}
    (hfields : session.tick_fields = s.session.tick_fields) :
    Listens T { s with session := session } := by
  obtain ⟨hstate, hfields⟩ := Prod.mk.inj hfields
  obtain ⟨htimeout, hfields⟩ := Prod.mk.inj hfields
  obtain ⟨hinterval, hfields⟩ := Prod.mk.inj hfields
  obtain ⟨hcount, hrecv⟩ := Prod.mk.inj hfields
  have hperiod : session.period = s.session.period := by
    unfold period
    rw [hinterval]
  have hwait : session.wait_ms = s.session.wait_ms := by
    unfold wait_ms
    rw [hperiod, hinterval, hcount]
  refine ⟨hstate.trans h.state, htimeout.trans h.timeout, ?_, h.on_time, ?_, ?_⟩
  · show session._keep_alive_frame_count < session.period
    rw [hcount, hperiod]
    exact h.divides
  · rw [hrecv]
    exact h.received
  · rw [hrecv, hwait]
    exact h.due

/-- An arrival moves the deadline away. -/
theorem Listens.receive (h : Listens T s) :
    Listens T { s with session := { s.session with _last_recv_time := s.now } } :=
  ⟨h.state, h.timeout, h.divides, h.on_time, Int.le_refl _, h.due.mono h.received⟩

/-- An effective tick is a precision away from the next one. -/
theorem next_effective (session : session_life) (hdivides : session.InPeriod) (now : time_point) :
    now + ms session._tick_interval + ms session.wait_ms ≤ now + ms KEEP_ALIVE_PRECISION := by
  have hle : (session.wait_ms + session._tick_interval : Int) ≤ KEEP_ALIVE_PRECISION :=
    Int.ofNat_le.mpr hdivides.wait_ms_le
  calc now + ms session._tick_interval + ms session.wait_ms
      = now + ms (session.wait_ms + session._tick_interval) := by
        rw [Int.add_assoc, ← ms_add, Int.add_comm (session._tick_interval : Int)]
    _ ≤ now + ms KEEP_ALIVE_PRECISION := Int.add_le_add_left (ms_le_ms hle) _

/-- A tick that only counts leaves the next effective one where it is. -/
theorem Listens.counted (h : Listens T s) (hnow : s.now = s.next_tick)
    (hcount : s.session.next_count ≠ 0) :
    Listens T { s with
      session := { s.session with _keep_alive_frame_count := s.session.next_count }
      next_tick := s.now + ms s.session._tick_interval } := by
  have hmove : s.now + ms s.session._tick_interval +
      ms { s.session with _keep_alive_frame_count := s.session.next_count }.wait_ms =
        s.next_tick + ms s.session.wait_ms := by
    rw [hnow, Int.add_assoc, ← ms_add, ← h.divides.wait_ms_next hcount,
      Int.add_comm (s.session._tick_interval : Int)]
    rfl
  refine ⟨h.state, h.timeout, h.divides.next_lt, ?_, h.received, ?_⟩
  · exact Int.le_add_of_nonneg_right (ms_le_ms (Int.natCast_nonneg _))
  · show Before T s.session._last_recv_time (s.now + ms s.session._tick_interval + ms _)
    rw [hmove]
    exact h.due

/-- An effective tick that finds the last arrival fresh does too. -/
theorem Listens.fresh (h : Listens T s) (hT : 0 ≤ T)
    (hrecv : duration_ms (s.now - s.session._last_recv_time) ≤ T) :
    Listens T { s with
      session := { s.session with _keep_alive_frame_count := 0 }
      next_tick := s.now + ms s.session._tick_interval } := by
  have hdivides : { s.session with _keep_alive_frame_count := 0 }.InPeriod :=
    Nat.zero_lt_of_lt h.divides
  refine ⟨h.state, h.timeout, hdivides, ?_, h.received, ?_⟩
  · exact Int.le_add_of_nonneg_right (ms_le_ms (Int.natCast_nonneg _))
  · rw [duration_ms_le_iff hT] at hrecv
    show s.now + ms s.session._tick_interval +
      ms { s.session with _keep_alive_frame_count := 0 }.wait_ms < _
    calc s.now + ms s.session._tick_interval +
          ms { s.session with _keep_alive_frame_count := 0 }.wait_ms
        ≤ s.now + ms KEEP_ALIVE_PRECISION := next_effective _ hdivides s.now
      _ < s.session._last_recv_time + ms (T + 1) + ms KEEP_ALIVE_PRECISION :=
        Int.add_lt_add_right (Int.lt_add_of_sub_left_lt hrecv) _

/-- **The tick**: it closes exactly if it is effective and the last arrival is too old. -/
theorem Listens.fixed_tick (h : Listens T s) (hT : 0 ≤ T) (hposted : s.session.posted = [])
    (hnow : s.now = s.next_tick) {session : session_life}
    (htick : s.session.fixed_tick s.now = some session) :
    Notices T { s with session := session, next_tick := s.now + ms s.session._tick_interval } ∧
    (session.posted = [] ↔ ¬ (s.session.next_count = 0 ∧
      T < duration_ms (s.now - s.session._last_recv_time))) := by
  obtain ⟨x, hsession, ⟨hcount, rfl⟩ | ⟨hcount, rfl⟩⟩ := fixed_tick_cases htick
  · refine ⟨((h.counted hnow hcount).of_tick_fields ?_).notices, ?_⟩
    · rw [hsession]
      rfl
    · rw [hsession]
      exact iff_of_true hposted fun hlate => hcount hlate.1
  · rcases tick_alive_cases (s := { s.session with _keep_alive_frame_count := 0 }) h.state
      s.now with ⟨hlate, halive⟩ | ⟨hrecv, -, halive⟩ | ⟨hrecv, -, halive⟩
    all_goals
      rw [halive] at hsession
    · have hne : session.posted ≠ [] := by
        rw [hsession]
        exact List.append_ne_nil_of_right_ne_nil _ (List.cons_ne_nil _ _)
      change s.session._keep_alive_timeout < _ at hlate
      rw [h.timeout] at hlate
      refine ⟨⟨fun hnil => absurd hnil hne, ?_⟩, iff_of_false hne (not_not_intro ⟨hcount, hlate⟩)⟩
      rw [hsession]
      exact h.before
    -- a fresh arrival, whether the end sends or not
    all_goals
      change _ ≤ s.session._keep_alive_timeout at hrecv
      rw [h.timeout] at hrecv
      refine ⟨((h.fresh hT hrecv).of_tick_fields ?_).notices, ?_⟩
      · rw [hsession]
        rfl
      · rw [hsession]
        exact iff_of_true hposted fun hlate => absurd hlate.2 (not_lt.mpr hrecv)

/-! ### Runs -/

theorem Listens.of_starts (hT : 0 ≤ T) (h : Starts T s) : Listens T s := by
  obtain ⟨session, interval, hstate, -, hstart, hnext⟩ := h
  let started : session_life := { session with
    _tick_interval := interval
    _keep_alive_timeout := T
    _last_send_time := s.now
    _last_recv_time := s.now }
  have hstart : started.fixed_tick s.now = some s.session := hstart
  have hdivides : { started with _keep_alive_frame_count := started.next_count }.InPeriod :=
    Nat.mod_lt _ (period_pos_of_fixed_tick hstart)
  have hlistens : Listens T { s with
      session := { started with _keep_alive_frame_count := started.next_count } } := by
    refine ⟨hstate, rfl, hdivides, ?_, Int.le_refl _, ?_⟩
    · rw [hnext]
      exact Int.le_add_of_nonneg_right (ms_le_ms (Int.natCast_nonneg _))
    · show s.next_tick + ms _ < s.now + ms (T + 1) + ms KEEP_ALIVE_PRECISION
      rw [hnext]
      refine (next_effective _ hdivides s.now).trans_lt ?_
      exact Int.add_lt_add_right (Int.lt_add_of_pos_right _ (ms_pos (by omega))) _
  exact hlistens.of_tick_fields (tick_fields_fixed_tick hstart)

theorem Notices.exec (h : Notices T s) (hT : 0 ≤ T) {e : lone_event}
    (hstep : s.exec e = some s') : Notices T s' := by
  obtain ⟨hposted, hstep⟩ := Option.ite_none_left_eq_some.mp hstep
  have hl := h.listens (not_not.mp hposted)
  cases e with
  | elapse t =>
    obtain ⟨ht, hstep⟩ := Option.ite_none_right_eq_some.mp hstep
    cases hstep
    exact Listens.notices ⟨hl.state, hl.timeout, hl.divides, ht.2, hl.received.trans ht.1, hl.due⟩
  | fixed_tick =>
    obtain ⟨hnow, hstep⟩ := Option.ite_none_right_eq_some.mp hstep
    obtain ⟨session, htick, rfl⟩ := Option.map_eq_some_iff.mp hstep
    exact (hl.fixed_tick hT (not_not.mp hposted) hnow htick).1
  | async_send =>
    cases hstep
    exact (hl.of_tick_fields (tick_fields_async_send _ _)).notices
  | read_handler ec refused =>
    cases hstep
    exact (hl.receive.of_tick_fields (tick_fields_read_handler _ _ _ _)).notices
  | write_handler ec =>
    cases hstep
    exact (hl.of_tick_fields (tick_fields_write_handler _ _)).notices
  | close elegantly =>
    cases hstep
    exact (hl.of_tick_fields (tick_fields_close _ _)).notices

theorem Notices.of_reachable (hT : 0 ≤ T) :
    ∀ s, (system T).Reachable s → Notices T s := by
  refine System.invariant (fun s hs => (Listens.of_starts hT hs).notices) ?_
  intro s e s' hs hstep
  exact hs.exec hT hstep

/-- **A silent peer is noticed**: no run gets to a time at which nothing has arrived for a
    timeout and a precision, unless the session has been closed; time does not stop
    before that; and a tick closes exactly if it is effective and nothing has arrived for
    longer than the timeout. -/
theorem silence_noticed (T : Int) (hT : 0 ≤ T) (s : lone_end) (hr : (system T).Reachable s) :
    Before T s.session._last_recv_time s.now ∧
    (s.session.posted = [] → s.now = s.next_tick →
      ∃ s', s.exec .fixed_tick = some s' ∧ s.now < s'.next_tick) ∧
    ∀ s', s.exec .fixed_tick = some s' →
      (s'.session.posted = [] ↔ ¬ (s.session.next_count = 0 ∧
        T < duration_ms (s.now - s.session._last_recv_time))) := by
  have hs := Notices.of_reachable hT s hr
  refine ⟨hs.before, ?_, ?_⟩
  · intro hposted hnow
    have hl := hs.listens hposted
    obtain ⟨session, htick⟩ := hl.divides.fixed_tick_isSome s.now
    have hpos : 0 < s.session._tick_interval :=
      interval_pos_of_period (Nat.zero_lt_of_lt hl.divides)
    refine ⟨{ s with session := session, next_tick := s.now + ms s.session._tick_interval },
      ?_, Int.lt_add_of_pos_right _ (ms_pos (Int.natCast_pos.mpr hpos))⟩
    unfold exec
    rw [if_neg (not_not_intro hposted)]
    simp only [if_pos hnow, htick, Option.map_some]
  · intro s' hstep
    obtain ⟨hposted, hstep⟩ := Option.ite_none_left_eq_some.mp hstep
    obtain ⟨hnow, hstep⟩ := Option.ite_none_right_eq_some.mp hstep
    obtain ⟨session, htick, rfl⟩ := Option.map_eq_some_iff.mp hstep
    exact ((hs.listens (not_not.mp hposted)).fixed_tick hT (not_not.mp hposted) hnow htick).2

/-- An end that ticks every 300 milliseconds, on its own from time zero on. -/
def silent_from_zero : lone_end where
  session := (connected.start_tick 300 1000 0).getD connected
  next_tick := ms 300
  now := 0

/-- It ticks four times and waits for the fifth tick. -/
def until_third_period : List lone_event :=
  ([300, 600, 900, 1200].flatMap fun t => [.elapse (ms t), .fixed_tick]) ++ [.elapse (ms 1500)]

/-- It looks at 600 milliseconds and once more at 1500, after a timeout of a second. -/
theorem silence_noticed_third_period : ∃ s : lone_end, s.now = ms 1500 ∧ s.session.posted = [] ∧
    Before 1000 s.session._last_recv_time s.now ∧
    (s.session.posted = [] → s.now = s.next_tick →
      ∃ s', s.exec .fixed_tick = some s' ∧ s.now < s'.next_tick) ∧
    ∀ s', s.exec .fixed_tick = some s' →
      (s'.session.posted = [] ↔ ¬ (s.session.next_count = 0 ∧
        1000 < duration_ms (s.now - s.session._last_recv_time))) := by
  have hrun : (until_third_period.foldlM exec silent_from_zero).map
      (fun s => (s.now, s.session.posted)) = some (ms 1500, []) := by
    decide +kernel
  obtain ⟨s, hs, hwaited⟩ := Option.map_eq_some_iff.mp hrun
  have hstart : Starts 1000 silent_from_zero :=
    ⟨connected, 300, rfl, rfl, rfl, (Int.zero_add _).symm⟩
  have hreach : ((system 1000).restrict fun _ _ => True).Reachable s :=
    System.Reachable.of_foldlM (.init hstart) _ (fun _ _ _ => trivial) hs
  exact ⟨s, congrArg Prod.fst hwaited, congrArg Prod.snd hwaited,
    silence_noticed 1000 (by decide) s hreach.of_restrict⟩

end lone_end

end AsioNet
