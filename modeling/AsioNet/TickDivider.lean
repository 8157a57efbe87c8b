import AsioNet.KeepAlive

/-! # The tick divider (`basic_async_session.h`, `is_tick_frame_effective`)

    A session ticks every `_tick_interval` milliseconds, but looks at its link
    only in every `KEEP_ALIVE_PRECISION / _tick_interval`-th tick. The quotient
    is zero for an interval above the precision, and then the first tick takes a
    remainder by zero: nothing checks the configured value.

    `ticking` runs a session from the call of `start_tick` on and logs what the
    divider answers to each call of `fixed_tick`; whatever else happens to the
    session happens in between.
-/

namespace AsioNet

open TransitionSystem session_life

/-! ### One tick in every period -/

/-- `n` answers of a divider that started with `count`. -/
def divided (count period n : Nat) : List (Option Bool) :=
  (List.range n).map fun k => some (decide ((count + k) % period = 0))

@[simp] theorem length_divided (count period n : Nat) : (divided count period n).length = n := by
  unfold divided
  rw [List.length_map, List.length_range]

theorem divided_succ (count period n : Nat) :
    divided count period (n + 1) =
      divided count period n ++ [some (decide ((count + n) % period = 0))] := by
  unfold divided
  rw [List.range_succ, List.map_append, List.map_singleton]

/-- The effective answers of the `period` ones from `i` on. -/
def effective_in (count period i : Nat) : Nat :=
  (List.range' i period).countP fun k => decide ((count + k) % period = 0)

/-- Moving a window on by one drops the answer a period before the one it gains. -/
theorem effective_in_succ (count period i : Nat) :
    effective_in count period (i + 1) = effective_in count period i := by
  have hsame : (count + (i + period)) % period = (count + i) % period := by
    rw [← Nat.add_assoc, Nat.add_mod_right]
  have hboth : i :: List.range' (i + 1) period = List.range' i period ++ [i + period] := by
    rw [← List.range'_succ, List.range'_1_concat]
  have hcount := congrArg (List.countP fun k => decide ((count + k) % period = 0)) hboth
  rw [List.countP_append, List.countP_cons, List.countP_cons, hsame, List.countP_nil] at hcount
  unfold effective_in
  omega

/-- In every `period` consecutive answers exactly one is effective. -/
theorem effective_in_eq_one (count period i : Nat) (hpos : 0 < period) :
    effective_in count period i = 1 := by
  have hall : ∀ j, effective_in count period j = effective_in count period 0 := by
    intro j
    induction j with
    | zero => rfl
    | succ j ih => rw [effective_in_succ, ih]
  -- a window that starts with an effective answer has no other
  have hlt := Nat.mod_lt count hpos
  have hfirst : (count + (period - count % period)) % period = 0 := by
    have hsum : count + (period - count % period) = period * (count / period) + period := by
      have := Nat.div_add_mod count period
      omega
    rw [hsum, Nat.add_mod_right, Nat.mul_mod_right]
  have hone : effective_in count period (period - count % period) = 1 := by
    obtain ⟨n, hn⟩ : ∃ n, period = n + 1 := ⟨period - 1, by omega⟩
    have hwindow : ∀ j, List.range' j period = j :: List.range' (j + 1) n := by
      intro j
      rw [hn, List.range'_succ]
    have hrest : (List.range' (period - count % period + 1) n).countP
        (fun k => decide ((count + k) % period = 0)) = 0 := by
      rw [List.countP_eq_zero]
      intro k hk
      obtain ⟨hge, hle⟩ := List.mem_range'_1.mp hk
      have hk' : count + k =
          count + (period - count % period) + (k - (period - count % period)) := by omega
      rw [decide_eq_true_eq, hk', Nat.add_mod, hfirst, Nat.zero_add, Nat.mod_mod,
        Nat.mod_eq_of_lt (by omega)]
      omega
    unfold effective_in
    rw [hwindow, List.countP_cons, hrest, hfirst]
    rfl
  rw [hall, ← hall (period - count % period), hone]

theorem count_window {count period n i : Nat} (hpos : 0 < period) (hi : i + period ≤ n) :
    (((divided count period n).drop i).take period).count (some true) = 1 := by
  have hwindow : ((List.range n).drop i).take period = List.range' i period := by
    rw [List.range_eq_range', List.drop_range', Nat.zero_add, Nat.mul_one,
      List.take_range'_of_length_ge (by omega)]
  have heffective := effective_in_eq_one count period i hpos
  unfold effective_in at heffective
  unfold divided List.count
  rw [← List.map_drop, ← List.map_take, hwindow, List.countP_map]
  refine Eq.trans (List.countP_congr ?_) heffective
  intro k _
  simp

/-! ### What the divider answers -/

/-- What `fixed_tick` is answered, `none` on a division by zero. -/
def tick_answer (interval count : Nat) : Option Bool :=
  (session_life.is_tick_frame_effective interval KEEP_ALIVE_PRECISION count).map Prod.fst

theorem tick_answer_eq_none (interval count : Nat) :
    tick_answer interval count = none ↔ KEEP_ALIVE_PRECISION / interval = 0 := by
  unfold tick_answer session_life.is_tick_frame_effective
  split
  · next hzero => exact iff_of_true rfl hzero
  · next hne => exact iff_of_false (fun h => by cases h) hne

theorem precision_div_eq_zero {interval : Nat} (hpos : 1 ≤ interval) :
    KEEP_ALIVE_PRECISION / interval = 0 ↔ KEEP_ALIVE_PRECISION < interval := by
  rw [Nat.div_eq_zero_iff]
  omega

namespace session_life

/-- The part of a session the divider works on. -/
def divider (s : session_life) : Nat × Nat := (s._tick_interval, s._keep_alive_frame_count)

@[simp] theorem divider_close (s : session_life) (elegantly : Bool) :
    (s.close elegantly).divider = s.divider := by
  unfold close
  split <;> rfl

@[simp] theorem divider_async_recv_loop (s : session_life) :
    s.async_recv_loop.divider = s.divider := by
  unfold async_recv_loop
  split <;> rfl

@[simp] theorem divider_async_send (s : session_life) (now : time_point) :
    (s.async_send now).divider = s.divider := by
  unfold async_send
  split <;> rfl

@[simp] theorem divider_pick_entire_msgs (s : session_life) (refused : Bool) :
    (s.pick_entire_msgs refused).divider = s.divider := by
  unfold pick_entire_msgs
  rw [divider_async_recv_loop]
  split <;> rfl

theorem divider_read_handler (s : session_life) (now : time_point) (ec refused : Bool) :
    (s.read_handler now ec refused).divider = s.divider := by
  unfold read_handler
  rw [divider_pick_entire_msgs]
  split
  · rw [divider_close]
    rfl
  · rfl

theorem divider_write_handler (s : session_life) (ec : Bool) :
    (s.write_handler ec).divider = s.divider := by
  unfold write_handler
  split
  · rw [divider_close]
    rfl
  · rfl

theorem divider_retry_handler (s : session_life) (ec refused : Bool) :
    (s.retry_handler ec refused).divider = s.divider := by
  unfold retry_handler
  split
  · rw [divider_close]
  · rw [divider_pick_entire_msgs]

theorem divider_async_connect (s : session_life) : s.async_connect.divider = s.divider := by
  unfold async_connect
  split
  · rfl
  split <;> rfl

theorem divider_connect_handler (s : session_life) (ec : Bool) :
    (s.connect_handler ec).divider = s.divider := by
  unfold connect_handler
  split
  · rw [divider_close]
    rfl
  · rw [divider_async_recv_loop]
    rfl

theorem divider_tick_alive (s : session_life) (now : time_point) :
    (s.tick_alive now).divider = s.divider := by
  unfold tick_alive kick
  split
  · rfl
  split
  · rw [divider_close]
  split
  · rw [divider_async_send]
  · rfl

theorem divider_close_body (s : session_life) (elegantly : Bool) :
    (s.close_body elegantly).divider = s.divider := by
  unfold close_body
  split
  · rfl
  simp only
  split
  · split <;> rfl
  · rfl

/-- A tick only counts. -/
theorem divider_fixed_tick {s s' : session_life} {now : time_point}
    (h : s.fixed_tick now = some s') : s'.divider = (s._tick_interval, s.next_count) := by
  obtain ⟨x, rfl, ⟨_, rfl⟩ | ⟨hzero, rfl⟩⟩ := fixed_tick_cases h
  · rfl
  · have halive := divider_tick_alive { s with _keep_alive_frame_count := 0 } now
    rw [hzero]
    exact halive

/-! ### Runs of a session that ticks -/

/-- What the event asks the divider, if it calls `fixed_tick`. -/
def tick_asked (s : session_life) : session_event → Option (Option Bool)
  | .start_tick interval _ _ =>
    if s.destroyed then none else some (tick_answer interval s._keep_alive_frame_count)
  | .fixed_tick _ ec =>
    if s.destroyed then none
    else (s._tick_timer.take_handler ec).map fun _ =>
      tick_answer s._tick_interval s._keep_alive_frame_count
  | _ => none

/-- An event that asks the divider runs `fixed_tick` with the session's counter. -/
theorem exec_of_asked {s : session_life} {e : session_event} {answer : Option Bool}
    (h : s.tick_asked e = some answer) :
    ∃ x now, s.exec e = fixed_tick x now ∧ x._keep_alive_frame_count = s._keep_alive_frame_count ∧
      answer = tick_answer x._tick_interval s._keep_alive_frame_count ∧
      (x._tick_interval = s._tick_interval ∨
        ∃ timeout now', e = .start_tick x._tick_interval timeout now') := by
  unfold tick_asked at h
  split at h
  · next interval timeout now =>
    split at h
    · cases h
    next hdestroyed =>
    let x := { s with
      _tick_interval := interval
      _keep_alive_timeout := timeout
      _last_send_time := now
      _last_recv_time := now }
    refine ⟨x, now, ?_, rfl, (Option.some.inj h).symm, Or.inr ⟨timeout, now, rfl⟩⟩
    unfold exec
    rw [if_neg hdestroyed]
    rfl
  · next now ec =>
    split at h
    · cases h
    next hdestroyed =>
    obtain ⟨t, ht, hanswer⟩ := Option.map_eq_some_iff.mp h
    refine ⟨{ s with _tick_timer := t }, now, ?_, rfl, hanswer.symm, Or.inl rfl⟩
    unfold exec exec_alive
    rw [if_neg hdestroyed]
    simp only [exec_tick_timer, tick_handler, ht, Option.bind_eq_bind, Option.bind_some]
    rw [if_neg hdestroyed]
  · cases h

/-- A destroyed session has a timer, but no tick. -/
theorem divider_of_destroyed {s s' : session_life} {e : session_event}
    (hdestroyed : s.destroyed = true) (hexec : s.exec_tick_timer e = some s') :
    s'.divider = s.divider := by
  unfold exec_tick_timer at hexec
  split at hexec
  · obtain ⟨_, h'⟩ := Option.ite_none_right_eq_some.mp hexec
    cases h'
    rfl
  · unfold tick_handler at hexec
    obtain ⟨t, _, hexec⟩ := Option.bind_eq_some_iff.mp hexec
    simp only [hdestroyed, if_true] at hexec
    cases hexec
    rfl
  · cases hexec

theorem divider_of_alive {s s' : session_life} {e : session_event}
    (hdestroyed : ¬ s.destroyed = true) (h : s.tick_asked e = none)
    (hexec : s.exec_alive e = some s') : s'.divider = s.divider := by
  cases e with
  | modify_session_logic =>
    cases hexec
    rfl
  | accept =>
    obtain ⟨_, h'⟩ := Option.ite_none_right_eq_some.mp hexec
    cases h'
    rfl
  | async_connect =>
    cases hexec
    exact divider_async_connect s
  | connect_handler ec =>
    obtain ⟨_, h'⟩ := Option.ite_none_right_eq_some.mp hexec
    cases h'
    exact divider_connect_handler s ec
  | passively_connect_succ =>
    cases hexec
    exact divider_async_recv_loop { s with _state := .CONNECTING }
  | start_tick interval timeout now =>
    unfold tick_asked at h
    simp only [hdestroyed] at h
    cases h
  | async_send now =>
    cases hexec
    exact divider_async_send s now
  | read_handler now ec refused =>
    obtain ⟨_, h'⟩ := Option.ite_none_right_eq_some.mp hexec
    cases h'
    exact divider_read_handler s now ec refused
  | write_handler ec =>
    obtain ⟨_, h'⟩ := Option.ite_none_right_eq_some.mp hexec
    cases h'
    exact divider_write_handler s ec
  | timer_elapses =>
    obtain ⟨_, h'⟩ := Option.ite_none_right_eq_some.mp hexec
    cases h'
    rfl
  | retry_handler ec refused =>
    obtain ⟨t, _, rfl⟩ := Option.map_eq_some_iff.mp hexec
    exact divider_retry_handler { s with _timer := t } ec refused
  | tick_timer_elapses =>
    obtain ⟨_, h'⟩ := Option.ite_none_right_eq_some.mp hexec
    cases h'
    rfl
  | fixed_tick now ec =>
    -- without a handler there is no such event
    unfold tick_asked at h
    simp only [hdestroyed, Bool.false_eq_true, if_false, Option.map_eq_none_iff] at h
    obtain ⟨t, ht, _⟩ := Option.bind_eq_some_iff.mp hexec
    rw [h] at ht
    cases ht
  | close elegantly =>
    cases hexec
    exact divider_close s elegantly
  | kick =>
    cases hexec
    exact divider_close s true
  | run_posted =>
    simp only [exec_alive] at hexec
    split at hexec
    · cases hexec
    · next elegantly posted hposted =>
      cases hexec
      exact divider_close_body { s with posted := posted } elegantly
  | destroy =>
    obtain ⟨_, h'⟩ := Option.ite_none_left_eq_some.mp hexec
    cases h'
    rfl

/-- All other events leave the divider alone. -/
theorem divider_of_not_asked {s s' : session_life} {e : session_event}
    (h : s.tick_asked e = none) (hexec : s.exec e = some s') : s'.divider = s.divider := by
  unfold exec at hexec
  split at hexec
  · next hdestroyed => exact divider_of_destroyed hdestroyed hexec
  · next hdestroyed => exact divider_of_alive hdestroyed h hexec

end session_life

/-- A session and what the divider has answered it so far. -/
structure tick_log where
  /-- None after a division by zero. -/
  session : Option session_life
  answers : List (Option Bool)

/-- An event of a session that is ticked with one interval. -/
def TickStep (interval : Nat) (x : tick_log) (e : session_event) (x' : tick_log) : Prop :=
  ∃ s, x.session = some s ∧
    (∀ interval' timeout now, e = .start_tick interval' timeout now → interval' = interval) ∧
    ((∃ answer, s.tick_asked e = some answer ∧ x' = ⟨s.exec e, x.answers ++ [answer]⟩) ∨
      (s.tick_asked e = none ∧ ∃ s', s.exec e = some s' ∧ x' = ⟨some s', x.answers⟩))

/-- The runs from the call of `start_tick` on. -/
def ticking (interval : Nat) (s : session_life) : System tick_log session_event where
  init := fun x => ∃ timeout now,
    x = ⟨s.start_tick interval timeout now, [tick_answer interval s._keep_alive_frame_count]⟩
  step := TickStep interval

/-- Number of ticks in which the link should be looked at once. -/
def tick_period (interval : Nat) : Nat := max 1 (KEEP_ALIVE_PRECISION / interval)

/-- No tick divides by zero, and from the end of the first period on exactly one of
    any `tick_period` consecutive ones is effective. -/
def TicksPeriodically (interval : Nat) (s : session_life) : Prop :=
  ∀ x, (ticking interval s).Reachable x → none ∉ x.answers ∧
    ∀ i, tick_period interval ≤ i → i + tick_period interval ≤ x.answers.length →
      ((x.answers.drop i).take (tick_period interval)).count (some true) = 1

/-- The run has ticked `n + 1` times, without a division by zero. -/
structure Divided (interval count n : Nat) (x : tick_log) : Prop where
  running : ∃ s, x.session = some s ∧
    s.divider = (interval, (count + n) % (KEEP_ALIVE_PRECISION / interval))
  answers : x.answers = divided count (KEEP_ALIVE_PRECISION / interval) (n + 1)

/-- **One tick.** -/
theorem fixed_tick_divided {interval : Nat} (hdiv : KEEP_ALIVE_PRECISION / interval ≠ 0)
    {s : session_life} (hinterval : s._tick_interval = interval) (now : time_point) :
    ∃ s', s.fixed_tick now = some s' ∧ s'.divider = (interval,
      (s._keep_alive_frame_count + 1) % 2 ^ 64 % (KEEP_ALIVE_PRECISION / interval)) := by
  obtain ⟨s', hs'⟩ : ∃ s', s.fixed_tick now = some s' := by
    unfold fixed_tick is_tick_frame_effective
    rw [hinterval, if_neg hdiv]
    exact ⟨_, rfl⟩
  refine ⟨s', hs', ?_⟩
  rw [divider_fixed_tick hs', hinterval]
  unfold next_count period
  rw [hinterval]

theorem tick_answer_eq {interval : Nat} (hdiv : KEEP_ALIVE_PRECISION / interval ≠ 0)
    (count : Nat) : tick_answer interval count =
      some (decide ((count + 1) % 2 ^ 64 % (KEEP_ALIVE_PRECISION / interval) = 0)) := by
  unfold tick_answer is_tick_frame_effective
  rw [if_neg hdiv]
  rfl

/-- A counter below the period does not wrap around. -/
theorem count_succ_mod (count n : Nat) {period : Nat} (hle : period ≤ KEEP_ALIVE_PRECISION)
    (hpos : 0 < period) :
    ((count + n) % period + 1) % 2 ^ 64 % period = (count + (n + 1)) % period := by
  have hlt := Nat.mod_lt (count + n) hpos
  unfold KEEP_ALIVE_PRECISION at hle
  rw [Nat.mod_eq_of_lt (by omega : (count + n) % period + 1 < 2 ^ 64), Nat.mod_add_mod,
    Nat.add_assoc]

theorem divided_init {interval : Nat} (hdiv : KEEP_ALIVE_PRECISION / interval ≠ 0)
    (s : session_life) (timeout : Int) (now : time_point) :
    Divided interval ((s._keep_alive_frame_count + 1) % 2 ^ 64) 0
      ⟨s.start_tick interval timeout now, [tick_answer interval s._keep_alive_frame_count]⟩ := by
  unfold start_tick
  obtain ⟨s', hs', hdivider⟩ := fixed_tick_divided hdiv (s := { s with
    _tick_interval := interval
    _keep_alive_timeout := timeout
    _last_send_time := now
    _last_recv_time := now }) rfl now
  refine ⟨⟨s', hs', hdivider⟩, ?_⟩
  rw [tick_answer_eq hdiv]
  rfl

/-- **One step** ticks once more, or leaves the divider alone. -/
theorem divided_step {interval : Nat} (hdiv : KEEP_ALIVE_PRECISION / interval ≠ 0)
    {count n : Nat} {x x' : tick_log} {e : session_event} (h : Divided interval count n x)
    (hstep : TickStep interval x e x') : ∃ n', Divided interval count n' x' := by
  obtain ⟨s, hsession, hdivider⟩ := h.running
  obtain ⟨hinterval, hcount⟩ := Prod.mk.inj hdivider
  obtain ⟨s₀, hs₀, hstart, ⟨answer, hasked, rfl⟩ | ⟨hasked, s', hexec, rfl⟩⟩ := hstep
  · rw [hsession] at hs₀
    cases hs₀
    obtain ⟨t, now, hexec, hcount', rfl, ht⟩ := exec_of_asked hasked
    have hinterval' : t._tick_interval = interval := by
      rcases ht with ht | ⟨timeout, now', rfl⟩
      · rw [ht, hinterval]
      · exact hstart _ _ _ rfl
    have hnext := count_succ_mod count n
      (Nat.div_le_self KEEP_ALIVE_PRECISION interval) (Nat.pos_of_ne_zero hdiv)
    obtain ⟨s', hs', hdivider'⟩ := fixed_tick_divided hdiv hinterval' now
    refine ⟨n + 1, ⟨s', ?_, ?_⟩, ?_⟩
    · rw [← hs']
      exact hexec
    · rw [hdivider', hcount', hcount, hnext]
    · show x.answers ++ [_] = _
      rw [h.answers, divided_succ _ _ (n + 1), hinterval', tick_answer_eq hdiv, hcount, hnext]
  · rw [hsession] at hs₀
    cases hs₀
    refine ⟨n, ⟨s', rfl, ?_⟩, h.answers⟩
    rw [divider_of_not_asked hasked hexec, hdivider]

theorem divided_of_reachable {interval : Nat} (hdiv : KEEP_ALIVE_PRECISION / interval ≠ 0)
    (s : session_life) : ∀ x, (ticking interval s).Reachable x →
      ∃ n, Divided interval ((s._keep_alive_frame_count + 1) % 2 ^ 64) n x := by
  refine System.invariant ?_ ?_
  · intro x ⟨timeout, now, hx⟩
    rw [hx]
    exact ⟨0, divided_init hdiv s timeout now⟩
  · intro x e x' ⟨n, hn⟩ hstep
    exact divided_step hdiv hn hstep

/-- **Safe and periodic, exactly**: a session ticks periodically if and only if its
    interval is no longer than the precision. -/
theorem ticks_periodically_iff (interval : Nat) (hpos : 1 ≤ interval) (s : session_life) :
    TicksPeriodically interval s ↔ interval ≤ KEEP_ALIVE_PRECISION := by
  constructor
  · intro h
    by_contra hlong
    -- the first tick divides by zero
    have hzero := (precision_div_eq_zero hpos).mpr (Nat.lt_of_not_le hlong)
    have hfirst := (tick_answer_eq_none interval s._keep_alive_frame_count).mpr hzero
    have hrun := (h _ (.init ⟨0, 0, rfl⟩)).1
    rw [hfirst] at hrun
    exact hrun List.mem_cons_self
  · intro hle x hx
    have hdiv : KEEP_ALIVE_PRECISION / interval ≠ 0 := by
      rw [ne_eq, precision_div_eq_zero hpos]
      omega
    have hperiod : tick_period interval = KEEP_ALIVE_PRECISION / interval :=
      Nat.max_eq_right (Nat.pos_of_ne_zero hdiv)
    obtain ⟨n, hn⟩ := divided_of_reachable hdiv s x hx
    rw [hn.answers, hperiod, length_divided]
    constructor
    · intro hmem
      unfold divided at hmem
      obtain ⟨k, _, hk⟩ := List.mem_map.mp hmem
      cases hk
    · intro i _ hi
      exact count_window (Nat.pos_of_ne_zero hdiv) hi

/-- With a tick of 200 milliseconds. -/
theorem ticks_periodically_200 : TicksPeriodically 200 (constructed 0 0 0 7) :=
  (ticks_periodically_iff 200 (by decide) _).mpr (by decide)

/-- A tick of two seconds divides by zero. -/
theorem not_always_periodic : ¬ ∀ interval, 1 ≤ interval → interval < 2 ^ 32 →
    ∀ s, TicksPeriodically interval s := by
  intro h
  have hrun := (h 2000 (by decide) (by decide) (constructed 0 0 0 7) _ (.init ⟨0, 0, rfl⟩)).1
  exact hrun List.mem_cons_self

end AsioNet
