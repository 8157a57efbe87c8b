import AsioNet.BasicAsyncSession
import AsioNet.Library.TransitionSystem

/-! # The life of a session (`basic_async_session.cpp`)

    Connecting, being accepted, reading, writing, ticking and closing, as far as
    `_state`, the outstanding operations and the two timers are concerned. What
    the data does to a session is left open: a read handler may or may not be
    refused a message, and whatever a logic or an application calls on the
    session can be called at any time.

    The handlers that report a connection set `_state` without looking at it.
    `state_forward_iff` says that these are the only steps that take it back, and
    when they do.
-/

namespace AsioNet

open TransitionSystem

/-- The value of the enumerator. -/
def StateSocket.rank : StateSocket → Nat
  | .INIT => 0
  | .WAIT_CONNECT => 1
  | .CONNECTING => 2
  | .TO_CLOSE => 3
  | .CLOSE_DONE => 4

/-! ### Timers -/

/-- The waits on an `asio::steady_timer`. -/
structure steady_timer where
  /-- A wait is pending. -/
  pending : Bool
  /-- Handlers of elapsed waits that have not run yet. -/
  elapsed : Nat
  /-- Handlers of cancelled waits that have not run yet. -/
  cancelled : Nat
  /-- Number of waits started so far. -/
  waits : Nat

namespace steady_timer

def constructed : steady_timer where
  pending := false
  elapsed := 0
  cancelled := 0
  waits := 0

/-- A handler that is already queued is not called back. -/
def cancel (t : steady_timer) : steady_timer :=
  { t with
    pending := false
    cancelled := t.cancelled + if t.pending then 1 else 0 }

/-- Setting the expiry cancels a pending wait. -/
def expires_from_now (t : steady_timer) : steady_timer := t.cancel

def async_wait (t : steady_timer) : steady_timer :=
  { t with pending := true, waits := t.waits + 1 }

/-- The pending wait elapses. -/
def elapse (t : steady_timer) : steady_timer :=
  { t with pending := false, elapsed := t.elapsed + 1 }

/-- The handler of a wait is taken off the queue. -/
def take_handler (t : steady_timer) (ec : Bool) : Option steady_timer :=
  if ec then
    if 0 < t.cancelled then some { t with cancelled := t.cancelled - 1 } else none
  else
    if 0 < t.elapsed then some { t with elapsed := t.elapsed - 1 } else none

/-- A wait is pending or its handler has not run yet. -/
def Outstanding (t : steady_timer) : Prop :=
  t.pending = true ∨ 0 < t.elapsed ∨ 0 < t.cancelled

end steady_timer

/-! ### The session -/

/-- Nanoseconds of `std::chrono::system_clock`. -/
abbrev time_point := Int

def NS_PER_MS : Nat := 1000000

/-- `duration_cast<milliseconds>`, which rounds towards zero. -/
def duration_ms (duration : Int) : Int := duration.tdiv NS_PER_MS

def NET_PREDICTION_DELAY_MS_MAX : Nat := 2000

def KEEP_ALIVE_PRECISION : Nat := 1000

/-- The part of a session that connects, ticks and closes. -/
structure session_life where
  _state : StateSocket
  /-- `_logic` is not null. -/
  has_logic : Bool
  /-- `_sock.is_open()` -/
  is_open : Bool
  /-- Outstanding operations on the socket. -/
  connects : Nat
  reads : Nat
  writes : Nat
  /-- Bodies of `close` posted to the strand, with their argument. -/
  posted : List Bool
  _timer : steady_timer
  _tick_timer : steady_timer
  /-- In milliseconds, as the timeout. -/
  _tick_interval : Nat
  _keep_alive_timeout : Int
  _keep_alive_frame_count : Nat
  _last_recv_time : time_point
  _last_send_time : time_point
  /-- The destructor has run. -/
  destroyed : Bool
  /-- A handler has run on the destroyed object. -/
  dangling : Bool

namespace session_life

/-- A session as it is constructed; the constructor leaves the fields of the tick
    uninitialised. -/
def constructed (now : time_point) (interval : Nat) (timeout : Int) (count : Nat) :
    session_life where
  _state := .INIT
  has_logic := false
  is_open := false
  connects := 0
  reads := 0
  writes := 0
  posted := []
  _timer := steady_timer.constructed
  _tick_timer := steady_timer.constructed
  _tick_interval := interval
  _keep_alive_timeout := timeout
  _keep_alive_frame_count := count
  _last_recv_time := now
  _last_send_time := now
  destroyed := false
  dangling := false

/-! ### Closing -/

def close (s : session_life) (elegantly : Bool) : session_life :=
  if s._state = .CLOSE_DONE then s else { s with posted := s.posted ++ [elegantly] }

def kick (s : session_life) : session_life := s.close true

def clear_all_timer (s : session_life) : session_life :=
  { s with _timer := s._timer.cancel, _tick_timer := s._tick_timer.cancel }

/-- The body `close` posts. -/
def close_body (s : session_life) (elegantly : Bool) : session_life :=
  if s._state = .CLOSE_DONE then s
  else
    let s := s.clear_all_timer
    if s.is_open then
      -- shutting down the sending side leaves the socket open
      if elegantly then { s with _state := .TO_CLOSE }
      else { s with _state := .CLOSE_DONE, is_open := false }
    else s

/-! ### Reading and writing -/

def async_recv_loop (s : session_life) : session_life :=
  if s._state ≠ .CONNECTING then s else { s with reads := s.reads + 1 }

/-- `async_send` and `async_send_multi` -/
def async_send (s : session_life) (now : time_point) : session_life :=
  if s._state ≠ .CONNECTING then s
  else { s with _last_send_time := now, writes := s.writes + 1 }

/-- The storage may refuse a message, which starts the retry timer. -/
def pick_entire_msgs (s : session_life) (refused : Bool) : session_life :=
  let s := if refused then { s with _timer := s._timer.expires_from_now.async_wait } else s
  s.async_recv_loop

/-- The handler of `async_read_some`, with an error or without. -/
def read_handler (s : session_life) (now : time_point) (ec refused : Bool) : session_life :=
  let s := { s with reads := s.reads - 1, _last_recv_time := now }
  -- after an error the handler goes on
  let s := if ec then s.close false else s
  s.pick_entire_msgs refused

def write_handler (s : session_life) (ec : Bool) : session_life :=
  let s := { s with writes := s.writes - 1 }
  if ec then s.close false else s

/-- The handler of the retry timer. -/
def retry_handler (s : session_life) (ec refused : Bool) : session_life :=
  if ec then s.close false else s.pick_entire_msgs refused

/-! ### Connecting -/

def async_connect (s : session_life) : session_life :=
  if s.has_logic = false then s
  else if s._state ≠ .INIT then s
  else { s with _state := .WAIT_CONNECT, connects := s.connects + 1, is_open := true }

/-- The handler of `async_connect`, up to the callback. -/
def connect_handler (s : session_life) (ec : Bool) : session_life :=
  let s := { s with connects := s.connects - 1 }
  if ec then s.close false
  else { s with _state := .CONNECTING }.async_recv_loop

def passively_connect_succ (s : session_life) : session_life :=
  { s with _state := .CONNECTING }.async_recv_loop

/-! ### Ticking -/

/-- The counter after the call and whether the frame is effective, `none` on a
    division by zero. -/
def is_tick_frame_effective (tick precision count : Nat) : Option (Bool × Nat) :=
  if precision / tick = 0 then none
  else
    let count := (count + 1) % 2 ^ 64 % (precision / tick)
    some (decide (count = 0), count)

def tick_alive (s : session_life) (now : time_point) : session_life :=
  if s._state ≠ .CONNECTING then s
  else if duration_ms (now - s._last_recv_time) > s._keep_alive_timeout then s.kick
  else if duration_ms (now - s._last_send_time) >
      s._keep_alive_timeout - NET_PREDICTION_DELAY_MS_MAX then s.async_send now
  else s

/-- The handler of `_tick_timer` takes no error code. -/
def fixed_tick (s : session_life) (now : time_point) : Option session_life := do
  let (effective, count) ←
    is_tick_frame_effective s._tick_interval KEEP_ALIVE_PRECISION s._keep_alive_frame_count
  let s := { s with _keep_alive_frame_count := count }
  let s := if effective then s.tick_alive now else s
  some { s with _tick_timer := s._tick_timer.expires_from_now.async_wait }

def start_tick (s : session_life) (interval : Nat) (timeout : Int) (now : time_point) :
    Option session_life :=
  let s := { s with
    _tick_interval := interval
    _keep_alive_timeout := timeout
    _last_send_time := now
    _last_recv_time := now }
  s.fixed_tick now

/-- What keeps the session alive: its operations, posted bodies and retry waits
    hold a `shared_ptr`, its tick does not. -/
def Held (s : session_life) : Prop :=
  0 < s.connects ∨ 0 < s.reads ∨ 0 < s.writes ∨ s.posted ≠ [] ∨ s._timer.Outstanding

instance (s : session_life) : Decidable s.Held := by
  unfold Held steady_timer.Outstanding
  infer_instance

end session_life

/-! ### Runs -/

/-- What can happen to a session next. -/
inductive session_event where
  | modify_session_logic
  /-- an acceptor opens the socket -/
  | accept
  | async_connect
  | connect_handler (ec : Bool)
  | passively_connect_succ
  | start_tick (interval : Nat) (timeout : Int) (now : time_point)
  | async_send (now : time_point)
  | read_handler (now : time_point) (ec refused : Bool)
  | write_handler (ec : Bool)
  | timer_elapses
  | retry_handler (ec refused : Bool)
  | tick_timer_elapses
  | fixed_tick (now : time_point) (ec : Bool)
  | close (elegantly : Bool)
  | kick
  | run_posted
  | destroy

namespace session_life

/-- The handler of a tick. On a destroyed object it is undefined what it does, and
    the run goes no further. -/
def tick_handler (s : session_life) (now : time_point) (ec : Bool) : Option session_life := do
  let t ← s._tick_timer.take_handler ec
  let s := { s with _tick_timer := t }
  if s.destroyed then some { s with dangling := true } else s.fixed_tick now

/-- An event of the tick's timer, the only ones after the destructor has run. -/
def exec_tick_timer (s : session_life) : session_event → Option session_life
  | .tick_timer_elapses =>
    if s._tick_timer.pending then some { s with _tick_timer := s._tick_timer.elapse } else none
  | .fixed_tick now ec => s.tick_handler now ec
  | _ => none

/-- An event of a session that is not destroyed. -/
def exec_alive (s : session_life) : session_event → Option session_life
  | .modify_session_logic => some { s with has_logic := true }
  | .accept => if s._state = .INIT then some { s with is_open := true } else none
  | .async_connect => some s.async_connect
  | .connect_handler ec => if 0 < s.connects then some (s.connect_handler ec) else none
  | .passively_connect_succ => some s.passively_connect_succ
  | .start_tick interval timeout now => s.start_tick interval timeout now
  | .async_send now => some (s.async_send now)
  | .read_handler now ec refused =>
    if 0 < s.reads then some (s.read_handler now ec refused) else none
  | .write_handler ec => if 0 < s.writes then some (s.write_handler ec) else none
  | .timer_elapses =>
    if s._timer.pending then some { s with _timer := s._timer.elapse } else none
  | .retry_handler ec refused =>
    (s._timer.take_handler ec).map fun t => { s with _timer := t }.retry_handler ec refused
  | .tick_timer_elapses => s.exec_tick_timer .tick_timer_elapses
  | .fixed_tick now ec => s.exec_tick_timer (.fixed_tick now ec)
  | .close elegantly => some (s.close elegantly)
  | .kick => some s.kick
  | .run_posted =>
    match s.posted with
    | [] => none
    | elegantly :: posted => some ({ s with posted := posted }.close_body elegantly)
  | .destroy => if s.Held then none else some { s.clear_all_timer with destroyed := true }

/-- The state after an event, `none` if the event cannot happen. -/
def exec (s : session_life) (e : session_event) : Option session_life :=
  if s.destroyed then s.exec_tick_timer e else s.exec_alive e

/-- All runs of a session. -/
def system : System session_life session_event :=
  System.ofExec (fun s => ∃ now interval timeout count, s = constructed now interval timeout count)
    exec

/-! ### What a step does -/

/-- `s'` has the state, the socket and the reads of `s`. -/
structure SameLink (s s' : session_life) : Prop where
  state : s'._state = s._state
  is_open : s'.is_open = s.is_open
  reads : s'.reads = s.reads

theorem sameLink_close (s : session_life) (elegantly : Bool) : SameLink s (s.close elegantly) := by
  unfold close
  split <;> exact ⟨rfl, rfl, rfl⟩

theorem sameLink_async_send (s : session_life) (now : time_point) :
    SameLink s (s.async_send now) := by
  unfold async_send
  split <;> exact ⟨rfl, rfl, rfl⟩

theorem sameLink_write_handler (s : session_life) (ec : Bool) :
    SameLink s (s.write_handler ec) := by
  unfold write_handler
  cases ec with
  | false => exact ⟨rfl, rfl, rfl⟩
  | true =>
    have hclose := sameLink_close { s with writes := s.writes - 1 } false
    exact ⟨hclose.state, hclose.is_open, hclose.reads⟩

theorem sameLink_tick_alive (s : session_life) (now : time_point) :
    SameLink s (s.tick_alive now) := by
  unfold tick_alive kick
  split
  · exact ⟨rfl, rfl, rfl⟩
  split
  · exact sameLink_close s true
  split
  · exact sameLink_async_send s now
  · exact ⟨rfl, rfl, rfl⟩

theorem sameLink_fixed_tick {s s' : session_life} {now : time_point}
    (h : s.fixed_tick now = some s') : SameLink s s' := by
  unfold fixed_tick at h
  obtain ⟨⟨effective, count⟩, -, h⟩ := Option.bind_eq_some_iff.mp h
  cases h
  cases effective with
  | false => exact ⟨rfl, rfl, rfl⟩
  | true =>
    have htick := sameLink_tick_alive { s with _keep_alive_frame_count := count } now
    exact ⟨htick.state, htick.is_open, htick.reads⟩

theorem sameLink_exec_tick_timer {s s' : session_life} {e : session_event}
    (h : s.exec_tick_timer e = some s') : SameLink s s' := by
  unfold exec_tick_timer at h
  split at h
  · split at h <;> cases h
    exact ⟨rfl, rfl, rfl⟩
  · next now ec =>
    unfold tick_handler at h
    obtain ⟨t, -, h⟩ := Option.bind_eq_some_iff.mp h
    simp only at h
    split at h
    · cases h
      exact ⟨rfl, rfl, rfl⟩
    · have htick := sameLink_fixed_tick h
      exact ⟨htick.state, htick.is_open, htick.reads⟩
  · cases h

/-- The step reports a connection. -/
def Connects : session_event → Prop
  | .connect_handler ec => ec = false
  | .passively_connect_succ => True
  | _ => False

/-- **One step** connects, reads, runs the retry timer's handler or the body of a
    `close`, or does nothing to state, socket and reads. -/
theorem exec_cases {s s' : session_life} {e : session_event} (h : s.exec e = some s') :
    (¬ Connects e ∧ SameLink s s') ∨
    (e = .accept ∧ s._state = .INIT ∧ s' = { s with is_open := true }) ∨
    (e = .async_connect ∧ s' = s.async_connect) ∨
    (∃ ec, e = .connect_handler ec ∧ s' = s.connect_handler ec) ∨
    (e = .passively_connect_succ ∧ s' = s.passively_connect_succ) ∨
    (∃ now ec refused, e = .read_handler now ec refused ∧ 0 < s.reads ∧
      s' = s.read_handler now ec refused) ∨
    (∃ t ec refused, e = .retry_handler ec refused ∧
      s' = { s with _timer := t }.retry_handler ec refused) ∨
    (∃ elegantly posted, e = .run_posted ∧
      s' = { s with posted := posted }.close_body elegantly) := by
  unfold exec at h
  split at h
  · -- a destroyed session only ticks
    refine Or.inl ⟨?_, sameLink_exec_tick_timer h⟩
    cases e <;> first | exact id | cases h
  cases e with
  | modify_session_logic =>
    -- the logic is not part of the link
    cases h
    exact Or.inl ⟨id, rfl, rfl, rfl⟩
  | accept =>
    -- the four ways to a connection
    simp only [exec_alive] at h
    split at h <;> cases h
    next hinit => exact Or.inr (Or.inl ⟨rfl, hinit, rfl⟩)
  | async_connect =>
    cases h
    exact Or.inr (Or.inr (Or.inl ⟨rfl, rfl⟩))
  | connect_handler ec =>
    simp only [exec_alive] at h
    split at h <;> cases h
    exact Or.inr (Or.inr (Or.inr (Or.inl ⟨ec, rfl, rfl⟩)))
  | passively_connect_succ =>
    cases h
    exact Or.inr (Or.inr (Or.inr (Or.inr (Or.inl ⟨rfl, rfl⟩))))
  | start_tick interval timeout now =>
    -- ticking and sending only set times, `_tick_timer` and the writes
    simp only [exec_alive, start_tick] at h
    have htick := sameLink_fixed_tick h
    exact Or.inl ⟨id, htick.state, htick.is_open, htick.reads⟩
  | async_send now =>
    cases h
    exact Or.inl ⟨id, sameLink_async_send s now⟩
  | read_handler now ec refused =>
    -- completions: only that of a read can end the link or start a read
    simp only [exec_alive] at h
    split at h <;> cases h
    next hreads =>
    exact Or.inr (Or.inr (Or.inr (Or.inr (Or.inr (Or.inl ⟨now, ec, refused, rfl, hreads, rfl⟩)))))
  | write_handler ec =>
    simp only [exec_alive] at h
    split at h <;> cases h
    exact Or.inl ⟨id, sameLink_write_handler s ec⟩
  | timer_elapses =>
    -- a wait that ends does nothing before its handler runs
    simp only [exec_alive] at h
    split at h <;> cases h
    exact Or.inl ⟨id, rfl, rfl, rfl⟩
  | retry_handler ec refused =>
    obtain ⟨t, -, rfl⟩ := Option.map_eq_some_iff.mp h
    exact Or.inr (Or.inr (Or.inr (Or.inr (Or.inr (Or.inr (Or.inl ⟨t, ec, refused, rfl, rfl⟩))))))
  | tick_timer_elapses =>
    exact Or.inl ⟨id, sameLink_exec_tick_timer (e := .tick_timer_elapses) h⟩
  | fixed_tick now ec =>
    exact Or.inl ⟨id, sameLink_exec_tick_timer (e := .fixed_tick now ec) h⟩
  | close elegantly =>
    -- `close` posts its body, which runs later
    cases h
    exact Or.inl ⟨id, sameLink_close s elegantly⟩
  | kick =>
    cases h
    exact Or.inl ⟨id, sameLink_close s true⟩
  | run_posted =>
    simp only [exec_alive] at h
    split at h <;> cases h
    next elegantly posted hposted =>
    exact Or.inr (Or.inr (Or.inr (Or.inr (Or.inr (Or.inr (Or.inr
      ⟨elegantly, posted, rfl, rfl⟩))))))
  | destroy =>
    simp only [exec_alive] at h
    split at h <;> cases h
    exact Or.inl ⟨id, rfl, rfl, rfl⟩

theorem exec_read_handler {s s' : session_life} {now : time_point} {ec refused : Bool}
    (h : s.exec (.read_handler now ec refused) = some s') :
    s' = s.read_handler now ec refused := by
  unfold exec at h
  split at h
  · cases h
  · simp only [exec_alive] at h
    split at h <;> cases h
    rfl

/-! ### What the steps do to the state -/

@[simp] theorem state_close (s : session_life) (elegantly : Bool) :
    (s.close elegantly)._state = s._state := (sameLink_close s elegantly).state

@[simp] theorem state_async_recv_loop (s : session_life) :
    s.async_recv_loop._state = s._state := by
  unfold async_recv_loop
  split <;> rfl

@[simp] theorem state_pick_entire_msgs (s : session_life) (refused : Bool) :
    (s.pick_entire_msgs refused)._state = s._state := by
  unfold pick_entire_msgs
  cases refused <;> simp

@[simp] theorem state_read_handler (s : session_life) (now : time_point) (ec refused : Bool) :
    (s.read_handler now ec refused)._state = s._state := by
  unfold read_handler
  cases ec <;> simp

@[simp] theorem state_retry_handler (s : session_life) (ec refused : Bool) :
    (s.retry_handler ec refused)._state = s._state := by
  unfold retry_handler
  cases ec <;> simp

theorem state_connect_handler (s : session_life) (ec : Bool) :
    (s.connect_handler ec)._state = if ec then s._state else .CONNECTING := by
  unfold connect_handler
  cases ec <;> simp

theorem state_passively_connect_succ (s : session_life) :
    s.passively_connect_succ._state = .CONNECTING := by
  unfold passively_connect_succ
  simp

/-- The body of `close` closes, or does nothing to the state. -/
theorem state_close_body (s : session_life) (elegantly : Bool) :
    (s.close_body elegantly)._state = s._state ∨
      (s._state ≠ .CLOSE_DONE ∧ (s.close_body elegantly)._state = .TO_CLOSE) ∨
      (s.close_body elegantly)._state = .CLOSE_DONE := by
  unfold close_body
  split
  · exact Or.inl rfl
  next hstate =>
  simp only
  split
  · split
    · exact Or.inr (Or.inl ⟨hstate, rfl⟩)
    · exact Or.inr (Or.inr rfl)
  · exact Or.inl rfl

theorem state_async_connect (s : session_life) :
    s.async_connect = s ∨ (s._state = .INIT ∧ s.async_connect._state = .WAIT_CONNECT) := by
  unfold async_connect
  split
  · exact Or.inl rfl
  split
  · exact Or.inl rfl
  · next hinit => exact Or.inr ⟨not_not.mp hinit, rfl⟩

/-! ### The state goes forward -/

/-- A connection is reported only to a session that is not being closed. -/
def ConnectsInTime (s : session_life) (e : session_event) : Prop :=
  Connects e → s._state ≠ .TO_CLOSE ∧ s._state ≠ .CLOSE_DONE

theorem rank_connecting_le_iff (state : StateSocket) :
    state.rank ≤ StateSocket.rank .CONNECTING ↔ state ≠ .TO_CLOSE ∧ state ≠ .CLOSE_DONE := by
  cases state <;> decide

/-- **One step** takes the state forward if and only if it reports no connection to
    a session that is being closed. -/
theorem rank_le_iff {s s' : session_life} {e : session_event} (hstep : s.exec e = some s') :
    s._state.rank ≤ s'._state.rank ↔ ConnectsInTime s e := by
  -- a step that connects leads to `CONNECTING`, all others keep the state or raise it
  have hconnects : s'._state = .CONNECTING → Connects e →
      (s._state.rank ≤ s'._state.rank ↔ ConnectsInTime s e) := by
    intro hstate he
    rw [hstate, rank_connecting_le_iff]
    exact ⟨fun h _ => h, fun h => h he⟩
  have hother : ¬ Connects e → s._state.rank ≤ s'._state.rank →
      (s._state.rank ≤ s'._state.rank ↔ ConnectsInTime s e) := by
    intro he hle
    exact iff_of_true hle (fun h => absurd h he)
  rcases exec_cases hstep with ⟨he, hsame⟩ | ⟨rfl, -, rfl⟩ | ⟨rfl, rfl⟩ | ⟨ec, rfl, rfl⟩ |
    ⟨rfl, rfl⟩ | ⟨now, ec, refused, rfl, -, rfl⟩ | ⟨t, ec, refused, rfl, rfl⟩ |
    ⟨elegantly, posted, rfl, rfl⟩
  · exact hother he (Nat.le_of_eq (by rw [hsame.state]))
  · exact hother id (Nat.le_refl _)
  · refine hother id ?_
    rcases state_async_connect s with h | ⟨hinit, hwait⟩
    · rw [h]
    · rw [hinit, hwait]
      decide
  · cases ec with
    | false => exact hconnects (state_connect_handler s false) rfl
    | true => exact hother nofun (Nat.le_of_eq (by rw [state_connect_handler]; rfl))
  · exact hconnects (state_passively_connect_succ s) trivial
  · exact hother id (Nat.le_of_eq (by rw [state_read_handler]))
  · exact hother id (Nat.le_of_eq (by rw [state_retry_handler]))
  · refine hother id ?_
    rcases state_close_body { s with posted := posted } elegantly with h | ⟨hstate, h⟩ | h
    · rw [h]
    · rw [h]
      cases hs : s._state <;> first | decide | exact absurd hs hstate
    · rw [h]
      cases s._state <;> decide

/-- From `s` on the state has only moved forward. -/
def Forward (s t : session_life) : Prop :=
  s._state.rank ≤ t._state.rank ∧
    (s._state = .TO_CLOSE → t._state = .TO_CLOSE ∨ t._state = .CLOSE_DONE) ∧
    (s._state = .CLOSE_DONE → t._state = .CLOSE_DONE)

theorem forward_of_rank_le {s t : session_life} (h : s._state.rank ≤ t._state.rank) :
    Forward s t := by
  refine ⟨h, ?_, ?_⟩
  · intro hs
    rw [hs] at h
    cases ht : t._state <;> rw [ht] at h <;> first | exact absurd h (by decide) | simp
  · intro hs
    rw [hs] at h
    cases ht : t._state <;> rw [ht] at h <;> exact absurd h (by decide)

/-- No step of a run goes back, so none goes back behind the run's start. -/
theorem rank_le_of_run (s : session_life) :
    ∀ t, ((system.restrict ConnectsInTime).startingAt s).Reachable t →
      s._state.rank ≤ t._state.rank := by
  refine System.invariant_startingAt (Nat.le_refl _) ?_
  rintro t₁ e t₂ hle ⟨hguard, hstep⟩
  exact hle.trans ((rank_le_iff hstep).mpr hguard)

/-- **Forward only, exactly.** Along a run a step takes the state forward if and
    only if it reports no connection to a session that is being closed, and in runs
    without such a report every state is at or behind all those before it. -/
theorem state_forward_iff (s : session_life) :
    (system.Reachable s → ∀ e s', system.step s e s' →
      (s._state.rank ≤ s'._state.rank ↔ ConnectsInTime s e)) ∧
    ((system.restrict ConnectsInTime).Reachable s →
      ∀ t, ((system.restrict ConnectsInTime).startingAt s).Reachable t → Forward s t) := by
  refine ⟨fun _ e s' hstep => rank_le_iff hstep, ?_⟩
  intro _ t hrun
  exact forward_of_rank_le (rank_le_of_run s t hrun)

/-- A session with a tick of a second and a timeout of five. -/
def new_session : session_life := constructed 0 1000 5000 0

/-- The session under the events. -/
def run (es : List session_event) : Option session_life := es.foldlM exec new_session

/-- A session is kicked after it was accepted. -/
theorem forward_when_kicked :
    ∃ s t, run [.accept, .passively_connect_succ] = some s ∧ s._state = .CONNECTING ∧
      run [.accept, .passively_connect_succ, .kick, .run_posted] = some t ∧
      t._state = .TO_CLOSE ∧ Forward s t := by
  obtain ⟨s, hs, hstate⟩ : ∃ s, run [.accept, .passively_connect_succ] = some s ∧
      s._state = .CONNECTING := ⟨_, rfl, rfl⟩
  obtain ⟨t, ht, hst⟩ : ∃ t, [session_event.kick, .run_posted].foldlM exec s = some t ∧
      t._state = .TO_CLOSE := by
    cases hs
    exact ⟨_, rfl, rfl⟩
  have hrun : run [.accept, .passively_connect_succ, .kick, .run_posted] = some t := by
    cases hs
    exact ht
  refine ⟨s, t, hs, hstate, hrun, hst, (state_forward_iff s).2 ?_ t ?_⟩
  · cases hs
    exact .step .passively_connect_succ (.step .accept (.init ⟨0, 1000, 5000, 0, rfl⟩)
      ⟨nofun, rfl⟩) ⟨fun _ => ⟨nofun, nofun⟩, rfl⟩
  · cases hs
    cases ht
    exact .step .run_posted (.step .kick (.init rfl) ⟨nofun, rfl⟩) ⟨nofun, rfl⟩

/-- A session that is kicked while it connects is connected again. -/
theorem not_always_forward :
    ¬ ∀ s s' e, system.Reachable s → system.step s e s' → s._state.rank ≤ s'._state.rank := by
  intro hall
  obtain ⟨s, hs, hstate⟩ : ∃ s, run [.modify_session_logic, .async_connect, .kick, .run_posted] =
      some s ∧ s._state = .TO_CLOSE := ⟨_, rfl, rfl⟩
  obtain ⟨s', hs', hstate'⟩ : ∃ s', s.exec (.connect_handler false) = some s' ∧
      s'._state = .CONNECTING := by
    cases hs
    exact ⟨_, rfl, rfl⟩
  have hreach : (system.restrict fun _ _ => True).Reachable s :=
    .of_foldlM (.init ⟨0, 1000, 5000, 0, rfl⟩) _ (fun _ _ _ => trivial) hs
  have hle := hall s s' _ hreach.of_restrict hs'
  rw [hstate, hstate'] at hle
  exact absurd hle (by decide)

end session_life

end AsioNet
