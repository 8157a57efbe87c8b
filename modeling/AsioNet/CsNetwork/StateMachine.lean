import AsioNet.CsNetwork.Runtime
import AsioNet.Library.Executions

/-! # The client's state machine (`SocketClient.cs`)

    `_currentState` is written by the main thread, in `AsyncConnect` and `stateExec`,
    and by the threads that run `onAsyncConnectDone`. `tickStateMachine` reads it up to
    four times. A step here is one access to it, or one to `_tcpSocket` under its lock,
    so that a run is an interleaving of these.

    A tick reads the state twice between comparing it and recording it as entered: once
    for `stateEnter` and once for `_lastState`. What is stored between these two reads
    is recorded but never entered. `no_state_missed` says that the interleavings that
    avoid this, and two others, miss nothing.
-/

namespace AsioNet.CsNetwork

open TransitionSystem

inductive SocketState where
  | StateInit
  | StateConnecting
  | StateConnected
  | StateClosed
  | StateTimeout
  | StateOtherErr
  deriving DecidableEq, Repr

/-- What the main thread is about to do. -/
inductive main_thread where
  /-- the next call -/
  | idle
  /-- the rest of `AsyncConnect`, which has set the state -/
  | connecting
  /-- `stateEnter(State)` -/
  | entering
  /-- `_lastState = (int)State` -/
  | recording
  /-- `stateExec(State)` -/
  | executing
  /-- `State = SocketState.StateTimeout` -/
  | timing_out
  deriving DecidableEq, Repr

/-- What a thread in `onAsyncConnectDone` is about to do. -/
inductive connect_done where
  /-- compare its socket with `_tcpSocket` -/
  | comparing
  /-- `EndConnect` -/
  | ending
  /-- read `refSocket.Connected` -/
  | asking
  /-- `State = state` -/
  | storing (state : SocketState)
  deriving DecidableEq, Repr

/-- A callback that `BeginConnect` was given. -/
structure connect_callback where
  socket : Nat
  next : connect_done
  deriving DecidableEq, Repr

structure state_machine where
  _currentState : SocketState
  _lastState : SocketState
  _tcpSocket : Option Nat
  _startTimeMS : Int32
  _connectTimeout : Int32
  main : main_thread
  /-- The callbacks that have not returned. -/
  callbacks : List connect_callback
  /-- Number of sockets made so far. -/
  sockets : Nat
  /-- The state `stateEnter` ran for last. -/
  entered : SocketState
  deriving DecidableEq, Repr

/-- One step, with what the rest of the world decides in it. -/
inductive machine_step where
  /-- `AsyncConnect` is called with `timeout` and sets the state. -/
  | AsyncConnect (timeout curTick : Int32)
  /-- It makes the socket and begins to connect; either may throw. -/
  | BeginConnect (socket_made begun : Bool)
  /-- The main thread goes on with its tick, or starts one. -/
  | Tick (curTick : Int32)
  /-- Callback `i` goes on; its `EndConnect` does not throw, or its socket is connected,
      if `good`. -/
  | connectDone (i : Nat) (good : Bool)
  deriving DecidableEq, Repr

namespace state_machine

def DEFAULT_SEND_TIME_OUT : Int32 := 60 * 1000

/-- `new SocketClient()` -/
def make : state_machine where
  _currentState := .StateInit
  _lastState := .StateInit
  _tcpSocket := none
  _startTimeMS := 0
  _connectTimeout := 0
  main := .idle
  callbacks := []
  sockets := 0
  entered := .StateInit

def AsyncConnect (s : state_machine) (timeout curTick : Int32) : Option state_machine :=
  if s.main = .idle then
    some { s with
      _connectTimeout := if 0 < timeout then timeout else DEFAULT_SEND_TIME_OUT
      _startTimeMS := curTick
      _currentState := .StateConnecting
      main := .connecting }
  else none

/-- Exceptions are logged only. -/
def BeginConnect (s : state_machine) (socket_made begun : Bool) : Option state_machine :=
  if s.main = .connecting then
    if socket_made then
      some { s with
        _tcpSocket := some s.sockets
        sockets := s.sockets + 1
        callbacks := if begun then s.callbacks ++ [⟨s.sockets, .comparing⟩] else s.callbacks
        main := .idle }
    else some { s with main := .idle }
  else none

/-- The next access of `tickStateMachine` to the state; `stateLeave` does nothing, and
    `stateEnter` and `stateExec` get the state as an argument. -/
def tickStateMachine (s : state_machine) (curTick : Int32) : Option state_machine :=
  match s.main with
  | .idle =>
    if s._lastState ≠ s._currentState then some { s with main := .entering }
    else some { s with main := .executing }
  | .entering => some { s with entered := s._currentState, main := .recording }
  | .recording => some { s with _lastState := s._currentState, main := .executing }
  | .executing =>
    let delta := curTick - s._startTimeMS
    if s._currentState = .StateConnecting ∧ delta > s._connectTimeout then
      some { s with main := .timing_out }
    else some { s with main := .idle }
  | .timing_out => some { s with _currentState := .StateTimeout, main := .idle }
  | .connecting => none

/-- The next access of callback `i`, which is `c`. -/
def onAsyncConnectDone (s : state_machine) (i : Nat) (c : connect_callback) (good : Bool) :
    state_machine :=
  match c.next with
  | .comparing =>
    if s._tcpSocket = some c.socket then
      { s with callbacks := s.callbacks.set i { c with next := .ending } }
    else { s with callbacks := s.callbacks.eraseIdx i }
  | .ending =>
    { s with
      _currentState := if good then s._currentState else .StateClosed
      callbacks := s.callbacks.set i { c with next := .asking } }
  | .asking =>
    { s with
      callbacks := s.callbacks.set i
        { c with next := .storing (if good then .StateConnected else .StateClosed) } }
  | .storing state =>
    { s with
      _currentState := state
      callbacks := s.callbacks.eraseIdx i }

def exec (s : state_machine) : machine_step → Option state_machine
  | .AsyncConnect timeout curTick => s.AsyncConnect timeout curTick
  | .BeginConnect socket_made begun => s.BeginConnect socket_made begun
  | .Tick curTick => s.tickStateMachine curTick
  | .connectDone i good =>
    match s.callbacks[i]? with
    | none => none
    | some c => some (s.onAsyncConnectDone i c good)

/-- The runs of a client that is ticked and connects. -/
def system : System state_machine machine_step := .ofExec (fun s => s = make) exec

/-! ### What must not happen -/

/-- What a step of a callback stores in `_currentState`. -/
def stores (s : state_machine) : machine_step → Option SocketState
  | .connectDone i good =>
    match s.callbacks[i]? with
    | some ⟨_, .ending⟩ => if good then none else some .StateClosed
    | some ⟨_, .storing state⟩ => some state
    | _ => none
  | _ => none

/-- Nothing but what was just entered is stored before it is recorded. No connection is
    made between the decision to time out and the time-out, nor while the one before was
    the last state to be entered. -/
structure Harmless (s : state_machine) (state : SocketState) : Prop where
  recorded : s.main = .recording → state = s.entered
  not_timed_out : s.main = .timing_out → state ≠ .StateConnected
  noticed : state = .StateConnected → s.entered ≠ .StateConnected

instance (s : state_machine) (state : SocketState) : Decidable (Harmless s state) :=
  decidable_of_iff ((s.main = .recording → state = s.entered) ∧
      (s.main = .timing_out → state ≠ .StateConnected) ∧
      (state = .StateConnected → s.entered ≠ .StateConnected))
    ⟨fun h => ⟨h.1, h.2.1, h.2.2⟩, fun h => ⟨h.recorded, h.not_timed_out, h.noticed⟩⟩

/-- What a callback stores is harmless. -/
def Guard (s : state_machine) (l : machine_step) : Prop :=
  ∀ state ∈ s.stores l, Harmless s state

instance (s : state_machine) (l : machine_step) : Decidable (Guard s l) := by
  unfold Guard
  infer_instance

/-- Steps of the main thread's ticks. -/
def IsTick (l : machine_step) : Prop := ∃ curTick, l = .Tick curTick

/-- `stateEnter(state)` runs in this step. -/
def Enters (state : SocketState) (s : state_machine) (l : machine_step) : Prop :=
  IsTick l ∧ s.main = .entering ∧ s._currentState = state

variable {S : System state_machine machine_step}

structure NoStateMissed (e : Execution S) : Prop where
  /-- A state that stays is entered, if it is not the one entered last. -/
  settled : ∀ n state, (∀ m, n ≤ m → (e.state m)._currentState = state) →
    (e.state n).entered ≠ state → ∃ m, n ≤ m ∧ Enters state (e.state m) (e.label m)
  /-- A connection that is made is entered, if nothing overwrites it. -/
  connected : ∀ n, (e.state n).stores (e.label n) = some .StateConnected →
    (∀ m, n < m → (e.state m)._currentState = .StateConnected) →
    ∃ m, n < m ∧ Enters .StateConnected (e.state m) (e.label m)
  /-- A time-out does not overwrite a connection. -/
  timed_out : ∀ n, IsTick (e.label n) → (e.state n).main = .timing_out →
    (e.state n)._currentState ≠ .StateConnected

/-! ### What a step changes -/

theorem AsyncConnect_eq_some {s s' : state_machine} {timeout curTick : Int32}
    (h : s.AsyncConnect timeout curTick = some s') :
    s.main = .idle ∧ s'.main = .connecting ∧ s'._lastState = s._lastState ∧
      s'.entered = s.entered := by
  unfold AsyncConnect at h
  split at h
  · next hidle =>
    cases h
    exact ⟨hidle, rfl, rfl, rfl⟩
  · cases h

theorem BeginConnect_eq_some {s s' : state_machine} {socket_made begun : Bool}
    (h : s.BeginConnect socket_made begun = some s') :
    s.main = .connecting ∧ s'.main = .idle ∧ s'._lastState = s._lastState ∧
      s'.entered = s.entered ∧ s'._currentState = s._currentState := by
  unfold BeginConnect at h
  split at h
  · next hconnecting =>
    split at h
    · cases h
      exact ⟨hconnecting, rfl, rfl, rfl, rfl⟩
    · cases h
      exact ⟨hconnecting, rfl, rfl, rfl, rfl⟩
  · cases h

/-- A callback changes the state only. -/
theorem connectDone_eq_some {s s' : state_machine} {i : Nat} {good : Bool}
    (h : s.exec (.connectDone i good) = some s') :
    s'.main = s.main ∧ s'._lastState = s._lastState ∧ s'.entered = s.entered ∧
      s'._currentState = (s.stores (.connectDone i good)).getD s._currentState := by
  unfold exec at h
  simp only at h
  unfold stores
  split at h
  · cases h
  · next c hc =>
    obtain rfl := Option.some.inj h
    obtain ⟨socket, next⟩ := c
    simp only [hc]
    unfold onAsyncConnectDone
    cases next with
    | comparing =>
      simp only
      split
      · exact ⟨rfl, rfl, rfl, rfl⟩
      · exact ⟨rfl, rfl, rfl, rfl⟩
    | ending =>
      cases good with
      | true => exact ⟨rfl, rfl, rfl, rfl⟩
      | false => exact ⟨rfl, rfl, rfl, rfl⟩
    | asking => exact ⟨rfl, rfl, rfl, rfl⟩
    | storing state => exact ⟨rfl, rfl, rfl, rfl⟩

/-! ### The invariant -/

structure Inv (s : state_machine) : Prop where
  /-- What is recorded was entered. -/
  recorded : s.main ≠ .recording → s._lastState = s.entered
  /-- What is about to be recorded was entered. -/
  recording : s.main = .recording → s._currentState = s.entered
  not_connected : s.main = .timing_out → s._currentState ≠ .StateConnected

/-- Nothing is recorded and nothing timed out. -/
theorem Inv.of_recorded {s : state_machine} (hlast : s._lastState = s.entered)
    (hrecording : s.main ≠ .recording) (htiming_out : s.main ≠ .timing_out) : Inv s :=
  ⟨fun _ => hlast, fun h => absurd h hrecording, fun h => absurd h htiming_out⟩

theorem inv_make : Inv make := .of_recorded rfl (by decide) (by decide)

theorem inv_tick {s s' : state_machine} {curTick : Int32} (hs : Inv s)
    (h : s.tickStateMachine curTick = some s') : Inv s' := by
  have hlast : s.main ≠ .recording → s._lastState = s.entered := hs.recorded
  unfold tickStateMachine at h
  cases hmain : s.main with
  | connecting =>
    rw [hmain] at h
    cases h
  | idle =>
    rw [hmain] at hlast
    simp only [hmain] at h
    split at h
    · cases h
      exact .of_recorded (hlast nofun) nofun nofun
    · cases h
      exact .of_recorded (hlast nofun) nofun nofun
  | entering =>
    simp only [hmain] at h
    cases h
    exact ⟨fun h => absurd rfl h, fun _ => rfl, nofun⟩
  | recording =>
    simp only [hmain] at h
    cases h
    exact .of_recorded (hs.recording hmain) nofun nofun
  | executing =>
    rw [hmain] at hlast
    simp only [hmain] at h
    split at h
    · next hexpired =>
      cases h
      refine ⟨fun _ => hlast nofun, nofun, fun _ => ?_⟩
      rw [hexpired.1]
      decide
    · cases h
      exact .of_recorded (hlast nofun) nofun nofun
  | timing_out =>
    rw [hmain] at hlast
    simp only [hmain] at h
    cases h
    exact .of_recorded (hlast nofun) nofun nofun

/-- A callback that stores what is harmless keeps the invariant. -/
theorem inv_connectDone {s s' : state_machine} {i : Nat} {good : Bool} (hs : Inv s)
    (hguard : Guard s (.connectDone i good)) (h : s.exec (.connectDone i good) = some s') :
    Inv s' := by
  obtain ⟨hmain, hlast, hentered, hcurrent⟩ := connectDone_eq_some h
  obtain ⟨hrecorded, hrecording, hnot⟩ := hs
  unfold Guard at hguard
  cases hstores : s.stores (.connectDone i good) with
  | none =>
    rw [hstores] at hcurrent
    refine ⟨?_, ?_, ?_⟩
    · rw [hmain, hlast, hentered]
      exact hrecorded
    · rw [hmain, hcurrent, hentered]
      exact hrecording
    · rw [hmain, hcurrent]
      exact hnot
  | some state =>
    have hharmless := hguard state hstores
    rw [hstores] at hcurrent
    refine ⟨?_, ?_, ?_⟩
    · rw [hmain, hlast, hentered]
      exact hrecorded
    · rw [hmain, hcurrent, hentered]
      exact hharmless.recorded
    · rw [hmain, hcurrent]
      exact hharmless.not_timed_out

theorem inv_step {s s' : state_machine} {l : machine_step} (hs : Inv s) (hguard : Guard s l)
    (h : s.exec l = some s') : Inv s' := by
  cases l with
  | AsyncConnect timeout curTick =>
    obtain ⟨hidle, hmain, hlast, hentered⟩ := AsyncConnect_eq_some h
    have hrecorded := hs.recorded (by rw [hidle]; decide)
    exact .of_recorded (hlast.trans (hrecorded.trans hentered.symm)) (by rw [hmain]; decide)
      (by rw [hmain]; decide)
  | BeginConnect socket_made begun =>
    obtain ⟨hconnecting, hmain, hlast, hentered, -⟩ := BeginConnect_eq_some h
    have hrecorded := hs.recorded (by rw [hconnecting]; decide)
    exact .of_recorded (hlast.trans (hrecorded.trans hentered.symm)) (by rw [hmain]; decide)
      (by rw [hmain]; decide)
  | Tick curTick => exact inv_tick hs h
  | connectDone i good => exact inv_connectDone hs hguard h

/-- **In all states** that harmless callbacks lead to. -/
theorem inv_reachable : ∀ s, (system.restrict Guard).Reachable s → Inv s := by
  apply System.invariant
  · intro s hinit
    obtain rfl : s = make := hinit
    exact inv_make
  · intro s l s' hs hstep
    exact inv_step hs hstep.1 hstep.2

/-! ### The ticks get to `stateEnter` -/

/-- Number of accesses before `stateEnter`, when the state is another one. -/
def rank (s : state_machine) : Nat :=
  match s.main with
  | .entering => 0
  | .idle => 1
  | .connecting => 1
  | .timing_out => 2
  | .executing => 3
  | .recording => 4

/-- `state` is to be entered. -/
structure Waiting (state : SocketState) (s : state_machine) : Prop where
  inv : Inv s
  current : s._currentState = state
  entered : s.entered ≠ state

/-- A step of a tick that does not enter the state is one less before it is entered. -/
theorem waiting_tick {s s' : state_machine} {curTick : Int32} {state : SocketState}
    (hs : Waiting state s) (h : s.tickStateMachine curTick = some s')
    (hnot : ¬ Enters state s (.Tick curTick)) : s'.entered = s.entered ∧ rank s' < rank s := by
  obtain ⟨hinv, hcurrent, hentered⟩ := hs
  unfold tickStateMachine at h
  unfold rank
  cases hmain : s.main with
  | connecting =>
    rw [hmain] at h
    cases h
  | idle =>
    -- the state entered last is the one recorded
    have hlast := hinv.recorded (by rw [hmain]; decide)
    simp only [hmain] at h
    rw [if_pos (by rw [hlast, hcurrent]; exact hentered)] at h
    cases h
    exact ⟨rfl, (by decide : 0 < 1)⟩
  | entering => exact absurd ⟨⟨curTick, rfl⟩, hmain, hcurrent⟩ hnot
  | recording =>
    have hsame := hinv.recording hmain
    rw [hcurrent] at hsame
    exact absurd hsame.symm hentered
  | executing =>
    simp only [hmain] at h
    split at h
    · cases h
      exact ⟨rfl, (by decide : 2 < 3)⟩
    · cases h
      exact ⟨rfl, (by decide : 1 < 3)⟩
  | timing_out =>
    simp only [hmain] at h
    cases h
    exact ⟨rfl, (by decide : 1 < 2)⟩

/-- No step gets further away from it. -/
theorem waiting_step {s s' : state_machine} {l : machine_step} {state : SocketState}
    (hs : Waiting state s) (hguard : Guard s l) (h : s.exec l = some s')
    (hcurrent : s'._currentState = state) (hnot : ¬ Enters state s l) :
    Waiting state s' ∧ rank s' ≤ rank s := by
  have hinv := inv_step hs.inv hguard h
  cases l with
  | AsyncConnect timeout curTick =>
    obtain ⟨hidle, hmain, -, hentered⟩ := AsyncConnect_eq_some h
    refine ⟨⟨hinv, hcurrent, hentered ▸ hs.entered⟩, ?_⟩
    unfold rank
    rw [hidle, hmain]
  | BeginConnect socket_made begun =>
    obtain ⟨hconnecting, hmain, -, hentered, -⟩ := BeginConnect_eq_some h
    refine ⟨⟨hinv, hcurrent, hentered ▸ hs.entered⟩, ?_⟩
    unfold rank
    rw [hconnecting, hmain]
  | Tick curTick =>
    obtain ⟨hentered, hlt⟩ := waiting_tick hs h hnot
    exact ⟨⟨hinv, hcurrent, hentered ▸ hs.entered⟩, Nat.le_of_lt hlt⟩
  | connectDone i good =>
    obtain ⟨hmain, -, hentered, -⟩ := connectDone_eq_some h
    refine ⟨⟨hinv, hcurrent, hentered ▸ hs.entered⟩, ?_⟩
    unfold rank
    rw [hmain]

/-- A state that stays is entered by a later tick. -/
theorem entered_of_settled (e : Execution (system.restrict Guard)) (hticks : e.Repeats IsTick)
    {n : Nat} {state : SocketState} (hinv : Inv (e.state n))
    (hsettled : ∀ m, n ≤ m → (e.state m)._currentState = state)
    (hentered : (e.state n).entered ≠ state) :
    ∃ m, n ≤ m ∧ Enters state (e.state m) (e.label m) := by
  apply e.eventually_of_rank hticks rank
    (show Waiting state (e.state n) from ⟨hinv, hsettled n (Nat.le_refl _), hentered⟩)
  · intro m hm hwaiting hnot
    obtain ⟨hguard, hstep⟩ := e.step m
    exact waiting_step hwaiting hguard hstep (hsettled _ (Nat.le_succ_of_le hm)) hnot
  · rintro m hm hwaiting hnot ⟨curTick, hlabel⟩
    obtain ⟨-, hstep⟩ := e.step m
    rw [hlabel] at hstep hnot
    exact (waiting_tick hwaiting hstep hnot).2

/-- **No state change is missed** in a run whose callbacks store what is harmless. -/
theorem no_state_missed (e : Execution (system.restrict Guard)) (hinit : e.state 0 = make)
    (hticks : e.Repeats IsTick) : NoStateMissed e := by
  have hinv : ∀ n, Inv (e.state n) := fun n => inv_reachable _ (e.reachable hinit n)
  refine ⟨?_, ?_, ?_⟩
  · intro n state hsettled hentered
    exact entered_of_settled e hticks (hinv n) hsettled hentered
  · intro n hstores hkept
    -- the connection is stored, and the state entered last is another one
    obtain ⟨hguard, hstep⟩ := e.step n
    have hnoticed := (hguard _ hstores).noticed rfl
    have hentered : (e.state (n + 1)).entered ≠ .StateConnected := by
      cases hlabel : e.label n with
      | connectDone i good =>
        rw [hlabel] at hstep
        rw [(connectDone_eq_some hstep).2.2.1]
        exact hnoticed
      | AsyncConnect timeout curTick =>
        rw [hlabel] at hstores
        cases hstores
      | BeginConnect socket_made begun =>
        rw [hlabel] at hstores
        cases hstores
      | Tick curTick =>
        rw [hlabel] at hstores
        cases hstores
    obtain ⟨m, hm, henters⟩ := entered_of_settled e hticks (hinv (n + 1))
      (fun m hm => hkept m (Nat.lt_of_succ_le hm)) hentered
    exact ⟨m, Nat.lt_of_succ_le hm, henters⟩
  · intro n _ htiming_out
    exact (hinv n).not_connected htiming_out

/-! ### Two runs -/

/-- A client that is ticked for ever, with nothing left to enter. -/
def ticking {guard : state_machine → machine_step → Prop}
    (hguard : ∀ s curTick, guard s (.Tick curTick)) (s : state_machine) (hidle : s.main = .idle)
    (hlast : s._lastState = s._currentState) (hdone : s._currentState ≠ .StateConnecting) :
    Execution (system.restrict guard) where
  state n := if n % 2 = 0 then s else { s with main := .executing }
  label _ := .Tick 0
  step n := by
    refine ⟨hguard _ _, ?_⟩
    show tickStateMachine _ _ = some _
    unfold tickStateMachine
    rcases Nat.mod_two_eq_zero_or_one n with heven | hodd
    · have hnext : (n + 1) % 2 ≠ 0 := by omega
      rw [if_pos heven, if_neg hnext, hidle]
      simp [hlast]
    · have hnext : (n + 1) % 2 = 0 := by omega
      rw [if_neg (by omega), if_pos hnext]
      simp only
      rw [if_neg (fun h => hdone h.1), ← hidle]

section

variable {guard : state_machine → machine_step → Prop}
  (hguard : ∀ s curTick, guard s (.Tick curTick)) {s : state_machine} (hidle : s.main = .idle)
  (hlast : s._lastState = s._currentState) (hdone : s._currentState ≠ .StateConnecting)

theorem repeats_ticking : (ticking hguard s hidle hlast hdone).Repeats IsTick :=
  fun n => ⟨n, Nat.le_refl n, 0, rfl⟩

/-- Nothing changes but what the main thread does, and it enters nothing. -/
theorem state_ticking (n : Nat) :
    ((ticking hguard s hidle hlast hdone).state n)._currentState = s._currentState ∧
      ((ticking hguard s hidle hlast hdone).state n).entered = s.entered ∧
      ((ticking hguard s hidle hlast hdone).state n).main ≠ .entering := by
  show (if n % 2 = 0 then s else { s with main := .executing })._currentState = _ ∧
    (if n % 2 = 0 then s else { s with main := .executing }).entered = _ ∧
    (if n % 2 = 0 then s else { s with main := .executing }).main ≠ _
  split
  · exact ⟨rfl, rfl, by rw [hidle]; decide⟩
  · exact ⟨rfl, rfl, nofun⟩

end

/-- A client that connected, as far as it was `entered`. -/
def connected_client (entered : SocketState) : state_machine :=
  { make with
    _currentState := .StateConnected
    _lastState := .StateConnected
    _tcpSocket := some 0
    _connectTimeout := DEFAULT_SEND_TIME_OUT
    sockets := 1
    entered := entered }

/-- The connection is made between two ticks. -/
def connects : List machine_step :=
  [.AsyncConnect 0 0, .BeginConnect true true, .Tick 0, .Tick 0, .Tick 0, .Tick 0,
    .connectDone 0 true, .connectDone 0 true, .connectDone 0 true, .connectDone 0 true,
    .Tick 0, .Tick 0, .Tick 0, .Tick 0]

theorem no_state_missed_connects :
    ∃ e : Execution (system.restrict Guard), e.state 0 = make ∧
      (e.state connects.length).entered = .StateConnected ∧ NoStateMissed e := by
  have hguard : ∀ s curTick, Guard s (.Tick curTick) := by
    intro s curTick state hstores
    cases hstores
  have hrun : connects.foldlM (fun s l => if Guard s l then exec s l else none) make =
      some (connected_client .StateConnected) := by decide
  obtain ⟨e, hstart, hsuffix⟩ := Execution.exists_append
    (ticking hguard (connected_client .StateConnected) rfl rfl (by decide)) connects hrun
  refine ⟨e, hstart, ?_, no_state_missed e hstart ?_⟩
  · rw [show e.state connects.length = _ from (hsuffix 0).1]
    rfl
  · exact .of_suffix (fun n => (hsuffix n).2) (repeats_ticking hguard rfl rfl (by decide))

/-- The connection is made between the two reads of the first tick. -/
def connects_unnoticed : List machine_step :=
  [.AsyncConnect 0 0, .BeginConnect true true, .Tick 0, .Tick 0,
    .connectDone 0 true, .connectDone 0 true, .connectDone 0 true, .connectDone 0 true,
    .Tick 0, .Tick 0]

/-- It is recorded, but never entered. -/
theorem not_always_no_state_missed :
    ¬ ∀ e : Execution system, e.state 0 = make → e.Repeats IsTick → NoStateMissed e := by
  intro hall
  have hguard : ∀ (_ : state_machine) (_ : Int32), True := fun _ _ => trivial
  have hrun : connects_unnoticed.foldlM (fun s l => if True then exec s l else none) make =
      some (connected_client .StateConnecting) := by decide
  obtain ⟨e, hstart, hsuffix⟩ := Execution.exists_append
    (@ticking (fun _ _ => True) hguard (connected_client .StateConnecting) rfl rfl (by decide))
    connects_unnoticed hrun
  have hticks : e.Repeats IsTick :=
    .of_suffix (fun n => (hsuffix n).2) (repeats_ticking hguard rfl rfl (by decide))
  have hstate := fun n => @state_ticking (fun _ _ => True) hguard
    (connected_client .StateConnecting) rfl rfl (by decide) n
  obtain ⟨m, hm, -, hentering, -⟩ := (hall e.of_restrict hstart hticks).settled
    connects_unnoticed.length .StateConnected
    (by
      intro m hm
      obtain ⟨n, rfl⟩ := Nat.exists_eq_add_of_le hm
      show (e.state _)._currentState = _
      rw [(hsuffix n).1]
      exact (hstate n).1)
    (by
      show (e.state connects_unnoticed.length).entered ≠ _
      rw [show e.state connects_unnoticed.length = _ from (hsuffix 0).1]
      show (connected_client .StateConnecting).entered ≠ .StateConnected
      decide)
  obtain ⟨n, rfl⟩ := Nat.exists_eq_add_of_le hm
  replace hentering : (e.state (connects_unnoticed.length + n)).main = .entering := hentering
  rw [(hsuffix n).1] at hentering
  exact (hstate n).2.2 hentering

end state_machine

end AsioNet.CsNetwork
