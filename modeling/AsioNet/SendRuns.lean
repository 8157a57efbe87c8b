import AsioNet.Library.TransitionSystem
import AsioNet.ServerStorage

/-! # Sending over time (`basic_async_session.cpp`, `active_server_session_mgr.cpp`)

    `async_send` wraps a pooled buffer and starts an `async_write_some` on the
    buffer's bytes. The write's handler keeps the session alive and not the buffer,
    and it does not look at the number of bytes that went out. So the bytes of a
    write are those its buffer holds when the socket takes them:
    `delivered_of_reachable` says that the peer gets the frames as long as no write
    is a short one and nobody writes into a buffer before its write has completed.

    `async_send` wraps and writes where it is called, so that a game server's
    application and its keep-alive can come between each other's wrapping, which
    numbers a frame, and writing: `seqs_of_reachable` says when the frames are
    written in the order of their numbers.
-/

namespace AsioNet

open ByteMemory TransitionSystem reusabel_buffer proto_mask

/-! ### Writes that are short, and buffers that are reused -/

/-- The bytes of a pooled buffer that are given to an `async_write_some`. -/
structure write_region where
  buffer : Nat
  start : Nat
  /-- The frame they are at the call. -/
  frame : List UInt8

/-- A session with its socket and the pool its buffers come from. -/
structure write_run (Logic : Type) where
  session : basic_async_session Logic
  buffers : Nat → once_buffer
  /-- The outstanding writes, in the order they were started. -/
  in_flight : List write_region
  /-- The completed ones, with the bytes that went out. -/
  completed : List (write_region × List UInt8)
  /-- What has reached the peer. -/
  arrived : List UInt8

inductive write_event where
  /-- whoever has the buffer from the pool fills it -/
  | fill (buffer : Nat) (content : once_buffer)
  /-- `async_send` of a buffer; the logic wraps it into itself or into another one -/
  | async_send (tmp_buffer mutable_buffer : Nat)
  /-- the oldest write completes, with `length` bytes -/
  | completes (length : Nat)

namespace write_run

variable {Logic : Type} (wrap : Logic → once_buffer → Checked (Logic × once_buffer))

def start (logic : Logic) (uuid : session_uid) (ip : UInt32) (buffers : Nat → once_buffer) :
    write_run Logic where
  session := {
    _state := .CONNECTING
    _uuid := uuid
    _logic := logic
    remote_ip := ip
    written := [] }
  buffers := buffers
  in_flight := []
  completed := []
  arrived := []

/-- What the memory of a region holds, up to `length` bytes. -/
def held (s : write_run Logic) (w : write_region) (length : Nat) : List UInt8 :=
  read (s.buffers w.buffer)._buffer w.start length

/-- `async_send`, which starts a write on the wrapped buffer. -/
def async_send (s : write_run Logic) (tmp_buffer mutable_buffer : Nat) :
    Option (write_run Logic) :=
  if s.session._state ≠ .CONNECTING then some s
  else do
    let (logic, b) ← (wrap s.session._logic (s.buffers tmp_buffer)).toOption
    let frame ← (b.load (b.buffer 0) b.length).toOption
    some { s with
      session := (s.session.modify_session_logic logic).async_write_some frame
      buffers := Function.update s.buffers mutable_buffer b
      in_flight := s.in_flight ++
        [{ buffer := mutable_buffer, start := b.buffer 0, frame := frame }] }

/-- The handler of a write is only interested in errors. -/
def exec (s : write_run Logic) : write_event → Option (write_run Logic)
  | .fill buffer content => some { s with buffers := Function.update s.buffers buffer content }
  | .async_send tmp_buffer mutable_buffer => s.async_send wrap tmp_buffer mutable_buffer
  | .completes length =>
    match s.in_flight with
    | [] => none
    | w :: in_flight =>
      if length ≤ w.frame.length ∧ (0 < length ∨ w.frame.length = 0) then
        some { s with
          in_flight := in_flight
          completed := s.completed ++ [(w, s.held w length)]
          arrived := s.arrived ++ s.held w length }
      else none

def system : System (write_run Logic) write_event :=
  System.ofExec (fun s => ∃ logic uuid ip buffers, s = start logic uuid ip buffers) (exec wrap)

/-- The bytes that have arrived are the frames written, up to those still on their
    way. -/
def Delivered (s : write_run Logic) : Prop :=
  s.arrived ++ (s.in_flight.map write_region.frame).flatten = s.session.stream

/-- No buffer is written into before its write has completed, and no write is a short
    one. -/
def Kept (s : write_run Logic) : write_event → Prop
  | .fill buffer _ => ∀ w ∈ s.in_flight, w.buffer ≠ buffer
  | .async_send _ mutable_buffer => ∀ w ∈ s.in_flight, w.buffer ≠ mutable_buffer
  | .completes length => ∀ w ∈ s.in_flight.head?, length = w.frame.length

instance (s : write_run Logic) (e : write_event) : Decidable (s.Kept e) := by
  cases e <;> unfold Kept <;> infer_instance

/-! #### The session's part -/

/-- What starting a write amounts to: nothing, or one more outstanding frame, which its
    buffer holds. -/
theorem async_send_cases {s s' : write_run Logic} {tmp_buffer mutable_buffer : Nat}
    (h : s.async_send wrap tmp_buffer mutable_buffer = some s') :
    s' = s ∨ ∃ logic b frame, wrap s.session._logic (s.buffers tmp_buffer) = .ok (logic, b) ∧
      b.load (b.buffer 0) b.length = .ok frame ∧
      s' = { s with
        session := (s.session.modify_session_logic logic).async_write_some frame
        buffers := Function.update s.buffers mutable_buffer b
        in_flight := s.in_flight ++
          [{ buffer := mutable_buffer, start := b.buffer 0, frame := frame }] } := by
  unfold async_send at h
  split at h
  · cases h
    exact Or.inl rfl
  · cases hwrap : wrap s.session._logic (s.buffers tmp_buffer) with
    | error e =>
      rw [hwrap] at h
      cases h
    | ok r =>
      rw [hwrap] at h
      cases hframe : r.2.load (r.2.buffer 0) r.2.length with
      | error e =>
        simp only [Except.toOption, Option.bind_eq_bind, Option.bind_some, hframe] at h
        cases h
      | ok frame =>
        simp only [Except.toOption, Option.bind_eq_bind, Option.bind_some, hframe] at h
        cases h
        exact Or.inr ⟨r.1, r.2, frame, rfl, hframe, rfl⟩

/-- On the session this is `async_send`. -/
theorem async_send_session {s s' : write_run Logic} {tmp_buffer mutable_buffer : Nat}
    (h : s.async_send wrap tmp_buffer mutable_buffer = some s') :
    s.session.async_send wrap (s.buffers tmp_buffer) = .ok s'.session := by
  by_cases hstate : s.session._state = .CONNECTING
  · rcases async_send_cases wrap h with rfl | ⟨logic, b, frame, hwrap, hframe, rfl⟩
    · -- a connected session starts a write
      unfold async_send at h
      rw [if_neg (by simp [hstate])] at h
      obtain ⟨r, -, h⟩ := Option.bind_eq_some_iff.mp h
      obtain ⟨frame, -, h⟩ := Option.bind_eq_some_iff.mp h
      have hlength := congrArg (fun s : write_run Logic => s.in_flight.length)
        (Option.some.inj h)
      simp at hlength
    · rw [basic_async_session.async_send, if_neg (by simp [hstate]), hwrap, ok_bind]
      simp only [hframe, ok_bind]
      rfl
  · unfold async_send at h
    rw [if_pos hstate] at h
    cases h
    exact basic_async_session.async_send_of_not_connecting wrap hstate _

/-! #### What arrives -/

/-- What the socket has done with the regions written. -/
structure Accounted (s : write_run Logic) : Prop where
  written : s.session.written =
    s.completed.map (fun c => c.1.frame) ++ s.in_flight.map write_region.frame
  arrived : s.arrived = (s.completed.map Prod.snd).flatten
  length_le : ∀ c ∈ s.completed, c.2.length ≤ c.1.frame.length

theorem accounted_exec {s s' : write_run Logic} {e : write_event} (h : s.Accounted)
    (hexec : exec wrap s e = some s') : s'.Accounted := by
  cases e with
  | fill buffer content =>
    cases hexec
    exact ⟨h.written, h.arrived, h.length_le⟩
  | async_send tmp_buffer mutable_buffer =>
    rcases async_send_cases wrap hexec with rfl | ⟨logic, b, frame, -, -, rfl⟩
    · exact h
    · refine ⟨?_, h.arrived, h.length_le⟩
      simp only [basic_async_session.written_async_write_some,
        basic_async_session.written_modify_session_logic, List.map_append, List.map_cons,
        List.map_nil, h.written, List.append_assoc]
  | completes length =>
    simp only [exec] at hexec
    split at hexec
    · cases hexec
    next w in_flight hflight =>
    split at hexec
    · next hlength =>
      cases hexec
      refine ⟨?_, ?_, ?_⟩
      · simp only [h.written, hflight, List.map_append, List.map_cons, List.map_nil,
          List.append_assoc, List.cons_append, List.nil_append]
      · simp only [h.arrived, List.map_append, List.map_cons, List.map_nil, List.flatten_append,
          List.flatten_cons, List.flatten_nil, List.append_nil]
      · intro c hc
        rcases List.mem_append.mp hc with hold | hnew
        · exact h.length_le c hold
        · obtain rfl := List.mem_singleton.mp hnew
          exact (length_read ..).trans_le hlength.1
    · cases hexec

theorem accounted_of_reachable : ∀ s, (system wrap).Reachable s → s.Accounted := by
  refine System.invariant ?_ ?_
  · rintro s ⟨logic, uuid, ip, buffers, rfl⟩
    exact ⟨rfl, rfl, fun c hc => nomatch hc⟩
  · intro s e s' h hexec
    exact accounted_exec wrap h hexec

/-- Parts no longer than their frames make up the frames only if each part is its
    frame. -/
theorem flatten_eq_iff {cs : List (write_region × List UInt8)}
    (hle : ∀ c ∈ cs, c.2.length ≤ c.1.frame.length) :
    (cs.map Prod.snd).flatten = (cs.map fun c => c.1.frame).flatten ↔
      ∀ c ∈ cs, c.2 = c.1.frame := by
  have hshorter : ∀ cs : List (write_region × List UInt8),
      (∀ c ∈ cs, c.2.length ≤ c.1.frame.length) →
      (cs.map Prod.snd).flatten.length ≤ (cs.map fun c => c.1.frame).flatten.length := by
    intro cs hle
    induction cs with
    | nil => exact Nat.le_refl _
    | cons c cs ih =>
      have hc := hle c List.mem_cons_self
      have hcs := ih fun c' hc' => hle c' (List.mem_cons_of_mem c hc')
      simp only [List.map_cons, List.flatten_cons, List.length_append]
      omega
  induction cs with
  | nil => simp
  | cons c cs ih =>
    have hc := hle c List.mem_cons_self
    have hrest_le : ∀ c' ∈ cs, c'.2.length ≤ c'.1.frame.length :=
      fun c' hc' => hle c' (List.mem_cons_of_mem c hc')
    rw [List.forall_mem_cons]
    refine Iff.trans ?_ (and_congr_right fun _ => ih hrest_le)
    simp only [List.map_cons, List.flatten_cons]
    constructor
    · intro heq
      -- a first part that falls short leaves the others too long
      have hlength := congrArg List.length heq
      have hrest := hshorter cs hrest_le
      simp only [List.length_append] at hlength
      exact List.append_inj heq (by omega)
    · rintro ⟨hfirst, hrest⟩
      rw [hfirst, hrest]

/-- **Writing, exactly.** Whatever is sent, the peer gets the complete frames in the
    order of the calls if and only if every completed write sent its frame. -/
theorem delivered_iff {s : write_run Logic} (hr : (system wrap).Reachable s) :
    s.Delivered ↔ ∀ c ∈ s.completed, c.2 = c.1.frame := by
  have h := accounted_of_reachable wrap s hr
  unfold Delivered basic_async_session.stream
  rw [h.written, List.flatten_append, h.arrived, ← flatten_eq_iff h.length_le]
  exact ⟨List.append_cancel_right, fun heq => by rw [heq]⟩

/-! #### What the buffers hold -/

/-- Every outstanding write's buffer still holds its frame. -/
def Intact (s : write_run Logic) : Prop :=
  ∀ w ∈ s.in_flight, s.held w w.frame.length = w.frame

/-- Writing into another buffer leaves a region alone. -/
theorem held_update {s : write_run Logic} {w : write_region} {buffer : Nat}
    (h : w.buffer ≠ buffer) (b : once_buffer) (length : Nat) :
    held { s with buffers := Function.update s.buffers buffer b } w length = s.held w length := by
  unfold held
  simp only
  rw [Function.update_of_ne h]

theorem intact_exec {s s' : write_run Logic} {e : write_event} (h : s.Intact) (hguard : s.Kept e)
    (hexec : exec wrap s e = some s') : s'.Intact := by
  cases e with
  | fill buffer content =>
    cases hexec
    intro w hw
    rw [held_update (hguard w hw)]
    exact h w hw
  | async_send tmp_buffer mutable_buffer =>
    rcases async_send_cases wrap hexec with rfl | ⟨logic, b, frame, -, hframe, rfl⟩
    · exact h
    intro w hw
    rcases List.mem_append.mp hw with hold | hnew
    · exact (held_update (hguard w hold) b _).trans (h w hold)
    · -- the frame is what was read off the wrapped buffer
      obtain rfl := List.mem_singleton.mp hnew
      obtain ⟨-, rfl⟩ := load_eq_ok hframe
      unfold held
      simp only [Function.update_self, length_read]
  | completes length =>
    simp only [exec] at hexec
    split at hexec
    · cases hexec
    next w in_flight hflight =>
    split at hexec
    · cases hexec
      intro w' hw'
      exact h w' (hflight ▸ List.mem_cons_of_mem w hw')
    · cases hexec

/-- What holds in every state of a run in which the buffers are kept. -/
structure Inv (s : write_run Logic) : Prop where
  reachable : (system wrap).Reachable s
  intact : s.Intact
  sent : ∀ c ∈ s.completed, c.2 = c.1.frame

theorem inv_exec {s s' : write_run Logic} {e : write_event} (h : Inv wrap s) (hguard : s.Kept e)
    (hexec : exec wrap s e = some s') : Inv wrap s' := by
  refine ⟨.step e h.reachable hexec, intact_exec wrap h.intact hguard hexec, ?_⟩
  cases e with
  | fill buffer content =>
    cases hexec
    exact h.sent
  | async_send tmp_buffer mutable_buffer =>
    rcases async_send_cases wrap hexec with rfl | ⟨logic, b, frame, -, -, rfl⟩
    · exact h.sent
    · exact h.sent
  | completes length =>
    simp only [exec] at hexec
    split at hexec
    · cases hexec
    next w in_flight hflight =>
    split at hexec
    · cases hexec
      have hwhole : length = w.frame.length := by
        apply hguard w
        rw [hflight]
        rfl
      intro c hc
      rcases List.mem_append.mp hc with hold | hnew
      · exact h.sent c hold
      · obtain rfl := List.mem_singleton.mp hnew
        rw [hwhole]
        exact h.intact w (hflight ▸ List.mem_cons_self)
    · cases hexec

theorem inv_of_reachable {s : write_run Logic} (hr : ((system wrap).restrict Kept).Reachable s) :
    Inv wrap s := by
  refine System.invariant ?_ ?_ s hr
  · intro s hinit
    have hnothing : s.in_flight = [] ∧ s.completed = [] := by
      obtain ⟨logic, uuid, ip, buffers, rfl⟩ := hinit
      exact ⟨rfl, rfl⟩
    refine ⟨.init hinit, ?_, ?_⟩
    · intro w hw
      rw [hnothing.1] at hw
      cases hw
    · intro c hc
      rw [hnothing.2] at hc
      cases hc
  · rintro s e s' h ⟨hguard, hexec⟩
    exact inv_exec wrap h hguard hexec

/-- **A write that completes** keeps what has arrived in order if and only if it sends its
    whole frame. -/
theorem delivered_completes_iff {s s' : write_run Logic} (hr : (system wrap).Reachable s)
    (hdelivered : s.Delivered) {w : write_region} (hw : w ∈ s.in_flight.head?) {length : Nat}
    (hexec : exec wrap s (.completes length) = some s') :
    s'.Delivered ↔ s.held w length = w.frame := by
  rw [delivered_iff wrap (.step _ hr hexec)]
  have hsent := (delivered_iff wrap hr).mp hdelivered
  simp only [exec] at hexec
  split at hexec
  · next hnone =>
    rw [hnone] at hw
    cases hw
  next w' in_flight hflight =>
  rw [hflight] at hw
  cases hw
  split at hexec
  · cases hexec
    constructor
    · intro h
      exact h (w, s.held w length) (List.mem_append_right _ (List.mem_singleton.mpr rfl))
    · intro h c hc
      rcases List.mem_append.mp hc with hold | hnew
      · exact hsent c hold
      · obtain rfl := List.mem_singleton.mp hnew
        exact h
  · cases hexec

/-- **Delivery.** As long as no buffer is written into before its write has completed and
    no write is a short one, the peer gets the complete frames in the order of the calls.
    A write that is a short one, or completes after its buffer was filled with other bytes,
    ends this. -/
theorem delivered_of_reachable {s : write_run Logic}
    (hr : ((system wrap).restrict Kept).Reachable s) :
    s.Delivered ∧ ∀ w ∈ s.in_flight.head?, ∀ length,
      (∀ s', exec wrap s (.completes length) = some s' →
        (s'.Delivered ↔ length = w.frame.length)) ∧
      ∀ content s₁ s₂, exec wrap s (.fill w.buffer content) = some s₁ →
        exec wrap s₁ (.completes length) = some s₂ →
        (s₂.Delivered ↔ read content._buffer w.start length = w.frame) := by
  have h := inv_of_reachable wrap hr
  have hdelivered := (delivered_iff wrap h.reachable).mpr h.sent
  refine ⟨hdelivered, ?_⟩
  intro w hw length
  refine ⟨?_, ?_⟩
  · intro s' hexec
    rw [delivered_completes_iff wrap h.reachable hdelivered hw hexec]
    constructor
    · intro hheld
      rw [← hheld]
      exact (length_read ..).symm
    · rintro rfl
      exact h.intact w (List.mem_of_mem_head? hw)
  · intro content s₁ s₂ hfill hexec
    have hreach := System.Reachable.step _ h.reachable hfill
    cases hfill
    rw [delivered_completes_iff wrap hreach hdelivered hw hexec]
    unfold held
    simp only [Function.update_self]

/-- The buffer `tick_alive` sends. -/
def empty_buffer (stale : Nat → UInt8) : once_buffer :=
  { TEMP_BUFFER stale with offset := PROTO_HEAD_SIZE, length := 0 }

/-- A game server's session under the events, with a pool of such buffers. -/
def run_keep_alives (es : List write_event) : Option (write_run active_server_session_logic) :=
  es.foldlM (exec active_server_session_logic.wrap_to_send_data)
    (start active_server_session_mgr.just_started_logic 0 0 fun _ => empty_buffer fun _ => 0)

/-- Two keep-alives are sent before the first goes out, and the first one's buffer is sent
    again after it has. -/
def three_keep_alives : List write_event :=
  [.async_send 0 0, .async_send 1 1, .completes PROTO_HEAD_SIZE,
    .fill 0 (empty_buffer fun _ => 0), .async_send 0 0, .completes PROTO_HEAD_SIZE,
    .completes PROTO_HEAD_SIZE]

theorem delivered_three_keep_alives :
    ∃ s, run_keep_alives three_keep_alives = some s ∧
      s.arrived.length = 3 * PROTO_HEAD_SIZE ∧ s.Delivered := by
  have hrun : (three_keep_alives.foldlM (fun s e =>
      if Kept s e then exec active_server_session_logic.wrap_to_send_data s e else none)
        (start active_server_session_mgr.just_started_logic 0 0 fun _ =>
          empty_buffer fun _ => 0)).map (fun s => s.arrived.length) =
      some (3 * PROTO_HEAD_SIZE) := by
    decide +kernel
  obtain ⟨s, hs, hlen⟩ := Option.map_eq_some_iff.mp hrun
  have hinit : ((system active_server_session_logic.wrap_to_send_data).restrict Kept).Reachable
      (start active_server_session_mgr.just_started_logic 0 0 fun _ =>
        empty_buffer fun _ => 0) := .init ⟨_, 0, 0, _, rfl⟩
  obtain ⟨hreach, hs'⟩ := hinit.of_guarded_foldlM three_keep_alives hs
  exact ⟨s, hs', hlen, (delivered_of_reachable _ hreach).1⟩

/-- One byte of a keep-alive goes out, and the rest never does. -/
theorem not_always_delivered :
    ¬ ∀ s, (system active_server_session_logic.wrap_to_send_data).Reachable s → s.Delivered := by
  intro hall
  have hrun : (run_keep_alives [.async_send 0 0, .completes 1]).map (fun s =>
      (s.arrived.length, s.in_flight.length, s.session.stream.length)) = some (1, 0, 11) := by
    decide +kernel
  obtain ⟨s, hs, hs'⟩ := Option.map_eq_some_iff.mp hrun
  simp only [Prod.mk.injEq] at hs'
  obtain ⟨harrived, hflight, hstream⟩ := hs'
  have hreach : ((system active_server_session_logic.wrap_to_send_data).restrict
      fun _ _ => True).Reachable s :=
    .of_foldlM (.init ⟨_, 0, 0, _, rfl⟩) _ (fun _ _ _ => trivial) hs
  have hdelivered := congrArg List.length (hall s hreach.of_restrict)
  rw [List.length_append, List.length_eq_zero_iff.mp hflight, harrived, hstream] at hdelivered
  exact absurd hdelivered (by decide)

/-- The buffer of a keep-alive that has not gone out is sent again: the peer gets the second
    keep-alive twice. -/
example : (run_keep_alives [.async_send 0 0, .fill 0 (empty_buffer fun _ => 0), .async_send 0 0,
    .completes PROTO_HEAD_SIZE, .completes PROTO_HEAD_SIZE]).map (fun s =>
      (s.arrived.length, decide (s.arrived = s.session.stream),
        decide (s.arrived.take PROTO_HEAD_SIZE = s.arrived.drop PROTO_HEAD_SIZE))) =
    some (22, false, true) := by
  decide +kernel

end write_run

/-! ### Numbering and writing -/

/-- Whoever calls `async_send` on a game server's session. -/
inductive sender where
  /-- `tick_alive`, on the session's strand -/
  | strand
  /-- the application, on one of its threads -/
  | thread (t : Nat)
  deriving DecidableEq

/-- A game server's session between the steps of its senders. -/
structure numbering_run where
  session : basic_async_session active_server_session_logic
  /-- The senders that have wrapped a buffer and not written it yet, in the order
      they wrapped. -/
  wrapped : List (sender × once_buffer)

inductive numbering_event where
  /-- thread `t` calls `active_server_session_mgr::send`, up to the wrapping -/
  | send (t : Nat) (stale : Nat → UInt8) (target_id : session_uid) (data_block : List UInt8)
  /-- `tick_alive` sends a keep-alive, up to the wrapping -/
  | tick_alive (stale : Nat → UInt8)
  /-- a sender starts its `async_write_some` -/
  | write (who : sender)
  /-- the socket closes or fails -/
  | socket (state : StateSocket)

namespace numbering_run

/-- `async_send` up to the wrapping, by a sender that is not sending yet. -/
def wrap (s : numbering_run) (who : sender) (pack : Checked once_buffer) : Option numbering_run :=
  if who ∈ s.wrapped.map Prod.fst then none
  else do
    let tmp_buffer ← pack.toOption
    if s.session._state ≠ .CONNECTING then some s
    else
      let (logic, mutable_buffer) ← (s.session._logic.wrap_to_send_data tmp_buffer).toOption
      some {
        session := s.session.modify_session_logic logic
        wrapped := s.wrapped ++ [(who, mutable_buffer)] }

/-- The rest of `async_send`. -/
def write (s : numbering_run) (who : sender) : Option numbering_run := do
  let (_, mutable_buffer) ← s.wrapped.find? fun w => w.1 = who
  let region ← (mutable_buffer.load (mutable_buffer.buffer 0) mutable_buffer.length).toOption
  some {
    session := s.session.async_write_some region
    wrapped := s.wrapped.eraseP fun w => w.1 = who }

def exec (s : numbering_run) : numbering_event → Option numbering_run
  | .send t stale target_id data_block =>
    s.wrap (.thread t)
      (active_server_session_mgr.pack_send stale s.session._logic target_id data_block)
  | .tick_alive stale => s.wrap .strand (.ok (write_run.empty_buffer stale))
  | .write who => s.write who
  | .socket state => some { s with session := { s.session with _state := state } }

/-- A connected session that has sent nothing since `logic._seq` frames were sent. -/
def start (logic : active_server_session_logic) (uuid : session_uid) (ip : UInt32) :
    numbering_run where
  session := {
    _state := .CONNECTING
    _uuid := uuid
    _logic := logic
    remote_ip := ip
    written := [] }
  wrapped := []

def system (logic : active_server_session_logic) : System numbering_run numbering_event :=
  System.ofExec (fun s => ∃ uuid ip, s = start logic uuid ip) exec

/-- The proxy's check `head->seq == ++_seq`, frame after frame. -/
def seq_check : UInt32 → List (List UInt8) → Prop
  | _, [] => True
  | seq, frame :: frames =>
    (protocol_head.unpack_head (frame.take PROTO_HEAD_SIZE)).seq = seq + 1 ∧
      seq_check (seq + 1) frames

theorem seq_check_append (seq : UInt32) (frames frames' : List (List UInt8)) :
    seq_check seq (frames ++ frames') ↔
      seq_check seq frames ∧ seq_check (seq + UInt32.ofNat frames.length) frames' := by
  induction frames generalizing seq with
  | nil => simp [seq_check]
  | cons frame frames ih =>
    have hlen : seq + 1 + UInt32.ofNat frames.length =
        seq + UInt32.ofNat (frame :: frames).length := by
      rw [List.length_cons, UInt32.ofNat_add, UInt32.add_assoc, UInt32.add_comm 1]
      rfl
    simp only [List.cons_append, seq_check, ih, and_assoc, hlen]

/-- What is wrapped holds together. -/
structure Numbered (logic : active_server_session_logic) (s : numbering_run) : Prop where
  frames : seq_check logic._seq (s.session.written ++ s.wrapped.map fun w => w.2.content)
  seq : s.session._logic._seq =
    logic._seq + UInt32.ofNat (s.session.written.length + s.wrapped.length)
  fits : ∀ w ∈ s.wrapped, w.2.offset + w.2.length ≤ ONCE_BUFFER_SIZE

/-- The frames are written in the order they were numbered in. -/
def WritesInTurn (s : numbering_run) : numbering_event → Prop
  | .write who => s.wrapped.head?.map Prod.fst = some who
  | _ => True

/-- Both steps together, with nobody in between, are `async_send`. -/
theorem async_send_of_steps {s s₁ s₂ : numbering_run} {who : sender} {tmp_buffer : once_buffer}
    (hidle : s.wrapped = []) (hstate : s.session._state = .CONNECTING)
    (hwrap : s.wrap who (.ok tmp_buffer) = some s₁) (hwrite : s₁.write who = some s₂) :
    s.session.async_send active_server_session_logic.wrap_to_send_data tmp_buffer =
      .ok s₂.session := by
  unfold wrap at hwrap
  rw [hidle, if_neg (by simp)] at hwrap
  simp only [Except.toOption, Option.bind_eq_bind, Option.bind_some, hstate, ne_eq,
    not_true_eq_false, if_false, List.nil_append] at hwrap
  cases hrun : s.session._logic.wrap_to_send_data tmp_buffer with
  | error e =>
    rw [hrun] at hwrap
    cases hwrap
  | ok r =>
    rw [hrun] at hwrap
    cases hwrap
    unfold write at hwrite
    rw [List.find?_cons_of_pos (by simp), Option.bind_eq_bind, Option.bind_some] at hwrite
    obtain ⟨region, hregion, hwrite⟩ := Option.bind_eq_some_iff.mp hwrite
    cases hwrite
    have hload : r.2.load (r.2.buffer 0) r.2.length = .ok region := by
      cases hl : r.2.load (r.2.buffer 0) r.2.length with
      | error e =>
        rw [hl] at hregion
        cases hregion
      | ok region' =>
        rw [hl] at hregion
        cases hregion
        rfl
    rw [basic_async_session.async_send, if_neg (by simp [hstate]), hrun, ok_bind]
    simp only [hload, ok_bind]
    rfl

/-! #### Wrapping gives the next number -/

/-- `send` leaves space for the head. -/
theorem space_of_pack_send {stale : Nat → UInt8} {l : active_server_session_logic}
    {target_id : session_uid} {data_block : List UInt8} {b : once_buffer}
    (h : active_server_session_mgr.pack_send stale l target_id data_block = .ok b) :
    b.offset = PROTO_HEAD_SIZE ∧ PROTO_HEAD_SIZE + b.length ≤ ONCE_BUFFER_SIZE := by
  have hsize : ONCE_BUFFER_SIZE = 65536 := rfl
  have hhead : PROTO_HEAD_SIZE = 11 := rfl
  by_cases hlen : data_block.length ≤ 65521
  · obtain ⟨b', hb', hoff, hblen, -⟩ :=
      active_server_session_mgr.pack_send_spec stale l target_id hlen
    rw [h] at hb'
    cases hb'
    refine ⟨hoff, ?_⟩
    rw [hblen]
    omega
  · -- longer data does not fit into the buffer
    unfold active_server_session_mgr.pack_send at h
    obtain ⟨b', hb', -⟩ := bind_eq_ok.mp h
    rw [buffer_zero_of_eq (n := 15) rfl (by decide), store_of_lt _ (by omega)] at hb'
    cases hb'

theorem seq_of_framed (l : active_server_session_logic) {buffer : once_buffer}
    (hoff : buffer.offset = PROTO_HEAD_SIZE) :
    (protocol_head.unpack_head
      ((framed (l.head_to_send buffer.length) buffer).content.take PROTO_HEAD_SIZE)).seq =
        l._seq + 1 := by
  rw [content_framed _ hoff, List.take_left' (protocol_head.length_bytes _),
    protocol_head.unpack_head_bytes, masked_head_seq]
  exact protocol_head.get_a_head_seq ..

/-- What wrapping amounts to: nothing, or one more framed buffer. -/
theorem wrap_cases {s s' : numbering_run} {who : sender} {pack : Checked once_buffer}
    (hpack : ∀ b, pack = .ok b →
      b.offset = PROTO_HEAD_SIZE ∧ PROTO_HEAD_SIZE + b.length ≤ ONCE_BUFFER_SIZE)
    (hwrap : s.wrap who pack = some s') :
    s' = s ∨ ∃ b, b.offset = PROTO_HEAD_SIZE ∧ PROTO_HEAD_SIZE + b.length ≤ ONCE_BUFFER_SIZE ∧
      s' = {
        session := s.session.modify_session_logic
          { s.session._logic with _seq := s.session._logic._seq + 1 }
        wrapped := s.wrapped ++ [(who, framed (s.session._logic.head_to_send b.length) b)] } := by
  unfold wrap at hwrap
  split at hwrap
  · cases hwrap
  cases hrun : pack with
  | error e =>
    rw [hrun] at hwrap
    cases hwrap
  | ok b =>
    rw [hrun] at hwrap
    obtain ⟨hoff, hfit⟩ := hpack b hrun
    by_cases hstate : s.session._state = .CONNECTING
    · have hframed := s.session._logic.wrap_to_send_data_eq hoff hfit
      simp only [Except.toOption, Option.bind_eq_bind, Option.bind_some, hstate, ne_eq,
        not_true_eq_false, if_false, hframed, Option.some.injEq] at hwrap
      exact Or.inr ⟨b, hoff, hfit, hwrap.symm⟩
    · simp only [Except.toOption, Option.bind_eq_bind, Option.bind_some, ne_eq, hstate,
        not_false_eq_true, if_true, Option.some.injEq] at hwrap
      exact Or.inl hwrap.symm

theorem Numbered.wrap {logic : active_server_session_logic} {s s' : numbering_run}
    (h : s.Numbered logic) {who : sender} {pack : Checked once_buffer}
    (hpack : ∀ b, pack = .ok b →
      b.offset = PROTO_HEAD_SIZE ∧ PROTO_HEAD_SIZE + b.length ≤ ONCE_BUFFER_SIZE)
    (hwrap : s.wrap who pack = some s') : s'.Numbered logic := by
  rcases wrap_cases hpack hwrap with rfl | ⟨b, hoff, hfit, rfl⟩
  · exact h
  refine ⟨?_, ?_, ?_⟩
  · -- the frame is numbered behind all that is written or wrapped
    simp only [basic_async_session.written_modify_session_logic, List.map_append, List.map_cons,
      List.map_nil]
    rw [← List.append_assoc, seq_check_append]
    refine ⟨h.frames, ?_, trivial⟩
    rw [seq_of_framed _ hoff, h.seq, List.length_append, List.length_map]
  · simp only [basic_async_session.written_modify_session_logic,
      basic_async_session.logic_modify_session_logic, List.length_append, List.length_singleton]
    rw [h.seq, ← Nat.add_assoc, UInt32.ofNat_add _ 1, UInt32.add_assoc]
    rfl
  · intro w hw
    rcases List.mem_append.mp hw with hold | hnew
    · exact h.fits w hold
    · obtain rfl := List.mem_singleton.mp hnew
      simpa using hfit

/-- The frame whose turn it is goes from the wrapped ones to the written ones. -/
theorem Numbered.write {logic : active_server_session_logic} {s s' : numbering_run}
    (h : s.Numbered logic) {who : sender} (hturn : s.wrapped.head?.map Prod.fst = some who)
    (hwrite : s.write who = some s') : s'.Numbered logic := by
  obtain ⟨w, hw, rfl⟩ := Option.map_eq_some_iff.mp hturn
  obtain ⟨rest, hwrapped⟩ := List.head?_eq_some_iff.mp hw
  have hfit := h.fits w (by rw [hwrapped]; exact List.mem_cons_self)
  have hzero : w.2.buffer 0 = w.2.offset := by
    apply buffer_zero
    simp only [ONCE_BUFFER_SIZE] at hfit
    omega
  unfold numbering_run.write at hwrite
  rw [hwrapped, List.find?_cons_of_pos (by simp)] at hwrite
  simp only [Option.bind_eq_bind, Option.bind_some, hzero, load_of_le _ hfit, Except.toOption,
    List.eraseP_cons_of_pos (l := rest) (a := w) (p := fun x => decide (x.1 = w.1)) (by simp),
    Option.some.injEq] at hwrite
  subst hwrite
  refine ⟨?_, ?_, ?_⟩
  · have hframes := h.frames
    rw [hwrapped, List.map_cons] at hframes
    simpa [basic_async_session.async_write_some, content] using hframes
  · have hseq := h.seq
    rw [hwrapped, List.length_cons] at hseq
    simp only [basic_async_session.async_write_some, List.length_append, List.length_singleton]
    rw [hseq]
    congr 2
    omega
  · intro w' hw'
    exact h.fits w' (by rw [hwrapped]; exact List.mem_cons_of_mem w hw')

theorem numbered_exec {logic : active_server_session_logic} {s s' : numbering_run}
    {e : numbering_event} (h : s.Numbered logic) (hguard : s.WritesInTurn e)
    (hexec : s.exec e = some s') : s'.Numbered logic := by
  cases e with
  | send t stale target_id data_block => exact h.wrap (fun _ => space_of_pack_send) hexec
  | tick_alive stale =>
    refine h.wrap ?_ hexec
    intro b hb
    cases hb
    have hfit : PROTO_HEAD_SIZE + 0 ≤ ONCE_BUFFER_SIZE := by decide
    exact ⟨rfl, hfit⟩
  | write who => exact h.write hguard hexec
  | socket state =>
    cases hexec
    exact ⟨h.frames, h.seq, h.fits⟩

/-- **Numbers in order.** While every sender writes when its number's turn has come,
    the frames on the stream pass the proxy's check, one after another. -/
theorem seqs_of_reachable {logic : active_server_session_logic} {s : numbering_run}
    (hr : ((system logic).restrict WritesInTurn).Reachable s) :
    seq_check logic._seq s.session.written := by
  have hnumbered : s.Numbered logic := by
    refine System.invariant ?_ ?_ s hr
    · rintro s ⟨uuid, ip, rfl⟩
      exact ⟨trivial, (UInt32.add_zero _).symm, fun w hw => nomatch hw⟩
    · rintro s e s' h ⟨hguard, hexec⟩
      exact numbered_exec h hguard hexec
  exact ((seq_check_append _ _ _).mp hnumbered.frames).1

/-- Thread `0` sends no data to client `5`. -/
def send_nothing : numbering_event := .send 0 (fun _ => 0) 5 []

/-- A game server's session under the events. -/
def run (es : List numbering_event) : Option numbering_run :=
  es.foldlM exec (start active_server_session_mgr.just_started_logic 0 0)

instance (s : numbering_run) (e : numbering_event) : Decidable (s.WritesInTurn e) :=
  match e with
  | .write who => inferInstanceAs (Decidable (s.wrapped.head?.map Prod.fst = some who))
  | .send _ _ _ _ => inferInstanceAs (Decidable True)
  | .tick_alive _ => inferInstanceAs (Decidable True)
  | .socket _ => inferInstanceAs (Decidable True)

/-- The thread and the keep-alive both wrap before either writes. -/
def wrapped_together : List numbering_event :=
  [send_nothing, .tick_alive (fun _ => 0), .write (.thread 0), .write .strand]

theorem seqs_of_wrapped_together :
    ∃ s, run wrapped_together = some s ∧ s.session.written.length = 2 ∧
      seq_check 1 s.session.written := by
  have hrun : (wrapped_together.foldlM (fun s e => if WritesInTurn s e then exec s e else none)
      (start active_server_session_mgr.just_started_logic 0 0)).map
        (fun s => s.session.written.length) = some 2 := by
    decide +kernel
  obtain ⟨s, hs, hlen⟩ := Option.map_eq_some_iff.mp hrun
  have hinit : ((system active_server_session_mgr.just_started_logic).restrict
      WritesInTurn).Reachable (start active_server_session_mgr.just_started_logic 0 0) :=
    .init ⟨0, 0, rfl⟩
  obtain ⟨hreach, hs'⟩ := hinit.of_guarded_foldlM wrapped_together hs
  exact ⟨s, hs', hlen, seqs_of_reachable hreach⟩

/-- The keep-alive is numbered second and written first. -/
theorem not_always_seqs :
    ¬ ∀ (logic : active_server_session_logic) (s : numbering_run),
      (system logic).Reachable s → seq_check logic._seq s.session.written := by
  intro hall
  have hrun : (run [send_nothing, .tick_alive (fun _ => 0), .write .strand,
      .write (.thread 0)]).map (fun s => s.session.written.map fun frame =>
        (protocol_head.unpack_head (frame.take PROTO_HEAD_SIZE)).seq) = some [3, 2] := by
    decide +kernel
  obtain ⟨s, hs, hseqs⟩ := Option.map_eq_some_iff.mp hrun
  have hreach : ((system active_server_session_mgr.just_started_logic).restrict
      fun _ _ => True).Reachable s := .of_foldlM (.init ⟨0, 0, rfl⟩) _ (fun _ _ _ => trivial) hs
  have hcheck := hall _ s hreach.of_restrict
  -- the proxy expects `2` and sees `3`
  cases hwritten : s.session.written with
  | nil =>
    rw [hwritten] at hseqs
    cases hseqs
  | cons frame frames =>
    rw [hwritten] at hcheck hseqs
    have hfirst : (protocol_head.unpack_head (frame.take PROTO_HEAD_SIZE)).seq = 3 :=
      (List.cons.inj hseqs).1
    rw [seq_check, hfirst] at hcheck
    exact absurd hcheck.1 (by decide)

end numbering_run

end AsioNet
