import AsioNet.InnerSessionLogic
import AsioNet.Library.TransitionSystem
import AsioNet.RecvLoop

/-! # One read at a time

    The runs of a session that matter for its reads: connecting or being
    accepted, completed and failed reads, the retry timer elapsing or being
    cancelled, `close` and its posted body, and the consumer working on the
    storage, in any order. Along a run there is to be at most one outstanding
    read, into the free tail of the buffer the session holds.

    `async_recv_loop` starts a read whenever it is called. Its callers are the
    handlers of connect and accept, which have no read before them, the read
    handler, which has just consumed the only one, and the handler of the retry
    timer, which knows nothing about reads: `one_read_of_reachable` holds as long
    as that handler finds none outstanding.
-/

namespace AsioNet

open TransitionSystem reusabel_buffer

/-- A receiving session with what is pending on its strand. -/
structure recv_run (σ : Type) where
  session : recv_session σ
  /-- The handler of a connect or accept has run. -/
  connected : Bool
  /-- `_sock.is_open()` -/
  is_open : Bool
  /-- Bodies of `close` posted to the strand, with their argument. -/
  posted : List Bool

/-- What can happen next; `κ` are the consumer's actions on the logic's state. -/
inductive recv_event (κ : Type) where
  | async_connect
  | connected
  | read_done (region : read_region) (bytes : List UInt8)
  | read_failed (region : read_region)
  | timer_elapses
  | timer_handler
  | timer_handler_cancelled
  | close (elegantly : Bool)
  | run_posted
  | consume (k : κ)

namespace recv_run

variable {σ κ : Type} (L : session_logic_interface σ) (pool : Nat → recycled)
  (consumer : κ → σ → σ)

/-- A session as it is constructed. -/
def start (logic : σ) : recv_run σ where
  session := recv_session.initial .INIT logic
  connected := false
  is_open := false
  posted := []

def close (s : recv_run σ) (elegantly : Bool) : recv_run σ :=
  if s.session._state = .CLOSE_DONE then s
  else { s with posted := s.posted ++ [elegantly] }

/-- `clear_all_timer`, as far as `_timer` is concerned. -/
def clear_all_timer (s : recv_session σ) : recv_session σ :=
  { s with
    timer_pending := false
    timer_cancelled := s.timer_cancelled + if s.timer_pending then 1 else 0 }

/-- The body `close` posts. -/
def close_body (s : recv_run σ) (elegantly : Bool) : recv_run σ :=
  if s.session._state = .CLOSE_DONE then s
  else
    let session := clear_all_timer s.session
    if s.is_open then
      if elegantly then { s with session := { session with _state := .TO_CLOSE } }
      else { s with session := { session with _state := .CLOSE_DONE }, is_open := false }
    else { s with session := session }

/-- A handler that runs on the session, if it runs through. -/
def on_session (s : recv_run σ) (handler : Checked (recv_session σ)) : Option (recv_run σ) :=
  handler.toOption.map fun session => { s with session := session }

/-- The state after an event, `none` if the event cannot happen. -/
def exec (s : recv_run σ) : recv_event κ → Option (recv_run σ)
  | .async_connect =>
    if s.session._state = .INIT then
      some { s with session := { s.session with _state := .WAIT_CONNECT }, is_open := true }
    else none
  | .connected =>
    if s.connected = false ∧ s.session._state ≠ .CLOSE_DONE then
      let session := { s.session with _state := .CONNECTING }
      some { s with
        session := session.async_recv_loop pool, connected := true, is_open := true }
    else none
  | .read_done region bytes =>
    if region ∈ s.session.reads ∧ bytes.length ≤ region.size then
      s.on_session (s.session.on_read L pool region bytes)
    else none
  | .read_failed region =>
    -- `close(false)`, and the handler goes on
    if region ∈ s.session.reads then
      (s.close false).on_session (s.session.on_read L pool region [])
    else none
  | .timer_elapses =>
    if s.session.timer_pending then
      some { s with session := { s.session with
        timer_pending := false, timer_elapsed := s.session.timer_elapsed + 1 } }
    else none
  | .timer_handler =>
    if 0 < s.session.timer_elapsed then
      let session := { s.session with timer_elapsed := s.session.timer_elapsed - 1 }
      s.on_session (session.pick_entire_msgs L pool)
    else none
  | .timer_handler_cancelled =>
    if 0 < s.session.timer_cancelled then
      let session := { s.session with timer_cancelled := s.session.timer_cancelled - 1 }
      some (close { s with session := session } false)
    else none
  | .close elegantly => some (s.close elegantly)
  | .run_posted =>
    match s.posted with
    | [] => none
    | elegantly :: posted => some (close_body { s with posted := posted } elegantly)
  | .consume k => some { s with session := { s.session with logic := consumer k s.session.logic } }

/-- All runs of a session, whatever its logic's state at the start. -/
def system : System (recv_run σ) (recv_event κ) :=
  System.ofExec (fun s => ∃ logic, s = start logic) (exec L pool consumer)

end recv_run

/-! ### What picking messages leaves alone -/

namespace recv_session

variable {σ : Type} {L : session_logic_interface σ} {pool : Nat → recycled}

/-- The free tail of a buffer: `[offset + length, capacity)`. -/
def free_tail (recv : once_buffer_sptr) : read_region where
  id := recv.id
  start := recv.buf.offset + recv.buf.length
  size := ONCE_BUFFER_SIZE - (recv.buf.offset + recv.buf.length)

/-- At most one read is outstanding, into the free tail of the buffer held. -/
def OneRead (s : recv_session σ) : Prop :=
  s.reads = [] ∨ ∃ recv, s._recv_not_entire = some recv ∧ s.reads = [free_tail recv]

/-- The buffer held starts at its array's start and its content lies inside. -/
def Sound (s : recv_session σ) : Prop :=
  ∀ recv, s._recv_not_entire = some recv →
    recv.buf.offset = 0 ∧ recv.buf.length ≤ ONCE_BUFFER_SIZE

theorem Sound.read_target {s : recv_session σ} (h : s.Sound) {recv : once_buffer_sptr}
    (hrecv : s._recv_not_entire = some recv) : read_target recv = free_tail recv := by
  obtain ⟨hoff, hle⟩ := h recv hrecv
  have hsmall : ONCE_BUFFER_SIZE < 2 ^ 64 := by decide
  rw [recv_session.read_target, free_tail, buffer_of_lt _ (by omega), available_capacity, hoff,
    size_t_sub_of_le (Nat.zero_le _) hsmall, Nat.sub_zero, size_t_sub_of_le hle hsmall,
    Nat.zero_add]

/-- What `s'` keeps of `s` when only messages are picked. -/
structure Kept (s s' : recv_session σ) : Prop where
  reads : s'.reads = s.reads
  state : s'._state = s._state
  sound : s.Sound → s'.Sound

theorem Kept.refl (s : recv_session σ) : Kept s s := ⟨rfl, rfl, id⟩

theorem Kept.trans {s₁ s₂ s₃ : recv_session σ} (h : Kept s₁ s₂) (h' : Kept s₂ s₃) :
    Kept s₁ s₃ :=
  ⟨h'.reads.trans h.reads, h'.state.trans h.state, fun hs => h'.sound (h.sound hs)⟩

theorem kept_pick_a_entire_msg {s s' : recv_session σ} {data_block data_block' : once_buffer}
    {picked : Bool}
    (h : s.pick_a_entire_msg L pool data_block = .ok (picked, s', data_block')) : Kept s s' := by
  unfold pick_a_entire_msg at h
  split at h
  · cases h
    exact Kept.refl s
  next recv hrecv =>
  split at h
  · cases h
    exact Kept.refl s
  obtain ⟨head_block, -, h⟩ := bind_eq_ok.mp h
  simp only at h
  split at h
  · cases h
    exact Kept.refl s
  obtain ⟨msg, -, h⟩ := bind_eq_ok.mp h
  obtain ⟨block, -, h⟩ := bind_eq_ok.mp h
  split at h
  · -- refused: the timer starts, the buffer stays
    cases h
    exact ⟨rfl, rfl, id⟩
  split at h
  · obtain ⟨rest, -, h⟩ := bind_eq_ok.mp h
    -- more follows: it moves to the front and the length shrinks
    obtain ⟨buf, hbuf, h⟩ := bind_eq_ok.mp h
    obtain ⟨-, rfl⟩ := store_eq_ok hbuf
    cases h
    refine ⟨rfl, rfl, ?_⟩
    intro hs recv' hrecv'
    obtain ⟨hoff, hle⟩ := hs recv hrecv
    cases hrecv'
    exact ⟨hoff, Nat.le_trans (Nat.sub_le ..) hle⟩
  · cases h
    refine ⟨rfl, rfl, ?_⟩
    intro _ recv' hrecv'
    cases hrecv'

theorem kept_pick_while {fuel : Nat} {s s' : recv_session σ} {tmp_buffer : once_buffer}
    (h : pick_while L pool fuel s tmp_buffer = .ok s') : Kept s s' := by
  induction fuel generalizing s tmp_buffer with
  | zero => cases h
  | succ fuel ih =>
    rw [pick_while] at h
    obtain ⟨⟨picked, s₁, tmp₁⟩, hpick, h⟩ := bind_eq_ok.mp h
    have hkept := kept_pick_a_entire_msg hpick
    cases picked with
    | false =>
      cases h
      exact hkept
    | true => exact hkept.trans (ih h)

theorem kept_pick_loop {s s' : recv_session σ} (h : s.pick_loop L pool = .ok s') : Kept s s' := by
  have htake : Kept s { s with taken := s.taken + 1 } := ⟨rfl, rfl, id⟩
  exact htake.trans (kept_pick_while h)

variable (pool) in
/-- `async_recv_loop` starts a read into the free tail, if the session is
    connected. -/
theorem oneRead_async_recv_loop {s : recv_session σ} (hreads : s.reads = []) (hs : s.Sound) :
    (s.async_recv_loop pool).OneRead ∧ (s.async_recv_loop pool).Sound ∧
      (s.async_recv_loop pool)._state = s._state ∧
      (s._state ≠ .CONNECTING → (s.async_recv_loop pool).reads = []) := by
  unfold async_recv_loop
  split
  · exact ⟨Or.inl hreads, hs, rfl, fun _ => hreads⟩
  next hstate =>
  split
  · next recv hrecv =>
    refine ⟨Or.inr ⟨recv, hrecv, ?_⟩, hs, rfl, fun h => absurd h hstate⟩
    simp only [hreads, List.nil_append, hs.read_target hrecv]
  · next hnone =>
    -- a buffer just taken from the pool is empty
    have hfresh : Sound { s with
        _recv_not_entire := some (s.take_buffer pool).1, taken := s.taken + 1 } := by
      intro recv hrecv
      cases hrecv
      exact ⟨rfl, Nat.zero_le _⟩
    refine ⟨Or.inr ⟨_, rfl, ?_⟩, hfresh, rfl, fun h => absurd h hstate⟩
    have htarget := hfresh.read_target rfl
    simp only [take_buffer] at htarget ⊢
    rw [hreads, List.nil_append, htarget]

/-- Picking with no read outstanding ends with one read at most. -/
theorem oneRead_pick_entire_msgs {s s' : recv_session σ}
    (h : s.pick_entire_msgs L pool = .ok s') (hreads : s.reads = []) (hs : s.Sound) :
    s'.OneRead ∧ s'.Sound ∧ s'._state = s._state ∧
      (s._state ≠ .CONNECTING → s'.reads = []) := by
  rw [pick_entire_msgs] at h
  obtain ⟨s₁, hloop, h⟩ := bind_eq_ok.mp h
  have hkept := kept_pick_loop hloop
  cases h
  have hloop := oneRead_async_recv_loop pool (hkept.reads.trans hreads) (hkept.sound hs)
  rw [hkept.state] at hloop
  exact hloop

/-- A completed read fills part of the free tail. -/
theorem oneRead_on_read {s s' : recv_session σ} (hone : s.OneRead) (hs : s.Sound)
    {region : read_region} (hregion : region ∈ s.reads) {bytes : List UInt8}
    (hfit : bytes.length ≤ region.size) (h : s.on_read L pool region bytes = .ok s') :
    s'.OneRead ∧ s'.Sound ∧ s'._state = s._state ∧
      (s._state ≠ .CONNECTING → s'.reads = []) := by
  rcases hone with hnone | ⟨recv, hrecv, hreads⟩
  · rw [hnone] at hregion
    cases hregion
  -- the read that completed is the outstanding one, so none is left
  obtain rfl : region = free_tail recv := by
    rw [hreads] at hregion
    exact List.mem_singleton.mp hregion
  obtain ⟨hoff, hle⟩ := hs recv hrecv
  rw [on_read] at h
  obtain ⟨s₁, hreceived, h⟩ := bind_eq_ok.mp h
  simp only [received, receive_bytes, hrecv, free_tail, if_true, add_length, pure_eq_ok] at hreceived
  cases hreceived
  have hpick := oneRead_pick_entire_msgs h
    (by simp only [hreads, free_tail, List.erase_cons_head])
    (by
      intro recv' hrecv'
      cases hrecv'
      simp only [free_tail, hoff] at hfit ⊢
      exact ⟨trivial, by omega⟩)
  exact hpick

end recv_session

/-! ### Runs -/

namespace recv_run

open recv_session

variable {σ κ : Type} {L : session_logic_interface σ} {pool : Nat → recycled}
  {consumer : κ → σ → σ}

/-- The handler of the retry timer finds no read outstanding. -/
def RetriesWithoutRead (s : recv_run σ) : recv_event κ → Prop
  | .timer_handler => s.session.reads = []
  | _ => True

/-- What every reachable state satisfies. -/
structure Invariant (s : recv_run σ) : Prop where
  one_read : s.session.OneRead
  sound : s.session.Sound
  unconnected : s.connected = false → s.session.reads = [] ∧ s.session._state ≠ .CONNECTING

theorem invariant_start (logic : σ) : Invariant (start logic) where
  one_read := Or.inl rfl
  sound := fun recv hrecv => by cases hrecv
  unconnected := fun _ => ⟨rfl, nofun⟩

theorem invariant_close {s : recv_run σ} (h : Invariant s) (elegantly : Bool) :
    Invariant (s.close elegantly) := by
  unfold close
  split
  · exact h
  · exact ⟨h.one_read, h.sound, h.unconnected⟩

theorem invariant_close_body {s : recv_run σ} (h : Invariant s) (elegantly : Bool) :
    Invariant (s.close_body elegantly) := by
  unfold close_body
  split
  · exact h
  · simp only
    split
    · split
      · exact ⟨h.one_read, h.sound, fun hc => ⟨(h.unconnected hc).1, nofun⟩⟩
      · exact ⟨h.one_read, h.sound, fun hc => ⟨(h.unconnected hc).1, nofun⟩⟩
    · exact ⟨h.one_read, h.sound, h.unconnected⟩

/-- A handler of the session that ends with one read at most. -/
theorem invariant_on_session {s s' : recv_run σ} {handler : Checked (recv_session σ)}
    (h : s.on_session handler = some s')
    (hhandler : ∀ session, handler = .ok session → session.OneRead ∧ session.Sound ∧
      session._state = s.session._state ∧ (s.session._state ≠ .CONNECTING → session.reads = []))
    (hunconnected : s.connected = false → s.session._state ≠ .CONNECTING) : Invariant s' := by
  unfold on_session at h
  cases hrun : handler with
  | error e =>
    rw [hrun] at h
    cases h
  | ok session =>
    rw [hrun] at h
    cases h
    obtain ⟨hone, hsound, hstate, hreads⟩ := hhandler session hrun
    refine ⟨hone, hsound, ?_⟩
    intro hc
    -- before it is connected a session starts no read
    have hnot := hunconnected hc
    exact ⟨hreads hnot, fun h => hnot (hstate.symm.trans h)⟩

/-- **One event** keeps the invariant, unless the retry timer's handler finds a
    read outstanding. -/
theorem invariant_exec {s s' : recv_run σ} (h : Invariant s) (e : recv_event κ)
    (hguard : RetriesWithoutRead s e) (hexec : exec L pool consumer s e = some s') :
    Invariant s' := by
  cases e with
  | async_connect =>
    obtain ⟨-, hexec⟩ := Option.ite_none_right_eq_some.mp hexec
    cases hexec
    exact ⟨h.one_read, h.sound, fun hc => ⟨(h.unconnected hc).1, nofun⟩⟩
  | connected =>
    obtain ⟨hc, hexec⟩ := Option.ite_none_right_eq_some.mp hexec
    cases hexec
    have hloop := oneRead_async_recv_loop pool
      (s := { s.session with _state := .CONNECTING }) (h.unconnected hc.1).1 h.sound
    exact ⟨hloop.1, hloop.2.1, fun h => by cases h⟩
  | read_done region bytes =>
    obtain ⟨hr, hexec⟩ := Option.ite_none_right_eq_some.mp hexec
    exact invariant_on_session hexec
      (fun session hs => oneRead_on_read h.one_read h.sound hr.1 hr.2 hs)
      (fun hc => (h.unconnected hc).2)
  | read_failed region =>
    obtain ⟨hr, hexec⟩ := Option.ite_none_right_eq_some.mp hexec
    -- the body of `close` is posted, nothing else has happened yet
    have hclose : (s.close false).session = s.session ∧
        (s.close false).connected = s.connected := by
      unfold close
      split <;> exact ⟨rfl, rfl⟩
    refine invariant_on_session hexec ?_ ?_
    · intro session hs
      rw [hclose.1]
      exact oneRead_on_read h.one_read h.sound hr (Nat.zero_le _) hs
    · intro hc
      rw [hclose.2] at hc
      rw [hclose.1]
      exact (h.unconnected hc).2
  | timer_elapses =>
    obtain ⟨-, hexec⟩ := Option.ite_none_right_eq_some.mp hexec
    cases hexec
    exact ⟨h.one_read, h.sound, h.unconnected⟩
  | timer_handler =>
    obtain ⟨-, hexec⟩ := Option.ite_none_right_eq_some.mp hexec
    refine invariant_on_session hexec ?_ fun hc => (h.unconnected hc).2
    intro session hs
    -- here the guard is needed: the handler starts a read in any case
    have hpick := oneRead_pick_entire_msgs hs hguard h.sound
    exact hpick
  | timer_handler_cancelled =>
    obtain ⟨-, hexec⟩ := Option.ite_none_right_eq_some.mp hexec
    cases hexec
    apply invariant_close
    exact ⟨h.one_read, h.sound, h.unconnected⟩
  | close elegantly =>
    cases hexec
    exact invariant_close h elegantly
  | run_posted =>
    simp only [exec] at hexec
    split at hexec
    · cases hexec
    · cases hexec
      apply invariant_close_body
      exact ⟨h.one_read, h.sound, h.unconnected⟩
  | consume k =>
    cases hexec
    exact ⟨h.one_read, h.sound, h.unconnected⟩

/-- **One read at a time.** In every run in which the retry timer's handler never
    finds a read outstanding, at most one read is outstanding in every state
    reached, into the free tail of the buffer the session holds. -/
theorem one_read_of_reachable {s : recv_run σ}
    (h : ((system L pool consumer).restrict RetriesWithoutRead).Reachable s) :
    s.session.OneRead := by
  have hinv : Invariant s := by
    refine System.invariant ?_ ?_ s h
    · rintro s ⟨logic, rfl⟩
      exact invariant_start logic
    · rintro s e s' hs ⟨hguard, hexec⟩
      exact invariant_exec hs e hguard hexec
  exact hinv.one_read

/-! ### The retry timer starts a second read -/

/-- The logic of an inner pair whose ring has one free cell. -/
def full_storage : inner_session_logic where
  _storage := {
    _buffer := fun _ => 0
    _readIndex := 0
    _writeIndex := TOTAL_CACHE_SIZE - 1
    _capacity := TOTAL_CACHE_SIZE
    _readIndex_lt := TOTAL_CACHE_SIZE_pos
    _writeIndex_lt := by decide }

/-- A frame with the body `a`, which does not fit. -/
def frame_a : List UInt8 :=
  (proto_mask.masked_head (protocol_head.get_a_head FRAME_KEY 1 0
    protocol_cmd.Commands_RoutingTransparent.val false 0) [0x61]).bytes ++ [0x61]

/-- The session is connected and receives the frame, which is refused. -/
def refused : List (recv_event Unit) :=
  [.connected, .read_done ⟨0, 0, ONCE_BUFFER_SIZE⟩ frame_a]

/-- An inner pair's session under the events, with a consumer that does nothing. -/
def run_full_storage (es : List (recv_event Unit)) : Option (recv_run (Checked inner_session_logic)) :=
  es.foldlM (exec inner_session_logic.interface (fun _ _ _ => 0) fun _ l => l)
    (start (.ok full_storage))

theorem one_read_refused : ∃ s, run_full_storage refused = some s ∧ s.session.OneRead := by
  obtain ⟨s, hs⟩ : ∃ s, run_full_storage refused = some s :=
    Option.isSome_iff_exists.mp (by decide +kernel)
  refine ⟨s, hs, one_read_of_reachable (.of_foldlM (.init ⟨_, rfl⟩) refused ?_ hs)⟩
  intro e he s
  obtain rfl | rfl : e = .connected ∨ e = .read_done ⟨0, 0, ONCE_BUFFER_SIZE⟩ frame_a := by
    simpa [refused] using he
  · trivial
  · trivial

theorem two_reads_refused :
    (run_full_storage (refused ++ [.timer_elapses, .timer_handler])).map
      (fun s => s.session.reads.length) = some 2 := by
  decide +kernel

/-- When the refusal's timer has elapsed, its handler starts a second read. -/
theorem not_one_read_always :
    ¬ ∀ s, (system inner_session_logic.interface (fun _ _ _ => 0)
      fun (_ : Unit) l => l).Reachable s → s.session.OneRead := by
  intro hall
  obtain ⟨s, hs, hreads⟩ := Option.map_eq_some_iff.mp two_reads_refused
  have hinit : ((system inner_session_logic.interface (fun _ _ _ => 0) fun (_ : Unit) l =>
      l).restrict fun _ _ => True).Reachable (start (.ok full_storage)) := .init ⟨_, rfl⟩
  have hreach := hinit.of_foldlM _ (fun _ _ _ => trivial) hs
  rcases hall s hreach.of_restrict with hnone | ⟨recv, -, hone⟩
  · rw [hnone] at hreads
    cases hreads
  · rw [hone] at hreads
    cases hreads

end recv_run

end AsioNet
