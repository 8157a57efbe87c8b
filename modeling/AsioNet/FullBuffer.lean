import AsioNet.Framing
import AsioNet.ReceiveRuns

/-! # A receive buffer without free space (`basic_async_session.cpp`)

    `async_recv_loop` offers the free tail of `_recv_not_entire` for a read. An
    empty tail makes the read complete at once with no bytes, its handler picks
    messages and offers the tail again; so a full buffer has to start with a frame
    that `pick_entire_msgs` takes off.

    The length field announces up to 65535 bytes, but a buffer of 65536 bytes has
    room for a head and 65525. A longer frame never completes, and a frame that the
    storage refuses stays. `offered_iff` says that nothing else makes an empty tail,
    over all runs of a session, whatever its logic does.
-/

namespace AsioNet

open ByteMemory LengthPrefixed LengthPrefixed.Format TransitionSystem reusabel_buffer

namespace recv_session

variable {σ : Type} {L : session_logic_interface σ} {pool : Nat → recycled}

/-- Every read on the socket was offered some space. -/
def Offered (s : recv_session σ) : Prop := ∀ region ∈ s.reads, 0 < region.size

/-- The content of the buffer held starts at the array's start. -/
def FromStart (s : recv_session σ) : Prop :=
  ∀ recv, s._recv_not_entire = some recv → recv.buf.offset = 0

/-- The buffer held has room for a head at least. -/
def Roomy (s : recv_session σ) : Prop :=
  ∀ recv, s._recv_not_entire = some recv →
    recv.buf.length + PROTO_HEAD_SIZE ≤ ONCE_BUFFER_SIZE

/-- The head at the start of a buffer. -/
def first_head (recv : once_buffer_sptr) : protocol_head :=
  protocol_head.unpack_head (read recv.buf._buffer 0 PROTO_HEAD_SIZE)

/-- The body behind it. -/
def first_body (recv : once_buffer_sptr) : List UInt8 :=
  read recv.buf._buffer PROTO_HEAD_SIZE (first_head recv).len.toNat

variable (L pool) in
/-- A buffer without free space starts with a frame that fits into a buffer and
    that the logic does not refuse. -/
def Drains (s : recv_session σ) : Prop :=
  ∀ recv, s._recv_not_entire = some recv → (read_target recv).size = 0 →
    (first_head recv).len.toNat ≤ 65525 ∧
    (L.handle_msg (pool (s.taken + 1)) s.logic (first_head recv)
      (block_of (TEMP_BUFFER (pool s.taken 0)) (first_body recv))).1 = true

/-! ### The region offered -/

theorem size_read_target {recv : once_buffer_sptr} (hoff : recv.buf.offset = 0) :
    (read_target recv).size = size_t_sub ONCE_BUFFER_SIZE recv.buf.length := by
  have hsmall : ONCE_BUFFER_SIZE < 2 ^ 64 := by decide
  unfold read_target
  simp only
  rw [available_capacity, hoff, size_t_sub_of_le (Nat.zero_le _) hsmall, Nat.sub_zero]

theorem size_pos_of_roomy {recv : once_buffer_sptr} (hoff : recv.buf.offset = 0)
    (hroom : recv.buf.length + PROTO_HEAD_SIZE ≤ ONCE_BUFFER_SIZE) :
    0 < (read_target recv).size := by
  have hsmall : ONCE_BUFFER_SIZE < 2 ^ 64 := by decide
  have hhead : PROTO_HEAD_SIZE = 11 := rfl
  rw [size_read_target hoff, size_t_sub_of_le (by omega) hsmall]
  omega

theorem length_of_size_zero {recv : once_buffer_sptr} (hoff : recv.buf.offset = 0)
    (hsize : (read_target recv).size = 0) : ONCE_BUFFER_SIZE ≤ recv.buf.length := by
  by_contra hlt
  have hsmall : ONCE_BUFFER_SIZE < 2 ^ 64 := by decide
  rw [size_read_target hoff, size_t_sub_of_le (by omega) hsmall] at hsize
  omega

/-! ### One call of `pick_a_entire_msg` -/

/-- Either nothing is taken off, or what is left was inside the array behind the
    frame. -/
theorem pick_a_entire_msg_roomy {s s' : recv_session σ} {data_block data_block' : once_buffer}
    {picked : Bool} (hoff : s.FromStart)
    (h : s.pick_a_entire_msg L pool data_block = .ok (picked, s', data_block')) :
    s'.FromStart ∧ (s._recv_not_entire = none → s'._recv_not_entire = none) ∧
      (picked = false → s'._recv_not_entire = s._recv_not_entire) ∧
      (picked = true → s'.Roomy) := by
  unfold pick_a_entire_msg at h
  split at h
  · cases h
    exact ⟨hoff, id, fun _ => rfl, nofun⟩
  next recv hrecv =>
  split at h
  · cases h
    exact ⟨hoff, id, fun _ => rfl, nofun⟩
  obtain ⟨head_block, -, h⟩ := bind_eq_ok.mp h
  simp only at h
  split at h
  · cases h
    exact ⟨hoff, id, fun _ => rfl, nofun⟩
  obtain ⟨msg, -, h⟩ := bind_eq_ok.mp h
  obtain ⟨block, -, h⟩ := bind_eq_ok.mp h
  split at h
  · -- refused
    cases h
    exact ⟨hoff, id, fun _ => rfl, nofun⟩
  have hzero := hoff recv hrecv
  split at h
  · next hrest =>
    obtain ⟨rest, hload, h⟩ := bind_eq_ok.mp h
    obtain ⟨buf, hbuf, h⟩ := bind_eq_ok.mp h
    obtain ⟨-, rfl⟩ := store_eq_ok hbuf
    cases h
    generalize protocol_head.unpack_head head_block = head at hload hrest
    -- the rest is behind the frame and inside the array
    have hin : PROTO_HEAD_SIZE + head.len.toNat +
        (recv.buf.length - (PROTO_HEAD_SIZE + head.len.toNat)) ≤ ONCE_BUFFER_SIZE := by
      by_contra hout
      have hlen := head.len.toNat_lt
      have hhead : PROTO_HEAD_SIZE = 11 := rfl
      rw [buffer_of_lt _ (by rw [hzero]; omega), hzero, Nat.zero_add, load_of_lt _ (by omega)]
        at hload
      cases hload
    refine ⟨?_, ?_, nofun, ?_⟩
    · intro recv' hrecv'
      cases hrecv'
      exact hzero
    · intro hnone
      rw [hrecv] at hnone
      cases hnone
    · intro _ recv' hrecv'
      cases hrecv'
      show recv.buf.length - (PROTO_HEAD_SIZE + head.len.toNat) + PROTO_HEAD_SIZE ≤ _
      omega
  · cases h
    refine ⟨?_, fun _ => rfl, nofun, ?_⟩
    · intro recv' hrecv'
      cases hrecv'
    · intro _ recv' hrecv'
      cases hrecv'

/-- **A full buffer**: the first frame is taken off exactly if it fits into a buffer
    and is not refused. -/
theorem pick_a_entire_msg_full {s s' : recv_session σ} {data_block data_block' : once_buffer}
    {picked : Bool} {recv : once_buffer_sptr} (hrecv : s._recv_not_entire = some recv)
    (hoff : recv.buf.offset = 0) (hsize : (read_target recv).size = 0)
    (hdata : data_block.offset = 0)
    (h : s.pick_a_entire_msg L pool data_block = .ok (picked, s', data_block')) :
    picked = true ↔ (first_head recv).len.toNat ≤ 65525 ∧
      (L.handle_msg (pool s.taken) s.logic (first_head recv)
        (block_of data_block (first_body recv))).1 = true := by
  have hlength := length_of_size_zero hoff hsize
  have hcap : ONCE_BUFFER_SIZE = 65536 := rfl
  have hhead : PROTO_HEAD_SIZE = 11 := rfl
  have hpos : ∀ n, n ≤ ONCE_BUFFER_SIZE → recv.buf.buffer n = n := by
    intro n hn
    rw [buffer_of_lt _ (by rw [hoff]; omega), hoff, Nat.zero_add]
  unfold pick_a_entire_msg at h
  rw [hrecv] at h
  simp only at h
  rw [if_neg (by omega), hpos 0 (by omega), load_of_le _ (by omega), ok_bind] at h
  have hfirst : protocol_head.unpack_head (read recv.buf._buffer 0 PROTO_HEAD_SIZE) =
      first_head recv := rfl
  rw [hfirst] at h
  by_cases hlong : recv.buf.length - PROTO_HEAD_SIZE < (first_head recv).len.toNat
  · -- the frame is longer than a buffer
    rw [if_pos hlong] at h
    cases h
    refine ⟨nofun, ?_⟩
    intro hshort
    omega
  rw [if_neg hlong, hpos _ (by omega)] at h
  obtain ⟨msg, hmsg, h⟩ := bind_eq_ok.mp h
  have hfit : (first_head recv).len.toNat ≤ 65525 := by
    by_contra hout
    rw [load_of_lt _ (by omega)] at hmsg
    cases hmsg
  rw [load_of_le _ (by omega)] at hmsg
  obtain rfl : first_body recv = msg := Except.ok.inj hmsg
  have hbody : (first_body recv).length = (first_head recv).len.toNat := length_read _ _ _
  rw [buffer_zero_of_eq hdata (Nat.zero_le _), store_of_le _ (by omega), ok_bind] at h
  have hblock : block_of data_block (first_body recv) =
      { data_block with
        length := (first_head recv).len.toNat
        _buffer := write data_block._buffer 0 (first_body recv) } := by
    unfold block_of
    rw [hbody, hdata]
  rw [hblock]
  split at h
  · next hrefused =>
    cases h
    refine ⟨nofun, ?_⟩
    rintro ⟨-, haccepted⟩
    exact absurd (haccepted.symm.trans hrefused) nofun
  · next hnot =>
    have haccepted := Bool.eq_true_of_not_eq_false hnot
    have hpicked : picked = true := by
      split at h
      · obtain ⟨rest, -, h⟩ := bind_eq_ok.mp h
        obtain ⟨buf, -, h⟩ := bind_eq_ok.mp h
        cases h
        rfl
      · cases h
        rfl
    exact ⟨fun _ => ⟨hfit, haccepted⟩, fun _ => hpicked⟩

/-! ### The extraction loop -/

/-- The loop leaves a buffer that is roomy or the one it started with. -/
theorem pick_while_roomy {fuel : Nat} {s s' : recv_session σ} {tmp_buffer : once_buffer}
    (hoff : s.FromStart) (h : pick_while L pool fuel s tmp_buffer = .ok s') :
    s'.FromStart ∧ (s._recv_not_entire = none → s'._recv_not_entire = none) ∧
      (s.Roomy → s'.Roomy) := by
  induction fuel generalizing s tmp_buffer with
  | zero => cases h
  | succ fuel ih =>
    rw [pick_while] at h
    obtain ⟨⟨picked, s₁, tmp₁⟩, hpick, h⟩ := bind_eq_ok.mp h
    obtain ⟨hoff₁, hnone₁, hsame₁, hroomy₁⟩ := pick_a_entire_msg_roomy hoff hpick
    cases picked with
    | false =>
      cases h
      refine ⟨hoff₁, hnone₁, ?_⟩
      intro hroomy recv hrecv
      exact hroomy recv ((hsame₁ rfl).symm.trans hrecv)
    | true =>
      obtain ⟨hoff', hnone', hroomy'⟩ := ih hoff₁ h
      exact ⟨hoff', fun hnone => hnone' (hnone₁ hnone), fun _ => hroomy' (hroomy₁ rfl)⟩

/-- **What the loop leaves of a full buffer** is roomy exactly if the first frame
    can be taken off. -/
theorem pick_loop_full {s s' : recv_session σ} (hoff : s.FromStart)
    (h : s.pick_loop L pool = .ok s') :
    s'.FromStart ∧ (s._recv_not_entire = none → s'._recv_not_entire = none) ∧
      (s.Drains L pool ↔
        ∀ recv, s'._recv_not_entire = some recv → 0 < (read_target recv).size) := by
  unfold pick_loop at h
  simp only [take_buffer] at h
  obtain ⟨fuel, hfuel⟩ : ∃ fuel, rounds { s with taken := s.taken + 1 } = fuel + 1 := by
    unfold rounds
    split
    · exact ⟨0, rfl⟩
    · next recv _ => exact ⟨recv.buf.length, rfl⟩
  rw [hfuel] at h
  have hfrom : FromStart { s with taken := s.taken + 1 } := hoff
  obtain ⟨hoff', hnone', -⟩ := pick_while_roomy hfrom h
  refine ⟨hoff', hnone', ?_⟩
  -- the first round decides
  rw [pick_while] at h
  obtain ⟨⟨picked, s₁, tmp₁⟩, hpick, h⟩ := bind_eq_ok.mp h
  have hfull := fun recv (hrecv : s._recv_not_entire = some recv) =>
    @pick_a_entire_msg_full σ L pool { s with taken := s.taken + 1 } s₁
      (TEMP_BUFFER (pool s.taken 0)) tmp₁ picked recv hrecv (hoff recv hrecv)
  obtain ⟨hoff₁, -, hsame₁, hroomy₁⟩ := pick_a_entire_msg_roomy hfrom hpick
  cases picked with
  | true =>
    obtain ⟨-, -, hroomy⟩ := pick_while_roomy hoff₁ h
    have hpos : ∀ recv, s'._recv_not_entire = some recv → 0 < (read_target recv).size := by
      intro recv hrecv
      exact size_pos_of_roomy (hoff' recv hrecv) (hroomy (hroomy₁ rfl) recv hrecv)
    refine ⟨fun _ => hpos, ?_⟩
    intro _ recv hrecv hsize
    exact (hfull recv hrecv hsize rfl hpick).mp rfl
  | false =>
    cases h
    have hsame : s'._recv_not_entire = s._recv_not_entire := hsame₁ rfl
    constructor
    · intro hdrains recv hrecv
      rw [hsame] at hrecv
      by_contra hzero
      have hsize := Nat.eq_zero_of_not_pos hzero
      have hpicked := (hfull recv hrecv hsize rfl hpick).mpr (hdrains recv hrecv hsize)
      cases hpicked
    · intro hpos recv hrecv hsize
      exact absurd hsize (Nat.ne_of_gt (hpos recv (hsame.trans hrecv)))

/-- **Picking** offers some space for the next read exactly if a full buffer can be
    drained. -/
theorem offered_pick_entire_msgs {s s' : recv_session σ} (hoff : s.FromStart)
    (hreads : s.Offered) (h : s.pick_entire_msgs L pool = .ok s') :
    s'.FromStart ∧ s'._state = s._state ∧
      (s._state ≠ .CONNECTING → s'.Offered ∧ s'.reads = s.reads ∧
        (s._recv_not_entire = none → s'._recv_not_entire = none)) ∧
      (s._state = .CONNECTING → (s'.Offered ↔ s.Drains L pool)) := by
  rw [pick_entire_msgs] at h
  obtain ⟨s₁, hloop, h⟩ := bind_eq_ok.mp h
  cases h
  obtain ⟨hoff₁, hnone₁, hdrains⟩ := pick_loop_full hoff hloop
  have hkept := kept_pick_loop hloop
  have hreads₁ : s₁.reads = s.reads := hkept.reads
  unfold async_recv_loop
  by_cases hstate : s₁._state ≠ .CONNECTING
  · rw [if_pos hstate]
    have hoffered : s₁.Offered := by
      unfold Offered
      rw [hreads₁]
      exact hreads
    refine ⟨hoff₁, hkept.state, fun _ => ⟨hoffered, hreads₁, hnone₁⟩, ?_⟩
    intro hconnecting
    exact absurd (hkept.state.trans hconnecting) hstate
  rw [if_neg hstate]
  have hconnecting := Decidable.not_not.mp hstate
  have hnot : s._state ≠ .CONNECTING → False := fun hne => hne (hkept.state.symm.trans hconnecting)
  split
  · next recv hrecv =>
    refine ⟨?_, hkept.state, fun hne => absurd hne hnot, ?_⟩
    · intro recv' hrecv'
      exact hoff₁ recv' hrecv'
    · intro _
      rw [hdrains]
      constructor
      · intro hoffered recv' hrecv'
        obtain rfl : recv = recv' := Option.some.inj (hrecv.symm.trans hrecv')
        exact hoffered _ (List.mem_append_right _ (List.mem_singleton.mpr rfl))
      · intro hpos region hregion
        rcases List.mem_append.mp hregion with hold | hnew
        · exact hreads region (hreads₁ ▸ hold)
        · rw [List.mem_singleton.mp hnew]
          exact hpos recv hrecv
  · next hnone =>
    -- the buffer is a new one
    have hfresh : ∀ region, region ∈ s₁.reads ++ [read_target (s₁.take_buffer pool).1] →
        0 < region.size := by
      intro region hregion
      rcases List.mem_append.mp hregion with hold | hnew
      · exact hreads region (hreads₁ ▸ hold)
      · rw [List.mem_singleton.mp hnew]
        exact size_pos_of_roomy rfl (by decide : 0 + PROTO_HEAD_SIZE ≤ ONCE_BUFFER_SIZE)
    refine ⟨?_, hkept.state, fun hne => absurd hne hnot, ?_⟩
    · intro recv' hrecv'
      cases hrecv'
      rfl
    · intro _
      refine ⟨fun _ => hdrains.mpr ?_, fun _ => hfresh⟩
      intro recv' hrecv'
      rw [hnone] at hrecv'
      cases hrecv'

/-- What a read brings goes into the buffer held, and the read is no longer
    outstanding. -/
theorem received_fromStart {s s' : recv_session σ} {region : read_region} {bytes : List UInt8}
    (hoff : s.FromStart) (h : s.received region bytes = .ok s') :
    s'.FromStart ∧ s'.reads = s.reads.erase region ∧ s'._state = s._state := by
  unfold received at h
  simp only at h
  obtain ⟨t, ht⟩ : ∃ t, { s with reads := s.reads.erase region }.receive_bytes region bytes = t :=
    ⟨_, rfl⟩
  have hkeep : t.FromStart ∧ t.reads = s.reads.erase region ∧ t._state = s._state := by
    rw [← ht]
    unfold receive_bytes
    split
    · exact ⟨hoff, rfl, rfl⟩
    next recv hrecv =>
    split
    · refine ⟨?_, rfl, rfl⟩
      intro recv' hrecv'
      cases hrecv'
      exact hoff recv hrecv
    · exact ⟨hoff, rfl, rfl⟩
  rw [ht] at h
  unfold add_length at h
  split at h
  · cases h
  next recv hrecv =>
  cases h
  refine ⟨?_, hkeep.2⟩
  intro recv' hrecv'
  cases hrecv'
  exact hkeep.1 recv hrecv

end recv_session

/-! ### Runs -/

namespace recv_run

open recv_session

variable {σ κ : Type} {L : session_logic_interface σ} {pool : Nat → recycled}
  {consumer : κ → σ → σ}

/-- The session whose messages the handler of an event picks. -/
def picking (s : recv_run σ) : recv_event κ → Option (recv_session σ)
  | .read_done region bytes => (s.session.received region bytes).toOption
  | .read_failed region => (s.session.received region []).toOption
  | .timer_handler => some { s.session with timer_elapsed := s.session.timer_elapsed - 1 }
  | _ => none

variable (L pool) in
/-- A handler that finds the session connected and its buffer full can take off the
    first frame. -/
def BufferDrains (s : recv_run σ) (e : recv_event κ) : Prop :=
  ∀ session, s.picking e = some session → session._state = .CONNECTING → session.Drains L pool

/-- What holds in every state in which no read was offered an empty tail. -/
structure SpaceInv (s : recv_run σ) : Prop where
  offered : s.session.Offered
  fromStart : s.session.FromStart
  unconnected : s.connected = false → s.session.reads = [] ∧
    s.session._recv_not_entire = none ∧ s.session._state ≠ .CONNECTING

theorem spaceInv_start (logic : σ) : SpaceInv (start logic) where
  offered := by
    intro region hregion
    cases hregion
  fromStart := by
    intro recv hrecv
    cases hrecv
  unconnected := fun _ => ⟨rfl, rfl, nofun⟩

theorem spaceInv_close {s : recv_run σ} (h : SpaceInv s) (elegantly : Bool) :
    SpaceInv (s.close elegantly) := by
  unfold close
  split
  · exact h
  · exact ⟨h.offered, h.fromStart, h.unconnected⟩

theorem spaceInv_close_body {s : recv_run σ} (h : SpaceInv s) (elegantly : Bool) :
    SpaceInv (s.close_body elegantly) := by
  have hunconnected : ∀ state, state ≠ StateSocket.CONNECTING → s.connected = false →
      s.session.reads = [] ∧ s.session._recv_not_entire = none ∧ state ≠ .CONNECTING := by
    intro state hstate hc
    exact ⟨(h.unconnected hc).1, (h.unconnected hc).2.1, hstate⟩
  unfold close_body
  split
  · exact h
  · simp only
    split
    · split
      · exact ⟨h.offered, h.fromStart, hunconnected _ nofun⟩
      · exact ⟨h.offered, h.fromStart, hunconnected _ nofun⟩
    · exact ⟨h.offered, h.fromStart, h.unconnected⟩

/-- A handler that picks the messages of `session` keeps the invariant exactly if a
    full buffer can be drained. -/
theorem spaceInv_picked {s s' : recv_run σ} {session : recv_session σ}
    (hoff : session.FromStart) (hreads : session.Offered)
    (hunconnected : s.connected = false → session.reads = [] ∧
      session._recv_not_entire = none ∧ session._state ≠ .CONNECTING)
    (h : s.on_session (session.pick_entire_msgs L pool) = some s') :
    (s'.session.Offered ↔ (session._state = .CONNECTING → session.Drains L pool)) ∧
      (s'.session.Offered → SpaceInv s') := by
  unfold on_session at h
  cases hrun : session.pick_entire_msgs L pool with
  | error e =>
    rw [hrun] at h
    cases h
  | ok after =>
    rw [hrun] at h
    cases h
    obtain ⟨hoff', hstate, hidle, hbusy⟩ := offered_pick_entire_msgs hoff hreads hrun
    refine ⟨?_, ?_⟩
    · by_cases hconnecting : session._state = .CONNECTING
      · rw [hbusy hconnecting]
        exact ⟨fun hdrains _ => hdrains, fun hdrains => hdrains hconnecting⟩
      · exact ⟨fun _ hc => absurd hc hconnecting, fun _ => (hidle hconnecting).1⟩
    · intro hoffered
      refine ⟨hoffered, hoff', ?_⟩
      intro hc
      obtain ⟨hnil, hnone, hnot⟩ := hunconnected hc
      obtain ⟨-, hsame, hstill⟩ := hidle hnot
      refine ⟨hsame.trans hnil, hstill hnone, ?_⟩
      rw [hstate]
      exact hnot

theorem on_session_bind {s s' : recv_run σ} {received : Checked (recv_session σ)}
    {pick : recv_session σ → Checked (recv_session σ)}
    (h : s.on_session (received >>= pick) = some s') :
    ∃ session, received = .ok session ∧ s.on_session (pick session) = some s' := by
  unfold on_session at h
  cases hreceived : received with
  | error e =>
    rw [hreceived] at h
    cases h
  | ok session =>
    rw [hreceived] at h
    exact ⟨session, rfl, h⟩

/-- A completed read, with or without an error. -/
theorem spaceInv_read {s s₀ s' : recv_run σ} (h : SpaceInv s) {region : read_region}
    {bytes : List UInt8} (hregion : region ∈ s.session.reads)
    (hconnected : s₀.connected = s.connected)
    (hexec : s₀.on_session (s.session.on_read L pool region bytes) = some s') :
    (s'.session.Offered ↔
      ∀ session, (s.session.received region bytes).toOption = some session →
        session._state = .CONNECTING → session.Drains L pool) ∧
      (s'.session.Offered → SpaceInv s') := by
  obtain ⟨session, hreceived, hpick⟩ := on_session_bind hexec
  obtain ⟨hoff, hreads, hstate⟩ := received_fromStart h.fromStart hreceived
  have hoffered : session.Offered := by
    intro region' hregion'
    rw [hreads] at hregion'
    exact h.offered region' (List.mem_of_mem_erase hregion')
  have hpicked := spaceInv_picked hoff hoffered (by
    intro hc
    -- there are no reads before the session is connected
    rw [(h.unconnected (hconnected.symm.trans hc)).1] at hregion
    cases hregion) hpick
  rw [hreceived]
  refine ⟨hpicked.1.trans ⟨?_, ?_⟩, hpicked.2⟩
  · intro hdrains session' hsession'
    obtain rfl : session = session' := Option.some.inj hsession'
    exact hdrains
  · intro hdrains
    exact hdrains session rfl

/-- **One event**: the reads are still offered some space afterwards exactly if a
    full buffer can be drained. -/
theorem spaceInv_exec {s s' : recv_run σ} (h : SpaceInv s) (e : recv_event κ)
    (hexec : exec L pool consumer s e = some s') :
    (s'.session.Offered ↔ BufferDrains L pool s e) ∧ (s'.session.Offered → SpaceInv s') := by
  -- an event that picks no messages
  have hquiet : s.picking e = none → SpaceInv s' →
      (s'.session.Offered ↔ BufferDrains L pool s e) ∧ (s'.session.Offered → SpaceInv s') := by
    intro hnone hs'
    refine ⟨⟨?_, fun _ => hs'.offered⟩, fun _ => hs'⟩
    intro _ session hsession
    rw [hnone] at hsession
    cases hsession
  cases e with
  | async_connect =>
    apply hquiet rfl
    obtain ⟨-, hexec⟩ := Option.ite_none_right_eq_some.mp hexec
    cases hexec
    refine ⟨h.offered, h.fromStart, ?_⟩
    intro hc
    obtain ⟨hnil, hnone, -⟩ := h.unconnected hc
    exact ⟨hnil, hnone, StateSocket.noConfusion⟩
  | connected =>
    apply hquiet rfl
    obtain ⟨hc, hexec⟩ := Option.ite_none_right_eq_some.mp hexec
    cases hexec
    obtain ⟨hnil, hnone, -⟩ := h.unconnected hc.1
    unfold async_recv_loop
    rw [if_neg (not_not_intro rfl)]
    simp only [hnone, hnil]
    refine ⟨?_, ?_, Bool.noConfusion⟩
    · intro region hregion
      rw [List.mem_singleton.mp hregion]
      exact size_pos_of_roomy rfl (by decide : 0 + PROTO_HEAD_SIZE ≤ ONCE_BUFFER_SIZE)
    · intro recv hrecv
      cases hrecv
      rfl
  | read_done region bytes =>
    obtain ⟨hr, hexec⟩ := Option.ite_none_right_eq_some.mp hexec
    exact spaceInv_read h hr.1 rfl hexec
  | read_failed region =>
    obtain ⟨hr, hexec⟩ := Option.ite_none_right_eq_some.mp hexec
    have hclose : (s.close false).connected = s.connected := by
      unfold close
      split <;> rfl
    exact spaceInv_read h hr hclose hexec
  | timer_elapses =>
    apply hquiet rfl
    obtain ⟨-, hexec⟩ := Option.ite_none_right_eq_some.mp hexec
    cases hexec
    exact ⟨h.offered, h.fromStart, h.unconnected⟩
  | timer_handler =>
    obtain ⟨-, hexec⟩ := Option.ite_none_right_eq_some.mp hexec
    have hoff : FromStart { s.session with timer_elapsed := s.session.timer_elapsed - 1 } :=
      h.fromStart
    have hpicked := spaceInv_picked hoff h.offered h.unconnected hexec
    refine ⟨hpicked.1.trans ?_, hpicked.2⟩
    constructor
    · intro hdrains session hsession
      obtain rfl := Option.some.inj hsession
      exact hdrains
    · intro hdrains
      exact hdrains _ rfl
  | timer_handler_cancelled =>
    apply hquiet rfl
    obtain ⟨-, hexec⟩ := Option.ite_none_right_eq_some.mp hexec
    cases hexec
    apply spaceInv_close
    exact ⟨h.offered, h.fromStart, h.unconnected⟩
  | close elegantly =>
    apply hquiet rfl
    cases hexec
    exact spaceInv_close h elegantly
  | run_posted =>
    apply hquiet rfl
    simp only [exec] at hexec
    split at hexec
    · cases hexec
    · cases hexec
      apply spaceInv_close_body
      exact ⟨h.offered, h.fromStart, h.unconnected⟩
  | consume k =>
    apply hquiet rfl
    cases hexec
    exact ⟨h.offered, h.fromStart, h.unconnected⟩

/-- **No empty tail.** In every run in which the handlers can drain a full buffer,
    every read is offered some space, and the first handler that cannot is the first
    to offer an empty tail. -/
theorem offered_iff {s : recv_run σ}
    (h : ((system L pool consumer).restrict (BufferDrains L pool)).Reachable s) :
    s.session.Offered ∧
      ∀ e s', exec L pool consumer s e = some s' →
        (s'.session.Offered ↔ BufferDrains L pool s e) := by
  have hinv : SpaceInv s := by
    refine System.invariant ?_ ?_ s h
    · rintro s ⟨logic, rfl⟩
      exact spaceInv_start logic
    · rintro s e s' hs ⟨hguard, hexec⟩
      have hstep := spaceInv_exec hs e hexec
      exact hstep.2 (hstep.1.mpr hguard)
  exact ⟨hinv.offered, fun e s' hexec => (spaceInv_exec hinv e hexec).1⟩

/-! ### A frame that is as long as a buffer -/

variable (L pool consumer) in
/-- A session that has just connected is offered a whole buffer. -/
theorem exec_connected (logic : σ) :
    ∃ s recv, exec L pool consumer (start logic) .connected = some s ∧
      s.session._state = .CONNECTING ∧ s.session.passed = [] ∧ s.session.BufferHolds recv [] ∧
      s.session.reads = [read_target recv] ∧ read_target recv = ⟨0, 0, ONCE_BUFFER_SIZE⟩ := by
  obtain ⟨s, hs⟩ : ∃ s, exec L pool consumer (start logic) .connected = some s := ⟨_, rfl⟩
  obtain ⟨recv, hstate, hpassed, hrecv, hreads, hid⟩ : ∃ recv,
      s.session._state = .CONNECTING ∧ s.session.passed = [] ∧ s.session.BufferHolds recv [] ∧
      s.session.reads = [read_target recv] ∧ recv.id = 0 := by
    cases hs
    exact ⟨_, rfl, rfl, ⟨rfl, rfl, rfl, Nat.zero_le _, rfl⟩, rfl, rfl⟩
  refine ⟨s, recv, hs, hstate, hpassed, hrecv, hreads, ?_⟩
  rw [read_target_eq hrecv, hid]
  rfl

/-- A head that announces `len` bytes, and the 65525 bytes that fit behind it. -/
def zeros_frame (len : UInt16) : List UInt8 :=
  (protocol_head.get_a_head FRAME_KEY len 0
    protocol_cmd.Commands_RoutingTransparent.val false 1).bytes ++ List.replicate 65525 0

theorem length_zeros_frame (len : UInt16) : (zeros_frame len).length = ONCE_BUFFER_SIZE := by
  unfold zeros_frame
  rw [List.length_append, protocol_head.length_bytes, List.length_replicate]
  rfl

theorem head_zeros_frame (len : UInt16) :
    protocol_head.unpack_head ((zeros_frame len).take PROTO_HEAD_SIZE) =
      protocol_head.get_a_head FRAME_KEY len 0
        protocol_cmd.Commands_RoutingTransparent.val false 1 := by
  unfold zeros_frame
  rw [List.take_left' (protocol_head.length_bytes _), protocol_head.unpack_head_bytes]

/-- A read that fills the buffer with the longest frame that fits: its handler takes
    the frame off, and the next read is offered some space. -/
theorem offered_iff_zeros_frame :
    ∃ s s' : recv_run (Checked proxy_manager),
      exec (proxy_manager.interface zlib.stored 0) (fun _ _ _ => 0) (fun (_ : Unit) w => w)
        (start (.ok proxy_manager.one_client)) .connected = some s ∧
      exec (proxy_manager.interface zlib.stored 0) (fun _ _ _ => 0) (fun (_ : Unit) w => w) s
        (.read_done ⟨0, 0, ONCE_BUFFER_SIZE⟩ (zeros_frame 65525)) = some s' ∧
      s'.session.passed.length = 1 ∧ s'.session.Offered := by
  have hL := proxy_manager.accepting_interface zlib.stored 0
  obtain ⟨s, recv, hconnected, hstate, hpassed, hrecv, hreads, htarget⟩ :=
    exec_connected (proxy_manager.interface zlib.stored 0) (fun _ _ _ => 0)
      (fun (_ : Unit) w => w) (.ok proxy_manager.one_client)
  have hcut : (protocol_head.format.cut (zeros_frame 65525)).1.length = 1 := by
    unfold zeros_frame
    rw [cut_single (by rw [List.length_replicate, protocol_head.get_a_head_len]; decide)]
    rfl
  have hlistening : s.session.Listening [] := by
    refine ⟨hstate, ⟨recv, ?_, hreads⟩, ?_⟩
    · rw [cut_nil]
      exact hrecv
    · rw [hpassed, cut_nil]
      rfl
  have hfit : (zeros_frame 65525).length ≤ (read_target recv).size := by
    rw [htarget, length_zeros_frame]
  have hne : zeros_frame 65525 ≠ [] := List.ne_nil_of_length_pos (by
    rw [length_zeros_frame]
    decide)
  obtain ⟨s₁, s₂, -, -, -, hread, hlistens⟩ :=
    on_read_spec (fun _ _ _ => 0) hL hlistening _ hreads _ hne hfit
  have hexec : exec (proxy_manager.interface zlib.stored 0) (fun _ _ _ => 0)
      (fun (_ : Unit) w => w) s (.read_done ⟨0, 0, ONCE_BUFFER_SIZE⟩ (zeros_frame 65525)) =
      some { s with session := s₂.async_recv_loop fun _ _ _ => 0 } := by
    rw [← htarget]
    simp only [exec]
    rw [if_pos ⟨hreads ▸ List.mem_singleton.mpr rfl, hfit⟩, hread]
    rfl
  refine ⟨s, _, hconnected, hexec, ?_, ?_⟩
  · show (s₂.async_recv_loop fun _ _ _ => 0).passed.length = 1
    rw [hlistens.passed_eq, List.nil_append, List.length_map, hcut]
  have hguard : s.BufferDrains (proxy_manager.interface zlib.stored 0) (fun _ _ _ => 0)
      (.read_done ⟨0, 0, ONCE_BUFFER_SIZE⟩ (zeros_frame 65525) : recv_event Unit) := by
    intro session hsession _ recv' hrecv' _
    obtain ⟨t, recv₁, hreceived, hfull, -⟩ := received_spec hrecv hfit
    rw [← htarget] at hsession
    simp only [picking, hreceived] at hsession
    obtain rfl := Option.some.inj hsession
    obtain rfl := Option.some.inj (hfull.recv_eq.symm.trans hrecv')
    -- the head at the buffer's start is that of the frame
    have hfirst : first_head recv₁ = protocol_head.get_a_head FRAME_KEY 65525 0
        protocol_cmd.Commands_RoutingTransparent.val false 1 := by
      unfold first_head
      have hhead := hfull.content_eq
      rw [List.nil_append] at hhead
      rw [← take_read _ _ _ _ (show PROTO_HEAD_SIZE ≤ (zeros_frame 65525).length by
        rw [length_zeros_frame]; decide), hhead, head_zeros_frame]
    refine ⟨?_, hL.handle_msg _ _ _ _⟩
    rw [hfirst]
    decide
  have hquiet : (start (.ok proxy_manager.one_client)).BufferDrains
      (proxy_manager.interface zlib.stored 0) (fun _ _ _ => 0)
      (recv_event.connected : recv_event Unit) := by
    intro session hsession
    cases hsession
  exact (offered_iff (.step _ (.step _ (.init ⟨_, rfl⟩) ⟨hquiet, hconnected⟩) ⟨hguard, hexec⟩)).1

/-! ### A frame that is longer than a buffer -/

/-- The buffer is full, its first frame is not complete, and the outstanding read
    was offered the empty tail. -/
structure Wedged (s : recv_session σ) : Prop where
  connecting : s._state = .CONNECTING
  full : ∃ recv bs, s.BufferHolds recv bs ∧ bs.length = ONCE_BUFFER_SIZE ∧
    ¬ protocol_head.format.Complete bs ∧ s.reads = [read_target recv]

variable (L pool) in
/-- Without a complete frame picking only starts the next read. -/
theorem pick_entire_msgs_of_not_complete {s : recv_session σ} {recv : once_buffer_sptr}
    {bs : List UInt8} (h : s.BufferHolds recv bs) (hstate : s._state = .CONNECTING)
    (hnot : ¬ protocol_head.format.Complete bs) :
    ∃ s' recv', s.pick_entire_msgs L pool = .ok s' ∧ s'._state = .CONNECTING ∧
      s'.BufferHolds recv' bs ∧ s'.reads = s.reads ++ [read_target recv'] := by
  obtain ⟨t, ht⟩ : ∃ t, { s with taken := s.taken + 1 } = t := ⟨_, rfl⟩
  have hrecv : t.BufferHolds recv bs := by
    rw [← ht]
    exact h.congr rfl
  have hloop : s.pick_loop L pool = .ok t := by
    unfold pick_loop
    simp only [take_buffer]
    rw [ht]
    have hrounds : t.rounds = bs.length + 1 := by
      simp only [rounds, hrecv.recv_eq, hrecv.length_eq]
    rw [hrounds, pick_while, pick_a_entire_msg_of_not_complete hrecv hnot, ok_bind]
    rfl
  have hconnecting : t._state = .CONNECTING := by
    rw [← ht]
    exact hstate
  have hkeeping : t.Keeping bs := Or.inr ⟨recv, hrecv⟩
  obtain ⟨⟨recv', hrecv', hreads'⟩, hstate', -⟩ := hkeeping.async_recv_loop pool hconnecting
  have hreads : t.reads = s.reads := by
    rw [← ht]
  rw [hreads] at hreads'
  refine ⟨_, recv', ?_, hstate', hrecv', hreads'⟩
  rw [pick_entire_msgs, hloop, ok_bind, pure_eq_ok]

variable (L pool) in
/-- A read that fills the buffer with an incomplete frame. -/
theorem wedged_on_read {s : recv_session σ} {recv : once_buffer_sptr} {bs bytes : List UInt8}
    (hstate : s._state = .CONNECTING) (h : s.BufferHolds recv bs)
    (hreads : s.reads = [read_target recv]) (hfit : bytes.length ≤ (read_target recv).size)
    (hfull : (bs ++ bytes).length = ONCE_BUFFER_SIZE)
    (hnot : ¬ protocol_head.format.Complete (bs ++ bytes)) :
    ∃ s', s.on_read L pool (read_target recv) bytes = .ok s' ∧ Wedged s' := by
  obtain ⟨s₁, recv₁, hreceived, hrecv₁, -, hreads₁, hstate₁⟩ := received_spec h hfit
  obtain ⟨s₂, recv₂, hpick, hstate₂, hrecv₂, hreads₂⟩ :=
    pick_entire_msgs_of_not_complete L pool hrecv₁ (hstate₁.trans hstate) hnot
  rw [hreads₁, hreads, List.erase_cons_head, List.nil_append] at hreads₂
  refine ⟨s₂, ?_, hstate₂, recv₂, bs ++ bytes, hrecv₂, hfull, hnot, hreads₂⟩
  rw [recv_session.on_read, hreceived, ok_bind, hpick]

variable (L pool) in
/-- A read into the empty tail brings nothing, and its handler starts the same read
    again. -/
theorem Wedged.on_read {s : recv_session σ} (h : Wedged s) {region : read_region}
    {bytes : List UInt8} (hregion : region ∈ s.reads) (hfit : bytes.length ≤ region.size) :
    ∃ s', s.on_read L pool region bytes = .ok s' ∧ Wedged s' := by
  obtain ⟨recv, bs, hrecv, hfull, hnot, hreads⟩ := h.full
  rw [hreads] at hregion
  obtain rfl := List.mem_singleton.mp hregion
  have hempty := hfit
  rw [read_target_eq hrecv, hfull] at hempty
  obtain rfl : bytes = [] := List.length_eq_zero_iff.mp (Nat.le_zero.mp hempty)
  refine wedged_on_read L pool h.connecting hrecv hreads hfit ?_ ?_
  · rw [List.append_nil]
    exact hfull
  · rw [List.append_nil]
    exact hnot

/-- **The session spins**: reads alone never leave such a state. -/
theorem wedged_of_reads {s : recv_run σ} (h : Wedged s.session) :
    ∀ t, (((system L pool consumer).restrict fun _ e =>
      ∃ region bytes, e = .read_done region bytes).startingAt s).Reachable t →
      Wedged t.session := by
  refine @System.invariant_startingAt _ _ _ (fun t : recv_run σ => Wedged t.session) s h ?_
  rintro t e t' ht ⟨⟨region, bytes, rfl⟩, hexec⟩
  replace hexec : exec L pool consumer t (.read_done region bytes) = some t' := hexec
  simp only [exec] at hexec
  split at hexec
  · next hr =>
    obtain ⟨after, hread, hwedged⟩ := ht.on_read L pool hr.1 hr.2
    rw [hread] at hexec
    cases hexec
    exact hwedged
  · cases hexec

theorem not_complete_zeros_frame : ¬ protocol_head.format.Complete (zeros_frame 65526) := by
  rintro ⟨-, hsize⟩
  rw [frameSize_eq, length_zeros_frame, head_zeros_frame] at hsize
  exact absurd hsize (by decide)

/-- A session that receives 65536 bytes with a head that announces one byte more than
    fits, whatever its logic. -/
theorem wedged_zeros_frame (L : session_logic_interface σ) (pool : Nat → recycled)
    (consumer : κ → σ → σ) (logic : σ) :
    ∃ s s' : recv_run σ, exec L pool consumer (start logic) .connected = some s ∧
      exec L pool consumer s (.read_done ⟨0, 0, ONCE_BUFFER_SIZE⟩ (zeros_frame 65526)) =
        some s' ∧ Wedged s'.session := by
  obtain ⟨s, recv, hs, hstate, -, hrecv, hreads, htarget⟩ := exec_connected L pool consumer logic
  have hfit : (zeros_frame 65526).length ≤ (read_target recv).size := by
    rw [htarget, length_zeros_frame]
  obtain ⟨after, hread, hwedged⟩ := wedged_on_read L pool hstate hrecv hreads hfit
    (length_zeros_frame 65526) not_complete_zeros_frame
  rw [htarget] at hread
  refine ⟨s, { s with session := after }, hs, ?_, hwedged⟩
  simp only [exec]
  rw [if_pos, hread]
  · rfl
  · rw [hreads, htarget]
    refine ⟨List.mem_singleton.mpr rfl, ?_⟩
    rw [length_zeros_frame]

/-- The read that follows it is offered an empty tail. -/
theorem not_always_offered :
    ¬ ∀ s, (system inner_session_logic.interface (fun _ _ _ => 0)
      fun (_ : Unit) l => l).Reachable s → s.session.Offered := by
  intro hall
  obtain ⟨s, s', hconnected, hread, hwedged⟩ := wedged_zeros_frame (κ := Unit)
    inner_session_logic.interface (fun _ _ _ => 0) (fun _ l => l) (.ok full_storage)
  obtain ⟨recv, bs, hrecv, hfull, -, hreads⟩ := hwedged.full
  have hreach : (system inner_session_logic.interface (fun _ _ _ => 0)
      fun (_ : Unit) l => l).Reachable s' :=
    .step _ (.step _ (.init ⟨_, rfl⟩) hconnected) hread
  have hpos := hall s' hreach (read_target recv) (hreads ▸ List.mem_singleton.mpr rfl)
  rw [read_target_eq hrecv, hfull] at hpos
  exact Nat.lt_irrefl _ (hpos.trans_eq (Nat.sub_self ONCE_BUFFER_SIZE))

end recv_run

end AsioNet
