import AsioNet.Framing

/-! # The synchronous receive loop (`buffer_read.hpp`)

    `sync_read_from_socket` cuts frames off its buffer while the buffer holds more
    than a head, `pick_a_entire_msg` as soon as it holds one. The two differ on
    frames without a body: the synchronous loop keeps such a frame back until
    something follows it. `Format.cutWaiting` is the cut it makes
    (`read_while_spec`), and `same_bodies_iff` says when nobody can tell.
-/

namespace AsioNet

open ByteMemory LengthPrefixed LengthPrefixed.Format reusabel_buffer

/-- The offset and the buffer of `sync_read_from_socket`, and the bodies it has given
    to its callback. -/
structure sync_reader where
  _read_offset : Nat
  /-- Used as raw bytes. -/
  _recv_buffer : once_buffer
  handed : List (List UInt8)

namespace sync_reader

/-- Nothing is read yet into a buffer that holds anything. -/
def initial (stale : Nat → UInt8) : sync_reader where
  _read_offset := 0
  _recv_buffer := TEMP_BUFFER stale
  handed := []

/-- The loop `while (_read_offset > PROTO_HEAD_SIZE)`. -/
def read_while : Nat → sync_reader → Checked sync_reader
  | 0, _ => throw .diverges
  | fuel + 1, r => do
    if r._read_offset > PROTO_HEAD_SIZE then
      let head_block ← r._recv_buffer.load 0 PROTO_HEAD_SIZE
      let head := protocol_head.unpack_head head_block
      if head.len.toNat > r._read_offset - PROTO_HEAD_SIZE then
        -- things left in net link
        pure r
      else
        let body ← r._recv_buffer.load PROTO_HEAD_SIZE head.len.toNat
        let unpack_left := r._read_offset - (head.len.toNat + PROTO_HEAD_SIZE)
        let rest ← r._recv_buffer.load (head.len.toNat + PROTO_HEAD_SIZE) unpack_left
        let _recv_buffer ← r._recv_buffer.store 0 rest
        read_while fuel {
          _read_offset := unpack_left
          _recv_buffer := _recv_buffer
          handed := r.handed ++ [body] }
    else
      pure r

/-- What `read_some` stores in the free tail of the buffer is `bytes`; nothing is
    available if there are none. -/
def sync_read_from_socket (r : sync_reader) (bytes : List UInt8) : Checked sync_reader := do
  if bytes = [] then pure r
  else
    let _recv_buffer ← r._recv_buffer.store r._read_offset bytes
    let r := { r with
      _recv_buffer := _recv_buffer, _read_offset := r._read_offset + bytes.length }
    -- a round takes at least a head off the buffer
    read_while (r._read_offset + 1) r

/-! ### What the loop cuts off -/

/-- The reader holds the bytes `bs`. -/
structure Holds (r : sync_reader) (bs : List UInt8) : Prop where
  offset_eq : r._read_offset = bs.length
  length_le : bs.length ≤ ONCE_BUFFER_SIZE
  content_eq : read r._recv_buffer._buffer 0 bs.length = bs

theorem Holds.head_eq {r : sync_reader} {bs : List UInt8} (h : r.Holds bs)
    (hlen : PROTO_HEAD_SIZE ≤ bs.length) :
    r._recv_buffer.load 0 PROTO_HEAD_SIZE = .ok (bs.take PROTO_HEAD_SIZE) := by
  rw [load_of_le _ (by have := h.length_le; omega), ← take_read _ _ _ _ hlen, h.content_eq]

/-- The loop stops where the waiting cut stops. -/
theorem read_while_of_stop {r : sync_reader} {bs : List UInt8} (h : r.Holds bs)
    (hstop : ¬ (protocol_head.format.headSize < bs.length ∧ protocol_head.format.Complete bs))
    (fuel : Nat) : read_while (fuel + 1) r = .ok r := by
  rw [read_while, h.offset_eq]
  by_cases hlen : bs.length > PROTO_HEAD_SIZE
  · rw [if_pos hlen, h.head_eq (Nat.le_of_lt hlen), ok_bind]
    -- the head is there, so the body is not
    have hsize : bs.length < protocol_head.format.frameSize bs := by
      by_contra hge
      exact hstop ⟨hlen, Nat.le_of_lt hlen, Nat.not_lt.mp hge⟩
    rw [recv_session.frameSize_eq] at hsize
    simp only
    rw [if_pos (by omega), pure_eq_ok]
  · rw [if_neg hlen, pure_eq_ok]

/-- A complete frame with something behind its head is handed over and taken off. -/
theorem read_while_of_complete {r : sync_reader} {bs : List UInt8} (h : r.Holds bs)
    (hlen : protocol_head.format.headSize < bs.length)
    (hc : protocol_head.format.Complete bs) (fuel : Nat) :
    ∃ r', read_while (fuel + 1) r = read_while fuel r' ∧
      r'.Holds (bs.drop (protocol_head.format.frameSize bs)) ∧
      r'.handed = r.handed ++ [(protocol_head.format.firstFrame bs).2] := by
  obtain ⟨hoff, hle, hcontent⟩ := h
  have hframe := recv_session.startsWithFrame hcontent hc
  have hbody : (unpack_frame (protocol_head.format.firstFrame bs)).2 =
      (protocol_head.format.firstFrame bs).2 := rfl
  rw [hbody] at hframe
  generalize (unpack_frame (protocol_head.format.firstFrame bs)).1 = head at hframe
  generalize (protocol_head.format.firstFrame bs).2 = body at hframe
  have hhead : protocol_head.format.headSize = PROTO_HEAD_SIZE := rfl
  have hsize := hframe.size_le
  rw [hframe.frameSize]
  rw [hhead] at hlen
  -- what moves to the front
  have hrest_len : (bs.drop (PROTO_HEAD_SIZE + head.len.toNat)).length =
      bs.length - (PROTO_HEAD_SIZE + head.len.toNat) := List.length_drop
  refine ⟨⟨bs.length - (PROTO_HEAD_SIZE + head.len.toNat),
    { r._recv_buffer with
      _buffer := write r._recv_buffer._buffer 0 (bs.drop (PROTO_HEAD_SIZE + head.len.toNat)) },
    r.handed ++ [body]⟩, ?_, ⟨?_, ?_, ?_⟩, rfl⟩
  · rw [read_while, hoff, if_pos hlen, load_of_le _ (by omega), ok_bind]
    simp only [hframe.head_eq]
    rw [if_neg (by omega), load_of_le _ (by omega), ok_bind, hframe.body_eq,
      Nat.add_comm head.len.toNat, load_of_le _ (by omega), ok_bind, hframe.rest_eq,
      store_of_le _ (by rw [hrest_len]; omega), ok_bind]
  · exact hrest_len.symm
  · rw [hrest_len]
    omega
  · exact read_write r._recv_buffer._buffer 0 _

/-- **The loop** hands over the bodies of the frames it cuts off and keeps the rest. -/
theorem read_while_spec {fuel : Nat} {r : sync_reader} {bs : List UInt8} (h : r.Holds bs)
    (hfuel : bs.length < fuel) :
    ∃ r', read_while fuel r = .ok r' ∧ r'.Holds (protocol_head.format.cutWaiting bs).2 ∧
      r'.handed = r.handed ++ (protocol_head.format.cutWaiting bs).1.map Prod.snd := by
  -- on the rounds; what is held gets shorter by a frame in each
  induction fuel generalizing r bs with
  | zero => omega
  | succ fuel ih =>
    by_cases hgo : protocol_head.format.headSize < bs.length ∧ protocol_head.format.Complete bs
    · obtain ⟨r₁, hround, hholds₁, hhanded₁⟩ := read_while_of_complete h hgo.1 hgo.2 fuel
      have hpos : 0 < protocol_head.format.frameSize bs := by
        rw [recv_session.frameSize_eq]
        exact Nat.add_pos_left (by decide) _
      have hshorter : (bs.drop (protocol_head.format.frameSize bs)).length < fuel := by
        have hlen := hgo.1
        rw [List.length_drop]
        omega
      obtain ⟨r₂, hloop, hholds₂, hhanded₂⟩ := ih hholds₁ hshorter
      rw [hround, cutWaiting_of_complete hgo.1 hgo.2]
      refine ⟨r₂, hloop, hholds₂, ?_⟩
      rw [hhanded₂, hhanded₁, List.map_cons, List.append_assoc]
      rfl
    · rw [cutWaiting_of_not hgo]
      refine ⟨r, read_while_of_stop h hgo fuel, h, ?_⟩
      rw [List.map_nil, List.append_nil]

/-! ### Reads -/

/-- The reader has received the stream `bs`. -/
structure Received (r : sync_reader) (bs : List UInt8) : Prop where
  holds : r.Holds (protocol_head.format.cutWaiting bs).2
  handed_eq : r.handed = (protocol_head.format.cutWaiting bs).1.map Prod.snd

theorem received_initial (stale : Nat → UInt8) : (initial stale).Received [] := by
  have hcut : protocol_head.format.cutWaiting [] = ([], []) :=
    cutWaiting_of_not fun h => absurd h.1 (Nat.not_lt_zero _)
  constructor
  · rw [hcut]
    exact ⟨rfl, Nat.zero_le _, rfl⟩
  · rw [hcut]
    rfl

/-- **One read** that fits the free tail of the buffer continues the cut. -/
theorem sync_read_from_socket_spec {r : sync_reader} {bs bytes : List UInt8}
    (h : r.Received bs) (hne : bytes ≠ [])
    (hfit : bytes.length ≤ ONCE_BUFFER_SIZE - r._read_offset) :
    ∃ r', r.sync_read_from_socket bytes = .ok r' ∧ r'.Received (bs ++ bytes) := by
  obtain ⟨⟨hoff, hle, hcontent⟩, hhanded⟩ := h
  have hcut := cutWaiting_append (F := protocol_head.format) bs bytes
  generalize hrest : (protocol_head.format.cutWaiting bs).2 = rest at hoff hle hcontent hcut
  have hstored : Holds { r with
      _recv_buffer := { r._recv_buffer with
        _buffer := write r._recv_buffer._buffer r._read_offset bytes }
      _read_offset := r._read_offset + bytes.length } (rest ++ bytes) := by
    refine ⟨?_, ?_, ?_⟩
    · rw [List.length_append, hoff]
    · rw [List.length_append]
      omega
    · -- the read lands right behind what is held
      have hread := read_append hcontent bytes
      rw [Nat.zero_add, ← hoff] at hread
      exact hread
  have hfuel : (rest ++ bytes).length < r._read_offset + bytes.length + 1 := by
    rw [List.length_append, hoff]
    exact Nat.lt_succ_self _
  obtain ⟨r', hloop, hholds, hhanded'⟩ := read_while_spec hstored hfuel
  refine ⟨r', ?_, ?_, ?_⟩
  · rw [sync_read_from_socket, if_neg hne, store_of_le _ (by omega), ok_bind]
    exact hloop
  · rw [hcut]
    exact hholds
  · rw [hhanded', hcut, List.map_append, ← hhanded]

end sync_reader

/-! ### Both loops on the same reads -/

namespace recv_session

variable {σ : Type} (L : session_logic_interface σ) (pool : Nat → recycled)

/-- Both loops have received `reads`, none of them empty, each fitting the regions that
    were offered for it. -/
inductive BothReceive (logic : σ) (stale : Nat → UInt8) :
    List (List UInt8) → sync_reader → recv_session σ → Prop where
  | connected : BothReceive logic stale [] (sync_reader.initial stale)
      ((initial .CONNECTING logic).async_recv_loop pool)
  | read {reads : List (List UInt8)} {r r' : sync_reader} {s s' : recv_session σ}
      {region : read_region} {bytes : List UInt8} :
      BothReceive logic stale reads r s → s.reads = [region] → bytes ≠ [] →
      bytes.length ≤ region.size → bytes.length ≤ ONCE_BUFFER_SIZE - r._read_offset →
      r.sync_read_from_socket bytes = .ok r' → s.on_read L pool region bytes = .ok s' →
      BothReceive logic stale (reads ++ [bytes]) r' s'

/-- After each of the reads both loops have handed over the same bodies. -/
def SameBodies (logic : σ) (stale : Nat → UInt8) (reads : List (List UInt8)) : Prop :=
  ∀ before, before <+: reads → ∀ r s, BothReceive L pool logic stale before r s →
    r.handed = s.passed.map Prod.snd

variable {L pool} {logic : σ} {stale : Nat → UInt8} {reads : List (List UInt8)}
  {r : sync_reader} {s : recv_session σ}

theorem BothReceive.delivers (h : BothReceive L pool logic stale reads r s) :
    Delivers L pool logic s reads.flatten := by
  induction h with
  | connected => exact .connected
  | read _ hregion hne hfit _ _ hread ih =>
    rw [List.flatten_append, List.flatten_singleton]
    exact ih.read hregion hne hfit hread

theorem BothReceive.received (h : BothReceive L pool logic stale reads r s) :
    r.Received reads.flatten := by
  induction h with
  | connected => exact sync_reader.received_initial stale
  | read _ _ hne _ hfit hsync _ ih =>
    obtain ⟨r'', hsync', hreceived⟩ := sync_reader.sync_read_from_socket_spec ih hne hfit
    rw [hsync'] at hsync
    obtain rfl := Except.ok.inj hsync
    rw [List.flatten_append, List.flatten_singleton]
    exact hreceived

/-- What received the reads has received the first of them. -/
theorem BothReceive.of_prefix (h : BothReceive L pool logic stale reads r s)
    {before : List (List UInt8)} (hbefore : before <+: reads) :
    ∃ r₁ s₁, BothReceive L pool logic stale before r₁ s₁ := by
  induction h with
  | connected =>
    obtain rfl := List.prefix_nil.mp hbefore
    exact ⟨_, _, .connected⟩
  | read hrun hregion hne hfit hfit' hsync hread ih =>
    rcases List.prefix_concat_iff.mp hbefore with rfl | hbefore
    · exact ⟨_, _, hrun.read hregion hne hfit hfit' hsync hread⟩
    · exact ih hbefore

/-- A read that fits both regions runs through in both loops. -/
theorem BothReceive.next (hL : L.Accepting) (h : BothReceive L pool logic stale reads r s)
    {region : read_region} {bytes : List UInt8} (hregion : s.reads = [region])
    (hne : bytes ≠ []) (hfit : bytes.length ≤ region.size)
    (hfit' : bytes.length ≤ ONCE_BUFFER_SIZE - r._read_offset) :
    ∃ r' s', BothReceive L pool logic stale (reads ++ [bytes]) r' s' := by
  obtain ⟨r', hsync, -⟩ := sync_reader.sync_read_from_socket_spec h.received hne hfit'
  obtain ⟨s₁, s₂, -, -, -, hread, -⟩ :=
    on_read_spec pool hL (h.delivers.listening hL) region hregion bytes hne hfit
  exact ⟨r', _, h.read hregion hne hfit hfit' hsync hread⟩

/-- **After one read**, the bodies are the same unless it ended behind a bare head. -/
theorem BothReceive.bodies_iff (hL : L.Accepting)
    (h : BothReceive L pool logic stale reads r s) :
    r.handed = s.passed.map Prod.snd ↔ ¬ protocol_head.format.EndsBare reads.flatten := by
  rw [h.received.handed_eq, (h.delivers.listening hL).passed_eq, List.map_map]
  show List.map Prod.snd _ = List.map Prod.snd _ ↔ _
  rcases cutWaiting_cases (F := protocol_head.format) reads.flatten with
    ⟨hnot, hcut⟩ | ⟨hyes, f, hcut, -⟩
  · rw [hcut]
    exact iff_of_true rfl hnot
  · -- one frame is late
    refine iff_of_false ?_ (not_not_intro hyes)
    intro hsame
    have hlen := congrArg List.length hsame
    rw [hcut, List.length_map, List.length_map, List.length_append] at hlen
    exact Nat.ne_of_lt (Nat.lt_succ_self _) hlen

/-- **Both loops, exactly.** They hand over the same bodies after each read if and only
    if no read ends right behind a frame without a body. The next read runs through in
    both, and there is room for one as long as no head announces too much. -/
theorem same_bodies_iff (hL : L.Accepting) (h : BothReceive L pool logic stale reads r s) :
    (SameBodies L pool logic stale reads ↔
      ∀ before, before <+: reads → ¬ protocol_head.format.EndsBare before.flatten) ∧
    (∀ region bytes, s.reads = [region] → bytes ≠ [] → bytes.length ≤ region.size →
      bytes.length ≤ ONCE_BUFFER_SIZE - r._read_offset →
      ∃ r' s', BothReceive L pool logic stale (reads ++ [bytes]) r' s') ∧
    (protocol_head.format.Bounded 65525 reads.flatten →
      (∃ region, s.reads = [region] ∧ 0 < region.size) ∧
      0 < ONCE_BUFFER_SIZE - r._read_offset) := by
  refine ⟨?_, ?_, ?_⟩
  · constructor
    · intro hsame before hbefore
      obtain ⟨r₁, s₁, h₁⟩ := h.of_prefix hbefore
      exact (h₁.bodies_iff hL).mp (hsame before hbefore r₁ s₁ h₁)
    · intro hbare before hbefore r₁ s₁ h₁
      exact (h₁.bodies_iff hL).mpr (hbare before hbefore)
  · intro region bytes hregion hne hfit hfit'
    exact h.next hL hregion hne hfit hfit'
  · intro hbounded
    obtain ⟨-, ⟨recv, -, hreads, hroom⟩, -⟩ := frames_of_delivers hL h.delivers hbounded
    refine ⟨⟨_, hreads, hroom⟩, ?_⟩
    have hwaiting := hbounded.length_waiting (by decide)
    have hhead : protocol_head.format.headSize = PROTO_HEAD_SIZE := rfl
    rw [h.received.holds.offset_eq]
    simp only [hhead, PROTO_HEAD_SIZE, ONCE_BUFFER_SIZE] at hwaiting ⊢
    omega

/-- The first read runs through in both loops. -/
theorem bothReceive_first (hL : L.Accepting) (bytes : List UInt8) (hne : bytes ≠ [])
    (hfit : bytes.length ≤ ONCE_BUFFER_SIZE) :
    ∃ r s, BothReceive L pool logic stale [bytes] r s := by
  have h₀ : BothReceive L pool logic stale [] (sync_reader.initial stale) _ := .connected
  obtain ⟨recv, hrecv, hreads⟩ := (h₀.delivers.listening hL).holds
  have hsize : (read_target recv).size = ONCE_BUFFER_SIZE := by
    rw [read_target_eq hrecv, List.flatten_nil, cut_nil]
    rfl
  exact h₀.next hL hreads hne (by rw [hsize]; exact hfit) hfit

/-- A keep-alive with something behind it is handed over by both. -/
theorem same_bodies_keep_alive :
    ∃ r s, BothReceive (proxy_manager.interface zlib.stored 0) (fun _ _ _ => 0)
        (.ok proxy_manager.one_client) (fun _ => 0) [keep_alive_head.bytes ++ [0]] r s ∧
      SameBodies (proxy_manager.interface zlib.stored 0) (fun _ _ _ => 0)
        (.ok proxy_manager.one_client) (fun _ => 0) [keep_alive_head.bytes ++ [0]] := by
  have hL := proxy_manager.accepting_interface zlib.stored 0
  obtain ⟨r, s, h⟩ := bothReceive_first hL (keep_alive_head.bytes ++ [0]) (by decide)
    (by decide)
  refine ⟨r, s, h, (same_bodies_iff hL h).1.mpr ?_⟩
  intro before hbefore hends
  have hcut : (protocol_head.format.cut before.flatten).2 ≠ [] ∨
      (protocol_head.format.cut before.flatten).1 = [] := by
    have hone : before <+: [] ++ [keep_alive_head.bytes ++ [0]] := hbefore
    rcases List.prefix_concat_iff.mp hone with rfl | hnone
    · left
      have hlast : protocol_head.format.cut [0] = ([], [0]) := cut_of_not_complete (by decide)
      have hframe := cut_cons (F := protocol_head.format) (f := (keep_alive_head.bytes, []))
        ⟨rfl, rfl⟩ [0]
      rw [List.append_nil] at hframe
      rw [List.nil_append, List.flatten_singleton, hframe, hlast]
      exact List.cons_ne_nil _ _
    · right
      rw [List.prefix_nil.mp hnone, List.flatten_nil, cut_nil]
  obtain ⟨hrest, frames, f, hframes, -⟩ := hends
  rcases hcut with hne | hnil
  · exact hne hrest
  · rw [hnil] at hframes
    exact List.cons_ne_nil _ _ (List.append_eq_nil_iff.mp hframes.symm).2

/-- A keep-alive alone is kept back by the synchronous loop. -/
theorem not_always_same_bodies :
    ¬ ∀ reads, SameBodies (proxy_manager.interface zlib.stored 0) (fun _ _ _ => 0)
      (.ok proxy_manager.one_client) (fun _ => 0) reads := by
  intro hall
  have hL := proxy_manager.accepting_interface zlib.stored 0
  obtain ⟨r, s, h⟩ := bothReceive_first hL keep_alive_head.bytes (by decide) (by decide)
  have hsame := hall _ _ (List.prefix_refl _) r s h
  refine (h.bodies_iff hL).mp hsame ?_
  have hframe := @cut_single keep_alive_head [] rfl
  rw [List.append_nil] at hframe
  rw [List.flatten_singleton, EndsBare, hframe]
  exact ⟨rfl, [], _, rfl, rfl⟩

end recv_session

end AsioNet
