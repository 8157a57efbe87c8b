import AsioNet.CsNetwork.SocketClient

/-! # Batching messages into frames (`NetworkManager.cs`)

    `Send` remembers a message in a queue whose blocks are used again, and at the
    end of an update `SendAllWhenUpdateEnd` walks over the queue, adds up sizes,
    and hands a frame body to the socket when the next message would not fit any
    more or the queue ends. The message at which it does so is never copied, so
    the bodies are always too short for the messages of the round.
-/

namespace AsioNet.CsNetwork

open Exec Lockstep

/-- What the manager uses: the allocator and `SocketClient.Send`. -/
structure Socket (σ : Type) extends Allocator σ where
  Send : Option block → Int32 → Exec stop σ PUnit

structure NetworkManager where
  _sendWaitQueue : List DataBlock
  _usedQueueIdx : Nat
  /-- The calls of `_socket.Send` so far. -/
  handed : List (Option block × Int32)

namespace NetworkManager

/-- `new NetworkManager()` -/
def make : NetworkManager where
  _sendWaitQueue := []
  _usedQueueIdx := 0
  handed := []

def Send (m : NetworkManager) (data : block) (len : Int32) : NetworkManager :=
  if m._sendWaitQueue.length > m._usedQueueIdx then
    { m with
      _sendWaitQueue := m._sendWaitQueue.set m._usedQueueIdx ⟨some data, len⟩
      _usedQueueIdx := m._usedQueueIdx + 1 }
  else
    { m with
      _sendWaitQueue := m._sendWaitQueue ++ [⟨some data, len⟩]
      _usedQueueIdx := m._usedQueueIdx + 1 }

/-! ### `SendAllWhenUpdateEnd` -/

/-- The manager, its surroundings and the local variable of the loop. -/
structure flushing (σ : Type) where
  manager : NetworkManager
  env : σ
  totalLength : Int32

variable {σ : Type}

/-- `_sendWaitQueue[i]`; an index outside a `List` is a bad argument. -/
def item (queue : List DataBlock) (i : Int32) : Except stop DataBlock :=
  if 0 ≤ i ∧ i.toInt < queue.length then
    .ok (queue.getD i.toNatClampNeg ⟨none, 0⟩)
  else .error .ArgumentException

/-- One round of the loop that copies a message, on `data`. -/
def byte_round (frameDb : DataBlock) (offset : Int32) (j : Nat) :
    Exec stop (Option block) PUnit := do
  let data ← get
  let from_ ← lift (deref frameDb.data)
  let byte ← lift (load from_.cells (Int32.ofNat j))
  let b ← lift (deref data)
  let cells ← lift (store b.cells (offset + Int32.ofNat j) byte)
  set (some { b with cells := cells })

/-- One round of the loop over the messages of a body, on `data` and `offset`. -/
def message_round (queue : List DataBlock) (first : Int32) (k : Nat) :
    Exec stop (Option block × Int32) PUnit := do
  let s ← get
  let frameDb ← lift (item queue (first + Int32.ofNat k))
  zoom (fun s => s.1) (fun data s => (data, s.2))
    (for_loop (byte_round frameDb s.2) frameDb.length.toNatClampNeg 0)
  modify fun s => (s.1, s.2 + frameDb.length)

def on_env {α : Type} (x : Exec stop σ α) : Exec stop (flushing σ) α :=
  zoom (fun s => s.env) (fun env s => { s with env := env }) x

/-- The branch that hands a body to the socket. -/
def flush (S : Socket σ) (i : Nat) : Exec stop (flushing σ) PUnit := do
  let s ← get
  let data ← on_env (S.Alloc s.totalLength)
  let first := Int32.ofNat i - s.totalLength
  let data ← of fun s' =>
    let copied := exec (for_loop (message_round s.manager._sendWaitQueue first)
      s.totalLength.toNatClampNeg 0) (data, 0)
    (copied.1.map fun _ => copied.2.1, s')
  modify fun s' => { s' with
    manager := { s'.manager with handed := s'.manager.handed ++ [(data, s.totalLength)] } }
  on_env (S.Send data s.totalLength)
  on_env (S.Free data)
  modify fun s' => { s' with totalLength := 0 }

/-- One round of the loop over the queue. -/
def queue_round (S : Socket σ) (i : Nat) : Exec stop (flushing σ) PUnit := do
  let s ← get
  let db ← lift (item s.manager._sendWaitQueue (Int32.ofNat i))
  if s.totalLength + 2 + db.length > SocketClient.MAX_FRAME_SIZE ∨
      i + 1 = s.manager._sendWaitQueue.length then
    flush S i
  else
    set { s with totalLength := s.totalLength + 2 + db.length }

def SendAllWhenUpdateEnd (S : Socket σ) : Exec stop (NetworkManager × σ) PUnit :=
  of fun s =>
    let loop := exec (for_loop (queue_round S) s.1._sendWaitQueue.length 0) ⟨s.1, s.2, 0⟩
    (loop.1,
      (match loop.1 with
        | .ok _ => { loop.2.manager with _usedQueueIdx := 0 }
        | .error _ => loop.2.manager, loop.2.env))

/-! ### Rounds of an update -/

/-- A message as `Send` may be given it. -/
structure message where
  data : block
  len : Int32
  len_pos : 0 < len.toInt
  len_le : len.toInt ≤ SocketClient.MAX_FRAME_SIZE.toInt - 2
  len_le_data : len.toNatClampNeg ≤ data.cells.length

/-- The bytes of the message. -/
def message.bytes (msg : message) : List UInt8 := msg.data.cells.take msg.len.toNatClampNeg

theorem message.length_bytes (msg : message) : (msg.bytes.length : Int) = msg.len.toInt := by
  have hpos := msg.len_pos
  rw [message.bytes, List.length_take, Nat.min_eq_left msg.len_le_data, Int32.toNatClampNeg,
    Int.toNat_of_nonneg (by omega)]

/-- The entries of a frame body: a size of two bytes, as `Recv` reads it, then as
    many bytes, again and again. -/
def entries : Nat → List UInt8 → Option (List (List UInt8))
  | _, [] => some []
  | rounds + 1, a :: b :: rest =>
    if (of_host_uint16 a b).toNat ≤ rest.length then
      (entries rounds (rest.drop (of_host_uint16 a b).toNat)).map fun es =>
        rest.take (of_host_uint16 a b).toNat :: es
    else none
  | _, _ => none

/-- The body of a call of `_socket.Send`. -/
def body_of (call : Option block × Int32) : List UInt8 :=
  (call.1.elim [] fun b => b.cells).take call.2.toNatClampNeg

/-- The messages in the bodies handed to the socket; none when a body is too long
    or is not a sequence of entries. -/
def messages_in (calls : List (Option block × Int32)) : Option (List (List UInt8)) :=
  calls.foldr (fun call acc =>
    if (body_of call).length ≤ SocketClient.MAX_FRAME_SIZE.toNatClampNeg then do
      let es ← entries (body_of call).length (body_of call)
      let rest ← acc
      pure (es ++ rest)
    else none) (some [])

/-- The calls of `Send` of a round and the flush at its end: what the socket was
    handed, unless the flush threw. -/
def update (S : Socket σ) (s : NetworkManager × σ) (round : List message) :
    Option (List (List UInt8)) × NetworkManager × σ :=
  let manager := round.foldl (fun m msg => m.Send msg.data msg.len) s.1
  let outcome := exec (SendAllWhenUpdateEnd S) (manager, s.2)
  (outcome.1.toOption.bind fun _ => messages_in (outcome.2.1.handed.drop s.1.handed.length),
    outcome.2)

/-- The manager as a machine whose calls are rounds. -/
def batching (S : Socket σ) :
    Machine (NetworkManager × σ) (List message) (Option (List (List UInt8))) where
  step := update S

/-- Every round hands over its own messages, in order, each once. -/
def keeping : Machine PUnit (List message) (Option (List (List UInt8))) where
  step := fun _ round => (some (round.map message.bytes), .unit)

/-! ### What the bodies can hold -/

/-- The number of bytes handed over. -/
def handed_bytes (calls : List (Option block × Int32)) : Int :=
  (calls.map fun call => (call.2.toNatClampNeg : Int)).sum

/-- The number of bytes that messages take as entries. -/
def entry_bytes (msgs : List (List UInt8)) : Int := (msgs.map fun e => (e.length + 2 : Int)).sum

theorem entry_bytes_append (es es' : List (List UInt8)) :
    entry_bytes (es ++ es') = entry_bytes es + entry_bytes es' := by
  rw [entry_bytes, List.map_append, List.sum_append]
  rfl

/-- Entries cut from a body take all of it. -/
theorem entry_bytes_of_entries {rounds : Nat} {body : List UInt8} {es : List (List UInt8)}
    (h : entries rounds body = some es) : entry_bytes es = body.length := by
  induction rounds, body using entries.induct generalizing es with
  | case1 rounds =>
    rw [entries, Option.some.injEq] at h
    rw [← h]
    rfl
  | case2 rounds a b rest hle ih =>
    rw [entries, if_pos hle, Option.map_eq_some_iff] at h
    obtain ⟨es', hes', rfl⟩ := h
    have htail := ih hes'
    rw [List.length_drop] at htail
    show ((rest.take (of_host_uint16 a b).toNat).length + 2 : Int) + entry_bytes es' = _
    rw [htail, List.length_take, Nat.min_eq_left hle, List.length_cons, List.length_cons]
    omega
  | case3 rounds a b rest hgt =>
    rw [entries, if_neg hgt] at h
    simp at h
  | case4 rounds body hnil hcons =>
    unfold entries at h
    split at h
    · simp at hnil
    · exact absurd rfl (hcons _ _ _ _ rfl)
    · simp at h

/-- What is read in the bodies was handed over. -/
theorem entry_bytes_of_messages_in {calls : List (Option block × Int32)} {es : List (List UInt8)}
    (h : messages_in calls = some es) : entry_bytes es ≤ handed_bytes calls := by
  induction calls generalizing es with
  | nil =>
    rw [messages_in, List.foldr_nil, Option.some.injEq] at h
    rw [← h]
    exact Int.le_refl 0
  | cons call calls ih =>
    rw [messages_in, List.foldr_cons] at h
    split at h
    · obtain ⟨es₁, hes₁, h⟩ := Option.bind_eq_some_iff.mp h
      obtain ⟨es₂, hes₂, h⟩ := Option.bind_eq_some_iff.mp h
      have hes : es = es₁ ++ es₂ := (Option.some.inj h).symm
      have hrest := ih hes₂
      have hbody : (body_of call).length ≤ call.2.toNatClampNeg := List.length_take_le ..
      rw [hes, entry_bytes_append, entry_bytes_of_entries hes₁]
      show ((body_of call).length : Int) + entry_bytes es₂ ≤
        (call.2.toNatClampNeg : Int) + handed_bytes calls
      omega
    · simp at h

/-! ### What a flush hands over -/

/-- A flush that returns has called the socket once, with the total length. -/
theorem of_flush_ok {S : Socket σ} {i : Nat} {s s' : flushing σ}
    (h : exec (flush S i) s = (.ok .unit, s')) :
    s'.totalLength = 0 ∧ ∃ data, s'.manager =
      { s.manager with handed := s.manager.handed ++ [(data, s.totalLength)] } := by
  unfold flush at h
  rw [exec_get_bind] at h
  obtain ⟨data, s₁, halloc, h⟩ := of_exec_bind_eq_ok h
  obtain ⟨data', s₂, hcopy, h⟩ := of_exec_bind_eq_ok h
  rw [exec_modify_bind] at h
  obtain ⟨_, s₃, hsend, h⟩ := of_exec_bind_eq_ok h
  obtain ⟨_, s₄, hfree, h⟩ := of_exec_bind_eq_ok h
  rw [exec_modify] at h
  -- the surroundings cannot touch the manager
  have h₁ : s₁.manager = s.manager := by rw [← (Prod.mk.inj halloc).2]
  have h₂ : s₂.manager = s₁.manager := by rw [← (Prod.mk.inj hcopy).2]
  have h₃ := congrArg flushing.manager (Prod.mk.inj hsend).2
  have h₄ := congrArg flushing.manager (Prod.mk.inj hfree).2
  have hend := (Prod.mk.inj h).2
  refine ⟨?_, data', ?_⟩
  · rw [← hend]
  · rw [← hend]
    show s₄.manager = _
    rw [← h₄]
    show s₃.manager = _
    rw [← h₃]
    show { s₂.manager with handed := s₂.manager.handed ++ [(data', s.totalLength)] } = _
    rw [h₂, h₁]

/-- The bytes the first `i` messages of the queue take as entries. -/
def queued_bytes (queue : List DataBlock) (i : Nat) : Int :=
  ((queue.take i).map fun db => db.length.toInt + 2).sum

theorem queued_bytes_succ {queue : List DataBlock} {i : Nat} {db : DataBlock}
    (h : queue[i]? = some db) :
    queued_bytes queue (i + 1) = queued_bytes queue i + (db.length.toInt + 2) := by
  rw [queued_bytes, List.take_add_one, h, List.map_append, List.sum_append]
  simp [queued_bytes]

/-- Messages that fit a frame. -/
def Fitting (queue : List DataBlock) : Prop :=
  ∀ db ∈ queue, 0 < db.length.toInt ∧ db.length.toInt ≤ SocketClient.MAX_FRAME_SIZE.toInt - 2

theorem queued_bytes_lt {queue : List DataBlock} (hfit : Fitting queue) (hne : 0 < queue.length) :
    queued_bytes queue (queue.length - 1) < queued_bytes queue queue.length := by
  have hlt : queue.length - 1 < queue.length := by omega
  have hlast := queued_bytes_succ (List.getElem?_eq_getElem hlt)
  rw [Nat.sub_add_cancel hne] at hlast
  have hpos := (hfit queue[queue.length - 1] (List.getElem_mem hlt)).1
  omega

/-- Before round `i`: what was handed over and what is added up are bytes of messages
    before `i`, and never those of the last one. -/
structure Behind (queue : List DataBlock) (before : List (Option block × Int32)) (i : Nat)
    (s : flushing σ) : Prop where
  index_le : i ≤ 2 ^ 31
  queue_eq : s.manager._sendWaitQueue = queue
  total_nonneg : 0 ≤ s.totalLength.toInt
  total_le : s.totalLength.toInt ≤ SocketClient.MAX_FRAME_SIZE.toInt
  handed : ∃ new, s.manager.handed = before ++ new ∧
    handed_bytes new + s.totalLength.toInt ≤ queued_bytes queue (min i (queue.length - 1))

/-- The loop counter is an `int`: the round after the last one it can count throws. -/
theorem lt_of_item_ok {queue : List DataBlock} {i : Nat} (hle : i ≤ 2 ^ 31) {db : DataBlock}
    (h : item queue (Int32.ofNat i) = .ok db) : i < 2 ^ 31 := by
  by_contra hge
  obtain rfl : i = 2 ^ 31 := by omega
  have hneg : ¬(0 : Int32) ≤ Int32.ofNat (2 ^ 31) := by decide
  unfold item at h
  rw [if_neg fun hin => hneg hin.1] at h
  simp at h

theorem item_of_lt {queue : List DataBlock} {i : Nat} (hi : i < queue.length) (hint : i < 2 ^ 31) :
    item queue (Int32.ofNat i) = .ok queue[i] := by
  unfold item
  rw [Int32.toInt_ofNat_of_lt hint, if_pos ⟨ofNat_nonneg hint, Int.ofNat_lt.mpr hi⟩,
    toNatClampNeg_ofNat hint, List.getD_eq_getElem?_getD, List.getElem?_eq_getElem hi,
    Option.getD_some]

theorem Behind.queue_round {S : Socket σ} {queue : List DataBlock} (hfit : Fitting queue)
    {before : List (Option block × Int32)} {i : Nat} (hi : i < queue.length) {s s' : flushing σ}
    (h : Behind queue before i s)
    (hrun : exec (NetworkManager.queue_round S i) s = (.ok .unit, s')) :
    Behind queue before (i + 1) s' := by
  obtain ⟨new, hnew, hle⟩ := h.handed
  have hmax : SocketClient.MAX_FRAME_SIZE.toInt = 1449 := by decide
  have hnonneg := h.total_nonneg
  have htotal := h.total_le
  have hget : queue[i]? = some queue[i] := List.getElem?_eq_getElem hi
  have hlength := hfit queue[i] (List.getElem_mem hi)
  have hstep := queued_bytes_succ hget
  have hmono : queued_bytes queue (min i (queue.length - 1)) ≤
      queued_bytes queue (min (i + 1) (queue.length - 1)) := by
    by_cases hlast : i + 1 ≤ queue.length - 1
    · rw [Nat.min_eq_left (by omega), Nat.min_eq_left hlast]
      omega
    · rw [Nat.min_eq_right (by omega), Nat.min_eq_right (by omega)]
  unfold NetworkManager.queue_round at hrun
  rw [exec_get_bind] at hrun
  obtain ⟨db, hdb, hrun⟩ := of_exec_lift_bind_ok hrun
  have hint := lt_of_item_ok h.index_le hdb
  obtain rfl : queue[i] = db := by
    rw [h.queue_eq, item_of_lt hi hint] at hdb
    exact Except.ok.inj hdb
  rw [exec_ite] at hrun
  split at hrun
  · -- the total is handed over, the message itself is left out
    obtain ⟨hzero, data, hmanager⟩ := of_flush_ok hrun
    refine ⟨hint, ?_, ?_, ?_, new ++ [(data, s.totalLength)], ?_, ?_⟩
    · rw [hmanager]
      exact h.queue_eq
    · rw [hzero]
      exact Int.le_refl 0
    · rw [hzero, hmax]
      decide
    · rw [hmanager]
      show s.manager.handed ++ _ = _
      rw [hnew, List.append_assoc]
    · have hsum : handed_bytes (new ++ [(data, s.totalLength)]) =
          handed_bytes new + s.totalLength.toInt := by
        rw [handed_bytes, List.map_append, List.sum_append]
        show handed_bytes new + ((s.totalLength.toNatClampNeg : Int) + 0) = _
        rw [Int32.toNatClampNeg, Int.toNat_of_nonneg hnonneg]
        omega
      have hz : (0 : Int32).toInt = 0 := rfl
      rw [hsum, hzero, hz]
      omega
  · rename_i hbranch
    rw [exec_set] at hrun
    have hsmall : ¬s.totalLength + 2 + queue[i].length > SocketClient.MAX_FRAME_SIZE :=
      fun hbig => hbranch (Or.inl hbig)
    have hnotlast : i + 1 ≠ queue.length := by
      intro heq
      apply hbranch
      right
      rw [h.queue_eq]
      exact heq
    have htwo : (2 : Int32).toInt = 2 := rfl
    have hsum : (s.totalLength + 2 + queue[i].length).toInt =
        s.totalLength.toInt + 2 + queue[i].length.toInt := by
      have hfirst : (s.totalLength + 2).toInt = s.totalLength.toInt + 2 := by
        rw [BlockPool.toInt_add_of_range (by omega) (by omega), htwo]
      rw [BlockPool.toInt_add_of_range (by omega) (by omega), hfirst]
    have hle' : (s.totalLength + 2 + queue[i].length).toInt ≤ SocketClient.MAX_FRAME_SIZE.toInt := by
      rw [← Int32.le_iff_toInt_le]
      exact Int32.not_lt.mp hsmall
    rw [← (Prod.mk.inj hrun).2]
    refine ⟨hint, h.queue_eq, ?_, hle', new, hnew, ?_⟩
    · show 0 ≤ (s.totalLength + 2 + queue[i].length).toInt
      omega
    · show handed_bytes new + (s.totalLength + 2 + queue[i].length).toInt ≤ _
      rw [Nat.min_eq_left (by omega)] at hle
      rw [Nat.min_eq_left (by omega), hstep, hsum]
      omega

/-- **A flush that returns has handed over less than the last message's entry
    would complete.** -/
theorem of_SendAllWhenUpdateEnd_ok {S : Socket σ} {s s' : NetworkManager × σ}
    (hfit : Fitting s.1._sendWaitQueue)
    (h : exec (SendAllWhenUpdateEnd S) s = (.ok .unit, s')) :
    ∃ new, s'.1.handed = s.1.handed ++ new ∧
      handed_bytes new ≤ queued_bytes s.1._sendWaitQueue (s.1._sendWaitQueue.length - 1) := by
  unfold SendAllWhenUpdateEnd at h
  rw [exec_of] at h
  rcases hloop : exec (for_loop (queue_round S) s.1._sendWaitQueue.length 0) ⟨s.1, s.2, 0⟩ with
    ⟨_ | _, st⟩
  · rw [hloop] at h
    simp at h
  · rw [hloop] at h
    have hstart : Behind s.1._sendWaitQueue s.1.handed 0 ⟨s.1, s.2, 0⟩ := by
      have hzero : (0 : Int32).toInt ≤ SocketClient.MAX_FRAME_SIZE.toInt := by decide
      refine ⟨by omega, rfl, Int.le_refl 0, hzero, [], (List.append_nil _).symm, ?_⟩
      rw [Nat.zero_min]
      exact Int.le_refl 0
    have hend := of_for_loop_ok (Behind s.1._sendWaitQueue s.1.handed)
      (fun i _ _ hi hinv hround => hinv.queue_round hfit hi hround)
      (Nat.zero_add _) hloop hstart
    obtain ⟨new, hnew, hle⟩ := hend.handed
    have hnonneg := hend.total_nonneg
    rw [Nat.min_eq_right (Nat.sub_le _ _)] at hle
    refine ⟨new, ?_, by omega⟩
    rw [← (Prod.mk.inj h).2]
    exact hnew

/-! ### Which rounds keep their messages -/

/-- The block `Send` stores. -/
def message.db (msg : message) : DataBlock := ⟨some msg.data, msg.len⟩

/-- In a manager whose queue is used up, the messages of a round come to stand behind
    what is queued. -/
theorem foldl_Send (round : List message) (m : NetworkManager)
    (h : m._usedQueueIdx = m._sendWaitQueue.length) :
    round.foldl (fun m msg => m.Send msg.data msg.len) m =
      { m with
        _sendWaitQueue := m._sendWaitQueue ++ round.map message.db
        _usedQueueIdx := m._usedQueueIdx + round.length } := by
  induction round generalizing m with
  | nil => simp
  | cons msg round ih =>
    have hsend : m.Send msg.data msg.len =
        { m with
          _sendWaitQueue := m._sendWaitQueue ++ [msg.db]
          _usedQueueIdx := m._usedQueueIdx + 1 } := by
      unfold Send
      rw [if_neg (by omega)]
      rfl
    rw [List.foldl_cons, hsend, ih _ (by simp [h])]
    simp [Nat.add_assoc, Nat.add_comm 1]

theorem entry_bytes_map (round : List message) :
    entry_bytes (round.map message.bytes) = queued_bytes (round.map message.db) round.length := by
  rw [queued_bytes, List.take_of_length_le (by simp), entry_bytes, List.map_map, List.map_map]
  congr 1
  apply List.map_congr_left
  intro msg _
  show (msg.bytes.length + 2 : Int) = msg.len.toInt + 2
  rw [msg.length_bytes]

/-- A round with a message is not kept. -/
theorem update_ne (S : Socket σ) (env : σ) {round : List message} (h : round ≠ []) :
    (update S (make, env) round).1 ≠ some (round.map message.bytes) := by
  intro hkept
  have hqueue := foldl_Send round make rfl
  obtain ⟨u, hreturned, hmessages⟩ := Option.bind_eq_some_iff.mp hkept
  rw [hqueue] at hreturned hmessages
  set m : NetworkManager := { make with
    _sendWaitQueue := make._sendWaitQueue ++ round.map message.db
    _usedQueueIdx := make._usedQueueIdx + round.length } with hm
  have hfit : Fitting m._sendWaitQueue := by
    intro db hdb
    obtain ⟨msg, -, rfl⟩ := List.mem_map.mp hdb
    exact ⟨msg.len_pos, msg.len_le⟩
  rcases hrun : exec (SendAllWhenUpdateEnd S) (m, env) with ⟨_ | _, s'⟩
  · rw [hrun] at hreturned
    simp [Except.toOption] at hreturned
  · rw [hrun] at hmessages
    obtain ⟨new, hnew, hle⟩ := of_SendAllWhenUpdateEnd_ok hfit hrun
    have hread := entry_bytes_of_messages_in hmessages
    rw [entry_bytes_map] at hread
    have hdrop : s'.1.handed.drop make.handed.length = new := by
      rw [hnew]
      rfl
    rw [hdrop] at hread
    -- the last message's entry is what is missing
    have hlength : m._sendWaitQueue.length = round.length := List.length_map _
    have hpos : 0 < round.length := List.length_pos_iff.mpr h
    have hmissing := queued_bytes_lt hfit (by omega)
    rw [hlength] at hmissing
    have hfew : handed_bytes new ≤ queued_bytes m._sendWaitQueue (m._sendWaitQueue.length - 1) := hle
    rw [hlength] at hfew
    have hsame : queued_bytes (round.map message.db) round.length =
        queued_bytes m._sendWaitQueue round.length := rfl
    omega

/-- **The batching keeps the messages exactly of the histories in which nothing is
    ever sent.** -/
theorem keeps_messages_iff (S : Socket σ) (env : σ) (rounds : List (List message)) :
    (batching S).Agrees keeping (make, env) .unit rounds ↔ ∀ round ∈ rounds, round = [] := by
  have halong : keeping.Along (fun _ round => round = []) .unit rounds ↔
      ∀ round ∈ rounds, round = [] := by
    apply Machine.along_iff_forall
    intro round _
    rfl
  rw [← halong]
  apply Machine.agrees_iff_along fun s _ => s.1 = make
  · rintro ⟨m, env⟩ _ round rfl
    constructor
    · intro hkept
      by_contra hne
      exact update_ne S env hne hkept
    · rintro rfl
      rfl
  · rintro ⟨m, env⟩ _ _ rfl rfl
    rfl
  · rfl

/-- One message of one byte. -/
def one_byte : message where
  data := ⟨0, [0x61]⟩
  len := 1
  len_pos := by decide
  len_le := by decide
  len_le_data := by decide

/-- A socket that takes everything. -/
def Socket.willing : Socket Nat where
  toAllocator := Allocator.new_arrays
  Send _ _ := pure .unit

/-- Its frame body is empty. -/
theorem one_byte_lost :
    (update Socket.willing (make, 0) [one_byte]).1 = some [] ∧
      ¬(batching Socket.willing).Agrees keeping (make, 0) .unit [[one_byte]] := by
  constructor
  · decide
  · rintro ⟨hkept, -⟩
    exact absurd hkept (by decide)

end NetworkManager

end AsioNet.CsNetwork
