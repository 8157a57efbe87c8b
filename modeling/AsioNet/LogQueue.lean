import AsioNet.LogSteps

/-! # What the log queue loses

    A block is on one of the two lists or in the hands of the call in `m_cs` or of
    the worker, and a message that was pushed is written once, in its turn. A run
    leaves this in three ways only. A `Trace` call that holds a block when it finds
    `m_bStopWorkThread` set returns without giving the block back; a call that has
    read the flag before it was set may push after the worker has ended; and a
    message whose file cannot be opened is dropped. `Keeps` excludes these steps.
-/

namespace AsioNet

open TransitionSystem

namespace log_run

/-- No call of `Trace` is running. -/
def no_Trace (s : log_run) : Prop := s.m_cs = none ∧ ∀ thread, s.waiting thread = none

/-- **What the queue should keep**, with `n` blocks. -/
structure LosesNothing (n : Nat) (s : log_run) : Prop where
  /-- Every block is in exactly one place. -/
  one_place : ∀ b, b < n → s.places b = 1
  /-- What was pushed is written in push order, each message once. -/
  in_order : s.pushed = s.written ++ s.unwritten.map s.log.line
  /-- Nothing is left when the worker has ended, -/
  ended : s.worker = .ended → s.written = s.pushed
  /-- and until then it can write all that was pushed. -/
  finishes : ∃ k s', (List.replicate k (.LogWriteHandler true)).foldlM exec s = some s' ∧
    s'.pushed = s.pushed ∧ s'.written = s.pushed
  /-- In the end all blocks are free. -/
  all_back : s.stop = .returned → s.no_Trace →
    s.log.m_listUsedContent = [] ∧ ∀ b, b < n → s.log.m_listFreeContent.count b = 1

/-- The steps that lose nothing: no call returns with a block, none pushes after the
    worker has ended, and every message has its file. -/
def Keeps (s : log_run) : log_event → Prop
  | .Trace_step _ _ => ∀ call ∈ s.m_cs,
    call.pc.lost = [] ∧ (call.pc.pushes = true → s.worker ≠ .ended)
  | .LogWriteHandler fopens => ∀ ptrContent ∈ s.worker.writing,
    s.log.FileReady (s.log.m_astContent ptrContent) fopens
  | _ => True

instance (s : log_run) : (e : log_event) → Decidable (Keeps s e)
  | .Trace_step _ _ => inferInstanceAs (Decidable (∀ call ∈ s.m_cs,
      call.pc.lost = [] ∧ (call.pc.pushes = true → s.worker ≠ .ended)))
  | .LogWriteHandler fopens => inferInstanceAs (Decidable (∀ ptrContent ∈ s.worker.writing,
      s.log.FileReady (s.log.m_astContent ptrContent) fopens))
  | .AppendLogMask _ | .RemoveLogMask _ | .Trace _ _ _ | .Trace_enter _ | .StopWorkThead
  | .StopWorkThead_join => inferInstanceAs (Decidable True)

/-! ### What holds in every run -/

section

variable {s : log_run} {call : trace_call}

/-- With `n` blocks, whatever the steps. -/
structure QueueInv (n : Nat) (s : log_run) : Prop where
  /-- No block is in two places. -/
  places_le : ∀ b, s.places b ≤ if b < n then 1 else 0
  waiting_types : ∀ t bType, s.waiting t = some bType → bType < ELT_Max
  call_type : ∀ call, s.m_cs = some call → call.bType < ELT_Max
  filled_types : ∀ call, s.m_cs = some call →
    ∀ b, b ∈ call.pc.filled → (s.log.m_astContent b).bType < ELT_Max
  unwritten_types : ∀ b, b ∈ s.unwritten → (s.log.m_astContent b).bType < ELT_Max
  files : s.log.FilesNamed
  joined : s.stop = .returned → s.worker = .ended

variable {n : Nat}

theorem QueueInv.places_le_one (h : QueueInv n s) (b : Nat) : s.places b ≤ 1 := by
  have := h.places_le b
  split at this
  · exact this
  · omega

theorem queueInv_leaves {s' : log_run} (h : QueueInv n s) (hstep : LeavesQueue s s') :
    QueueInv n s' := by
  refine {
    places_le := ?_
    waiting_types := ?_
    call_type := ?_
    filled_types := ?_
    unwritten_types := ?_
    files := ?_
    joined := ?_ }
  · intro b
    rw [hstep.places_eq]
    exact h.places_le b
  · intro t bType ht
    rcases hstep.waiting t bType ht with hold | hvalid
    · exact h.waiting_types t bType hold
    · exact hvalid
  · intro call hcall
    rcases hstep.call call hcall with hold | ⟨_, hwaits⟩
    · exact h.call_type call hold
    · exact h.waiting_types _ _ hwaits
  · intro call hcall b hb
    rw [hstep.log_eq]
    rcases hstep.call call hcall with hold | ⟨halloc, _⟩
    · exact h.filled_types call hold b hb
    · rw [halloc] at hb
      cases hb
  · intro b hb
    rw [hstep.unwritten_eq] at hb
    rw [hstep.log_eq]
    exact h.unwritten_types b hb
  · rw [hstep.log_eq]
    exact h.files
  · intro hreturned
    rw [hstep.worker_eq]
    rcases hstep.returned hreturned with hold | hended
    · exact h.joined hold
    · exact hended

theorem queueInv_step_Trace (h : QueueInv n s) (hcall : s.m_cs = some call) (now : tm)
    (text : List Char) : QueueInv n (s.step_Trace call now text) := by
  have hplaces : ∀ b, (s.step_Trace call now text).places b ≤ if b < n then 1 else 0 := by
    intro b
    have := h.places_le b
    rw [places_step_Trace hcall now text b] at this
    exact Nat.le_trans (Nat.le_add_right _ _) this
  have hvalid := h.call_type call hcall
  -- the call keeps its type
  have hcall_type : ∀ pc c, some { call with pc := pc } = some c → c.bType < ELT_Max := by
    intro pc c hc
    obtain rfl := Option.some.inj hc
    exact hvalid
  have hempty : ∀ pc : trace_pc, pc.filled = [] → ∀ c, some { call with pc := pc } = some c →
      ∀ b, b ∈ c.pc.filled → (s.log.m_astContent b).bType < ELT_Max := by
    intro pc hpc c hc b hb
    obtain rfl := Option.some.inj hc
    have hb : b ∈ pc.filled := hb
    rw [hpc] at hb
    cases hb
  cases hpc : call.pc with
  | alloc =>
    obtain ⟨free, pc, hfilled, hstep⟩ := step_alloc (s := s) hpc now text
    rw [hstep] at hplaces ⊢
    exact { h with
      places_le := hplaces
      call_type := hcall_type _
      filled_types := hempty _ hfilled }
  | fill ptrContent =>
    rw [step_fill hpc] at hplaces ⊢
    have htypes : ∀ b, b = ptrContent ∨ (s.log.m_astContent b).bType < ELT_Max →
        (Function.update s.log.m_astContent ptrContent
          (SLogContent.fill call.bType now text) b).bType < ELT_Max := by
      intro b hb
      by_cases heq : b = ptrContent
      · rw [heq, Function.update_self]
        exact hvalid
      · rw [Function.update_of_ne heq]
        exact hb.resolve_left heq
    refine { h with
      places_le := hplaces
      call_type := hcall_type _
      filled_types := ?_
      unwritten_types := fun b hb => htypes b (Or.inr (h.unwritten_types b hb)) }
    intro c hc b hb
    obtain rfl := Option.some.inj hc
    exact htypes b (Or.inl (List.mem_singleton.mp hb))
  | test ptrContent =>
    rw [step_test hpc] at hplaces ⊢
    refine { h with
      places_le := hplaces
      call_type := hcall_type _
      filled_types := ?_ }
    cases hstop : s.log.m_bStopWorkThread with
    | true => exact hempty _ rfl
    | false =>
      intro c hc b hb
      obtain rfl := Option.some.inj hc
      apply h.filled_types call hcall b
      rw [hpc]
      exact hb
  | push ptrContent =>
    rw [step_push hpc] at hplaces ⊢
    refine { h with
      places_le := hplaces
      call_type := hcall_type _
      filled_types := hempty _ rfl
      unwritten_types := ?_ }
    intro b hb
    rw [unwritten_push, List.mem_append, List.mem_singleton] at hb
    rcases hb with hb | rfl
    · exact h.unwritten_types b hb
    · apply h.filled_types call hcall b
      rw [hpc]
      exact List.mem_singleton_self b
  | leave ptrContent =>
    rw [step_leave hpc] at hplaces ⊢
    refine { h with
      places_le := hplaces
      call_type := ?_
      filled_types := ?_ }
    · intro c hc
      cases hc
    · intro c hc
      cases hc

theorem queueInv_step_LogWriteHandler (h : QueueInv n s) (hrunning : s.worker ≠ .ended)
    (fopens : Bool) : QueueInv n (s.step_LogWriteHandler fopens) := by
  have hplaces : ∀ b, (s.step_LogWriteHandler fopens).places b ≤ if b < n then 1 else 0 := by
    intro b
    rw [places_step_LogWriteHandler]
    exact h.places_le b
  -- the stop waits for the worker
  have hjoining : s.stop ≠ .returned := fun hreturned => hrunning (h.joined hreturned)
  cases hwriting : s.worker.writing with
  | none =>
    obtain ⟨hunwritten, free, used, worker, hstep⟩ := step_not_write hwriting fopens
    have htypes : ∀ b, b ∈ (s.step_LogWriteHandler fopens).unwritten →
        (s.log.m_astContent b).bType < ELT_Max := by
      intro b hb
      rw [hunwritten] at hb
      exact h.unwritten_types b hb
    rw [hstep] at hplaces htypes ⊢
    exact { h with
      places_le := hplaces
      unwritten_types := htypes
      joined := fun hreturned => absurd hreturned hjoining }
  | some ptrContent =>
    have hunwritten := unwritten_of_writing hwriting
    have hmem : ptrContent ∈ s.unwritten := by
      rw [hunwritten]
      exact List.mem_cons_self
    have hused : ∀ b, b ∈ s.log.m_listUsedContent → b ∈ s.unwritten := by
      rw [hunwritten]
      exact fun b hb => List.mem_cons_of_mem _ hb
    have hfiles := h.files.WriteImmediately (h.unwritten_types ptrContent hmem) fopens
    obtain ⟨names, files, overrun, hframe⟩ :=
      s.log.WriteImmediately_frame (s.log.m_astContent ptrContent) fopens
    obtain ⟨final, hworker⟩ := worker_pc.writing_eq_some hwriting
    rw [step_write hworker] at hplaces ⊢
    rw [hframe] at hplaces hfiles ⊢
    exact { h with
      places_le := hplaces
      unwritten_types := fun b hb => h.unwritten_types b (hused b hb)
      files := hfiles
      joined := fun hreturned => absurd hreturned hjoining }

theorem queueInv_exec {s' : log_run} {e : log_event} (h : QueueInv n s)
    (hexec : s.exec e = some s') : QueueInv n s' := by
  rcases exec_cases hexec with ⟨hstep, _⟩ | ⟨now, text, call, rfl, hcall, _, rfl⟩ |
    ⟨fopens, rfl, hrunning, rfl⟩
  · exact queueInv_leaves h hstep
  · exact queueInv_step_Trace h hcall now text
  · exact queueInv_step_LogWriteHandler h hrunning fopens

/-! ### Which steps lose nothing -/

/-- What one step has to keep; the rest of `LosesNothing` follows. -/
structure QueueKept (n : Nat) (s : log_run) : Prop where
  one_place : ∀ b, b < n → s.places b = 1
  in_order : s.InOrder
  drained : s.worker = .ended → s.log.m_listUsedContent = []

theorem queueKept_leaves {s' : log_run} (h : QueueKept n s) (hstep : LeavesQueue s s') :
    QueueKept n s' := by
  refine { one_place := ?_, in_order := ?_, drained := ?_ }
  · intro b hb
    rw [hstep.places_eq]
    exact h.one_place b hb
  · unfold InOrder
    rw [hstep.pushed_eq, hstep.written_eq, hstep.unwritten_eq, hstep.line_eq]
    exact h.in_order
  · rw [hstep.worker_eq, hstep.log_eq]
    exact h.drained

theorem drained_step_Trace (hdrained : s.worker = .ended → s.log.m_listUsedContent = [])
    (hpush : call.pc.pushes = true → s.worker ≠ .ended) (now : tm) (text : List Char)
    (hended : (s.step_Trace call now text).worker = .ended) :
    (s.step_Trace call now text).log.m_listUsedContent = [] := by
  cases hpc : call.pc with
  | alloc =>
    obtain ⟨free, pc, _, hstep⟩ := step_alloc (s := s) hpc now text
    rw [hstep] at hended ⊢
    exact hdrained hended
  | fill ptrContent =>
    rw [step_fill hpc] at hended ⊢
    exact hdrained hended
  | test ptrContent =>
    rw [step_test hpc] at hended ⊢
    exact hdrained hended
  | push ptrContent =>
    rw [step_push hpc] at hended
    rw [hpc] at hpush
    exact absurd hended (hpush rfl)
  | leave ptrContent =>
    rw [step_leave hpc] at hended ⊢
    exact hdrained hended

/-- A step of the call in `m_cs` loses a block that it returns with, or a message
    that it pushes after the worker has ended. -/
theorem queueKept_step_Trace_iff (hinv : QueueInv n s) (h : QueueKept n s)
    (hcall : s.m_cs = some call) (now : tm) (text : List Char) :
    QueueKept n (s.step_Trace call now text) ↔
      call.pc.lost = [] ∧ (call.pc.pushes = true → s.worker ≠ .ended) := by
  have hplaces := places_step_Trace hcall now text
  constructor
  · intro h'
    constructor
    · apply List.eq_nil_iff_forall_not_mem.mpr
      intro b hlost
      have hcount := List.count_pos_iff.mpr hlost
      have hle := hinv.places_le b
      have hmove := hplaces b
      -- the block would have been in two places before
      by_cases hb : b < n
      · rw [h'.one_place b hb, h.one_place b hb] at hmove
        omega
      · rw [if_neg hb] at hle
        omega
    · intro hpush hended
      obtain ⟨b, hpc⟩ := trace_pc.pushes_eq_true hpush
      have hdrained := h'.drained
      rw [step_push hpc] at hdrained
      exact absurd (hdrained hended) (List.append_ne_nil_of_right_ne_nil _ (List.cons_ne_nil b []))
  · intro hkept
    obtain ⟨hlost, hpush⟩ := hkept
    refine {
      one_place := ?_
      in_order := inOrder_step_Trace hinv.places_le_one hcall h.in_order now text
      drained := drained_step_Trace h.drained hpush now text }
    intro b hb
    have hmove := hplaces b
    rw [hlost, List.count_nil, h.one_place b hb] at hmove
    exact hmove.symm

theorem drained_step_LogWriteHandler (hrunning : s.worker ≠ .ended) (fopens : Bool)
    (hended : (s.step_LogWriteHandler fopens).worker = .ended) :
    (s.step_LogWriteHandler fopens).log.m_listUsedContent = [] := by
  cases hpc : s.worker with
  | take final =>
    cases hused : s.log.m_listUsedContent with
    | nil =>
      rw [step_take_nil hpc hused]
      exact hused
    | cons first rest =>
      rw [step_take_cons hpc hused] at hended
      cases hended
  | test =>
    rw [step_worker_test hpc] at hended
    cases hstop : s.log.m_bStopWorkThread with
    | true =>
      rw [hstop] at hended
      cases hended
    | false =>
      rw [hstop] at hended
      cases hended
  | drain =>
    rw [step_drain hpc] at hended
    cases hended
  | write final ptrContent =>
    rw [step_write hpc] at hended
    cases hended
  | release final ptrContent =>
    rw [step_release hpc] at hended
    cases final with
    | true => cases hended
    | false => cases hended
  | ended => exact absurd hpc hrunning

/-- A write keeps the order of the messages, if there is a file to write to. -/
theorem inOrder_step_write_iff (hinv : QueueInv n s) (h : s.InOrder) {ptrContent : Nat}
    (hwriting : s.worker.writing = some ptrContent) (fopens : Bool) :
    (s.step_LogWriteHandler fopens).InOrder ↔
      s.log.FileReady (s.log.m_astContent ptrContent) fopens := by
  have hunwritten := unwritten_of_writing hwriting
  have hvalid : (s.log.m_astContent ptrContent).bType < ELT_Max := by
    apply hinv.unwritten_types
    rw [hunwritten]
    exact List.mem_cons_self
  obtain ⟨final, hworker⟩ := worker_pc.writing_eq_some hwriting
  obtain ⟨names, files, overrun, hframe⟩ :=
    s.log.WriteImmediately_frame (s.log.m_astContent ptrContent) fopens
  unfold InOrder at h
  rw [hunwritten, List.map_cons] at h
  have hiff : (s.step_LogWriteHandler fopens).InOrder ↔
      (s.log.WriteImmediately (s.log.m_astContent ptrContent) fopens).1.toList =
        [s.log.line ptrContent] := by
    unfold InOrder
    rw [step_write hworker, hframe]
    show s.pushed = _ ++ s.log.m_listUsedContent.map s.log.line ↔ _
    rw [h, ← List.singleton_append, List.append_assoc, List.append_right_inj,
      List.append_left_inj]
    exact eq_comm
  rw [hiff, WLog.WriteImmediately_eq hvalid]
  by_cases hready : s.log.FileReady (s.log.m_astContent ptrContent) fopens
  · rw [WLog.open_file_ready hinv.files hready]
    exact ⟨fun _ => hready, fun _ => rfl⟩
  · rw [WLog.open_file_not_ready hready]
    exact ⟨fun hnil => absurd hnil.symm (List.cons_ne_nil _ _), fun hr => absurd hr hready⟩

theorem queueKept_step_LogWriteHandler_iff (hinv : QueueInv n s) (h : QueueKept n s)
    (hrunning : s.worker ≠ .ended) (fopens : Bool) :
    QueueKept n (s.step_LogWriteHandler fopens) ↔ s.Keeps (.LogWriteHandler fopens) := by
  have hplaces : ∀ b, b < n → (s.step_LogWriteHandler fopens).places b = 1 := by
    intro b hb
    rw [places_step_LogWriteHandler]
    exact h.one_place b hb
  have hdrained := drained_step_LogWriteHandler hrunning fopens
  constructor
  · intro h' ptrContent hwriting
    exact (inOrder_step_write_iff hinv h.in_order hwriting fopens).mp h'.in_order
  · intro hready
    refine { one_place := hplaces, in_order := ?_, drained := hdrained }
    cases hwriting : s.worker.writing with
    | none =>
      obtain ⟨hunwritten, free, used, worker, hstep⟩ := step_not_write hwriting fopens
      unfold InOrder
      rw [hunwritten, hstep]
      exact h.in_order
    | some ptrContent =>
      exact (inOrder_step_write_iff hinv h.in_order hwriting fopens).mpr
        (hready ptrContent hwriting)

theorem keeps_of_leaves_queue {e : log_event} (h : e.leaves_queue = true) : Keeps s e := by
  cases e with
  | Trace_step now text => cases h
  | LogWriteHandler fopens => cases h
  | _ => trivial

/-- **A step loses nothing if and only if it is one of `Keeps`.** -/
theorem queueKept_exec_iff {s' : log_run} {e : log_event} (hinv : QueueInv n s)
    (h : QueueKept n s) (hexec : s.exec e = some s') : QueueKept n s' ↔ Keeps s e := by
  rcases exec_cases hexec with ⟨hstep, hleaves⟩ | ⟨now, text, call, rfl, hcall, _, rfl⟩ |
    ⟨fopens, rfl, hrunning, rfl⟩
  · exact ⟨fun _ => keeps_of_leaves_queue hleaves, fun _ => queueKept_leaves h hstep⟩
  · rw [queueKept_step_Trace_iff hinv h hcall]
    constructor
    · intro hkept call' hcall'
      rw [hcall] at hcall'
      obtain rfl := Option.some.inj hcall'
      exact hkept
    · intro hkept
      exact hkept call hcall
  · exact queueKept_step_LogWriteHandler_iff hinv h hrunning fopens

/-! ### The worker can finish -/

/-- How far the worker is from its next write. -/
def write_distance : worker_pc → Nat
  | .release _ _ => 4
  | .test => 3
  | .drain => 2
  | .take _ => 1
  | .write _ _ => 0
  | .ended => 0

/-- The steps that the worker may need for what has been pushed. -/
def work_left (s : log_run) : Nat := 6 * s.unwritten.length + write_distance s.worker

theorem work_left_decreases (hrunning : s.worker ≠ .ended) (hwork : s.unwritten ≠ [])
    (fopens : Bool) : (s.step_LogWriteHandler fopens).work_left < s.work_left := by
  unfold work_left
  cases hwriting : s.worker.writing with
  | some ptrContent =>
    obtain ⟨final, hworker⟩ := worker_pc.writing_eq_some hwriting
    obtain ⟨names, files, overrun, hframe⟩ :=
      s.log.WriteImmediately_frame (s.log.m_astContent ptrContent) fopens
    rw [unwritten_of_writing hwriting, step_write hworker, hframe]
    show 6 * s.log.m_listUsedContent.length + 4 < 6 * (s.log.m_listUsedContent.length + 1) + _
    omega
  | none =>
    rw [(step_not_write hwriting fopens).1]
    apply Nat.add_lt_add_left
    cases hpc : s.worker with
    | test =>
      rw [step_worker_test hpc]
      cases s.log.m_bStopWorkThread with
      | true =>
        show 2 < 3
        decide
      | false =>
        show 1 < 3
        decide
    | drain =>
      rw [step_drain hpc]
      exact Nat.lt_succ_self 1
    | take final =>
      cases hused : s.log.m_listUsedContent with
      | nil =>
        -- nothing would be left to write
        unfold unwritten at hwork
        rw [hwriting, hused] at hwork
        exact absurd rfl hwork
      | cons first rest =>
        rw [step_take_cons hpc hused]
        exact Nat.zero_lt_one
    | write final ptrContent =>
      rw [hpc] at hwriting
      cases hwriting
    | release final ptrContent =>
      rw [step_release hpc]
      cases final with
      | true =>
        show 1 < 4
        decide
      | false =>
        show 3 < 4
        decide
    | ended => exact absurd hpc hrunning

theorem step_LogWriteHandler_pushed (s : log_run) (fopens : Bool) :
    (s.step_LogWriteHandler fopens).pushed = s.pushed := by
  cases hwriting : s.worker.writing with
  | none =>
    obtain ⟨_, free, used, worker, hstep⟩ := step_not_write hwriting fopens
    rw [hstep]
  | some ptrContent =>
    obtain ⟨final, hworker⟩ := worker_pc.writing_eq_some hwriting
    rw [step_write hworker]

/-- Steps of the worker alone write all that has been pushed, by induction on the
    work that is left. -/
theorem worker_finishes (hinv : QueueInv n s) (h : QueueKept n s) :
    ∃ k s', (List.replicate k (.LogWriteHandler true)).foldlM exec s = some s' ∧
      s'.pushed = s.pushed ∧ s'.written = s.pushed := by
  induction hwork : s.work_left using Nat.strongRecOn generalizing s with
  | ind work ih =>
    by_cases hdone : s.unwritten = []
    · refine ⟨0, s, rfl, rfl, ?_⟩
      have horder := h.in_order
      unfold InOrder at horder
      rw [hdone, List.map_nil, List.append_nil] at horder
      exact horder.symm
    · have hrunning : s.worker ≠ .ended := by
        intro hended
        apply hdone
        unfold unwritten
        rw [hended]
        exact h.drained hended
      have hexec : s.exec (.LogWriteHandler true) = some (s.step_LogWriteHandler true) :=
        if_neg hrunning
      have hkept := (queueKept_exec_iff hinv h hexec).mpr fun _ _ => Or.inl rfl
      have hless := work_left_decreases hrunning hdone true
      rw [hwork] at hless
      obtain ⟨k, s', hrun, hpushed, hwritten⟩ := ih _ hless (queueInv_exec hinv hexec) hkept rfl
      rw [step_LogWriteHandler_pushed] at hpushed hwritten
      refine ⟨k + 1, s', ?_, hpushed, hwritten⟩
      rw [List.replicate_succ, List.foldlM_cons, hexec]
      exact hrun

/-! ### The log queue -/

theorem losesNothing_iff (hinv : QueueInv n s) : LosesNothing n s ↔ QueueKept n s := by
  constructor
  · intro h
    refine { one_place := h.one_place, in_order := h.in_order, drained := ?_ }
    intro hended
    have horder := h.in_order
    rw [← h.ended hended] at horder
    -- nothing is to come
    have hnil := List.append_right_eq_self.mp horder.symm
    unfold unwritten at hnil
    rw [hended] at hnil
    exact List.map_eq_nil_iff.mp hnil
  · intro h
    have hended : s.worker = .ended → s.written = s.pushed := by
      intro hended
      have horder := h.in_order
      unfold InOrder unwritten at horder
      rw [hended, h.drained hended] at horder
      exact (List.append_nil s.written).symm.trans horder.symm
    refine {
      one_place := h.one_place
      in_order := h.in_order
      ended := hended
      finishes := worker_finishes hinv h
      all_back := ?_ }
    intro hreturned hquiet
    have hworker := hinv.joined hreturned
    have hused := h.drained hworker
    refine ⟨hused, ?_⟩
    intro b hb
    have hplaces := h.one_place b hb
    unfold places at hplaces
    rw [hused, hquiet.1, hworker] at hplaces
    exact hplaces

end

/-- The number of blocks. -/
def block_count (iContentCount : Int) : Nat := (max iContentCount 1).toNat

section

variable (strLogPath strLogName : List Char) (iContentCount : Int) (memory : Nat → SLogContent)

theorem places_start (b : Nat) :
    (start (WLog.Init strLogPath strLogName iContentCount memory)).places b =
      if b < block_count iContentCount then 1 else 0 := by
  show (List.range (block_count iContentCount)).count b + 0 + 0 + 0 = _
  rw [Nat.add_zero, List.nodup_range.count]
  simp only [List.mem_range]

theorem queueInv_start : QueueInv (block_count iContentCount)
    (start (WLog.Init strLogPath strLogName iContentCount memory)) := by
  refine {
    places_le := fun b => Nat.le_of_eq (places_start _ _ _ _ b)
    waiting_types := ?_
    call_type := ?_
    filled_types := ?_
    unwritten_types := ?_
    files := ?_
    joined := ?_ }
  · intro t bType ht
    cases ht
  · intro call hcall
    cases hcall
  · intro call hcall
    cases hcall
  · intro b hb
    cases hb
  · intro bType file hfile
    cases hfile
  · intro hreturned
    cases hreturned

theorem queueKept_start : QueueKept (block_count iContentCount)
    (start (WLog.Init strLogPath strLogName iContentCount memory)) := by
  refine { one_place := ?_, in_order := rfl, drained := fun _ => rfl }
  intro b hb
  rw [places_start, if_pos hb]

end

theorem queueInv_of_reachable {iContentCount : Int} (s : log_run)
    (hs : (system iContentCount).Reachable s) : QueueInv (block_count iContentCount) s := by
  refine System.invariant ?_ ?_ s hs
  · intro s hs
    obtain ⟨strLogPath, strLogName, memory, rfl⟩ := hs
    exact queueInv_start strLogPath strLogName iContentCount memory
  · intro s e s' h hexec
    exact queueInv_exec h hexec

/-- **The log queue loses nothing it accepted** in the runs whose steps are those of
    `Keeps`, and any other step loses something. -/
theorem loses_nothing (iContentCount : Int) (s : log_run) :
    (((system iContentCount).restrict Keeps).Reachable s →
      LosesNothing (block_count iContentCount) s) ∧
    ∀ e s', (system iContentCount).Reachable s → LosesNothing (block_count iContentCount) s →
      (system iContentCount).step s e s' →
        (LosesNothing (block_count iContentCount) s' ↔ Keeps s e) := by
  have hstep : ∀ s e s', (system iContentCount).Reachable s →
      LosesNothing (block_count iContentCount) s → (system iContentCount).step s e s' →
        (LosesNothing (block_count iContentCount) s' ↔ Keeps s e) := by
    intro s e s' hs h hexec
    have hinv := queueInv_of_reachable s hs
    rw [losesNothing_iff (queueInv_exec hinv hexec)]
    exact queueKept_exec_iff hinv ((losesNothing_iff hinv).mp h) hexec
  refine ⟨System.invariant_restrict ?_ hstep s, hstep s⟩
  intro s hs
  obtain ⟨strLogPath, strLogName, memory, rfl⟩ := hs
  exact (losesNothing_iff (queueInv_start _ _ _ _)).mpr (queueKept_start _ _ _ _)

/-- A log with one block. -/
def one_block : log_run :=
  start (WLog.Init ['/'] ['a'] 1 fun _ => SLogContent.fill 0 ⟨0, 0, 0, 0, 0, 0⟩ [])

theorem one_block_init : ∃ strLogPath strLogName memory,
    one_block = start (WLog.Init strLogPath strLogName 1 memory) := ⟨_, _, _, rfl⟩

/-- A thread logs a message; the call takes `n` steps. -/
def one_Trace (n : Nat) : List log_event :=
  [.AppendLogMask 0, .Trace 1 0 false, .Trace_enter 1] ++
    List.replicate n (.Trace_step ⟨125, 0, 31, 12, 0, 0⟩ ['x'])

/-- The message is written, and the log is stopped. -/
def written_and_stopped : List log_event :=
  one_Trace 5 ++ List.replicate 4 (.LogWriteHandler true) ++ [.StopWorkThead] ++
    List.replicate 3 (.LogWriteHandler true) ++ [.StopWorkThead_join]

theorem loses_nothing_one_Trace : ∃ s, s.stop = .returned ∧ s.written.length = 1 ∧
    LosesNothing 1 s := by
  obtain ⟨s, hrun, hs⟩ : ∃ s, written_and_stopped.foldlM
      (fun s e => if Keeps s e then s.exec e else none) one_block = some s ∧
        s.stop = .returned ∧ s.written.length = 1 := ⟨_, rfl, rfl, rfl⟩
  have hstart : ((system 1).restrict Keeps).Reachable one_block := .init one_block_init
  have hreachable := System.Reachable.of_guarded_foldlM hstart _ hrun
  exact ⟨s, hs.1, hs.2, (loses_nothing 1 s).1 hreachable.1⟩

/-- The log is stopped while the thread waits for `m_cs`. -/
def stopped_first : List log_event :=
  [.AppendLogMask 0, .Trace 1 0 false, .StopWorkThead, .Trace_enter 1] ++
    List.replicate 4 (.Trace_step ⟨125, 0, 31, 12, 0, 0⟩ ['x'])

/-- The call returns with the block. -/
theorem not_always_loses_nothing : ¬ ∀ (iContentCount : Int) (s : log_run),
    (system iContentCount).Reachable s → LosesNothing (block_count iContentCount) s := by
  intro h
  obtain ⟨s, hrun, hlost⟩ : ∃ s, stopped_first.foldlM exec one_block = some s ∧
      s.places 0 = 0 := ⟨_, rfl, rfl⟩
  have hstart : ((system 1).restrict fun _ _ => True).Reachable one_block := .init one_block_init
  have hreachable := System.Reachable.of_foldlM hstart _ (fun _ _ _ => trivial) hrun
  have hplace := (h 1 s hreachable.of_restrict).one_place 0 (by decide)
  rw [hlost] at hplace
  cases hplace

end log_run

end AsioNet
