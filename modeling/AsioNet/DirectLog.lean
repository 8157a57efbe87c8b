import AsioNet.Library.CriticalSections
import AsioNet.WLog

/-! # The log without a worker thread (`WLog/WLog.cpp`)

    Without the worker there is one block. A `Trace` call fills it and writes the line
    itself, all inside `m_cs`; only the tests in front of `m_cs` read the mask at any time.

    So the calls of all threads write one after the other: no line mixes the block's
    contents of two calls, and each line goes to the file of its own type and day, also
    when the day changes from one call to the next. What gets lost are lines whose file
    was not open and could not be opened. Path and name are to leave room for what
    `PrepareLogFile` puts behind them (`NamesFit`).
-/

namespace AsioNet

open TransitionSystem CriticalSections

/-- A `bType` that `Trace` takes on. -/
abbrev ELogType : Type := { bType : UInt8 // bType < ELT_Max }

/-! ### Names that fit -/

namespace WLog

/-- The path is not empty, and with its slash, the name and at most 24 bytes for day and
    type it fits `strFileName`. -/
structure NamesFit (strLogPath strLogName : List Char) : Prop where
  path : strLogPath ≠ []
  room : strLogPath.length + 1 + strLogName.length + 24 < MAX_STR_LEN

/-- A number of two bytes has at most five digits. -/
theorem length_print_d_le {width : Nat} (hwidth : width ≤ 5) (n : UInt16) :
    (print_d width n.toNat).length ≤ 5 := by
  have hn : n.toNat < 100000 := Nat.lt_trans n.toNat_lt (show 65536 < 100000 by decide)
  have hdigits := (Nat.length_toDigits_le_iff (show 1 < 10 by omega) (Nat.succ_pos 4)).mpr hn
  rw [print_d, List.length_leftpad]
  exact Nat.max_le.mpr ⟨hwidth, hdigits⟩

theorem length_LogFileExternName_le (bType : UInt8) :
    (LogFileExternName bType).length ≤ 7 := by
  unfold LogFileExternName
  rcases bType.toNat with _ | _ | _ | _ | n
  any_goals decide
  exact Nat.zero_le 7

theorem length_day_and_type_le (c : SLogContent) : (day_and_type c).length ≤ 24 := by
  have hyear := length_print_d_le (show 4 ≤ 5 by decide) c.wYear
  have hmonth := length_print_d_le (show 2 ≤ 5 by decide) c.wMonth
  have hdate := length_print_d_le (show 2 ≤ 5 by decide) c.wDate
  have hname := length_LogFileExternName_le c.bType
  simp only [day_and_type, List.length_append, List.length_cons, List.length_nil]
  omega

theorem length_CreateLogPath_le (path : List Char) (h : path.length < MAX_STR_LEN) :
    (CreateLogPath path).length ≤ path.length + 1 := by
  have hshort : ¬ path.length ≥ MAX_STR_LEN := Nat.not_le.mpr h
  simp only [CreateLogPath, if_neg hshort]
  split
  · split
    · rw [List.length_append]
      exact Nat.le_refl _
    · rw [List.length_append, List.length_dropLast]
      simp only [List.length_cons, List.length_nil]
      omega
  · exact Nat.le_succ _

section
variable {strLogPath strLogName : List Char} {l : WLog}

theorem NamesFit.path_of_init (h : NamesFit strLogPath strLogName) (iContentCount : Int)
    (memory : Nat → SLogContent) :
    (Init strLogPath strLogName iContentCount memory).m_strLogPath = CreateLogPath strLogPath := by
  have hroom := h.room
  exact congrArg CreateLogPath (List.take_of_length_le (by omega))

theorem NamesFit.name_of_init (h : NamesFit strLogPath strLogName) (iContentCount : Int)
    (memory : Nat → SLogContent) :
    (Init strLogPath strLogName iContentCount memory).m_strLogName = strLogName := by
  have hroom := h.room
  exact List.take_of_length_le (by omega)

/-- The path of a file of such names. -/
def full_name (strLogPath strLogName : List Char) (c : SLogContent) : List Char :=
  CreateLogPath strLogPath ++ (strLogName ++ day_and_type c)

theorem NamesFit.length_full_name (h : NamesFit strLogPath strLogName) (c : SLogContent) :
    (full_name strLogPath strLogName c).length < MAX_STR_LEN := by
  have hroom := h.room
  have hpath := length_CreateLogPath_le strLogPath (by omega)
  have hday := length_day_and_type_le c
  rw [full_name, List.length_append, List.length_append]
  omega

/-- Nothing is cut off. -/
theorem NamesFit.log_file_path (h : NamesFit strLogPath strLogName)
    (hpath : l.m_strLogPath = CreateLogPath strLogPath) (hname : l.m_strLogName = strLogName)
    (c : SLogContent) :
    l.log_file_path (l.log_file_name c) = full_name strLogPath strLogName c := by
  have hlen := h.length_full_name c
  rw [full_name, List.length_append, List.length_append] at hlen
  rw [WLog.log_file_path, log_file_name, hpath, hname, strncat, strncat, List.nil_append,
    List.take_of_length_le (by omega), List.take_take, List.take_of_length_le (by
      rw [List.length_append]
      omega), full_name]

end

/-- A path that fits leaves the stack alone. -/
theorem overrun_open_file {l : WLog} {c : SLogContent}
    (h : (l.log_file_path (l.log_file_name c)).length < MAX_STR_LEN) (fopens : Bool) :
    (l.open_file c fopens).overrun = l.overrun := by
  rw [open_file_eq]
  split
  · show (l.overrun || decide _) = l.overrun
    rw [decide_eq_false (Nat.not_le.mpr h), Bool.or_false]
  · rfl

end WLog

/-! ### Inside `m_cs` -/

/-- A call that has passed the tests, with the time it is going to read, the text
    `vsnprintf` is going to print and whether `fopen` would succeed. -/
structure traced where
  bType : ELogType
  now : tm
  text : List Char
  fopens : Bool

namespace traced

def content (a : traced) : SLogContent := SLogContent.fill a.bType.1 a.now a.text

/-- The line of the call, with the path of its file. -/
def line (strLogPath strLogName : List Char) (a : traced) : List Char × List Char :=
  (WLog.full_name strLogPath strLogName a.content, a.content.szContent ++ [WLog.newline])

end traced

/-- The log, and what has been printed so far. -/
structure log_files where
  log : WLog
  written : List (List Char × List Char)

/-- Where a call inside `m_cs` stands. -/
inductive trace_local where
  | fill (a : traced)
  | write (fopens : Bool)

/-- `Trace` inside `m_cs`; `AllocFreeLogContent` returns the one block. -/
def locked_trace : Method log_files traced trace_local Unit where
  start := .fill
  access s k :=
    match k with
    | .fill a =>
      ({ s with log := { s.log with
          m_astContent := Function.update s.log.m_astContent 0 a.content } },
        .inl (.write a.fopens))
    | .write fopens =>
      let line := s.log.WriteImmediately (s.log.m_astContent 0) fopens
      ({ log := line.2, written := s.written ++ line.1.toList }, .inr ())

namespace log_files

/-- The block has been filled. -/
def filled (s : log_files) (a : traced) : log_files :=
  { s with log := { s.log with
      m_astContent := Function.update s.log.m_astContent 0 a.content } }

variable {Thread : Type} {s s' : log_files} {a : traced}

/-- Until the line is written nothing is printed, and no path composed. -/
theorem unchanged_of_runs {k : trace_local}
    (h : locked_trace.Runs s (.inl (locked_trace.start a)) s' (.inl k)) :
    s'.written = s.written ∧ s'.log.overrun = s.log.overrun := by
  rcases h.head_cases with ⟨rfl, -⟩ | ⟨k₁, hk₁, h⟩
  · exact ⟨rfl, rfl⟩
  cases hk₁
  rcases h.head_cases with ⟨rfl, -⟩ | ⟨k₂, hk₂, h⟩
  · exact ⟨rfl, rfl⟩
  cases hk₂
  -- the write is the last access
  rcases h.head_cases with ⟨-, hend⟩ | ⟨k₃, hk₃, -⟩
  · cases hend
  · cases hk₃

/-- A call that runs alone fills the block and writes it. -/
theorem eq_of_returns (h : locked_trace.Returns s a s' ()) :
    s'.log = ((s.filled a).log.WriteImmediately a.content a.fopens).2 ∧
    s'.written = s.written ++
      ((s.filled a).log.WriteImmediately a.content a.fopens).1.toList := by
  obtain ⟨rfl, -⟩ := h.head.head.of_result
  have hblock : (s.filled a).log.m_astContent 0 = a.content := by
    show Function.update s.log.m_astContent 0 a.content 0 = a.content
    rw [Function.update_self]
  rw [← hblock]
  exact ⟨rfl, rfl⟩

/-! ### The calls one after the other -/

/-- What the calls of `log` have printed: every line whose file could be opened, and no
    other but lines of these calls, in the order of the calls. -/
structure Printed (strLogPath strLogName : List Char) (log : List (Thread × traced × Unit))
    (s : log_files) : Prop where
  path : s.log.m_strLogPath = WLog.CreateLogPath strLogPath
  name : s.log.m_strLogName = strLogName
  files : s.log.FilesNamed
  no_overrun : s.log.overrun = false
  in_order : s.written.Sublist (log.map fun x => x.2.1.line strLogPath strLogName)
  opened : ((log.filter fun x => x.2.1.fopens).map fun x =>
    x.2.1.line strLogPath strLogName).Sublist s.written

variable {strLogPath strLogName : List Char}

theorem Printed.call (hfit : WLog.NamesFit strLogPath strLogName)
    {log : List (Thread × traced × Unit)} (h : Printed strLogPath strLogName log s)
    (hret : locked_trace.Returns s a s' ()) (t : Thread) :
    Printed strLogPath strLogName (log ++ [(t, a, ())]) s' := by
  obtain ⟨hlog, hwritten⟩ := eq_of_returns hret
  have hfiles : (s.filled a).log.FilesNamed := h.files
  have hfile_path := hfit.log_file_path (l := (s.filled a).log) h.path h.name a.content
  have hline : ((s.filled a).log.log_file_path ((s.filled a).log.log_file_name a.content),
      a.content.szContent ++ [WLog.newline]) = a.line strLogPath strLogName := by
    rw [hfile_path]
    rfl
  obtain ⟨names, files, overrun, hframe⟩ :=
    (s.filled a).log.WriteImmediately_frame a.content a.fopens
  have hpath : s'.log.m_strLogPath = WLog.CreateLogPath strLogPath := by
    rw [hlog, hframe]
    exact h.path
  have hname : s'.log.m_strLogName = strLogName := by
    rw [hlog, hframe]
    exact h.name
  have hfiles' : s'.log.FilesNamed := by
    rw [hlog]
    exact hfiles.WriteImmediately a.bType.2 a.fopens
  have hno_overrun : s'.log.overrun = false := by
    have hshort := hfit.length_full_name a.content
    rw [← hfile_path] at hshort
    rw [hlog, WLog.WriteImmediately_eq (show a.content.bType < ELT_Max from a.bType.2)]
    exact (WLog.overrun_open_file hshort a.fopens).trans h.no_overrun
  have hprint : ((s.filled a).log.WriteImmediately a.content a.fopens).1 =
      (((s.filled a).log.open_file a.content a.fopens).m_pFileStream a.content.bType).map
        fun file => (file, a.content.szContent ++ [WLog.newline]) :=
    congrArg Prod.fst (WLog.WriteImmediately_eq a.bType.2 a.fopens)
  -- the line is printed if its file is ready, and nothing else is
  by_cases hready : (s.filled a).log.FileReady a.content a.fopens
  · rw [hprint, WLog.open_file_ready hfiles hready, Option.map_some, hline] at hwritten
    refine ⟨hpath, hname, hfiles', hno_overrun, ?_, ?_⟩
    · rw [hwritten, List.map_append]
      exact h.in_order.append_right _
    · rw [hwritten, List.filter_append, List.map_append]
      refine h.opened.append ?_
      exact List.filter_sublist.map _
  · rw [hprint, WLog.open_file_not_ready hready, Option.map_none, Option.toList_none,
      List.append_nil] at hwritten
    have hfopens : a.fopens = false := Bool.eq_false_iff.mpr fun hopens => hready (.inl hopens)
    refine ⟨hpath, hname, hfiles', hno_overrun, ?_, ?_⟩
    · rw [hwritten, List.map_append]
      exact h.in_order.trans (List.sublist_append_left _ _)
    · have hnone : [(t, a, ())].filter (fun x => x.2.1.fopens) = [] := by
        simpa using hfopens
      rw [hwritten, List.filter_append, hnone, List.append_nil]
      exact h.opened

/-- The log before the first line. -/
def new (l : WLog) : log_files := ⟨l, []⟩

theorem printed_new (hfit : WLog.NamesFit strLogPath strLogName) (memory : Nat → SLogContent) :
    Printed strLogPath strLogName ([] : List (Thread × traced × Unit))
      (new (WLog.Init strLogPath strLogName 1 memory)) where
  path := hfit.path_of_init 1 memory
  name := hfit.name_of_init 1 memory
  files := nofun
  no_overrun := by
    have hroom := hfit.room
    refine decide_eq_false ?_
    rintro (hempty | hlong | hlong)
    · exact hfit.path hempty
    · omega
    · omega
  in_order := .slnil
  opened := .slnil

/-- In every reachable state the lines of the log are printed, while the next call runs
    too. -/
theorem printed_of_serial (hfit : WLog.NamesFit strLogPath strLogName)
    {memory : Nat → SLogContent} {cs : Sections Thread log_files traced trace_local Unit}
    (h : cs.Serial locked_trace (new (WLog.Init strLogPath strLogName 1 memory))) :
    ∃ s, Printed strLogPath strLogName cs.log s ∧ cs.shared.written = s.written ∧
      cs.shared.log.overrun = s.log.overrun := by
  have hprinted {log : List (Thread × traced × Unit)} {s : log_files}
      (h : locked_trace.Replays (new (WLog.Init strLogPath strLogName 1 memory)) log s) :
      Printed strLogPath strLogName log s := by
    refine h.invariant (printed_new hfit memory) ?_
    intro log s₁ s₂ t a _ ih hret
    exact ih.call hfit hret t
  unfold Sections.Serial at h
  split at h
  · obtain ⟨s, hlog, hrun⟩ := h
    obtain ⟨hwritten, hoverrun⟩ := unchanged_of_runs hrun
    exact ⟨s, hprinted hlog, hwritten, hoverrun⟩
  · exact ⟨cs.shared, hprinted h, rfl, rfl⟩

end log_files

/-! ### The threads -/

/-- The threads that wait for `m_cs` in `Trace`, with their `bType`, and `m_cs`. -/
structure direct_run (Thread : Type) where
  waiting : Thread → Option ELogType
  m_cs : Sections Thread log_files traced trace_local Unit

inductive direct_event (Thread : Type) where
  | AppendLogMask (bType : UInt8)
  | RemoveLogMask (bType : UInt8)
  /-- A thread calls `Trace`. -/
  | Trace (thread : Thread) (bType : UInt8) (strInfo_null : Bool)
  /-- A waiting call enters `m_cs`. -/
  | Trace_enter (thread : Thread) (now : tm) (text : List Char) (fopens : Bool)
  /-- The call inside `m_cs` goes on. -/
  | Trace_step
  | Trace_leave

namespace direct_run

variable {Thread : Type}

def log (s : direct_run Thread) : WLog := s.m_cs.shared.log

def with_log (s : direct_run Thread) (log : WLog) : direct_run Thread :=
  { s with m_cs := { s.m_cs with shared := { s.m_cs.shared with log := log } } }

/-- The lines in the files. -/
def written (s : direct_run Thread) : List (List Char × List Char) := s.m_cs.shared.written

/-- The calls that have written, or tried to, in the order in which they had `m_cs`. -/
def calls (s : direct_run Thread) : List (Thread × traced × Unit) := s.m_cs.log

variable [DecidableEq Thread]

/-- A call of `Trace`. It returns at once or goes on to `m_cs`. -/
def Trace (s : direct_run Thread) (thread : Thread) (bType : UInt8) (strInfo_null : Bool) :
    direct_run Thread :=
  if h : bType < ELT_Max then
    if strInfo_null || !s.log.PeekLogMask bType then s
    else { s with waiting := Function.update s.waiting thread (some ⟨bType, h⟩) }
  else s

/-- Whether the thread is in a `Trace` call. -/
def in_Trace (s : direct_run Thread) (thread : Thread) : Bool :=
  (s.waiting thread).isSome || s.m_cs.inside.any fun call => decide (call.1 = thread)

/-- One step of one thread, if that step is possible. -/
def exec (s : direct_run Thread) : direct_event Thread → Option (direct_run Thread)
  | .AppendLogMask bType => some (s.with_log (s.log.AppendLogMask bType))
  | .RemoveLogMask bType => some (s.with_log (s.log.RemoveLogMask bType))
  | .Trace thread bType strInfo_null =>
    if s.in_Trace thread then none else some (s.Trace thread bType strInfo_null)
  | .Trace_enter thread now text fopens =>
    (s.waiting thread).bind fun bType =>
      (s.m_cs.exec locked_trace (.enter thread ⟨bType, now, text, fopens⟩)).map fun m_cs =>
        ⟨Function.update s.waiting thread none, m_cs⟩
  | .Trace_step => (s.m_cs.exec locked_trace .access).map fun m_cs => { s with m_cs := m_cs }
  | .Trace_leave => (s.m_cs.exec locked_trace .leave).map fun m_cs => { s with m_cs := m_cs }

/-- After `Init` without the worker. -/
def start (log : WLog) : direct_run Thread where
  waiting := fun _ => none
  m_cs := .new (.new log)

/-- All runs of a log of one block. -/
def system (strLogPath strLogName : List Char) (memory : Nat → SLogContent) :
    System (direct_run Thread) (direct_event Thread) :=
  System.ofExec (fun s => s = start (WLog.Init strLogPath strLogName 1 memory)) exec

/-! ### What gets into the files -/

/-- The log without its mask, which nobody reads inside `m_cs`. -/
def unmasked (s : log_files) : log_files := { s with log := { s.log with m_nLogMask := 0 } }

theorem WriteImmediately_unmasked (l : WLog) (c : SLogContent) (fopens : Bool) :
    ({ l with m_nLogMask := 0 } : WLog).WriteImmediately c fopens =
      ((l.WriteImmediately c fopens).1,
        { (l.WriteImmediately c fopens).2 with m_nLogMask := 0 }) := by
  have hopen : ({ l with m_nLogMask := 0 } : WLog).open_file c fopens =
      { l.open_file c fopens with m_nLogMask := 0 } := by
    rw [WLog.open_file_eq, WLog.open_file_eq]
    by_cases hopen : l.m_strCurLogName c.bType ≠ l.log_file_name c ∨
        l.m_pFileStream c.bType = none
    · rw [if_pos hopen]
      exact if_pos hopen
    · rw [if_neg hopen]
      exact if_neg hopen
  unfold WLog.WriteImmediately WLog.PrepareLogFile
  rw [hopen]
  by_cases hbType : c.bType ≥ ELT_Max
  · rw [if_pos hbType, if_pos hbType]
    rfl
  · rw [if_neg hbType, if_neg hbType]
    show (if ((l.open_file c fopens).m_pFileStream c.bType).isSome = true then _ else _) = _
    split
    · next hsome =>
      rw [if_pos hsome]
    · next hnone =>
      rw [if_neg hnone]

theorem access_unmasked (s : log_files) (k : trace_local) :
    locked_trace.access (unmasked s) k =
      (unmasked (locked_trace.access s k).1, (locked_trace.access s k).2) := by
  cases k with
  | fill a => rfl
  | write fopens =>
    have hline := WriteImmediately_unmasked s.log (s.log.m_astContent 0) fopens
    unfold locked_trace unmasked
    simp only
    rw [hline]

variable {strLogPath strLogName : List Char} {memory : Nat → SLogContent}

/-- What a step does to `m_cs` when the mask is left out. -/
theorem exec_unmasked {s s' : direct_run Thread} {e : direct_event Thread}
    (h : s.exec e = some s') :
    s'.m_cs.map unmasked = s.m_cs.map unmasked ∨
      ∃ l, (s.m_cs.map unmasked).exec locked_trace l = some (s'.m_cs.map unmasked) := by
  cases e with
  | AppendLogMask bType =>
    cases h
    exact .inl rfl
  | RemoveLogMask bType =>
    cases h
    exact .inl rfl
  | Trace thread bType strInfo_null =>
    obtain ⟨-, h⟩ := Option.ite_none_left_eq_some.mp h
    cases h
    refine .inl (congrArg (Sections.map unmasked) ?_)
    unfold direct_run.Trace
    split
    · split <;> rfl
    · rfl
  | Trace_enter thread now text fopens =>
    obtain ⟨bType, -, h⟩ := Option.bind_eq_some_iff.mp h
    obtain ⟨m_cs, hexec, rfl⟩ := Option.map_eq_some_iff.mp h
    exact .inr ⟨_, Sections.exec_map rfl access_unmasked hexec⟩
  | Trace_step =>
    obtain ⟨m_cs, hexec, rfl⟩ := Option.map_eq_some_iff.mp h
    exact .inr ⟨_, Sections.exec_map rfl access_unmasked hexec⟩
  | Trace_leave =>
    obtain ⟨m_cs, hexec, rfl⟩ := Option.map_eq_some_iff.mp h
    exact .inr ⟨_, Sections.exec_map rfl access_unmasked hexec⟩

/-- **Lines are whole and in order**: if path and name fit, in every interleaving the files
    hold lines of the finished calls only, each in the file of its type and day, in the
    order in which the calls had `m_cs`; the line of every call whose file could be opened
    is there; and no path goes over its array. -/
theorem lines_of_reachable (hfit : WLog.NamesFit strLogPath strLogName)
    (s : direct_run Thread) (hr : (system strLogPath strLogName memory).Reachable s) :
    let line (call : Thread × traced × Unit) := call.2.1.line strLogPath strLogName
    s.written.Sublist (s.calls.map line) ∧
    ((s.calls.filter fun call => call.2.1.fopens).map line).Sublist s.written ∧
    s.log.overrun = false := by
  intro line
  have hpart : (Sections.system locked_trace
      (log_files.new (WLog.Init strLogPath strLogName 1 memory))).Reachable
        (s.m_cs.map unmasked) := by
    refine hr.part (fun s => s.m_cs.map unmasked) ?_ ?_
    · rintro s rfl
      rfl
    · intro s e s' hstep
      exact exec_unmasked hstep
  obtain ⟨s₀, hprinted, hwritten, hoverrun⟩ := log_files.printed_of_serial hfit
    (Sections.serial_of_reachable _ _ _ hpart)
  have hwritten : s.written = s₀.written := hwritten
  have hoverrun : s.log.overrun = s₀.log.overrun := hoverrun
  rw [hwritten, hoverrun]
  exact ⟨hprinted.in_order, hprinted.opened, hprinted.no_overrun⟩

def memory₀ : Nat → SLogContent := fun _ => SLogContent.fill 0 ⟨0, 0, 0, 0, 0, 0⟩ []

/-- Thread 1 overtakes thread 0, and logs its message as the last of the day; the file of
    the next day cannot be opened. -/
def two_days : List (direct_event Nat) :=
  [.AppendLogMask 1, .Trace 0 1 false, .Trace 1 1 false,
    .Trace_enter 1 ⟨125, 0, 30, 23, 59, 59⟩ ['x'] true, .Trace_step, .Trace_step, .Trace_leave,
    .Trace_enter 0 ⟨125, 0, 31, 0, 0, 0⟩ ['y'] false, .Trace_step, .Trace_step, .Trace_leave]

theorem lines_two_days : ∃ s : direct_run Nat, s.calls.map (·.1) = [1, 0] ∧
    s.written.map (fun line => String.ofList line.1) = ["log/a_20250130.Error"] ∧
    s.written.Sublist (s.calls.map fun call => call.2.1.line ['l', 'o', 'g'] ['a']) ∧
    ((s.calls.filter fun call => call.2.1.fopens).map fun call =>
      call.2.1.line ['l', 'o', 'g'] ['a']).Sublist s.written ∧ s.log.overrun = false := by
  have hrun : (two_days.foldlM exec (start (WLog.Init ['l', 'o', 'g'] ['a'] 1 memory₀))).map
      (fun s => (s.calls.map (·.1), s.written.map (fun line => String.ofList line.1))) =
        some ([1, 0], ["log/a_20250130.Error"]) := by
    decide +kernel
  obtain ⟨s, hs, hwritten⟩ := Option.map_eq_some_iff.mp hrun
  have hreach : ((system ['l', 'o', 'g'] ['a'] memory₀).restrict fun _ _ => True).Reachable s :=
    System.Reachable.of_foldlM (.init rfl) two_days (fun _ _ _ => trivial) hs
  exact ⟨s, congrArg Prod.fst hwritten, congrArg Prod.snd hwritten,
    lines_of_reachable ⟨by decide, by decide⟩ s hreach.of_restrict⟩

end direct_run

end AsioNet
