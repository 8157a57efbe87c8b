import AsioNet.Library.TransitionSystem
import Mathlib.Data.List.Defs
import Mathlib.Logic.Function.Basic

/-! # The log writer (`WLog/WLog.h`, `WLog/WLog.cpp`, `WLog/LogDefine.h`)

    `Trace` puts a message into one of a fixed number of blocks, and in
    worker-thread mode hands the block to a worker thread, which writes it and
    gives it back. The blocks are on the list of the free ones, on the list of the
    used ones, or in somebody's hands.

    The threads meet at three critical sections and the flag `m_bStopWorkThread`.
    `m_cs` admits one `Trace` call at a time; the sections around the two lists are
    single steps, except that the worker's last loop holds `m_cs4UsedContent` until
    the list is empty. `exec` runs one step of one thread.
-/

namespace AsioNet

open TransitionSystem

/-- `ELT_KeyInfo`, `ELT_Error`, `ELT_Warning` and `ELT_Info` are below it. -/
def ELT_Max : UInt8 := 4

def MAX_STR_LEN : Nat := 512

def LogFileExternName (bType : UInt8) : List Char :=
  [['K', 'e', 'y'], ['E', 'r', 'r', 'o', 'r'], ['W', 'a', 'r', 'n', 'i', 'n', 'g'],
    ['I', 'n', 'f', 'o']].getD bType.toNat []

/-- `struct tm`, as far as it is used. -/
structure tm where
  tm_year : Nat
  tm_mon : Nat
  tm_mday : Nat
  tm_hour : Nat
  tm_min : Nat
  tm_sec : Nat

structure SLogContent where
  bType : UInt8
  wYear : UInt16
  wMonth : UInt16
  wDate : UInt16
  /-- Up to its final zero. -/
  szContent : List Char

/-- What `%0<width>d` prints. -/
def print_d (width n : Nat) : List Char := List.leftpad width '0' (Nat.toDigits 10 n)

/-- The block as `Trace` fills it; `text` is what `vsnprintf` has to print. -/
def SLogContent.fill (bType : UInt8) (now : tm) (text : List Char) : SLogContent :=
  let time := print_d 2 now.tm_hour ++ [':'] ++ print_d 2 now.tm_min ++ [':'] ++
    print_d 2 now.tm_sec ++ [' ']
  let szContent := time.take (MAX_STR_LEN - 1)
  { bType := bType
    wYear := UInt16.ofNat (now.tm_year + 1900)
    wMonth := UInt16.ofNat (now.tm_mon + 1)
    wDate := UInt16.ofNat now.tm_mday
    szContent := szContent ++ text.take (MAX_STR_LEN - szContent.length - 1) }

/-! ### Strings in arrays

    A string is what stands before the zero. -/

/-- `strncpy`; of `count` bytes or more the copy has no zero. -/
def strncpy (src : List Char) (count : Nat) : List Char := src.take count

def strncat (dest src : List Char) (count : Nat) : List Char := dest ++ src.take count

structure WLog where
  /-- The open files, by their paths. -/
  m_pFileStream : UInt8 → Option (List Char)
  m_nLogMask : UInt32
  m_strLogPath : List Char
  m_strLogName : List Char
  m_strCurLogName : UInt8 → List Char
  /-- The blocks; the lists hold their indices. -/
  m_astContent : Nat → SLogContent
  m_bStopWorkThread : Bool
  m_listFreeContent : List Nat
  m_listUsedContent : List Nat
  /-- An array was left; what comes after that means nothing. -/
  overrun : Bool

namespace WLog

/-- What follows `m_strLogName` in a file's name. -/
def day_and_type (c : SLogContent) : List Char :=
  ['_'] ++ print_d 4 c.wYear.toNat ++ print_d 2 c.wMonth.toNat ++ print_d 2 c.wDate.toNat ++
    ['.'] ++ LogFileExternName c.bType

/-- As it is compiled elsewhere than on Windows. -/
def CreateLogPath (m_strLogPath : List Char) : List Char :=
  let m_strLogPath :=
    if m_strLogPath.length ≥ MAX_STR_LEN then m_strLogPath.take (MAX_STR_LEN - 1)
    else m_strLogPath
  if m_strLogPath.getLast? ≠ some '/' then
    if m_strLogPath.length < MAX_STR_LEN - 1 then m_strLogPath ++ ['/']
    else m_strLogPath.dropLast ++ ['/']
  else m_strLogPath

/-- `Init` with `bUseWorkThread`, on memory as `new` leaves it. `CreateLogPath` looks in
    front of the array if the path is empty, and an array without a zero is read past its
    end. -/
def Init (strLogPath strLogName : List Char) (iContentCount : Int)
    (memory : Nat → SLogContent) : WLog where
  m_pFileStream := fun _ => none
  m_nLogMask := 0
  m_strLogPath := CreateLogPath (strncpy strLogPath MAX_STR_LEN)
  m_strLogName := strncpy strLogName MAX_STR_LEN
  m_strCurLogName := fun _ => []
  m_astContent := memory
  m_bStopWorkThread := false
  m_listFreeContent := List.range (max iContentCount 1).toNat
  m_listUsedContent := []
  overrun := decide (strLogPath = [] ∨ MAX_STR_LEN ≤ strLogPath.length ∨
    MAX_STR_LEN ≤ strLogName.length)

def AppendLogMask (l : WLog) (bType : UInt8) : WLog :=
  { l with m_nLogMask := l.m_nLogMask ||| (1 <<< bType.toUInt32) }

def RemoveLogMask (l : WLog) (bType : UInt8) : WLog :=
  { l with m_nLogMask := l.m_nLogMask &&& ~~~(1 <<< bType.toUInt32) }

def PeekLogMask (l : WLog) (bType : UInt8) : Bool := l.m_nLogMask &&& (1 <<< bType.toUInt32) ≠ 0

def AllocFreeLogContent (l : WLog) : Option Nat × WLog :=
  match l.m_listFreeContent with
  | [] => (none, l)
  | ptrContent :: rest => (some ptrContent, { l with m_listFreeContent := rest })

def ReleaseFreeLogContent (l : WLog) (ptrContent : Nat) : WLog :=
  { l with m_listFreeContent := l.m_listFreeContent ++ [ptrContent] }

/-- `strFileName` -/
def log_file_name (l : WLog) (c : SLogContent) : List Char :=
  (l.m_strLogName ++ day_and_type c).take (MAX_STR_LEN - 1)

/-- `strFileName` once the path is in front. -/
def log_file_path (l : WLog) (m_strCurLogName : List Char) : List Char :=
  strncat (strncat [] l.m_strLogPath MAX_STR_LEN) m_strCurLogName MAX_STR_LEN

/-- Opens the file of the day if it is not the current one; `fopens` says whether
    `fopen` succeeds. `strFileName` has `MAX_STR_LEN` bytes, the zero included. -/
def open_file (l : WLog) (c : SLogContent) (fopens : Bool) : WLog :=
  if l.m_strCurLogName c.bType ≠ l.log_file_name c ∨ l.m_pFileStream c.bType = none then
    let m_strCurLogName := strncpy (l.log_file_name c) MAX_STR_LEN
    let strFileName := l.log_file_path m_strCurLogName
    { l with
      m_strCurLogName := Function.update l.m_strCurLogName c.bType m_strCurLogName
      m_pFileStream := Function.update l.m_pFileStream c.bType
        (if fopens then some strFileName else none)
      overrun := l.overrun || decide (MAX_STR_LEN ≤ strFileName.length) }
  else l

def PrepareLogFile (l : WLog) (c : SLogContent) (fopens : Bool) : Bool × WLog :=
  if c.bType ≥ ELT_Max then (false, l)
  else (((l.open_file c fopens).m_pFileStream c.bType).isSome, l.open_file c fopens)

def newline : Char := Char.ofNat 10

/-- What is printed and to which file, if anything is. -/
def WriteImmediately (l : WLog) (c : SLogContent) (fopens : Bool) :
    Option (List Char × List Char) × WLog :=
  let prepared := l.PrepareLogFile c fopens
  if prepared.1 then
    ((prepared.2.m_pFileStream c.bType).map fun file => (file, c.szContent ++ [newline]),
      prepared.2)
  else (none, prepared.2)

/-- The line that a block stands for, with the path of its file. -/
def line (l : WLog) (ptrContent : Nat) : List Char × List Char :=
  let c := l.m_astContent ptrContent
  (l.log_file_path (l.log_file_name c), c.szContent ++ [newline])

/-! ### Writing a line -/

/-- The file of `c` is open, or can be opened. -/
def FileReady (l : WLog) (c : SLogContent) (fopens : Bool) : Prop :=
  fopens = true ∨
    l.m_strCurLogName c.bType = l.log_file_name c ∧ (l.m_pFileStream c.bType).isSome = true

instance (l : WLog) (c : SLogContent) (fopens : Bool) : Decidable (l.FileReady c fopens) :=
  inferInstanceAs (Decidable (fopens = true ∨
    l.m_strCurLogName c.bType = l.log_file_name c ∧ (l.m_pFileStream c.bType).isSome = true))

/-- The open files are those of the current names. -/
def FilesNamed (l : WLog) : Prop :=
  ∀ bType file, l.m_pFileStream bType = some file →
    file = l.log_file_path (l.m_strCurLogName bType)

theorem length_log_file_name_le (l : WLog) (c : SLogContent) :
    (l.log_file_name c).length ≤ MAX_STR_LEN - 1 := List.length_take_le _ _

/-- The array of a name has its size, and the name its zero. -/
theorem strncpy_log_file_name (l : WLog) (c : SLogContent) :
    strncpy (l.log_file_name c) MAX_STR_LEN = l.log_file_name c :=
  List.take_of_length_le (Nat.le_trans (l.length_log_file_name_le c) (Nat.sub_le _ _))

/-- What opening the file of the day comes to. -/
theorem open_file_eq (l : WLog) (c : SLogContent) (fopens : Bool) :
    l.open_file c fopens =
      if l.m_strCurLogName c.bType ≠ l.log_file_name c ∨ l.m_pFileStream c.bType = none then
        { l with
          m_strCurLogName := Function.update l.m_strCurLogName c.bType (l.log_file_name c)
          m_pFileStream := Function.update l.m_pFileStream c.bType
            (if fopens then some (l.log_file_path (l.log_file_name c)) else none)
          overrun := l.overrun ||
            decide (MAX_STR_LEN ≤ (l.log_file_path (l.log_file_name c)).length) }
      else l := by
  unfold open_file
  simp only [strncpy_log_file_name]

/-- Only names and files change, and the stack. -/
theorem open_file_frame (l : WLog) (c : SLogContent) (fopens : Bool) :
    ∃ names files overrun, l.open_file c fopens =
      { l with m_strCurLogName := names, m_pFileStream := files, overrun := overrun } := by
  unfold open_file
  split
  · exact ⟨_, _, _, rfl⟩
  · exact ⟨l.m_strCurLogName, l.m_pFileStream, l.overrun, rfl⟩

theorem WriteImmediately_frame (l : WLog) (c : SLogContent) (fopens : Bool) :
    ∃ names files overrun, (l.WriteImmediately c fopens).2 =
      { l with m_strCurLogName := names, m_pFileStream := files, overrun := overrun } := by
  have hlog : (l.WriteImmediately c fopens).2 = (l.PrepareLogFile c fopens).2 := by
    unfold WriteImmediately
    exact (apply_ite Prod.snd _ _ _).trans (ite_self _)
  rw [hlog]
  unfold PrepareLogFile
  split
  · exact ⟨l.m_strCurLogName, l.m_pFileStream, l.overrun, rfl⟩
  · exact open_file_frame l c fopens

theorem FilesNamed.open_file {l : WLog} (h : l.FilesNamed) (c : SLogContent) (fopens : Bool) :
    (l.open_file c fopens).FilesNamed := by
  rw [open_file_eq]
  split
  · intro bType file hfile
    have hfile : Function.update l.m_pFileStream c.bType
        (if fopens then some (l.log_file_path (l.log_file_name c)) else none) bType =
          some file := hfile
    show file = l.log_file_path
      (Function.update l.m_strCurLogName c.bType (l.log_file_name c) bType)
    by_cases heq : bType = c.bType
    · rw [heq, Function.update_self] at hfile ⊢
      exact (Option.some.inj (Option.ite_none_right_eq_some.mp hfile).2).symm
    · rw [Function.update_of_ne heq] at hfile ⊢
      exact h bType file hfile
  · exact h

/-- A file that is ready is open afterwards. -/
theorem open_file_ready {l : WLog} (h : l.FilesNamed) {c : SLogContent} {fopens : Bool}
    (hready : l.FileReady c fopens) :
    (l.open_file c fopens).m_pFileStream c.bType =
      some (l.log_file_path (l.log_file_name c)) := by
  rw [open_file_eq]
  split
  · next hclosed =>
    have hfopens : fopens = true := by
      rcases hready with hfopens | ⟨hname, hopen⟩
      · exact hfopens
      · rcases hclosed with hother | hnone
        · exact absurd hname hother
        · rw [hnone] at hopen
          cases hopen
    show Function.update l.m_pFileStream c.bType _ c.bType = _
    rw [Function.update_self]
    exact if_pos hfopens
  · next hopen =>
    obtain ⟨hname, hsome⟩ := not_or.mp hopen
    obtain ⟨file, hfile⟩ := Option.ne_none_iff_exists'.mp hsome
    rw [hfile, h c.bType file hfile, not_not.mp hname]

theorem open_file_not_ready {l : WLog} {c : SLogContent} {fopens : Bool}
    (hready : ¬ l.FileReady c fopens) : (l.open_file c fopens).m_pFileStream c.bType = none := by
  obtain ⟨hfopens, hclosed⟩ := not_or.mp hready
  rw [open_file_eq, if_neg hfopens]
  split
  · show Function.update l.m_pFileStream c.bType _ c.bType = _
    rw [Function.update_self]
  · next hopen =>
    obtain ⟨hname, hsome⟩ := not_or.mp hopen
    exact absurd ⟨not_not.mp hname, Option.isSome_iff_ne_none.mpr hsome⟩ hclosed

theorem WriteImmediately_eq {l : WLog} {c : SLogContent} (hc : c.bType < ELT_Max)
    (fopens : Bool) :
    l.WriteImmediately c fopens =
      (((l.open_file c fopens).m_pFileStream c.bType).map fun file =>
        (file, c.szContent ++ [newline]), l.open_file c fopens) := by
  unfold WriteImmediately PrepareLogFile
  rw [if_neg (UInt8.not_le.mpr hc)]
  show (if ((l.open_file c fopens).m_pFileStream c.bType).isSome = true then
    (((l.open_file c fopens).m_pFileStream c.bType).map _, l.open_file c fopens)
    else (none, l.open_file c fopens)) = _
  cases (l.open_file c fopens).m_pFileStream c.bType with
  | none => rfl
  | some file => rfl

theorem FilesNamed.WriteImmediately {l : WLog} (h : l.FilesNamed) {c : SLogContent}
    (hc : c.bType < ELT_Max) (fopens : Bool) : (l.WriteImmediately c fopens).2.FilesNamed := by
  rw [WriteImmediately_eq hc]
  exact h.open_file c fopens

end WLog

/-! ### The threads -/

/-- Where the `Trace` call inside `m_cs` stands, and the block it holds. -/
inductive trace_pc where
  | alloc
  | fill (ptrContent : Nat)
  /-- Before it reads `m_bStopWorkThread`. -/
  | test (ptrContent : Nat)
  | push (ptrContent : Nat)
  /-- Before it leaves `m_cs`, with a block it has not pushed or without one. -/
  | leave (ptrContent : Option Nat)
  deriving DecidableEq, Repr

def trace_pc.pushes : trace_pc → Bool
  | .push _ => true
  | _ => false

structure trace_call where
  thread : Nat
  bType : UInt8
  pc : trace_pc
  deriving DecidableEq, Repr

/-- Where `LogWriteHandler` stands, and the block it holds. The second of its two
    loops, which runs inside `m_cs4UsedContent`, is `final`. -/
inductive worker_pc where
  /-- Before it reads `m_bStopWorkThread`. -/
  | test
  | take (final : Bool)
  | write (final : Bool) (ptrContent : Nat)
  | release (final : Bool) (ptrContent : Nat)
  /-- Between the loops. -/
  | drain
  | ended
  deriving DecidableEq, Repr

/-- `StopWorkThead`, which the destructor calls. -/
inductive stop_pc where
  | not_called
  | joining
  | returned
  deriving DecidableEq, Repr

/-- Whether the worker is inside `m_cs4UsedContent` between two steps. -/
def worker_pc.in_used_section : worker_pc → Bool
  | .take final | .write final _ | .release final _ => final
  | _ => false

/-- The log, its threads, and what has been pushed and written so far. -/
structure log_run where
  log : WLog
  /-- The threads that wait for `m_cs` in `Trace`, and their `bType`. -/
  waiting : Nat → Option UInt8
  /-- The call inside `m_cs`. -/
  m_cs : Option trace_call
  worker : worker_pc
  stop : stop_pc
  pushed : List (List Char × List Char)
  written : List (List Char × List Char)

inductive log_event where
  | AppendLogMask (bType : UInt8)
  | RemoveLogMask (bType : UInt8)
  /-- A thread calls `Trace`. -/
  | Trace (thread : Nat) (bType : UInt8) (strInfo_null : Bool)
  /-- A waiting call enters `m_cs`. -/
  | Trace_enter (thread : Nat)
  /-- The call inside `m_cs` goes on. -/
  | Trace_step (now : tm) (text : List Char)
  /-- The worker goes on. -/
  | LogWriteHandler (fopens : Bool)
  | StopWorkThead
  | StopWorkThead_join

namespace log_run

/-- The call inside `m_cs` does its next step. -/
def step_Trace (s : log_run) (call : trace_call) (now : tm) (text : List Char) : log_run :=
  match call.pc with
  | .alloc =>
    -- without a free block there is no message
    let ptrContent := s.log.AllocFreeLogContent
    { s with
      log := ptrContent.2
      m_cs := some { call with pc := ptrContent.1.elim (.leave none) .fill } }
  | .fill ptrContent =>
    let content := SLogContent.fill call.bType now text
    { s with
      log := { s.log with
        m_astContent := Function.update s.log.m_astContent ptrContent content }
      m_cs := some { call with pc := .test ptrContent } }
  | .test ptrContent =>
    -- no new message is taken on after the flag, and the block is not given back either
    let pc := if s.log.m_bStopWorkThread then .leave (some ptrContent) else .push ptrContent
    { s with m_cs := some { call with pc := pc } }
  | .push ptrContent =>
    { s with
      log := { s.log with m_listUsedContent := s.log.m_listUsedContent ++ [ptrContent] }
      m_cs := some { call with pc := .leave none }
      pushed := s.pushed ++ [s.log.line ptrContent] }
  | .leave _ => { s with m_cs := none }

/-- The worker does its next step. -/
def step_LogWriteHandler (s : log_run) (fopens : Bool) : log_run :=
  match s.worker with
  | .test => { s with worker := if s.log.m_bStopWorkThread then .drain else .take false }
  | .drain => { s with worker := .take true }
  | .take final =>
    match s.log.m_listUsedContent with
    -- the first loop tries again, the second one is done
    | [] => { s with worker := if final then .ended else .test }
    | ptrContent :: rest =>
      { s with
        log := { s.log with m_listUsedContent := rest }
        worker := .write final ptrContent }
  | .write final ptrContent =>
    -- the block is given back whether or not there was a file
    let line := s.log.WriteImmediately (s.log.m_astContent ptrContent) fopens
    { s with
      log := line.2
      worker := .release final ptrContent
      written := s.written ++ line.1.toList }
  | .release final ptrContent =>
    { s with
      log := s.log.ReleaseFreeLogContent ptrContent
      worker := if final then .take true else .test }
  | .ended => s

section

variable {s : log_run} {call : trace_call}

theorem step_alloc_nil (hpc : call.pc = .alloc) (hfree : s.log.m_listFreeContent = [])
    (now : tm) (text : List Char) :
    s.step_Trace call now text = { s with m_cs := some { call with pc := .leave none } } := by
  unfold step_Trace WLog.AllocFreeLogContent
  rw [hpc, hfree]
  rfl

theorem step_alloc_cons {first : Nat} {rest : List Nat} (hpc : call.pc = .alloc)
    (hfree : s.log.m_listFreeContent = first :: rest) (now : tm) (text : List Char) :
    s.step_Trace call now text = { s with
      log := { s.log with m_listFreeContent := rest }
      m_cs := some { call with pc := .fill first } } := by
  unfold step_Trace WLog.AllocFreeLogContent
  rw [hpc, hfree]
  rfl

theorem step_fill {ptrContent : Nat} (hpc : call.pc = .fill ptrContent) (now : tm)
    (text : List Char) :
    s.step_Trace call now text = { s with
      log := { s.log with
        m_astContent := Function.update s.log.m_astContent ptrContent
          (SLogContent.fill call.bType now text) }
      m_cs := some { call with pc := .test ptrContent } } := by
  unfold step_Trace
  rw [hpc]

theorem step_test {ptrContent : Nat} (hpc : call.pc = .test ptrContent) (now : tm)
    (text : List Char) :
    s.step_Trace call now text = { s with
      m_cs := some { call with
        pc := if s.log.m_bStopWorkThread then .leave (some ptrContent)
          else .push ptrContent } } := by
  unfold step_Trace
  rw [hpc]

theorem step_push {ptrContent : Nat} (hpc : call.pc = .push ptrContent) (now : tm)
    (text : List Char) :
    s.step_Trace call now text = { s with
      log := { s.log with m_listUsedContent := s.log.m_listUsedContent ++ [ptrContent] }
      m_cs := some { call with pc := .leave none }
      pushed := s.pushed ++ [s.log.line ptrContent] } := by
  unfold step_Trace
  rw [hpc]

theorem step_leave {ptrContent : Option Nat} (hpc : call.pc = .leave ptrContent) (now : tm)
    (text : List Char) : s.step_Trace call now text = { s with m_cs := none } := by
  unfold step_Trace
  rw [hpc]

theorem step_worker_test (hworker : s.worker = .test) (fopens : Bool) :
    s.step_LogWriteHandler fopens =
      { s with worker := if s.log.m_bStopWorkThread then .drain else .take false } := by
  unfold step_LogWriteHandler
  rw [hworker]

theorem step_drain (hworker : s.worker = .drain) (fopens : Bool) :
    s.step_LogWriteHandler fopens = { s with worker := .take true } := by
  unfold step_LogWriteHandler
  rw [hworker]

theorem step_release {final : Bool} {ptrContent : Nat}
    (hworker : s.worker = .release final ptrContent) (fopens : Bool) :
    s.step_LogWriteHandler fopens = { s with
      log := { s.log with m_listFreeContent := s.log.m_listFreeContent ++ [ptrContent] }
      worker := if final then .take true else .test } := by
  unfold step_LogWriteHandler
  rw [hworker]
  rfl

/-- The worker's write. -/
theorem step_write {final : Bool} {ptrContent : Nat} (hworker : s.worker = .write final ptrContent)
    (fopens : Bool) :
    s.step_LogWriteHandler fopens = { s with
      log := (s.log.WriteImmediately (s.log.m_astContent ptrContent) fopens).2
      worker := .release final ptrContent
      written := s.written ++
        (s.log.WriteImmediately (s.log.m_astContent ptrContent) fopens).1.toList } := by
  unfold step_LogWriteHandler
  rw [hworker]

theorem step_take_nil {final : Bool} (hworker : s.worker = .take final)
    (hused : s.log.m_listUsedContent = []) (fopens : Bool) :
    s.step_LogWriteHandler fopens =
      { s with worker := if final then .ended else .test } := by
  unfold step_LogWriteHandler
  rw [hworker]
  simp only [hused]

theorem step_take_cons {final : Bool} {first : Nat} {rest : List Nat}
    (hworker : s.worker = .take final) (hused : s.log.m_listUsedContent = first :: rest)
    (fopens : Bool) :
    s.step_LogWriteHandler fopens = { s with
      log := { s.log with m_listUsedContent := rest }
      worker := .write final first } := by
  unfold step_LogWriteHandler
  rw [hworker]
  simp only [hused]

end

/-- A call of `Trace`. It returns at once or goes on to `m_cs`. -/
def Trace (s : log_run) (thread : Nat) (bType : UInt8) (strInfo_null : Bool) : log_run :=
  if strInfo_null ∨ bType ≥ ELT_Max then s
  else if !s.log.PeekLogMask bType then s
  else { s with waiting := Function.update s.waiting thread (some bType) }

/-- Whether the thread is in a `Trace` call. -/
def in_Trace (s : log_run) (thread : Nat) : Bool :=
  (s.waiting thread).isSome || s.m_cs.any fun call => call.thread == thread

/-- One step of one thread, if that step is possible. -/
def exec (s : log_run) : log_event → Option log_run
  | .AppendLogMask bType => some { s with log := s.log.AppendLogMask bType }
  | .RemoveLogMask bType => some { s with log := s.log.RemoveLogMask bType }
  | .Trace thread bType strInfo_null =>
    if s.in_Trace thread then none else some (s.Trace thread bType strInfo_null)
  | .Trace_enter thread =>
    if s.m_cs.isSome then none
    else (s.waiting thread).map fun bType =>
      { s with
        waiting := Function.update s.waiting thread none
        m_cs := some { thread := thread, bType := bType, pc := .alloc } }
  | .Trace_step now text =>
    s.m_cs.bind fun call =>
      -- `m_cs4UsedContent` is needed to push
      if call.pc.pushes && s.worker.in_used_section then none
      else some (s.step_Trace call now text)
  | .LogWriteHandler fopens =>
    if s.worker = .ended then none else some (s.step_LogWriteHandler fopens)
  | .StopWorkThead =>
    if s.stop = .not_called then
      some { s with log := { s.log with m_bStopWorkThread := true }, stop := .joining }
    else none
  | .StopWorkThead_join =>
    -- `join` waits for the end of the worker
    if s.stop = .joining ∧ s.worker = .ended then some { s with stop := .returned } else none

/-- After `Init`: the worker thread has been started. -/
def start (log : WLog) : log_run where
  log := log
  waiting := fun _ => none
  m_cs := none
  worker := .test
  stop := .not_called
  pushed := []
  written := []

/-- All runs of a log with `max(iContentCount, 1)` blocks. -/
def system (iContentCount : Int) : System log_run log_event :=
  System.ofExec (fun s => ∃ strLogPath strLogName memory,
    s = start (WLog.Init strLogPath strLogName iContentCount memory)) exec

end log_run

end AsioNet
