import TJ3Firmware.FsHandler.LogRecords

namespace TJ3Firmware

open Library.Memory Library.Interaction

section Paths

def openedPath : ZephyrEvent → Option (List Byte)
  | ⟨.fsOpen path _, _⟩ => some path
  | _ => none

def IsWrite : ZephyrCall → Prop
  | .fsWrite _ => True
  | _ => False

-- A file was opened under this path and written to.
def WritesTo (trace : List ZephyrEvent) (path : List Byte) : Prop :=
  path ∈ trace.filterMap openedPath ∧ ∃ event ∈ trace, IsWrite event.op

-- The call stays within the line, and it opens the file of the whole name or
-- fails without a write.
def LogSafe (name : List Byte) (trace : List ZephyrEvent) (outcome : Except Fault Int) : Prop :=
  ∃ rc : Int, outcome = .ok rc ∧
    (trace.filterMap openedPath = [MOUNT_POINT ++ textBytes "/" ++ name] ∨ rc < 0 ∧ ∀ event ∈ trace, ¬IsWrite event.op)

variable {name : List Byte} {line : List Byte} {trace : List ZephyrEvent} {outcome : Except Fault Int}

theorem logRun_opens (h : LogRun name line trace outcome) : trace.filterMap openedPath = [logPath name] := by
  cases h <;> rfl

theorem logRun_returns (h : LogRun name line trace outcome) (hline : line ≠ []) : ∃ rc : Int, outcome = .ok rc := by
  cases h with
  | refused opening _ => exact ⟨opening, rfl⟩
  | outside _ _ _ hempty => exact absurd hempty hline
  | ended _ writing _ _ _ => exact ⟨writing, rfl⟩
  | completed _ writing _ _ _ _ _ => exact ⟨writing, rfl⟩

theorem logRun_outside (h : LogRun name [] trace outcome) (hwrites : ∃ event ∈ trace, IsWrite event.op) :
    outcome = .error (.read (2 ^ 32 - 1)) := by
  cases h with
  | refused opening _ =>
      obtain ⟨event, hmem, hwrite⟩ := hwrites
      rw [List.mem_singleton.mp hmem] at hwrite
      exact absurd hwrite id
  | outside _ _ _ _ => rfl
  | ended _ _ _ _ hline => cases hline
  | completed _ _ _ _ _ hline _ => exact absurd rfl hline

-- With all calls succeeding the line is written.
theorem logRun_full (h : LogRun name line trace outcome)
    (hreplies : ∀ event ∈ trace, event = ⟨event.op, fullReplies event.op⟩) :
    wrote line line.length ∈ trace ∧ ∀ rc : Int, outcome = .ok rc → 0 ≤ rc := by
  have hwrite (writing : Int) (hmem : wrote line writing ∈ trace) : writing = line.length := by
    have heq := hreplies _ hmem
    simpa [wrote, fullReplies] using heq
  cases h with
  | refused opening hopening =>
      have heq := hreplies _ (List.mem_singleton_self _)
      have hzero : opening = 0 := by simpa [openedLog, fullReplies] using heq
      omega
  | outside opening writing _ _ =>
      have hcount := hwrite writing (by simp)
      subst hcount
      exact ⟨by simp, fun _ houtcome => nomatch houtcome⟩
  | ended opening writing closing _ _ =>
      have hcount := hwrite writing (by simp)
      subst hcount
      refine ⟨by simp, fun rc houtcome => ?_⟩
      cases houtcome
      omega
  | completed opening writing ending closing _ _ _ =>
      have hcount := hwrite writing (by simp)
      subst hcount
      refine ⟨by simp, fun rc houtcome => ?_⟩
      cases houtcome
      omega

theorem exists_full_run (name : List Byte) (line : List Byte) : ∃ run : Run (fsHandlerAppendLog name line),
    wrote line line.length ∈ run.trace ∧ ∀ rc : Int, run.outcome = .ok rc → 0 ≤ rc := by
  refine ⟨(fsHandlerAppendLog name line).runWith fullReplies, ?_⟩
  exact logRun_full (appendLog_runs _ _ _ _ (Run.runs _)) (event_runWith fullReplies _)

theorem logPath_eq_whole_iff (name : List Byte) : logPath name = MOUNT_POINT ++ textBytes "/" ++ name ↔ name.length ≤ 58 := by
  constructor
  · intro h
    rw [logPath_eq_take, List.append_right_inj] at h
    have hlength := congrArg List.length h
    rw [List.length_take] at hlength
    omega
  · exact logPath_eq name

theorem logSafe_iff (name : List Byte) (line : List Byte) :
    (∀ run : Run (fsHandlerAppendLog name line), LogSafe name run.trace run.outcome) ↔
      name.length ≤ 58 ∧ line ≠ [] := by
  constructor
  · intro h
    obtain ⟨run, hwrote, hpositive⟩ := exists_full_run name line
    obtain ⟨rc, houtcome, hsafe⟩ := h run
    have hlog := appendLog_runs _ _ _ _ run.runs
    refine ⟨?_, ?_⟩
    · rcases hsafe with hopens | ⟨hnegative, -⟩
      · rw [logRun_opens hlog, List.cons.injEq] at hopens
        exact (logPath_eq_whole_iff name).mp hopens.1
      · have hnonneg := hpositive rc houtcome
        omega
    · rintro rfl
      have hfault := logRun_outside hlog ⟨_, hwrote, trivial⟩
      rw [houtcome] at hfault
      cases hfault
  · intro ⟨hname, hline⟩ run
    have hlog := appendLog_runs _ _ _ _ run.runs
    obtain ⟨rc, houtcome⟩ := logRun_returns hlog hline
    refine ⟨rc, houtcome, Or.inl ?_⟩
    rw [logRun_opens hlog, logPath_eq name hname]

-- A run writes to the path of its name and to no other.
theorem writesTo_run (run : Run (fsHandlerAppendLog name line)) (path : List Byte) (h : WritesTo run.trace path) :
    path = logPath name := by
  have hpath := h.1
  rw [logRun_opens (appendLog_runs _ _ _ _ run.runs)] at hpath
  exact List.mem_singleton.mp hpath

theorem exists_writesTo (name : List Byte) (line : List Byte) :
    ∃ run : Run (fsHandlerAppendLog name line), WritesTo run.trace (logPath name) := by
  obtain ⟨run, hwrote, -⟩ := exists_full_run name line
  refine ⟨run, ?_, _, hwrote, trivial⟩
  rw [logRun_opens (appendLog_runs _ _ _ _ run.runs)]
  exact List.mem_singleton_self _

theorem writesTo_same_iff (name other : List Byte) (line line' : List Byte) :
    (∃ (run : Run (fsHandlerAppendLog name line)) (run' : Run (fsHandlerAppendLog other line')) (path : List Byte),
      WritesTo run.trace path ∧ WritesTo run'.trace path) ↔ name.take 58 = other.take 58 := by
  rw [← logPath_eq_iff]
  constructor
  · intro ⟨run, run', path, hwrites, hwrites'⟩
    rw [← writesTo_run run path hwrites, ← writesTo_run run' path hwrites']
  · intro hsame
    obtain ⟨run, hwrites⟩ := exists_writesTo name line
    obtain ⟨run', hwrites'⟩ := exists_writesTo other line'
    rw [← hsame] at hwrites'
    exact ⟨run, run', logPath name, hwrites, hwrites'⟩

end Paths

-- The call is safe for just the lines that are not empty and the names whose
-- path is not cut off. Two names get into one file when their first 58 bytes
-- agree.
theorem append_log_safe_iff (name : List Byte) (line : List Byte) :
    ((∀ run : Run (fsHandlerAppendLog name line), LogSafe name run.trace run.outcome) ↔
      name.length ≤ 58 ∧ line ≠ []) ∧
    ∀ other line', (∃ (run : Run (fsHandlerAppendLog name line)) (run' : Run (fsHandlerAppendLog other line'))
      (path : List Byte), WritesTo run.trace path ∧ WritesTo run'.trace path) ↔
        name.take 58 = other.take 58 :=
  ⟨logSafe_iff name line, fun other line' => writesTo_same_iff name other line line'⟩

-- An empty line is read at an index that wrapped around.
theorem append_empty_line_unsafe : ¬∀ (name : List Byte) (line : List Byte) (run : Run (fsHandlerAppendLog name line)),
    LogSafe name run.trace run.outcome := by
  intro h
  have hfault : ((fsHandlerAppendLog (textBytes "log.csv") []).runWith fullReplies).outcome = .error (.read 4294967295) := by
    decide +kernel
  obtain ⟨rc, houtcome, -⟩ := h (textBytes "log.csv") [] ((fsHandlerAppendLog (textBytes "log.csv") []).runWith fullReplies)
  rw [hfault] at houtcome
  cases houtcome

section Atomic

-- The content of the file the call is about. fs_write appends as many bytes
-- as it returns, and none with an error. Nothing else changes the content.
def fileStep (content : List Byte) : ZephyrEvent → Option (List Byte)
  | ⟨.fsWrite data, rc⟩ =>
      if (rc : Int) < 0 then some content
      else if (rc : Int) ≤ data.length then some (content ++ data.take (Int.toNat rc))
      else none
  | _ => some content

def fileAdvance (content : List Byte) (event : ZephyrEvent) (next : List Byte) : Prop :=
  fileStep content event = some next

theorem fileAdvance_wrote_iff (content data next : List Byte) (rc : Int) :
    fileAdvance content (wrote data rc) next ↔ rc ≤ data.length ∧ next = content ++ data.take rc.toNat := by
  unfold fileAdvance wrote fileStep
  simp only
  by_cases hfailed : rc < 0
  · have hnone : rc.toNat = 0 := by omega
    rw [if_pos hfailed, hnone, List.take_zero, List.append_nil, Option.some.injEq]
    constructor
    · intro h
      exact ⟨by omega, h.symm⟩
    · intro h
      exact h.2.symm
  · rw [if_neg hfailed]
    by_cases hroom : rc ≤ data.length
    · rw [if_pos hroom, Option.some.injEq]
      constructor
      · intro h
        exact ⟨hroom, h.symm⟩
      · intro h
        exact h.2.symm
    · rw [if_neg hroom]
      simp [hroom]

-- After the open and the write of the line.
theorem path_of_written {name : List Byte} {line content final : List Byte} {opening writing : Int}
    {rest : List ZephyrEvent}
    (h : Path fileAdvance content (openedLog name opening :: wrote line writing :: rest) final) :
    writing ≤ line.length ∧ Path fileAdvance (content ++ line.take writing.toNat) rest final := by
  obtain ⟨_, hopened, hwritten⟩ := (path_cons_iff _ _).mp h
  cases hopened
  obtain ⟨_, hwrote, hrest⟩ := (path_cons_iff _ _).mp hwritten
  obtain ⟨hroom, rfl⟩ := (fileAdvance_wrote_iff _ _ _ _).mp hwrote
  exact ⟨hroom, hrest⟩

theorem eq_of_closed {content final : List Byte} {closing : Int}
    (h : Path fileAdvance content [⟨.fsClose, closing⟩] final) : final = content := by
  obtain ⟨_, hclose, hnil⟩ := (path_cons_iff _ _).mp h
  cases hclose
  exact path_nil_iff.mp hnil

-- The line with the newline it may lack.
def wholeLine (line : List Byte) : List Byte := line ++ if EndsLine line then [] else [newline]

-- All of the line is there, or nothing of it when the call failed.
def Atomic (line content final : List Byte) (outcome : Except Fault Int) : Prop :=
  ∃ rc : Int, outcome = .ok rc ∧ (0 ≤ rc → final = content ++ wholeLine line) ∧ (rc < 0 → final = content)

-- The results of fs_open and of the writes, in call order.
def callResult : ZephyrEvent → Option Int
  | ⟨.fsOpen _ _, rc⟩ => some rc
  | ⟨.fsWrite _, rc⟩ => some rc
  | _ => none

-- The results with which nothing is torn: the file does not open, or both
-- writes are complete, or neither has an effect. A line that ends in a newline
-- takes one write.
def Intact (line : List Byte) (opening writing ending : Int) : Prop :=
  opening < 0 ∨ (writing = line.length ∧ (EndsLine line ∨ ending = 1)) ∨
    (writing < 0 ∧ (EndsLine line ∨ ending ≤ 0))

theorem atomic_ok_iff (line content final : List Byte) (rc : Int) :
    Atomic line content final (.ok rc) ↔
      (0 ≤ rc → final = content ++ wholeLine line) ∧ (rc < 0 → final = content) := by
  constructor
  · intro ⟨_, houtcome, h⟩
    cases houtcome
    exact h
  · intro h
    exact ⟨rc, rfl, h⟩

variable {line content : List Byte} {writing ending : Int}

theorem atomic_ended_iff (hends : EndsLine line) (hroom : writing ≤ line.length) :
    Atomic line content (content ++ line.take writing.toNat) (.ok writing) ↔ writing = line.length ∨ writing < 0 := by
  rw [atomic_ok_iff, wholeLine, if_pos hends, List.append_nil]
  constructor
  · intro ⟨hwhole, _⟩
    by_cases hfailed : writing < 0
    · exact Or.inr hfailed
    · have hlength := congrArg List.length (hwhole (by omega))
      simp only [List.length_append, List.length_take] at hlength
      omega
  · rintro (rfl | hfailed)
    · refine ⟨fun _ => ?_, fun hnegative => absurd hnegative (by omega)⟩
      rw [Int.toNat_natCast, List.take_length]
    · have hnone : writing.toNat = 0 := by omega
      refine ⟨fun hpositive => absurd hpositive (by omega), fun _ => ?_⟩
      rw [hnone, List.take_zero, List.append_nil]

theorem atomic_completed_iff (hopen : ¬EndsLine line) (hroom : writing ≤ line.length) (hsingle : ending ≤ 1) :
    Atomic line content (content ++ line.take writing.toNat ++ [newline].take ending.toNat) (.ok writing) ↔
      writing = line.length ∧ ending = 1 ∨ writing < 0 ∧ ending ≤ 0 := by
  rw [atomic_ok_iff, wholeLine, if_neg hopen]
  constructor
  · intro ⟨hwhole, hnothing⟩
    by_cases hfailed : writing < 0
    · have hlength := congrArg List.length (hnothing hfailed)
      simp only [List.length_append, List.length_take, List.length_singleton] at hlength
      omega
    · have hlength := congrArg List.length (hwhole (by omega))
      simp only [List.length_append, List.length_take, List.length_singleton] at hlength
      omega
  · rintro (⟨rfl, rfl⟩ | ⟨hfailed, hnone⟩)
    · refine ⟨fun _ => ?_, fun hnegative => absurd hnegative (by omega)⟩
      rw [Int.toNat_natCast, List.take_length, List.append_assoc]
      rfl
    · have hzero : writing.toNat = 0 := by omega
      have hzero' : ending.toNat = 0 := by omega
      refine ⟨fun hpositive => absurd hpositive (by omega), fun _ => ?_⟩
      rw [hzero, hzero', List.take_zero, List.take_zero, List.append_nil, List.append_nil]

end Atomic

-- The call is atomic for just these results of its calls.
theorem append_atomic_iff (name : List Byte) (line : List Byte) (hline : line ≠ []) (opening writing ending : Int)
    (run : Run (fsHandlerAppendLog name line))
    (hresults : run.trace.filterMap callResult <+: [opening, writing, ending]) (content final : List Byte)
    (hpath : Path fileAdvance content run.trace final) :
    Atomic line content final run.outcome ↔ Intact line opening writing ending := by
  have hlog := appendLog_runs _ _ _ _ run.runs
  obtain ⟨trace, outcome, hruns⟩ := run
  dsimp only at hlog hpath hresults ⊢
  cases hlog with
  | refused opening' hopening =>
      obtain ⟨_, hopened, hnil⟩ := (path_cons_iff _ _).mp hpath
      cases hopened
      cases path_nil_iff.mp hnil
      have hfront : [opening'] <+: [opening, writing, ending] := hresults
      obtain rfl : opening' = opening := by simpa using hfront
      rw [atomic_ok_iff]
      constructor
      · exact fun _ => Or.inl hopening
      · exact fun _ => ⟨fun hpositive => absurd hpositive (by omega), fun _ => rfl⟩
  | outside _ _ _ hempty => exact absurd hempty hline
  | ended opening' writing' closing hopening hends =>
      obtain ⟨hroom, hclosed⟩ := path_of_written hpath
      cases eq_of_closed hclosed
      have hfront : [opening', writing'] <+: [opening, writing, ending] := hresults
      obtain ⟨rfl, rfl⟩ : opening' = opening ∧ writing' = writing := by simpa using hfront
      rw [atomic_ended_iff hends hroom, Intact]
      simp only [hends, true_or, and_true]
      omega
  | completed opening' writing' ending' closing hopening _ hopen =>
      obtain ⟨hroom, hended⟩ := path_of_written hpath
      obtain ⟨_, hend, hclosed⟩ := (path_cons_iff _ _).mp hended
      obtain ⟨hsingle, rfl⟩ := (fileAdvance_wrote_iff _ _ _ _).mp hend
      cases eq_of_closed hclosed
      have hfront : [opening', writing', ending'] <+: [opening, writing, ending] := hresults
      obtain ⟨rfl, rfl, rfl⟩ : opening' = opening ∧ writing' = writing ∧ ending' = ending := by simpa using hfront
      rw [atomic_completed_iff hopen hroom (by simpa using hsingle), Intact]
      simp only [hopen, false_or]
      omega

def appendRun (replies : (call : ZephyrCall) → ZephyrReply call) : Run (fsHandlerAppendLog (textBytes "log.csv") (textBytes "1,2")) :=
  Prog.runWith replies _

-- Three bytes and their newline.
theorem append_atomic_iff_full :
    Atomic (textBytes "1,2") (textBytes "a\n") (textBytes "a\n1,2\n") (appendRun fullReplies).outcome ↔
      Intact (textBytes "1,2") 0 3 1 :=
  append_atomic_iff (textBytes "log.csv") (textBytes "1,2") (by decide) 0 3 1 (appendRun fullReplies) (by decide +kernel)
    (textBytes "a\n") (textBytes "a\n1,2\n") (path_of_foldlM fileStep _ (by decide +kernel))

-- The write of the line fails, that of the newline does not.
def tornReplies : (call : ZephyrCall) → ZephyrReply call
  | .fsWrite data => if data = [newline] then (1 : Int) else - EIO
  | call => fullReplies call

-- A call that fails leaves a newline behind.
theorem append_failed_not_atomic : ¬∀ (name : List Byte) (line : List Byte) (run : Run (fsHandlerAppendLog name line))
    (content final : List Byte), line ≠ [] → Path fileAdvance content run.trace final →
      Atomic line content final run.outcome := by
  intro h
  have hpath : Path fileAdvance (textBytes "a\n") (appendRun tornReplies).trace (textBytes "a\n\n") :=
    path_of_foldlM fileStep _ (by decide +kernel)
  obtain ⟨rc, houtcome, -, hnothing⟩ := h _ _ (appendRun tornReplies) _ _ (by decide) hpath
  have hfailed : (appendRun tornReplies).outcome = .ok (-5) := by decide +kernel
  rw [hfailed] at houtcome
  cases houtcome
  exact absurd (hnothing (by omega)) (by decide)

end TJ3Firmware
