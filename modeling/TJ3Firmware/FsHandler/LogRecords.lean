import TJ3Firmware.FsHandler.Runs
import TJ3Firmware.Library.Stream

namespace TJ3Firmware

open Library.Memory Library.Interaction Library.Stream

section LogCall

-- A call of fs_handler_append_log with a short file name and a line that is
-- not empty, holds no NUL and a newline at most at its end.
structure LogCall where
  name : List Byte
  line : List Byte
  short : name.length ≤ 58
  nonempty : line ≠ []
  noNul : 0x00#8 ∉ line
  noInnerNewline : newline ∉ line.dropLast

namespace LogCall

variable (call : LogCall)

-- The line without its newline, if it has one.
def record : List Byte := if call.line.getLast call.nonempty = newline then call.line.dropLast else call.line

theorem newline_not_mem_record : newline ∉ call.record := by
  unfold record
  split
  · exact call.noInnerNewline
  · rename_i hlast
    intro hmem
    rw [← List.dropLast_append_getLast call.nonempty] at hmem
    rcases List.mem_append.mp hmem with hmem | hmem
    · exact call.noInnerNewline hmem
    · exact hlast (List.mem_singleton.mp hmem).symm

theorem record_newline_of_eq (h : call.line.getLast call.nonempty = newline) :
    call.line = call.record ++ [newline] := by
  rw [record, if_pos h, ← h, List.dropLast_append_getLast]

end LogCall

-- The path buffer has room for 58 bytes of the name.
theorem logPath_eq_take (name : List Byte) : logPath name = MOUNT_POINT ++ textBytes "/" ++ name.take 58 := by
  have hfront : (MOUNT_POINT ++ textBytes "/").length = 5 := by decide
  rw [logPath, snprintf, List.take_append, hfront, List.take_of_length_le (by omega)]

theorem logPath_eq_iff (first second : List Byte) :
    logPath first = logPath second ↔ first.take 58 = second.take 58 := by
  rw [logPath_eq_take, logPath_eq_take, List.append_right_inj]

-- The path of a short name is not cut off.
theorem logPath_eq (name : List Byte) (h : name.length ≤ 58) : logPath name = MOUNT_POINT ++ textBytes "/" ++ name := by
  rw [logPath_eq_take, List.take_of_length_le h]

theorem logPath_inj (first second : List Byte) (hfirst : first.length ≤ 58) (hsecond : second.length ≤ 58)
    (h : logPath first = logPath second) : first = second := by
  have htake := (logPath_eq_iff first second).mp h
  rwa [List.take_of_length_le hfirst, List.take_of_length_le hsecond] at htake

end LogCall

section Files

-- The files by their path, and the one that is open with its flags.
structure Files where
  content : List Byte → Option (List Byte)
  opened : Option (List Byte × List OpenFlag)

-- The file system with all calls succeeding in full. Nothing is said about
-- calls other than these, nor about a write without FS_O_APPEND.
def filesAdvance (files : Files) (event : ZephyrEvent) (next : Files) : Prop :=
  match event with
  | ⟨.fsOpen path flags, rc⟩ => rc = (0 : Int) ∧ next.opened = some (path, flags) ∧
      next.content = if .create ∈ flags then Function.update files.content path (some ((files.content path).getD []))
        else files.content
  | ⟨.fsWrite data, rc⟩ => rc = (data.length : Int) ∧ next.opened = files.opened ∧
      ∀ path flags, files.opened = some (path, flags) → .append ∈ flags →
        next.content = Function.update files.content path (some ((files.content path).getD [] ++ data))
  | ⟨.fsClose, rc⟩ => rc = (0 : Int) ∧ next.content = files.content ∧ next.opened = none
  | _ => True

-- A file to which records were appended. It is only touched if there are any.
def grow (content : Option (List Byte)) (records : List (List Byte)) : Option (List Byte) :=
  if records = [] then content else some (content.getD [] ++ terminated newline records)

theorem grow_cons (content : Option (List Byte)) (record : List Byte) (records : List (List Byte)) :
    grow (some (content.getD [] ++ record ++ [newline])) records = grow content (record :: records) := by
  unfold grow
  rw [if_neg (List.cons_ne_nil _ _), terminated_cons]
  split
  · rename_i hnil
    rw [hnil, List.append_assoc]
    rfl
  · simp

-- What one call makes of the files.
def Appended (call : LogCall) (files next : Files) : Prop :=
  ∀ path, next.content path =
    if path = logPath call.name then some ((files.content path).getD [] ++ call.record ++ [newline])
    else files.content path

-- Without its newline the line is written as it is and the newline after it.
theorem appendLog_appended (call : LogCall) (files : Files) :
    wp (fun _ _ => True) filesAdvance (fsHandlerAppendLog call.name call.line)
      (fun outcome next => outcome = .ok (call.line.length : Int) ∧ Appended call files next) files := by
  unfold fsHandlerAppendLog
  apply wp_call (ZephyrCall.fsOpen (logPath call.name) [.create, .rdwr, .append]) _ _ _ trivial
  intro (rcOpen : Int) opened ⟨hopen, hopened, hcreated⟩
  subst hopen
  rw [if_pos (by decide)] at hcreated
  rw [if_neg (by decide)]
  apply wp_call (ZephyrCall.fsWrite call.line) _ _ _ trivial
  intro (rcWrite : Int) written ⟨hcount, hstill, hwritten⟩
  subst hcount
  have hcontent := hwritten _ _ hopened (by decide)
  rw [read_lastIndex call.line call.nonempty, Prog.ofExcept_ok_bind]
  split
  · rename_i hlast
    refine wp_call (ZephyrCall.fsWrite [newline]) _ _ _ trivial fun _ ended hend => ?_
    refine wp_call ZephyrCall.fsClose _ _ _ trivial fun _ closed hclose => ⟨rfl, ?_⟩
    have hended := hend.2.2 _ _ (hstill.trans hopened) (by decide)
    intro path
    rw [hclose.2.1, hended, hcontent, hcreated, LogCall.record, if_neg hlast]
    by_cases hpath : path = logPath call.name
    · rw [hpath]
      simp
    · simp [hpath]
  · rename_i hlast
    refine wp_call ZephyrCall.fsClose _ _ _ trivial fun _ closed hclose => ⟨rfl, ?_⟩
    have hline := call.record_newline_of_eq (not_not.mp hlast)
    intro path
    rw [hclose.2.1, hcontent, hcreated]
    by_cases hpath : path = logPath call.name
    · rw [hpath]
      simp [← hline]
    · simp [hpath]

-- One call after another.
def appendLogs : List LogCall → Firmware Unit
  | [] => pure ()
  | call :: rest => do
      let _ ← fsHandlerAppendLog call.name call.line
      appendLogs rest

-- The records addressed to a path, in call order.
def recordsAt (path : List Byte) (calls : List LogCall) : List (List Byte) :=
  (calls.filter fun call => logPath call.name = path).map LogCall.record

theorem grow_of_appended (call : LogCall) (rest : List LogCall) (files next : Files) (h : Appended call files next)
    (path : List Byte) : grow (next.content path) (recordsAt path rest) =
      grow (files.content path) (recordsAt path (call :: rest)) := by
  rw [h path, recordsAt, recordsAt, List.filter_cons]
  by_cases hpath : path = logPath call.name
  · rw [if_pos hpath, if_pos (by simp [hpath]), List.map_cons, grow_cons]
  · have hother : ¬logPath call.name = path := fun hname => hpath hname.symm
    rw [if_neg hpath, if_neg (by simpa using hother)]

theorem appendLogs_grow (calls : List LogCall) (files : Files) :
    wp (fun _ _ => True) filesAdvance (appendLogs calls)
      (fun _ next => ∀ path, next.content path = grow (files.content path) (recordsAt path calls)) files := by
  induction calls generalizing files with
  | nil => exact fun path => (if_pos rfl).symm
  | cons call rest ih =>
      refine (wp_bind _ _ _ _).mpr (wp_mono _ _ _ ?_ files (appendLog_appended call files))
      intro outcome next ⟨houtcome, happended⟩
      rw [houtcome, andThen_ok]
      refine wp_mono _ _ _ ?_ next (ih next)
      intro _ last hlast path
      rw [hlast path, grow_of_appended call rest files next happended path]

theorem newline_not_mem_recordsAt (path : List Byte) (calls : List LogCall) :
    ∀ record ∈ recordsAt path calls, newline ∉ record := by
  intro record hrecord
  obtain ⟨call, -, rfl⟩ := List.mem_map.mp hrecord
  exact call.newline_not_mem_record

-- The lines addressed to a file name, without their newlines.
def recordsOf (name : List Byte) (calls : List LogCall) : List (List Byte) :=
  (calls.filter fun call => call.name = name).map LogCall.record

-- The paths keep the files apart.
theorem recordsAt_eq (name : List Byte) (hname : name.length ≤ 58) (calls : List LogCall) :
    recordsAt (MOUNT_POINT ++ textBytes "/" ++ name) calls = recordsOf name calls := by
  have hfilter : (calls.filter fun call => logPath call.name = logPath name) =
      calls.filter fun call => call.name = name := by
    apply List.filter_congr
    intro call _
    rw [decide_eq_decide]
    exact ⟨logPath_inj call.name name call.short hname, fun h => congrArg logPath h⟩
  rw [recordsAt, recordsOf, ← logPath_eq name hname, hfilter]

end Files

-- Each file written to splits at its newlines into the lines addressed to it,
-- and a call leaves every other file as it was.
theorem log_records_recoverable (calls : List LogCall) (files final : Files) (run : Run (appendLogs calls))
    (hblank : ∀ path, files.content path = none ∨ files.content path = some [])
    (hpath : Path filesAdvance files run.trace final) :
    (∀ call ∈ calls, ∃ bytes, final.content (MOUNT_POINT ++ textBytes "/" ++ call.name) = some bytes ∧
      bytes.getLast? = some newline ∧ bytes.splitOn newline = recordsOf call.name calls ++ [[]]) ∧
    (∀ path, (∀ call ∈ calls, path ≠ MOUNT_POINT ++ textBytes "/" ++ call.name) → final.content path = files.content path) ∧
    ∀ (call : LogCall) (before after : Files) (single : Run (fsHandlerAppendLog call.name call.line)),
      Path filesAdvance before single.trace after →
        ∀ path, path ≠ MOUNT_POINT ++ textBytes "/" ++ call.name → after.content path = before.content path := by
  have hgrow := wp_post _ _ _ _ _ _ (appendLogs_grow calls files) run.runs hpath
  refine ⟨?_, ?_, ?_⟩
  · intro call hcall
    have hwritten : recordsOf call.name calls ≠ [] := by
      refine List.ne_nil_of_mem (List.mem_map.mpr ⟨call, ?_, rfl⟩)
      exact List.mem_filter.mpr ⟨hcall, by simp⟩
    have hcontent := hgrow (MOUNT_POINT ++ textBytes "/" ++ call.name)
    rw [recordsAt_eq call.name call.short, grow, if_neg hwritten] at hcontent
    have hempty : (files.content (MOUNT_POINT ++ textBytes "/" ++ call.name)).getD [] = [] := by
      rcases hblank (MOUNT_POINT ++ textBytes "/" ++ call.name) with h | h
      · rw [h]
        rfl
      · rw [h]
        rfl
    rw [hempty, List.nil_append] at hcontent
    refine ⟨_, hcontent, getLast?_terminated newline _ hwritten, splitOn_terminated newline _ ?_⟩
    rw [← recordsAt_eq call.name call.short]
    exact newline_not_mem_recordsAt _ calls
  · intro path hother
    rw [hgrow path, grow, if_pos]
    rw [recordsAt, List.map_eq_nil_iff, List.filter_eq_nil_iff]
    intro call hcall
    rw [decide_eq_true_iff, logPath_eq call.name call.short]
    exact fun h => hother call hcall h.symm
  · intro call before after single hsingle path hother
    have happended := (wp_post _ _ _ _ _ _ (appendLog_appended call before) single.runs hsingle).2 path
    rwa [logPath_eq call.name call.short, if_neg hother] at happended

-- Every call succeeds in full.
def fullReplies : (call : ZephyrCall) → ZephyrReply call
  | .fsWrite data => (data.length : Int)
  | .flashAreaOpen _ => (0, ⟨0, 65536⟩)
  | .fsRead _ => (0, [])
  | .flashAreaClose _ => ()
  | .ledOn => ()
  | .ledOff => ()
  | .fsMount _ => (0 : Int)
  | .fsUnmount _ => (0 : Int)
  | .fsMkfs _ => (0 : Int)
  | .fsStatvfs _ => (0 : Int)
  | .fsOpen _ _ => (0 : Int)
  | .fsSeek _ => (0 : Int)
  | .fsClose => (0 : Int)
  | .flashAreaErase _ _ _ => (0 : Int)
  | .flashGetPageInfoByOffs _ => (0 : Int)
  | .btGattIndicate _ _ => (0 : Int)

theorem filesAdvance_full (op : ZephyrCall) (files : Files) : ∃ next, filesAdvance files ⟨op, fullReplies op⟩ next := by
  cases op with
  | fsOpen path flags => exact ⟨⟨_, _⟩, rfl, rfl, rfl⟩
  | fsWrite data =>
      obtain ⟨content, opened⟩ := files
      cases opened with
      | none => exact ⟨⟨content, none⟩, rfl, rfl, fun _ _ h => nomatch h⟩
      | some file =>
          refine ⟨⟨Function.update content file.1 (some ((content file.1).getD [] ++ data)), some file⟩, rfl, rfl, ?_⟩
          intro path flags hopened _
          cases hopened
          rfl
  | fsClose => exact ⟨⟨files.content, none⟩, rfl, rfl, rfl⟩
  | _ => exact ⟨files, trivial⟩

-- Two files: a line with its newline and one without.
def twoLogs : List LogCall :=
  [⟨textBytes "a.csv", textBytes "1,2\n", by decide, by decide, by decide, by decide⟩,
    ⟨textBytes "b.csv", textBytes "3", by decide, by decide, by decide, by decide⟩]

def noFiles : Files := ⟨fun _ => none, none⟩

theorem log_records_recoverable_two : ∃ (run : Run (appendLogs twoLogs)) (final : Files),
    Path filesAdvance noFiles run.trace final ∧
    (∀ call ∈ twoLogs, ∃ bytes, final.content (MOUNT_POINT ++ textBytes "/" ++ call.name) = some bytes ∧
      bytes.getLast? = some newline ∧ bytes.splitOn newline = recordsOf call.name twoLogs ++ [[]]) ∧
    (∀ path, (∀ call ∈ twoLogs, path ≠ MOUNT_POINT ++ textBytes "/" ++ call.name) → final.content path = none) ∧
    ∀ (call : LogCall) (before after : Files) (single : Run (fsHandlerAppendLog call.name call.line)),
      Path filesAdvance before single.trace after →
        ∀ path, path ≠ MOUNT_POINT ++ textBytes "/" ++ call.name → after.content path = before.content path := by
  obtain ⟨final, hpath⟩ := exists_path noFiles ((appendLogs twoLogs).runWith fullReplies).trace (by
    intro event hevent files
    rw [event_runWith fullReplies _ event hevent]
    exact filesAdvance_full event.op files)
  exact ⟨(appendLogs twoLogs).runWith fullReplies, final, hpath,
    log_records_recoverable twoLogs noFiles final _ (fun _ => Or.inl rfl) hpath⟩

end TJ3Firmware
