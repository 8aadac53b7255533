import TJ3Firmware.FsHandler

namespace TJ3Firmware

open Library.Memory Library.Interaction

section TestRun

def openedTest (rc : Int) : ZephyrEvent := ⟨.fsOpen (MOUNT_POINT ++ textBytes "/test.txt") [.create, .rdwr], rc⟩

def wroteTest (rc : Int) : ZephyrEvent := ⟨.fsWrite writeData, rc⟩

def soughtStart (rc : Int) : ZephyrEvent := ⟨.fsSeek 0, rc⟩

def readTest (rc : Int) (delivered : List Byte) : ZephyrEvent := ⟨.fsRead (READ_DATA_SIZE - 1), (rc, delivered)⟩

-- The ways fs_handler_test can go, by its results.
inductive TestRun : List ZephyrEvent → Except Fault Int → Prop
  | unopened (opening : Int) (hopening : opening < 0) : TestRun [openedTest opening] (.ok opening)
  | unwritten (opening writing closing : Int) (hopening : 0 ≤ opening) (hwriting : writing < 0) :
      TestRun [openedTest opening, wroteTest writing, ⟨.fsClose, closing⟩] (.ok writing)
  | unsought (opening writing seeking closing : Int) (hopening : 0 ≤ opening) (hwriting : 0 ≤ writing)
      (hseeking : seeking < 0) :
      TestRun [openedTest opening, wroteTest writing, soughtStart seeking, ⟨.fsClose, closing⟩] (.ok seeking)
  | unread (opening writing seeking reading closing : Int) (delivered : List Byte) (hopening : 0 ≤ opening)
      (hwriting : 0 ≤ writing) (hseeking : 0 ≤ seeking) (hreading : reading < 0) :
      TestRun [openedTest opening, wroteTest writing, soughtStart seeking, readTest reading delivered,
        ⟨.fsClose, closing⟩] (.ok reading)
  | passed (opening writing seeking reading closing : Int) (delivered : List Byte) (hopening : 0 ≤ opening)
      (hwriting : 0 ≤ writing) (hseeking : 0 ≤ seeking) (hreading : 0 ≤ reading) :
      TestRun [openedTest opening, wroteTest writing, soughtStart seeking, readTest reading delivered,
        ⟨.fsClose, closing⟩] (.ok 0)

-- The rest of the function once a call has failed.
theorem runs_close (rc : Int) (trace : List ZephyrEvent) (outcome : Except Fault Int)
    (hruns : Runs (fsClose >>= fun _ => pure rc) trace outcome) :
    ∃ closing : Int, trace = [⟨.fsClose, closing⟩] ∧ outcome = .ok rc := by
  obtain ⟨(closing : Int), rest, rfl, hrest⟩ := (runs_perform_bind ZephyrCall.fsClose _ _ _).mp hruns
  obtain ⟨rfl, rfl⟩ := (runs_pure _ _ _).mp hrest
  exact ⟨closing, rfl, rfl⟩

theorem fsHandlerTest_runs (trace : List ZephyrEvent) (outcome : Except Fault Int)
    (hruns : Runs fsHandlerTest trace outcome) : TestRun trace outcome := by
  unfold fsHandlerTest at hruns
  obtain ⟨(opening : Int), afterOpen, rfl, hopened⟩ :=
    (runs_perform_bind (ZephyrCall.fsOpen (MOUNT_POINT ++ textBytes "/test.txt") [.create, .rdwr]) _ _ _).mp hruns
  by_cases hopening : opening < 0
  · rw [if_pos hopening] at hopened
    obtain ⟨rfl, rfl⟩ := (runs_pure _ _ _).mp hopened
    exact .unopened opening hopening
  rw [if_neg hopening] at hopened
  obtain ⟨(writing : Int), afterWrite, rfl, hwritten⟩ :=
    (runs_perform_bind (ZephyrCall.fsWrite writeData) _ _ _).mp hopened
  by_cases hwriting : writing < 0
  · rw [if_pos hwriting] at hwritten
    obtain ⟨closing, rfl, rfl⟩ := runs_close _ _ _ hwritten
    exact .unwritten opening writing closing (by omega) hwriting
  rw [if_neg hwriting] at hwritten
  obtain ⟨(seeking : Int), afterSeek, rfl, hsought⟩ :=
    (runs_perform_bind (ZephyrCall.fsSeek 0) _ _ _).mp hwritten
  by_cases hseeking : seeking < 0
  · rw [if_pos hseeking] at hsought
    obtain ⟨closing, rfl, rfl⟩ := runs_close _ _ _ hsought
    exact .unsought opening writing seeking closing (by omega) (by omega) hseeking
  rw [if_neg hseeking] at hsought
  obtain ⟨⟨reading, delivered⟩, afterRead, rfl, hread⟩ :=
    (runs_perform_bind (ZephyrCall.fsRead (READ_DATA_SIZE - 1)) _ _ _).mp hsought
  simp only at hread
  by_cases hreading : reading < 0
  · rw [if_pos hreading] at hread
    obtain ⟨closing, rfl, rfl⟩ := runs_close _ _ _ hread
    exact .unread opening writing seeking reading closing delivered (by omega) (by omega) (by omega) hreading
  · rw [if_neg hreading] at hread
    obtain ⟨closing, rfl, rfl⟩ := runs_close _ _ _ hread
    exact .passed opening writing seeking reading closing delivered (by omega) (by omega) (by omega) (by omega)

end TestRun

section FormatRun

def unmountedVolume (rc : Int) : ZephyrEvent := ⟨.fsUnmount lfsStorageMnt, rc⟩

def openedArea (rc : Int) (fa : FlashArea) : ZephyrEvent := ⟨.flashAreaOpen .littlefsStorage, (rc, fa)⟩

def erasedArea (fa : FlashArea) (rc : Int) : ZephyrEvent := ⟨.flashAreaErase fa 0 fa.faSize, rc⟩

def closedArea (fa : FlashArea) : ZephyrEvent := ⟨.flashAreaClose fa, ()⟩

def mountedVolume (rc : Int) : ZephyrEvent := ⟨.fsMount lfsStorageMnt, rc⟩

-- The ways fs_handler_low_level_format can go, by its results.
inductive FormatRun : List ZephyrEvent → Except Fault Int → Prop
  | unopened (unmounting opening : Int) (fa : FlashArea) (hopening : opening < 0) :
      FormatRun [unmountedVolume unmounting, openedArea opening fa] (.ok opening)
  | unerased (unmounting opening erasing : Int) (fa : FlashArea) (hopening : 0 ≤ opening) (herasing : erasing < 0) :
      FormatRun [unmountedVolume unmounting, openedArea opening fa, erasedArea fa erasing, closedArea fa] (.ok erasing)
  | remounted (unmounting opening erasing mounting : Int) (fa : FlashArea) (hopening : 0 ≤ opening)
      (herasing : 0 ≤ erasing) :
      FormatRun [unmountedVolume unmounting, openedArea opening fa, erasedArea fa erasing, closedArea fa, mountedVolume mounting]
        (.ok (if mounting < 0 then mounting else 0))

theorem lowLevelFormat_runs (trace : List ZephyrEvent) (outcome : Except Fault Int)
    (hruns : Runs fsHandlerLowLevelFormat trace outcome) : FormatRun trace outcome := by
  unfold fsHandlerLowLevelFormat at hruns
  obtain ⟨(unmounting : Int), afterUnmount, rfl, hunmounted⟩ :=
    (runs_perform_bind (ZephyrCall.fsUnmount lfsStorageMnt) _ _ _).mp hruns
  obtain ⟨⟨opening, fa⟩, afterOpen, rfl, hopened⟩ :=
    (runs_perform_bind (ZephyrCall.flashAreaOpen .littlefsStorage) _ _ _).mp hunmounted
  simp only at hopened
  by_cases hopening : opening < 0
  · rw [if_pos hopening] at hopened
    obtain ⟨rfl, rfl⟩ := (runs_pure _ _ _).mp hopened
    exact .unopened unmounting opening fa hopening
  rw [if_neg hopening] at hopened
  obtain ⟨(erasing : Int), afterErase, rfl, herased⟩ :=
    (runs_perform_bind (ZephyrCall.flashAreaErase fa 0 fa.faSize) _ _ _).mp hopened
  obtain ⟨_, afterClose, rfl, hclosed⟩ := (runs_perform_bind (ZephyrCall.flashAreaClose fa) _ _ _).mp herased
  by_cases herasing : erasing < 0
  · rw [if_pos herasing] at hclosed
    obtain ⟨rfl, rfl⟩ := (runs_pure _ _ _).mp hclosed
    exact .unerased unmounting opening erasing fa (by omega) herasing
  rw [if_neg herasing] at hclosed
  obtain ⟨(mounting : Int), afterMount, rfl, hmounted⟩ :=
    (runs_perform_bind (ZephyrCall.fsMount lfsStorageMnt) _ _ _).mp hclosed
  have hlast := FormatRun.remounted unmounting opening erasing mounting fa (by omega) (by omega)
  by_cases hmounting : mounting < 0
  · rw [if_pos hmounting] at hmounted hlast
    obtain ⟨rfl, rfl⟩ := (runs_pure _ _ _).mp hmounted
    exact hlast
  · rw [if_neg hmounting] at hmounted hlast
    obtain ⟨rfl, rfl⟩ := (runs_pure _ _ _).mp hmounted
    exact hlast

-- The fast format answers with the outcome of fs_mkfs.
theorem fastFormat_runs (trace : List ZephyrEvent) (status : Int) (h : Runs fsHandlerFastFormat trace (.ok status)) :
    ∃ rc : Int, trace = [⟨.fsMkfs .littlefsStorage, rc⟩] ∧ (status = 0 ↔ 0 ≤ rc) := by
  obtain ⟨(rc : Int), rest, rfl, hrest⟩ := (runs_perform_bind (ZephyrCall.fsMkfs .littlefsStorage) _ _ _).mp h
  refine ⟨rc, ?_⟩
  by_cases hfailed : rc < 0
  · rw [if_pos hfailed] at hrest
    obtain ⟨rfl, hstatus⟩ := (runs_pure _ _ _).mp hrest
    have hsame : status = rc := Except.ok.inj hstatus
    exact ⟨rfl, by omega⟩
  · rw [if_neg hfailed] at hrest
    obtain ⟨rfl, hstatus⟩ := (runs_pure _ _ _).mp hrest
    have hzero : status = 0 := Except.ok.inj hstatus
    exact ⟨rfl, by omega⟩

end FormatRun

section LogRun

-- The last byte of a line that has one.
theorem read_lastIndex (line : List Byte) (hline : line ≠ []) :
    Ptr.read ⟨line ++ [0x00#8], 0⟩ (lastIndex line) = .ok (line.getLast hline) := by
  have hpos := List.length_pos_iff.mpr hline
  have hindex : lastIndex line = line.length - 1 := if_neg (by omega)
  have hlong : (line ++ [0x00#8]).length = line.length + 1 := by rw [List.length_append, List.length_singleton]
  rw [hindex, Ptr.read_eq_getD _ _ _ 0 (by omega), Nat.zero_add, List.getD_append _ _ _ _ (by omega),
    List.getD_eq_getElem _ _ (by omega), List.getLast_eq_getElem]

def EndsLine (line : List Byte) : Prop := line.getLast? = some newline

instance (line : List Byte) : Decidable (EndsLine line) := inferInstanceAs (Decidable (line.getLast? = some newline))

def openedLog (name : List Byte) (rc : Int) : ZephyrEvent := ⟨.fsOpen (logPath name) [.create, .rdwr, .append], rc⟩

def wrote (data : List Byte) (rc : Int) : ZephyrEvent := ⟨.fsWrite data, rc⟩

-- The ways a call of fs_handler_append_log can go.
inductive LogRun (name : List Byte) (line : List Byte) : List ZephyrEvent → Except Fault Int → Prop
  | refused (opening : Int) (hopening : opening < 0) : LogRun name line [openedLog name opening] (.ok opening)
  -- line[strlen(line) - 1] is not in an empty line
  | outside (opening writing : Int) (hopening : 0 ≤ opening) (hline : line = []) :
      LogRun name line [openedLog name opening, wrote line writing] (.error (.read (2 ^ 32 - 1)))
  | ended (opening writing closing : Int) (hopening : 0 ≤ opening) (hline : EndsLine line) :
      LogRun name line [openedLog name opening, wrote line writing, ⟨.fsClose, closing⟩] (.ok writing)
  | completed (opening writing ending closing : Int) (hopening : 0 ≤ opening) (hline : line ≠ [])
      (hopen : ¬EndsLine line) :
      LogRun name line [openedLog name opening, wrote line writing, wrote [newline] ending, ⟨.fsClose, closing⟩]
        (.ok writing)

theorem endsLine_iff (line : List Byte) (hline : line ≠ []) : EndsLine line ↔ line.getLast hline = newline := by
  rw [EndsLine, List.getLast?_eq_some_getLast hline, Option.some.injEq]

theorem appendLog_runs (name : List Byte) (line : List Byte) (trace : List ZephyrEvent) (outcome : Except Fault Int)
    (hruns : Runs (fsHandlerAppendLog name line) trace outcome) : LogRun name line trace outcome := by
  unfold fsHandlerAppendLog at hruns
  obtain ⟨(opening : Int), afterOpen, rfl, hopened⟩ :=
    (runs_perform_bind (ZephyrCall.fsOpen (logPath name) [.create, .rdwr, .append]) _ _ _).mp hruns
  by_cases hopening : opening < 0
  · rw [if_pos hopening] at hopened
    obtain ⟨rfl, rfl⟩ := (runs_pure _ _ _).mp hopened
    exact .refused opening hopening
  rw [if_neg hopening] at hopened
  have hpositive : 0 ≤ opening := by omega
  obtain ⟨(writing : Int), afterWrite, rfl, hwritten⟩ :=
    (runs_perform_bind (ZephyrCall.fsWrite line) _ _ _).mp hopened
  by_cases hline : line = []
  · subst hline
    obtain ⟨rfl, rfl⟩ := (runs_fail _ _ _).mp hwritten
    exact .outside opening writing hpositive rfl
  rw [read_lastIndex line hline, Prog.ofExcept_ok_bind] at hwritten
  by_cases hlast : line.getLast hline = newline
  · rw [if_neg (not_not.mpr hlast)] at hwritten
    obtain ⟨(closing : Int), afterClose, rfl, hclosed⟩ := (runs_perform_bind ZephyrCall.fsClose _ _ _).mp hwritten
    obtain ⟨rfl, rfl⟩ := (runs_pure _ _ _).mp hclosed
    exact .ended opening writing closing hpositive ((endsLine_iff line hline).mpr hlast)
  · rw [if_pos hlast] at hwritten
    obtain ⟨(ending : Int), afterEnd, rfl, hended⟩ :=
      (runs_perform_bind (ZephyrCall.fsWrite [newline]) _ _ _).mp hwritten
    obtain ⟨(closing : Int), afterClose, rfl, hclosed⟩ := (runs_perform_bind ZephyrCall.fsClose _ _ _).mp hended
    obtain ⟨rfl, rfl⟩ := (runs_pure _ _ _).mp hclosed
    exact .completed opening writing ending closing hpositive hline (mt (endsLine_iff line hline).mp hlast)

end LogRun

end TJ3Firmware
