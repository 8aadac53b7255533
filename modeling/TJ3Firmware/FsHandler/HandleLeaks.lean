import TJ3Firmware.Library.Handles
import TJ3Firmware.Directory
import TJ3Firmware.FsHandler.LogRecords

namespace TJ3Firmware

open Library.Memory Library.Interaction Library.Handles

-- A function has at most one file and one directory. A flash area is known by
-- its place.
inductive Handle
  | file
  | dir
  | area (fa : FlashArea)
  deriving Repr, DecidableEq

inductive FsEvent
  | zephyr (event : ZephyrEvent)
  | dir (event : DirEvent)

-- flash_get_page_info_by_offs is given fa_dev and fa_off, which are read from
-- the area.
def role : FsEvent → Role Handle
  | .zephyr ⟨.fsOpen _ _, rc⟩ => if rc = (0 : Int) then .opens .file else .silent
  | .zephyr ⟨.fsWrite _, _⟩ => .uses (· = .file)
  | .zephyr ⟨.fsSeek _, _⟩ => .uses (· = .file)
  | .zephyr ⟨.fsRead _, _⟩ => .uses (· = .file)
  | .zephyr ⟨.fsClose, _⟩ => .closes .file
  | .zephyr ⟨.flashAreaOpen _, (rc, fa)⟩ => if rc = 0 then .opens (.area fa) else .silent
  | .zephyr ⟨.flashAreaErase fa _ _, _⟩ => .uses (· = .area fa)
  | .zephyr ⟨.flashGetPageInfoByOffs offset, _⟩ => .uses fun handle => ∃ fa, handle = .area fa ∧ fa.faOff = offset
  | .zephyr ⟨.flashAreaClose fa, _⟩ => .closes (.area fa)
  | .dir ⟨.fsOpendir _, rc⟩ => if rc = (0 : Int) then .opens .dir else .silent
  | .dir ⟨.fsReaddir, _⟩ => .uses (· = .dir)
  | .dir ⟨.fsClosedir, _⟩ => .closes .dir
  | _ => .silent

-- What is assumed of Zephyr: opening returns 0 or a negative value.
def OpensOrFails : FsEvent → Prop
  | .zephyr ⟨.fsOpen _ _, rc⟩ => rc ≤ (0 : Int)
  | .zephyr ⟨.flashAreaOpen _, (rc, _)⟩ => rc ≤ 0
  | .dir ⟨.fsOpendir _, rc⟩ => rc ≤ (0 : Int)
  | _ => True

section Functions

variable {trace : List ZephyrEvent} {outcome : Except Fault Int}

theorem file_walk (path : List Byte) (flags : List OpenFlag) (opening closing : Int) (middle : List ZephyrEvent)
    (hopening : opening = 0) (hmiddle : ∀ event ∈ middle, role (.zephyr event) = .uses (· = .file)) :
    Walk role none ((⟨.fsOpen path flags, opening⟩ :: (middle ++ [⟨.fsClose, closing⟩])).map FsEvent.zephyr) none := by
  subst hopening
  rw [List.map_cons, List.map_append, List.map_singleton]
  refine walk_session .file _ _ _ rfl ?_ rfl
  intro event hevent
  obtain ⟨used, hused, rfl⟩ := List.mem_map.mp hevent
  exact ⟨_, hmiddle used hused, rfl⟩

theorem area_walk (fa : FlashArea) (opening : Int) (middle : List ZephyrEvent) (hopening : opening = 0)
    (hmiddle : ∀ event ∈ middle, ∃ kind, role (.zephyr event) = .uses kind ∧ kind (.area fa)) :
    Walk role none ((openedArea opening fa :: (middle ++ [closedArea fa])).map FsEvent.zephyr) none := by
  subst hopening
  rw [List.map_cons, List.map_append, List.map_singleton]
  refine walk_session (.area fa) _ _ _ rfl ?_ rfl
  intro event hevent
  obtain ⟨used, hused, rfl⟩ := List.mem_map.mp hevent
  exact hmiddle used hused

-- An opening that failed opens nothing.
theorem unopened_walk (event : FsEvent) (rc : Int) (hrc : rc < 0) (handle : Handle)
    (hrole : role event = if rc = 0 then .opens handle else .silent) : Walk role none [event] none := by
  rw [if_neg (by omega)] at hrole
  exact .silent none event [] none hrole (.nil none)

theorem testRun_walk (h : TestRun trace outcome) (hopens : ∀ event ∈ trace, OpensOrFails (.zephyr event)) :
    Walk role none (trace.map FsEvent.zephyr) none := by
  cases h with
  | unopened opening hopening => exact unopened_walk _ opening hopening .file rfl
  | unwritten opening writing closing hopening hwriting =>
      have hopened : opening ≤ 0 := hopens (openedTest opening) (by simp)
      exact file_walk _ _ opening closing [wroteTest writing] (by omega) (by simp [wroteTest, role])
  | unsought opening writing seeking closing hopening hwriting hseeking =>
      have hopened : opening ≤ 0 := hopens (openedTest opening) (by simp)
      exact file_walk _ _ opening closing [wroteTest writing, soughtStart seeking] (by omega)
        (by simp [wroteTest, soughtStart, role])
  | unread opening writing seeking reading closing delivered hopening hwriting hseeking hreading
  | passed opening writing seeking reading closing delivered hopening hwriting hseeking hreading =>
      have hopened : opening ≤ 0 := hopens (openedTest opening) (by simp)
      exact file_walk _ _ opening closing [wroteTest writing, soughtStart seeking, readTest reading delivered] (by omega)
        (by simp [wroteTest, soughtStart, readTest, role])

theorem logRun_walk {name : List Byte} {line : List Byte} (h : LogRun name line trace outcome) (hline : line ≠ [])
    (hopens : ∀ event ∈ trace, OpensOrFails (.zephyr event)) : Walk role none (trace.map FsEvent.zephyr) none := by
  cases h with
  | refused opening hopening => exact unopened_walk _ opening hopening .file rfl
  | outside opening writing hopening hempty => exact absurd hempty hline
  | ended opening writing closing hopening hends =>
      have hopened : opening ≤ 0 := hopens (openedLog name opening) (by simp)
      exact file_walk _ _ opening closing [wrote line writing] (by omega) (by simp [wrote, role])
  | completed opening writing ending closing hopening _ hopen =>
      have hopened : opening ≤ 0 := hopens (openedLog name opening) (by simp)
      exact file_walk _ _ opening closing [wrote line writing, wrote [newline] ending] (by omega) (by simp [wrote, role])

theorem formatRun_walk (h : FormatRun trace outcome) (hopens : ∀ event ∈ trace, OpensOrFails (.zephyr event)) :
    Walk role none (trace.map FsEvent.zephyr) none := by
  cases h with
  | unopened unmounting opening fa hopening =>
      exact .silent none _ _ none rfl (unopened_walk _ opening hopening (.area fa) rfl)
  | unerased unmounting opening erasing fa hopening herasing =>
      have hopened : opening ≤ 0 := hopens (openedArea opening fa) (by simp)
      have herased := area_walk fa opening [erasedArea fa erasing] (by omega) (by simp [erasedArea, role])
      exact .silent none _ _ none rfl herased
  | remounted unmounting opening erasing mounting fa hopening herasing =>
      have hopened : opening ≤ 0 := hopens (openedArea opening fa) (by simp)
      have herased := area_walk fa opening [erasedArea fa erasing] (by omega) (by simp [erasedArea, role])
      have hmounted : Walk role none [.zephyr (mountedVolume mounting)] none := .silent none _ _ none rfl (.nil none)
      exact .silent none _ _ none rfl (herased.append hmounted)

theorem listRun_walk {rounds : Nat} {listing : List DirEvent} (h : ListRun rounds listing (.ok ()))
    (hopens : ∀ event ∈ listing, OpensOrFails (.dir event)) : Walk role none (listing.map FsEvent.dir) none := by
  cases h with
  | refused opening hopening => exact unopened_walk _ opening hopening .dir rfl
  | listed opening closing entries hopening hentries =>
      have hopened : opening ≤ 0 := hopens ⟨.fsOpendir MOUNT_POINT, opening⟩ (by simp)
      have hzero : opening = 0 := by omega
      subst hzero
      rw [List.map_cons, List.map_append, List.map_singleton]
      refine walk_session .dir _ _ _ rfl ?_ rfl
      intro event hevent
      obtain ⟨⟨op, reply⟩, hused, rfl⟩ := List.mem_map.mp hevent
      obtain rfl : op = .fsReaddir := hentries _ hused
      exact ⟨_, rfl, rfl⟩

end Functions

section Boot

variable {α β : Type}

-- Whatever Zephyr replies, nothing is open before and after.
def Leakless (prog : Firmware α) : Prop :=
  ∀ trace outcome, Runs prog trace outcome → Walk role none (trace.map FsEvent.zephyr) none

theorem leakless_bind (prog : Firmware α) (next : α → Firmware β) (h : Leakless prog)
    (hnext : ∀ value, Leakless (next value)) : Leakless (prog >>= next) := by
  intro trace outcome hruns
  rcases (runs_bind _ _ _ _).mp hruns with ⟨error, -, hfailed⟩ | ⟨before, value, after, rfl, hfirst, hlast⟩
  · exact h trace _ hfailed
  · rw [List.map_append]
    exact (h before _ hfirst).append (hnext value after outcome hlast)

-- The calls that have no handle.
def Handleless : ZephyrCall → Prop
  | .fsMount _ => True
  | .fsUnmount _ => True
  | .fsMkfs _ => True
  | .fsStatvfs _ => True
  | _ => False

theorem leakless_of_handleless (prog : Firmware α) (h : CallsOnly Handleless prog) : Leakless prog := by
  intro trace outcome hruns
  have hcalls := forall_event_of_callsOnly _ _ _ _ h hruns
  apply walk_silent
  intro event hevent
  obtain ⟨⟨op, reply⟩, hcalled, rfl⟩ := List.mem_map.mp hevent
  have hop : Handleless op := hcalls _ hcalled
  cases op with
  | fsMount | fsUnmount | fsMkfs | fsStatvfs => rfl
  | _ => exact absurd hop id

theorem dumpLfsFlashParams_leakless : Leakless dumpLfsFlashParams := by
  intro trace outcome hruns
  obtain ⟨⟨opening, fa⟩, afterOpen, rfl, hopened⟩ :=
    (runs_perform_bind (ZephyrCall.flashAreaOpen .littlefsStorage) _ _ _).mp hruns
  simp only at hopened
  by_cases hopening : opening = 0
  · rw [if_neg (not_not.mpr hopening)] at hopened
    obtain ⟨(info : Int), afterInfo, rfl, hdumped⟩ :=
      (runs_perform_bind (ZephyrCall.flashGetPageInfoByOffs fa.faOff) _ _ _).mp hopened
    obtain rfl : afterInfo = [closedArea fa] := by
      cases hdumped with
      | call _ _ reply rest _ hrest =>
          obtain ⟨rfl, -⟩ := (runs_pure _ _ _).mp hrest
          rfl
    exact area_walk fa opening [⟨.flashGetPageInfoByOffs fa.faOff, info⟩] hopening (by simp [role])
  · rw [if_pos hopening] at hopened
    obtain ⟨rfl, -⟩ := (runs_pure _ _ _).mp hopened
    have hsilent : role (.zephyr (openedArea opening fa)) = .silent := if_neg hopening
    exact .silent none _ _ none hsilent (.nil none)

theorem fsHandlerFastFormat_leakless : Leakless fsHandlerFastFormat :=
  leakless_of_handleless _ (by simp [fsHandlerFastFormat, fsMkfs, perform, Handleless])

theorem leakless_pure (value : α) : Leakless (pure value) := leakless_of_handleless _ trivial

theorem fsHandlerInit_leakless : Leakless fsHandlerInit := by
  have hmount : Leakless (fsMount lfsStorageMnt) := leakless_of_handleless _ (by simp [fsMount, perform, Handleless])
  have hstatvfs : Leakless (fsStatvfs lfsStorageMnt.mntPoint) :=
    leakless_of_handleless _ (by simp [fsStatvfs, perform, Handleless])
  apply leakless_bind _ _ hmount
  intro rc
  by_cases hmounted : rc = 0
  · rw [if_pos hmounted]
    refine leakless_bind _ _ dumpLfsFlashParams_leakless fun _ => ?_
    exact leakless_bind _ _ hstatvfs fun _ => leakless_pure 0
  rw [if_neg hmounted]
  refine leakless_bind _ _ dumpLfsFlashParams_leakless fun _ => ?_
  split
  · exact leakless_pure rc
  refine leakless_bind _ _ fsHandlerFastFormat_leakless fun formatted => ?_
  split
  · exact leakless_pure formatted
  refine leakless_bind _ _ hmount fun remounted => ?_
  split
  · exact leakless_pure remounted
  · exact leakless_bind _ _ dumpLfsFlashParams_leakless fun _ => leakless_pure 0

end Boot

-- A call that returned. A listing that did had an end.
inductive FsHandlerCall
  | init (run : Run fsHandlerInit)
  | test (run : Run fsHandlerTest)
  | appendLog (name : List Byte) (line : List Byte) (hline : line ≠ []) (run : Run (fsHandlerAppendLog name line))
  | ls (rounds : Nat) (run : Run (fsHandlerLs rounds)) (hreturned : run.outcome = .ok ())
  | fastFormat (run : Run fsHandlerFastFormat)
  | lowLevelFormat (run : Run fsHandlerLowLevelFormat)

namespace FsHandlerCall

def trace : FsHandlerCall → List FsEvent
  | .init run => run.trace.map .zephyr
  | .test run => run.trace.map .zephyr
  | .appendLog _ _ _ run => run.trace.map .zephyr
  | .ls _ run _ => run.trace.map .dir
  | .fastFormat run => run.trace.map .zephyr
  | .lowLevelFormat run => run.trace.map .zephyr

theorem walk (call : FsHandlerCall) (hopens : ∀ event ∈ call.trace, OpensOrFails event) :
    Walk role none call.trace none := by
  cases call with
  | init run => exact fsHandlerInit_leakless _ _ run.runs
  | test run => exact testRun_walk (fsHandlerTest_runs _ _ run.runs) (List.forall_mem_map.mp hopens)
  | appendLog name line hline run =>
      exact logRun_walk (appendLog_runs name line _ _ run.runs) hline (List.forall_mem_map.mp hopens)
  | ls rounds run hreturned =>
      have hruns := run.runs
      rw [hreturned] at hruns
      exact listRun_walk (fsHandlerLs_runs rounds _ _ hruns) (List.forall_mem_map.mp hopens)
  | fastFormat run => exact fsHandlerFastFormat_leakless _ _ run.runs
  | lowLevelFormat run => exact formatRun_walk (lowLevelFormat_runs _ _ run.runs) (List.forall_mem_map.mp hopens)

end FsHandlerCall

-- Over any sequence of calls what is opened is closed once, and nothing is
-- closed or used that is not open.
theorem no_handle_leaks (calls : List FsHandlerCall)
    (hopens : ∀ event ∈ calls.flatMap FsHandlerCall.trace, OpensOrFails event) :
    Orderly role (calls.flatMap FsHandlerCall.trace) ∧ ClosedOnce role (calls.flatMap FsHandlerCall.trace) ∧
    ∀ rounds (run : Run (fsHandlerLs rounds)), run.trace.countP isEntry < rounds → run.outcome = .ok () := by
  have hwalk : Walk role none (calls.flatMap FsHandlerCall.trace) none := by
    apply walk_flatMap
    intro call hcall
    exact call.walk fun event hevent => hopens event (List.mem_flatMap.mpr ⟨call, hcall, hevent⟩)
  exact ⟨hwalk.orderly, hwalk.closedOnce, fsHandlerLs_returns⟩

section Example

-- Two entries, then the end.
def twoEntries : Nat → (call : DirCall) → DirReply call × Nat
  | read, .fsOpendir _ => ((0 : Int), read)
  | read, .fsReaddir => ((0, if read < 2 then textBytes "log.csv" else []), read + 1)
  | read, .fsClosedir => ((0 : Int), read)

def listedTwo : Run (fsHandlerLs 3) := (fsHandlerLs 3).play twoEntries 0

def oneOfEach : List FsHandlerCall :=
  [.init (fsHandlerInit.runWith fullReplies), .test (fsHandlerTest.runWith fullReplies),
    .appendLog (textBytes "log.csv") (textBytes "1,2") (by decide) ((fsHandlerAppendLog _ _).runWith fullReplies),
    .ls 3 listedTwo rfl, .fastFormat (fsHandlerFastFormat.runWith fullReplies),
    .lowLevelFormat (fsHandlerLowLevelFormat.runWith fullReplies)]

theorem runWith_opens {α : Type} (prog : Firmware α) :
    ∀ event ∈ (prog.runWith fullReplies).trace, OpensOrFails (.zephyr event) := by
  intro event hevent
  rw [event_runWith fullReplies prog event hevent]
  cases event.op with
  | fsOpen | flashAreaOpen => exact Int.le_refl 0
  | _ => trivial

theorem listedTwo_opens : ∀ event ∈ listedTwo.trace, OpensOrFails (.dir event) := by
  have htrace : listedTwo.trace = [⟨.fsOpendir MOUNT_POINT, (0 : Int)⟩, ⟨.fsReaddir, ((0 : Int), textBytes "log.csv")⟩,
    ⟨.fsReaddir, ((0 : Int), textBytes "log.csv")⟩, ⟨.fsReaddir, ((0 : Int), [])⟩, ⟨.fsClosedir, (0 : Int)⟩] := rfl
  simp [htrace, OpensOrFails]

theorem oneOfEach_opens : ∀ event ∈ oneOfEach.flatMap FsHandlerCall.trace, OpensOrFails event := by
  intro event hevent
  obtain ⟨call, hcall, hevent⟩ := List.mem_flatMap.mp hevent
  simp only [oneOfEach, List.mem_cons, List.not_mem_nil, or_false] at hcall
  rcases hcall with rfl | rfl | rfl | rfl | rfl | rfl
  case inr.inr.inr.inl =>
      obtain ⟨listed, hlisted, rfl⟩ := List.mem_map.mp hevent
      exact listedTwo_opens listed hlisted
  all_goals
    obtain ⟨replied, hreplied, rfl⟩ := List.mem_map.mp hevent
    exact runWith_opens _ replied hreplied

theorem no_handle_leaks_each : Orderly role (oneOfEach.flatMap FsHandlerCall.trace) ∧
    ClosedOnce role (oneOfEach.flatMap FsHandlerCall.trace) ∧ listedTwo.outcome = .ok () := by
  obtain ⟨horderly, hclosed, hreturns⟩ := no_handle_leaks oneOfEach oneOfEach_opens
  exact ⟨horderly, hclosed, hreturns 3 listedTwo (by decide +kernel)⟩

end Example

end TJ3Firmware
