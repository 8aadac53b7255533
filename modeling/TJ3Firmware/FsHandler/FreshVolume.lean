import TJ3Firmware.BleGatt.Status
import TJ3Firmware.FsHandler.MountSafety
import TJ3Firmware.FsHandler.Runs

namespace TJ3Firmware

open Library.Memory Library.Interaction

section Volume

-- How often the metadata on flash has been written anew, and which of these
-- volumes a mounted instance works with.
structure Volume where
  onFlash : Nat
  loaded : Option Nat
  loaded_le : ∀ generation ∈ loaded, generation ≤ onFlash

-- What is assumed of Zephyr. A call succeeds with a return value that is not
-- negative. A successful format or erase ends the volume on flash and leaves
-- every mounted instance alone; a failed one may have done so. fs_mount loads
-- what is then on flash, which it may have formatted itself.
def volumeAdvance (volume : Volume) (event : ZephyrEvent) (next : Volume) : Prop :=
  match event with
  | ⟨.fsMount _, rc⟩ => volume.onFlash ≤ next.onFlash ∧
      next.loaded = if (0 : Int) ≤ rc then some next.onFlash else volume.loaded
  | ⟨.fsUnmount _, rc⟩ => next.onFlash = volume.onFlash ∧
      next.loaded = if (0 : Int) ≤ rc then none else volume.loaded
  | ⟨.fsMkfs _, rc⟩ => next.loaded = volume.loaded ∧ volume.onFlash ≤ next.onFlash ∧
      ((0 : Int) ≤ rc → volume.onFlash < next.onFlash)
  | ⟨.flashAreaErase _ _ _, rc⟩ => next.loaded = volume.loaded ∧ volume.onFlash ≤ next.onFlash ∧
      ((0 : Int) ≤ rc → volume.onFlash < next.onFlash)
  | _ => next = volume

-- Mounted, and with the volume that was formatted since.
def Fresh (volume next : Volume) : Prop :=
  next.loaded = some next.onFlash ∧ volume.onFlash < next.onFlash

-- Every successful path of the low-level format erases and mounts.
theorem lowLevelFormat_fresh (volume next : Volume) (trace : List ZephyrEvent)
    (hruns : Runs fsHandlerLowLevelFormat trace (.ok 0)) (hpath : Path volumeAdvance volume trace next) :
    Fresh volume next := by
  have hformat := lowLevelFormat_runs _ _ hruns
  generalize hok : (Except.ok 0 : Except Fault Int) = outcome at hformat
  cases hformat with
  | unopened unmounting opening fa hopening =>
      have hzero := Except.ok.inj hok
      omega
  | unerased unmounting opening erasing fa hopening herasing =>
      have hzero := Except.ok.inj hok
      omega
  | remounted unmounting opening erasing mounting fa hopening herasing =>
      have hmounting : 0 ≤ mounting := by
        by_contra hfailed
        have hzero := Except.ok.inj hok
        rw [if_pos (by omega)] at hzero
        omega
      obtain ⟨unmounted, hunmount, hafter⟩ := (path_cons_iff _ _).mp hpath
      obtain ⟨_, hopen, herase⟩ := (path_cons_iff _ _).mp hafter
      cases hopen
      obtain ⟨erased, herase, hclose⟩ := (path_cons_iff _ _).mp herase
      obtain ⟨_, hclosed, hmount⟩ := (path_cons_iff _ _).mp hclose
      cases hclosed
      obtain ⟨mounted, hmount, hnil⟩ := (path_cons_iff _ _).mp hmount
      cases path_nil_iff.mp hnil
      obtain ⟨hkept, hloaded⟩ := hmount
      rw [if_pos hmounting] at hloaded
      have hunmounted := hunmount.1
      have hnew := herase.2.2 herasing
      exact ⟨hloaded, by omega⟩

-- It leaves the mounted instance, which is of an older volume, as it was.
theorem fastFormat_not_fresh (volume next : Volume) (rc : Int)
    (h : Path volumeAdvance volume [⟨.fsMkfs .littlefsStorage, rc⟩] next) : ¬Fresh volume next := by
  rintro ⟨hloaded, hnew⟩
  cases h with
  | cons _ formatted _ _ _ step hrest =>
      cases hrest
      have hold := volume.loaded_le next.onFlash (by rw [← step.1, hloaded]; rfl)
      omega

theorem volumeAdvance_total (volume : Volume) (event : ZephyrEvent) : ∃ next, volumeAdvance volume event next := by
  have hrenew : ∃ next : Volume, next.loaded = volume.loaded ∧ volume.onFlash < next.onFlash := by
    refine ⟨⟨volume.onFlash + 1, volume.loaded, ?_⟩, rfl, Nat.lt_succ_self _⟩
    intro generation hmem
    have := volume.loaded_le generation hmem
    omega
  obtain ⟨renewed, hsame, hnew⟩ := hrenew
  obtain ⟨op, rc⟩ := event
  cases op with
  | fsMount mnt =>
      by_cases hok : (0 : Int) ≤ rc
      · refine ⟨⟨volume.onFlash, some volume.onFlash, ?_⟩, Nat.le_refl _, (if_pos hok).symm⟩
        intro generation hmem
        cases hmem
        exact Nat.le_refl _
      · exact ⟨volume, Nat.le_refl _, (if_neg hok).symm⟩
  | fsUnmount mnt =>
      by_cases hok : (0 : Int) ≤ rc
      · exact ⟨⟨volume.onFlash, none, fun _ hmem => nomatch hmem⟩, rfl, (if_pos hok).symm⟩
      · exact ⟨volume, rfl, (if_neg hok).symm⟩
  | fsMkfs storage => exact ⟨renewed, hsame, by omega, fun _ => hnew⟩
  | flashAreaErase area offset length => exact ⟨renewed, hsame, by omega, fun _ => hnew⟩
  | _ => exact ⟨volume, rfl⟩

end Volume

section Commands

theorem sends_volume (frame : Frame) (trace : List ZephyrEvent) (h : Sends frame trace) (volume next : Volume)
    (hpath : Path volumeAdvance volume trace next) : next = volume := by
  rcases h with ⟨-, rc, rfl⟩ | ⟨-, rfl⟩
  · cases hpath with
    | cons _ _ _ _ _ step hrest =>
        cases hrest
        exact step
  · cases hpath
    rfl

variable (command : Command) (start last : Volume) (hpath : Path volumeAdvance start command.run.trace last)

include hpath

theorem low_level_fresh (hop : acceptedOpCode command.buf = some OP_BLE_FS_LOW_LEVEL_FORMAT)
    (hok : StatusOk command.run.trace) : Fresh start last := by
  obtain ⟨packet, hopCode, ⟨exchange⟩⟩ := exists_exchange command _ hop (by decide)
  obtain ⟨rc, hruns, hstatus⟩ := statusOk_iff exchange fsHandlerLowLevelFormat (by rw [hopCode]; rfl)
  cases hstatus.mp hok
  rw [exchange.split] at hpath
  obtain ⟨middle, hbefore, hafter⟩ := (path_append _ _).mp hpath
  rw [sends_volume _ _ exchange.sends middle last hafter]
  exact lowLevelFormat_fresh start _ _ hruns hbefore

-- fs_mkfs succeeded in the course of the command.
def FormatDone (trace : List ZephyrEvent) : Prop :=
  ∃ rc : Int, (⟨.fsMkfs .littlefsStorage, rc⟩ : ZephyrEvent) ∈ trace ∧ 0 ≤ rc

theorem fast_fresh_iff (hop : acceptedOpCode command.buf = some OP_BLE_FS_FAST_FORMAT) :
    (StatusOk command.run.trace → Fresh start last) ↔ ¬FormatDone command.run.trace := by
  obtain ⟨packet, hopCode, ⟨exchange⟩⟩ := exists_exchange command _ hop (by decide)
  obtain ⟨status, hruns, hstatus⟩ := statusOk_iff exchange fsHandlerFastFormat (by rw [hopCode]; rfl)
  obtain ⟨rc, hbefore, hrc⟩ := fastFormat_runs _ _ hruns
  rw [exchange.split] at hpath
  obtain ⟨middle, hformat, hafter⟩ := (path_append _ _).mp hpath
  cases sends_volume _ _ exchange.sends middle last hafter
  rw [hbefore] at hformat
  have hold := fastFormat_not_fresh start last rc hformat
  have hdone : FormatDone command.run.trace ↔ 0 ≤ rc := by
    rw [FormatDone, exchange.split, hbefore]
    constructor
    · rintro ⟨rc', hmem, hpos⟩
      rcases List.mem_append.mp hmem with hmem | hmem
      · cases List.mem_singleton.mp hmem
        exact hpos
      · rcases exchange.sends with ⟨-, _, hafter⟩ | ⟨-, hafter⟩
        · rw [hafter] at hmem
          cases List.mem_singleton.mp hmem
        · rw [hafter] at hmem
          cases hmem
    · intro hpos
      exact ⟨rc, List.mem_append_left _ (List.mem_singleton.mpr rfl), hpos⟩
  rw [hstatus, hdone, hrc]
  constructor
  · intro h hpos
    exact hold (h hpos)
  · intro h hpos
    exact absurd hpos h

end Commands

-- A command of a session, with the volume before and after it.
def CommandAt (session : Session) (command : Command) (start last : Volume) : Prop :=
  ∃ earlier later initial, session.commands = earlier ++ command :: later ∧
    Path volumeAdvance initial (session.traceBefore earlier) start ∧ Path volumeAdvance start command.run.trace last

-- A format that is reported as done leaves the new volume mounted, unless it is
-- the fast format, which never does.
theorem format_fresh_iff (session : Session) (command : Command) (start last : Volume)
    (hcommand : CommandAt session command start last)
    (hop : acceptedOpCode command.buf = some OP_BLE_FS_FAST_FORMAT ∨
      acceptedOpCode command.buf = some OP_BLE_FS_LOW_LEVEL_FORMAT) :
    (StatusOk command.run.trace → Fresh start last) ↔
      ¬(acceptedOpCode command.buf = some OP_BLE_FS_FAST_FORMAT ∧ FormatDone command.run.trace) := by
  obtain ⟨earlier, later, initial, -, -, hpath⟩ := hcommand
  rcases hop with hfast | hlow
  · rw [fast_fresh_iff command start last hpath hfast, and_iff_right hfast]
  · apply iff_of_true (low_level_fresh command start last hpath hlow)
    rintro ⟨hfast, -⟩
    cases hlow.symm.trans hfast

def fastFormat : Command where
  txBuf := Store.fresh MAX_PAYLOAD_SIZE 0x00#8
  buf := [0x02#8, 0x02#8, 0x00#8, 0xFA#8, 0x03#8, 0xC1#8, 0xA5#8]
  run := (writePacket _ _).runWith busyReplies

def fastSession : Session where
  bootRun := boot.runWith busyReplies
  commands := [fastFormat]

theorem fastFormat_acceptedOpCode : acceptedOpCode fastFormat.buf = some OP_BLE_FS_FAST_FORMAT := by decide +kernel

theorem exists_fastFormat_at : ∃ start last, CommandAt fastSession fastFormat start last := by
  have htotal : ∀ trace : List ZephyrEvent, ∀ event ∈ trace, ∀ volume, ∃ next, volumeAdvance volume event next :=
    fun _ event _ volume => volumeAdvance_total volume event
  obtain ⟨start, hstart⟩ := exists_path ⟨1, none, fun _ hmem => nomatch hmem⟩ (fastSession.traceBefore []) (htotal _)
  obtain ⟨last, hlast⟩ := exists_path start fastFormat.run.trace (htotal _)
  exact ⟨start, last, [], [], _, rfl, hstart, hlast⟩

theorem format_fresh_iff_fast : ∃ start last, CommandAt fastSession fastFormat start last ∧
    ((StatusOk fastFormat.run.trace → Fresh start last) ↔
      ¬(acceptedOpCode fastFormat.buf = some OP_BLE_FS_FAST_FORMAT ∧ FormatDone fastFormat.run.trace)) := by
  obtain ⟨start, last, hat⟩ := exists_fastFormat_at
  exact ⟨start, last, hat, format_fresh_iff fastSession fastFormat start last hat (Or.inl fastFormat_acceptedOpCode)⟩

theorem fast_format_not_fresh :
    ¬∀ (session : Session) (command : Command) (start last : Volume), CommandAt session command start last →
      acceptedOpCode command.buf = some OP_BLE_FS_FAST_FORMAT ∨
        acceptedOpCode command.buf = some OP_BLE_FS_LOW_LEVEL_FORMAT →
      StatusOk command.run.trace → Fresh start last := by
  intro h
  obtain ⟨start, last, hat⟩ := exists_fastFormat_at
  have hfresh := h fastSession fastFormat start last hat (Or.inl fastFormat_acceptedOpCode)
  obtain ⟨earlier, later, initial, -, -, hpath⟩ := hat
  apply (fast_fresh_iff fastFormat start last hpath fastFormat_acceptedOpCode).mp hfresh
  have hcall : (fastFormat.run.trace.map Event.op)[0]? = some (.fsMkfs .littlefsStorage) := by decide +kernel
  obtain ⟨event, after, hop, htrace⟩ := exists_call _ _ 0 hcall
  have hmem : event ∈ fastFormat.run.trace := by
    rw [htrace]
    exact List.mem_append_right _ List.mem_cons_self
  have hevent : event = ⟨event.op, busyReplies event.op⟩ := by
    dsimp only [fastFormat] at hmem
    exact event_runWith busyReplies _ event hmem
  rw [hop] at hevent
  rw [hevent] at hmem
  exact ⟨_, hmem, by decide⟩

end TJ3Firmware
