import TJ3Firmware.BleGatt.Status
import TJ3Firmware.FsHandler.Runs
import TJ3Firmware.Protocol.Parse

namespace TJ3Firmware

open Library.Memory Library.Interaction

section MountState

-- What is assumed of Zephyr about the mount state of lfs_storage_mnt. A reply
-- of -EINVAL to fs_unmount is impossible while it is mounted.
def mountStep (mounted : Bool) : ZephyrEvent → Option Bool
  | ⟨.fsMount _, rc⟩ => if rc = (0 : Int) then some true else some mounted
  | ⟨.fsUnmount _, rc⟩ =>
      if rc = (0 : Int) then some false
      else if rc = -EINVAL then (if mounted then none else some false)
      else some mounted
  | _ => some mounted

def mountAdvance (mounted : Bool) (event : ZephyrEvent) (mounted' : Bool) : Prop :=
  mountStep mounted event = some mounted'

-- The calls that overwrite the partition.
def Destructive : ZephyrCall → Prop
  | .fsMkfs _ => True
  | .flashAreaErase _ _ _ => True
  | _ => False

-- The calls that change neither the partition as a whole nor the mount state.
def Quiet : ZephyrCall → Prop
  | .fsMount _ => False
  | .fsUnmount _ => False
  | .fsMkfs _ => False
  | .flashAreaErase _ _ _ => False
  | _ => True

theorem not_destructive_of_quiet (op : ZephyrCall) (h : Quiet op) : ¬Destructive op := by
  cases op <;> simp_all [Quiet, Destructive]

theorem mountAdvance_quiet (mounted mounted' : Bool) (event : ZephyrEvent) (h : Quiet event.op)
    (step : mountAdvance mounted event mounted') : mounted' = mounted := by
  obtain ⟨op, reply⟩ := event
  cases op <;> simp_all [Quiet, mountAdvance, mountStep]

theorem dumpLfsFlashParams_quiet : CallsOnly Quiet dumpLfsFlashParams := by
  simp [dumpLfsFlashParams, flashAreaOpen, flashGetPageInfoByOffs, flashAreaClose, perform, Quiet]

theorem fsHandlerTest_quiet : CallsOnly Quiet fsHandlerTest := by
  simp [fsHandlerTest, fsOpen, fsWrite, fsSeek, fsRead, fsClose, perform, Quiet]

end MountState

section Boot

def bootGuard (mounted : Bool) (op : ZephyrCall) : Prop := Destructive op → mounted = false

theorem boot_skip {α β : Type} (prog : Firmware α) (next : α → Firmware β) (mounted : Bool)
    (h : CallsOnly Quiet prog) (hnext : ∀ value, Safe bootGuard mountAdvance (next value) mounted) :
    Safe bootGuard mountAdvance (prog >>= next) mounted :=
  safe_skip Quiet prog next mounted (fun op hquiet hdestructive =>
    absurd hdestructive (not_destructive_of_quiet op hquiet))
    (fun event mounted' hquiet step => mountAdvance_quiet mounted mounted' event hquiet step) h hnext

-- The only destructive call at boot is the format after a failed mount.
theorem fsHandlerInit_safe : Safe bootGuard mountAdvance fsHandlerInit false := by
  unfold fsHandlerInit
  apply safe_call (ZephyrCall.fsMount lfsStorageMnt) _ _ (fun h => absurd h id)
  intro rc mounted step
  split
  · refine boot_skip _ _ mounted dumpLfsFlashParams_quiet fun _ => ?_
    exact boot_skip (fsStatvfs lfsStorageMnt.mntPoint) _ mounted (by simp [fsStatvfs, perform, Quiet]) fun _ =>
      safe_pure _ _
  · rename_i hfailed
    -- the mount failed, so the volume is still unmounted
    have hunmounted : mounted = false := by
      simp only [mountAdvance, mountStep, if_neg hfailed, Option.some.injEq] at step
      exact step.symm
    subst hunmounted
    refine boot_skip _ _ false dumpLfsFlashParams_quiet fun _ => ?_
    split
    · exact safe_pure _ _
    · refine safe_bind _ _ _ ?_ ?_
      · unfold fsHandlerFastFormat
        apply safe_call (ZephyrCall.fsMkfs .littlefsStorage) _ _ (fun _ => rfl)
        intro rc mounted step
        split <;> exact safe_pure _ _
      · intro rc mounted
        split
        · exact safe_pure _ _
        · apply safe_call (ZephyrCall.fsMount lfsStorageMnt) _ _ (fun h => absurd h id)
          intro rc mounted step
          split
          · exact safe_pure _ _
          · exact boot_skip _ _ mounted dumpLfsFlashParams_quiet fun _ => safe_pure _ _

theorem boot_safe : Safe bootGuard mountAdvance boot false := by
  refine safe_bind _ _ _ fsHandlerInit_safe fun _ mounted => ?_
  exact boot_skip _ _ mounted fsHandlerTest_quiet fun _ => trivial

end Boot

section Commands

-- fs_unmount was tried and left the volume mounted.
def UnmountRefused (history : List ZephyrEvent) : Prop :=
  ∃ (mnt : FsMount) (rc : Int), (⟨.fsUnmount mnt, rc⟩ : ZephyrEvent) ∈ history ∧ rc ≠ 0 ∧ rc ≠ -EINVAL

def IsErase : ZephyrCall → Prop
  | .flashAreaErase _ _ _ => True
  | _ => False

-- What a command may do, given the mount state and its calls so far. Nothing
-- is said about the fast format, which formats in either state.
def commandGuard (opCode : Option Byte) (state : Bool × List ZephyrEvent) (op : ZephyrCall) : Prop :=
  Destructive op → state.1 = true → opCode = some OP_BLE_FS_FAST_FORMAT ∨
    opCode = some OP_BLE_FS_LOW_LEVEL_FORMAT ∧ IsErase op ∧ UnmountRefused state.2

theorem command_safe_of_quiet {α : Type} (opCode : Option Byte) (prog : Firmware α)
    (state : Bool × List ZephyrEvent) (h : CallsOnly Quiet prog) :
    Safe (commandGuard opCode) (recording mountAdvance) prog state :=
  safe_of_callsOnly Quiet (fun _ op hquiet hdestructive =>
    absurd hdestructive (not_destructive_of_quiet op hquiet)) prog h state

theorem composeTx_quiet (opCode : Byte) (payload : Option (Ptr Byte)) (payloadLen : Word16) (txBuf : TxBuf) :
    CallsOnly Quiet (composeTx opCode payload payloadLen txBuf) := callsOnly_ofExcept _ _

-- After fs_unmount the volume is mounted only if the call was refused.
theorem mounted_after_unmount (mnt : FsMount) (rc : Int) (state state' : Bool × List ZephyrEvent)
    (step : recording mountAdvance state ⟨.fsUnmount mnt, rc⟩ state') (hmounted : state'.1 = true) :
    UnmountRefused state'.2 := by
  obtain ⟨hadvance, hhistory⟩ := step
  simp only [mountAdvance, mountStep] at hadvance
  refine ⟨mnt, rc, by rw [hhistory]; simp, ?_, ?_⟩
  · rintro rfl
    rw [if_pos rfl, hmounted] at hadvance
    cases hadvance
  · rintro rfl
    have hne : ¬-EINVAL = 0 := by decide
    rw [if_neg hne, if_pos rfl, hmounted] at hadvance
    split at hadvance <;> cases hadvance

theorem lowLevelFormat_safe (state : Bool × List ZephyrEvent) :
    Safe (commandGuard (some OP_BLE_FS_LOW_LEVEL_FORMAT)) (recording mountAdvance) fsHandlerLowLevelFormat state := by
  unfold fsHandlerLowLevelFormat
  apply safe_call (ZephyrCall.fsUnmount lfsStorageMnt) _ _ (fun h => absurd h id)
  intro rc unmounted hunmount
  apply safe_call (ZephyrCall.flashAreaOpen .littlefsStorage) _ _ (fun h => absurd h id)
  rintro ⟨rcOpen, fa⟩ opened hopen
  simp only
  split
  · exact safe_pure _ _
  -- opening the area has not changed the mount state
  have hsame : opened.1 = unmounted.1 := 
    mountAdvance_quiet _ _ ⟨.flashAreaOpen .littlefsStorage, (rcOpen, fa)⟩ trivial hopen.1
  have hgrown : opened.2 = unmounted.2 ++ [⟨.flashAreaOpen .littlefsStorage, (rcOpen, fa)⟩] := hopen.2
  refine safe_call (ZephyrCall.flashAreaErase fa 0 fa.faSize) _ _ ?_ ?_
  · intro _ hmounted
    right
    refine ⟨rfl, trivial, ?_⟩
    obtain ⟨mnt, rc, hmem, hrc⟩ := mounted_after_unmount _ _ _ _ hunmount (hsame ▸ hmounted)
    refine ⟨mnt, rc, ?_, hrc⟩
    rw [hgrown]
    exact List.mem_append_left _ hmem
  · intro rcErase erased _
    apply safe_call (ZephyrCall.flashAreaClose fa) _ _ (fun h => absurd h id)
    intro _ closed _
    split
    · exact safe_pure _ _
    · apply safe_call (ZephyrCall.fsMount lfsStorageMnt) _ _ (fun h => absurd h id)
      intro rcMount remounted _
      split <;> exact safe_pure _ _

theorem dispatch_safe (packet : Packet) (txBuf : TxBuf) (state : Bool × List ZephyrEvent) :
    Safe (commandGuard (some packet.opCode)) (recording mountAdvance) (dispatch packet txBuf) state := by
  unfold dispatch
  simp only
  split
  · exact command_safe_of_quiet _ _ _ (callsOnly_bind _ _ _ (callsOnly_ofExcept _ _)
      fun _ => composeTx_quiet _ _ _ _)
  split
  · exact command_safe_of_quiet _ _ _ (callsOnly_bind _ _ _ fsHandlerTest_quiet fun _ => composeTx_quiet _ _ _ _)
  split
  · exact command_safe_of_quiet _ _ _ (composeTx_quiet _ _ _ _)
  split
  · exact command_safe_of_quiet _ _ _ (composeTx_quiet _ _ _ _)
  split
  · rename_i hfast
    rw [hfast]
    exact safe_of_callsOnly (fun _ => True) (fun _ _ _ _ _ => Or.inl rfl) _ (callsOnly_true _) state
  split
  · rename_i hlow
    rw [hlow]
    exact safe_bind _ _ _ (lowLevelFormat_safe state) fun _ state' =>
      command_safe_of_quiet _ _ state' (composeTx_quiet _ _ _ _)
  · exact command_safe_of_quiet _ _ _ (composeTx_quiet _ _ _ _)

theorem protocolHandler_safe (txBuf : TxBuf) (packet : Packet) (state : Bool × List ZephyrEvent) :
    Safe (commandGuard (some packet.opCode)) (recording mountAdvance) (protocolHandler txBuf packet) state := by
  apply safe_bind _ _ _ (dispatch_safe packet txBuf state)
  rintro ⟨txLen, response⟩ state'
  apply command_safe_of_quiet _ _ state'
  simp only [callsOnly_ite]
  split
  · exact callsOnly_bind _ _ _ (callsOnly_ofExcept _ _) fun data => by
      simp [btGattIndicate, perform, Quiet]
  · trivial

theorem handleLogic_safe (txBuf : TxBuf) (packet : Packet) (state : Bool × List ZephyrEvent) :
    Safe (commandGuard (some packet.opCode)) (recording mountAdvance) (handleLogic txBuf packet) state := by
  unfold handleLogic
  split
  · refine command_safe_of_quiet _ _ state (callsOnly_bind _ _ _ (callsOnly_ofExcept _ _) ?_)
    intro requested
    simp [ledOn, ledOff, perform, Quiet]
  · exact protocolHandler_safe txBuf packet state

theorem writePacket_safe (txBuf : TxBuf) (buf : List Byte) (state : Bool × List ZephyrEvent) :
    Safe (commandGuard (acceptedOpCode buf)) (recording mountAdvance) (writePacket txBuf buf) state := by
  unfold writePacket
  by_cases haccepts : Accepts buf
  · have hparse := protocolParse_of_accepts buf haccepts
    have hop : acceptedOpCode buf = some (packetOf buf).opCode := by
      rw [acceptedOpCode, hparse]
    rw [hop, hparse, Prog.ofExcept_ok_bind]
    exact safe_bind _ _ _ (handleLogic_safe txBuf (packetOf buf) state) fun _ _ => trivial
  · obtain ⟨code, hcode, -⟩ := protocolParse_error_of_not_accepts buf haccepts
    rw [hcode]
    trivial

end Commands

section Sessions

-- A call made at boot after these, with the volume mounted or not.
def CalledAtBoot (session : Session) (before : List ZephyrEvent) (op : ZephyrCall) (mounted : Bool) : Prop :=
  ∃ event after, event.op = op ∧ session.bootRun.trace = before ++ event :: after ∧
    Path mountAdvance false before mounted

-- A call made by a command after these of its own.
def CalledIn (session : Session) (command : Command) (before : List ZephyrEvent) (op : ZephyrCall)
    (mounted : Bool) : Prop :=
  ∃ earlier later event after, session.commands = earlier ++ command :: later ∧ event.op = op ∧
    command.run.trace = before ++ event :: after ∧
    Path mountAdvance false (session.traceBefore earlier ++ before) mounted

variable (session : Session)

theorem called_at_boot (before : List ZephyrEvent) (op : ZephyrCall) (mounted : Bool)
    (h : CalledAtBoot session before op mounted) : bootGuard mounted op := by
  obtain ⟨event, after, rfl, htrace, hpath⟩ := h
  exact wp_guard boot _ false mounted _ before after event _ boot_safe session.bootRun.runs htrace hpath

theorem called_in_command (command : Command) (before : List ZephyrEvent) (op : ZephyrCall) (mounted : Bool)
    (h : CalledIn session command before op mounted) :
    commandGuard (acceptedOpCode command.buf) (mounted, before) op := by
  obtain ⟨earlier, later, event, after, -, rfl, htrace, hpath⟩ := h
  obtain ⟨middle, -, hpath⟩ := (path_append _ before).mp hpath
  have hrecorded := hpath.recorded before []
  rw [List.nil_append] at hrecorded
  exact wp_guard _ _ (middle, []) (mounted, before) _ before after event _
    (writePacket_safe command.txBuf command.buf (middle, [])) command.run.runs htrace hrecorded

-- The fast format first of all calls fs_mkfs, also on a mounted volume.
theorem fastFormat_formats (command : Command) (earlier later : List Command) (mounted : Bool)
    (hcommand : session.commands = earlier ++ command :: later)
    (hop : acceptedOpCode command.buf = some OP_BLE_FS_FAST_FORMAT)
    (hpath : Path mountAdvance false (session.traceBefore earlier) mounted) :
    CalledIn session command [] (.fsMkfs .littlefsStorage) mounted := by
  obtain ⟨packet, hopCode, ⟨exchange⟩⟩ := exists_exchange command _ hop (by decide)
  obtain ⟨status, hruns, -⟩ := exchange.status fsHandlerFastFormat (by rw [hopCode]; rfl)
  obtain ⟨rc, hformat, -⟩ := fastFormat_runs _ _ hruns
  refine ⟨earlier, later, ⟨.fsMkfs .littlefsStorage, rc⟩, exchange.after, hcommand, rfl, ?_, ?_⟩
  · have hsplit := exchange.split
    rw [hformat] at hsplit
    exact hsplit
  · rwa [List.append_nil]

end Sessions

-- While the volume is mounted, boot overwrites nothing, and apart from the
-- fast format a command does so only when it is the low-level format, in its
-- erase, after its own fs_unmount was refused.
theorem destructive_calls_guarded (session : Session) :
    (∀ before op mounted, CalledAtBoot session before op mounted → Destructive op → mounted = false) ∧
    ∀ command before op mounted, CalledIn session command before op mounted → Destructive op → mounted = true →
      acceptedOpCode command.buf ≠ some OP_BLE_FS_FAST_FORMAT →
        acceptedOpCode command.buf = some OP_BLE_FS_LOW_LEVEL_FORMAT ∧ IsErase op ∧ UnmountRefused before := by
  constructor
  · intro before op mounted hcalled hdestructive
    exact called_at_boot session before op mounted hcalled hdestructive
  · intro command before op mounted hcalled hdestructive hmounted hfast
    rcases called_in_command session command before op mounted hcalled hdestructive hmounted with h | h
    · exact absurd h hfast
    · exact h

-- A file is open, so fs_unmount fails with -EBUSY; everything else succeeds.
def busyReplies : (call : ZephyrCall) → ZephyrReply call
  | .fsUnmount _ => -EBUSY
  | .flashAreaOpen _ => (0, ⟨0, 65536⟩)
  | .fsRead _ => (0, [])
  | .fsMount _ => (0 : Int)
  | .fsMkfs _ => (0 : Int)
  | .fsStatvfs _ => (0 : Int)
  | .fsOpen _ _ => (0 : Int)
  | .fsWrite _ => (0 : Int)
  | .fsSeek _ => (0 : Int)
  | .fsClose => (0 : Int)
  | .flashAreaErase _ _ _ => (0 : Int)
  | .flashAreaClose _ => ()
  | .flashGetPageInfoByOffs _ => (0 : Int)
  | .btGattIndicate _ _ => (0 : Int)
  | .ledOn => ()
  | .ledOff => ()

def busyFormat : Command where
  txBuf := Store.fresh MAX_PAYLOAD_SIZE 0x00#8
  buf := [0x02#8, 0x02#8, 0x00#8, 0xFB#8, 0x03#8, 0xF0#8, 0x96#8]
  run := (writePacket _ _).runWith busyReplies

def busySession : Session where
  bootRun := boot.runWith busyReplies
  commands := [busyFormat]

-- The low-level format erases the volume it could not unmount.
theorem erase_while_mounted :
    ¬∀ session : Session,
      (∀ before op mounted, CalledAtBoot session before op mounted → Destructive op → mounted = false) ∧
      ∀ command before op mounted, CalledIn session command before op mounted → Destructive op →
        mounted = false := by
  intro h
  have hcall : (busyFormat.run.trace.map Event.op)[2]? = some (.flashAreaErase ⟨0, 65536⟩ 0 65536) := by
    decide +kernel
  obtain ⟨event, after, hop, htrace⟩ := exists_call _ _ 2 hcall
  have hrun : (busySession.traceBefore [] ++ busyFormat.run.trace.take 2).foldlM mountStep false = some true := by
    decide +kernel
  have hcalled : CalledIn busySession busyFormat (busyFormat.run.trace.take 2)
      (.flashAreaErase ⟨0, 65536⟩ 0 65536) true :=
    ⟨[], [], event, after, rfl, hop, htrace, path_of_foldlM mountStep _ hrun⟩
  cases (h busySession).2 busyFormat _ _ true hcalled trivial

end TJ3Firmware
