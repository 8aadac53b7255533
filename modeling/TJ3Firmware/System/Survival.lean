import TJ3Firmware.System.Storage
import TJ3Firmware.FsHandler.LogRecords

namespace TJ3Firmware

open Library.Memory Library.Interaction Library.Threads

section Volume

-- The files on the partition, and whether LittleFS can mount what is there.
structure Partition where
  files : Files
  mountable : Bool

-- What a call can do to the files. An open can make the file of its path, a
-- write changes the open file, and nothing is known of what a format or an erase
-- leaves.
def filesEffect (files : Files) (event : ZephyrEvent) (next : Files) : Prop :=
  match event with
  | ⟨.fsOpen path flags, rc⟩ => (∀ other, other ≠ path → next.content other = files.content other) ∧
      next.opened = if (rc : Int) < 0 then files.opened else some (path, flags)
  | ⟨.fsWrite _, _⟩ => next.opened = files.opened ∧
      ∀ other, (∀ flags, files.opened ≠ some (other, flags)) → next.content other = files.content other
  | ⟨.fsClose, _⟩ => next.content = files.content ∧ next.opened = none
  | _ => next = files

-- Unless its flags forbid it, a mount formats what it cannot mount, and may then
-- return 0. Only a format or an erase leaves what cannot be mounted.
def volumeEffect (part : Partition) (event : ZephyrEvent) (next : Partition) : Prop :=
  match event with
  | ⟨.fsMount mnt, _⟩ => next = part ∨
      part.mountable = false ∧ .noFormat ∉ mnt.flags ∧ next.files.opened = part.files.opened
  | ⟨.fsMkfs _, _⟩ => next.files.opened = part.files.opened
  | ⟨.flashAreaErase _ _ _, _⟩ => next.files.opened = part.files.opened
  | event => filesEffect part.files event next.files ∧ next.mountable = part.mountable

def testPath : List Byte := MOUNT_POINT ++ textBytes "/test.txt"

-- Of the files only the one of the self test is opened.
def Sparing : ZephyrCall → Prop
  | .fsOpen path _ => path = testPath
  | op => ¬Destructive op

-- No other file is open.
def OnlyTest (files : Files) : Prop := ∀ path flags, files.opened = some (path, flags) → path = testPath

theorem filesEffect_sparing {files next : Files} (event : ZephyrEvent) (h : filesEffect files event next)
    (hsparing : Sparing event.op) (hopened : OnlyTest files) :
    OnlyTest next ∧ ∀ path, path ≠ testPath → next.content path = files.content path := by
  obtain ⟨op, reply⟩ := event
  cases op with
  | fsOpen path flags =>
      obtain ⟨hother, hnext⟩ := h
      obtain rfl : path = testPath := hsparing
      refine ⟨fun path' flags' hpath' => ?_, hother⟩
      rw [hnext] at hpath'
      split at hpath'
      · exact hopened path' flags' hpath'
      · cases hpath'
        rfl
  | fsWrite data =>
      obtain ⟨hnext, hother⟩ := h
      refine ⟨fun path flags hpath => hopened path flags (hnext ▸ hpath), fun path hpath => ?_⟩
      exact hother path fun flags hopen => hpath (hopened path flags hopen)
  | fsClose =>
      obtain ⟨hcontent, hnext⟩ := h
      refine ⟨fun path flags hpath => ?_, fun path _ => congrFun hcontent path⟩
      rw [hnext] at hpath
      cases hpath
  | _ =>
      cases h
      exact ⟨hopened, fun _ _ => rfl⟩

variable {part next : Partition}

-- On a volume that can be mounted a mount changes nothing.
theorem volumeEffect_sparing (event : ZephyrEvent) (h : volumeEffect part event next) (hsparing : Sparing event.op)
    (hmountable : part.mountable = true) : filesEffect part.files event next.files ∧ next.mountable = true := by
  obtain ⟨op, reply⟩ := event
  cases op with
  | fsMount mnt =>
      rcases h with rfl | ⟨hlost, -⟩
      · exact ⟨rfl, hmountable⟩
      · rw [hmountable] at hlost
        cases hlost
  | fsMkfs storage => exact absurd trivial hsparing
  | flashAreaErase area offset length => exact absurd trivial hsparing
  | _ => exact ⟨h.1, h.2.trans hmountable⟩

theorem volume_spared (trace : List ZephyrEvent) (h : Path volumeEffect part trace next)
    (hsparing : ∀ event ∈ trace, Sparing event.op) (hopened : OnlyTest part.files) (hmountable : part.mountable = true) :
    next.mountable = true ∧ ∀ path, path ≠ testPath → next.files.content path = part.files.content path := by
  induction h with
  | nil => exact ⟨hmountable, fun _ _ => rfl⟩
  | cons part middle last event trace step _ ih =>
      obtain ⟨hevent, hrest⟩ := List.forall_mem_cons.mp hsparing
      obtain ⟨hfiles, hmiddle⟩ := volumeEffect_sparing event step hevent hmountable
      obtain ⟨hopened', hkept⟩ := filesEffect_sparing event hfiles hevent hopened
      obtain ⟨hlast, hcontent⟩ := ih hrest hopened' hmiddle
      exact ⟨hlast, fun path hpath => (hcontent path hpath).trans (hkept path hpath)⟩

end Volume

section Calls

theorem fsHandlerTest_sparing : CallsOnly Sparing fsHandlerTest := by
  simp [fsHandlerTest, fsOpen, fsWrite, fsSeek, fsRead, fsClose, perform, Sparing, Destructive, testPath]

theorem dumpLfsFlashParams_sparing : CallsOnly Sparing dumpLfsFlashParams := by
  simp [dumpLfsFlashParams, flashAreaOpen, flashGetPageInfoByOffs, flashAreaClose, perform, Sparing, Destructive]

theorem composeTx_sparing (opCode : Byte) (payload : Option (Ptr Byte)) (payloadLen : Word16) (txBuf : TxBuf) :
    CallsOnly Sparing (composeTx opCode payload payloadLen txBuf) := callsOnly_ofExcept _ _

-- After its first mount fs_handler_init formats only on -EIO.
theorem init_sparing : ∃ mounted : Int → Firmware Int, fsHandlerInit = (fsMount lfsStorageMnt >>= mounted) ∧
    ∀ rc, rc ≠ - EIO → CallsOnly Sparing (mounted rc) := by
  refine ⟨_, rfl, fun rc hrc => ?_⟩
  have hrefused : allowFormatOnMountError rc = false := by
    unfold allowFormatOnMountError
    rw [if_neg hrc]
    split <;> rfl
  simp only [hrefused, Bool.not_false, if_true, callsOnly_ite]
  split
  · refine callsOnly_bind _ _ _ dumpLfsFlashParams_sparing fun _ => ?_
    simp [fsStatvfs, perform, Sparing, Destructive]
  · exact callsOnly_bind _ _ _ dumpLfsFlashParams_sparing fun _ => trivial

theorem boot_sparing (trace : List ZephyrEvent) (outcome : Except Fault Unit) (h : Runs boot trace outcome) :
    ∃ (rc : Int) (rest : List ZephyrEvent), trace = ⟨.fsMount lfsStorageMnt, rc⟩ :: rest ∧
      (rc ≠ - EIO → ∀ event ∈ trace, Sparing event.op) := by
  obtain ⟨mounted, hinit, hsparing⟩ := init_sparing
  rw [boot, hinit, bind_assoc] at h
  obtain ⟨(rc : Int), rest, rfl, hrest⟩ := (runs_perform_bind (ZephyrCall.fsMount lfsStorageMnt) _ _ _).mp h
  refine ⟨rc, rest, rfl, fun hrc => List.forall_mem_cons.mpr ⟨id, ?_⟩⟩
  refine forall_event_of_callsOnly Sparing _ _ _ ?_ hrest
  refine callsOnly_bind _ _ _ (hsparing rc hrc) fun _ => ?_
  exact callsOnly_bind _ _ _ fsHandlerTest_sparing fun _ => trivial

section Command

theorem dispatch_sparing (packet : Packet) (txBuf : TxBuf) (hfast : packet.opCode ≠ OP_BLE_FS_FAST_FORMAT)
    (hlow : packet.opCode ≠ OP_BLE_FS_LOW_LEVEL_FORMAT) : CallsOnly Sparing (dispatch packet txBuf) := by
  unfold dispatch
  simp only [callsOnly_ite, if_neg hfast, if_neg hlow]
  split
  · exact callsOnly_bind _ _ _ (callsOnly_ofExcept _ _) fun _ => composeTx_sparing _ _ _ _
  split
  · exact callsOnly_bind _ _ _ fsHandlerTest_sparing fun _ => composeTx_sparing _ _ _ _
  split
  · exact composeTx_sparing _ _ _ _
  split
  · exact composeTx_sparing _ _ _ _
  · exact composeTx_sparing _ _ _ _

theorem handleLogic_sparing (txBuf : TxBuf) (packet : Packet) (hfast : packet.opCode ≠ OP_BLE_FS_FAST_FORMAT)
    (hlow : packet.opCode ≠ OP_BLE_FS_LOW_LEVEL_FORMAT) : CallsOnly Sparing (handleLogic txBuf packet) := by
  unfold handleLogic
  split
  · refine callsOnly_bind _ _ _ (callsOnly_ofExcept _ _) fun requested => ?_
    simp [ledOn, ledOff, perform, Sparing, Destructive]
  · refine callsOnly_bind _ _ _ (dispatch_sparing packet txBuf hfast hlow) fun response => ?_
    simp only [callsOnly_ite]
    split
    · refine callsOnly_bind _ _ _ (callsOnly_ofExcept _ _) fun data => ?_
      simp [btGattIndicate, perform, Sparing, Destructive]
    · trivial

-- Only the two format commands do more.
theorem writePacket_sparing (txBuf : TxBuf) (buf : List Byte) (hfast : acceptedOpCode buf ≠ some OP_BLE_FS_FAST_FORMAT)
    (hlow : acceptedOpCode buf ≠ some OP_BLE_FS_LOW_LEVEL_FORMAT) : CallsOnly Sparing (writePacket txBuf buf) := by
  unfold writePacket
  by_cases haccepts : Accepts buf
  · have hparse := protocolParse_of_accepts buf haccepts
    rw [acceptedOpCode, hparse] at hfast hlow
    rw [hparse, Prog.ofExcept_ok_bind]
    refine callsOnly_bind _ _ _ (handleLogic_sparing txBuf (packetOf buf) ?_ ?_) fun _ => trivial
    · exact fun hop => hfast (congrArg some hop)
    · exact fun hop => hlow (congrArg some hop)
  · obtain ⟨code, hcode, -⟩ := protocolParse_error_of_not_accepts buf haccepts
    rw [hcode]
    trivial

end Command

end Calls

variable {Conn : Type}

-- A format was asked for by a command that was written.
def FormatWritten (works : List (Work Conn)) : Prop :=
  ∃ written ∈ works.filterMap Work.command, acceptedOpCode written.2 = some OP_BLE_FS_FAST_FORMAT ∨
    acceptedOpCode written.2 = some OP_BLE_FS_LOW_LEVEL_FORMAT

theorem commandRuns_sparing {works : List (Work Conn)} (answered : CommandRuns works) (h : ¬FormatWritten works) :
    ∀ event ∈ answered.storageCalls, Sparing event.op := by
  intro event hevent
  obtain ⟨command, hcommand, hmem⟩ := List.mem_flatMap.mp (List.mem_of_mem_filter hevent)
  have hwritten : (command.txBuf, command.buf) ∈ works.filterMap Work.command := by
    rw [← answered.written]
    exact List.mem_map.mpr ⟨command, hcommand, rfl⟩
  have hsparing := writePacket_sparing command.txBuf command.buf
    (fun hfast => h ⟨_, hwritten, Or.inl hfast⟩) fun hlow => h ⟨_, hwritten, Or.inr hlow⟩
  exact forall_event_of_callsOnly Sparing _ _ _ hsparing command.run.runs event hmem

section Boots

-- From a reset to the next: what the two threads have done by then.
structure Boot (Conn : Type) where
  around : Nat → Surroundings
  rounds : Nat
  data : Atm → Data
  attrRead : AttrRead
  works : List (Work Conn)
  state : BtState Conn
  mainTrace : List (SystemEvent Conn)
  btTrace : List (SystemEvent Conn)
  trace : List (SystemEvent Conn)
  main_reaches : Reaches (main around rounds data) mainTrace
  bt_reaches : Reaches (btThread attrRead works state) btTrace
  interleaved : Interleaved Enabled False mainTrace btTrace trace

def Boot.storage (boot : Boot Conn) : List ZephyrEvent := storageCalls (boot.trace.filterMap zephyrEvent)

-- The mount, which is the very first call, has failed with -EIO, or a format
-- was asked for.
def Boot.Formats (boot : Boot Conn) : Prop :=
  boot.storage.head? = some ⟨.fsMount lfsStorageMnt, - EIO⟩ ∨ FormatWritten boot.works

theorem boot_sparing_storage (boot : Boot Conn) (h : ¬boot.Formats) : ∀ event ∈ boot.storage, Sparing event.op := by
  obtain ⟨bootRun, answered, hfront, -⟩ := system_storageCalls boot.around boot.rounds boot.data boot.attrRead boot.works
    boot.state boot.mainTrace boot.btTrace boot.trace boot.main_reaches boot.bt_reaches boot.interleaved
  obtain ⟨rc, rest, hboot, hsparing⟩ := boot_sparing _ _ bootRun.runs
  obtain ⟨hmount, hformat⟩ := not_or.mp h
  rw [Boot.storage] at hmount ⊢
  generalize storageCalls (boot.trace.filterMap zephyrEvent) = calls at hfront hmount ⊢
  intro event hevent
  have hrc : rc ≠ - EIO := by
    rintro rfl
    obtain ⟨later, hlater⟩ := hfront
    rw [hboot] at hlater
    cases calls with
    | nil => cases hevent
    | cons first others => exact hmount (congrArg List.head? hlater)
  rcases List.mem_append.mp (hfront.subset hevent) with hbooted | hcommand
  · exact hsparing hrc event (List.mem_of_mem_filter hbooted)
  · exact commandRuns_sparing answered hformat event hcommand

-- One boot after another. A reset closes what was open.
inductive Restarted : Partition → List (Boot Conn) → Partition → Prop
  | never (part : Partition) : Restarted part [] part
  | boot (part middle last : Partition) (boot : Boot Conn) (rest : List (Boot Conn))
      (hvolume : Path volumeEffect ⟨⟨part.files.content, none⟩, part.mountable⟩ boot.storage middle)
      (more : Restarted middle rest last) : Restarted part (boot :: rest) last

end Boots

-- On a volume that can be mounted, over any number of restarts, each at any
-- moment, however the two threads interleave and whatever the calls reply, a file
-- other than that of the self test is only changed when a mount at boot failed
-- with -EIO or a format was asked for.
theorem files_survive (boots : List (Boot Conn)) (part final : Partition) (h : Restarted part boots final)
    (hmountable : part.mountable = true) (path : List Byte) (hpath : path ≠ testPath)
    (hchanged : final.files.content path ≠ part.files.content path) : ∃ boot ∈ boots, boot.Formats := by
  induction h with
  | never part => exact absurd rfl hchanged
  | boot part middle last boot rest hvolume _ ih =>
      by_cases hformats : boot.Formats
      · exact ⟨boot, List.mem_cons_self, hformats⟩
      have hsparing := boot_sparing_storage boot hformats
      obtain ⟨hmiddle, hkept⟩ := volume_spared _ hvolume hsparing (fun _ _ hopen => by cases hopen) hmountable
      have hsame : middle.files.content path = part.files.content path := hkept path hpath
      rw [← hsame] at hchanged
      obtain ⟨later, hlater, hformat⟩ := ih hmiddle hchanged
      exact ⟨later, List.mem_cons_of_mem _ hlater, hformat⟩

section Example

-- A format or an erase leaves no file.
def erasing (part : Partition) : ZephyrEvent → Partition
  | ⟨.fsOpen path flags, rc⟩ =>
      ⟨⟨part.files.content, if (rc : Int) < 0 then part.files.opened else some (path, flags)⟩, part.mountable⟩
  | ⟨.fsClose, _⟩ => ⟨⟨part.files.content, none⟩, part.mountable⟩
  | ⟨.fsMkfs _, _⟩ => ⟨⟨fun _ => none, part.files.opened⟩, true⟩
  | ⟨.flashAreaErase _ _ _, _⟩ => ⟨⟨fun _ => none, part.files.opened⟩, false⟩
  | _ => part

theorem volumeEffect_erasing (part : Partition) (event : ZephyrEvent) : volumeEffect part event (erasing part event) := by
  obtain ⟨op, reply⟩ := event
  cases op <;> simp [volumeEffect, filesEffect, erasing]

theorem path_erasing (trace : List ZephyrEvent) (part : Partition) :
    Path volumeEffect part trace (trace.foldl erasing part) := by
  induction trace generalizing part with
  | nil => exact .nil part
  | cons event rest ih => exact .cons _ _ _ _ _ (volumeEffect_erasing part event) (ih _)

def dataPath : List Byte := MOUNT_POINT ++ textBytes "/data.txt"

def oneFile : Partition := ⟨⟨fun path => if path = dataPath then some [0x31#8] else none, none⟩, true⟩

-- A command formats the volume, and then the device starts again.
def formattedBoot : Boot Nat where
  around := emptyRoom
  rounds := 1
  data := fun _ => Data.initial
  attrRead := fun _ _ _ => ⟨0, []⟩
  works := formatWork
  state := ⟨none, StaticData.initial⟩
  mainTrace := bootedMain.trace
  btTrace := formattingBt.trace
  trace := bootedMain.trace ++ formattingBt.trace
  main_reaches := reaches_of_runs bootedMain.runs
  bt_reaches := reaches_of_runs formattingBt.runs
  interleaved := interleaved_append _
    (Or.inr ⟨⟨.main (.bluetooth .enable), (0 : Int)⟩, List.mem_of_getElem? (i := 13) rfl, rfl⟩)

theorem files_survive_formatted : ∃ boot ∈ [formattedBoot, formattedBoot], boot.Formats :=
  files_survive [formattedBoot, formattedBoot] oneFile _
    (.boot _ _ _ _ _ (path_erasing _ _) (.boot _ _ _ _ _ (path_erasing _ _) (.never _))) rfl dataPath (by decide)
    (by decide +kernel)

end Example

end TJ3Firmware
