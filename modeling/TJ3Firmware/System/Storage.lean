import TJ3Firmware.System
import TJ3Firmware.BleGatt.References
import TJ3Firmware.BleGatt.Response
import TJ3Firmware.FsHandler.MountSafety

namespace TJ3Firmware

open Library.Memory Library.Interaction Library.Threads

variable {Conn : Type}

section Parts

-- The calls that are not the firmware's on Zephyr.
def Elsewhere : SystemCall Conn → Prop
  | .zephyr _ => False
  | _ => True

theorem zephyrEvent_elsewhere (event : SystemEvent Conn) (h : Elsewhere event.op) : zephyrEvent event = none := by
  obtain ⟨op, reply⟩ := event
  cases op with
  | zephyr call => exact absurd h id
  | _ => rfl

theorem ofFlash_elsewhere {α : Type} (prog : FlashDriver α) : CallsOnly Elsewhere (ofFlash prog : Thread Conn α) :=
  callsOnly_embed _ (fun _ => trivial) prog

theorem ofBluetooth_elsewhere {α : Type} (prog : Bluetooth Conn α) : CallsOnly Elsewhere (ofBluetooth prog) :=
  callsOnly_embed _ (fun _ => trivial) prog

theorem ofMain_elsewhere {α : Type} (prog : MainThread Conn α) : CallsOnly Elsewhere (ofMain prog) :=
  callsOnly_embed _ (fun _ => trivial) prog

theorem ledInit_elsewhere : CallsOnly Elsewhere (ledInit : Thread Conn Unit) := ⟨trivial, fun _ => trivial⟩

theorem extCommInit_elsewhere : CallsOnly Elsewhere (extCommInit : Thread Conn Int) := by
  refine ⟨trivial, fun (ready : Bool) => ?_⟩
  cases ready <;> trivial

theorem zephyrEvent_zephyr (call : ZephyrCall) (reply : ZephyrReply call) :
    zephyrEvent (⟨.zephyr call, reply⟩ : SystemEvent Conn) = some ⟨call, reply⟩ := rfl

end Parts

section Main

-- What main does before ble_gatt_init.
def starting : Thread Conn Unit := do
  ledInit
  let _ ← extCommInit
  let _ ← ofFlash spiFlashInit
  ofFirmware boot

theorem main_eq (around : Nat → Surroundings) (rounds : Nat) (data : Atm → Data) :
    (main around rounds data : Thread Conn _) = starting >>= fun _ => ofBluetooth bleGattInit >>= fun _ =>
      ofMain (mainLoop around rounds ⟨0, data⟩) := by
  simp only [main, starting, boot, ofFirmware, embed_bind, bind_assoc]
  rfl

theorem starting_boot (trace : List (SystemEvent Conn)) (h : Reaches starting trace) :
    Reaches boot (trace.filterMap zephyrEvent) := by
  rcases h.skip Elsewhere ledInit_elsewhere zephyrEvent_elsewhere with hnil | ⟨_, after, hsame, hrest⟩
  · rw [hnil]
    exact .start boot
  rw [hsame]
  rcases hrest.skip Elsewhere extCommInit_elsewhere zephyrEvent_elsewhere with hnil | ⟨_, after, hsame, hrest⟩
  · rw [hnil]
    exact .start boot
  rw [hsame]
  rcases hrest.skip Elsewhere (ofFlash_elsewhere spiFlashInit) zephyrEvent_elsewhere with hnil | ⟨_, after, hsame, hrest⟩
  · rw [hnil]
    exact .start boot
  rw [hsame]
  exact reaches_of_embed zephyrEvent boot after hrest zephyrEvent_zephyr

theorem starting_booted (trace : List (SystemEvent Conn)) (h : Runs starting trace (.ok ())) :
    Runs boot (trace.filterMap zephyrEvent) (.ok ()) := by
  obtain ⟨_, _, hfirst, hrest⟩ := runs_skip Elsewhere h ledInit_elsewhere zephyrEvent_elsewhere
  obtain ⟨_, _, hsecond, hrest⟩ := runs_skip Elsewhere hrest extCommInit_elsewhere zephyrEvent_elsewhere
  obtain ⟨_, after, hthird, hrest⟩ :=
    runs_skip Elsewhere hrest (ofFlash_elsewhere spiFlashInit) zephyrEvent_elsewhere
  rw [hfirst, hsecond, hthird]
  exact runs_of_embed zephyrEvent boot after () hrest zephyrEvent_zephyr

-- Not a call of main itself, nor one on the Bluetooth stack.
def Disabled : SystemCall Conn → Prop
  | .main _ => False
  | _ => True

theorem not_enabled_of_disabled (event : SystemEvent Conn) (h : Disabled event.op) : ¬Enabled event := by
  obtain ⟨op, reply⟩ := event
  cases op with
  | main call => exact absurd h id
  | _ => exact id

theorem starting_disabled : CallsOnly Disabled (starting : Thread Conn Unit) := by
  refine callsOnly_bind _ _ _ ⟨trivial, fun _ => trivial⟩ fun _ => ?_
  refine callsOnly_bind _ _ _ ⟨trivial, fun (ready : Bool) => by cases ready <;> trivial⟩ fun _ => ?_
  refine callsOnly_bind _ _ _ (callsOnly_embed _ (fun _ => trivial) _) fun _ => ?_
  exact callsOnly_embed _ (fun _ => trivial) _

-- A moment of the main thread: the part before ble_gatt_init and the rest.
structure MainMoment (trace : List (SystemEvent Conn)) where
  before : List (SystemEvent Conn)
  after : List (SystemEvent Conn)
  bootRun : Run boot
  trace_eq : trace = before ++ after
  before_disabled : ∀ event ∈ before, ¬Enabled event
  before_front : before.filterMap zephyrEvent <+: bootRun.trace
  after_elsewhere : after.filterMap zephyrEvent = []
  booted : after ≠ [] → before.filterMap zephyrEvent = bootRun.trace

theorem reaches_main (around : Nat → Surroundings) (rounds : Nat) (data : Atm → Data) (trace : List (SystemEvent Conn))
    (h : Reaches (main around rounds data) trace) : Nonempty (MainMoment trace) := by
  rw [main_eq] at h
  rcases reaches_bind _ _ _ h with hstarting | ⟨before, value, after, rfl, hstarted, hrest⟩
  · obtain ⟨bootRun, hfront⟩ := (starting_boot trace hstarting).exists_run
    have hevents := hstarting.forall_event Disabled starting_disabled
    exact ⟨trace, [], bootRun, (List.append_nil _).symm, fun event hevent => not_enabled_of_disabled event (hevents event hevent),
      hfront, rfl, fun hne => absurd rfl hne⟩
  · have hevents := forall_event_of_callsOnly Disabled _ _ _ starting_disabled hstarted
    have hafter := hrest.forall_event Elsewhere (callsOnly_bind _ _ _ (ofBluetooth_elsewhere bleGattInit) fun _ =>
      ofMain_elsewhere (mainLoop around rounds ⟨0, data⟩))
    exact ⟨before, after, ⟨_, _, starting_booted before hstarted⟩, rfl,
      fun event hevent => not_enabled_of_disabled event (hevents event hevent), List.prefix_rfl,
      List.filterMap_eq_nil_iff.mpr fun event hevent => zephyrEvent_elsewhere event (hafter event hevent), fun _ => rfl⟩

end Main

section Work

-- The call is not on the file system.
def OffStorage (op : ZephyrCall) : Prop := op.onStorage = false

theorem storageCalls_append (before after : List ZephyrEvent) :
    storageCalls (before ++ after) = storageCalls before ++ storageCalls after := List.filter_append ..

theorem storageCalls_eq_nil (trace : List ZephyrEvent) (h : ∀ event ∈ trace, OffStorage event.op) :
    storageCalls trace = [] := by
  apply List.filter_eq_nil_iff.mpr
  intro event hevent
  rw [h event hevent]
  exact Bool.false_ne_true

-- The commands among the work, with calls they can make.
structure CommandRuns (works : List (Work Conn)) where
  commands : List Command
  written : commands.map (fun command => (command.txBuf, command.buf)) = works.filterMap Work.command

def CommandRuns.storageCalls {works : List (Work Conn)} (answered : CommandRuns works) : List ZephyrEvent :=
  TJ3Firmware.storageCalls (answered.commands.flatMap fun command => command.run.trace)

def CommandRuns.append {first second : List (Work Conn)} (answered : CommandRuns first) (later : CommandRuns second) :
    CommandRuns (first ++ second) where
  commands := answered.commands ++ later.commands
  written := by rw [List.map_append, answered.written, later.written, List.filterMap_append]

theorem storageCalls_commandRuns_append {first second : List (Work Conn)} (answered : CommandRuns first)
    (later : CommandRuns second) : (answered.append later).storageCalls = answered.storageCalls ++ later.storageCalls := by
  rw [CommandRuns.storageCalls, CommandRuns.append, List.flatMap_append, storageCalls_append]
  rfl

theorem exists_commandRuns (works : List (Work Conn)) : Nonempty (CommandRuns works) := by
  refine ⟨⟨(works.filterMap Work.command).map fun written => ⟨written.1, written.2, (writePacket _ _).runWith busyReplies⟩, ?_⟩⟩
  rw [List.map_map]
  exact List.map_id _

theorem gattOp_offStorage (attrRead : AttrRead) (data : StaticData) (op : GattOp)
    (hcommand : (Work.gatt op : Work Conn).command = none) : CallsOnly OffStorage (op.handle attrRead data) := by
  cases op with
  | read attr len offset => trivial
  | write attr buf offset =>
      refine callsOnly_bind _ _ _ ?_ fun _ => trivial
      cases attr with
      | meterConfig => exact callsOnly_ofExcept _ _
      | command txBuf => cases hcommand
      | logFetch =>
          refine callsOnly_bind _ _ _ ?_ fun _ => trivial
          unfold writeLogFetch
          split
          · trivial
          · exact callsOnly_bind _ _ _ (callsOnly_ofExcept _ _) fun _ => ⟨rfl, fun _ => trivial⟩
      | logLevel => exact callsOnly_ofExcept _ _
      | clearLogs => exact ⟨rfl, fun _ => trivial⟩

theorem exists_write_of_command (op : GattOp) (written : TxBuf × List Byte)
    (h : (Work.gatt op : Work Conn).command = some written) :
    ∃ txBuf buf offset, op = .write (.command txBuf) buf offset := by
  cases op with
  | read attr len offset => cases h
  | write attr buf offset =>
      cases attr with
      | command txBuf => exact ⟨txBuf, buf, offset, rfl⟩
      | _ => cases h

theorem command_reaches (attrRead : AttrRead) (data : StaticData) (txBuf : TxBuf) (buf : WriteBuf) (offset : Word16)
    (trace : List ZephyrEvent) (h : Reaches (GattOp.handle attrRead (.write (.command txBuf) buf offset) data) trace) :
    Reaches (writePacket txBuf buf.bytes) trace :=
  (h.of_bind fun _ => ⟨_, rfl⟩).of_bind fun _ => ⟨_, rfl⟩

theorem command_runs (attrRead : AttrRead) (data : StaticData) (txBuf : TxBuf) (buf : WriteBuf) (offset : Word16)
    (trace : List ZephyrEvent) (result : GattReply × StaticData)
    (h : Runs (GattOp.handle attrRead (.write (.command txBuf) buf offset) data) trace (.ok result)) :
    ∃ value, Runs (writePacket txBuf buf.bytes) trace (.ok value) := by
  obtain ⟨_, hwrite⟩ := runs_of_bind h fun _ => ⟨_, rfl⟩
  exact runs_of_bind hwrite fun _ => ⟨_, rfl⟩

theorem callback_elsewhere (attrRead : AttrRead) (state : BtState Conn) (event : Callback Conn) :
    CallsOnly Elsewhere ((Work.callback event).handle attrRead state) :=
  callsOnly_bind _ _ _ (ofBluetooth_elsewhere (event.handle state.currentConn)) fun _ => trivial

theorem work_reaches (attrRead : AttrRead) (state : BtState Conn) (work : Work Conn) (trace : List (SystemEvent Conn))
    (h : Reaches (work.handle attrRead state) trace) :
    ∃ answered : CommandRuns [work], storageCalls (trace.filterMap zephyrEvent) <+: answered.storageCalls := by
  cases work with
  | callback event =>
      have hevents := h.forall_event Elsewhere (callback_elsewhere attrRead state event)
      have hnone := List.filterMap_eq_nil_iff.mpr fun event hevent => zephyrEvent_elsewhere event (hevents event hevent)
      rw [hnone]
      exact ⟨⟨[], rfl⟩, List.nil_prefix⟩
  | gatt op =>
      have hop := reaches_of_embed zephyrEvent _ _ (h.of_bind fun _ => ⟨_, rfl⟩) zephyrEvent_zephyr
      cases hcommand : (Work.gatt op : Work Conn).command with
      | none =>
          have hevents := hop.forall_event OffStorage (gattOp_offStorage attrRead state.data op hcommand)
          rw [storageCalls_eq_nil _ hevents]
          exact ⟨⟨[], by simp [hcommand]⟩, List.nil_prefix⟩
      | some written =>
          obtain ⟨txBuf, buf, offset, rfl⟩ := exists_write_of_command op written hcommand
          obtain ⟨run, hfront⟩ := (command_reaches attrRead state.data txBuf buf offset _ hop).exists_run
          refine ⟨⟨[⟨txBuf, buf.bytes, run⟩], rfl⟩, ?_⟩
          rw [CommandRuns.storageCalls, List.flatMap_singleton]
          exact hfront.filter _

theorem work_runs (attrRead : AttrRead) (state : BtState Conn) (work : Work Conn) (trace : List (SystemEvent Conn))
    (result : Option GattReply × BtState Conn) (h : Runs (work.handle attrRead state) trace (.ok result)) :
    ∃ answered : CommandRuns [work], storageCalls (trace.filterMap zephyrEvent) = answered.storageCalls := by
  cases work with
  | callback event =>
      have hevents := forall_event_of_callsOnly Elsewhere _ _ _ (callback_elsewhere attrRead state event) h
      have hnone := List.filterMap_eq_nil_iff.mpr fun event hevent => zephyrEvent_elsewhere event (hevents event hevent)
      rw [hnone]
      exact ⟨⟨[], rfl⟩, rfl⟩
  | gatt op =>
      obtain ⟨value, hembedded⟩ := runs_of_bind h fun _ => ⟨_, rfl⟩
      have hop := runs_of_embed zephyrEvent _ _ value hembedded zephyrEvent_zephyr
      cases hcommand : (Work.gatt op : Work Conn).command with
      | none =>
          have hevents := forall_event_of_callsOnly OffStorage _ _ _
            (gattOp_offStorage attrRead state.data op hcommand) hop
          rw [storageCalls_eq_nil _ hevents]
          exact ⟨⟨[], by simp [hcommand]⟩, rfl⟩
      | some written =>
          obtain ⟨txBuf, buf, offset, rfl⟩ := exists_write_of_command op written hcommand
          obtain ⟨_, hruns⟩ := command_runs attrRead state.data txBuf buf offset _ _ hop
          refine ⟨⟨[⟨txBuf, buf.bytes, ⟨_, _, hruns⟩⟩], rfl⟩, ?_⟩
          rw [CommandRuns.storageCalls, List.flatMap_singleton]

theorem btThread_reaches (attrRead : AttrRead) (works : List (Work Conn)) (state : BtState Conn)
    (trace : List (SystemEvent Conn)) (h : Reaches (btThread attrRead works state) trace) :
    ∃ answered : CommandRuns works, storageCalls (trace.filterMap zephyrEvent) <+: answered.storageCalls := by
  induction works generalizing state trace with
  | nil =>
      cases h
      exact ⟨⟨[], rfl⟩, List.nil_prefix⟩
  | cons work rest ih =>
      rcases reaches_bind _ _ _ h with hfirst | ⟨before, ⟨reply, state'⟩, after, rfl, hfirst, hlast⟩
      · obtain ⟨answered, hfront⟩ := work_reaches attrRead state work trace hfirst
        obtain ⟨later⟩ := exists_commandRuns rest
        refine ⟨answered.append later, ?_⟩
        rw [storageCalls_commandRuns_append]
        exact hfront.trans (List.prefix_append _ _)
      · obtain ⟨answered, hsame⟩ := work_runs attrRead state work before _ hfirst
        obtain ⟨later, hfront⟩ := ih state' after (hlast.of_bind fun _ => ⟨_, rfl⟩)
        refine ⟨answered.append later, ?_⟩
        rw [storageCalls_commandRuns_append, List.filterMap_append, storageCalls_append, hsame]
        exact (List.prefix_append_right_inj _).mpr hfront

end Work

section System

-- What boot has done so far, and then what the commands have done so far.
theorem system_storageCalls (around : Nat → Surroundings) (rounds : Nat) (data : Atm → Data) (attrRead : AttrRead)
    (works : List (Work Conn)) (state : BtState Conn) (mainTrace btTrace trace : List (SystemEvent Conn))
    (hmain : Reaches (main around rounds data) mainTrace) (hbt : Reaches (btThread attrRead works state) btTrace)
    (h : Interleaved Enabled False mainTrace btTrace trace) :
    ∃ (bootRun : Run boot) (answered : CommandRuns works),
      storageCalls (trace.filterMap zephyrEvent) <+: storageCalls bootRun.trace ++ answered.storageCalls ∧
      (btTrace ≠ [] → storageCalls bootRun.trace <+: storageCalls (trace.filterMap zephyrEvent)) := by
  obtain ⟨before, after, bootRun, rfl, hdisabled, hfront, helsewhere, hbooted⟩ := reaches_main around rounds data mainTrace hmain
  obtain ⟨answered, hanswered⟩ := btThread_reaches attrRead works state btTrace hbt
  refine ⟨bootRun, answered, ?_⟩
  by_cases hafter : after = []
  · subst hafter
    rw [List.append_nil] at h
    obtain ⟨rfl, rfl⟩ := h.idle id hdisabled
    refine ⟨?_, fun hne => absurd rfl hne⟩
    exact (hfront.filter _).trans (List.prefix_append _ _)
  · obtain ⟨rest, later, rfl, -, hrest⟩ := h.alone before after id hdisabled
    rw [List.filterMap_append, storageCalls_append, hbooted hafter, hrest.filterMap_second zephyrEvent helsewhere]
    exact ⟨(List.prefix_append_right_inj _).mpr hanswered, fun _ => List.prefix_append _ _⟩

end System

-- However the two threads interleave, and whatever they are told, what they do
-- to the file system up to any moment is the beginning of a session: boot, then
-- the commands written, one after another. Nothing of it overlaps, and before
-- the Bluetooth thread does anything boot has ended.
theorem storage_serialized (around : Nat → Surroundings) (rounds : Nat) (data : Atm → Data) (attrRead : AttrRead)
    (works : List (Work Conn)) (state : BtState Conn) (mainTrace btTrace trace : List (SystemEvent Conn))
    (hmain : Reaches (main around rounds data) mainTrace) (hbt : Reaches (btThread attrRead works state) btTrace)
    (h : Interleaved Enabled False mainTrace btTrace trace) :
    ∃ session : Session,
      session.commands.map (fun command => (command.txBuf, command.buf)) = works.filterMap Work.command ∧
      storageCalls (trace.filterMap zephyrEvent) <+: session.storageCalls ∧
      (btTrace ≠ [] → storageCalls session.bootRun.trace <+: storageCalls (trace.filterMap zephyrEvent)) := by
  obtain ⟨bootRun, answered, hfront, hbooted⟩ :=
    system_storageCalls around rounds data attrRead works state mainTrace btTrace trace hmain hbt h
  refine ⟨⟨bootRun, answered.commands⟩, answered.written, ?_, hbooted⟩
  have hsession : (⟨bootRun, answered.commands⟩ : Session).storageCalls =
      storageCalls bootRun.trace ++ answered.storageCalls := storageCalls_append _ _
  rwa [hsession]

section Example

def quietReplies : (call : UartCall) → UartReply call
  | .pollIn => none
  | .pollOut _ => ()
  | .uptimeGet => (0 : Int)
  | .busyWait _ => ()
  | .msleep _ => ()

def systemReplies : (call : SystemCall Nat) → SystemReply Nat call
  | .gpioPinConfigure => (0 : Int)
  | .uartReady => true
  | .flash call => workingReplies call
  | .zephyr call => busyReplies call
  | .main .ledToggle => ()
  | .main (.uart _ call) => quietReplies call
  | .main (.bluetooth call) => goodReplies call
  | .main (.sleep _) => ()

def emptyRoom : Nat → Surroundings := fun _ => ⟨0, fun _ => false, fun _ _ => ⟨0, 0⟩⟩

def bootedMain : Run (main emptyRoom 1 fun _ => Data.initial : Thread Nat _) := Prog.runWith systemReplies _

def formatWork : List (Work Nat) :=
  [.gatt (.write (.command busyFormat.txBuf) ⟨busyFormat.buf, by decide⟩ 0#16)]

def formattingBt : Run (btThread (fun _ _ _ => ⟨0, []⟩) formatWork ⟨none, StaticData.initial⟩) :=
  Prog.runWith systemReplies _

-- The Bluetooth thread comes in after a second of the main loop.
theorem storage_serialized_format : ∃ session : Session,
    session.commands.map (fun command => (command.txBuf, command.buf)) = formatWork.filterMap Work.command ∧
    storageCalls ((bootedMain.trace ++ formattingBt.trace).filterMap zephyrEvent) <+: session.storageCalls ∧
    (formattingBt.trace ≠ [] → storageCalls session.bootRun.trace <+:
      storageCalls ((bootedMain.trace ++ formattingBt.trace).filterMap zephyrEvent)) :=
  storage_serialized _ _ _ _ _ _ _ _ _ (reaches_of_runs bootedMain.runs) (reaches_of_runs formattingBt.runs)
    (interleaved_append _ (Or.inr ⟨⟨.main (.bluetooth .enable), (0 : Int)⟩, List.mem_of_getElem? (i := 13) rfl, rfl⟩))

end Example

end TJ3Firmware
