import TJ3Firmware.Atm90e26.Commands
import TJ3Firmware.MainLoop.Reports
import TJ3Firmware.System.Storage

namespace TJ3Firmware

open Library.Memory Library.Interaction Library.Threads Library.Speech Library.Stream Computability

variable {Conn : Type}

section Firmware

-- The kernel calls atm90e26_init for each device before main, and a device is
-- ready when that has returned 0.
def initMeter (rounds : Nat) (uartReady : Atm → Bool) (meter : Atm) : MainThread Conn Bool := do
  let ret ← (atm90e26Init (uartReady meter) rounds).lift (MainCall.uart meter) fun _ reply => reply
  pure (decide (ret = 0))

def initMeters (rounds : Nat) (uartReady : Atm → Bool) : List Atm → (Atm → Bool) → MainThread Conn (Atm → Bool)
  | [], ready => pure ready
  | meter :: rest, ready => do
      let ok ← initMeter rounds uartReady meter
      initMeters rounds uartReady rest (Function.update ready meter ok)

-- From the power-up on, with the devices in this order.
def firmware (order : List Atm) (rounds : Nat) (uartReady : Atm → Bool) (around : Nat → Surroundings) (seconds : Nat) :
    Thread Conn (List LogLine × MainState) := do
  let ready ← ofMain (initMeters rounds uartReady order fun _ => false)
  main (fun second => { around second with ready := ready }) seconds fun _ => Data.initial

end Firmware

section Meter

-- What is sent to a meter.
def toldMeter (meter : Atm) (event : MainEvent Conn) : Option Byte := (uartOf meter event).bind sentBy

variable {α : Type} {meter : Atm}

-- What a program tells a meter.
abbrev Tells (meter : Atm) (prog : MainThread Conn α) (words : Language ChipCommand) : Prop :=
  Says (toldMeter meter) ChipCommand.frame prog words

theorem toldMeter_other (other : Atm) (hother : other ≠ meter) (event : MainEvent Conn)
    (h : ∃ call, event.op = .uart other call) : toldMeter meter event = none := by
  rw [toldMeter, uartOf_other meter other hother event h]
  rfl

theorem says_lift (other : Atm) {prog : Driver α} {words : Language ChipCommand}
    (h : Says sentBy ChipCommand.frame prog words) :
    Tells meter (prog.lift (MainCall.uart other) (fun _ reply => reply) : MainThread Conn α)
      (if other = meter then words else 1) := by
  by_cases hother : other = meter
  · subst hother
    rw [if_pos rfl, lift_eq_embed]
    refine says_embed (uartOf other) ?_ (fun _ => rfl) h
    intro call reply
    exact if_pos rfl
  · rw [if_neg hother]
    refine says_quiet (fun op => ∃ call, op = .uart other call) ?_ (toldMeter_other other hother)
    exact callsOnly_lift _ _ _ (fun call => ⟨call, rfl⟩) prog

theorem says_initMeter (rounds : Nat) (uartReady : Atm → Bool) (other : Atm) :
    Tells meter (initMeter rounds uartReady other : MainThread Conn Bool)
      (if other = meter then initWordsOf (uartReady other) else 1) :=
  says_bind_pure (says_lift other (says_atm90e26Init (uartReady other) rounds)) fun _ => ⟨_, rfl⟩

theorem says_initMeters (rounds : Nat) (uartReady : Atm → Bool) (order : List Atm) (hnodup : order.Nodup)
    (ready : Atm → Bool) :
    Tells meter (initMeters rounds uartReady order ready : MainThread Conn (Atm → Bool))
      (if meter ∈ order then initWordsOf (uartReady meter) else 1) := by
  induction order generalizing ready with
  | nil => exact says_pure ready
  | cons other rest ih =>
      obtain ⟨hother, hrest⟩ := List.nodup_cons.mp hnodup
      have hfirst : Tells meter (initMeter rounds uartReady other : MainThread Conn Bool) _ :=
        says_initMeter rounds uartReady other
      have hsecond : ∃ word, word ∈ (if meter ∈ rest then initWordsOf (uartReady meter) else 1) := by
        split_ifs
        · exact exists_initWord _
        · exact ⟨[], rfl⟩
      have hbind := says_bind hfirst (fun ok => ih hrest (Function.update ready other ok)) hsecond
      by_cases hsame : other = meter
      · subst hsame
        rw [if_pos rfl, if_neg hother, mul_one] at hbind
        rw [if_pos List.mem_cons_self]
        exact hbind
      · have hmem : meter ∈ other :: rest ↔ meter ∈ rest := by simp [Ne.symm hsame]
        rw [if_neg hsame, one_mul] at hbind
        simp only [hmem]
        exact hbind

theorem initMeter_ready (rounds : Nat) (uartReady : Atm → Bool) (trace : List (MainEvent Conn)) (ok : Bool)
    (h : Runs (initMeter rounds uartReady meter) trace (.ok ok)) : ok = uartReady meter := by
  obtain ⟨before, ret, after, rfl, hinit, hrest⟩ := (runs_bind_ok _ _ _ _).mp h
  obtain ⟨-, hok⟩ := (runs_pure _ _ _).mp hrest
  cases hok
  rw [lift_eq_embed] at hinit
  obtain ⟨hret, -⟩ := atm90e26Init_runs _ _ _ _ (runs_of_embed (uartOf meter) _ _ _ hinit fun call reply => if_pos rfl)
  rw [hret]
  cases uartReady meter <;> rfl

-- In the end a device is ready when its UART is.
theorem initMeters_ready (rounds : Nat) (uartReady : Atm → Bool) (order : List Atm) (ready last : Atm → Bool)
    (trace : List (MainEvent Conn)) (h : Runs (initMeters rounds uartReady order ready) trace (.ok last)) (meter : Atm) :
    last meter = if meter ∈ order then uartReady meter else ready meter := by
  induction order generalizing ready trace with
  | nil =>
      obtain ⟨-, hlast⟩ := (runs_pure _ _ _).mp h
      cases hlast
      rfl
  | cons other rest ih =>
      obtain ⟨before, ok, after, rfl, hinit, hrest⟩ := (runs_bind_ok _ _ _ _).mp h
      rw [ih _ after hrest, initMeter_ready rounds uartReady before ok hinit]
      by_cases hsame : meter = other
      · subst hsame
        rw [Function.update_self, ite_self, if_pos List.mem_cons_self]
      · have hmem : meter ∈ other :: rest ↔ meter ∈ rest := by simp [hsame]
        simp only [Function.update_of_ne hsame, hmem]

variable {ready : Bool}

theorem says_readMeter (around : Surroundings) (other : Atm) (data : Atm → Data) (h : around.ready meter = ready) :
    Tells meter (readMeter around other data : MainThread Conn _) (sampleWordsOf ready)∗ := by
  have hread : Tells meter (readMeter around other data : MainThread Conn _)
      (if other = meter then sampleWordsOf (around.ready other) else 1) :=
    says_bind_pure (says_lift other (says_readAtm90e26 _ _ _ _ _)) fun _ => ⟨_, rfl⟩
  refine hread.mono ?_
  by_cases hother : other = meter
  · subst hother
    rw [if_pos rfl, h]
    exact le_kstar
  · rw [if_neg hother]
    exact one_le_kstar

theorem says_readMeters (around : Surroundings) (state : MainState) (h : around.ready meter = ready) :
    Tells meter (readMeters around state : MainThread Conn _) (sampleWordsOf ready)∗ := by
  unfold readMeters
  by_cases hfifth : state.count.tmod 5 = 0
  · rw [if_pos hfifth]
    refine says_kstar_bind (says_readMeter around .atm1 _ h) fun _ => ?_
    refine says_kstar_bind (says_readMeter around .atm2 _ h) fun _ => ?_
    exact says_kstar_bind (says_readMeter around .atm3 _ h) fun _ => (says_pure _).mono one_le_kstar
  · rw [if_neg hfifth]
    exact (says_pure _).mono one_le_kstar

-- The call is not on the UART of a meter.
def OffUart : MainCall Conn → Prop
  | .uart _ _ => False
  | _ => True

theorem toldMeter_offUart (event : MainEvent Conn) (h : OffUart event.op) : toldMeter meter event = none := by
  obtain ⟨op, reply⟩ := event
  cases op with
  | uart other call => exact absurd h id
  | _ => rfl

theorem says_mainStep (around : Surroundings) (state : MainState) (h : around.ready meter = ready) :
    Tells meter (mainStep around state : MainThread Conn _) (sampleWordsOf ready)∗ := by
  refine says_quiet_bind OffUart ?_ toldMeter_offUart (fun _ => ?_) ⟨[], Language.nil_mem_kstar _⟩
  · exact ⟨trivial, fun _ => trivial⟩
  refine says_kstar_bind (says_readMeters around state h) fun _ => ?_
  refine (says_quiet OffUart ?_ toldMeter_offUart).mono one_le_kstar
  exact ⟨trivial, fun _ => trivial⟩

theorem says_mainLoop (around : Nat → Surroundings) (seconds : Nat) (state : MainState)
    (h : ∀ second, (around second).ready meter = ready) :
    Tells meter (mainLoop around seconds state : MainThread Conn _) (sampleWordsOf ready)∗ := by
  induction seconds generalizing state with
  | zero => exact (says_pure _).mono one_le_kstar
  | succ seconds ih =>
      refine says_kstar_bind (says_mainStep (around seconds) state (h seconds)) fun step => ?_
      exact says_kstar_bind (ih step.2) fun _ => (says_pure _).mono one_le_kstar

end Meter

section System

def mainEvent : SystemEvent Conn → Option (MainEvent Conn)
  | ⟨.main call, reply⟩ => some ⟨call, reply⟩
  | _ => none

def sentTo (meter : Atm) (event : SystemEvent Conn) : Option Byte := (mainEvent event).bind (toldMeter meter)

-- The call is not on the UART of a meter.
def Aside : SystemCall Conn → Prop
  | .main call => OffUart call
  | _ => True

variable {meter : Atm}

theorem sentTo_aside (event : SystemEvent Conn) (h : Aside event.op) : sentTo meter event = none := by
  obtain ⟨op, reply⟩ := event
  cases op with
  | main call => exact toldMeter_offUart ⟨call, reply⟩ h
  | _ => rfl

theorem ofFirmware_aside {α : Type} (prog : Firmware α) : CallsOnly Aside (ofFirmware prog : Thread Conn α) :=
  callsOnly_embed _ (fun _ => trivial) prog

theorem ofBluetooth_aside {α : Type} (prog : Bluetooth Conn α) : CallsOnly Aside (ofBluetooth prog) :=
  callsOnly_embed _ (fun _ => trivial) prog

theorem starting_aside : CallsOnly Aside (starting : Thread Conn Unit) := by
  refine callsOnly_bind _ _ _ ⟨trivial, fun _ => trivial⟩ fun _ => ?_
  refine callsOnly_bind _ _ _ ⟨trivial, fun (ready : Bool) => by cases ready <;> trivial⟩ fun _ => ?_
  exact callsOnly_bind _ _ _ (callsOnly_embed _ (fun _ => trivial) _) fun _ => ofFirmware_aside boot

theorem btThread_aside (attrRead : AttrRead) (works : List (Work Conn)) (state : BtState Conn) :
    CallsOnly Aside (btThread attrRead works state) := by
  induction works generalizing state with
  | nil => trivial
  | cons work rest ih =>
      refine callsOnly_bind _ _ _ ?_ fun step => callsOnly_bind _ _ _ (ih step.2) fun _ => trivial
      cases work with
      | callback event => exact callsOnly_bind _ _ _ (ofBluetooth_aside _) fun _ => trivial
      | gatt op => exact callsOnly_bind _ _ _ (ofFirmware_aside _) fun _ => trivial

theorem says_ofMain {α : Type} {prog : MainThread Conn α} {words : Language ChipCommand}
    (h : Tells meter prog words) : Says (sentTo meter) ChipCommand.frame (ofMain prog) words :=
  says_embed mainEvent (fun _ _ => rfl) (fun _ => rfl) h

theorem says_main (around : Nat → Surroundings) (seconds : Nat) (data : Atm → Data) (ready : Bool)
    (h : ∀ second, (around second).ready meter = ready) :
    Says (sentTo meter) ChipCommand.frame (main around seconds data : Thread Conn _) (sampleWordsOf ready)∗ := by
  have hsomething : ∃ word, word ∈ (sampleWordsOf ready)∗ := ⟨[], Language.nil_mem_kstar _⟩
  rw [main_eq]
  refine says_quiet_bind Aside starting_aside sentTo_aside (fun _ => ?_) hsomething
  refine says_quiet_bind Aside (ofBluetooth_aside bleGattInit) sentTo_aside (fun _ => ?_) hsomething
  exact says_ofMain (says_mainLoop around seconds _ h)

theorem says_firmware (order : List Atm) (hnodup : order.Nodup) (hmeter : meter ∈ order) (rounds : Nat)
    (uartReady : Atm → Bool) (around : Nat → Surroundings) (seconds : Nat) :
    Says (sentTo meter) ChipCommand.frame (firmware order rounds uartReady around seconds : Thread Conn _)
      (conversation (uartReady meter)) := by
  have hinit : Says (sentTo meter) ChipCommand.frame
      (ofMain (initMeters rounds uartReady order fun _ => false) : Thread Conn (Atm → Bool)) _ :=
    says_ofMain (says_initMeters rounds uartReady order hnodup _)
  rw [if_pos hmeter] at hinit
  refine says_bind_of_post (fun ready => ready meter = uartReady meter) hinit ?_ ?_ ⟨[], Language.nil_mem_kstar _⟩
  · intro trace ready hruns
    have hready := initMeters_ready rounds uartReady order _ ready _
      (runs_of_embed mainEvent _ trace ready hruns fun _ _ => rfl) meter
    rwa [if_pos hmeter] at hready
  · intro ready hready
    exact says_main _ seconds _ (uartReady meter) fun _ => hready

end System

section Writes

def ChipCommand.written : ChipCommand → Option (Byte × Word16)
  | .read _ => none
  | .write register val => some (register.addr, val)

theorem written_sampleCommands : ∀ command ∈ sampleCommands, command.written = none := by
  intro command hcommand
  obtain ⟨entry, _, rfl⟩ := List.mem_pmap.mp hcommand
  rfl

-- All the writes of a conversation are in the initialisation.
theorem conversation_written (uartReady : Bool) (word : List ChipCommand) (h : word ∈ conversation uartReady) :
    word.filterMap ChipCommand.written <+: initWrites := by
  cases uartReady with
  | false =>
      rw [conversation, initWordsOf, sampleWordsOf, if_neg Bool.false_ne_true, if_neg Bool.false_ne_true, kstar_one, one_mul] at h
      rw [(Language.mem_one word).mp h]
      exact List.nil_prefix
  | true =>
      obtain ⟨_, rfl, later, hlater, rfl⟩ := h
      obtain ⟨fetches, rfl, hfetches⟩ := Language.mem_kstar.mp hlater
      have hreads : fetches.flatten.filterMap ChipCommand.written = [] := by
        apply List.filterMap_eq_nil_iff.mpr
        intro command hcommand
        obtain ⟨fetch, hfetch, hmem⟩ := List.mem_flatten.mp hcommand
        exact written_sampleCommands command ((hfetches fetch hfetch).subset hmem)
      have hinit : initCommands.filterMap ChipCommand.written = initWrites := rfl
      show (initCommands ++ fetches.flatten).filterMap _ <+: _
      rw [List.filterMap_append, hreads, hinit, List.append_nil]

end Writes

-- From the power-up on, in whatever order the kernel starts the devices, however
-- the two threads interleave and whatever comes back, the chip and the firmware
-- never lose step. However the bytes on its UART are cut into chunks, a chip that
-- takes the frames apart has at every moment the commands of a conversation from
-- the front, the writes of an initialisation and then only fetches, and of the
-- next command a part.
theorem chip_in_conversation (order : List Atm) (hnodup : order.Nodup) (rounds : Nat) (uartReady : Atm → Bool)
    (around : Nat → Surroundings) (seconds : Nat) (attrRead : AttrRead) (works : List (Work Conn)) (state : BtState Conn)
    (mainTrace btTrace trace : List (SystemEvent Conn))
    (hmain : Reaches (firmware order rounds uartReady around seconds) mainTrace)
    (hbt : Reaches (btThread attrRead works state) btTrace) (h : Interleaved Enabled False mainTrace btTrace trace)
    (meter : Atm) (hmeter : meter ∈ order) (chunks : List (List Byte)) (received : List ChipCommand) (pending : List Byte)
    (hchunks : chunks.flatten = trace.filterMap (sentTo meter))
    (hfeed : chunks.foldl (feed receiveCommand) ([], []) = (received, pending)) :
    (∃ word ∈ conversation (uartReady meter), ∃ rest,
      Arrived commandFraming word (trace.filterMap (sentTo meter)) (received, pending) received rest) ∧
    received.filterMap ChipCommand.written <+: initWrites := by
  have hquiet := hbt.forall_event Aside (btThread_aside attrRead works state)
  have hnone : btTrace.filterMap (sentTo meter) = [] :=
    List.filterMap_eq_nil_iff.mpr fun event hevent => sentTo_aside event (hquiet event hevent)
  rw [h.filterMap_first (sentTo meter) hnone] at hchunks ⊢
  obtain ⟨word, hword, hfront⟩ := (says_firmware order hnodup hmeter rounds uartReady around seconds).moment mainTrace hmain
  obtain ⟨whole, rest, harrived⟩ := feed_chunks commandFraming receiveCommand_part word chunks (hchunks ▸ hfront)
  have hreceived : chunks.foldl (feed commandFraming.decode) ([], []) = (received, pending) := hfeed
  rw [hreceived, hchunks] at harrived
  have hwhole : received = whole := harrived.views.trans (List.map_id whole)
  subst hwhole
  refine ⟨⟨word, hword, rest, harrived⟩, ?_⟩
  have hwritten := conversation_written (uartReady meter) word hword
  rw [harrived.items, List.filterMap_append] at hwritten
  exact (List.prefix_append _ _).trans hwritten

section Example

def systemRespond (script : Script) : (call : SystemCall Nat) → SystemReply Nat call × Script
  | .gpioPinConfigure => ((0 : Int), script)
  | .uartReady => (true, script)
  | .flash call => (workingReplies call, script)
  | .zephyr call => (busyReplies call, script)
  | .main .ledToggle => ((), script)
  | .main (.uart _ call) => script.respond call
  | .main (.bluetooth call) => (goodReplies call, script)
  | .main (.sleep _) => ((), script)

-- Only the first meter has its UART. It acknowledges all writes and answers the
-- reads of the first second.
def poweredUp : Run (firmware [.atm1, .atm2, .atm3] 8 (fun meter => meter = .atm1) oneReady 1 : Thread Nat _) :=
  Prog.play systemRespond _ ⟨(List.replicate 14 [none, some 0x00#8]).flatten ++ readingPolls 999, []⟩

def heardChunks : List (List Byte) := [(poweredUp.trace ++ formattingBt.trace).filterMap (sentTo .atm1)]

theorem chip_in_conversation_powered : ∃ (received : List ChipCommand) (pending : List Byte),
    heardChunks.foldl (feed receiveCommand) ([], []) = (received, pending) ∧ received.length = 30 ∧
    (∃ word ∈ conversation true, ∃ rest, Arrived commandFraming word
      ((poweredUp.trace ++ formattingBt.trace).filterMap (sentTo .atm1)) (received, pending) received rest) ∧
    received.filterMap ChipCommand.written <+: initWrites := by
  have hcount : (heardChunks.foldl (feed receiveCommand) ([], [])).1.length = 30 := by decide +kernel
  have henabled : (⟨.main (.bluetooth .enable), (0 : Int)⟩ : SystemEvent Nat) ∈ poweredUp.trace :=
    List.mem_of_getElem? (i := 154) rfl
  exact ⟨_, _, rfl, hcount, chip_in_conversation [.atm1, .atm2, .atm3] (by decide) 8 _ oneReady 1 _ _ _ poweredUp.trace
    formattingBt.trace _ (reaches_of_runs poweredUp.runs) (reaches_of_runs formattingBt.runs)
    (interleaved_append _ (Or.inr ⟨_, henabled, rfl⟩)) .atm1 (by decide) heardChunks _ _ (by simp [heardChunks]) rfl⟩

end Example

end TJ3Firmware
