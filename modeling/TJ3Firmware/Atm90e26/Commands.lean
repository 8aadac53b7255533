import TJ3Firmware.Library.Speech
import TJ3Firmware.Library.Stream
import TJ3Firmware.Atm90e26.Init
import TJ3Firmware.Atm90e26.Printing

namespace TJ3Firmware

open Library.Memory Library.Interaction Library.Speech Library.Stream Computability

section Commands

-- The address of a register has seven bits.
structure Register where
  addr : Byte
  valid : addr < 0x80#8
  deriving DecidableEq

inductive ChipCommand
  | read (register : Register)
  | write (register : Register) (val : Word16)
  deriving DecidableEq

def ChipCommand.frame : ChipCommand → List Byte
  | .read register => readFrame register.addr
  | .write register val => writeFrame register.addr val

theorem and_lt_readBit : ∀ addr : Byte, addr &&& 0x7F#8 < 0x80#8 := by decide +kernel

-- What the chip makes of the bytes it has heard. The eighth bit of the address
-- tells a read from a write, and a checksum that is wrong is not taken.
def receiveCommand : List Byte → Option (ChipCommand × Nat)
  | stx :: addr :: rest =>
      if stx ≠ 0xFE#8 then none
      else if h : addr < 0x80#8 then
        match rest with
        | lsb :: msb :: checksum :: _ =>
            if checksum = addr + lsb + msb then some (.write ⟨addr, h⟩ (word16 lsb msb), 5) else none
        | _ => none
      else
        match rest with
        | checksum :: _ =>
            if checksum = addr then some (.read ⟨addr &&& 0x7F#8, and_lt_readBit addr⟩, 3) else none
        | _ => none
  | _ => none

theorem or_readBit_of_lt : ∀ addr : Byte, addr < 0x80#8 → ¬(addr ||| 0x80#8) < 0x80#8 ∧
    (addr ||| 0x80#8) &&& 0xFF#8 = addr ||| 0x80#8 ∧ (addr ||| 0x80#8) &&& 0x7F#8 = addr := by decide +kernel

theorem receiveCommand_frame (command : ChipCommand) (rest : List Byte) :
    receiveCommand (command.frame ++ rest) = some (command, command.frame.length) := by
  cases command with
  | read register =>
      obtain ⟨addr, hvalid⟩ := register
      obtain ⟨hbit, hsame, haddr⟩ := or_readBit_of_lt addr hvalid
      simp [ChipCommand.frame, readFrame, receiveCommand, hbit, hsame, haddr]
  | write register val => simp [ChipCommand.frame, writeFrame, receiveCommand, register.valid, word16_lowByte_highByte]

-- The frames of commands, and a chip that takes them apart.
def commandFraming : Framing Byte ChipCommand ChipCommand where
  encode := ChipCommand.frame
  view := id
  decode := receiveCommand
  encode_ne_nil command := by cases command <;> exact List.cons_ne_nil _ _
  decode_encode := receiveCommand_frame

theorem receiveCommand_part (command : ChipCommand) (count : Nat) (h : count < command.frame.length) :
    receiveCommand (command.frame.take count) = none := by
  cases command with
  | read register =>
      obtain ⟨hbit, -, -⟩ := or_readBit_of_lt register.addr register.valid
      have hcount : count < 3 := h
      interval_cases count <;> simp [ChipCommand.frame, readFrame, receiveCommand, hbit]
  | write register val =>
      have hcount : count < 5 := h
      interval_cases count <;> simp [ChipCommand.frame, writeFrame, receiveCommand, register.valid]

end Commands

section Words

def readCommands (reads : List (Byte × Field)) (h : ∀ entry ∈ reads, entry.1 < 0x80#8) : List ChipCommand :=
  reads.pmap (fun entry valid => .read ⟨entry.1, valid⟩) h

theorem sampleReads_valid : ∀ entry ∈ sampleReads, entry.1 < 0x80#8 := by decide

-- The reads of a fetch.
def sampleCommands : List ChipCommand := readCommands sampleReads sampleReads_valid

theorem initWrites_valid : ∀ write ∈ initWrites, write.1 < 0x80#8 := by
  have haddresses : ∀ addr ∈ initWrites.map Prod.fst, addr < 0x80#8 := by decide
  exact List.forall_mem_map.mp haddresses

-- The writes of an initialisation.
def initCommands : List ChipCommand :=
  initWrites.pmap (fun write valid => .write ⟨write.1, valid⟩ write.2) initWrites_valid

-- A fetch stops at a read that fails.
def sampleWords : Language ChipCommand := fronts sampleCommands

-- Without its UART a meter hears nothing.
def initWordsOf (uartReady : Bool) : Language ChipCommand := if uartReady then {initCommands} else 1

def sampleWordsOf (ready : Bool) : Language ChipCommand := if ready then sampleWords else 1

theorem exists_initWord (uartReady : Bool) : ∃ word, word ∈ initWordsOf uartReady := by
  cases uartReady with
  | true => exact ⟨initCommands, rfl⟩
  | false => exact ⟨[], rfl⟩

-- What a meter hears from the power-up on.
def conversation (uartReady : Bool) : Language ChipCommand := initWordsOf uartReady * (sampleWordsOf uartReady)∗

end Words

section Driver

instance (call : UartCall) : Nonempty (UartReply call) := by
  cases call with
  | pollIn => exact ⟨none⟩
  | uptimeGet => exact ⟨(0 : Int)⟩
  | _ => exact ⟨()⟩

theorem emits_uartRead (rounds : Nat) (addr : Byte) (val : Word16) :
    Emits sentBy (uartRead rounds addr val) (readFrame addr) := by
  refine emits_quiet_bind Listening _ _ _ (flushRx_listening rounds) ?_ listening_silent
  intro _
  refine emits_bind_quiet Listening _ _ _ (emits_sendFrame (readFrame addr)) ?_ listening_silent
  intro _
  refine (callsOnly_perform_bind Listening UartCall.uptimeGet _).mpr ⟨trivial, ?_⟩
  intro now
  apply callsOnly_bind _ _ _ (receive_listening 3 _ rounds [])
  intro rxBuf
  split
  · exact ⟨trivial, fun _ => trivial⟩
  · trivial

theorem says_uartRead (rounds : Nat) (register : Register) (val : Word16) :
    Says sentBy ChipCommand.frame (uartRead rounds register.addr val) {[ChipCommand.read register]} :=
  says_of_emits [ChipCommand.read register] (by simpa [ChipCommand.frame] using emits_uartRead rounds register.addr val)

theorem says_fetchFields (rounds : Nat) (reads : List (Byte × Field)) (h : ∀ entry ∈ reads, entry.1 < 0x80#8)
    (data : Data) : Says sentBy ChipCommand.frame (fetchFields rounds reads data) (fronts (readCommands reads h)) := by
  induction reads generalizing data with
  | nil => exact (says_pure _).mono (one_le_fronts _)
  | cons entry rest ih =>
      obtain ⟨addr, field⟩ := entry
      obtain ⟨hvalid, hrest⟩ := List.forall_mem_cons.mp h
      refine Says.mono ?_ (singleton_mul_fronts_le (.read ⟨addr, hvalid⟩) (readCommands rest hrest))
      refine says_bind (says_uartRead rounds ⟨addr, hvalid⟩ (data.get field)) ?_ ⟨[], List.nil_prefix⟩
      rintro ⟨ret, value⟩
      by_cases hret : ret < 0
      · simp only [if_pos hret]
        exact (says_pure _).mono (one_le_fronts _)
      · simp only [if_neg hret]
        exact ih hrest _

theorem says_readAtm90e26 (rounds : Nat) (ready : Bool) (name : String) (data : Data) (stack : SensorChannel → SensorValue) :
    Says sentBy ChipCommand.frame (readAtm90e26 rounds ready name data stack) (sampleWordsOf ready) := by
  cases ready with
  | false => exact says_pure _
  | true =>
      refine says_bind_pure (says_fetchFields rounds sampleReads sampleReads_valid data) ?_
      rintro ⟨ret, fetched⟩
      by_cases hret : ret < 0
      · simp only [if_pos hret]
        exact ⟨_, rfl⟩
      · simp only [if_neg hret]
        exact ⟨_, rfl⟩

theorem says_atm90e26Init (uartReady : Bool) (rounds : Nat) :
    Says sentBy ChipCommand.frame (atm90e26Init uartReady rounds) (initWordsOf uartReady) := by
  cases uartReady with
  | false => exact says_pure _
  | true =>
      refine says_bind_pure (says_of_emits initCommands (emits_initChip rounds)) ?_
      intro ret
      by_cases hret : ret < 0
      · rw [if_pos hret]
        exact ⟨_, rfl⟩
      · rw [if_neg hret]
        exact ⟨_, rfl⟩

end Driver

end TJ3Firmware
