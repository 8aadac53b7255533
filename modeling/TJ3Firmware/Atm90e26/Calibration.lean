import TJ3Firmware.Atm90e26.Snapshot
import TJ3Firmware.Library.Total

namespace TJ3Firmware

open Library.Memory Library.Interaction Library.Total

section Checksums

def registerBytes (reg : Word16) : List Byte := [highByte reg, lowByte reg]

-- The sum of all bytes, modulo 256.
def byteSum (regs : List Word16) : Byte := total (· + ·) 0x00#8 (regs.flatMap registerBytes)

def byteXor (regs : List Word16) : Byte := total (· ^^^ ·) 0x00#8 (regs.flatMap registerBytes)

theorem calculateCs_eq (regs : List Word16) : calculateCs regs = word16 (byteSum regs) (byteXor regs) := by
  have hfold : ∀ start : Byte × Byte, regs.foldl (fun (sums : Byte × Byte) reg =>
      (sums.1 + highByte reg + lowByte reg, sums.2 ^^^ highByte reg ^^^ lowByte reg)) start =
        (start.1 + byteSum regs, start.2 ^^^ byteXor regs) := by
    induction regs with
    | nil =>
        intro start
        simp [byteSum, byteXor]
    | cons reg rest ih =>
        intro start
        rw [List.foldl_cons, ih]
        simp [byteSum, byteXor, registerBytes, BitVec.add_assoc, BitVec.xor_assoc]
  rw [calculateCs, hfold]
  simp

end Checksums

section Chip

-- The chip checks the registers of metering and those of measurement, each
-- against a checksum register.
inductive Check
  | metering
  | measurement
  deriving Repr, DecidableEq

def Check.checksum : Check → Byte
  | .metering => ATM90E26_REG_CS1
  | .measurement => ATM90E26_REG_CS2

-- 21H to 2BH and 31H to 3AH
def Check.covered : Check → List Byte
  | .metering => [0x21#8, 0x22#8, 0x23#8, 0x24#8, 0x25#8, 0x26#8, 0x27#8, 0x28#8, 0x29#8, 0x2A#8, 0x2B#8]
  | .measurement => [0x31#8, 0x32#8, 0x33#8, 0x34#8, 0x35#8, 0x36#8, 0x37#8, 0x38#8, 0x39#8, 0x3A#8]

def checkStarted (addr : Byte) (val : Word16) : Option Check :=
  if addr = ATM90E26_REG_CALSTART ∧ val = ATM90E26_CALCHECK_MAGIC then some .metering
  else if addr = ATM90E26_REG_ADJSTART ∧ val = ATM90E26_ADJCHECK_MAGIC then some .measurement
  else none

-- The registers, the bytes of a write that is not complete, and the checks so
-- far with the registers as they were then.
structure Chip where
  regs : Byte → Word16
  request : List Byte
  checks : List (Check × (Byte → Word16))

variable (afterReset : Byte → Word16)

def Chip.write (chip : Chip) (addr : Byte) (val : Word16) : Chip :=
  if addr = ATM90E26_REG_SOFTRESET ∧ val = ATM90E26_SOFTRESET_MAGIC then
    { chip with regs := afterReset, request := [] }
  else
    { regs := Function.update chip.regs addr val
      request := []
      checks := chip.checks ++
        (checkStarted addr val).toList.map fun check => (check, Function.update chip.regs addr val) }

-- A write is complete with its fifth byte.
def Chip.hear (chip : Chip) (byte : Byte) : Chip :=
  match chip.request ++ [byte] with
  | [_, addr, lsb, msb, _] => chip.write afterReset addr (word16 lsb msb)
  | request => { chip with request := request }

-- Every byte that is sent is delivered. What the chip answers, and when, is open.
def chipAdvance (chip : Chip) (event : UartEvent) (next : Chip) : Prop :=
  match event with
  | ⟨.pollOut byte, _⟩ => next = chip.hear afterReset byte
  | _ => next = chip

def sentBy : UartEvent → Option Byte
  | ⟨.pollOut byte, _⟩ => some byte
  | _ => none

theorem chip_path (first last : Chip) (trace : List UartEvent) (h : Path (chipAdvance afterReset) first trace last) :
    last = (trace.filterMap sentBy).foldl (Chip.hear afterReset) first := by
  induction h with
  | nil chip => rfl
  | cons chip next last event trace step _ ih =>
      obtain ⟨op, reply⟩ := event
      cases op with
      | _ =>
          cases step
          exact ih

theorem Chip.checks_prefix_hear (chip : Chip) (byte : Byte) : chip.checks <+: (chip.hear afterReset byte).checks := by
  unfold Chip.hear
  split
  · unfold Chip.write
    split
    · exact List.prefix_rfl
    · exact List.prefix_append _ _
  · exact List.prefix_rfl

theorem Chip.checks_prefix_foldl (chip : Chip) (bytes : List Byte) :
    chip.checks <+: (bytes.foldl (Chip.hear afterReset) chip).checks := by
  induction bytes generalizing chip with
  | nil => exact List.prefix_rfl
  | cons byte rest ih => exact (chip.checks_prefix_hear afterReset byte).trans (ih _)

theorem Chip.request_write (chip : Chip) (addr : Byte) (val : Word16) :
    (chip.write afterReset addr val).request = [] := by
  unfold Chip.write
  split <;> rfl

theorem Chip.hear_writeFrame (chip : Chip) (addr : Byte) (val : Word16) (h : chip.request = []) :
    (writeFrame addr val).foldl (Chip.hear afterReset) chip = chip.write afterReset addr val := by
  simp [writeFrame, Chip.hear, h, Chip.write]

theorem Chip.hear_writes (chip : Chip) (writes : List (Byte × Word16)) (h : chip.request = []) :
    (writes.flatMap fun write => writeFrame write.1 write.2).foldl (Chip.hear afterReset) chip =
      writes.foldl (fun chip write => chip.write afterReset write.1 write.2) chip := by
  induction writes generalizing chip with
  | nil => rfl
  | cons write rest ih =>
      rw [List.flatMap_cons, List.foldl_append, chip.hear_writeFrame afterReset _ _ h,
        ih _ (chip.request_write afterReset _ _), List.foldl_cons]

end Chip

section Sends

theorem listening_silent (event : UartEvent) (h : Listening event.op) : sentBy event = none := by
  obtain ⟨op, reply⟩ := event
  cases op with
  | pollOut byte => exact absurd h id
  | _ => rfl

theorem flushRx_listening (rounds : Nat) : CallsOnly Listening (flushRx rounds) := by
  induction rounds with
  | zero => trivial
  | succ rounds ih =>
      refine ⟨trivial, ?_⟩
      intro reply
      cases reply with
      | some byte => exact ih
      | none => trivial

theorem receive_listening (count : Nat) (timeoutTime : Int) (rounds : Nat) (rxBuf : List Byte) :
    CallsOnly Listening (receive count timeoutTime rounds rxBuf) := by
  induction rounds generalizing rxBuf with
  | zero => trivial
  | succ rounds ih =>
      rw [receive]
      split
      · refine (callsOnly_perform_bind Listening UartCall.uptimeGet _).mpr ⟨trivial, ?_⟩
        intro now
        split
        · refine (callsOnly_perform_bind Listening UartCall.pollIn _).mpr ⟨trivial, ?_⟩
          intro reply
          cases reply with
          | some byte => exact ih _
          | none => exact ⟨trivial, fun _ => ih _⟩
        · trivial
      · trivial

theorem emits_sendFrame (frame : List Byte) : Emits sentBy (sendFrame frame) frame := by
  induction frame with
  | nil => exact emits_pure ()
  | cons byte rest ih =>
      exact emits_bind _ _ [byte] rest (emits_perform (UartCall.pollOut byte) byte fun _ => rfl) fun _ => ih

-- Whatever comes back, a write sends its frame once.
theorem emits_uartWrite (rounds : Nat) (addr : Byte) (val : Word16) :
    Emits sentBy (uartWrite rounds addr val) (writeFrame addr val) := by
  refine emits_quiet_bind Listening _ _ _ (flushRx_listening rounds) ?_ listening_silent
  intro _
  refine emits_bind_quiet Listening _ _ _ (emits_sendFrame (writeFrame addr val)) ?_ listening_silent
  intro _
  refine (callsOnly_perform_bind Listening UartCall.uptimeGet _).mpr ⟨trivial, ?_⟩
  intro now
  apply callsOnly_bind _ _ _ (receive_listening 1 _ rounds [])
  intro rxBuf
  cases rxBuf with
  | nil => trivial
  | cons byte rest => exact ⟨trivial, fun _ => trivial⟩

theorem emits_write_bind {rounds : Nat} {addr : Byte} {val : Word16} {next : Int → Driver Int}
    {writes : List (Byte × Word16)}
    (h : ∀ ret, Emits sentBy (next ret) (writes.flatMap fun write => writeFrame write.1 write.2)) :
    Emits sentBy (uartWrite rounds addr val >>= next)
      (((addr, val) :: writes).flatMap fun write => writeFrame write.1 write.2) :=
  emits_bind _ _ _ _ (emits_uartWrite rounds addr val) h

-- The values written to the registers that a check covers.
def Check.table : Check → List (Byte × Word16)
  | .metering =>
      [(ATM90E26_REG_PLCONSTH, PLCONSTH_DEFAULT), (ATM90E26_REG_PLCONSTL, PLCONSTL_DEFAULT),
        (ATM90E26_REG_PSTARTTH, PSTARTTH_DEFAULT), (ATM90E26_REG_MMODE, MMODE_DEFAULT)]
  | .measurement =>
      [(ATM90E26_REG_UGAIN, 0x7A22#16), (ATM90E26_REG_IGAINL, 0x0CB4#16), (ATM90E26_REG_IGAINN, 0x0693#16)]

-- The writes of atm90e26_init_chip, in order.
def initWrites : List (Byte × Word16) :=
  [(ATM90E26_REG_SOFTRESET, ATM90E26_SOFTRESET_MAGIC), (ATM90E26_REG_CALSTART, ATM90E26_CALSTART_MAGIC)] ++
    Check.metering.table ++
    [(ATM90E26_REG_CS1, calculateCs1 meteringRegs), (ATM90E26_REG_CALSTART, ATM90E26_CALCHECK_MAGIC),
      (ATM90E26_REG_ADJSTART, ATM90E26_ADJSTART_MAGIC)] ++
    Check.measurement.table ++
    [(ATM90E26_REG_CS2, calculateCs2 measurementRegs), (ATM90E26_REG_ADJSTART, ATM90E26_ADJCHECK_MAGIC)]

theorem emits_initChip (rounds : Nat) :
    Emits sentBy (initChip rounds) (initWrites.flatMap fun write => writeFrame write.1 write.2) := by
  unfold initChip
  refine emits_write_bind fun _ => ?_
  refine emits_quiet_bind Listening _ _ _ ⟨trivial, fun _ => trivial⟩ (fun _ => ?_) listening_silent
  repeat refine emits_write_bind fun _ => ?_
  exact emits_pure 0

end Sends

section Init

variable (afterReset : Byte → Word16)

-- The covered registers that are never written.
def Check.unwritten : Check → List Byte
  | .metering => [0x23#8, 0x24#8, 0x25#8, 0x26#8, 0x28#8, 0x29#8, 0x2A#8]
  | .measurement => [0x34#8, 0x35#8, 0x36#8, 0x37#8, 0x38#8, 0x39#8, 0x3A#8]

-- The checksum the driver wrote is that of the covered registers.
def Check.Matches (check : Check) (regs : Byte → Word16) : Prop :=
  regs check.checksum = word16 (byteSum (check.covered.map regs)) (byteXor (check.covered.map regs))

-- The bytes the reset left in the registers that are never written add up to
-- zero, and so do they bit by bit.
def Check.Cancels (check : Check) : Prop :=
  byteSum (check.unwritten.map afterReset) = 0x00#8 ∧ byteXor (check.unwritten.map afterReset) = 0x00#8

-- What the driver takes the covered registers to hold.
def Check.assumed : Check → List Word16
  | .metering => meteringRegs
  | .measurement => measurementRegs

theorem Check.assumed_eq (check : Check) :
    check.assumed = check.covered.map fun addr => (check.table.lookup addr).getD 0x0000#16 := by
  cases check <;> decide

theorem Check.unwritten_eq (check : Check) :
    check.unwritten = check.covered.filter fun addr => (check.table.lookup addr).isNone := by
  cases check <;> decide

-- The registers once the values of the table and the checksum are written.
structure Check.Calibrated (check : Check) (regs : Byte → Word16) : Prop where
  covered : check.covered.map regs = check.covered.map fun addr => (check.table.lookup addr).getD (afterReset addr)
  checksum : regs check.checksum = calculateCs check.assumed

theorem Check.matches_iff (check : Check) (regs : Byte → Word16) (h : check.Calibrated afterReset regs) :
    check.Matches regs ↔ check.Cancels afterReset := by
  have htotal : ∀ (op : Byte → Byte → Byte) [Std.Associative op] [Std.Commutative op] [Std.LawfulIdentity op 0x00#8],
      total op 0x00#8 ((check.covered.map regs).flatMap registerBytes) =
        op (total op 0x00#8 (check.assumed.flatMap registerBytes))
          (total op 0x00#8 ((check.unwritten.map afterReset).flatMap registerBytes)) := by
    intro op _ _ _
    rw [h.covered, check.assumed_eq, check.unwritten_eq, List.flatMap_map, List.flatMap_map, List.flatMap_map]
    have hunit : ∀ byte, op 0x00#8 byte = byte := Std.LawfulLeftIdentity.left_id
    have hzero : total op 0x00#8 (registerBytes 0x0000#16) = 0x00#8 := by
      have hbytes : registerBytes 0x0000#16 = [0x00#8, 0x00#8] := by decide
      rw [hbytes, total_cons, total_cons, total_nil, hunit, hunit]
    exact total_lookup op 0x00#8 registerBytes 0x0000#16 hzero check.table afterReset check.covered
  have hsum : byteSum (check.covered.map regs) = byteSum check.assumed + byteSum (check.unwritten.map afterReset) :=
    htotal (· + ·)
  have hxor : byteXor (check.covered.map regs) = byteXor check.assumed ^^^ byteXor (check.unwritten.map afterReset) :=
    htotal (· ^^^ ·)
  rw [Check.Matches, h.checksum, calculateCs_eq, hsum, hxor, word16_inj, Check.Cancels]
  have hself : ∀ byte other : Byte, byte = byte ^^^ other ↔ other = 0x00#8 := by
    intro byte other
    rw [eq_comm, ← BitVec.xor_zero (x := byte), BitVec.xor_assoc, BitVec.xor_right_inj, BitVec.zero_xor]
  rw [hself, eq_comm, BitVec.add_right_eq_self]

structure Chip.Idle (chip : Chip) : Prop where
  request : chip.request = []
  checks : chip.checks = []

def Chip.afterInit (chip : Chip) : Chip :=
  (initWrites.flatMap fun write => writeFrame write.1 write.2).foldl (Chip.hear afterReset) chip

-- With all of its bytes heard, both checks take place.
theorem Chip.checks_afterInit (chip : Chip) (h : chip.Idle) : ∃ metering measurement,
    (chip.afterInit afterReset).checks = [(.metering, metering), (.measurement, measurement)] ∧
      Check.metering.Calibrated afterReset metering ∧ Check.measurement.Calibrated afterReset measurement := by
  rw [Chip.afterInit, chip.hear_writes afterReset initWrites h.request]
  obtain ⟨regs, request, checks⟩ := chip
  cases h.checks
  exact ⟨_, _, rfl, ⟨rfl, rfl⟩, ⟨rfl, rfl⟩⟩

-- What the chip has checked at any time is a part of that from the front.
theorem init_path (rounds : Nat) (run : Run (initChip rounds)) (first last : Chip)
    (h : Path (chipAdvance afterReset) first run.trace last) :
    last.checks <+: (first.afterInit afterReset).checks ∧
      ∀ ret, run.outcome = .ok ret → last = first.afterInit afterReset := by
  obtain ⟨⟨more, hmore⟩, hreturned⟩ := emits_initChip rounds run.trace run.outcome run.runs
  rw [chip_path afterReset first last run.trace h]
  constructor
  · rw [Chip.afterInit, ← hmore, List.foldl_append]
    exact Chip.checks_prefix_foldl afterReset _ more
  · intro ret hret
    rw [hreturned ret hret, Chip.afterInit]

-- A checksum is right for what the chip holds exactly when the registers that
-- are never written cancel out.
theorem checks_match_iff (rounds : Nat) (run : Run (initChip rounds)) (first last : Chip) (hfirst : first.Idle)
    (hpath : Path (chipAdvance afterReset) first run.trace last) :
    (∀ entry ∈ last.checks, entry.1.Matches entry.2 ↔ entry.1.Cancels afterReset) ∧
      ∀ ret, run.outcome = .ok ret → last.checks.map Prod.fst = [.metering, .measurement] := by
  obtain ⟨metering, measurement, hchecks, hmetering, hmeasurement⟩ := first.checks_afterInit afterReset hfirst
  obtain ⟨hfront, hreturned⟩ := init_path afterReset rounds run first last hpath
  rw [hchecks] at hfront
  constructor
  · intro entry hentry
    rcases List.mem_pair.mp (hfront.subset hentry) with rfl | rfl
    · exact Check.metering.matches_iff afterReset metering hmetering
    · exact Check.measurement.matches_iff afterReset measurement hmeasurement
  · intro ret hret
    rw [hreturned ret hret, hchecks]
    rfl

-- Every write is acknowledged at once.
def acknowledgedInit : Run (initChip 8) :=
  (initChip 8).play Script.respond ⟨(List.replicate 14 [none, some 0x00#8]).flatten, []⟩

theorem acknowledgedInit_returned : acknowledgedInit.outcome = .ok 0 := by decide +kernel

theorem exists_chip_path (first : Chip) : ∃ last, Path (chipAdvance afterReset) first acknowledgedInit.trace last := by
  apply exists_path first
  intro event _ chip
  obtain ⟨op, reply⟩ := event
  cases op with
  | _ => exact ⟨_, rfl⟩

def blankChip : Chip := ⟨fun _ => 0, [], []⟩

theorem blankChip_idle : blankChip.Idle := ⟨rfl, rfl⟩

-- All zeros cancel out.
theorem checks_match_iff_zeros : ∃ last, Path (chipAdvance fun _ => 0) blankChip acknowledgedInit.trace last ∧
    (∀ entry ∈ last.checks, entry.1.Matches entry.2 ↔ entry.1.Cancels fun _ => 0) ∧
      ∀ ret, acknowledgedInit.outcome = .ok ret → last.checks.map Prod.fst = [.metering, .measurement] := by
  obtain ⟨last, hpath⟩ := exists_chip_path (fun _ => 0) blankChip
  exact ⟨last, hpath, checks_match_iff (fun _ => 0) 8 acknowledgedInit blankChip last blankChip_idle hpath⟩

-- QStartTh is not zero after the reset.
def qStartThReset (addr : Byte) : Word16 := if addr = 0x29#8 then 0x0AEC#16 else 0x0000#16

theorem checksum_misses_qStartTh : ¬∀ (afterReset : Byte → Word16) (rounds : Nat) (run : Run (initChip rounds))
    (first last : Chip), first.Idle → Path (chipAdvance afterReset) first run.trace last →
      ∀ entry ∈ last.checks, entry.1.Matches entry.2 := by
  intro h
  obtain ⟨last, hpath⟩ := exists_chip_path qStartThReset blankChip
  have hmatches := h qStartThReset 8 acknowledgedInit blankChip last blankChip_idle hpath
  obtain ⟨metering, measurement, hchecks, hmetering, -⟩ := blankChip.checks_afterInit qStartThReset blankChip_idle
  rw [(init_path qStartThReset 8 acknowledgedInit blankChip last hpath).2 0 acknowledgedInit_returned, hchecks]
    at hmatches
  have hcancels := (Check.metering.matches_iff qStartThReset metering hmetering).mp
    (hmatches _ List.mem_cons_self)
  exact absurd hcancels.1 (by decide)

end Init

end TJ3Firmware
