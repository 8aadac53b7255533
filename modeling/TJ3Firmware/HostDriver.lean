import TJ3Firmware.Atm90e26.Init
import TJ3Firmware.Library.Threads

namespace TJ3Firmware

open Library.Memory Library.Interaction Library.Threads

-- docs/sample_code/atm90e26.py
namespace HostDriver

section Calls

-- The calls on the serial port, and time.sleep.
inductive SerialCall
  | open (baudrate timeoutMs : Nat)
  | write (payload : List Byte)
  | flush
  | read (size : Nat)
  | sleep (milliseconds : Nat)
  deriving Repr, DecidableEq

-- A read returns what has come in before its timeout.
abbrev SerialReply : SerialCall → Type
  | .open _ _ => Unit
  | .write _ => Unit
  | .flush => Unit
  | .read _ => List Byte
  | .sleep _ => Unit

abbrev SerialEvent := Event SerialCall SerialReply

-- What bytes() raises for an integer that is not below 256.
inductive Raised
  | valueError
  deriving Repr, DecidableEq

abbrev Host (α : Type) := Prog SerialCall SerialReply Raised α

def serOpen (baudrate timeoutMs : Nat) : Host Unit := Prog.perform (SerialCall.open baudrate timeoutMs)

def serWrite (payload : List Byte) : Host Unit := Prog.perform (SerialCall.write payload)

def serFlush : Host Unit := Prog.perform SerialCall.flush

def serRead (size : Nat) : Host (List Byte) := Prog.perform (SerialCall.read size)

def timeSleep (milliseconds : Nat) : Host Unit := Prog.perform (SerialCall.sleep milliseconds)

end Calls

section Driver

def toBytes (values : List Nat) : Except Raised (List Byte) :=
  if ∀ value ∈ values, value < 256 then .ok (values.map fun (value : Nat) => BitVec.ofNat 8 value) else .error .valueError

-- ATM90E26_Driver.__init__
def driverInit : Host Unit := do
  serOpen 9600 50
  timeSleep 500

def calcHostChecksum (addr lsb msb : Nat) : Nat := (addr + lsb + msb) &&& 0xFF

-- The integers have no bound of their own.
def writeReg (addr value : Nat) : Host Bool := do
  let lsb := value &&& 0xFF
  let msb := (value >>> 8) &&& 0xFF
  let chk := calcHostChecksum addr lsb msb
  let payload ← Prog.ofExcept (toBytes [0xFE, addr, lsb, msb, chk])
  serWrite payload
  let res ← serRead 1
  if res.length = 1 then do
    timeSleep 25
    pure true
  else do
    timeSleep 25
    pure false

def readReg (addr : Nat) : Host (Option Nat) := do
  let readAddr := addr ||| 0x80
  let payload ← Prog.ofExcept (toBytes [0xFE, readAddr, readAddr])
  serWrite payload
  let res ← serRead 3
  match res with
  | [lsb, msb, _] => do
      timeSleep 25
      pure (some ((msb.toNat <<< 8) ||| lsb.toNat))
  | _ => do
      timeSleep 25
      pure none

def calculateCs1 (regs : List Nat) : Nat :=
  let sums := regs.foldl (fun (sums : Nat × Nat) val =>
    let h := (val >>> 8) &&& 0xFF
    let l := val &&& 0xFF
    ((sums.1 + h + l) &&& 0xFF, sums.2 ^^^ h ^^^ l)) (0, 0)
  (sums.2 <<< 8) ||| sums.1

-- Whatever comes back, the reset is taken to have worked.
def softReset : Host Bool := do
  let lsb := 0x789A &&& 0xFF
  let msb := (0x789A >>> 8) &&& 0xFF
  let chk := calcHostChecksum 0x00 lsb msb
  let payload ← Prog.ofExcept (toBytes [0xFE, 0x00, lsb, msb, chk])
  serWrite payload
  serFlush
  let _ ← serRead 1
  timeSleep 200
  pure true

def initSequence : Host Bool := do
  let _ ← softReset
  let statusVal ← readReg 0x01
  if statusVal.isNone then pure false
  else do
    if !(← writeReg 0x20 0x5678) then pure false
    else do
      if !(← writeReg 0x21 0x0015) then pure false
      else do
        if !(← writeReg 0x22 0xD174) then pure false
        else do
          if !(← writeReg 0x2B 0x7C22) then pure false
          else do
            let cs1 := calculateCs1 [0x0015, 0xD174, 0, 0, 0, 0, 0, 0, 0, 0, 0x7C22]
            if !(← writeReg 0x2C cs1) then pure false
            else do
              if !(← writeReg 0x20 0x8765) then pure false
              else pure true

-- The body of while True in main_loop.
def loopStep : Host Unit := do
  let _ ← readReg 0x48
  let _ ← readReg 0x49
  let _ ← writeReg 0x30 0x5678
  let _ ← writeReg 0x20 0x5678
  let _ ← writeReg 0x33 0x0693
  let _ ← writeReg 0x31 0x7A22
  let _ ← writeReg 0x32 0x0CB4
  let _ ← readReg 0x3B
  let _ ← writeReg 0x3B 0x75F5
  let _ ← writeReg 0x30 0x8765
  let _ ← readReg 0x68
  timeSleep 2000

-- A number of rounds. A KeyboardInterrupt ends the loop, and with it the
-- program.
def mainLoop : Nat → Host Unit
  | 0 => pure ()
  | rounds + 1 => do
      loopStep
      mainLoop rounds

-- while True, for so many attempts.
def attempt (rounds : Nat) : Nat → Host Unit
  | 0 => pure ()
  | attempts + 1 => do
      if ← initSequence then mainLoop rounds
      else do
        timeSleep 1000
        attempt rounds attempts

def main (attempts rounds : Nat) : Host Unit := do
  driverInit
  attempt rounds attempts

end Driver

section Transfers

-- What the driver asks the chip for, one at a time.
inductive Request
  | softReset
  | read (addr : Byte)
  | write (addr : Byte) (value : Word16)
  deriving Repr, DecidableEq

-- The frames are those of the firmware.
def Request.frame : Request → List Byte
  | .softReset => writeFrame ATM90E26_REG_SOFTRESET ATM90E26_SOFTRESET_MAGIC
  | .read addr => readFrame addr
  | .write addr value => writeFrame addr value

def Request.size : Request → Nat
  | .read _ => 3
  | _ => 1

structure Transfer where
  request : Request
  answer : List Byte

def Transfer.Answered (transfer : Transfer) : Prop := transfer.answer.length = transfer.request.size

instance (transfer : Transfer) : Decidable transfer.Answered := inferInstanceAs (Decidable (_ = _))

def Transfer.trace (transfer : Transfer) : List SerialEvent :=
  match transfer.request with
  | .softReset =>
      [⟨.write transfer.request.frame, ()⟩, ⟨.flush, ()⟩, ⟨.read 1, transfer.answer⟩, ⟨.sleep 200, ()⟩]
  | request => [⟨.write request.frame, ()⟩, ⟨.read request.size, transfer.answer⟩, ⟨.sleep 25, ()⟩]

theorem and_0xFF (value : Nat) : value &&& 0xFF = value % 256 := Nat.and_two_pow_sub_one_eq_mod value 8

-- bytes() of what are bytes.
theorem toBytes_eq (values : List Nat) (bytes : List Byte) (h : values = bytes.map BitVec.toNat) :
    toBytes values = .ok bytes := by
  subst h
  rw [toBytes, if_pos (by simpa using fun byte _ => byte.isLt), List.map_map]
  congr 1
  exact List.map_id'' (fun byte => by simp) bytes

-- The low sixteen bits of the value are sent.
theorem toBytes_write (addr : Byte) (value : Nat) :
    toBytes [0xFE, addr.toNat, value &&& 0xFF, (value >>> 8) &&& 0xFF,
      calcHostChecksum addr.toNat (value &&& 0xFF) ((value >>> 8) &&& 0xFF)] =
        .ok (writeFrame addr (BitVec.ofNat 16 value)) := by
  have hlow : (lowByte (BitVec.ofNat 16 value)).toNat = value &&& 0xFF := by
    rw [toNat_lowByte, BitVec.toNat_ofNat, and_0xFF]
    omega
  have hhigh : (highByte (BitVec.ofNat 16 value)).toNat = (value >>> 8) &&& 0xFF := by
    rw [toNat_highByte, BitVec.toNat_ofNat, and_0xFF, Nat.shiftRight_eq_div_pow]
    omega
  refine toBytes_eq _ _ ?_
  simp only [writeFrame, List.map_cons, List.map_nil, BitVec.toNat_add, hlow, hhigh, calcHostChecksum, and_0xFF (_ + _)]
  simp [Nat.add_mod]

theorem or_readBit : ∀ addr : Byte, (addr ||| 0x80#8) &&& 0xFF#8 = addr ||| 0x80#8 := by decide +kernel

theorem toBytes_read (addr : Byte) :
    toBytes [0xFE, addr.toNat ||| 0x80, addr.toNat ||| 0x80] = .ok (readFrame addr) := by
  refine toBytes_eq _ _ ?_
  rw [readFrame, or_readBit]
  simp

theorem writeReg_runs (addr : Byte) (value : Nat) (trace : List SerialEvent) (outcome : Except Raised Bool)
    (h : Runs (writeReg addr.toNat value) trace outcome) :
    ∃ transfer : Transfer, transfer.request = .write addr (BitVec.ofNat 16 value) ∧ trace = transfer.trace ∧
      outcome = .ok (decide transfer.Answered) := by
  simp only [writeReg, toBytes_write, Prog.ofExcept_ok_bind] at h
  obtain ⟨_, _, rfl, hsent⟩ := (runs_perform_bind (SerialCall.write _) _ _ _).mp h
  obtain ⟨(answer : List Byte), _, rfl, hread⟩ := (runs_perform_bind (SerialCall.read 1) _ _ _).mp hsent
  refine ⟨⟨.write addr (BitVec.ofNat 16 value), answer⟩, rfl, ?_⟩
  by_cases hanswer : answer.length = 1
  · rw [if_pos hanswer] at hread
    obtain ⟨_, _, rfl, hslept⟩ := (runs_perform_bind (SerialCall.sleep 25) _ _ _).mp hread
    obtain ⟨rfl, rfl⟩ := (runs_pure _ _ _).mp hslept
    exact ⟨rfl, congrArg Except.ok (decide_eq_true hanswer).symm⟩
  · rw [if_neg hanswer] at hread
    obtain ⟨_, _, rfl, hslept⟩ := (runs_perform_bind (SerialCall.sleep 25) _ _ _).mp hread
    obtain ⟨rfl, rfl⟩ := (runs_pure _ _ _).mp hslept
    exact ⟨rfl, congrArg Except.ok (decide_eq_false hanswer).symm⟩

-- The value in an answer.
def valueIn : List Byte → Option Word16
  | [lsb, msb, _] => some (word16 lsb msb)
  | _ => none

theorem valueIn_isSome (answer : List Byte) : (valueIn answer).isSome = decide (answer.length = 3) := by
  rcases answer with _ | ⟨lsb, _ | ⟨msb, _ | ⟨checksum, _ | ⟨more, rest⟩⟩⟩⟩ <;> simp [valueIn]

theorem toNat_word16_or (lsb msb : Byte) : (word16 lsb msb).toNat = (msb.toNat <<< 8) ||| lsb.toNat := by
  have hlsb : lsb.toNat < 2 ^ 8 := lsb.isLt
  rw [toNat_word16, Nat.shiftLeft_eq, Nat.mul_comm msb.toNat, ← Nat.two_pow_add_eq_or_of_lt hlsb, Nat.add_comm]

theorem readReg_runs (addr : Byte) (trace : List SerialEvent) (outcome : Except Raised (Option Nat))
    (h : Runs (readReg addr.toNat) trace outcome) :
    ∃ transfer : Transfer, transfer.request = .read addr ∧ trace = transfer.trace ∧
      outcome = .ok ((valueIn transfer.answer).map BitVec.toNat) := by
  simp only [readReg, toBytes_read, Prog.ofExcept_ok_bind] at h
  obtain ⟨_, _, rfl, hsent⟩ := (runs_perform_bind (SerialCall.write _) _ _ _).mp h
  obtain ⟨(answer : List Byte), _, rfl, hread⟩ := (runs_perform_bind (SerialCall.read 3) _ _ _).mp hsent
  refine ⟨⟨.read addr, answer⟩, rfl, ?_⟩
  split at hread
  · rename_i lsb msb checksum
    obtain ⟨_, _, rfl, hslept⟩ := (runs_perform_bind (SerialCall.sleep 25) _ _ _).mp hread
    obtain ⟨rfl, rfl⟩ := (runs_pure _ _ _).mp hslept
    exact ⟨rfl, by rw [valueIn, Option.map_some, toNat_word16_or]⟩
  · rename_i hother
    obtain ⟨_, _, rfl, hslept⟩ := (runs_perform_bind (SerialCall.sleep 25) _ _ _).mp hread
    obtain ⟨rfl, rfl⟩ := (runs_pure _ _ _).mp hslept
    refine ⟨rfl, ?_⟩
    have hnone : valueIn answer = none := by
      unfold valueIn
      split
      · exact absurd rfl (hother _ _ _)
      · rfl
    rw [hnone, Option.map_none]

theorem softReset_runs (trace : List SerialEvent) (outcome : Except Raised Bool) (h : Runs softReset trace outcome) :
    ∃ transfer : Transfer, transfer.request = .softReset ∧ trace = transfer.trace ∧ outcome = .ok true := by
  have hbytes := toBytes_write ATM90E26_REG_SOFTRESET 0x789A
  unfold softReset at h
  rw [show (0x00 : Nat) = ATM90E26_REG_SOFTRESET.toNat from rfl] at h
  simp only [hbytes, Prog.ofExcept_ok_bind] at h
  obtain ⟨_, _, rfl, hsent⟩ := (runs_perform_bind (SerialCall.write _) _ _ _).mp h
  obtain ⟨_, _, rfl, hflushed⟩ := (runs_perform_bind SerialCall.flush _ _ _).mp hsent
  obtain ⟨(answer : List Byte), _, rfl, hread⟩ := (runs_perform_bind (SerialCall.read 1) _ _ _).mp hflushed
  obtain ⟨_, _, rfl, hslept⟩ := (runs_perform_bind (SerialCall.sleep 200) _ _ _).mp hread
  obtain ⟨rfl, rfl⟩ := (runs_pure _ _ _).mp hslept
  exact ⟨⟨.softReset, answer⟩, rfl, rfl, rfl⟩

end Transfers

section Init

-- What init_sequence asks for after the reset, in order.
def checkedRequests : List Request :=
  [.read 0x01#8, .write 0x20#8 0x5678#16, .write 0x21#8 0x0015#16, .write 0x22#8 0xD174#16, .write 0x2B#8 0x7C22#16,
    .write 0x2C#8 (BitVec.ofNat 16 (calculateCs1 [0x0015, 0xD174, 0, 0, 0, 0, 0, 0, 0, 0, 0x7C22])),
    .write 0x20#8 0x8765#16]

-- One request after another, up to the first that is not answered.
inductive Checked : List Request → List Transfer → Bool → Prop
  | done : Checked [] [] true
  | answered (transfer : Transfer) (rest : List Request) (transfers : List Transfer) (ok : Bool)
      (h : transfer.Answered) (more : Checked rest transfers ok) :
      Checked (transfer.request :: rest) (transfer :: transfers) ok
  | unanswered (transfer : Transfer) (rest : List Request) (h : ¬transfer.Answered) :
      Checked (transfer.request :: rest) [transfer] false

theorem Checked.requests_prefix {requests : List Request} {transfers : List Transfer} {ok : Bool}
    (h : Checked requests transfers ok) : transfers.map Transfer.request <+: requests := by
  induction h with
  | done => exact List.prefix_rfl
  | answered transfer rest transfers ok _ _ ih => exact (List.prefix_cons_inj _).mpr ih
  | unanswered transfer rest _ => exact (List.prefix_cons_inj _).mpr List.nil_prefix

theorem Checked.ok_iff {requests : List Request} {transfers : List Transfer} {ok : Bool}
    (h : Checked requests transfers ok) : ok = true ↔ ∀ transfer ∈ transfers, transfer.Answered := by
  induction h with
  | done => simp
  | answered transfer rest transfers ok hanswered _ ih => rw [ih, List.forall_mem_cons, and_iff_right hanswered]
  | unanswered transfer rest hmissing => simp [hmissing]

theorem Checked.complete {requests : List Request} {transfers : List Transfer} {ok : Bool}
    (h : Checked requests transfers ok) (hok : ok = true) : transfers.map Transfer.request = requests := by
  induction h with
  | done => rfl
  | answered transfer rest transfers ok _ _ ih => rw [List.map_cons, ih hok]
  | unanswered transfer rest _ => cases hok

-- The program asks for these, and returns whether all were answered.
def Checks (prog : Host Bool) (requests : List Request) : Prop :=
  ∀ trace outcome, Runs prog trace outcome → ∃ transfers ok, Checked requests transfers ok ∧
    trace = transfers.flatMap Transfer.trace ∧ outcome = .ok ok

theorem checks_true : Checks (pure true) [] := by
  intro trace outcome h
  obtain ⟨rfl, rfl⟩ := (runs_pure _ _ _).mp h
  exact ⟨[], true, .done, rfl, rfl⟩

theorem writeReg_returns (addr : Byte) (value : Nat) (trace : List SerialEvent) (error : Raised) :
    ¬Runs (writeReg addr.toNat value) trace (.error error) := by
  intro h
  obtain ⟨_, -, -, houtcome⟩ := writeReg_runs addr value trace _ h
  cases houtcome

theorem readReg_returns (addr : Byte) (trace : List SerialEvent) (error : Raised) :
    ¬Runs (readReg addr.toNat) trace (.error error) := by
  intro h
  obtain ⟨_, -, -, houtcome⟩ := readReg_runs addr trace _ h
  cases houtcome

theorem softReset_returns (trace : List SerialEvent) (error : Raised) : ¬Runs softReset trace (.error error) := by
  intro h
  obtain ⟨_, -, -, houtcome⟩ := softReset_runs trace _ h
  cases houtcome

-- The next request is made only when this one was answered.
theorem checks_step {α : Type} (prog : Host α) (next : α → Host Bool) (request : Request) (rest : List Request)
    (good : α → Bool) (hreturns : ∀ trace error, ¬Runs prog trace (.error error))
    (hprog : ∀ trace value, Runs prog trace (.ok value) → ∃ transfer : Transfer, transfer.request = request ∧
      trace = transfer.trace ∧ good value = decide transfer.Answered)
    (hstop : ∀ value, good value = false → next value = pure false)
    (hnext : ∀ value, good value = true → Checks (next value) rest) : Checks (prog >>= next) (request :: rest) := by
  intro trace outcome h
  obtain ⟨before, value, after, rfl, hbefore, hafter⟩ := (runs_bind_of_returns prog next trace outcome hreturns).mp h
  obtain ⟨transfer, rfl, rfl, hgood⟩ := hprog before value hbefore
  by_cases hanswered : transfer.Answered
  · rw [decide_eq_true hanswered] at hgood
    obtain ⟨transfers, ok, hchecked, rfl, rfl⟩ := hnext value hgood after outcome hafter
    exact ⟨transfer :: transfers, ok, .answered _ _ _ _ hanswered hchecked, List.flatMap_cons.symm, rfl⟩
  · rw [decide_eq_false hanswered] at hgood
    rw [hstop value hgood] at hafter
    obtain ⟨rfl, rfl⟩ := (runs_pure _ _ _).mp hafter
    exact ⟨[transfer], false, .unanswered _ _ hanswered, by simp, rfl⟩

theorem checks_write (addr : Byte) (value : Nat) (next : Host Bool) (rest : List Request) (h : Checks next rest) :
    Checks (writeReg addr.toNat value >>= fun ok => if !ok then pure false else next)
      (.write addr (BitVec.ofNat 16 value) :: rest) := by
  refine checks_step _ _ _ rest id (writeReg_returns addr value) ?_ ?_ ?_
  · intro trace ok hruns
    obtain ⟨transfer, hrequest, htrace, houtcome⟩ := writeReg_runs addr value trace _ hruns
    exact ⟨transfer, hrequest, htrace, Except.ok.inj houtcome⟩
  · rintro ok rfl
    rfl
  · rintro ok rfl
    exact h

theorem checks_read (addr : Byte) (next : Host Bool) (rest : List Request) (h : Checks next rest) :
    Checks (readReg addr.toNat >>= fun value => if value.isNone then pure false else next) (.read addr :: rest) := by
  refine checks_step _ _ _ rest Option.isSome (readReg_returns addr) ?_ ?_ ?_
  · intro trace value hruns
    obtain ⟨transfer, hrequest, htrace, houtcome⟩ := readReg_runs addr trace _ hruns
    refine ⟨transfer, hrequest, htrace, ?_⟩
    rw [Except.ok.inj houtcome, Option.isSome_map, valueIn_isSome]
    simp [Transfer.Answered, hrequest, Request.size]
  · intro value hnone
    rw [if_pos (by simpa using hnone)]
  · intro value hsome
    obtain ⟨held, rfl⟩ := Option.isSome_iff_exists.mp hsome
    rw [if_neg (by simp)]
    exact h

theorem initSequence_runs (trace : List SerialEvent) (outcome : Except Raised Bool) (h : Runs initSequence trace outcome) :
    ∃ (reset : Transfer) (transfers : List Transfer) (ok : Bool), reset.request = .softReset ∧
      Checked checkedRequests transfers ok ∧ trace = reset.trace ++ transfers.flatMap Transfer.trace ∧
      outcome = .ok ok := by
  obtain ⟨before, value, after, rfl, hreset, hrest⟩ :=
    (runs_bind_of_returns softReset _ trace outcome softReset_returns).mp h
  obtain ⟨reset, hrequest, rfl, -⟩ := softReset_runs before _ hreset
  have hchecks := checks_read 0x01#8 _ _ (checks_write 0x20#8 0x5678 _ _ (checks_write 0x21#8 0x0015 _ _
    (checks_write 0x22#8 0xD174 _ _ (checks_write 0x2B#8 0x7C22 _ _
      (checks_write 0x2C#8 (calculateCs1 [0x0015, 0xD174, 0, 0, 0, 0, 0, 0, 0, 0, 0x7C22]) _ _
        (checks_write 0x20#8 0x8765 _ _ checks_true))))))
  obtain ⟨transfers, ok, hchecked, rfl, rfl⟩ := hchecks after outcome hrest
  exact ⟨reset, transfers, ok, hrequest, hchecked, rfl, rfl⟩

end Init

section Session

-- What main_loop writes and init_sequence does not.
def measurementAddresses : List Byte :=
  [ATM90E26_REG_ADJSTART, ATM90E26_REG_UGAIN, ATM90E26_REG_IGAINL, ATM90E26_REG_IGAINN, ATM90E26_REG_CS2]

def MeasurementWrite (event : SerialEvent) : Prop :=
  ∃ addr ∈ measurementAddresses, ∃ value, event = ⟨.write (writeFrame addr value), ()⟩

-- All of init_sequence was answered before.
def Prepared (before : List SerialEvent) : Prop :=
  ∃ (earlier later : List SerialEvent) (transfers : List Transfer),
    before = earlier ++ transfers.flatMap Transfer.trace ++ later ∧
    transfers.map Transfer.request = checkedRequests ∧ ∀ transfer ∈ transfers, transfer.Answered

theorem Prepared.after {before : List SerialEvent} (h : Prepared before) (first : List SerialEvent) :
    Prepared (first ++ before) := by
  obtain ⟨earlier, later, transfers, rfl, hrequests, hanswered⟩ := h
  exact ⟨first ++ earlier, later, transfers, by simp, hrequests, hanswered⟩

theorem init_frames : ∀ request ∈ Request.softReset :: checkedRequests, ∀ addr ∈ measurementAddresses,
    request.frame[1]? ≠ some addr := by decide +kernel

theorem transfer_not_measurement (transfer : Transfer) (h : transfer.request ∈ Request.softReset :: checkedRequests) :
    ∀ event ∈ transfer.trace, ¬MeasurementWrite event := by
  rintro event hevent ⟨addr, haddr, value, rfl⟩
  have hframe : writeFrame addr value = transfer.request.frame := by
    unfold Transfer.trace at hevent
    split at hevent <;> simpa using hevent
  have haddress := init_frames _ h addr haddr
  rw [← hframe] at haddress
  exact haddress rfl

-- A measurement write comes after a part of the run that has none.
theorem split_measurement (first rest before after : List SerialEvent) (event : SerialEvent)
    (hevent : MeasurementWrite event) (hfirst : ∀ other ∈ first, ¬MeasurementWrite other)
    (hsplit : first ++ rest = before ++ event :: after) :
    ∃ middle, before = first ++ middle ∧ rest = middle ++ event :: after := by
  rcases List.append_eq_append_iff.mp hsplit with ⟨middle, rfl, hrest⟩ | ⟨middle, rfl, hrest⟩
  · exact ⟨middle, rfl, hrest⟩
  · cases middle with
    | nil => exact ⟨[], by simp, by simpa using hrest.symm⟩
    | cons other more =>
        obtain ⟨rfl, -⟩ := List.cons.inj hrest
        exact absurd hevent (hfirst event (by simp))

theorem attempt_prepared (rounds attempts : Nat) (trace before after : List SerialEvent) (event : SerialEvent)
    (outcome : Except Raised Unit) (h : Runs (attempt rounds attempts) trace outcome) (hevent : MeasurementWrite event)
    (hsplit : trace = before ++ event :: after) : Prepared before := by
  induction attempts generalizing trace before with
  | zero =>
      obtain ⟨rfl, -⟩ := (runs_pure _ _ _).mp h
      simp at hsplit
  | succ attempts ih =>
      have hreturns : ∀ trace error, ¬Runs initSequence trace (.error error) := by
        intro trace error hruns
        obtain ⟨_, _, _, -, -, -, houtcome⟩ := initSequence_runs trace _ hruns
        cases houtcome
      obtain ⟨first, value, rest, rfl, hinit, hrest⟩ :=
        (runs_bind_of_returns initSequence _ trace outcome hreturns).mp h
      obtain ⟨reset, transfers, ok, hreset, hchecked, hfirst, hvalue⟩ := initSequence_runs first _ hinit
      cases hvalue
      have hquiet : ∀ other ∈ first, ¬MeasurementWrite other := by
        rw [hfirst, List.forall_mem_append]
        refine ⟨transfer_not_measurement reset (by simp [hreset]), ?_⟩
        intro other hother
        obtain ⟨transfer, htransfer, hmem⟩ := List.mem_flatMap.mp hother
        have hrequest := hchecked.requests_prefix.subset (List.mem_map_of_mem htransfer)
        exact transfer_not_measurement transfer (List.mem_cons_of_mem _ hrequest) other hmem
      obtain ⟨middle, rfl, htail⟩ := split_measurement first rest before after event hevent hquiet hsplit
      cases value with
      | true => exact ⟨reset.trace, middle, transfers, by rw [hfirst], hchecked.complete rfl, hchecked.ok_iff.mp rfl⟩
      | false =>
          obtain ⟨_, again, rfl, hagain⟩ := (runs_perform_bind (SerialCall.sleep 1000) _ _ _).mp hrest
          have hslept : ∀ other ∈ [(⟨.sleep 1000, ()⟩ : SerialEvent)], ¬MeasurementWrite other := by
            rintro other hother ⟨addr, -, value, rfl⟩
            simp at hother
          obtain ⟨later, rfl, hlater⟩ := split_measurement [⟨.sleep 1000, ()⟩] again middle after event hevent hslept htail
          exact ((ih again later hagain hlater).after _).after first

end Session

instance (op : SerialCall) : Nonempty (SerialReply op) := by
  cases op with
  | read size => exact ⟨[]⟩
  | _ => exact ⟨()⟩

-- At any moment of any run of the script, whatever comes back and however often
-- it has to start again, no register of the measurement calibration is written
-- before the chip has answered the status read and each of the six writes of an
-- initialisation.
theorem measurement_after_init (attempts rounds : Nat) (trace before after : List SerialEvent) (addr : Byte)
    (value : Word16) (h : Reaches (main attempts rounds) trace) (haddr : addr ∈ measurementAddresses)
    (hsplit : trace = before ++ ⟨.write (writeFrame addr value), ()⟩ :: after) :
    ∃ (earlier later : List SerialEvent) (transfers : List Transfer),
      before = earlier ++ transfers.flatMap Transfer.trace ++ later ∧
      transfers.map Transfer.request = checkedRequests ∧ ∀ transfer ∈ transfers, transfer.Answered := by
  obtain ⟨run, more, hmore⟩ := h.exists_run
  obtain ⟨_, opened, hopened, hruns⟩ := (runs_perform_bind (SerialCall.open 9600 50) _ _ _).mp run.runs
  obtain ⟨_, rest, rfl, hattempt⟩ := (runs_perform_bind (SerialCall.sleep 500) _ _ _).mp hruns
  have hevent : MeasurementWrite ⟨.write (writeFrame addr value), ()⟩ := ⟨addr, haddr, value, rfl⟩
  have hquiet : ∀ other ∈ ([⟨.open 9600 50, ()⟩, ⟨.sleep 500, ()⟩] : List SerialEvent), ¬MeasurementWrite other := by
    rintro other hother ⟨addr', -, value', rfl⟩
    simp at hother
  have hwhole : ([⟨.open 9600 50, ()⟩, ⟨.sleep 500, ()⟩] : List SerialEvent) ++ rest =
      before ++ ⟨.write (writeFrame addr value), ()⟩ :: (after ++ more) := by
    rw [hsplit, List.append_assoc, List.cons_append] at hmore
    rw [hmore, hopened]
    rfl
  obtain ⟨middle, rfl, htail⟩ := split_measurement _ rest before _ _ hevent hquiet hwhole
  exact (attempt_prepared rounds attempts rest middle _ _ _ hattempt hevent htail).after _

section Example

-- The chip answers everything with zeros.
def zeroAnswers : (call : SerialCall) → SerialReply call
  | .open _ _ => ()
  | .write _ => ()
  | .flush => ()
  | .read size => List.replicate size 0x00#8
  | .sleep _ => ()

def oneRound : Run (main 1 1) := (main 1 1).runWith zeroAnswers

theorem measurement_after_init_round : ∃ (earlier later : List SerialEvent) (transfers : List Transfer),
    oneRound.trace.take 33 = earlier ++ transfers.flatMap Transfer.trace ++ later ∧
    transfers.map Transfer.request = checkedRequests ∧ ∀ transfer ∈ transfers, transfer.Answered :=
  measurement_after_init 1 1 oneRound.trace (oneRound.trace.take 33) (oneRound.trace.drop 34) ATM90E26_REG_ADJSTART
    0x5678#16 (reaches_of_runs oneRound.runs) (by decide) rfl

end Example

end HostDriver

end TJ3Firmware
