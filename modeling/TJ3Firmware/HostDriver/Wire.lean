import TJ3Firmware.Atm90e26.Responder
import TJ3Firmware.HostDriver

namespace TJ3Firmware

open Library.Memory Library.Interaction Library.Threads

namespace HostDriver

section Firmware

def payloadOf : SerialEvent → Option (List Byte)
  | ⟨.write payload, _⟩ => some payload
  | _ => none

def answerOf : SerialEvent → Option (List Byte)
  | ⟨.read _, answer⟩ => some answer
  | _ => none

theorem payloads_transfer (transfer : Transfer) : transfer.trace.filterMap payloadOf = [transfer.request.frame] := by
  unfold Transfer.trace
  split <;> rfl

theorem answers_transfer (transfer : Transfer) : transfer.trace.filterMap answerOf = [transfer.answer] := by
  unfold Transfer.trace
  split <;> rfl

-- What happens after a read request, which has three bytes.
def afterReadRequest (trace : List UartEvent) : List UartEvent :=
  (trace.dropWhile fun event => (deliveredBy event).isSome).drop 4

theorem afterReadRequest_exchange {addr : Byte} (exchange : ReadExchange addr) :
    afterReadRequest exchange.trace = exchange.answer := by
  have hflush : exchange.trace.dropWhile (fun event => (deliveredBy event).isSome) =
      emptyPoll :: (sent (readFrame addr) ++ exchange.answer) := by
    rw [ReadExchange.trace, List.dropWhile_append_of_pos]
    · rfl
    · intro event hevent
      obtain ⟨byte, -, rfl⟩ := List.mem_map.mp hevent
      rfl
  rw [afterReadRequest, hflush]
  rfl

theorem sentBy_exchange {addr : Byte} (exchange : ReadExchange addr) : exchange.trace.filterMap sentBy = readFrame addr := by
  have hstale : (exchange.stale.map polled).filterMap sentBy = [] := by
    apply List.filterMap_eq_nil_iff.mpr
    intro event hevent
    obtain ⟨byte, -, rfl⟩ := List.mem_map.mp hevent
    rfl
  have hanswer : exchange.answer.filterMap sentBy = [] :=
    List.filterMap_eq_nil_iff.mpr fun event hevent => listening_silent event (exchange.listening event hevent)
  rw [ReadExchange.trace, List.filterMap_append, hstale, List.nil_append, List.filterMap_cons, List.filterMap_append,
    hanswer]
  rfl

-- A write takes one byte, whatever it is.
theorem uartWrite_delivered (rounds : Nat) (addr : Byte) (val : Word16) (trace : List UartEvent) (ret : Int)
    (h : Runs (uartWrite rounds addr val) trace (.ok ret)) :
    (delivered (afterRequest trace)).length ≤ 1 ∧ (ret = 0 ↔ delivered (afterRequest trace) ≠ []) := by
  have hverdict := uartWrite_runs rounds addr val trace ret h
  obtain ⟨stale, now, waiting, rest, rfl, hshort, -, -, hend⟩ := request_runs rounds 1 _ _ _ trace _ h
  constructor
  · rw [afterRequest_exchange, delivered_uptimeGet, delivered_append]
    cases hbytes : delivered waiting with
    | nil =>
        rw [hbytes] at hend
        obtain ⟨rfl, -⟩ := (runs_pure _ _ _).mp hend
        simp
    | cons byte more =>
        rw [hbytes] at hend hshort
        obtain ⟨_, after, rfl, hafter⟩ := (runs_perform_bind (UartCall.msleep UART_WAIT_DELAY_MS) _ _ _).mp hend
        obtain ⟨rfl, -⟩ := (runs_pure _ _ _).mp hafter
        show (byte :: more ++ []).length ≤ 1
        rwa [List.append_nil]
  · rcases hverdict with ⟨hacknowledged, rfl⟩ | ⟨hmissing, rfl⟩
    · exact iff_of_true rfl hacknowledged
    · exact iff_of_false (by decide) hmissing

theorem and_low (val : Word16) : val.toNat &&& 0xFF = (lowByte val).toNat := by
  rw [toNat_lowByte, and_0xFF]

theorem and_high (val : Word16) : (val.toNat >>> 8) &&& 0xFF = (highByte val).toNat := by
  rw [toNat_highByte, and_0xFF, Nat.shiftRight_eq_div_pow]
  omega

-- The sums of the script stay below 256, as those of the firmware do.
theorem sums_eq (regs : List Word16) (sums : Byte × Byte) : (regs.map BitVec.toNat).foldl (fun (sums : Nat × Nat) val =>
    ((sums.1 + ((val >>> 8) &&& 0xFF) + (val &&& 0xFF)) &&& 0xFF, sums.2 ^^^ ((val >>> 8) &&& 0xFF) ^^^ (val &&& 0xFF)))
      (sums.1.toNat, sums.2.toNat) =
        ((regs.foldl (fun (sums : Byte × Byte) reg =>
          (sums.1 + highByte reg + lowByte reg, sums.2 ^^^ highByte reg ^^^ lowByte reg)) sums).1.toNat,
        (regs.foldl (fun (sums : Byte × Byte) reg =>
          (sums.1 + highByte reg + lowByte reg, sums.2 ^^^ highByte reg ^^^ lowByte reg)) sums).2.toNat) := by
  induction regs generalizing sums with
  | nil => rfl
  | cons reg rest ih =>
      rw [List.map_cons, List.foldl_cons, List.foldl_cons, ← ih, and_low, and_high, and_0xFF]
      simp [BitVec.toNat_add]

theorem calculateCs1_eq (regs : List Word16) :
    HostDriver.calculateCs1 (regs.map BitVec.toNat) = (TJ3Firmware.calculateCs1 regs).toNat := by
  have hsums := sums_eq regs (0x00#8, 0x00#8)
  simp only [BitVec.toNat_ofNat, Nat.zero_mod] at hsums
  simp only [HostDriver.calculateCs1, TJ3Firmware.calculateCs1, calculateCs, toNat_word16_or, hsums]

end Firmware

-- The script and the firmware speak the same language. For every register and
-- every value, in any of their runs, they send the same frame, and when they get
-- the same bytes for it they come to the same verdict and the same value. Their
-- checksums are the same for every list of registers.
theorem host_agrees (addr : Byte) :
    (∀ (value : Nat) (hostTrace : List SerialEvent) (ok : Bool) (rounds : Nat) (trace : List UartEvent) (ret : Int),
      Runs (writeReg addr.toNat value) hostTrace (.ok ok) →
      Runs (uartWrite rounds addr (BitVec.ofNat 16 value)) trace (.ok ret) →
        hostTrace.filterMap payloadOf = [trace.filterMap sentBy] ∧
        (hostTrace.filterMap answerOf = [delivered (afterRequest trace)] → (ok = true ↔ ret = 0))) ∧
    (∀ (hostTrace : List SerialEvent) (value : Option Nat) (rounds : Nat) (trace : List UartEvent) (ret : Int)
      (before after : Word16), Runs (readReg addr.toNat) hostTrace (.ok value) →
      Runs (uartRead rounds addr before) trace (.ok (ret, after)) →
        hostTrace.filterMap payloadOf = [trace.filterMap sentBy] ∧
        (hostTrace.filterMap answerOf = [delivered (afterReadRequest trace)] →
          value = if ret = 0 then some after.toNat else none)) ∧
    ∀ regs : List Word16, HostDriver.calculateCs1 (regs.map BitVec.toNat) = (TJ3Firmware.calculateCs1 regs).toNat := by
  refine ⟨?_, ?_, calculateCs1_eq⟩
  · intro value hostTrace ok rounds trace ret hhost hfirmware
    obtain ⟨transfer, hrequest, rfl, hok⟩ := writeReg_runs addr value hostTrace _ hhost
    cases hok
    obtain ⟨-, hsent⟩ := emits_uartWrite rounds addr (BitVec.ofNat 16 value) trace _ hfirmware
    rw [payloads_transfer, answers_transfer, hrequest, hsent ret rfl]
    refine ⟨rfl, fun hanswer => ?_⟩
    obtain ⟨hshort, hret⟩ := uartWrite_delivered rounds addr _ trace ret hfirmware
    rw [← List.singleton_inj.mp hanswer] at hshort hret
    rw [hret, decide_eq_true_iff, Transfer.Answered, hrequest, ← List.length_pos_iff]
    show transfer.answer.length = 1 ↔ _
    omega
  · intro hostTrace value rounds trace ret before after hhost hfirmware
    obtain ⟨transfer, hrequest, rfl, hvalue⟩ := readReg_runs addr hostTrace _ hhost
    cases hvalue
    obtain ⟨exchange, rfl, -, hreceived⟩ := uartRead_runs rounds addr before trace ret after hfirmware
    rw [payloads_transfer, answers_transfer, hrequest, sentBy_exchange, afterReadRequest_exchange]
    refine ⟨rfl, fun hanswer => ?_⟩
    rw [← List.singleton_inj.mp hanswer] at hreceived
    generalize transfer.answer = bytes at hreceived
    cases hreceived with
    | value lsb msb checksum => rfl
    | timeout bytes hshort =>
        rw [if_neg (by decide), Option.map_eq_none_iff, ← Option.not_isSome_iff_eq_none, valueIn_isSome]
        simpa using ne_of_lt hshort

section Example

-- Both are acknowledged with a zero.
def acknowledgedHost : Run (writeReg (0x20#8 : Byte).toNat 0x5678) := Prog.runWith zeroAnswers _

def acknowledgedFirmware : Run (uartWrite 8 0x20#8 (BitVec.ofNat 16 0x5678)) :=
  Prog.play Script.respond _ ⟨[none, some 0x00#8], []⟩

theorem host_agrees_acknowledged :
    acknowledgedHost.trace.filterMap payloadOf = [acknowledgedFirmware.trace.filterMap sentBy] ∧
      (true = true ↔ (0 : Int) = 0) := by
  have hreturned : acknowledgedFirmware.outcome = .ok 0 := by decide +kernel
  have hruns := acknowledgedFirmware.runs
  rw [hreturned] at hruns
  obtain ⟨hframes, hverdict⟩ := (host_agrees 0x20#8).1 0x5678 _ true 8 _ 0 acknowledgedHost.runs hruns
  exact ⟨hframes, hverdict (by decide +kernel)⟩

end Example

section InStep

-- What an answer says about a register.
inductive Told
  | value (addr : Byte) (value : Word16)
  | acknowledged (addr : Byte) (value : Word16)
  deriving Repr, DecidableEq

-- What the script takes an answer for.
def Transfer.told (transfer : Transfer) : Option Told :=
  match transfer.request with
  | .read addr => (valueIn transfer.answer).map (Told.value addr)
  | .write addr value => if transfer.Answered then some (.acknowledged addr value) else none
  | .softReset =>
      if transfer.Answered then some (.acknowledged ATM90E26_REG_SOFTRESET ATM90E26_SOFTRESET_MAGIC) else none

-- The chip, with what it has said so far, and what of it the script has not
-- read yet.
structure SerialChip where
  registers : Byte → Word16
  told : List Told
  pending : List Byte

-- A frame is lost, or the chip answers at once and in full.
inductive Answering (chip : SerialChip) (frame : List Byte) : SerialChip → Prop
  | lost : Answering chip frame chip
  | read (addr checksum : Byte) (haddr : addr < 0x80#8) (hframe : frame = readFrame addr) :
      Answering chip frame { chip with
        told := chip.told ++ [.value addr (chip.registers addr)]
        pending := chip.pending ++ [lowByte (chip.registers addr), highByte (chip.registers addr), checksum] }
  | write (addr : Byte) (value : Word16) (checksum : Byte) (registers : Byte → Word16)
      (hframe : frame = writeFrame addr value) :
      Answering chip frame ⟨registers, chip.told ++ [.acknowledged addr value], chip.pending ++ [checksum]⟩

-- The registers may change at any time. Opening the port drops what has come in
-- before, and a read takes from the front what is there.
def serialAdvance (chip : SerialChip) (event : SerialEvent) (next : SerialChip) : Prop :=
  ∃ registers,
    match event with
    | ⟨.open _ _, _⟩ => next = ⟨registers, chip.told, []⟩
    | ⟨.write frame, _⟩ => Answering { chip with registers := registers } frame next
    | ⟨.read size, answer⟩ => answer = chip.pending.take size ∧ next = ⟨registers, chip.told, chip.pending.drop size⟩
    | _ => next = { chip with registers := registers }

variable {chip next : SerialChip}

theorem writeFrame_injective (addr other : Byte) (value more : Word16) (h : writeFrame addr value = writeFrame other more) :
    addr = other ∧ value = more := by
  simp only [writeFrame, List.cons.injEq, true_and] at h
  obtain ⟨haddr, hlow, hhigh, -⟩ := h
  refine ⟨haddr, ?_⟩
  rw [← word16_lowByte_highByte value, ← word16_lowByte_highByte more, hlow, hhigh]

theorem serial_write (addr : Byte) (value : Word16) (answer : List Byte)
    (h : Path serialAdvance chip [⟨.write (writeFrame addr value), ()⟩, ⟨.read 1, answer⟩] next)
    (hpending : chip.pending = []) : next.pending = [] ∧
      next.told = chip.told ++ (if answer.length = 1 then [Told.acknowledged addr value] else []) := by
  obtain ⟨heard, ⟨registers, hanswering⟩, h⟩ := (path_cons_iff _ _).mp h
  obtain ⟨read, ⟨registers', rfl, rfl⟩, h⟩ := (path_cons_iff _ _).mp h
  cases path_nil_iff.mp h
  cases hanswering with
  | lost => simp [hpending]
  | read other checksum _ hframe => cases congrArg List.length hframe
  | write other more checksum _ hframe =>
      obtain ⟨rfl, rfl⟩ := writeFrame_injective _ _ _ _ hframe
      simp [hpending]

theorem serial_read (addr : Byte) (answer : List Byte) (haddr : addr < 0x80#8)
    (h : Path serialAdvance chip [⟨.write (readFrame addr), ()⟩, ⟨.read 3, answer⟩] next)
    (hpending : chip.pending = []) : next.pending = [] ∧
      next.told = chip.told ++ ((valueIn answer).map (Told.value addr)).toList := by
  obtain ⟨heard, ⟨registers, hanswering⟩, h⟩ := (path_cons_iff _ _).mp h
  obtain ⟨read, ⟨registers', rfl, rfl⟩, h⟩ := (path_cons_iff _ _).mp h
  cases path_nil_iff.mp h
  cases hanswering with
  | lost => simp [hpending, valueIn]
  | read other checksum hother hframe =>
      cases readFrame_injective addr other haddr hother hframe
      simp [hpending, valueIn, word16_lowByte_highByte]
  | write other more checksum _ hframe => cases congrArg List.length hframe

-- Flushing and sleeping change nothing.
theorem serial_quiet (trace : List SerialEvent) (h : Path serialAdvance chip trace next)
    (hquiet : ∀ event ∈ trace, event.op = .flush ∨ ∃ milliseconds, event.op = .sleep milliseconds) :
    next.told = chip.told ∧ next.pending = chip.pending := by
  induction h with
  | nil chip => exact ⟨rfl, rfl⟩
  | cons chip middle last event trace step _ ih =>
      obtain ⟨hevent, htrace⟩ := List.forall_mem_cons.mp hquiet
      obtain ⟨htold, hpending⟩ := ih htrace
      obtain ⟨op, reply⟩ := event
      obtain ⟨registers, heffect⟩ := step
      rcases hevent with rfl | ⟨milliseconds, rfl⟩
      · cases heffect
        exact ⟨htold, hpending⟩
      · cases heffect
        exact ⟨htold, hpending⟩

-- The script only reads addresses without the bit for reading.
def Transfer.Valid (transfer : Transfer) : Prop := ∀ addr, transfer.request = .read addr → addr < 0x80#8

theorem serial_transfer (transfer : Transfer) (hvalid : transfer.Valid) (h : Path serialAdvance chip transfer.trace next)
    (hpending : chip.pending = []) : next.pending = [] ∧ next.told = chip.told ++ transfer.told.toList := by
  obtain ⟨request, answer⟩ := transfer
  cases request with
  | read addr =>
      obtain ⟨asked, hasked, hslept⟩ := (path_append ([⟨.write (readFrame addr), ()⟩, ⟨.read 3, answer⟩] : List SerialEvent) _).mp h
      obtain ⟨hnone, htold⟩ := serial_read addr answer (hvalid addr rfl) hasked hpending
      obtain ⟨hsame, hkept⟩ := serial_quiet _ hslept (by simp)
      exact ⟨hkept.trans hnone, hsame.trans htold⟩
  | write addr value =>
      obtain ⟨asked, hasked, hslept⟩ := (path_append ([⟨.write (writeFrame addr value), ()⟩, ⟨.read 1, answer⟩] : List SerialEvent) _).mp h
      obtain ⟨hnone, htold⟩ := serial_write addr value answer hasked hpending
      obtain ⟨hsame, hkept⟩ := serial_quiet _ hslept (by simp)
      refine ⟨hkept.trans hnone, hsame.trans (htold.trans ?_)⟩
      by_cases hanswer : answer.length = 1 <;> simp [Transfer.told, Transfer.Answered, Request.size, hanswer]
  | softReset =>
      -- the flush stands between the request and the answer
      obtain ⟨heard, hheard, h⟩ := (path_cons_iff _ _).mp h
      obtain ⟨flushed, ⟨registers, rfl⟩, h⟩ := (path_cons_iff _ _).mp h
      obtain ⟨asked, hasked, hslept⟩ := (path_append ([⟨.read 1, answer⟩] : List SerialEvent) _).mp h
      obtain ⟨read, hread, hnil⟩ := (path_cons_iff _ _).mp hasked
      cases path_nil_iff.mp hnil
      have hwithout : Path serialAdvance chip
          [⟨.write (writeFrame ATM90E26_REG_SOFTRESET ATM90E26_SOFTRESET_MAGIC), ()⟩, ⟨.read 1, answer⟩] asked :=
        .cons _ _ _ _ _ hheard (.cons _ _ _ _ _ hread (.nil asked))
      obtain ⟨hnone, htold⟩ := serial_write _ _ answer hwithout hpending
      obtain ⟨hsame, hkept⟩ := serial_quiet _ hslept (by simp)
      refine ⟨hkept.trans hnone, hsame.trans (htold.trans ?_)⟩
      by_cases hanswer : answer.length = 1 <;> simp [Transfer.told, Transfer.Answered, Request.size, hanswer]

-- Transfers, one after another, with sleeps between them.
inductive Transcript : List SerialEvent → List Transfer → Prop
  | nil : Transcript [] []
  | transfer (transfer : Transfer) (trace : List SerialEvent) (transfers : List Transfer) (hvalid : transfer.Valid)
      (more : Transcript trace transfers) : Transcript (transfer.trace ++ trace) (transfer :: transfers)
  | slept (milliseconds : Nat) (trace : List SerialEvent) (transfers : List Transfer)
      (more : Transcript trace transfers) : Transcript (⟨.sleep milliseconds, ()⟩ :: trace) transfers

theorem Transcript.append {trace more : List SerialEvent} {transfers later : List Transfer}
    (h : Transcript trace transfers) (h' : Transcript more later) : Transcript (trace ++ more) (transfers ++ later) := by
  induction h with
  | nil => exact h'
  | transfer transfer trace transfers hvalid _ ih =>
      rw [List.append_assoc]
      exact .transfer transfer _ _ hvalid ih
  | slept milliseconds trace transfers _ ih => exact .slept milliseconds _ _ ih

theorem Transcript.told {trace : List SerialEvent} {transfers : List Transfer} (h : Transcript trace transfers)
    (hpath : Path serialAdvance chip trace next) (hpending : chip.pending = []) :
    next.pending = [] ∧ next.told = chip.told ++ transfers.filterMap Transfer.told := by
  induction h generalizing chip with
  | nil =>
      cases path_nil_iff.mp hpath
      exact ⟨hpending, by simp⟩
  | transfer transfer trace transfers hvalid _ ih =>
      obtain ⟨middle, hfirst, hrest⟩ := (path_append _ _).mp hpath
      obtain ⟨hmiddle, htold⟩ := serial_transfer transfer hvalid hfirst hpending
      obtain ⟨hnext, hlater⟩ := ih hrest hmiddle
      refine ⟨hnext, ?_⟩
      rw [hlater, htold, List.append_assoc]
      cases htransfer : transfer.told <;> simp [htransfer]
  | slept milliseconds trace transfers _ ih =>
      obtain ⟨middle, hfirst, hrest⟩ := (path_append ([⟨.sleep milliseconds, ()⟩] : List SerialEvent) _).mp hpath
      obtain ⟨htold, hkept⟩ := serial_quiet _ hfirst (by simp)
      obtain ⟨hnext, hlater⟩ := ih hrest (hkept.trans hpending)
      exact ⟨hnext, by rw [hlater, htold]⟩

-- All runs of the program are such.
def Transcribes {α : Type} (prog : Host α) : Prop :=
  ∀ trace outcome, Runs prog trace outcome → ∃ transfers, Transcript trace transfers

theorem transcribes_pure {α : Type} (value : α) : Transcribes (pure value : Host α) := by
  intro trace outcome h
  obtain ⟨rfl, -⟩ := (runs_pure _ _ _).mp h
  exact ⟨[], .nil⟩

theorem transcribes_bind {α β : Type} {prog : Host α} {next : α → Host β} (h : Transcribes prog)
    (hnext : ∀ value, Transcribes (next value)) : Transcribes (prog >>= next) := by
  intro trace outcome hruns
  rcases (runs_bind prog next trace outcome).mp hruns with ⟨error, -, hfirst⟩ | ⟨before, value, after, rfl, hfirst, hlast⟩
  · exact h trace _ hfirst
  · obtain ⟨transfers, hbefore⟩ := h before _ hfirst
    obtain ⟨later, hafter⟩ := hnext value after outcome hlast
    exact ⟨transfers ++ later, hbefore.append hafter⟩

theorem transcript_transfer (transfer : Transfer) (hvalid : transfer.Valid) : Transcript transfer.trace [transfer] := by
  have h := Transcript.transfer transfer [] [] hvalid .nil
  rwa [List.append_nil] at h

theorem transcript_flatMap (transfers : List Transfer) (hvalid : ∀ transfer ∈ transfers, transfer.Valid) :
    Transcript (transfers.flatMap Transfer.trace) transfers := by
  induction transfers with
  | nil => exact .nil
  | cons transfer rest ih =>
      obtain ⟨hfirst, hrest⟩ := List.forall_mem_cons.mp hvalid
      exact .transfer transfer _ _ hfirst (ih hrest)

theorem transcribes_write (addr : Byte) (value : Nat) : Transcribes (writeReg addr.toNat value) := by
  intro trace outcome h
  obtain ⟨transfer, hrequest, rfl, -⟩ := writeReg_runs addr value trace outcome h
  refine ⟨[transfer], transcript_transfer transfer fun other hother => ?_⟩
  rw [hrequest] at hother
  cases hother

theorem transcribes_read (addr : Byte) (haddr : addr < 0x80#8) : Transcribes (readReg addr.toNat) := by
  intro trace outcome h
  obtain ⟨transfer, hrequest, rfl, -⟩ := readReg_runs addr trace outcome h
  refine ⟨[transfer], transcript_transfer transfer fun other hother => ?_⟩
  rw [hrequest] at hother
  cases hother
  exact haddr

theorem transcribes_sleep (milliseconds : Nat) : Transcribes (timeSleep milliseconds) := by
  intro trace outcome h
  cases h with
  | call _ _ reply rest _ hrest =>
      cases hrest
      exact ⟨[], .slept milliseconds [] [] .nil⟩

theorem transcribes_init : Transcribes initSequence := by
  intro trace outcome h
  obtain ⟨reset, transfers, ok, hreset, hchecked, rfl, -⟩ := initSequence_runs trace outcome h
  have haddresses : ∀ addr, Request.read addr ∈ checkedRequests → addr < 0x80#8 := by
    intro addr haddr
    simp only [checkedRequests, List.mem_cons, Request.read.injEq, reduceCtorEq, List.not_mem_nil, or_false] at haddr
    rw [haddr]
    decide
  have hvalid : ∀ transfer ∈ transfers, transfer.Valid := by
    intro transfer htransfer addr hrequest
    have hmem := hchecked.requests_prefix.subset (List.mem_map_of_mem htransfer)
    rw [hrequest] at hmem
    exact haddresses addr hmem
  refine ⟨_, (transcript_transfer reset fun addr haddr => ?_).append (transcript_flatMap transfers hvalid)⟩
  rw [hreset] at haddr
  cases haddr

theorem transcribes_loopStep : Transcribes loopStep := by
  refine transcribes_bind (transcribes_read 0x48#8 (by decide)) fun _ => ?_
  refine transcribes_bind (transcribes_read 0x49#8 (by decide)) fun _ => ?_
  refine transcribes_bind (transcribes_write 0x30#8 0x5678) fun _ => ?_
  refine transcribes_bind (transcribes_write 0x20#8 0x5678) fun _ => ?_
  refine transcribes_bind (transcribes_write 0x33#8 0x0693) fun _ => ?_
  refine transcribes_bind (transcribes_write 0x31#8 0x7A22) fun _ => ?_
  refine transcribes_bind (transcribes_write 0x32#8 0x0CB4) fun _ => ?_
  refine transcribes_bind (transcribes_read 0x3B#8 (by decide)) fun _ => ?_
  refine transcribes_bind (transcribes_write 0x3B#8 0x75F5) fun _ => ?_
  refine transcribes_bind (transcribes_write 0x30#8 0x8765) fun _ => ?_
  exact transcribes_bind (transcribes_read 0x68#8 (by decide)) fun _ => transcribes_sleep 2000

theorem transcribes_mainLoop (rounds : Nat) : Transcribes (mainLoop rounds) := by
  induction rounds with
  | zero => exact transcribes_pure ()
  | succ rounds ih => exact transcribes_bind transcribes_loopStep fun _ => ih

theorem transcribes_attempt (rounds attempts : Nat) : Transcribes (attempt rounds attempts) := by
  induction attempts with
  | zero => exact transcribes_pure ()
  | succ attempts ih =>
      refine transcribes_bind transcribes_init fun ok => ?_
      cases ok with
      | true => exact transcribes_mainLoop rounds
      | false => exact transcribes_bind (transcribes_sleep 1000) fun _ => ih

end InStep

-- With a chip that answers at once or not at all, the script and the chip stay
-- in step for the whole of a run, whatever was in the port before: what the
-- script takes for the value of a register or for an acknowledgement is what the
-- chip has said, answer by answer, and nothing is left over.
theorem host_in_step (attempts rounds : Nat) (run : Run (main attempts rounds)) (chip last : SerialChip)
    (h : Path serialAdvance chip run.trace last) :
    ∃ (rest : List SerialEvent) (transfers : List Transfer), run.trace = ⟨.open 9600 50, ()⟩ :: rest ∧
      Transcript rest transfers ∧ last.told = chip.told ++ transfers.filterMap Transfer.told ∧ last.pending = [] := by
  obtain ⟨_, rest, hopen, hruns⟩ := (runs_perform_bind (SerialCall.open 9600 50) _ _ _).mp run.runs
  rw [hopen] at h ⊢
  obtain ⟨opened, ⟨registers, rfl⟩, hrest⟩ := (path_cons_iff _ _).mp h
  obtain ⟨transfers, htranscript⟩ :=
    transcribes_bind (transcribes_sleep 500) (fun _ => transcribes_attempt rounds attempts) rest _ hruns
  obtain ⟨hpending, htold⟩ := htranscript.told hrest rfl
  exact ⟨rest, transfers, rfl, htranscript, htold, hpending⟩

section Example

-- A chip that answers every frame, with a checksum of zero.
def serialAnswer (chip : SerialChip) : List Byte → Option SerialChip
  | [stx, addr, checksum] =>
      if addr &&& 0x7F#8 < 0x80#8 ∧ [stx, addr, checksum] = readFrame (addr &&& 0x7F#8) then
        let value := chip.registers (addr &&& 0x7F#8)
        some { chip with
          told := chip.told ++ [.value (addr &&& 0x7F#8) value]
          pending := chip.pending ++ [lowByte value, highByte value, 0x00#8] }
      else none
  | [stx, addr, lsb, msb, checksum] =>
      if [stx, addr, lsb, msb, checksum] = writeFrame addr (word16 lsb msb) then
        some { chip with
          told := chip.told ++ [.acknowledged addr (word16 lsb msb)]
          pending := chip.pending ++ [0x00#8] }
      else none
  | _ => none

def serialStep (chip : SerialChip) : SerialEvent → Option SerialChip
  | ⟨.open _ _, _⟩ => some { chip with pending := [] }
  | ⟨.write frame, _⟩ => serialAnswer chip frame
  | ⟨.read size, answer⟩ =>
      if answer = chip.pending.take size then some { chip with pending := chip.pending.drop size } else none
  | _ => some chip

theorem answering_of_answer (chip next : SerialChip) (frame : List Byte) (h : serialAnswer chip frame = some next) :
    Answering chip frame next := by
  unfold serialAnswer at h
  split at h
  · split at h
    · rename_i hframe
      rw [← Option.some.inj h]
      exact .read _ 0x00#8 hframe.1 hframe.2
    · cases h
  · split at h
    · rename_i hframe
      rw [← Option.some.inj h]
      exact .write _ _ 0x00#8 chip.registers hframe
    · cases h
  · cases h

theorem serialAdvance_of_step (chip next : SerialChip) (event : SerialEvent) (h : serialStep chip event = some next) :
    serialAdvance chip event next := by
  obtain ⟨op, reply⟩ := event
  refine ⟨chip.registers, ?_⟩
  cases op with
  | write frame => exact answering_of_answer chip next frame h
  | read size =>
      simp only [serialStep, Option.ite_none_right_eq_some, Option.some.injEq] at h
      exact ⟨h.1, h.2.symm⟩
  | _ => exact (Option.some.inj h).symm

-- All registers are zero, and a byte is left from before.
def zeroChip : SerialChip := ⟨fun _ => 0x0000#16, [], [0xFF#8]⟩

theorem host_in_step_round : ∃ (last : SerialChip) (rest : List SerialEvent) (transfers : List Transfer),
    oneRound.trace = ⟨.open 9600 50, ()⟩ :: rest ∧ Transcript rest transfers ∧
    last.told = zeroChip.told ++ transfers.filterMap Transfer.told ∧ last.pending = [] := by
  have hsteps : (oneRound.trace.foldlM serialStep zeroChip).isSome = true := by decide +kernel
  obtain ⟨last, hlast⟩ := Option.isSome_iff_exists.mp hsteps
  have hpath := (path_of_foldlM serialStep _ hlast).mono _ fun chip event next => serialAdvance_of_step chip next event
  exact ⟨last, host_in_step 1 1 oneRound zeroChip last hpath⟩

end Example

end HostDriver

end TJ3Firmware
