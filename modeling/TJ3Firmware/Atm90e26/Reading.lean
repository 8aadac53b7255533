import TJ3Firmware.Atm90e26.Polling
import TJ3Firmware.Protocol.Crc

namespace TJ3Firmware

open Library.Memory Library.Interaction

section Queue

-- What the UART has received: all bytes so far, and those not yet delivered.
structure RxQueue where
  arrived : List Byte
  pending : List Byte

-- Bytes may arrive before any call. A poll takes the oldest one, and comes back
-- empty only when there is none.
def queueAdvance (queue : RxQueue) (event : UartEvent) (next : RxQueue) : Prop :=
  ∃ arriving, next.arrived = queue.arrived ++ arriving ∧
    match event with
    | ⟨.pollIn, some byte⟩ => queue.pending ++ arriving = byte :: next.pending
    | ⟨.pollIn, none⟩ => queue.pending ++ arriving = [] ∧ next.pending = []
    | _ => next.pending = queue.pending ++ arriving

theorem queueAdvance_conserves (queue next : RxQueue) (event : UartEvent) (h : queueAdvance queue event next) :
    ∃ arriving, next.arrived = queue.arrived ++ arriving ∧
      queue.pending ++ arriving = delivered [event] ++ next.pending := by
  obtain ⟨arriving, harrived, hpending⟩ := h
  refine ⟨arriving, harrived, ?_⟩
  obtain ⟨op, reply⟩ := event
  cases op with
  | pollIn =>
      cases reply with
      | some byte => exact hpending
      | none =>
          rw [hpending.1, hpending.2]
          rfl
  | _ => exact hpending.symm

-- What was pending or has arrived is delivered in order or still pending.
theorem queue_conserves (queue last : RxQueue) (trace : List UartEvent) (h : Path queueAdvance queue trace last) :
    ∃ arriving, last.arrived = queue.arrived ++ arriving ∧
      queue.pending ++ arriving = delivered trace ++ last.pending := by
  induction h with
  | nil queue => exact ⟨[], by simp, by simp⟩
  | cons queue next last event trace step _ ih =>
      obtain ⟨first, hfirst, hstep⟩ := queueAdvance_conserves queue next event step
      obtain ⟨second, hsecond, hrest⟩ := ih
      refine ⟨first ++ second, by rw [hsecond, hfirst, List.append_assoc], ?_⟩
      have hevent : delivered (event :: trace) = delivered [event] ++ delivered trace :=
        delivered_append [event] trace
      rw [hevent, ← List.append_assoc, hstep, List.append_assoc, hrest, List.append_assoc]

variable {addr : Byte} (exchange : ReadExchange addr)

-- Whatever was pending when the flush began or came in during it, the bytes
-- delivered after the request have arrived after the flush.
def ReadExchange.Fresh : Prop :=
  ∀ first flushed last, Path queueAdvance first (exchange.stale.map polled ++ [emptyPoll]) flushed →
    Path queueAdvance flushed (sent (readFrame addr) ++ exchange.answer) last →
      flushed.pending = [] ∧
        ∃ arriving, last.arrived = flushed.arrived ++ arriving ∧ delivered exchange.answer <+: arriving

theorem delivered_sent (frame : List Byte) : delivered (sent frame) = [] := by
  induction frame with
  | nil => rfl
  | cons byte rest ih => exact ih

theorem ReadExchange.fresh : exchange.Fresh := by
  intro first flushed last hflush hrequest
  obtain ⟨polling, -, hempty⟩ := (path_append _ _).mp hflush
  have hpending : flushed.pending = [] := by
    cases hempty with
    | cons _ _ _ _ _ step hrest =>
        cases hrest
        obtain ⟨-, -, -, hpending⟩ := step
        exact hpending
  obtain ⟨arriving, harrived, hconserved⟩ := queue_conserves flushed last _ hrequest
  rw [hpending, List.nil_append, delivered_append, delivered_sent, List.nil_append] at hconserved
  exact ⟨hpending, arriving, harrived, ⟨last.pending, hconserved.symm⟩⟩

end Queue

section Fields

-- A field that is not read keeps its value.
theorem Fetched.get_of_not_mem {reads : List (Byte × Field)} {data last : Data} {trace : List UartEvent}
    {values : List (Field × Word16)} {ret : Int} (h : Fetched reads data trace values ret last) (field : Field)
    (hfield : field ∉ reads.map Prod.snd) : last.get field = data.get field := by
  induction h with
  | done data => rfl
  | read addr other rest data last exchange lsb msb checksum trace values ret _ _ ih =>
      rw [List.map_cons, List.mem_cons, not_or] at hfield
      rw [ih hfield.2, Data.get_set, if_neg hfield.1]
  | timeout => rfl

-- The value of a register is the first two bytes delivered after its request.
def ReadFrom (addr : Byte) (trace : List UartEvent) (value : Word16) : Prop :=
  ∃ (before after : List UartEvent) (exchange : ReadExchange addr) (b0 b1 b2 : Byte),
    trace = before ++ exchange.trace ++ after ∧ delivered exchange.answer = [b0, b1, b2] ∧ exchange.Fresh ∧
      value.toNat = b0.toNat + 256 * b1.toNat

theorem Fetched.readFrom {reads : List (Byte × Field)} {data last : Data} {trace : List UartEvent}
    {values : List (Field × Word16)} {ret : Int} (h : Fetched reads data trace values ret last) (hret : ret = 0)
    (hnodup : (reads.map Prod.snd).Nodup) :
    ∀ entry ∈ reads, ReadFrom entry.1 trace (last.get entry.2) := by
  induction h with
  | done data => exact List.forall_mem_nil _
  | read addr field rest data last exchange lsb msb checksum trace values ret hdelivered hmore ih =>
      rw [List.map_cons, List.nodup_cons] at hnodup
      refine List.forall_mem_cons.mpr ⟨?_, ?_⟩
      · -- the later reads are of other fields
        have hkept := hmore.get_of_not_mem field hnodup.1
        rw [Data.get_set, if_pos rfl] at hkept
        refine ⟨[], trace, exchange, lsb, msb, checksum, by simp, hdelivered, exchange.fresh, ?_⟩
        rw [hkept, toNat_word16]
      · intro entry hentry
        obtain ⟨before, after, other, b0, b1, b2, htrace, hrest⟩ := ih hret hnodup.2 entry hentry
        exact ⟨exchange.trace ++ before, after, other, b0, b1, b2, by simp [htrace], hrest⟩
  | timeout => cases hret

-- The read that ended a failed fetch, after those of these fields, got fewer
-- than three bytes, and its field is unchanged.
def TimedOut (data last : Data) (reads : List (Byte × Field)) (fields : List Field) (trace : List UartEvent) : Prop :=
  ∃ (done rest : List (Byte × Field)) (addr : Byte) (field : Field) (before : List UartEvent)
    (exchange : ReadExchange addr), reads = done ++ (addr, field) :: rest ∧ done.map Prod.snd = fields ∧
      trace = before ++ exchange.trace ∧ (delivered exchange.answer).length < 3 ∧ last.get field = data.get field

theorem Fetched.ret_cases {reads : List (Byte × Field)} {data last : Data} {trace : List UartEvent}
    {values : List (Field × Word16)} {ret : Int} (h : Fetched reads data trace values ret last)
    (hnodup : (reads.map Prod.snd).Nodup) : ret = 0 ∨ ret = - EIO ∧ TimedOut data last reads (values.map Prod.fst) trace := by
  induction h with
  | done data => exact Or.inl rfl
  | read addr field rest data last exchange lsb msb checksum trace values ret _ _ ih =>
      rw [List.map_cons, List.nodup_cons] at hnodup
      rcases ih hnodup.2 with hret | ⟨hret, done, more, other, failed, before, ending, hreads, hdone, htrace, hshort, hkept⟩
      · exact Or.inl hret
      · refine Or.inr ⟨hret, (addr, field) :: done, more, other, failed, exchange.trace ++ before, ending,
          by rw [hreads, List.cons_append], congrArg (field :: ·) hdone, by rw [htrace, List.append_assoc], hshort, ?_⟩
        have hother : failed ≠ field := by
          intro hsame
          refine hnodup.1 (List.mem_map.mpr ⟨(other, failed), ?_, hsame⟩)
          rw [hreads]
          exact List.mem_append_right _ List.mem_cons_self
        rw [hkept, Data.get_set, if_neg hother]
  | timeout addr field rest data exchange hshort =>
      exact Or.inr ⟨rfl, [], rest, addr, field, [], exchange, rfl, rfl, rfl, hshort, rfl⟩

end Fields

section Scaling

-- The register named beside the member in atm90e26_data.
def registerOf : Field → Byte
  | .voltage => 0x49#8
  | .current => 0x48#8
  | .current2 => 0x68#8
  | .power => 0x4A#8
  | .power2 => 0x6A#8
  | .reactivePower => 0x4B#8
  | .reactivePower2 => 0x6B#8
  | .apparentPower => 0x4F#8
  | .apparentPower2 => 0x6E#8
  | .powerFactor => 0x4D#8
  | .powerFactor2 => 0x6C#8
  | .freq => 0x4C#8
  | .phaseAngle => 0x4E#8
  | .phaseAngle2 => 0x6D#8
  | .energyActiveP => 0x40#8
  | .energyActiveN => 0x41#8

theorem registerOf_mem (field : Field) : (registerOf field, field) ∈ sampleReads := by
  cases field <;> decide

theorem sampleReads_nodup : (sampleReads.map Prod.snd).Nodup := by decide

-- val1 and val2 together, in millionths of the unit.
def microunits (value : SensorValue) : Int := value.val1 * 10 ^ 6 + value.val2

-- What a channel stands for, from the raw register value.
def exactMicrounits (data : Data) : SensorChannel → Option Int
  | .voltage => some (10 ^ 4 * data.voltage.toNat)
  | .frequency => some (10 ^ 4 * data.freq.toNat)
  | .current => some (10 ^ 3 * data.current.toNat)
  | .powerFactor => some (10 ^ 3 * data.powerFactor.toNat)
  | .apparentPower => some (10 ^ 6 * data.apparentPower.toNat)
  | .energy => some (10 ^ 6 * data.energyActiveP.toNat)
  | .power => some (10 ^ 6 * data.power.toInt)
  | .reactivePower => some (10 ^ 6 * data.reactivePower.toInt)
  | .phaseAngle => none
  | .other _ => none

theorem channelGet_exact (data : Data) (chan : SensorChannel) (exact : Int) (val : SensorValue)
    (h : exactMicrounits data chan = some exact) :
    (channelGet data chan val).1 = 0 ∧ microunits (channelGet data chan val).2 = exact := by
  cases chan with
  | phaseAngle => cases h
  | other chan => cases h
  | _ =>
      cases h
      refine ⟨rfl, ?_⟩
      simp only [channelGet, microunits]
      omega

end Scaling

-- What a read makes of the bytes that come within the timeout. It returns on
-- every line that has only so much to deliver.
structure ReadsOrFails (rounds : Nat) (addr : Byte) (val : Word16) (run : Run (uartRead rounds addr val)) : Prop where
  returns : ∀ first last, Enough rounds first → Path lineAdvance first run.trace last →
    ∃ ret value, run.outcome = .ok (ret, value)
  fails : ∀ ret value, run.outcome = .ok (ret, value) → ∃ exchange : ReadExchange addr, run.trace = exchange.trace ∧
    ((inTime exchange.answer).length < 3 → ret = - EIO ∧ value = val)

theorem uartRead_readsOrFails (rounds : Nat) (addr : Byte) (val : Word16) (run : Run (uartRead rounds addr val)) :
    ReadsOrFails rounds addr val run := by
  constructor
  · intro first last henough hpath
    obtain ⟨⟨ret, value⟩, houtcome⟩ := (uartRead_polls rounds addr val henough).returns run hpath
    exact ⟨ret, value, houtcome⟩
  · intro ret value houtcome
    have hruns := run.runs
    rw [houtcome] at hruns
    obtain ⟨exchange, htrace, htimely, hreceived⟩ := uartRead_runs rounds addr val _ ret value hruns
    refine ⟨exchange, htrace, ?_⟩
    rw [htimely]
    intro hshort
    generalize delivered exchange.answer = bytes at hreceived hshort
    cases hreceived with
    | value => exact absurd hshort (Nat.lt_irrefl 3)
    | timeout => exact ⟨rfl, rfl⟩

-- After a fetch that returned 0 every field holds what was delivered for its
-- register, and the channels scale it exactly. A read that gets fewer than
-- three bytes within the timeout ends the fetch with -EIO and leaves its field as
-- it was.
theorem readings_exact (fetch : Fetch) :
    (fetch.ret = 0 → ∀ field, ReadFrom (registerOf field) fetch.run.trace (fetch.last.get field)) ∧
    (fetch.ret ≠ 0 → fetch.ret = - EIO ∧ ∃ fields, TimedOut fetch.start fetch.last sampleReads fields fetch.run.trace) ∧
    (∀ (rounds : Nat) (addr : Byte) (val : Word16) (run : Run (uartRead rounds addr val)),
      ReadsOrFails rounds addr val run) ∧
    ∀ (chan : SensorChannel) (exact : Int) (val : SensorValue), exactMicrounits fetch.last chan = some exact →
      (channelGet fetch.last chan val).1 = 0 ∧ microunits (channelGet fetch.last chan val).2 = exact := by
  obtain ⟨values, hfetched⟩ := fetch.fetched
  refine ⟨?_, ?_, uartRead_readsOrFails, channelGet_exact fetch.last⟩
  · intro hret field
    exact hfetched.readFrom hret sampleReads_nodup _ (registerOf_mem field)
  · intro hret
    rcases hfetched.ret_cases sampleReads_nodup with hzero | ⟨hfailed, htimedOut⟩
    · exact absurd hzero hret
    · exact ⟨hfailed, _, htimedOut⟩

section Example

-- Two stale bytes before each request, and polls without a byte in between.
def staleFetch : Fetch where
  rounds := 8
  start := Data.initial
  run := (sampleFetch 8 Data.initial).play Script.respond
    ⟨(List.replicate 16 [some 0xFF#8, some 0xFE#8, none, none, some 0x34#8, none, some 0x12#8, some 0x46#8]).flatten, []⟩
  ret := 0
  last := ⟨0x1234, 0x1234, 0x1234, 0x1234, 0x1234, 0x1234, 0x1234, 0x1234, 0x1234, 0x1234, 0x1234, 0x1234, 0x1234, 0x1234,
    0x1234, 0x1234⟩
  returned := by decide +kernel

-- One byte comes, and then the time is over.
def shortRead : Run (uartRead 1004 ATM90E26_REG_URMS 7) :=
  (uartRead 1004 ATM90E26_REG_URMS 7).play Script.respond ⟨[some 0xFF#8, none, none, some 0x05#8], [0, 0, 0, 100]⟩

theorem readings_exact_stale :
    (∀ field, ReadFrom (registerOf field) staleFetch.run.trace 0x1234) ∧
    (∃ ret value, shortRead.outcome = .ok (ret, value)) ∧
    microunits (channelGet staleFetch.last .voltage ⟨0, 0⟩).2 = 10 ^ 4 * 0x1234 := by
  obtain ⟨hreads, -, -, hscaled⟩ := readings_exact staleFetch
  obtain ⟨last, hpath⟩ := exists_linePath ⟨0, 2⟩ shortRead.trace (by decide +kernel)
  have hread := (readings_exact staleFetch).2.2.1 1004 ATM90E26_REG_URMS 7 shortRead
  refine ⟨?_, hread.returns _ last ⟨by decide, Nat.le_refl 1004⟩ hpath, (hscaled .voltage _ ⟨0, 0⟩ rfl).2⟩
  intro field
  have hfield : staleFetch.last.get field = 0x1234 := by cases field <;> rfl
  rw [← hfield]
  exact hreads rfl field

end Example

end TJ3Firmware
