import TJ3Firmware.Atm90e26.Exchange
import TJ3Firmware.Library.Progress

namespace TJ3Firmware

open Library.Memory Library.Interaction Library.Progress

section Line

-- The time in microseconds, and how many bytes the line can still deliver.
structure Line where
  now : Nat
  left : Nat

-- Time passes with every call, and with a wait as much as was asked for. The
-- clock shows it in milliseconds.
def lineAdvance (line : Line) (event : UartEvent) (next : Line) : Prop :=
  line.now ≤ next.now ∧ next.left ≤ line.left ∧
    match event with
    | ⟨.pollIn, some _⟩ => next.left < line.left
    | ⟨.uptimeGet, shown⟩ => ∃ time : Nat, line.now ≤ time ∧ time ≤ next.now ∧ shown = (time / 1000 : Nat)
    | ⟨.busyWait microseconds, _⟩ => line.now + microseconds ≤ next.now
    | _ => True

-- No more bytes are left than before.
def Line.Within (line next : Line) : Prop := next.left ≤ line.left

instance : IsPreorder Line Line.Within where
  refl line := Nat.le_refl line.left
  trans _ _ _ h h' := Nat.le_trans h' h

-- Rounds that are enough for a line: one for each byte that a flush can meet,
-- and for the 100 ms of a wait, three bytes and the last look at the clock.
def Enough (rounds : Nat) (line : Line) : Prop := line.left < rounds ∧ 1004 ≤ rounds

def Polls {α : Type} (prog : Driver α) (line : Line) : Prop := Progresses lineAdvance Line.Within prog line

theorem polls_call {α : Type} (op : UartCall) (next : UartReply op → Driver α) (line : Line)
    (hnext : ∀ reply later, lineAdvance line ⟨op, reply⟩ later → Polls (next reply) later) :
    Polls (Prog.perform op >>= next) line :=
  progresses_call op next line (fun _ _ step => step.2.1) hnext

end Line

section Loops

variable {line : Line}

theorem flushRx_polls (rounds : Nat) (h : line.left < rounds) : Polls (flushRx rounds) line := by
  induction rounds generalizing line with
  | zero => exact absurd h (Nat.not_lt_zero _)
  | succ rounds ih =>
      apply polls_call UartCall.pollIn
      intro reply later step
      cases reply with
      | some byte =>
          apply ih
          have hless : later.left < line.left := step.2.2
          omega
      | none => exact progresses_pure _ later

theorem sendFrame_polls (frame : List Byte) : Polls (sendFrame frame) line := by
  induction frame generalizing line with
  | nil => exact progresses_pure _ line
  | cons byte rest ih =>
      apply polls_call (UartCall.pollOut byte)
      intro reply later step
      exact ih

-- Each round takes a byte or 100 microseconds.
theorem receive_polls (count : Nat) (timeoutTime : Int) (rounds waits : Nat) (rxBuf : List Byte)
    (hwaits : timeoutTime * 1000 ≤ line.now + 100 * waits) (hrounds : count - rxBuf.length + waits < rounds) :
    Polls (receive count timeoutTime rounds rxBuf) line := by
  induction rounds generalizing line rxBuf waits with
  | zero => exact absurd hrounds (Nat.not_lt_zero _)
  | succ rounds ih =>
      rw [receive]
      split
      · rename_i hmore
        apply polls_call UartCall.uptimeGet
        intro (shown : Int) looked step
        obtain ⟨hlooked, -, time, hafter, hbefore, hclock⟩ := step
        have hshown : shown = (time / 1000 : Nat) := hclock
        split
        · rename_i hearly
          apply polls_call UartCall.pollIn
          intro reply polled step
          have hpolled := step.1
          cases reply with
          | some byte =>
              apply ih waits
              · omega
              · rw [List.length_append, List.length_singleton]
                omega
          | none =>
              apply polls_call (UartCall.busyWait 100)
              intro _ waited step
              have hwaited : polled.now + 100 ≤ waited.now := step.2.2
              -- the time is not over, so there was a wait left
              have hwait : 0 < waits := by omega
              apply ih (waits - 1)
              · omega
              · omega
        · exact progresses_pure _ looked
      · exact progresses_pure _ line

end Loops

section Driver

variable {α : Type} {line : Line}

theorem Enough.mono {rounds : Nat} {before : Line} (h : Enough rounds before) (hwithin : before.Within line) :
    Enough rounds line := ⟨Nat.lt_of_le_of_lt hwithin h.1, h.2⟩

-- A flush, a request, and the wait for the answer.
theorem request_polls (rounds count : Nat) (frame : List Byte) (finish : List Byte → Driver α) (hcount : count ≤ 3)
    (henough : Enough rounds line) (hfinish : ∀ rxBuf later, Polls (finish rxBuf) later) :
    Polls (do
      flushRx rounds
      sendFrame frame
      let now ← kUptimeGet
      let rxBuf ← receive count (now + UART_RX_TIMEOUT_MS) rounds []
      finish rxBuf) line := by
  apply progresses_bind _ _ _ (flushRx_polls rounds henough.1)
  intro _ flushed _
  apply progresses_bind _ _ _ (sendFrame_polls frame)
  intro _ requested _
  apply polls_call UartCall.uptimeGet
  intro (now : Int) waiting step
  obtain ⟨-, -, time, hafter, hbefore, hclock⟩ := step
  have hnow : now = (time / 1000 : Nat) := hclock
  apply progresses_bind
  · apply receive_polls count _ rounds 1000
    · rw [UART_RX_TIMEOUT_MS]
      omega
    · have hrounds := henough.2
      rw [List.length_nil]
      omega
  · intro rxBuf received _
    exact hfinish rxBuf received

theorem uartRead_polls (rounds : Nat) (addr : Byte) (val : Word16) (henough : Enough rounds line) :
    Polls (uartRead rounds addr val) line := by
  apply request_polls rounds 3 (readFrame addr) _ (Nat.le_refl 3) henough
  intro rxBuf later
  split
  · apply polls_call (UartCall.msleep UART_WAIT_DELAY_MS)
    intro _ slept _
    exact progresses_pure _ slept
  · exact progresses_pure _ later

theorem uartWrite_polls (rounds : Nat) (addr : Byte) (val : Word16) (henough : Enough rounds line) :
    Polls (uartWrite rounds addr val) line := by
  apply request_polls rounds 1 (writeFrame addr val) _ (by omega) henough
  intro rxBuf later
  split
  · apply polls_call (UartCall.msleep UART_WAIT_DELAY_MS)
    intro _ slept _
    exact progresses_pure _ slept
  · exact progresses_pure _ later

theorem fetchFields_polls (rounds : Nat) (reads : List (Byte × Field)) (data : Data) (henough : Enough rounds line) :
    Polls (fetchFields rounds reads data) line := by
  induction reads generalizing data line with
  | nil => exact progresses_pure _ line
  | cons entry rest ih =>
      apply progresses_bind _ _ _ (uartRead_polls rounds entry.1 _ henough)
      intro reply later hwithin
      dsimp only
      split
      · exact progresses_pure _ later
      · exact ih _ (henough.mono hwithin)

theorem write_polls (rounds : Nat) (addr : Byte) (val : Word16) (next : Int → Driver α) (henough : Enough rounds line)
    (hnext : ∀ ret later, Enough rounds later → Polls (next ret) later) :
    Polls (uartWrite rounds addr val >>= next) line := by
  apply progresses_bind _ _ _ (uartWrite_polls rounds addr val henough)
  intro ret later hwithin
  exact hnext ret later (henough.mono hwithin)

theorem initChip_polls (rounds : Nat) (henough : Enough rounds line) : Polls (initChip rounds) line := by
  apply write_polls _ _ _ _ henough
  intro _ reset henough
  apply polls_call (UartCall.msleep 50)
  intro _ slept step
  have henough := henough.mono step.2.1
  iterate 13
    apply write_polls _ _ _ _ henough
    intro _ written henough
  exact progresses_pure _ written

theorem atm90e26Init_polls (uartReady : Bool) (rounds : Nat) (henough : Enough rounds line) :
    Polls (atm90e26Init uartReady rounds) line := by
  unfold atm90e26Init
  split
  · exact progresses_pure _ line
  · apply progresses_bind _ _ _ (initChip_polls rounds henough)
    intro ret later _
    split <;> exact progresses_pure _ later

end Driver

-- On a line that has only so much to deliver the sixteen reads of a fetch and
-- the fourteen writes of an init come to their end, answered or not, within a
-- poll for each byte and 1004 polls more for every wait.
theorem driver_returns (rounds : Nat) (first last : Line) (henough : Enough rounds first) :
    (∀ data (run : Run (sampleFetch rounds data)), Path lineAdvance first run.trace last →
      ∃ value, run.outcome = .ok value) ∧
    ∀ uartReady (run : Run (atm90e26Init uartReady rounds)), Path lineAdvance first run.trace last →
      ∃ ret, run.outcome = .ok ret := by
  constructor
  · intro data run hpath
    exact (fetchFields_polls rounds sampleReads data henough).returns run hpath
  · intro uartReady run hpath
    exact (atm90e26Init_polls uartReady rounds henough).returns run hpath

section Example

-- Time passes only as far as a wait or the clock says.
def lineStep (line : Line) : UartEvent → Option Line
  | ⟨.pollIn, some _⟩ => if 0 < line.left then some ⟨line.now, line.left - 1⟩ else none
  | ⟨.uptimeGet, shown⟩ =>
      let time := max line.now (1000 * Int.toNat shown)
      if (shown : Int) = (time / 1000 : Nat) then some ⟨time, line.left⟩ else none
  | ⟨.busyWait microseconds, _⟩ => some ⟨line.now + microseconds, line.left⟩
  | _ => some line

theorem lineAdvance_of_step (line next : Line) (event : UartEvent) (h : lineStep line event = some next) :
    lineAdvance line event next := by
  obtain ⟨op, reply⟩ := event
  cases op with
  | pollIn =>
      cases reply with
      | some byte =>
          simp only [lineStep] at h
          split at h
          · rename_i hleft
            cases h
            exact ⟨Nat.le_refl _, Nat.sub_le _ _, Nat.sub_lt hleft Nat.one_pos⟩
          · cases h
      | none =>
          cases h
          exact ⟨Nat.le_refl _, Nat.le_refl _, trivial⟩
  | uptimeGet =>
      simp only [lineStep] at h
      split at h
      · rename_i hshown
        cases h
        exact ⟨Nat.le_max_left _ _, Nat.le_refl _, _, Nat.le_max_left _ _, Nat.le_refl _, hshown⟩
      · cases h
  | busyWait microseconds =>
      cases h
      exact ⟨Nat.le_add_right _ _, Nat.le_refl _, Nat.le_refl _⟩
  | _ =>
      cases h
      exact ⟨Nat.le_refl _, Nat.le_refl _, trivial⟩

theorem exists_linePath (line : Line) (trace : List UartEvent) (h : (trace.foldlM lineStep line).isSome = true) :
    ∃ last, Path lineAdvance line trace last := by
  obtain ⟨last, hlast⟩ := Option.isSome_iff_exists.mp h
  exact ⟨last, (path_of_foldlM lineStep _ hlast).mono _ fun line event next => lineAdvance_of_step line next event⟩

-- Nothing comes, and the time of the answer passes between two looks at the
-- clock.
def silentFetch : Run (sampleFetch 1004 Data.initial) :=
  (sampleFetch 1004 Data.initial).play Script.respond ⟨[], [0, 100]⟩

theorem driver_returns_silent : ∃ value, silentFetch.outcome = .ok value := by
  obtain ⟨last, hpath⟩ := exists_linePath ⟨0, 0⟩ silentFetch.trace (by decide +kernel)
  exact (driver_returns 1004 ⟨0, 0⟩ last ⟨Nat.zero_lt_succ 1003, Nat.le_refl 1004⟩).1 Data.initial silentFetch hpath

end Example

end TJ3Firmware
