import TJ3Firmware.Atm90e26

namespace TJ3Firmware

open Library.Memory Library.Interaction

section Polls

def polled (byte : Byte) : UartEvent := ⟨.pollIn, some byte⟩

def emptyPoll : UartEvent := ⟨.pollIn, none⟩

def sent (frame : List Byte) : List UartEvent := frame.map fun byte => ⟨.pollOut byte, ()⟩

def deliveredBy : UartEvent → Option Byte
  | ⟨.pollIn, reply⟩ => reply
  | _ => none

-- The bytes uart_poll_in delivers.
def delivered (trace : List UartEvent) : List Byte := trace.filterMap deliveredBy

@[simp] theorem delivered_nil : delivered [] = [] := rfl

@[simp] theorem delivered_append (before after : List UartEvent) :
    delivered (before ++ after) = delivered before ++ delivered after := List.filterMap_append

@[simp] theorem delivered_polled (byte : Byte) (trace : List UartEvent) :
    delivered (⟨.pollIn, some byte⟩ :: trace) = byte :: delivered trace := rfl

@[simp] theorem delivered_emptyPoll (trace : List UartEvent) :
    delivered (⟨.pollIn, none⟩ :: trace) = delivered trace := rfl

@[simp] theorem delivered_uptimeGet (now : Int) (trace : List UartEvent) :
    delivered (⟨.uptimeGet, now⟩ :: trace) = delivered trace := rfl

@[simp] theorem delivered_busyWait (duration : Nat) (reply : Unit) (trace : List UartEvent) :
    delivered (⟨.busyWait duration, reply⟩ :: trace) = delivered trace := rfl

-- The clock does not show that the time is over.
def early (timeoutTime : Int) : UartEvent → Bool
  | ⟨.uptimeGet, now⟩ => (now : Int) < timeoutTime
  | _ => true

-- The bytes delivered within the timeout, which counts from a first look at the
-- clock.
def inTime : List UartEvent → List Byte
  | ⟨.uptimeGet, now⟩ :: waiting => delivered (waiting.takeWhile (early (now + UART_RX_TIMEOUT_MS)))
  | _ => []

-- Nothing is sent.
def Listening : UartCall → Prop
  | .pollOut _ => False
  | _ => True

theorem flushRx_runs (rounds : Nat) (trace : List UartEvent) (h : Runs (flushRx rounds) trace (.ok ())) :
    ∃ stale : List Byte, trace = stale.map polled ++ [emptyPoll] := by
  induction rounds generalizing trace with
  | zero => cases h
  | succ rounds ih =>
      obtain ⟨reply, rest, rfl, hrest⟩ := (runs_perform_bind UartCall.pollIn _ _ _).mp h
      cases reply with
      | none =>
          obtain ⟨rfl, -⟩ := (runs_pure _ _ _).mp hrest
          exact ⟨[], rfl⟩
      | some byte =>
          obtain ⟨stale, rfl⟩ := ih rest hrest
          exact ⟨byte :: stale, rfl⟩

theorem sendFrame_runs (frame : List Byte) (trace : List UartEvent) (h : Runs (sendFrame frame) trace (.ok ())) :
    trace = sent frame := by
  induction frame generalizing trace with
  | nil => exact ((runs_pure _ _ _).mp h).1
  | cons byte rest ih =>
      obtain ⟨_, after, rfl, hafter⟩ := (runs_perform_bind (UartCall.pollOut byte) _ _ _).mp h
      rw [ih after hafter]
      rfl

-- The buffer grows by what is delivered, up to the count.
theorem receive_runs (count : Nat) (timeoutTime : Int) (rounds : Nat) (rxBuf result : List Byte)
    (trace : List UartEvent) (h : Runs (receive count timeoutTime rounds rxBuf) trace (.ok result)) :
    result = rxBuf ++ delivered trace ∧ (rxBuf.length ≤ count → result.length ≤ count) ∧
      ∀ event ∈ trace, Listening event.op := by
  induction rounds generalizing rxBuf trace with
  | zero => cases h
  | succ rounds ih =>
      rw [receive] at h
      split at h
      · rename_i hmore
        obtain ⟨now, rest, rfl, hrest⟩ := (runs_perform_bind UartCall.uptimeGet _ _ _).mp h
        split at hrest
        · obtain ⟨reply, tail, rfl, htail⟩ := (runs_perform_bind UartCall.pollIn _ _ _).mp hrest
          cases reply with
          | some byte =>
              obtain ⟨hresult, hlength, hlistening⟩ := ih _ tail htail
              refine ⟨by simp [hresult], ?_, by simpa [Listening] using hlistening⟩
              intro _
              apply hlength
              rw [List.length_append, List.length_singleton]
              omega
          | none =>
              obtain ⟨_, after, rfl, hafter⟩ := (runs_perform_bind (UartCall.busyWait 100) _ _ _).mp htail
              obtain ⟨hresult, hlength, hlistening⟩ := ih _ after hafter
              exact ⟨by simpa using hresult, hlength, by simpa [Listening] using hlistening⟩
        · obtain ⟨rfl, hresult⟩ := (runs_pure _ _ _).mp hrest
          cases hresult
          exact ⟨by simp, id, by simp [Listening]⟩
      · obtain ⟨rfl, hresult⟩ := (runs_pure _ _ _).mp h
        cases hresult
        exact ⟨by simp, id, by simp⟩

-- Once the time is over no byte is taken.
theorem receive_inTime (count : Nat) (timeoutTime : Int) (rounds : Nat) (rxBuf result : List Byte)
    (trace : List UartEvent) (h : Runs (receive count timeoutTime rounds rxBuf) trace (.ok result)) :
    delivered (trace.takeWhile (early timeoutTime)) = delivered trace := by
  induction rounds generalizing rxBuf trace with
  | zero => cases h
  | succ rounds ih =>
      rw [receive] at h
      split at h
      · obtain ⟨(now : Int), rest, rfl, hrest⟩ := (runs_perform_bind UartCall.uptimeGet _ _ _).mp h
        split at hrest
        · rename_i hnow
          obtain ⟨reply, tail, rfl, htail⟩ := (runs_perform_bind UartCall.pollIn _ _ _).mp hrest
          have hlook : early timeoutTime ⟨.uptimeGet, now⟩ = true := decide_eq_true hnow
          have hpoll : early timeoutTime ⟨.pollIn, reply⟩ = true := rfl
          rw [List.takeWhile_cons_of_pos hlook, List.takeWhile_cons_of_pos hpoll]
          cases reply with
          | some byte => simpa using ih _ tail htail
          | none =>
              obtain ⟨_, after, rfl, hafter⟩ := (runs_perform_bind (UartCall.busyWait 100) _ _ _).mp htail
              have hwait : early timeoutTime ⟨.busyWait 100, ()⟩ = true := rfl
              rw [List.takeWhile_cons_of_pos hwait]
              simpa using ih _ after hafter
        · rename_i hlate
          obtain ⟨rfl, -⟩ := (runs_pure _ _ _).mp hrest
          rw [List.takeWhile_cons_of_neg (by simpa [early] using hlate)]
          rfl
      · obtain ⟨rfl, -⟩ := (runs_pure _ _ _).mp h
        rfl

-- A flush, a request, and then what comes in until the time is over or there
-- is enough.
theorem request_runs {α : Type} (rounds count : Nat) (frame : List Byte) (timeout : Int)
    (finish : List Byte → Driver α) (trace : List UartEvent) (result : α)
    (h : Runs (do
      flushRx rounds
      sendFrame frame
      let now ← kUptimeGet
      let rxBuf ← receive count (now + timeout) rounds []
      finish rxBuf) trace (.ok result)) :
    ∃ (stale : List Byte) (now : Int) (waiting rest : List UartEvent),
      trace = stale.map polled ++ emptyPoll :: (sent frame ++ ⟨.uptimeGet, now⟩ :: (waiting ++ rest)) ∧
        (delivered waiting).length ≤ count ∧ (∀ event ∈ waiting, Listening event.op) ∧
        delivered (waiting.takeWhile (early (now + timeout))) = delivered waiting ∧
        Runs (finish (delivered waiting)) rest (.ok result) := by
  obtain ⟨flush, _, afterFlush, rfl, hflush, hsend⟩ := (runs_bind_ok _ _ _ _).mp h
  obtain ⟨stale, rfl⟩ := flushRx_runs rounds flush hflush
  obtain ⟨request, _, afterRequest, rfl, hrequest, hclock⟩ := (runs_bind_ok _ _ _ _).mp hsend
  rw [sendFrame_runs _ request hrequest]
  obtain ⟨now, afterClock, rfl, hwait⟩ := (runs_perform_bind UartCall.uptimeGet _ _ _).mp hclock
  obtain ⟨waiting, rxBuf, rest, rfl, hreceive, hend⟩ := (runs_bind_ok _ _ _ _).mp hwait
  obtain ⟨hresult, hlength, hlistening⟩ := receive_runs _ _ _ _ _ waiting hreceive
  rw [List.nil_append] at hresult
  subst hresult
  have htimely := receive_inTime _ _ _ _ _ waiting hreceive
  exact ⟨stale, now, waiting, rest, by simp, hlength (Nat.zero_le _), hlistening, htimely, hend⟩

end Polls

section Reads

-- A flush, a read request and the time until the driver gives up or goes on.
structure ReadExchange (addr : Byte) where
  stale : List Byte
  answer : List UartEvent
  listening : ∀ event ∈ answer, Listening event.op

def ReadExchange.trace {addr : Byte} (exchange : ReadExchange addr) : List UartEvent :=
  exchange.stale.map polled ++ emptyPoll :: (sent (readFrame addr) ++ exchange.answer)

-- What a read makes of the bytes delivered after its request.
inductive Received (val : Word16) : List Byte → Int → Word16 → Prop
  | value (lsb msb checksum : Byte) : Received val [lsb, msb, checksum] 0 (word16 lsb msb)
  | timeout (bytes : List Byte) (h : bytes.length < 3) : Received val bytes (- EIO) val

theorem uartRead_runs (rounds : Nat) (addr : Byte) (val : Word16) (trace : List UartEvent) (ret : Int)
    (value : Word16) (h : Runs (uartRead rounds addr val) trace (.ok (ret, value))) :
    ∃ exchange : ReadExchange addr, trace = exchange.trace ∧ inTime exchange.answer = delivered exchange.answer ∧
      Received val (delivered exchange.answer) ret value := by
  obtain ⟨stale, now, waiting, rest, rfl, hshort, hlistening, htimely, hend⟩ := request_runs rounds 3 _ _ _ trace _ h
  split at hend
  · rename_i lsb msb checksum more hbytes
    obtain ⟨_, tail, rfl, hreturn⟩ := (runs_perform_bind (UartCall.msleep UART_WAIT_DELAY_MS) _ _ _).mp hend
    obtain ⟨rfl, hvalue⟩ := (runs_pure _ _ _).mp hreturn
    cases hvalue
    have hmore : more = [] := by
      rw [hbytes] at hshort
      simp only [List.length_cons] at hshort
      exact List.length_eq_zero_iff.mp (by omega)
    refine ⟨⟨stale, ⟨.uptimeGet, now⟩ :: (waiting ++ [⟨.msleep UART_WAIT_DELAY_MS, ()⟩]), ?_⟩,
      by simp [ReadExchange.trace], ?_, ?_⟩
    · simpa [Listening, or_imp, forall_and] using hlistening
    · rw [inTime, delivered_uptimeGet, delivered_append, ← htimely, List.takeWhile_append]
      -- the sleep at the end delivers nothing
      split
      · rw [delivered_append, htimely]
        rfl
      · exact (List.append_nil _).symm
    · rw [delivered_uptimeGet, delivered_append, hbytes, hmore]
      exact .value lsb msb checksum
  · rename_i hbytes
    obtain ⟨rfl, hvalue⟩ := (runs_pure _ _ _).mp hend
    cases hvalue
    refine ⟨⟨stale, ⟨.uptimeGet, now⟩ :: waiting, ?_⟩, by simp [ReadExchange.trace], ?_, ?_⟩
    · simpa [Listening] using hlistening
    · rw [inTime, delivered_uptimeGet]
      exact htimely
    · refine .timeout _ ?_
      rw [delivered_uptimeGet]
      rcases hdelivered : delivered waiting with _ | ⟨lsb, _ | ⟨msb, _ | ⟨checksum, more⟩⟩⟩
      · simp
      · simp
      · simp
      · exact absurd hdelivered (hbytes lsb msb checksum more)

-- A sequence of reads: the values read before the first one that timed out, the
-- return value and the data that is left.
inductive Fetched : List (Byte × Field) → Data → List UartEvent → List (Field × Word16) → Int → Data → Prop
  | done (data : Data) : Fetched [] data [] [] 0 data
  | read (addr : Byte) (field : Field) (rest : List (Byte × Field)) (data last : Data) (exchange : ReadExchange addr)
      (lsb msb checksum : Byte) (trace : List UartEvent) (values : List (Field × Word16)) (ret : Int)
      (hdelivered : delivered exchange.answer = [lsb, msb, checksum])
      (more : Fetched rest (data.set field (word16 lsb msb)) trace values ret last) :
      Fetched ((addr, field) :: rest) data (exchange.trace ++ trace) ((field, word16 lsb msb) :: values) ret last
  | timeout (addr : Byte) (field : Field) (rest : List (Byte × Field)) (data : Data) (exchange : ReadExchange addr)
      (h : (delivered exchange.answer).length < 3) :
      Fetched ((addr, field) :: rest) data exchange.trace [] (- EIO) data

theorem fetchFields_runs (rounds : Nat) (reads : List (Byte × Field)) (data last : Data) (ret : Int)
    (trace : List UartEvent) (h : Runs (fetchFields rounds reads data) trace (.ok (ret, last))) :
    ∃ values, Fetched reads data trace values ret last := by
  induction reads generalizing data trace with
  | nil =>
      obtain ⟨rfl, hvalue⟩ := (runs_pure _ _ _).mp h
      cases hvalue
      exact ⟨[], .done _⟩
  | cons entry rest ih =>
      obtain ⟨addr, field⟩ := entry
      obtain ⟨before, ⟨first, value⟩, after, rfl, hread, hrest⟩ := (runs_bind_ok _ _ _ _).mp h
      obtain ⟨exchange, rfl, -, hreceived⟩ := uartRead_runs rounds addr _ before first value hread
      generalize hanswer : delivered exchange.answer = bytes at hreceived
      cases hreceived with
      | value lsb msb checksum =>
          simp only at hrest
          rw [if_neg (by decide)] at hrest
          obtain ⟨values, hfetched⟩ := ih _ after hrest
          exact ⟨_, .read addr field rest data last exchange lsb msb checksum after values ret hanswer hfetched⟩
      | timeout bytes hshort =>
          simp only at hrest
          rw [if_pos (by decide), Data.set_get] at hrest
          obtain ⟨rfl, hvalue⟩ := (runs_pure _ _ _).mp hrest
          cases hvalue
          rw [List.append_nil]
          exact ⟨[], .timeout addr field rest _ exchange (hanswer ▸ hshort)⟩

end Reads

-- A call of atm90e26_sample_fetch that returned.
structure Fetch where
  rounds : Nat
  start : Data
  run : Run (sampleFetch rounds start)
  ret : Int
  last : Data
  returned : run.outcome = .ok (ret, last)

theorem Fetch.fetched (fetch : Fetch) :
    ∃ values, Fetched sampleReads fetch.start fetch.run.trace values fetch.ret fetch.last := by
  have hruns := fetch.run.runs
  rw [fetch.returned] at hruns
  exact fetchFields_runs fetch.rounds sampleReads fetch.start fetch.last fetch.ret _ hruns

section Script

-- What is left of the answers to uart_poll_in and k_uptime_get.
structure Script where
  polls : List (Option Byte)
  clock : List Int

-- Polls come back empty and the clock stands still when the script is over.
def Script.respond (script : Script) : (call : UartCall) → UartReply call × Script
  | .pollIn => (script.polls.headD none, { script with polls := script.polls.tail })
  | .pollOut _ => ((), script)
  | .uptimeGet => (script.clock.headD 0, { script with clock := script.clock.tail })
  | .busyWait _ => ((), script)
  | .msleep _ => ((), script)

end Script

end TJ3Firmware
