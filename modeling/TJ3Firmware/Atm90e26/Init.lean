import TJ3Firmware.Atm90e26.Calibration

namespace TJ3Firmware

open Library.Memory Library.Interaction

section Writes

-- What happens after the request: the flush ends with the first empty poll,
-- and the request has five bytes.
def afterRequest (trace : List UartEvent) : List UartEvent :=
  (trace.dropWhile fun event => (deliveredBy event).isSome).drop 6

theorem afterRequest_exchange (stale : List Byte) (addr : Byte) (val : Word16) (answer : List UartEvent) :
    afterRequest (stale.map polled ++ emptyPoll :: (sent (writeFrame addr val) ++ answer)) = answer := by
  have hflush : (stale.map polled ++ emptyPoll :: (sent (writeFrame addr val) ++ answer)).dropWhile
      (fun event => (deliveredBy event).isSome) = emptyPoll :: (sent (writeFrame addr val) ++ answer) := by
    rw [List.dropWhile_append_of_pos]
    · rfl
    · intro event hevent
      obtain ⟨byte, -, rfl⟩ := List.mem_map.mp hevent
      rfl
  rw [afterRequest, hflush]
  rfl

-- A byte came in within the time the driver waits for it.
def Acknowledged (trace : List UartEvent) : Prop := delivered (afterRequest trace) ≠ []

-- A write returns 0 when it is acknowledged and an error when it is not.
theorem uartWrite_runs (rounds : Nat) (addr : Byte) (val : Word16) (trace : List UartEvent) (ret : Int)
    (h : Runs (uartWrite rounds addr val) trace (.ok ret)) :
    Acknowledged trace ∧ ret = 0 ∨ ¬Acknowledged trace ∧ ret = - EIO := by
  obtain ⟨stale, now, waiting, rest, rfl, -, -, -, hend⟩ := request_runs rounds 1 _ _ _ trace _ h
  rw [Acknowledged, afterRequest_exchange]
  cases hbytes : delivered waiting with
  | nil =>
      rw [hbytes] at hend
      obtain ⟨rfl, hret⟩ := (runs_pure _ _ _).mp hend
      refine Or.inr ⟨not_not.mpr ?_, Except.ok.inj hret⟩
      rw [List.append_nil, delivered_uptimeGet, hbytes]
  | cons byte more =>
      rw [hbytes] at hend
      obtain ⟨_, after, rfl, hafter⟩ := (runs_perform_bind (UartCall.msleep UART_WAIT_DELAY_MS) _ _ _).mp hend
      obtain ⟨rfl, hret⟩ := (runs_pure _ _ _).mp hafter
      refine Or.inl ⟨?_, Except.ok.inj hret⟩
      rw [delivered_uptimeGet, delivered_append, hbytes]
      simp

-- A call of atm90e26_uart_write that returned.
structure WriteCall (rounds : Nat) where
  addr : Byte
  val : Word16
  run : Run (uartWrite rounds addr val)
  ret : Int
  returned : run.outcome = .ok ret

theorem WriteCall.ret_eq_zero_iff {rounds : Nat} (call : WriteCall rounds) :
    call.ret = 0 ↔ Acknowledged call.run.trace := by
  have hruns := call.run.runs
  rw [call.returned] at hruns
  rcases uartWrite_runs rounds call.addr call.val _ call.ret hruns with ⟨hacknowledged, hret⟩ | ⟨hmissing, hret⟩
  · exact iff_of_true hret hacknowledged
  · refine iff_of_false ?_ hmissing
    rw [hret]
    decide

-- The writes one after another, as atm90e26_init_chip issues them.
def writeRegisters (rounds : Nat) : List (Byte × Word16) → Driver Int
  | [] => pure 0
  | (addr, val) :: rest => do
      let _ ← uartWrite rounds addr val
      writeRegisters rounds rest

-- The writes after the soft reset.
def configWrites : List (Byte × Word16) := initWrites.tail

theorem initChip_eq (rounds : Nat) : initChip rounds = (do
    let _ ← uartWrite rounds ATM90E26_REG_SOFTRESET ATM90E26_SOFTRESET_MAGIC
    kMsleep 50
    writeRegisters rounds configWrites) := rfl

-- These calls make these writes.
def Makes {rounds : Nat} (calls : List (WriteCall rounds)) (writes : List (Byte × Word16))
    (trace : List UartEvent) : Prop :=
  (calls.map fun call => (call.addr, call.val)) = writes ∧ trace = calls.flatMap fun call => call.run.trace

theorem exists_call_of_runs (rounds : Nat) (addr : Byte) (val : Word16) (trace : List UartEvent) (ret : Int)
    (h : Runs (uartWrite rounds addr val) trace (.ok ret)) :
    ∃ call : WriteCall rounds, (call.addr, call.val) = (addr, val) ∧ call.run.trace = trace :=
  ⟨⟨addr, val, ⟨trace, .ok ret, h⟩, ret, rfl⟩, rfl, rfl⟩

theorem writeRegisters_runs (rounds : Nat) (writes : List (Byte × Word16)) (trace : List UartEvent) (ret : Int)
    (h : Runs (writeRegisters rounds writes) trace (.ok ret)) :
    ret = 0 ∧ ∃ calls : List (WriteCall rounds), Makes calls writes trace := by
  induction writes generalizing trace with
  | nil =>
      obtain ⟨rfl, hret⟩ := (runs_pure _ _ _).mp h
      exact ⟨Except.ok.inj hret, [], rfl, rfl⟩
  | cons write rest ih =>
      obtain ⟨addr, val⟩ := write
      obtain ⟨before, ret', after, rfl, hwrite, hrest⟩ := (runs_bind_ok _ _ _ _).mp h
      obtain ⟨hret, calls, hwrites, rfl⟩ := ih after hrest
      obtain ⟨call, hcall, rfl⟩ := exists_call_of_runs rounds addr val before ret' hwrite
      refine ⟨hret, call :: calls, ?_, ?_⟩
      · rw [List.map_cons, hcall, hwrites]
      · rw [List.flatMap_cons]

end Writes

section Init

-- The configuration writes of a call of atm90e26_init, which come after the
-- reset and the wait for it. There are none when the UART is not ready.
def Configures {rounds : Nat} (uartReady : Bool) (trace : List UartEvent) (calls : List (WriteCall rounds)) : Prop :=
  if uartReady then ∃ (reset : WriteCall rounds) (config : List UartEvent), Makes calls configWrites config ∧
    (reset.addr, reset.val) = (ATM90E26_REG_SOFTRESET, ATM90E26_SOFTRESET_MAGIC) ∧
    trace = reset.run.trace ++ ⟨.msleep 50, ()⟩ :: config
  else calls = [] ∧ trace = []

-- Success means that all of them were acknowledged, and a timeout is reported.
def Truthful {rounds : Nat} (ret : Int) (calls : List (WriteCall rounds)) : Prop :=
  (ret = 0 → ∀ call ∈ calls, call.ret = 0) ∧ ((∃ call ∈ calls, call.ret ≠ 0) → ret < 0)

theorem atm90e26Init_runs (uartReady : Bool) (rounds : Nat) (trace : List UartEvent) (ret : Int)
    (h : Runs (atm90e26Init uartReady rounds) trace (.ok ret)) :
    (ret = if uartReady then 0 else -ENODEV) ∧ ∃ calls : List (WriteCall rounds), Configures uartReady trace calls := by
  unfold atm90e26Init at h
  cases uartReady with
  | false =>
      obtain ⟨rfl, hret⟩ := (runs_pure _ _ _).mp h
      exact ⟨Except.ok.inj hret, [], rfl, rfl⟩
  | true =>
      rw [if_neg (by decide), initChip_eq] at h
      obtain ⟨chip, ret', after, rfl, hchip, hend⟩ := (runs_bind_ok _ _ _ _).mp h
      obtain ⟨reset, resetRet, rest, rfl, hreset, hrest⟩ := (runs_bind_ok _ _ _ _).mp hchip
      obtain ⟨_, config, rfl, hconfig⟩ := (runs_perform_bind (UartCall.msleep 50) _ _ _).mp hrest
      obtain ⟨rfl, calls, hmakes⟩ := writeRegisters_runs rounds configWrites config ret' hconfig
      rw [if_neg (by omega)] at hend
      obtain ⟨rfl, hret⟩ := (runs_pure _ _ _).mp hend
      obtain ⟨call, hcall, rfl⟩ := exists_call_of_runs rounds _ _ reset resetRet hreset
      refine ⟨Except.ok.inj hret, calls, call, config, hmakes, hcall, ?_⟩
      rw [List.append_nil]

end Init

-- The initialisation is reported truthfully exactly when no configuration write
-- times out.
theorem init_truthful_iff (uartReady : Bool) (rounds : Nat) (run : Run (atm90e26Init uartReady rounds)) (ret : Int)
    (hret : run.outcome = .ok ret) :
    (∃ calls : List (WriteCall rounds), Configures uartReady run.trace calls) ∧
      ∀ calls : List (WriteCall rounds), Configures uartReady run.trace calls →
        (Truthful ret calls ↔ ∀ call ∈ calls, Acknowledged call.run.trace) := by
  have hruns := run.runs
  rw [hret] at hruns
  obtain ⟨hvalue, hcalls⟩ := atm90e26Init_runs uartReady rounds _ ret hruns
  refine ⟨hcalls, ?_⟩
  intro calls hconfigures
  constructor
  · intro ⟨hsuccess, _⟩ call hcall
    cases uartReady with
    | false =>
        rw [hconfigures.1] at hcall
        cases hcall
    | true => exact call.ret_eq_zero_iff.mp (hsuccess hvalue call hcall)
  · intro hall
    refine ⟨fun _ call hcall => call.ret_eq_zero_iff.mpr (hall call hcall), ?_⟩
    intro ⟨call, hcall, hfailed⟩
    exact absurd (call.ret_eq_zero_iff.mpr (hall call hcall)) hfailed

section Silent

-- The meter does not answer, and every write times out.
def silentInit : Run (atm90e26Init true 8) :=
  (atm90e26Init true 8).play Script.respond ⟨[], (List.replicate 14 [0, 100]).flatten⟩

theorem silentInit_returned : silentInit.outcome = .ok 0 := by decide +kernel

theorem init_truthful_iff_silent : (∃ calls : List (WriteCall 8), Configures true silentInit.trace calls) ∧
    ∀ calls : List (WriteCall 8), Configures true silentInit.trace calls →
      (Truthful 0 calls ↔ ∀ call ∈ calls, Acknowledged call.run.trace) :=
  init_truthful_iff true 8 silentInit 0 silentInit_returned

theorem not_acknowledged_of_delivered (trace : List UartEvent) (h : delivered trace = []) : ¬Acknowledged trace := by
  rw [Acknowledged, not_not]
  apply List.filterMap_eq_nil_iff.mpr
  intro event hevent
  apply List.filterMap_eq_nil_iff.mp h event
  exact (List.dropWhile_subset _) (List.mem_of_mem_drop hevent)

-- Thirteen timeouts are reported as success.
theorem init_ignores_timeouts :
    ¬∀ (uartReady : Bool) (rounds : Nat) (run : Run (atm90e26Init uartReady rounds)) (ret : Int)
      (calls : List (WriteCall rounds)), run.outcome = .ok ret → Configures uartReady run.trace calls →
        Truthful ret calls := by
  intro h
  have hruns := silentInit.runs
  rw [silentInit_returned] at hruns
  obtain ⟨-, calls, hconfigures⟩ := atm90e26Init_runs true 8 _ 0 hruns
  obtain ⟨hsuccess, -⟩ := h true 8 silentInit 0 calls silentInit_returned hconfigures
  obtain ⟨reset, config, ⟨hwrites, rfl⟩, -, htrace⟩ := hconfigures
  cases calls with
  | nil => cases hwrites
  | cons call rest =>
      refine not_acknowledged_of_delivered call.run.trace ?_
        (call.ret_eq_zero_iff.mp (hsuccess rfl call List.mem_cons_self))
      have hnothing : delivered silentInit.trace = [] := by decide +kernel
      rw [htrace, delivered_append, List.flatMap_cons] at hnothing
      have hconfig := (List.append_eq_nil_iff.mp hnothing).2
      have hcalls : delivered (call.run.trace ++ rest.flatMap fun call => call.run.trace) = [] := hconfig
      rw [delivered_append] at hcalls
      exact (List.append_eq_nil_iff.mp hcalls).1

end Silent

end TJ3Firmware
