import TJ3Firmware.Zephyr

namespace TJ3Firmware

open Library.Memory Library.Interaction

-- The calls of a driver on one UART, and the clock.
inductive UartCall
  | pollIn
  | pollOut (byte : Byte)
  | uptimeGet
  | busyWait (microseconds : Nat)
  | msleep (milliseconds : Nat)
  deriving Repr, DecidableEq

-- uart_poll_in delivers a byte and returns 0, or it delivers none.
abbrev UartReply : UartCall → Type
  | .pollIn => Option Byte
  | .pollOut _ => Unit
  | .uptimeGet => Int
  | .busyWait _ => Unit
  | .msleep _ => Unit

abbrev UartEvent := Event UartCall UartReply

-- A polling loop that has not come to its end within the rounds it was given.
inductive Unfinished
  | polling
  deriving Repr, DecidableEq

abbrev Driver (α : Type) := Prog UartCall UartReply Unfinished α

def uartPollIn : Driver (Option Byte) := Prog.perform UartCall.pollIn

def uartPollOut (byte : Byte) : Driver Unit := Prog.perform (UartCall.pollOut byte)

def kUptimeGet : Driver Int := Prog.perform UartCall.uptimeGet

def kBusyWait (microseconds : Nat) : Driver Unit := Prog.perform (UartCall.busyWait microseconds)

def kMsleep (milliseconds : Nat) : Driver Unit := Prog.perform (UartCall.msleep milliseconds)

-- while (uart_poll_in(...) == 0);
def flushRx : Nat → Driver Unit
  | 0 => .fail .polling
  | rounds + 1 => do
      match ← uartPollIn with
      | some _ => flushRx rounds
      | none => pure ()

def sendFrame : List Byte → Driver Unit
  | [] => pure ()
  | byte :: rest => do
      uartPollOut byte
      sendFrame rest

-- Waits for this many bytes until the time is over, and returns those received.
def receive (count : Nat) (timeoutTime : Int) : Nat → List Byte → Driver (List Byte)
  | 0, _ => .fail .polling
  | rounds + 1, rxBuf =>
      if rxBuf.length < count then do
        let now ← kUptimeGet
        if now < timeoutTime then do
          match ← uartPollIn with
          | some byte => receive count timeoutTime rounds (rxBuf ++ [byte])
          | none => do
              kBusyWait 100
              receive count timeoutTime rounds rxBuf
        else pure rxBuf
      else pure rxBuf

end TJ3Firmware
