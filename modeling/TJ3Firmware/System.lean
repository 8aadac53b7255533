import TJ3Firmware.Session
import TJ3Firmware.MainLoop
import TJ3Firmware.SpiFlash
import TJ3Firmware.BleGatt.Characteristics
import TJ3Firmware.Library.Threads

namespace TJ3Firmware

open Library.Memory Library.Interaction Library.Threads

section Calls

-- The calls of the main thread and of the Bluetooth thread.
inductive SystemCall (Conn : Type)
  -- led_ind as GPIO_OUTPUT_ACTIVE
  | gpioPinConfigure
  -- device_is_ready on uart30
  | uartReady
  | flash (call : FlashCall)
  | zephyr (call : ZephyrCall)
  | main (call : MainCall Conn)

abbrev SystemReply (Conn : Type) : SystemCall Conn → Type
  | .gpioPinConfigure => Int
  | .uartReady => Bool
  | .flash call => FlashReply call
  | .zephyr call => ZephyrReply call
  | .main call => MainReply Conn call

abbrev SystemEvent (Conn : Type) := Event (SystemCall Conn) (SystemReply Conn)

-- Why a thread does not go on.
inductive Halted
  | fault (fault : Fault)
  | unfinished (reason : Unfinished)
  deriving Repr, DecidableEq

abbrev Thread (Conn α : Type) := Prog (SystemCall Conn) (SystemReply Conn) Halted α

variable {Conn α : Type}

def ofFlash : FlashDriver α → Thread Conn α := embed SystemCall.flash (fun _ reply => reply) Empty.elim

def ofFirmware : Firmware α → Thread Conn α := embed SystemCall.zephyr (fun _ reply => reply) Halted.fault

def ofBluetooth : Bluetooth Conn α → Thread Conn α :=
  embed (fun call => SystemCall.main (.bluetooth call)) (fun _ reply => reply) Empty.elim

def ofMain : MainThread Conn α → Thread Conn α := embed SystemCall.main (fun _ reply => reply) Halted.unfinished

end Calls

section Threads

variable {Conn : Type}

def ledInit : Thread Conn Unit := do
  let _ ← Prog.perform SystemCall.gpioPinConfigure
  pure ()

def extCommInit : Thread Conn Int := do
  let ready ← Prog.perform SystemCall.uartReady
  if !ready then pure (-ENODEV)
  else pure 0

-- The return values of the init functions are dropped.
def main (around : Nat → Surroundings) (rounds : Nat) (data : Atm → Data) : Thread Conn (List LogLine × MainState) := do
  ledInit
  let _ ← extCommInit
  let _ ← ofFlash spiFlashInit
  let _ ← ofFirmware fsHandlerInit
  let _ ← ofFirmware fsHandlerTest
  ofBluetooth bleGattInit
  ofMain (mainLoop around rounds ⟨0, data⟩)

-- What the Bluetooth stack has for its thread to do.
inductive Work (Conn : Type)
  | callback (event : Callback Conn)
  | gatt (op : GattOp)

-- The static data that only this thread uses.
structure BtState (Conn : Type) where
  currentConn : Option Conn
  data : StaticData

def Work.handle (attrRead : AttrRead) (state : BtState Conn) : Work Conn → Thread Conn (Option GattReply × BtState Conn)
  | .callback event => do
      let currentConn ← ofBluetooth (event.handle state.currentConn)
      pure (none, { state with currentConn := currentConn })
  | .gatt op => do
      let (reply, data) ← ofFirmware (op.handle attrRead state.data)
      pure (some reply, { state with data := data })

-- One thing after another.
def btThread (attrRead : AttrRead) : List (Work Conn) → BtState Conn → Thread Conn (List GattReply × BtState Conn)
  | [], state => pure ([], state)
  | work :: rest, state => do
      let (reply, state) ← work.handle attrRead state
      let (replies, state) ← btThread attrRead rest state
      pure (reply.toList ++ replies, state)

-- bt_enable has returned 0.
def Enabled : SystemEvent Conn → Prop
  | ⟨.main (.bluetooth .enable), err⟩ => err = (0 : Int)
  | _ => False

end Threads

section Storage

variable {Conn : Type}

-- The call is on the file system or its partition.
def ZephyrCall.onStorage : ZephyrCall → Bool
  | .btGattIndicate _ _ => false
  | .ledOn => false
  | .ledOff => false
  | _ => true

def zephyrEvent : SystemEvent Conn → Option ZephyrEvent
  | ⟨.zephyr call, reply⟩ => some ⟨call, reply⟩
  | _ => none

def storageCalls (trace : List ZephyrEvent) : List ZephyrEvent := trace.filter fun event => event.op.onStorage

-- The calls of a whole session on the file system.
def Session.storageCalls (session : Session) : List ZephyrEvent :=
  TJ3Firmware.storageCalls (session.traceBefore session.commands)

-- A write to the Command characteristic.
def Work.command : Work Conn → Option (TxBuf × List Byte)
  | .gatt (.write (.command txBuf) buf _) => some (txBuf, buf.bytes)
  | _ => none

end Storage

end TJ3Firmware
