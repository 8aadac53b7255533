import TJ3Firmware.BleGatt

namespace TJ3Firmware

open Library.Interaction

-- What main does with the file system before ble_gatt_init.
def boot : Firmware Unit := do
  let _ ← fsHandlerInit
  let _ ← fsHandlerTest
  pure ()

-- The op code with which write_packet accepts the bytes, if it does.
def acceptedOpCode (buf : List Byte) : Option Byte :=
  match protocolParse buf with
  | .ok (.ok packet) => some packet.opCode
  | _ => none

-- A write to the Command characteristic, with the calls it led to.
structure Command where
  txBuf : TxBuf
  buf : List Byte
  run : Run (writePacket txBuf buf)

-- Commands are handled one after another.
structure Session where
  bootRun : Run boot
  commands : List Command

-- The calls up to a command that comes after these.
def Session.traceBefore (session : Session) (earlier : List Command) : List ZephyrEvent :=
  session.bootRun.trace ++ earlier.flatMap fun command => command.run.trace

end TJ3Firmware
