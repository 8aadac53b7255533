import TJ3Firmware.BleGatt
import TJ3Firmware.Library.Register

namespace TJ3Firmware

open Library.Memory Library.Interaction Library.Register

-- BT_UUID_DIAG_LOG_FETCH_VAL
def diagLogFetchUuid : BitVec 128 := 0x4d6f8c124b9a4c1b9a61112233445500#128

-- BT_UUID_DIAG_CLEAR_LOGS_VAL
def diagClearLogsUuid : BitVec 128 := 0x4d6f8c144b9a4c1b9a61112233445500#128

def BT_ATT_ERR_INVALID_OFFSET : Int := 0x07

def BT_ATT_ERR_INVALID_ATTRIBUTE_LEN : Int := 0x0d

-- BT_GATT_ERR
def btGattErr (attErr : Int) : Int := -attErr

-- sizeof(meter_config)
def METER_CONFIG_SIZE : Nat := 20

-- The static data for characteristics.
structure StaticData where
  meterSnapshot : List Byte
  meterConfig : Store Byte METER_CONFIG_SIZE
  powerPulse : BitVec 32
  alarmStatus : BitVec 32
  logCount : Word16
  logLevel : Byte

def StaticData.initial : StaticData where
  meterSnapshot := List.replicate 20 0x00#8
  meterConfig := Store.fresh METER_CONFIG_SIZE 0x00#8
  powerPulse := 0#32
  alarmStatus := 0#32
  logCount := 0#16
  logLevel := 0x03#8

-- What a read or write handler returns, and what it has copied into the buffer
-- of a read.
structure GattReply where
  ret : Int
  copied : List Byte
  deriving Repr, DecidableEq

-- bt_gatt_attr_read, on a value, the length of the buffer and an offset.
abbrev AttrRead := List Byte → Word16 → Word16 → GattReply

-- The bytes of a write, whose number is a uint16_t.
structure WriteBuf where
  bytes : List Byte
  short : bytes.length < 65536

def WriteBuf.len (buf : WriteBuf) : Word16 := BitVec.ofNat 16 buf.bytes.length

section Read

inductive Readable
  | meterSnapshot | meterConfig | powerPulse | alarmStatus | logCount | logLevel
  deriving Repr, DecidableEq

def le16 (value : Word16) : List Byte := [lowByte value, highByte value]

def le32 (value : BitVec 32) : List Byte := le16 (value.setWidth 16) ++ le16 ((value >>> 16).setWidth 16)

variable (attrRead : AttrRead) (len offset : Word16) (data : StaticData)

def readMeterSnapshot : GattReply := attrRead data.meterSnapshot len offset

def readMeterConfig : GattReply := attrRead data.meterConfig.cells len offset

def readPowerPulse : GattReply := attrRead (le32 data.powerPulse) len offset

def readAlarmStatus : GattReply := attrRead (le32 data.alarmStatus) len offset

def readLogCount : GattReply := attrRead (le16 data.logCount) len offset

def readLogLevel : GattReply := attrRead [data.logLevel] len offset

-- The read handler of a characteristic.
def readHandler : Readable → GattReply
  | .meterSnapshot => readMeterSnapshot attrRead len offset data
  | .meterConfig => readMeterConfig attrRead len offset data
  | .powerPulse => readPowerPulse attrRead len offset data
  | .alarmStatus => readAlarmStatus attrRead len offset data
  | .logCount => readLogCount attrRead len offset data
  | .logLevel => readLogLevel attrRead len offset data

end Read

section Write

variable (buf : WriteBuf) (offset : Word16) (data : StaticData)

-- Both operands of the sum are promoted to int.
def writeMeterConfig : Except Fault (Int × StaticData) :=
  if offset.setWidth 32 + buf.len.setWidth 32 > BitVec.ofNat 32 METER_CONFIG_SIZE then
    .ok (btGattErr BT_ATT_ERR_INVALID_OFFSET, data)
  else do
    let config ← data.meterConfig.copy offset.toNat (← Ptr.readRange ⟨buf.bytes, 0⟩ buf.len.toNat)
    .ok (buf.len.toNat, { data with meterConfig := config })

-- The index is read to be logged.
def writeLogFetch : Firmware Int :=
  if buf.len < 2#16 then pure (btGattErr BT_ATT_ERR_INVALID_ATTRIBUTE_LEN)
  else do
    let _ ← Prog.ofExcept (Ptr.readRange ⟨buf.bytes, 0⟩ 2)
    let _ ← btGattIndicate diagLogFetchUuid (List.replicate 20 0x00#8)
    pure buf.len.toNat

def writeLogLevel : Except Fault (Int × StaticData) :=
  if buf.len ≠ 1#16 then .ok (btGattErr BT_ATT_ERR_INVALID_ATTRIBUTE_LEN, data)
  else do
    let level ← Ptr.read ⟨buf.bytes, 0⟩ 0
    .ok (buf.len.toNat, { data with logLevel := level })

def writeClearLogs : Firmware (Int × StaticData) := do
  let _ ← btGattIndicate diagClearLogsUuid [0x00#8]
  pure (buf.len.toNat, { data with logCount := 0#16 })

-- tx_buf of the Command characteristic is not initialised.
inductive Writable
  | meterConfig
  | command (txBuf : TxBuf)
  | logFetch
  | logLevel
  | clearLogs

-- The write handler of a characteristic.
def writeHandler : Writable → Firmware (Int × StaticData)
  | .meterConfig => Prog.ofExcept (writeMeterConfig buf offset data)
  | .command txBuf => do
      let ret ← writePacket txBuf buf.bytes
      pure (ret, data)
  | .logFetch => do
      let ret ← writeLogFetch buf
      pure (ret, data)
  | .logLevel => Prog.ofExcept (writeLogLevel buf data)
  | .clearLogs => writeClearLogs buf data

end Write

section Serve

inductive GattOp
  | read (attr : Readable) (len offset : Word16)
  | write (attr : Writable) (buf : WriteBuf) (offset : Word16)

def GattOp.handle (attrRead : AttrRead) (op : GattOp) (data : StaticData) : Firmware (GattReply × StaticData) :=
  match op with
  | .read attr len offset => pure (readHandler attrRead len offset data attr, data)
  | .write attr buf offset => do
      let (ret, data) ← writeHandler buf offset data attr
      pure (⟨ret, []⟩, data)

-- One operation after another, as the Bluetooth thread handles them.
def serve (attrRead : AttrRead) : List GattOp → StaticData → Firmware (List GattReply × StaticData)
  | [], data => pure ([], data)
  | op :: rest, data => do
      let (reply, data) ← op.handle attrRead data
      let (replies, data) ← serve attrRead rest data
      pure (reply :: replies, data)

end Serve

end TJ3Firmware
