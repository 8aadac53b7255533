import TJ3Firmware.Library.Memory

namespace TJ3Firmware

open Library.Memory

abbrev Byte := BitVec 8

abbrev Word16 := BitVec 16

def PROTOCOL_STX : Byte := 0x02#8

def PROTOCOL_ETX : Byte := 0x03#8

def OP_BLE_GET_IOR_INFO : Byte := 0x66#8

def OP_BLE_GET_REALTIME_CURR : Byte := 0xF6#8

def OP_BLE_TEST_ECHO : Byte := 0xF0#8

def OP_BLE_TEST_FLASH : Byte := 0xF1#8

def OP_BLE_FS_FAST_FORMAT : Byte := 0xFA#8

def OP_BLE_FS_LOW_LEVEL_FORMAT : Byte := 0xFB#8

def OP_EXT_LOG_OUTPUT : Byte := 0xC0#8

def PROTOCOL_OVERHEAD : Nat := 7

def MAX_PAYLOAD_SIZE : Nat := 240

def lowByte (word : Word16) : Byte := (word &&& 0xFF#16).setWidth 8

def highByte (word : Word16) : Byte := ((word >>> 8) &&& 0xFF#16).setWidth 8

-- low | (high << 8)
def word16 (low high : Byte) : Word16 := low.setWidth 16 ||| (high.setWidth 16 <<< 8)

-- protocol_packet_t. The payload points into the parsed buffer.
structure Packet where
  opCode : Byte
  payload : Ptr Byte
  payloadLen : Word16
  deriving Repr, DecidableEq

-- The body of the inner loop of protocol_calculate_crc.
def crcShift (crc : Word16) : Word16 :=
  if crc &&& 0x8000#16 ≠ 0#16 then (crc <<< 1) ^^^ 0x1021#16 else crc <<< 1

def protocolCalculateCrc (data : List Byte) : Word16 :=
  data.foldl (fun (crc : Word16) (byte : Byte) => crcShift^[8] (crc ^^^ (byte.setWidth 16 <<< 8))) 0xFFFF#16

-- The outer result is an access outside the buffer, the inner one the return
-- code of a rejection or the packet filled in on return 0.
def protocolParse (buf : List Byte) : Except Fault (Except Int Packet) :=
  if buf.length < PROTOCOL_OVERHEAD then .ok (.error (-1))
  else do
    let start ← Ptr.read ⟨buf, 0⟩ 0
    if start ≠ PROTOCOL_STX then .ok (.error (-2))
    else do
      let packetLen := word16 (← Ptr.read ⟨buf, 0⟩ 1) (← Ptr.read ⟨buf, 0⟩ 2)
      let expectedTotalLen := 1 + 2 + packetLen.toNat + 2
      if buf.length < expectedTotalLen then .ok (.error (-3))
      else do
        let etxReceived ← Ptr.read ⟨buf, 0⟩ (1 + 2 + packetLen.toNat - 1)
        if etxReceived ≠ PROTOCOL_ETX then .ok (.error (-4))
        else do
          let crcCalcLen := 2 + packetLen.toNat
          let calculatedCrc := protocolCalculateCrc (← Ptr.readRange ⟨buf, 1⟩ crcCalcLen)
          let crc1 ← Ptr.read ⟨buf, 0⟩ (expectedTotalLen - 2)
          let crc2 ← Ptr.read ⟨buf, 0⟩ (expectedTotalLen - 1)
          -- little endian first, then big endian "just in case"
          if calculatedCrc ≠ word16 crc1 crc2 ∧ calculatedCrc ≠ word16 crc2 crc1 then .ok (.error (-5))
          else do
            let opCode ← Ptr.read ⟨buf, 0⟩ 3
            .ok (.ok { opCode := opCode, payload := ⟨buf, 4⟩, payloadLen := packetLen - 2#16 })

-- uint16_t len_val = 1 + payload_len + 1: the sum is reduced modulo 2^16.
def composeLen (payloadLen : Word16) : Word16 := 1#16 + payloadLen + 1#16

-- The memcpy of protocol_compose, skipped for a NULL or empty payload. Returns
-- the advanced index.
def copyPayload {size : Nat} (payload : Option (Ptr Byte)) (payloadLen : Word16)
    (outBuf : Store Byte size) (idx : Nat) : Except Fault (Nat × Store Byte size) :=
  match payload with
  | none => .ok (idx, outBuf)
  | some source =>
      if payloadLen.toNat > 0 then do
        let outBuf ← outBuf.copy idx (← source.readRange payloadLen.toNat)
        .ok (idx + payloadLen.toNat, outBuf)
      else .ok (idx, outBuf)

def protocolCompose {size : Nat} (opCode : Byte) (payload : Option (Ptr Byte)) (payloadLen : Word16)
    (outBuf : Store Byte size) (outMax : Nat) : Except Fault (Int × Store Byte size) :=
  let lenVal := composeLen payloadLen
  let totalSize := 1 + 2 + lenVal.toNat + 2
  if outMax < totalSize then .ok (-1, outBuf)
  else do
    let outBuf ← outBuf.write 0 PROTOCOL_STX
    let outBuf ← outBuf.write 1 (lowByte lenVal)
    let outBuf ← outBuf.write 2 (highByte lenVal)
    let outBuf ← outBuf.write 3 opCode
    let (idx, outBuf) ← copyPayload payload payloadLen outBuf 4
    let outBuf ← outBuf.write idx PROTOCOL_ETX
    let crc := protocolCalculateCrc (← Ptr.readRange ⟨outBuf.cells, 1⟩ (2 + lenVal.toNat))
    let outBuf ← outBuf.write (idx + 1) (lowByte crc)
    let outBuf ← outBuf.write (idx + 2) (highByte crc)
    .ok (totalSize, outBuf)

end TJ3Firmware
