import TJ3Firmware.FsHandler

namespace TJ3Firmware

open Library.Memory Library.Interaction

-- BT_UUID_ENERGY_CMD_VAL
def energyCmdUuid : BitVec 128 := 0x4d6f8c034b9a4c1b9a61112233445500#128

abbrev TxBuf := Store Byte MAX_PAYLOAD_SIZE

def dummyPayload : List Byte := [0x00#8, 0x01#8, 0x02#8, 0x03#8]

-- A response of one byte: 0x00 success, 0xFF fail.
def statusByte (rc : Int) : Byte := if rc = 0 then 0x00#8 else 0xFF#8

-- protocol_compose into tx_buf with sizeof(tx_buf).
def composeTx (opCode : Byte) (payload : Option (Ptr Byte)) (payloadLen : Word16) (txBuf : TxBuf) :
    Firmware (Int × TxBuf) :=
  Prog.ofExcept (protocolCompose opCode payload payloadLen txBuf MAX_PAYLOAD_SIZE)

-- The switch of protocol_handler.
def dispatch (packet : Packet) (txBuf : TxBuf) : Firmware (Int × TxBuf) :=
  let opCode := packet.opCode
  if opCode = OP_BLE_TEST_ECHO then do
    -- every payload byte is logged before it is echoed
    let _ ← Prog.ofExcept (packet.payload.readRange packet.payloadLen.toNat)
    composeTx opCode (some packet.payload) packet.payloadLen txBuf
  else if opCode = OP_BLE_TEST_FLASH then do
    let ret ← fsHandlerTest
    composeTx opCode (some ⟨[statusByte ret], 0⟩) 1#16 txBuf
  else if opCode = OP_BLE_GET_IOR_INFO then composeTx opCode (some ⟨dummyPayload, 0⟩) 4#16 txBuf
  else if opCode = OP_BLE_GET_REALTIME_CURR then composeTx opCode (some ⟨dummyPayload, 0⟩) 4#16 txBuf
  else if opCode = OP_BLE_FS_FAST_FORMAT then do
    let rc ← fsHandlerFastFormat
    composeTx opCode (some ⟨[statusByte rc], 0⟩) 1#16 txBuf
  else if opCode = OP_BLE_FS_LOW_LEVEL_FORMAT then do
    let rc ← fsHandlerLowLevelFormat
    composeTx opCode (some ⟨[statusByte rc], 0⟩) 1#16 txBuf
  else composeTx opCode none 0#16 txBuf

-- tx_buf is not initialised: what it holds on entry is an argument.
def protocolHandler (txBuf : TxBuf) (packet : Packet) : Firmware Unit := do
  let (txLen, txBuf) ← dispatch packet txBuf
  if txLen > 0 then do
    let data ← Prog.ofExcept (Ptr.readRange ⟨txBuf.cells, 0⟩ txLen.toNat)
    let _ ← btGattIndicate energyCmdUuid data
    pure ()
  else pure ()

-- packet.payload_len > 0 && packet.payload[0] == 0x01
def ledRequested (packet : Packet) : Except Fault Bool :=
  if packet.payloadLen.toNat > 0 then do
    let first ← packet.payload.read 0
    .ok (first = 0x01#8)
  else .ok false

-- The switch of write_packet.
def handleLogic (txBuf : TxBuf) (packet : Packet) : Firmware Unit :=
  if packet.opCode = 0x01#8 then do
    -- the old LED toggle
    let requested ← Prog.ofExcept (ledRequested packet)
    if requested then ledOn else ledOff
  else protocolHandler txBuf packet

-- The Command characteristic. The return value is len whatever happened.
def writePacket (txBuf : TxBuf) (buf : List Byte) : Firmware Nat := do
  let parsed ← Prog.ofExcept (protocolParse buf)
  match parsed with
  | .ok packet => do
      handleLogic txBuf packet
      pure buf.length
  | .error _ => pure buf.length

end TJ3Firmware
