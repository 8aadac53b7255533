import TJ3Firmware.Protocol

namespace TJ3Firmware

open Library.Memory

abbrev LogBuf := Store Byte 256

-- The static buffers of ext_comm.c and the bytes sent on uart30 so far.
structure LogBackend where
  logBuf : LogBuf
  protocolBuf : Store Byte 300
  uart : List Byte

-- The loop of buf_char_out. A full buffer drops the byte.
def storeChars : List Byte → Nat → LogBuf → Except Fault (Nat × LogBuf)
  | [], idx, logBuf => .ok (idx, logBuf)
  | char :: rest, idx, logBuf =>
      if idx < 256 - 1 then do
        let logBuf ← logBuf.write idx char
        storeChars rest (idx + 1) logBuf
      else storeChars rest idx logBuf

-- The length is returned as an int whether or not the bytes were kept. An
-- object is smaller than 2^31 bytes, so the conversion does not change it.
def bufCharOut (data : List Byte) (idx : Nat) (logBuf : LogBuf) : Except Fault (Int × Nat × LogBuf) := do
  let (idx, logBuf) ← storeChars data idx logBuf
  .ok (data.length, idx, logBuf)

-- A formatted message and the sizes of the pieces it is offered in, which
-- together are large enough for all of it.
structure LogMessage where
  text : List Byte
  chunks : List Nat
  covers : text.length ≤ chunks.sum

-- What log_output_msg_process does to its callback: the text is offered in
-- order, and the value the callback returns is the number of bytes consumed.
def logOutputMsgProcess : List Byte → List Nat → Nat → LogBuf → Except Fault (Nat × LogBuf)
  | _, [], idx, logBuf => .ok (idx, logBuf)
  | text, size :: sizes, idx, logBuf => do
      let (consumed, idx, logBuf) ← bufCharOut (text.take size) idx logBuf
      logOutputMsgProcess (text.drop consumed.toNat) sizes idx logBuf

def process (ready : Bool) (backend : LogBackend) (msg : LogMessage) : Except Fault LogBackend :=
  if !ready then .ok backend
  else do
    let (len, logBuf) ← logOutputMsgProcess msg.text msg.chunks 0 backend.logBuf
    if len > 0 then do
      let logBuf ← logBuf.write len 0x00#8
      let (packetLen, protocolBuf) ←
        protocolCompose OP_EXT_LOG_OUTPUT (some ⟨logBuf.cells, 0⟩) (BitVec.ofNat 16 len) backend.protocolBuf 300
      if packetLen > 0 then do
        -- uart_poll_out, byte by byte
        let sent ← Ptr.readRange ⟨protocolBuf.cells, 0⟩ packetLen.toNat
        .ok { logBuf := logBuf, protocolBuf := protocolBuf, uart := backend.uart ++ sent }
      else .ok { logBuf := logBuf, protocolBuf := protocolBuf, uart := backend.uart }
    else .ok { backend with logBuf := logBuf }

end TJ3Firmware
