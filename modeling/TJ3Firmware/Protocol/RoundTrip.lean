import TJ3Firmware.Protocol.Compose

namespace TJ3Firmware

open Library.Memory

-- What a caller learns from a packet.
def Reports (packet : Packet) (opCode : Byte) (payload : List Byte) : Prop :=
  packet.opCode = opCode ∧ packet.payloadLen.toNat = payload.length ∧
    packet.payload.readRange packet.payloadLen.toNat = .ok payload

theorem reports_layout (stx lenL lenH opCode : Byte) (payload : List Byte) (etx crc1 crc2 : Byte)
    (rest : List Byte) (hlen : (word16 lenL lenH).toNat = payload.length + 2) :
    Reports (packetOf (layout stx lenL lenH opCode payload etx crc1 crc2 rest)) opCode payload := by
  have hlt := BitVec.isLt (word16 lenL lenH)
  refine ⟨rfl, ?_, payload_layout stx lenL lenH opCode payload etx crc1 crc2 rest hlen⟩
  rw [packetOf_layout stx lenL lenH opCode payload etx crc1 crc2 rest hlen, BitVec.toNat_ofNat]
  omega

namespace Frame

variable (frame : Frame) (rest : List Byte)

theorem encode_append_eq_layout :
    frame.encode ++ rest = layout PROTOCOL_STX (lowByte frame.lenVal) (highByte frame.lenVal) frame.opCode
      frame.payload PROTOCOL_ETX (lowByte frame.crc) (highByte frame.crc) rest := by
  simp [encode, body, layout]

theorem encodeSwapped_append_eq_layout :
    frame.encodeSwapped ++ rest = layout PROTOCOL_STX (lowByte frame.lenVal) (highByte frame.lenVal)
      frame.opCode frame.payload PROTOCOL_ETX (highByte frame.crc) (lowByte frame.crc) rest := by
  simp [encodeSwapped, body, layout]

theorem toNat_word16_lenVal :
    (word16 (lowByte frame.lenVal) (highByte frame.lenVal)).toNat = frame.payload.length + 2 := by
  rw [word16_lowByte_highByte, toNat_lenVal]

theorem lenField_encode_append : lenField (frame.encode ++ rest) = frame.payload.length + 2 := by
  rw [encode_append_eq_layout, lenField_layout, toNat_word16_lenVal]

theorem lenField_encodeSwapped_append : lenField (frame.encodeSwapped ++ rest) = frame.payload.length + 2 := by
  rw [encodeSwapped_append_eq_layout, lenField_layout, toNat_word16_lenVal]

theorem accepts_encode_append : Accepts (frame.encode ++ rest) := by
  rw [encode_append_eq_layout, accepts_layout _ _ _ _ _ _ _ _ _ frame.toNat_word16_lenVal, word16_lowByte_highByte]
  exact ⟨rfl, rfl, Or.inl rfl⟩

theorem accepts_encodeSwapped_append : Accepts (frame.encodeSwapped ++ rest) := by
  rw [encodeSwapped_append_eq_layout, accepts_layout _ _ _ _ _ _ _ _ _ frame.toNat_word16_lenVal,
    word16_lowByte_highByte]
  exact ⟨rfl, rfl, Or.inr rfl⟩

theorem reports_encode_append : Reports (packetOf (frame.encode ++ rest)) frame.opCode frame.payload := by
  rw [encode_append_eq_layout]
  exact reports_layout _ _ _ _ _ _ _ _ _ frame.toNat_word16_lenVal

theorem reports_encodeSwapped_append :
    Reports (packetOf (frame.encodeSwapped ++ rest)) frame.opCode frame.payload := by
  rw [encodeSwapped_append_eq_layout]
  exact reports_layout _ _ _ _ _ _ _ _ _ frame.toNat_word16_lenVal

-- The parser's view of a buffer with LEN >= 2 is the abstract frame at its start.
theorem accepts_iff (buf : List Byte) (hlen : 2 ≤ lenField buf) :
    Accepts buf ↔ ∃ (frame : Frame) (rest : List Byte),
      buf = frame.encode ++ rest ∨ buf = frame.encodeSwapped ++ rest := by
  constructor
  · intro h
    obtain ⟨stx, lenL, lenH, opCode, payload, etx, crc1, crc2, rest, rfl, hword⟩ :=
      exists_layout buf hlen h.complete
    obtain ⟨rfl, rfl, hcrc⟩ := (accepts_layout _ _ _ _ _ _ _ _ _ hword).mp h
    have hlt := BitVec.isLt (word16 lenL lenH)
    refine ⟨⟨opCode, payload, by omega⟩, rest, ?_⟩
    have hval : word16 lenL lenH = Frame.lenVal ⟨opCode, payload, by omega⟩ :=
      BitVec.eq_of_toNat_eq (by rw [hword, toNat_lenVal])
    rw [encode_append_eq_layout, encodeSwapped_append_eq_layout, crc, body, ← hval, lowByte_word16, highByte_word16]
    rcases hcrc with hcrc | hcrc
    · left
      rw [hcrc, lowByte_word16, highByte_word16]
    · right
      rw [hcrc, lowByte_word16, highByte_word16]
  · rintro ⟨frame, rest, rfl | rfl⟩
    · exact frame.accepts_encode_append rest
    · exact frame.accepts_encodeSwapped_append rest

end Frame

-- A composed frame followed by anything is parsed back.
theorem parse_compose_append (opCode : Byte) (arg : PayloadArg) (hlen : arg.len.toNat ≤ 65533)
    (outMax extra : Nat) (hmax : arg.len.toNat + 7 ≤ outMax) (outBuf : Store Byte (outMax + extra))
    (rest : List Byte) :
    ∃ (outBuf' : Store Byte (outMax + extra)) (packet : Packet),
      protocolCompose opCode arg.pointer arg.len outBuf outMax = .ok ((arg.len.toNat + 7 : Nat), outBuf') ∧
      protocolParse (outBuf'.cells.take (arg.len.toNat + 7) ++ rest) = .ok (.ok packet) ∧
      packet.opCode = opCode ∧ packet.payloadLen = arg.len ∧
      packet.payload.readRange packet.payloadLen.toNat = .ok arg.bytes := by
  have hcompose := compose_eq opCode arg outBuf outMax hlen hmax (Nat.le_add_right _ _)
  have htake := outBuf.take_filled (arg.frame opCode hlen).encode
    (by rw [arg.length_frame_encode]; omega) _ (arg.length_frame_encode opCode hlen).symm
  obtain ⟨hop, hcount, hread⟩ := (arg.frame opCode hlen).reports_encode_append rest
  refine ⟨_, packetOf ((arg.frame opCode hlen).encode ++ rest), hcompose, ?_, hop, ?_, hread⟩
  · rw [htake]
    exact protocolParse_of_accepts _ ((arg.frame opCode hlen).accepts_encode_append rest)
  · exact BitVec.eq_of_toNat_eq (hcount.trans arg.length_bytes)

-- An echo command with the payload STX ETX, followed by a stray STX.
theorem parse_compose_append_echo :
    ∃ (outBuf' : Store Byte 9) (packet : Packet),
      protocolCompose OP_BLE_TEST_ECHO (some ⟨[PROTOCOL_STX, PROTOCOL_ETX], 0⟩) 2#16 (Store.fresh 9 0x00#8) 9 =
        .ok ((9 : Nat), outBuf') ∧
      protocolParse (outBuf'.cells.take 9 ++ [PROTOCOL_STX]) = .ok (.ok packet) ∧
      packet.opCode = OP_BLE_TEST_ECHO ∧ packet.payloadLen = 2#16 ∧
      packet.payload.readRange packet.payloadLen.toNat = .ok [PROTOCOL_STX, PROTOCOL_ETX] :=
  parse_compose_append OP_BLE_TEST_ECHO (PayloadArg.ofBytes [PROTOCOL_STX, PROTOCOL_ETX] (by decide))
    (by decide) 9 0 (by decide) (Store.fresh 9 0x00#8) [PROTOCOL_STX]

section Grammar

-- The bytes protocol_compose leaves in a buffer of just the right size.
def composed (opCode : Byte) (payload : List Byte) : Except Fault (List Byte) := do
  let (length, outBuf) ← protocolCompose opCode (some ⟨payload, 0⟩) (BitVec.ofNat 16 payload.length)
    (Store.fresh (payload.length + 7) 0x00#8) (payload.length + 7)
  .ok (outBuf.cells.take length.toNat)

theorem composed_eq (frame : Frame) : composed frame.opCode frame.payload = .ok frame.encode := by
  have hfits := frame.fits
  have hlen : (BitVec.ofNat 16 frame.payload.length).toNat = frame.payload.length := by
    rw [BitVec.toNat_ofNat]
    omega
  have hrun := compose_eq frame.opCode (PayloadArg.ofBytes frame.payload (by omega))
    (Store.fresh (frame.payload.length + 7) 0x00#8) (frame.payload.length + 7)
    (by simp only [PayloadArg.ofBytes, hlen]; exact hfits)
    (by simp only [PayloadArg.ofBytes, hlen]; exact Nat.le_refl _) (Nat.le_refl _)
  simp only [PayloadArg.ofBytes] at hrun
  rw [composed, hrun, ok_bind]
  simp only [Int.toNat_natCast, hlen]
  exact congrArg _ ((Store.fresh (frame.payload.length + 7) 0x00#8).take_filled frame.encode (by simp) _
    frame.length_encode.symm)

-- The frame given in the comment on the echo command, 020300F0AB036BED.
example : composed OP_BLE_TEST_ECHO [0xAB#8] =
    .ok [0x02#8, 0x03#8, 0x00#8, 0xF0#8, 0xAB#8, 0x03#8, 0x6B#8, 0xED#8] := by
  decide +kernel

-- The last two bytes exchanged.
def swapCrc (frame : List Byte) : List Byte :=
  frame.take (frame.length - 2) ++ (frame.drop (frame.length - 2)).reverse

theorem swapCrc_append (front : List Byte) (crc1 crc2 : Byte) :
    swapCrc (front ++ [crc1, crc2]) = front ++ [crc2, crc1] := by
  simp [swapCrc]

theorem swapCrc_encode (frame : Frame) : swapCrc frame.encode = frame.encodeSwapped := by
  rw [Frame.encode, ← List.cons_append, swapCrc_append, List.cons_append, Frame.encodeSwapped]

theorem swapCrc_swapCrc (bytes : List Byte) (h : 2 ≤ bytes.length) : swapCrc (swapCrc bytes) = bytes := by
  obtain ⟨front, last, rfl, hfront⟩ := exists_append_of_le bytes (bytes.length - 2) (by omega)
  have hlast : last.length = 2 := by
    rw [List.length_append] at hfront h
    omega
  match last, hlast with
  | [crc1, crc2], _ => rw [swapCrc_append, swapCrc_append]

variable (buf : List Byte)

-- The op code and the payload a frame with this LEN has at its fixed places.
def opCodeField : Byte := buf.getD 3 0

def payloadField : List Byte := (buf.drop 4).take (lenField buf - 2)

theorem fields_encode_append (frame : Frame) (rest : List Byte) :
    opCodeField (frame.encode ++ rest) = frame.opCode ∧ payloadField (frame.encode ++ rest) = frame.payload ∧
      (frame.encode ++ rest).take (5 + lenField (frame.encode ++ rest)) = frame.encode := by
  refine ⟨rfl, ?_, ?_⟩
  · rw [payloadField, Frame.lenField_encode_append, Frame.encode_append_eq_layout, layout]
    simp
  · rw [Frame.lenField_encode_append]
    apply List.take_left'
    rw [Frame.length_encode]
    omega

theorem fields_encodeSwapped_append (frame : Frame) (rest : List Byte) :
    opCodeField (frame.encodeSwapped ++ rest) = frame.opCode ∧
      payloadField (frame.encodeSwapped ++ rest) = frame.payload ∧
      (frame.encodeSwapped ++ rest).take (5 + lenField (frame.encodeSwapped ++ rest)) = frame.encodeSwapped := by
  refine ⟨rfl, ?_, ?_⟩
  · rw [payloadField, Frame.lenField_encodeSwapped_append, Frame.encodeSwapped_append_eq_layout, layout]
    simp
  · rw [Frame.lenField_encodeSwapped_append]
    apply List.take_left'
    rw [Frame.length_encodeSwapped]
    omega

-- The frame with the op code and the payload at their places in the buffer.
def fieldFrame : Frame where
  opCode := opCodeField buf
  payload := payloadField buf
  fits := by
    have := lenField_lt buf
    rw [payloadField, List.length_take]
    omega

theorem parse_iff_composed (hlen : 2 ≤ lenField buf) :
    ((∃ packet, protocolParse buf = .ok (.ok packet)) ↔
      5 + lenField buf ≤ buf.length ∧
        (composed (opCodeField buf) (payloadField buf) = .ok (buf.take (5 + lenField buf)) ∨
          composed (opCodeField buf) (payloadField buf) = .ok (swapCrc (buf.take (5 + lenField buf))))) ∧
    ∀ packet, protocolParse buf = .ok (.ok packet) → Reports packet (opCodeField buf) (payloadField buf) := by
  refine ⟨⟨?_, ?_⟩, ?_⟩
  · rintro ⟨packet, hparse⟩
    have haccepts := ((protocolParse_ok_iff buf packet).mp hparse).1
    refine ⟨haccepts.complete, ?_⟩
    obtain ⟨frame, rest, rfl | rfl⟩ := (Frame.accepts_iff buf hlen).mp haccepts
    · obtain ⟨hop, hpayload, htake⟩ := fields_encode_append frame rest
      left
      rw [hop, hpayload, htake, composed_eq]
    · obtain ⟨hop, hpayload, htake⟩ := fields_encodeSwapped_append frame rest
      right
      rw [hop, hpayload, htake, composed_eq, ← swapCrc_encode, swapCrc_swapCrc _ (by simp)]
  · rintro ⟨hcomplete, hcomposed⟩
    have hframe : composed (opCodeField buf) (payloadField buf) = .ok (fieldFrame buf).encode :=
      composed_eq (fieldFrame buf)
    rw [hframe] at hcomposed
    refine ⟨packetOf buf, protocolParse_of_accepts buf ((Frame.accepts_iff buf hlen).mpr ?_)⟩
    refine ⟨fieldFrame buf, buf.drop (5 + lenField buf), ?_⟩
    rcases hcomposed with htake | htake
    · left
      rw [Except.ok.inj htake, List.take_append_drop]
    · right
      rw [← swapCrc_encode, Except.ok.inj htake, swapCrc_swapCrc _ (by rw [List.length_take]; omega),
        List.take_append_drop]
  · intro packet hparse
    obtain ⟨haccepts, rfl⟩ := (protocolParse_ok_iff buf packet).mp hparse
    obtain ⟨frame, rest, rfl | rfl⟩ := (Frame.accepts_iff buf hlen).mp haccepts
    · obtain ⟨hop, hpayload, -⟩ := fields_encode_append frame rest
      rw [hop, hpayload]
      exact frame.reports_encode_append rest
    · obtain ⟨hop, hpayload, -⟩ := fields_encodeSwapped_append frame rest
      rw [hop, hpayload]
      exact frame.reports_encodeSwapped_append rest

end Grammar

-- An echo of AB with its checksum in big-endian order and one stray byte.
theorem parse_iff_composed_swapped :
    ((∃ packet, protocolParse [0x02#8, 0x03#8, 0x00#8, 0xF0#8, 0xAB#8, 0x03#8, 0xED#8, 0x6B#8, 0x00#8] =
        .ok (.ok packet)) ↔
      5 + 3 ≤ 9 ∧
        (composed OP_BLE_TEST_ECHO [0xAB#8] =
            .ok [0x02#8, 0x03#8, 0x00#8, 0xF0#8, 0xAB#8, 0x03#8, 0xED#8, 0x6B#8] ∨
          composed OP_BLE_TEST_ECHO [0xAB#8] =
            .ok (swapCrc [0x02#8, 0x03#8, 0x00#8, 0xF0#8, 0xAB#8, 0x03#8, 0xED#8, 0x6B#8]))) ∧
    ∀ packet, protocolParse [0x02#8, 0x03#8, 0x00#8, 0xF0#8, 0xAB#8, 0x03#8, 0xED#8, 0x6B#8, 0x00#8] =
      .ok (.ok packet) → Reports packet OP_BLE_TEST_ECHO [0xAB#8] :=
  parse_iff_composed [0x02#8, 0x03#8, 0x00#8, 0xF0#8, 0xAB#8, 0x03#8, 0xED#8, 0x6B#8, 0x00#8] (by decide +kernel)

end TJ3Firmware
