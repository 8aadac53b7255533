import TJ3Firmware.Protocol.Parse

namespace TJ3Firmware

open Library.Memory

-- A frame of the universal format. OP, payload and ETX fit the 16-bit LEN field.
structure Frame where
  opCode : Byte
  payload : List Byte
  fits : payload.length ≤ 65533
  deriving DecidableEq

namespace Frame

def lenVal (frame : Frame) : Word16 := BitVec.ofNat 16 (frame.payload.length + 2)

-- From LEN_L to ETX.
def body (frame : Frame) : List Byte :=
  lowByte frame.lenVal :: highByte frame.lenVal :: frame.opCode :: (frame.payload ++ [PROTOCOL_ETX])

def crc (frame : Frame) : Word16 := protocolCalculateCrc frame.body

def encode (frame : Frame) : List Byte :=
  PROTOCOL_STX :: (frame.body ++ [lowByte frame.crc, highByte frame.crc])

-- The other byte order of the checksum.
def encodeSwapped (frame : Frame) : List Byte :=
  PROTOCOL_STX :: (frame.body ++ [highByte frame.crc, lowByte frame.crc])

@[simp] theorem length_body (frame : Frame) : frame.body.length = frame.payload.length + 4 := by
  simp [body]

@[simp] theorem length_encode (frame : Frame) : frame.encode.length = frame.payload.length + 7 := by
  simp [encode]

@[simp] theorem length_encodeSwapped (frame : Frame) :
    frame.encodeSwapped.length = frame.payload.length + 7 := by
  simp [encodeSwapped]

theorem toNat_lenVal (frame : Frame) : frame.lenVal.toNat = frame.payload.length + 2 := by
  have := frame.fits
  rw [lenVal, BitVec.toNat_ofNat]
  omega

end Frame

-- A buffer laid out as a frame, with nothing checked yet.
def layout (stx lenL lenH opCode : Byte) (payload : List Byte) (etx crc1 crc2 : Byte)
    (rest : List Byte) : List Byte :=
  stx :: lenL :: lenH :: opCode :: (payload ++ etx :: crc1 :: crc2 :: rest)

section Layout

variable (stx lenL lenH opCode : Byte) (payload : List Byte) (etx crc1 crc2 : Byte) (rest : List Byte)

@[simp] theorem length_layout :
    (layout stx lenL lenH opCode payload etx crc1 crc2 rest).length = payload.length + 7 + rest.length := by
  simp [layout]
  omega

theorem lenField_layout :
    lenField (layout stx lenL lenH opCode payload etx crc1 crc2 rest) = (word16 lenL lenH).toNat := rfl

variable (hlen : (word16 lenL lenH).toNat = payload.length + 2)

include hlen

theorem crcRange_layout :
    crcRange (layout stx lenL lenH opCode payload etx crc1 crc2 rest) =
      lenL :: lenH :: opCode :: (payload ++ [etx]) := by
  rw [crcRange, lenField_layout, hlen, layout, show 2 + (payload.length + 2) = payload.length + 1 + 3 by omega]
  simp [List.take_append, List.take_of_length_le]

theorem accepts_layout :
    Accepts (layout stx lenL lenH opCode payload etx crc1 crc2 rest) ↔
      stx = PROTOCOL_STX ∧ etx = PROTOCOL_ETX ∧
        (protocolCalculateCrc (lenL :: lenH :: opCode :: (payload ++ [etx])) = word16 crc1 crc2 ∨
          protocolCalculateCrc (lenL :: lenH :: opCode :: (payload ++ [etx])) = word16 crc2 crc1) := by
  have hfield := lenField_layout stx lenL lenH opCode payload etx crc1 crc2 rest
  rw [hlen] at hfield
  have hget : ∀ i, (layout stx lenL lenH opCode payload etx crc1 crc2 rest).getD (payload.length + 4 + i) 0 =
      (etx :: crc1 :: crc2 :: rest).getD i 0 := by
    intro i
    rw [layout, show payload.length + 4 + i = payload.length + i + 1 + 1 + 1 + 1 by omega]
    simp only [List.getD_cons_succ]
    rw [List.getD_append_right _ _ _ _ (by omega), Nat.add_sub_cancel_left]
  have hlong : 7 ≤ (layout stx lenL lenH opCode payload etx crc1 crc2 rest).length := by
    rw [length_layout]
    omega
  have hcomplete : 5 + (payload.length + 2) ≤
      (layout stx lenL lenH opCode payload etx crc1 crc2 rest).length := by
    rw [length_layout]
    omega
  have hetx : 2 + (payload.length + 2) = payload.length + 4 + 0 := by omega
  have hcrc1 : 3 + (payload.length + 2) = payload.length + 4 + 1 := by omega
  have hcrc2 : 4 + (payload.length + 2) = payload.length + 4 + 2 := by omega
  have hmatch : CrcMatches (layout stx lenL lenH opCode payload etx crc1 crc2 rest) ↔
      (protocolCalculateCrc (lenL :: lenH :: opCode :: (payload ++ [etx])) = word16 crc1 crc2 ∨
        protocolCalculateCrc (lenL :: lenH :: opCode :: (payload ++ [etx])) = word16 crc2 crc1) := by
    rw [CrcMatches, crcRange_layout stx lenL lenH opCode payload etx crc1 crc2 rest hlen, hfield, hcrc1, hcrc2,
      hget, hget]
    rfl
  constructor
  · intro h
    have he := h.etx
    rw [hfield, hetx, hget] at he
    exact ⟨h.stx, he, hmatch.mp h.crc⟩
  · rintro ⟨hstx, he, hcrc⟩
    refine ⟨hlong, hstx, ?_, ?_, hmatch.mpr hcrc⟩
    · rw [hfield]
      exact hcomplete
    · rw [hfield, hetx, hget]
      exact he

theorem packetOf_layout :
    packetOf (layout stx lenL lenH opCode payload etx crc1 crc2 rest) =
      { opCode := opCode, payload := ⟨layout stx lenL lenH opCode payload etx crc1 crc2 rest, 4⟩,
        payloadLen := BitVec.ofNat 16 payload.length } := by
  have hlt := BitVec.isLt (word16 lenL lenH)
  rw [packetOf, lenField_layout, hlen]
  congr 1
  apply BitVec.eq_of_toNat_eq
  rw [BitVec.toNat_sub]
  simp only [BitVec.toNat_ofNat]
  omega

-- The bytes a caller reads through the packet.
theorem payload_layout :
    (packetOf (layout stx lenL lenH opCode payload etx crc1 crc2 rest)).payload.readRange
      (packetOf (layout stx lenL lenH opCode payload etx crc1 crc2 rest)).payloadLen.toNat = .ok payload := by
  have hlt := BitVec.isLt (word16 lenL lenH)
  have hsize : payload.length < 65536 := by omega
  rw [packetOf_layout stx lenL lenH opCode payload etx crc1 crc2 rest hlen]
  simp only [BitVec.toNat_ofNat, Nat.mod_eq_of_lt hsize]
  rw [Ptr.readRange_eq _ _ _ (by rw [length_layout]; omega)]
  simp [layout]

end Layout

-- Every buffer long enough for its LEN >= 2 is laid out as a frame.
theorem exists_layout (buf : List Byte) (hlen : 2 ≤ lenField buf) (hcomplete : 5 + lenField buf ≤ buf.length) :
    ∃ stx lenL lenH opCode payload etx crc1 crc2 rest,
      buf = layout stx lenL lenH opCode payload etx crc1 crc2 rest ∧
        (word16 lenL lenH).toNat = payload.length + 2 := by
  obtain ⟨front, tail, rfl, hfront⟩ := exists_append_of_le buf 4 (by omega)
  match front, hfront with
  | [stx, lenL, lenH, opCode], _ =>
      simp only [List.cons_append, List.nil_append, lenField_cons, List.length_cons] at hlen hcomplete
      obtain ⟨payload, after, rfl, hpayload⟩ :=
        exists_append_of_le tail (lenL.toNat + 256 * lenH.toNat - 2) (by omega)
      rw [List.length_append] at hcomplete
      obtain ⟨last, rest, rfl, hlast⟩ := exists_append_of_le after 3 (by omega)
      match last, hlast with
      | [etx, crc1, crc2], _ =>
          have hword : (word16 lenL lenH).toNat = payload.length + 2 := by
            rw [toNat_word16]
            omega
          exact ⟨stx, lenL, lenH, opCode, payload, etx, crc1, crc2, rest, rfl, hword⟩

end TJ3Firmware
