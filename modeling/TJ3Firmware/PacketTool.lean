import TJ3Firmware.Library.Hex
import TJ3Firmware.Protocol.RoundTrip

namespace TJ3Firmware

open Library.Memory Library.Hex

-- docs/sample_code/crc.py
namespace PacketTool

-- The body of the inner loop. The integers have no bound of their own.
def crc16Shift (crc : Nat) : Nat :=
  (if crc &&& 0x8000 ≠ 0 then (crc <<< 1) ^^^ 0x1021 else crc <<< 1) &&& 0xFFFF

def crc16Ccitt (data : List Byte) : Nat :=
  data.foldl (fun (crc : Nat) (byte : Byte) => crc16Shift^[8] (crc ^^^ (byte.toNat <<< 8))) 0xFFFF

-- An integer in upper-case hexadecimal, padded with zeros to a width.
def formatX (width value : Nat) : String :=
  let digits := (Nat.toDigits 16 value).map Char.toUpper
  String.ofList (List.replicate (width - digits.length) '0' ++ digits)

-- bytes.hex(' ').upper()
def upperHexSpaced (data : List Byte) : String :=
  String.ofList (List.intercalate [' '] (data.map fun byte => upperHex [byte]))

-- len(data) > 0 and data[0] == 0x02
def startsWithStx (data : List Byte) : Bool := data.head? = some 0x02#8

def calcData (data : List Byte) : List Byte := if startsWithStx data then data.tail else data

def fullPacket (data : List Byte) : List Byte :=
  let crc := crc16Ccitt (calcData data)
  (if 0 < data.length ∧ ¬startsWithStx data then [0x02#8] else []) ++ data ++
    [BitVec.ofNat 8 (crc &&& 0xFF), BitVec.ofNat 8 ((crc >>> 8) &&& 0xFF)]

-- What main prints for the arguments, one string a print.
def main (hexString : List String) : List String :=
  match fromHex ((String.join hexString).toList.filter (· ≠ ' ')) with
  | none => ["Error: Invalid hex string"]
  | some data =>
      let crc := crc16Ccitt (calcData data)
      (if startsWithStx data then
        ["Note: STX (0x02) detected at start. Skipping STX for CRC calculation."]
      else []) ++
        ["\nData: " ++ upperHexSpaced (calcData data),
          "CRC16: 0x" ++ formatX 4 crc ++ " (Little Endian: " ++ formatX 2 (crc &&& 0xFF) ++ " " ++
            formatX 2 ((crc >>> 8) &&& 0xFF) ++ ")",
          "Full Packet: " ++ String.ofList (upperHex (fullPacket data))]

end PacketTool

section Crc

open PacketTool

theorem and_top_bit_eq_zero_iff (crc : Word16) : crc.toNat &&& 0x8000 = 0 ↔ crc &&& 0x8000#16 = 0#16 := by
  rw [← BitVec.toNat_inj, BitVec.toNat_and]
  rfl

theorem crc16Shift_toNat (crc : Word16) : crc16Shift crc.toNat = (crcShift crc).toNat := by
  have hmask (value : Nat) : value &&& 0xFFFF = value % 2 ^ 16 := Nat.and_two_pow_sub_one_eq_mod value 16
  unfold crc16Shift crcShift
  rw [hmask]
  by_cases htop : crc &&& 0x8000#16 = 0#16
  · rw [if_neg (not_not.mpr ((and_top_bit_eq_zero_iff crc).mpr htop)), if_neg (not_not.mpr htop),
      BitVec.toNat_shiftLeft]
  · rw [if_pos (mt (and_top_bit_eq_zero_iff crc).mp htop), if_pos htop, BitVec.toNat_xor, BitVec.toNat_shiftLeft,
      Nat.xor_mod_two_pow]
    rfl

theorem iterate_crc16Shift (count : Nat) (crc : Word16) :
    crc16Shift^[count] crc.toNat = (crcShift^[count] crc).toNat := by
  induction count generalizing crc with
  | zero => rfl
  | succ count ih => rw [Function.iterate_succ_apply, Function.iterate_succ_apply, crc16Shift_toNat, ih]

theorem toNat_xor_byte (crc : Word16) (byte : Byte) :
    (crc ^^^ (byte.setWidth 16 <<< 8)).toNat = crc.toNat ^^^ (byte.toNat <<< 8) := by
  have hbyte := byte.isLt
  have hshift : (byte.setWidth 16 <<< 8).toNat = byte.toNat <<< 8 := by
    rw [BitVec.toNat_shiftLeft, BitVec.toNat_setWidth]
    simp only [Nat.shiftLeft_eq]
    omega
  rw [BitVec.toNat_xor, hshift]

-- The masking after each shift is the truncation to sixteen bits.
theorem crc16Ccitt_eq (data : List Byte) : crc16Ccitt data = (protocolCalculateCrc data).toNat := by
  have hfold (crc : Word16) :
      data.foldl (fun (crc : Nat) (byte : Byte) => crc16Shift^[8] (crc ^^^ (byte.toNat <<< 8))) crc.toNat =
        (data.foldl (fun (crc : Word16) (byte : Byte) => crcShift^[8] (crc ^^^ (byte.setWidth 16 <<< 8))) crc).toNat := by
    induction data generalizing crc with
    | nil => rfl
    | cons byte rest ih => rw [List.foldl_cons, List.foldl_cons, ← toNat_xor_byte, iterate_crc16Shift, ih]
  exact hfold 0xFFFF#16

end Crc

section Packet

open PacketTool

theorem ofNat_low (crc : Word16) : BitVec.ofNat 8 (crc.toNat &&& 0xFF) = lowByte crc := by
  have hmask : crc.toNat &&& 0xFF = crc.toNat % 2 ^ 8 := Nat.and_two_pow_sub_one_eq_mod _ 8
  apply BitVec.eq_of_toNat_eq
  rw [BitVec.toNat_ofNat, toNat_lowByte, hmask]
  omega

theorem ofNat_high (crc : Word16) : BitVec.ofNat 8 ((crc.toNat >>> 8) &&& 0xFF) = highByte crc := by
  have hcrc := crc.isLt
  have hmask : (crc.toNat >>> 8) &&& 0xFF = (crc.toNat >>> 8) % 2 ^ 8 := Nat.and_two_pow_sub_one_eq_mod _ 8
  apply BitVec.eq_of_toNat_eq
  rw [BitVec.toNat_ofNat, toNat_highByte, hmask, Nat.shiftRight_eq_div_pow]
  omega

-- Data that begin with 02 are taken to begin with the STX.
theorem fullPacket_stx (rest : List Byte) : fullPacket (PROTOCOL_STX :: rest) =
    PROTOCOL_STX :: (rest ++ [lowByte (protocolCalculateCrc rest), highByte (protocolCalculateCrc rest)]) := by
  have hstarts : startsWithStx (PROTOCOL_STX :: rest) = true := rfl
  simp only [fullPacket, calcData, hstarts, crc16Ccitt_eq, ofNat_low, ofNat_high]
  rfl

theorem fullPacket_body (first : Byte) (rest : List Byte) (h : first ≠ PROTOCOL_STX) :
    fullPacket (first :: rest) = PROTOCOL_STX :: (first :: rest ++
      [lowByte (protocolCalculateCrc (first :: rest)), highByte (protocolCalculateCrc (first :: rest))]) := by
  have hstarts : startsWithStx (first :: rest) = false :=
    decide_eq_false fun hstx => h (Option.some.inj hstx)
  simp only [fullPacket, calcData, hstarts, crc16Ccitt_eq, ofNat_low, ofNat_high]
  rfl

-- LEN_L is 02 for every multiple of 256.
theorem lowByte_lenVal_eq_iff (frame : Frame) :
    lowByte frame.lenVal = PROTOCOL_STX ↔ frame.payload.length % 256 = 0 := by
  have hstx : PROTOCOL_STX.toNat = 2 := rfl
  rw [← BitVec.toNat_inj, toNat_lowByte, frame.toNat_lenVal, hstx]
  omega

-- The frame body, with or without the STX before it.
def given (frame : Frame) (stx : Bool) : List Byte := if stx then PROTOCOL_STX :: frame.body else frame.body

theorem fullPacket_given_iff (frame : Frame) (stx : Bool) :
    fullPacket (given frame stx) = frame.encode ↔ stx = true ∨ frame.payload.length % 256 ≠ 0 := by
  cases stx with
  | true =>
      refine iff_of_true ?_ (Or.inl rfl)
      exact fullPacket_stx frame.body
  | false =>
      have hbody : given frame false = lowByte frame.lenVal :: frame.body.tail := rfl
      by_cases hlow : lowByte frame.lenVal = PROTOCOL_STX
      · -- the first byte of the body is left out of the checksum and no STX is added
        refine iff_of_false ?_ ?_
        · intro h
          have hlength := congrArg List.length h
          rw [hbody, hlow, fullPacket_stx, Frame.length_encode] at hlength
          simp only [List.length_cons, List.length_append, List.length_tail, List.length_nil,
            Frame.length_body] at hlength
          omega
        · have hmultiple := (lowByte_lenVal_eq_iff frame).mp hlow
          simp [hmultiple]
      · refine iff_of_true ?_ (Or.inr (mt (lowByte_lenVal_eq_iff frame).mpr hlow))
        rw [hbody, fullPacket_body _ _ hlow]
        rfl

end Packet

section Agreement

-- The last line spells these bytes as the full packet.
def PrintsPacket (printed : List String) (packet : List Byte) : Prop :=
  ∃ text, printed.getLast? = some ("Full Packet: " ++ String.ofList text) ∧ Spells text packet

-- What the tool prints is what protocol_compose produces and the parser takes.
def ToolAgrees (frame : Frame) (printed : List String) : Prop :=
  ∃ packet, composed frame.opCode frame.payload = .ok packet ∧ PrintsPacket printed packet ∧
    ∃ parsed, protocolParse packet = .ok (.ok parsed)

theorem printsPacket_main_iff (hexString : List String) (data packet : List Byte)
    (h : Spells (String.join hexString).toList data) :
    PrintsPacket (PacketTool.main hexString) packet ↔ PacketTool.fullPacket data = packet := by
  have hlast : (PacketTool.main hexString).getLast? =
      some ("Full Packet: " ++ String.ofList (upperHex (PacketTool.fullPacket data))) := by
    rw [PacketTool.main, fromHex_of_spells _ data h, List.getLast?_append]
    rfl
  rw [PrintsPacket, hlast]
  constructor
  · intro ⟨text, htext, hspells⟩
    rw [Option.some.injEq, String.append_right_inj, String.ofList_inj] at htext
    rw [← htext] at hspells
    exact (spells_upperHex _).unique hspells
  · rintro rfl
    exact ⟨_, rfl, spells_upperHex _⟩

theorem toolAgrees_iff (frame : Frame) (hexString : List String) (data : List Byte)
    (h : Spells (String.join hexString).toList data) :
    ToolAgrees frame (PacketTool.main hexString) ↔ PacketTool.fullPacket data = frame.encode := by
  constructor
  · intro ⟨packet, hcomposed, hprints, _⟩
    rw [composed_eq, Except.ok.injEq] at hcomposed
    rw [hcomposed]
    exact (printsPacket_main_iff hexString data packet h).mp hprints
  · intro hpacket
    have haccepts := frame.accepts_encode_append []
    rw [List.append_nil] at haccepts
    exact ⟨frame.encode, composed_eq frame, (printsPacket_main_iff hexString data _ h).mpr hpacket, _,
      protocolParse_of_accepts _ haccepts⟩

end Agreement

-- The tool and the firmware have one checksum. They agree on the packet unless
-- the STX is left to the tool and LEN_L, which is then the first byte, is 02.
theorem packet_tool_agrees_iff (frame : Frame) (stx : Bool) (hexString : List String)
    (hgiven : Spells (String.join hexString).toList (given frame stx)) :
    (ToolAgrees frame (PacketTool.main hexString) ↔ stx = true ∨ frame.payload.length % 256 ≠ 0) ∧
      ∀ data, PacketTool.crc16Ccitt data = (protocolCalculateCrc data).toNat := by
  refine ⟨?_, crc16Ccitt_eq⟩
  rw [toolAgrees_iff frame hexString _ hgiven]
  exact fullPacket_given_iff frame stx

section Example

-- A command without a payload.
def iorInfo : Frame := ⟨OP_BLE_GET_IOR_INFO, [], by decide⟩

theorem packet_tool_agrees_iff_stx :
    (ToolAgrees iorInfo (PacketTool.main ["02", "02 00", "66 03"]) ↔ true = true ∨ iorInfo.payload.length % 256 ≠ 0) ∧
      ∀ data, PacketTool.crc16Ccitt data = (protocolCalculateCrc data).toNat :=
  packet_tool_agrees_iff iorInfo true ["02", "02 00", "66 03"] (by decide +kernel)

-- Without its STX the tool takes LEN_L for one.
theorem packet_tool_misses_stx : ¬∀ (frame : Frame) (stx : Bool) (hexString : List String),
    Spells (String.join hexString).toList (given frame stx) → ToolAgrees frame (PacketTool.main hexString) := by
  intro h
  have hgiven : Spells (String.join ["02006603"]).toList (given iorInfo false) := by decide +kernel
  have hpacket := (toolAgrees_iff iorInfo _ _ hgiven).mp (h iorInfo false ["02006603"] hgiven)
  exact absurd hpacket (by decide +kernel)

end Example

end TJ3Firmware
