import TJ3Firmware.Protocol.Crc

namespace TJ3Firmware

open Library.Memory

-- LEN, the little-endian value of buf[1..2].
def lenField (buf : List Byte) : Nat := (word16 (buf.getD 1 0) (buf.getD 2 0)).toNat

-- The bytes under the checksum, from LEN_L to ETX.
def crcRange (buf : List Byte) : List Byte := (buf.drop 1).take (2 + lenField buf)

def CrcMatches (buf : List Byte) : Prop :=
  protocolCalculateCrc (crcRange buf) =
      word16 (buf.getD (3 + lenField buf) 0) (buf.getD (4 + lenField buf) 0) ∨
    protocolCalculateCrc (crcRange buf) =
      word16 (buf.getD (4 + lenField buf) 0) (buf.getD (3 + lenField buf) 0)

instance (buf : List Byte) : Decidable (CrcMatches buf) := inferInstanceAs (Decidable (_ ∨ _))

-- What the packet holds after an accepting run.
def packetOf (buf : List Byte) : Packet where
  opCode := buf.getD 3 0
  payload := ⟨buf, 4⟩
  payloadLen := BitVec.ofNat 16 (lenField buf) - 2#16

-- The parser reads inside the buffer only, and its result is a chain of tests.
theorem protocolParse_eq (buf : List Byte) :
    protocolParse buf = .ok (
      if buf.length < 7 then .error (-1)
      else if buf.getD 0 0 ≠ PROTOCOL_STX then .error (-2)
      else if buf.length < 5 + lenField buf then .error (-3)
      else if buf.getD (2 + lenField buf) 0 ≠ PROTOCOL_ETX then .error (-4)
      else if ¬CrcMatches buf then .error (-5)
      else .ok (packetOf buf)) := by
  unfold protocolParse PROTOCOL_OVERHEAD
  by_cases hshort : buf.length < 7
  · rw [if_pos hshort, if_pos hshort]
  rw [if_neg hshort, if_neg hshort, Ptr.read_eq_getD buf 0 0 0 (by omega), ok_bind]
  by_cases hstx : buf.getD 0 0 ≠ PROTOCOL_STX
  · rw [if_pos hstx, if_pos hstx]
  rw [if_neg hstx, if_neg hstx, Ptr.read_eq_getD buf 0 1 0 (by omega), ok_bind,
    Ptr.read_eq_getD buf 0 2 0 (by omega), ok_bind]
  have hlen : (word16 (buf.getD 1 0) (buf.getD 2 0)).toNat = lenField buf := rfl
  simp only [Nat.zero_add, hlen]
  by_cases hinc : buf.length < 5 + lenField buf
  · rw [if_pos (by omega), if_pos hinc]
  have hetxIndex : 1 + 2 + lenField buf - 1 = 2 + lenField buf := by omega
  rw [if_neg (by omega), if_neg hinc, hetxIndex, Ptr.read_eq_getD buf 0 _ 0 (by omega), ok_bind, Nat.zero_add]
  by_cases hetx : buf.getD (2 + lenField buf) 0 ≠ PROTOCOL_ETX
  · rw [if_pos hetx, if_pos hetx]
  have hcrc1 : 1 + 2 + lenField buf + 2 - 2 = 3 + lenField buf := by omega
  have hcrc2 : 1 + 2 + lenField buf + 2 - 1 = 4 + lenField buf := by omega
  rw [if_neg hetx, if_neg hetx, Ptr.readRange_eq _ _ _ (by omega), ok_bind, hcrc1, hcrc2,
    Ptr.read_eq_getD buf 0 (3 + lenField buf) 0 (by omega), ok_bind,
    Ptr.read_eq_getD buf 0 (4 + lenField buf) 0 (by omega), ok_bind, ← crcRange]
  simp only [Nat.zero_add]
  by_cases hcrc : CrcMatches buf
  · rw [if_neg (by unfold CrcMatches at hcrc; tauto), if_neg (not_not.mpr hcrc),
      Ptr.read_eq_getD buf 0 3 0 (by omega), ok_bind, packetOf, lenField, BitVec.ofNat_toNat, BitVec.setWidth_eq]
  · rw [if_pos (by unfold CrcMatches at hcrc; tauto), if_pos hcrc]

-- What an accepting run has checked.
structure Accepts (buf : List Byte) : Prop where
  long : 7 ≤ buf.length
  stx : buf.getD 0 0 = PROTOCOL_STX
  complete : 5 + lenField buf ≤ buf.length
  etx : buf.getD (2 + lenField buf) 0 = PROTOCOL_ETX
  crc : CrcMatches buf

theorem protocolParse_ok_iff (buf : List Byte) (packet : Packet) :
    protocolParse buf = .ok (.ok packet) ↔ Accepts buf ∧ packet = packetOf buf := by
  rw [protocolParse_eq]
  constructor
  · intro h
    have hinner := Except.ok.inj h
    split at hinner
    · cases hinner
    split at hinner
    · cases hinner
    split at hinner
    · cases hinner
    split at hinner
    · cases hinner
    split at hinner
    · cases hinner
    · rename_i hlong hstx hcomplete hetx hcrc
      exact ⟨⟨by omega, not_not.mp hstx, by omega, not_not.mp hetx, not_not.mp hcrc⟩,
        (Except.ok.inj hinner).symm⟩
  · rintro ⟨⟨hlong, hstx, hcomplete, hetx, hcrc⟩, rfl⟩
    rw [if_neg (by omega), if_neg (not_not.mpr hstx), if_neg (by omega), if_neg (not_not.mpr hetx),
      if_neg (not_not.mpr hcrc)]

theorem protocolParse_of_accepts (buf : List Byte) (h : Accepts buf) :
    protocolParse buf = .ok (.ok (packetOf buf)) :=
  (protocolParse_ok_iff buf _).mpr ⟨h, rfl⟩

-- A buffer is either accepted or rejected with a code from -5 to -1.
theorem protocolParse_error_of_not_accepts (buf : List Byte) (h : ¬Accepts buf) :
    ∃ code : Int, protocolParse buf = .ok (.error code) ∧ -5 ≤ code ∧ code ≤ -1 := by
  cases hr : protocolParse buf with
  | error fault =>
      rw [protocolParse_eq] at hr
      cases hr
  | ok result =>
      cases result with
      | ok packet => exact absurd ((protocolParse_ok_iff buf packet).mp hr).1 h
      | error code =>
          refine ⟨code, rfl, ?_⟩
          rw [protocolParse_eq] at hr
          have hinner := Except.ok.inj hr
          split_ifs at hinner <;> cases hinner <;> decide

-- A complete buffer is only turned down for its ETX or its checksum.
theorem protocolParse_late_error (buf : List Byte) (hlong : 7 ≤ buf.length)
    (hstx : buf.getD 0 0 = PROTOCOL_STX) (hcomplete : 5 + lenField buf ≤ buf.length) (h : ¬Accepts buf) :
    protocolParse buf = .ok (.error (if buf.getD (2 + lenField buf) 0 = PROTOCOL_ETX then -5 else -4)) := by
  rw [protocolParse_eq, if_neg (by omega), if_neg (not_not.mpr hstx), if_neg (by omega)]
  by_cases hetx : buf.getD (2 + lenField buf) 0 = PROTOCOL_ETX
  · rw [if_neg (not_not.mpr hetx), if_pos hetx, if_pos fun hcrc => h ⟨hlong, hstx, hcomplete, hetx, hcrc⟩]
  · rw [if_pos hetx, if_neg hetx]

theorem lenField_lt (buf : List Byte) : lenField buf < 65536 := BitVec.isLt _

-- LEN = 0 puts the expected ETX on LEN_H, which is then 0.
theorem lenField_ne_zero (buf : List Byte) (h : Accepts buf) : lenField buf ≠ 0 := by
  intro hzero
  have hetx := h.etx
  rw [hzero] at hetx
  rw [lenField, toNat_word16, hetx, PROTOCOL_ETX] at hzero
  simp at hzero

theorem payloadLen_of_two_le (buf : List Byte) (h : 2 ≤ lenField buf) :
    (packetOf buf).payloadLen.toNat = lenField buf - 2 := by
  have hlt := lenField_lt buf
  rw [packetOf, BitVec.toNat_sub, BitVec.toNat_ofNat]
  simp only [BitVec.toNat_ofNat]
  omega

section Window

-- The reported payload window lies between the op code and the ETX of the
-- validated frame. The lengths are compared as integers.
def WindowInside (buf : List Byte) (packet : Packet) : Prop :=
  packet.payloadLen.toNat + 2 = lenField buf ∧ packet.payload = ⟨buf, 4⟩ ∧
    4 + packet.payloadLen.toNat + 1 + 2 = 5 + lenField buf ∧ 5 + lenField buf ≤ buf.length

-- LEN = 1: the op code position holds the ETX, and no room is left for an op
-- code of its own. Its checksum over 01 00 03 is 0xCBCF.
def DegenerateFrame (buf : List Byte) : Prop :=
  7 ≤ buf.length ∧ (buf.take 6 = [0x02#8, 0x01#8, 0x00#8, 0x03#8, 0xCF#8, 0xCB#8] ∨
    buf.take 6 = [0x02#8, 0x01#8, 0x00#8, 0x03#8, 0xCB#8, 0xCF#8])

theorem exists_append_of_le (values : List Byte) (count : Nat) (h : count ≤ values.length) :
    ∃ front rest, values = front ++ rest ∧ front.length = count :=
  ⟨values.take count, values.drop count, (List.take_append_drop count values).symm, by simp [h]⟩

theorem exists_cons_six (buf : List Byte) (h : 7 ≤ buf.length) :
    ∃ b0 b1 b2 b3 b4 b5 rest, buf = b0 :: b1 :: b2 :: b3 :: b4 :: b5 :: rest ∧ rest ≠ [] := by
  obtain ⟨front, rest, rfl, hfront⟩ := exists_append_of_le buf 6 (by omega)
  match front, hfront with
  | [b0, b1, b2, b3, b4, b5], _ =>
      refine ⟨b0, b1, b2, b3, b4, b5, rest, rfl, ?_⟩
      rintro rfl
      simp at h

theorem crc_degenerate : protocolCalculateCrc [0x01#8, 0x00#8, 0x03#8] = word16 0xCF#8 0xCB#8 := by
  decide +kernel

theorem lenField_cons (b0 b1 b2 : Byte) (rest : List Byte) :
    lenField (b0 :: b1 :: b2 :: rest) = b1.toNat + 256 * b2.toNat := by
  simp [lenField, toNat_word16]

theorem degenerate_of_lenField_one (buf : List Byte) (h : Accepts buf) (hlen : lenField buf = 1) :
    DegenerateFrame buf := by
  obtain ⟨b0, b1, b2, b3, b4, b5, rest, rfl, -⟩ := exists_cons_six buf h.long
  have hfield := hlen
  rw [lenField_cons] at hfield
  have h1 : b1 = 0x01#8 := BitVec.eq_of_toNat_eq (by simp only [BitVec.toNat_ofNat]; omega)
  have h2 : b2 = 0x00#8 := BitVec.eq_of_toNat_eq (by simp only [BitVec.toNat_ofNat]; omega)
  have h0 : b0 = 0x02#8 := h.stx
  have h3 := h.etx
  rw [hlen] at h3
  change b3 = 0x03#8 at h3
  have hcrc := h.crc
  subst h0 h1 h2 h3
  simp only [CrcMatches, crcRange, hlen] at hcrc
  simp only [List.drop_succ_cons, List.drop_zero, List.take_succ_cons, List.take_zero,
    List.getD_cons_succ, List.getD_cons_zero, crc_degenerate, word16_inj] at hcrc
  refine ⟨h.long, ?_⟩
  rcases hcrc with ⟨rfl, rfl⟩ | ⟨rfl, rfl⟩
  · left; rfl
  · right; rfl

theorem accepts_of_degenerate (buf : List Byte) (h : DegenerateFrame buf) :
    Accepts buf ∧ lenField buf = 1 := by
  obtain ⟨hlong, htake⟩ := h
  obtain ⟨b0, b1, b2, b3, b4, b5, rest, rfl, -⟩ := exists_cons_six buf hlong
  have hlen : lenField (0x02#8 :: 0x01#8 :: 0x00#8 :: b3 :: b4 :: b5 :: rest) = 1 := by
    rw [lenField_cons]; rfl
  rcases htake with htake | htake <;>
    simp only [List.take_succ_cons, List.take_zero, List.cons.injEq] at htake <;>
    obtain ⟨rfl, rfl, rfl, rfl, rfl, rfl, -⟩ := htake <;>
    refine ⟨⟨hlong, rfl, by omega, ?_, ?_⟩, hlen⟩ <;>
    simp [CrcMatches, crcRange, hlen, PROTOCOL_ETX, crc_degenerate]

-- The window is right on every accepted buffer except those with LEN = 1.
theorem parse_window_inside_iff (buf : List Byte) :
    (∀ packet, protocolParse buf = .ok (.ok packet) → WindowInside buf packet) ↔
      ¬DegenerateFrame buf := by
  constructor
  · intro h hdeg
    obtain ⟨haccepts, hlen⟩ := accepts_of_degenerate buf hdeg
    have hwindow := (h _ (protocolParse_of_accepts buf haccepts)).1
    omega
  · intro hdeg packet hparse
    obtain ⟨haccepts, rfl⟩ := (protocolParse_ok_iff buf packet).mp hparse
    have hzero := lenField_ne_zero buf haccepts
    have hone : lenField buf ≠ 1 := fun hlen => hdeg (degenerate_of_lenField_one buf haccepts hlen)
    have hpayload := payloadLen_of_two_le buf (by omega)
    refine ⟨by omega, rfl, by omega, haccepts.complete⟩

theorem degenerate_window_wraps :
    ¬∀ (buf : List Byte) (packet : Packet), protocolParse buf = .ok (.ok packet) →
      WindowInside buf packet := by
  intro h
  have hparse : protocolParse [0x02#8, 0x01#8, 0x00#8, 0x03#8, 0xCF#8, 0xCB#8, 0x00#8] =
      .ok (.ok ⟨0x03#8, ⟨[0x02#8, 0x01#8, 0x00#8, 0x03#8, 0xCF#8, 0xCB#8, 0x00#8], 4⟩, 0xFFFF#16⟩) := by
    decide +kernel
  have hwindow := (h _ _ hparse).1
  revert hwindow
  decide

end Window

end TJ3Firmware
