import TJ3Firmware.Protocol.BurstError

namespace TJ3Firmware

open Library.Memory Library.BitPoly Library.BitError Polynomial

section Parity

variable (buf : List Byte)

theorem buffer_split (hcomplete : 5 + lenField buf ≤ buf.length) :
    buf = buf.take 1 ++ (crcRange buf ++
      ([buf.getD (3 + lenField buf) 0, buf.getD (4 + lenField buf) 0] ++ buf.drop (5 + lenField buf))) := by
  have hcrc : buf.drop (3 + lenField buf) =
      buf.getD (3 + lenField buf) 0 :: buf.getD (4 + lenField buf) 0 :: buf.drop (5 + lenField buf) := by
    rw [List.drop_eq_getElem_cons (by omega), List.drop_eq_getElem_cons (by omega),
      List.getD_eq_getElem _ _ (by omega), List.getD_eq_getElem _ _ (by omega)]
    congr 2 <;> simp only [show 3 + lenField buf + 1 = 4 + lenField buf by omega,
      show 4 + lenField buf + 1 = 5 + lenField buf by omega]
  have hrest : (buf.drop 1).drop (2 + lenField buf) = buf.drop (3 + lenField buf) := by
    rw [List.drop_drop]
    congr 1
    omega
  rw [List.cons_append, List.cons_append, List.nil_append, ← hcrc, ← hrest, crcRange,
    List.take_append_drop, List.take_append_drop]

-- LEN to CRC hold an even number of set bits in an accepted buffer, in
-- whichever order the checksum was sent.
theorem parity_of_accepts (h : Accepts buf) :
    parity buf = parity (buf.take 1) + parity (buf.drop (5 + lenField buf)) := by
  have hsum : parity (crcRange buf) =
      (poly (buf.getD (3 + lenField buf) 0)).eval 1 + (poly (buf.getD (4 + lenField buf) 0)).eval 1 := by
    rw [← eval_one_protocolCalculateCrc]
    rcases h.crc with hcrc | hcrc
    · rw [hcrc, eval_one_word16]
    · rw [hcrc, eval_one_word16, add_comm]
  have hzero := CharTwo.add_self_eq_zero (parity (crcRange buf))
  conv_lhs => rw [buffer_split buf h.complete]
  rw [parity_append, parity_append, parity_append, parity_cons, parity_cons, parity_nil, add_zero, ← hsum,
    ← add_assoc (parity (crcRange buf)), hzero, zero_add]

end Parity

section OddFlips

variable {buf : List Byte} {positions : List Nat}

-- The flipped bits lie between OP and the second checksum byte.
theorem getD_flipBits_outside
    (hp : ∀ position ∈ positions, 8 * 3 ≤ position ∧ position < 8 * (5 + lenField buf)) (index : Nat)
    (hindex : index < 3 ∨ 5 + lenField buf ≤ index) :
    (flipBits buf positions).getD index 0 = buf.getD index 0 := by
  apply getD_flipBits_of_ne
  intro position hmem
  have := hp position hmem
  omega

theorem lenField_flipBits
    (hp : ∀ position ∈ positions, 8 * 3 ≤ position ∧ position < 8 * (5 + lenField buf)) :
    lenField (flipBits buf positions) = lenField buf := by
  rw [lenField, lenField, getD_flipBits_outside hp 1 (Or.inl (by omega)),
    getD_flipBits_outside hp 2 (Or.inl (by omega))]

theorem not_accepts_flipBits (haccepts : Accepts buf)
    (hp : ∀ position ∈ positions, 8 * 3 ≤ position ∧ position < 8 * (5 + lenField buf))
    (hodd : positions.length % 2 = 1) : ¬Accepts (flipBits buf positions) := by
  intro hflipped
  have hlength : (flipBits buf positions).length = buf.length := length_flipBits buf positions
  have htake := take_eq_of_getD _ _ hlength 1 fun index hindex =>
    getD_flipBits_outside hp index (Or.inl (by omega))
  have hdrop := drop_eq_of_getD _ _ hlength (5 + lenField buf) fun index hindex =>
    getD_flipBits_outside hp index (Or.inr hindex)
  have hcomplete := haccepts.complete
  have hparity := parity_flipBits (by omega) buf positions fun position hmem => by
    have := hp position hmem
    omega
  have hnew := parity_of_accepts _ hflipped
  rw [lenField_flipBits hp, htake, hdrop, ← parity_of_accepts buf haccepts, hparity] at hnew
  have hone : (positions.length : ZMod 2) = 1 := by
    rw [← Nat.mod_add_div positions.length 2, hodd]
    push_cast
    rw [show (2 : ZMod 2) = 0 from rfl, zero_mul, add_zero]
  rw [hone, add_eq_left] at hnew
  exact one_ne_zero hnew

theorem protocolParse_flipBits (haccepts : Accepts buf)
    (hp : ∀ position ∈ positions, 8 * 3 ≤ position ∧ position < 8 * (5 + lenField buf))
    (hodd : positions.length % 2 = 1) :
    protocolParse (flipBits buf positions) = .ok (.error (-4)) ∨
      protocolParse (flipBits buf positions) = .ok (.error (-5)) := by
  have herror := protocolParse_late_error (flipBits buf positions)
    (by rw [length_flipBits]; exact haccepts.long)
    (by rw [getD_flipBits_outside hp 0 (Or.inl (by omega))]; exact haccepts.stx)
    (by rw [lenField_flipBits hp, length_flipBits]; exact haccepts.complete)
    (not_accepts_flipBits haccepts hp hodd)
  rw [herror]
  split_ifs
  · right; rfl
  · left; rfl

end OddFlips

-- Flips from OP to the second checksum byte are caught when their number is
-- odd, and no single flip anywhere changes the op code of an accepted buffer.
theorem odd_flips_rejected (buf : List Byte) (packet : Packet) (hparse : protocolParse buf = .ok (.ok packet)) :
    (∀ positions : List Nat, positions.length % 2 = 1 →
      (∀ position ∈ positions, 8 * 3 ≤ position ∧ position < 8 * (5 + lenField buf)) →
        protocolParse (flipBits buf positions) = .ok (.error (-4)) ∨
          protocolParse (flipBits buf positions) = .ok (.error (-5))) ∧
    ∀ position packet', protocolParse (flipBit buf position) = .ok (.ok packet') → packet'.opCode = packet.opCode := by
  obtain ⟨haccepts, rfl⟩ := (protocolParse_ok_iff buf packet).mp hparse
  refine ⟨fun positions hodd hp => protocolParse_flipBits haccepts hp hodd, ?_⟩
  intro position packet' hflipped
  obtain ⟨haccepts', rfl⟩ := (protocolParse_ok_iff _ packet').mp hflipped
  by_cases hop : position / 8 = 3
  · -- a flip in the op code itself is one of the odd ones
    have hbounds : ∀ other ∈ [position], 8 * 3 ≤ other ∧ other < 8 * (5 + lenField buf) := by
      intro other ho
      rw [List.mem_singleton.mp ho]
      omega
    exact absurd haccepts' (not_accepts_flipBits haccepts hbounds rfl)
  · exact getD_flipBit_of_ne buf position 3 hop

-- An echo of one byte, LEN 3, with one bit of its payload flipped.
theorem odd_flips_rejected_echo :
    (∀ positions : List Nat, positions.length % 2 = 1 →
      (∀ position ∈ positions, 8 * 3 ≤ position ∧
        position < 8 * (5 + lenField [0x02#8, 0x03#8, 0x00#8, 0xF0#8, 0xAB#8, 0x03#8, 0x6B#8, 0xED#8])) →
        protocolParse (flipBits [0x02#8, 0x03#8, 0x00#8, 0xF0#8, 0xAB#8, 0x03#8, 0x6B#8, 0xED#8] positions) =
            .ok (.error (-4)) ∨
          protocolParse (flipBits [0x02#8, 0x03#8, 0x00#8, 0xF0#8, 0xAB#8, 0x03#8, 0x6B#8, 0xED#8] positions) =
            .ok (.error (-5))) ∧
    ∀ position packet',
      protocolParse (flipBit [0x02#8, 0x03#8, 0x00#8, 0xF0#8, 0xAB#8, 0x03#8, 0x6B#8, 0xED#8] position) =
        .ok (.ok packet') → packet'.opCode = OP_BLE_TEST_ECHO :=
  odd_flips_rejected [0x02#8, 0x03#8, 0x00#8, 0xF0#8, 0xAB#8, 0x03#8, 0x6B#8, 0xED#8]
    ⟨OP_BLE_TEST_ECHO, ⟨[0x02#8, 0x03#8, 0x00#8, 0xF0#8, 0xAB#8, 0x03#8, 0x6B#8, 0xED#8], 4⟩, 1#16⟩
    (by decide +kernel)

section LenFlip

theorem bitAt_eq_getLsbD (bytes : List Byte) (position : Nat) :
    bitAt bytes position = (bytes.getD (position / 8) 0).getLsbD (8 - 1 - position % 8) := by
  rw [bitAt, BitVec.getMsbD_eq_getLsbD, decide_eq_true (Nat.mod_lt _ (by omega)), Bool.true_and]

theorem lenField_eq_bytes (buf : List Byte) :
    lenField buf = (buf.getD 1 0).toNat + 256 * (buf.getD 2 0).toNat := toNat_word16 _ _

-- Setting a bit of LEN makes it larger, clearing one makes it smaller.
theorem lenField_flipBit (buf : List Byte) (hlong : 3 ≤ buf.length) (position : Nat)
    (hlow : 8 ≤ position) (hhigh : position < 24) :
    (bitAt buf position = false → lenField buf < lenField (flipBit buf position)) ∧
      (bitAt buf position = true → lenField (flipBit buf position) < lenField buf) := by
  have hbit : 8 - 1 - position % 8 < 8 := by omega
  have hpow : 0 < 2 ^ (8 - 1 - position % 8) := Nat.two_pow_pos _
  rw [lenField_eq_bytes, lenField_eq_bytes, bitAt_eq_getLsbD]
  rcases (by omega : position / 8 = 1 ∨ position / 8 = 2) with hindex | hindex
  · rw [getD_flipBit_self buf position 1 hindex (by omega), getD_flipBit_of_ne buf position 2 (by omega), hindex]
    constructor
    · intro hclear
      have := toNat_xor_twoPow_of_clear _ _ hbit hclear
      omega
    · intro hset
      have := toNat_xor_twoPow_of_set _ _ hbit hset
      omega
  · rw [getD_flipBit_self buf position 2 hindex (by omega), getD_flipBit_of_ne buf position 1 (by omega), hindex]
    constructor
    · intro hclear
      have := toNat_xor_twoPow_of_clear _ _ hbit hclear
      omega
    · intro hset
      have := toNat_xor_twoPow_of_set _ _ hbit hset
      omega

theorem stx_flipped (buf : List Byte) (hlong : 0 < buf.length) (hstx : buf.getD 0 0 = PROTOCOL_STX)
    (position : Nat) (hp : position < 8) : (flipBit buf position).getD 0 0 ≠ PROTOCOL_STX := by
  have hbit : 8 - 1 - position % 8 < 8 := by omega
  have hpow : 0 < 2 ^ (8 - 1 - position % 8) := Nat.two_pow_pos _
  rw [getD_flipBit_self buf position 0 (by omega) hlong, hstx]
  intro h
  have hnat := congrArg BitVec.toNat h
  cases hb : PROTOCOL_STX.getLsbD (8 - 1 - position % 8) with
  | false =>
      have := toNat_xor_twoPow_of_clear _ _ hbit hb
      omega
  | true =>
      have := toNat_xor_twoPow_of_set _ _ hbit hb
      omega

-- The bytes begin with a whole frame of the same op code and a part of the
-- payload, in either order of the checksum.
def StartsShorter (frame : Frame) (bytes : List Byte) : Prop :=
  ∃ short : Frame, short.opCode = frame.opCode ∧ short.payload <+: frame.payload ∧
    short.payload.length < frame.payload.length ∧ (short.encode <+: bytes ∨ short.encodeSwapped <+: bytes)

theorem accepts_of_startsShorter (frame : Frame) (bytes : List Byte) (h : StartsShorter frame bytes) :
    Accepts bytes := by
  rcases h with ⟨short, -, -, -, hfront | hfront⟩
  · obtain ⟨rest, rfl⟩ := hfront
    exact short.accepts_encode_append rest
  · obtain ⟨rest, rfl⟩ := hfront
    exact short.accepts_encodeSwapped_append rest

namespace Frame

variable (frame : Frame)

theorem accepts_encode : Accepts frame.encode := by
  have h := frame.accepts_encode_append []
  rwa [List.append_nil] at h

theorem lenField_encode : lenField frame.encode = frame.payload.length + 2 := by
  have h := frame.lenField_encode_append []
  rwa [List.append_nil] at h

-- What follows OP in a frame starts with its payload.
theorem drop_four (short : Frame) (bytes : List Byte)
    (h : short.encode <+: bytes ∨ short.encodeSwapped <+: bytes) :
    bytes.getD 3 0 = short.opCode ∧ lenField bytes = short.payload.length + 2 ∧
      short.payload <+: bytes.drop 4 := by
  rcases h with ⟨rest, rfl⟩ | ⟨rest, rfl⟩
  · refine ⟨?_, short.lenField_encode_append rest, ?_⟩
    · rw [encode_append_eq_layout]
      rfl
    · rw [encode_append_eq_layout, layout]
      exact List.prefix_append _ _
  · refine ⟨?_, short.lenField_encodeSwapped_append rest, ?_⟩
    · rw [encodeSwapped_append_eq_layout]
      rfl
    · rw [encodeSwapped_append_eq_layout, layout]
      exact List.prefix_append _ _

end Frame

-- A flip of LEN that is accepted has made LEN smaller, and the shorter frame
-- it now announces keeps the op code and the first bytes of the payload.
theorem startsShorter_of_accepts (frame : Frame) (position : Nat) (hlow : 8 ≤ position) (hhigh : position < 24)
    (haccepts : Accepts (flipBit frame.encode position)) (hdeg : ¬DegenerateFrame (flipBit frame.encode position)) :
    bitAt frame.encode position = true ∧ StartsShorter frame (flipBit frame.encode position) := by
  have hlength := frame.length_encode
  have hchange := lenField_flipBit frame.encode (by omega) position hlow hhigh
  have hold := frame.lenField_encode
  have hcomplete := haccepts.complete
  rw [length_flipBit, hlength] at hcomplete
  have hset : bitAt frame.encode position = true := by
    cases hbit : bitAt frame.encode position with
    | true => rfl
    | false =>
        have := hchange.1 hbit
        omega
  have hsmaller := hchange.2 hset
  have hzero := lenField_ne_zero _ haccepts
  have hone : lenField (flipBit frame.encode position) ≠ 1 := fun hlen =>
    hdeg (degenerate_of_lenField_one _ haccepts hlen)
  obtain ⟨short, rest, hshort⟩ := (Frame.accepts_iff _ (by omega)).mp haccepts
  have hstart : short.encode <+: flipBit frame.encode position ∨
      short.encodeSwapped <+: flipBit frame.encode position := by
    rcases hshort with h | h
    · left; exact ⟨rest, h.symm⟩
    · right; exact ⟨rest, h.symm⟩
  obtain ⟨hop, hlen, hpayload⟩ := Frame.drop_four short _ hstart
  obtain ⟨hop', -, hpayload'⟩ := Frame.drop_four frame frame.encode (Or.inl (List.prefix_refl _))
  have hdrop : (flipBit frame.encode position).drop 4 = frame.encode.drop 4 :=
    drop_eq_of_getD _ _ (length_flipBit _ _) 4 fun index hindex => getD_flipBit_of_ne _ _ _ (by omega)
  rw [getD_flipBit_of_ne _ _ _ (by omega), hop'] at hop
  rw [hdrop] at hpayload
  exact ⟨hset, short, hop.symm, List.prefix_of_prefix_length_le hpayload hpayload' (by omega), by omega, hstart⟩

end LenFlip

-- A composed frame with one bit flipped is accepted just when the flip clears
-- a bit of LEN and the bytes now begin with a shorter frame; the parser takes
-- what follows it for trailing data. Flips that give LEN = 1 are left aside.
theorem single_flip_accepted_iff (frame : Frame) :
    ∃ bytes, composed frame.opCode frame.payload = .ok bytes ∧ bytes.length = frame.payload.length + 7 ∧
      ∀ position < 8 * bytes.length, ¬DegenerateFrame (flipBit bytes position) →
        ((∃ packet, protocolParse (flipBit bytes position) = .ok (.ok packet)) ↔
          8 ≤ position ∧ position < 24 ∧ bitAt bytes position = true ∧
            StartsShorter frame (flipBit bytes position)) := by
  refine ⟨frame.encode, composed_eq frame, frame.length_encode, ?_⟩
  intro position hposition hdeg
  have hlength := frame.length_encode
  constructor
  · rintro ⟨packet, hparse⟩
    obtain ⟨haccepts, -⟩ := (protocolParse_ok_iff _ packet).mp hparse
    have hlow : 8 ≤ position := by
      by_contra hlow
      exact stx_flipped frame.encode (by omega) frame.accepts_encode.stx position (by omega) haccepts.stx
    have hhigh : position < 24 := by
      by_contra hhigh
      have hlen := frame.lenField_encode
      have hbounds : ∀ other ∈ [position], 8 * 3 ≤ other ∧ other < 8 * (5 + lenField frame.encode) := by
        intro other ho
        rw [List.mem_singleton.mp ho]
        omega
      exact not_accepts_flipBits frame.accepts_encode hbounds rfl haccepts
    obtain ⟨hset, hshorter⟩ := startsShorter_of_accepts frame position hlow hhigh haccepts hdeg
    exact ⟨hlow, hhigh, hset, hshorter⟩
  · rintro ⟨-, -, -, hshorter⟩
    exact ⟨_, protocolParse_of_accepts _ (accepts_of_startsShorter frame _ hshorter)⟩

-- LEN = 6 becomes 2 and the payload 03 C1 A5 00 reads as ETX and checksum.
theorem single_flip_accepted :
    ¬∀ frame : Frame, ∃ bytes, composed frame.opCode frame.payload = .ok bytes ∧
      ∀ position < 8 * bytes.length, ∃ code, protocolParse (flipBit bytes position) = .ok (.error code) := by
  intro h
  have hbytes : composed 0xFA#8 [0x03#8, 0xC1#8, 0xA5#8, 0x00#8] =
      .ok [0x02#8, 0x06#8, 0x00#8, 0xFA#8, 0x03#8, 0xC1#8, 0xA5#8, 0x00#8, 0x03#8, 0x86#8, 0xEB#8] := by
    decide +kernel
  obtain ⟨bytes, hcomposed, hall⟩ := h ⟨0xFA#8, [0x03#8, 0xC1#8, 0xA5#8, 0x00#8], by decide⟩
  rw [hbytes] at hcomposed
  obtain rfl := Except.ok.inj hcomposed
  obtain ⟨code, hcode⟩ := hall 13 (by decide)
  have haccepted : protocolParse (flipBit
      [0x02#8, 0x06#8, 0x00#8, 0xFA#8, 0x03#8, 0xC1#8, 0xA5#8, 0x00#8, 0x03#8, 0x86#8, 0xEB#8] 13) =
      .ok (.ok ⟨0xFA#8, ⟨[0x02#8, 0x02#8, 0x00#8, 0xFA#8, 0x03#8, 0xC1#8, 0xA5#8, 0x00#8, 0x03#8, 0x86#8,
        0xEB#8], 4⟩, 0#16⟩) := by
    decide +kernel
  rw [haccepted] at hcode
  cases hcode

end TJ3Firmware
