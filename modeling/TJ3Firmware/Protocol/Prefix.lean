import TJ3Firmware.Protocol.Parse

namespace TJ3Firmware

open Library.Memory

section Append

variable (buf more : List Byte)

-- LEN is settled once its two bytes are there.
theorem lenField_append (h : 3 ≤ buf.length) : lenField (buf ++ more) = lenField buf := by
  rw [lenField, List.getD_append buf more 0 1 (by omega), List.getD_append buf more 0 2 (by omega), ← lenField]

theorem crcRange_append (h : 5 + lenField buf ≤ buf.length) : crcRange (buf ++ more) = crcRange buf := by
  rw [crcRange, lenField_append buf more (by omega), List.drop_append_of_le_length (by omega),
    List.take_append_of_le_length (by rw [List.length_drop]; omega), ← crcRange]

theorem crcMatches_append (h : 5 + lenField buf ≤ buf.length) : CrcMatches (buf ++ more) ↔ CrcMatches buf := by
  rw [CrcMatches, crcRange_append buf more h, lenField_append buf more (by omega),
    List.getD_append buf more 0 (3 + lenField buf) (by omega), List.getD_append buf more 0 (4 + lenField buf) (by omega),
    ← CrcMatches]

theorem accepts_append (hlong : 7 ≤ buf.length) (hcomplete : 5 + lenField buf ≤ buf.length) :
    Accepts (buf ++ more) ↔ Accepts buf := by
  have hlen := lenField_append buf more (by omega)
  constructor
  · intro h
    have hstx := h.stx
    have hetx := h.etx
    rw [List.getD_append buf more 0 0 (by omega)] at hstx
    rw [hlen, List.getD_append buf more 0 (2 + lenField buf) (by omega)] at hetx
    exact ⟨hlong, hstx, hcomplete, hetx, (crcMatches_append buf more hcomplete).mp h.crc⟩
  · intro h
    refine ⟨?_, ?_, ?_, ?_, (crcMatches_append buf more hcomplete).mpr h.crc⟩
    · rw [List.length_append]
      omega
    · rw [List.getD_append buf more 0 0 (by omega)]
      exact h.stx
    · rw [hlen, List.length_append]
      omega
    · rw [hlen, List.getD_append buf more 0 (2 + lenField buf) (by omega)]
      exact h.etx

end Append

section Verdict

-- The packet says the same, and its payload can be read at least as far.
def SamePacket (packet packet' : Packet) : Prop :=
  packet'.opCode = packet.opCode ∧ packet'.payloadLen = packet.payloadLen ∧
    packet'.payload.offset = packet.payload.offset ∧
    ∀ index value, packet.payload.read index = .ok value → packet'.payload.read index = .ok value

def SameVerdict : Except Int Packet → Except Int Packet → Prop
  | .error code, .error code' => code' = code
  | .ok packet, .ok packet' => SamePacket packet packet'
  | _, _ => False

theorem samePacket_append (buf more : List Byte) (h : 7 ≤ buf.length) :
    SamePacket (packetOf buf) (packetOf (buf ++ more)) := by
  refine ⟨List.getD_append buf more 0 3 (by omega), ?_, rfl, ?_⟩
  · rw [packetOf, packetOf, lenField_append buf more (by omega)]
  · intro index value hread
    unfold packetOf Ptr.read at hread ⊢
    simp only at hread ⊢
    cases hcell : buf[4 + index]? with
    | none =>
        rw [hcell] at hread
        cases hread
    | some cell =>
        obtain ⟨hindex, -⟩ := List.getElem?_eq_some_iff.mp hcell
        rw [hcell] at hread
        rw [List.getElem?_append_left hindex, hcell]
        exact hread

-- A rejection that is not for want of data is for the STX or comes after the
-- frame was complete.
theorem rejected_cases (buf : List Byte) (code : Int) (hparse : protocolParse buf = .ok (.error code))
    (hshort : code ≠ -1) (hincomplete : code ≠ -3) :
    7 ≤ buf.length ∧ (code = -2 ∧ buf.getD 0 0 ≠ PROTOCOL_STX ∨
      buf.getD 0 0 = PROTOCOL_STX ∧ 5 + lenField buf ≤ buf.length ∧ ¬Accepts buf) := by
  have hrejected : ¬Accepts buf := by
    intro h
    rw [protocolParse_of_accepts buf h] at hparse
    cases hparse
  rw [protocolParse_eq] at hparse
  have hinner := Except.ok.inj hparse
  by_cases hlong : buf.length < 7
  · rw [if_pos hlong] at hinner
    exact absurd (Except.error.inj hinner).symm hshort
  rw [if_neg hlong] at hinner
  by_cases hstx : buf.getD 0 0 ≠ PROTOCOL_STX
  · rw [if_pos hstx] at hinner
    exact ⟨by omega, Or.inl ⟨(Except.error.inj hinner).symm, hstx⟩⟩
  rw [if_neg hstx] at hinner
  by_cases hless : buf.length < 5 + lenField buf
  · rw [if_pos hless] at hinner
    exact absurd (Except.error.inj hinner).symm hincomplete
  · exact ⟨by omega, Or.inr ⟨not_not.mp hstx, by omega, hrejected⟩⟩

theorem rejected_append (buf more : List Byte) (code : Int) (hparse : protocolParse buf = .ok (.error code))
    (hshort : code ≠ -1) (hincomplete : code ≠ -3) : protocolParse (buf ++ more) = .ok (.error code) := by
  obtain ⟨hlong, ⟨rfl, hstx⟩ | ⟨hstx, hcomplete, hrejected⟩⟩ := rejected_cases buf code hparse hshort hincomplete
  · have hlonger : ¬(buf ++ more).length < 7 := by
      rw [List.length_append]
      omega
    rw [protocolParse_eq, if_neg hlonger, List.getD_append buf more 0 0 (by omega), if_pos hstx]
  · have hlen := lenField_append buf more (by omega)
    have hlate := protocolParse_late_error (buf ++ more)
      (by rw [List.length_append]; omega) (by rw [List.getD_append buf more 0 0 (by omega)]; exact hstx)
      (by rw [hlen, List.length_append]; omega) (mt (accepts_append buf more hlong hcomplete).mp hrejected)
    rw [hlate, hlen, List.getD_append buf more 0 (2 + lenField buf) (by omega),
      ← protocolParse_late_error buf hlong hstx hcomplete hrejected, hparse]

theorem verdict_append (buf more : List Byte) (verdict : Except Int Packet) (hparse : protocolParse buf = .ok verdict)
    (hshort : verdict ≠ .error (-1)) (hincomplete : verdict ≠ .error (-3)) :
    ∃ verdict', protocolParse (buf ++ more) = .ok verdict' ∧ SameVerdict verdict verdict' := by
  cases verdict with
  | error code =>
      have hrejected := rejected_append buf more code hparse (fun h => hshort (by rw [h])) fun h => hincomplete (by rw [h])
      exact ⟨.error code, hrejected, rfl⟩
  | ok packet =>
      obtain ⟨haccepts, rfl⟩ := (protocolParse_ok_iff buf packet).mp hparse
      have hmore := (accepts_append buf more haccepts.long haccepts.complete).mpr haccepts
      exact ⟨_, protocolParse_of_accepts _ hmore, samePacket_append buf more haccepts.long⟩

-- Of a frame that starts well, a part is too short or incomplete.
theorem protocolParse_part (buf : List Byte) (h : Accepts buf) (count : Nat) (hcount : count < 5 + lenField buf) :
    protocolParse (buf.take count) = .ok (.error (-1)) ∨ protocolParse (buf.take count) = .ok (.error (-3)) := by
  have hcomplete := h.complete
  have hlength : (buf.take count).length = count := by
    rw [List.length_take]
    omega
  have hbuf := List.take_append_drop count buf
  by_cases hshort : count < 7
  · left
    rw [protocolParse_eq, if_pos (by omega)]
  · right
    have hstx := h.stx
    have hlen := lenField_append (buf.take count) (buf.drop count) (by omega)
    rw [← hbuf, List.getD_append _ _ 0 0 (by omega)] at hstx
    rw [hbuf] at hlen
    rw [protocolParse_eq, if_neg (by omega), if_neg (not_not.mpr hstx), if_pos (by omega)]

end Verdict

-- More data does not change a verdict other than -1 and -3, and a part of a
-- frame gets one of these two.
theorem parse_stable (buf : List Byte) (verdict : Except Int Packet) (hparse : protocolParse buf = .ok verdict) :
    (verdict ≠ .error (-1) → verdict ≠ .error (-3) →
      ∀ more, ∃ verdict', protocolParse (buf ++ more) = .ok verdict' ∧ SameVerdict verdict verdict') ∧
    ∀ packet, verdict = .ok packet → 2 ≤ lenField buf → ∀ count < 5 + lenField buf,
      protocolParse (buf.take count) = .ok (.error (-1)) ∨ protocolParse (buf.take count) = .ok (.error (-3)) := by
  constructor
  · intro hshort hincomplete more
    exact verdict_append buf more verdict hparse hshort hincomplete
  · rintro packet rfl - count hcount
    exact protocolParse_part buf ((protocolParse_ok_iff buf packet).mp hparse).1 count hcount

-- The frame given in the comment on the echo command.
def echoCommand : List Byte := [0x02#8, 0x03#8, 0x00#8, 0xF0#8, 0xAB#8, 0x03#8, 0x6B#8, 0xED#8]

theorem parse_stable_echo :
    ((.ok (packetOf echoCommand) : Except Int Packet) ≠ .error (-1) →
      (.ok (packetOf echoCommand) : Except Int Packet) ≠ .error (-3) → ∀ more, ∃ verdict',
        protocolParse (echoCommand ++ more) = .ok verdict' ∧ SameVerdict (.ok (packetOf echoCommand)) verdict') ∧
    ∀ packet, .ok (packetOf echoCommand) = (.ok packet : Except Int Packet) → 2 ≤ lenField echoCommand →
      ∀ count < 5 + lenField echoCommand, protocolParse (echoCommand.take count) = .ok (.error (-1)) ∨
        protocolParse (echoCommand.take count) = .ok (.error (-3)) :=
  parse_stable echoCommand (.ok (packetOf echoCommand)) (by decide +kernel)

end TJ3Firmware
