import TJ3Firmware.Protocol.RoundTrip

namespace TJ3Firmware

open Library.Memory Library.BitError

-- The word with its two bytes exchanged.
def swapBytes (word : Word16) : Word16 := word16 (highByte word) (lowByte word)

theorem swapBytes_word16 (low high : Byte) : swapBytes (word16 low high) = word16 high low := by
  rw [swapBytes, highByte_word16, lowByte_word16]

-- A nonzero change to the OP and payload bytes that stays within 16
-- consecutive bits.
structure BurstChange (buf changed : List Byte) (start : Nat) : Prop where
  length : changed.length = buf.length
  nonzero : changed ≠ buf
  inside : ∀ position, bitAt changed position ≠ bitAt buf position →
    8 * 3 ≤ position ∧ position < 8 * (lenField buf + 2)
  window : ∀ position, bitAt changed position ≠ bitAt buf position →
    start ≤ position ∧ position < start + 16

section Burst

variable {buf changed : List Byte} {start : Nat}

theorem BurstChange.getD_eq (h : BurstChange buf changed start) (index : Nat)
    (hindex : index < 3 ∨ lenField buf + 2 ≤ index) : changed.getD index 0 = buf.getD index 0 := by
  apply getD_eq_of_bitAt (by omega)
  intro position hlow hhigh
  by_contra hne
  have := h.inside position hne
  omega

theorem BurstChange.lenField_eq (h : BurstChange buf changed start) : lenField changed = lenField buf := by
  rw [lenField, lenField, h.getD_eq 1 (Or.inl (by omega)), h.getD_eq 2 (Or.inl (by omega))]

theorem bitAt_crcRange (bytes : List Byte) (position : Nat) :
    bitAt (crcRange bytes) position =
      (decide (position < 8 * (2 + lenField bytes)) && bitAt bytes (8 + position)) := by
  rw [crcRange, bitAt_take (by omega), bitAt_drop (by omega)]

-- Two changes within one window give different checksums.
theorem crc_ne_of_window (first second : List Byte) (hlength : first.length = second.length)
    (hlen : lenField first = lenField second) (hne : first ≠ second)
    (hinside : ∀ position, bitAt first position ≠ bitAt second position →
      8 * 3 ≤ position ∧ position < 8 * (lenField second + 2))
    (hwindow : ∀ position, bitAt first position ≠ bitAt second position →
      start ≤ position ∧ position < start + 16) :
    protocolCalculateCrc (crcRange first) ≠ protocolCalculateCrc (crcRange second) := by
  have hranges : crcRange first ≠ crcRange second := by
    intro h
    apply hne
    apply eq_of_getD hlength
    intro index
    apply getD_eq_of_bitAt (by omega)
    intro position _ _
    by_contra hbit
    have hin := hinside position hbit
    have hb := congrArg (bitAt · (position - 8)) h
    simp only [bitAt_crcRange] at hb
    rw [decide_eq_true (by omega), decide_eq_true (by omega), Bool.true_and, Bool.true_and,
      show 8 + (position - 8) = position by omega] at hb
    exact hbit hb
  have hsize : (crcRange first).length = (crcRange second).length := by
    simp [crcRange, hlength, hlen]
  apply protocolCalculateCrc_ne_of_burst _ _ hsize hranges (start - 8)
  intro position hbit
  rw [bitAt_crcRange, bitAt_crcRange, hlen] at hbit
  have hb : bitAt first (8 + position) ≠ bitAt second (8 + position) := by
    intro h
    exact hbit (by rw [h])
  have hin := hinside (8 + position) hb
  have := hwindow (8 + position) hb
  omega

theorem BurstChange.crc_ne (h : BurstChange buf changed start) :
    protocolCalculateCrc (crcRange changed) ≠ protocolCalculateCrc (crcRange buf) :=
  crc_ne_of_window changed buf h.length h.lenField_eq h.nonzero h.inside h.window

theorem BurstChange.layout_kept (h : BurstChange buf changed start) (haccepts : Accepts buf) :
    7 ≤ changed.length ∧ changed.getD 0 0 = PROTOCOL_STX ∧ 5 + lenField changed ≤ changed.length ∧
      changed.getD (2 + lenField changed) 0 = PROTOCOL_ETX := by
  refine ⟨?_, ?_, ?_, ?_⟩
  · rw [h.length]
    exact haccepts.long
  · rw [h.getD_eq 0 (Or.inl (by omega))]
    exact haccepts.stx
  · rw [h.lenField_eq, h.length]
    exact haccepts.complete
  · rw [h.lenField_eq, h.getD_eq _ (Or.inr (by omega))]
    exact haccepts.etx

-- After a burst the frame still looks right up to its checksum, which can only
-- be met in the byte order the original did not use.
theorem BurstChange.accepts_iff (h : BurstChange buf changed start) (haccepts : Accepts buf) :
    Accepts changed ↔
      protocolCalculateCrc (crcRange changed) = swapBytes (protocolCalculateCrc (crcRange buf)) := by
  have hcrc1 := h.getD_eq (3 + lenField buf) (Or.inr (by omega))
  have hcrc2 := h.getD_eq (4 + lenField buf) (Or.inr (by omega))
  have hne := h.crc_ne
  have hold := haccepts.crc
  unfold CrcMatches at hold
  have hmatch : CrcMatches changed ↔
      protocolCalculateCrc (crcRange changed) = swapBytes (protocolCalculateCrc (crcRange buf)) := by
    unfold CrcMatches
    rw [h.lenField_eq, hcrc1, hcrc2]
    rcases hold with hold | hold <;> rw [hold, swapBytes_word16] <;> rw [hold] at hne
    · exact ⟨fun hor => hor.resolve_left hne, Or.inr⟩
    · exact ⟨fun hor => hor.resolve_right hne, Or.inl⟩
  rw [← hmatch]
  constructor
  · exact Accepts.crc
  · intro hcrc
    obtain ⟨hlong, hstx, hcomplete, hetx⟩ := h.layout_kept haccepts
    exact ⟨hlong, hstx, hcomplete, hetx, hcrc⟩

end Burst

-- A burst passes only when it turns the checksum into its byte swap. Then the
-- two checksum bytes differ, and no other burst in the same window passes.
theorem burst_change_rejected (buf changed : List Byte) (start : Nat) (packet : Packet)
    (hparse : protocolParse buf = .ok (.ok packet)) (hburst : BurstChange buf changed start) :
    (protocolCalculateCrc (crcRange changed) ≠ swapBytes (protocolCalculateCrc (crcRange buf)) →
      protocolParse changed = .ok (.error (-5))) ∧
    (protocolCalculateCrc (crcRange changed) = swapBytes (protocolCalculateCrc (crcRange buf)) →
      (∃ passed, protocolParse changed = .ok (.ok passed)) ∧
        buf.getD (3 + lenField buf) 0 ≠ buf.getD (4 + lenField buf) 0) ∧
    ∀ other, BurstChange buf other start → (∃ passed, protocolParse changed = .ok (.ok passed)) →
      (∃ passed, protocolParse other = .ok (.ok passed)) → other = changed := by
  have haccepts := ((protocolParse_ok_iff buf packet).mp hparse).1
  have hiff := hburst.accepts_iff haccepts
  refine ⟨?_, ?_, ?_⟩
  · intro hne
    obtain ⟨hlong, hstx, hcomplete, hetx⟩ := hburst.layout_kept haccepts
    rw [protocolParse_late_error changed hlong hstx hcomplete (mt hiff.mp hne), if_pos hetx]
  · intro heq
    refine ⟨⟨_, protocolParse_of_accepts changed (hiff.mpr heq)⟩, ?_⟩
    intro hbytes
    have hcrc := haccepts.crc
    unfold CrcMatches at hcrc
    rw [hbytes, or_self] at hcrc
    apply hburst.crc_ne
    rw [heq, hcrc, swapBytes_word16]
  · rintro other hother ⟨passed, hpassed⟩ ⟨passed', hpassed'⟩
    have hcrc := hiff.mp ((protocolParse_ok_iff changed passed).mp hpassed).1
    have hcrc' := (hother.accepts_iff haccepts).mp ((protocolParse_ok_iff other passed').mp hpassed').1
    by_contra hne
    -- the two changes also differ by a burst in the window
    have hdiffer : ∀ position, bitAt other position ≠ bitAt changed position →
        bitAt other position ≠ bitAt buf position ∨ bitAt changed position ≠ bitAt buf position := by
      intro position hbit
      by_contra hsame
      push Not at hsame
      exact hbit (hsame.1.trans hsame.2.symm)
    apply crc_ne_of_window other changed (hother.length.trans hburst.length.symm)
      (hother.lenField_eq.trans hburst.lenField_eq.symm) hne
    · intro position hbit
      rw [hburst.lenField_eq]
      exact (hdiffer position hbit).elim (hother.inside position) (hburst.inside position)
    · intro position hbit
      exact (hdiffer position hbit).elim (hother.window position) (hburst.window position)
    · rw [hcrc, hcrc']

section Example

-- The bits of a finite buffer decide whether a change is a burst.
theorem burstChange_of_bits (buf changed : List Byte) (start : Nat) (hlength : changed.length = buf.length)
    (hne : changed ≠ buf)
    (hbits : ∀ position < 8 * buf.length, bitAt changed position ≠ bitAt buf position →
      (8 * 3 ≤ position ∧ position < 8 * (lenField buf + 2)) ∧ start ≤ position ∧ position < start + 16) :
    BurstChange buf changed start := by
  have hall : ∀ position, bitAt changed position ≠ bitAt buf position →
      (8 * 3 ≤ position ∧ position < 8 * (lenField buf + 2)) ∧ start ≤ position ∧ position < start + 16 := by
    intro position hbit
    by_cases hp : position < 8 * buf.length
    · exact hbits position hp hbit
    · exact absurd ((bitAt_of_ge changed position (by omega)).trans
        (bitAt_of_ge buf position (by omega)).symm) hbit
  exact ⟨hlength, hne, fun position hbit => (hall position hbit).1, fun position hbit => (hall position hbit).2⟩

-- An echo of two zero bytes, and the one change to them that swaps the checksum.
def echoZeros : List Byte := [0x02#8, 0x04#8, 0x00#8, 0xF0#8, 0x00#8, 0x00#8, 0x03#8, 0x9F#8, 0xA7#8]

def echoBurst : List Byte := [0x02#8, 0x04#8, 0x00#8, 0xF0#8, 0xCC#8, 0x42#8, 0x03#8, 0x9F#8, 0xA7#8]

theorem burstChange_echo : BurstChange echoZeros echoBurst 32 :=
  burstChange_of_bits _ _ _ rfl (by decide) (by decide +kernel)

theorem burst_change_rejected_echo :
    (protocolCalculateCrc (crcRange echoBurst) ≠ swapBytes (protocolCalculateCrc (crcRange echoZeros)) →
      protocolParse echoBurst = .ok (.error (-5))) ∧
    (protocolCalculateCrc (crcRange echoBurst) = swapBytes (protocolCalculateCrc (crcRange echoZeros)) →
      (∃ passed, protocolParse echoBurst = .ok (.ok passed)) ∧
        echoZeros.getD (3 + lenField echoZeros) 0 ≠ echoZeros.getD (4 + lenField echoZeros) 0) ∧
    ∀ other, BurstChange echoZeros other 32 → (∃ passed, protocolParse echoBurst = .ok (.ok passed)) →
      (∃ passed, protocolParse other = .ok (.ok passed)) → other = echoBurst :=
  burst_change_rejected echoZeros echoBurst 32 ⟨0xF0#8, ⟨echoZeros, 4⟩, 2#16⟩ (by decide +kernel) burstChange_echo

-- A 16-bit burst that the parser lets through.
theorem burst_change_accepted :
    ¬∀ (buf changed : List Byte) (start : Nat) (packet : Packet), 2 ≤ lenField buf →
      protocolParse buf = .ok (.ok packet) → BurstChange buf changed start →
        ∃ code, protocolParse changed = .ok (.error code) := by
  intro h
  have hparse : protocolParse echoZeros = .ok (.ok ⟨0xF0#8, ⟨echoZeros, 4⟩, 2#16⟩) := by decide +kernel
  have hpassed : protocolParse echoBurst = .ok (.ok ⟨0xF0#8, ⟨echoBurst, 4⟩, 2#16⟩) := by decide +kernel
  obtain ⟨code, hcode⟩ := h _ _ _ _ (by decide) hparse burstChange_echo
  rw [hpassed] at hcode
  cases hcode

end Example

end TJ3Firmware
