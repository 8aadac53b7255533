import TJ3Firmware.Protocol
import TJ3Firmware.Library.BitError

namespace TJ3Firmware

open Polynomial Library.BitPoly Library.Checksum Library.BitError

theorem and_top_bit_ne_zero (crc : Word16) : crc &&& 0x8000#16 ≠ 0#16 ↔ crc.msb = true := by
  have hbit : crc &&& 0x8000#16 = if crc.getLsbD 15 then 0x8000#16 else 0#16 :=
    BitVec.and_twoPow crc 15
  rw [hbit, BitVec.msb_eq_getLsbD_last]
  cases crc.getLsbD 15 <;> simp

theorem crcShift_eq_shift : crcShift = shift 0x1021#16 := by
  funext crc
  simp only [crcShift, shift, and_top_bit_ne_zero]

-- The two loops are the table-free checksum with generator
-- X ^ 16 + X ^ 12 + X ^ 5 + 1, one byte a symbol.
theorem protocolCalculateCrc_eq_checksum (data : List Byte) :
    protocolCalculateCrc data = checksum 0x1021#16 0xFFFF#16 data := by
  rw [protocolCalculateCrc, crcShift_eq_shift]
  rfl

theorem eval_one_poly_eq_sum {width : Nat} (value : BitVec width) :
    (poly value).eval 1 = ∑ i ∈ Finset.range width, coefficient (value.getLsbD i) := by
  rw [poly, eval_finsetSum]
  apply Finset.sum_congr rfl
  intro i _
  cases value.getLsbD i <;> simp

-- The generator has four terms, so 1 is a root.
theorem eval_one_generator : (generator (0x1021#16 : Word16)).eval 1 = 0 := by
  rw [generator, eval_add, eval_pow, eval_X, one_pow, eval_one_poly_eq_sum]
  decide

-- The initial value has sixteen set bits.
theorem eval_one_init : (poly (0xFFFF#16 : Word16)).eval 1 = 0 := by
  rw [eval_one_poly_eq_sum]
  decide

-- The checksum has as many set bits, modulo 2, as the data.
theorem eval_one_protocolCalculateCrc (data : List Byte) :
    (poly (protocolCalculateCrc data)).eval 1 = parity data := by
  rw [protocolCalculateCrc_eq_checksum,
    eval_one_checksum _ _ (by decide) (by decide) eval_one_generator, eval_one_init, zero_add, parity]

theorem protocolCalculateCrc_ne_of_burst (first second : List Byte)
    (hlength : first.length = second.length) (hne : first ≠ second) (start : Nat)
    (hburst : ∀ position, bitAt first position ≠ bitAt second position →
      start ≤ position ∧ position < start + 16) :
    protocolCalculateCrc first ≠ protocolCalculateCrc second := by
  rw [protocolCalculateCrc_eq_checksum, protocolCalculateCrc_eq_checksum]
  exact checksum_ne_of_burst (by decide) (by decide) _ _ (by decide) first second hlength hne start hburst

section Words

theorem toNat_word16 (low high : Byte) : (word16 low high).toNat = low.toNat + 256 * high.toNat := by
  have hlow := low.isLt
  have hhigh := high.isLt
  have hl : (low.setWidth 16).toNat = low.toNat := by
    simp only [BitVec.toNat_setWidth]
    omega
  have hh : (high.setWidth 16 <<< 8).toNat = high.toNat <<< 8 := by
    simp only [BitVec.toNat_shiftLeft, BitVec.toNat_setWidth, Nat.shiftLeft_eq]
    omega
  rw [word16, BitVec.toNat_or, hl, hh, Nat.or_comm, ← Nat.shiftLeft_add_eq_or_of_lt hlow, Nat.shiftLeft_eq]
  omega

theorem toNat_lowByte (word : Word16) : (lowByte word).toNat = word.toNat % 256 := by
  rw [lowByte, BitVec.toNat_setWidth, BitVec.toNat_and]
  change (word.toNat &&& (2 ^ 8 - 1)) % 256 = _
  rw [Nat.and_two_pow_sub_one_eq_mod]
  omega

theorem toNat_highByte (word : Word16) : (highByte word).toNat = word.toNat / 256 := by
  have hword := word.isLt
  rw [highByte, BitVec.toNat_setWidth, BitVec.toNat_and, BitVec.toNat_ushiftRight, Nat.shiftRight_eq_div_pow]
  change (word.toNat / 256 &&& (2 ^ 8 - 1)) % 256 = _
  rw [Nat.and_two_pow_sub_one_eq_mod]
  omega

@[simp] theorem word16_lowByte_highByte (word : Word16) : word16 (lowByte word) (highByte word) = word := by
  apply BitVec.eq_of_toNat_eq
  rw [toNat_word16, toNat_lowByte, toNat_highByte]
  omega

@[simp] theorem lowByte_word16 (low high : Byte) : lowByte (word16 low high) = low := by
  apply BitVec.eq_of_toNat_eq
  rw [toNat_lowByte, toNat_word16]
  omega

@[simp] theorem highByte_word16 (low high : Byte) : highByte (word16 low high) = high := by
  apply BitVec.eq_of_toNat_eq
  rw [toNat_highByte, toNat_word16]
  omega

theorem word16_inj (low high low' high' : Byte) :
    word16 low high = word16 low' high' ↔ low = low' ∧ high = high' := by
  constructor
  · intro h
    exact ⟨by simpa using congrArg lowByte h, by simpa using congrArg highByte h⟩
  · rintro ⟨rfl, rfl⟩
    rfl

theorem getLsbD_word16 (low high : Byte) (i : Nat) :
    (word16 low high).getLsbD i =
      (low.getLsbD i ^^ if 8 ≤ i ∧ i < 16 then high.getLsbD (i - 8) else false) := by
  simp only [word16, BitVec.getLsbD_or, BitVec.getLsbD_shiftLeft, BitVec.getLsbD_setWidth]
  by_cases hlow : i < 8
  · simp [hlow, show i < 16 by omega, show ¬8 ≤ i by omega]
  · by_cases hhigh : i < 16
    · simp [hlow, hhigh, show i - 8 < 16 by omega, show 8 ≤ i by omega]
    · simp [hlow, hhigh, BitVec.getLsbD_of_ge low i (by omega)]

-- The bits of a word are those of its two bytes, in either order.
theorem eval_one_word16 (low high : Byte) :
    (poly (word16 low high)).eval 1 = (poly low).eval 1 + (poly high).eval 1 := by
  have hpoly : poly (word16 low high) = poly low + poly high * X ^ 8 := by
    ext i
    rw [coeff_add, coeff_mul_X_pow', coeff_poly, coeff_poly, coeff_poly, getLsbD_word16, coefficient_xor]
    by_cases hlow : 8 ≤ i
    · by_cases hhigh : i < 16
      · simp [hlow, hhigh]
      · simp [hlow, hhigh, BitVec.getLsbD_of_ge high (i - 8) (by omega)]
    · simp [hlow]
  rw [hpoly]
  simp

end Words

end TJ3Firmware
