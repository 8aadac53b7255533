import TJ3Firmware.Protocol.Crc
import TJ3Firmware.Library.Distance
import TJ3Firmware.Library.PowMod

namespace TJ3Firmware

open Polynomial Library.BitPoly Library.Checksum Library.BitError Library.Distance Library.PowMod

section Remainder

theorem generator_crc : generator (0x1021#16 : Word16) = X ^ 16 + X ^ 12 + X ^ 5 + 1 := by
  have hpoly : poly (0x1021#16 : Word16) = 1 + X ^ 5 + X ^ 12 := by
    simp [poly, Finset.sum_range_succ]
  rw [generator, hpoly]
  ring

-- All coefficients of the initial value are set.
theorem poly_init : poly (0xFFFF#16 : Word16) = ∑ i ∈ Finset.range 16, X ^ i := by
  simp [poly, Finset.sum_range_succ]

-- The loop computes the remainder of the data, with the initial value in front
-- and sixteen zero bits behind.
theorem poly_protocolCalculateCrc (data : List Byte) :
    poly (protocolCalculateCrc data) =
      (messagePoly data * X ^ 16 + (∑ i ∈ Finset.range 16, X ^ i) * X ^ (8 * data.length)) %ₘ
        (X ^ 16 + X ^ 12 + X ^ 5 + 1) := by
  rw [protocolCalculateCrc_eq_checksum, poly_checksum _ (by omega) (by omega), poly_init, generator_crc]

-- The check value of this checksum.
example : protocolCalculateCrc [0x31#8, 0x32#8, 0x33#8, 0x34#8, 0x35#8, 0x36#8, 0x37#8, 0x38#8, 0x39#8] =
    0x29B1#16 := by decide +kernel

end Remainder

section Burst

-- Data that differ, all within one window of at most sixteen bits, have
-- different checksums.
theorem crc_detects_bursts (first second : List Byte) (hlength : first.length = second.length)
    (hne : first ≠ second) (start length : Nat) (hshort : length ≤ 16)
    (hwindow : differing first second ⊆ Finset.Ico start (start + length)) :
    protocolCalculateCrc first ≠ protocolCalculateCrc second := by
  apply protocolCalculateCrc_ne_of_burst first second hlength hne start
  intro position hbit
  have hmem := hwindow ((mem_differing first second hlength position).mpr hbit)
  rw [Finset.mem_Ico] at hmem
  omega

-- A burst over three bytes.
theorem crc_detects_bursts_spread :
    protocolCalculateCrc [0x00#8, 0x00#8, 0x00#8] ≠ protocolCalculateCrc [0x01#8, 0x5A#8, 0x80#8] :=
  crc_detects_bursts _ _ rfl (by decide) 7 10 (by omega) (by decide)

end Burst

section Distance

-- X has the order 2 ^ 15 - 1 = 7 * 31 * 151 modulo the generator.
theorem orderOf_root_crc : orderOf (AdjoinRoot.root (generator (0x1021#16 : Word16))) = 32767 := by
  have hpow := fun exponent (h : exponent < 2 ^ 15) =>
    root_pow_eq_one_iff (by omega) (0x1021#16 : Word16) 15 exponent h
  apply orderOf_eq_of_pow_and_pow_div_prime (by omega)
  · rw [hpow 32767 (by omega)]
    decide +kernel
  · intro prime hprime hdvd
    have hfactor : prime = 7 ∨ prime = 31 ∨ prime = 151 := by
      rw [show 32767 = 7 * 31 * 151 by omega, hprime.dvd_mul, hprime.dvd_mul,
        Nat.prime_dvd_prime_iff_eq hprime (by norm_num), Nat.prime_dvd_prime_iff_eq hprime (by norm_num),
        Nat.prime_dvd_prime_iff_eq hprime (by norm_num), or_assoc] at hdvd
      exact hdvd
    rcases hfactor with rfl | rfl | rfl
    · rw [Ne, hpow (32767 / 7) (by omega)]
      decide +kernel
    · rw [Ne, hpow (32767 / 31) (by omega)]
      decide +kernel
    · rw [Ne, hpow (32767 / 151) (by omega)]
      decide +kernel

-- Up to three wrong bits are noticed wherever they are.
theorem crc_detects_three_bits (first second : List Byte) (hlength : first.length = second.length)
    (hbound : first.length ≤ 4095) (hpos : 1 ≤ (differing first second).card)
    (hfew : (differing first second).card ≤ 3) :
    protocolCalculateCrc first ≠ protocolCalculateCrc second := by
  rw [protocolCalculateCrc_eq_checksum, protocolCalculateCrc_eq_checksum]
  apply checksum_ne_of_few _ (by omega) (by omega) (by decide) eval_one_generator _ _ _ hlength _ hpos hfew
  rw [orderOf_root_crc]
  omega

theorem crc_detects_three_bits_spread :
    protocolCalculateCrc [0x80#8, 0x00#8, 0x10#8, 0x01#8] ≠
      protocolCalculateCrc [0x00#8, 0x00#8, 0x00#8, 0x00#8] :=
  crc_detects_three_bits _ _ rfl (by decide) (by decide) (by decide)

end Distance

end TJ3Firmware
