import TJ3Firmware.Library.BitError

namespace Library.PowMod

open Polynomial Library.BitPoly Library.Checksum Library.BitError

variable {width : Nat}

-- The product of a register with the polynomial of the low bits of another,
-- reduced by the generator.
def mulLow (taps left right : BitVec width) : Nat → BitVec width
  | 0 => 0
  | count + 1 =>
      if left.getLsbD count then mulLow taps left right count ^^^ (shift taps)^[count] right
      else mulLow taps left right count

def mulMod (taps left right : BitVec width) : BitVec width := mulLow taps left right width

-- Square and multiply over the low bits of the exponent.
def powMod (taps : BitVec width) : Nat → BitVec width → Nat → BitVec width
  | 0, _, _ => 1
  | bits + 1, base, exponent =>
      if exponent % 2 = 1 then mulMod taps base (powMod taps bits (mulMod taps base base) (exponent / 2))
      else powMod taps bits (mulMod taps base base) (exponent / 2)

-- The residue of a register.
noncomputable def residue (taps register : BitVec width) : AdjoinRoot (generator taps) :=
  AdjoinRoot.mk (generator taps) (poly register)

theorem residue_injective (taps : BitVec width) : Function.Injective (residue taps) := by
  intro first second h
  apply poly_injective
  refine sub_eq_zero.mp (eq_zero_of_dvd_of_degree_lt (AdjoinRoot.mk_eq_mk.mp h) ?_)
  rw [degree_generator]
  exact (degree_sub_le _ _).trans_lt (max_lt (degree_poly_lt _) (degree_poly_lt _))

theorem poly_one (hwidth : 0 < width) : poly (1 : BitVec width) = 1 := by
  ext i
  rw [coeff_poly, coeff_one]
  cases i with
  | zero => simp [hwidth]
  | succ i => simp

theorem residue_one (hwidth : 0 < width) (taps : BitVec width) : residue taps 1 = 1 := by
  rw [residue, poly_one hwidth, map_one]

theorem residue_mulLow (hwidth : 0 < width) (taps left right : BitVec width) (count : Nat) :
    residue taps (mulLow taps left right count) =
      AdjoinRoot.mk (generator taps) (∑ i ∈ Finset.range count, if left.getLsbD i then X ^ i else 0) *
        residue taps right := by
  induction count with
  | zero => simp [mulLow, residue, poly]
  | succ count ih =>
      rw [Finset.sum_range_succ, map_add, add_mul, ← ih, mulLow]
      by_cases hbit : left.getLsbD count = true
      · rw [if_pos hbit, if_pos hbit, residue, poly_xor, map_add, mk_iterate_shift taps hwidth, map_pow,
          AdjoinRoot.mk_X]
        rfl
      · rw [if_neg hbit, if_neg hbit, map_zero, zero_mul, add_zero]

theorem residue_mulMod (hwidth : 0 < width) (taps left right : BitVec width) :
    residue taps (mulMod taps left right) = residue taps left * residue taps right :=
  residue_mulLow hwidth taps left right width

theorem residue_powMod (hwidth : 0 < width) (taps : BitVec width) (bits : Nat) (base : BitVec width)
    (exponent : Nat) (hexponent : exponent < 2 ^ bits) :
    residue taps (powMod taps bits base exponent) = residue taps base ^ exponent := by
  induction bits generalizing base exponent with
  | zero =>
      have hzero : exponent = 0 := by omega
      rw [hzero, pow_zero, powMod, residue_one hwidth]
  | succ bits ih =>
      have hhalf : exponent / 2 < 2 ^ bits := by omega
      have hsquare : residue taps (powMod taps bits (mulMod taps base base) (exponent / 2)) =
          residue taps base ^ (2 * (exponent / 2)) := by
        rw [ih _ _ hhalf, residue_mulMod hwidth, ← sq, ← pow_mul]
      rw [powMod]
      by_cases hodd : exponent % 2 = 1
      · rw [if_pos hodd, residue_mulMod hwidth, hsquare, ← pow_succ']
        congr 1
        omega
      · rw [if_neg hodd, hsquare]
        congr 1
        omega

-- The register that holds X.
theorem residue_two (hwidth : 1 < width) (taps : BitVec width) :
    residue taps (BitVec.twoPow width 1) = AdjoinRoot.root (generator taps) := by
  rw [residue, poly_twoPow 1 hwidth, pow_one, AdjoinRoot.mk_X]

theorem root_pow_eq_one_iff (hwidth : 1 < width) (taps : BitVec width) (bits exponent : Nat)
    (hexponent : exponent < 2 ^ bits) :
    AdjoinRoot.root (generator taps) ^ exponent = 1 ↔ powMod taps bits (BitVec.twoPow width 1) exponent = 1 := by
  have hzero : 0 < width := by omega
  rw [← residue_two hwidth, ← residue_powMod hzero taps bits _ _ hexponent, ← residue_one hzero]
  exact (residue_injective taps).eq_iff

end Library.PowMod
