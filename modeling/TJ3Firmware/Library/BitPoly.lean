import Mathlib

namespace Library.BitPoly

open Polynomial

variable {width : Nat}

-- A bit vector as a polynomial over GF(2). Bit i, counted from the least
-- significant one, is the coefficient of X ^ i.
noncomputable def poly (value : BitVec width) : (ZMod 2)[X] :=
  ∑ i ∈ Finset.range width, if value.getLsbD i then X ^ i else 0

def coefficient (bit : Bool) : ZMod 2 := if bit then 1 else 0

@[simp] theorem coefficient_false : coefficient false = 0 := rfl

@[simp] theorem coefficient_true : coefficient true = 1 := rfl

theorem coefficient_xor (a b : Bool) : coefficient (a ^^ b) = coefficient a + coefficient b := by
  cases a <;> cases b <;> decide

theorem coefficient_injective : Function.Injective coefficient := by
  intro a b h
  cases a <;> cases b <;> simp_all

theorem coeff_monomial (bit : Bool) (position i : Nat) :
    (if bit then (X ^ position : (ZMod 2)[X]) else 0).coeff i =
      if i = position then coefficient bit else 0 := by
  cases bit <;> simp [coeff_X_pow]

theorem coeff_poly (value : BitVec width) (i : Nat) :
    (poly value).coeff i = coefficient (value.getLsbD i) := by
  simp only [poly, finsetSum_coeff, coeff_monomial, Finset.sum_ite_eq]
  by_cases hi : i < width
  · simp [hi]
  · simp [hi, BitVec.getLsbD_of_ge value i (by omega)]

theorem poly_xor (a b : BitVec width) : poly (a ^^^ b) = poly a + poly b := by
  ext i
  simp only [coeff_add, coeff_poly, BitVec.getLsbD_xor, coefficient_xor]

theorem poly_injective : Function.Injective (poly : BitVec width → (ZMod 2)[X]) := by
  intro a b h
  apply BitVec.eq_of_getLsbD_eq
  intro i _
  apply coefficient_injective
  rw [← coeff_poly, ← coeff_poly, h]

theorem degree_poly_lt (value : BitVec width) : (poly value).degree < width := by
  rw [degree_lt_iff_coeff_zero]
  intro i hi
  rw [coeff_poly, BitVec.getLsbD_of_ge value i hi, coefficient_false]

-- Moving a narrow word to the top of a wider one multiplies by a power of X.
theorem poly_setWidth_shiftLeft {size : Nat} (hsize : size ≤ width) (value : BitVec size) :
    poly (value.setWidth width <<< (width - size)) = poly value * X ^ (width - size) := by
  ext i
  rw [coeff_poly, coeff_mul_X_pow', BitVec.getLsbD_shiftLeft, BitVec.getLsbD_setWidth]
  by_cases hlow : width - size ≤ i
  · rw [if_pos hlow, coeff_poly]
    by_cases hi : i < width
    · simp [hi, show ¬i < width - size by omega, show i - (width - size) < width by omega]
    · simp [hi, BitVec.getLsbD_of_ge value (i - (width - size)) (by omega)]
  · simp [hlow, show i < width - size by omega]

theorem poly_shiftLeft_one (hwidth : 0 < width) (value : BitVec width) :
    poly (value <<< 1) = X * poly value + if value.msb then X ^ width else 0 := by
  ext i
  rw [coeff_poly, coeff_add, coeff_monomial, BitVec.getLsbD_shiftLeft, BitVec.msb_eq_getLsbD_last]
  cases i with
  | zero => simp [hwidth.ne]
  | succ i =>
      rw [coeff_X_mul, coeff_poly]
      by_cases hlast : i + 1 = width
      · -- the shifted-out bit and the new top coefficient cancel
        subst width
        simpa using (CharTwo.add_self_eq_zero (coefficient (value.getLsbD i))).symm
      · by_cases hi : i + 1 < width
        · simp [hi, hlast]
        · simp [hi, hlast, BitVec.getLsbD_of_ge value i (by omega)]

end Library.BitPoly
