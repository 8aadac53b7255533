import TJ3Firmware.Library.BitPoly

namespace Library.Checksum

open Polynomial Library.BitPoly

variable {width size : Nat}

-- One step of a shift register with feedback. The taps are the coefficients of
-- the generator below its leading term.
def shift (taps register : BitVec width) : BitVec width :=
  if register.msb then (register <<< 1) ^^^ taps else register <<< 1

-- Add a symbol at the top of the register, then shift it through.
def absorb (taps register : BitVec width) (symbol : BitVec size) : BitVec width :=
  (shift taps)^[size] (register ^^^ (symbol.setWidth width <<< (width - size)))

def checksum (taps init : BitVec width) (message : List (BitVec size)) : BitVec width :=
  message.foldl (absorb taps) init

noncomputable def generator (taps : BitVec width) : (ZMod 2)[X] := X ^ width + poly taps

-- The message as a polynomial, its first symbol and the most significant bit
-- of each symbol first.
noncomputable def messagePoly : List (BitVec size) → (ZMod 2)[X]
  | [] => 0
  | symbol :: rest => poly symbol * X ^ (size * rest.length) + messagePoly rest

theorem degree_generator (taps : BitVec width) : (generator taps).degree = width := by
  rw [generator, degree_add_eq_left_of_degree_lt] <;> rw [degree_X_pow]
  exact degree_poly_lt taps

theorem natDegree_generator (taps : BitVec width) : (generator taps).natDegree = width :=
  natDegree_eq_of_degree_eq_some (degree_generator taps)

theorem monic_generator (taps : BitVec width) : (generator taps).Monic := by
  apply monic_of_natDegree_le_of_coeff_eq_one width (natDegree_generator taps).le
  rw [generator, coeff_add, coeff_X_pow_self, coeff_poly, BitVec.getLsbD_of_ge taps width le_rfl,
    coefficient_false, add_zero]

theorem coeff_zero_generator (hwidth : 0 < width) (taps : BitVec width) :
    (generator taps).coeff 0 = coefficient (taps.getLsbD 0) := by
  rw [generator, coeff_add, coeff_poly, coeff_X_pow, if_neg hwidth.ne, zero_add]

section Remainder

variable (taps : BitVec width)

-- A step multiplies by X and, when the top bit leaves, subtracts the generator.
theorem poly_shift (hwidth : 0 < width) (register : BitVec width) :
    poly (shift taps register) = X * poly register + if register.msb then generator taps else 0 := by
  unfold shift
  split
  · next htop => rw [poly_xor, poly_shiftLeft_one hwidth, if_pos htop, generator, add_assoc]
  · next htop => rw [poly_shiftLeft_one hwidth, if_neg htop]

theorem mk_shift (hwidth : 0 < width) (register : BitVec width) :
    AdjoinRoot.mk (generator taps) (poly (shift taps register)) =
      AdjoinRoot.root (generator taps) * AdjoinRoot.mk (generator taps) (poly register) := by
  rw [poly_shift taps hwidth, map_add, map_mul, AdjoinRoot.mk_X]
  split <;> simp

theorem mk_iterate_shift (hwidth : 0 < width) (count : Nat) (register : BitVec width) :
    AdjoinRoot.mk (generator taps) (poly ((shift taps)^[count] register)) =
      AdjoinRoot.root (generator taps) ^ count * AdjoinRoot.mk (generator taps) (poly register) := by
  induction count generalizing register with
  | zero => simp
  | succ count ih =>
      rw [Function.iterate_succ_apply, ih, mk_shift taps hwidth]
      ring

theorem mk_absorb (hsize : size ≤ width) (hwidth : 0 < width) (register : BitVec width)
    (symbol : BitVec size) :
    AdjoinRoot.mk (generator taps) (poly (absorb taps register symbol)) =
      AdjoinRoot.root (generator taps) ^ size * AdjoinRoot.mk (generator taps) (poly register) +
        AdjoinRoot.root (generator taps) ^ width * AdjoinRoot.mk (generator taps) (poly symbol) := by
  have hpow : AdjoinRoot.root (generator taps) ^ width =
      AdjoinRoot.root (generator taps) ^ size * AdjoinRoot.root (generator taps) ^ (width - size) := by
    rw [← pow_add, Nat.add_sub_of_le hsize]
  rw [absorb, mk_iterate_shift taps hwidth, poly_xor, poly_setWidth_shiftLeft hsize, hpow]
  simp only [map_add, map_mul, map_pow, AdjoinRoot.mk_X]
  ring

-- The register is the residue of the initial value followed by the message and
-- by width zero bits.
theorem mk_checksum (hsize : size ≤ width) (hwidth : 0 < width) (init : BitVec width)
    (message : List (BitVec size)) :
    AdjoinRoot.mk (generator taps) (poly (checksum taps init message)) =
      AdjoinRoot.mk (generator taps)
        (poly init * X ^ (size * message.length) + messagePoly message * X ^ width) := by
  induction message generalizing init with
  | nil => simp [checksum, messagePoly]
  | cons symbol rest ih =>
      rw [checksum, List.foldl_cons, ← checksum, ih]
      simp only [map_add, map_mul, map_pow, AdjoinRoot.mk_X, mk_absorb taps hsize hwidth,
        messagePoly, List.length_cons, Nat.mul_add, Nat.mul_one, pow_add]
      ring

-- The register is that residue in its least representative.
theorem poly_checksum (hsize : size ≤ width) (hwidth : 0 < width) (init : BitVec width)
    (message : List (BitVec size)) :
    poly (checksum taps init message) =
      (messagePoly message * X ^ width + poly init * X ^ (size * message.length)) %ₘ generator taps := by
  have hmod := AdjoinRoot.mk_eq_mk.mp (mk_checksum taps hsize hwidth init message)
  have hdegree : (poly (checksum taps init message)).degree < (generator taps).degree := by
    rw [degree_generator]
    exact degree_poly_lt _
  rw [add_comm, ← (modByMonic_eq_self_iff (monic_generator taps)).mpr hdegree]
  exact modByMonic_eq_of_dvd_sub (monic_generator taps) hmod

end Remainder

section Equality

variable (taps init : BitVec width) (first second : List (BitVec size))

theorem isCoprime_generator_X_pow (hwidth : 0 < width) (hodd : taps.getLsbD 0 = true) (count : Nat) :
    IsCoprime (generator taps) (X ^ count) := by
  apply IsCoprime.pow_right
  rw [isCoprime_comm, irreducible_X.coprime_iff_not_dvd, X_dvd_iff, coeff_zero_generator hwidth, hodd]
  simp

-- Two messages of one length have one checksum exactly when the generator
-- divides their difference.
theorem checksum_eq_iff (hsize : size ≤ width) (hwidth : 0 < width) (hodd : taps.getLsbD 0 = true)
    (hlength : first.length = second.length) :
    checksum taps init first = checksum taps init second ↔
      generator taps ∣ messagePoly first - messagePoly second := by
  have hdiff : poly init * X ^ (size * first.length) + messagePoly first * X ^ width -
      (poly init * X ^ (size * second.length) + messagePoly second * X ^ width) =
        (messagePoly first - messagePoly second) * X ^ width := by
    rw [hlength]
    ring
  have hmk : AdjoinRoot.mk (generator taps) (poly (checksum taps init first)) =
      AdjoinRoot.mk (generator taps) (poly (checksum taps init second)) ↔
        generator taps ∣ messagePoly first - messagePoly second := by
    rw [mk_checksum taps hsize hwidth, mk_checksum taps hsize hwidth, AdjoinRoot.mk_eq_mk, hdiff]
    exact ⟨(isCoprime_generator_X_pow taps hwidth hodd width).dvd_of_dvd_mul_right,
      fun h => h.mul_right _⟩
  rw [← hmk]
  constructor
  · intro h
    rw [h]
  · intro h
    apply poly_injective
    have hdvd := AdjoinRoot.mk_eq_mk.mp h
    refine sub_eq_zero.mp (eq_zero_of_dvd_of_degree_lt hdvd ?_)
    rw [degree_generator]
    exact (degree_sub_le _ _).trans_lt (max_lt (degree_poly_lt _) (degree_poly_lt _))

-- Evaluation at a root of the generator turns the checksum into a plain sum.
theorem eval_one_checksum (hsize : size ≤ width) (hwidth : 0 < width)
    (hroot : (generator taps).eval 1 = 0) (message : List (BitVec size)) :
    (poly (checksum taps init message)).eval 1 = (poly init).eval 1 + (messagePoly message).eval 1 := by
  obtain ⟨quotient, hq⟩ := AdjoinRoot.mk_eq_mk.mp (mk_checksum taps hsize hwidth init message)
  have heval := congrArg (eval 1) hq
  simp only [eval_sub, eval_mul, eval_add, eval_pow, eval_X, one_pow, mul_one, hroot, zero_mul] at heval
  exact sub_eq_zero.mp heval

end Equality

end Library.Checksum
