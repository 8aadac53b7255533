import TJ3Firmware.Library.BitError

namespace Library.Distance

open Polynomial Library.BitPoly Library.Checksum Library.BitError

variable {width size : Nat}

-- The positions at which two messages of one length differ.
def differing (first second : List (BitVec size)) : Finset Nat :=
  (Finset.range (size * first.length)).filter fun position => bitAt first position ≠ bitAt second position

theorem mem_differing (first second : List (BitVec size))
    (hlength : first.length = second.length) (position : Nat) :
    position ∈ differing first second ↔ bitAt first position ≠ bitAt second position := by
  rw [differing, Finset.mem_filter, Finset.mem_range]
  constructor
  · exact And.right
  · intro hbit
    refine ⟨?_, hbit⟩
    by_contra hge
    apply hbit
    rw [bitAt_of_ge first position (by omega), bitAt_of_ge second position (by rw [← hlength]; omega)]

-- Each position stands for a power of X.
noncomputable def errorPoly (total : Nat) (positions : Finset Nat) : (ZMod 2)[X] :=
  ∑ position ∈ positions, X ^ (total - 1 - position)

theorem messagePoly_eq_sum (hsize : 0 < size) (message : List (BitVec size)) :
    messagePoly message = ∑ position ∈ Finset.range (size * message.length),
      if bitAt message position then X ^ (size * message.length - 1 - position) else 0 := by
  ext exponent
  rw [coeff_messagePoly hsize, finsetSum_coeff]
  simp only [coeff_monomial]
  by_cases hlow : exponent < size * message.length
  · rw [if_pos hlow, Finset.sum_eq_single (size * message.length - 1 - exponent)]
    · rw [if_pos (by omega)]
    · intro position hposition hne
      rw [Finset.mem_range] at hposition
      rw [if_neg (by omega)]
    · intro habsent
      rw [Finset.mem_range] at habsent
      omega
  · rw [if_neg hlow, Finset.sum_eq_zero]
    intro position hposition
    rw [Finset.mem_range] at hposition
    rw [if_neg (by omega)]

-- The difference of two messages is the sum over the positions where they differ.
theorem messagePoly_sub (hsize : 0 < size) (first second : List (BitVec size))
    (hlength : first.length = second.length) :
    messagePoly first - messagePoly second = errorPoly (size * first.length) (differing first second) := by
  rw [messagePoly_eq_sum hsize, messagePoly_eq_sum hsize, ← hlength, ← Finset.sum_sub_distrib, errorPoly,
    differing, Finset.sum_filter]
  apply Finset.sum_congr rfl
  intro position _
  cases bitAt first position <;> cases bitAt second position <;> simp [CharTwo.neg_eq]

theorem eval_one_errorPoly (total : Nat) (positions : Finset Nat) :
    (errorPoly total positions).eval 1 = (positions.card : ZMod 2) := by
  simp [errorPoly, eval_finsetSum]

section Detect

variable (taps : BitVec width)

-- A generator with the root 1 divides only sums of an even number of powers.
theorem even_card_of_dvd (hroot : (generator taps).eval 1 = 0) (total : Nat) (positions : Finset Nat)
    (hdvd : generator taps ∣ errorPoly total positions) : Even positions.card := by
  obtain ⟨quotient, hquotient⟩ := hdvd
  have heval := congrArg (eval 1) hquotient
  rw [eval_one_errorPoly, eval_mul, hroot, zero_mul] at heval
  exact (ZMod.natCast_eq_zero_iff_even).mp heval

-- A generator that is coprime to X divides the sum of two powers only when the
-- order of X divides their distance.
theorem root_pow_eq_one_of_dvd (hwidth : 0 < width) (hodd : taps.getLsbD 0 = true) (low distance : Nat)
    (hdvd : generator taps ∣ X ^ (low + distance) + X ^ low) :
    AdjoinRoot.root (generator taps) ^ distance = 1 := by
  have hfactor : (X ^ (low + distance) + X ^ low : (ZMod 2)[X]) = X ^ low * (X ^ distance + 1) := by ring
  rw [hfactor] at hdvd
  have hsum := (isCoprime_generator_X_pow taps hwidth hodd low).dvd_of_dvd_mul_left hdvd
  have hzero := AdjoinRoot.mk_eq_zero.mpr hsum
  rw [map_add, map_pow, map_one, AdjoinRoot.mk_X] at hzero
  have hneg := eq_neg_of_add_eq_zero_left hzero
  have hone : (-1 : AdjoinRoot (generator taps)) = 1 := by
    rw [← map_one (AdjoinRoot.mk (generator taps)), ← map_neg, CharTwo.neg_eq]
  rw [hneg, hone]

theorem not_dvd_of_two (hwidth : 0 < width) (hodd : taps.getLsbD 0 = true) (total : Nat)
    (positions : Finset Nat) (hrange : ∀ position ∈ positions, position < total)
    (htotal : total ≤ orderOf (AdjoinRoot.root (generator taps))) (hcard : positions.card = 2) :
    ¬generator taps ∣ errorPoly total positions := by
  obtain ⟨one, other, hne, rfl⟩ := Finset.card_eq_two.mp hcard
  have hone := hrange one (Finset.mem_insert_self _ _)
  have hother := hrange other (Finset.mem_insert_of_mem (Finset.mem_singleton_self _))
  intro hdvd
  rw [errorPoly, Finset.sum_pair hne] at hdvd
  -- the larger exponent belongs to the earlier position
  have horder : ∀ early late, early < late → late < total →
      ¬generator taps ∣ X ^ (total - 1 - early) + X ^ (total - 1 - late) := by
    intro early late hlt hlate hsum
    rw [show total - 1 - early = total - 1 - late + (late - early) by omega] at hsum
    have hpow := root_pow_eq_one_of_dvd taps hwidth hodd _ _ hsum
    have hle := Nat.le_of_dvd (by omega) (orderOf_dvd_of_pow_eq_one hpow)
    omega
  rcases lt_or_gt_of_ne hne with hlt | hgt
  · exact horder one other hlt hother hdvd
  · rw [add_comm] at hdvd
    exact horder other one hgt hone hdvd

-- Two messages no longer than the order of X that differ in one, two or three
-- positions have different checksums.
theorem checksum_ne_of_few (hsize : 0 < size) (hle : size ≤ width) (hodd : taps.getLsbD 0 = true)
    (hroot : (generator taps).eval 1 = 0) (init : BitVec width) (first second : List (BitVec size))
    (hlength : first.length = second.length)
    (htotal : size * first.length ≤ orderOf (AdjoinRoot.root (generator taps)))
    (hpos : 1 ≤ (differing first second).card) (hfew : (differing first second).card ≤ 3) :
    checksum taps init first ≠ checksum taps init second := by
  have hwidth : 0 < width := by omega
  rw [Ne, checksum_eq_iff taps init first second hle hwidth hodd hlength, messagePoly_sub hsize _ _ hlength]
  intro hdvd
  obtain ⟨half, hhalf⟩ := even_card_of_dvd taps hroot _ _ hdvd
  have hcard : (differing first second).card = 2 := by omega
  refine not_dvd_of_two taps hwidth hodd _ _ ?_ htotal hcard hdvd
  intro position hposition
  exact Finset.mem_range.mp (Finset.mem_filter.mp hposition).1

end Detect

end Library.Distance
