import TJ3Firmware.Library.Checksum

namespace Library.BitError

open Polynomial Library.BitPoly Library.Checksum

variable {width size : Nat}

-- Bits are numbered in transmission order, the most significant bit of the
-- first symbol being bit 0. Past the end every bit reads false.
def bitAt (message : List (BitVec size)) (position : Nat) : Bool :=
  (message.getD (position / size) 0).getMsbD (position % size)

def flipBit (message : List (BitVec size)) (position : Nat) : List (BitVec size) :=
  message.modify (position / size) (· ^^^ BitVec.twoPow size (size - 1 - position % size))

def flipBits (message : List (BitVec size)) (positions : List Nat) : List (BitVec size) :=
  positions.foldl flipBit message

@[simp] theorem length_flipBit (message : List (BitVec size)) (position : Nat) :
    (flipBit message position).length = message.length := by
  simp [flipBit]

@[simp] theorem length_flipBits (message : List (BitVec size)) (positions : List Nat) :
    (flipBits message positions).length = message.length := by
  induction positions generalizing message with
  | nil => rfl
  | cons position rest ih => simpa [flipBits] using ih (flipBit message position)

theorem bitAt_cons_add (hsize : 0 < size) (symbol : BitVec size) (rest : List (BitVec size))
    (position : Nat) : bitAt (symbol :: rest) (size + position) = bitAt rest position := by
  simp [bitAt, Nat.add_div_left _ hsize]

theorem bitAt_cons_lt (symbol : BitVec size) (rest : List (BitVec size))
    (position : Nat) (hp : position < size) :
    bitAt (symbol :: rest) position = symbol.getMsbD position := by
  simp [bitAt, Nat.div_eq_of_lt hp, Nat.mod_eq_of_lt hp]

theorem bitAt_of_ge (message : List (BitVec size)) (position : Nat) (h : size * message.length ≤ position) :
    bitAt message position = false := by
  by_cases hsize : 0 < size
  · have hindex : message.length ≤ position / size := by
      rw [Nat.le_div_iff_mul_le hsize, Nat.mul_comm]
      exact h
    simp [bitAt, List.getD_eq_getElem?_getD, List.getElem?_eq_none hindex]
  · have hzero : size = 0 := by omega
    subst hzero
    simp [bitAt, BitVec.getMsbD]

theorem bitAt_drop (hsize : 0 < size) (message : List (BitVec size)) (count position : Nat) :
    bitAt (message.drop count) position = bitAt message (size * count + position) := by
  simp [bitAt, List.getD_eq_getElem?_getD, Nat.mul_add_div hsize]

theorem bitAt_take (hsize : 0 < size) (message : List (BitVec size)) (count position : Nat) :
    bitAt (message.take count) position = (decide (position < size * count) && bitAt message position) := by
  have hdiv : position / size < count ↔ position < size * count := by
    rw [Nat.div_lt_iff_lt_mul hsize, Nat.mul_comm]
  by_cases h : position < size * count
  · simp [bitAt, List.getD_eq_getElem?_getD, hdiv.mpr h, h]
  · simp [bitAt, List.getD_eq_getElem?_getD, mt hdiv.mp h, h]

theorem getD_eq_of_bitAt (hsize : 0 < size) (first second : List (BitVec size)) (index : Nat)
    (h : ∀ position, size * index ≤ position → position < size * index + size →
      bitAt first position = bitAt second position) :
    first.getD index 0 = second.getD index 0 := by
  apply BitVec.eq_of_getMsbD_eq
  intro offset ho
  have hb := h (size * index + offset) (by omega) (by omega)
  simpa only [bitAt, Nat.mul_add_div hsize, Nat.div_eq_of_lt ho, Nat.add_zero, Nat.mul_add_mod,
    Nat.mod_eq_of_lt ho] using hb

theorem eq_of_getD {first second : List (BitVec size)} (hlength : first.length = second.length)
    (h : ∀ index, first.getD index 0 = second.getD index 0) : first = second := by
  apply List.ext_getElem hlength
  intro index hfirst hsecond
  simpa only [List.getD_eq_getElem _ _ hfirst, List.getD_eq_getElem _ _ hsecond] using h index

theorem take_eq_of_getD (first second : List (BitVec size)) (hlength : first.length = second.length) (count : Nat)
    (h : ∀ index < count, first.getD index 0 = second.getD index 0) : first.take count = second.take count := by
  apply eq_of_getD (by rw [List.length_take, List.length_take, hlength])
  intro index
  simp only [List.getD_eq_getElem?_getD, List.getElem?_take]
  split
  · rename_i hindex
    simpa only [List.getD_eq_getElem?_getD] using h index hindex
  · rfl

theorem drop_eq_of_getD (first second : List (BitVec size)) (hlength : first.length = second.length) (count : Nat)
    (h : ∀ index, count ≤ index → first.getD index 0 = second.getD index 0) :
    first.drop count = second.drop count := by
  apply eq_of_getD (by rw [List.length_drop, List.length_drop, hlength])
  intro index
  simpa only [List.getD_eq_getElem?_getD, List.getElem?_drop] using h (count + index) (Nat.le_add_right _ _)

theorem getD_flipBit_of_ne (message : List (BitVec size)) (position index : Nat)
    (h : position / size ≠ index) : (flipBit message position).getD index 0 = message.getD index 0 := by
  simp [flipBit, List.getD_eq_getElem?_getD, h]

theorem getD_flipBit_self (message : List (BitVec size)) (position index : Nat)
    (h : position / size = index) (hindex : index < message.length) :
    (flipBit message position).getD index 0 =
      message.getD index 0 ^^^ BitVec.twoPow size (size - 1 - position % size) := by
  simp [flipBit, List.getD_eq_getElem?_getD, h, hindex]

theorem toNat_xor_twoPow_of_clear (value : BitVec width) (position : Nat) (hp : position < width)
    (hclear : value.getLsbD position = false) :
    (value ^^^ BitVec.twoPow width position).toNat = value.toNat + 2 ^ position := by
  have hand : value &&& BitVec.twoPow width position = 0 := by
    rw [BitVec.and_twoPow, hclear]
    rfl
  have hxor : value ^^^ BitVec.twoPow width position = value + BitVec.twoPow width position := by
    rw [BitVec.add_eq_or_of_and_eq_zero _ _ hand]
    apply BitVec.eq_of_getLsbD_eq
    intro i _
    rw [BitVec.getLsbD_xor, BitVec.getLsbD_or, BitVec.getLsbD_twoPow]
    by_cases hi : position = i
    · subst i
      rw [hclear, Bool.false_xor, Bool.false_or]
    · simp [hi]
  rw [hxor, BitVec.toNat_add_of_and_eq_zero hand, BitVec.toNat_twoPow_of_lt hp]

theorem toNat_xor_twoPow_of_set (value : BitVec width) (position : Nat) (hp : position < width)
    (hset : value.getLsbD position = true) :
    (value ^^^ BitVec.twoPow width position).toNat + 2 ^ position = value.toNat := by
  have hclear : (value ^^^ BitVec.twoPow width position).getLsbD position = false := by
    rw [BitVec.getLsbD_xor, BitVec.getLsbD_twoPow, hset]
    simp [hp]
  rw [← toNat_xor_twoPow_of_clear _ position hp hclear, BitVec.xor_assoc, BitVec.xor_self, BitVec.xor_zero]

theorem getD_flipBits_of_ne (message : List (BitVec size)) (positions : List Nat) (index : Nat)
    (h : ∀ position ∈ positions, position / size ≠ index) :
    (flipBits message positions).getD index 0 = message.getD index 0 := by
  induction positions generalizing message with
  | nil => rfl
  | cons position rest ih =>
      rw [flipBits, List.foldl_cons, ← flipBits, ih _ fun other ho => h other (List.mem_cons_of_mem _ ho),
        getD_flipBit_of_ne _ _ _ (h position (by simp))]

-- The coefficient of X ^ e is the bit e places before the last one.
theorem coeff_messagePoly (hsize : 0 < size) (message : List (BitVec size)) (exponent : Nat) :
    (messagePoly message).coeff exponent =
      if exponent < size * message.length then
        coefficient (bitAt message (size * message.length - 1 - exponent)) else 0 := by
  induction message with
  | nil => simp [messagePoly]
  | cons symbol rest ih =>
      rw [messagePoly, coeff_add, coeff_mul_X_pow', ih, List.length_cons, Nat.mul_add, Nat.mul_one]
      by_cases hlow : exponent < size * rest.length
      · have hindex : size * rest.length + size - 1 - exponent =
            size + (size * rest.length - 1 - exponent) := by omega
        rw [if_neg (by omega), if_pos hlow, if_pos (by omega), hindex, bitAt_cons_add hsize, zero_add]
      · rw [if_pos (by omega), if_neg hlow, add_zero, coeff_poly]
        by_cases hhigh : exponent < size * rest.length + size
        · rw [if_pos hhigh, bitAt_cons_lt _ _ _ (by omega), BitVec.getMsbD_eq_getLsbD,
            decide_eq_true (by omega), Bool.true_and]
          congr 2
          omega
        · rw [if_neg hhigh, BitVec.getLsbD_of_ge _ _ (by omega), coefficient_false]

theorem messagePoly_injective (hsize : 0 < size) (first second : List (BitVec size))
    (hlength : first.length = second.length) (h : messagePoly first = messagePoly second) :
    first = second := by
  induction first generalizing second with
  | nil => exact (List.length_eq_zero_iff.mp hlength.symm).symm
  | cons symbol rest ih =>
      cases second with
      | nil => simp at hlength
      | cons other tail =>
          have hl : rest.length = tail.length := by simpa using hlength
          have hbit : ∀ position < size * (rest.length + 1),
              bitAt (symbol :: rest) position = bitAt (other :: tail) position := by
            intro position hp
            have hc := congrArg (coeff · (size * (rest.length + 1) - 1 - position)) h
            simp only [coeff_messagePoly hsize, List.length_cons, ← hl] at hc
            rw [if_pos (by omega), if_pos (by omega),
              show size * (rest.length + 1) - 1 - (size * (rest.length + 1) - 1 - position) = position by omega] at hc
            exact coefficient_injective hc
          have hhead : symbol = other := by
            apply BitVec.eq_of_getMsbD_eq
            intro position hp
            have hb := hbit position (by rw [Nat.mul_add]; omega)
            rwa [bitAt_cons_lt _ _ _ hp, bitAt_cons_lt _ _ _ hp] at hb
          subst other
          congr 1
          apply ih tail hl
          simpa only [messagePoly, hl, add_right_inj] using h

section Burst

-- All set coefficients lie in a window of natDegree g places: such a
-- polynomial is a power of X times one of smaller degree than g.
theorem not_dvd_of_window {F : Type*} [Field F] {g p : F[X]} (hg : g.coeff 0 ≠ 0) (hp : p ≠ 0)
    (low : Nat) (hwindow : ∀ e, p.coeff e ≠ 0 → low ≤ e ∧ e < low + g.natDegree) : ¬g ∣ p := by
  have hlow : X ^ low ∣ p := by
    rw [X_pow_dvd_iff]
    intro e he
    by_contra hne
    have := (hwindow e hne).1
    omega
  obtain ⟨burst, rfl⟩ := hlow
  have hburst : burst ≠ 0 := right_ne_zero_of_mul hp
  have hcoprime : IsCoprime g (X ^ low) := by
    apply IsCoprime.pow_right
    rwa [isCoprime_comm, irreducible_X.coprime_iff_not_dvd, X_dvd_iff]
  have hdegree : burst.natDegree < g.natDegree := by
    have htop : (X ^ low * burst).coeff (burst.natDegree + low) ≠ 0 := by
      rw [coeff_X_pow_mul]
      exact leadingCoeff_ne_zero.mpr hburst
    have := (hwindow _ htop).2
    omega
  intro hdvd
  exact hburst (eq_zero_of_dvd_of_natDegree_lt (hcoprime.dvd_of_dvd_mul_left hdvd) hdegree)

-- A checksum tells apart any two messages of one length that differ within a
-- window no longer than the register.
theorem checksum_ne_of_burst (hsize : 0 < size) (hle : size ≤ width) (taps init : BitVec width)
    (hodd : taps.getLsbD 0 = true) (first second : List (BitVec size))
    (hlength : first.length = second.length) (hne : first ≠ second) (start : Nat)
    (hburst : ∀ position, bitAt first position ≠ bitAt second position →
      start ≤ position ∧ position < start + width) :
    checksum taps init first ≠ checksum taps init second := by
  have hwidth : 0 < width := by omega
  rw [Ne, checksum_eq_iff taps init first second hle hwidth hodd hlength]
  refine not_dvd_of_window ?_ ?_ (size * first.length - start - width) ?_
  · rw [coeff_zero_generator hwidth, hodd]
    simp
  · exact fun h => hne (messagePoly_injective hsize first second hlength (sub_eq_zero.mp h))
  · intro e he
    rw [natDegree_generator]
    rw [coeff_sub, coeff_messagePoly hsize, coeff_messagePoly hsize, ← hlength] at he
    by_cases hlt : e < size * first.length
    · rw [if_pos hlt, if_pos hlt] at he
      have hbits := hburst (size * first.length - 1 - e) fun h => he (by rw [h, sub_self])
      omega
    · rw [if_neg hlt, if_neg hlt] at he
      exact absurd (sub_self 0) he

end Burst

section Parity

-- The number of set bits modulo 2.
noncomputable def parity (message : List (BitVec size)) : ZMod 2 := (messagePoly message).eval 1

@[simp] theorem parity_nil : parity ([] : List (BitVec size)) = 0 := by
  simp [parity, messagePoly]

theorem parity_cons (symbol : BitVec size) (rest : List (BitVec size)) :
    parity (symbol :: rest) = (poly symbol).eval 1 + parity rest := by
  simp [parity, messagePoly]

theorem parity_append (first second : List (BitVec size)) :
    parity (first ++ second) = parity first + parity second := by
  induction first with
  | nil => simp
  | cons symbol rest ih => rw [List.cons_append, parity_cons, ih, parity_cons, add_assoc]

theorem parity_modify (message : List (BitVec size)) (index : Nat) (hindex : index < message.length)
    (mask : BitVec size) :
    parity (message.modify index (· ^^^ mask)) = parity message + (poly mask).eval 1 := by
  induction message generalizing index with
  | nil => simp at hindex
  | cons symbol rest ih =>
      cases index with
      | zero =>
          simp only [List.modify_zero_cons, parity_cons, poly_xor, eval_add]
          ring
      | succ index =>
          rw [List.modify_succ_cons, parity_cons, parity_cons, ih index (by simpa using hindex), add_assoc]

theorem poly_twoPow (position : Nat) (hp : position < width) :
    poly (BitVec.twoPow width position) = X ^ position := by
  ext i
  rw [coeff_poly, BitVec.getLsbD_twoPow, coeff_X_pow]
  by_cases hi : i = position
  · simp [hi, hp]
  · simp [hi, Ne.symm hi]

theorem parity_flipBit (hsize : 0 < size) (message : List (BitVec size)) (position : Nat)
    (hp : position < size * message.length) :
    parity (flipBit message position) = parity message + 1 := by
  rw [flipBit, parity_modify _ _ (Nat.div_lt_of_lt_mul hp), poly_twoPow _ (by omega)]
  simp

theorem parity_flipBits (hsize : 0 < size) (message : List (BitVec size)) (positions : List Nat)
    (hp : ∀ position ∈ positions, position < size * message.length) :
    parity (flipBits message positions) = parity message + positions.length := by
  induction positions generalizing message with
  | nil => simp [flipBits]
  | cons position rest ih =>
      have hrest : ∀ other ∈ rest, other < size * (flipBit message position).length := by
        intro other ho
        simpa using hp other (List.mem_cons_of_mem _ ho)
      have hstep := ih (flipBit message position) hrest
      rw [parity_flipBit hsize _ _ (hp position (by simp))] at hstep
      rw [flipBits, List.foldl_cons, ← flipBits, hstep, List.length_cons]
      push_cast
      ring

end Parity

end Library.BitError
