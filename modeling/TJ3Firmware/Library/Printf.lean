import Mathlib.Algebra.Order.Field.Rat
import Mathlib.Tactic.FieldSimp
import Mathlib.Tactic.Linarith
import Mathlib.Tactic.Positivity

namespace Library.Printf

section Format

-- An argument of printf.
inductive Arg
  | int (value : Int)
  | str (text : String)

-- What a format asks for: a character of its own, %s, or an integer that is
-- padded with zeros to a width (0 for a plain %d).
inductive Directive
  | char (char : Char)
  | str
  | int (width : Nat)
  deriving Repr, DecidableEq

def parse : List Char → List Directive
  | '%' :: 's' :: rest => .str :: parse rest
  | '%' :: 'd' :: rest => .int 0 :: parse rest
  | '%' :: '0' :: width :: 'd' :: rest => .int (width.toNat - '0'.toNat) :: parse rest
  | char :: rest => .char char :: parse rest
  | [] => []

-- The sign counts for the width.
def padded (width : Nat) (value : Int) : List Char :=
  let sign := if value < 0 then ['-'] else []
  let digits := Nat.toDigits 10 value.natAbs
  sign ++ List.replicate (width - sign.length - digits.length) '0' ++ digits

-- An argument that is missing or of another type ends the text.
def render : List Directive → List Arg → List Char
  | .char char :: rest, args => char :: render rest args
  | .str :: rest, .str text :: args => text.toList ++ render rest args
  | .int width :: rest, .int value :: args => padded width value ++ render rest args
  | _, _ => []

def printf (format : String) (args : List Arg) : List Char := render (parse format.toList) args

end Format

section Decimal

-- The number that a text denotes which is digits, a point and digits.
def decimalValue (text : List Char) : Option ℚ :=
  let whole := text.takeWhile (· ≠ '.')
  match text.dropWhile (· ≠ '.') with
  | _ :: fraction =>
      if whole ≠ [] ∧ fraction ≠ [] ∧ (whole ++ fraction).all Char.isDigit then
        some (Nat.ofDigitChars 10 whole 0 + Nat.ofDigitChars 10 fraction 0 / 10 ^ fraction.length)
      else none
  | [] => none

theorem padded_natCast (width value : Nat) :
    padded width value = List.replicate (width - (Nat.toDigits 10 value).length) '0' ++ Nat.toDigits 10 value := by
  have hsign : ¬(value : Int) < 0 := by omega
  simp [padded, hsign]

theorem padded_isDigit (width value : Nat) : ∀ char ∈ padded width value, char.isDigit := by
  intro char hchar
  rw [padded_natCast] at hchar
  rcases List.mem_append.mp hchar with hzero | hdigit
  · rw [List.eq_of_mem_replicate hzero]
    rfl
  · exact Nat.isDigit_of_mem_toDigits (by omega) (by omega) hdigit

theorem padded_ne_nil (width value : Nat) : padded width value ≠ [] := by
  rw [padded_natCast]
  exact List.append_ne_nil_of_right_ne_nil _ Nat.toDigits_ne_nil

@[simp] theorem ofDigitChars_padded (width value : Nat) : Nat.ofDigitChars 10 (padded width value) 0 = value := by
  rw [padded_natCast, Nat.ofDigitChars_append, Nat.ofDigitChars_replicate_zero, Nat.mul_zero,
    Nat.ofDigitChars_ten_toDigits]

theorem length_padded (width value : Nat) :
    (padded width value).length = max width (Nat.toDigits 10 value).length := by
  rw [padded_natCast, List.length_append, List.length_replicate]
  omega

theorem length_padded_of_lt (width value : Nat) (hwidth : 0 < width) (h : value < 10 ^ width) :
    (padded width value).length = width := by
  have hdigits := (Nat.length_toDigits_le_iff (by omega) hwidth).mpr h
  rw [length_padded, Nat.max_eq_left hdigits]

theorem lt_pow_length_padded (width value : Nat) : value < 10 ^ (padded width value).length := by
  have hpos : 0 < (padded width value).length := List.length_pos_iff.mpr (padded_ne_nil width value)
  apply (Nat.length_toDigits_le_iff (by omega) hpos).mp
  rw [length_padded]
  exact Nat.le_max_right _ _

-- The digits after the point count by their number, leading zeros included.
theorem decimalValue_padded (whole width fraction : Nat) :
    decimalValue (padded 0 whole ++ '.' :: padded width fraction) =
      some ((whole : ℚ) + fraction / 10 ^ (padded width fraction).length) := by
  have hpoint : ∀ char ∈ padded 0 whole, decide (char ≠ '.') = true := by
    intro char hchar
    have hdigit := padded_isDigit 0 whole char hchar
    apply decide_eq_true
    rintro rfl
    exact absurd hdigit (by decide)
  have htake : (padded 0 whole ++ '.' :: padded width fraction).takeWhile (· ≠ '.') = padded 0 whole := by
    rw [List.takeWhile_append_of_pos hpoint, List.takeWhile_cons_of_neg (by decide), List.append_nil]
  have hdrop : (padded 0 whole ++ '.' :: padded width fraction).dropWhile (· ≠ '.') =
      '.' :: padded width fraction := by
    rw [List.dropWhile_append_of_pos hpoint, List.dropWhile_cons_of_neg (by decide)]
  have hdigits : (padded 0 whole ++ padded width fraction).all Char.isDigit := by
    rw [List.all_eq_true]
    intro char hchar
    rcases List.mem_append.mp hchar with hwhole | hfraction
    · exact padded_isDigit 0 whole char hwhole
    · exact padded_isDigit width fraction char hfraction
  rw [decimalValue, htake, hdrop]
  simp only
  rw [if_pos ⟨padded_ne_nil _ _, padded_ne_nil _ _, hdigits⟩, ofDigitChars_padded, ofDigitChars_padded]

-- A scaled number printed as its quotient, a point and its padded remainder.
theorem decimalValue_divMod (value width : Nat) (hwidth : 0 < width) :
    decimalValue (padded 0 (value / 10 ^ width : Nat) ++ '.' :: padded width (value % 10 ^ width : Nat)) =
      some ((value : ℚ) / 10 ^ width) := by
  have hpos : (0 : ℚ) < 10 ^ width := by positivity
  have hremainder : value % 10 ^ width < 10 ^ width := Nat.mod_lt _ (Nat.pow_pos (by omega))
  have hsplit : ((10 ^ width * (value / 10 ^ width) + value % 10 ^ width : Nat) : ℚ) = value := by
    rw [Nat.div_add_mod]
  rw [decimalValue_padded, length_padded_of_lt width _ hwidth hremainder, Option.some_inj, eq_div_iff hpos.ne',
    ← hsplit]
  push_cast
  field_simp

-- No digits after the point are as much as one.
theorem decimalValue_lt (whole width fraction : Nat) (value : ℚ)
    (h : decimalValue (padded 0 whole ++ '.' :: padded width fraction) = some value) : value < whole + 1 := by
  rw [decimalValue_padded, Option.some_inj] at h
  have hpos : (0 : ℚ) < 10 ^ (padded width fraction).length := by positivity
  have hlt : (fraction : ℚ) < 10 ^ (padded width fraction).length := by
    exact_mod_cast lt_pow_length_padded width fraction
  have hfraction : (fraction : ℚ) / 10 ^ (padded width fraction).length < 1 := (div_lt_one hpos).mpr hlt
  rw [← h]
  linarith

end Decimal

end Library.Printf
