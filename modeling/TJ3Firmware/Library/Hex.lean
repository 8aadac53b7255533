import Mathlib.Data.List.Basic

namespace Library.Hex

section Spelling

-- The two digits of a byte, the high one first.
def nibbles (byte : BitVec 8) : List Nat := [byte.toNat / 16, byte.toNat % 16]

-- Letters count in either case.
def digitValue (char : Char) : Option Nat :=
  if '0' ≤ char ∧ char ≤ '9' then some (char.toNat - '0'.toNat)
  else if 'a' ≤ char ∧ char ≤ 'f' then some (char.toNat - 'a'.toNat + 10)
  else if 'A' ≤ char ∧ char ≤ 'F' then some (char.toNat - 'A'.toNat + 10)
  else none

-- Spaces apart, the characters are the digits of these bytes.
def Spells (text : List Char) (bytes : List (BitVec 8)) : Prop :=
  (text.filter (· ≠ ' ')).map digitValue = (bytes.flatMap nibbles).map some

instance (text : List Char) (bytes : List (BitVec 8)) : Decidable (Spells text bytes) :=
  inferInstanceAs (Decidable (_ = _))

theorem nibble_lt (bytes : List (BitVec 8)) : ∀ digit ∈ bytes.flatMap nibbles, digit < 16 := by
  intro digit hdigit
  obtain ⟨byte, -, hnibble⟩ := List.mem_flatMap.mp hdigit
  have hbyte := byte.isLt
  simp only [nibbles, List.mem_cons, List.not_mem_nil, or_false] at hnibble
  omega

theorem nibbles_injective : ∀ first second : List (BitVec 8),
    first.flatMap nibbles = second.flatMap nibbles → first = second := by
  intro first
  induction first with
  | nil =>
      intro second h
      cases second with
      | nil => rfl
      | cons byte rest => cases h
  | cons byte rest ih =>
      intro second h
      cases second with
      | nil => cases h
      | cons byte' rest' =>
          simp only [List.flatMap_cons, nibbles, List.cons_append, List.nil_append, List.cons.injEq] at h
          obtain ⟨hhigh, hlow, hrest⟩ := h
          have hbyte : byte = byte' := BitVec.eq_of_toNat_eq (by omega)
          rw [hbyte, ih rest' hrest]

-- A text spells one byte string at most.
theorem Spells.unique {text : List Char} {first second : List (BitVec 8)} (h : Spells text first)
    (h' : Spells text second) : first = second := by
  apply nibbles_injective
  exact (List.map_inj_right fun _ _ => Option.some.inj).mp (h.symm.trans h')

end Spelling

section Reading

-- The whitespace that is skipped before a byte.
def isSpace (char : Char) : Bool := char.toNat = 32 ∨ 9 ≤ char.toNat ∧ char.toNat ≤ 13

-- bytes.fromhex, without a value when it raises ValueError.
def fromHex : List Char → Option (List (BitVec 8))
  | [] => some []
  | [char] => if isSpace char then some [] else none
  | top :: bot :: rest =>
      if isSpace top then fromHex (bot :: rest)
      else do
        let high ← digitValue top
        let low ← digitValue bot
        let bytes ← fromHex rest
        some (BitVec.ofNat 8 (16 * high + low) :: bytes)

theorem not_isSpace_of_digit (char : Char) (value : Nat) (h : digitValue char = some value) :
    isSpace char = false := by
  have hzero : 48 ≤ char.toNat := by
    unfold digitValue at h
    split at h
    · rename_i hdigit
      exact hdigit.1
    · split at h
      · rename_i hlower
        exact Nat.le_trans (by decide) (hlower.1 : 97 ≤ char.toNat)
      · split at h
        · rename_i hupper
          exact Nat.le_trans (by decide) (hupper.1 : 65 ≤ char.toNat)
        · cases h
  simp only [isSpace, decide_eq_false_iff_not]
  omega

-- Digits with nothing between them are read back.
theorem fromHex_of_digits (digits : List Char) (bytes : List (BitVec 8))
    (h : digits.map digitValue = (bytes.flatMap nibbles).map some) : fromHex digits = some bytes := by
  induction bytes generalizing digits with
  | nil =>
      rw [List.map_eq_nil_iff.mp h]
      rfl
  | cons byte rest ih =>
      have hdigits : digits.map digitValue =
          some (byte.toNat / 16) :: some (byte.toNat % 16) :: (rest.flatMap nibbles).map some := h
      obtain ⟨top, afterTop, rfl, htop, hbots⟩ := List.map_eq_cons_iff.mp hdigits
      obtain ⟨bot, more, rfl, hbot, hmore⟩ := List.map_eq_cons_iff.mp hbots
      have hvalue : BitVec.ofNat 8 (16 * (byte.toNat / 16) + byte.toNat % 16) = byte := by
        rw [Nat.div_add_mod, BitVec.ofNat_toNat, BitVec.setWidth_eq]
      simp [fromHex, not_isSpace_of_digit top _ htop, htop, hbot, ih more hmore, hvalue]

theorem fromHex_of_spells (text : List Char) (bytes : List (BitVec 8)) (h : Spells text bytes) :
    fromHex (text.filter (· ≠ ' ')) = some bytes := fromHex_of_digits _ bytes h

end Reading

section Writing

-- bytes.hex().upper()
def upperHex (bytes : List (BitVec 8)) : List Char :=
  (bytes.flatMap nibbles).map fun digit => (Nat.digitChar digit).toUpper

theorem digitValue_digitChar : ∀ digit < 16, digitValue (Nat.digitChar digit).toUpper = some digit := by
  decide

theorem digitChar_ne_space : ∀ digit < 16, (Nat.digitChar digit).toUpper ≠ ' ' := by
  decide

theorem spells_upperHex (bytes : List (BitVec 8)) : Spells (upperHex bytes) bytes := by
  have hall : ∀ char ∈ upperHex bytes, decide (char ≠ ' ') = true := by
    intro char hchar
    obtain ⟨digit, hdigit, rfl⟩ := List.mem_map.mp hchar
    exact decide_eq_true (digitChar_ne_space digit (nibble_lt bytes digit hdigit))
  rw [Spells, List.filter_eq_self.mpr hall, upperHex, List.map_map]
  apply List.map_congr_left
  intro digit hdigit
  exact digitValue_digitChar digit (nibble_lt bytes digit hdigit)

end Writing

end Library.Hex
