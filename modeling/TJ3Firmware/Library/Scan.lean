import TJ3Firmware.Library.Printf

namespace Library.Printf

section Scan

def scanNat (text : List Char) : Option (Nat × List Char) :=
  let digits := text.takeWhile Char.isDigit
  if digits = [] then none else some (Nat.ofDigitChars 10 digits 0, text.dropWhile Char.isDigit)

def scanInt (text : List Char) : Option (Int × List Char) :=
  if text.head? = some '-' then (scanNat text.tail).map fun (value, rest) => (- (value : Int), rest)
  else (scanNat text).map fun (value, rest) => ((value : Int), rest)

-- A %s ends in front of the next character of the format.
def inWord (rest : List Directive) (char : Char) : Bool := decide (rest.head? ≠ some (.char char))

-- Reads a text back that was printed with these directives.
def scan : List Directive → List Char → Option (List Arg)
  | [], [] => some []
  | .char char :: rest, first :: more => if first = char then scan rest more else none
  | .str :: rest, text =>
      (scan rest (text.dropWhile (inWord rest))).map (.str (String.ofList (text.takeWhile (inWord rest))) :: ·)
  | .int _ :: rest, text => do
      let (value, text) ← scanInt text
      let args ← scan rest text
      some (.int value :: args)
  | _, _ => none

-- The text ends here, or goes on with such a character of the format.
def Stops (ok : Char → Prop) (rest : List Directive) : Prop :=
  ∀ directive ∈ rest.head?, ∃ char, directive = .char char ∧ ok char

-- A word does not hold the character after it, and no digit comes after an
-- integer.
def Scannable : List Directive → List Arg → Prop
  | [], [] => True
  | .char _ :: rest, args => Scannable rest args
  | .str :: rest, .str text :: args => Stops (fun char => char ∉ text.toList) rest ∧ Scannable rest args
  | .int _ :: rest, .int _ :: args => Stops (fun char => ¬char.isDigit) rest ∧ Scannable rest args
  | _, _ => False

theorem span_render (p : Char → Bool) (text : List Char) (rest : List Directive) (args : List Arg)
    (htext : ∀ char ∈ text, p char) (hstops : Stops (fun char => ¬p char) rest) :
    (text ++ render rest args).takeWhile p = text ∧ (text ++ render rest args).dropWhile p = render rest args := by
  rw [List.takeWhile_append_of_pos htext, List.dropWhile_append_of_pos htext]
  cases rest with
  | nil => simp [render]
  | cons directive more =>
      obtain ⟨char, rfl, hchar⟩ := hstops directive rfl
      simp [render, hchar]

theorem natural_or_negative (value : Int) : (∃ amount : Nat, value = amount) ∨ ∃ amount : Nat, 0 < amount ∧ value = - amount := by
  rcases lt_or_ge value 0 with hneg | hnonneg
  · exact Or.inr ⟨value.natAbs, by omega, by omega⟩
  · exact Or.inl (Int.eq_ofNat_of_zero_le hnonneg)

theorem padded_neg (width value : Nat) (h : 0 < value) :
    padded width (- (value : Int)) = '-' :: padded (width - 1) value := by
  have hneg : - (value : Int) < 0 := by omega
  rw [padded_natCast, padded, if_pos hneg]
  simp

theorem scanNat_padded (width value : Nat) (rest : List Directive) (args : List Arg)
    (h : Stops (fun char => ¬char.isDigit) rest) :
    scanNat (padded width value ++ render rest args) = some (value, render rest args) := by
  obtain ⟨htake, hdrop⟩ := span_render Char.isDigit (padded width value) rest args (padded_isDigit width value) h
  rw [scanNat, htake, hdrop, if_neg (padded_ne_nil width value), ofDigitChars_padded]

theorem head_padded_ne (width value : Nat) (rest : List Char) : (padded width value ++ rest).head? ≠ some '-' := by
  intro hhead
  obtain ⟨first, more, hpadded⟩ := List.exists_cons_of_ne_nil (padded_ne_nil width value)
  have hdigit := padded_isDigit width value first (by simp [hpadded])
  simp only [hpadded, List.cons_append, List.head?_cons, Option.some_inj] at hhead
  rw [hhead] at hdigit
  exact absurd hdigit (by decide)

theorem scanInt_padded (width : Nat) (value : Int) (rest : List Directive) (args : List Arg)
    (h : Stops (fun char => ¬char.isDigit) rest) :
    scanInt (padded width value ++ render rest args) = some (value, render rest args) := by
  rcases natural_or_negative value with ⟨amount, rfl⟩ | ⟨amount, hpos, rfl⟩
  · rw [scanInt, if_neg (head_padded_ne width amount _), scanNat_padded width amount rest args h, Option.map_some]
  · rw [padded_neg width amount hpos, scanInt, if_pos (by simp), List.cons_append, List.tail_cons,
      scanNat_padded _ amount rest args h, Option.map_some]

-- What was printed is read back as it was given.
theorem scan_render (directives : List Directive) (args : List Arg) (h : Scannable directives args) :
    scan directives (render directives args) = some args := by
  induction directives generalizing args with
  | nil =>
      cases args with
      | nil => rfl
      | cons arg more => exact absurd h id
  | cons directive rest ih =>
      cases directive with
      | char char =>
          rw [render, scan, if_pos rfl]
          exact ih args h
      | str =>
          cases args with
          | nil => exact absurd h id
          | cons arg more =>
              cases arg with
              | int value => exact absurd h id
              | str text =>
                  obtain ⟨hstops, hmore⟩ := h
                  have hword : ∀ char ∈ text.toList, inWord rest char := by
                    intro char hchar
                    apply decide_eq_true
                    intro hhead
                    obtain ⟨_, hsame, hout⟩ := hstops _ hhead
                    cases hsame
                    exact hout hchar
                  have hends : Stops (fun char => ¬inWord rest char) rest := by
                    intro directive hdirective
                    obtain ⟨char, rfl, -⟩ := hstops directive hdirective
                    exact ⟨char, rfl, by simpa [inWord] using hdirective⟩
                  obtain ⟨htake, hdrop⟩ := span_render (inWord rest) text.toList rest more hword hends
                  rw [render, scan, htake, hdrop, ih more hmore, String.ofList_toList, Option.map_some]
      | int width =>
          cases args with
          | nil => exact absurd h id
          | cons arg more =>
              cases arg with
              | str text => exact absurd h id
              | int value =>
                  obtain ⟨hstops, hmore⟩ := h
                  rw [render, scan, scanInt_padded width value rest more hstops, Option.bind_eq_bind, Option.bind_some]
                  simp [ih more hmore]

end Scan

section Chars

theorem length_padded_le (width value count : Nat) (hcount : 0 < count) (hwidth : width ≤ count) (h : value < 10 ^ count) :
    (padded width value).length ≤ count := by
  rw [length_padded]
  exact Nat.max_le.mpr ⟨hwidth, (Nat.length_toDigits_le_iff (by omega) hcount).mpr h⟩

theorem length_padded_int_le (width count : Nat) (value : Int) (hcount : 0 < count) (hwidth : width ≤ count)
    (h : value.natAbs < 10 ^ count) : (padded width value).length ≤ count + 1 := by
  rcases natural_or_negative value with ⟨amount, rfl⟩ | ⟨amount, hpos, rfl⟩
  · exact Nat.le_succ_of_le (length_padded_le width amount count hcount hwidth h)
  · rw [padded_neg width amount hpos, List.length_cons]
    rw [Int.natAbs_neg, Int.natAbs_natCast] at h
    exact Nat.succ_le_succ (length_padded_le (width - 1) amount count hcount (by omega) h)

theorem padded_forall (p : Char → Prop) (hdigit : ∀ char, char.isDigit → p char) (hminus : p '-') (width : Nat)
    (value : Int) : ∀ char ∈ padded width value, p char := by
  rcases natural_or_negative value with ⟨amount, rfl⟩ | ⟨amount, hpos, rfl⟩
  · exact fun char hchar => hdigit char (padded_isDigit width amount char hchar)
  · rw [padded_neg width amount hpos, List.forall_mem_cons]
    exact ⟨hminus, fun char hchar => hdigit char (padded_isDigit (width - 1) amount char hchar)⟩

-- What is printed is made of the characters of the format and the words, of
-- digits and signs.
theorem render_forall (p : Char → Prop) (hdigit : ∀ char, char.isDigit → p char) (hminus : p '-')
    (directives : List Directive) (args : List Arg) (hformat : ∀ char, Directive.char char ∈ directives → p char)
    (hwords : ∀ text, Arg.str text ∈ args → ∀ char ∈ text.toList, p char) :
    ∀ char ∈ render directives args, p char := by
  induction directives generalizing args with
  | nil => simp [render]
  | cons directive rest ih =>
      have hrest : ∀ char, Directive.char char ∈ rest → p char := fun char h => hformat char (List.mem_cons_of_mem _ h)
      cases directive with
      | char char =>
          rw [render, List.forall_mem_cons]
          exact ⟨hformat char List.mem_cons_self, ih args hrest hwords⟩
      | str =>
          cases args with
          | nil => simp [render]
          | cons arg more =>
              have hmore : ∀ text, Arg.str text ∈ more → ∀ char ∈ text.toList, p char :=
                fun text h => hwords text (List.mem_cons_of_mem _ h)
              cases arg with
              | int value => simp [render]
              | str text =>
                  rw [render, List.forall_mem_append]
                  exact ⟨hwords text List.mem_cons_self, ih more hrest hmore⟩
      | int width =>
          cases args with
          | nil => simp [render]
          | cons arg more =>
              have hmore : ∀ text, Arg.str text ∈ more → ∀ char ∈ text.toList, p char :=
                fun text h => hwords text (List.mem_cons_of_mem _ h)
              cases arg with
              | str text => simp [render]
              | int value =>
                  rw [render, List.forall_mem_append]
                  exact ⟨padded_forall p hdigit hminus width value, ih more hrest hmore⟩

end Chars

end Library.Printf
