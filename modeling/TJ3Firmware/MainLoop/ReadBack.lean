import TJ3Firmware.Library.Scan
import TJ3Firmware.MainLoop.Registers

namespace TJ3Firmware

open Library.Memory Library.Interaction Library.Printf

section ReadBack

def LogLine.text : LogLine → List Char
  | .err text => text
  | .inf text => text

def LogLine.bytes (line : LogLine) : List Byte := line.text.map fun char => BitVec.ofNat 8 char.toNat

-- The registers in a line of readings, in the order they are read.
def shownRegisters (data : Data) : List (Byte × Word16) :=
  [(ATM90E26_REG_URMS, data.voltage), (ATM90E26_REG_IRMS, data.current), (ATM90E26_REG_PMEAN, data.power),
    (ATM90E26_REG_QMEAN, data.reactivePower), (ATM90E26_REG_SMEAN, data.apparentPower), (ATM90E26_REG_FREQ, data.freq),
    (ATM90E26_REG_POWERF, data.powerFactor), (ATM90E26_REG_APENERGY, data.energyActiveP)]

def shownAddresses : List Byte :=
  [ATM90E26_REG_URMS, ATM90E26_REG_IRMS, ATM90E26_REG_PMEAN, ATM90E26_REG_QMEAN, ATM90E26_REG_SMEAN, ATM90E26_REG_FREQ,
    ATM90E26_REG_POWERF, ATM90E26_REG_APENERGY]

theorem shownRegisters_sublist (data : Data) : (shownRegisters data).Sublist (registersOf data) := by
  have hshown : shownRegisters data = (registersOf data).filter fun entry => entry.1 ∈ shownAddresses := rfl
  rw [hshown]
  exact List.filter_sublist

-- The meter and the registers that the values of a line came from.
def registersIn : List Arg → Option (String × List (Byte × Word16))
  | [.str name, .int volt, .int voltRest, .int curr, .int currRest, .int pwr, .int pwrReact, .int pwrApp, .int pf,
      .int pfRest, .int freq, .int freqRest, .int energy] =>
      some (name, [(ATM90E26_REG_URMS, BitVec.ofInt 16 (volt * 100 + voltRest)),
        (ATM90E26_REG_IRMS, BitVec.ofInt 16 (curr * 1000 + currRest)), (ATM90E26_REG_PMEAN, BitVec.ofInt 16 pwr),
        (ATM90E26_REG_QMEAN, BitVec.ofInt 16 pwrReact), (ATM90E26_REG_SMEAN, BitVec.ofInt 16 pwrApp),
        (ATM90E26_REG_FREQ, BitVec.ofInt 16 (freq * 100 + freqRest)),
        (ATM90E26_REG_POWERF, BitVec.ofInt 16 (pf * 1000 + pfRest)), (ATM90E26_REG_APENERGY, BitVec.ofInt 16 energy)])
  | _ => none

-- Reads the bytes of a line with the format it was printed with.
def readReadings (bytes : List Byte) : Option (String × List (Byte × Word16)) :=
  (scan (parse READING_FORMAT.toList) (bytes.map fun byte => Char.ofNat byte.toNat)).bind registersIn

def readingDirectives : List Directive :=
  [.char '[', .str, .char ']', .char ' ', .char 'V', .char ':', .int 0, .char '.', .int 2, .char 'V', .char ' ',
    .char 'I', .char ':', .int 0, .char '.', .int 3, .char 'A', .char ' ', .char 'P', .char ':', .int 0, .char 'W',
    .char ' ', .char 'Q', .char ':', .int 0, .char 'V', .char 'A', .char 'r', .char ' ', .char 'S', .char ':', .int 0,
    .char 'V', .char 'A', .char ' ', .char 'P', .char 'F', .char ':', .int 0, .char '.', .int 3, .char ' ', .char 'F',
    .char 'r', .char 'e', .char 'q', .char ':', .int 0, .char '.', .int 2, .char 'H', .char 'z', .char ' ', .char 'E',
    .char ':', .int 0, .char 'W', .char 'h']

theorem parse_reading : parse READING_FORMAT.toList = readingDirectives := by decide +kernel

def ASCII (char : Char) : Prop := char.toNat < 128

theorem ascii_of_isDigit (char : Char) (h : char.isDigit) : ASCII char := by
  have hlast : char.toNat ≤ 57 := by simpa using (Char.isDigit_iff_toNat.mp h).2
  unfold ASCII
  omega

theorem ofNat_toNat_byte (char : Char) (h : ASCII char) : Char.ofNat (BitVec.ofNat 8 char.toNat).toNat = char := by
  unfold ASCII at h
  rw [BitVec.toNat_ofNat, Nat.mod_eq_of_lt (by omega), Char.ofNat_toNat]

theorem text_of_bytes (line : LogLine) (h : ∀ char ∈ line.text, ASCII char) :
    (line.bytes.map fun byte => Char.ofNat byte.toNat) = line.text := by
  rw [LogLine.bytes, List.map_map]
  exact List.map_congr_left (g := id) (fun char hchar => ofNat_toNat_byte char (h char hchar)) |>.trans (List.map_id _)

theorem readingTexts_eq (data : Data) (stack : SensorChannel → SensorValue) : readingTexts data stack =
    { voltage := padded 0 (data.voltage.toNat / 100 : Nat) ++ '.' :: padded 2 (data.voltage.toNat % 100 : Nat)
      current := padded 0 (data.current.toNat / 1000 : Nat) ++ '.' :: padded 3 (data.current.toNat % 1000 : Nat)
      power := padded 0 data.power.toInt
      reactivePower := padded 0 data.reactivePower.toInt
      apparentPower := padded 0 data.apparentPower.toNat
      powerFactor := padded 0 (0 : Nat) ++ '.' :: padded 3 data.powerFactor.toNat
      frequency := padded 0 (data.freq.toNat / 100 : Nat) ++ '.' :: padded 2 (data.freq.toNat % 100 : Nat)
      energy := padded 0 data.energyActiveP.toNat } := by
  have hvoltage := fixedText_mul (data.voltage.toNat / 100) (data.voltage.toNat % 100) 2 10000 (by omega)
  have hcurrent := fixedText_mul (data.current.toNat / 1000) (data.current.toNat % 1000) 3 1000 (by omega)
  have hfrequency := fixedText_mul (data.freq.toNat / 100) (data.freq.toNat % 100) 2 10000 (by omega)
  rw [← hvoltage, ← hcurrent, ← hfrequency, ← powerFactorText data stack]
  rfl

def readingArgs (name : String) (data : Data) : List Arg :=
  [.str name, .int (data.voltage.toNat / 100 : Nat), .int (data.voltage.toNat % 100 : Nat),
    .int (data.current.toNat / 1000 : Nat), .int (data.current.toNat % 1000 : Nat), .int data.power.toInt,
    .int data.reactivePower.toInt, .int data.apparentPower.toNat, .int (0 : Nat), .int data.powerFactor.toNat,
    .int (data.freq.toNat / 100 : Nat), .int (data.freq.toNat % 100 : Nat), .int data.energyActiveP.toNat]

theorem line_eq_render (name : String) (data : Data) (stack : SensorChannel → SensorValue) :
    (readingTexts data stack).line name = render readingDirectives (readingArgs name data) := by
  rw [readingTexts_eq, ← parse_reading]
  exact (printf_reading name _ _ _ _ _ _ _ _ _ _ _ _).symm

theorem readingArgs_scannable (name : String) (data : Data) (h : ']' ∉ name.toList) :
    Scannable readingDirectives (readingArgs name data) := by
  simp [Scannable, readingDirectives, readingArgs, Stops, h]

theorem registersIn_readingArgs (name : String) (data : Data) :
    registersIn (readingArgs name data) = some (name, shownRegisters data) := by
  have hsplit (value : Word16) (scale : Nat) :
      BitVec.ofInt 16 ((value.toNat / scale : Nat) * scale + (value.toNat % scale : Nat)) = value := by
    rw [← Nat.cast_mul, ← Nat.cast_add, Nat.div_add_mod', BitVec.ofInt_natCast, BitVec.ofNat_toNat, BitVec.setWidth_eq]
  have hvoltage := hsplit data.voltage 100
  have hcurrent := hsplit data.current 1000
  have hfrequency := hsplit data.freq 100
  push_cast at hvoltage hcurrent hfrequency
  simp [readingArgs, registersIn, shownRegisters, hvoltage, hcurrent, hfrequency]

theorem line_ascii (name : String) (data : Data) (stack : SensorChannel → SensorValue)
    (hname : ∀ char ∈ name.toList, ASCII char) : ∀ char ∈ (readingTexts data stack).line name, ASCII char := by
  rw [line_eq_render]
  refine render_forall ASCII ascii_of_isDigit (by simp [ASCII]) _ _ ?_ ?_
  · simp [readingDirectives, ASCII]
  · simpa [readingArgs] using hname

-- The name can be any without a bracket.
theorem readReadings_line (name : String) (data : Data) (stack : SensorChannel → SensorValue)
    (hname : ∀ char ∈ name.toList, ASCII char) (hbracket : ']' ∉ name.toList) :
    readReadings (LogLine.inf ((readingTexts data stack).line name)).bytes = some (name, shownRegisters data) := by
  have htext := text_of_bytes (.inf ((readingTexts data stack).line name)) (line_ascii name data stack hname)
  rw [readReadings, htext, parse_reading, LogLine.text, line_eq_render,
    scan_render _ _ (readingArgs_scannable name data hbracket), Option.bind_some, registersIn_readingArgs]

-- A line is the name and these registers, no more and no less, also where the
-- power factor is misprinted, and they can be read back from it.
theorem readings_unambiguous (name name' : String) (data data' : Data) (stack stack' : SensorChannel → SensorValue)
    (hname : ∀ char ∈ name.toList, ASCII char) (hname' : ∀ char ∈ name'.toList, ASCII char)
    (hbracket : ']' ∉ name.toList) (hbracket' : ']' ∉ name'.toList) :
    ((LogLine.inf ((readingTexts data stack).line name)).bytes = (LogLine.inf ((readingTexts data' stack').line name')).bytes ↔
      name = name' ∧ shownRegisters data = shownRegisters data') ∧
    readReadings (LogLine.inf ((readingTexts data stack).line name)).bytes = some (name, shownRegisters data) := by
  have hread := readReadings_line name data stack hname hbracket
  refine ⟨?_, hread⟩
  constructor
  · intro hbytes
    rw [hbytes, readReadings_line name' data' stack' hname' hbracket', Option.some_inj, Prod.mk.injEq] at hread
    exact ⟨hread.1.symm, hread.2.symm⟩
  · rintro ⟨rfl, hregisters⟩
    simp only [shownRegisters, List.cons.injEq, Prod.mk.injEq, true_and, and_true] at hregisters
    obtain ⟨hvoltage, hcurrent, hpower, hreactive, happarent, hfrequency, hfactor, henergy⟩ := hregisters
    rw [line_eq_render, line_eq_render, readingArgs, readingArgs, hvoltage, hcurrent, hpower, hreactive, happarent,
      hfrequency, hfactor, henergy]

-- A power factor of 1.000 is misprinted as 0.1000, and 0.100 is printed as
-- another text.
theorem readings_unambiguous_unity : ((LogLine.inf ((readingTexts (readingData 1000) zeroStack).line "ATM1")).bytes =
    (LogLine.inf ((readingTexts (readingData 100) zeroStack).line "ATM1")).bytes ↔
      "ATM1" = "ATM1" ∧ shownRegisters (readingData 1000) = shownRegisters (readingData 100)) ∧
    readReadings (LogLine.inf ((readingTexts (readingData 1000) zeroStack).line "ATM1")).bytes =
      some ("ATM1", shownRegisters (readingData 1000)) :=
  readings_unambiguous "ATM1" "ATM1" (readingData 1000) (readingData 100) zeroStack zeroStack (by simp [ASCII])
    (by simp [ASCII]) (by simp) (by simp)

end ReadBack

section Lines

theorem length_padded_word (value : Word16) : (padded 0 value.toNat).length ≤ 5 :=
  length_padded_le 0 value.toNat 5 (by omega) (by omega) (by omega)

theorem length_padded_signed (value : Word16) : (padded 0 value.toInt).length ≤ 6 := by
  have hlow := value.le_toInt
  have hhigh := value.toInt_lt
  exact length_padded_int_le 0 5 value.toInt (by omega) (by omega) (by omega)

theorem length_hundredths (value : Word16) :
    (padded 0 (value.toNat / 100 : Nat) ++ '.' :: padded 2 (value.toNat % 100 : Nat)).length ≤ 6 := by
  have hwhole := length_padded_le 0 (value.toNat / 100) 3 (by omega) (by omega) (by omega)
  have hpart := length_padded_le 2 (value.toNat % 100) 2 (by omega) (by omega) (by omega)
  rw [List.length_append, List.length_cons]
  omega

theorem length_thousandths (whole part : Nat) (hwhole : whole < 100) (hpart : part < 100000) :
    (padded 0 whole ++ '.' :: padded 3 part).length ≤ 8 := by
  have hfirst := length_padded_le 0 whole 2 (by omega) (by omega) (by omega)
  have hlast := length_padded_le 3 part 5 (by omega) (by omega) (by omega)
  rw [List.length_append, List.length_cons]
  omega

theorem length_line (texts : ReadingTexts) (name : String) : (texts.line name).length =
    texts.voltage.length + texts.current.length + texts.power.length + texts.reactivePower.length +
      texts.apparentPower.length + texts.powerFactor.length + texts.frequency.length + texts.energy.length +
      name.length + 42 := by
  have hliterals : ["[", "] V:", "V I:", "A P:", "W Q:", "VAr S:", "VA PF:", " Freq:", "Hz E:", "Wh"].map String.length =
      [1, 4, 4, 4, 4, 6, 6, 6, 5, 2] := by decide +kernel
  simp only [List.map_cons, List.map_nil, List.cons.injEq] at hliterals
  simp only [ReadingTexts.line, List.length_append, String.length_toList, hliterals]
  omega

-- A line of readings has at most this many characters and those of the name.
theorem length_line_le (name : String) (data : Data) (stack : SensorChannel → SensorValue) :
    ((readingTexts data stack).line name).length ≤ 92 + name.length := by
  have hvoltage := length_hundredths data.voltage
  have hfrequency := length_hundredths data.freq
  have hcurrent := length_thousandths (data.current.toNat / 1000) (data.current.toNat % 1000) (by omega) (by omega)
  have hfactor := length_thousandths 0 data.powerFactor.toNat (by omega) (by omega)
  have hpower := length_padded_signed data.power
  have hreactive := length_padded_signed data.reactivePower
  have happarent := length_padded_word data.apparentPower
  have henergy := length_padded_word data.energyActiveP
  rw [length_line, readingTexts_eq]
  dsimp only
  omega

theorem Atm.name_ascii (meter : Atm) : ∀ char ∈ meter.name.toList, ASCII char := by
  cases meter <;> simp [Atm.name, ASCII]

theorem Atm.name_bracket (meter : Atm) : ']' ∉ meter.name.toList := by
  cases meter <;> simp [Atm.name]

theorem Atm.length_name (meter : Atm) : meter.name.length = 4 := by
  cases meter <;> rfl

theorem Atm.name_injective (meter other : Atm) (h : meter.name = other.name) : meter = other := by
  cases meter <;> cases other <;> first | rfl | exact absurd h (by decide)

-- An error is not taken for readings.
theorem error_lines (meter : Atm) : ∀ format ∈ ["Device %s is not ready", "Failed to fetch sample from %s"],
    (printf format [.str meter.name]).length ≤ 96 ∧ readReadings (LogLine.err (printf format [.str meter.name])).bytes = none := by
  cases meter <;> decide +kernel

theorem length_report_le (report : Report) : report.line.bytes.length ≤ 96 := by
  obtain ⟨meter, line, fetch, hreported⟩ := report
  rw [LogLine.bytes, List.length_map]
  cases hreported with
  | unready => exact (error_lines meter _ (by simp)).1
  | failed fetch hret => exact (error_lines meter _ (by simp)).1
  | read fetch stack hret =>
      have hline := length_line_le meter.name fetch.last stack
      rwa [meter.length_name] at hline

theorem readReadings_report (report : Report) :
    readReadings report.line.bytes = none ∧ (∀ text, report.line ≠ .inf text) ∨
      ∃ data stack, report.line = .inf ((readingTexts data stack).line report.meter.name) ∧
        readReadings report.line.bytes = some (report.meter.name, shownRegisters data) := by
  obtain ⟨meter, line, fetch, hreported⟩ := report
  cases hreported with
  | unready => exact Or.inl ⟨(error_lines meter _ (by simp)).2, fun text h => by cases h⟩
  | failed fetch hret => exact Or.inl ⟨(error_lines meter _ (by simp)).2, fun text h => by cases h⟩
  | read fetch stack hret =>
      exact Or.inr ⟨fetch.last, stack, rfl, readReadings_line _ _ _ meter.name_ascii meter.name_bracket⟩

end Lines

end TJ3Firmware
