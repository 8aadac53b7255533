import TJ3Firmware.Atm90e26.Snapshot
import TJ3Firmware.Library.Printf

namespace TJ3Firmware

open Library.Memory Library.Interaction Library.Printf

section Print

inductive LogLine
  | err (text : List Char)
  | inf (text : List Char)
  deriving Repr, DecidableEq

def READING_FORMAT : String :=
  "[%s] V:%d.%02dV I:%d.%03dA P:%dW Q:%dVAr S:%dVA PF:%d.%03d Freq:%d.%02dHz E:%dWh"

-- Each channel has its own sensor_value on the stack. Returns what is logged
-- and the data of the device afterwards.
def readAtm90e26 (rounds : Nat) (ready : Bool) (name : String) (data : Data) (stack : SensorChannel → SensorValue) :
    Driver (LogLine × Data) := do
  if !ready then pure (.err (printf "Device %s is not ready" [.str name]), data)
  else do
    let (ret, data) ← sampleFetch rounds data
    if ret < 0 then pure (.err (printf "Failed to fetch sample from %s" [.str name]), data)
    else do
      let volt := (channelGet data .voltage (stack .voltage)).2
      let curr := (channelGet data .current (stack .current)).2
      let pwr := (channelGet data .power (stack .power)).2
      let pwrReact := (channelGet data .reactivePower (stack .reactivePower)).2
      let pwrApp := (channelGet data .apparentPower (stack .apparentPower)).2
      let pf := (channelGet data .powerFactor (stack .powerFactor)).2
      let freq := (channelGet data .frequency (stack .frequency)).2
      let energy := (channelGet data .energy (stack .energy)).2
      pure (.inf (printf READING_FORMAT
        [.str name, .int volt.val1, .int (volt.val2.tdiv 10000), .int curr.val1, .int (curr.val2.tdiv 1000),
          .int pwr.val1, .int pwrReact.val1, .int pwrApp.val1, .int pf.val1, .int (pf.val2.tdiv 1000),
          .int freq.val1, .int (freq.val2.tdiv 10000), .int energy.val1]), data)

end Print

section Line

-- The readings as they stand in the line.
structure ReadingTexts where
  voltage : List Char
  current : List Char
  power : List Char
  reactivePower : List Char
  apparentPower : List Char
  powerFactor : List Char
  frequency : List Char
  energy : List Char

def ReadingTexts.line (texts : ReadingTexts) (name : String) : List Char :=
  "[".toList ++ (name.toList ++ ("] V:".toList ++ (texts.voltage ++ ("V I:".toList ++ (texts.current ++
    ("A P:".toList ++ (texts.power ++ ("W Q:".toList ++ (texts.reactivePower ++ ("VAr S:".toList ++
      (texts.apparentPower ++ ("VA PF:".toList ++ (texts.powerFactor ++ (" Freq:".toList ++ (texts.frequency ++
        ("Hz E:".toList ++ (texts.energy ++ "Wh".toList)))))))))))))))))

-- val1, a point and the scaled val2
def fixedText (value : SensorValue) (width : Nat) (unit : Int) : List Char :=
  padded 0 value.val1 ++ '.' :: padded width (value.val2.tdiv unit)

def readingTexts (data : Data) (stack : SensorChannel → SensorValue) : ReadingTexts :=
  let value (chan : SensorChannel) : SensorValue := (channelGet data chan (stack chan)).2
  { voltage := fixedText (value .voltage) 2 10000
    current := fixedText (value .current) 3 1000
    power := padded 0 (value .power).val1
    reactivePower := padded 0 (value .reactivePower).val1
    apparentPower := padded 0 (value .apparentPower).val1
    powerFactor := fixedText (value .powerFactor) 3 1000
    frequency := fixedText (value .frequency) 2 10000
    energy := padded 0 (value .energy).val1 }

theorem printf_reading (name : String) (volt voltRest curr currRest pwr pwrReact pwrApp pf pfRest freq freqRest
    energy : Int) :
    printf READING_FORMAT [.str name, .int volt, .int voltRest, .int curr, .int currRest, .int pwr, .int pwrReact,
      .int pwrApp, .int pf, .int pfRest, .int freq, .int freqRest, .int energy] =
        ReadingTexts.line ⟨padded 0 volt ++ '.' :: padded 2 voltRest, padded 0 curr ++ '.' :: padded 3 currRest,
          padded 0 pwr, padded 0 pwrReact, padded 0 pwrApp, padded 0 pf ++ '.' :: padded 3 pfRest,
          padded 0 freq ++ '.' :: padded 2 freqRest, padded 0 energy⟩ name := by
  simp [printf, READING_FORMAT, parse, render, ReadingTexts.line]

-- A line of readings is printed from what a successful fetch has left.
theorem readAtm90e26_runs (rounds : Nat) (ready : Bool) (name : String) (data last : Data)
    (stack : SensorChannel → SensorValue) (trace : List UartEvent) (line : List Char)
    (h : Runs (readAtm90e26 rounds ready name data stack) trace (.ok (.inf line, last))) :
    (∃ fetch : Fetch, fetch.start = data ∧ fetch.ret = 0 ∧ fetch.last = last) ∧
      line = (readingTexts last stack).line name := by
  cases ready with
  | false =>
      obtain ⟨-, hvalue⟩ := (runs_pure _ _ _).mp h
      cases hvalue
  | true =>
      obtain ⟨before, ⟨ret, fetched⟩, after, rfl, hfetch, hrest⟩ := (runs_bind_ok _ _ _ _).mp h
      simp only at hrest
      by_cases hret : ret < 0
      · rw [if_pos hret] at hrest
        obtain ⟨-, hvalue⟩ := (runs_pure _ _ _).mp hrest
        cases hvalue
      · rw [if_neg hret] at hrest
        obtain ⟨rfl, hvalue⟩ := (runs_pure _ _ _).mp hrest
        rw [Except.ok.injEq, Prod.mk.injEq, LogLine.inf.injEq] at hvalue
        obtain ⟨rfl, rfl⟩ := hvalue
        let fetch : Fetch := ⟨rounds, data, ⟨before, _, hfetch⟩, ret, last, rfl⟩
        refine ⟨⟨fetch, rfl, ?_, rfl⟩, printf_reading _ _ _ _ _ _ _ _ _ _ _ _ _⟩
        obtain ⟨values, hreads⟩ := fetch.reads
        by_contra hfailed
        exact hret (lt_of_eq_of_lt (hreads.failure hfailed).1 (by decide))

end Line

section Values

-- Zephyr's normal form: the millionths are less than one, and of the sign of
-- the whole.
structure Normalised (value : SensorValue) : Prop where
  fraction : |value.val2| < 1000000
  sign : ¬(0 < value.val1 ∧ value.val2 < 0) ∧ ¬(value.val1 < 0 ∧ 0 < value.val2)

theorem normalised_part (whole part scale factor : Nat) (h : part < scale) (hscale : scale * factor = 1000000) :
    Normalised ⟨whole, (part * factor : Nat)⟩ := by
  have hproduct : scale * factor ≠ 0 := by omega
  have hfactor : 0 < factor := Nat.pos_of_ne_zero (right_ne_zero_of_mul hproduct)
  have hpart : part * factor < scale * factor := Nat.mul_lt_mul_of_pos_right h hfactor
  refine ⟨?_, ?_, ?_⟩
  · rw [abs_of_nonneg (Int.natCast_nonneg _)]
    omega
  · dsimp only
    omega
  · dsimp only
    omega

theorem normalised_split (raw scale factor : Nat) (hscale : scale * factor = 1000000) :
    Normalised ⟨(raw / scale : Nat), (raw % scale * factor : Nat)⟩ := by
  have hproduct : scale * factor ≠ 0 := by omega
  have hpos : 0 < scale := Nat.pos_of_ne_zero (left_ne_zero_of_mul hproduct)
  exact normalised_part _ _ scale factor (Nat.mod_lt _ hpos) hscale

theorem normalised_whole (whole : Int) : Normalised ⟨whole, 0⟩ := ⟨by norm_num, by norm_num, by norm_num⟩

def AllNormalised (data : Data) : Prop :=
  ∀ chan val, (channelGet data chan val).1 = 0 → Normalised (channelGet data chan val).2

-- Only the power factor is not split.
theorem allNormalised_iff (data : Data) : AllNormalised data ↔ data.powerFactor.toNat < 1000 := by
  constructor
  · intro h
    have hfraction := (h .powerFactor ⟨0, 0⟩ rfl).fraction
    simp only [channelGet] at hfraction
    rw [abs_of_nonneg (by omega)] at hfraction
    omega
  · intro h chan val hret
    cases chan with
    | voltage => exact normalised_split data.voltage.toNat 100 10000 (by omega)
    | current => exact normalised_split data.current.toNat 1000 1000 (by omega)
    | frequency => exact normalised_split data.freq.toNat 100 10000 (by omega)
    | powerFactor => exact normalised_part 0 data.powerFactor.toNat 1000 1000 h (by omega)
    | power => exact normalised_whole _
    | reactivePower => exact normalised_whole _
    | apparentPower => exact normalised_whole _
    | energy => exact normalised_whole _
    | phaseAngle => cases hret
    | other chan => cases hret

-- The texts denote the raw values over their scale.
structure Exact (texts : ReadingTexts) (data : Data) : Prop where
  voltage : decimalValue texts.voltage = some ((data.voltage.toNat : ℚ) / 100)
  current : decimalValue texts.current = some ((data.current.toNat : ℚ) / 1000)
  powerFactor : decimalValue texts.powerFactor = some ((data.powerFactor.toNat : ℚ) / 1000)
  frequency : decimalValue texts.frequency = some ((data.freq.toNat : ℚ) / 100)

-- A printed value whose val2 is a multiple of the unit.
theorem fixedText_mul (whole part width unit : Nat) (hunit : 0 < unit) :
    fixedText ⟨whole, (part * unit : Nat)⟩ width unit = padded 0 whole ++ '.' :: padded width part := by
  have hpart : ((part * unit : Nat) : Int).tdiv unit = part := by
    rw [← Int.ofNat_tdiv, Nat.mul_div_cancel _ hunit]
  rw [fixedText]
  simp only [hpart]

theorem decimalValue_split (raw width unit : Nat) (hwidth : 0 < width) (hunit : 0 < unit) :
    decimalValue (fixedText ⟨(raw / 10 ^ width : Nat), (raw % 10 ^ width * unit : Nat)⟩ width unit) =
      some ((raw : ℚ) / 10 ^ width) := by
  rw [fixedText_mul _ _ _ _ hunit]
  exact decimalValue_divMod raw width hwidth

theorem powerFactorText (data : Data) (stack : SensorChannel → SensorValue) :
    (readingTexts data stack).powerFactor = padded 0 (0 : Nat) ++ '.' :: padded 3 data.powerFactor.toNat :=
  fixedText_mul 0 data.powerFactor.toNat 3 1000 (by omega)

theorem readingTexts_exact_iff (data : Data) (stack : SensorChannel → SensorValue) :
    Exact (readingTexts data stack) data ↔ data.powerFactor.toNat < 1000 := by
  constructor
  · intro h
    have hvalue := h.powerFactor
    rw [powerFactorText] at hvalue
    have hlt := decimalValue_lt 0 3 _ _ hvalue
    rw [Nat.cast_zero, zero_add, div_lt_one (by norm_num)] at hlt
    exact_mod_cast hlt
  · intro h
    refine ⟨?_, ?_, ?_, ?_⟩
    · exact decimalValue_split data.voltage.toNat 2 10000 (by omega) (by omega)
    · exact decimalValue_split data.current.toNat 3 1000 (by omega) (by omega)
    · -- below one the whole part is zero and nothing is cut off
      have hbelow : data.powerFactor.toNat < 10 ^ 3 := h
      have hsplit := decimalValue_divMod data.powerFactor.toNat 3 (by omega)
      rw [Nat.div_eq_of_lt hbelow, Nat.mod_eq_of_lt hbelow] at hsplit
      rw [powerFactorText]
      exact hsplit
    · exact decimalValue_split data.freq.toNat 2 10000 (by omega) (by omega)

end Values

-- For every snapshot that is printed, all values are normalised and the four
-- texts are exact just when the power factor is below one.
theorem readings_printed_iff (rounds : Nat) (ready : Bool) (name : String) (data last : Data)
    (stack : SensorChannel → SensorValue) (run : Run (readAtm90e26 rounds ready name data stack)) (line : List Char)
    (hreturned : run.outcome = .ok (.inf line, last)) :
    (∃ fetch : Fetch, fetch.start = data ∧ fetch.ret = 0 ∧ fetch.last = last) ∧
      line = (readingTexts last stack).line name ∧
      ((AllNormalised last ∧ Exact (readingTexts last stack) last) ↔ last.powerFactor.toNat < 1000) := by
  have hruns := run.runs
  rw [hreturned] at hruns
  obtain ⟨hfetch, htext⟩ := readAtm90e26_runs rounds ready name data last stack run.trace line hruns
  refine ⟨hfetch, htext, ?_⟩
  rw [allNormalised_iff, readingTexts_exact_iff, and_self]

section Runs

-- Sixteen reads in which the power factor is read as given and the rest as 1.
def readingPolls (powerFactor : Word16) : List (Option Byte) :=
  (List.replicate 10 [none, some 0x01#8, some 0x00#8, some 0x00#8]).flatten ++
    [none, some (lowByte powerFactor), some (highByte powerFactor), some 0x00#8] ++
    (List.replicate 5 [none, some 0x01#8, some 0x00#8, some 0x00#8]).flatten

def zeroStack : SensorChannel → SensorValue := fun _ => ⟨0, 0⟩

def readingRun (powerFactor : Word16) : Run (readAtm90e26 8 true "atm1" Data.initial zeroStack) :=
  (readAtm90e26 8 true "atm1" Data.initial zeroStack).play Script.respond ⟨readingPolls powerFactor, []⟩

def readingData (powerFactor : Word16) : Data := ⟨1, 1, 1, 1, 1, 1, 1, 1, 1, powerFactor, 1, 1, 1, 1, 1, 1⟩

-- A power factor of 0.999 is printed right.
theorem readings_printed_iff_below_one : ∃ line,
    (readingRun 999).outcome = .ok (.inf line, readingData 999) ∧
      line = (readingTexts (readingData 999) zeroStack).line "atm1" ∧
      AllNormalised (readingData 999) ∧ Exact (readingTexts (readingData 999) zeroStack) (readingData 999) := by
  have hreturned : ∃ line, (readingRun 999).outcome = .ok (.inf line, readingData 999) := ⟨_, rfl⟩
  obtain ⟨line, hline⟩ := hreturned
  obtain ⟨-, htext, hiff⟩ := readings_printed_iff 8 true "atm1" Data.initial (readingData 999) zeroStack
    (readingRun 999) line hline
  exact ⟨line, hline, htext, hiff.mpr (by decide)⟩

-- A power factor of 1.000 is stored as 0 and 1000000 millionths, and printed
-- as 0.1000.
theorem unity_powerFactor_misprinted : ∃ line,
    (readingRun 1000).outcome = .ok (.inf line, readingData 1000) ∧
      line = (readingTexts (readingData 1000) zeroStack).line "atm1" ∧
      channelGet (readingData 1000) .powerFactor (zeroStack .powerFactor) = (0, ⟨0, 1000000⟩) ∧
      (readingTexts (readingData 1000) zeroStack).powerFactor = "0.1000".toList ∧
      ¬AllNormalised (readingData 1000) ∧ ¬Exact (readingTexts (readingData 1000) zeroStack) (readingData 1000) := by
  have hreturned : ∃ line, (readingRun 1000).outcome = .ok (.inf line, readingData 1000) := ⟨_, rfl⟩
  obtain ⟨line, hline⟩ := hreturned
  have hruns := (readingRun 1000).runs
  rw [hline] at hruns
  have htext := (readAtm90e26_runs 8 true "atm1" Data.initial (readingData 1000) zeroStack _ line hruns).2
  have hunity : ¬(readingData 1000).powerFactor.toNat < 1000 := by decide
  refine ⟨line, hline, htext, rfl, ?_, ?_, ?_⟩
  · rw [powerFactorText]
    decide
  · rw [allNormalised_iff]
    exact hunity
  · rw [readingTexts_exact_iff]
    exact hunity

end Runs

end TJ3Firmware
