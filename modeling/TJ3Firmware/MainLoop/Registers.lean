import TJ3Firmware.Atm90e26.Responder
import TJ3Firmware.MainLoop.Reports

namespace TJ3Firmware

open Library.Memory Library.Interaction

section Shows

-- The registers a fetch reads, holding this.
def registersOf (data : Data) : List (Byte × Word16) := sampleReads.map fun entry => (entry.1, data.get entry.2)

-- What the chip has answered meanwhile is the registers of a fetch from the
-- front. A line of readings is about all of them and states them exactly, up to
-- a power factor of one.
structure Shows (report : Report) (answers : List (Byte × Word16)) : Prop where
  order : answers.map Prod.fst <+: sampleReads.map Prod.fst
  readings : ∀ text, report.line = .inf text → ∃ data stack, answers = registersOf data ∧
    text = (readingTexts data stack).line report.meter.name ∧
    (data.powerFactor.toNat < 1000 → Exact (readingTexts data stack) data)

theorem sampleReads_addresses : ∀ entry ∈ sampleReads, entry.1 < 0x80#8 := by decide

variable {chip next : Responder}

theorem report_shows (report : Report)
    (hpath : Path (responderAdvance false) chip (report.fetch.toList.flatMap fun fetch => fetch.run.trace) next)
    (hrequest : chip.request = []) :
    next.request = [] ∧ ∃ answers, next.answered = chip.answered ++ answers ∧ Shows report answers := by
  obtain ⟨meter, line, fetch, hreported⟩ := report
  cases hreported with
  | unready =>
      cases path_nil_iff.mp hpath
      exact ⟨hrequest, [], (List.append_nil _).symm, List.nil_prefix, fun text htext => by cases htext⟩
  | failed fetch hret =>
      rw [Option.toList_some, List.flatMap_singleton] at hpath
      obtain ⟨values, hfetched⟩ := fetch.fetched
      obtain ⟨hnext, answers, hanswered, hfront, -⟩ :=
        hfetched.answered sampleReads_addresses hpath hrequest sampleReads_nodup
      exact ⟨hnext, answers, hanswered, hfront, fun text htext => by cases htext⟩
  | read fetch stack hret =>
      rw [Option.toList_some, List.flatMap_singleton] at hpath
      obtain ⟨values, hfetched⟩ := fetch.fetched
      obtain ⟨hnext, answers, hanswered, hfront, hall⟩ :=
        hfetched.answered sampleReads_addresses hpath hrequest sampleReads_nodup
      refine ⟨hnext, answers, hanswered, hfront, ?_⟩
      intro text htext
      cases htext
      exact ⟨fetch.last, stack, hall hret, rfl, (readingTexts_exact_iff fetch.last stack).mpr⟩

-- The reports about one meter.
def reportsOn (meter : Atm) (reports : List Report) : List Report := reports.filter fun report => report.meter = meter

theorem reports_show (meter : Atm) (reports : List Report)
    (hpath : Path (responderAdvance false) chip ((fetchesFrom meter reports).flatMap fun fetch => fetch.run.trace) next)
    (hrequest : chip.request = []) : ∃ segments, next.answered = chip.answered ++ segments.flatten ∧
      List.Forall₂ Shows (reportsOn meter reports) segments := by
  induction reports generalizing chip with
  | nil =>
      cases path_nil_iff.mp hpath
      exact ⟨[], (List.append_nil _).symm, .nil⟩
  | cons report rest ih =>
      have hsplit : fetchesFrom meter (report :: rest) = fetchesFrom meter [report] ++ fetchesFrom meter rest :=
        List.filterMap_append (l := [report])
      rw [hsplit, List.flatMap_append, fetchesFrom_singleton] at hpath
      obtain ⟨middle, hfirst, hrest⟩ := (path_append _ _).mp hpath
      by_cases hmeter : report.meter = meter
      · rw [if_pos hmeter] at hfirst
        obtain ⟨hmiddle, answers, hanswered, hshows⟩ := report_shows report hfirst hrequest
        obtain ⟨segments, hsegments, hall⟩ := ih hrest hmiddle
        refine ⟨answers :: segments, ?_, ?_⟩
        · rw [hsegments, hanswered, List.flatten_cons, List.append_assoc]
        · rw [reportsOn, List.filter_cons_of_pos (by simpa using hmeter)]
          exact .cons hshows hall
      · rw [if_neg hmeter] at hfirst
        cases path_nil_iff.mp hfirst
        rw [reportsOn, List.filter_cons_of_neg (by simpa using hmeter)]
        exact ih hrest hrequest

end Shows

-- From the registers to the log, over every run of the loop: the answers of each
-- meter are those its reports are about, in order, and a line of readings
-- states what the registers held when they were read.
theorem lines_show_registers {Conn : Type} (around : Nat → Surroundings) (rounds : Nat) (state last : MainState)
    (run : Run (mainLoop around rounds state : MainThread Conn _)) (lines : List LogLine)
    (hreturned : run.outcome = .ok (lines, last)) (before after : Atm → Responder)
    (hrequest : ∀ meter, (before meter).request = [])
    (hpath : ∀ meter, Path (responderAdvance false) (before meter) (run.trace.filterMap (uartOf meter)) (after meter)) :
    ∃ reports, lines = reports.map Report.line ∧ reports.map Report.meter = due state.count rounds ∧
      ∀ meter, ∃ segments, (after meter).answered = (before meter).answered ++ segments.flatten ∧
        List.Forall₂ Shows (reportsOn meter reports) segments := by
  have hruns := run.runs
  rw [hreturned] at hruns
  obtain ⟨-, reports, hmeters, haccount⟩ := mainLoop_account around rounds state last run.trace lines hruns
  refine ⟨reports, haccount.lines, hmeters, ?_⟩
  intro meter
  have hmeter := hpath meter
  rw [haccount.uart] at hmeter
  exact reports_show meter reports hmeter (hrequest meter)

section Example

-- A chip that answers every request.
def responderStep (chip : Responder) : UartEvent → Option Responder
  | ⟨.pollOut byte, _⟩ =>
      let frame := chip.request ++ [byte]
      let addr := frame.getD 1 0x00#8 &&& 0x7F#8
      if chip.request.length < 2 then some { chip with request := frame }
      else if addr < 0x80#8 ∧ frame = readFrame addr then
        some { chip with
          answered := chip.answered ++ [(addr, chip.registers addr)]
          request := []
          coming := [lowByte (chip.registers addr), highByte (chip.registers addr), 0x00#8] }
      else none
  | ⟨.pollIn, some byte⟩ =>
      if chip.coming = byte :: chip.coming.tail then some { chip with coming := chip.coming.tail } else none
  | _ => some chip

theorem responderAdvance_of_step (chip next : Responder) (event : UartEvent) (h : responderStep chip event = some next) :
    responderAdvance false chip event next := by
  obtain ⟨op, reply⟩ := event
  refine ⟨chip.registers, ?_⟩
  cases op with
  | pollOut byte =>
      simp only [responderStep] at h ⊢
      split at h
      · rename_i hshort
        rw [if_pos hshort]
        exact (Option.some.inj h).symm
      · rename_i hfull
        rw [if_neg hfull]
        split at h
        · rename_i hframe
          rw [← Option.some.inj h]
          exact .read _ 0x00#8 [] (List.nil_sublist _) hframe.1 hframe.2
        · cases h
  | pollIn =>
      cases reply with
      | some byte =>
          simp only [responderStep] at h
          split at h
          · rename_i hcoming
            exact ⟨[], chip.coming.tail, hcoming, (Option.some.inj h).symm⟩
          · cases h
      | none => exact (Option.some.inj h).symm
  | _ => exact (Option.some.inj h).symm

-- All registers hold 1 but that of the power factor.
def readingChip : Responder := ⟨fun addr => if addr = ATM90E26_REG_POWERF then 999 else 1, [], [], []⟩

theorem readingChip_reached (meter : Atm) :
    ∃ next, Path (responderAdvance false) readingChip (oneSecond.trace.filterMap (uartOf meter)) next := by
  have hsteps : ((oneSecond.trace.filterMap (uartOf meter)).foldlM responderStep readingChip).isSome = true := by
    cases meter <;> decide +kernel
  obtain ⟨next, hnext⟩ := Option.isSome_iff_exists.mp hsteps
  exact ⟨next, (path_of_foldlM responderStep _ hnext).mono _ fun chip event next => responderAdvance_of_step chip next event⟩

theorem lines_show_registers_second : ∃ (lines : List LogLine) (last : MainState) (after : Atm → Responder), oneSecond.outcome = .ok (lines, last) ∧
    ∃ reports, lines = reports.map Report.line ∧ reports.map Report.meter = due 0 1 ∧
      ∀ meter, ∃ segments, (after meter).answered = readingChip.answered ++ segments.flatten ∧
        List.Forall₂ Shows (reportsOn meter reports) segments := by
  have hreturned : ∃ lines last, oneSecond.outcome = .ok (lines, last) := ⟨_, _, rfl⟩
  obtain ⟨lines, last, hlast⟩ := hreturned
  choose after hafter using readingChip_reached
  exact ⟨lines, last, after, hlast, lines_show_registers oneReady 1 ⟨0, fun _ => Data.initial⟩ last oneSecond lines hlast
    (fun _ => readingChip) after (fun _ => rfl) hafter⟩

end Example

end TJ3Firmware
