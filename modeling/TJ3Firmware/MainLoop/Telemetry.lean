import TJ3Firmware.ExtComm.Incremental
import TJ3Firmware.MainLoop.ReadBack

namespace TJ3Firmware

open Library.Memory Library.Interaction Library.Stream Library.Printf

section Host

-- What a line tells about the registers of a meter.
def readingOn (meter : Atm) (line : LogLine) : List (Byte × Word16) :=
  match readReadings line.bytes with
  | some (name, registers) => if name = meter.name then registers else []
  | none => []

def readingsOn (meter : Atm) (lines : List LogLine) : List (Byte × Word16) := lines.flatMap (readingOn meter)

theorem readingOn_other (meter : Atm) (report : Report) (h : report.meter ≠ meter) : readingOn meter report.line = [] := by
  unfold readingOn
  rcases readReadings_report report with ⟨hnone, -⟩ | ⟨data, stack, -, hread⟩
  · rw [hnone]
  · rw [hread]
    exact if_neg fun hname => h (Atm.name_injective _ _ hname)

theorem readingOn_shows (report : Report) (answers : List (Byte × Word16)) (h : Shows report answers) :
    (readingOn report.meter report.line).Sublist answers := by
  unfold readingOn
  rcases readReadings_report report with ⟨hnone, -⟩ | ⟨data, stack, hline, -⟩
  · rw [hnone]
    exact List.nil_sublist answers
  · obtain ⟨data', stack', rfl, htext, -⟩ := h.readings _ hline
    rw [hline, htext, readReadings_line _ _ _ report.meter.name_ascii report.meter.name_bracket]
    simpa using shownRegisters_sublist data'

theorem readingsOn_reports (meter : Atm) (reports : List Report) (segments : List (List (Byte × Word16)))
    (h : List.Forall₂ Shows (reportsOn meter reports) segments) :
    (readingsOn meter (reports.map Report.line)).Sublist segments.flatten := by
  induction reports generalizing segments with
  | nil => exact List.nil_sublist _
  | cons report rest ih =>
      rw [readingsOn, List.map_cons, List.flatMap_cons]
      by_cases hmeter : report.meter = meter
      · rw [reportsOn, List.filter_cons_of_pos (by simpa using hmeter)] at h
        obtain ⟨answers, more, hshows, hrest, rfl⟩ := List.forall₂_cons_left_iff.mp h
        rw [List.flatten_cons, ← hmeter]
        rw [← hmeter] at hrest ih
        exact (readingOn_shows report answers hshows).append (ih more hrest)
      · rw [reportsOn, List.filter_cons_of_neg (by simpa using hmeter)] at h
        rw [readingOn_other meter report hmeter, List.nil_append]
        exact ih segments h

end Host

section Delivery

-- What the log core makes of a line: its own header in front of the text, and
-- a line end.
structure Posted (line : LogLine) where
  ready : Bool
  msg : LogMessage
  header : List Byte
  ending : List Byte
  text_eq : msg.text = header ++ line.bytes ++ ending
  short : header.length + ending.length ≤ 159

-- A message of the main loop, or one of another module.
inductive LogEntry
  | ofLoop (line : LogLine) (posted : Posted line)
  | ofOther (ready : Bool) (msg : LogMessage)

def LogEntry.message : LogEntry → Bool × LogMessage
  | .ofLoop _ posted => (posted.ready, posted.msg)
  | .ofOther ready msg => (ready, msg)

def LogEntry.logged : LogEntry → Option LogLine
  | .ofLoop line _ => some line
  | .ofOther _ _ => none

def LogEntry.sent (entry : LogEntry) : Bool := entry.message.1 && !entry.message.2.text.isEmpty

-- A packet for each entry, and the whole line in it.
def Carries : LogEntry → Byte × List Byte → Prop
  | .ofLoop line posted, packet => packet = (OP_EXT_LOG_OUTPUT, posted.header ++ line.bytes ++ posted.ending)
  | .ofOther _ msg, packet => packet = (OP_EXT_LOG_OUTPUT, msg.text.take 255)

theorem entries_carried (entries : List LogEntry)
    (h : ∀ line ∈ entries.filterMap LogEntry.logged, line.bytes.length ≤ 96) :
    List.Forall₂ Carries (entries.filter LogEntry.sent) (sentTexts (entries.map LogEntry.message)) := by
  have hsent : sentTexts (entries.map LogEntry.message) =
      (entries.filter LogEntry.sent).map fun entry => (OP_EXT_LOG_OUTPUT, entry.message.2.text.take 255) := by
    rw [sentTexts, List.filter_map, List.map_map]
    rfl
  rw [hsent, List.forall₂_map_right_iff, List.forall₂_same]
  intro entry hentry
  cases entry with
  | ofOther ready msg => rfl
  | ofLoop line posted =>
      have hshort := posted.short
      have hline := h line (List.mem_filterMap.mpr ⟨_, (List.mem_filter.mp hentry).1, rfl⟩)
      have hwhole : posted.msg.text.length ≤ 255 := by
        rw [posted.text_eq, List.length_append, List.length_append]
        omega
      have htake : posted.msg.text.take 255 = posted.header ++ line.bytes ++ posted.ending := by
        rw [List.take_of_length_le hwhole, posted.text_eq]
      exact congrArg (Prod.mk OP_EXT_LOG_OUTPUT) htake

end Delivery

-- From the registers to the host, over every run of the loop. Whichever of its
-- lines the log core hands on, in whatever pieces and between whatever other
-- messages, and however the bytes on uart30 are cut into chunks, the host gets
-- each of them whole. What it reads back from them about a meter is what the
-- registers of that meter held, in order, and nothing else.
theorem readings_reach_host {Conn : Type} (around : Nat → Surroundings) (rounds : Nat) (state last : MainState)
    (run : Run (mainLoop around rounds state : MainThread Conn _)) (lines : List LogLine)
    (hreturned : run.outcome = .ok (lines, last)) (before after : Atm → Responder)
    (hstart : ∀ meter, (before meter).request = [] ∧ (before meter).answered = [])
    (hpath : ∀ meter, Path (responderAdvance false) (before meter) (run.trace.filterMap (uartOf meter)) (after meter))
    (backend : LogBackend) (entries : List LogEntry) (hkept : (entries.filterMap LogEntry.logged).Sublist lines) :
    (∃ (backend' : LogBackend) (stream : List Byte), sendLog (entries.map LogEntry.message) backend = .ok backend' ∧
      backend'.uart = backend.uart ++ stream ∧ ∀ chunks : List (List Byte), chunks.flatten = stream →
        ∃ packets, chunks.foldl (feed receivePacket) ([], []) = (packets, []) ∧
          List.Forall₂ Carries (entries.filter LogEntry.sent) packets) ∧
    (∀ text, .inf text ∈ entries.filterMap LogEntry.logged →
      ∃ (meter : Atm) (data : Data), readReadings (LogLine.inf text).bytes = some (meter.name, shownRegisters data)) ∧
    ∀ meter, (readingsOn meter ((entries.filter LogEntry.sent).filterMap LogEntry.logged)).Sublist
      (after meter).answered := by
  have hruns := run.runs
  rw [hreturned] at hruns
  obtain ⟨-, reports, -, haccount⟩ := mainLoop_account around rounds state last run.trace lines hruns
  have hreport : ∀ line ∈ entries.filterMap LogEntry.logged, ∃ report : Report, report.line = line := by
    intro line hline
    have hmem := hkept.subset hline
    rw [haccount.lines] at hmem
    obtain ⟨report, -, hreport⟩ := List.mem_map.mp hmem
    exact ⟨report, hreport⟩
  refine ⟨?_, ?_, ?_⟩
  · obtain ⟨backend', hrun, huart⟩ := sendLog_sends (entries.map LogEntry.message) backend
    refine ⟨backend', _, hrun, huart, ?_⟩
    intro chunks hall
    obtain ⟨whole, rest, harrived⟩ := feed_chunks packetFraming receivePacket_part
      (sentFrames (entries.map LogEntry.message)) chunks (hall ▸ List.prefix_rfl)
    have hcomplete := harrived.complete hall
    rw [map_sentFrames] at hcomplete
    refine ⟨_, hcomplete, entries_carried entries ?_⟩
    intro line hline
    obtain ⟨report, rfl⟩ := hreport line hline
    exact length_report_le report
  · intro text htext
    obtain ⟨report, hline⟩ := hreport _ htext
    rcases readReadings_report report with ⟨-, herror⟩ | ⟨data, stack, -, hread⟩
    · exact absurd hline (herror text)
    · exact ⟨report.meter, data, hline ▸ hread⟩
  · intro meter
    have hmeter := hpath meter
    rw [haccount.uart] at hmeter
    obtain ⟨segments, hanswered, hshows⟩ := reports_show meter reports hmeter (hstart meter).1
    rw [(hstart meter).2, List.nil_append] at hanswered
    have hreadings := readingsOn_reports meter reports segments hshows
    rw [← haccount.lines, ← hanswered] at hreadings
    have hfewer := ((List.filter_sublist (p := LogEntry.sent)).filterMap LogEntry.logged).trans hkept
    exact (hfewer.flatMap (readingOn meter)).trans hreadings

section Example

-- The text as it is, in one piece.
def plainEntry (line : LogLine) : LogEntry :=
  .ofLoop line ⟨true, ⟨line.bytes, [line.bytes.length], by simp⟩, [], [], by simp, by simp⟩

theorem logged_plainEntry (lines : List LogLine) : (lines.map plainEntry).filterMap LogEntry.logged = lines := by
  rw [List.filterMap_map]
  exact List.filterMap_some

def startedBackend : LogBackend := ⟨Store.fresh 256 0x00#8, Store.fresh 300 0x00#8, []⟩

theorem readings_reach_host_second : ∃ (lines : List LogLine) (last : MainState) (after : Atm → Responder),
    oneSecond.outcome = .ok (lines, last) ∧
    (∃ (backend' : LogBackend) (stream : List Byte),
      sendLog ((lines.map plainEntry).map LogEntry.message) startedBackend = .ok backend' ∧
      backend'.uart = startedBackend.uart ++ stream ∧ ∀ chunks : List (List Byte), chunks.flatten = stream →
        ∃ packets, chunks.foldl (feed receivePacket) ([], []) = (packets, []) ∧
          List.Forall₂ Carries ((lines.map plainEntry).filter LogEntry.sent) packets) ∧
    (∀ text, .inf text ∈ (lines.map plainEntry).filterMap LogEntry.logged →
      ∃ (meter : Atm) (data : Data), readReadings (LogLine.inf text).bytes = some (meter.name, shownRegisters data)) ∧
    ∀ meter, (readingsOn meter (((lines.map plainEntry).filter LogEntry.sent).filterMap LogEntry.logged)).Sublist
      (after meter).answered := by
  have hreturned : ∃ lines last, oneSecond.outcome = .ok (lines, last) := ⟨_, _, rfl⟩
  obtain ⟨lines, last, hlast⟩ := hreturned
  choose after hafter using readingChip_reached
  exact ⟨lines, last, after, hlast, readings_reach_host oneReady 1 ⟨0, fun _ => Data.initial⟩ last oneSecond lines hlast
    (fun _ => readingChip) after (fun _ => ⟨rfl, rfl⟩) hafter startedBackend (lines.map plainEntry)
    (by rw [logged_plainEntry])⟩

end Example

end TJ3Firmware
