import TJ3Firmware.MainLoop
import TJ3Firmware.Library.Threads

namespace TJ3Firmware

open Library.Memory Library.Interaction Library.Threads Library.Printf

section Report

-- What read_atm90e26 logs, and the fetch it has made.
inductive Reported (name : String) : LogLine → Option Fetch → Prop
  | unready : Reported name (.err (printf "Device %s is not ready" [.str name])) none
  | failed (fetch : Fetch) (h : fetch.ret ≠ 0) :
      Reported name (.err (printf "Failed to fetch sample from %s" [.str name])) (some fetch)
  | read (fetch : Fetch) (stack : SensorChannel → SensorValue) (h : fetch.ret = 0) :
      Reported name (.inf ((readingTexts fetch.last stack).line name)) (some fetch)

theorem Fetch.ret_neg_iff (fetch : Fetch) : fetch.ret < 0 ↔ fetch.ret ≠ 0 := by
  obtain ⟨values, hreads⟩ := fetch.reads
  constructor
  · intro hneg hzero
    omega
  · intro hfailed
    exact lt_of_eq_of_lt (hreads.failure hfailed).1 (by decide)

theorem readAtm90e26_reported (rounds : Nat) (ready : Bool) (name : String) (data last : Data)
    (stack : SensorChannel → SensorValue) (trace : List UartEvent) (line : LogLine)
    (h : Runs (readAtm90e26 rounds ready name data stack) trace (.ok (line, last))) :
    ∃ fetch, Reported name line fetch ∧ History data fetch.toList last ∧
      trace = fetch.toList.flatMap fun fetch => fetch.run.trace := by
  cases ready with
  | false =>
      obtain ⟨rfl, hvalue⟩ := (runs_pure _ _ _).mp h
      cases hvalue
      exact ⟨none, .unready, .nil _, rfl⟩
  | true =>
      obtain ⟨before, ⟨ret, fetched⟩, after, rfl, hfetch, hrest⟩ := (runs_bind_ok _ _ _ _).mp h
      simp only at hrest
      let fetch : Fetch := ⟨rounds, data, ⟨before, _, hfetch⟩, ret, fetched, rfl⟩
      have hhistory : History data [fetch] fetched := .cons fetch [] fetched (.nil fetched)
      by_cases hret : ret < 0
      · rw [if_pos hret] at hrest
        obtain ⟨rfl, hvalue⟩ := (runs_pure _ _ _).mp hrest
        cases hvalue
        exact ⟨some fetch, .failed fetch (fetch.ret_neg_iff.mp hret), hhistory, by simp [fetch]⟩
      · rw [if_neg hret] at hrest
        obtain ⟨rfl, hvalue⟩ := (runs_pure _ _ _).mp hrest
        rw [Except.ok.injEq, Prod.mk.injEq] at hvalue
        obtain ⟨rfl, rfl⟩ := hvalue
        have hzero : fetch.ret = 0 := not_not.mp (mt fetch.ret_neg_iff.mpr hret)
        refine ⟨some fetch, ?_, hhistory, by simp [fetch]⟩
        rw [printf_reading]
        exact .read fetch stack hzero

-- A line of the log with what it is about.
structure Report where
  meter : Atm
  line : LogLine
  fetch : Option Fetch
  reported : Reported meter.name line fetch

-- The fetch from this meter, if it is the one.
def Report.fetchFrom (meter : Atm) (report : Report) : Option Fetch :=
  if report.meter = meter then report.fetch else none

def fetchesFrom (meter : Atm) (reports : List Report) : List Fetch := reports.filterMap (Report.fetchFrom meter)

theorem fetchesFrom_singleton (meter : Atm) (report : Report) :
    fetchesFrom meter [report] = if report.meter = meter then report.fetch.toList else [] := by
  rw [fetchesFrom, List.filterMap_cons, Report.fetchFrom]
  by_cases hmeter : report.meter = meter
  · rw [if_pos hmeter, if_pos hmeter]
    cases report.fetch <;> rfl
  · rw [if_neg hmeter, if_neg hmeter]
    rfl

end Report

section Account

variable {Conn : Type}

abbrev MainEvent (Conn : Type) := Event (MainCall Conn) (MainReply Conn)

-- The calls on the UART of a meter.
def uartOf (meter : Atm) : MainEvent Conn → Option UartEvent
  | ⟨.uart other call, reply⟩ => if other = meter then some ⟨call, reply⟩ else none
  | _ => none

-- The lines are about these reports. Each meter has its own fetches, one after
-- another, and there is nothing else on its UART.
structure Account (first last : Atm → Data) (trace : List (MainEvent Conn)) (lines : List LogLine)
    (reports : List Report) : Prop where
  lines : lines = reports.map Report.line
  history : ∀ meter, History (first meter) (fetchesFrom meter reports) (last meter)
  uart : ∀ meter, trace.filterMap (uartOf meter) = (fetchesFrom meter reports).flatMap fun fetch => fetch.run.trace

theorem History.append {first middle last : Data} {fetches more : List Fetch} (h : History first fetches middle)
    (h' : History middle more last) : History first (fetches ++ more) last := by
  induction h with
  | nil data => exact h'
  | cons fetch rest middle _ ih => exact .cons fetch _ last (ih h')

variable {first middle last : Atm → Data} {trace more : List (MainEvent Conn)} {lines later : List LogLine}
  {reports next : List Report}

theorem Account.append (h : Account first middle trace lines reports) (h' : Account middle last more later next) :
    Account first last (trace ++ more) (lines ++ later) (reports ++ next) where
  lines := by rw [h.lines, h'.lines, List.map_append]
  history meter := by
    rw [fetchesFrom, List.filterMap_append]
    exact (h.history meter).append (h'.history meter)
  uart meter := by
    rw [List.filterMap_append, h.uart, h'.uart, fetchesFrom, fetchesFrom, fetchesFrom, List.filterMap_append,
      List.flatMap_append]

-- Nothing is done with the meters.
theorem account_idle (data : Atm → Data) (trace : List (MainEvent Conn)) (h : ∀ meter, trace.filterMap (uartOf meter) = []) :
    Account data data trace [] [] := ⟨rfl, fun meter => .nil (data meter), h⟩

theorem account_step (event : MainEvent Conn) (hother : ∀ meter, uartOf meter event = none)
    (h : Account first last trace lines reports) : Account first last (event :: trace) lines reports where
  lines := h.lines
  history := h.history
  uart meter := by rw [List.filterMap_cons, hother meter, h.uart]

-- The calls on the UART of another meter.
theorem uartOf_other (meter other : Atm) (hother : other ≠ meter) (event : MainEvent Conn)
    (h : ∃ call, event.op = .uart other call) : uartOf meter event = none := by
  obtain ⟨op, reply⟩ := event
  obtain ⟨call, rfl⟩ := h
  exact if_neg hother

theorem readMeter_account (around : Surroundings) (meter : Atm) (data next : Atm → Data) (trace : List (MainEvent Conn))
    (line : LogLine) (h : Runs (readMeter around meter data) trace (.ok (line, next))) :
    ∃ report, report.meter = meter ∧ Account data next trace [line] [report] := by
  obtain ⟨before, ⟨printed, last⟩, after, rfl, hread, hrest⟩ := (runs_bind_ok _ _ _ _).mp h
  obtain ⟨rfl, hvalue⟩ := (runs_pure _ _ _).mp hrest
  cases hvalue
  rw [List.append_nil]
  have hevents := forall_event_of_callsOnly (fun op => ∃ call, op = .uart meter call) _ _ _
    (callsOnly_lift _ _ _ (fun call => ⟨call, rfl⟩) _) hread
  rw [lift_eq_embed] at hread
  have hruns := runs_of_embed (uartOf meter) _ _ _ hread fun call reply => if_pos rfl
  obtain ⟨fetch, hreported, hhistory, htrace⟩ := readAtm90e26_reported _ _ _ _ _ _ _ _ hruns
  refine ⟨⟨meter, line, fetch, hreported⟩, rfl, rfl, ?_, ?_⟩
  · intro other
    rw [fetchesFrom_singleton]
    by_cases hother : meter = other
    · subst hother
      rw [if_pos rfl, Function.update_self]
      exact hhistory
    · rw [if_neg hother, Function.update_of_ne (Ne.symm hother)]
      exact .nil _
  · intro other
    rw [fetchesFrom_singleton]
    by_cases hother : meter = other
    · subst hother
      rw [if_pos rfl, htrace]
    · rw [if_neg hother]
      exact List.filterMap_eq_nil_iff.mpr fun event hevent => uartOf_other other meter hother event (hevents event hevent)

-- The meters that are read in the seconds from this count on.
def due (count : Int) (rounds : Nat) : List Atm :=
  (List.range rounds).flatMap fun (second : Nat) => if (count + second).tmod 5 = 0 then [.atm1, .atm2, .atm3] else []

theorem due_succ (count : Int) (rounds : Nat) :
    due count (rounds + 1) = (if count.tmod 5 = 0 then [.atm1, .atm2, .atm3] else []) ++ due (count + 1) rounds := by
  rw [due, List.range_succ_eq_map, List.flatMap_cons, List.flatMap_map]
  congr 1
  · simp
  · apply List.flatMap_congr
    intro second _
    have hcount : count + (second + 1 : Nat) = count + 1 + second := by omega
    rw [Nat.succ_eq_add_one, hcount]

theorem readMeters_account (around : Surroundings) (state : MainState) (next : Atm → Data)
    (trace : List (MainEvent Conn)) (lines : List LogLine)
    (h : Runs (readMeters around state) trace (.ok (lines, next))) :
    ∃ reports, reports.map Report.meter = (if state.count.tmod 5 = 0 then [.atm1, .atm2, .atm3] else []) ∧
      Account state.data next trace lines reports := by
  unfold readMeters at h
  by_cases hfifth : state.count.tmod 5 = 0
  · rw [if_pos hfifth] at h ⊢
    obtain ⟨trace1, ⟨line1, data1⟩, rest1, rfl, hfirst, hrest1⟩ := (runs_bind_ok _ _ _ _).mp h
    obtain ⟨trace2, ⟨line2, data2⟩, rest2, rfl, hsecond, hrest2⟩ := (runs_bind_ok _ _ _ _).mp hrest1
    obtain ⟨trace3, ⟨line3, data3⟩, rest3, rfl, hthird, hrest3⟩ := (runs_bind_ok _ _ _ _).mp hrest2
    obtain ⟨rfl, hvalue⟩ := (runs_pure _ _ _).mp hrest3
    cases hvalue
    obtain ⟨report1, hmeter1, haccount1⟩ := readMeter_account around .atm1 _ _ _ _ hfirst
    obtain ⟨report2, hmeter2, haccount2⟩ := readMeter_account around .atm2 _ _ _ _ hsecond
    obtain ⟨report3, hmeter3, haccount3⟩ := readMeter_account around .atm3 _ _ _ _ hthird
    refine ⟨[report1, report2, report3], by simp [hmeter1, hmeter2, hmeter3], ?_⟩
    rw [List.append_nil]
    exact haccount1.append (haccount2.append haccount3)
  · rw [if_neg hfifth] at h ⊢
    obtain ⟨rfl, hvalue⟩ := (runs_pure _ _ _).mp h
    cases hvalue
    exact ⟨[], rfl, account_idle _ [] fun _ => rfl⟩

-- One second of the loop.
theorem mainStep_account (around : Surroundings) (state next : MainState) (trace : List (MainEvent Conn))
    (lines : List LogLine) (h : Runs (mainStep around state) trace (.ok (lines, next))) :
    next.count = state.count + 1 ∧
      ∃ reports, reports.map Report.meter = (if state.count.tmod 5 = 0 then [.atm1, .atm2, .atm3] else []) ∧
        Account state.data next.data trace lines reports := by
  obtain ⟨toggled, rest, rfl, hrest⟩ := (runs_perform_bind MainCall.ledToggle _ _ _).mp h
  obtain ⟨before, ⟨printed, data⟩, after, rfl, hread, hafter⟩ := (runs_bind_ok _ _ _ _).mp hrest
  obtain ⟨slept, last, rfl, hlast⟩ := (runs_perform_bind (MainCall.sleep 1) _ _ _).mp hafter
  obtain ⟨rfl, hvalue⟩ := (runs_pure _ _ _).mp hlast
  cases hvalue
  obtain ⟨reports, hmeters, haccount⟩ := readMeters_account around state data before lines hread
  refine ⟨rfl, reports, hmeters, account_step _ (fun _ => rfl) ?_⟩
  have hslept := haccount.append (account_idle data [⟨.sleep 1, slept⟩] fun _ => rfl)
  rw [List.append_nil, List.append_nil] at hslept
  exact hslept

theorem mainLoop_account (around : Nat → Surroundings) (rounds : Nat) (state last : MainState)
    (trace : List (MainEvent Conn)) (lines : List LogLine)
    (h : Runs (mainLoop around rounds state) trace (.ok (lines, last))) :
    last.count = state.count + rounds ∧ ∃ reports, reports.map Report.meter = due state.count rounds ∧
      Account state.data last.data trace lines reports := by
  induction rounds generalizing state trace lines with
  | zero =>
      obtain ⟨rfl, hvalue⟩ := (runs_pure _ _ _).mp h
      cases hvalue
      exact ⟨by simp, [], rfl, account_idle _ [] fun _ => rfl⟩
  | succ rounds ih =>
      obtain ⟨before, ⟨printed, middle⟩, rest, rfl, hstep, hrest⟩ := (runs_bind_ok _ _ _ _).mp h
      obtain ⟨after, ⟨later, final⟩, none, rfl, hlater, hend⟩ := (runs_bind_ok _ _ _ _).mp hrest
      obtain ⟨rfl, hvalue⟩ := (runs_pure _ _ _).mp hend
      cases hvalue
      obtain ⟨hcount, reports, hmeters, haccount⟩ := mainStep_account (around rounds) state middle before printed hstep
      obtain ⟨hlast, next, hdue, hnext⟩ := ih middle after later hlater
      refine ⟨by rw [hlast, hcount]; push_cast; omega, reports ++ next, ?_, ?_⟩
      · rw [List.map_append, hmeters, hdue, due_succ, hcount]
      · rw [List.append_nil]
        exact haccount.append hnext

end Account

-- In every run of the loop the three meters are reported in their order every
-- fifth second, and each line is about a fetch from the meter it names or says
-- why there was none. The fetches from a meter follow one another on its data
-- and its UART, whatever the other two meters do.
theorem main_loop_reports {Conn : Type} (around : Nat → Surroundings) (rounds : Nat) (state last : MainState)
    (run : Run (mainLoop around rounds state : MainThread Conn _)) (lines : List LogLine)
    (hreturned : run.outcome = .ok (lines, last)) :
    last.count = state.count + rounds ∧ ∃ reports, reports.map Report.meter = due state.count rounds ∧
      Account state.data last.data run.trace lines reports := by
  have hruns := run.runs
  rw [hreturned] at hruns
  exact mainLoop_account around rounds state last run.trace lines hruns

section Example

-- The first meter answers all reads, and the others are not ready.
def oneReady : Nat → Surroundings := fun _ => ⟨8, fun meter => meter = .atm1, fun _ => zeroStack⟩

def mainRespond (script : Script) : (call : MainCall Nat) → MainReply Nat call × Script
  | .ledToggle => ((), script)
  | .uart _ call => script.respond call
  | .bluetooth .enable => ((0 : Int), script)
  | .bluetooth .leAdvStart => ((0 : Int), script)
  | .bluetooth (.connRef conn) => (some conn, script)
  | .bluetooth (.connUnref _) => ((), script)
  | .sleep _ => ((), script)

def oneSecond : Run (mainLoop oneReady 1 ⟨0, fun _ => Data.initial⟩ : MainThread Nat _) :=
  Prog.play mainRespond _ ⟨readingPolls 999, []⟩

theorem main_loop_reports_second : ∃ lines last, oneSecond.outcome = .ok (lines, last) ∧
    last.count = 0 + (1 : Nat) ∧ ∃ reports, reports.map Report.meter = due 0 1 ∧
      Account (fun _ => Data.initial) last.data oneSecond.trace lines reports := by
  have hreturned : ∃ lines last, oneSecond.outcome = .ok (lines, last) := ⟨_, _, rfl⟩
  obtain ⟨lines, last, hlast⟩ := hreturned
  exact ⟨lines, last, hlast, main_loop_reports oneReady 1 ⟨0, fun _ => Data.initial⟩ last oneSecond lines hlast⟩

end Example

end TJ3Firmware
