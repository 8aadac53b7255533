import TJ3Firmware.Atm90e26.Energy
import TJ3Firmware.MainLoop.Telemetry

namespace TJ3Firmware

open Library.Memory Library.Interaction Library.Threads Library.Printf

section Meters

theorem Accumulates.refl (meter : Meter) : Accumulates meter meter :=
  ⟨fun _ => rfl, fun _ => Nat.le_refl _, rfl, rfl, rfl⟩

theorem Accumulates.trans {meter grown next : Meter} (h : Accumulates meter grown) (h' : Accumulates grown next) :
    Accumulates meter next where
  held energy := by
    have hheld := h.held energy
    have hheld' := h'.held energy
    omega
  total energy := (h.total energy).trans (h'.total energy)
  cleared := h'.cleared.trans h.cleared
  request := h'.request.trans h.request
  coming := h'.coming.trans h.coming

-- All three meters go on metering, in whatever second and whichever of them the
-- program talks to.
def metersAdvance {Conn : Type} (meters : Atm → Meter) (event : MainEvent Conn) (next : Atm → Meter) : Prop :=
  ∀ meter, match uartOf meter event with
    | some seen => meterAdvance false (meters meter) seen (next meter)
    | none => Accumulates (meters meter) (next meter)

theorem meters_view {Conn : Type} (before after : Atm → Meter) (trace : List (MainEvent Conn))
    (h : Path metersAdvance before trace after) (meter : Atm) :
    ∃ reached, Path (meterAdvance false) (before meter) (trace.filterMap (uartOf meter)) reached ∧
      Accumulates reached (after meter) := by
  refine path_view (fun meters => meters meter) (uartOf meter) Accumulates Accumulates.refl ?_ ?_ ?_ ?_ trace h
  · exact fun _ _ _ hfirst hlast => hfirst.trans hlast
  · rintro state grown event next hdrift ⟨more, hmore, heffect⟩
    exact ⟨more, hdrift.trans hmore, heffect⟩
  · intro meters event next seen hpart hstep
    have hmeter := hstep meter
    rwa [hpart] at hmeter
  · intro meters event next hpart hstep
    have hmeter := hstep meter
    rwa [hpart] at hmeter

-- Fetches that make up all of the path of a meter, which then goes on metering.
theorem exists_meterRun {data last : Data} {fetches : List Fetch} (h : History data fetches last)
    (meter reached grown : Meter)
    (hpath : Path (meterAdvance false) meter (fetches.flatMap fun fetch => fetch.run.trace) reached)
    (hgrown : Accumulates reached grown) :
    ∃ metered : List (MeteredFetch false), metered.map MeteredFetch.fetch = fetches ∧
      MeterRun false (meter, data) metered (grown, last) := by
  induction h generalizing meter with
  | nil data =>
      cases path_nil_iff.mp hpath
      exact ⟨[], rfl, .wait _ grown data [] _ hgrown (.nil _)⟩
  | cons fetch rest last _ ih =>
      obtain ⟨middle, hfirst, hrest⟩ := (path_append _ _).mp hpath
      obtain ⟨metered, hfetches, hrun⟩ := ih middle hrest
      let first : MeteredFetch false := ⟨fetch, meter, middle, hfirst⟩
      exact ⟨first :: metered, by rw [List.map_cons, hfetches], .fetch first metered _ hrun⟩

end Meters

section Loss

variable {meter next : Meter}

-- A request clears a register at most once, and a register has sixteen bits.
theorem exchange_cleared_le {addr : Byte} (exchange : ReadExchange addr)
    (h : Path (meterAdvance false) meter exchange.trace next) (hrequest : meter.request = []) (energy : Energy) :
    next.cleared energy ≤ meter.cleared energy + 65535 := by
  have hsplit : exchange.trace = (exchange.stale.map polled ++ [emptyPoll]) ++
      (sent (readFrame addr) ++ exchange.answer) := by simp [ReadExchange.trace]
  rw [hsplit] at h
  obtain ⟨flushed, hflush, hrest⟩ := (path_append _ _).mp h
  obtain ⟨asked, hsent, hanswer⟩ := (path_append _ _).mp hrest
  obtain ⟨hflushed, hflushedRequest, -⟩ := listening_path _ hflush (flush_listening exchange.stale)
  obtain ⟨grown, hgrown, hhears⟩ := sent_path _ _ _ hsent (hflushedRequest.trans hrequest)
  obtain ⟨hcleared, -, -⟩ := listening_path _ hanswer exchange.listening
  rw [hcleared, ← hflushed, ← hgrown]
  cases hhears with
  | lost old hold => exact Nat.le_add_right _ _
  | other answer old hold hframe => exact Nat.le_add_right _ _
  | energy read checksum old hold hframe =>
      have hword := (grown.held read).isLt
      by_cases hsame : energy = read
      · subst hsame
        simp only [Function.update_self]
        omega
      · simp [hsame]

theorem Fetched.cleared_le {reads : List (Byte × Field)} {data last : Data} {trace : List UartEvent}
    {values : List (Field × Word16)} {ret : Int} (h : Fetched reads data trace values ret last)
    (hpath : Path (meterAdvance false) meter trace next) (hrequest : meter.request = [])
    (hframes : (reads.map fun entry => readFrame entry.1).Nodup) (energy : Energy) :
    next.cleared energy ≤ meter.cleared energy + 65535 := by
  induction h generalizing meter with
  | done data =>
      cases path_nil_iff.mp hpath
      exact Nat.le_add_right _ _
  | timeout addr field rest data exchange hshort => exact exchange_cleared_le exchange hpath hrequest energy
  | read addr field rest data last exchange lsb msb checksum trace values ret _ hmore ih =>
      obtain ⟨middle, hfirst, hrest⟩ := (path_append _ _).mp hpath
      obtain ⟨hmiddle, hkept, -⟩ := exchange_path exchange hfirst hrequest energy
      rw [List.map_cons, List.nodup_cons] at hframes
      by_cases hframe : readFrame addr = readFrame energy.addr
      · -- this is the one request that clears it
        have hother : ∀ entry ∈ rest, readFrame entry.1 ≠ readFrame energy.addr := by
          intro entry hentry hsame
          exact hframes.1 (List.mem_map.mpr ⟨entry, hentry, hsame.trans hframe.symm⟩)
        rw [(hmore.request_path hrest hmiddle energy).2 hother]
        exact exchange_cleared_le exchange hfirst hrequest energy
      · rw [← hkept hframe]
        exact ih hrest hmiddle hframes.2

theorem MeterRun.lost_le {start last : Meter × Data} {fetches : List (MeteredFetch false)}
    (h : MeterRun false start fetches last) (hrequest : start.1.request = []) (energy : Energy) :
    lost energy fetches ≤ 65535 * (fetches.map MeteredFetch.fetch).countP fun fetch => fetch.ret ≠ 0 := by
  induction h with
  | nil state => exact Nat.zero_le _
  | wait meter grown data fetches last haccumulates _ ih => exact ih (haccumulates.request.trans hrequest)
  | fetch metered fetches last _ ih =>
      obtain ⟨values, hfetched⟩ := metered.fetch.fetched
      have hrest := ih (hfetched.request_path metered.path hrequest energy).1
      have hcleared := hfetched.cleared_le metered.path hrequest sampleReads_frames energy
      rw [lost, List.map_cons, List.countP_cons]
      by_cases hret : metered.fetch.ret = 0
      · rw [if_pos hret, if_neg (by simpa using hret), Nat.zero_add]
        exact hrest
      · rw [if_neg hret, if_pos (decide_eq_true hret)]
        omega

end Loss

section Bill

-- The energy in a line about a meter.
def energyOn (meter : Atm) (line : LogLine) : Nat := (((readingOn meter line).lookup ATM90E26_REG_APENERGY).getD 0).toNat

-- What the lines say a meter has measured.
def billed (meter : Atm) (lines : List LogLine) : Nat := (lines.map (energyOn meter)).sum

def failedLine (meter : Atm) : LogLine := .err (printf "Failed to fetch sample from %s" [.str meter.name])

-- What a fetch adds to the bill.
def Fetch.energy (fetch : Fetch) : Nat := if fetch.ret = 0 then (fetch.last.get .energyActiveP).toNat else 0

theorem stored_eq (metered : List (MeteredFetch false)) :
    stored .positive metered = ((metered.map MeteredFetch.fetch).map Fetch.energy).sum := by
  induction metered with
  | nil => rfl
  | cons first rest ih => rw [stored, ih, List.map_cons, List.map_cons, List.sum_cons, Fetch.energy, Energy.field]

theorem energyOn_report (report : Report) : energyOn report.meter report.line = (report.fetch.map Fetch.energy).getD 0 := by
  obtain ⟨meter, line, fetch, hreported⟩ := report
  have herror (format : String) (hformat : format ∈ ["Device %s is not ready", "Failed to fetch sample from %s"]) :
      energyOn meter (.err (printf format [.str meter.name])) = 0 := by
    rw [energyOn, readingOn, (error_lines meter format hformat).2]
    rfl
  cases hreported with
  | unready => exact herror _ (by simp)
  | failed fetch hret =>
      rw [Option.map_some, Option.getD_some, Fetch.energy, if_neg hret]
      exact herror _ (by simp)
  | read fetch stack hret =>
      rw [Option.map_some, Option.getD_some, Fetch.energy, if_pos hret, energyOn, readingOn,
        readReadings_line _ _ _ meter.name_ascii meter.name_bracket]
      simp only [if_true]
      rfl

theorem billed_reports (meter : Atm) (reports : List Report) :
    billed meter (reports.map Report.line) = ((fetchesFrom meter reports).map Fetch.energy).sum := by
  induction reports with
  | nil => rfl
  | cons report rest ih =>
      have hsplit : fetchesFrom meter (report :: rest) = fetchesFrom meter [report] ++ fetchesFrom meter rest :=
        List.filterMap_append (l := [report])
      rw [hsplit, List.map_append, List.sum_append, ← ih, fetchesFrom_singleton, List.map_cons, billed, List.map_cons,
        List.sum_cons]
      congr 1
      by_cases hmeter : report.meter = meter
      · rw [if_pos hmeter, ← hmeter, energyOn_report]
        cases report.fetch <;> simp
      · rw [if_neg hmeter, energyOn, readingOn_other meter report hmeter]
        rfl

-- A failed fetch is reported as such.
theorem failed_le (meter : Atm) (reports : List Report) :
    ((fetchesFrom meter reports).countP fun fetch => fetch.ret ≠ 0) ≤
      (reports.map Report.line).count (failedLine meter) := by
  induction reports with
  | nil => exact Nat.le_refl _
  | cons report rest ih =>
      have hsplit : fetchesFrom meter (report :: rest) = fetchesFrom meter [report] ++ fetchesFrom meter rest :=
        List.filterMap_append (l := [report])
      rw [hsplit, List.countP_append, List.map_cons, List.count_cons, Nat.add_comm]
      refine Nat.add_le_add ih ?_
      rw [fetchesFrom_singleton]
      obtain ⟨other, line, fetch, hreported⟩ := report
      by_cases hmeter : other = meter
      · subst hmeter
        rw [if_pos rfl]
        cases hreported with
        | unready => exact Nat.zero_le _
        | failed fetch hret => simp [failedLine, hret]
        | read fetch stack hret => simp [hret]
      · rw [if_neg hmeter]
        exact Nat.zero_le _

end Bill

-- The bill is right. Over every run of the loop, with meters that go on metering
-- all the time: the energies in the lines about a meter, what it still holds and
-- what the fetches from it that failed have cleared add up to all the energy it
-- has measured. That is no more than a register for each fetch that the log
-- reports as failed, so nothing where it reports none, and no part of the lines
-- says too much.
theorem energy_billed {Conn : Type} (around : Nat → Surroundings) (rounds : Nat) (state last : MainState)
    (run : Run (mainLoop around rounds state : MainThread Conn _)) (lines : List LogLine)
    (hreturned : run.outcome = .ok (lines, last)) (before after : Atm → Meter)
    (hstarted : ∀ meter, Started (before meter)) (hpath : Path metersAdvance before run.trace after) (meter : Atm) :
    ∃ metered : List (MeteredFetch false),
      (metered.flatMap fun single => single.fetch.run.trace) = run.trace.filterMap (uartOf meter) ∧
      MeterRun false (before meter, state.data meter) metered (after meter, last.data meter) ∧
      billed meter lines + ((after meter).held .positive).toNat + lost .positive metered =
        (after meter).total .positive ∧
      lost .positive metered ≤ 65535 * lines.count (failedLine meter) ∧
      ∀ kept : List LogLine, kept.Sublist lines →
        billed meter kept + ((after meter).held .positive).toNat ≤ (after meter).total .positive := by
  have hruns := run.runs
  rw [hreturned] at hruns
  obtain ⟨-, reports, -, haccount⟩ := mainLoop_account around rounds state last run.trace lines hruns
  obtain ⟨reached, hreached, hgrown⟩ := meters_view before after run.trace hpath meter
  rw [haccount.uart] at hreached
  obtain ⟨metered, hfetches, hrun⟩ := exists_meterRun (haccount.history meter) _ _ _ hreached hgrown
  have hrequest := (hstarted meter).request
  have hbalanced : Balanced (before meter) := by
    intro energy
    rw [(hstarted meter).total, (hstarted meter).cleared]
    rfl
  obtain ⟨hlast, hcleared⟩ := hrun.cleared hrequest hbalanced .positive
  have hbill : stored .positive metered = billed meter lines := by
    rw [stored_eq, hfetches, haccount.lines, billed_reports]
  have hmissing : lost .positive metered ≤ 65535 * lines.count (failedLine meter) := by
    refine (hrun.lost_le hrequest .positive).trans (Nat.mul_le_mul_left _ ?_)
    rw [hfetches, haccount.lines]
    exact failed_le meter reports
  have htotal := hlast .positive
  have hzero := (hstarted meter).cleared .positive
  simp only at htotal hcleared
  refine ⟨metered, ?_, hrun, by omega, hmissing, ?_⟩
  · rw [haccount.uart, ← hfetches, List.flatMap_map]
  · intro kept hkept
    have hfewer : billed meter kept ≤ billed meter lines := (hkept.map (energyOn meter)).sum_le_sum (by simp)
    omega

section Example

-- The meter that is talked to answers, and none accumulates anything.
def metersStep (meters : Atm → Meter) : MainEvent Nat → Option (Atm → Meter)
  | ⟨.uart meter call, reply⟩ => (meterStep false (meters meter) ⟨call, reply⟩).map (Function.update meters meter)
  | _ => some meters

theorem metersAdvance_of_step (meters next : Atm → Meter) (event : MainEvent Nat)
    (h : metersStep meters event = some next) : metersAdvance meters event next := by
  intro other
  obtain ⟨op, reply⟩ := event
  cases op with
  | uart meter call =>
      obtain ⟨answered, hanswered, rfl⟩ := Option.map_eq_some_iff.mp h
      by_cases hother : meter = other
      · subst hother
        rw [uartOf, if_pos rfl, Function.update_self]
        exact meterStep_advance false _ _ _ hanswered
      · rw [uartOf, if_neg hother, Function.update_of_ne (Ne.symm hother)]
        exact .refl _
  | _ =>
      cases h
      exact .refl _

-- Each has a unit of either energy.
def unitMeters : Atm → Meter := fun _ => ⟨fun _ => 1, fun _ => 1, fun _ => 0, [], []⟩

-- The last of the sixteen reads times out.
def failingSecond : Run (mainLoop oneReady 1 ⟨0, fun _ => Data.initial⟩ : MainThread Nat _) :=
  Prog.play mainRespond _ ⟨(List.replicate 15 (pollsOf 0x01#8)).flatten, List.replicate 60 0 ++ [0, 100]⟩

-- The unit that the fetch had read is in no line.
theorem energy_billed_failing : ∃ (lines : List LogLine) (last : MainState) (after : Atm → Meter)
    (metered : List (MeteredFetch false)), failingSecond.outcome = .ok (lines, last) ∧
    positiveAccount (after .atm1) = (0, 1, 1) ∧ billed .atm1 lines = 0 ∧
    (metered.flatMap fun single => single.fetch.run.trace) = failingSecond.trace.filterMap (uartOf .atm1) ∧
    MeterRun false (unitMeters .atm1, Data.initial) metered (after .atm1, last.data .atm1) ∧
    billed .atm1 lines + ((after .atm1).held .positive).toNat + lost .positive metered = (after .atm1).total .positive ∧
    lost .positive metered ≤ 65535 * lines.count (failedLine .atm1) ∧
    ∀ kept : List LogLine, kept.Sublist lines →
      billed .atm1 kept + ((after .atm1).held .positive).toNat ≤ (after .atm1).total .positive := by
  have hreturned : ∃ lines last, failingSecond.outcome = .ok (lines, last) ∧ billed .atm1 lines = 0 :=
    ⟨_, _, rfl, by decide +kernel⟩
  have hsteps : (failingSecond.trace.foldlM metersStep unitMeters).map (fun after => positiveAccount (after .atm1)) =
      some (0, 1, 1) := by decide +kernel
  obtain ⟨lines, last, hlast, hbill⟩ := hreturned
  obtain ⟨after, hafter, haccount⟩ := Option.map_eq_some_iff.mp hsteps
  have hpath := (path_of_foldlM metersStep _ hafter).mono _ fun meters event next => metersAdvance_of_step meters next event
  obtain ⟨metered, hbilled⟩ := energy_billed oneReady 1 ⟨0, fun _ => Data.initial⟩ last failingSecond lines hlast
    unitMeters after (fun _ => ⟨rfl, fun _ => rfl, fun _ => rfl⟩) hpath .atm1
  exact ⟨lines, last, after, metered, hlast, haccount, hbill, hbilled⟩

end Example

end TJ3Firmware
