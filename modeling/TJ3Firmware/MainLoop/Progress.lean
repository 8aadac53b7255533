import TJ3Firmware.Atm90e26.Polling
import TJ3Firmware.MainLoop.Reports

namespace TJ3Firmware

open Library.Memory Library.Interaction Library.Threads Library.Progress

variable {Conn : Type}

section Lines

-- The time and the lines of all meters.
structure MainLine where
  now : Nat
  left : Atm → Nat

def MainLine.line (lines : MainLine) (meter : Atm) : Line := ⟨lines.now, lines.left meter⟩

def MainLine.Within (lines next : MainLine) : Prop := ∀ meter, next.left meter ≤ lines.left meter

instance : IsPreorder MainLine MainLine.Within where
  refl _ _ := Nat.le_refl _
  trans _ _ _ h h' meter := Nat.le_trans (h' meter) (h meter)

-- A call on a UART is about its line, and any call takes time.
def mainAdvance (lines : MainLine) (event : MainEvent Conn) (next : MainLine) : Prop :=
  lines.now ≤ next.now ∧ lines.Within next ∧
    match event with
    | ⟨.uart meter call, reply⟩ => lineAdvance (lines.line meter) ⟨call, reply⟩ (next.line meter)
    | _ => True

def EnoughFor (around : Surroundings) (lines : MainLine) : Prop := ∀ meter, Enough around.rounds (lines.line meter)

theorem EnoughFor.mono {around : Surroundings} {before lines : MainLine} (h : EnoughFor around before)
    (hwithin : before.Within lines) : EnoughFor around lines := fun meter => (h meter).mono (hwithin meter)

def Goes {α : Type} (prog : MainThread Conn α) (lines : MainLine) : Prop :=
  Progresses mainAdvance MainLine.Within prog lines

theorem goes_call {α : Type} (op : MainCall Conn) (next : MainReply Conn op → MainThread Conn α) (lines : MainLine)
    (hnext : ∀ reply later, mainAdvance lines ⟨op, reply⟩ later → Goes (next reply) later) :
    Goes (Prog.perform op >>= next) lines :=
  progresses_call op next lines (fun _ _ step => step.2.1) hnext

end Lines

section Loop

variable {lines : MainLine}

theorem readAtm90e26_polls (rounds : Nat) (ready : Bool) (name : String) (data : Data)
    (stack : SensorChannel → SensorValue) {line : Line} (henough : Enough rounds line) :
    Polls (readAtm90e26 rounds ready name data stack) line := by
  unfold readAtm90e26
  split
  · exact progresses_pure _ line
  · apply progresses_bind _ _ _ (fetchFields_polls rounds sampleReads data henough)
    intro reply later _
    dsimp only
    split <;> exact progresses_pure _ later

theorem readMeter_goes (around : Surroundings) (meter : Atm) (data : Atm → Data) (henough : EnoughFor around lines) :
    Goes (readMeter around meter data : MainThread Conn _) lines := by
  have hread : Progresses lineAdvance Line.Within _ (lines.line meter) :=
    readAtm90e26_polls around.rounds (around.ready meter) meter.name (data meter) (around.stack meter) (henough meter)
  refine progresses_bind _ _ lines ?_ fun value later _ => progresses_pure _ later
  refine progresses_lift (fun (lines : MainLine) => lines.line meter) ?_ _ lines hread
  intro current op reply later step
  exact ⟨step.2.2, step.2.1⟩

theorem readMeters_goes (around : Surroundings) (state : MainState) (henough : EnoughFor around lines) :
    Goes (readMeters around state : MainThread Conn _) lines := by
  unfold readMeters
  split
  · apply progresses_bind _ _ _ (readMeter_goes around .atm1 state.data henough)
    intro first later hwithin
    have henough := henough.mono hwithin
    apply progresses_bind _ _ _ (readMeter_goes around .atm2 first.2 henough)
    intro second later hwithin
    have henough := henough.mono hwithin
    apply progresses_bind _ _ _ (readMeter_goes around .atm3 second.2 henough)
    intro third later _
    exact progresses_pure _ later
  · exact progresses_pure _ lines

-- One second of the loop.
theorem mainStep_goes (around : Surroundings) (state : MainState) (henough : EnoughFor around lines) :
    Goes (mainStep around state : MainThread Conn _) lines := by
  apply goes_call MainCall.ledToggle
  intro _ toggled step
  have henough := henough.mono step.2.1
  apply progresses_bind _ _ _ (readMeters_goes around state henough)
  intro read later _
  apply goes_call (MainCall.sleep 1)
  intro _ slept _
  exact progresses_pure _ slept

theorem mainLoop_goes (around : Nat → Surroundings) (rounds : Nat) (state : MainState)
    (henough : ∀ second, EnoughFor (around second) lines) :
    Goes (mainLoop around rounds state : MainThread Conn _) lines := by
  induction rounds generalizing state lines with
  | zero => exact progresses_pure _ lines
  | succ rounds ih =>
      apply progresses_bind _ _ _ (mainStep_goes (around rounds) state (henough rounds))
      intro step later hwithin
      apply progresses_bind _ _ _ (ih step.2 fun second => (henough second).mono hwithin)
      intro rest last _
      exact progresses_pure _ last

end Loop

section Stall

-- A poll of this meter that has found nothing.
def Pauses (meter : Atm) (trace : List (MainEvent Conn)) : Prop := ⟨.uart meter .pollIn, none⟩ ∈ trace

theorem Fetched.emptyPoll_mem {reads : List (Byte × Field)} {data last : Data} {trace : List UartEvent}
    {values : List (Field × Word16)} {ret : Int} (h : Fetched reads data trace values ret last) (hreads : reads ≠ []) :
    emptyPoll ∈ trace := by
  cases h with
  | done => exact absurd rfl hreads
  | read addr field rest data last exchange =>
      apply List.mem_append_left
      simp [ReadExchange.trace]
  | timeout addr field rest data exchange => simp [ReadExchange.trace]

-- A fetch begins with a flush, which ends with such a poll.
theorem readMeter_pauses (around : Surroundings) (meter : Atm) (data : Atm → Data) (trace : List (MainEvent Conn))
    (value : LogLine × (Atm → Data)) (hready : around.ready meter = true)
    (h : Runs (readMeter around meter data) trace (.ok value)) : Pauses meter trace := by
  obtain ⟨before, ⟨line, last⟩, after, rfl, hread, -⟩ := (runs_bind_ok _ _ _ _).mp h
  apply List.mem_append_left
  rw [lift_eq_embed] at hread
  have hruns := runs_of_embed (uartOf meter) _ _ _ hread fun call reply => if_pos rfl
  rw [hready] at hruns
  obtain ⟨fetching, ⟨ret, fetched⟩, rest, htrace, hfetch, -⟩ := (runs_bind_ok _ _ _ _).mp hruns
  obtain ⟨values, hfetched⟩ := fetchFields_runs _ _ _ _ _ _ hfetch
  have hempty : emptyPoll ∈ before.filterMap (uartOf meter) := by
    rw [htrace]
    exact List.mem_append_left _ (hfetched.emptyPoll_mem (List.cons_ne_nil _ _))
  obtain ⟨⟨op, reply⟩, hevent, hpart⟩ := List.mem_filterMap.mp hempty
  cases op with
  | uart other call =>
      simp only [uartOf] at hpart
      split at hpart
      · rename_i hsame
        subst hsame
        cases hpart
        exact hevent
      · cases hpart
  | _ => cases hpart

theorem mainStep_pauses (around : Surroundings) (state : MainState) (meter : Atm) (trace : List (MainEvent Conn))
    (value : List LogLine × MainState) (hready : around.ready meter = true) (hfifth : state.count.tmod 5 = 0)
    (h : Runs (mainStep around state) trace (.ok value)) : Pauses meter trace := by
  obtain ⟨_, rest, rfl, hrest⟩ := (runs_perform_bind MainCall.ledToggle _ _ _).mp h
  obtain ⟨before, _, after, rfl, hread, -⟩ := (runs_bind_ok _ _ _ _).mp hrest
  apply List.mem_cons_of_mem
  apply List.mem_append_left
  rw [readMeters, if_pos hfifth] at hread
  obtain ⟨trace1, _, rest1, rfl, hfirst, hrest1⟩ := (runs_bind_ok _ _ _ _).mp hread
  obtain ⟨trace2, _, rest2, rfl, hsecond, hrest2⟩ := (runs_bind_ok _ _ _ _).mp hrest1
  obtain ⟨trace3, _, rest3, rfl, hthird, -⟩ := (runs_bind_ok _ _ _ _).mp hrest2
  cases meter with
  | atm1 => exact List.mem_append_left _ (readMeter_pauses around .atm1 _ _ _ hready hfirst)
  | atm2 =>
      have hpauses := readMeter_pauses around .atm2 _ _ _ hready hsecond
      exact List.mem_append_right _ (List.mem_append_left _ hpauses)
  | atm3 =>
      have hpauses := readMeter_pauses around .atm3 _ _ _ hready hthird
      exact List.mem_append_right _ (List.mem_append_right _ (List.mem_append_left _ hpauses))

end Stall

-- With lines that have only so much to deliver, whatever it is and whenever it
-- comes, every second of the loop comes to its end, within a poll for each byte
-- and 1004 polls more. With a meter that is ready and always has a byte it never
-- does, however long it polls.
theorem main_loop_returns (around : Nat → Surroundings) (rounds : Nat) (state : MainState)
    (run : Run (mainLoop around rounds state : MainThread Conn _)) :
    (∀ first last, (∀ second, EnoughFor (around second) first) → Path mainAdvance first run.trace last →
      ∃ value, run.outcome = .ok value) ∧
    ∀ meter, 0 < rounds → (around (rounds - 1)).ready meter = true → state.count.tmod 5 = 0 →
      ¬Pauses meter run.trace → run.outcome = .error .polling := by
  constructor
  · intro first last henough hpath
    exact (mainLoop_goes around rounds state henough).returns run hpath
  · intro meter hrounds hready hfifth hbusy
    obtain ⟨trace, outcome, hruns⟩ := run
    cases outcome with
    | error error => rfl
    | ok value =>
        obtain ⟨rounds, rfl⟩ := Nat.exists_eq_succ_of_ne_zero (Nat.ne_of_gt hrounds)
        obtain ⟨before, _, after, rfl, hstep, -⟩ := (runs_bind_ok _ _ _ _).mp hruns
        have hpauses := mainStep_pauses (around rounds) state meter before _ hready hfifth hstep
        exact absurd (List.mem_append_left after hpauses) hbusy

section Example

-- A call on a UART takes its time on the line, and nothing else takes any.
def mainLineStep (lines : MainLine) : MainEvent Nat → Option MainLine
  | ⟨.uart meter call, reply⟩ =>
      (lineStep (lines.line meter) ⟨call, reply⟩).map fun line => ⟨line.now, Function.update lines.left meter line.left⟩
  | _ => some lines

theorem mainAdvance_of_step (lines next : MainLine) (event : MainEvent Nat) (h : mainLineStep lines event = some next) :
    mainAdvance lines event next := by
  obtain ⟨op, reply⟩ := event
  cases op with
  | uart meter call =>
      obtain ⟨line, hline, hnext⟩ := Option.map_eq_some_iff.mp h
      have hstep := lineAdvance_of_step (lines.line meter) line ⟨call, reply⟩ hline
      have hleft (other : Atm) : next.left other = Function.update lines.left meter line.left other := by rw [← hnext]
      have hnow : next.now = line.now := by rw [← hnext]
      have hafter : next.line meter = line := by rw [MainLine.line, hleft, Function.update_self, hnow]
      rw [← hafter] at hstep
      refine ⟨hstep.1, fun other => ?_, hstep⟩
      by_cases hother : other = meter
      · rw [hother]
        exact hstep.2.1
      · rw [hleft, Function.update_of_ne hother]
  | _ =>
      cases h
      exact ⟨Nat.le_refl _, fun _ => Nat.le_refl _, trivial⟩

-- The first meter is ready and does not answer. The time of the answer passes
-- between two looks at the clock.
def silentReady : Nat → Surroundings := fun _ => ⟨1004, fun meter => meter = .atm1, fun _ => zeroStack⟩

def silentSecond : Run (mainLoop silentReady 1 ⟨0, fun _ => Data.initial⟩ : MainThread Nat _) :=
  Prog.play mainRespond _ ⟨[], [0, 100]⟩

-- The line of the first meter always has another byte.
def busyReady : Nat → Surroundings := fun _ => ⟨2, fun meter => meter = .atm1, fun _ => zeroStack⟩

def busySecond : Run (mainLoop busyReady 1 ⟨0, fun _ => Data.initial⟩ : MainThread Nat _) :=
  Prog.play mainRespond _ ⟨[some 0x00#8, some 0x00#8], []⟩

theorem busySecond_trace : busySecond.trace = [⟨.ledToggle, ()⟩, ⟨.uart .atm1 .pollIn, some 0x00#8⟩,
    ⟨.uart .atm1 .pollIn, some 0x00#8⟩] := rfl

theorem main_loop_returns_silent :
    (∃ value, silentSecond.outcome = .ok value) ∧ busySecond.outcome = .error .polling := by
  have hsteps : (silentSecond.trace.foldlM mainLineStep ⟨0, fun _ => 0⟩).isSome = true := by decide +kernel
  obtain ⟨last, hlast⟩ := Option.isSome_iff_exists.mp hsteps
  have hpath := (path_of_foldlM mainLineStep _ hlast).mono _ fun lines event next => mainAdvance_of_step lines next event
  constructor
  · exact (main_loop_returns silentReady 1 _ silentSecond).1 ⟨0, fun _ => 0⟩ last
      (fun _ _ => ⟨Nat.zero_lt_succ 1003, Nat.le_refl 1004⟩) hpath
  · apply (main_loop_returns busyReady 1 _ busySecond).2 .atm1 Nat.one_pos rfl rfl
    rw [Pauses, busySecond_trace]
    simp

end Example

end TJ3Firmware
