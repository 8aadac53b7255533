import TJ3Firmware.Connection
import TJ3Firmware.Atm90e26.Printing

namespace TJ3Firmware

open Library.Interaction

inductive Atm
  | atm1 | atm2 | atm3
  deriving Repr, DecidableEq

def Atm.name : Atm → String
  | .atm1 => "ATM1"
  | .atm2 => "ATM2"
  | .atm3 => "ATM3"

-- The calls of main, with those on the UART of each meter and those of the
-- Bluetooth stack.
inductive MainCall (Conn : Type)
  | ledToggle
  | uart (meter : Atm) (call : UartCall)
  | bluetooth (call : BtCall Conn)
  | sleep (seconds : Nat)

abbrev MainReply (Conn : Type) : MainCall Conn → Type
  | .ledToggle => Unit
  | .uart _ call => UartReply call
  | .bluetooth call => BtReply Conn call
  | .sleep _ => Unit

abbrev MainThread (Conn α : Type) := Prog (MainCall Conn) (MainReply Conn) Unfinished α

variable {Conn : Type}

def ledToggle : MainThread Conn Unit := Prog.perform MainCall.ledToggle

def kSleep (seconds : Nat) : MainThread Conn Unit := Prog.perform (MainCall.sleep seconds)

-- What the loop keeps: the seconds counted, an int in the source that stays below
-- 2^31, and the data of each meter.
structure MainState where
  count : Int
  data : Atm → Data

-- What main finds outside: whether the meters are ready, what is on the stack
-- where their readings go, and how long the polling loops may take.
structure Surroundings where
  rounds : Nat
  ready : Atm → Bool
  stack : Atm → SensorChannel → SensorValue

def readMeter (around : Surroundings) (meter : Atm) (data : Atm → Data) :
    MainThread Conn (LogLine × (Atm → Data)) := do
  let (line, last) ← (readAtm90e26 around.rounds (around.ready meter) meter.name (data meter)
    (around.stack meter)).lift (MainCall.uart meter) fun _ reply => reply
  pure (line, Function.update data meter last)

-- Every fifth second.
def readMeters (around : Surroundings) (state : MainState) : MainThread Conn (List LogLine × (Atm → Data)) :=
  if state.count.tmod 5 = 0 then do
    let (first, data) ← readMeter around .atm1 state.data
    let (second, data) ← readMeter around .atm2 data
    let (third, data) ← readMeter around .atm3 data
    pure ([first, second, third], data)
  else pure ([], state.data)

-- The body of the loop.
def mainStep (around : Surroundings) (state : MainState) : MainThread Conn (List LogLine × MainState) := do
  ledToggle
  let (lines, data) ← readMeters around state
  kSleep 1
  pure (lines, ⟨state.count + 1, data⟩)

-- A number of rounds of while (1).
def mainLoop (around : Nat → Surroundings) : Nat → MainState → MainThread Conn (List LogLine × MainState)
  | 0, state => pure ([], state)
  | rounds + 1, state => do
      let (lines, state) ← mainStep (around rounds) state
      let (later, state) ← mainLoop around rounds state
      pure (lines ++ later, state)

def IsBluetooth : MainCall Conn → Prop
  | .bluetooth _ => True
  | _ => False

theorem readMeter_silent (around : Surroundings) (meter : Atm) (data : Atm → Data) :
    CallsOnly (fun op => ¬IsBluetooth op) (readMeter around meter data : MainThread Conn _) := by
  apply callsOnly_bind _ _ _ (callsOnly_lift _ _ _ (fun _ => id) _)
  intro value
  trivial

theorem readMeters_silent (around : Surroundings) (state : MainState) :
    CallsOnly (fun op => ¬IsBluetooth op) (readMeters around state : MainThread Conn _) := by
  unfold readMeters
  by_cases hfifth : state.count.tmod 5 = 0
  · rw [if_pos hfifth]
    refine callsOnly_bind _ _ _ (readMeter_silent around .atm1 state.data) fun _ => ?_
    refine callsOnly_bind _ _ _ (readMeter_silent around .atm2 _) fun _ => ?_
    exact callsOnly_bind _ _ _ (readMeter_silent around .atm3 _) fun _ => trivial
  · rw [if_neg hfifth]
    trivial

theorem mainStep_silent (around : Surroundings) (state : MainState) :
    CallsOnly (fun op => ¬IsBluetooth op) (mainStep around state : MainThread Conn _) := by
  refine (callsOnly_perform_bind _ MainCall.ledToggle _).mpr ⟨id, fun _ => ?_⟩
  refine callsOnly_bind _ _ _ (readMeters_silent around state) fun _ => ?_
  exact (callsOnly_perform_bind _ (MainCall.sleep 1) _).mpr ⟨id, fun _ => trivial⟩

-- The loop leaves the Bluetooth stack alone, for as long as it runs.
theorem mainLoop_silent (around : Nat → Surroundings) (rounds : Nat) (state : MainState) :
    CallsOnly (fun op => ¬IsBluetooth op) (mainLoop around rounds state : MainThread Conn _) := by
  induction rounds generalizing state with
  | zero => trivial
  | succ rounds ih =>
      refine callsOnly_bind _ _ _ (mainStep_silent (around rounds) state) fun value => ?_
      exact callsOnly_bind _ _ _ (ih value.2) fun _ => trivial

end TJ3Firmware
