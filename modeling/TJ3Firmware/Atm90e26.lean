import TJ3Firmware.Uart

namespace TJ3Firmware

open Library.Memory Library.Interaction

def ENODEV : Int := 19

def ENOTSUP : Int := 134

def UART_RX_TIMEOUT_MS : Int := 100

def UART_WAIT_DELAY_MS : Nat := 25

section Registers

def ATM90E26_REG_SOFTRESET : Byte := 0x00#8
def ATM90E26_REG_CALSTART : Byte := 0x20#8
def ATM90E26_REG_PLCONSTH : Byte := 0x21#8
def ATM90E26_REG_PLCONSTL : Byte := 0x22#8
def ATM90E26_REG_PSTARTTH : Byte := 0x27#8
def ATM90E26_REG_MMODE : Byte := 0x2B#8
def ATM90E26_REG_CS1 : Byte := 0x2C#8
def ATM90E26_REG_ADJSTART : Byte := 0x30#8
def ATM90E26_REG_UGAIN : Byte := 0x31#8
def ATM90E26_REG_IGAINL : Byte := 0x32#8
def ATM90E26_REG_IGAINN : Byte := 0x33#8
def ATM90E26_REG_CS2 : Byte := 0x3B#8
def ATM90E26_REG_APENERGY : Byte := 0x40#8
def ATM90E26_REG_ANENERGY : Byte := 0x41#8
def ATM90E26_REG_IRMS : Byte := 0x48#8
def ATM90E26_REG_URMS : Byte := 0x49#8
def ATM90E26_REG_PMEAN : Byte := 0x4A#8
def ATM90E26_REG_QMEAN : Byte := 0x4B#8
def ATM90E26_REG_FREQ : Byte := 0x4C#8
def ATM90E26_REG_POWERF : Byte := 0x4D#8
def ATM90E26_REG_PANGLE : Byte := 0x4E#8
def ATM90E26_REG_SMEAN : Byte := 0x4F#8
def ATM90E26_REG_IRMS2 : Byte := 0x68#8
def ATM90E26_REG_PMEAN2 : Byte := 0x6A#8
def ATM90E26_REG_QMEAN2 : Byte := 0x6B#8
def ATM90E26_REG_POWERF2 : Byte := 0x6C#8
def ATM90E26_REG_PANGLE2 : Byte := 0x6D#8
def ATM90E26_REG_SMEAN2 : Byte := 0x6E#8

def ATM90E26_SOFTRESET_MAGIC : Word16 := 0x789A#16
def ATM90E26_CALSTART_MAGIC : Word16 := 0x5678#16
def ATM90E26_CALCHECK_MAGIC : Word16 := 0x8765#16
def ATM90E26_ADJSTART_MAGIC : Word16 := 0x5678#16
def ATM90E26_ADJCHECK_MAGIC : Word16 := 0x8765#16

def PLCONSTH_DEFAULT : Word16 := 0x0015#16
def PLCONSTL_DEFAULT : Word16 := 0xD174#16
def MMODE_DEFAULT : Word16 := 0x7C22#16
def PSTARTTH_DEFAULT : Word16 := 0x08BD#16

end Registers

section Frames

def readFrame (addr : Byte) : List Byte := [0xFE#8, addr ||| 0x80#8, (addr ||| 0x80#8) &&& 0xFF#8]

def writeFrame (addr : Byte) (val : Word16) : List Byte :=
  [0xFE#8, addr, lowByte val, highByte val, addr + lowByte val + highByte val]

-- Returns the return value and what *val holds afterwards.
def uartRead (rounds : Nat) (addr : Byte) (val : Word16) : Driver (Int × Word16) := do
  flushRx rounds
  sendFrame (readFrame addr)
  let now ← kUptimeGet
  let rxBuf ← receive 3 (now + UART_RX_TIMEOUT_MS) rounds []
  match rxBuf with
  | lsb :: msb :: _ :: _ => do
      -- the checksum byte is not verified
      kMsleep UART_WAIT_DELAY_MS
      pure (0, word16 lsb msb)
  | _ => pure (- EIO, val)

def uartWrite (rounds : Nat) (addr : Byte) (val : Word16) : Driver Int := do
  flushRx rounds
  sendFrame (writeFrame addr val)
  let now ← kUptimeGet
  let rxBuf ← receive 1 (now + UART_RX_TIMEOUT_MS) rounds []
  match rxBuf with
  | _ :: _ => do
      kMsleep UART_WAIT_DELAY_MS
      pure 0
  | [] => pure (- EIO)

end Frames

section Samples

-- atm90e26_data
structure Data where
  voltage : Word16
  current : Word16
  current2 : Word16
  power : Word16
  power2 : Word16
  reactivePower : Word16
  reactivePower2 : Word16
  apparentPower : Word16
  apparentPower2 : Word16
  powerFactor : Word16
  powerFactor2 : Word16
  freq : Word16
  phaseAngle : Word16
  phaseAngle2 : Word16
  energyActiveP : Word16
  energyActiveN : Word16
  deriving Repr, DecidableEq

-- Static data starts as zero.
def Data.initial : Data := ⟨0, 0, 0, 0, 0, 0, 0, 0, 0, 0, 0, 0, 0, 0, 0, 0⟩

-- A member of atm90e26_data.
inductive Field
  | voltage | current | current2 | power | power2 | reactivePower | reactivePower2 | apparentPower | apparentPower2
  | powerFactor | powerFactor2 | freq | phaseAngle | phaseAngle2 | energyActiveP | energyActiveN
  deriving Repr, DecidableEq

def Data.get (data : Data) : Field → Word16
  | .voltage => data.voltage
  | .current => data.current
  | .current2 => data.current2
  | .power => data.power
  | .power2 => data.power2
  | .reactivePower => data.reactivePower
  | .reactivePower2 => data.reactivePower2
  | .apparentPower => data.apparentPower
  | .apparentPower2 => data.apparentPower2
  | .powerFactor => data.powerFactor
  | .powerFactor2 => data.powerFactor2
  | .freq => data.freq
  | .phaseAngle => data.phaseAngle
  | .phaseAngle2 => data.phaseAngle2
  | .energyActiveP => data.energyActiveP
  | .energyActiveN => data.energyActiveN

def Data.set (data : Data) (field : Field) (value : Word16) : Data :=
  match field with
  | .voltage => { data with voltage := value }
  | .current => { data with current := value }
  | .current2 => { data with current2 := value }
  | .power => { data with power := value }
  | .power2 => { data with power2 := value }
  | .reactivePower => { data with reactivePower := value }
  | .reactivePower2 => { data with reactivePower2 := value }
  | .apparentPower => { data with apparentPower := value }
  | .apparentPower2 => { data with apparentPower2 := value }
  | .powerFactor => { data with powerFactor := value }
  | .powerFactor2 => { data with powerFactor2 := value }
  | .freq => { data with freq := value }
  | .phaseAngle => { data with phaseAngle := value }
  | .phaseAngle2 => { data with phaseAngle2 := value }
  | .energyActiveP => { data with energyActiveP := value }
  | .energyActiveN => { data with energyActiveN := value }

theorem Data.get_set (data : Data) (field other : Field) (value : Word16) :
    (data.set field value).get other = if other = field then value else data.get other := by
  cases field <;> cases other <;> rfl

@[simp] theorem Data.set_get (data : Data) (field : Field) : data.set field (data.get field) = data := by
  cases field <;> rfl

-- The reads of atm90e26_sample_fetch, in order.
def sampleReads : List (Byte × Field) :=
  [(ATM90E26_REG_URMS, .voltage), (ATM90E26_REG_IRMS, .current), (ATM90E26_REG_IRMS2, .current2),
    (ATM90E26_REG_PMEAN, .power), (ATM90E26_REG_PMEAN2, .power2), (ATM90E26_REG_QMEAN, .reactivePower),
    (ATM90E26_REG_QMEAN2, .reactivePower2), (ATM90E26_REG_SMEAN, .apparentPower),
    (ATM90E26_REG_SMEAN2, .apparentPower2), (ATM90E26_REG_FREQ, .freq), (ATM90E26_REG_POWERF, .powerFactor),
    (ATM90E26_REG_POWERF2, .powerFactor2), (ATM90E26_REG_PANGLE, .phaseAngle), (ATM90E26_REG_PANGLE2, .phaseAngle2),
    (ATM90E26_REG_APENERGY, .energyActiveP), (ATM90E26_REG_ANENERGY, .energyActiveN)]

-- ret = atm90e26_uart_read(dev, addr, &data->field); if (ret < 0) return ret;
def fetchFields (rounds : Nat) : List (Byte × Field) → Data → Driver (Int × Data)
  | [], data => pure (0, data)
  | (addr, field) :: rest, data => do
      let (ret, value) ← uartRead rounds addr (data.get field)
      if ret < 0 then pure (ret, data.set field value)
      else fetchFields rounds rest (data.set field value)

def sampleFetch (rounds : Nat) (data : Data) : Driver (Int × Data) := fetchFields rounds sampleReads data

end Samples

section Channels

structure SensorValue where
  val1 : Int
  val2 : Int
  deriving Repr, DecidableEq

-- enum sensor_channel: those the driver or the application names, and the rest.
inductive SensorChannel
  | voltage | current | power | frequency | reactivePower | apparentPower | powerFactor | phaseAngle | energy
  | other (chan : Int)
  deriving Repr, DecidableEq

-- Returns the return value and what *val holds afterwards.
def channelGet (data : Data) (chan : SensorChannel) (val : SensorValue) : Int × SensorValue :=
  match chan with
  | .voltage => (0, ⟨data.voltage.toNat / 100, data.voltage.toNat % 100 * 10000⟩)
  | .current => (0, ⟨data.current.toNat / 1000, data.current.toNat % 1000 * 1000⟩)
  | .power => (0, ⟨data.power.toInt, 0⟩)
  | .reactivePower => (0, ⟨data.reactivePower.toInt, 0⟩)
  | .apparentPower => (0, ⟨data.apparentPower.toNat, 0⟩)
  | .powerFactor => (0, ⟨0, data.powerFactor.toNat * 1000⟩)
  | .frequency => (0, ⟨data.freq.toNat / 100, data.freq.toNat % 100 * 10000⟩)
  | .energy => (0, ⟨data.energyActiveP.toNat, 0⟩)
  | .phaseAngle => (-ENOTSUP, val)
  | .other _ => (-ENOTSUP, val)

end Channels

section Init

-- The loop of atm90e26_calculate_cs1 and atm90e26_calculate_cs2.
def calculateCs (regs : List Word16) : Word16 :=
  let sums := regs.foldl (fun (sums : Byte × Byte) reg =>
    (sums.1 + highByte reg + lowByte reg, sums.2 ^^^ highByte reg ^^^ lowByte reg)) (0x00#8, 0x00#8)
  word16 sums.1 sums.2

-- 21H to 2BH
def meteringRegs : List Word16 :=
  [PLCONSTH_DEFAULT, PLCONSTL_DEFAULT, 0x0000#16, 0x0000#16, 0x0000#16, 0x0000#16, PSTARTTH_DEFAULT, 0x0000#16,
    0x0000#16, 0x0000#16, MMODE_DEFAULT]

-- 31H to 3AH
def measurementRegs : List Word16 :=
  [0x7A22#16, 0x0CB4#16, 0x0693#16, 0x0000#16, 0x0000#16, 0x0000#16, 0x0000#16, 0x0000#16, 0x0000#16, 0x0000#16]

def calculateCs1 (regs : List Word16) : Word16 := calculateCs regs

def calculateCs2 (regs : List Word16) : Word16 := calculateCs regs

-- The return values of the writes are dropped.
def initChip (rounds : Nat) : Driver Int := do
  let _ ← uartWrite rounds ATM90E26_REG_SOFTRESET ATM90E26_SOFTRESET_MAGIC
  kMsleep 50
  let _ ← uartWrite rounds ATM90E26_REG_CALSTART ATM90E26_CALSTART_MAGIC
  let _ ← uartWrite rounds ATM90E26_REG_PLCONSTH PLCONSTH_DEFAULT
  let _ ← uartWrite rounds ATM90E26_REG_PLCONSTL PLCONSTL_DEFAULT
  let _ ← uartWrite rounds ATM90E26_REG_PSTARTTH PSTARTTH_DEFAULT
  let _ ← uartWrite rounds ATM90E26_REG_MMODE MMODE_DEFAULT
  let _ ← uartWrite rounds ATM90E26_REG_CS1 (calculateCs1 meteringRegs)
  let _ ← uartWrite rounds ATM90E26_REG_CALSTART ATM90E26_CALCHECK_MAGIC
  let _ ← uartWrite rounds ATM90E26_REG_ADJSTART ATM90E26_ADJSTART_MAGIC
  let _ ← uartWrite rounds ATM90E26_REG_UGAIN 0x7A22#16
  let _ ← uartWrite rounds ATM90E26_REG_IGAINL 0x0CB4#16
  let _ ← uartWrite rounds ATM90E26_REG_IGAINN 0x0693#16
  let _ ← uartWrite rounds ATM90E26_REG_CS2 (calculateCs2 measurementRegs)
  let _ ← uartWrite rounds ATM90E26_REG_ADJSTART ATM90E26_ADJCHECK_MAGIC
  pure 0

-- The device is ready when its UART is and its chip was set up.
def atm90e26Init (uartReady : Bool) (rounds : Nat) : Driver Int := do
  if !uartReady then pure (-ENODEV)
  else do
    let ret ← initChip rounds
    if ret < 0 then pure ret
    else pure 0

end Init

end TJ3Firmware
