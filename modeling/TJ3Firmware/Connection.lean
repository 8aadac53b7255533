import TJ3Firmware.Library.Interaction

namespace TJ3Firmware

open Library.Interaction

-- The calls of the connection callbacks. A connection object is known by its
-- pointer only.
inductive BtCall (Conn : Type)
  | enable
  -- with BT_LE_ADV_CONN_FAST_2, ad and sd
  | leAdvStart
  | connRef (conn : Conn)
  | connUnref (conn : Conn)
  deriving Repr, DecidableEq

abbrev BtReply (Conn : Type) : BtCall Conn → Type
  | .enable => Int
  | .leAdvStart => Int
  | .connRef _ => Option Conn
  | .connUnref _ => Unit

abbrev BtEvent (Conn : Type) := Event (BtCall Conn) (BtReply Conn)

-- There are no errors to stop at.
abbrev Bluetooth (Conn α : Type) := Prog (BtCall Conn) (BtReply Conn) Empty α

variable {Conn : Type}

def btEnable : Bluetooth Conn Int := Prog.perform BtCall.enable

def btLeAdvStart : Bluetooth Conn Int := Prog.perform BtCall.leAdvStart

def btConnRef (conn : Conn) : Bluetooth Conn (Option Conn) := Prog.perform (BtCall.connRef conn)

def btConnUnref (conn : Conn) : Bluetooth Conn Unit := Prog.perform (BtCall.connUnref conn)

def bleGattInit : Bluetooth Conn Unit := do
  let err ← btEnable
  if err ≠ 0 then pure ()
  else do
    -- an error is logged
    let _ ← btLeAdvStart
    pure ()

-- The callbacks return what current_conn is afterwards.
def connected (conn : Conn) (err : BitVec 8) (currentConn : Option Conn) : Bluetooth Conn (Option Conn) :=
  if err ≠ 0 then pure currentConn
  else btConnRef conn

-- Neither argument is used but for the log.
def disconnected (_conn : Conn) (_reason : BitVec 8) (currentConn : Option Conn) : Bluetooth Conn (Option Conn) := do
  let currentConn ← match currentConn with
    | some held => do
        btConnUnref held
        pure none
    | none => pure none
  -- an error of the restart is logged
  let _ ← btLeAdvStart
  pure currentConn

-- conn_callbacks
inductive Callback (Conn : Type)
  | connected (conn : Conn) (err : BitVec 8)
  | disconnected (conn : Conn) (reason : BitVec 8)
  deriving Repr, DecidableEq

def Callback.handle (callback : Callback Conn) (currentConn : Option Conn) : Bluetooth Conn (Option Conn) :=
  match callback with
  | .connected conn err => TJ3Firmware.connected conn err currentConn
  | .disconnected conn reason => TJ3Firmware.disconnected conn reason currentConn

end TJ3Firmware
