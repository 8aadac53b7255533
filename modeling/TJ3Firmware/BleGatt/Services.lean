import TJ3Firmware.BleGatt.Database
import TJ3Firmware.BleGatt.Status

namespace TJ3Firmware

open Library.Memory Library.Interaction

section Services

-- BT_UUID_128_ENCODE with the last four arguments that all of them share
def tj3Uuid (w32 : BitVec 32) : BitVec 128 := w32 ++ 0x4b9a4c1b9a61112233445500#96

-- BT_GATT_CHRC_*
inductive Chrc
  | read | write | notify | indicate
  deriving Repr, DecidableEq

-- BT_GATT_PERM_*
inductive Perm
  | read | write
  deriving Repr, DecidableEq

inductive WriteFn
  | writeMeterConfig | writePacket | writeLogFetch | writeLogLevel | writeClearLogs
  deriving Repr, DecidableEq

-- BT_GATT_CHARACTERISTIC, and whether BT_GATT_CCC comes after it.
structure Characteristic where
  uuid : BitVec 128
  properties : List Chrc
  permissions : List Perm
  read : Option Readable
  write : Option WriteFn
  ccc : Bool
  deriving Repr, DecidableEq

def energyService : List Characteristic :=
  [⟨tj3Uuid 0x4d6f8c01#32, [.read, .notify], [.read], some .meterSnapshot, none, true⟩,
    ⟨tj3Uuid 0x4d6f8c02#32, [.read, .write], [.read, .write], some .meterConfig, some .writeMeterConfig, false⟩,
    ⟨tj3Uuid 0x4d6f8c03#32, [.write, .indicate], [.write], none, some .writePacket, true⟩,
    ⟨tj3Uuid 0x4d6f8c04#32, [.read, .notify], [.read], some .powerPulse, none, true⟩,
    ⟨tj3Uuid 0x4d6f8c05#32, [.read, .notify], [.read], some .alarmStatus, none, true⟩]

def diagService : List Characteristic :=
  [⟨tj3Uuid 0x4d6f8c11#32, [.read], [.read], some .logCount, none, false⟩,
    ⟨tj3Uuid 0x4d6f8c12#32, [.write, .indicate], [.write], none, some .writeLogFetch, true⟩,
    ⟨tj3Uuid 0x4d6f8c13#32, [.read, .write], [.read, .write], some .logLevel, some .writeLogLevel, false⟩,
    ⟨tj3Uuid 0x4d6f8c14#32, [.write, .indicate], [.write], none, some .writeClearLogs, true⟩,
    ⟨tj3Uuid 0x4d6f8c15#32, [.notify], [], none, none, true⟩]

-- The characteristics that a peer finds.
def characteristics : List Characteristic := energyService ++ diagService

def Writable.fn : Writable → WriteFn
  | .meterConfig => .writeMeterConfig
  | .command _ => .writePacket
  | .logFetch => .writeLogFetch
  | .logLevel => .writeLogLevel
  | .clearLogs => .writeClearLogs

-- The stack calls a handler only with the permission for it.
def Characteristic.serves (characteristic : Characteristic) : GattOp → Prop
  | .read attr _ _ => characteristic.read = some attr ∧ Perm.read ∈ characteristic.permissions
  | .write attr _ _ => characteristic.write = some attr.fn ∧ Perm.write ∈ characteristic.permissions

end Services

section Sent

-- The UUID and the bytes handed to bt_gatt_indicate.
def indicationOf : ZephyrEvent → Option (BitVec 128 × List Byte)
  | ⟨.btGattIndicate uuid data, _⟩ => some (uuid, data)
  | _ => none

def sentOn (trace : List ZephyrEvent) : List (BitVec 128 × List Byte) := trace.filterMap indicationOf

@[simp] theorem sentOn_append (before after : List ZephyrEvent) :
    sentOn (before ++ after) = sentOn before ++ sentOn after := List.filterMap_append

theorem map_sentOn (trace : List ZephyrEvent) : (sentOn trace).map Prod.snd = indications trace := by
  rw [sentOn, indications, List.map_filterMap]
  congr 1
  funext event
  obtain ⟨op, reply⟩ := event
  cases op <;> rfl

theorem sentOn_eq_nil {trace : List ZephyrEvent} (h : indications trace = []) : sentOn trace = [] := by
  rwa [← map_sentOn, List.map_eq_nil_iff] at h

-- What an operation sends.
def OpSends : GattOp → List (BitVec 128 × List Byte) → Prop
  | .read _ _ _, sent => sent = []
  | .write .meterConfig _ _, sent => sent = []
  | .write (.command _) buf _, sent => sent = [] ∨ ∃ frame : Frame, frame.payload.length ≤ 233 ∧
      acceptedOpCode buf.bytes = some frame.opCode ∧ sent = [(energyCmdUuid, frame.encode)]
  | .write .logFetch buf _, sent =>
      sent = if 2 ≤ buf.bytes.length then [(diagLogFetchUuid, List.replicate 20 0x00#8)] else []
  | .write .logLevel _ _, sent => sent = []
  | .write .clearLogs _ _, sent => sent = [(diagClearLogsUuid, [0x00#8])]

-- The one characteristic with the UUID is the one the operation is on, and a
-- peer can subscribe to its indications.
structure Routed (op : GattOp) (uuid : BitVec 128) (data : List Byte) (characteristic : Characteristic) : Prop where
  found : characteristic ∈ characteristics
  named : characteristic.uuid = uuid
  only : ∀ other ∈ characteristics, other.uuid = uuid → other = characteristic
  serves : characteristic.serves op
  indicates : Chrc.indicate ∈ characteristic.properties
  ccc : characteristic.ccc = true
  size : data.length ≤ MAX_PAYLOAD_SIZE
  nonempty : data ≠ []

end Sent

section Operation

theorem writePacket_sends {txBuf : TxBuf} {buf : List Byte} {trace : List ZephyrEvent} {outcome : Except Fault Nat}
    (hruns : Runs (writePacket txBuf buf) trace outcome) : sentOn trace = [] ∨ ∃ frame : Frame,
      frame.payload.length ≤ 233 ∧ acceptedOpCode buf = some frame.opCode ∧
        sentOn trace = [(energyCmdUuid, frame.encode)] := by
  by_cases haccepts : Accepts buf
  · have hcommand := runs_writePacket txBuf buf haccepts trace outcome hruns
    split at hcommand
    · exact Or.inl (sentOn_eq_nil hcommand)
    · obtain ⟨exchange⟩ := hcommand
      have hbefore := sentOn_eq_nil (indications_of_answers _ _ _ exchange.answers)
      rw [exchange.split, sentOn_append, hbefore, List.nil_append]
      rcases exchange.sends with ⟨hfits, rc, hafter⟩ | ⟨-, hafter⟩
      · refine Or.inr ⟨exchange.frame, hfits, ?_, by rw [hafter]; rfl⟩
        rw [acceptedOpCode, protocolParse_of_accepts buf haccepts, exchange.opCode]
      · rw [hafter]
        exact Or.inl rfl
  · obtain ⟨code, hcode, -⟩ := protocolParse_error_of_not_accepts buf haccepts
    rw [runs_writePacket_rejected txBuf buf code hcode trace outcome hruns]
    exact Or.inl rfl

theorem writeLogFetch_sends {buf : WriteBuf} {trace : List ZephyrEvent} {outcome : Except Fault Int}
    (hruns : Runs (writeLogFetch buf) trace outcome) :
    sentOn trace = if 2 ≤ buf.bytes.length then [(diagLogFetchUuid, List.replicate 20 0x00#8)] else [] := by
  unfold writeLogFetch at hruns
  by_cases htwo : 2 ≤ buf.bytes.length
  · rw [if_neg (mt (len_lt_two_iff buf).mp (not_not.mpr htwo)), Ptr.readRange_eq _ _ _ (by omega),
      Prog.ofExcept_ok_bind] at hruns
    obtain ⟨reply, rest, rfl, hrest⟩ := (runs_perform_bind _ _ _ _).mp hruns
    obtain ⟨rfl, -⟩ := (runs_pure _ _ _).mp hrest
    rw [if_pos htwo]
    rfl
  · rw [if_pos ((len_lt_two_iff buf).mpr htwo)] at hruns
    obtain ⟨rfl, -⟩ := (runs_pure _ _ _).mp hruns
    rw [if_neg htwo]
    rfl

theorem sentOn_ofExcept {α : Type} {computation : Except Fault α} {trace : List ZephyrEvent} {outcome : Except Fault α}
    (hruns : Runs (Prog.ofExcept computation : Firmware α) trace outcome) : sentOn trace = [] := by
  apply sentOn_eq_nil
  exact indications_eq_nil _ (forall_event_of_callsOnly (fun op => ¬IsIndication op) _ _ _
    (callsOnly_ofExcept _ computation) hruns)

theorem handle_sends {attrRead : AttrRead} {op : GattOp} {data : StaticData} {trace : List ZephyrEvent}
    {result : GattReply × StaticData} (hruns : Runs (op.handle attrRead data) trace (.ok result)) :
    OpSends op (sentOn trace) := by
  cases op with
  | read attr len offset =>
      obtain ⟨rfl, -⟩ := (runs_pure _ _ _).mp hruns
      rfl
  | write attr buf offset =>
      obtain ⟨before, ⟨ret, next⟩, after, rfl, hwrite, hpure⟩ := (runs_bind_ok _ _ _ _).mp hruns
      obtain ⟨rfl, -⟩ := (runs_pure _ _ _).mp hpure
      rw [List.append_nil]
      cases attr with
      | meterConfig => exact sentOn_ofExcept hwrite
      | command txBuf =>
          obtain ⟨before, length, after, rfl, hpacket, hpure⟩ := (runs_bind_ok _ _ _ _).mp hwrite
          obtain ⟨rfl, -⟩ := (runs_pure _ _ _).mp hpure
          rw [List.append_nil]
          exact writePacket_sends hpacket
      | logFetch =>
          obtain ⟨before, ret, after, rfl, hfetch, hpure⟩ := (runs_bind_ok _ _ _ _).mp hwrite
          obtain ⟨rfl, -⟩ := (runs_pure _ _ _).mp hpure
          rw [List.append_nil]
          exact writeLogFetch_sends hfetch
      | logLevel => exact sentOn_ofExcept hwrite
      | clearLogs =>
          obtain ⟨reply, rest, rfl, hrest⟩ := (runs_perform_bind _ _ _ _).mp hwrite
          obtain ⟨rfl, -⟩ := (runs_pure _ _ _).mp hrest
          rfl

-- Each operation sends its own, and they do so in order.
theorem serve_sends {attrRead : AttrRead} {ops : List GattOp} {data : StaticData} {trace : List ZephyrEvent}
    {outcome : Except Fault (List GattReply × StaticData)} (hruns : Runs (serve attrRead ops data) trace outcome) :
    ∃ parts, sentOn trace = parts.flatten ∧ List.Forall₂ OpSends ops parts := by
  induction ops generalizing data trace outcome with
  | nil =>
      obtain ⟨rfl, -⟩ := (runs_pure _ _ _).mp hruns
      exact ⟨[], rfl, .nil⟩
  | cons op rest ih =>
      have hreturns := not_runs_error_of_returns _ _ (handle_returns attrRead op data)
      obtain ⟨before, ⟨reply, next⟩, after, rfl, hop, hrest⟩ := (runs_bind_of_returns _ _ _ _ hreturns).mp hruns
      have hrestReturns := not_runs_error_of_returns _ _ (serve_refines attrRead rest next)
      obtain ⟨during, ⟨replies, final⟩, last, rfl, hserve, hpure⟩ :=
        (runs_bind_of_returns _ _ _ _ hrestReturns).mp hrest
      obtain ⟨rfl, -⟩ := (runs_pure _ _ _).mp hpure
      obtain ⟨parts, hparts, hsends⟩ := ih hserve
      refine ⟨sentOn before :: parts, ?_, .cons (handle_sends hop) hsends⟩
      rw [sentOn_append, List.append_nil, hparts, List.flatten_cons]

end Operation

section Routing

-- No two characteristics have the same UUID.
theorem uuids_nodup : (characteristics.map Characteristic.uuid).Nodup := by decide

theorem only_of_found {characteristic other : Characteristic} (hfound : characteristic ∈ characteristics)
    (hother : other ∈ characteristics) (huuid : other.uuid = characteristic.uuid) : other = characteristic :=
  List.inj_on_of_nodup_map uuids_nodup hother hfound huuid

theorem routed_of_found {op : GattOp} {uuid : BitVec 128} {data : List Byte} {characteristic : Characteristic}
    (hfound : characteristic ∈ characteristics) (hnamed : characteristic.uuid = uuid)
    (hserves : characteristic.serves op) (hindicates : Chrc.indicate ∈ characteristic.properties ∧
      characteristic.ccc = true) (hsize : data.length ≤ MAX_PAYLOAD_SIZE ∧ data ≠ []) :
    Routed op uuid data characteristic where
  found := hfound
  named := hnamed
  only := fun _ hother huuid => only_of_found hfound hother (huuid.trans hnamed.symm)
  serves := hserves
  indicates := hindicates.1
  ccc := hindicates.2
  size := hsize.1
  nonempty := hsize.2

theorem encode_fits (frame : Frame) (h : frame.payload.length ≤ 233) :
    frame.encode.length ≤ MAX_PAYLOAD_SIZE ∧ frame.encode ≠ [] := by
  rw [frame.length_encode, MAX_PAYLOAD_SIZE, Frame.encode]
  exact ⟨by omega, List.cons_ne_nil _ _⟩

-- The three characteristics whose handlers indicate.
def commandCharacteristic : Characteristic :=
  ⟨energyCmdUuid, [.write, .indicate], [.write], none, some .writePacket, true⟩

def logFetchCharacteristic : Characteristic :=
  ⟨diagLogFetchUuid, [.write, .indicate], [.write], none, some .writeLogFetch, true⟩

def clearLogsCharacteristic : Characteristic :=
  ⟨diagClearLogsUuid, [.write, .indicate], [.write], none, some .writeClearLogs, true⟩

theorem routed_of_sends {op : GattOp} {sent : List (BitVec 128 × List Byte)} (h : OpSends op sent) :
    sent.length ≤ 1 ∧ ∀ uuid data, (uuid, data) ∈ sent → ∃ characteristic, Routed op uuid data characteristic := by
  have hnone : ([] : List (BitVec 128 × List Byte)).length ≤ 1 ∧ ∀ uuid data, (uuid, data) ∈ [] →
      ∃ characteristic, Routed op uuid data characteristic :=
    ⟨Nat.zero_le _, fun _ _ hmem => absurd hmem List.not_mem_nil⟩
  have hone : ∀ (uuid : BitVec 128) (data : List Byte) (characteristic : Characteristic),
      Routed op uuid data characteristic → [(uuid, data)].length ≤ 1 ∧ ∀ uuid' data', (uuid', data') ∈ [(uuid, data)] →
        ∃ characteristic, Routed op uuid' data' characteristic := by
    intro uuid data characteristic hrouted
    refine ⟨Nat.le_refl _, fun uuid' data' hmem => ?_⟩
    cases List.mem_singleton.mp hmem
    exact ⟨characteristic, hrouted⟩
  cases op with
  | read attr len offset =>
      cases h
      exact hnone
  | write attr buf offset =>
      cases attr with
      | meterConfig | logLevel =>
          cases h
          exact hnone
      | command txBuf =>
          rcases h with rfl | ⟨frame, hfits, -, rfl⟩
          · exact hnone
          · exact hone _ _ commandCharacteristic (routed_of_found (by decide) rfl ⟨rfl, by decide⟩ ⟨by decide, rfl⟩
              (encode_fits frame hfits))
      | logFetch =>
          rw [OpSends] at h
          split at h
          · rw [h]
            exact hone _ _ logFetchCharacteristic (routed_of_found (by decide) rfl ⟨rfl, by decide⟩ ⟨by decide, rfl⟩
              (by decide))
          · rw [h]
            exact hnone
      | clearLogs =>
          rw [h]
          exact hone _ _ clearLogsCharacteristic (routed_of_found (by decide) rfl ⟨rfl, by decide⟩ ⟨by decide, rfl⟩
            (by decide))

-- Over any history, what is indicated comes operation by operation: at most one
-- indication for each, of at most 240 bytes, and its UUID names the one
-- characteristic that the operation is on, to whose indications a peer can
-- subscribe.
theorem indications_routed (attrRead : AttrRead) (ops : List GattOp) (data : StaticData)
    (run : Run (serve attrRead ops data)) :
    ∃ parts, sentOn run.trace = parts.flatten ∧ List.Forall₂ (fun op sent => OpSends op sent ∧ sent.length ≤ 1 ∧
      ∀ uuid data, (uuid, data) ∈ sent → ∃ characteristic, Routed op uuid data characteristic) ops parts := by
  obtain ⟨parts, hparts, hsends⟩ := serve_sends run.runs
  exact ⟨parts, hparts, hsends.imp fun op sent h => ⟨h, routed_of_sends h⟩⟩

end Routing

end TJ3Firmware
