import TJ3Firmware.Session
import TJ3Firmware.BleGatt.Response

namespace TJ3Firmware

open Library.Memory Library.Interaction

-- A response with the status 0x00 was sent.
def StatusOk (trace : List ZephyrEvent) : Prop :=
  ∃ data ∈ indications trace, ∃ response opCode, protocolParse data = .ok (.ok response) ∧
    Reports response opCode [0x00#8]

-- The command answers with the status its handler returned.
theorem statusOk_iff {packet : Packet} {trace : List ZephyrEvent} (exchange : Exchange packet trace)
    (handler : Firmware Int) (hop : statusHandler packet.opCode = some handler) :
    ∃ rc, Runs handler exchange.before (.ok rc) ∧ (StatusOk trace ↔ rc = 0) := by
  obtain ⟨rc, hruns, hpayload⟩ := exchange.status handler hop
  refine ⟨rc, hruns, ?_⟩
  have hparse := protocolParse_of_accepts _ (exchange.frame.accepts_encode_append [])
  have hreports := exchange.frame.reports_encode_append []
  rw [List.append_nil] at hparse hreports
  rw [hpayload] at hreports
  rw [StatusOk, exchange.indications_eq, hpayload, if_pos (by simp)]
  constructor
  · rintro ⟨data, hdata, response, opCode, hresponse, hstatus⟩
    cases List.mem_singleton.mp hdata
    cases hparse.symm.trans hresponse
    have hbytes := Except.ok.inj (hreports.2.2.symm.trans hstatus.2.2)
    by_contra hne
    rw [statusByte, if_neg hne] at hbytes
    cases hbytes
  · rintro rfl
    exact ⟨_, List.mem_singleton.mpr rfl, _, _, hparse, hreports⟩

theorem exists_exchange (command : Command) (opCode : Byte) (hop : acceptedOpCode command.buf = some opCode)
    (hled : opCode ≠ 0x01#8) :
    ∃ packet, packet.opCode = opCode ∧ Nonempty (Exchange packet command.run.trace) := by
  unfold acceptedOpCode at hop
  split at hop
  · rename_i packet hparse
    cases hop
    exact ⟨packet, rfl, exists_exchange_of_parsed command.txBuf command.buf command.run packet hparse hled⟩
  · cases hop

end TJ3Firmware
