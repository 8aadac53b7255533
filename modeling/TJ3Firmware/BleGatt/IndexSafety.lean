import TJ3Firmware.BleGatt
import TJ3Firmware.Protocol.Compose

namespace TJ3Firmware

open Library.Memory Library.Interaction

section Request

-- Every op code but that of the degenerate frame, which is its ETX, comes with
-- a payload window that can be read.
def PayloadReadable (packet : Packet) : Prop :=
  packet.opCode ≠ PROTOCOL_ETX →
    ∃ bytes, packet.payload.readRange packet.payloadLen.toNat = .ok bytes ∧ packet.payloadLen.toNat ≤ 65533

theorem readable_of_accepts (buf : List Byte) (h : Accepts buf) : PayloadReadable (packetOf buf) := by
  intro hop
  have hzero := lenField_ne_zero buf h
  have hone : lenField buf ≠ 1 := by
    intro hlen
    have hetx := h.etx
    rw [hlen] at hetx
    exact hop hetx
  have hcomplete := h.complete
  have hlt := lenField_lt buf
  have hpayload := payloadLen_of_two_le buf (by omega)
  refine ⟨_, Ptr.readRange_eq buf 4 _ (by omega), by omega⟩

end Request

section Response

-- A response never reaches past the end of tx_buf.
theorem composeTx_returns (opCode : Byte) (arg : PayloadArg) (txBuf : TxBuf) (hlen : arg.len.toNat ≤ 65533) :
    Returns (composeTx opCode arg.pointer arg.len txBuf) fun response => response.1.toNat ≤ MAX_PAYLOAD_SIZE := by
  unfold composeTx
  rcases compose_cases opCode arg txBuf MAX_PAYLOAD_SIZE hlen (Nat.le_refl _) with hfail | ⟨outBuf', hsent, hfits⟩
  · rw [hfail]
    exact Nat.zero_le _
  · rw [hsent]
    exact hfits

theorem composeTx_bytes_returns (opCode : Byte) (bytes : List Byte) (txBuf : TxBuf) (h : bytes.length ≤ 65533) :
    Returns (composeTx opCode (some ⟨bytes, 0⟩) (BitVec.ofNat 16 bytes.length) txBuf) fun response =>
      response.1.toNat ≤ MAX_PAYLOAD_SIZE := by
  apply composeTx_returns opCode (PayloadArg.ofBytes bytes (by omega)) txBuf
  simp only [PayloadArg.ofBytes, BitVec.toNat_ofNat]
  omega

end Response

section Handlers

-- The file system handlers touch no byte of the request or the response.
theorem fsHandlerTest_returns : Returns fsHandlerTest fun _ => True := by
  simp [fsHandlerTest, fsOpen, fsWrite, fsSeek, fsRead, fsClose, perform]

theorem fsHandlerFastFormat_returns : Returns fsHandlerFastFormat fun _ => True := by
  simp [fsHandlerFastFormat, fsMkfs, perform]

theorem fsHandlerLowLevelFormat_returns : Returns fsHandlerLowLevelFormat fun _ => True := by
  simp [fsHandlerLowLevelFormat, fsUnmount, fsMount, flashAreaOpen, flashAreaErase, flashAreaClose, perform]

-- The three commands that answer with the status of a handler.
theorem status_returns (handler : Firmware Int) (opCode : Byte) (txBuf : TxBuf)
    (h : Returns handler fun _ => True) :
    Returns (handler >>= fun rc => composeTx opCode (some ⟨[statusByte rc], 0⟩) 1#16 txBuf) fun response =>
      response.1.toNat ≤ MAX_PAYLOAD_SIZE := by
  rw [returns_bind]
  exact returns_mono handler _ _ (fun rc _ => composeTx_bytes_returns opCode [statusByte rc] txBuf (by simp)) h

theorem dispatch_returns (packet : Packet) (txBuf : TxBuf) (hread : PayloadReadable packet) :
    Returns (dispatch packet txBuf) fun response => response.1.toNat ≤ MAX_PAYLOAD_SIZE := by
  unfold dispatch
  simp only [returns_ite]
  split
  · rename_i hecho
    obtain ⟨bytes, hbytes, hlen⟩ := hread (by rw [hecho]; decide)
    rw [hbytes, returns_bind, returns_ofExcept_ok]
    exact composeTx_returns packet.opCode ⟨some packet.payload, packet.payloadLen, bytes, Or.inr ⟨_, rfl, hbytes⟩⟩
      txBuf hlen
  split
  · exact status_returns _ _ _ fsHandlerTest_returns
  split
  · exact composeTx_bytes_returns _ dummyPayload txBuf (by decide)
  split
  · exact composeTx_bytes_returns _ dummyPayload txBuf (by decide)
  split
  · exact status_returns _ _ _ fsHandlerFastFormat_returns
  split
  · exact status_returns _ _ _ fsHandlerLowLevelFormat_returns
  · exact composeTx_returns packet.opCode (PayloadArg.empty none) txBuf (Nat.zero_le _)

theorem protocolHandler_returns (txBuf : TxBuf) (packet : Packet)
    (h : Returns (dispatch packet txBuf) fun response => response.1.toNat ≤ MAX_PAYLOAD_SIZE) :
    Returns (protocolHandler txBuf packet) fun _ => True := by
  unfold protocolHandler
  rw [returns_bind]
  refine returns_mono _ _ _ ?_ h
  rintro ⟨txLen, response⟩ hfits
  simp only [returns_ite]
  split
  · have hsize := response.length_cells
    rw [Ptr.readRange_eq _ _ _ (by omega), returns_bind, returns_ofExcept_ok]
    simp [btGattIndicate, perform]
  · trivial

-- The LED toggle looks at the payload only when there is one.
theorem ledRequested_ok (packet : Packet) (bytes : List Byte)
    (h : packet.payload.readRange packet.payloadLen.toNat = .ok bytes) :
    ∃ requested, ledRequested packet = .ok requested := by
  unfold ledRequested
  split
  · rename_i hpos
    obtain ⟨value, hvalue⟩ := packet.payload.read_of_readRange _ bytes h 0 hpos
    exact ⟨_, by rw [hvalue, ok_bind]⟩
  · exact ⟨false, rfl⟩

theorem handleLogic_returns (txBuf : TxBuf) (packet : Packet) (hread : PayloadReadable packet) :
    Returns (handleLogic txBuf packet) fun _ => True := by
  unfold handleLogic
  simp only [returns_ite]
  split
  · rename_i hled
    obtain ⟨bytes, hbytes, -⟩ := hread (by rw [hled]; decide)
    obtain ⟨requested, hrequested⟩ := ledRequested_ok packet bytes hbytes
    rw [hrequested, returns_bind, returns_ofExcept_ok]
    simp [ledOn, ledOff, perform]
  · exact protocolHandler_returns txBuf packet (dispatch_returns packet txBuf hread)

theorem writePacket_returns (txBuf : TxBuf) (buf : List Byte) :
    Returns (writePacket txBuf buf) fun length => length = buf.length := by
  unfold writePacket
  by_cases haccepts : Accepts buf
  · rw [protocolParse_of_accepts buf haccepts, returns_bind, returns_ofExcept_ok]
    simp only [returns_bind, returns_pure]
    exact returns_mono _ _ _ (fun _ _ => trivial) (handleLogic_returns txBuf _ (readable_of_accepts buf haccepts))
  · obtain ⟨code, hcode, -⟩ := protocolParse_error_of_not_accepts buf haccepts
    rw [hcode, returns_bind, returns_ofExcept_ok]
    rfl

end Handlers

-- Whatever is written to the Command characteristic and whatever the calls
-- reply, no access leaves the written bytes or tx_buf, and len is returned.
theorem write_packet_index_safe (txBuf : TxBuf) (buf : List Byte) (run : Run (writePacket txBuf buf)) :
    run.outcome = .ok buf.length := by
  obtain ⟨value, houtcome, rfl⟩ := returns_sound _ _ (writePacket_returns txBuf buf) run
  exact houtcome

end TJ3Firmware
