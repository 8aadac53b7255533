import TJ3Firmware.BleGatt.IndexSafety
import TJ3Firmware.Protocol.RoundTrip

namespace TJ3Firmware

open Library.Memory Library.Interaction

section Indications

-- The bytes handed to bt_gatt_indicate, in order.
def indicated : ZephyrEvent → Option (List Byte)
  | ⟨.btGattIndicate _ data, _⟩ => some data
  | _ => none

def indications (trace : List ZephyrEvent) : List (List Byte) := trace.filterMap indicated

@[simp] theorem indications_append (before after : List ZephyrEvent) :
    indications (before ++ after) = indications before ++ indications after := List.filterMap_append

def IsIndication : ZephyrCall → Prop
  | .btGattIndicate _ _ => True
  | _ => False

theorem indications_eq_nil (trace : List ZephyrEvent) (h : ∀ event ∈ trace, ¬IsIndication event.op) :
    indications trace = [] := by
  rw [indications, List.filterMap_eq_nil_iff]
  intro event hevent
  have hnone := h event hevent
  obtain ⟨op, reply⟩ := event
  cases op with
  | btGattIndicate uuid data => exact absurd trivial hnone
  | _ => rfl

-- The file system handlers, whose status the answer carries.
def statusHandler (opCode : Byte) : Option (Firmware Int) :=
  if opCode = OP_BLE_TEST_FLASH then some fsHandlerTest
  else if opCode = OP_BLE_FS_FAST_FORMAT then some fsHandlerFastFormat
  else if opCode = OP_BLE_FS_LOW_LEVEL_FORMAT then some fsHandlerLowLevelFormat
  else none

theorem statusHandler_cases (opCode : Byte) (handler : Firmware Int) (h : statusHandler opCode = some handler) :
    opCode = OP_BLE_TEST_FLASH ∧ handler = fsHandlerTest ∨
      opCode = OP_BLE_FS_FAST_FORMAT ∧ handler = fsHandlerFastFormat ∨
      opCode = OP_BLE_FS_LOW_LEVEL_FORMAT ∧ handler = fsHandlerLowLevelFormat := by
  unfold statusHandler at h
  split_ifs at h with htest hfast hlow
  · exact Or.inl ⟨htest, (Option.some.inj h).symm⟩
  · exact Or.inr (Or.inl ⟨hfast, (Option.some.inj h).symm⟩)
  · exact Or.inr (Or.inr ⟨hlow, (Option.some.inj h).symm⟩)

theorem statusHandler_returns (opCode : Byte) (handler : Firmware Int) (h : statusHandler opCode = some handler) :
    Returns handler fun _ => True := by
  rcases statusHandler_cases opCode handler h with ⟨-, rfl⟩ | ⟨-, rfl⟩ | ⟨-, rfl⟩
  · exact fsHandlerTest_returns
  · exact fsHandlerFastFormat_returns
  · exact fsHandlerLowLevelFormat_returns

theorem statusHandler_silent (opCode : Byte) (handler : Firmware Int) (h : statusHandler opCode = some handler) :
    CallsOnly (fun op => ¬IsIndication op) handler := by
  rcases statusHandler_cases opCode handler h with ⟨-, rfl⟩ | ⟨-, rfl⟩ | ⟨-, rfl⟩
  · simp [fsHandlerTest, fsOpen, fsWrite, fsSeek, fsRead, fsClose, perform, IsIndication]
  · simp [fsHandlerFastFormat, fsMkfs, perform, IsIndication]
  · simp [fsHandlerLowLevelFormat, fsUnmount, fsMount, flashAreaOpen, flashAreaErase, flashAreaClose, perform,
      IsIndication]

end Indications

section Dispatch

-- The payload a request is answered with, after these calls.
inductive Answers (packet : Packet) : List ZephyrEvent → List Byte → Prop
  | echo (bytes : List Byte) (hop : packet.opCode = OP_BLE_TEST_ECHO)
      (hread : packet.payload.readRange packet.payloadLen.toNat = .ok bytes) : Answers packet [] bytes
  | status (handler : Firmware Int) (trace : List ZephyrEvent) (rc : Int)
      (hop : statusHandler packet.opCode = some handler) (hruns : Runs handler trace (.ok rc)) :
      Answers packet trace [statusByte rc]
  | mock (hop : packet.opCode = OP_BLE_GET_IOR_INFO ∨ packet.opCode = OP_BLE_GET_REALTIME_CURR) :
      Answers packet [] dummyPayload
  | unknown (hecho : packet.opCode ≠ OP_BLE_TEST_ECHO) (hstatus : statusHandler packet.opCode = none) :
      Answers packet [] []

-- What protocol_compose makes of it: the frame is in tx_buf, or it does not fit.
def Composes (frame : Frame) (txBuf : TxBuf) (response : Int × TxBuf) : Prop :=
  (frame.payload.length ≤ 233 ∧ response.1 = (frame.payload.length + 7 : Nat) ∧
    response.2.cells.take (frame.payload.length + 7) = frame.encode) ∨
  (233 < frame.payload.length ∧ response = (-1, txBuf))

theorem composeTx_composes (opCode : Byte) (arg : PayloadArg) (txBuf : TxBuf) (hlen : arg.len.toNat ≤ 65533) :
    ∃ response, composeTx opCode arg.pointer arg.len txBuf = pure response ∧
      Composes (arg.frame opCode hlen) txBuf response := by
  have hlength : (arg.frame opCode hlen).payload.length = arg.len.toNat := arg.length_bytes
  unfold composeTx Composes
  by_cases hroom : arg.len.toNat + 7 ≤ MAX_PAYLOAD_SIZE
  · have hsmall : arg.len.toNat ≤ 233 := by
      rw [MAX_PAYLOAD_SIZE] at hroom
      omega
    rw [compose_eq opCode arg txBuf MAX_PAYLOAD_SIZE hlen hroom (Nat.le_refl _), hlength]
    refine ⟨_, rfl, Or.inl ⟨hsmall, rfl, ?_⟩⟩
    exact txBuf.take_filled (arg.frame opCode hlen).encode (by rw [arg.length_frame_encode]; exact hroom) _
      (arg.length_frame_encode opCode hlen).symm
  · rw [MAX_PAYLOAD_SIZE] at hroom
    have hval := toNat_composeLen_of_le arg.len hlen
    rw [compose_too_small opCode arg txBuf MAX_PAYLOAD_SIZE (by rw [MAX_PAYLOAD_SIZE]; omega), hlength]
    exact ⟨_, rfl, Or.inr ⟨by omega, rfl⟩⟩

-- The frame of a payload the dispatcher composes itself.
theorem composeTx_bytes_composes (opCode : Byte) (bytes : List Byte) (txBuf : TxBuf) (h : bytes.length ≤ 65533) :
    ∃ response, composeTx opCode (some ⟨bytes, 0⟩) (BitVec.ofNat 16 bytes.length) txBuf = pure response ∧
      Composes ⟨opCode, bytes, h⟩ txBuf response := by
  apply composeTx_composes opCode (PayloadArg.ofBytes bytes (by omega)) txBuf
  simp only [PayloadArg.ofBytes, BitVec.toNat_ofNat]
  omega

theorem runs_composed (frame : Frame) (txBuf : TxBuf) (prog : Firmware (Int × TxBuf)) (trace : List ZephyrEvent)
    (outcome : Except Fault (Int × TxBuf)) (hprog : ∃ response, prog = pure response ∧ Composes frame txBuf response)
    (hruns : Runs prog trace outcome) :
    trace = [] ∧ ∃ response, outcome = .ok response ∧ Composes frame txBuf response := by
  obtain ⟨response, rfl, hcomposes⟩ := hprog
  obtain ⟨htrace, houtcome⟩ := (runs_pure response trace outcome).mp hruns
  exact ⟨htrace, response, houtcome, hcomposes⟩

theorem runs_status (packet : Packet) (handler : Firmware Int) (txBuf : TxBuf) (trace : List ZephyrEvent)
    (outcome : Except Fault (Int × TxBuf)) (hop : statusHandler packet.opCode = some handler)
    (hruns : Runs (handler >>= fun rc => composeTx packet.opCode (some ⟨[statusByte rc], 0⟩) 1#16 txBuf) trace outcome) :
    ∃ (frame : Frame) (response : Int × TxBuf), frame.opCode = packet.opCode ∧ Answers packet trace frame.payload ∧
      outcome = .ok response ∧ Composes frame txBuf response := by
  have hreturns := not_runs_error_of_returns handler _ (statusHandler_returns packet.opCode handler hop)
  obtain ⟨before, rc, after, rfl, hhandler, hcompose⟩ := (runs_bind_of_returns _ _ _ _ hreturns).mp hruns
  obtain ⟨rfl, response, houtcome, hcomposes⟩ := runs_composed ⟨packet.opCode, [statusByte rc], by simp⟩ txBuf _ _ _
    (composeTx_bytes_composes packet.opCode [statusByte rc] txBuf (by simp)) hcompose
  refine ⟨_, response, rfl, ?_, houtcome, hcomposes⟩
  rw [List.append_nil]
  exact .status handler before rc hop hhandler

theorem runs_dispatch (packet : Packet) (txBuf : TxBuf) (hread : PayloadReadable packet) (trace : List ZephyrEvent)
    (outcome : Except Fault (Int × TxBuf)) (hruns : Runs (dispatch packet txBuf) trace outcome) :
    ∃ (frame : Frame) (response : Int × TxBuf), frame.opCode = packet.opCode ∧ Answers packet trace frame.payload ∧
      outcome = .ok response ∧ Composes frame txBuf response := by
  unfold dispatch at hruns
  simp only at hruns
  split at hruns
  · rename_i hecho
    obtain ⟨bytes, hbytes, hlen⟩ := hread (by rw [hecho]; decide)
    rw [hbytes, Prog.ofExcept_ok_bind] at hruns
    have hcompose := composeTx_composes packet.opCode
      ⟨some packet.payload, packet.payloadLen, bytes, Or.inr ⟨_, rfl, hbytes⟩⟩ txBuf hlen
    obtain ⟨rfl, response, houtcome, hcomposes⟩ := runs_composed _ txBuf _ _ _ hcompose hruns
    exact ⟨_, response, rfl, .echo bytes hecho hbytes, houtcome, hcomposes⟩
  split at hruns
  · rename_i htest
    refine runs_status packet fsHandlerTest txBuf trace outcome ?_ hruns
    rw [statusHandler, if_pos htest]
  have hmock := composeTx_bytes_composes packet.opCode dummyPayload txBuf (by decide)
  split at hruns
  · rename_i hior
    obtain ⟨rfl, response, houtcome, hcomposes⟩ := runs_composed _ txBuf _ _ _ hmock hruns
    exact ⟨_, response, rfl, .mock (Or.inl hior), houtcome, hcomposes⟩
  split at hruns
  · rename_i hcurrent
    obtain ⟨rfl, response, houtcome, hcomposes⟩ := runs_composed _ txBuf _ _ _ hmock hruns
    exact ⟨_, response, rfl, .mock (Or.inr hcurrent), houtcome, hcomposes⟩
  split at hruns
  · rename_i htest _ _ hfast
    refine runs_status packet fsHandlerFastFormat txBuf trace outcome ?_ hruns
    rw [statusHandler, if_neg htest, if_pos hfast]
  split at hruns
  · rename_i htest _ _ hfast hlow
    refine runs_status packet fsHandlerLowLevelFormat txBuf trace outcome ?_ hruns
    rw [statusHandler, if_neg htest, if_neg hfast, if_pos hlow]
  · rename_i hecho htest _ _ hfast hlow
    have hempty := composeTx_composes packet.opCode (PayloadArg.empty none) txBuf (Nat.zero_le _)
    obtain ⟨rfl, response, houtcome, hcomposes⟩ := runs_composed _ txBuf _ _ _ hempty hruns
    refine ⟨_, response, rfl, .unknown hecho ?_, houtcome, hcomposes⟩
    rw [statusHandler, if_neg htest, if_neg hfast, if_neg hlow]

end Dispatch

section Command

theorem indications_of_answers (packet : Packet) (trace : List ZephyrEvent) (payload : List Byte)
    (h : Answers packet trace payload) : indications trace = [] := by
  cases h with
  | status handler _ rc hop hruns =>
      exact indications_eq_nil _ (forall_event_of_callsOnly _ _ _ _ (statusHandler_silent _ _ hop) hruns)
  | _ => rfl

-- The frame is indicated unless it does not fit tx_buf.
def Sends (frame : Frame) (trace : List ZephyrEvent) : Prop :=
  (frame.payload.length ≤ 233 ∧ ∃ rc, trace = [⟨.btGattIndicate energyCmdUuid frame.encode, rc⟩]) ∨
  (233 < frame.payload.length ∧ trace = [])

-- The calls of a command: those of its handler, then the answer.
structure Exchange (packet : Packet) (trace : List ZephyrEvent) where
  frame : Frame
  before : List ZephyrEvent
  after : List ZephyrEvent
  split : trace = before ++ after
  opCode : frame.opCode = packet.opCode
  answers : Answers packet before frame.payload
  sends : Sends frame after

theorem indications_of_sends (frame : Frame) (trace : List ZephyrEvent) (h : Sends frame trace) :
    indications trace = if frame.payload.length ≤ 233 then [frame.encode] else [] := by
  rcases h with ⟨hfits, rc, rfl⟩ | ⟨hlarge, rfl⟩
  · rw [if_pos hfits]
    rfl
  · rw [if_neg (by omega)]
    rfl

theorem Exchange.indications_eq {packet : Packet} {trace : List ZephyrEvent} (exchange : Exchange packet trace) :
    indications trace = if exchange.frame.payload.length ≤ 233 then [exchange.frame.encode] else [] := by
  have hsplit := congrArg indications exchange.split
  rw [indications_append, indications_of_answers packet _ _ exchange.answers, List.nil_append,
    indications_of_sends _ _ exchange.sends] at hsplit
  exact hsplit

theorem runs_protocolHandler (txBuf : TxBuf) (packet : Packet) (hread : PayloadReadable packet)
    (trace : List ZephyrEvent) (outcome : Except Fault Unit) (hruns : Runs (protocolHandler txBuf packet) trace outcome) :
    Nonempty (Exchange packet trace) := by
  have hreturns := not_runs_error_of_returns _ _ (dispatch_returns packet txBuf hread)
  obtain ⟨before, value, after, rfl, hdispatch, hsend⟩ := (runs_bind_of_returns _ _ _ _ hreturns).mp hruns
  obtain ⟨frame, response, hop, hanswers, hvalue, hcomposes⟩ := runs_dispatch packet txBuf hread _ _ hdispatch
  cases hvalue
  refine ⟨⟨frame, before, after, rfl, hop, hanswers, ?_⟩⟩
  obtain ⟨txLen, filled⟩ := value
  simp only at hsend
  rcases hcomposes with ⟨hfits, hlen, hcells⟩ | ⟨hlarge, hfailed⟩
  · left
    simp only at hlen hcells
    subst hlen
    have hsize : filled.cells.length = 240 := filled.length_cells
    rw [if_pos (by omega), Int.toNat_natCast, Ptr.readRange_eq _ _ _ (by omega), List.drop_zero, hcells,
      Prog.ofExcept_ok_bind] at hsend
    obtain ⟨rc, rest, rfl, hrest⟩ := (runs_perform_bind _ _ _ _).mp hsend
    obtain ⟨rfl, -⟩ := (runs_pure _ _ _).mp hrest
    exact ⟨hfits, rc, rfl⟩
  · right
    cases hfailed
    rw [if_neg (by decide)] at hsend
    exact ⟨hlarge, ((runs_pure _ _ _).mp hsend).1⟩

-- What write_packet does with an accepted frame.
theorem runs_writePacket (txBuf : TxBuf) (buf : List Byte) (haccepts : Accepts buf) (trace : List ZephyrEvent)
    (outcome : Except Fault Nat) (hruns : Runs (writePacket txBuf buf) trace outcome) :
    if (packetOf buf).opCode = 0x01#8 then indications trace = [] else Nonempty (Exchange (packetOf buf) trace) := by
  have hreturns := not_runs_error_of_returns _ _ (handleLogic_returns txBuf _ (readable_of_accepts buf haccepts))
  unfold writePacket at hruns
  rw [protocolParse_of_accepts buf haccepts, Prog.ofExcept_ok_bind] at hruns
  obtain ⟨before, _, after, rfl, hlogic, hpure⟩ := (runs_bind_of_returns _ _ _ _ hreturns).mp hruns
  obtain ⟨rfl, -⟩ := (runs_pure _ _ _).mp hpure
  rw [List.append_nil]
  unfold handleLogic at hlogic
  split
  · rename_i hled
    rw [if_pos hled] at hlogic
    -- the LED calls are no indications
    refine indications_eq_nil _ (forall_event_of_callsOnly (fun op => ¬IsIndication op) _ _ _ ?_ hlogic)
    apply callsOnly_bind _ _ _ (callsOnly_ofExcept _ _)
    intro requested
    simp [ledOn, ledOff, perform, IsIndication]
  · rename_i hled
    rw [if_neg hled] at hlogic
    exact runs_protocolHandler txBuf _ (readable_of_accepts buf haccepts) _ _ hlogic

theorem runs_writePacket_rejected (txBuf : TxBuf) (buf : List Byte) (code : Int)
    (hparse : protocolParse buf = .ok (.error code)) (trace : List ZephyrEvent) (outcome : Except Fault Nat)
    (hruns : Runs (writePacket txBuf buf) trace outcome) : trace = [] := by
  unfold writePacket at hruns
  rw [hparse, Prog.ofExcept_ok_bind] at hruns
  exact ((runs_pure _ _ _).mp hruns).1

end Command

section Answered

-- One indication, of a non-empty frame.
def Answered (trace : List ZephyrEvent) : Prop :=
  ∃ response : Frame, indications trace = [response.encode] ∧ response.encode ≠ []

-- Only an echo can have a payload that does not fit.
theorem answers_large_iff (packet : Packet) (trace : List ZephyrEvent) (payload : List Byte)
    (h : Answers packet trace payload) :
    233 < payload.length ↔ packet.opCode = OP_BLE_TEST_ECHO ∧ 233 < packet.payloadLen.toNat := by
  cases h with
  | echo _ hop hread =>
      have hlength := packet.payload.readRange_length _ _ hread
      rw [hlength]
      exact (and_iff_right hop).symm
  | status handler _ rc hop hruns =>
      apply iff_of_false (by simp)
      rintro ⟨hecho, -⟩
      rw [hecho] at hop
      cases hop
  | mock hop =>
      apply iff_of_false (by decide)
      rintro ⟨hecho, -⟩
      rw [hecho] at hop
      exact absurd hop (by decide)
  | unknown hecho hstatus => exact iff_of_false (by decide) fun h => hecho h.1

theorem Exchange.answered_iff {packet : Packet} {trace : List ZephyrEvent} (exchange : Exchange packet trace) :
    Answered trace ↔ ¬(packet.opCode = OP_BLE_TEST_ECHO ∧ 233 < packet.payloadLen.toNat) := by
  rw [← answers_large_iff packet _ _ exchange.answers, Answered, exchange.indications_eq]
  constructor
  · rintro ⟨response, hresponse, -⟩ hlarge
    rw [if_neg (by omega)] at hresponse
    cases hresponse
  · intro hfits
    refine ⟨exchange.frame, if_pos (by omega), ?_⟩
    rw [Frame.encode]
    exact List.cons_ne_nil _ _

instance (call : ZephyrCall) : Nonempty (ZephyrReply call) := by
  cases call with
  | fsRead => exact ⟨(0, [])⟩
  | flashAreaOpen => exact ⟨(0, ⟨0, 0⟩)⟩
  | flashAreaClose | ledOn | ledOff => exact ⟨()⟩
  | _ => exact ⟨(0 : Int)⟩

-- Every accepted command but the LED toggle is answered, except an echo whose
-- frame is larger than tx_buf. Its failure depends on nothing else.
theorem command_answered_iff (txBuf : TxBuf) (buf : List Byte) (packet : Packet)
    (hparse : protocolParse buf = .ok (.ok packet)) (hop : packet.opCode ≠ 0x01#8) :
    (∀ run : Run (writePacket txBuf buf), Answered run.trace) ↔
      ¬(packet.opCode = OP_BLE_TEST_ECHO ∧ 233 < packet.payloadLen.toNat) := by
  obtain ⟨haccepts, rfl⟩ := (protocolParse_ok_iff buf packet).mp hparse
  have hexchange : ∀ run : Run (writePacket txBuf buf), Nonempty (Exchange (packetOf buf) run.trace) := by
    intro run
    have hrun := runs_writePacket txBuf buf haccepts _ _ run.runs
    rwa [if_neg hop] at hrun
  constructor
  · intro hall
    obtain ⟨run⟩ := (writePacket txBuf buf).exists_run
    obtain ⟨exchange⟩ := hexchange run
    exact exchange.answered_iff.mp (hall run)
  · intro hfits run
    obtain ⟨exchange⟩ := hexchange run
    exact exchange.answered_iff.mpr hfits

-- The echo of AB from the comment in protocol_handler.
theorem command_answered_iff_echo :
    (∀ run : Run (writePacket (Store.fresh 240 0x00#8)
        [0x02#8, 0x03#8, 0x00#8, 0xF0#8, 0xAB#8, 0x03#8, 0x6B#8, 0xED#8]), Answered run.trace) ↔
      ¬(OP_BLE_TEST_ECHO = OP_BLE_TEST_ECHO ∧ 233 < (1#16).toNat) :=
  command_answered_iff (Store.fresh 240 0x00#8) [0x02#8, 0x03#8, 0x00#8, 0xF0#8, 0xAB#8, 0x03#8, 0x6B#8, 0xED#8]
    ⟨OP_BLE_TEST_ECHO, ⟨[0x02#8, 0x03#8, 0x00#8, 0xF0#8, 0xAB#8, 0x03#8, 0x6B#8, 0xED#8], 4⟩, 1#16⟩
    (by decide +kernel) (by decide)

-- An echo of 234 zero bytes, in a frame of 241.
theorem echo_unanswered :
    ¬∀ (txBuf : TxBuf) (buf : List Byte) (packet : Packet), buf.length ≤ 512 →
      protocolParse buf = .ok (.ok packet) → packet.opCode ≠ 0x01#8 →
        ∀ run : Run (writePacket txBuf buf), Answered run.trace := by
  intro h
  have hlength : (List.replicate 234 0x00#8).length = 234 := List.length_replicate
  let request : Frame := ⟨OP_BLE_TEST_ECHO, List.replicate 234 0x00#8, by omega⟩
  have hsize : request.encode.length = 241 := request.length_encode.trans (congrArg (· + 7) hlength)
  have haccepts := request.accepts_encode_append []
  obtain ⟨hop, hlen, -⟩ := request.reports_encode_append []
  have hled : (packetOf (request.encode ++ [])).opCode ≠ 0x01#8 := by
    rw [hop]
    change OP_BLE_TEST_ECHO ≠ 0x01#8
    decide
  have hanswered := h (Store.fresh 240 0x00#8) (request.encode ++ []) _
    (by rw [List.append_nil]; omega) (protocolParse_of_accepts _ haccepts) hled
  obtain ⟨run⟩ := (writePacket (Store.fresh 240 0x00#8) (request.encode ++ [])).exists_run
  have hrun := runs_writePacket _ _ haccepts _ _ run.runs
  rw [if_neg hled] at hrun
  obtain ⟨exchange⟩ := hrun
  refine exchange.answered_iff.mp (hanswered run) ⟨hop, ?_⟩
  have hpayload : request.payload.length = 234 := hlength
  omega

end Answered

section WellFormed

variable {packet : Packet} {trace : List ZephyrEvent}

theorem Exchange.status (exchange : Exchange packet trace) (handler : Firmware Int)
    (hop : statusHandler packet.opCode = some handler) :
    ∃ rc, Runs handler exchange.before (.ok rc) ∧ exchange.frame.payload = [statusByte rc] := by
  generalize exchange.frame.payload = payload, exchange.before = before, exchange.answers = hanswers
  cases hanswers with
  | echo _ hecho => 
      rw [hecho] at hop
      cases hop
  | status handler' _ rc hop' hruns =>
      cases hop.symm.trans hop'
      exact ⟨rc, hruns, rfl⟩
  | mock hmock =>
      rcases hmock with hmock | hmock
      · rw [hmock] at hop
        cases hop
      · rw [hmock] at hop
        cases hop
  | unknown _ hnone => cases hop.symm.trans hnone

theorem Exchange.echo (exchange : Exchange packet trace) (hop : packet.opCode = OP_BLE_TEST_ECHO) :
    packet.payload.readRange packet.payloadLen.toNat = .ok exchange.frame.payload := by
  generalize exchange.frame.payload = payload, exchange.before = before, exchange.answers = hanswers
  cases hanswers with
  | echo _ _ hread => exact hread
  | status handler _ _ hstatus =>
      rw [hop] at hstatus
      cases hstatus
  | mock hmock =>
      rw [hop] at hmock
      exact absurd hmock (by decide)
  | unknown hecho => exact absurd hop hecho

-- The echo of an echo is the same frame.
theorem echo_again (frame : Frame) (hop : frame.opCode = OP_BLE_TEST_ECHO) (hfits : frame.payload.length ≤ 233)
    (txBuf : TxBuf) (run : Run (writePacket txBuf frame.encode)) : indications run.trace = [frame.encode] := by
  have haccepts := frame.accepts_encode_append []
  obtain ⟨hop', -, hread⟩ := frame.reports_encode_append []
  rw [List.append_nil] at haccepts hop' hread
  have hrun := runs_writePacket txBuf _ haccepts _ _ run.runs
  rw [if_neg (by rw [hop', hop]; decide)] at hrun
  obtain ⟨exchange⟩ := hrun
  have hpayload : exchange.frame.payload = frame.payload :=
    Except.ok.inj ((exchange.echo (hop'.trans hop)).symm.trans hread)
  have hsame : exchange.frame = frame := by
    have hopCode := exchange.opCode.trans hop'
    generalize exchange.frame = answer at hpayload hopCode
    cases answer
    cases hpayload
    cases hopCode
    rfl
  rw [exchange.indications_eq, hsame, if_pos hfits]

-- What a response is to its request.
structure Responds (txBuf : TxBuf) (buf data : List Byte) (run : Run (writePacket txBuf buf)) (packet response : Packet) :
    Prop where
  request : protocolParse buf = .ok (.ok packet)
  size : data.length ≤ 240
  parsed : protocolParse data = .ok (.ok response)
  opCode : response.opCode = packet.opCode
  status : ∀ handler, statusHandler packet.opCode = some handler → ∃ before rc, before <+: run.trace ∧
    Runs handler before (.ok rc) ∧ Reports response packet.opCode [if rc = 0 then 0x00#8 else 0xFF#8]
  echo : packet.opCode = OP_BLE_TEST_ECHO → (∃ payload, Reports packet OP_BLE_TEST_ECHO payload ∧
    Reports response OP_BLE_TEST_ECHO payload) ∧
      ∀ (txBuf' : TxBuf) (again : Run (writePacket txBuf' data)), indications again.trace = [data]

theorem Exchange.responds (txBuf : TxBuf) (buf : List Byte) (run : Run (writePacket txBuf buf))
    (haccepts : Accepts buf) (exchange : Exchange (packetOf buf) run.trace)
    (hfits : exchange.frame.payload.length ≤ 233) :
    Responds txBuf buf exchange.frame.encode run (packetOf buf) (packetOf exchange.frame.encode) := by
  have hresponse := exchange.frame.accepts_encode_append []
  have hreports := exchange.frame.reports_encode_append []
  rw [List.append_nil] at hresponse hreports
  rw [exchange.opCode] at hreports
  refine ⟨protocolParse_of_accepts _ haccepts, ?_, protocolParse_of_accepts _ hresponse, hreports.1, ?_, ?_⟩
  · rw [Frame.length_encode]
    omega
  · intro handler hhandler
    obtain ⟨rc, hruns, hpayload⟩ := exchange.status handler hhandler
    rw [hpayload] at hreports
    exact ⟨exchange.before, rc, ⟨exchange.after, exchange.split.symm⟩, hruns, hreports⟩
  · intro hecho
    have hread := exchange.echo hecho
    rw [hecho] at hreports
    have hlength := (packetOf buf).payload.readRange_length _ _ hread
    exact ⟨⟨_, ⟨hecho, hlength.symm, hread⟩, hreports⟩, echo_again _ (exchange.opCode.trans hecho) hfits⟩

theorem sent_responds (txBuf : TxBuf) (buf : List Byte) (run : Run (writePacket txBuf buf)) :
    (indications run.trace).length ≤ 1 ∧
    (∀ code, protocolParse buf = .ok (.error code) → indications run.trace = []) ∧
    ∀ data ∈ indications run.trace, ∃ packet response, Responds txBuf buf data run packet response := by
  by_cases haccepts : Accepts buf
  · have hrun := runs_writePacket txBuf buf haccepts _ _ run.runs
    have hparse := protocolParse_of_accepts buf haccepts
    split at hrun
    · rw [hrun]
      exact ⟨Nat.zero_le _, fun _ _ => rfl, fun _ h => absurd h List.not_mem_nil⟩
    · obtain ⟨exchange⟩ := hrun
      rw [exchange.indications_eq]
      split
      · rename_i hfits
        refine ⟨Nat.le_refl _, ?_, ?_⟩
        · intro code hcode
          rw [hparse] at hcode
          cases hcode
        · intro data hdata
          cases List.mem_singleton.mp hdata
          exact ⟨_, _, exchange.responds txBuf buf run haccepts hfits⟩
      · exact ⟨Nat.zero_le _, fun _ _ => rfl, fun _ h => absurd h List.not_mem_nil⟩
  · obtain ⟨code, hcode, -⟩ := protocolParse_error_of_not_accepts buf haccepts
    have htrace := runs_writePacket_rejected txBuf buf code hcode _ _ run.runs
    rw [htrace]
    exact ⟨Nat.zero_le _, fun _ _ => rfl, fun _ h => absurd h List.not_mem_nil⟩

-- The one indication carries the status that the handler has returned.
def StatusSent (packet : Packet) (handler : Firmware Int) (trace : List ZephyrEvent) : Prop :=
  ∃ before rc data response, before <+: trace ∧ Runs handler before (.ok rc) ∧ indications trace = [data] ∧
    protocolParse data = .ok (.ok response) ∧ Reports response packet.opCode [if rc = 0 then 0x00#8 else 0xFF#8]

-- The one indication is the frame of the request.
def EchoSent (packet : Packet) (trace : List ZephyrEvent) : Prop :=
  ∃ frame : Frame, frame.opCode = OP_BLE_TEST_ECHO ∧ Reports packet OP_BLE_TEST_ECHO frame.payload ∧
    indications trace = [frame.encode]

theorem Exchange.statusSent (exchange : Exchange packet trace) (handler : Firmware Int)
    (hop : statusHandler packet.opCode = some handler) : StatusSent packet handler trace := by
  obtain ⟨rc, hruns, hpayload⟩ := exchange.status handler hop
  have hparse := protocolParse_of_accepts _ (exchange.frame.accepts_encode_append [])
  have hreports := exchange.frame.reports_encode_append []
  rw [List.append_nil] at hparse hreports
  rw [exchange.opCode, hpayload] at hreports
  refine ⟨exchange.before, rc, _, _, ⟨exchange.after, exchange.split.symm⟩, hruns, ?_, hparse, hreports⟩
  rw [exchange.indications_eq, hpayload, if_pos (by simp)]

theorem Exchange.echoSent (exchange : Exchange packet trace) (hop : packet.opCode = OP_BLE_TEST_ECHO)
    (hfits : packet.payloadLen.toNat ≤ 233) : EchoSent packet trace := by
  have hread := exchange.echo hop
  have hlength := packet.payload.readRange_length _ _ hread
  refine ⟨exchange.frame, exchange.opCode.trans hop, ⟨hop, hlength.symm, hread⟩, ?_⟩
  rw [exchange.indications_eq, if_pos (by omega)]

theorem exists_exchange_of_parsed (txBuf : TxBuf) (buf : List Byte) (run : Run (writePacket txBuf buf)) (packet : Packet)
    (hparse : protocolParse buf = .ok (.ok packet)) (hled : packet.opCode ≠ 0x01#8) :
    Nonempty (Exchange packet run.trace) := by
  obtain ⟨haccepts, rfl⟩ := (protocolParse_ok_iff buf packet).mp hparse
  have hrun := runs_writePacket txBuf buf haccepts _ _ run.runs
  rwa [if_neg hled] at hrun

end WellFormed

-- At most one indication, none for a rejected request, and what is sent is a
-- response to the request. A file system command is always answered with its
-- status, and an echo that fits with its own frame.
theorem responses_well_formed (txBuf : TxBuf) (buf : List Byte) (run : Run (writePacket txBuf buf)) :
    (indications run.trace).length ≤ 1 ∧
    (∀ code, protocolParse buf = .ok (.error code) → indications run.trace = []) ∧
    (∀ data ∈ indications run.trace, ∃ packet response, Responds txBuf buf data run packet response) ∧
    (∀ packet handler, protocolParse buf = .ok (.ok packet) → statusHandler packet.opCode = some handler →
      StatusSent packet handler run.trace) ∧
    ∀ packet, protocolParse buf = .ok (.ok packet) → packet.opCode = OP_BLE_TEST_ECHO →
      packet.payloadLen.toNat ≤ 233 → EchoSent packet run.trace := by
  obtain ⟨hsingle, hrejected, hresponds⟩ := sent_responds txBuf buf run
  refine ⟨hsingle, hrejected, hresponds, ?_, ?_⟩
  · intro packet handler hparse hhandler
    have hled : packet.opCode ≠ 0x01#8 := by
      intro hled
      rw [hled] at hhandler
      cases hhandler
    obtain ⟨exchange⟩ := exists_exchange_of_parsed txBuf buf run packet hparse hled
    exact exchange.statusSent handler hhandler
  · intro packet hparse hecho hfits
    have hled : packet.opCode ≠ 0x01#8 := by
      rw [hecho]
      decide
    obtain ⟨exchange⟩ := exists_exchange_of_parsed txBuf buf run packet hparse hled
    exact exchange.echoSent hecho hfits

section Example

-- Every call that can fail does.
def failingReplies : (call : ZephyrCall) → ZephyrReply call
  | .fsRead _ => (- EIO, [])
  | .flashAreaOpen _ => (- EIO, ⟨0, 0⟩)
  | .flashAreaClose _ => ()
  | .ledOn => ()
  | .ledOff => ()
  | .fsMount _ => - EIO
  | .fsUnmount _ => - EIO
  | .fsMkfs _ => - EIO
  | .fsStatvfs _ => - EIO
  | .fsOpen _ _ => - EIO
  | .fsWrite _ => - EIO
  | .fsSeek _ => - EIO
  | .fsClose => - EIO
  | .flashAreaErase _ _ _ => - EIO
  | .flashGetPageInfoByOffs _ => - EIO
  | .btGattIndicate _ _ => - EIO

def failedTest : Run (writePacket (Store.fresh 240 0x00#8) [0x02#8, 0x02#8, 0x00#8, 0xF1#8, 0x03#8, 0x3B#8, 0x79#8]) :=
  Prog.runWith failingReplies _

def echoed : Run (writePacket (Store.fresh 240 0x00#8)
    [0x02#8, 0x03#8, 0x00#8, 0xF0#8, 0xAB#8, 0x03#8, 0x6B#8, 0xED#8]) :=
  Prog.runWith failingReplies _

-- The two requests of the comments in protocol_handler.
theorem responses_well_formed_failed :
    indications failedTest.trace = [[0x02#8, 0x03#8, 0x00#8, 0xF1#8, 0xFF#8, 0x03#8, 0x20#8, 0x18#8]] ∧
    StatusSent ⟨OP_BLE_TEST_FLASH, ⟨[0x02#8, 0x02#8, 0x00#8, 0xF1#8, 0x03#8, 0x3B#8, 0x79#8], 4⟩, 0#16⟩ fsHandlerTest
      failedTest.trace ∧
    EchoSent ⟨OP_BLE_TEST_ECHO, ⟨[0x02#8, 0x03#8, 0x00#8, 0xF0#8, 0xAB#8, 0x03#8, 0x6B#8, 0xED#8], 4⟩, 1#16⟩
      echoed.trace :=
  ⟨by decide +kernel, (responses_well_formed _ _ failedTest).2.2.2.1 _ _ (by decide +kernel) rfl,
    (responses_well_formed _ _ echoed).2.2.2.2 _ (by decide +kernel) rfl (by decide)⟩

end Example

end TJ3Firmware
