import TJ3Firmware.ExtComm
import TJ3Firmware.Library.Stream
import TJ3Firmware.Protocol.RoundTrip

namespace TJ3Firmware

open Library.Memory Library.Stream

section Receiver

-- One step of a receiver: protocol_parse at the current position, then an
-- advance by payload_len + 7.
def receivePacket (stream : List Byte) : Option ((Byte × List Byte) × Nat) :=
  match protocolParse stream with
  | .ok (.ok packet) =>
      match packet.payload.readRange packet.payloadLen.toNat with
      | .ok payload => some ((packet.opCode, payload), packet.payloadLen.toNat + PROTOCOL_OVERHEAD)
      | .error _ => none
  | _ => none

theorem receivePacket_encode_append (frame : Frame) (rest : List Byte) :
    receivePacket (frame.encode ++ rest) = some ((frame.opCode, frame.payload), frame.encode.length) := by
  obtain ⟨hop, hlength, hread⟩ := frame.reports_encode_append rest
  have hparse := protocolParse_of_accepts _ (frame.accepts_encode_append rest)
  unfold receivePacket
  simp only [hparse, hread, hop]
  rw [hlength, frame.length_encode, PROTOCOL_OVERHEAD]

def packetFraming : Framing Byte Frame (Byte × List Byte) where
  encode := Frame.encode
  view frame := (frame.opCode, frame.payload)
  decode := receivePacket
  encode_ne_nil frame := List.ne_nil_of_length_pos (by rw [frame.length_encode]; omega)
  decode_encode := receivePacket_encode_append

end Receiver

section Callback

variable (logBuf : LogBuf)

-- The callback appends to what is there and stops at 255 bytes.
theorem storeChars_filled (data values : List Byte) (h : values.length ≤ 255) :
    storeChars data values.length (logBuf.filled values (by omega)) =
      .ok (((values ++ data).take 255).length,
        logBuf.filled ((values ++ data).take 255) (by rw [List.length_take]; omega)) := by
  induction data generalizing values with
  | nil => simp only [storeChars, List.append_nil, List.take_of_length_le h]
  | cons char rest ih =>
      rw [storeChars]
      by_cases hroom : values.length < 255
      · have hnext := ih (values ++ [char]) (by rw [List.length_append, List.length_singleton]; omega)
        simp only [List.length_append, List.length_singleton, List.append_assoc, List.singleton_append] at hnext
        rw [if_pos hroom, Store.write_filled logBuf values _ values.length rfl (by omega), ok_bind, hnext]
      · have hfull : ∀ more, (values ++ more).take 255 = values := by
          intro more
          rw [List.take_append_of_le_length (by omega), List.take_of_length_le h]
        have hnext := ih values h
        simp only [hfull] at hnext ⊢
        rw [if_neg hroom, hnext]

theorem bufCharOut_filled (data values : List Byte) (h : values.length ≤ 255) :
    bufCharOut data values.length (logBuf.filled values (by omega)) =
      .ok (data.length, ((values ++ data).take 255).length,
        logBuf.filled ((values ++ data).take 255) (by rw [List.length_take]; omega)) := by
  rw [bufCharOut, storeChars_filled logBuf data values h, ok_bind]

theorem take_take_append (values first second : List Byte) :
    ((values ++ first).take 255 ++ second).take 255 = (values ++ (first ++ second)).take 255 := by
  rw [← List.append_assoc]
  by_cases hfit : (values ++ first).length ≤ 255
  · rw [List.take_of_length_le hfit]
  · have hlong : 255 ≤ (values ++ first).length := by omega
    have htake : 255 ≤ ((values ++ first).take 255).length := by
      rw [List.length_take, Nat.min_eq_left hlong]
    rw [List.take_append_of_le_length htake, List.take_take, Nat.min_self, List.take_append_of_le_length hlong]

-- However the text is cut, the buffer ends up with its first 255 bytes.
theorem logOutputMsgProcess_filled (chunks : List Nat) (text values : List Byte) (h : values.length ≤ 255)
    (hcovers : text.length ≤ chunks.sum) :
    logOutputMsgProcess text chunks values.length (logBuf.filled values (by omega)) =
      .ok (((values ++ text).take 255).length,
        logBuf.filled ((values ++ text).take 255) (by rw [List.length_take]; omega)) := by
  induction chunks generalizing text values with
  | nil =>
      have htext : text = [] := List.length_eq_zero_iff.mp (Nat.le_zero.mp hcovers)
      subst htext
      simp only [logOutputMsgProcess, List.append_nil, List.take_of_length_le h]
  | cons size sizes ih =>
      have hrest : (text.drop (text.take size).length).length ≤ sizes.sum := by
        rw [List.sum_cons] at hcovers
        rw [List.length_drop, List.length_take]
        omega
      have hdrop : text.take size ++ text.drop (text.take size).length = text := by
        rw [List.length_take]
        rcases Nat.le_total size text.length with hle | hle
        · rw [Nat.min_eq_left hle, List.take_append_drop]
        · rw [Nat.min_eq_right hle, List.take_of_length_le hle, List.drop_length, List.append_nil]
      have hnext := ih (text.drop (text.take size).length) ((values ++ text.take size).take 255)
        (by rw [List.length_take]; omega) hrest
      simp only [take_take_append, hdrop] at hnext
      rw [logOutputMsgProcess, bufCharOut_filled logBuf _ values h, ok_bind]
      exact hnext

end Callback

section Process

-- The payload handed to protocol_compose: the text in front of its terminator.
def logArg (logBuf : LogBuf) (text : List Byte) (h : text.length ≤ 255) : PayloadArg where
  pointer := some ⟨(logBuf.filled (text ++ [0x00#8])
    (by rw [List.length_append, List.length_singleton]; omega)).cells, 0⟩
  len := BitVec.ofNat 16 text.length
  bytes := text
  readable := by
    have hlen : (BitVec.ofNat 16 text.length).toNat = text.length := by
      rw [BitVec.toNat_ofNat]
      omega
    refine Or.inr ⟨_, rfl, ?_⟩
    rw [hlen, Store.readRange_filled _ _ _ _ _ (by rw [List.length_append]; omega), List.drop_zero, List.take_left]

theorem toNat_logArg_len (logBuf : LogBuf) (text : List Byte) (h : text.length ≤ 255) :
    (logArg logBuf text h).len.toNat = text.length := (logArg logBuf text h).length_bytes.symm

def logFrame (msg : LogMessage) : Frame where
  opCode := OP_EXT_LOG_OUTPUT
  payload := msg.text.take 255
  fits := by
    rw [List.length_take]
    omega

def framesOf (messages : List LogMessage) : List Frame :=
  (messages.filter fun msg => !msg.text.isEmpty).map logFrame

theorem framesOf_cons (msg : LogMessage) (rest : List LogMessage) :
    framesOf (msg :: rest) = framesOf [msg] ++ framesOf rest := by
  rw [framesOf, framesOf, framesOf, ← List.map_append, ← List.filter_append, List.singleton_append]

variable (backend : LogBackend)

-- At most 255 bytes of text make a frame of at most 262, which fits.
theorem compose_log (msg : LogMessage) (h : (msg.text.take 255).length ≤ 255) :
    protocolCompose OP_EXT_LOG_OUTPUT (logArg backend.logBuf (msg.text.take 255) h).pointer
        (BitVec.ofNat 16 (msg.text.take 255).length) backend.protocolBuf 300 =
      .ok (((msg.text.take 255).length + 7 : Nat), backend.protocolBuf.filled (logFrame msg).encode
        (by rw [Frame.length_encode]; exact Nat.le_trans (Nat.add_le_add_right h 7) (by omega))) := by
  have hlen := toNat_logArg_len backend.logBuf (msg.text.take 255) h
  have hcompose := compose_eq OP_EXT_LOG_OUTPUT (logArg backend.logBuf (msg.text.take 255) h) backend.protocolBuf 300
    (by omega) (by omega) (Nat.le_refl _)
  simp only [hlen] at hcompose
  exact hcompose

-- One message sends one frame, or nothing when its text is empty.
theorem process_sends (msg : LogMessage) :
    ∃ backend', process true backend msg = .ok backend' ∧
      backend'.uart = backend.uart ++ (framesOf [msg]).flatMap Frame.encode := by
  have hfilled := logOutputMsgProcess_filled backend.logBuf msg.chunks msg.text [] (Nat.zero_le _) msg.covers
  simp only [List.nil_append, List.length_nil, Store.filled_nil] at hfilled
  unfold process
  rw [if_neg (by decide), hfilled, ok_bind]
  by_cases hempty : msg.text = []
  · refine ⟨_, if_neg (by simp [hempty]), ?_⟩
    simp [framesOf, hempty]
  have htext := List.length_pos_of_ne_nil hempty
  have hle : (msg.text.take 255).length ≤ 255 := by
    rw [List.length_take]
    omega
  have hpos : 0 < (msg.text.take 255).length := by
    rw [List.length_take]
    omega
  have hcompose := compose_log backend msg hle
  have hsize : (logFrame msg).encode.length = (msg.text.take 255).length + 7 := Frame.length_encode _
  have hframes : framesOf [msg] = [logFrame msg] := by
    simp [framesOf, hempty]
  simp only [logArg] at hcompose
  simp only
  rw [if_pos hpos, Store.write_filled backend.logBuf _ _ _ rfl (by omega), ok_bind, hcompose, ok_bind]
  simp only
  rw [if_pos (by omega), Int.toNat_natCast, Store.readRange_filled _ _ _ _ _ (by omega), ok_bind]
  refine ⟨_, rfl, ?_⟩
  have hsent : ((logFrame msg).encode.drop 0).take ((msg.text.take 255).length + 7) = (logFrame msg).encode := by
    rw [List.drop_zero, List.take_of_length_le (Nat.le_of_eq hsize)]
  rw [hframes, List.flatMap_singleton, hsent]

theorem process_run (messages : List LogMessage) :
    ∃ backend', messages.foldlM (process true) backend = .ok backend' ∧
      backend'.uart = backend.uart ++ (framesOf messages).flatMap Frame.encode := by
  induction messages generalizing backend with
  | nil => exact ⟨backend, rfl, by simp [framesOf]⟩
  | cons msg rest ih =>
      obtain ⟨next, hstep, hsent⟩ := process_sends backend msg
      obtain ⟨last, hrun, hstream⟩ := ih next
      refine ⟨last, ?_, ?_⟩
      · rw [List.foldlM_cons, hstep, ok_bind, hrun]
      · rw [hstream, hsent, framesOf_cons msg rest, List.flatMap_append, List.append_assoc]

end Process

-- Whatever was logged, and whatever the buffers held before, the bytes sent
-- split into one packet for each message with a text, cut at 255 bytes.
theorem log_stream_decodable (backend : LogBackend) (messages : List LogMessage) :
    ∃ (backend' : LogBackend) (stream : List Byte), messages.foldlM (process true) backend = .ok backend' ∧
      backend'.uart = backend.uart ++ stream ∧
      receiveAll receivePacket stream =
        some ((messages.filter fun msg => !msg.text.isEmpty).map fun msg =>
          (OP_EXT_LOG_OUTPUT, msg.text.take 255)) := by
  obtain ⟨backend', hrun, huart⟩ := process_run backend messages
  refine ⟨backend', _, hrun, huart, ?_⟩
  have hreceive := packetFraming.receiveAll_flatMap (framesOf messages)
  rw [framesOf, List.map_map] at hreceive
  exact hreceive

end TJ3Firmware
