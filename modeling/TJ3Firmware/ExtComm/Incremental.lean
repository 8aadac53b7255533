import TJ3Firmware.ExtComm.LogStream
import TJ3Firmware.Protocol.Prefix

namespace TJ3Firmware

open Library.Memory Library.Stream

section Sender

-- The messages, each with what device_is_ready says when it is processed.
def sendLog (messages : List (Bool × LogMessage)) (backend : LogBackend) : Except Fault LogBackend :=
  messages.foldlM (fun backend message => process message.1 backend message.2) backend

-- The frames of those that found the UART ready.
def sentFrames (messages : List (Bool × LogMessage)) : List Frame :=
  framesOf ((messages.filter Prod.fst).map Prod.snd)

-- What a receiver is to see of them.
def sentTexts (messages : List (Bool × LogMessage)) : List (Byte × List Byte) :=
  (messages.filter fun message => message.1 && !message.2.text.isEmpty).map fun message =>
    (OP_EXT_LOG_OUTPUT, message.2.text.take 255)

theorem map_sentFrames (messages : List (Bool × LogMessage)) :
    (sentFrames messages).map packetFraming.view = sentTexts messages := by
  rw [sentFrames, framesOf, sentTexts, List.map_map, List.filter_map, List.map_map, List.filter_filter]
  simp only [Bool.and_comm]
  rfl

theorem sentFrames_cons_ready (msg : LogMessage) (rest : List (Bool × LogMessage)) :
    sentFrames ((true, msg) :: rest) = framesOf [msg] ++ sentFrames rest := by
  rw [sentFrames, List.filter_cons_of_pos rfl, List.map_cons, framesOf_cons, sentFrames]

theorem sentFrames_cons_waiting (msg : LogMessage) (rest : List (Bool × LogMessage)) :
    sentFrames ((false, msg) :: rest) = sentFrames rest := by
  rw [sentFrames, List.filter_cons_of_neg (by simp), sentFrames]

theorem sendLog_sends (messages : List (Bool × LogMessage)) (backend : LogBackend) :
    ∃ backend', sendLog messages backend = .ok backend' ∧
      backend'.uart = backend.uart ++ (sentFrames messages).flatMap Frame.encode := by
  induction messages generalizing backend with
  | nil => exact ⟨backend, rfl, by simp [sentFrames, framesOf]⟩
  | cons message rest ih =>
      obtain ⟨ready, msg⟩ := message
      cases ready with
      | true =>
          obtain ⟨next, hstep, hsent⟩ := process_sends backend msg
          obtain ⟨last, hrun, hstream⟩ := ih next
          refine ⟨last, ?_, ?_⟩
          · rw [sendLog, List.foldlM_cons, hstep, ok_bind]
            exact hrun
          · rw [hstream, hsent, sentFrames_cons_ready, List.flatMap_append, List.append_assoc]
      | false =>
          obtain ⟨last, hrun, hstream⟩ := ih backend
          refine ⟨last, ?_, ?_⟩
          · rw [sendLog, List.foldlM_cons]
            exact hrun
          · rw [hstream, sentFrames_cons_waiting]

end Sender

section Receiver

-- A part of a frame is rejected as too short or incomplete, so that a receiver
-- knows to wait.
theorem protocolParse_encode_part (frame : Frame) (count : Nat) (h : count < frame.encode.length) :
    protocolParse (frame.encode.take count) = .ok (.error (-1)) ∨
      protocolParse (frame.encode.take count) = .ok (.error (-3)) := by
  have haccepts := frame.accepts_encode_append []
  have hlen := frame.lenField_encode_append []
  rw [List.append_nil] at haccepts hlen
  rw [frame.length_encode] at h
  exact protocolParse_part frame.encode haccepts count (by omega)

theorem receivePacket_part (frame : Frame) (count : Nat) (h : count < frame.encode.length) :
    receivePacket (frame.encode.take count) = none := by
  unfold receivePacket
  rcases protocolParse_encode_part frame count h with hparse | hparse <;> rw [hparse]

theorem arrived_waits {frames : List Frame} {stream : List Byte} {received : List (Byte × List Byte) × List Byte}
    {whole rest : List Frame} (h : Arrived packetFraming frames stream received whole rest) :
    protocolParse received.2 = .ok (.error (-1)) ∨ protocolParse received.2 = .ok (.error (-3)) := by
  have hbegun := h.begun
  cases rest with
  | nil =>
      rw [List.prefix_nil.mp hbegun]
      exact Or.inl rfl
  | cons next more =>
      have hless := h.part next more rfl
      have hnext := List.prefix_of_prefix_length_le hbegun (List.prefix_append _ _) (le_of_lt hless)
      rw [List.prefix_iff_eq_take.mp hnext]
      exact protocolParse_encode_part next _ hless

end Receiver

-- However the bytes on uart30 are cut into chunks on their way, and wherever
-- they end, a receiver has at every moment the messages whose frames have come in
-- whole, in order, and no others. What it holds of the next frame is rejected as
-- too short or incomplete, and with all the bytes in it has every message.
theorem log_stream_incremental (backend : LogBackend) (messages : List (Bool × LogMessage)) :
    ∃ (backend' : LogBackend) (stream : List Byte), sendLog messages backend = .ok backend' ∧
      backend'.uart = backend.uart ++ stream ∧
      ∀ (chunks : List (List Byte)) (shown : List (Byte × List Byte)) (pending : List Byte),
        chunks.flatten <+: stream → chunks.foldl (feed receivePacket) ([], []) = (shown, pending) →
          shown <+: sentTexts messages ∧
          (∃ whole rest, Arrived packetFraming (sentFrames messages) chunks.flatten (shown, pending) whole rest) ∧
          (protocolParse pending = .ok (.error (-1)) ∨ protocolParse pending = .ok (.error (-3))) ∧
          (chunks.flatten = stream → pending = [] ∧ shown = sentTexts messages) := by
  obtain ⟨backend', hrun, huart⟩ := sendLog_sends messages backend
  refine ⟨backend', _, hrun, huart, ?_⟩
  intro chunks shown pending hfront hfeed
  obtain ⟨whole, rest, harrived⟩ := feed_chunks packetFraming receivePacket_part (sentFrames messages) chunks hfront
  have hreceived : chunks.foldl (feed packetFraming.decode) ([], []) = (shown, pending) := hfeed
  rw [hreceived] at harrived
  refine ⟨?_, ⟨whole, rest, harrived⟩, arrived_waits harrived, fun hall => ?_⟩
  · have hviews : shown = whole.map packetFraming.view := harrived.views
    rw [← map_sentFrames, harrived.items, hviews, List.map_append]
    exact List.prefix_append _ _
  · have hcomplete := harrived.complete hall
    rw [map_sentFrames] at hcomplete
    cases hcomplete
    exact ⟨rfl, rfl⟩

end TJ3Firmware
