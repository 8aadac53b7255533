import TJ3Firmware.BleGatt.Status
import TJ3Firmware.FsHandler.LogRecords

namespace TJ3Firmware

open Library.Memory Library.Interaction

section Results

-- What the storage stack makes of the four calls.
structure TestResults where
  opening : Int
  writing : Int
  seeking : Int
  reading : Int
  delivered : List Byte

namespace TestResults

variable (results : TestResults)

def Gives (trace : List ZephyrEvent) : Prop :=
  ∀ event ∈ trace, match event with
    | ⟨.fsOpen _ _, rc⟩ => rc = results.opening
    | ⟨.fsWrite _, rc⟩ => rc = results.writing
    | ⟨.fsSeek _, rc⟩ => rc = results.seeking
    | ⟨.fsRead _, reply⟩ => reply = (results.reading, results.delivered)
    | _ => True

-- A call reports an error.
def Fails : Prop := results.opening < 0 ∨ results.writing < 0 ∨ results.seeking < 0 ∨ results.reading < 0

-- The text is written in full and comes back.
def ReadsBack : Prop :=
  results.writing = writeData.length ∧ writeData <+: results.delivered.take results.reading.toNat

end TestResults

-- All of the text was written, and the bytes read back begin with it.
def Verified (trace : List ZephyrEvent) : Prop :=
  wroteTest writeData.length ∈ trace ∧ ∃ rc delivered, readTest rc delivered ∈ trace ∧
    writeData <+: delivered.take rc.toNat

variable {results : TestResults} {trace : List ZephyrEvent} {outcome : Except Fault Int}

-- A call that failed is reported.
theorem sound_iff_of_failed (rc : Int) (hrc : rc < 0) (hfails : results.Fails) :
    ((.ok rc : Except Fault Int) = .ok 0 → Verified trace) ↔ results.Fails ∨ results.ReadsBack := by
  refine iff_of_true ?_ (Or.inl hfails)
  intro hzero
  have hsame : rc = 0 := Except.ok.inj hzero
  omega

theorem verified_iff (opening writing seeking reading closing : Int) (delivered : List Byte) :
    Verified [openedTest opening, wroteTest writing, soughtStart seeking, readTest reading delivered,
      ⟨.fsClose, closing⟩] ↔ writing = writeData.length ∧ writeData <+: delivered.take reading.toNat := by
  constructor
  · intro ⟨hwrote, rc, bytes, hread, hfront⟩
    have hwriting : writeData.length = writing := by
      simpa [openedTest, wroteTest, soughtStart, readTest] using hwrote
    obtain ⟨rfl, rfl⟩ : rc = reading ∧ bytes = delivered := by
      simpa [openedTest, wroteTest, soughtStart, readTest] using hread
    exact ⟨hwriting.symm, hfront⟩
  · rintro ⟨rfl, hfront⟩
    exact ⟨by simp, reading, delivered, by simp, hfront⟩

theorem testRun_sound_iff (h : TestRun trace outcome) (hgives : results.Gives trace) :
    (outcome = .ok 0 → Verified trace) ↔ results.Fails ∨ results.ReadsBack := by
  cases h with
  | unopened opening hopening =>
      have hsame : opening = results.opening := hgives (openedTest opening) (by simp)
      exact sound_iff_of_failed opening hopening (Or.inl (by omega))
  | unwritten opening writing closing hopening hwriting =>
      have hsame : writing = results.writing := hgives (wroteTest writing) (by simp)
      exact sound_iff_of_failed writing hwriting (Or.inr (Or.inl (by omega)))
  | unsought opening writing seeking closing hopening hwriting hseeking =>
      have hsame : seeking = results.seeking := hgives (soughtStart seeking) (by simp)
      exact sound_iff_of_failed seeking hseeking (Or.inr (Or.inr (Or.inl (by omega))))
  | unread opening writing seeking reading closing delivered hopening hwriting hseeking hreading =>
      have hsame : (reading, delivered) = (results.reading, results.delivered) :=
        hgives (readTest reading delivered) (by simp)
      obtain ⟨rfl, -⟩ := Prod.mk.inj hsame
      exact sound_iff_of_failed _ hreading (Or.inr (Or.inr (Or.inr hreading)))
  | passed opening writing seeking reading closing delivered hopening hwriting hseeking hreading =>
      have hopened : opening = results.opening := hgives (openedTest opening) (by simp)
      have hwrote : writing = results.writing := hgives (wroteTest writing) (by simp)
      have hsought : seeking = results.seeking := hgives (soughtStart seeking) (by simp)
      have hread : (reading, delivered) = (results.reading, results.delivered) :=
        hgives (readTest reading delivered) (by simp)
      obtain ⟨rfl, rfl⟩ := Prod.mk.inj hread
      have hclean : ¬results.Fails := by
        unfold TestResults.Fails
        omega
      rw [verified_iff, hwrote, or_iff_right hclean, TestResults.ReadsBack]
      exact ⟨fun h => h rfl, fun h _ => h⟩

-- Nothing of it is in the answer.
theorem verified_append_iff (frame : Frame) (before after : List ZephyrEvent) (hsends : Sends frame after) :
    Verified (before ++ after) ↔ Verified before := by
  have hafter (event : ZephyrEvent) (hevent : event ∈ after) : IsIndication event.op := by
    rcases hsends with ⟨-, rc, rfl⟩ | ⟨-, rfl⟩
    · rw [List.mem_singleton.mp hevent]
      trivial
    · cases hevent
  constructor
  · intro ⟨hwrote, rc, delivered, hread, hfront⟩
    refine ⟨(List.mem_append.mp hwrote).resolve_right fun h => hafter _ h, rc, delivered, ?_, hfront⟩
    exact (List.mem_append.mp hread).resolve_right fun h => hafter _ h
  · intro ⟨hwrote, rc, delivered, hread, hfront⟩
    exact ⟨List.mem_append_left _ hwrote, rc, delivered, List.mem_append_left _ hread, hfront⟩

end Results

-- The self test passes wrongly exactly when no call fails and yet the text was
-- not written in full or does not come back. The answer to the test command
-- says the same.
theorem self_test_sound_iff (results : TestResults) :
    (∀ run : Run fsHandlerTest, results.Gives run.trace →
      ((run.outcome = .ok 0 → Verified run.trace) ↔ results.Fails ∨ results.ReadsBack)) ∧
    ∀ command : Command, acceptedOpCode command.buf = some OP_BLE_TEST_FLASH → results.Gives command.run.trace →
      ((StatusOk command.run.trace → Verified command.run.trace) ↔ results.Fails ∨ results.ReadsBack) := by
  constructor
  · intro run hgives
    exact testRun_sound_iff (fsHandlerTest_runs _ _ run.runs) hgives
  · intro command hop hgives
    obtain ⟨packet, hopCode, ⟨exchange⟩⟩ := exists_exchange command _ hop (by decide)
    obtain ⟨rc, hruns, hstatus⟩ := statusOk_iff exchange fsHandlerTest (by rw [hopCode]; rfl)
    have hbefore : results.Gives exchange.before := by
      intro event hevent
      apply hgives event
      rw [exchange.split]
      exact List.mem_append_left _ hevent
    rw [hstatus, exchange.split, verified_append_iff _ _ _ exchange.sends,
      ← testRun_sound_iff (fsHandlerTest_runs _ _ hruns) hbefore, Except.ok.injEq]

section Example

-- No call fails, but the read delivers nothing.
def emptyRead : TestResults := ⟨0, 27, 0, 0, []⟩

theorem emptyRead_gives (trace : List ZephyrEvent)
    (hreplies : ∀ event ∈ trace, event = ⟨event.op, fullReplies event.op⟩)
    (hwrites : ∀ data, .fsWrite data ∈ trace.map Event.op → data = writeData) : emptyRead.Gives trace := by
  intro event hevent
  have hop := List.mem_map_of_mem (f := Event.op) hevent
  rw [hreplies event hevent]
  obtain ⟨op, reply⟩ := event
  cases op with
  | fsWrite data =>
      cases hwrites data hop
      rfl
  | fsOpen | fsSeek | fsRead => rfl
  | _ => trivial

def testCommand : Command where
  txBuf := Store.fresh MAX_PAYLOAD_SIZE 0x00#8
  buf := [0x02#8, 0x02#8, 0x00#8, 0xF1#8, 0x03#8, 0x3B#8, 0x79#8]
  run := (writePacket _ _).runWith fullReplies

theorem testCommand_calls : testCommand.run.trace.map Event.op = [.fsOpen (MOUNT_POINT ++ textBytes "/test.txt") [.create, .rdwr],
    .fsWrite writeData, .fsSeek 0, .fsRead (READ_DATA_SIZE - 1), .fsClose, .btGattIndicate energyCmdUuid
      [0x02#8, 0x03#8, 0x00#8, 0xF1#8, 0x00#8, 0x03#8, 0xDF#8, 0x1B#8]] := by decide +kernel

theorem emptyRead_gives_test : emptyRead.Gives (fsHandlerTest.runWith fullReplies).trace := by
  apply emptyRead_gives _ (event_runWith fullReplies _)
  have hcalls : (fsHandlerTest.runWith fullReplies).trace.map Event.op =
      [.fsOpen (MOUNT_POINT ++ textBytes "/test.txt") [.create, .rdwr], .fsWrite writeData, .fsSeek 0,
        .fsRead (READ_DATA_SIZE - 1), .fsClose] := rfl
  simp [hcalls]

theorem self_test_sound_iff_empty :
    (((fsHandlerTest.runWith fullReplies).outcome = .ok 0 → Verified (fsHandlerTest.runWith fullReplies).trace) ↔
      emptyRead.Fails ∨ emptyRead.ReadsBack) ∧
    ((StatusOk testCommand.run.trace → Verified testCommand.run.trace) ↔ emptyRead.Fails ∨ emptyRead.ReadsBack) := by
  have hgives : emptyRead.Gives testCommand.run.trace := by
    refine emptyRead_gives _ ?_ (by simp [testCommand_calls])
    dsimp only [testCommand]
    exact event_runWith fullReplies _
  exact ⟨(self_test_sound_iff emptyRead).1 _ emptyRead_gives_test,
    (self_test_sound_iff emptyRead).2 testCommand (by decide +kernel) hgives⟩

-- The test passes although not one byte comes back.
theorem self_test_passes_unread :
    ¬∀ run : Run fsHandlerTest, run.outcome = .ok 0 → Verified run.trace := by
  intro h
  have hverified := h (fsHandlerTest.runWith fullReplies) rfl
  rw [show (fsHandlerTest.runWith fullReplies).trace =
    [openedTest 0, wroteTest 27, soughtStart 0, readTest 0 [], ⟨.fsClose, (0 : Int)⟩] from rfl, verified_iff] at hverified
  exact absurd hverified.2 (by decide)

end Example

end TJ3Firmware
