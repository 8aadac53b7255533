import TJ3Firmware.Atm90e26
import TJ3Firmware.FsHandler
import TJ3Firmware.Library.NorFlash

namespace TJ3Firmware

open Library.Memory Library.Interaction Library.NorFlash

-- The calls on flash_dev.
inductive FlashCall
  | deviceIsReady
  | flashRead (offset : Int) (length : Nat)
  | flashWrite (offset : Int) (data : List Byte)
  | flashErase (offset : Int) (size : Nat)
  deriving Repr, DecidableEq

-- flash_read stores bytes into the buffer, from its beginning.
abbrev FlashReply : FlashCall → Type
  | .deviceIsReady => Bool
  | .flashRead _ _ => Int × List Byte
  | .flashWrite _ _ => Int
  | .flashErase _ _ => Int

abbrev FlashEvent := Event FlashCall FlashReply

-- There are no errors to stop at.
abbrev FlashDriver (α : Type) := Prog FlashCall FlashReply Empty α

def spiFlashInit : FlashDriver Int := do
  let ready ← Prog.perform FlashCall.deviceIsReady
  if !ready then pure (-ENODEV)
  else pure 0

-- What a buffer holds once these bytes were stored from its beginning.
def overwrite (data stored : List Byte) : List Byte := stored.take data.length ++ data.drop stored.length

-- Returns the return value and what the buffer holds afterwards. Errors are
-- logged, here and below.
def spiFlashRead (offset : Int) (data : List Byte) : FlashDriver (Int × List Byte) := do
  let (ret, stored) ← Prog.perform (FlashCall.flashRead offset data.length)
  pure (ret, overwrite data stored)

def spiFlashWrite (offset : Int) (data : List Byte) : FlashDriver Int := Prog.perform (FlashCall.flashWrite offset data)

def spiFlashErase (offset : Int) (size : Nat) : FlashDriver Int := Prog.perform (FlashCall.flashErase offset size)

-- A char array holds the terminator of its literal as well.
def helloBuf : List Byte := textBytes "Hello SPI Flash!" ++ [0x00#8]

def testAddr : Int := 0x0000

-- After the memset.
def clearedBuf : List Byte := List.replicate helloBuf.length 0x00#8

def spiFlashTest : FlashDriver Int := do
  let ret ← spiFlashErase testAddr 4096
  if ret ≠ 0 then pure (-1)
  else do
    let ret ← spiFlashWrite testAddr helloBuf
    if ret ≠ 0 then pure (-2)
    else do
      let (ret, readBuf) ← spiFlashRead testAddr clearedBuf
      if ret ≠ 0 then pure (-3)
      else if helloBuf = readBuf then pure 0
      else pure (-4)

section TestRun

def erasedSector (rc : Int) : FlashEvent := ⟨.flashErase testAddr 4096, rc⟩

def wroteHello (rc : Int) : FlashEvent := ⟨.flashWrite testAddr helloBuf, rc⟩

def readHello (rc : Int) (stored : List Byte) : FlashEvent := ⟨.flashRead testAddr clearedBuf.length, (rc, stored)⟩

-- The ways spi_flash_test can go, by its results.
inductive FlashTestRun : List FlashEvent → Int → Prop
  | unerased (erasing : Int) (h : erasing ≠ 0) : FlashTestRun [erasedSector erasing] (-1)
  | unwritten (writing : Int) (h : writing ≠ 0) : FlashTestRun [erasedSector 0, wroteHello writing] (-2)
  | unread (reading : Int) (stored : List Byte) (h : reading ≠ 0) :
      FlashTestRun [erasedSector 0, wroteHello 0, readHello reading stored] (-3)
  | passed (stored : List Byte) (h : helloBuf = overwrite clearedBuf stored) :
      FlashTestRun [erasedSector 0, wroteHello 0, readHello 0 stored] 0
  | differing (stored : List Byte) (h : helloBuf ≠ overwrite clearedBuf stored) :
      FlashTestRun [erasedSector 0, wroteHello 0, readHello 0 stored] (-4)

theorem spiFlashTest_runs (trace : List FlashEvent) (ret : Int) (hruns : Runs spiFlashTest trace (.ok ret)) :
    FlashTestRun trace ret := by
  unfold spiFlashTest at hruns
  obtain ⟨(erasing : Int), afterErase, rfl, herased⟩ :=
    (runs_perform_bind (FlashCall.flashErase testAddr 4096) _ _ _).mp hruns
  by_cases herasing : erasing ≠ 0
  · rw [if_pos herasing] at herased
    obtain ⟨rfl, hret⟩ := (runs_pure _ _ _).mp herased
    cases hret
    exact .unerased erasing herasing
  rw [if_neg herasing] at herased
  obtain ⟨(writing : Int), afterWrite, rfl, hwritten⟩ :=
    (runs_perform_bind (FlashCall.flashWrite testAddr helloBuf) _ _ _).mp herased
  cases not_not.mp herasing
  by_cases hwriting : writing ≠ 0
  · rw [if_pos hwriting] at hwritten
    obtain ⟨rfl, hret⟩ := (runs_pure _ _ _).mp hwritten
    cases hret
    exact .unwritten writing hwriting
  rw [if_neg hwriting] at hwritten
  cases not_not.mp hwriting
  obtain ⟨read, ⟨reading, readBuf⟩, rest, rfl, hread, hrest⟩ := (runs_bind_ok _ _ _ _).mp hwritten
  obtain ⟨⟨rc, stored⟩, none, rfl, hstored⟩ :=
    (runs_perform_bind (FlashCall.flashRead testAddr clearedBuf.length) _ _ _).mp hread
  obtain ⟨rfl, hvalue⟩ := (runs_pure _ _ _).mp hstored
  cases hvalue
  simp only at hrest
  by_cases hreading : reading ≠ 0
  · rw [if_pos hreading] at hrest
    obtain ⟨rfl, hret⟩ := (runs_pure _ _ _).mp hrest
    cases hret
    exact .unread reading stored hreading
  rw [if_neg hreading] at hrest
  cases not_not.mp hreading
  split at hrest
  · rename_i hsame
    obtain ⟨rfl, hret⟩ := (runs_pure _ _ _).mp hrest
    cases hret
    exact .passed stored hsame
  · rename_i hother
    obtain ⟨rfl, hret⟩ := (runs_pure _ _ _).mp hrest
    cases hret
    exact .differing stored hother

end TestRun

section Device

-- A NOR flash. A call that fails may leave anything in the range it was about.
def flashAdvance (defects : Defects 8) (cells : Cells 8) (event : FlashEvent) (next : Cells 8) : Prop :=
  match event with
  | ⟨.deviceIsReady, _⟩ => next = cells
  | ⟨.flashRead offset length, (rc, stored)⟩ => next = cells ∧ (rc = 0 → stored = contents cells offset length)
  | ⟨.flashWrite offset data, rc⟩ =>
      if rc = (0 : Int) then next = program defects cells offset data
      else Disturbed cells next offset data.length
  | ⟨.flashErase offset size, rc⟩ =>
      if rc = (0 : Int) then next = erase defects cells offset size
      else Disturbed cells next offset size

def Succeeded : FlashEvent → Prop
  | ⟨.deviceIsReady, ready⟩ => ready = true
  | ⟨.flashRead _ _, (rc, _)⟩ => rc = 0
  | ⟨.flashWrite _ _, rc⟩ => rc = (0 : Int)
  | ⟨.flashErase _ _, rc⟩ => rc = (0 : Int)

-- No defect is in the way of these bytes.
def Holdable (defects : Defects 8) (offset : Int) (data : List Byte) : Prop :=
  ∀ (index : Nat) (hindex : index < data.length), defects.settle (offset + index) data[index] = data[index]

-- The call changes nothing outside this range.
def Within (offset : Int) (count : Nat) : FlashCall → Prop
  | .flashWrite start data => offset ≤ start ∧ start + data.length ≤ offset + count
  | .flashErase start size => offset ≤ start ∧ start + size ≤ offset + count
  | _ => True

theorem flashAdvance_disturbed (defects : Defects 8) (offset : Int) (count : Nat) (cells next : Cells 8)
    (event : FlashEvent) (hwithin : Within offset count event.op) (step : flashAdvance defects cells event next) :
    Disturbed cells next offset count := by
  obtain ⟨op, reply⟩ := event
  cases op with
  | deviceIsReady =>
      cases step
      exact disturbed_refl cells offset count
  | flashRead start length =>
      obtain ⟨rfl, -⟩ := step
      exact disturbed_refl next offset count
  | flashWrite start data =>
      have hrange : Disturbed cells next start data.length := by
        simp only [flashAdvance] at step
        split at step
        · subst step
          exact disturbed_program defects cells start data
        · exact step
      exact hrange.widen offset count hwithin.1 hwithin.2
  | flashErase start size =>
      have hrange : Disturbed cells next start size := by
        simp only [flashAdvance] at step
        split at step
        · subst step
          exact disturbed_erase defects cells start size
        · exact step
      exact hrange.widen offset count hwithin.1 hwithin.2

theorem disturbed_of_path (defects : Defects 8) (offset : Int) (count : Nat) (first last : Cells 8)
    (trace : List FlashEvent) (hwithin : ∀ event ∈ trace, Within offset count event.op)
    (hpath : Path (flashAdvance defects) first trace last) : Disturbed first last offset count := by
  induction hpath with
  | nil cells => exact disturbed_refl cells offset count
  | cons cells next last event trace step _ ih =>
      obtain ⟨hevent, htrace⟩ := List.forall_mem_cons.mp hwithin
      exact (flashAdvance_disturbed defects offset count cells next event hevent step).trans (ih htrace)

theorem FlashTestRun.within {trace : List FlashEvent} {ret : Int} (h : FlashTestRun trace ret) :
    ∀ event ∈ trace, Within testAddr 4096 event.op := by
  have hshort : helloBuf.length ≤ 4096 := by decide +kernel
  have herase (rc : Int) : Within testAddr 4096 (erasedSector rc).op := ⟨Int.le_refl _, Int.le_refl _⟩
  have hwrite (rc : Int) : Within testAddr 4096 (wroteHello rc).op := ⟨Int.le_refl _, by omega⟩
  have hread (rc : Int) (stored : List Byte) : Within testAddr 4096 (readHello rc stored).op := trivial
  cases h <;> simp only [List.forall_mem_cons, herase, hwrite, hread, true_and] <;> exact List.forall_mem_nil _

theorem mapIdx_settle_eq_iff (defects : Defects 8) (offset : Int) (data : List Byte) :
    (data.mapIdx fun index value => defects.settle (offset + index) value) = data ↔ Holdable defects offset data := by
  constructor
  · intro h index hindex
    have hget := congrArg (fun bytes => bytes[index]?) h
    simpa [hindex] using hget
  · intro h
    apply List.ext_getElem List.length_mapIdx
    intro index hindex hindex'
    rw [List.getElem_mapIdx]
    exact h index hindex'

theorem overwrite_full (data stored : List Byte) (h : stored.length = data.length) : overwrite data stored = stored := by
  rw [overwrite, ← h, List.take_length, List.drop_eq_nil_of_le (Nat.le_of_eq h.symm), List.append_nil]

-- What is in the sector after it was erased and programmed.
theorem contents_hello_iff (defects : Defects 8) (cells : Cells 8) :
    contents (program defects (erase defects cells testAddr 4096) testAddr helloBuf) testAddr helloBuf.length = helloBuf ↔
      Holdable defects testAddr helloBuf := by
  rw [contents_program_erase defects cells testAddr 4096 helloBuf (by decide +kernel)]
  exact mapIdx_settle_eq_iff defects testAddr helloBuf

-- What is read when all of the calls succeed.
theorem stored_of_path (defects : Defects 8) (first last : Cells 8) (stored : List Byte)
    (hpath : Path (flashAdvance defects) first [erasedSector 0, wroteHello 0, readHello 0 stored] last) :
    last = program defects (erase defects first testAddr 4096) testAddr helloBuf ∧
      overwrite clearedBuf stored = contents last testAddr helloBuf.length := by
  obtain ⟨erased, herase, hpath⟩ := (path_cons_iff _ _).mp hpath
  obtain ⟨programmed, hprogram, hpath⟩ := (path_cons_iff _ _).mp hpath
  obtain ⟨middle, ⟨hsame, hstored⟩, hpath⟩ := (path_cons_iff _ _).mp hpath
  cases path_nil_iff.mp hpath
  have hread := hstored rfl
  subst hsame
  simp only [flashAdvance, erasedSector, wroteHello, if_pos] at herase hprogram
  have hlength : clearedBuf.length = helloBuf.length := List.length_replicate
  rw [hread, overwrite_full _ _ (by simp [contents]), hlength]
  rw [hprogram, herase]
  exact ⟨rfl, rfl⟩

end Device

-- On any NOR flash, whatever bits of it are stuck, the self test returns 0
-- exactly when its calls succeed and no stuck bit is in the way of the text, and
-- -4 when only the text is; it otherwise names the call that failed. It leaves
-- all but the erased sector as it was.
theorem flash_test_exact (defects : Defects 8) (first last : Cells 8) (run : Run spiFlashTest) (ret : Int)
    (hpath : Path (flashAdvance defects) first run.trace last) (hret : run.outcome = .ok ret) :
    (ret = 0 ↔ (∀ event ∈ run.trace, Succeeded event) ∧ Holdable defects testAddr helloBuf) ∧
      (ret = -4 ↔ (∀ event ∈ run.trace, Succeeded event) ∧ ¬Holdable defects testAddr helloBuf) ∧
      ((∃ event ∈ run.trace, ¬Succeeded event) → ret = - run.trace.length ∧
        ∀ event ∈ run.trace.dropLast, Succeeded event) ∧
      (ret = 0 → contents last testAddr helloBuf.length = helloBuf) ∧
      Disturbed first last testAddr 4096 := by
  have hruns := run.runs
  rw [hret] at hruns
  have htest := spiFlashTest_runs run.trace ret hruns
  have hdisturbed := disturbed_of_path defects testAddr 4096 first last run.trace htest.within hpath
  generalize run.trace = trace at htest hpath hdisturbed ⊢
  cases htest with
  | unerased erasing h => simp [erasedSector, Succeeded, h, hdisturbed]
  | unwritten writing h => simp [erasedSector, wroteHello, Succeeded, h, hdisturbed]
  | unread reading stored h => simp [erasedSector, wroteHello, readHello, Succeeded, h, hdisturbed]
  | passed stored h =>
      obtain ⟨hlast, hstored⟩ := stored_of_path defects first last stored hpath
      rw [hstored, hlast, eq_comm, contents_hello_iff] at h
      have hcontents := (contents_hello_iff defects first).mpr h
      rw [← hlast] at hcontents
      simp [erasedSector, wroteHello, readHello, Succeeded, h, hcontents, hdisturbed]
  | differing stored h =>
      obtain ⟨hlast, hstored⟩ := stored_of_path defects first last stored hpath
      rw [hstored, hlast, ne_comm, Ne, contents_hello_iff] at h
      simp [erasedSector, wroteHello, readHello, Succeeded, h, hdisturbed]

section Example

def workingReplies : (call : FlashCall) → FlashReply call
  | .deviceIsReady => true
  | .flashRead _ _ => (0, helloBuf)
  | .flashWrite _ _ => (0 : Int)
  | .flashErase _ _ => (0 : Int)

def clearedFlash : Cells 8 := fun _ => 0x00#8

def erasedFlash : Cells 8 := erase Defects.none clearedFlash testAddr 4096

def programmedFlash : Cells 8 := program Defects.none erasedFlash testAddr helloBuf

theorem programmedFlash_reached :
    Path (flashAdvance Defects.none) clearedFlash (spiFlashTest.runWith workingReplies).trace programmedFlash := by
  have hcontents := (contents_hello_iff Defects.none clearedFlash).mpr fun _ _ => settle_none _ _
  refine .cons _ erasedFlash _ (erasedSector 0) _ rfl (.cons _ programmedFlash _ (wroteHello 0) _ rfl ?_)
  exact .cons _ programmedFlash _ (readHello 0 helloBuf) _ ⟨rfl, fun _ => hcontents.symm⟩ (.nil _)

theorem flash_test_exact_working :
    ((0 : Int) = 0 → contents programmedFlash testAddr helloBuf.length = helloBuf) ∧
      Disturbed clearedFlash programmedFlash testAddr 4096 :=
  (flash_test_exact Defects.none clearedFlash programmedFlash (spiFlashTest.runWith workingReplies) 0
    programmedFlash_reached (by decide +kernel)).2.2.2

end Example

end TJ3Firmware
