import TJ3Firmware.FsHandler.LogRecords
import TJ3Firmware.FsHandler.MountSafety

namespace TJ3Firmware

open Library.Memory Library.Interaction

section Failure

-- The flash area could not be opened or erased.
def AreaFailed : ZephyrEvent → Prop
  | ⟨.flashAreaOpen _, reply⟩ => reply.1 < 0
  | ⟨.flashAreaErase _ _ _, rc⟩ => (rc : Int) < 0
  | _ => False

def IsMount : ZephyrCall → Prop
  | .fsMount _ => True
  | _ => False

-- After an error of the flash area the volume is mounted or was mounted anew.
def VolumeKept (trace : List ZephyrEvent) (outcome : Except Fault Int) (mounted : Bool) : Prop :=
  ∀ rc : Int, outcome = .ok rc → rc < 0 → (∃ event ∈ trace, AreaFailed event) →
    mounted = true ∨ ∃ event ∈ trace, IsMount event.op

-- The results of fs_unmount, flash_area_open and flash_area_erase, in call order.
def formatResult : ZephyrEvent → Option Int
  | ⟨.fsUnmount _, rc⟩ => some rc
  | ⟨.flashAreaOpen _, reply⟩ => some reply.1
  | ⟨.flashAreaErase _ _ _, rc⟩ => some rc
  | _ => none

-- The mount state after a call. A reply that mountStep takes to be impossible
-- leaves it as it is.
def mountedAfter (mounted : Bool) (event : ZephyrEvent) : Bool := (mountStep mounted event).getD mounted

-- From a mounted volume fs_unmount either succeeds or leaves it mounted.
theorem mountedAfter_unmounted (rc : Int) : mountedAfter true (unmountedVolume rc) = true ↔ rc ≠ 0 := by
  simp only [mountedAfter, mountStep, unmountedVolume]
  by_cases hzero : rc = 0
  · rw [if_pos hzero]
    simp [hzero]
  · rw [if_neg hzero]
    by_cases hinval : rc = -EINVAL
    · simp [hinval, EINVAL]
    · rw [if_neg hinval]
      simp [hzero]

theorem volumeKept_iff (trace : List ZephyrEvent) (rc : Int) (mounted : Bool) (hrc : rc < 0)
    (hfailed : ∃ event ∈ trace, AreaFailed event) (hmount : ∀ event ∈ trace, ¬IsMount event.op) :
    VolumeKept trace (.ok rc) mounted ↔ mounted = true := by
  constructor
  · intro h
    rcases h rc rfl hrc hfailed with hmounted | ⟨event, hevent, hmounted⟩
    · exact hmounted
    · exact absurd hmounted (hmount event hevent)
  · intro hmounted _ _ _ _
    exact Or.inl hmounted

end Failure

-- From a mounted volume, the format takes the file system away exactly when it
-- could unmount it and then could not open or erase the flash area.
theorem format_failure_keeps_volume_iff (run : Run fsHandlerLowLevelFormat) (unmounting opening erasing : Int)
    (hresults : run.trace.filterMap formatResult <+: [unmounting, opening, erasing]) :
    VolumeKept run.trace run.outcome (run.trace.foldl mountedAfter true) ↔
      unmounting ≠ 0 ∨ (0 ≤ opening ∧ 0 ≤ erasing) := by
  have hformat := lowLevelFormat_runs _ _ run.runs
  obtain ⟨trace, outcome, hruns⟩ := run
  dsimp only at hformat hresults ⊢
  cases hformat with
  | unopened unmounting' opening' fa hopening =>
      have hfront : [unmounting', opening'] <+: [unmounting, opening, erasing] := hresults
      obtain ⟨rfl, rfl⟩ : unmounting' = unmounting ∧ opening' = opening := by simpa using hfront
      have hmounted : [unmountedVolume unmounting', openedArea opening' fa].foldl mountedAfter true =
          mountedAfter true (unmountedVolume unmounting') := rfl
      rw [hmounted, volumeKept_iff _ _ _ hopening ⟨openedArea opening' fa, by simp, hopening⟩
        (by simp [unmountedVolume, openedArea, IsMount]), mountedAfter_unmounted]
      omega
  | unerased unmounting' opening' erasing' fa hopening herasing =>
      have hfront : [unmounting', opening', erasing'] <+: [unmounting, opening, erasing] := hresults
      obtain ⟨rfl, rfl, rfl⟩ : unmounting' = unmounting ∧ opening' = opening ∧ erasing' = erasing := by
        simpa using hfront
      have hmounted : [unmountedVolume unmounting', openedArea opening' fa, erasedArea fa erasing',
          closedArea fa].foldl mountedAfter true = mountedAfter true (unmountedVolume unmounting') := rfl
      rw [hmounted, volumeKept_iff _ _ _ herasing ⟨erasedArea fa erasing', by simp, herasing⟩
        (by simp [unmountedVolume, openedArea, erasedArea, closedArea, IsMount]), mountedAfter_unmounted]
      omega
  | remounted unmounting' opening' erasing' mounting fa hopening herasing =>
      have hfront : [unmounting', opening', erasing'] <+: [unmounting, opening, erasing] := hresults
      obtain ⟨rfl, rfl, rfl⟩ : unmounting' = unmounting ∧ opening' = opening ∧ erasing' = erasing := by
        simpa using hfront
      constructor
      · exact fun _ => Or.inr ⟨hopening, herasing⟩
      · intro _ _ _ _ _
        exact Or.inr ⟨mountedVolume mounting, by simp, trivial⟩

-- Everything succeeds but the erase.
def eraseFailedReplies : (call : ZephyrCall) → ZephyrReply call
  | .flashAreaErase _ _ _ => - EIO
  | call => fullReplies call

def unerasedFormat : Run fsHandlerLowLevelFormat := fsHandlerLowLevelFormat.runWith eraseFailedReplies

theorem format_failure_keeps_volume_iff_unerased :
    VolumeKept unerasedFormat.trace unerasedFormat.outcome (unerasedFormat.trace.foldl mountedAfter true) ↔
      (0 : Int) ≠ 0 ∨ ((0 : Int) ≤ 0 ∧ (0 : Int) ≤ - EIO) :=
  format_failure_keeps_volume_iff unerasedFormat 0 0 (- EIO) (by decide +kernel)

-- Everything succeeds but the flash area, which does not open.
def areaLostReplies : (call : ZephyrCall) → ZephyrReply call
  | .flashAreaOpen _ => (- EIO, ⟨0, 0⟩)
  | call => fullReplies call

-- Unmounted, and then given up.
theorem format_failure_loses_volume : ¬∀ run : Run fsHandlerLowLevelFormat,
    VolumeKept run.trace run.outcome (run.trace.foldl mountedAfter true) := by
  intro h
  have hkept := h (fsHandlerLowLevelFormat.runWith areaLostReplies)
  have htrace : (fsHandlerLowLevelFormat.runWith areaLostReplies).trace =
      [unmountedVolume 0, openedArea (-5) ⟨0, 0⟩] := rfl
  have houtcome : (fsHandlerLowLevelFormat.runWith areaLostReplies).outcome = .ok (-5) := rfl
  rw [htrace, houtcome, volumeKept_iff _ _ _ (by omega) ⟨openedArea (-5) ⟨0, 0⟩, by simp, ?_⟩
    (by simp [unmountedVolume, openedArea, IsMount])] at hkept
  · exact absurd hkept (by decide)
  · show (-5 : Int) < 0
    omega

end TJ3Firmware
