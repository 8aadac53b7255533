import TJ3Firmware.FsHandler

namespace TJ3Firmware

open Library.Memory Library.Interaction

-- What is assumed of LittleFS, for any kind of partition contents: what an
-- attempt to mount may return, 0 being success, and what a format may leave.
structure LittleFs (Contents : Type) where
  attempt : Contents → Int → Prop
  formatted : Contents → Contents → Prop
  formats : ∀ contents, ∃ contents', formatted contents contents'
  mountable : ∀ contents contents', formatted contents contents' → attempt contents' 0

namespace LittleFs

variable {Contents : Type} (fs : LittleFs Contents)

-- fs_mount tries to mount. When that fails it formats and tries again, unless
-- the flags forbid it.
def mount (flags : List MountFlag) (rc : Int) (contents contents' : Contents) : Prop :=
  ∃ first, fs.attempt contents first ∧
    if first = 0 ∨ .noFormat ∈ flags then rc = first ∧ contents' = contents
    else fs.formatted contents contents' ∧ fs.attempt contents' rc

-- The contents of the partition after a call. A failed fs_mkfs, and what no
-- function calls at boot, may leave anything.
def advance (contents : Contents) (event : ZephyrEvent) (contents' : Contents) : Prop :=
  match event with
  | ⟨.fsMount mnt, rc⟩ => fs.mount mnt.flags rc contents contents'
  | ⟨.fsMkfs _, rc⟩ => 0 ≤ rc → fs.formatted contents contents'
  | ⟨.fsStatvfs _, _⟩ => contents' = contents
  | ⟨.flashAreaOpen _, _⟩ => contents' = contents
  | ⟨.flashAreaClose _, _⟩ => contents' = contents
  | ⟨.flashGetPageInfoByOffs _, _⟩ => contents' = contents
  | _ => True

-- The existing volume cannot be mounted, for another reason than erased or
-- unreadable media.
structure Unmountable (contents : Contents) : Prop where
  attempted : ∃ reason, fs.attempt contents reason
  refused : ∀ reason, fs.attempt contents reason → reason ≠ 0 ∧ reason ≠ - EIO

def PreservesAtBoot (contents : Contents) : Prop :=
  ∀ (run : Run fsHandlerInit) (last : Contents), Path fs.advance contents run.trace last → last = contents

-- The first call of boot replaces the contents.
def FormatsFirst (contents : Contents) (trace : List ZephyrEvent) (last : Contents) : Prop :=
  ∃ (rc : Int) (rest : List ZephyrEvent) (reformatted : Contents),
    trace = ⟨.fsMount lfsStorageMnt, rc⟩ :: rest ∧ fs.formatted contents reformatted ∧ reformatted ≠ contents ∧
      Path fs.advance reformatted rest last

variable (contents : Contents)

theorem formatted_ne (h : fs.Unmountable contents) (reformatted : Contents)
    (hformatted : fs.formatted contents reformatted) : reformatted ≠ contents := by
  rintro rfl
  exact (h.refused 0 (fs.mountable _ _ hformatted)).1 rfl

theorem mount_formats (h : fs.Unmountable contents) (rc : Int) (contents' : Contents)
    (hmount : fs.mount lfsStorageMnt.flags rc contents contents') : fs.formatted contents contents' := by
  obtain ⟨first, hfirst, hrest⟩ := hmount
  have hallowed : ¬(first = 0 ∨ MountFlag.noFormat ∈ lfsStorageMnt.flags) := by
    rintro (hzero | hflag)
    · exact (h.refused first hfirst).1 hzero
    · cases hflag
  rw [if_neg hallowed] at hrest
  exact hrest.1

theorem formats_first (h : fs.Unmountable contents) (run : Run fsHandlerInit) (last : Contents)
    (hpath : Path fs.advance contents run.trace last) : fs.FormatsFirst contents run.trace last := by
  obtain ⟨rc, rest, htrace, -⟩ := (runs_perform_bind (ZephyrCall.fsMount lfsStorageMnt) _ _ _).mp run.runs
  rw [htrace] at hpath
  cases hpath with
  | cons _ reformatted _ _ _ step hrest =>
      have hformatted := mount_formats fs contents h rc reformatted step
      exact ⟨rc, rest, reformatted, htrace, hformatted, formatted_ne fs contents h reformatted hformatted, hrest⟩

end LittleFs

-- The calls of a boot whose first fs_mount succeeds.
def mountedTrace : List ZephyrEvent :=
  [⟨.fsMount lfsStorageMnt, (0 : Int)⟩, ⟨.flashAreaOpen .littlefsStorage, ((0 : Int), ⟨0, 65536⟩)⟩,
    ⟨.flashGetPageInfoByOffs 0, (0 : Int)⟩, ⟨.flashAreaClose ⟨0, 65536⟩, ()⟩, ⟨.fsStatvfs MOUNT_POINT, (0 : Int)⟩]

theorem mountedTrace_runs : Runs fsHandlerInit mountedTrace (.ok 0) :=
  .call _ _ _ _ _ (.call _ _ _ _ _ (.call _ _ _ _ _ (.call _ _ _ _ _ (.call _ _ _ _ _ (.ret 0)))))

namespace LittleFs

variable {Contents : Type} (fs : LittleFs Contents) (contents : Contents)

-- Boot returns 0, and the volume is gone.
theorem not_preservesAtBoot (h : fs.Unmountable contents) : ¬fs.PreservesAtBoot contents := by
  intro hpreserves
  obtain ⟨reason, hreason⟩ := h.attempted
  obtain ⟨reformatted, hformatted⟩ := fs.formats contents
  have hmount : fs.mount lfsStorageMnt.flags 0 contents reformatted := by
    refine ⟨reason, hreason, ?_⟩
    rw [if_neg]
    · exact ⟨hformatted, fs.mountable _ _ hformatted⟩
    · rintro (hzero | hflag)
      · exact (h.refused reason hreason).1 hzero
      · cases hflag
  have hpath : Path fs.advance contents mountedTrace reformatted :=
    .cons _ _ _ _ _ hmount (.cons _ _ _ _ _ rfl (.cons _ _ _ _ _ rfl (.cons _ _ _ _ _ rfl
      (.cons _ _ _ _ _ rfl (.nil reformatted)))))
  exact formatted_ne fs contents h reformatted hformatted (hpreserves ⟨_, _, mountedTrace_runs⟩ reformatted hpath)

end LittleFs

-- No volume that cannot be mounted survives the boot: the mount descriptor lets
-- fs_mount itself format, before allow_format_on_mount_error is asked.
theorem boot_never_preserves {Contents : Type} (fs : LittleFs Contents) (contents : Contents)
    (h : fs.Unmountable contents) : ¬fs.PreservesAtBoot contents ∧
      ∀ (run : Run fsHandlerInit) (last : Contents), Path fs.advance contents run.trace last →
        fs.FormatsFirst contents run.trace last :=
  ⟨fs.not_preservesAtBoot contents h, fs.formats_first contents h⟩

-- Any bytes but those of an empty volume have the wrong geometry.
def geometryFs : LittleFs (List Byte) where
  attempt contents reason := reason = if contents = [] then 0 else -EINVAL
  formatted _ contents' := contents' = []
  formats _ := ⟨[], rfl⟩
  mountable _ _ h := by rw [h, if_pos rfl]

theorem geometryFs_unmountable : geometryFs.Unmountable [0x01#8] where
  attempted := ⟨_, rfl⟩
  refused reason h := by
    cases h
    decide

theorem boot_never_preserves_geometry : ¬geometryFs.PreservesAtBoot [0x01#8] ∧
    ∀ (run : Run fsHandlerInit) (last : List Byte), Path geometryFs.advance [0x01#8] run.trace last →
      geometryFs.FormatsFirst [0x01#8] run.trace last :=
  boot_never_preserves geometryFs [0x01#8] geometryFs_unmountable

theorem boot_overwrites_geometry :
    ¬∀ (fs : LittleFs (List Byte)) (contents : List Byte), fs.Unmountable contents → fs.PreservesAtBoot contents := by
  intro h
  exact geometryFs.not_preservesAtBoot [0x01#8] geometryFs_unmountable
    (h geometryFs [0x01#8] geometryFs_unmountable)

end TJ3Firmware
