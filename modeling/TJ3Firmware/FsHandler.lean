import TJ3Firmware.Zephyr

namespace TJ3Firmware

open Library.Memory Library.Interaction

def MOUNT_POINT : List Byte := textBytes "/lfs"

-- The flags member is not initialised by name, so no flag is set.
def lfsStorageMnt : FsMount where
  storageDev := .littlefsStorage
  mntPoint := MOUNT_POINT
  flags := []

def dumpLfsFlashParams : Firmware Unit := do
  let (rc, fa) ← flashAreaOpen .littlefsStorage
  if rc ≠ 0 then pure ()
  else do
    -- the page size is only logged, as are both errors
    let _ ← flashGetPageInfoByOffs fa.faOff
    flashAreaClose fa

def allowFormatOnMountError (mountRc : Int) : Bool :=
  if mountRc = - EIO then true
  else if mountRc = -EINVAL then false
  else false

def fsHandlerFastFormat : Firmware Int := do
  let rc ← fsMkfs .littlefsStorage
  if rc < 0 then pure rc
  else pure 0

def fsHandlerInit : Firmware Int := do
  let rc ← fsMount lfsStorageMnt
  if rc = 0 then do
    dumpLfsFlashParams
    let _ ← fsStatvfs lfsStorageMnt.mntPoint
    pure 0
  else do
    dumpLfsFlashParams
    if !allowFormatOnMountError rc then pure rc
    else do
      let rc ← fsHandlerFastFormat
      if rc ≠ 0 then pure rc
      else do
        let rc ← fsMount lfsStorageMnt
        if rc ≠ 0 then pure rc
        else do
          dumpLfsFlashParams
          pure 0

def writeData : List Byte := textBytes "Test File System Operation\n"

-- sizeof(read_data)
def READ_DATA_SIZE : Nat := 64

def fsHandlerTest : Firmware Int := do
  let rc ← fsOpen (MOUNT_POINT ++ textBytes "/test.txt") [.create, .rdwr]
  if rc < 0 then pure rc
  else do
    let rc ← fsWrite writeData
    if rc < 0 then do
      let _ ← fsClose
      pure rc
    else do
      let rc ← fsSeek 0
      if rc < 0 then do
        let _ ← fsClose
        pure rc
      else do
        -- the bytes delivered are only logged
        let (rc, _) ← fsRead (READ_DATA_SIZE - 1)
        if rc < 0 then do
          let _ ← fsClose
          pure rc
        else do
          let _ ← fsClose
          pure 0

def newline : Byte := 0x0A#8

-- A buffer of this size gets the bytes there is room for beside the NUL.
def snprintf (size : Nat) (text : List Byte) : List Byte := text.take (size - 1)

-- strlen(line) - 1, a size_t: it wraps for an empty line.
def lastIndex (line : List Byte) : Nat := if line.length = 0 then 2 ^ 32 - 1 else line.length - 1

def logPath (filename : List Byte) : List Byte := snprintf 64 (MOUNT_POINT ++ textBytes "/" ++ filename)

-- The name and the line are given without their NULs.
def fsHandlerAppendLog (filename : List Byte) (line : List Byte) : Firmware Int := do
  let rc ← fsOpen (logPath filename) [.create, .rdwr, .append]
  if rc < 0 then pure rc
  else do
    let rc ← fsWrite line
    let last ← Prog.ofExcept (Ptr.read ⟨line ++ [0x00#8], 0⟩ (lastIndex line))
    if last ≠ newline then do
      let _ ← fsWrite [newline]
      let _ ← fsClose
      pure rc
    else do
      let _ ← fsClose
      pure rc

def fsHandlerLowLevelFormat : Firmware Int := do
  -- an error other than -EINVAL is logged: "Continue to erase anyway"
  let _ ← fsUnmount lfsStorageMnt
  let (rc, fa) ← flashAreaOpen .littlefsStorage
  if rc < 0 then pure rc
  else do
    let rc ← flashAreaErase fa 0 fa.faSize
    flashAreaClose fa
    if rc < 0 then pure rc
    else do
      let rc ← fsMount lfsStorageMnt
      if rc < 0 then pure rc
      else pure 0

end TJ3Firmware
