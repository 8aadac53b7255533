import TJ3Firmware.Library.Interaction
import TJ3Firmware.Protocol

namespace TJ3Firmware

open Library.Memory Library.Interaction

-- The bytes of a C string literal without its terminator.
def textBytes (text : String) : List Byte := text.toList.map fun char => BitVec.ofNat 8 char.toNat

def EIO : Int := 5

def EBUSY : Int := 16

def EINVAL : Int := 22

inductive PartitionId
  | littlefsStorage
  deriving Repr, DecidableEq

inductive MountFlag
  | noFormat
  | readOnly
  deriving Repr, DecidableEq

-- fs_mount_t. A C string is given by its bytes, without the NUL.
structure FsMount where
  storageDev : PartitionId
  mntPoint : List Byte
  flags : List MountFlag
  deriving Repr, DecidableEq

inductive OpenFlag
  | create
  | rdwr
  | append
  deriving Repr, DecidableEq

-- flash_area, as flash_area_open fills it in.
structure FlashArea where
  faOff : Nat
  faSize : Nat
  deriving Repr, DecidableEq

-- The calls that leave the firmware. A function has at most one file and one
-- flash area, which its calls are about.
inductive ZephyrCall
  | fsMount (mnt : FsMount)
  | fsUnmount (mnt : FsMount)
  | fsMkfs (storage : PartitionId)
  | fsStatvfs (path : List Byte)
  | fsOpen (path : List Byte) (flags : List OpenFlag)
  | fsWrite (data : List Byte)
  -- from the start of the file, FS_SEEK_SET
  | fsSeek (offset : Int)
  | fsRead (size : Nat)
  | fsClose
  | flashAreaOpen (partition : PartitionId)
  | flashAreaErase (area : FlashArea) (offset length : Nat)
  | flashAreaClose (area : FlashArea)
  | flashGetPageInfoByOffs (offset : Nat)
  | btGattIndicate (uuid : BitVec 128) (data : List Byte)
  | ledOn
  | ledOff
  deriving Repr, DecidableEq

-- The return value, with what is stored through a pointer argument and read
-- later.
abbrev ZephyrReply : ZephyrCall → Type
  | .fsMount _ => Int
  | .fsUnmount _ => Int
  | .fsMkfs _ => Int
  | .fsStatvfs _ => Int
  | .fsOpen _ _ => Int
  | .fsWrite _ => Int
  | .fsSeek _ => Int
  | .fsRead _ => Int × List Byte
  | .fsClose => Int
  | .flashAreaOpen _ => Int × FlashArea
  | .flashAreaErase _ _ _ => Int
  | .flashAreaClose _ => Unit
  | .flashGetPageInfoByOffs _ => Int
  | .btGattIndicate _ _ => Int
  | .ledOn => Unit
  | .ledOff => Unit

abbrev ZephyrEvent := Event ZephyrCall ZephyrReply

-- Firmware code: it ends with a value or with an access outside an object.
abbrev Firmware (α : Type) := Prog ZephyrCall ZephyrReply Fault α

def perform (call : ZephyrCall) : Firmware (ZephyrReply call) := Prog.perform call

def fsMount (mnt : FsMount) : Firmware Int := perform (.fsMount mnt)

def fsUnmount (mnt : FsMount) : Firmware Int := perform (.fsUnmount mnt)

def fsMkfs (storage : PartitionId) : Firmware Int := perform (.fsMkfs storage)

def fsStatvfs (path : List Byte) : Firmware Int := perform (.fsStatvfs path)

def fsOpen (path : List Byte) (flags : List OpenFlag) : Firmware Int := perform (.fsOpen path flags)

def fsWrite (data : List Byte) : Firmware Int := perform (.fsWrite data)

def fsSeek (offset : Int) : Firmware Int := perform (.fsSeek offset)

def fsRead (size : Nat) : Firmware (Int × List Byte) := perform (.fsRead size)

def fsClose : Firmware Int := perform .fsClose

def flashAreaOpen (partition : PartitionId) : Firmware (Int × FlashArea) := perform (.flashAreaOpen partition)

def flashAreaErase (area : FlashArea) (offset length : Nat) : Firmware Int :=
  perform (.flashAreaErase area offset length)

def flashAreaClose (area : FlashArea) : Firmware Unit := perform (.flashAreaClose area)

def flashGetPageInfoByOffs (offset : Nat) : Firmware Int := perform (.flashGetPageInfoByOffs offset)

def btGattIndicate (uuid : BitVec 128) (data : List Byte) : Firmware Int := perform (.btGattIndicate uuid data)

def ledOn : Firmware Unit := perform .ledOn

def ledOff : Firmware Unit := perform .ledOff

end TJ3Firmware
