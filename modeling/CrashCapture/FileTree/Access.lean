import CrashCapture.FileTree.Basic
import CrashCapture.IoError

namespace CrashCapture

/-- The mode of a file that is made. -/
def Disk.defaultMode : Nat := 0o644

/-- What the system lets a process do with files: which ones it may read and write, told by their
modes, where it may make one, and after how many bytes a write to a file stops, and with which error. A
file that it has made it may read. -/
structure Access where
  mayRead : Nat → Bool
  mayWrite : Nat → Bool
  mayMake : Location → Bool
  stops : FileTree → Location → Bytes → Option (Nat × IoError)
  readsMade : mayRead Disk.defaultMode = true

namespace Access

/-- No mode binds the process, and there is room for whatever it writes. -/
def full : Access where
  mayRead _ := true
  mayWrite _ := true
  mayMake _ := true
  stops _ _ _ := none
  readsMade := rfl

/-- The modes bind the process as the owner of all files. -/
def owner : Access where
  mayRead mode := mode &&& 0o400 ≠ 0
  mayWrite mode := mode &&& 0o200 ≠ 0
  mayMake _ := true
  stops _ _ _ := none
  readsMade := by decide

/-- There is room for so many bytes of each write. -/
def within (room : Nat) : Access where
  mayRead _ := true
  mayWrite _ := true
  mayMake _ := true
  stops _ _ bytes := if bytes.length ≤ room then none else some (room, .noSpace)
  readsMade := rfl

end Access

end CrashCapture
