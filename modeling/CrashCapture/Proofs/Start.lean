import CrashCapture.Machine

namespace CrashCapture

/-- The environment of a process in which nothing has happened yet. It may have files. -/
def Environment.fresh (files : FileTree) : Environment where
  files := files
  memory := ⟨[], 0x7f0000000000, .unlimited⟩
  emergency := .initial
  marks := .initial
  pid := 1
  executable := "/app"
  children := []
  nextPid := 2
  thread := mainThread
  stack := []
  seconds := 0
  nanoseconds := 0
  random := fun _ => 0
  drawn := 0
  log := []
  calls := []

end CrashCapture
