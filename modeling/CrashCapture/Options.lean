import CrashCapture.Dsn

namespace CrashCapture

/-- The configuration of a client and its backend. -/
structure Options where
  runPath : Path
  databasePath : Path
  handlerPath : Option Path
  attachments : List Path
  dsn : Option Dsn
  systemCrashReporter : Bool
  maxBreadcrumbs : Nat
deriving DecidableEq, Repr

namespace Options

def defaultMaxBreadcrumbs : Nat := 100

/-- Run directory and report database side by side below one directory. -/
def withRoot (root : Path) : Options where
  runPath := Path.join root "run"
  databasePath := Path.join root "db"
  handlerPath := none
  attachments := []
  dsn := none
  systemCrashReporter := false
  maxBreadcrumbs := defaultMaxBreadcrumbs

def temporaryDirectory : Path := "/tmp"

def default : Options := withRoot (Path.join temporaryDirectory "crash-backend")

def withRunPath (p : Path) (o : Options) : Options := { o with runPath := p }

def withDatabasePath (p : Path) (o : Options) : Options := { o with databasePath := p }

def withHandlerPath (p : Path) (o : Options) : Options := { o with handlerPath := some p }

def withAttachment (p : Path) (o : Options) : Options :=
  { o with attachments := o.attachments ++ [p] }

def withDsn (d : Dsn) (o : Options) : Options := { o with dsn := some d }

def withSystemCrashReporter (enabled : Bool) (o : Options) : Options :=
  { o with systemCrashReporter := enabled }

def withMaxBreadcrumbs (max : Nat) (o : Options) : Options := { o with maxBreadcrumbs := max }

end Options

end CrashCapture
