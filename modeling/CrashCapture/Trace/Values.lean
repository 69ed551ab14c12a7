import CrashCapture.Options
import CrashCapture.Machine
import CrashCapture.Trace.Calls
import CrashCapture.Settings

namespace CrashCapture

namespace Descriptor

def toJson (d : Descriptor) : Json := .object [
  ("code", .ofInt d.code), ("name", .str d.name), ("description", .str d.description)]

end Descriptor

namespace Dsn

def reparsed (d : Dsn) : Json :=
  match parse d.render with
  | .ok e => .bool (e = d)
  | .error e => e.toJson

def toJson (d : Dsn) : Json := .object [
  ("public_key", .str d.publicKey), ("project_id", .str d.projectId), ("port", .ofNat d.port),
  ("minidump_url", .str d.minidumpUrl), ("display", .str d.render), ("reparsed", d.reparsed)]

end Dsn

namespace Options

def toJson (o : Options) : Json := .object [
  ("run_path", .str o.runPath), ("database_path", .str o.databasePath),
  ("handler_path", .ofOption .str o.handlerPath), ("attachments", .ofStrings o.attachments),
  ("dsn", .ofOption (.str ·.render) o.dsn),
  ("system_crash_reporter_enabled", .bool o.systemCrashReporter),
  ("max_breadcrumbs", .ofNat o.maxBreadcrumbs)]

end Options

namespace Settings

def toJson (s : Settings) : Json := .object [
  ("client_id", .str s.clientId.hyphenated), ("uploads_enabled", .bool s.uploadsEnabled),
  ("last_upload_attempt", .ofOption (.ofNat ·.toNat) s.lastUploadAttempt)]

end Settings

namespace FaultContext

def toJson (c : FaultContext) : Json := .object [
  ("code", .ofInt c.signal), ("ip", .ofOption (.ofNat ·.toNat) c.instructionPointer),
  ("info", .ofOption
    (fun i => .object [("signo", .ofInt i.signal), ("code", .ofInt i.code)]) c.info),
  ("user_context", .bool c.hasUserContext)]

end FaultContext

namespace Ending

def toJson : Ending → Json
  | killed signal => .object [("signal", .ofInt signal)]
  | exited code => .object [("code", .ofInt code)]

end Ending

end CrashCapture
