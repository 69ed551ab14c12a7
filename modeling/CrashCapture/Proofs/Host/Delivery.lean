import CrashCapture.External
import CrashCapture.InProcess
import CrashCapture.Proofs.Host.Places
import CrashCapture.Proofs.Running
import CrashCapture.Proofs.Start

namespace CrashCapture.DirectoryHost

open FileTree

inductive Deed
  | tag (key value : String)
  | breadcrumb (value : Json)
  | event (members : Members Json)
  /-- A fault that is captured in the process, with an event. -/
  | crash (context : FaultContext)
  /-- A fault that is left to a handler process. -/
  | flush

namespace Deed

def act : Deed → SiteM DirectoryHost Unit
  | tag key value => modify fun s => { s with host := s.host.setTag key value }
  | breadcrumb value => modify fun s => { s with host := s.host.pushBreadcrumb value }
  | event members => Host.captureEvent (.obj members)
  | crash context => InProcess.capture context
  | flush => External.flush

def isFault : Deed → Bool
  | crash _ => true
  | flush => true
  | _ => false

/-- The event that reports a fault. -/
def report (context : FaultContext) (s : Site DirectoryHost) : Json :=
  Event.ofSignal (Run.newUuid.run s.env).1 (Run.timestamp.run s.env).1
    (Descriptor.find? context.signal) ((InProcess.walk context).run s).1

/-- The event that is captured, as it is written. -/
def envelope? (s : Site DirectoryHost) : Deed → Option Bytes
  | event members => some (merge s.host.scope .all (.obj members)).encode
  | crash context => some (merge s.host.scope .all (report context s)).encode
  | _ => none

/-- How what is queued is written, with numbers from some one on. -/
def numbered (i : Nat) (queue : List Bytes) : List (Place × Bytes) :=
  (queue.zipIdx i).map fun (bytes, i) => (.queued i, bytes)

/-- What the first fault does with the queue. -/
def dump (h : DirectoryHost) : List (Place × Bytes) :=
  if h.diskTransport then [] else numbered 0 h.queue

def announcement (s : Site DirectoryHost) : List (Place × Bytes) := [
  (.marker, Bytes.ofString (toString s.env.seconds)),
  (.session, (Json.object [("status", .str SessionStatus.crashed.text)]).encode)]

/-- The files that are written, in order. -/
def writes (s : Site DirectoryHost) (d : Deed) : List (Place × Bytes) :=
  let saved := (d.envelope? s).toList.map fun bytes => (Place.envelope s.host.envelopes, bytes)
  if d.isFault then announcement s ++ saved ++ dump s.host
  else if s.host.diskTransport then saved else []

end Deed

/-- What a deed does. -/
structure Effect (d : Deed) (s s' : Site DirectoryHost) : Prop where
  files : s'.env.files =
    saveQuietly s.host.directory s.host.options.runPath (d.writes s) s.env.files
  directory : s'.host.directory = s.host.directory
  options : s'.host.options = s.host.options
  transport : s'.host.diskTransport = (s.host.diskTransport || d.isFault)
  queue : s'.host.queue =
    if s.host.diskTransport then s.host.queue
    else if d.isFault then []
    else s.host.queue ++ (d.envelope? s).toList
  envelopes : s'.host.envelopes =
    if s.host.diskTransport || d.isFault then s.host.envelopes + (d.envelope? s).toList.length
    else s.host.envelopes

variable {s : Site DirectoryHost}

def withFiles (s : Site DirectoryHost) (t : FileTree) : Site DirectoryHost :=
  { s with env := { s.env with files := t } }

theorem withFiles_withFiles (s : Site DirectoryHost) (t t' : FileTree) :
    withFiles (withFiles s t) t' = withFiles s t' := rfl

theorem files_withFiles (s : Site DirectoryHost) (t : FileTree) :
    (withFiles s t).env.files = t := rfl

theorem writeQuietly_run (p : Place) (directory runPath : Path) (bytes : Bytes)
    (s : Site DirectoryHost) :
    (writeQuietly (p.path directory runPath) bytes).run s =
      ((), withFiles s (saveQuietly directory runPath [(p, bytes)] s.env.files)) := by
  unfold writeQuietly
  cases hwrite : (Disk.writeFile (p.path directory runPath) bytes).run s.env.files with
  | ok u t =>
    have hrun := Run.disk_run (Disk.writeFile (p.path directory runPath) bytes) s.env
    rw [hwrite] at hrun
    rw [stateM_run_bind (run_liftM_env hrun), saveQuietly, hwrite]
    rfl
  | error e t =>
    have hrun := Run.disk_run (Disk.writeFile (p.path directory runPath) bytes) s.env
    rw [hwrite] at hrun
    rw [stateM_run_bind (run_liftM_env hrun), saveQuietly, hwrite]
    rfl

theorem dumpFrom_run (directory runPath : Path) (i : Nat) (queue : List Bytes)
    (s : Site DirectoryHost) :
    (dumpFrom runPath i queue).run s =
      ((), withFiles s (saveQuietly directory runPath (Deed.numbered i queue) s.env.files)) := by
  induction queue generalizing i s with
  | nil => rfl
  | cons bytes queue ih =>
    have hwrite := writeQuietly_run (.queued i) directory runPath bytes s
    have hnumbered : Deed.numbered i (bytes :: queue) =
      (.queued i, bytes) :: Deed.numbered (i + 1) queue := rfl
    rw [dumpFrom]
    refine (stateM_run_bind hwrite _).trans ?_
    rw [ih, hnumbered, saveQuietly_cons (.queued i, bytes) (Deed.numbered (i + 1) queue),
      withFiles_withFiles, files_withFiles]

theorem dumpQueue_run (directory runPath : Path) (s : Site DirectoryHost) :
    (dumpQueue runPath).run s = ((), withFiles { s with host := { s.host with queue := [] } }
      (saveQuietly directory runPath (Deed.numbered 0 s.host.queue) s.env.files)) := by
  unfold dumpQueue
  rw [stateM_run_get]
  have hmodify : (modify fun s => { s with host := { s.host with queue := [] } } :
      SiteM DirectoryHost Unit).run s = ((), { s with host := { s.host with queue := [] } }) := rfl
  rw [stateM_run_bind hmodify, dumpFrom_run directory runPath]

def enforced (s : Site DirectoryHost) : Site DirectoryHost :=
  { s with host := { s.host with diskTransport := true } }

/-- A site where a fault was announced. -/
def announced (s : Site DirectoryHost) : Site DirectoryHost :=
  withFiles (enforced s)
    (saveQuietly s.host.directory s.host.options.runPath (Deed.announcement s) s.env.files)

def prior (s : Site DirectoryHost) : Option (Transport DirectoryHost) :=
  if s.host.diskTransport then none else some dumpQueue

/-- A site where the marker was written. -/
def marked (s : Site DirectoryHost) : Site DirectoryHost :=
  withFiles s (saveQuietly s.host.directory s.host.options.runPath
    [(.marker, Bytes.ofString (toString s.env.seconds))] s.env.files)

theorem writeCrashMarker_run (s : Site DirectoryHost) :
    (Host.writeCrashMarker (σ := DirectoryHost)).run s = ((), marked s) := by
  have hwrite := writeQuietly_run .marker s.host.directory s.host.options.runPath
    (Bytes.ofString (toString s.env.seconds)) s
  exact (stateM_run_get _ s).trans hwrite

theorem enforceDiskTransport_run (s : Site DirectoryHost) :
    (Host.enforceDiskTransport (σ := DirectoryHost)).run s = (prior s, enforced s) := rfl

theorem endSession_run (s : Site DirectoryHost) :
    (Host.endSession (σ := DirectoryHost) .crashed).run (enforced (marked s)) =
      ((), announced s) := by
  have hwrite := writeQuietly_run .session s.host.directory s.host.options.runPath
    (Json.object [("status", .str SessionStatus.crashed.text)]).encode (enforced (marked s))
  rw [announced, Deed.announcement, saveQuietly_cons]
  exact hwrite

theorem announce_run (s : Site DirectoryHost) :
    (InProcess.announce (σ := DirectoryHost)).run s = (prior s, announced s) := by
  unfold InProcess.announce
  rw [stateM_run_bind (writeCrashMarker_run s), stateM_run_bind (enforceDiskTransport_run _),
    stateM_run_bind (endSession_run s)]
  rfl

theorem merge_obj (scope members : Members Json) (mode : ScopeMode) :
    ∃ ms, merge scope mode (.obj members) = .obj ms := ⟨_, rfl⟩

/-- Objects always have a written form. -/
theorem encode_merge_ne_nil (scope members : Members Json) (mode : ScopeMode) :
    (merge scope mode (.obj members)).encode ≠ [] := by
  obtain ⟨ms, hms⟩ := merge_obj scope members mode
  rw [hms, Json.encode]
  exact List.cons_ne_nil _ _

/-- A site where an event was captured. -/
def captured (bytes : Bytes) (s : Site DirectoryHost) : Site DirectoryHost :=
  if s.host.diskTransport then
    withFiles { s with host := { s.host with envelopes := s.host.envelopes + 1 } }
      (saveQuietly s.host.directory s.host.options.runPath [(.envelope s.host.envelopes, bytes)]
        s.env.files)
  else { s with host := { s.host with queue := s.host.queue ++ [bytes] } }

theorem capture_run (members : Members Json) (s : Site DirectoryHost) :
    (capture (.obj members)).run s =
      ((), captured (merge s.host.scope .all (.obj members)).encode s) := by
  have hne := encode_merge_ne_nil s.host.scope members .all
  unfold capture
  rw [stateM_run_get]
  dsimp only
  rw [if_neg (by simpa using hne), captured]
  by_cases hdisk : s.host.diskTransport
  · have hcount : (modify fun s' =>
        { s' with host := { s'.host with envelopes := s.host.envelopes + 1 } } :
          SiteM DirectoryHost Unit).run s =
            ((), { s with host := { s.host with envelopes := s.host.envelopes + 1 } }) := rfl
    have hwrite := writeQuietly_run (.envelope s.host.envelopes) s.host.directory
      s.host.options.runPath (merge s.host.scope .all (.obj members)).encode
      { s with host := { s.host with envelopes := s.host.envelopes + 1 } }
    rw [if_pos hdisk, if_pos hdisk]
    exact (stateM_run_bind hcount _).trans hwrite
  · rw [if_neg hdisk, if_neg hdisk]
    rfl

/-- A site where the transport was told to write what is queued, unless a fault had replaced it
before. -/
def dumped (before s : Site DirectoryHost) : Site DirectoryHost :=
  if before.host.diskTransport then s
  else withFiles { s with host := { s.host with queue := [] } }
    (saveQuietly s.host.directory s.host.options.runPath (Deed.numbered 0 s.host.queue) s.env.files)

theorem dumpQueue_eq {before : Site DirectoryHost} (h : ¬before.host.diskTransport)
    (s : Site DirectoryHost) :
    (dumpQueue s.host.options.runPath).run s = ((), dumped before s) := by
  rw [dumped, if_neg h]
  exact dumpQueue_run s.host.directory s.host.options.runPath s

theorem flush_run (s : Site DirectoryHost) :
    (External.flush (σ := DirectoryHost)).run s = ((), dumped s (announced s)) := by
  have hprior : prior (marked s) = prior s := rfl
  unfold External.flush
  rw [stateM_run_bind (writeCrashMarker_run s), stateM_run_bind (enforceDiskTransport_run _),
    stateM_run_bind (endSession_run s), hprior]
  by_cases hdisk : s.host.diskTransport
  · rw [show prior s = none from if_pos hdisk, dumped, if_pos hdisk]
    rfl
  · rw [show prior s = some dumpQueue from if_neg hdisk]
    exact (stateM_run_get _ _).trans (dumpQueue_eq hdisk (announced s))

theorem crash_run (context : FaultContext) (s : Site DirectoryHost) :
    (InProcess.capture context).run s = ((), dumped s (captured
      (merge s.host.scope .all (Deed.report context s)).encode
      { announced s with env := { (announced s).env with drawn := s.env.drawn + 1 } })) := by
  have hwalk : (InProcess.walk context).run (announced s) =
      (((InProcess.walk context).run s).1, announced s) := rfl
  have hid : (liftM Run.newUuid : SiteM DirectoryHost Uuid).run (announced s) =
      ((Run.newUuid.run s.env).1, { announced s with
        env := { (announced s).env with drawn := s.env.drawn + 1 } }) := rfl
  have htime : (liftM Run.timestamp : SiteM DirectoryHost Float).run { announced s with
        env := { (announced s).env with drawn := s.env.drawn + 1 } } =
      ((Run.timestamp.run s.env).1, { announced s with
        env := { (announced s).env with drawn := s.env.drawn + 1 } }) := rfl
  have hcapture : (Host.captureEvent (σ := DirectoryHost) (Deed.report context s)).run
        { announced s with env := { (announced s).env with drawn := s.env.drawn + 1 } } =
      ((), captured (merge s.host.scope .all (Deed.report context s)).encode
        { announced s with env := { (announced s).env with drawn := s.env.drawn + 1 } }) :=
    capture_run _ _
  unfold InProcess.capture
  rw [stateM_run_bind (announce_run s), stateM_run_bind hwalk, stateM_run_bind hid,
    stateM_run_bind htime]
  refine (stateM_run_bind hcapture _).trans ?_
  by_cases hdisk : s.host.diskTransport
  · rw [show prior s = none from if_pos hdisk, dumped, if_pos hdisk]
    rfl
  · rw [show prior s = some dumpQueue from if_neg hdisk]
    exact (stateM_run_get _ _).trans (dumpQueue_eq hdisk _)

/-- What concerns the scope alone neither queues nor writes anything. -/
theorem effect_of_scope {d : Deed} {s s' : Site DirectoryHost} (fault : d.isFault = false)
    (noEvent : d.envelope? s = none) (files : s'.env.files = s.env.files)
    (directory : s'.host.directory = s.host.directory) (options : s'.host.options = s.host.options)
    (transport : s'.host.diskTransport = s.host.diskTransport)
    (queue : s'.host.queue = s.host.queue) (envelopes : s'.host.envelopes = s.host.envelopes) :
    Effect d s s' := by
  refine ⟨?_, directory, options, ?_, ?_, ?_⟩
  · rw [files, Deed.writes, fault, noEvent]
    cases s.host.diskTransport <;> rfl
  · rw [transport, fault, Bool.or_false]
  · rw [queue, fault, noEvent]
    cases s.host.diskTransport <;> simp
  · rw [envelopes, noEvent]
    simp

theorem effect_event (members : Members Json) (s : Site DirectoryHost) :
    Effect (.event members) s
      (captured (merge s.host.scope .all (.obj members)).encode s) := by
  unfold captured
  by_cases hdisk : s.host.diskTransport
  · rw [if_pos hdisk]
    constructor <;> simp [hdisk, Deed.writes, Deed.isFault, Deed.envelope?, withFiles]
  · rw [if_neg hdisk]
    constructor <;> simp [hdisk, Deed.writes, Deed.isFault, Deed.envelope?, saveQuietly]

/-- A fault is announced and its event written, if it has one, before what is queued is dumped. -/
theorem effect_fault {d : Deed} {s s' : Site DirectoryHost} (fault : d.isFault = true)
    (host : s'.host = { s.host with
      diskTransport := true, envelopes := s.host.envelopes + (d.envelope? s).toList.length })
    (files : s'.env.files = saveQuietly s.host.directory s.host.options.runPath
      (Deed.announcement s ++
        (d.envelope? s).toList.map fun bytes => (Place.envelope s.host.envelopes, bytes))
      s.env.files) :
    Effect d s (dumped s s') := by
  have hwrites : d.writes s = Deed.announcement s ++
      ((d.envelope? s).toList.map fun bytes => (Place.envelope s.host.envelopes, bytes)) ++
      Deed.dump s.host := if_pos fault
  unfold dumped
  by_cases hdisk : s.host.diskTransport
  · have hdump : Deed.dump s.host = [] := if_pos hdisk
    rw [hdump, List.append_nil] at hwrites
    rw [if_pos hdisk]
    constructor <;> simp [hdisk, fault, host, files, hwrites]
  · have hdump : Deed.dump s.host = Deed.numbered 0 s.host.queue := if_neg hdisk
    rw [hdump, List.append_assoc] at hwrites
    rw [if_neg hdisk]
    constructor <;> simp [hdisk, fault, host, files, hwrites, withFiles, saveQuietly_append]

theorem effect_flush (s : Site DirectoryHost) : Effect .flush s (dumped s (announced s)) :=
  effect_fault rfl rfl rfl

theorem effect_crash (context : FaultContext) (s : Site DirectoryHost) :
    Effect (.crash context) s (dumped s (captured
      (merge s.host.scope .all (Deed.report context s)).encode
      { announced s with env := { (announced s).env with drawn := s.env.drawn + 1 } })) := by
  have hdisk : (announced s).host.diskTransport = true := rfl
  unfold captured
  rw [if_pos hdisk]
  refine effect_fault rfl rfl ?_
  rw [files_withFiles, saveQuietly_append]
  rfl

theorem effect_act (d : Deed) (s : Site DirectoryHost) : Effect d s (d.act.run s).2 := by
  cases d with
  | tag key value => exact effect_of_scope rfl rfl rfl rfl rfl rfl rfl rfl
  | breadcrumb value => exact effect_of_scope rfl rfl rfl rfl rfl rfl rfl rfl
  | event members =>
    rw [show (Deed.act (.event members)).run s = _ from capture_run members s]
    exact effect_event members s
  | crash context =>
    rw [show (Deed.act (.crash context)).run s = _ from crash_run context s]
    exact effect_crash context s
  | flush =>
    rw [show (Deed.act .flush).run s = _ from flush_run s]
    exact effect_flush s

def queued? : Place × Bytes → Option (Bytes × Nat)
  | (.queued i, bytes) => some (bytes, i)
  | _ => none

def saved? : Place × Bytes → Option (Bytes × Nat)
  | (.envelope n, bytes) => some (bytes, n)
  | _ => none

theorem queued?_eq_some {w : Place × Bytes} {bytes : Bytes} {i : Nat} :
    queued? w = some (bytes, i) ↔ w = (.queued i, bytes) := by
  obtain ⟨p, b⟩ := w
  cases p <;> simp [queued?, and_comm]

theorem saved?_eq_some {w : Place × Bytes} {bytes : Bytes} {n : Nat} :
    saved? w = some (bytes, n) ↔ w = (.envelope n, bytes) := by
  obtain ⟨p, b⟩ := w
  cases p <;> simp [saved?, and_comm]

theorem queued_envelope (bytes : Option Bytes) (n : Nat) :
    (bytes.toList.map fun bytes => (Place.envelope n, bytes)).filterMap queued? = [] := by
  cases bytes <;> rfl

theorem saved_envelope (bytes : Option Bytes) (n : Nat) :
    (bytes.toList.map fun bytes => (Place.envelope n, bytes)).filterMap saved? =
      bytes.toList.zipIdx n := by
  cases bytes <;> rfl

theorem queued_dump (h : DirectoryHost) :
    (Deed.dump h).filterMap queued? = if h.diskTransport then [] else h.queue.zipIdx := by
  unfold Deed.dump Deed.numbered
  split
  · rfl
  · rw [List.filterMap_map]
    exact List.filterMap_some

theorem saved_dump (h : DirectoryHost) : (Deed.dump h).filterMap saved? = [] := by
  unfold Deed.dump Deed.numbered
  split
  · rfl
  · rw [List.filterMap_map]
    exact List.filterMap_eq_nil_iff.2 fun _ _ => rfl

theorem queued_announcement (s : Site DirectoryHost) :
    (Deed.announcement s).filterMap queued? = [] := rfl

theorem saved_announcement (s : Site DirectoryHost) :
    (Deed.announcement s).filterMap saved? = [] := rfl

/-- The first fault writes what was queued, and nothing else does. -/
theorem queued_writes (d : Deed) (s : Site DirectoryHost) :
    (d.writes s).filterMap queued? =
      if s.host.diskTransport then [] else if d.isFault then s.host.queue.zipIdx else [] := by
  unfold Deed.writes
  dsimp only
  cases d.isFault with
  | true =>
    rw [if_pos rfl, List.filterMap_append, List.filterMap_append, queued_announcement,
      queued_envelope, queued_dump]
    rfl
  | false =>
    rw [if_neg Bool.false_ne_true, if_neg Bool.false_ne_true, ite_self]
    split
    · exact queued_envelope _ _
    · rfl

/-- From the first fault on what is captured is written, under the next number. -/
theorem saved_writes (d : Deed) (s : Site DirectoryHost) :
    (d.writes s).filterMap saved? =
      if s.host.diskTransport || d.isFault then (d.envelope? s).toList.zipIdx s.host.envelopes
      else [] := by
  unfold Deed.writes
  dsimp only
  cases d.isFault with
  | true =>
    rw [if_pos rfl, List.filterMap_append, List.filterMap_append, saved_announcement,
      saved_envelope, saved_dump, Bool.or_true, if_pos rfl, List.append_nil]
    rfl
  | false =>
    rw [if_neg Bool.false_ne_true, Bool.or_false]
    split
    · exact saved_envelope _ _
    · rfl

/-- What has become of the events: whether there was a fault, the events that were captured, those of
them before the first fault and from then on, and all that was written. -/
structure Account where
  faulted : Bool
  captured : List Bytes
  early : List Bytes
  late : List Bytes
  journal : List (Place × Bytes)

namespace Account

def initial : Account := ⟨false, [], [], [], []⟩

/-- A deed that is done at some site is accounted for. -/
def add (d : Deed) (s : Site DirectoryHost) (a : Account) : Account :=
  let faulted := a.faulted || d.isFault
  let new := (d.envelope? s).toList
  { faulted
    captured := a.captured ++ new
    early := if faulted then a.early else a.early ++ new
    late := if faulted then a.late ++ new else a.late
    journal := a.journal ++ d.writes s }

/-- The events that were written as they had been queued, with their numbers. -/
def queued (a : Account) : List (Bytes × Nat) := a.journal.filterMap queued?

/-- The events that were written as they came, with their numbers. -/
def saved (a : Account) : List (Bytes × Nat) := a.journal.filterMap saved?

end Account

/-- Does some deeds, and accounts for them. -/
def follow : List Deed → Site DirectoryHost × Account → Site DirectoryHost × Account
  | [], x => x
  | d :: deeds, (s, a) => follow deeds ((d.act.run s).2, a.add d s)

/-- A client, and its account, at any time after it began with some files. -/
structure Sound (directory runPath : Path) (t₀ : FileTree) (s : Site DirectoryHost) (a : Account) :
    Prop where
  inDirectory : s.host.directory = directory
  inRun : s.host.options.runPath = runPath
  transport : s.host.diskTransport = a.faulted
  queue : s.host.queue = if a.faulted then [] else a.early
  envelopes : s.host.envelopes = a.late.length
  captured : a.captured = a.early ++ a.late
  calm : a.faulted = false → a.journal = [] ∧ a.late = []
  queued : a.queued = if a.faulted then a.early.zipIdx else []
  saved : a.saved = a.late.zipIdx
  files : s.env.files = saveQuietly directory runPath a.journal t₀

variable {directory runPath : Path} {t₀ : FileTree} {a : Account} {d : Deed}
  {s' : Site DirectoryHost}

theorem Sound.step (h : Sound directory runPath t₀ s a) (effect : Effect d s s') :
    Sound directory runPath t₀ s' (a.add d s) := by
  have hqueued : (a.add d s).queued = a.queued ++ (d.writes s).filterMap queued? :=
    List.filterMap_append
  have hsaved : (a.add d s).saved = a.saved ++ (d.writes s).filterMap saved? :=
    List.filterMap_append
  rw [queued_writes, h.queued, h.transport, h.queue] at hqueued
  rw [saved_writes, h.saved, h.transport, h.envelopes] at hsaved
  constructor
  case inDirectory => rw [effect.directory, h.inDirectory]
  case inRun => rw [effect.options, h.inRun]
  case transport => rw [effect.transport, h.transport, Account.add]
  case queue =>
    rw [effect.queue, h.transport, h.queue, Account.add]
    cases a.faulted <;> cases d.isFault <;> simp
  case envelopes =>
    rw [effect.envelopes, h.transport, h.envelopes, Account.add]
    cases a.faulted <;> cases d.isFault <;> simp
  case captured =>
    rw [Account.add, h.captured]
    cases hfaulted : a.faulted || d.isFault with
    | true => simp
    | false => simp [(h.calm (Bool.or_eq_false_iff.1 hfaulted).1).2]
  case calm =>
    intro hfaulted
    obtain ⟨hbefore, hfault⟩ := Bool.or_eq_false_iff.1 hfaulted
    obtain ⟨hjournal, hlate⟩ := h.calm hbefore
    simp [Account.add, Deed.writes, h.transport, hbefore, hfault, hjournal, hlate]
  case queued =>
    rw [hqueued, Account.add]
    cases a.faulted <;> cases d.isFault <;> simp
  case saved =>
    rw [hsaved, Account.add]
    cases a.faulted <;> cases d.isFault <;> simp [List.zipIdx_append]
  case files =>
    rw [effect.files, h.inDirectory, h.inRun, h.files, Account.add, saveQuietly_append]

theorem Sound.follow {deeds : List Deed} (h : Sound directory runPath t₀ s a) :
    Sound directory runPath t₀ (follow deeds (s, a)).1 (follow deeds (s, a)).2 := by
  induction deeds generalizing s a with
  | nil => exact h
  | cons d deeds ih => exact ih (h.step (effect_act d s))

variable {options : Options} {h : DirectoryHost} {env env₀ : Environment} {t : FileTree}

/-- A client to which nothing has happened. -/
def blank (directory : Path) (options : Options) (pid : Nat) : DirectoryHost where
  options := options
  directory := directory
  user := toString pid
  tags := []
  trail := []
  queue := []
  diskTransport := false
  envelopes := 0
  consent := true

def makeDirectories (directory : Path) (options : Options) : Disk Unit := do
  Disk.createDirectories (Path.join directory envelopesDirectory)
  Disk.createDirectories options.runPath

theorem new_run (directory : Path) (options : Options) (env : Environment) :
    (new directory options).run env =
      match (makeDirectories directory options).run env.files with
      | .ok () t => (.ok (blank directory options env.pid), { env with files := t })
      | .error e t => (.error e, { env with files := t }) := by
  have hdisk := Run.disk_run (makeDirectories directory options) env
  unfold new
  cases hmade : (makeDirectories directory options).run env.files with
  | ok u t =>
    rw [hmade] at hdisk
    exact stateM_run_bind hdisk _
  | error e t =>
    rw [hmade] at hdisk
    exact stateM_run_bind hdisk _

theorem sound_new (fresh : (new directory options).run env = (.ok h, env₀)) :
    Sound directory options.runPath env₀.files ⟨h, env₀⟩ .initial := by
  rw [new_run] at fresh
  split at fresh
  · cases fresh
    exact ⟨rfl, rfl, rfl, rfl, rfl, rfl, fun _ => ⟨rfl, rfl⟩, rfl, rfl, rfl⟩
  · cases fresh

theorem mem_queued {bytes : Bytes} {i : Nat} :
    (bytes, i) ∈ a.queued ↔ (Place.queued i, bytes) ∈ a.journal := by
  simp [Account.queued, queued?_eq_some]

theorem mem_saved {bytes : Bytes} {n : Nat} :
    (bytes, n) ∈ a.saved ↔ (Place.envelope n, bytes) ∈ a.journal := by
  simp [Account.saved, saved?_eq_some]

theorem eq_of_mem_zipIdx {events : List Bytes} {bytes other : Bytes} {i : Nat}
    (h : (bytes, i) ∈ events.zipIdx) (h' : (other, i) ∈ events.zipIdx) : other = bytes := by
  rw [List.mem_zipIdx_iff_getElem?] at h h'
  exact Option.some.inj (h'.symm.trans h)

namespace Sound

theorem eq_of_queued (h : Sound directory runPath t₀ s a) {bytes other : Bytes} {i : Nat}
    (hmem : (bytes, i) ∈ a.queued) (hother : (other, i) ∈ a.queued) : other = bytes := by
  rw [h.queued] at hmem hother
  split at hmem
  · next hfaulted =>
    rw [if_pos hfaulted] at hother
    exact eq_of_mem_zipIdx hmem hother
  · cases hmem

theorem eq_of_saved (h : Sound directory runPath t₀ s a) {bytes other : Bytes} {n : Nat}
    (hmem : (bytes, n) ∈ a.saved) (hother : (other, n) ∈ a.saved) : other = bytes := by
  rw [h.saved] at hmem hother
  exact eq_of_mem_zipIdx hmem hother

/-- The queue and the files are apart, and together they are what was captured. -/
theorem once (h : Sound directory runPath t₀ s a) :
    s.host.queue ++ a.queued.map Prod.fst ++ a.saved.map Prod.fst = a.captured := by
  rw [h.queue, h.queued, h.saved, h.captured]
  split <;> simp

end Sound

/-- Each event that was captured is queued, or it was written to a file of its own, which holds it
ever since. -/
theorem events_kept_once (fresh : (new directory options).run env = (.ok h, env₀))
    (regular : Regular directory options.runPath env₀.files) {deeds : List Deed}
    (done : follow deeds (⟨h, env₀⟩, .initial) = (s, a))
    (succeeds : (save directory options.runPath a.journal).run env₀.files = .ok () t) :
    s.env.files = t ∧
      s.host.queue ++ a.queued.map Prod.fst ++ a.saved.map Prod.fst = a.captured ∧
      (if a.faulted then s.host.queue = [] ∧ a.queued = a.early.zipIdx ∧ a.saved = a.late.zipIdx
        else s.host.queue = a.captured ∧ a.journal = []) ∧
      (∀ bytes i, (bytes, i) ∈ a.queued →
        t.read (Place.path directory options.runPath (.queued i)) = .ok bytes) ∧
      ∀ bytes n, (bytes, n) ∈ a.saved →
        t.read (Place.path directory options.runPath (.envelope n)) = .ok bytes := by
  have hsound : Sound directory options.runPath env₀.files s a := by
    have hfollowed : Sound directory options.runPath env₀.files (follow deeds _).1 _ :=
      (sound_new fresh).follow
    rwa [done] at hfollowed
  obtain ⟨-, hread⟩ := regular.read_save succeeds
  refine ⟨hsound.files.trans (saveQuietly_eq succeeds), hsound.once, ?_, fun bytes i hmem => ?_,
    fun bytes n hmem => ?_⟩
  · cases hfaulted : a.faulted with
    | true => simp [hsound.queue, hsound.queued, hsound.saved, hfaulted]
    | false =>
      obtain ⟨hjournal, hlate⟩ := hsound.calm hfaulted
      simp [hsound.queue, hsound.captured, hfaulted, hjournal, hlate]
  · exact hread _ _ (mem_queued.1 hmem) fun other hother =>
      hsound.eq_of_queued hmem (mem_queued.2 hother)
  · exact hread _ _ (mem_saved.1 hmem) fun other hother =>
      hsound.eq_of_saved hmem (mem_saved.2 hother)

def rooted : Options := .withRoot "/root"

/-- A client below one directory, as it is made over some files. -/
def madeOver (files : FileTree) : Site DirectoryHost :=
  ⟨blank "/root" rooted 1, { Environment.fresh files with
    files := endState ((makeDirectories "/root" rooted).run files) }⟩

theorem new_rooted {files : FileTree} (made : (makeDirectories "/root" rooted).run files =
      .ok () (endState ((makeDirectories "/root" rooted).run files))) :
    (new "/root" rooted).run (.fresh files) = (.ok (madeOver files).host, (madeOver files).env) := by
  have hrun := new_run "/root" rooted (.fresh files)
  rw [show (Environment.fresh files).files = files from rfl, made] at hrun
  exact hrun

/-- Events before and after a fault, and another fault. -/
def someDeeds : List Deed :=
  [.event [("level", .str "info")], .tag "release" "1", .event [], .flush, .event [], .flush]

/-- The client once it has done these, with the account of them. -/
def afterDeeds (files : FileTree) : Site DirectoryHost × Account :=
  follow someDeeds (madeOver files, .initial)

theorem events_kept_once_flush :
    (afterDeeds ⟨[], []⟩).2.queued.length = 2 ∧ (afterDeeds ⟨[], []⟩).2.saved.length = 1 ∧
      (∀ bytes i, (bytes, i) ∈ (afterDeeds ⟨[], []⟩).2.queued →
        (afterDeeds ⟨[], []⟩).1.env.files.read (Place.path "/root" rooted.runPath (.queued i)) =
          .ok bytes) ∧
      ∀ bytes n, (bytes, n) ∈ (afterDeeds ⟨[], []⟩).2.saved →
        (afterDeeds ⟨[], []⟩).1.env.files.read (Place.path "/root" rooted.runPath (.envelope n)) =
          .ok bytes := by
  have hregular : Regular "/root" rooted.runPath (madeOver ⟨[], []⟩).env.files :=
    regular_of_entries (by decide +kernel)
  obtain ⟨-, -, -, hqueued, hsaved⟩ :=
    events_kept_once (new_rooted (by decide +kernel)) hregular (Prod.eta (afterDeeds ⟨[], []⟩)).symm
      (t := (afterDeeds ⟨[], []⟩).1.env.files) (by decide +kernel)
  exact ⟨by decide +kernel, by decide +kernel, hqueued, hsaved⟩

/-- A link from the place of the first event that is written to that of the session. -/
def linkedTree : FileTree where
  entries := [
    (["root"], .directory),
    (["root", "envelopes"], .directory),
    (["root", "envelopes", "0.json"], .link "../session.json")]
  workingDirectory := []

/-- All writes succeed, and the next fault writes over the event. -/
theorem event_overwritten_through_link :
    (new "/root" rooted).run (.fresh linkedTree) =
        (.ok (madeOver linkedTree).host, (madeOver linkedTree).env) ∧
      (save "/root" rooted.runPath (afterDeeds linkedTree).2.journal).run
        (madeOver linkedTree).env.files = .ok () (afterDeeds linkedTree).1.env.files ∧
      (afterDeeds linkedTree).2.saved.map Prod.snd = [0] ∧
      ∀ event ∈ (afterDeeds linkedTree).2.saved,
        (afterDeeds linkedTree).1.env.files.read
          (Place.path "/root" rooted.runPath (.envelope event.2)) ≠ .ok event.1 :=
  ⟨new_rooted (by decide +kernel), by decide +kernel, by decide +kernel, by decide +kernel⟩

end CrashCapture.DirectoryHost
