import CrashCapture.Host.Recording
import CrashCapture.Proofs.Backend.Startup
import CrashCapture.Proofs.Database.Opening
import CrashCapture.Proofs.Start

namespace CrashCapture.External

open Database FileTree

variable {σ : Type}

/-- The backend as it opens the database in a startup. -/
def begun (run : RunFiles) (b : External := initial) : External :=
  { b with run := some run, hosted := true }

def logged (text : String) (env : Environment) : Environment := ((Run.debug text).run env).2

theorem mem_logged (text : String) (env : Environment) :
    text ∈ (logged text env).log.map (·.text) := by
  change text ∈ (env.log ++ [LogRecord.mk env.thread text]).map LogRecord.text
  simp

variable {path : Path} {run : RunFiles} {b : External} {s s' : Site σ} {env env' : Environment}
  {db db' : Database}

theorem openDatabase_unopened {e : Error}
    (h : (Database.openAt path).run s.env = (.error e, env)) :
    (openDatabase path b).run s =
      (b, { s with
        env := logged ("failed to initialize the report database: " ++ e.message) env }) := by
  rw [openDatabase, stateM_run_bind (run_liftM_env h)]
  rfl

theorem openDatabase_opened (h : (Database.openAt path).run s.env = (.ok db, env)) :
    (openDatabase path b).run s = ({ b with db := some db }, { s with env }) := by
  rw [openDatabase, stateM_run_bind (run_liftM_env h)]
  rfl

theorem openDatabase_host (path : Path) (b : External) (s : Site σ) :
    ((openDatabase path b).run s).2.host = s.host := by
  cases hopen : (Database.openAt path).run s.env with
  | mk result env =>
    cases result with
    | error e => rw [openDatabase_unopened hopen]
    | ok db => rw [openDatabase_opened hopen]

variable [Host σ]

theorem userConsentChanged_closed (h : b.db = none) (s : Site σ) :
    (userConsentChanged b).run s = (b, s) := by
  rw [userConsentChanged, h]
  cases b.hosted <;> rfl

theorem userConsentChanged_run (hosted : b.hosted = true) (hdb : b.db = some db)
    {skip : Bool} {outcome : Except Error Unit}
    (asked : (Host.shouldSkipUpload (σ := σ)).run s = (skip, s'))
    (kept : (db.setUploadsEnabled !skip).run s'.env = ((db', outcome), env')) :
    (userConsentChanged b).run s =
      ({ b with db := some db' }, { s' with
        env := ((logFailure "failed to update upload consent" outcome).run env').2 }) := by
  have hlog : (liftM (logFailure "failed to update upload consent" outcome) : SiteM σ Unit).run
      { s' with env := env' } = ((), { s' with
        env := ((logFailure "failed to update upload consent" outcome).run env').2 }) := rfl
  rw [userConsentChanged, hosted, hdb]
  dsimp only
  rw [stateM_run_bind asked, stateM_run_bind (run_liftM_env kept), stateM_run_bind hlog]
  rfl

theorem readyDatabase_opened {skip : Bool} {outcome : Except Error Unit}
    (h : (Database.openAt path).run s.env = (.ok db, env))
    (asked : (Host.shouldSkipUpload (σ := σ)).run { s with env } = (skip, s'))
    (kept : (db.setUploadsEnabled !skip).run s'.env = ((db', outcome), env')) :
    (readyDatabase path (begun run b)).run s =
      ({ begun run b with db := some db' }, { s' with
        env := ((logFailure "failed to update upload consent" outcome).run env').2 }) := by
  rw [readyDatabase, stateM_run_bind (openDatabase_opened h)]
  exact userConsentChanged_run rfl rfl asked kept

/-- Asked now, the client declines uploads and leaves the files alone. -/
def Declines (s : Site σ) : Prop :=
  ∃ s', (Host.shouldSkipUpload (σ := σ)).run s = (true, s') ∧ s'.env.files = s.env.files

/-- What keeps the consent on disk as it was, between two states: the directories of the database
could not be made, or the settings without the consent could not be written. Either is logged. -/
inductive LeftBehind (path : Path) (before after : Environment) : Prop
  | unmade (io : IoError) (t : FileTree)
      (failed : (Disk.createDirectories (reportsPath path)).run before.files = .error io t)
      (noted : "failed to initialize the report database: " ++ (Error.database path io).message ∈
        after.log.map (·.text))
  | unwritten (t : FileTree) (settings : Settings) (io : IoError)
      (read : settingsIn t path = .ok settings) (enabled : settings.uploadsEnabled = true)
      (failed : (replaceSettings path { settings with uploadsEnabled := false }).run t =
        .error io after.files)
      (noted : "failed to update upload consent" ++ ": " ++ (Error.database path io).message ∈
        after.log.map (·.text))

/-- The settings do not give the consent, if there are any. -/
def Declined (path : Path) (t : FileTree) : Prop :=
  ∀ settings, settingsIn t path = .ok settings → settings.uploadsEnabled = false

theorem declined_of_kept (mirrors : db.Mirrors env.files) (coherent : env.files.Coherent)
    (kept : (db.setUploadsEnabled false).run env = ((db', .ok ()), env')) :
    Declined db.path env'.files := by
  intro settings hread
  have hdb := (kept_of_setUploadsEnabled kept).1
  have hread' : settingsIn env'.files db'.path = .ok settings := by
    rw [hdb]
    exact hread
  rw [mirrors.kept coherent kept settings hread', hdb]

/-- A consent that is not given is not given by keeping that it is declined, or by failing to. -/
theorem Declined.kept {outcome : Except Error Unit} (declined : Declined db.path env.files)
    (coherent : env.files.Coherent)
    (kept : (db.setUploadsEnabled false).run env = ((db', outcome), env')) :
    Declined db.path env'.files := by
  intro settings hread
  cases outcome with
  | ok u =>
    obtain ⟨hdb, ⟨-, rfl⟩ | hreplaced⟩ := kept_of_setUploadsEnabled kept
    · exact declined settings hread
    · rw [eq_of_replaceSettings coherent hreplaced hread, hdb]
  | error e =>
    obtain ⟨-, io, -, hfailed⟩ := setUploadsEnabled_error kept
    rcases read_of_failed hfailed hread with hbefore | rfl
    · exact declined settings hbefore
    · rfl

/-- A database that could not be opened could not be made, or does not give the consent. -/
theorem unmade_or_declined {e : Error} (coherent : env.files.Coherent)
    (h : (Database.openAt path).run env = (.error e, env')) :
    (∃ io t, (Disk.createDirectories (reportsPath path)).run env.files = .error io t ∧
        e = .database path io) ∨
      Declined path env'.files ∧ env'.files.Coherent := by
  rcases openAt_error h with hunmade | ⟨t, made, _, io, hmade, hunread, hoff, hfailed⟩
  · exact .inl hunmade
  · refine .inr ⟨fun settings hread => ?_,
      coherent_of_failed ((Disk.dug_of_made hmade).coherent coherent) hfailed⟩
    rcases read_of_failed hfailed hread with hbefore | rfl
    · rw [hunread] at hbefore
      cases hbefore
    · exact hoff

/-- New settings need not be written again, so it was some that were found. -/
theorem unwritten_of_opened {drawn : Uuid} {t : FileTree} {before : Environment} {e : Error}
    (opened : Opened path drawn db t env.files) (hpath : db.path = path)
    (kept : (db.setUploadsEnabled false).run env = ((db', .error e), env')) :
    LeftBehind path before
      ((logFailure "failed to update upload consent" (.error e)).run env').2 := by
  obtain ⟨hon, io, rfl, hfailed⟩ := setUploadsEnabled_error kept
  have hon : db.settings.uploadsEnabled = true := by simpa using hon
  rw [hpath] at hfailed ⊢
  cases opened with
  | found read same =>
    rw [← same] at read
    exact .unwritten _ db.settings io read hon hfailed (mem_logged _ env')
  | made _ _ hfresh =>
    rw [hfresh] at hon
    cases hon

/-- Asking the client takes nothing out of the log. -/
def KeepsLog (σ : Type) [Host σ] : Prop :=
  ∀ s : Site σ, s.env.log ⊆ ((Host.shouldSkipUpload (σ := σ)).run s).2.env.log

theorem KeepsLog.subset {skip : Bool} (keepsLog : KeepsLog σ)
    (asked : (Host.shouldSkipUpload (σ := σ)).run s = (skip, s')) : s.env.log ⊆ s'.env.log := by
  have hlog := keepsLog s
  rwa [asked] at hlog

theorem log_logFailure (what : String) (outcome : Except Error Unit) (env : Environment) :
    env.log ⊆ ((logFailure what outcome).run env).2.log := by
  cases outcome with
  | ok u => exact List.Subset.refl _
  | error e => exact List.subset_append_left _ _

/-- A database from an earlier startup is asked when this one could not be opened. -/
theorem declined_again {e : Error} {outcome : Except Error Unit} {before asked : Environment}
    (coherent : before.files.Coherent)
    (unopened : (Database.openAt db.path).run before = (.error e, env))
    (same : asked.files = env.files)
    (log : (logged ("failed to initialize the report database: " ++ e.message) env).log ⊆ asked.log)
    (kept : (db.setUploadsEnabled false).run asked = ((db', outcome), env')) :
    let after := ((logFailure "failed to update upload consent" outcome).run env').2
    Declined db.path after.files ∨ LeftBehind db.path before after := by
  intro after
  rcases unmade_or_declined coherent unopened with ⟨io, t, hmade, rfl⟩ | ⟨declined, coherent'⟩
  · have hkept : asked.log ⊆ after.log := by
      rw [← log_setUploadsEnabled kept]
      exact log_logFailure _ outcome env'
    exact .inr (.unmade io t hmade
      (List.map_subset _ (List.Subset.trans log hkept) (mem_logged _ env)))
  · rw [← same] at declined coherent'
    have hdeclined : Declined db.path env'.files := declined.kept coherent' kept
    have hfiles : after.files = env'.files := by cases outcome <;> rfl
    exact .inl (hfiles ▸ hdeclined)

/-- Before the handler is launched, the settings on disk do not give the consent that the client
declines, or it was left behind. A database from an earlier startup is the same one. -/
theorem declined_before_launch {p q : Machine σ} {handler : Path}
    (configured : (Host.options p.site.host).databasePath = path)
    (prepared : (prepare (Host.options p.site.host)).run p = (.ok (handler, run), q))
    (coherent : q.site.env.files.Coherent)
    (again : ∀ old ∈ b.db, old.path = path ∧ KeepsLog σ)
    (declines : ∀ opened s, (openDatabase path (begun run b)).run q.site = (opened, s) →
      opened.db.isSome = true → Declines s) :
    ∃ b' r, (tryStartup b).run p =
        (launch (Host.options p.site.host) handler run b').run r ∧
      (Declined path r.site.env.files ∨ LeftBehind path q.site.env r.site.env) := by
  subst configured
  cases hopen : (Database.openAt (Host.options p.site.host).databasePath).run q.site.env with
  | mk result env =>
    cases result with
    | error e =>
      have hopened := openDatabase_unopened (b := begun run b) hopen
      have hready := stateM_run_bind hopened userConsentChanged
      cases hold : b.db with
      | none =>
        have hclosed : (begun run b).db = none := hold
        refine ⟨_, _, tryStartup_run prepared
          (hready.trans (userConsentChanged_closed hclosed _)), ?_⟩
        rcases unmade_or_declined coherent hopen with ⟨io, t, hmade, rfl⟩ | ⟨declined, -⟩
        · exact .inr (.unmade io t hmade (mem_logged _ env))
        · exact .inl declined
      | some old =>
        obtain ⟨hpath, keepsLog⟩ := again old hold
        have hdb : (begun run b).db = some old := hold
        obtain ⟨s', hasked, hfiles⟩ := declines _ _ hopened (by simp [hdb])
        cases hkept : (old.setUploadsEnabled !true).run s'.env with
        | mk result env' =>
          obtain ⟨db', outcome⟩ := result
          refine ⟨_, _, tryStartup_run prepared
            (hready.trans (userConsentChanged_run rfl hdb hasked hkept)), ?_⟩
          rw [← hpath] at hopen ⊢
          exact declined_again coherent hopen hfiles (keepsLog.subset hasked) hkept
    | ok db =>
      obtain ⟨s', hasked, hfiles⟩ := declines _ _ (openDatabase_opened hopen) rfl
      obtain ⟨hpath, t, hmade, hopened⟩ := opened_of_openAt hopen
      have hcoherent : t.Coherent := (Disk.dug_of_made hmade).coherent coherent
      -- the client has left alone what was opened
      replace hopened : Opened _ _ db t s'.env.files := hfiles ▸ hopened
      obtain ⟨hmirrors, hcoherent'⟩ := hopened.mirrors hpath hcoherent
      cases hkept : (db.setUploadsEnabled !true).run s'.env with
      | mk result env' =>
        obtain ⟨db', outcome⟩ := result
        refine ⟨_, _, tryStartup_run prepared (readyDatabase_opened hopen hasked hkept), ?_⟩
        cases outcome with
        | ok u =>
          rw [← hpath]
          exact .inl (declined_of_kept hmirrors hcoherent' hkept)
        | error e => exact .inr (unwritten_of_opened hopened hpath hkept)

/-- The options of a client below one directory. -/
def rooted : Options := (Options.withRoot "/root").withHandlerPath "/handler"

/-- Files of an earlier run of that client, which had the consent. -/
def consented : FileTree where
  entries := [
    (["handler"], .file (.ofBytes (Program.image "handler")) 0o755),
    (["root"], .directory),
    (["root", "db"], .directory),
    (["root", "db", "settings.json"], .file (.ofBytes (Settings.render ⟨⟨1⟩, true, none⟩)) 0o644)]
  workingDirectory := []

/-- The same with a directory in the place where the settings are written first. -/
def obstructed : FileTree :=
  { consented with entries := consented.entries ++ [(["root", "db", draftFile], .directory)] }

/-- The client is started over some files, and declines uploads. -/
def declining (files : FileTree) : Machine RecordingHost :=
  .initial { RecordingHost.initial rooted with skipUpload := true } (.fresh files) none ⟨0, 0⟩

def rootedFiles : RunFiles := .inside "/root/run" 100

/-- The process once the handler was found and the run files were made. -/
def afterPrepare (files : FileTree) : Machine RecordingHost :=
  ((prepare rooted).run (declining files)).2

def beforeLaunch (files : FileTree) : External × Site RecordingHost :=
  (readyDatabase rooted.databasePath (begun rootedFiles)).run (afterPrepare files).site

theorem prepare_declining {files : FileTree}
    (h : ((prepare rooted).run (declining files)).1 = .ok ("/handler", rootedFiles)) :
    (prepare (Host.options (declining files).site.host)).run (declining files) =
      (.ok ("/handler", rootedFiles), afterPrepare files) :=
  Prod.ext h rfl

theorem tryStartup_declining {files : FileTree}
    (h : ((prepare rooted).run (declining files)).1 = .ok ("/handler", rootedFiles)) :
    (tryStartup initial).run (declining files) =
      (launch rooted "/handler" rootedFiles (beforeLaunch files).1).run
        { afterPrepare files with site := (beforeLaunch files).2 } :=
  tryStartup_run (prepare_declining h) (Prod.eta _).symm

theorem declines_recording {s : Site RecordingHost} (h : s.host.skipUpload = true)
    (env : Environment) : Declines { s with env } :=
  ⟨_, Prod.ext h rfl, rfl⟩

theorem skipUpload_afterPrepare : (afterPrepare consented).site.host.skipUpload = true := by
  decide +kernel

theorem keepsLog_recording : KeepsLog RecordingHost := fun _ => List.Subset.refl _

/-- What an earlier startup of that client leaves. -/
def earlier : External := { initial with db := some ⟨rooted.databasePath, ⟨⟨1⟩, true, none⟩⟩ }

/-- The consent is taken back at the first startup, and at another one. -/
theorem declined_before_launch_consented :
    settingsIn consented rooted.databasePath = .ok ⟨⟨1⟩, true, none⟩ ∧
      ∀ b ∈ [initial, earlier], ∃ b' r, (tryStartup b).run (declining consented) =
          (launch rooted "/handler" rootedFiles b').run r ∧
        (Declined rooted.databasePath r.site.env.files ∨
          LeftBehind rooted.databasePath (afterPrepare consented).site.env r.site.env) := by
  refine ⟨by decide +kernel, fun b hb => ?_⟩
  refine declined_before_launch rfl (prepare_declining (by decide +kernel))
    (coherent_of_entries (by decide +kernel)) (fun old hold => ?_) fun opened s hopened _ => ?_
  · refine ⟨?_, keepsLog_recording⟩
    simp only [List.mem_cons, List.not_mem_nil, or_false] at hb
    rcases hb with rfl | rfl
    · cases hold
    · cases hold
      rfl
  · have hhost := openDatabase_host rooted.databasePath (begun rootedFiles b)
      (afterPrepare consented).site
    have hskip : s.host.skipUpload = true := by
      rw [← congrArg (·.2.host) hopened, hhost]
      exact skipUpload_afterPrepare
    exact declines_recording hskip s.env

/-- With a directory in the way, the handler is spawned while the settings give the consent that the
client declines. -/
theorem launched_against_declined :
    ∃ b r, (declining obstructed).site.host.skipUpload = true ∧
      (tryStartup initial).run (declining obstructed) =
        (launch rooted "/handler" rootedFiles b).run r ∧
      ((commandFor rooted "/handler" rootedFiles 1).spawn.run r).1 = .ok 2 ∧
      settingsIn r.site.env.files rooted.databasePath = .ok ⟨⟨1⟩, true, none⟩ :=
  ⟨_, _, rfl, tryStartup_declining (by decide +kernel), by decide +kernel, by decide +kernel⟩

end CrashCapture.External
