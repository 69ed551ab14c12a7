import CrashCapture.Proofs.Chain.Dispositions
import CrashCapture.Proofs.External.Consent

namespace CrashCapture.External

open Database FileTree

variable {σ : Type} [Host σ]

theorem db_hook (b : External) (p : Machine σ) : ((hook b).run p).1.db = b.db := by
  unfold hook
  cases hreserved : (liftM Run.reservePool : MachineM σ Unit).run p with
  | mk _ q =>
    rw [stateM_run_bind hreserved]
    cases hattached : (Chain.attach (faultHandler (σ := σ))).run q with
    | mk attached r =>
      rw [stateM_run_bind hattached]
      cases attached <;> rfl

theorem db_launch (options : Options) (handler : Path) (run : RunFiles) (b : External)
    (p : Machine σ) : ((launch options handler run b).run p).1.1.db = b.db := by
  unfold launch
  rw [stateM_run_get]
  cases hlaunched : (commandFor options handler run p.site.env.pid).launch.run p with
  | mk launched q =>
    rw [stateM_run_bind hlaunched]
    cases launched with
    | error e => rfl
    | ok supervision =>
      cases hhooked : (hook { b with process := some supervision }).run q with
      | mk b' r =>
        have hdb : b'.db = b.db := by
          simpa [hhooked] using db_hook { b with process := some supervision } q
        dsimp only
        rw [stateM_run_bind hhooked]
        split <;> exact hdb

theorem fst_startup (p : Machine σ) :
    ((startup initial).run p).1 = ((tryStartup initial).run p).1.1 := by
  unfold startup
  cases htried : (tryStartup initial).run p with
  | mk r q =>
    rw [stateM_run_bind htried]
    cases r.2 <;> rfl

variable {path : Path} {p q r p' : Machine σ} {b b' : External} {first : Except Error Settings}
  {drawn : Uuid} {skip : Bool} {t t₀ : FileTree} {db db' : Database} {s' site : Site σ}
  {env env' : Environment}

theorem startup_refused {e : Error}
    (refused : (prepare (Host.options p.site.host)).run p = (.error e, q)) :
    ((startup initial).run p).1 = initial := by
  have hoptions : (MachineM.hostOptions : MachineM σ Options).run p =
      (Host.options p.site.host, p) := rfl
  rw [fst_startup, tryStartup, stateM_run_bind hoptions, stateM_run_bind refused]
  rfl

/-- The client is asked whether to skip uploads, and leaves the database alone. -/
structure Asks (path : Path) (s : Site σ) (skip : Bool) (s' : Site σ) : Prop where
  answer : (Host.shouldSkipUpload (σ := σ)).run s = (skip, s')
  untouched : Untouched path s.env.files s'.env.files

/-- A startup that opens a database, in which no operation on its files fails and nobody else writes
them. An id is drawn in it, and there are files once the directories have been made. -/
inductive Starts (path : Path) (p : Machine σ) (drawn : Uuid) (t : FileTree) (skip : Bool)
    (b : External) (p' : Machine σ) : Prop
  | intro {handler : Path} {run : RunFiles} {q : Machine σ} {db db' : Database}
      {env env' : Environment} {s' : Site σ}
      (configured : (Host.options p.site.host).databasePath = path)
      (prepared : (prepare (Host.options p.site.host)).run p = (.ok (handler, run), q))
      (before : Untouched path p.site.env.files q.site.env.files)
      (draws : drawn = .ofRandom (q.site.env.random q.site.env.drawn))
      (made : (Disk.createDirectories (reportsPath path)).run q.site.env.files = .ok () t)
      (opened : (Database.openAt path).run q.site.env = (.ok db, env))
      (asks : Asks path { q.site with env } skip s')
      (kept : (db.setUploadsEnabled !skip).run s'.env = ((db', .ok ()), env'))
      (started : (startup initial).run p = (b, p'))
      (after : Untouched path env'.files p'.site.env.files)

/-- An answer of the client, and the settings that are read once it was heard. -/
structure Reading where
  skip : Bool
  settings : Except Error Settings

/-- Sessions over one database, with all readings, the last one first. They begin with some files,
with which it is opened for the first time. A session may begin in another process than the last one. -/
inductive Life (path : Path) (t₀ : FileTree) (first : Except Error Settings) (drawn : Uuid) :
    List Reading → External → Machine σ → Prop
  | begin {p p' : Machine σ} {t : FileTree} {skip : Bool} {b : External}
      (files : p.site.env.files = t₀) (coherent : t.Coherent) (ready : Ready path t)
      (read : settingsIn t path = first) (starts : Starts path p drawn t skip b p') :
      Life path t₀ first drawn [⟨skip, settingsIn p'.site.env.files path⟩] b p'
  | startup {log : List Reading} {b b' : External} {p q p' : Machine σ} {id : Uuid} {t : FileTree}
      {skip : Bool} (life : Life path t₀ first drawn log b p)
      (between : Untouched path p.site.env.files q.site.env.files)
      (starts : Starts path q id t skip b' p') :
      Life path t₀ first drawn (⟨skip, settingsIn p'.site.env.files path⟩ :: log) b' p'
  | refused {log : List Reading} {b b' : External} {p q r p' : Machine σ} {e : Error}
      (life : Life path t₀ first drawn log b p)
      (between : Untouched path p.site.env.files q.site.env.files)
      (unprepared : (prepare (Host.options q.site.host)).run q = (.error e, r))
      (started : (External.startup initial).run q = (b', p'))
      (after : Untouched path q.site.env.files p'.site.env.files) :
      Life path t₀ first drawn log b' p'
  | consent {log : List Reading} {b b' : External} {p : Machine σ} {db db' : Database}
      {s' site : Site σ} {env : Environment} {skip : Bool}
      (life : Life path t₀ first drawn log b p)
      (hosted : b.hosted = true) (isOpen : b.db = some db) (asks : Asks path p.site skip s')
      (kept : (db.setUploadsEnabled !skip).run s'.env = ((db', .ok ()), env))
      (called : (userConsentChanged b).run p.site = (b', site)) :
      Life path t₀ first drawn (⟨skip, settingsIn site.env.files path⟩ :: log) b' { p with site }
  | shutdown {log : List Reading} {b b' : External} {p p' : Machine σ}
      (life : Life path t₀ first drawn log b p)
      (ended : (External.shutdown b).run p = (b', p')) :
      Life path t₀ first drawn log b' p'
  | meanwhile {log : List Reading} {b b' : External} {p p' : Machine σ}
      (life : Life path t₀ first drawn log b p)
      (untouched : Untouched path p.site.env.files p'.site.env.files) (same : b'.db = b.db) :
      Life path t₀ first drawn log b' p'

/-- Settings are on disk, and if the database is open they are those that it remembers. -/
structure Sound (path : Path) (settings : Settings) (b : External) (p : Machine σ) : Prop where
  stored : (Database.mk path settings).Holds p.site.env.files
  remembered : ∀ db, b.db = some db → db = ⟨path, settings⟩

/-- The settings with the consent that an answer gives. -/
def answered (settings : Settings) (skip : Bool) : Settings :=
  { settings with uploadsEnabled := !skip }

theorem kept_answered (kept : (db.setUploadsEnabled !skip).run env = ((db', .ok ()), env')) :
    db' = ⟨db.path, answered db.settings skip⟩ :=
  (kept_of_setUploadsEnabled kept).1

theorem Starts.sound (h : Starts path p drawn t skip b p') (coherent : t.Coherent)
    (ready : Ready path t) :
    Sound path (answered (origin (settingsIn t path) drawn) skip) b p' := by
  obtain @⟨handler, run, q, db, db', env, env', s', rfl, prepared, -, rfl, made, opened, asks, kept,
    started, after⟩ := h
  obtain ⟨hpath, t', hmade, hopened⟩ := opened_of_openAt opened
  obtain rfl : t = t' := by
    rw [made] at hmade
    cases hmade
    rfl
  have hdb' := kept_answered kept
  rw [hpath, hopened.settings_eq] at hdb'
  have hholds := (hopened.holds hpath coherent ready).untouched (hpath ▸ asks.untouched)
  have hb : b.db = some db' := by
    have hready : (readyDatabase _ (begun run)).run q.site = _ :=
      readyDatabase_opened opened asks.answer kept
    have hstarted := fst_startup p
    rw [started, tryStartup_run prepared hready] at hstarted
    exact (congrArg External.db hstarted).trans (db_launch _ _ _ _ _)
  refine ⟨hdb' ▸ (hholds.kept kept).untouched ?_, fun found hfound => ?_⟩
  · rw [hdb']
    exact after
  · rw [hb] at hfound
    exact (Option.some.inj hfound).symm.trans hdb'

theorem Starts.dug (h : Starts path p drawn t skip b p') :
    ∃ t₁, Untouched path p.site.env.files t₁ ∧ Dug t₁ t := by
  obtain @⟨handler, run, q, db, db', env, env', s', -, -, before, -, made, -, -, -, -, -⟩ := h
  exact ⟨q.site.env.files, before, Disk.dug_of_made made⟩

variable {settings : Settings}

theorem Sound.startup {id : Uuid} (h : Sound path settings b p)
    (between : Untouched path p.site.env.files q.site.env.files)
    (starts : Starts path q id t skip b' p') : Sound path (answered settings skip) b' p' := by
  obtain ⟨t₁, hbefore, hdug⟩ := starts.dug
  have hholds := ((h.stored.untouched between).untouched hbefore).dug hdug
  have hsound := starts.sound hholds.coherent hholds.ready
  rwa [show settingsIn t path = .ok settings from hholds.read, origin] at hsound

theorem Sound.refused {e : Error} (h : Sound path settings b p)
    (unprepared : (prepare (Host.options q.site.host)).run q = (.error e, r))
    (started : (External.startup initial).run q = (b', p'))
    (untouched : Untouched path p.site.env.files p'.site.env.files) : Sound path settings b' p' := by
  have hb' := startup_refused unprepared
  rw [started] at hb'
  subst hb'
  exact ⟨h.stored.untouched untouched, nofun⟩

theorem Sound.consent (h : Sound path settings b p) (hosted : b.hosted = true)
    (isOpen : b.db = some db) (asks : Asks path p.site skip s')
    (kept : (db.setUploadsEnabled !skip).run s'.env = ((db', .ok ()), env))
    (called : (userConsentChanged b).run p.site = (b', site)) :
    Sound path (answered settings skip) b' { p with site } := by
  obtain rfl := h.remembered db isOpen
  have hdb' := kept_answered kept
  rw [userConsentChanged_run hosted isOpen asks.answer kept] at called
  cases called
  exact ⟨hdb' ▸ (h.stored.untouched asks.untouched).kept kept,
    fun found hfound => (Option.some.inj hfound).symm.trans hdb'⟩

omit [Host σ] in
theorem Sound.shutdown (h : Sound path settings b p)
    (ended : (External.shutdown b).run p = (b', p')) : Sound path settings b' p' := by
  have hfiles : ((External.shutdown b).run p).2.site.env.files = p.site.env.files := by
    unfold External.shutdown
    split
    · exact Chain.files_detach p
    · rfl
  have hb' : ((External.shutdown b).run p).1 = initial := by
    unfold External.shutdown
    split <;> rfl
  rw [ended] at hfiles hb'
  subst hb'
  exact ⟨hfiles ▸ h.stored, nofun⟩

/-- The last settings that were read are on disk and remembered, or those of the beginning. -/
theorem Life.sound {log : List Reading} (life : Life path t₀ first drawn log b p) :
    (∃ skip, Sound path (answered (origin first drawn) skip) b p) ∧
      ∀ r ∈ log, r.settings = .ok (answered (origin first drawn) r.skip) := by
  induction life with
  | begin files coherent ready read starts =>
    subst read
    have hsound := starts.sound coherent ready
    exact ⟨⟨_, hsound⟩, List.forall_mem_singleton.2 hsound.stored.read⟩
  | startup _ between starts ih =>
    obtain ⟨⟨_, hsound⟩, hlog⟩ := ih
    have hsound' := hsound.startup between starts
    exact ⟨⟨_, hsound'⟩, List.forall_mem_cons.2 ⟨hsound'.stored.read, hlog⟩⟩
  | refused _ between unprepared started after ih =>
    obtain ⟨⟨skip, hsound⟩, hlog⟩ := ih
    exact ⟨⟨skip, hsound.refused unprepared started (between.trans after)⟩, hlog⟩
  | consent _ hosted isOpen asks kept called ih =>
    obtain ⟨⟨_, hsound⟩, hlog⟩ := ih
    have hsound' := hsound.consent hosted isOpen asks kept called
    exact ⟨⟨_, hsound'⟩, List.forall_mem_cons.2 ⟨hsound'.stored.read, hlog⟩⟩
  | shutdown _ ended ih =>
    obtain ⟨⟨skip, hsound⟩, hlog⟩ := ih
    exact ⟨⟨skip, hsound.shutdown ended⟩, hlog⟩
  | meanwhile _ untouched same ih =>
    obtain ⟨⟨skip, hsound⟩, hlog⟩ := ih
    exact ⟨⟨skip, hsound.stored.untouched untouched, same ▸ hsound.remembered⟩, hlog⟩

/-- Settings that were there before the first session are those with which the database is opened. -/
theorem Life.first_eq {log : List Reading} (life : Life path t₀ first drawn log b p)
    (h : settingsIn t₀ path = .ok settings) : first = .ok settings := by
  induction life with
  | begin files _ _ read starts =>
    obtain ⟨t₁, hbefore, hdug⟩ := starts.dug
    rw [← read]
    exact settingsIn_dug hdug (hbefore.read.trans (files ▸ h))
  | startup | refused | consent | shutdown | meanwhile => assumption

/-- After every answer the settings that are read are those that the database began with, with the
consent that was answered. -/
theorem consent_lasts {log : List Reading} (life : Life path t₀ first drawn log b p) :
    (∀ settings, settingsIn t₀ path = .ok settings → first = .ok settings) ∧
      ∀ r ∈ log, r.settings = .ok (answered (origin first drawn) r.skip) :=
  ⟨fun _ => life.first_eq, life.sound.2⟩

/-- A link in the place of the draft, with which the settings are written to a device. -/
def linked : FileTree :=
  { consented with
    entries := consented.entries ++ [
      (["dev"], .directory), (["dev", "null"], .device .null),
      (["root", "db", draftFile], .link "/dev/null")] }

/-- What a recording client has recorded once it was asked whether to skip uploads. -/
def afterAnswer (skip : Bool) (env : Environment) : Environment :=
  { env with calls := env.calls ++ [.shouldSkipUpload skip] }

theorem asks_recording (path : Path) (s : Site RecordingHost) :
    Asks path s s.host.skipUpload { s with env := afterAnswer s.host.skipUpload s.env } :=
  ⟨rfl, .refl _ _⟩

theorem starts_recording {p q : Machine RecordingHost} {handler : Path} {run : RunFiles}
    (configured : (Host.options p.site.host).databasePath = path)
    (prepared : (prepare (Host.options p.site.host)).run p = (.ok (handler, run), q))
    (skips : q.site.host.skipUpload = skip)
    (before : Untouched path p.site.env.files q.site.env.files)
    (opened : (Database.openAt path).run q.site.env = (.ok db, env))
    (kept : (db.setUploadsEnabled !skip).run (afterAnswer skip env) = ((db', .ok ()), env'))
    (after : ((startup initial).run p).2.site.env.files = env'.files) :
    ∃ t, Dug q.site.env.files t ∧
      Starts path p (.ofRandom (q.site.env.random q.site.env.drawn)) t skip
        ((startup initial).run p).1 ((startup initial).run p).2 := by
  subst skips
  obtain ⟨-, t, hmade, -⟩ := opened_of_openAt opened
  have hafter : Untouched path env'.files ((startup initial).run p).2.site.env.files := by
    rw [after]
    exact .refl _ _
  exact ⟨t, Disk.dug_of_made hmade, .intro configured prepared before rfl hmade opened
    (asks_recording path { q.site with env }) kept (Prod.eta _).symm hafter⟩

/-- The database with the consent of the earlier run, and with the one that was taken back. -/
def consentedTo (enabled : Bool) : Database := ⟨rooted.databasePath, ⟨⟨1⟩, enabled, none⟩⟩

def afterOpening (files : FileTree) : Environment :=
  ((Database.openAt rooted.databasePath).run (afterPrepare files).site.env).2

def afterReplacing (files : FileTree) : Environment :=
  (((consentedTo true).setUploadsEnabled false).run (afterAnswer true (afterOpening files))).2

theorem options_declining (files : FileTree) :
    Host.options (declining files).site.host = rooted := rfl

theorem starts_declining {files : FileTree}
    (prepared : ((prepare rooted).run (declining files)).1 = .ok ("/handler", rootedFiles))
    (skips : (afterPrepare files).site.host.skipUpload = true)
    (before : Untouched rooted.databasePath files (afterPrepare files).site.env.files)
    (opened : ((Database.openAt rooted.databasePath).run (afterPrepare files).site.env).1 =
      .ok (consentedTo true))
    (kept : (((consentedTo true).setUploadsEnabled false).run
      (afterAnswer true (afterOpening files))).1 = (consentedTo false, .ok ()))
    (after : ((startup initial).run (declining files)).2.site.env.files =
      (afterReplacing files).files) :
    ∃ drawn t, Dug (afterPrepare files).site.env.files t ∧
      Starts rooted.databasePath (declining files) drawn t true
        ((startup initial).run (declining files)).1 ((startup initial).run (declining files)).2 := by
  have hconfigured : (Host.options (declining files).site.host).databasePath =
      rooted.databasePath := congrArg Options.databasePath (options_declining files)
  have hopened : (Database.openAt rooted.databasePath).run (afterPrepare files).site.env =
      (.ok (consentedTo true), afterOpening files) := eq_of_fst_eq opened
  have hkept : ((consentedTo true).setUploadsEnabled false).run
      (afterAnswer true (afterOpening files)) = ((consentedTo false, .ok ()), afterReplacing files) :=
    eq_of_fst_eq kept
  exact ⟨_, starts_recording hconfigured (prepare_declining prepared) skips before hopened hkept
    after⟩

/-- Over the files of an earlier run that had the consent. -/
theorem begins_consented : ∃ drawn settings, Life rooted.databasePath consented
    (.ok ⟨⟨1⟩, true, none⟩) drawn [⟨true, settings⟩]
    ((startup initial).run (declining consented)).1
    ((startup initial).run (declining consented)).2 := by
  have hbefore : settingsIn consented rooted.databasePath = .ok ⟨⟨1⟩, true, none⟩ := by
    decide +kernel
  have hread : settingsIn (afterPrepare consented).site.env.files rooted.databasePath =
      .ok ⟨⟨1⟩, true, none⟩ := by
    decide +kernel
  have hcoherent : (afterPrepare consented).site.env.files.Coherent :=
    coherent_of_entries (by decide +kernel)
  have hready : Ready rooted.databasePath (afterPrepare consented).site.env.files :=
    ready_of_file (a := ["root", "db", draftFile]) (b := ["root", "db", settingsFile])
      (by decide +kernel) (by decide +kernel) (by decide +kernel) (by decide +kernel)
  obtain ⟨drawn, t, hdug, hstarts⟩ := @starts_declining consented (by decide +kernel)
    skipUpload_afterPrepare ⟨hread.trans hbefore.symm, fun _ => hready, fun _ => hcoherent⟩
    (by decide +kernel) (by decide +kernel) (by decide +kernel)
  exact ⟨drawn, _, .begin rfl (hdug.coherent hcoherent) (hready.dug hdug hread)
    (settingsIn_dug hdug hread) hstarts⟩

/-- The client, once it no longer declines uploads. -/
def willing (p : Machine RecordingHost) : Machine RecordingHost :=
  { p with site := { p.site with host := { p.site.host with skipUpload := false } } }

theorem answers_willing {log : List Reading} {p : Machine RecordingHost}
    (life : Life path t₀ first drawn log b p) (hosted : b.hosted = true) (isOpen : b.db = some db)
    (kept : ((db.setUploadsEnabled true).run (afterAnswer false p.site.env)).1 = (db', .ok ())) :
    ∃ settings b' p', Life path t₀ first drawn (⟨false, settings⟩ :: log) b'
      (p' : Machine RecordingHost) := by
  have hwilling : Life path t₀ first drawn log b (willing p) := life.meanwhile (.refl _ _) rfl
  exact ⟨_, _, _, hwilling.consent hosted isOpen (asks_recording path (willing p).site)
    (eq_of_fst_eq kept) (Prod.eta _).symm⟩

/-- Consent is taken back at the start, and given again. -/
theorem consent_lasts_consented : ∃ drawn log b p,
    Life rooted.databasePath consented (.ok ⟨⟨1⟩, true, none⟩) drawn log b
      (p : Machine RecordingHost) ∧
      log.map Reading.settings = [.ok ⟨⟨1⟩, true, none⟩, .ok ⟨⟨1⟩, false, none⟩] := by
  obtain ⟨drawn, settings, hbegun⟩ := begins_consented
  have hopen : ((startup initial).run (declining consented)).1.hosted = true ∧
      ((startup initial).run (declining consented)).1.db = some (consentedTo false) := by
    decide +kernel
  have hkept : (((consentedTo false).setUploadsEnabled true).run (afterAnswer false
      ((startup initial).run (declining consented)).2.site.env)).1 = (consentedTo true, .ok ()) := by
    decide +kernel
  obtain ⟨settings', b, p, hlife⟩ := answers_willing hbegun hopen.1 hopen.2 hkept
  refine ⟨drawn, _, b, p, hlife, ?_⟩
  have hlog := (consent_lasts hlife).2
  simp only [List.forall_mem_cons] at hlog
  obtain ⟨hsecond, hfirst, -⟩ := hlog
  simp only [List.map_cons, hsecond, hfirst]
  rfl

/-- With a link to a device in the place of the draft, the settings are lost there. -/
theorem consent_lost_to_device :
    ∃ drawn t b p, settingsIn linked rooted.databasePath = .ok ⟨⟨1⟩, true, none⟩ ∧
      Starts rooted.databasePath (declining linked) drawn t true b p ∧
      settingsIn p.site.env.files rooted.databasePath = .error (.serialize .truncated) := by
  have hread : settingsIn linked rooted.databasePath = .ok ⟨⟨1⟩, true, none⟩ ∧
      settingsIn (afterPrepare linked).site.env.files rooted.databasePath =
        .ok ⟨⟨1⟩, true, none⟩ := by
    decide +kernel
  have hlink : linked.locate false (draftPath rooted.databasePath) =
        .ok ["root", "db", draftFile] ∧
      linked.node? ["root", "db", draftFile] = some (.link "/dev/null") := by
    decide +kernel
  have hready : ¬Ready rooted.databasePath linked := fun h => (h.draft _ hlink.1).1 _ hlink.2
  have hcoherent : (afterPrepare linked).site.env.files.Coherent :=
    coherent_of_entries (by decide +kernel)
  have hafter : ((startup initial).run (declining linked)).2.site.env.files =
      (afterReplacing linked).files := by
    decide +kernel
  have hlost : settingsIn (afterReplacing linked).files rooted.databasePath =
      .error (.serialize .truncated) := by
    decide +kernel
  obtain ⟨drawn, t, -, hstarts⟩ := @starts_declining linked (by decide +kernel)
    (by decide +kernel) ⟨hread.2.trans hread.1.symm, (absurd · hready), fun _ => hcoherent⟩
    (by decide +kernel) (by decide +kernel) hafter
  refine ⟨drawn, t, _, _, hread.1, hstarts, ?_⟩
  rw [hafter]
  exact hlost

end CrashCapture.External
