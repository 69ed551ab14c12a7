import CrashCapture.Proofs.Database.Opening
import CrashCapture.Proofs.Start
import Mathlib.Algebra.Group.Nat.Even

namespace CrashCapture.Database

open FileTree

variable {path : Path} {db db' db₀ : Database} {t t' t₀ : FileTree} {env env' : Environment}

/-- Where settings are read, the last of the two steps that replace them does not fail. -/
theorem replaceSettings_of_written {settings read : Settings} {t₁ : FileTree} {spot : Location}
    (ready : Ready path t) (hread : settingsIn t path = .ok read)
    (hspot : t.locate true (draftPath path) = .ok spot) (hfiled : Filed spot settings.render t t₁) :
    ∃ t', (Disk.rename (draftPath path) (settingsPath path)).run t₁ = .ok () t' := by
  obtain ⟨_, hfound, -⟩ := settingsIn_eq_ok_iff.1 hread
  obtain ⟨loc, hloc, hcontents⟩ := read_eq_ok_iff.1 hfound
  obtain ⟨left, dir, henters, hdraft, hsettings⟩ := located_of_draft hspot
  obtain ⟨-, _, dir₁, _, henters₁, hlast⟩ := (locate_join_eq_ok_iff entryName_draft.noSlash).1 hspot
  obtain ⟨-, rfl⟩ := henters.unique henters₁
  obtain ⟨-, _, dir₂, _, henters₂, hlast'⟩ :=
    (locate_join_eq_ok_iff entryName_settings.noSlash).1 hloc
  obtain ⟨-, rfl⟩ := henters.unique henters₂
  obtain rfl : spot = dir ++ [draftFile] := by
    rcases hlast.last_cases entryName_draft.toDescends with
      ⟨-, ⟨hspot, -⟩ | ⟨_, target, -, -, hlink, -⟩⟩
    · exact hspot
    · exact absurd hlink ((ready.draft _ hdraft).1 target)
  obtain ⟨_, _, hfile⟩ := hfiled.exists_file
  rcases rename_draft (hfiled.locate_eq_ok_iff.2 hdraft) (hfiled.locate_eq_ok_iff.2 hsettings)
    hfile with ⟨hdirectory, -⟩ | ⟨-, hmoved⟩
  · rw [hfiled.same.off _ (by simp [settingsFile, draftFile])] at hdirectory
    rcases hlast'.last_cases entryName_settings.toDescends with
      ⟨-, ⟨rfl, -⟩ | ⟨_, _, -, -, hlink, -⟩⟩
    · simp [contents, hdirectory] at hcontents
    · simp [hdirectory] at hlink
  · exact hmoved

/-- Replacing settings that are read fails before anything has changed. -/
theorem Holds.same_of_error {settings : Settings} {e : IoError} (holds : db.Holds t)
    (h : (replaceSettings db.path settings).run t = .error e t') : t' = t := by
  unfold replaceSettings at h
  rcases Disk.writeFile_filed (draftPath db.path) settings.render t with
    ⟨e, he⟩ | ⟨spot, t₁, hwrite, hspot, hfiled | ⟨rfl, -⟩⟩
  · rw [run_bind_error he] at h
    cases h
    rfl
  · obtain ⟨t₂, hrename⟩ := replaceSettings_of_written holds.ready holds.read hspot hfiled
    rw [run_bind_ok hwrite, hrename] at h
    cases h
  · rw [run_bind_ok hwrite] at h
    rcases Disk.rename_cases (draftPath db.path) (settingsPath db.path) t₁ with ⟨_, hrun⟩ | ⟨_, hrun⟩
    all_goals
      rw [hrun] at h
      cases h
    rfl

def allowing (settings : Settings) (enabled : Bool) : Settings :=
  { settings with uploadsEnabled := enabled }

def withUploads (db : Database) (enabled : Bool) : Database :=
  { db with settings := allowing db.settings enabled }

theorem setUploadsEnabled_run (db : Database) (enabled : Bool) (env : Environment) :
    (db.setUploadsEnabled enabled).run env =
      if db.settings.uploadsEnabled = enabled then ((db, .ok ()), env)
      else
        match (replaceSettings db.path (allowing db.settings enabled)).run env.files with
        | .ok _ t => ((db.withUploads enabled, .ok ()), { env with files := t })
        | .error e t =>
          ((db.withUploads enabled, .error (.database db.path e)), { env with files := t }) := by
  unfold setUploadsEnabled
  by_cases hsame : db.settings.uploadsEnabled = enabled
  · rw [if_pos hsame, if_pos hsame]
    rfl
  · rw [if_neg hsame, if_neg hsame, StateT.run_bind, writeSettings_run]
    dsimp only [allowing]
    cases (replaceSettings db.path _).run env.files <;> rfl

/-- Setting the flag that is remembered does nothing. -/
theorem setUploadsEnabled_same {enabled : Bool} (h : db.settings.uploadsEnabled = enabled)
    (env : Environment) : (db.setUploadsEnabled enabled).run env = ((db, .ok ()), env) := by
  rw [setUploadsEnabled_run, if_pos h]

/-- A call that sets the flag, and whether it succeeded. -/
structure Attempt where
  enabled : Bool
  succeeded : Bool
deriving DecidableEq, Repr

/-- The flag in memory after some calls, the latest of them first. -/
def remembered (start : Bool) : List Attempt → Bool
  | [] => start
  | call :: _ => call.enabled

/-- The flag on disk: only another one than that in memory is written. -/
def stored (start : Bool) : List Attempt → Bool
  | [] => start
  | call :: before =>
    if call.enabled ≠ remembered start before ∧ call.succeeded then call.enabled
    else stored start before

/-- How many calls have failed since the flag was written, or since the beginning. -/
def failures (start : Bool) : List Attempt → Nat
  | [] => 0
  | call :: before =>
    if call.enabled = remembered start before then failures start before
    else if call.succeeded then 0
    else failures start before + 1

/-- Two failures in a row are calls with both flags, so they bring memory and disk together again. -/
theorem stored_eq_remembered_iff (start : Bool) (log : List Attempt) :
    stored start log = remembered start log ↔ Even (failures start log) := by
  induction log with
  | nil => simp [stored, remembered, failures]
  | cons call before ih =>
    rw [stored, failures, remembered]
    by_cases hsame : call.enabled = remembered start before
    · rw [if_neg (by simp [hsame]), if_pos hsame, hsame]
      exact ih
    · rw [if_neg hsame]
      cases hok : call.succeeded with
      | true =>
        rw [if_pos ⟨hsame, rfl⟩]
        simp
      | false =>
        have hother : call.enabled = !remembered start before := Bool.eq_not.2 hsame
        rw [if_neg (by simp), if_neg Bool.false_ne_true, Nat.even_add_one, ← ih, hother]
        exact Bool.eq_not

/-- Calls on an open database. Others may come in the way of writing and make way again, but leave the
settings to it. -/
inductive Calls (db₀ : Database) (t₀ : FileTree) : List Attempt → Database → FileTree → Prop
  | begin : Calls db₀ t₀ [] db₀ t₀
  | call {log : List Attempt} {db db' : Database} {t : FileTree} {env env' : Environment}
      {enabled : Bool} {outcome : Except Error Unit} (before : Calls db₀ t₀ log db t)
      (between : Untouched db₀.path t env.files)
      (called : (db.setUploadsEnabled enabled).run env = ((db', outcome), env')) :
      Calls db₀ t₀ (⟨enabled, outcome.isOk⟩ :: log) db' env'.files

/-- What is in memory and on disk after calls. -/
structure Stands (db₀ : Database) (log : List Attempt) (db : Database) (t : FileTree) : Prop where
  memory : db = db₀.withUploads (remembered db₀.settings.uploadsEnabled log)
  disk : (db₀.withUploads (stored db₀.settings.uploadsEnabled log)).Holds t

variable {log : List Attempt} {enabled : Bool} {outcome : Except Error Unit}

theorem Stands.call (h : Stands db₀ log db t) (between : Untouched db₀.path t env.files)
    (called : (db.setUploadsEnabled enabled).run env = ((db', outcome), env')) :
    Stands db₀ (⟨enabled, outcome.isOk⟩ :: log) db' env'.files ∧
      db' = db₀.withUploads enabled ∧
      (outcome.isOk = false → enabled ≠ db.settings.uploadsEnabled ∧ env'.files = env.files) := by
  have hflag : db.settings.uploadsEnabled = remembered db₀.settings.uploadsEnabled log := by
    rw [h.memory]
    rfl
  have hpath : db.path = db₀.path := by
    rw [h.memory]
    rfl
  have hsettings : allowing db.settings enabled = allowing db₀.settings enabled := by
    rw [h.memory]
    rfl
  have hdb : db.withUploads enabled = db₀.withUploads enabled := by
    rw [h.memory]
    rfl
  have hdisk := h.disk.untouched between
  rw [setUploadsEnabled_run, hdb, hpath, hsettings] at called
  by_cases hsame : db.settings.uploadsEnabled = enabled
  · rw [if_pos hsame] at called
    cases called
    have hmemory : db = db₀.withUploads enabled := by
      rw [← hsame, hflag]
      exact h.memory
    refine ⟨⟨hmemory, ?_⟩, hmemory, nofun⟩
    rw [stored, if_neg (by simp [← hsame, hflag])]
    exact hdisk
  · have hother : enabled ≠ remembered db₀.settings.uploadsEnabled log := hflag ▸ Ne.symm hsame
    rw [if_neg hsame] at called
    cases hrun : (replaceSettings db₀.path (allowing db₀.settings enabled)).run env.files with
    | ok u t' =>
      rw [hrun] at called
      cases called
      obtain ⟨read, ready⟩ := settingsIn_of_replaceSettings hdisk.coherent hdisk.ready hrun
      refine ⟨⟨rfl, ?_⟩, rfl, nofun⟩
      rw [stored, if_pos ⟨hother, rfl⟩]
      exact ⟨read, ready, coherent_of_replaceSettings hdisk.coherent hrun⟩
    | error e t' =>
      have hfiles : t' = env.files := hdisk.same_of_error hrun
      rw [hrun] at called
      cases called
      refine ⟨⟨rfl, ?_⟩, rfl, fun _ => ⟨Ne.symm hsame, hfiles⟩⟩
      rw [stored, if_neg (by simp [Except.isOk, Except.toBool])]
      exact hfiles ▸ hdisk

theorem Calls.stands (holds : db₀.Holds t₀) (calls : Calls db₀ t₀ log db t) :
    Stands db₀ log db t := by
  induction calls with
  | begin => exact ⟨rfl, holds⟩
  | call _ between called ih => exact (ih.call between called).1

theorem Stands.agree_iff (h : Stands db₀ log db t) :
    settingsIn t db₀.path = .ok db.settings ↔ Even (failures db₀.settings.uploadsEnabled log) := by
  rw [← stored_eq_remembered_iff, h.memory]
  have hread : settingsIn t db₀.path =
      .ok (allowing db₀.settings (stored db₀.settings.uploadsEnabled log)) := h.disk.read
  rw [hread, Except.ok.injEq]
  exact ⟨congrArg Settings.uploadsEnabled, fun h => congrArg (allowing db₀.settings) h⟩

/-- The consent that is remembered is on disk if and only if an even number of calls has failed since
it was last written. A call that fails changes nothing on disk, but it is remembered, and repeating it
succeeds without writing. -/
theorem consent_on_disk_iff (holds : db₀.Holds t₀) (calls : Calls db₀ t₀ log db t) :
    let start := db₀.settings.uploadsEnabled
    db = db₀.withUploads (remembered start log) ∧
    settingsIn t db₀.path = .ok (allowing db₀.settings (stored start log)) ∧
    (settingsIn t db₀.path = .ok db.settings ↔ Even (failures start log)) ∧
    ∀ enabled env db' outcome env', Untouched db₀.path t env.files →
      (db.setUploadsEnabled enabled).run env = ((db', outcome), env') →
      db' = db₀.withUploads enabled ∧
      (outcome.isOk = true → (settingsIn env'.files db₀.path = .ok db'.settings ↔
        enabled ≠ db.settings.uploadsEnabled ∨ Even (failures start log))) ∧
      (outcome.isOk = false → enabled ≠ db.settings.uploadsEnabled ∧ env'.files = env.files ∧
        ∀ r, (db'.setUploadsEnabled enabled).run r = ((db', .ok ()), r)) := by
  intro start
  have stands := calls.stands holds
  have hflag : db.settings.uploadsEnabled = remembered start log := by
    rw [stands.memory]
    rfl
  refine ⟨stands.memory, stands.disk.read, stands.agree_iff, ?_⟩
  intro enabled env db' outcome env' between called
  obtain ⟨stands', hdb', hfailed⟩ := stands.call between called
  refine ⟨hdb', fun hok => ?_, fun herror => ?_⟩
  · rw [stands'.agree_iff, failures, hok, hflag]
    by_cases hsame : enabled = remembered start log
    · rw [if_pos hsame, or_iff_right (not_not_intro hsame)]
    · rw [if_neg hsame, if_pos rfl]
      exact iff_of_true Even.zero (.inl hsame)
  · obtain ⟨hother, hfiles⟩ := hfailed herror
    exact ⟨hother, hfiles, setUploadsEnabled_same (by rw [hdb']; rfl)⟩

/-- Settings with the consent. -/
def consenting : FileTree where
  entries := [(["db"], .directory),
    (["db", settingsFile], .file (.ofBytes (Settings.render ⟨⟨1⟩, true, none⟩)) 0o644)]
  workingDirectory := []

def blocked : FileTree :=
  { consenting with entries := consenting.entries ++ [(["db", draftFile], .directory)] }

def consentingDatabase : Database := ⟨"db", ⟨⟨1⟩, true, none⟩⟩

theorem holds_consenting : consentingDatabase.Holds consenting where
  read := by decide +kernel
  ready := ready_of_file (a := ["db", draftFile]) (b := ["db", settingsFile]) (by decide +kernel)
    (by decide +kernel) (by decide +kernel) (by decide +kernel)
  coherent := coherent_of_entries (by decide +kernel)

theorem holds_blocked : consentingDatabase.Holds blocked where
  read := by decide +kernel
  ready := by
    have hdirectory : blocked.node? ["db", draftFile] = some .directory := by decide +kernel
    exact ready_of_draft (a := ["db", draftFile]) (b := ["db", settingsFile]) (by decide +kernel)
      (by simp [hdirectory]) (by simp [hdirectory]) (by decide +kernel) (by decide +kernel)
  coherent := coherent_of_entries (by decide +kernel)

theorem Holds.alike (h : db.Holds t) (h' : db.Holds t') : Untouched db.path t t' :=
  ⟨h'.read.trans h.read.symm, fun _ => h'.ready, fun _ => h'.coherent⟩

/-- The consent can't be taken back while a directory is in the way. When it is gone, the call is
repeated and succeeds, but the consent is still on disk. -/
theorem consent_on_disk_iff_retried :
    Calls consentingDatabase consenting [⟨false, false⟩] (consentingDatabase.withUploads false)
      blocked ∧
    ((consentingDatabase.withUploads false).setUploadsEnabled false).run (.fresh consenting) =
      ((consentingDatabase.withUploads false, .ok ()), .fresh consenting) ∧
    settingsIn consenting "db" ≠ .ok (consentingDatabase.withUploads false).settings := by
  have hrefused : (replaceSettings "db" ⟨⟨1⟩, false, none⟩).run blocked =
      .error .isDirectory blocked := by
    decide +kernel
  have hcalled : (consentingDatabase.setUploadsEnabled false).run (.fresh blocked) =
      ((consentingDatabase.withUploads false, .error (.database "db" .isDirectory)),
        .fresh blocked) := by
    rw [setUploadsEnabled_run, if_neg (by decide)]
    change (match (replaceSettings "db" ⟨⟨1⟩, false, none⟩).run blocked with | _ => _) = _
    rw [hrefused]
    rfl
  have calls : Calls consentingDatabase consenting [⟨false, false⟩]
      (consentingDatabase.withUploads false) blocked :=
    Calls.begin.call (holds_consenting.alike holds_blocked) hcalled
  have hrepeated : ((consentingDatabase.withUploads false).setUploadsEnabled false).run
      (.fresh consenting) = ((consentingDatabase.withUploads false, .ok ()), .fresh consenting) :=
    setUploadsEnabled_same rfl _
  obtain ⟨-, -, -, hnext⟩ := consent_on_disk_iff holds_consenting calls
  obtain ⟨-, hagree, -⟩ := hnext _ _ _ _ _ (holds_blocked.alike holds_consenting) hrepeated
  refine ⟨calls, hrepeated, fun hread => ?_⟩
  rcases (hagree rfl).1 hread with hother | heven
  · exact hother rfl
  · exact absurd heven (by decide)

end CrashCapture.Database
