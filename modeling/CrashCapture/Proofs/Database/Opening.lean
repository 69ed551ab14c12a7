import CrashCapture.Database
import CrashCapture.Proofs.Database.Replacement
import CrashCapture.Proofs.Running

namespace CrashCapture.Database

open FileTree

variable {path : Path} {drawn : Uuid} {db db' : Database} {t t' : FileTree}
  {env env' : Environment}

/-- How a database comes to be open, once its directories are there: the settings are read, or they
are made, with an id that is drawn, and written. -/
inductive Opened (path : Path) (drawn : Uuid) (db : Database) (t t' : FileTree)
    (access : Access := .full) : Prop
  | found (read : settingsIn t path access = .ok db.settings) (same : t' = t)
  | made (e : Error) (unread : settingsIn t path access = .error e)
      (fresh : db.settings = .fresh drawn)
      (replaced : (replaceSettings path db.settings access).run t = .ok () t')

theorem writeSettings_run (db : Database) (env : Environment) {access : Access} :
    (db.writeSettings access).run env =
      match (replaceSettings db.path db.settings access).run env.files with
      | .ok _ t => (.ok (), { env with files := t })
      | .error e t => (.error (.database db.path e), { env with files := t }) := by
  have hdisk := Run.disk_run (replaceSettings db.path db.settings access) env
  revert hdisk
  unfold writeSettings
  cases (replaceSettings db.path db.settings access).run env.files with
  | ok u t =>
    intro hdisk
    rw [stateM_run_bind hdisk]
    rfl
  | error e t =>
    intro hdisk
    rw [stateM_run_bind hdisk]
    rfl

/-- How opening ends when the settings are missing or can't be read. -/
def writeNew (fresh : Database) (access : Access := .full) : Run (Except Error Database) := do
  return (← fresh.writeSettings access).map fun () => fresh

theorem replaced_of_writeNew {fresh : Database} {access : Access}
    (h : (fresh.writeNew access).run env = (.ok db, env')) : db = fresh ∧
      (replaceSettings fresh.path fresh.settings access).run env.files = .ok () env'.files := by
  rw [writeNew, StateT.run_bind, writeSettings_run] at h
  cases hreplace : (replaceSettings fresh.path fresh.settings access).run env.files with
  | ok u t =>
    rw [hreplace] at h
    cases h
    exact ⟨rfl, rfl⟩
  | error e t =>
    rw [hreplace] at h
    cases h

/-- Settings that are there but can't be read are logged. -/
def noted (e : Error) (env : Environment) : Environment :=
  match e with
  | .database _ (.os 2) => env
  | _ => (Run.debug ("discarding unreadable database settings: " ++ e.message)).run env |>.2

theorem noted_unreadable {e : Error} (h : ∀ path, e ≠ .database path (.os 2)) (env : Environment) :
    noted e env =
      ((Run.debug ("discarding unreadable database settings: " ++ e.message)).run env).2 := by
  unfold noted
  split
  · next path => exact absurd rfl (h path)
  · rfl

theorem files_noted (e : Error) (env : Environment) : (noted e env).files = env.files := by
  unfold noted
  split <;> rfl

theorem openAt_run (path : Path) (env : Environment) {access : Access} :
    (openAt path access).run env =
      match (Disk.createDirectories (reportsPath path)).run env.files with
      | .error e t => (.error (.database path e), { env with files := t })
      | .ok () t =>
        let env₁ := { env with files := t, drawn := env.drawn + 1 }
        match settingsIn t path access with
        | .ok settings => (.ok ⟨path, settings⟩, env₁)
        | .error e =>
          (writeNew ⟨path, .fresh (.ofRandom (env.random env.drawn))⟩ access).run
            (noted e env₁) := by
  have hdisk := Run.disk_run (Disk.createDirectories (reportsPath path)) env
  unfold openAt
  cases hmade : (Disk.createDirectories (reportsPath path)).run env.files with
  | error e t =>
    rw [hmade] at hdisk
    rw [stateM_run_bind hdisk]
    rfl
  | ok u t =>
    rw [hmade] at hdisk
    rw [stateM_run_bind hdisk]
    dsimp only
    have huuid : Run.newUuid.run { env with files := t } =
        (.ofRandom (env.random env.drawn), { env with files := t, drawn := env.drawn + 1 }) := rfl
    have hsettings : (readSettings path access).run { env with files := t, drawn := env.drawn + 1 } =
        (settingsIn t path access, { env with files := t, drawn := env.drawn + 1 }) := rfl
    rw [stateM_run_bind huuid, stateM_run_bind hsettings]
    cases settingsIn t path access with
    | ok settings => rfl
    | error e =>
      dsimp only
      split
      · rfl
      · next hne =>
        rw [noted_unreadable hne]
        rfl

theorem opened_of_openAt {access : Access} (h : (openAt path access).run env = (.ok db, env')) :
    db.path = path ∧ ∃ t, (Disk.createDirectories (reportsPath path)).run env.files = .ok () t ∧
      Opened path (.ofRandom (env.random env.drawn)) db t env'.files access := by
  rw [openAt_run] at h
  cases hmade : (Disk.createDirectories (reportsPath path)).run env.files with
  | error e t =>
    rw [hmade] at h
    cases h
  | ok u t =>
    rw [hmade] at h
    dsimp only at h
    cases hread : settingsIn t path access with
    | ok settings =>
      rw [hread] at h
      cases h
      exact ⟨rfl, t, rfl, .found hread rfl⟩
    | error e =>
      rw [hread] at h
      obtain ⟨rfl, hreplaced⟩ := replaced_of_writeNew h
      rw [files_noted] at hreplaced
      exact ⟨rfl, t, rfl, .made e hread rfl hreplaced⟩

/-- A database that was not opened could not be made, or its settings could neither be read nor
written. -/
theorem openAt_error {e : Error} (h : (openAt path).run env = (.error e, env')) :
    (∃ io t, (Disk.createDirectories (reportsPath path)).run env.files = .error io t ∧
        e = .database path io) ∨
      ∃ t s e io, (Disk.createDirectories (reportsPath path)).run env.files = .ok () t ∧
        settingsIn t path = .error e ∧ s.uploadsEnabled = false ∧
        (replaceSettings path s).run t = .error io env'.files := by
  rw [openAt_run] at h
  cases hmade : (Disk.createDirectories (reportsPath path)).run env.files with
  | error io t =>
    rw [hmade] at h
    cases h
    exact .inl ⟨io, t, rfl, rfl⟩
  | ok u t =>
    rw [hmade] at h
    dsimp only at h
    cases hread : settingsIn t path with
    | ok settings =>
      rw [hread] at h
      cases h
    | error e =>
      rw [hread] at h
      dsimp only at h
      rw [writeNew, StateT.run_bind, writeSettings_run, files_noted] at h
      dsimp only at h
      generalize hreplace : (replaceSettings path _).run t = result at h
      cases result with
      | ok u t' => cases h
      | error io t' =>
        cases h
        exact .inr ⟨t, _, e, io, rfl, hread, rfl, hreplace⟩

/-- The consent is kept in memory, and on disk if it is another one. -/
theorem kept_of_setUploadsEnabled {enabled : Bool}
    (h : (db.setUploadsEnabled enabled).run env = ((db', .ok ()), env')) :
    db' = { db with settings := { db.settings with uploadsEnabled := enabled } } ∧
      (db' = db ∧ env' = env ∨
        (replaceSettings db.path db'.settings).run env.files = .ok () env'.files) := by
  unfold setUploadsEnabled at h
  by_cases hsame : db.settings.uploadsEnabled = enabled
  · rw [if_pos hsame] at h
    cases h
    subst hsame
    exact ⟨rfl, .inl ⟨rfl, rfl⟩⟩
  · rw [if_neg hsame, StateT.run_bind, writeSettings_run] at h
    dsimp only at h
    generalize hrun : (replaceSettings db.path _).run env.files = result at h
    cases result with
    | ok u t =>
      cases h
      exact ⟨rfl, .inr hrun⟩
    | error e t => cases h

theorem setUploadsEnabled_error {enabled : Bool} {e : Error}
    (h : (db.setUploadsEnabled enabled).run env = ((db', .error e), env')) :
    db.settings.uploadsEnabled ≠ enabled ∧ ∃ io, e = .database db.path io ∧
      (replaceSettings db.path { db.settings with uploadsEnabled := enabled }).run env.files =
        .error io env'.files := by
  unfold setUploadsEnabled at h
  by_cases hsame : db.settings.uploadsEnabled = enabled
  · rw [if_pos hsame] at h
    cases h
  · rw [if_neg hsame, StateT.run_bind, writeSettings_run] at h
    dsimp only at h
    generalize hrun : (replaceSettings db.path _).run env.files = result at h
    cases result with
    | ok u t => cases h
    | error io t =>
      cases h
      exact ⟨hsame, io, rfl, rfl⟩

theorem log_setUploadsEnabled {enabled : Bool} {outcome : Except Error Unit}
    (h : (db.setUploadsEnabled enabled).run env = ((db', outcome), env')) : env'.log = env.log := by
  unfold setUploadsEnabled at h
  by_cases hsame : db.settings.uploadsEnabled = enabled
  · rw [if_pos hsame] at h
    cases h
    rfl
  · rw [if_neg hsame, StateT.run_bind, writeSettings_run] at h
    dsimp only at h
    generalize (replaceSettings db.path _).run env.files = result at h
    cases result <;>
      · cases h
        rfl

/-- Settings that are read are those that are remembered. -/
def Mirrors (db : Database) (t : FileTree) : Prop :=
  ∀ s, settingsIn t db.path = .ok s → s = db.settings

theorem Opened.mirrors (h : Opened path drawn db t t') (hpath : db.path = path)
    (coherent : Coherent t) :
    db.Mirrors t' ∧ Coherent t' := by
  subst hpath
  cases h with
  | found read same =>
    subst same
    exact ⟨fun s hs => Except.ok.inj (hs.symm.trans read), coherent⟩
  | made e _ _ replaced =>
    exact ⟨fun _ hs => eq_of_replaceSettings coherent replaced hs,
      coherent_of_replaceSettings coherent replaced⟩

theorem Mirrors.kept {enabled : Bool} (mirrors : db.Mirrors env.files)
    (coherent : Coherent env.files)
    (h : (db.setUploadsEnabled enabled).run env = ((db', .ok ()), env')) :
    db'.Mirrors env'.files := by
  obtain ⟨hdb, ⟨rfl, rfl⟩ | hreplaced⟩ := kept_of_setUploadsEnabled h
  · exact mirrors
  · intro s hs
    have hpath : db'.path = db.path := by rw [hdb]
    exact eq_of_replaceSettings coherent hreplaced (hpath ▸ hs)

/-- The settings that are remembered are read, and can be replaced. -/
structure Holds (db : Database) (t : FileTree) : Prop where
  read : settingsIn t db.path = .ok db.settings
  ready : Ready db.path t
  coherent : Coherent t

theorem Opened.holds (h : Opened path drawn db t t') (hpath : db.path = path) (coherent : Coherent t)
    (ready : Ready path t) : db.Holds t' := by
  subst hpath
  cases h with
  | found read same =>
    subst same
    exact ⟨read, ready, coherent⟩
  | made e _ _ replaced =>
    obtain ⟨read, ready'⟩ := settingsIn_of_replaceSettings coherent ready replaced
    exact ⟨read, ready', coherent_of_replaceSettings coherent replaced⟩

theorem Holds.kept {enabled : Bool} (holds : db.Holds env.files)
    (h : (db.setUploadsEnabled enabled).run env = ((db', .ok ()), env')) :
    db'.Holds env'.files := by
  obtain ⟨hdb, ⟨rfl, rfl⟩ | hreplaced⟩ := kept_of_setUploadsEnabled h
  · exact holds
  · have hpath : db'.path = db.path := by rw [hdb]
    obtain ⟨read, ready⟩ := settingsIn_of_replaceSettings holds.coherent holds.ready hreplaced
    exact ⟨hpath ▸ read, hpath ▸ ready, coherent_of_replaceSettings holds.coherent hreplaced⟩

theorem settingsIn_dug {s : Settings} (h : Dug t t') (read : settingsIn t path = .ok s) :
    settingsIn t' path = .ok s := by
  obtain ⟨bytes, hread, hparse⟩ := settingsIn_eq_ok_iff.1 read
  exact settingsIn_eq_ok_iff.2 ⟨bytes, h.read hread, hparse⟩

/-- Settings that can be read are no link to a directory. -/
theorem ready_of_read {found : Bytes}
    (draft : ∀ a, t.locate false (draftPath path) = .ok a →
      (∀ target, t.node? a ≠ some (.link target)) ∧ ∀ d, t.node? a ≠ some (.device d))
    (read : t.read (settingsPath path) = .ok found) : Ready path t := by
  obtain ⟨end', hend, hfound⟩ := read_eq_ok_iff.1 read
  have hplain : t.node? end' ≠ some .directory := by
    rcases hfound with hfile | ⟨hnull, -⟩
    · obtain ⟨_, _, hnode, -⟩ := contents_eq_some.1 hfile
      simp [hnode]
    · simp [hnull]
  obtain ⟨-, left, dir, left', henters, hlast⟩ :=
    (locate_join_eq_ok_iff entryName_settings.noSlash).1 hend
  refine ⟨draft, fun b target hb hlink links left'' loc hleads => ?_⟩
  obtain ⟨-, _, dir', henters', rfl⟩ := (locate_entry_eq_ok_iff entryName_settings).1 hb
  obtain ⟨-, rfl⟩ := henters.unique henters'
  rcases hlast.last_cases entryName_settings.toDescends with
    ⟨-, ⟨rfl, -, hor⟩ | ⟨n, target', -, -, hlink', honward⟩⟩
  · exact absurd hlink (hor.resolve_left nofun target)
  · obtain rfl : target = target' := by simpa [hlink] using hlink'
    rw [List.dropLast_concat] at hleads
    rw [(hleads.unique honward).1]
    exact hplain

/-- A directory that is made is no link, and makes a link to a file no link to a directory. -/
theorem ready_dug {found : Bytes} (h : Dug t t')
    (draft : ∀ a, t.locate false (draftPath path) = .ok a →
      (∀ target, t.node? a ≠ some (.link target)) ∧ ∀ d, t.node? a ≠ some (.device d))
    (read : t.read (settingsPath path) = .ok found) : Ready path t' := by
  obtain ⟨end', hend, -⟩ := read_eq_ok_iff.1 read
  obtain ⟨-, left, dir, -, henters, -⟩ :=
    (locate_join_eq_ok_iff entryName_settings.noSlash).1 hend
  refine ready_of_read (fun a ha => ?_) (h.read read)
  obtain ⟨usable, _, dir', henters', rfl⟩ := (locate_entry_eq_ok_iff entryName_draft).1 ha
  obtain ⟨-, rfl⟩ := (h.enters henters).unique henters'
  obtain ⟨noLink, noDevice⟩ := draft (dir ++ [draftFile])
    ((locate_entry_eq_ok_iff entryName_draft).2 ⟨usable, left, dir, henters, rfl⟩)
  exact ⟨fun target hn => noLink target (h.node?_eq_of_ne hn nofun),
    fun d hn => noDevice d (h.node?_eq_of_ne hn nofun)⟩

theorem Ready.dug {s : Settings} (ready : Ready path t) (h : Dug t t')
    (read : settingsIn t path = .ok s) : Ready path t' := by
  obtain ⟨found, hfound, -⟩ := settingsIn_eq_ok_iff.1 read
  exact ready_dug h ready.draft hfound

theorem Holds.dug (holds : db.Holds t) (h : Dug t t') : db.Holds t' :=
  ⟨settingsIn_dug h holds.read, holds.ready.dug h holds.read, h.coherent holds.coherent⟩

/-- The settings are read as before, and nothing came in the way of replacing them. -/
structure Untouched (path : Path) (t t' : FileTree) : Prop where
  read : settingsIn t' path = settingsIn t path
  ready : Ready path t → Ready path t'
  coherent : Coherent t → Coherent t'

theorem Untouched.refl (path : Path) (t : FileTree) : Untouched path t t := ⟨rfl, id, id⟩

theorem Untouched.trans {t'' : FileTree} (h : Untouched path t t') (h' : Untouched path t' t'') :
    Untouched path t t'' :=
  ⟨h'.read.trans h.read, h'.ready ∘ h.ready, h'.coherent ∘ h.coherent⟩

theorem Holds.untouched (holds : db.Holds t) (h : Untouched db.path t t') : db.Holds t' :=
  ⟨h.read.trans holds.read, h.ready holds.ready, h.coherent holds.coherent⟩

/-- The settings that a database has when it is first opened: those that are there, or new ones. -/
def origin (first : Except Error Settings) (drawn : Uuid) : Settings :=
  match first with
  | .ok s => s
  | .error _ => .fresh drawn

theorem Opened.settings_eq (h : Opened path drawn db t t') :
    db.settings = origin (settingsIn t path) drawn := by
  cases h with
  | found read => rw [read, origin]
  | made e unread fresh => rw [unread, origin, fresh]

end CrashCapture.Database
