import CrashCapture.Proofs.Database.Uploads

namespace CrashCapture.Database

open FileTree

variable {db db' db₀ : Database} {env env' : Environment} {enabled : Bool}

/-- A call remembers the consent, whether it succeeds or not. -/
theorem remembered_of_setUploadsEnabled {outcome : Except Error Unit}
    (called : (db.setUploadsEnabled enabled).run env = ((db', outcome), env')) :
    db' = db.withUploads enabled := by
  rw [setUploadsEnabled_run] at called
  by_cases hsame : db.settings.uploadsEnabled = enabled
  · rw [if_pos hsame] at called
    cases called
    rw [← hsame]
    rfl
  · rw [if_neg hsame] at called
    generalize (replaceSettings db.path _).run env.files = result at called
    cases result with
    | ok u t =>
      cases called
      rfl
    | error e t =>
      cases called
      rfl

/-- An open database after calls, the latest of them first. Between them anything may become of the
disk, and they may fail. -/
inductive Since (db₀ : Database) : List Bool → Database → Prop
  | opened : Since db₀ [] db₀
  | called {flags : List Bool} {db db' : Database} {enabled : Bool} {outcome : Except Error Unit}
      {env env' : Environment} (before : Since db₀ flags db)
      (called : (db.setUploadsEnabled enabled).run env = ((db', outcome), env')) :
      Since db₀ (enabled :: flags) db'

/-- Of what is in memory only the consent changes. -/
theorem Since.memory {flags : List Bool} (since : Since db₀ flags db) :
    db = db₀.withUploads (flags.headD db₀.settings.uploadsEnabled) := by
  induction since with
  | opened => rfl
  | called _ called ih =>
    rw [remembered_of_setUploadsEnabled called, ih]
    rfl

theorem allowing_eq_self_iff {s : Settings} : s = allowing s enabled ↔ s.uploadsEnabled = enabled := by
  constructor
  · exact congrArg Settings.uploadsEnabled
  · rintro rfl
    rfl

theorem allowing_eq_allowing_iff {s s' : Settings} :
    allowing s enabled = allowing s' enabled ↔
      s'.clientId = s.clientId ∧ s'.lastUploadAttempt = s.lastUploadAttempt := by
  simp [allowing, eq_comm]

/-- Another consent than the one in memory is written, with everything else from memory. -/
theorem replaced_of_setUploadsEnabled (other : db.settings.uploadsEnabled ≠ enabled)
    (called : (db.setUploadsEnabled enabled).run env = ((db', .ok ()), env')) :
    (replaceSettings db.path (allowing db.settings enabled)).run env.files = .ok () env'.files := by
  obtain ⟨hdb, ⟨hkept, -⟩ | hreplaced⟩ := kept_of_setUploadsEnabled called
  · exact absurd (congrArg (·.settings.uploadsEnabled) (hkept.symm.trans hdb)) other
  · rw [hdb] at hreplaced
    exact hreplaced

/-- A call that succeeds keeps the consent and what the handler has recorded, if and only if the
handler has left alone what the call relies on: the consent on disk if that in memory is the same
already, and otherwise the id and the time of the last upload from when the database was opened. -/
theorem recorded_kept_iff {flags : List Bool} (since : Since db₀ flags db) {recorded : Settings}
    (coherent : Coherent env.files) (read : settingsIn env.files db₀.path = .ok recorded)
    (called : (db.setUploadsEnabled enabled).run env = ((db', .ok ()), env')) :
    let cached := flags.headD db₀.settings.uploadsEnabled
    let after := settingsIn env'.files db₀.path
    (cached = enabled → env' = env) ∧
    (cached ≠ enabled → ∀ s, after = .ok s → s = allowing db₀.settings enabled) ∧
    (Ready db₀.path env.files →
      after = .ok (if cached = enabled then recorded else allowing db₀.settings enabled) ∧
      (after = .ok (allowing recorded enabled) ↔
        if cached = enabled then recorded.uploadsEnabled = enabled
        else recorded.clientId = db₀.settings.clientId ∧
          recorded.lastUploadAttempt = db₀.settings.lastUploadAttempt)) := by
  intro cached after
  obtain rfl := since.memory
  by_cases hsame : cached = enabled
  · rw [setUploadsEnabled_same hsame] at called
    cases called
    refine ⟨fun _ => rfl, fun hother => absurd hsame hother, fun _ => ?_⟩
    rw [if_pos hsame, if_pos hsame]
    refine ⟨read, ?_⟩
    change settingsIn env.files db₀.path = _ ↔ _
    rw [read, Except.ok.injEq]
    exact allowing_eq_self_iff
  · have hother : (db₀.withUploads cached).settings.uploadsEnabled ≠ enabled := hsame
    have hreplaced := replaced_of_setUploadsEnabled hother called
    change (replaceSettings db₀.path (allowing db₀.settings enabled)).run env.files = _ at hreplaced
    refine ⟨fun h => absurd h hsame, fun _ s hs => eq_of_replaceSettings coherent hreplaced hs,
      fun ready => ?_⟩
    have hafter : after = .ok (allowing db₀.settings enabled) :=
      (settingsIn_of_replaceSettings coherent ready hreplaced).1
    rw [if_neg hsame, if_neg hsame, hafter]
    refine ⟨rfl, ?_⟩
    rw [Except.ok.injEq]
    exact allowing_eq_allowing_iff

/-- A database in which somebody has put settings. -/
def holding (s : Settings) : FileTree where
  entries := [(["db"], .directory), (["db", settingsFile], .file (.ofBytes s.render) 0o644)]
  workingDirectory := []

theorem holds_holding (s : Settings) : (⟨"db", s⟩ : Database).Holds (holding s) := by
  have hdraft : (holding s).locate false (draftPath "db") = .ok ["db", draftFile] := by rfl
  have hsettings (followLast : Bool) :
      (holding s).locate followLast (settingsPath "db") = .ok ["db", settingsFile] := by
    cases followLast <;> rfl
  have hcontents : (holding s).contents ["db", settingsFile] = some s.render :=
    contents_eq_some.2 ⟨.ofBytes s.render, 0o644, rfl, Content.bytes_ofBytes s.render⟩
  refine ⟨?_, ?_, ?_⟩
  · exact settingsIn_eq_ok_iff.2
      ⟨s.render, read_eq_ok_iff.2 ⟨_, hsettings true, .inl hcontents⟩, s.parse_render⟩
  · exact ready_of_file hdraft rfl (hsettings false) (Option.isSome_iff_exists.2 ⟨_, hcontents⟩)
  · refine coherent_of_entries fun e he => .inr ?_
    rcases List.mem_cons.1 he with rfl | he
    · rfl
    · rw [List.mem_singleton.1 he]
      rfl

/-- The time of an upload is gone when the consent is taken back. A consent that the handler has taken
back is not given again, though the call says so. -/
theorem recorded_kept_iff_lost :
    ((consentingDatabase.setUploadsEnabled false).run (.fresh (holding ⟨⟨1⟩, true, some 5⟩)) =
        ((consentingDatabase.withUploads false, .ok ()), .fresh (holding ⟨⟨1⟩, false, none⟩)) ∧
      settingsIn (holding ⟨⟨1⟩, false, none⟩) "db" ≠ .ok ⟨⟨1⟩, false, some 5⟩) ∧
    (consentingDatabase.setUploadsEnabled true).run (.fresh (holding ⟨⟨1⟩, false, none⟩)) =
        ((consentingDatabase, .ok ()), .fresh (holding ⟨⟨1⟩, false, none⟩)) ∧
      settingsIn (holding ⟨⟨1⟩, false, none⟩) "db" ≠ .ok ⟨⟨1⟩, true, none⟩ := by
  constructor
  · have hholds := holds_holding ⟨⟨1⟩, true, some 5⟩
    have hreplaced : (replaceSettings "db" ⟨⟨1⟩, false, none⟩).run (holding ⟨⟨1⟩, true, some 5⟩) =
        .ok () (holding ⟨⟨1⟩, false, none⟩) := by
      decide +kernel
    have called : (consentingDatabase.setUploadsEnabled false).run
        (.fresh (holding ⟨⟨1⟩, true, some 5⟩)) =
          ((consentingDatabase.withUploads false, .ok ()), .fresh (holding ⟨⟨1⟩, false, none⟩)) := by
      rw [setUploadsEnabled_run, if_neg (by decide)]
      change (match (replaceSettings "db" ⟨⟨1⟩, false, none⟩).run (holding ⟨⟨1⟩, true, some 5⟩) with
        | _ => _) = _
      rw [hreplaced]
      rfl
    obtain ⟨-, -, hkept⟩ := recorded_kept_iff .opened hholds.coherent hholds.read called
    obtain ⟨-, hiff⟩ := hkept hholds.ready
    exact ⟨called, fun h => absurd (hiff.1 h) (by decide)⟩
  · have hholds := holds_holding ⟨⟨1⟩, false, none⟩
    have called : (consentingDatabase.setUploadsEnabled true).run
        (.fresh (holding ⟨⟨1⟩, false, none⟩)) =
          ((consentingDatabase, .ok ()), .fresh (holding ⟨⟨1⟩, false, none⟩)) :=
      setUploadsEnabled_same rfl _
    obtain ⟨-, -, hkept⟩ := recorded_kept_iff .opened hholds.coherent hholds.read called
    obtain ⟨-, hiff⟩ := hkept hholds.ready
    exact ⟨called, fun h => absurd (hiff.1 h) (by decide)⟩

end CrashCapture.Database
