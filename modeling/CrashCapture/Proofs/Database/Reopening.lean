import CrashCapture.Proofs.Database.Opening
import CrashCapture.Proofs.Start

namespace CrashCapture

namespace Disk

open FileTree

variable {t t' : FileTree} {path : Path} {name : String}

theorem withoutSlash_join (hname : EntryName name) :
    withoutSlash (Path.join path name) = Path.join path name := by
  obtain ⟨lead, hlead⟩ := exists_lead path
  have hne : name.toList ≠ [] := by simpa using hname.ne_empty
  have hbody : Text.dropTrailing '/' (lead ++ name).toList = (lead ++ name).toList := by
    rw [String.toList_append]
    exact Text.dropTrailing_append lead.toList hname.noSlash hne
  have hempty : (String.ofList (lead ++ name).toList).isEmpty = false := by
    simp [hname.ne_empty]
  rw [hlead hname.noSlash, withoutSlash, hbody]
  simp [hname.ne_empty]

/-- Where a directory is, none can be made. -/
theorem createDirectory_of_isDirectory (hname : EntryName name)
    (h : t.isDirectory (Path.join path name) = true) :
    (createDirectory (Path.join path name)).run t = .error .alreadyExists t := by
  obtain ⟨loc, hloc, hnode⟩ := isDirectory_iff.1 h
  obtain ⟨usable, left, dir, left', henters, hlast⟩ := (locate_join_eq_ok_iff hname.noSlash).1 hloc
  have hentry : t.locate false (Path.join path name) = .ok (dir ++ [name]) :=
    (locate_entry_eq_ok_iff hname).2 ⟨usable, left, dir, henters, rfl⟩
  have hthere : ∃ node, t.node? (dir ++ [name]) = some node := by
    rcases hlast.last_cases hname.toDescends with ⟨-, ⟨rfl, -⟩ | ⟨_, target, -, -, hlink, -⟩⟩
    · exact ⟨_, hnode⟩
    · exact ⟨_, hlink⟩
  obtain ⟨node, hnode⟩ := hthere
  rw [createDirectory, withoutSlash_join hname, run_bind_ok (locate_ok hentry),
    run_bind_ok (EStateM.run_get t), hnode]
  rfl

theorem ensureDirectory_of_isDirectory (hname : EntryName name)
    (h : t.isDirectory (Path.join path name) = true) :
    (ensureDirectory (Path.join path name)).run t = .ok () t := by
  rw [ensureDirectory, run_tryCatch, createDirectory_of_isDirectory hname h]
  dsimp only
  rw [run_bind_ok (EStateM.run_get t), if_pos h]
  rfl

/-- Directories that are there are left as they are. -/
theorem createDirectories_of_isDirectory (hname : EntryName name)
    (h : t.isDirectory (Path.join path name) = true) :
    (createDirectories (Path.join path name)).run t = .ok () t := by
  have hensured := ensureDirectory_of_isDirectory hname h
  unfold createDirectories
  split
  · rfl
  · cases (Path.components (Path.join path name)).length with
    | zero => exact hensured
    | succ n => rw [ensureAbove, run_tryCatch, hensured]

theorem isDirectory_of_createDirectory (hname : EntryName name)
    (h : (createDirectory (Path.join path name)).run t = .ok () t') :
    t'.isDirectory (Path.join path name) = true := by
  rw [createDirectory, withoutSlash_join hname] at h
  cases hloc : t.locate false (Path.join path name) with
  | error e =>
    rw [run_bind_error (locate_error hloc)] at h
    cases h
  | ok loc =>
    rw [run_bind_ok (locate_ok hloc), run_bind_ok (EStateM.run_get t)] at h
    cases hnode : t.node? loc with
    | some node =>
      rw [hnode] at h
      cases h
    | none =>
      rw [hnode] at h
      cases h
      have hdug := Dug.put hloc hnode
      obtain ⟨usable, left, dir, henters, rfl⟩ := (locate_entry_eq_ok_iff hname).1 hloc
      have hmade : (t.put (dir ++ [name]) .directory).node? (dir ++ [name]) = some .directory :=
        node?_put_self (by simp) t .directory
      refine isDirectory_iff.2 ⟨dir ++ [name], ?_, hmade⟩
      refine (locate_join_eq_ok_iff hname.noSlash).2
        ⟨usable, left, dir, left, hdug.enters henters, ?_⟩
      exact .down (hdug.enters henters).2 hname.toDescends (by simp [hmade]) .done

theorem isDirectory_of_ensureDirectory (hname : EntryName name)
    (h : (ensureDirectory (Path.join path name)).run t = .ok () t') :
    t'.isDirectory (Path.join path name) = true := by
  rw [ensureDirectory, run_tryCatch] at h
  cases hmade : (createDirectory (Path.join path name)).run t with
  | ok u t₁ =>
    rw [hmade] at h
    cases h
    exact isDirectory_of_createDirectory hname hmade
  | error e t₁ =>
    rw [hmade] at h
    dsimp only at h
    rw [run_bind_ok (EStateM.run_get t₁)] at h
    split at h
    · next hdirectory =>
      cases h
      exact hdirectory
    · cases h

theorem isDirectory_of_ensureAbove (hname : EntryName name) {n : Nat}
    (h : (ensureAbove n (Path.join path name)).run t = .ok () t') :
    t'.isDirectory (Path.join path name) = true := by
  cases n with
  | zero => exact isDirectory_of_ensureDirectory hname h
  | succ n =>
    rw [ensureAbove, run_tryCatch] at h
    cases hmade : (ensureDirectory (Path.join path name)).run t with
    | ok u t₁ =>
      rw [hmade] at h
      cases h
      exact isDirectory_of_ensureDirectory hname hmade
    | error e t₁ =>
      rw [hmade] at h
      dsimp only at h
      split at h
      · split at h
        · cases h
        · obtain ⟨_, t₂, -, hlast⟩ := run_bind_eq_ok h
          exact isDirectory_of_ensureDirectory hname hlast
      · cases h

/-- After directories were made, the last of them is there. -/
theorem isDirectory_of_createDirectories (hname : EntryName name)
    (h : (createDirectories (Path.join path name)).run t = .ok () t') :
    t'.isDirectory (Path.join path name) = true := by
  unfold createDirectories at h
  split at h
  · next hempty =>
    obtain ⟨lead, hlead⟩ := exists_lead path
    rw [hlead hname.noSlash] at hempty
    simp [hname.ne_empty] at hempty
  · exact isDirectory_of_ensureAbove hname h

end Disk

namespace Database

open FileTree

variable {path : Path} {drawn : Uuid} {db : Database} {t t' : FileTree} {env env' : Environment}
  {access : Access}

/-- Nothing is in the way of the settings: the draft is no link and no device, and may be read if it is
a file. -/
structure Free (access : Access) (path : Path) (t : FileTree) : Prop extends Ready path t where
  readable : ∀ a content mode, t.locate false (draftPath path) = .ok a →
    t.node? a = some (.file content mode) → access.mayRead mode = true

/-- Writing new settings leaves the directory of the reports where it is. -/
theorem Opened.isDirectory (h : Opened path drawn db t t' access) (coherent : Coherent t)
    (ready : Ready path t) (reports : t.isDirectory (reportsPath path) = true) :
    t'.isDirectory (reportsPath path) = true := by
  cases h with
  | found read same => rwa [same]
  | made e unread fresh replaced =>
    obtain ⟨t₁, left, dir, spot, hreplacing⟩ :=
      replacing_of_run coherent (replaceSettings_full replaced)
    exact hreplacing.isDirectory_after ready reports

/-- The settings of a database that was opened can be read. -/
theorem Opened.read (h : Opened path drawn db t t' access) (coherent : Coherent t)
    (free : Free access path t) : settingsIn t' path access = .ok db.settings := by
  cases h with
  | found read same => rwa [same]
  | made e unread fresh replaced =>
    have hreplaced := replaceSettings_full replaced
    exact settingsIn_access_eq_ok_iff.2
      ⟨(settingsIn_of_replaceSettings coherent free.toReady hreplaced).1,
        readable_of_replaceSettings coherent free.toReady free.readable hreplaced⟩

/-- A database with its directories and settings is opened as it is. -/
theorem openAt_of_settings {s : Settings} (reports : env.files.isDirectory (reportsPath path) = true)
    (read : settingsIn env.files path access = .ok s) :
    ∃ env', (openAt path access).run env = (.ok ⟨path, s⟩, env') ∧ env'.files = env.files := by
  have hmade : (Disk.createDirectories (reportsPath path)).run env.files = .ok () env.files :=
    Disk.createDirectories_of_isDirectory entryName_reports reports
  rw [openAt_run, hmade]
  dsimp only
  rw [read]
  exact ⟨_, rfl, rfl⟩

/-- Opening a database, if it succeeds, leaves what it says on disk, and leaves alone all that was there
if the settings could be read. Opening it again gives the same and changes nothing. -/
theorem reopened_alike (access : Access) (coherent : Coherent env.files)
    (free : ∀ t, (Disk.createDirectories (reportsPath path)).run env.files = .ok () t →
      Free access path t)
    (opened : (openAt path access).run env = (.ok db, env')) :
    db.path = path ∧ env'.files.isDirectory (reportsPath path) = true ∧
    settingsIn env'.files path access = .ok db.settings ∧
    (∀ found s, env.files.read (settingsPath path) access = .ok found →
      Settings.parse found = .ok s → db.settings = s ∧
        env'.files.read (settingsPath path) access = .ok found ∧
        ∀ loc node, env.files.node? loc = some node → env'.files.node? loc = some node) ∧
    (∀ again, again.files = env'.files →
      ∃ last, (openAt path access).run again = (.ok db, last) ∧ last.files = again.files) ∧
    ∀ s : Settings, Settings.parse s.render = .ok s := by
  obtain ⟨hpath, t, hmade, hopened⟩ := opened_of_openAt opened
  have hfree := free t hmade
  have hdug := Disk.dug_of_made hmade
  have hreports : env'.files.isDirectory (reportsPath path) = true :=
    hopened.isDirectory (hdug.coherent coherent) hfree.toReady
      (Disk.isDirectory_of_createDirectories entryName_reports hmade)
  have hread : settingsIn env'.files path access = .ok db.settings :=
    hopened.read (hdug.coherent coherent) hfree
  refine ⟨hpath, hreports, hread, ?_, ?_, Settings.parse_render⟩
  · intro found s hfound hparse
    have hbefore : settingsIn t path access = .ok s :=
      settingsIn_eq_ok_iff.2 ⟨found, hdug.read hfound, hparse⟩
    -- Making the directories has kept the file, so the settings in it are found and nothing is written.
    cases hopened with
    | found read same =>
      rw [same]
      exact ⟨Except.ok.inj (read.symm.trans hbefore), hdug.read hfound, hdug.kept⟩
    | made e unread =>
      rw [hbefore] at unread
      cases unread
  · intro again hfiles
    rw [← hfiles] at hreports hread
    obtain ⟨last, hrun, hlast⟩ := openAt_of_settings hreports hread
    rw [← hpath] at hrun
    exact ⟨last, by rw [← hpath]; exact hrun, hlast⟩

/-- A database with settings that its owner may not read, and a draft that was left behind. -/
def locked : FileTree where
  entries := [(["db"], .directory),
    (["db", settingsFile], .file (.ofBytes (Settings.render ⟨⟨1⟩, true, none⟩)) 0o200),
    (["db", draftFile], .file (.ofBytes [123]) 0o600)]
  workingDirectory := []

/-- The settings are replaced by new ones. -/
theorem reopened_alike_locked : ∃ env',
    (openAt "db" .owner).run (.fresh locked) = (.ok ⟨"db", .fresh (.ofRandom 0)⟩, env') ∧
    settingsIn locked "db" .owner = .error (.database "db" .accessDenied) ∧
    settingsIn env'.files "db" .owner = .ok (.fresh (.ofRandom 0)) := by
  have hmade : ∃ t, (Disk.createDirectories (reportsPath "db")).run locked = .ok () t ∧
      t.locate false (draftPath "db") = .ok ["db", draftFile] ∧
      t.node? ["db", draftFile] = some (.file (.ofBytes [123]) 0o600) ∧
      t.locate false (settingsPath "db") = .ok ["db", settingsFile] ∧
      (t.contents ["db", settingsFile]).isSome := by
    refine ⟨locked.put ["db", reportsDirectory] .directory, ?_⟩
    decide +kernel
  have free : ∀ t, (Disk.createDirectories (reportsPath "db")).run locked = .ok () t →
      Free .owner "db" t := by
    intro t ht
    obtain ⟨t', ht', ha, draft, hb, settings⟩ := hmade
    obtain ⟨-, rfl⟩ := EStateM.Result.ok.inj (ht.symm.trans ht')
    refine ⟨ready_of_draft ha (by simp [draft]) (by simp [draft]) hb settings, ?_⟩
    intro a content mode ha' hfile
    obtain rfl := Except.ok.inj (ha.symm.trans ha')
    rw [draft] at hfile
    cases hfile
    decide
  have hopened : (openAt "db" .owner).run (.fresh locked) =
      (.ok ⟨"db", .fresh (.ofRandom 0)⟩, _) :=
    eq_of_fst_eq (by decide +kernel)
  obtain ⟨-, -, hread, -⟩ :=
    reopened_alike .owner (coherent_of_entries (by decide +kernel)) free hopened
  exact ⟨_, hopened, by decide +kernel, hread⟩

/-- In the place of the settings is a link to the directory that it is in. -/
def turning : FileTree where
  entries := [(["db"], .directory), (["db", settingsFile], .link ".")]
  workingDirectory := []

/-- In the place of the draft is a link to a device. -/
def drained : FileTree where
  entries := [(["db"], .directory), (["db", draftFile], .link "/dev/null"),
    (["dev"], .directory), (["dev", "null"], .device .null)]
  workingDirectory := []

/-- If the path goes along the link in the place of the settings, it leads nowhere once they are there:
the database is opened, but neither its settings nor its directory of reports can be found. If it goes
through a directory that is still to be made, it does not lead to the draft before, but it does then. -/
theorem opened_past_settings : (∃ db env',
    turning.find (draftPath "db/settings.json") = .error .notFound ∧
    (openAt "db/settings.json").run (.fresh turning) = (.ok db, env') ∧
    env'.files.isDirectory (reportsPath "db/settings.json") = false ∧
    settingsIn env'.files "db/settings.json" = .error (.database "db/settings.json" .notDirectory)) ∧
    ∃ db env',
      drained.find (draftPath "new/../db") = .error .notFound ∧
      (openAt "new/../db").run (.fresh drained) = (.ok db, env') ∧
      settingsIn env'.files "new/../db" = .error (.serialize .truncated) := by
  have hopened : (openAt "db/settings.json").run (.fresh turning) =
      (.ok ⟨"db/settings.json", .fresh (.ofRandom 0)⟩, _) :=
    eq_of_fst_eq (by decide +kernel)
  have hlost : (openAt "new/../db").run (.fresh drained) =
      (.ok ⟨"new/../db", .fresh (.ofRandom 0)⟩, _) :=
    eq_of_fst_eq (by decide +kernel)
  exact ⟨⟨_, _, by rfl, hopened, by decide +kernel, by decide +kernel⟩,
    _, _, by decide +kernel, hlost, by decide +kernel⟩

end Database

end CrashCapture
