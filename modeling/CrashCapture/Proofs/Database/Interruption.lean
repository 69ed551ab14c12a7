import CrashCapture.Proofs.Database.Reopening
import CrashCapture.Proofs.Database.Sharing

namespace CrashCapture.Database

open FileTree

variable {path : Path} {settings : Settings} {t t' t₀ : FileTree} {a b spot loc : Location}
  {bytes : Bytes}

/-- How far an attempt to replace the settings has come. -/
inductive Stage
  | opening
  | writing (spot : Location) (written : Bytes)
  | failed (e : IoError)
  | done
deriving DecidableEq

/-- An attempt that was begun in a tree, at a stage, and what there is then. Every step may fail, for
whatever reason, and an attempt may be cut off between any two steps. -/
inductive Rewrite (path : Path) (settings : Settings) (t : FileTree) : Stage → FileTree → Prop
  | begun : Rewrite path settings t .opening t
  | unopened (e : IoError) : Rewrite path settings t (.failed e) t
  | opened {spot : Location} {t₁ : FileTree}
      (ran : (Disk.openTruncated (draftPath path)).run t = .ok spot t₁) :
      Rewrite path settings t (.writing spot []) t₁
  | wrote {spot : Location} {written more : Bytes} {t₁ t₂ : FileTree}
      (before : Rewrite path settings t (.writing spot written) t₁)
      (within : written ++ more <+: settings.render)
      (ran : (Disk.write spot more).run t₁ = .ok () t₂) :
      Rewrite path settings t (.writing spot (written ++ more)) t₂
  | unwritten {spot : Location} {written : Bytes} {t₁ : FileTree} (e : IoError)
      (before : Rewrite path settings t (.writing spot written) t₁) :
      Rewrite path settings t (.failed e) t₁
  | moved {spot : Location} {t₁ t₂ : FileTree}
      (before : Rewrite path settings t (.writing spot settings.render) t₁)
      (ran : (Disk.rename (draftPath path) (settingsPath path)).run t₁ = .ok () t₂) :
      Rewrite path settings t .done t₂

/-- What comes of replacing the settings if nothing hinders it. -/
def stageOf : EStateM.Result IoError FileTree Unit → Stage
  | .ok _ _ => .done
  | .error e _ => .failed e

theorem openTruncated_error {e : IoError}
    (h : (Disk.openTruncated (draftPath path)).run t = .error e t') : t' = t := by
  rcases Disk.openOrCreate_cases (fun _ => .empty) (draftPath path) t with
    ⟨e, he⟩ | ⟨loc, -, ⟨old, mode, -, hrun⟩ | ⟨d, -, hrun⟩ | ⟨-, hrun⟩⟩
  · rw [Disk.openTruncated, he] at h
    cases h
    rfl
  all_goals
    rw [Disk.openTruncated, hrun] at h
    cases h

theorem write_error {e : IoError} (h : (Disk.write spot bytes).run t = .error e t') : t' = t := by
  rw [Disk.write, run_bind_ok (EStateM.run_get t)] at h
  split at h
  · cases h
  · split at h
    · cases h
    · cases h
      rfl
  · cases h

/-- Replacing the settings is an attempt. -/
theorem rewrite_of_run (path : Path) (settings : Settings) (t : FileTree) :
    Rewrite path settings t (stageOf ((replaceSettings path settings).run t))
      (endState ((replaceSettings path settings).run t)) := by
  unfold replaceSettings Disk.writeFile
  rw [bind_assoc]
  cases hopen : (Disk.openTruncated (draftPath path)).run t with
  | error e t₁ =>
    rw [run_bind_error hopen, openTruncated_error hopen]
    exact .unopened e
  | ok spot t₁ =>
    rw [run_bind_ok hopen]
    have hopened : Rewrite path settings t (.writing spot []) t₁ := .opened hopen
    cases hwrite : (Disk.write spot settings.render).run t₁ with
    | error e t₂ =>
      rw [run_bind_error hwrite, write_error hwrite]
      exact .unwritten e hopened
    | ok u t₂ =>
      rw [run_bind_ok hwrite]
      have hwritten : Rewrite path settings t (.writing spot settings.render) t₂ :=
        hopened.wrote (List.prefix_refl _) hwrite
      rcases hmove : (Disk.rename (draftPath path) (settingsPath path)).run t₂ with ⟨_, t₃⟩ | ⟨e, t₃⟩
      · exact hwritten.moved hmove
      · rcases Disk.rename_cases (draftPath path) (settingsPath path) t₂ with
          ⟨e', hrun⟩ | ⟨t₄, hrun⟩
        · rw [hrun] at hmove
          cases hmove
          exact hwritten.unwritten e
        · rw [hrun] at hmove
          cases hmove

/-- No link in the place of the settings passes the draft. -/
structure Apart (path : Path) (t : FileTree) : Prop extends Ready path t where
  elsewhere : ∀ a b target links, t.locate false (draftPath path) = .ok a →
    t.locate false (settingsPath path) = .ok b → t.node? b = some (.link target) →
      ¬Visits t a links (start b.dropLast target) (pieces target)

/-- The draft can be written. -/
structure Writable (path : Path) (t : FileTree) (left : Nat) (dir : Location) : Prop where
  coherent : Coherent t
  apart : Apart path t
  usable : Usable (draftPath path)
  enters : Enters t path left dir
  free : t.node? (dir ++ [draftFile]) ≠ some .directory

/-- Only the draft and the settings are changed, and the settings are no more and no less a directory
than before. -/
structure Kept (dir : Location) (t t' : FileTree) : Prop where
  same : SameOff (OfSettings dir) t t'
  directory : t'.node? (dir ++ [settingsFile]) = some .directory ↔
    t.node? (dir ++ [settingsFile]) = some .directory

variable {left : Nat} {dir : Location} {stage : Stage} {w : Bytes}

theorem Kept.refl (dir : Location) (t : FileTree) : Kept dir t t := ⟨⟨fun _ _ => rfl, rfl⟩, .rfl⟩

theorem Kept.trans {t'' : FileTree} (h : Kept dir t t') (h' : Kept dir t' t'') : Kept dir t t'' :=
  ⟨⟨fun loc hloc => (h'.same.off loc hloc).trans (h.same.off loc hloc),
    h'.same.workingDirectory.trans h.same.workingDirectory⟩, h'.directory.trans h.directory⟩

theorem kept_of_filed (h : Filed (dir ++ [draftFile]) w t t') : Kept dir t t' := by
  have hne : dir ++ [settingsFile] ≠ dir ++ [draftFile] := by simp [settingsFile, draftFile]
  refine ⟨⟨fun loc hloc => h.same.off loc fun heq => hloc (.inl heq), h.wrote.workingDirectory⟩, ?_⟩
  rw [h.same.off _ hne]

namespace Writable

theorem located_draft (h : Writable path t left dir) :
    t.locate false (draftPath path) = .ok (dir ++ [draftFile]) :=
  (locate_entry_eq_ok_iff entryName_draft).2 ⟨h.usable, left, dir, h.enters, rfl⟩

theorem located_settings (h : Writable path t left dir) :
    t.locate false (settingsPath path) = .ok (dir ++ [settingsFile]) :=
  (locate_entry_eq_ok_iff entryName_settings).2
    ⟨usable_settings h.usable, left, dir, h.enters, rfl⟩

theorem draft_cases (h : Writable path t left dir) :
    t.node? (dir ++ [draftFile]) = none ∨
      ∃ content mode, t.node? (dir ++ [draftFile]) = some (.file content mode) := by
  obtain ⟨noLink, noDevice⟩ := h.apart.draft _ h.located_draft
  rcases hnode : t.node? (dir ++ [draftFile]) with _ | (_ | ⟨content, mode⟩ | target | d)
  · exact .inl rfl
  · exact absurd hnode h.free
  · exact .inr ⟨content, mode, rfl⟩
  · exact absurd hnode (noLink target)
  · exact absurd hnode (noDevice d)

theorem draft_followed (h : Writable path t left dir) :
    t.locate true (draftPath path) = .ok (dir ++ [draftFile]) :=
  locate_entry_of_noLink entryName_draft h.located_draft (h.apart.draft _ h.located_draft).1

/-- The way to the settings does not pass the draft. -/
theorem unvisited (h : Writable path t left dir) :
    ¬Visits t (dir ++ [draftFile]) left dir [settingsFile] := by
  have hname := entryName_settings
  have hsettings := h.located_settings
  have hne : dir ++ [settingsFile] ≠ dir ++ [draftFile] := by simp [settingsFile, draftFile]
  have hdir : dir ≠ dir ++ [draftFile] := by simp
  have helsewhere := fun target links =>
    h.apart.elsewhere _ _ target links h.located_draft hsettings
  intro hvisits
  -- The way is a single name: it ends in the place of the settings, which is another one, or goes
  -- along the link there, which `elsewhere` excludes.
  generalize settingsFile = name, dir ++ [draftFile] = a at *
  cases hvisits with
  | here => exact hdir rfl
  | stay _ names => exact absurd names (by simp [hname.ne_empty, hname.ne_here])
  | up => exact hname.ne_above rfl
  | down _ _ _ onward =>
    generalize dir ++ [name] = b at hne onward
    cases onward with
    | here => exact hne rfl
  | @follow links _ _ _ target _ _ link onward =>
    rw [List.append_nil] at onward
    refine helsewhere target links link ?_
    rwa [List.dropLast_concat]

theorem read_of_filed (h : Writable path t left dir) (hfiled : Filed (dir ++ [draftFile]) w t t') :
    t'.read (settingsPath path) = t.read (settingsPath path) := by
  have usable := usable_settings h.usable
  have henters : Enters t' path left dir := hfiled.enters_iff.2 h.enters
  have hlocate : t.locate true (settingsPath path) = t.walk true left dir [settingsFile] :=
    locate_join_of_enters entryName_settings.noSlash usable h.enters
  have hlocate' : t'.locate true (settingsPath path) = t'.walk true left dir [settingsFile] :=
    locate_join_of_enters entryName_settings.noSlash usable henters
  refine read_congr ?_ ?_
  · rw [hlocate, hlocate']
    exact walk_of_unvisited hfiled.same hfiled.plain_before hfiled.plain_after h.unvisited
  · intro loc hloc
    rw [hlocate] at hloc
    obtain ⟨_, hleads⟩ := walk_eq_ok_iff.1 hloc
    refine hfiled.same.off loc ?_
    rintro rfl
    exact h.unvisited hleads.visits

theorem filed (h : Writable path t left dir) (hfiled : Filed (dir ++ [draftFile]) w t t') :
    Writable path t' left dir := by
  have hne : dir ++ [settingsFile] ≠ dir ++ [draftFile] := by simp [settingsFile, draftFile]
  obtain ⟨_, _, hfile⟩ := hfiled.exists_file
  have hdraft : ∀ a, t'.locate false (draftPath path) = .ok a → a = dir ++ [draftFile] := by
    intro a ha
    exact Except.ok.inj ((hfiled.locate_eq_ok_iff.1 ha).symm.trans h.located_draft)
  have hsettings : ∀ b, t'.locate false (settingsPath path) = .ok b → b = dir ++ [settingsFile] := by
    intro b hb
    exact Except.ok.inj ((hfiled.locate_eq_ok_iff.1 hb).symm.trans h.located_settings)
  refine ⟨?_, ⟨⟨?_, ?_⟩, ?_⟩, h.usable, ?_, hfiled.plain_after.noDirectory⟩
  · exact hfiled.coherent h.coherent ⟨dir, draftFile, rfl, h.enters.2⟩
  · intro a ha
    rw [hdraft a ha, hfile]
    simp
  · intro b target hb hlink links left' loc hleads
    obtain rfl := hsettings b hb
    rw [hfiled.same.off _ hne] at hlink
    have hbefore := h.apart.settings _ target h.located_settings hlink links left' loc
      (hfiled.leads_iff.1 hleads)
    by_cases hloc : loc = dir ++ [draftFile]
    · rw [hloc, hfile]
      simp
    · rwa [hfiled.same.off loc hloc]
  · intro a b target links ha hb hlink hvisits
    obtain rfl := hdraft a ha
    obtain rfl := hsettings b hb
    rw [hfiled.same.off _ hne] at hlink
    have same : SameOff (· = dir ++ [draftFile]) t' t := hfiled.same.symm
    exact h.apart.elsewhere _ _ target links h.located_draft h.located_settings hlink
      (hvisits.of_same same hfiled.plain_after hfiled.plain_before)
  · exact hfiled.enters_iff.2 h.enters

end Writable

/-- How far replacing the settings has come, and what it has done until then to the draft. -/
def Progress (path : Path) (settings : Settings) (left : Nat) (dir : Location) (t : FileTree) :
    Stage → FileTree → Prop
  | .opening, t' => t' = t
  | .writing spot written, t' => spot = dir ++ [draftFile] ∧ Filed spot written t t'
  | .failed _, t' => t' = t ∨ ∃ written, Filed (dir ++ [draftFile]) written t t'
  | .done, t' => ∃ t₁, Replacing path settings.render t t₁ t' left dir (dir ++ [draftFile])

theorem Writable.opened (h : Writable path t left dir)
    (ran : (Disk.openTruncated (draftPath path)).run t = .ok spot t') :
    spot = dir ++ [draftFile] ∧ Filed spot [] t t' := by
  rcases Disk.openOrCreate_cases (fun _ => .empty) (draftPath path) t with
    ⟨e, he⟩ | ⟨loc, hloc, hcases⟩
  · rw [Disk.openTruncated, he] at ran
    cases ran
  · obtain rfl := Except.ok.inj (hloc.symm.trans h.draft_followed)
    have hempty : Content.bytes .empty = [] := rfl
    rw [Disk.openTruncated] at ran
    rcases hcases with ⟨old, mode, hfile, hrun⟩ | ⟨d, hdevice, -⟩ | ⟨hnone, hrun⟩
    · rw [hrun] at ran
      cases ran
      exact ⟨rfl, hempty ▸ filed_put (.inr ⟨old, mode, hfile⟩) .empty mode⟩
    · exact absurd hdevice ((h.apart.draft _ h.located_draft).2 d)
    · rw [hrun] at ran
      cases ran
      exact ⟨rfl, hempty ▸ filed_put (.inl hnone) .empty Disk.defaultMode⟩

theorem filed_of_wrote {more : Bytes} {t₁ t₂ : FileTree} (h : Filed spot w t t₁)
    (ran : (Disk.write spot more).run t₁ = .ok () t₂) : Filed spot (w ++ more) t t₂ := by
  obtain ⟨content, mode, hfile, hbytes⟩ := contents_eq_some.1 h.wrote.here
  rw [Disk.write_run hfile more] at ran
  cases ran
  have hwrote := wrote_put (by rw [h.wrote.here]; rfl) (content.append more) mode
  rw [Content.bytes_append, hbytes] at hwrote
  exact ⟨h.wrote.trans hwrote, h.before⟩

theorem Writable.progress (h : Writable path t left dir)
    (rewrite : Rewrite path settings t stage t') : Progress path settings left dir t stage t' := by
  induction rewrite with
  | begun => exact rfl
  | unopened e => exact .inl rfl
  | opened ran => exact h.opened ran
  | wrote _ _ ran ih => exact ⟨ih.1, filed_of_wrote ih.2 ran⟩
  | unwritten e _ ih => exact .inr ⟨_, ih.1 ▸ ih.2⟩
  | moved _ ran ih =>
    obtain ⟨rfl, hfiled⟩ := ih
    obtain ⟨left', dir', hreplacing⟩ :=
      replacing_of_written h.coherent h.draft_followed (.inl hfiled) ran
    obtain ⟨rfl, rfl⟩ := (hfiled.enters_iff.1 hreplacing.enters).unique h.enters
    exact ⟨_, hreplacing⟩

/-- When the settings have been replaced, the draft can be written as before. -/
theorem Writable.replaced (h : Writable path t left dir) {t₁ : FileTree}
    (replacing : Replacing path settings.render t t₁ t' left dir (dir ++ [draftFile])) :
    Writable path t' left dir ∧ Kept dir t t' ∧
      t'.read (settingsPath path) = .ok settings.render := by
  obtain ⟨-, hfiled⟩ := replacing.filed h.apart.toReady
  obtain ⟨henters, hloc, hcontents⟩ := replacing.settings_after h.apart.toReady
  obtain ⟨_, _, hfile, -⟩ := contents_eq_some.1 hcontents
  have hkept : Kept dir t₁ t' := by
    refine ⟨replacing.moved.same, iff_of_false (by simp [hfile]) replacing.replaceable⟩
  refine ⟨⟨replacing.coherent_after, ⟨replacing.ready_after h.apart.toReady, ?_⟩, h.usable, henters,
    by simp [replacing.moved.source]⟩, (kept_of_filed hfiled).trans hkept, ?_⟩
  · intro a b target links _ hb hlink
    obtain ⟨-, _, dir', henters', rfl⟩ := (locate_entry_eq_ok_iff entryName_settings).1 hb
    obtain ⟨-, rfl⟩ := henters.unique henters'
    rw [hfile] at hlink
    cases hlink
  · exact read_eq_ok_iff.2 ⟨_, hloc, .inl hcontents⟩

/-- At any stage the settings are those from before, until they are the new ones. -/
theorem Writable.rewrite (h : Writable path t left dir)
    (rewrite : Rewrite path settings t stage t') :
    Writable path t' left dir ∧ Kept dir t t' ∧ t'.read (settingsPath path) =
      if stage = .done then .ok settings.render else t.read (settingsPath path) := by
  have hprogress := h.progress rewrite
  have hdrafted : ∀ {written}, Filed (dir ++ [draftFile]) written t t' →
      Writable path t' left dir ∧ Kept dir t t' ∧
        t'.read (settingsPath path) = t.read (settingsPath path) :=
    fun hfiled => ⟨h.filed hfiled, kept_of_filed hfiled, h.read_of_filed hfiled⟩
  cases stage with
  | opening =>
    obtain rfl : t' = t := hprogress
    exact ⟨h, .refl dir t', rfl⟩
  | writing spot written =>
    obtain ⟨rfl, hfiled⟩ := hprogress
    exact hdrafted hfiled
  | failed e =>
    rcases hprogress with rfl | ⟨written, hfiled⟩
    · exact ⟨h, .refl dir t', rfl⟩
    · exact hdrafted hfiled
  | done =>
    obtain ⟨t₁, hreplacing⟩ := hprogress
    exact h.replaced hreplacing

/-- Where the draft can be written, replacing the settings succeeds unless they are a directory. -/
theorem Writable.replaceSettings_run (h : Writable path t left dir) (settings : Settings) :
    t.node? (dir ++ [settingsFile]) = some .directory ∧
        (∃ t', (replaceSettings path settings).run t = .error .isDirectory t') ∨
      t.node? (dir ++ [settingsFile]) ≠ some .directory ∧
        ∃ t', (replaceSettings path settings).run t = .ok () t' := by
  obtain ⟨_, _, hopen⟩ : ∃ opened mode, (Disk.openTruncated (draftPath path)).run t =
      .ok (dir ++ [draftFile]) (t.put (dir ++ [draftFile]) (.file opened mode)) :=
    Disk.openOrCreate_entry (fun _ => .empty) entryName_draft h.located_draft h.draft_cases
      (fun _ _ _ => rfl) fun _ => rfl
  obtain ⟨-, hopened⟩ := h.opened hopen
  obtain ⟨content, mode, hfile⟩ := hopened.exists_file
  have hwrite := Disk.write_run hfile settings.render
  have hfiled := filed_of_wrote hopened hwrite
  have after := h.filed hfiled
  have hne : dir ++ [settingsFile] ≠ dir ++ [draftFile] := by simp [settingsFile, draftFile]
  have hover := hfiled.same.off _ hne
  obtain ⟨_, _, hwritten⟩ := hfiled.exists_file
  unfold replaceSettings Disk.writeFile
  rw [bind_assoc, run_bind_ok hopen, run_bind_ok hwrite, ← hover]
  rcases rename_draft after.located_draft after.located_settings hwritten with
    ⟨hdirectory, hrun⟩ | ⟨hdirectory, t', hrun⟩
  · exact .inl ⟨hdirectory, _, hrun⟩
  · exact .inr ⟨hdirectory, t', hrun⟩

/-- Replacing the settings once and again, the latest first: each time as far as it comes. -/
inductive Rewrites (path : Path) (t₀ : FileTree) : List (Settings × Stage) → FileTree → Prop
  | begin : Rewrites path t₀ [] t₀
  | next {log : List (Settings × Stage)} {settings : Settings} {stage : Stage} {t t' : FileTree}
      (before : Rewrites path t₀ log t) (rewrite : Rewrite path settings t stage t') :
      Rewrites path t₀ ((settings, stage) :: log) t'

/-- The settings that were last replaced completely. -/
def completed : List (Settings × Stage) → Option Settings
  | [] => none
  | (settings, stage) :: before => if stage = .done then some settings else completed before

variable {log : List (Settings × Stage)}

theorem Rewrites.kept (h : Writable path t₀ left dir) (rewrites : Rewrites path t₀ log t) :
    Writable path t left dir ∧ Kept dir t₀ t ∧ t.read (settingsPath path) =
      (completed log).elim (t₀.read (settingsPath path)) fun s => .ok s.render := by
  induction rewrites with
  | begin => exact ⟨h, .refl dir t₀, rfl⟩
  | @next log settings stage t t' before rewrite ih =>
    obtain ⟨hwritable, hkept, hread⟩ := ih
    obtain ⟨hwritable', hkept', hread'⟩ := hwritable.rewrite rewrite
    refine ⟨hwritable', hkept.trans hkept', ?_⟩
    rw [hread', completed, hread]
    split <;> rfl

/-- Where the draft can't be opened, nothing ever changes. -/
theorem Rewrite.closed {e : IoError}
    (closed : (Disk.openTruncated (draftPath path)).run t = .error e t)
    (rewrite : Rewrite path settings t stage t') :
    t' = t ∧ (stage = .opening ∨ ∃ e, stage = .failed e) := by
  induction rewrite with
  | begun => exact ⟨rfl, .inl rfl⟩
  | unopened e => exact ⟨rfl, .inr ⟨e, rfl⟩⟩
  | opened ran =>
    rw [closed] at ran
    cases ran
  | wrote _ _ _ ih => rcases ih with ⟨-, h | ⟨_, h⟩⟩ <;> cases h
  | unwritten _ _ ih => rcases ih with ⟨-, h | ⟨_, h⟩⟩ <;> cases h
  | moved _ _ ih => rcases ih with ⟨-, h | ⟨_, h⟩⟩ <;> cases h

theorem Rewrites.closed {e : IoError}
    (closed : (Disk.openTruncated (draftPath path)).run t₀ = .error e t₀)
    (rewrites : Rewrites path t₀ log t) : t = t₀ ∧ completed log = none := by
  induction rewrites with
  | begin => exact ⟨rfl, rfl⟩
  | next _ rewrite ih =>
    obtain ⟨rfl, hnone⟩ := ih
    obtain ⟨rfl, hstage⟩ := rewrite.closed closed
    refine ⟨rfl, ?_⟩
    rw [completed, if_neg, hnone]
    rintro rfl
    rcases hstage with h | ⟨_, h⟩ <;> cases h

theorem writable_of_opened (coherent : Coherent t) (apart : Apart path t)
    (opened : (Disk.openTruncated (draftPath path)).run t = .ok spot t') :
    ∃ left dir, Writable path t left dir := by
  rcases Disk.openOrCreate_cases (fun _ => .empty) (draftPath path) t with
    ⟨e, he⟩ | ⟨loc, hloc, hcases⟩
  · rw [Disk.openTruncated, he] at opened
    cases opened
  · obtain ⟨left, dir, henters, hdraft, -⟩ := located_of_draft hloc
    obtain ⟨usable, -⟩ := (locate_entry_eq_ok_iff entryName_draft).1 hdraft
    have hfollowed : t.locate true (draftPath path) = .ok (dir ++ [draftFile]) :=
      locate_entry_of_noLink entryName_draft hdraft (apart.draft _ hdraft).1
    obtain rfl := Except.ok.inj (hloc.symm.trans hfollowed)
    refine ⟨left, dir, coherent, apart, usable, henters, ?_⟩
    rcases hcases with ⟨_, _, hfile, -⟩ | ⟨_, hdevice, -⟩ | ⟨hnone, -⟩
    · simp [hfile]
    · simp [hdevice]
    · simp [hnone]

/-- Either the draft can be written, or nothing ever changes. -/
theorem Rewrites.cases (coherent : Coherent t₀) (apart : Apart path t₀)
    (rewrites : Rewrites path t₀ log t) :
    (∃ left dir, Writable path t₀ left dir) ∨ t = t₀ ∧ completed log = none := by
  cases hopen : (Disk.openTruncated (draftPath path)).run t₀ with
  | ok spot t₁ => exact .inl (writable_of_opened coherent apart hopen)
  | error e t₁ =>
    obtain rfl := openTruncated_error hopen
    exact .inr (rewrites.closed hopen)

theorem Rewrites.read (coherent : Coherent t₀) (apart : Apart path t₀)
    (rewrites : Rewrites path t₀ log t) :
    t.read (settingsPath path) =
      (completed log).elim (t₀.read (settingsPath path)) fun s => .ok s.render := by
  rcases rewrites.cases coherent apart with ⟨left, dir, hwritable⟩ | ⟨rfl, hnone⟩
  · exact (rewrites.kept hwritable).2.2
  · rw [hnone]
    rfl

theorem Rewrites.settingsIn_eq (coherent : Coherent t₀) (apart : Apart path t₀)
    (rewrites : Rewrites path t₀ log t) :
    settingsIn t path = (completed log).elim (settingsIn t₀ path) .ok := by
  have hread := rewrites.read coherent apart
  unfold settingsIn
  rw [hread]
  cases completed log with
  | none => rfl
  | some s =>
    dsimp only [Option.elim]
    rw [Settings.parse_render]
    rfl

theorem Rewrites.elsewhere (coherent : Coherent t₀) (apart : Apart path t₀)
    (rewrites : Rewrites path t₀ log t) (hdraft : t₀.locate false (draftPath path) ≠ .ok loc)
    (hsettings : t₀.locate false (settingsPath path) ≠ .ok loc) : t.node? loc = t₀.node? loc := by
  rcases rewrites.cases coherent apart with ⟨left, dir, hwritable⟩ | ⟨rfl, -⟩
  · obtain ⟨-, hkept, -⟩ := rewrites.kept hwritable
    refine hkept.same.off loc ?_
    rintro (rfl | rfl)
    · exact hdraft hwritable.located_draft
    · exact hsettings hwritable.located_settings
  · rfl

/-- Replacing the settings fails as it would have at the beginning. -/
theorem Rewrites.stageOf_eq (coherent : Coherent t₀) (apart : Apart path t₀)
    (rewrites : Rewrites path t₀ log t) (settings : Settings) :
    stageOf ((replaceSettings path settings).run t) =
      stageOf ((replaceSettings path settings).run t₀) := by
  rcases rewrites.cases coherent apart with ⟨left, dir, hwritable⟩ | ⟨rfl, -⟩
  · obtain ⟨hnow, hkept, -⟩ := rewrites.kept hwritable
    -- With a draft that can be written only a directory in the place of the settings is in the way,
    -- and `Kept.directory` says that it is there now if and only if it was there at the beginning.
    rcases hnow.replaceSettings_run settings with ⟨hdirectory, t', hrun⟩ | ⟨hdirectory, t', hrun⟩
    all_goals
      rcases hwritable.replaceSettings_run settings with ⟨hbefore, t'', hrun'⟩ | ⟨hbefore, t'', hrun'⟩
    · rw [hrun, hrun']
      rfl
    · exact absurd (hkept.directory.1 hdirectory) hbefore
    · exact absurd (hkept.directory.2 hbefore) hdirectory
    · rw [hrun, hrun']
      rfl
  · rfl

variable {db : Database} {env env' env₀ : Environment} {outcome : Except Error Unit}

theorem rewrite_of_writeSettings (called : db.writeSettings.run env = (outcome, env')) :
    ∃ stage, Rewrite db.path db.settings env.files stage env'.files ∧
      (stage = .done ↔ outcome = .ok ()) := by
  have hrewrite := rewrite_of_run db.path db.settings env.files
  rw [writeSettings_run] at called
  cases hrun : (replaceSettings db.path db.settings).run env.files with
  | ok u t =>
    rw [hrun] at called hrewrite
    cases called
    exact ⟨_, hrewrite, iff_of_true rfl rfl⟩
  | error e t =>
    rw [hrun] at called hrewrite
    cases called
    exact ⟨_, hrewrite, iff_of_false nofun nofun⟩

theorem writeSettings_congr
    (h : stageOf ((replaceSettings db.path db.settings).run env.files) =
      stageOf ((replaceSettings db.path db.settings).run env₀.files)) :
    (db.writeSettings.run env).1 = (db.writeSettings.run env₀).1 := by
  rw [writeSettings_run, writeSettings_run]
  cases hrun : (replaceSettings db.path db.settings).run env.files with
  | ok u t =>
    cases hrun₀ : (replaceSettings db.path db.settings).run env₀.files with
    | ok u t => rfl
    | error e t => simp [hrun, hrun₀, stageOf] at h
  | error e t =>
    cases hrun₀ : (replaceSettings db.path db.settings).run env₀.files with
    | ok u t => simp [hrun, hrun₀, stageOf] at h
    | error e' t =>
      simp only [hrun, hrun₀, stageOf, Stage.failed.injEq] at h
      rw [h]

/-- However often the settings were replaced, and at whichever step that ended each time: they are what
was last written completely, or what they were at the beginning. Nothing else has changed but the
draft. Writing them now is one time more, and gives what it would have given at the beginning: then
they are the new ones if that succeeds, and stay what they are if it fails. -/
theorem replaced_whole (coherent : Coherent t₀) (apart : Apart path t₀)
    (rewrites : Rewrites path t₀ log t) :
    t.read (settingsPath path) =
      (completed log).elim (t₀.read (settingsPath path)) (fun s => .ok s.render) ∧
    settingsIn t path = (completed log).elim (settingsIn t₀ path) .ok ∧
    (∀ loc, t₀.locate false (draftPath path) ≠ .ok loc →
      t₀.locate false (settingsPath path) ≠ .ok loc → t.node? loc = t₀.node? loc) ∧
    ∀ (db : Database) (env env' : Environment) (outcome : Except Error Unit),
      db.path = path → env.files = t → db.writeSettings.run env = (outcome, env') →
      outcome = (db.writeSettings.run { env with files := t₀ }).1 ∧
      (∃ stage, Rewrites path t₀ ((db.settings, stage) :: log) env'.files ∧
        (stage = .done ↔ outcome = .ok ())) ∧
      (outcome = .ok () → env'.files.read (settingsPath path) = .ok db.settings.render) ∧
      ∀ e, outcome = .error e → env'.files.read (settingsPath path) = t.read (settingsPath path) := by
  have hread := rewrites.read coherent apart
  refine ⟨hread, rewrites.settingsIn_eq coherent apart,
    fun loc => rewrites.elsewhere coherent apart, ?_⟩
  rintro db env env' outcome rfl rfl called
  obtain ⟨stage, hrewrite, hdone⟩ := rewrite_of_writeSettings called
  have hnext := rewrites.next hrewrite
  have hafter := hnext.read coherent apart
  refine ⟨?_, ⟨stage, hnext, hdone⟩, ?_, ?_⟩
  · have hsame := rewrites.stageOf_eq coherent apart db.settings
    rw [← writeSettings_congr hsame, called]
  · intro hok
    rw [hafter, completed, if_pos (hdone.2 hok)]
    rfl
  · intro e herror
    have hne : stage ≠ .done := by
      intro h
      rw [herror] at hdone
      exact absurd (hdone.1 h) nofun
    rw [hafter, hread, completed, if_neg hne]

theorem apart_of_file (ready : Ready path t) (hb : t.locate false (settingsPath path) = .ok b)
    (hfile : (t.contents b).isSome) : Apart path t := by
  refine ⟨ready, fun a b' target links _ hb' hlink => ?_⟩
  obtain rfl := Except.ok.inj (hb.symm.trans hb')
  simp [contents, hlink] at hfile

/-- One byte of other settings is in the draft. -/
def cutOff : FileTree :=
  let t := holding ⟨⟨1⟩, true, some 5⟩
  { t with entries := t.entries ++ [(["db", draftFile], .file ⟨[Bytes.ofString "\x7b"]⟩ 0o644)] }

/-- The process dies when it has written that byte. The next one replaces the settings. -/
theorem replaced_whole_cut_off : ∃ env',
    Rewrites "db" (holding ⟨⟨1⟩, true, some 5⟩)
      [(⟨⟨1⟩, false, none⟩, .writing ["db", draftFile] (Bytes.ofString "\x7b"))] cutOff ∧
    settingsIn cutOff "db" = .ok ⟨⟨1⟩, true, some 5⟩ ∧
    (Database.writeSettings ⟨"db", ⟨⟨2⟩, false, none⟩⟩).run (.fresh cutOff) = (.ok (), env') ∧
    env'.files.read (settingsPath "db") = .ok (Settings.render ⟨⟨2⟩, false, none⟩) := by
  have holds := holds_holding ⟨⟨1⟩, true, some 5⟩
  have apart : Apart "db" (holding ⟨⟨1⟩, true, some 5⟩) :=
    apart_of_file (b := ["db", settingsFile]) holds.ready rfl rfl
  have hopened : (Disk.openTruncated (draftPath "db")).run (holding ⟨⟨1⟩, true, some 5⟩) =
      .ok ["db", draftFile] ((holding ⟨⟨1⟩, true, some 5⟩).put ["db", draftFile]
        (.file .empty 0o644)) := by
    decide +kernel
  have hwrote : (Disk.write ["db", draftFile] (Bytes.ofString "\x7b")).run
      ((holding ⟨⟨1⟩, true, some 5⟩).put ["db", draftFile] (.file .empty 0o644)) =
      .ok () cutOff := by
    decide +kernel
  have rewrites : Rewrites "db" (holding ⟨⟨1⟩, true, some 5⟩)
      [(⟨⟨1⟩, false, none⟩, .writing ["db", draftFile] (Bytes.ofString "\x7b"))] cutOff :=
    Rewrites.begin.next ((Rewrite.opened hopened).wrote (by decide +kernel) hwrote)
  obtain ⟨-, hread, -, hlater⟩ := replaced_whole holds.coherent apart rewrites
  have hcalled : (Database.writeSettings ⟨"db", ⟨⟨2⟩, false, none⟩⟩).run (.fresh cutOff) =
      (.ok (), _) := eq_of_fst_eq (by decide +kernel)
  obtain ⟨-, -, hnew, -⟩ := hlater _ _ _ _ rfl rfl hcalled
  exact ⟨_, rewrites, hread.trans holds.read, hcalled, hnew rfl⟩

/-- The settings are a link to the draft. -/
def drafted : FileTree where
  entries := [(["db"], .directory),
    (["db", draftFile], .file (.ofBytes (Settings.render ⟨⟨1⟩, true, none⟩)) 0o644),
    (["db", settingsFile], .link draftFile)]
  workingDirectory := []

/-- A device is in the place of the draft. -/
def swallowing : FileTree where
  entries := [(["db"], .directory), (["db", draftFile], .device .null),
    (["db", settingsFile], .file (.ofBytes (Settings.render ⟨⟨1⟩, true, none⟩)) 0o644)]
  workingDirectory := []

/-- Then the settings are cut off as soon as the draft is opened; or they are replaced, but what is read
is nothing; or they can't be found any more. -/
theorem replaced_in_part :
    (∃ t, drafted.contents ["db", draftFile] = some (Settings.render ⟨⟨1⟩, true, none⟩) ∧
      Rewrite "db" ⟨⟨1⟩, false, none⟩ drafted (.writing ["db", draftFile] []) t ∧
      drafted.read (settingsPath "db") = .ok (Settings.render ⟨⟨1⟩, true, none⟩) ∧
      t.read (settingsPath "db") = .ok []) ∧
    (∃ env', swallowing.node? ["db", draftFile] = some (.device .null) ∧
      (Database.writeSettings ⟨"db", ⟨⟨1⟩, false, none⟩⟩).run (.fresh swallowing) = (.ok (), env') ∧
      env'.files.read (settingsPath "db") = .ok []) ∧
    ∃ env', turning.find (draftPath "db/settings.json") = .error .notFound ∧
      (Database.writeSettings ⟨"db/settings.json", ⟨⟨1⟩, false, none⟩⟩).run (.fresh turning) =
        (.ok (), env') ∧
      env'.files.read (settingsPath "db/settings.json") = .error .notDirectory := by
  refine ⟨?_, ?_, ?_⟩
  · have hopened : (Disk.openTruncated (draftPath "db")).run drafted =
        .ok ["db", draftFile] (drafted.put ["db", draftFile] (.file .empty 0o644)) := by
      decide +kernel
    exact ⟨_, by decide +kernel, .opened hopened, by decide +kernel, by decide +kernel⟩
  · have hcalled : (Database.writeSettings ⟨"db", ⟨⟨1⟩, false, none⟩⟩).run (.fresh swallowing) =
        (.ok (), _) := eq_of_fst_eq (by decide +kernel)
    exact ⟨_, by rfl, hcalled, by decide +kernel⟩
  · have hcalled : (Database.writeSettings ⟨"db/settings.json", ⟨⟨1⟩, false, none⟩⟩).run
        (.fresh turning) = (.ok (), _) := eq_of_fst_eq (by decide +kernel)
    exact ⟨_, by rfl, hcalled, by decide +kernel⟩

end CrashCapture.Database
