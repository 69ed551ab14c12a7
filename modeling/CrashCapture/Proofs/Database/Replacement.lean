import CrashCapture.Database.Layout
import CrashCapture.Proofs.Database.Settings
import CrashCapture.Proofs.FileTree.Effects

namespace CrashCapture.Database

open FileTree

def draftFile : String := "settings.json.tmp"

theorem entryName_draft : EntryName draftFile := by decide +kernel

theorem entryName_settings : EntryName settingsFile := by decide +kernel

theorem entryName_reports : EntryName reportsDirectory := by decide

/-- The path of the settings is shorter than that of the draft. -/
theorem usable_settings {path : Path} (h : Usable (draftPath path)) : Usable (settingsPath path) := by
  obtain ⟨lead, hlead⟩ := exists_lead path
  have hdraft : draftPath path = lead ++ draftFile := hlead entryName_draft.noSlash
  have hsettings : settingsPath path = lead ++ settingsFile := hlead entryName_settings.noSlash
  obtain ⟨noNul, -, fits⟩ := hdraft ▸ h
  rw [hsettings]
  constructor
  · have hnul : settingsFile.toList.contains '\x00' = false := by decide +kernel
    simp_all
  · have hne : settingsFile ≠ "" := by decide +kernel
    simp [hne]
  · rw [String.utf8ByteSize_append] at fits ⊢
    have hle : settingsFile.utf8ByteSize ≤ draftFile.utf8ByteSize := by decide +kernel
    omega

/-- Where the draft can be written, the settings are beside it. -/
theorem located_of_draft {path : Path} {t : FileTree} {followLast : Bool} {spot : Location}
    (h : t.locate followLast (draftPath path) = .ok spot) :
    ∃ left dir, Enters t path left dir ∧ t.locate false (draftPath path) = .ok (dir ++ [draftFile]) ∧
      t.locate false (settingsPath path) = .ok (dir ++ [settingsFile]) := by
  obtain ⟨usable, left, dir, -, henters, -⟩ := (locate_join_eq_ok_iff entryName_draft.noSlash).1 h
  exact ⟨left, dir, henters,
    (locate_entry_eq_ok_iff entryName_draft).2 ⟨usable, left, dir, henters, rfl⟩,
    (locate_entry_eq_ok_iff entryName_settings).2
      ⟨usable_settings usable, left, dir, henters, rfl⟩⟩

/-- A file in the place of the draft can be moved, unless the settings are a directory. -/
theorem rename_draft {path : Path} {t : FileTree} {dir : Location} {content : Content} {mode : Nat}
    (ha : t.locate false (draftPath path) = .ok (dir ++ [draftFile]))
    (hb : t.locate false (settingsPath path) = .ok (dir ++ [settingsFile]))
    (hfile : t.node? (dir ++ [draftFile]) = some (.file content mode)) :
    t.node? (dir ++ [settingsFile]) = some .directory ∧
        (Disk.rename (draftPath path) (settingsPath path)).run t = .error .isDirectory t ∨
      t.node? (dir ++ [settingsFile]) ≠ some .directory ∧
        ∃ t', (Disk.rename (draftPath path) (settingsPath path)).run t = .ok () t' := by
  by_cases hover : t.node? (dir ++ [settingsFile]) = some .directory
  · left
    refine ⟨hover, ?_⟩
    rw [Disk.rename, run_bind_ok (Disk.locate_ok ha), run_bind_ok (Disk.locate_ok hb),
      run_bind_ok (EStateM.run_get t), hfile, hover]
    rfl
  · right
    have hne : dir ++ [draftFile] ≠ dir ++ [settingsFile] := by simp [settingsFile, draftFile]
    have hapart : (dir ++ [draftFile]).isPrefixOf (dir ++ [settingsFile]) = false := by
      rw [Bool.eq_false_iff]
      intro h
      exact hne ((List.isPrefixOf_iff_prefix.1 h).eq_of_length (by simp))
    have hrun := Disk.rename_run ha hb hfile (by simp) hover
    rw [if_neg hne, if_neg (by simp [hapart])] at hrun
    exact ⟨hover, _, hrun⟩

/-- Where the settings in a directory are, and where they are written. -/
def OfSettings (dir loc : Location) : Prop := loc = dir ++ [draftFile] ∨ loc = dir ++ [settingsFile]

/-- There is no link or device in the place of the draft, and no link to a directory in that of the
settings. -/
structure Ready (path : Path) (t : FileTree) : Prop where
  draft : ∀ a, t.locate false (draftPath path) = .ok a →
    (∀ target, t.node? a ≠ some (.link target)) ∧ ∀ d, t.node? a ≠ some (.device d)
  settings : ∀ b target, t.locate false (settingsPath path) = .ok b →
    t.node? b = some (.link target) → ∀ links left loc,
      Leads t true links (start b.dropLast target) (pieces target) left loc →
        t.node? loc ≠ some .directory

theorem ready_of_draft {path : Path} {t : FileTree} {a b : Location}
    (ha : t.locate false (draftPath path) = .ok a)
    (noLink : ∀ target, t.node? a ≠ some (.link target)) (noDevice : ∀ d, t.node? a ≠ some (.device d))
    (hb : t.locate false (settingsPath path) = .ok b) (settings : (t.contents b).isSome) :
    Ready path t := by
  constructor
  · intro a' ha'
    obtain rfl := Except.ok.inj (ha.symm.trans ha')
    exact ⟨noLink, noDevice⟩
  · intro b' target hb' hlink
    obtain rfl := Except.ok.inj (hb.symm.trans hb')
    simp [contents, hlink] at settings

theorem ready_of_file {path : Path} {t : FileTree} {a b : Location}
    (ha : t.locate false (draftPath path) = .ok a) (draft : t.node? a = none)
    (hb : t.locate false (settingsPath path) = .ok b) (settings : (t.contents b).isSome) :
    Ready path t :=
  ready_of_draft ha (by simp [draft]) (by simp [draft]) hb settings

/-- The steps in which the settings in a directory are replaced: they are written, and what they were
written to is moved. -/
structure Replacing (path : Path) (bytes : Bytes) (t t₁ t' : FileTree) (left : Nat)
    (dir spot : Location) : Prop where
  enters : Enters t₁ path left dir
  draftUsable : Usable (draftPath path)
  usable : Usable (settingsPath path)
  coherent : Coherent t₁
  written : Filed spot bytes t t₁ ∨ t₁ = t ∧ ∃ d, t.node? spot = some (.device d)
  draft : ∃ left', Leads t₁ true left dir [draftFile] left' spot
  replaceable : t₁.node? (dir ++ [settingsFile]) ≠ some .directory
  moved : Moved (dir ++ [draftFile]) (dir ++ [settingsFile]) t₁ t'

variable {path : Path} {bytes : Bytes} {t t₁ t' : FileTree} {left : Nat} {dir spot loc : Location}

theorem plain_of_written
    (h : Filed spot bytes t t₁ ∨ t₁ = t ∧ ∃ d, t.node? spot = some (.device d)) :
    Plain t₁ spot := by
  rcases h with hfiled | ⟨rfl, d, hd⟩
  · exact hfiled.plain_after
  · exact ⟨by simp [hd], by simp [hd]⟩

namespace Replacing

theorem plain_spot (h : Replacing path bytes t t₁ t' left dir spot) : Plain t₁ spot :=
  plain_of_written h.written

/-- The settings are written where the draft is, or where it links to. -/
theorem draft_cases (h : Replacing path bytes t t₁ t' left dir spot) :
    spot = dir ++ [draftFile] ∨
      ∃ n left' target, t₁.node? (dir ++ [draftFile]) = some (.link target) ∧
        Leads t₁ true n (start dir target) (pieces target) left' spot := by
  obtain ⟨left', hdraft⟩ := h.draft
  rcases hdraft.last_cases entryName_draft.toDescends with
    ⟨-, ⟨hspot, -⟩ | ⟨n, target, -, -, hlink, honward⟩⟩
  · exact .inl hspot
  · exact .inr ⟨n, left', target, hlink, honward⟩

theorem draft_ne_directory (h : Replacing path bytes t t₁ t' left dir spot) :
    t₁.node? (dir ++ [draftFile]) ≠ some .directory := by
  rcases h.draft_cases with hspot | ⟨_, _, _, hlink, -⟩
  · exact hspot ▸ h.plain_spot.noDirectory
  · simp [hlink]

theorem contents_spot (h : Replacing path bytes t t₁ t' left dir spot) {found : Bytes}
    (hfound : t₁.contents spot = some found) : found = bytes := by
  rcases h.written with hfiled | ⟨rfl, d, hd⟩
  · rw [hfiled.wrote.here] at hfound
    exact (Option.some.inj hfound).symm
  · simp [contents, hd] at hfound

/-- A way along the link that was moved leads to where the settings were written. -/
theorem eq_spot_of_along (h : Replacing path bytes t t₁ t' left dir spot) {n : Nat}
    (halong : LeadsAlong (OfSettings dir) t' t₁ true n
      loc) : loc = spot := by
  obtain ⟨n, at', target, rest, hS, hlink, -, hleads⟩ := halong
  rcases hS with rfl | rfl
  · rw [h.moved.source] at hlink
    cases hlink
  · rw [h.moved.target] at hlink
    rw [List.dropLast_concat] at hleads
    rcases h.draft_cases with hspot | ⟨_, _, target', hlink', honward⟩
    · exact absurd (hspot ▸ hlink) (h.plain_spot.noLink target)
    · obtain rfl : target = target' := by simpa [hlink] using hlink'
      exact hleads.eq_of_target honward h.plain_spot.noDirectory

theorem noDirectory_after (h : Replacing path bytes t t₁ t' left dir spot) (loc : Location)
    (hloc : OfSettings dir loc) :
    t'.node? loc ≠ some .directory := by
  rcases hloc with rfl | rfl
  · simp [h.moved.source]
  · rw [h.moved.target]
    exact h.draft_ne_directory

theorem noDirectory_before (h : Replacing path bytes t t₁ t' left dir spot) (loc : Location)
    (hloc : OfSettings dir loc) :
    t₁.node? loc ≠ some .directory := by
  rcases hloc with rfl | rfl
  · exact h.draft_ne_directory
  · exact h.replaceable

theorem enters_after (h : Replacing path bytes t t₁ t' left dir spot) {left' : Nat}
    {dir' : Location} (henters : Enters t' path left' dir') : dir' = dir := by
  have hdir' : t₁.node? dir' = some .directory := by
    rw [← h.moved.same.off dir' fun hS => h.noDirectory_after dir' hS henters.2]
    exact henters.2
  have hstem := henters.1
  rw [h.moved.same.workingDirectory] at hstem
  rcases hstem.transfer h.moved.same.symm h.noDirectory_after with
    hsame | halong | ⟨-, hS, target, hlink⟩
  · exact (Enters.unique ⟨hsame, hdir'⟩ h.enters).2
  · rw [h.eq_spot_of_along halong] at hdir'
    exact absurd hdir' h.plain_spot.noDirectory
  · exact absurd henters.2 (h.noDirectory_after dir' hS)

/-- Whatever file is read as the settings afterwards, it holds what was written. -/
theorem contents_after (h : Replacing path bytes t t₁ t' left dir spot) {found : Bytes}
    (hloc : t'.locate true (settingsPath path) = .ok loc) (hfound : t'.contents loc = some found) :
    found = bytes := by
  obtain ⟨content, mode, hfile, -⟩ := contents_eq_some.1 hfound
  obtain ⟨-, _, dir', _, henters, hlast⟩ := (locate_join_eq_ok_iff entryName_settings.noSlash).1 hloc
  obtain rfl : dir = dir' := (h.enters_after henters).symm
  rcases hlast.last_cases entryName_settings.toDescends with
    ⟨-, ⟨rfl, -, -⟩ | ⟨n, target, -, -, hlink, honward⟩⟩
  · rw [contents, h.moved.target] at hfound
    rw [h.moved.target] at hfile
    rcases h.draft_cases with hspot | ⟨_, _, _, hlink, -⟩
    · exact h.contents_spot (hspot ▸ hfound)
    · rw [hlink] at hfile
      cases hfile
  · have hspot : loc = spot := by
      rcases honward.transfer h.moved.same.symm h.noDirectory_after with
        hsame | halong | ⟨-, hS, -⟩
      · exact h.eq_spot_of_along ⟨n, _, target, [], .inr rfl, hlink, by
          rwa [List.append_nil, List.dropLast_concat], by
          rwa [List.append_nil, List.dropLast_concat]⟩
      · exact h.eq_spot_of_along halong
      · rcases hS with rfl | rfl
        · rw [h.moved.source] at hfile
          cases hfile
        · rw [hlink] at hfile
          cases hfile
    have hoff : ¬OfSettings dir loc := by
      rintro (rfl | rfl)
      · rw [h.moved.source] at hfile
        cases hfile
      · rw [hlink] at hfile
        cases hfile
    rw [contents, h.moved.same.off loc hoff] at hfound
    exact h.contents_spot (hspot ▸ hfound)

theorem locate_iff (h : Replacing path bytes t t₁ t' left dir spot) {followLast : Bool} {p : Path} :
    t₁.locate followLast p = .ok loc ↔ t.locate followLast p = .ok loc := by
  rcases h.written with hfiled | ⟨rfl, -⟩
  · exact hfiled.locate_eq_ok_iff
  · rfl

theorem node?_of_ne (h : Replacing path bytes t t₁ t' left dir spot) (hne : loc ≠ spot) :
    t₁.node? loc = t.node? loc := by
  rcases h.written with hfiled | ⟨rfl, -⟩
  · exact hfiled.same.off loc hne
  · rfl

/-- Where nothing is in the way of the draft, that is the file which is written. -/
theorem filed (h : Replacing path bytes t t₁ t' left dir spot) (ready : Ready path t) :
    spot = dir ++ [draftFile] ∧ Filed spot bytes t t₁ := by
  have hdraft := ready.draft (dir ++ [draftFile])
    (h.locate_iff.1 ((locate_entry_eq_ok_iff entryName_draft).2
      ⟨h.draftUsable, left, dir, h.enters, rfl⟩))
  have hspot : spot = dir ++ [draftFile] := by
    rcases h.draft_cases with hspot | ⟨_, _, target, hlink, -⟩
    · exact hspot
    · rw [h.node?_of_ne] at hlink
      · exact absurd hlink (hdraft.1 target)
      · intro heq
        exact h.plain_spot.noLink target (heq ▸ hlink)
  refine ⟨hspot, h.written.resolve_right ?_⟩
  rintro ⟨-, d, hd⟩
  exact hdraft.2 d (hspot ▸ hd)

/-- A way along a link that was in the place of the settings leads to no directory. -/
theorem not_directory_of_along (h : Replacing path bytes t t₁ t' left dir spot)
    (ready : Ready path t) {n : Nat} (halong : LeadsAlong (OfSettings dir) t₁ t' true n loc) :
    t₁.node? loc ≠ some .directory := by
  obtain ⟨n, at', target, rest, hS, hlink, hleads, -⟩ := halong
  obtain ⟨rfl, hfiled⟩ := h.filed ready
  rcases hS with rfl | rfl
  · exact absurd hlink (h.plain_spot.noLink target)
  · intro hloc
    have hb : t.locate false (settingsPath path) = .ok (dir ++ [settingsFile]) :=
      h.locate_iff.1 ((locate_entry_eq_ok_iff entryName_settings).2
        ⟨h.usable, left, dir, h.enters, rfl⟩)
    have hlink' : t.node? (dir ++ [settingsFile]) = some (.link target) := by
      rw [← h.node?_of_ne, hlink]
      intro heq
      exact h.plain_spot.noLink target (heq ▸ hlink)
    obtain ⟨mid, end', honward, hrest⟩ := hleads.split rfl (.inr rfl)
    have hend : t₁.node? end' = some .directory := by
      cases rest with
      | nil =>
        cases hrest
        exact hloc
      | cons _ _ => exact hrest.directory
    refine ready.settings _ target hb hlink' _ _ end' (hfiled.leads_iff.1 honward) ?_
    rw [← h.node?_of_ne, hend]
    rintro rfl
    exact h.plain_spot.noDirectory hend

/-- Where no link leads astray, the settings are then the file that was written. -/
theorem settings_after (h : Replacing path bytes t t₁ t' left dir spot) (ready : Ready path t) :
    Enters t' path left dir ∧
      t'.locate true (settingsPath path) = .ok (dir ++ [settingsFile]) ∧
      t'.contents (dir ++ [settingsFile]) = some bytes := by
  obtain ⟨hspot, hfiled⟩ := h.filed ready
  have hdir : ¬OfSettings dir dir := fun hS => h.noDirectory_before dir hS h.enters.2
  have henters : Enters t' path left dir := by
    refine ⟨?_, (h.moved.same.off dir hdir).trans h.enters.2⟩
    rw [h.moved.same.workingDirectory]
    rcases h.enters.1.transfer h.moved.same h.noDirectory_before with
      hsame | halong | ⟨-, hS, -⟩
    · exact hsame
    · exact absurd h.enters.2 (h.not_directory_of_along ready halong)
    · exact absurd hS hdir
  have hcontents : t'.contents (dir ++ [settingsFile]) = some bytes := by
    rw [contents, h.moved.target, ← hspot]
    exact hfiled.wrote.here
  obtain ⟨content, mode, hfile, -⟩ := contents_eq_some.1 hcontents
  refine ⟨henters, ?_, hcontents⟩
  refine (locate_join_eq_ok_iff entryName_settings.noSlash).2 ⟨h.usable, left, dir, left, henters, ?_⟩
  exact .down henters.2 entryName_settings.toDescends (by simp [hfile]) .done

theorem ready_after (h : Replacing path bytes t t₁ t' left dir spot) (ready : Ready path t) :
    Ready path t' := by
  obtain ⟨henters, -, hcontents⟩ := h.settings_after ready
  obtain ⟨_, _, hfile, -⟩ := contents_eq_some.1 hcontents
  constructor
  · intro a ha
    obtain ⟨-, _, dir', henters', rfl⟩ := (locate_entry_eq_ok_iff entryName_draft).1 ha
    obtain ⟨-, rfl⟩ := henters.unique henters'
    simp [h.moved.source]
  · intro b target hb hlink
    obtain ⟨-, _, dir', henters', rfl⟩ := (locate_entry_eq_ok_iff entryName_settings).1 hb
    obtain ⟨-, rfl⟩ := henters.unique henters'
    rw [hfile] at hlink
    cases hlink

/-- Where no link leads astray, every path that led to a directory still does. -/
theorem isDirectory_after (h : Replacing path bytes t t₁ t' left dir spot) (ready : Ready path t)
    {p : Path} (hp : t.isDirectory p = true) : t'.isDirectory p = true := by
  obtain ⟨-, hfiled⟩ := h.filed ready
  obtain ⟨loc, hloc, hnode⟩ := isDirectory_iff.1 hp
  have hne : loc ≠ spot := by
    rintro rfl
    exact hfiled.plain_before.noDirectory hnode
  have hnode₁ : t₁.node? loc = some .directory := (h.node?_of_ne hne).trans hnode
  have hoff : ¬OfSettings dir loc := fun hS => h.noDirectory_before loc hS hnode₁
  obtain ⟨usable, left', hleads⟩ := locate_eq_ok_iff.1 (h.locate_iff.2 hloc)
  refine isDirectory_iff.2 ⟨loc, ?_, (h.moved.same.off loc hoff).trans hnode₁⟩
  refine locate_eq_ok_iff.2 ⟨usable, left', ?_⟩
  rw [h.moved.same.workingDirectory]
  rcases hleads.transfer h.moved.same h.noDirectory_before with hsame | halong | ⟨-, hS, -⟩
  · exact hsame
  · exact absurd hnode₁ (h.not_directory_of_along ready halong)
  · exact absurd hS hoff

theorem coherent_after (h : Replacing path bytes t t₁ t' left dir spot) : Coherent t' :=
  h.moved.coherent h.coherent h.draft_ne_directory h.replaceable ⟨dir, settingsFile, rfl, h.enters.2⟩

end Replacing

theorem coherent_of_written (coherent : Coherent t)
    (hspot : t.locate true (draftPath path) = .ok spot)
    (hwritten : Filed spot bytes t t₁ ∨ t₁ = t ∧ ∃ d, t.node? spot = some (.device d)) :
    Coherent t₁ := by
  rcases hwritten with hfiled | ⟨rfl, -⟩
  · rcases coherent.inside_of_locate hspot with hdirectory | hinside
    · exact absurd hdirectory hfiled.plain_before.noDirectory
    · exact hfiled.coherent coherent hinside
  · exact coherent

/-- Moving what was written into place takes these steps, if it succeeds. -/
theorem replacing_of_written (coherent : Coherent t)
    (hspot : t.locate true (draftPath path) = .ok spot)
    (hwritten : Filed spot bytes t t₁ ∨ t₁ = t ∧ ∃ d, t.node? spot = some (.device d))
    (h : (Disk.rename (draftPath path) (settingsPath path)).run t₁ = .ok () t') :
    ∃ left dir, Replacing path bytes t t₁ t' left dir spot := by
  have hspot₁ : t₁.locate true (draftPath path) = .ok spot := by
    rcases hwritten with hfiled | ⟨rfl, -⟩
    · exact hfiled.locate_eq_ok_iff.2 hspot
    · exact hspot
  have hplain := plain_of_written hwritten
  have coherent₁ := coherent_of_written coherent hspot hwritten
  obtain ⟨usable, left, dir, left', henters, hdraft⟩ :=
    (locate_join_eq_ok_iff entryName_draft.noSlash).1 hspot₁
  have ha : t₁.locate false (draftPath path) = .ok (dir ++ [draftFile]) :=
    (locate_entry_eq_ok_iff entryName_draft).2 ⟨usable, left, dir, henters, rfl⟩
  have hdirectory : t₁.node? (dir ++ [draftFile]) ≠ some .directory := by
    rcases hdraft.last_cases entryName_draft.toDescends with
      ⟨-, ⟨rfl, -⟩ | ⟨_, _, -, -, hlink, -⟩⟩
    · exact hplain.noDirectory
    · simp [hlink]
  obtain ⟨b, hb, hover, -, hmoved⟩ := Disk.moved_of_rename coherent₁ h ha hdirectory
  obtain ⟨usable', _, dir', henters', rfl⟩ := (locate_entry_eq_ok_iff entryName_settings).1 hb
  obtain ⟨-, rfl⟩ := henters.unique henters'
  rcases hmoved with ⟨heq, -⟩ | ⟨-, hmoved⟩
  · simp [draftFile, settingsFile] at heq
  · exact ⟨left, dir, henters, usable, usable', coherent₁, hwritten, ⟨left', hdraft⟩, hover, hmoved⟩

/-- Replacing the settings takes these steps, if it succeeds. -/
theorem replacing_of_run {settings : Settings} (coherent : Coherent t)
    (h : (replaceSettings path settings).run t = .ok () t') :
    ∃ t₁ left dir spot, Replacing path settings.render t t₁ t' left dir spot := by
  unfold replaceSettings at h
  rcases Disk.writeFile_filed (draftPath path) settings.render t with
    ⟨e, he⟩ | ⟨spot, t₁, hwrite, hspot, hwritten⟩
  · rw [run_bind_error he] at h
    cases h
  · rw [run_bind_ok hwrite] at h
    obtain ⟨left, dir, hreplacing⟩ := replacing_of_written coherent hspot hwritten h
    exact ⟨t₁, left, dir, spot, hreplacing⟩

variable {settings : Settings}

theorem coherent_of_replaceSettings (coherent : Coherent t)
    (h : (replaceSettings path settings).run t = .ok () t') : Coherent t' := by
  obtain ⟨t₁, left, dir, spot, hreplacing⟩ := replacing_of_run coherent h
  exact hreplacing.coherent_after

theorem settingsIn_eq_ok_iff {access : Access} {read : Settings} :
    settingsIn t path access = .ok read ↔
      ∃ found, t.read (settingsPath path) access = .ok found ∧ Settings.parse found = .ok read := by
  unfold settingsIn
  cases t.read (settingsPath path) access with
  | error e => simp
  | ok found => cases hparse : Settings.parse found <;> simp [Except.mapError, hparse]

/-- Settings are read with some access if they are with more, and that is allowed. -/
theorem settingsIn_access_eq_ok_iff {access : Access} {read : Settings} :
    settingsIn t path access = .ok read ↔
      settingsIn t path = .ok read ∧ Readable access t (settingsPath path) := by
  rw [settingsIn_eq_ok_iff, settingsIn_eq_ok_iff]
  constructor
  · rintro ⟨found, hfound, hparse⟩
    obtain ⟨hread, readable⟩ := read_access_eq_ok_iff.1 hfound
    exact ⟨⟨found, hread, hparse⟩, readable⟩
  · rintro ⟨⟨found, hread, hparse⟩, readable⟩
    exact ⟨found, read_access_eq_ok_iff.2 ⟨hread, readable⟩, hparse⟩

/-- Settings that are read after they were replaced are those that were written. -/
theorem eq_of_replaceSettings (coherent : Coherent t)
    (h : (replaceSettings path settings).run t = .ok () t') {read : Settings}
    (hread : settingsIn t' path = .ok read) : read = settings := by
  obtain ⟨t₁, left, dir, spot, hreplacing⟩ := replacing_of_run coherent h
  obtain ⟨found, hfound, hparse⟩ := settingsIn_eq_ok_iff.1 hread
  obtain ⟨loc, hloc, hfile | ⟨-, rfl⟩⟩ := read_eq_ok_iff.1 hfound
  · rw [hreplacing.contents_after hloc hfile, Settings.parse_render] at hparse
    exact (Except.ok.inj hparse).symm
  · cases hparse

/-- Settings that could not be replaced were written to the draft at most. -/
theorem written_of_failed {io : IoError}
    (h : (replaceSettings path settings).run t = .error io t') :
    t' = t ∨ ∃ spot, t.locate true (draftPath path) = .ok spot ∧
      (Filed spot settings.render t t' ∨ t' = t ∧ ∃ d, t.node? spot = some (.device d)) := by
  unfold replaceSettings at h
  rcases Disk.writeFile_filed (draftPath path) settings.render t with
    ⟨e, he⟩ | ⟨spot, t₁, hwrite, hspot, hwritten⟩
  · rw [run_bind_error he] at h
    cases h
    exact .inl rfl
  · rw [run_bind_ok hwrite] at h
    have hsame : t' = t₁ := by
      rcases Disk.rename_cases (draftPath path) (settingsPath path) t₁ with ⟨_, hrun⟩ | ⟨_, hrun⟩
      all_goals
        rw [hrun] at h
        cases h
      rfl
    subst hsame
    exact .inr ⟨spot, hspot, hwritten⟩

theorem coherent_of_failed {io : IoError} (coherent : Coherent t)
    (h : (replaceSettings path settings).run t = .error io t') : Coherent t' := by
  rcases written_of_failed h with rfl | ⟨spot, hspot, hwritten⟩
  · exact coherent
  · exact coherent_of_written coherent hspot hwritten

/-- Settings that are read after they could not be replaced are those from before, or those that
were to be written. -/
theorem read_of_failed {io : IoError} (h : (replaceSettings path settings).run t = .error io t')
    {read : Settings} (hread : settingsIn t' path = .ok read) :
    settingsIn t path = .ok read ∨ read = settings := by
  rcases written_of_failed h with rfl | ⟨spot, -, hfiled | ⟨rfl, -⟩⟩
  · exact .inl hread
  · obtain ⟨found, hfound, hparse⟩ := settingsIn_eq_ok_iff.1 hread
    obtain ⟨loc, hloc, hcontents⟩ := read_eq_ok_iff.1 hfound
    by_cases hspot : loc = spot
    · right
      subst hspot
      rw [hfiled.wrote.here] at hcontents
      rcases hcontents with hbytes | ⟨hd, -⟩
      · rw [← Option.some.inj hbytes, Settings.parse_render] at hparse
        exact (Except.ok.inj hparse).symm
      · obtain ⟨_, _, hfile⟩ := hfiled.exists_file
        rw [hd] at hfile
        cases hfile
    · left
      rw [contents, hfiled.same.off loc hspot] at hcontents
      exact settingsIn_eq_ok_iff.2 ⟨found, read_eq_ok_iff.2
        ⟨loc, hfiled.locate_eq_ok_iff.1 hloc, hcontents⟩, hparse⟩
  · exact .inl hread

/-- Where no link led astray, they are read. -/
theorem settingsIn_of_replaceSettings (coherent : Coherent t) (ready : Ready path t)
    (h : (replaceSettings path settings).run t = .ok () t') :
    settingsIn t' path = .ok settings ∧ Ready path t' := by
  obtain ⟨t₁, left, dir, spot, hreplacing⟩ := replacing_of_run coherent h
  obtain ⟨-, hloc, hcontents⟩ := hreplacing.settings_after ready
  exact ⟨settingsIn_eq_ok_iff.2 ⟨_, read_eq_ok_iff.2 ⟨_, hloc, .inl hcontents⟩,
    Settings.parse_render settings⟩, hreplacing.ready_after ready⟩

/-- Settings that could be replaced with some access are replaced alike with more. -/
theorem replaceSettings_full {access : Access}
    (h : (replaceSettings path settings access).run t = .ok () t') :
    (replaceSettings path settings).run t = .ok () t' := by
  unfold replaceSettings at h ⊢
  obtain ⟨_, t₁, hwrite, hmove⟩ := run_bind_eq_ok h
  rw [run_bind_ok (Disk.writeFile_full hwrite)]
  exact hmove

/-- The settings are then in the file that was the draft: they may be read if that may be, and if it
was made. -/
theorem readable_of_replaceSettings {access : Access} (coherent : Coherent t) (ready : Ready path t)
    (readable : ∀ a content mode, t.locate false (draftPath path) = .ok a →
      t.node? a = some (.file content mode) → access.mayRead mode = true)
    (h : (replaceSettings path settings).run t = .ok () t') :
    Readable access t' (settingsPath path) := by
  unfold replaceSettings at h
  obtain ⟨_, t₁, hwrite, hmove⟩ := run_bind_eq_ok h
  rcases Disk.writeFile_filed (draftPath path) settings.render t with
    ⟨e, he⟩ | ⟨spot, t₂, hrun, hspot, hwritten⟩
  · rw [hwrite] at he
    cases he
  · rw [hwrite] at hrun
    cases hrun
    obtain ⟨left, dir, hreplacing⟩ := replacing_of_written coherent hspot hwritten hmove
    obtain ⟨-, hsettings, -⟩ := hreplacing.settings_after ready
    obtain ⟨rfl, -⟩ := hreplacing.filed ready
    have hdraft : t.locate false (draftPath path) = .ok (dir ++ [draftFile]) :=
      hreplacing.locate_iff.1 ((locate_entry_eq_ok_iff entryName_draft).2
        ⟨hreplacing.draftUsable, left, dir, hreplacing.enters, rfl⟩)
    intro loc hloc content mode hfile
    obtain rfl := Except.ok.inj (hsettings.symm.trans hloc)
    rw [hreplacing.moved.target] at hfile
    rcases Disk.writeFile_mode hwrite hspot hfile with ⟨old, hold⟩ | rfl
    · exact readable _ old mode hdraft hold
    · exact access.readsMade

end CrashCapture.Database
