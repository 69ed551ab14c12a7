import CrashCapture.Proofs.FileTree.Effects
import CrashCapture.Proofs.RunFiles.Rotation

namespace CrashCapture.RunFiles

open FileTree

variable {t t' : FileTree} {p runPath : Path} {name : String} {m : Nat} {f : RunFiles}

/-- What touching a file does if it goes well. -/
inductive Touched (p : Path) (t : FileTree) : FileTree → Prop
  | there {loc : Location} (located : t.locate true p = .ok loc)
      (found : (∃ content mode, t.node? loc = some (.file content mode)) ∨
        ∃ d, t.node? loc = some (.device d)) : Touched p t t
  | made {loc : Location} (located : t.locate true p = .ok loc) (missing : t.node? loc = none) :
      Touched p t (t.put loc (.file .empty Disk.defaultMode))

theorem touched_of_run (h : (Disk.touch p).run t = .ok () t') : Touched p t t' := by
  rcases Disk.touch_cases p t with ⟨e, hrun⟩ | ⟨loc, hloc, ⟨hfound, hrun⟩ | ⟨hnone, hrun⟩⟩
  · rw [hrun] at h
    cases h
  · rw [hrun] at h
    cases h
    exact .there hloc hfound
  · rw [hrun] at h
    cases h
    exact .made hloc hnone

namespace Touched

theorem usable (h : Touched p t t') : Usable p := by
  cases h with
  | there located => exact (locate_eq_ok_iff.1 located).1
  | made located => exact (locate_eq_ok_iff.1 located).1

theorem enters_iff (h : Touched p t t') {left : Nat} {dir : Location} :
    Enters t' runPath left dir ↔ Enters t runPath left dir := by
  cases h with
  | there => rfl
  | @made loc _ missing =>
    have filed := filed_put (.inl missing) .empty Disk.defaultMode
    have hdir : (t.put loc (.file .empty Disk.defaultMode)).node? dir = some .directory ↔
        t.node? dir = some .directory := by
      by_cases hne : loc = dir
      · subst hne
        exact ⟨fun h => absurd h filed.plain_after.noDirectory, fun h => by simp [missing] at h⟩
      · rw [node?_put_of_ne hne]
    rw [Enters, Enters, filed.leads_iff, hdir]
    rfl

theorem exists_enters (hname : '/' ∉ name.toList) (h : Touched (Path.join runPath name) t t') :
    ∃ left dir, Enters t runPath left dir := by
  have hpath : ∀ {loc}, t.locate true (Path.join runPath name) = .ok loc →
      ∃ left dir, Enters t runPath left dir := by
    intro loc hloc
    obtain ⟨-, left, dir, -, enters, -⟩ := (locate_join_eq_ok_iff hname).1 hloc
    exact ⟨left, dir, enters⟩
  cases h with
  | there located => exact hpath located
  | made located => exact hpath located

/-- Where there was nothing there is now an empty file: no link leads to some other place. -/
theorem entry (hname : EntryName name) (h : Touched (Path.join runPath name) t t') {left : Nat}
    {dir : Location} (enters : Enters t runPath left dir)
    (clear : t.node? (dir ++ [name]) = none ∨ t.node? (dir ++ [name]) = some .directory) :
    Filed (dir ++ [name]) [] t t' := by
  have hentry : ∀ {loc}, t.locate true (Path.join runPath name) = .ok loc → loc = dir ++ [name] := by
    intro loc hloc
    obtain ⟨-, left, dir', left', enters', leads⟩ := (locate_join_eq_ok_iff hname.noSlash).1 hloc
    obtain ⟨-, rfl⟩ := enters'.unique enters
    rcases leads.last_cases hname.toDescends with ⟨-, ⟨hend, -⟩ | ⟨_, target, -, -, hlink, -⟩⟩
    · exact hend
    · rcases clear with hnone | hdirectory
      · simp [hnone] at hlink
      · simp [hdirectory] at hlink
  cases h with
  | there located found =>
    obtain rfl := hentry located
    rcases clear with hnone | hdirectory
    · simp [hnone] at found
    · simp [hdirectory] at found
  | made located missing =>
    obtain rfl := hentry located
    exact filed_put (.inl missing) .empty Disk.defaultMode

end Touched

theorem touchAll_enters_iff {paths : List Path} (h : (paths.forM Disk.touch).run t = .ok () t') :
    (∀ p ∈ paths, Usable p) ∧
      ∀ left dir, Enters t' runPath left dir ↔ Enters t runPath left dir := by
  induction paths generalizing t with
  | nil =>
    cases h
    exact ⟨nofun, fun _ _ => Iff.rfl⟩
  | cons p paths ih =>
    obtain ⟨_, t₁, hfirst, hrest⟩ := run_bind_eq_ok h
    have touched := touched_of_run hfirst
    obtain ⟨usable, enters_iff⟩ := ih hrest
    refine ⟨List.forall_mem_cons.2 ⟨touched.usable, usable⟩, fun left dir => ?_⟩
    rw [enters_iff, touched.enters_iff]

/-- Files under names of one directory, where there were none, are all made. -/
theorem touchAll_entries {names : List String} (hnames : ∀ name ∈ names, EntryName name)
    (nodup : names.Nodup) {left : Nat} {dir : Location} (enters : Enters t runPath left dir)
    (clear : ∀ name ∈ names,
      t.node? (dir ++ [name]) = none ∨ t.node? (dir ++ [name]) = some .directory)
    (h : ((names.map (Path.join runPath)).forM Disk.touch).run t = .ok () t') :
    (∀ name ∈ names, t'.contents (dir ++ [name]) = some []) ∧
      ∀ name ∉ names, t'.node? (dir ++ [name]) = t.node? (dir ++ [name]) := by
  induction names generalizing t with
  | nil =>
    cases h
    exact ⟨nofun, fun _ _ => rfl⟩
  | cons name names ih =>
    obtain ⟨_, t₁, hfirst, hrest⟩ := run_bind_eq_ok h
    have touched := touched_of_run hfirst
    have filed := touched.entry (hnames name List.mem_cons_self) enters (clear name List.mem_cons_self)
    obtain ⟨hnew, hdistinct⟩ := List.nodup_cons.1 nodup
    have hother : ∀ other, other ≠ name → t₁.node? (dir ++ [other]) = t.node? (dir ++ [other]) :=
      fun other hne => filed.same.off _ (by simpa using hne)
    obtain ⟨hmade, hkept⟩ := ih (fun other hmem => hnames other (List.mem_cons_of_mem name hmem))
      hdistinct (touched.enters_iff.2 enters) (fun other hmem => by
        rw [hother other fun heq => hnew (heq ▸ hmem)]
        exact clear other (List.mem_cons_of_mem name hmem)) hrest
    refine ⟨List.forall_mem_cons.2 ⟨?_, hmade⟩, fun other hout => ?_⟩
    · rw [← filed.wrote.here]
      simp only [contents, hkept name hnew]
    · rw [List.mem_cons, not_or] at hout
      rw [hkept other hout.2, hother other hout.1]

theorem create_steps (h : (create runPath m).run t = .ok f t') :
    ∃ t₁, (Disk.createDirectories runPath).run t = .ok () t₁ ∧
      ((inside runPath m).paths.forM Disk.touch).run t₁ = .ok () t' := by
  obtain ⟨_, t₁, hdirectories, h⟩ := run_bind_eq_ok h
  obtain ⟨_, t₂, htouched, h⟩ := run_bind_eq_ok h
  cases h
  exact ⟨t₁, hdirectories, htouched⟩

def fileNames : List String := [eventName, firstName, secondName]

theorem entryName_of_mem : ∀ name ∈ fileNames, EntryName name := by decide

/-- The files were not there before they were made, not even as links. -/
def Fresh (f : RunFiles) (t t' : FileTree) : Prop :=
  ∀ p ∈ f.paths, ∀ loc, t'.locate false p = .ok loc → t.node? loc = none

theorem locate_file (hname : EntryName name) (usable : Usable (Path.join runPath name)) {left : Nat}
    {dir : Location} (enters : Enters t runPath left dir)
    (hfile : (t.contents (dir ++ [name])).isSome) :
    t.locate true (Path.join runPath name) = .ok (dir ++ [name]) := by
  obtain ⟨content, mode, hnode⟩ := exists_file_of_isSome hfile
  have noLink : ∀ target, t.node? (dir ++ [name]) ≠ some (.link target) := by simp [hnode]
  rw [locate_join_eq_ok_iff hname.noSlash]
  exact ⟨usable, left, dir, left, enters, .down enters.2 hname.toDescends noLink .done⟩

/-- Then each is in the directory of the run, under its own name. -/
theorem found_of_fresh (created : (create runPath m).run t = .ok f t') (fresh : Fresh f t t') :
    ∃ places : Places, places.Found f t' ∧
      ∀ second, t.node? (places.breadcrumbs second) = none := by
  obtain ⟨rfl, -⟩ := create_grew created
  obtain ⟨t₁, hdirectories, htouched⟩ := create_steps created
  have dug := Disk.dug_of_made hdirectories
  obtain ⟨usable, enters_iff⟩ : (∀ p ∈ (inside runPath m).paths, Usable p) ∧
      ∀ left dir, Enters t' runPath left dir ↔ Enters t₁ runPath left dir :=
    touchAll_enters_iff htouched
  obtain ⟨left, dir, enters⟩ : ∃ left dir, Enters t₁ runPath left dir := by
    obtain ⟨_, t₂, hevent, -⟩ := run_bind_eq_ok htouched
    exact (touched_of_run hevent).exists_enters (entryName_of_mem eventName (by decide)).noSlash
  have hpaths : ∀ name ∈ fileNames, Path.join runPath name ∈ (inside runPath m).paths :=
    fun name hname => List.mem_map_of_mem (f := Path.join runPath) hname
  have missing : ∀ name ∈ fileNames, t.node? (dir ++ [name]) = none := by
    intro name hname
    exact fresh _ (hpaths name hname) _ ((locate_entry_eq_ok_iff (entryName_of_mem name hname)).2
      ⟨usable _ (hpaths name hname), left, dir, (enters_iff left dir).2 enters, rfl⟩)
  obtain ⟨held, -⟩ := touchAll_entries entryName_of_mem (by decide) enters
    (fun name hname => dug.made _ (missing name hname)) htouched
  have located : ∀ name ∈ fileNames,
      t'.locate true (Path.join runPath name) = .ok (dir ++ [name]) := by
    intro name hname
    exact locate_file (entryName_of_mem name hname) (usable _ (hpaths name hname))
      ((enters_iff left dir).2 enters) (by simp [held name hname])
  let places : Places := {
    event := dir ++ [eventName], first := dir ++ [firstName], second := dir ++ [secondName]
    event_ne_first := by simp [eventName, firstName]
    event_ne_second := by simp [eventName, secondName]
    first_ne_second := by simp [firstName, secondName] }
  refine ⟨places, ⟨?_, ?_, ?_, ?_⟩, ?_⟩
  · exact located eventName (by decide)
  · exact located firstName (by decide)
  · exact located secondName (by decide)
  · intro loc hloc
    obtain ⟨name, hname, rfl⟩ := List.mem_map.1
      (show loc ∈ fileNames.map fun name => dir ++ [name] from hloc)
    simp [held name hname]
  · intro second
    cases second with
    | false => exact missing firstName (by decide)
    | true => exact missing secondName (by decide)

/-- The directory of a run was made, with those above it and with empty files, as far as there was
nothing in their places. -/
structure Made (runPath : Path) (t t' : FileTree) : Prop where
  kept : ∀ loc node, t.node? loc = some node → t'.node? loc = some node
  new : ∀ loc node, t.node? loc = none → t'.node? loc = some node →
    (node = .directory ∧
      ∃ q, runPath.UpTo q ∧ t'.locate false (Disk.withoutSlash q) = .ok loc) ∨
    node = .file .empty Disk.defaultMode ∧
      ∃ name ∈ fileNames, t'.locate true (Path.join runPath name) = .ok loc
  located : ∀ followLast p loc, t.locate followLast p = .ok loc → t'.locate followLast p = .ok loc
  workingDirectory : t'.workingDirectory = t.workingDirectory

namespace Made

variable {loc : Location}

theorem refl (t : FileTree) : Made runPath t t :=
  ⟨fun _ _ h => h, fun _ _ hnone hnode => by simp [hnone] at hnode, fun _ _ _ h => h, rfl⟩

theorem trans {t'' : FileTree} (h : Made runPath t t') (h' : Made runPath t' t'') :
    Made runPath t t'' := by
  refine ⟨fun loc node hn => h'.kept loc node (h.kept loc node hn), fun loc node hnone hnode => ?_,
    fun followLast p loc hloc => h'.located _ _ _ (h.located _ _ _ hloc),
    h'.workingDirectory.trans h.workingDirectory⟩
  cases hbetween : t'.node? loc with
  | none => exact h'.new loc node hbetween hnode
  | some node' =>
    obtain rfl : node' = node :=
      Option.some.inj ((h'.kept loc node' hbetween).symm.trans hnode)
    rcases h.new loc node' hnone hbetween with
      ⟨hdirectory, q, above, hq⟩ | ⟨hfile, name, hname, hloc⟩
    · exact .inl ⟨hdirectory, q, above, h'.located _ _ _ hq⟩
    · exact .inr ⟨hfile, name, hname, h'.located _ _ _ hloc⟩

/-- One of them was made. -/
theorem put {node : Node} (hnone : t.node? loc = none)
    (located : ∀ followLast p end', t.locate followLast p = .ok end' →
      (t.put loc node).locate followLast p = .ok end')
    (leads : (node = .directory ∧
        ∃ q, runPath.UpTo q ∧ t.locate false (Disk.withoutSlash q) = .ok loc) ∨
      node = .file .empty Disk.defaultMode ∧
        ∃ name ∈ fileNames, t.locate true (Path.join runPath name) = .ok loc) :
    Made runPath t (t.put loc node) := by
  have hroot : loc ≠ [] := by
    rintro rfl
    cases hnone
  refine ⟨fun other node' hn => ?_, fun other node' hother hn => ?_, located, rfl⟩
  · rwa [node?_put_of_ne]
    rintro rfl
    simp [hnone] at hn
  · by_cases hne : loc = other
    · subst hne
      obtain rfl : node = node' := Option.some.inj ((node?_put_self hroot t node).symm.trans hn)
      rcases leads with ⟨hdirectory, q, above, hq⟩ | ⟨hfile, name, hname, hloc⟩
      · exact .inl ⟨hdirectory, q, above, located _ _ _ hq⟩
      · exact .inr ⟨hfile, name, hname, located _ _ _ hloc⟩
    · rw [node?_put_of_ne hne, hother] at hn
      cases hn

end Made

theorem createDirectories_made (runPath : Path) (t : FileTree) :
    Made runPath t (endState ((Disk.createDirectories runPath).run t)) :=
  Disk.createDirectories_endState .refl (fun _ _ _ => .trans)
    (fun _ q _ above hloc hnone => .put hnone (fun _ _ _ => (Dug.put hloc hnone).locate)
      (.inl ⟨rfl, q, above, hloc⟩)) t

theorem touch_made (hname : name ∈ fileNames) (t : FileTree) :
    Made runPath t (endState ((Disk.touch (Path.join runPath name)).run t)) := by
  rcases Disk.touch_cases (Path.join runPath name) t with
    ⟨e, hrun⟩ | ⟨loc, hloc, ⟨-, hrun⟩ | ⟨hnone, hrun⟩⟩
  · rw [hrun]
    exact .refl t
  · rw [hrun]
    exact .refl t
  · rw [hrun]
    exact .put hnone (fun _ _ _ => (filed_put (.inl hnone) .empty Disk.defaultMode).locate_eq_ok_iff.2)
      (.inr ⟨rfl, name, hname, hloc⟩)

theorem touchAll_made {names : List String} (hnames : ∀ name ∈ names, name ∈ fileNames)
    (t : FileTree) :
    Made runPath t (endState (((names.map (Path.join runPath)).forM Disk.touch).run t)) := by
  induction names generalizing t with
  | nil => exact .refl t
  | cons name names ih =>
    obtain ⟨hname, hnames⟩ := List.forall_mem_cons.1 hnames
    exact endState_bind (fun _ _ _ => .trans) (touch_made hname t) fun _ t' _ => ih hnames t'

theorem create_made (runPath : Path) (m : Nat) (t : FileTree) :
    Made runPath t (endState ((create runPath m).run t)) :=
  endState_bind (fun _ _ _ => .trans) (createDirectories_made runPath t) fun _ t' _ =>
    endState_bind (fun _ _ _ => .trans) (touchAll_made (fun _ => id) t') fun _ t'' _ => .refl t''

end CrashCapture.RunFiles
