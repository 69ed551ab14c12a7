import CrashCapture.FileTree.Operations
import CrashCapture.Proofs.Outcome

namespace CrashCapture.FileTree

deriving instance DecidableEq for FileTree

def contents (t : FileTree) (loc : Location) : Option Bytes :=
  match t.node? loc with
  | some (.file content _) => some content.bytes
  | _ => none

theorem contents_eq_some {t : FileTree} {loc : Location} {bytes : Bytes} :
    t.contents loc = some bytes ↔
      ∃ content mode, t.node? loc = some (.file content mode) ∧ content.bytes = bytes := by
  unfold contents
  split
  · next content mode h => simp [h]
  · next h =>
    constructor
    · intro hn
      cases hn
    · rintro ⟨content, mode, hfile, -⟩
      exact (h content mode hfile).elim

theorem read_eq_ok_iff {t : FileTree} {p : Path} {bytes : Bytes} :
    t.read p = .ok bytes ↔ ∃ loc, t.locate true p = .ok loc ∧
      (t.contents loc = some bytes ∨ t.node? loc = some (.device .null) ∧ bytes = []) := by
  unfold read find contents
  cases hloc : t.locate true p with
  | error e => simp [bind, Except.bind]
  | ok loc =>
    cases hnode : t.node? loc with
    | none => simp [bind, Except.bind, hnode]
    | some node =>
      rcases node with _ | _ | _ | _ | _
      all_goals simp [bind, Except.bind, pure, Except.pure, hnode, eq_comm, Access.full]

/-- A file that a path leads to may be read. -/
def Readable (access : Access) (t : FileTree) (p : Path) : Prop :=
  ∀ loc, t.locate true p = .ok loc → ∀ content mode, t.node? loc = some (.file content mode) →
    access.mayRead mode = true

theorem read_access_eq_ok_iff {access : Access} {t : FileTree} {p : Path} {bytes : Bytes} :
    t.read p access = .ok bytes ↔ t.read p = .ok bytes ∧ Readable access t p := by
  unfold read find Readable
  cases hloc : t.locate true p with
  | error e => simp [bind, Except.bind]
  | ok loc =>
    cases hnode : t.node? loc with
    | none => simp [bind, Except.bind, hnode]
    | some node =>
      cases node with
      | file content mode =>
        by_cases hmode : access.mayRead mode = true
        all_goals simp [bind, Except.bind, pure, Except.pure, hnode, hmode, Access.full]
      | device d => cases d <;> simp [bind, Except.bind, pure, Except.pure, hnode]
      | _ => simp [bind, Except.bind, pure, Except.pure, hnode]

/-- What is read depends on where the path leads, and on what is there. -/
theorem read_congr {t t' : FileTree} {p : Path} (hlocate : t'.locate true p = t.locate true p)
    (hnode : ∀ loc, t.locate true p = .ok loc → t'.node? loc = t.node? loc) :
    t'.read p = t.read p := by
  unfold read find
  rw [hlocate]
  cases hloc : t.locate true p with
  | error e => rfl
  | ok loc =>
    have hsame := hnode loc hloc
    simp only [bind, Except.bind, hsame]

theorem isDirectory_iff {t : FileTree} {p : Path} :
    t.isDirectory p = true ↔ ∃ loc, t.locate true p = .ok loc ∧ t.node? loc = some .directory := by
  unfold isDirectory find
  cases hloc : t.locate true p with
  | error e => simp [bind, Except.bind]
  | ok loc =>
    cases hnode : t.node? loc with
    | none => simp [bind, Except.bind, hnode]
    | some node =>
      rcases node with _ | _ | _ | _
      all_goals simp [bind, Except.bind, pure, Except.pure, hnode]

/-- Two trees that differ only in what is in their files. -/
structure Alike (t t' : FileTree) : Prop where
  node? : ∀ loc, t.node? loc = t'.node? loc ∨
    (t.contents loc).isSome ∧ (t'.contents loc).isSome
  workingDirectory : t.workingDirectory = t'.workingDirectory

theorem exists_file_of_isSome {t : FileTree} {loc : Location} (h : (t.contents loc).isSome) :
    ∃ content mode, t.node? loc = some (.file content mode) := by
  obtain ⟨bytes, hbytes⟩ := Option.isSome_iff_exists.1 h
  obtain ⟨content, mode, hfile, -⟩ := contents_eq_some.1 hbytes
  exact ⟨content, mode, hfile⟩

theorem descend_congr {t t' : FileTree} (alike : Alike t t') (followLast : Bool)
    {follow follow' : Location → Path → List String → Except IoError Location}
    (hfollow : ∀ dir target rest, follow dir target rest = follow' dir target rest)
    (names : List String) (here : Location) :
    descend t followLast follow here names = descend t' followLast follow' here names := by
  induction names generalizing here with
  | nil => rfl
  | cons name rest ih =>
    rw [descend, descend]
    rcases alike.node? here with hhere | ⟨hfile, hfile'⟩
    · rw [hhere]
      cases t'.node? here with
      | none => rfl
      | some node =>
        cases node with
        | directory =>
          simp only [ih]
          rcases alike.node? (here ++ [name]) with hn | ⟨hfile, hfile'⟩
          · simp only [hn, hfollow]
          · obtain ⟨c, m, hc⟩ := exists_file_of_isSome hfile
            obtain ⟨c', m', hc'⟩ := exists_file_of_isSome hfile'
            simp only [hc, hc']
        | _ => rfl
    · obtain ⟨c, m, hc⟩ := exists_file_of_isSome hfile
      obtain ⟨c', m', hc'⟩ := exists_file_of_isSome hfile'
      rw [hc, hc']

theorem walk_congr {t t' : FileTree} (alike : Alike t t') (followLast : Bool) (links : Nat)
    (here : Location) (names : List String) :
    t.walk followLast links here names = t'.walk followLast links here names := by
  induction links generalizing here names with
  | zero => exact descend_congr alike followLast (fun _ _ _ => rfl) names here
  | succ links ih => exact descend_congr alike followLast (fun _ _ _ => ih _ _) names here

theorem locate_congr {t t' : FileTree} (alike : Alike t t') (followLast : Bool) (p : Path) :
    t.locate followLast p = t'.locate followLast p := by
  unfold locate
  rw [alike.workingDirectory, walk_congr alike]

/-- One file was given new contents, and nothing else happened. -/
structure Wrote (loc : Location) (bytes : Bytes) (t t' : FileTree) : Prop where
  here : t'.contents loc = some bytes
  elsewhere : ∀ other, loc ≠ other → t'.node? other = t.node? other
  workingDirectory : t'.workingDirectory = t.workingDirectory

theorem wrote_put {t : FileTree} {loc : Location} (h : (t.contents loc).isSome)
    (content : Content) (mode : Nat) :
    Wrote loc content.bytes t (t.put loc (.file content mode)) := by
  obtain ⟨_, _, hfile⟩ := exists_file_of_isSome h
  have hloc : loc ≠ [] := ne_root t (by simp [hfile])
  exact ⟨contents_eq_some.2 ⟨content, mode, node?_put_self hloc t _, rfl⟩,
    fun other hne => node?_put_of_ne hne t _, rfl⟩

namespace Wrote

variable {loc : Location} {bytes bytes' : Bytes} {t t' t'' : FileTree}

theorem trans (h : Wrote loc bytes t t') (h' : Wrote loc bytes' t' t'') : Wrote loc bytes' t t'' :=
  ⟨h'.here, fun other hne => (h'.elsewhere other hne).trans (h.elsewhere other hne),
    h'.workingDirectory.trans h.workingDirectory⟩

theorem contents_of_ne (h : Wrote loc bytes t t') {other : Location} (hne : loc ≠ other) :
    t'.contents other = t.contents other := by
  simp only [contents, h.elsewhere other hne]

theorem alike (h : Wrote loc bytes t t') (hfile : (t.contents loc).isSome) : Alike t t' := by
  refine ⟨fun other => ?_, h.workingDirectory.symm⟩
  by_cases hne : loc = other
  · subst hne
    exact .inr ⟨hfile, by simp [h.here]⟩
  · exact .inl (h.elsewhere other hne).symm

theorem locate (h : Wrote loc bytes t t') (hfile : (t.contents loc).isSome) (followLast : Bool)
    (p : Path) : t'.locate followLast p = t.locate followLast p :=
  (locate_congr (h.alike hfile) followLast p).symm

end Wrote

theorem store_lookup {entries : List (Location × Node)} {loc : Location} {node : Node}
    (h : lookup loc entries = some node) : store loc node entries = entries := by
  induction entries with
  | nil => cases h
  | cons entry entries ih =>
    obtain ⟨l, n⟩ := entry
    by_cases hl : l = loc
    · rw [lookup, if_pos hl, Option.some.injEq] at h
      rw [store, if_pos hl, hl, h]
    · rw [lookup, if_neg hl] at h
      rw [store, if_neg hl, ih h]

theorem put_node? {t : FileTree} {loc : Location} {node : Node} (h : t.node? loc = some node)
    (hne : node ≠ .directory) : t.put loc node = t := by
  unfold node? at h
  split at h
  · exact absurd (Option.some.inj h).symm hne
  · rw [put, store_lookup h]

/-- Nothing that was there has changed, and what is new are directories and empty files. -/
structure Grew (t t' : FileTree) : Prop where
  kept : ∀ loc node, t.node? loc = some node → t'.node? loc = some node
  made : ∀ loc, t.node? loc = none → t'.contents loc = none ∨ t'.contents loc = some []

namespace Grew

theorem refl (t : FileTree) : Grew t t :=
  ⟨fun _ _ h => h, fun loc h => .inl (by simp [contents, h])⟩

theorem trans {t t' t'' : FileTree} (h : Grew t t') (h' : Grew t' t'') : Grew t t'' := by
  refine ⟨fun loc node hn => h'.kept loc node (h.kept loc node hn), fun loc hn => ?_⟩
  cases hn' : t'.node? loc with
  | none => exact h'.made loc hn'
  | some node =>
    have heq : t''.contents loc = t'.contents loc := by
      simp only [contents, hn', h'.kept loc node hn']
    rw [heq]
    exact h.made loc hn

theorem put {t : FileTree} {loc : Location} (h : t.node? loc = none) {node : Node}
    (hnode : node = .directory ∨ ∃ mode, node = .file .empty mode) : Grew t (t.put loc node) := by
  have hloc : loc ≠ [] := ne_root t (by simp [h])
  constructor
  · intro other n hn
    have hne : loc ≠ other := by
      rintro rfl
      simp [h] at hn
    rw [node?_put_of_ne hne, hn]
  · intro other hn
    by_cases hne : loc = other
    · subst hne
      simp only [contents, node?_put_self hloc]
      rcases hnode with rfl | ⟨mode, rfl⟩
      · exact .inl rfl
      · exact .inr rfl
    · simp [contents, node?_put_of_ne hne, hn]

theorem contents_eq {t t' : FileTree} (h : Grew t t') {loc : Location} {bytes : Bytes}
    (hbytes : t'.contents loc = some bytes) : bytes = (t.contents loc).getD [] := by
  cases hn : t.node? loc with
  | none =>
    have hnone : t.contents loc = none := by simp [contents, hn]
    rcases h.made loc hn with hmade | hmade <;> simp_all
  | some node =>
    have heq : t'.contents loc = t.contents loc := by
      simp only [contents, hn, h.kept loc node hn]
    rw [← heq, hbytes]
    rfl

end Grew

/-- A path that leads to a file, if it leads anywhere. -/
def LeadsToFile (t : FileTree) (p : Path) : Prop :=
  ∀ loc, t.locate true p = .ok loc → (t.contents loc).isSome

end CrashCapture.FileTree

namespace CrashCapture

/-- A path, and those of the directories above it. -/
inductive Path.UpTo (p : Path) : Path → Prop
  | self : UpTo p p
  | parent {q above : Path} (below : UpTo p q) (h : Path.parent? q = some above) : UpTo p above

end CrashCapture

namespace CrashCapture.Disk

open FileTree

variable {t : FileTree} {p : Path} {loc : Location}

theorem locate_ok {followLast : Bool} (h : t.locate followLast p = .ok loc) :
    (Disk.locate followLast p).run t = .ok loc t := by
  rw [Disk.locate, run_bind_ok (EStateM.run_get t), h, EStateM.run_pure]

theorem locate_error {followLast : Bool} {e : IoError} (h : t.locate followLast p = .error e) :
    (Disk.locate followLast p).run t = .error e t := by
  rw [Disk.locate, run_bind_ok (EStateM.run_get t), h, run_throw]

theorem locateFile_cases (p : Path) (t : FileTree) :
    (∃ e, (locateFile p).run t = .error e t) ∨
    ∃ loc, t.locate true p = .ok loc ∧ (locateFile p).run t = .ok loc t := by
  unfold locateFile
  by_cases hslash : endsInSlash p
  · left
    rw [if_pos hslash]
    cases hloc : t.locate true (withoutSlash p) with
    | ok loc =>
      rw [run_bind_ok (locate_ok hloc), run_bind_error (run_throw _ t)]
      exact ⟨_, rfl⟩
    | error e =>
      rw [run_bind_error (locate_error hloc)]
      exact ⟨_, rfl⟩
  · rw [if_neg hslash, run_bind_ok (EStateM.run_get t)]
    cases hlast : t.locate false p with
    | error e =>
      rw [run_bind_error (locate_error hlast)]
      exact .inl ⟨_, rfl⟩
    | ok last =>
      rw [run_bind_ok (locate_ok hlast)]
      by_cases hlinks : linksToSlash t maxLinks last
      · rw [if_pos hlinks, run_bind_error (run_throw _ t)]
        exact .inl ⟨_, rfl⟩
      · rw [if_neg hlinks]
        cases hloc : t.locate true p with
        | error e => exact .inl ⟨_, locate_error hloc⟩
        | ok loc => exact .inr ⟨loc, rfl, locate_ok hloc⟩

/-- Opening a file, once it is known where that is. -/
theorem openOrCreate_run (content : Content → Content) {access : Access}
    (h : (locateFile p).run t = .ok loc t) : (openOrCreate content p access).run t =
      match t.node? loc with
      | some (.file old mode) =>
        if access.mayWrite mode then .ok loc (t.put loc (.file (content old) mode))
        else .error .accessDenied t
      | some (.device _) => .ok loc t
      | some _ => .error .isDirectory t
      | none =>
        if access.mayMake loc then .ok loc (t.put loc (.file .empty defaultMode))
        else .error .accessDenied t := by
  unfold openOrCreate
  rw [run_bind_ok h, run_bind_ok (EStateM.run_get t)]
  cases t.node? loc with
  | none =>
    dsimp only
    split <;> rfl
  | some node =>
    cases node with
    | file old mode =>
      dsimp only
      split <;> rfl
    | _ => rfl

theorem openOrCreate_cases (content : Content → Content) (p : Path) (t : FileTree)
    (access : Access := .full) :
    (∃ e, (openOrCreate content p access).run t = .error e t) ∨
    ∃ loc, t.locate true p = .ok loc ∧
      ((∃ old mode, t.node? loc = some (.file old mode) ∧
          (openOrCreate content p access).run t = .ok loc (t.put loc (.file (content old) mode))) ∨
        (∃ d, t.node? loc = some (.device d) ∧
          (openOrCreate content p access).run t = .ok loc t) ∨
        (t.node? loc = none ∧
          (openOrCreate content p access).run t = .ok loc (t.put loc (.file .empty defaultMode)))) := by
  rcases locateFile_cases p t with ⟨e, he⟩ | ⟨loc, hloc, hrun⟩
  · exact .inl ⟨e, by rw [openOrCreate, run_bind_error he]⟩
  · rw [openOrCreate_run content hrun]
    cases hnode : t.node? loc with
    | none =>
      dsimp only
      by_cases hmake : access.mayMake loc
      · rw [if_pos hmake]
        exact .inr ⟨loc, hloc, .inr (.inr ⟨hnode, rfl⟩)⟩
      · rw [if_neg hmake]
        exact .inl ⟨_, rfl⟩
    | some node =>
      cases node with
      | file old mode =>
        dsimp only
        by_cases hmode : access.mayWrite mode
        · rw [if_pos hmode]
          exact .inr ⟨loc, hloc, .inl ⟨old, mode, hnode, rfl⟩⟩
        · rw [if_neg hmode]
          exact .inl ⟨_, rfl⟩
      | device d => exact .inr ⟨loc, hloc, .inr (.inl ⟨d, hnode, rfl⟩)⟩
      | _ => exact .inl ⟨_, rfl⟩

/-- A file that could be opened with some access is opened alike with more. -/
theorem openOrCreate_full {content : Content → Content} {access : Access} {t' : FileTree}
    (h : (openOrCreate content p access).run t = .ok loc t') :
    (openOrCreate content p).run t = .ok loc t' := by
  rcases locateFile_cases p t with ⟨e, he⟩ | ⟨at', -, hrun⟩
  · rw [openOrCreate, run_bind_error he] at h
    cases h
  · rw [openOrCreate_run content hrun] at h ⊢
    cases hnode : t.node? at' with
    | none =>
      rw [hnode] at h
      dsimp only at h ⊢
      split at h
      · exact h
      · cases h
    | some node =>
      rw [hnode] at h
      cases node with
      | file old mode =>
        dsimp only at h ⊢
        split at h
        · exact h
        · cases h
      | _ => exact h

theorem openOrCreate_file (h : LeadsToFile t p) (content : Content → Content) :
    (∃ e, (openOrCreate content p).run t = .error e t) ∨
    ∃ loc old mode, t.locate true p = .ok loc ∧ t.node? loc = some (.file old mode) ∧
      (openOrCreate content p).run t = .ok loc (t.put loc (.file (content old) mode)) := by
  rcases openOrCreate_cases content p t with he | ⟨loc, hloc, hcases⟩
  · exact .inl he
  · obtain ⟨old, mode, hfile⟩ := exists_file_of_isSome (h loc hloc)
    rcases hcases with ⟨old', mode', hfile', hrun⟩ | ⟨d, hdevice, -⟩ | ⟨hnone, -⟩
    · exact .inr ⟨loc, old', mode', hloc, hfile', hrun⟩
    · simp [hfile] at hdevice
    · simp [hfile] at hnone

theorem write_room {access : Access} {content : Content} {mode : Nat} {bytes : Bytes}
    (h : t.node? loc = some (.file content mode)) (room : access.stops t loc bytes = none) :
    (Disk.write loc bytes access).run t = .ok () (t.put loc (.file (content.append bytes) mode)) := by
  rw [Disk.write, run_bind_ok (EStateM.run_get t), h]
  dsimp only
  rw [run_bind_ok (EStateM.run_get t), room, EStateM.run_modify]

theorem write_run {content : Content} {mode : Nat} (h : t.node? loc = some (.file content mode))
    (bytes : Bytes) :
    (Disk.write loc bytes).run t = .ok () (t.put loc (.file (content.append bytes) mode)) :=
  write_room h rfl

/-- Nothing stays of what is written to a device. -/
theorem write_device {access : Access} {d : Device} (h : t.node? loc = some (.device d))
    (bytes : Bytes) : (Disk.write loc bytes access).run t = .ok () t ∨
      ∃ e, (Disk.write loc bytes access).run t = .error e t := by
  rw [Disk.write, run_bind_ok (EStateM.run_get t), h]
  cases d with
  | null => exact .inl rfl
  | full =>
    dsimp only
    split
    · exact .inl rfl
    · exact .inr ⟨_, rfl⟩

/-- A write that did not stop has added all that was to be added. -/
theorem write_full {access : Access} {bytes : Bytes} {t' : FileTree}
    (h : (Disk.write loc bytes access).run t = .ok () t') : (Disk.write loc bytes).run t = .ok () t' := by
  rw [Disk.write, run_bind_ok (EStateM.run_get t)] at h ⊢
  cases hnode : t.node? loc with
  | none =>
    rw [hnode] at h
    exact h
  | some node =>
    rw [hnode] at h
    cases node with
    | file old mode =>
      dsimp only at h
      rw [run_bind_ok (EStateM.run_get t)] at h
      split at h
      · exact h
      · rw [run_bind_ok (EStateM.run_modify _ t)] at h
        cases h
    | device d => cases d <;> exact h
    | _ => exact h

/-- Writing a file either fails and changes nothing, or the file holds what was written. -/
theorem writeFile_cases (h : LeadsToFile t p) (bytes : Bytes) :
    (∃ e, (writeFile p bytes).run t = .error e t) ∨
    ∃ loc t', t.locate true p = .ok loc ∧ Wrote loc bytes t t' ∧
      (writeFile p bytes).run t = .ok () t' := by
  unfold writeFile openTruncated
  rcases openOrCreate_file h (fun _ => .empty) with ⟨e, he⟩ | ⟨loc, old, mode, hloc, hfile, hrun⟩
  · rw [run_bind_error he]
    exact .inl ⟨e, rfl⟩
  · have hopen := wrote_put (h loc hloc) .empty mode
    obtain ⟨content, mode', hnow, hempty⟩ := contents_eq_some.1 hopen.here
    have hwrite := wrote_put (by rw [hopen.here]; rfl) (content.append bytes) mode'
    rw [Content.bytes_append, hempty, Content.bytes_empty, List.nil_append] at hwrite
    rw [run_bind_ok hrun, write_run hnow]
    exact .inr ⟨loc, _, hloc, hopen.trans hwrite, rfl⟩

/-- Adding to a file either fails and changes nothing, or the file holds that at its end. -/
theorem appendFile_cases (h : LeadsToFile t p) (bytes : Bytes) :
    (∃ e, (appendFile p bytes).run t = .error e t) ∨
    ∃ loc old t', t.locate true p = .ok loc ∧ t.contents loc = some old ∧
      Wrote loc (old ++ bytes) t t' ∧ (appendFile p bytes).run t = .ok () t' := by
  unfold appendFile
  cases hloc : t.locate true p with
  | error e =>
    have hopen : (openExisting p).run t = .error e t := by
      rw [openExisting, run_bind_ok (EStateM.run_get t)]
      simp only [find, hloc, bind, Except.bind, run_throw]
    rw [run_bind_error hopen]
    exact .inl ⟨e, rfl⟩
  | ok loc =>
    obtain ⟨content, mode, hfile⟩ := exists_file_of_isSome (h loc hloc)
    have hopen : (openExisting p).run t = .ok loc t := by
      rw [openExisting, run_bind_ok (EStateM.run_get t)]
      simp only [find, hloc, hfile, bind, Except.bind, pure, Except.pure]
      rfl
    have hwrite := wrote_put (h loc hloc) (content.append bytes) mode
    rw [Content.bytes_append] at hwrite
    rw [run_bind_ok hopen, write_run hfile]
    have hold : t.contents loc = some content.bytes :=
      contents_eq_some.2 ⟨content, mode, hfile, rfl⟩
    exact .inr ⟨loc, content.bytes, _, rfl, hold, hwrite, rfl⟩

/-- A file that is touched is made if it is missing, and else left as it is. -/
theorem touch_cases (p : Path) (t : FileTree) :
    (∃ e, (touch p).run t = .error e t) ∨
    ∃ loc, t.locate true p = .ok loc ∧
      (((∃ content mode, t.node? loc = some (.file content mode)) ∨
            ∃ d, t.node? loc = some (.device d)) ∧
          (touch p).run t = .ok () t ∨
        t.node? loc = none ∧
          (touch p).run t = .ok () (t.put loc (.file .empty defaultMode))) := by
  rw [touch, discard, openAppending, LawfulFunctor.map_const, Function.comp_apply, ← bind_pure_comp]
  rcases openOrCreate_cases id p t with
    ⟨e, he⟩ | ⟨loc, hloc, ⟨old, mode, hfile, hrun⟩ | ⟨d, hdevice, hrun⟩ | ⟨hnone, hrun⟩⟩
  · rw [run_bind_error he]
    exact .inl ⟨e, rfl⟩
  · rw [id, put_node? hfile nofun] at hrun
    rw [run_bind_ok hrun]
    exact .inr ⟨loc, hloc, .inl ⟨.inl ⟨old, mode, hfile⟩, rfl⟩⟩
  · rw [run_bind_ok hrun]
    exact .inr ⟨loc, hloc, .inl ⟨.inr ⟨d, hdevice⟩, rfl⟩⟩
  · rw [run_bind_ok hrun]
    exact .inr ⟨loc, hloc, .inr ⟨hnone, rfl⟩⟩

theorem touch_grew (p : Path) (t : FileTree) : Grew t (endState ((touch p).run t)) := by
  rcases touch_cases p t with ⟨e, hrun⟩ | ⟨loc, -, ⟨-, hrun⟩ | ⟨hnone, hrun⟩⟩
  · rw [hrun]
    exact .refl t
  · rw [hrun]
    exact .refl t
  · rw [hrun]
    exact .put hnone (.inr ⟨_, rfl⟩)

section MakingDirectories

variable {R : FileTree → FileTree → Prop} {p : Path} (refl : ∀ t, R t t)
  (trans : ∀ t t' t'', R t t' → R t' t'' → R t t'')
  (made : ∀ t q loc, p.UpTo q → t.locate false (withoutSlash q) = .ok loc → t.node? loc = none →
    R t (t.put loc .directory))
include refl made

theorem createDirectory_endState {q : Path} (above : p.UpTo q) (t : FileTree) :
    R t (endState ((createDirectory q).run t)) := by
  unfold createDirectory
  cases hloc : t.locate false (withoutSlash q) with
  | error e =>
    rw [run_bind_error (locate_error hloc)]
    exact refl t
  | ok loc =>
    rw [run_bind_ok (locate_ok hloc), run_bind_ok (EStateM.run_get t)]
    cases hnode : t.node? loc with
    | some node => exact refl t
    | none => exact made t q loc above hloc hnode

include trans

theorem ensureDirectory_endState {q : Path} (above : p.UpTo q) (t : FileTree) :
    R t (endState ((ensureDirectory q).run t)) := by
  unfold ensureDirectory
  refine endState_tryCatch trans (createDirectory_endState refl made above t) ?_
  intro e t' _
  rw [run_bind_ok (EStateM.run_get t')]
  split <;> exact refl t'

theorem ensureAbove_endState (n : Nat) {q : Path} (above : p.UpTo q) (t : FileTree) :
    R t (endState ((ensureAbove n q).run t)) := by
  induction n generalizing q t with
  | zero => exact ensureDirectory_endState refl trans made above t
  | succ n ih =>
    unfold ensureAbove
    refine endState_tryCatch trans (ensureDirectory_endState refl trans made above t) ?_
    intro e t' _
    split
    · next hparent _ =>
      split
      · exact refl t'
      · exact endState_bind trans (ih (.parent above hparent) t')
          (fun _ t'' _ => ensureDirectory_endState refl trans made above t'')
    · exact refl t'

/-- What making one directory keeps is kept by making all that are missing. -/
theorem createDirectories_endState (t : FileTree) :
    R t (endState ((createDirectories p).run t)) := by
  unfold createDirectories
  split
  · exact refl t
  · exact ensureAbove_endState refl trans made _ .self t

end MakingDirectories

theorem createDirectories_grew (p : Path) (t : FileTree) :
    Grew t (endState ((createDirectories p).run t)) :=
  createDirectories_endState .refl (fun _ _ _ => .trans)
    (fun _ _ _ _ _ hnone => .put hnone (.inl rfl)) t

end CrashCapture.Disk
