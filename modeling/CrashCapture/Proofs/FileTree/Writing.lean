import CrashCapture.Proofs.FileTree.Effects

namespace CrashCapture

namespace FileTree

variable {t t' : FileTree} {p q : Path} {name sub : String} {bytes : Bytes}

/-- A path to a file, or to a place where there is nothing. -/
def Clear (t : FileTree) (p : Path) : Prop :=
  ∃ loc, t.locate false p = .ok loc ∧
    (t.node? loc = none ∨ ∃ content mode, t.node? loc = some (.file content mode))

/-- The process may write the file at a path, or make it, and writing these bytes there does not
stop. -/
structure Permits (access : Access) (t : FileTree) (p : Path) (bytes : Bytes) : Prop where
  writable : ∀ loc old mode, t.locate false p = .ok loc → t.node? loc = some (.file old mode) →
    access.mayWrite mode = true
  makable : ∀ loc, t.locate false p = .ok loc → t.node? loc = none → access.mayMake loc = true
  room : ∀ loc opened, t.locate false p = .ok loc → access.stops opened loc bytes = none

theorem permits_full (t : FileTree) (p : Path) (bytes : Bytes) : Permits .full t p bytes :=
  ⟨fun _ _ _ _ _ => rfl, fun _ _ _ => rfl, fun _ _ _ => rfl⟩

def LeadsToDevice (t : FileTree) (p : Path) : Prop :=
  ∃ loc d, t.locate true p = .ok loc ∧ t.node? loc = some (.device d)

/-- Two paths that do not lead to one place. -/
def LeadApart (t : FileTree) (p q : Path) : Prop :=
  ∀ loc, t.locate true p = .ok loc → t.locate true q ≠ .ok loc

/-- What was written to a file is there, and what other paths lead to is as before. -/
theorem Filed.read_self {loc : Location} (h : Filed loc bytes t t')
    (hloc : t.locate true p = .ok loc) : t'.read p = .ok bytes :=
  read_eq_ok_iff.2 ⟨loc, h.locate_eq_ok_iff.2 hloc, .inl h.wrote.here⟩

theorem Filed.read_apart {loc : Location} (h : Filed loc bytes t t')
    (hloc : t.locate true p = .ok loc) (apart : LeadApart t p q) (found : Bytes) :
    t'.read q = .ok found ↔ t.read q = .ok found := by
  rw [read_eq_ok_iff, read_eq_ok_iff]
  refine exists_congr fun other => ?_
  rw [h.locate_eq_ok_iff]
  refine and_congr_right fun hother => ?_
  have hne : loc ≠ other := by
    rintro rfl
    exact apart loc hloc hother
  rw [h.wrote.contents_of_ne hne, h.wrote.elsewhere other hne]

/-- A directory in which a file of a name can be written: nothing but a file has that name. -/
structure RoomFor (t : FileTree) (p : Path) (name : String) : Prop where
  directory : t.isDirectory p = true
  fits : (Path.join p name).utf8ByteSize < maxPath
  free : ∀ loc, t.locate false (Path.join p name) = .ok loc →
    t.node? loc = none ∨ ∃ content mode, t.node? loc = some (.file content mode)

theorem usable_join (usable : Usable p) (noSlash : '/' ∉ name.toList)
    (noNul : '\x00' ∉ name.toList) (fits : (Path.join p name).utf8ByteSize < maxPath) :
    Usable (Path.join p name) := by
  have hrelative := isAbsolute_of_noSlash noSlash
  have hbefore : '\x00' ∉ p.toList := by simpa using usable.noNul
  have hempty : p ≠ "" := by simpa using usable.ne_empty
  refine ⟨?_, ?_, fits⟩
  · rw [Path.join, if_neg (by simp [hrelative])]
    split <;> simp [hbefore, noNul]
  · rw [Path.join, if_neg (by simp [hrelative])]
    split <;> simp [hempty]

/-- Where there is room, the file is an entry of the directory. -/
theorem RoomFor.located (h : RoomFor t (Path.join p sub) name) (hsub : EntryName sub)
    (hname : EntryName name) (noNul : '\x00' ∉ name.toList) :
    ∃ dir, t.locate true (Path.join p sub) = .ok dir ∧
      t.locate false (Path.join (Path.join p sub) name) = .ok (dir ++ [name]) := by
  obtain ⟨dir, hdir, hnode⟩ := isDirectory_iff.1 h.directory
  obtain ⟨usable, left, hleads⟩ := locate_eq_ok_iff.1 hdir
  have henters : Enters t (Path.join p sub) left dir := by
    rw [Enters, stem_join hsub]
    exact ⟨hleads, hnode⟩
  have husable := usable_join usable hname.noSlash noNul h.fits
  exact ⟨dir, hdir, (locate_entry_eq_ok_iff hname).2 ⟨husable, left, dir, henters, rfl⟩⟩

end FileTree

namespace Disk

open FileTree

variable {t : FileTree} {p : Path} {name sub : String}

theorem writeFile_clear {access : Access} {bytes : Bytes} (hname : EntryName name)
    (clear : Clear t (Path.join p name)) (permits : Permits access t (Path.join p name) bytes) :
    ∃ t', (writeFile (Path.join p name) bytes access).run t = .ok () t' := by
  obtain ⟨loc, hloc, hnode⟩ := clear
  have hroom := fun opened => permits.room loc opened hloc
  obtain ⟨opened, mode, hopened⟩ := openOrCreate_entry (fun _ => .empty) hname hloc hnode
    (fun old mode => permits.writable loc old mode hloc) (permits.makable loc hloc)
  unfold writeFile openTruncated
  rw [run_bind_ok hopened]
  exact ⟨_, write_room (node?_put_self (ne_root_of_place hnode) t _) (hroom _)⟩

/-- Where there is room, the file is written, and nothing else is. -/
theorem writeFile_room (room : RoomFor t (Path.join p sub) name) (hsub : EntryName sub)
    (hname : EntryName name) (noNul : '\x00' ∉ name.toList) (bytes : Bytes) :
    ∃ dir t', t.locate true (Path.join p sub) = .ok dir ∧
      (writeFile (Path.join (Path.join p sub) name) bytes).run t = .ok () t' ∧
      Filed (dir ++ [name]) bytes t t' := by
  obtain ⟨dir, hdir, hentry⟩ := room.located hsub hname noNul
  have hfree := room.free _ hentry
  have noLink : ∀ target, t.node? (dir ++ [name]) ≠ some (.link target) := by
    intro target hlink
    rw [hlink] at hfree
    simp at hfree
  have hfollowed : t.locate true (Path.join (Path.join p sub) name) = .ok (dir ++ [name]) :=
    locate_entry_of_noLink hname hentry noLink
  obtain ⟨t', hrun⟩ := writeFile_clear hname ⟨_, hentry, hfree⟩ (permits_full _ _ bytes)
  refine ⟨dir, t', hdir, hrun, ?_⟩
  rcases writeFile_filed (Path.join (Path.join p sub) name) bytes t with
    ⟨e, he⟩ | ⟨loc, t₁, hok, hloc, hwritten⟩
  · rw [hrun] at he
    cases he
  · rw [hfollowed] at hloc
    rw [hrun] at hok
    cases hloc
    cases hok
    refine hwritten.resolve_right ?_
    rintro ⟨-, d, hd⟩
    rw [hd] at hfree
    simp at hfree

end Disk

end CrashCapture
