import CrashCapture.Host.Directory
import CrashCapture.Proofs.FileTree.Effects
import Mathlib

namespace CrashCapture.DirectoryHost

open FileTree

/-- What is written: the marker of a crash, how the session ended, and events, as they were queued and
as they come after a fault. -/
inductive Place
  | marker
  | session
  | queued (i : Nat)
  | envelope (n : Nat)
deriving DecidableEq, Repr

namespace Place

def name : Place → String
  | marker => lastCrashFile
  | session => sessionFile
  | queued i => "queued-" ++ toString i ++ ".json"
  | envelope n => toString n ++ ".json"

/-- The directory that a file is in, of a client with a directory of its own and one for its run. -/
def parent (directory runPath : Path) : Place → Path
  | marker => directory
  | session => directory
  | queued _ => runPath
  | envelope _ => Path.join directory envelopesDirectory

def path (directory runPath : Path) (p : Place) : Path :=
  Path.join (p.parent directory runPath) p.name

/-- What a name starts with tells of which kind it is. -/
def StartsWith (c : Char) : Place → Prop
  | marker => c = 'l'
  | session => c = 's'
  | queued _ => c = 'q'
  | envelope _ => c.isDigit

theorem exists_startsWith (p : Place) : ∃ c rest, p.name.toList = c :: rest ∧ p.StartsWith c := by
  cases p with
  | marker => exact ⟨'l', _, rfl, rfl⟩
  | session => exact ⟨'s', _, rfl, rfl⟩
  | queued i => exact ⟨'q', _, by rw [name, String.toList_append, String.toList_append]; rfl, rfl⟩
  | envelope n =>
    have hne : (toString n).toList ≠ [] := by
      rw [Nat.toString_eq_repr, Nat.toList_repr]
      exact Nat.toDigits_ne_nil
    obtain ⟨c, rest, hn⟩ := List.exists_cons_of_ne_nil hne
    refine ⟨c, rest ++ ".json".toList, ?_, Text.isDigit_of_mem_toString (hn ▸ List.mem_cons_self)⟩
    rw [name, String.toList_append, hn, List.cons_append]

theorem name_injective : Function.Injective name := by
  intro p q h
  obtain ⟨c, _, hc, hp⟩ := p.exists_startsWith
  obtain ⟨d, _, hd, hq⟩ := q.exists_startsWith
  have hcd : c = d := by
    rw [h, hd] at hc
    exact (List.cons.inj hc).1.symm
  subst hcd
  cases p <;> cases q <;> simp only [StartsWith] at hp hq
  case marker.marker => rfl
  case session.session => rfl
  case queued.queued i j =>
    rw [name, name, String.append_left_inj, String.append_right_inj] at h
    rw [Nat.repr_injective h]
  case envelope.envelope n m =>
    rw [name, name, String.append_left_inj] at h
    rw [Nat.repr_injective h]
  all_goals
    first
    | exact absurd (hp.symm.trans hq) (by decide)
    | exact absurd (hp ▸ hq) (by decide)
    | exact absurd (hq ▸ hp) (by decide)

theorem noSlash (p : Place) : '/' ∉ p.name.toList := by
  have hdigits : ∀ n : Nat, '/' ∉ (toString n).toList := fun n h => by
    cases Text.isDigit_of_mem_toString h
  cases p with
  | marker => decide
  | session => decide
  | queued i =>
    rw [name, String.toList_append, String.toList_append, List.mem_append, List.mem_append]
    rintro ((h | h) | h)
    · revert h; decide
    · exact hdigits i h
    · revert h; decide
  | envelope n =>
    rw [name, String.toList_append, List.mem_append]
    rintro (h | h)
    · exact hdigits n h
    · revert h; decide

/-- The name is none of those that stand for a directory. -/
theorem ne_directory (p : Place) : p.name ≠ "" ∧ p.name ≠ "." ∧ p.name ≠ ".." := by
  obtain ⟨c, rest, hname, hstarts⟩ := p.exists_startsWith
  have hdot : c ≠ '.' := by
    rintro rfl
    cases p <;> revert hstarts <;> simp only [StartsWith] <;> decide
  have hne : ∀ s : String, s.toList.head? = some '.' → p.name ≠ s := by
    rintro s hs rfl
    exact hdot (by simpa [hname] using hs)
  refine ⟨fun h => ?_, hne _ rfl, hne _ rfl⟩
  rw [h] at hname
  cases hname

variable {directory runPath : Path} {t t' : FileTree} {p q : Place} {bytes : Bytes}
  {loc : Location}

theorem entryName_of_locate {followLast : Bool}
    (h : t.locate followLast (p.path directory runPath) = .ok loc) : EntryName p.name := by
  obtain ⟨-, _, _, _, -, hlast⟩ := (locate_join_eq_ok_iff p.noSlash).1 h
  have hslash := p.noSlash
  obtain ⟨hempty, hhere, habove⟩ := p.ne_directory
  generalize p.name = name at hlast hslash hempty hhere habove ⊢
  cases hlast with
  | stay _ names => exact absurd names (by simp [hempty, hhere])
  | up => exact absurd rfl habove
  | down _ names => exact ⟨names, hslash⟩
  | stop _ names => exact ⟨names, hslash⟩
  | follow _ names => exact ⟨names, hslash⟩

end Place

variable {directory runPath : Path} {t t' : FileTree} {p q : Place} {bytes : Bytes}
  {loc : Location}

/-- There are no links or devices in the places that are written. -/
def Regular (directory runPath : Path) (t : FileTree) : Prop :=
  ∀ (p : Place) (loc : Location), t.locate false (p.path directory runPath) = .ok loc →
    (∀ target, t.node? loc ≠ some (.link target)) ∧ ∀ d, t.node? loc ≠ some (.device d)

def isRegular : Node → Bool
  | .directory => true
  | .file .. => true
  | .link _ => false
  | .device _ => false

theorem regular_of_entries (h : ∀ e ∈ t.entries, isRegular e.2) : Regular directory runPath t := by
  have hnode : ∀ {loc : Location} {node : Node}, isRegular node = false →
      t.node? loc ≠ some node := by
    intro loc node hfalse hn
    have hne : node ≠ .directory := by
      rintro rfl
      cases hfalse
    have htrue := h _ (mem_of_node? hn hne)
    rw [hfalse] at htrue
    cases htrue
  exact fun p loc _ => ⟨fun target => hnode rfl, fun d => hnode rfl⟩

/-- A file that is written or read is where its name says. -/
theorem Regular.locate (regular : Regular directory runPath t)
    (h : t.locate true (p.path directory runPath) = .ok loc) :
    (∃ dir, loc = dir ++ [p.name]) ∧ ∀ d, t.node? loc ≠ some (.device d) := by
  have hname := Place.entryName_of_locate h
  obtain ⟨husable, left, dir, left', henters, hlast⟩ := (locate_join_eq_ok_iff p.noSlash).1 h
  obtain ⟨noLink, noDevice⟩ := regular p (dir ++ [p.name])
    ((locate_entry_eq_ok_iff hname).2 ⟨husable, left, dir, henters, rfl⟩)
  rcases hlast.last_cases hname.toDescends with ⟨-, ⟨rfl, -, -⟩ | ⟨_, target, -, -, hlink, -⟩⟩
  · exact ⟨⟨dir, rfl⟩, noDevice⟩
  · exact absurd hlink (noLink target)

/-- Writing a file makes it be read, and leaves the others alone. -/
theorem Regular.write (regular : Regular directory runPath t)
    (h : (Disk.writeFile (p.path directory runPath) bytes).run t = .ok () t') :
    Regular directory runPath t' ∧ t'.read (p.path directory runPath) = .ok bytes ∧
      ∀ q found, q ≠ p → t.read (q.path directory runPath) = .ok found →
        t'.read (q.path directory runPath) = .ok found := by
  rcases Disk.writeFile_filed (p.path directory runPath) bytes t with
    ⟨e, he⟩ | ⟨loc, t₁, hrun, hloc, hwritten⟩
  · rw [he] at h
    cases h
  · rw [hrun] at h
    cases h
    obtain ⟨⟨dir, rfl⟩, noDevice⟩ := regular.locate hloc
    have hfiled := hwritten.resolve_right fun ⟨_, d, hd⟩ => noDevice d hd
    refine ⟨fun q loc hq => ?_, ?_, fun q found hne hq => ?_⟩
    · by_cases heq : loc = dir ++ [p.name]
      · subst heq
        obtain ⟨content, mode, hfile⟩ := hfiled.exists_file
        simp [hfile]
      · rw [hfiled.same.off loc heq]
        exact regular q loc (hfiled.locate_eq_ok_iff.1 hq)
    · exact read_eq_ok_iff.2 ⟨_, hfiled.locate_eq_ok_iff.2 hloc, .inl hfiled.wrote.here⟩
    · obtain ⟨loc, hqloc, hfound⟩ := read_eq_ok_iff.1 hq
      obtain ⟨⟨dir', rfl⟩, -⟩ := regular.locate hqloc
      have hother : dir' ++ [q.name] ≠ dir ++ [p.name] := by
        intro heq
        have hnames := (List.append_inj' heq rfl).2
        exact hne (Place.name_injective (by simpa using hnames))
      refine read_eq_ok_iff.2 ⟨_, hfiled.locate_eq_ok_iff.2 hqloc, ?_⟩
      rwa [contents, hfiled.same.off _ hother]

/-- Writes files, in order. -/
def save (directory runPath : Path) : List (Place × Bytes) → Disk Unit
  | [] => pure ()
  | (p, bytes) :: writes => do
    Disk.writeFile (p.path directory runPath) bytes
    save directory runPath writes

theorem save_append {writes later : List (Place × Bytes)}
    (h : (save directory runPath (writes ++ later)).run t = .ok () t') :
    ∃ t₁, (save directory runPath writes).run t = .ok () t₁ ∧
      (save directory runPath later).run t₁ = .ok () t' := by
  induction writes generalizing t with
  | nil => exact ⟨t, rfl, h⟩
  | cons w writes ih =>
    obtain ⟨p, bytes⟩ := w
    rw [List.cons_append, save] at h
    cases hwrite : (Disk.writeFile (p.path directory runPath) bytes).run t with
    | error e t₁ =>
      rw [run_bind_error hwrite] at h
      cases h
    | ok u t₁ =>
      rw [run_bind_ok hwrite] at h
      obtain ⟨t₂, hwrites, hlater⟩ := ih h
      exact ⟨t₂, by rw [save, run_bind_ok hwrite, hwrites], hlater⟩

theorem save_singleton :
    (save directory runPath [(p, bytes)]).run t =
      (Disk.writeFile (p.path directory runPath) bytes).run t := by
  rw [save, EStateM.run_bind]
  cases (Disk.writeFile (p.path directory runPath) bytes).run t <;> rfl

/-- A file to which only one thing was written is read so. -/
theorem Regular.read_save {writes : List (Place × Bytes)} (regular : Regular directory runPath t)
    (h : (save directory runPath writes).run t = .ok () t') :
    Regular directory runPath t' ∧ ∀ p bytes, (p, bytes) ∈ writes →
      (∀ other, (p, other) ∈ writes → other = bytes) →
        t'.read (p.path directory runPath) = .ok bytes := by
  induction writes using List.reverseRecOn generalizing t' with
  | nil =>
    cases h
    exact ⟨regular, nofun⟩
  | append_singleton writes w ih =>
    obtain ⟨q, new⟩ := w
    obtain ⟨t₁, hsaved, hwrite⟩ := save_append h
    rw [save_singleton] at hwrite
    obtain ⟨hregular, hread⟩ := ih hsaved
    obtain ⟨hregular', hnew, hothers⟩ := hregular.write hwrite
    refine ⟨hregular', fun p bytes hmem honly => ?_⟩
    by_cases hpq : p = q
    · subst hpq
      rw [← honly new (by simp)]
      exact hnew
    · refine hothers p bytes hpq (hread p bytes ?_ fun other hother => honly other (by simp [hother]))
      simpa [hpq] using hmem

/-- Writes files, in order, and goes on where that fails. -/
def saveQuietly (directory runPath : Path) : List (Place × Bytes) → FileTree → FileTree
  | [], t => t
  | (p, bytes) :: writes, t =>
    saveQuietly directory runPath writes
      (endState ((Disk.writeFile (p.path directory runPath) bytes).run t))

theorem saveQuietly_cons (w : Place × Bytes) (writes : List (Place × Bytes)) (t : FileTree) :
    saveQuietly directory runPath (w :: writes) t =
      saveQuietly directory runPath writes (saveQuietly directory runPath [w] t) := rfl

theorem saveQuietly_append (writes later : List (Place × Bytes)) (t : FileTree) :
    saveQuietly directory runPath (writes ++ later) t =
      saveQuietly directory runPath later (saveQuietly directory runPath writes t) := by
  induction writes generalizing t with
  | nil => rfl
  | cons w writes ih =>
    obtain ⟨p, bytes⟩ := w
    exact ih _

theorem saveQuietly_eq {writes : List (Place × Bytes)}
    (h : (save directory runPath writes).run t = .ok () t') :
    saveQuietly directory runPath writes t = t' := by
  induction writes generalizing t with
  | nil =>
    cases h
    rfl
  | cons w writes ih =>
    obtain ⟨p, bytes⟩ := w
    rw [save] at h
    rw [saveQuietly]
    cases hwrite : (Disk.writeFile (p.path directory runPath) bytes).run t with
    | error e t₁ =>
      rw [run_bind_error hwrite] at h
      cases h
    | ok u t₁ =>
      rw [run_bind_ok hwrite] at h
      exact ih h

end CrashCapture.DirectoryHost
