import CrashCapture.Proofs.FileTree.Resolution

namespace CrashCapture

namespace Text

theorem splitAll_of_notMem {sep : Char} {s : List Char} (h : sep ∉ s) : splitAll sep s = [s] := by
  induction s with
  | nil => rfl
  | cons c cs ih =>
    rw [List.mem_cons, not_or] at h
    rw [splitAll, ih h.2]
    exact if_neg (Ne.symm h.1)

theorem splitAll_ne_nil (sep : Char) (s : List Char) : splitAll sep s ≠ [] := by
  cases s with
  | nil => simp [splitAll]
  | cons c cs =>
    rw [splitAll]
    split
    · simp
    · split <;> simp

theorem splitAll_append (sep : Char) (a b : List Char) :
    splitAll sep (a ++ sep :: b) = splitAll sep a ++ splitAll sep b := by
  induction a with
  | nil =>
    obtain ⟨p, ps, hb⟩ := List.exists_cons_of_ne_nil (splitAll_ne_nil sep b)
    simp [splitAll, hb]
  | cons c cs ih =>
    obtain ⟨p, ps, hcs⟩ := List.exists_cons_of_ne_nil (splitAll_ne_nil sep cs)
    rw [List.cons_append, splitAll, ih, splitAll, hcs]
    by_cases hc : c = sep <;> simp [hc]

end Text

namespace FileTree

/-- A name that an entry of a directory can have. -/
structure EntryName (name : String) : Prop extends Descends name where
  noSlash : '/' ∉ name.toList

instance (name : String) : Decidable (EntryName name) :=
  decidable_of_iff (Descends name ∧ '/' ∉ name.toList) ⟨fun ⟨a, b⟩ => ⟨a, b⟩, fun ⟨a, b⟩ => ⟨a, b⟩⟩

/-- The names on the way to the entries of a directory. -/
def stem (p : Path) : List String :=
  if p.isEmpty || p.toList.getLast? = some '/' then (pieces p).dropLast else pieces p

theorem isAbsolute_of_noSlash {name : String} (h : '/' ∉ name.toList) :
    Path.isAbsolute name = false := by
  cases hlist : name.toList with
  | nil => simp [Path.isAbsolute, hlist]
  | cons c cs =>
    rw [hlist, List.mem_cons, not_or] at h
    simpa [Path.isAbsolute, hlist] using Ne.symm h.1

theorem isAbsolute_join {p : Path} {name : String} (h : '/' ∉ name.toList) :
    Path.isAbsolute (Path.join p name) = Path.isAbsolute p := by
  have hname := isAbsolute_of_noSlash h
  rw [Path.join, if_neg (by simp [hname])]
  by_cases hp : p = ""
  · subst hp
    simpa [Path.isAbsolute] using hname
  · have hlist : p.toList ≠ [] := by simpa using hp
    obtain ⟨c, cs, hcons⟩ := List.exists_cons_of_ne_nil hlist
    split <;> simp [Path.isAbsolute, hcons]

theorem pieces_join {p : Path} {name : String} (h : '/' ∉ name.toList) :
    pieces (Path.join p name) = stem p ++ [name] := by
  have hname := isAbsolute_of_noSlash h
  have hsplit : (Text.splitAll '/' name.toList).map String.ofList = [name] := by
    rw [Text.splitAll_of_notMem h]
    simp
  rw [Path.join, if_neg (by simp [hname]), stem]
  by_cases hp : p = ""
  · subst hp
    simp [pieces, hsplit, Text.splitAll]
  · by_cases hslash : p.toList.getLast? = some '/'
    · obtain ⟨q, hq⟩ := List.getLast?_eq_some_iff.1 hslash
      have hpieces : pieces p = (Text.splitAll '/' q).map String.ofList ++ [""] := by
        rw [pieces, hq, Text.splitAll_append]
        simp [Text.splitAll]
      rw [if_pos (by simp [hslash]), if_pos (by simp [hslash]), hpieces, List.dropLast_concat,
        pieces, String.toList_append, hq, List.append_assoc, List.singleton_append,
        Text.splitAll_append, List.map_append, hsplit]
    · rw [if_neg (by simp [hp, hslash]), if_neg (by simp [hp, hslash]), pieces, pieces,
        String.toList_append, String.toList_append, List.append_assoc]
      change (Text.splitAll '/' (p.toList ++ '/' :: name.toList)).map _ = _
      rw [Text.splitAll_append, List.map_append, hsplit]

/-- The paths of all entries of a directory begin in the same way. -/
theorem exists_lead (p : Path) : ∃ lead : String, ∀ {name : String}, '/' ∉ name.toList →
    Path.join p name = lead ++ name := by
  by_cases hbare : p.isEmpty || p.toList.getLast? = some '/'
  · refine ⟨p, fun hname => ?_⟩
    rw [Path.join, if_neg (by simp [isAbsolute_of_noSlash hname]), if_pos hbare]
  · refine ⟨p ++ "/", fun hname => ?_⟩
    rw [Path.join, if_neg (by simp [isAbsolute_of_noSlash hname]), if_neg hbare]

theorem getLast?_join {p : Path} {name : String} (hname : EntryName name) :
    (Path.join p name).toList.getLast? ≠ some '/' := by
  obtain ⟨lead, hlead⟩ := exists_lead p
  have hne : name.toList ≠ [] := by simpa using hname.ne_empty
  have hlast := List.getLast?_eq_some_getLast hne
  have hmem : name.toList.getLast hne ≠ '/' := by
    intro heq
    exact hname.noSlash (heq ▸ List.getLast_mem hne)
  rw [hlead hname.noSlash, String.toList_append, List.getLast?_append, hlast]
  simpa using hmem

/-- The names on the way to the entries of a directory are those on the way to the directory. -/
theorem stem_join {p : Path} {name : String} (hname : EntryName name) :
    stem (Path.join p name) = pieces (Path.join p name) := by
  obtain ⟨lead, hlead⟩ := exists_lead p
  have hempty : (Path.join p name).isEmpty = false := by
    rw [hlead hname.noSlash]
    simp [hname.ne_empty]
  rw [stem, hempty, Bool.false_or, if_neg (by simpa using getLast?_join hname)]

/-- The directory in which the entries are that a path leads to. -/
def Enters (t : FileTree) (p : Path) (left : Nat) (dir : Location) : Prop :=
  Leads t true maxLinks (start t.workingDirectory p) (stem p) left dir ∧
    t.node? dir = some .directory

variable {t : FileTree} {p : Path} {name : String} {followLast : Bool} {loc : Location}

theorem Enters.unique {left left' : Nat} {dir dir' : Location} (h : Enters t p left dir)
    (h' : Enters t p left' dir') : left = left' ∧ dir = dir' := by
  obtain ⟨hdir, hleft⟩ := h.1.unique h'.1
  exact ⟨by omega, hdir⟩

theorem locate_join_eq_ok_iff (hname : '/' ∉ name.toList) :
    t.locate followLast (Path.join p name) = .ok loc ↔
      Usable (Path.join p name) ∧
        ∃ left dir left', Enters t p left dir ∧ Leads t followLast left dir [name] left' loc := by
  have hstart : start t.workingDirectory (Path.join p name) = start t.workingDirectory p := by
    simp only [start, isAbsolute_join hname]
  rw [locate_eq_ok_iff, pieces_join hname, hstart]
  refine and_congr_right fun _ => ⟨?_, ?_⟩
  · rintro ⟨left', h⟩
    obtain ⟨left, dir, hstem, hlast⟩ := h.split rfl (.inl (by simp))
    exact ⟨left, dir, left', ⟨hstem, hlast.directory⟩, hlast⟩
  · rintro ⟨left, dir, left', hstem, hlast⟩
    exact ⟨left', hstem.1.append hlast (by simp)⟩

theorem leads_last (hname : Descends name) {dir : Location} (h : t.node? dir = some .directory)
    (left : Nat) : Leads t false left dir [name] left (dir ++ [name]) := by
  by_cases hlink : ∃ target, t.node? (dir ++ [name]) = some (.link target)
  · obtain ⟨target, hlink⟩ := hlink
    exact .stop h hname hlink rfl
  · exact .down h hname (fun target hn => hlink ⟨target, hn⟩) .done

/-- An entry itself, which may be a link. -/
theorem locate_entry_eq_ok_iff (hname : EntryName name) :
    t.locate false (Path.join p name) = .ok loc ↔
      Usable (Path.join p name) ∧ ∃ left dir, Enters t p left dir ∧ loc = dir ++ [name] := by
  rw [locate_join_eq_ok_iff hname.noSlash]
  refine and_congr_right fun _ => ⟨?_, ?_⟩
  · rintro ⟨left, dir, left', hdir, hlast⟩
    rcases hlast.last_cases hname.toDescends with ⟨-, ⟨hloc, -⟩ | ⟨_, _, _, hfalse, _⟩⟩
    · exact ⟨left, dir, hdir, hloc⟩
    · cases hfalse
  · rintro ⟨left, dir, hdir, rfl⟩
    exact ⟨left, dir, left, hdir, leads_last hname.toDescends hdir.2 left⟩

/-- An entry that is no link is found whether links are followed or not. -/
theorem locate_entry_of_noLink (hname : EntryName name)
    (hloc : t.locate false (Path.join p name) = .ok loc)
    (noLink : ∀ target, t.node? loc ≠ some (.link target)) :
    t.locate followLast (Path.join p name) = .ok loc := by
  obtain ⟨usable, left, dir, henters, rfl⟩ := (locate_entry_eq_ok_iff hname).1 hloc
  exact (locate_join_eq_ok_iff hname.noSlash).2 ⟨usable, left, dir, left, henters,
    .down henters.2 hname.toDescends noLink .done⟩

/-- In a directory, an entry is looked up alone. -/
theorem locate_join_of_enters (hname : '/' ∉ name.toList) (usable : Usable (Path.join p name))
    {left : Nat} {dir : Location} (henters : Enters t p left dir) :
    t.locate followLast (Path.join p name) = t.walk followLast left dir [name] := by
  have hstart : start t.workingDirectory (Path.join p name) = start t.workingDirectory p := by
    simp only [start, isAbsolute_join hname]
  have hfits : ¬maxPath ≤ (Path.join p name).utf8ByteSize := Nat.not_le.2 usable.fits
  rw [locate, usable.noNul, usable.ne_empty, if_neg nofun, if_neg nofun, if_neg hfits,
    pieces_join hname, hstart]
  exact henters.1.walk_append (by simp)

end FileTree

end CrashCapture
