import CrashCapture.Proofs.FileTree.Contents

namespace CrashCapture.FileTree

/-- A name that leads one level down. -/
structure Descends (name : String) : Prop where
  ne_empty : name ≠ ""
  ne_here : name ≠ "."
  ne_above : name ≠ ".."
  fits : name.utf8ByteSize ≤ maxName

instance (name : String) : Decidable (Descends name) :=
  decidable_of_iff (name ≠ "" ∧ name ≠ "." ∧ name ≠ ".." ∧ name.utf8ByteSize ≤ maxName)
    ⟨fun ⟨a, b, c, d⟩ => ⟨a, b, c, d⟩, fun ⟨a, b, c, d⟩ => ⟨a, b, c, d⟩⟩

/-- From a location, names lead to another location. That uses up some of the links that may be
followed. -/
inductive Leads (t : FileTree) (followLast : Bool) :
    Nat → Location → List String → Nat → Location → Prop
  | done {links : Nat} {here : Location} : Leads t followLast links here [] links here
  | stay {links left : Nat} {here loc : Location} {name : String} {rest : List String}
      (directory : t.node? here = some .directory) (names : name = "" ∨ name = ".")
      (onward : Leads t followLast links here rest left loc) :
      Leads t followLast links here (name :: rest) left loc
  | up {links left : Nat} {here loc : Location} {rest : List String}
      (directory : t.node? here = some .directory)
      (onward : Leads t followLast links here.dropLast rest left loc) :
      Leads t followLast links here (".." :: rest) left loc
  | down {links left : Nat} {here loc : Location} {name : String} {rest : List String}
      (directory : t.node? here = some .directory) (names : Descends name)
      (noLink : ∀ target, t.node? (here ++ [name]) ≠ some (.link target))
      (onward : Leads t followLast links (here ++ [name]) rest left loc) :
      Leads t followLast links here (name :: rest) left loc
  | stop {links : Nat} {here : Location} {name : String} {target : Path}
      (directory : t.node? here = some .directory) (names : Descends name)
      (link : t.node? (here ++ [name]) = some (.link target)) (last : followLast = false) :
      Leads t followLast links here [name] links (here ++ [name])
  | follow {links left : Nat} {here loc : Location} {name : String} {rest : List String}
      {target : Path} (directory : t.node? here = some .directory) (names : Descends name)
      (link : t.node? (here ++ [name]) = some (.link target))
      (goesOn : rest ≠ [] ∨ followLast = true)
      (onward : Leads t followLast links (start here target) (pieces target ++ rest) left loc) :
      Leads t followLast (links + 1) here (name :: rest) left loc

/-- How a walk goes on from a link, with so many links to follow. -/
def goOn (t : FileTree) (followLast : Bool) :
    Nat → Location → Path → List String → Except IoError Location
  | 0, _, _, _ => .error .tooManyLinks
  | links + 1, dir, target, rest =>
    t.walk followLast links (start dir target) (pieces target ++ rest)

theorem walk_eq (t : FileTree) (followLast : Bool) (links : Nat) (here : Location)
    (names : List String) :
    t.walk followLast links here names =
      descend t followLast (goOn t followLast links) here names := by
  cases links with
  | zero => exact descend_congr ⟨fun _ => .inl rfl, rfl⟩ followLast (fun _ _ _ => rfl) names here
  | succ links =>
    exact descend_congr ⟨fun _ => .inl rfl, rfl⟩ followLast (fun _ _ _ => rfl) names here

variable {t t' : FileTree} {followLast : Bool} {links left : Nat} {here loc : Location}
  {names : List String}

theorem leads_of_descend
    (hgoOn : ∀ dir target rest loc, goOn t followLast links dir target rest = .ok loc →
      ∃ n left, links = n + 1 ∧
        Leads t followLast n (start dir target) (pieces target ++ rest) left loc)
    (h : descend t followLast (goOn t followLast links) here names = .ok loc) :
    ∃ left, Leads t followLast links here names left loc := by
  induction names generalizing here with
  | nil =>
    cases h
    exact ⟨links, .done⟩
  | cons name rest ih =>
    rw [descend] at h
    cases hhere : t.node? here with
    | none => simp [hhere] at h
    | some node =>
      cases node with
      | directory =>
        simp only [hhere] at h
        by_cases hstay : name = "" ∨ name = "."
        · rw [if_pos (by simpa using hstay)] at h
          obtain ⟨left, honward⟩ := ih h
          exact ⟨left, .stay hhere hstay honward⟩
        · rw [if_neg (by simpa using hstay)] at h
          rw [not_or] at hstay
          by_cases hup : name = ".."
          · subst hup
            rw [if_pos rfl] at h
            obtain ⟨left, honward⟩ := ih h
            exact ⟨left, .up hhere honward⟩
          · rw [if_neg hup] at h
            by_cases hlong : maxName < name.utf8ByteSize
            · rw [if_pos hlong] at h
              cases h
            · rw [if_neg hlong] at h
              have hname : Descends name := ⟨hstay.1, hstay.2, hup, Nat.le_of_not_lt hlong⟩
              by_cases hlink : ∃ target, t.node? (here ++ [name]) = some (.link target)
              · obtain ⟨target, hlink⟩ := hlink
                simp only [hlink] at h
                by_cases hlast : rest = [] ∧ followLast = false
                · obtain ⟨rfl, hlast⟩ := hlast
                  rw [if_pos (by simp [hlast])] at h
                  cases h
                  exact ⟨links, .stop hhere hname hlink hlast⟩
                · rw [if_neg (by simpa using hlast)] at h
                  obtain ⟨n, left, rfl, honward⟩ := hgoOn here target rest loc h
                  refine ⟨left, .follow hhere hname hlink ?_ honward⟩
                  by_cases hrest : rest = []
                  · exact .inr (by simpa [hrest] using hlast)
                  · exact .inl hrest
              · have hnone : ∀ target, t.node? (here ++ [name]) ≠ some (.link target) :=
                  fun target hn => hlink ⟨target, hn⟩
                have hdown : descend t followLast (goOn t followLast links) (here ++ [name]) rest =
                    .ok loc := by
                  revert h
                  split
                  · next target hn => exact absurd hn (hnone target)
                  · exact id
                obtain ⟨left, honward⟩ := ih hdown
                exact ⟨left, .down hhere hname hnone honward⟩
      | _ => simp [hhere] at h

theorem walk_of_leads (h : Leads t followLast links here names left loc) :
    t.walk followLast links here names = .ok loc := by
  induction h with
  | done => rw [walk_eq, descend]
  | stay directory names onward ih =>
    rw [walk_eq, descend, directory]
    dsimp only
    rw [if_pos (by simpa using names), ← walk_eq, ih]
  | up directory onward ih =>
    rw [walk_eq, descend, directory]
    dsimp only
    rw [if_neg (by decide), if_pos rfl, ← walk_eq, ih]
  | down directory names noLink onward ih =>
    rw [walk_eq, descend, directory]
    dsimp only
    rw [if_neg (by simp [names.ne_empty, names.ne_here]), if_neg names.ne_above,
      if_neg (Nat.not_lt.2 names.fits)]
    split
    · next target hn => exact absurd hn (noLink target)
    · rw [← walk_eq, ih]
  | stop directory names link last =>
    rw [walk_eq, descend, directory]
    dsimp only
    rw [if_neg (by simp [names.ne_empty, names.ne_here]), if_neg names.ne_above,
      if_neg (Nat.not_lt.2 names.fits), link]
    simp [last]
  | @follow _ _ _ _ _ rest _ directory names link goesOn onward ih =>
    rw [walk_eq, descend, directory]
    dsimp only
    rw [if_neg (by simp [names.ne_empty, names.ne_here]), if_neg names.ne_above,
      if_neg (Nat.not_lt.2 names.fits), link]
    dsimp only
    rw [if_neg (by cases goesOn <;> simp_all), goOn, ih]

theorem walk_eq_ok_iff :
    t.walk followLast links here names = .ok loc ↔
      ∃ left, Leads t followLast links here names left loc := by
  refine ⟨fun h => ?_, fun ⟨left, h⟩ => walk_of_leads h⟩
  induction links generalizing here names loc with
  | zero =>
    rw [walk_eq] at h
    exact leads_of_descend (fun _ _ _ _ hgoOn => by cases hgoOn) h
  | succ links ih =>
    rw [walk_eq] at h
    refine leads_of_descend (fun dir target rest loc hgoOn => ?_) h
    obtain ⟨left, honward⟩ := ih hgoOn
    exact ⟨links, left, rfl, honward⟩

/-- A path that the system looks at. -/
structure Usable (p : Path) : Prop where
  noNul : p.toList.contains '\x00' = false
  ne_empty : p.isEmpty = false
  fits : p.utf8ByteSize < maxPath

theorem locate_eq_ok_iff {p : Path} :
    t.locate followLast p = .ok loc ↔
      Usable p ∧
        ∃ left, Leads t followLast maxLinks (start t.workingDirectory p) (pieces p) left loc := by
  unfold locate
  by_cases hnul : p.toList.contains '\x00' = true
  · rw [if_pos hnul]
    exact ⟨nofun, fun h => absurd (h.1.noNul.symm.trans hnul) nofun⟩
  · rw [if_neg hnul]
    by_cases hempty : p.isEmpty = true
    · rw [if_pos hempty]
      exact ⟨nofun, fun h => absurd (h.1.ne_empty.symm.trans hempty) nofun⟩
    · rw [if_neg hempty]
      by_cases hlong : maxPath ≤ p.utf8ByteSize
      · rw [if_pos hlong]
        exact ⟨nofun, fun h => absurd h.1.fits (Nat.not_lt.2 hlong)⟩
      · rw [if_neg hlong, walk_eq_ok_iff]
        exact ⟨fun h => ⟨⟨Bool.eq_false_iff.2 hnul, Bool.eq_false_iff.2 hempty,
          Nat.lt_of_not_le hlong⟩, h⟩, fun h => h.2⟩

namespace Leads

variable {D : Location} {xs ys : List String} {mid : Nat}

theorem append (h : Leads t true links here xs mid D) (h' : Leads t followLast mid D ys left loc)
    (hys : ys ≠ []) : Leads t followLast links here (xs ++ ys) left loc := by
  induction h with
  | done => exact h'
  | stay directory names onward ih => exact .stay directory names (ih h')
  | up directory onward ih => exact .up directory (ih h')
  | down directory names noLink onward ih => exact .down directory names noLink (ih h')
  | stop directory names link last => cases last
  | follow directory names link goesOn onward ih =>
    rw [List.cons_append]
    refine .follow directory names link (.inl (by simp [hys])) ?_
    rw [← List.append_assoc]
    exact ih h'

theorem split (h : Leads t followLast links here names left loc) (hnames : names = xs ++ ys)
    (hys : ys ≠ [] ∨ followLast = true) :
    ∃ mid D, Leads t true links here xs mid D ∧ Leads t followLast mid D ys left loc := by
  induction h generalizing xs with
  | done =>
    obtain ⟨rfl, rfl⟩ := List.append_eq_nil_iff.1 hnames.symm
    exact ⟨_, _, .done, .done⟩
  | stay directory names onward ih =>
    cases xs with
    | nil =>
      subst hnames
      exact ⟨_, _, .done, .stay directory names onward⟩
    | cons x xs =>
      obtain ⟨rfl, rfl⟩ := List.cons.inj hnames
      obtain ⟨mid, D, hxs, hrest⟩ := ih rfl
      exact ⟨mid, D, .stay directory names hxs, hrest⟩
  | up directory onward ih =>
    cases xs with
    | nil =>
      subst hnames
      exact ⟨_, _, .done, .up directory onward⟩
    | cons x xs =>
      obtain ⟨rfl, rfl⟩ := List.cons.inj hnames
      obtain ⟨mid, D, hxs, hrest⟩ := ih rfl
      exact ⟨mid, D, .up directory hxs, hrest⟩
  | down directory names noLink onward ih =>
    cases xs with
    | nil =>
      subst hnames
      exact ⟨_, _, .done, .down directory names noLink onward⟩
    | cons x xs =>
      obtain ⟨rfl, rfl⟩ := List.cons.inj hnames
      obtain ⟨mid, D, hxs, hrest⟩ := ih rfl
      exact ⟨mid, D, .down directory names noLink hxs, hrest⟩
  | stop directory names link last =>
    cases xs with
    | nil =>
      subst hnames
      exact ⟨_, _, .done, .stop directory names link last⟩
    | cons x xs =>
      obtain ⟨-, hnil⟩ := List.cons.inj hnames
      obtain ⟨rfl, rfl⟩ := List.append_eq_nil_iff.1 hnil.symm
      simp [last] at hys
  | @follow _ _ _ _ _ rest target directory names link goesOn onward ih =>
    cases xs with
    | nil =>
      subst hnames
      exact ⟨_, _, .done, .follow directory names link goesOn onward⟩
    | cons x xs =>
      obtain ⟨rfl, rfl⟩ := List.cons.inj hnames
      obtain ⟨mid, D, hxs, hrest⟩ := ih (List.append_assoc _ _ _).symm
      exact ⟨mid, D, .follow directory names link (.inr rfl) hxs, hrest⟩

/-- Where names lead does not depend on how many links may be followed, and how many are left is only
moved by that. -/
theorem unique {links' left' : Nat} {loc' : Location}
    (h : Leads t followLast links here names left loc)
    (h' : Leads t followLast links' here names left' loc') :
    loc = loc' ∧ links + left' = links' + left := by
  induction h generalizing links' with
  | done =>
    cases h'
    exact ⟨rfl, Nat.add_comm _ _⟩
  | stay directory names onward ih =>
    cases h' with
    | stay _ _ onward' => exact ih onward'
    | up => exact absurd names (by decide)
    | down _ names' => exact absurd names (by simp [names'.ne_empty, names'.ne_here])
    | stop _ names' => exact absurd names (by simp [names'.ne_empty, names'.ne_here])
    | follow _ names' => exact absurd names (by simp [names'.ne_empty, names'.ne_here])
  | up directory onward ih =>
    cases h' with
    | stay _ names' => exact absurd names' (by decide)
    | up _ onward' => exact ih onward'
    | down _ names' => exact absurd rfl names'.ne_above
    | stop _ names' => exact absurd rfl names'.ne_above
    | follow _ names' => exact absurd rfl names'.ne_above
  | down directory names noLink onward ih =>
    cases h' with
    | stay _ names' => exact absurd names' (by simp [names.ne_empty, names.ne_here])
    | up => exact absurd rfl names.ne_above
    | down _ _ _ onward' => exact ih onward'
    | stop _ _ link => exact absurd link (noLink _)
    | follow _ _ link => exact absurd link (noLink _)
  | stop directory names link last =>
    cases h' with
    | stay _ names' => exact absurd names' (by simp [names.ne_empty, names.ne_here])
    | up => exact absurd rfl names.ne_above
    | down _ _ noLink => exact absurd link (noLink _)
    | stop => exact ⟨rfl, Nat.add_comm _ _⟩
    | follow _ _ _ goesOn => simp [last] at goesOn
  | follow directory names link goesOn onward ih =>
    cases h' with
    | stay _ names' => exact absurd names' (by simp [names.ne_empty, names.ne_here])
    | up => exact absurd rfl names.ne_above
    | down _ _ noLink => exact absurd link (noLink _)
    | stop _ _ _ last => simp [last] at goesOn
    | follow _ _ link' _ onward' =>
      obtain rfl : _ = _ := Node.link.inj (Option.some.inj (link.symm.trans link'))
      obtain ⟨hloc, hleft⟩ := ih onward'
      exact ⟨hloc, by omega⟩

/-- There is a directory wherever names go on from. -/
theorem directory {name : String} {rest : List String}
    (h : Leads t followLast links here (name :: rest) left loc) :
    t.node? here = some .directory := by
  cases h <;> assumption

/-- The last name of a path leads one level down, or on along a link. -/
theorem last_cases {name : String} (hname : Descends name)
    (h : Leads t followLast links D [name] left loc) :
    t.node? D = some .directory ∧
      (loc = D ++ [name] ∧ left = links ∧
          (followLast = false ∨ ∀ target, t.node? loc ≠ some (.link target)) ∨
        ∃ n target, links = n + 1 ∧ followLast = true ∧
          t.node? (D ++ [name]) = some (.link target) ∧
          Leads t true n (start D target) (pieces target) left loc) := by
  cases h with
  | stay _ names => exact absurd names (by simp [hname.ne_empty, hname.ne_here])
  | up => exact absurd rfl hname.ne_above
  | down directory _ noLink onward =>
    cases onward
    exact ⟨directory, .inl ⟨rfl, rfl, .inr noLink⟩⟩
  | stop directory _ _ last => exact ⟨directory, .inl ⟨rfl, rfl, .inl last⟩⟩
  | follow directory _ link goesOn onward =>
    have hlast : followLast = true := by simpa using goesOn
    subst hlast
    rw [List.append_nil] at onward
    exact ⟨directory, .inr ⟨_, _, rfl, rfl, link, onward⟩⟩

/-- A walk goes on from where its first names lead. -/
theorem walk_append (h : Leads t true links here xs mid D) (hys : ys ≠ []) :
    t.walk followLast links here (xs ++ ys) = t.walk followLast mid D ys := by
  induction h with
  | done => rfl
  | stay directory names _ ih =>
    rw [List.cons_append, walk_eq, descend, directory]
    dsimp only
    rw [if_pos (by simpa using names), ← walk_eq, ih]
  | up directory _ ih =>
    rw [List.cons_append, walk_eq, descend, directory]
    dsimp only
    rw [if_neg (by decide), if_pos rfl, ← walk_eq, ih]
  | down directory names noLink _ ih =>
    rw [List.cons_append, walk_eq, descend, directory]
    dsimp only
    rw [if_neg (by simp [names.ne_empty, names.ne_here]), if_neg names.ne_above,
      if_neg (Nat.not_lt.2 names.fits)]
    split
    · next target hn => exact absurd hn (noLink target)
    · rw [← walk_eq, ih]
  | stop _ _ _ last => cases last
  | follow directory names link _ _ ih =>
    rw [List.cons_append, walk_eq, descend, directory]
    dsimp only
    rw [if_neg (by simp [names.ne_empty, names.ne_here]), if_neg names.ne_above,
      if_neg (Nat.not_lt.2 names.fits), link]
    dsimp only
    rw [if_neg (by simp [hys]), goOn, ← List.append_assoc, ih]
end Leads

end CrashCapture.FileTree
