import CrashCapture.Proofs.FileTree.Entries

namespace CrashCapture.FileTree

/-- Nothing is different but at some locations. -/
structure SameOff (S : Location → Prop) (t t' : FileTree) : Prop where
  off : ∀ loc, ¬S loc → t'.node? loc = t.node? loc
  workingDirectory : t'.workingDirectory = t.workingDirectory

variable {S : Location → Prop} {t t' : FileTree} {followLast : Bool} {links left : Nat}
  {here loc : Location} {names : List String}

theorem SameOff.symm (h : SameOff S t t') : SameOff S t' t :=
  ⟨fun loc hloc => (h.off loc hloc).symm, h.workingDirectory.symm⟩

/-- Names lead along a link at one of some locations, and after that along none of these. -/
def LeadsAlong (S : Location → Prop) (t t' : FileTree) (followLast : Bool) (left : Nat)
    (loc : Location) : Prop :=
  ∃ n at' target rest, S at' ∧ t.node? at' = some (.link target) ∧
    Leads t followLast n (start at'.dropLast target) (pieces target ++ rest) left loc ∧
    Leads t' followLast n (start at'.dropLast target) (pieces target ++ rest) left loc

/-- Where there was no directory, a change makes a way another one only by a link: by one that was
followed, or by a new one at its end. -/
theorem Leads.transfer (same : SameOff S t t')
    (noDirectory : ∀ loc, S loc → t.node? loc ≠ some .directory)
    (h : Leads t followLast links here names left loc) :
    Leads t' followLast links here names left loc ∨ LeadsAlong S t t' followLast left loc ∨
      followLast = true ∧ S loc ∧ ∃ target, t'.node? loc = some (.link target) := by
  have stays : ∀ {dir}, t.node? dir = some .directory → t'.node? dir = some .directory :=
    fun {dir} hdir => (same.off dir fun hS => noDirectory dir hS hdir).trans hdir
  induction h with
  | done => exact .inl .done
  | stay directory names onward ih =>
    rcases ih with ih | ih
    · exact .inl (.stay (stays directory) names ih)
    · exact .inr ih
  | up directory onward ih =>
    rcases ih with ih | ih
    · exact .inl (.up (stays directory) ih)
    · exact .inr ih
  | @down links left here loc name rest directory names noLink onward ih =>
    by_cases hS : S (here ++ [name])
    · cases rest with
      | cons _ _ => exact absurd onward.directory (noDirectory _ hS)
      | nil =>
        cases onward
        by_cases hlink : ∃ target, t'.node? (here ++ [name]) = some (.link target)
        · cases followLast with
          | true => exact .inr (.inr ⟨rfl, hS, hlink⟩)
          | false => exact .inl (leads_last names (stays directory) links)
        · exact .inl (.down (stays directory) names (fun target hn => hlink ⟨target, hn⟩) .done)
    · rcases ih with ih | ih
      · refine .inl (.down (stays directory) names (fun target hn => noLink target ?_) ih)
        rwa [← same.off _ hS]
      · exact .inr ih
  | stop directory names link last =>
    subst last
    exact .inl (leads_last names (stays directory) _)
  | @follow links left here loc name rest target directory names link goesOn onward ih =>
    by_cases hS : S (here ++ [name])
    · rcases ih with ih | ih
      · have hdrop : (here ++ [name]).dropLast = here := List.dropLast_concat
        exact .inr (.inl ⟨links, here ++ [name], target, rest, hS, link, by rwa [hdrop],
          by rwa [hdrop]⟩)
      · exact .inr ih
    · rcases ih with ih | ih
      · exact .inl (.follow (stays directory) names ((same.off _ hS).trans link) goesOn ih)
      · exact .inr ih

/-- There is neither a directory nor a link. -/
structure Plain (t : FileTree) (loc : Location) : Prop where
  noDirectory : t.node? loc ≠ some .directory
  noLink : ∀ target, t.node? loc ≠ some (.link target)

/-- Changes that concern neither directories nor links change no way. -/
theorem SameOff.leads_iff (same : SameOff S t t') (plain : ∀ loc, S loc → Plain t loc)
    (plain' : ∀ loc, S loc → Plain t' loc) :
    Leads t' followLast links here names left loc ↔
      Leads t followLast links here names left loc := by
  have transfer : ∀ {t t'}, SameOff S t t' → (∀ loc, S loc → Plain t loc) →
      (∀ loc, S loc → Plain t' loc) → Leads t followLast links here names left loc →
      Leads t' followLast links here names left loc := by
    intro t t' same plain plain' h
    rcases h.transfer same (fun loc hS => (plain loc hS).noDirectory) with
      h | ⟨_, at', target, _, hS, hlink, _⟩ | ⟨_, hS, target, hlink⟩
    · exact h
    · exact absurd hlink ((plain at' hS).noLink target)
    · exact absurd hlink ((plain' loc hS).noLink target)
  exact ⟨transfer same.symm plain' plain, transfer same plain plain'⟩

theorem SameOff.locate_eq_ok_iff (same : SameOff S t t') (plain : ∀ loc, S loc → Plain t loc)
    (plain' : ∀ loc, S loc → Plain t' loc) {p : Path} :
    t'.locate followLast p = .ok loc ↔ t.locate followLast p = .ok loc := by
  rw [FileTree.locate_eq_ok_iff, FileTree.locate_eq_ok_iff, same.workingDirectory]
  simp only [same.leads_iff plain plain']

/-- A way that leads along a link and on from there leads to where the link leads, if that is no
directory. -/
theorem Leads.eq_of_target {n left' : Nat} {ys rest : List String} {end' : Location}
    (h : Leads t true links here (ys ++ rest) left loc) (h' : Leads t true n here ys left' end')
    (hend : t.node? end' ≠ some .directory) : loc = end' := by
  cases rest with
  | nil =>
    rw [List.append_nil] at h
    exact (h.unique h').1
  | cons name rest =>
    obtain ⟨mid, dir, hys, hrest⟩ := h.split rfl (.inr rfl)
    obtain ⟨rfl, -⟩ := hys.unique h'
    exact absurd hrest.directory hend

/-- Names pass a location, on their way or at its end, and whether or not they lead anywhere. -/
inductive Visits (t : FileTree) (a : Location) : Nat → Location → List String → Prop
  | here {links : Nat} {names : List String} : Visits t a links a names
  | stay {links : Nat} {here : Location} {name : String} {rest : List String}
      (directory : t.node? here = some .directory) (names : name = "" ∨ name = ".")
      (onward : Visits t a links here rest) : Visits t a links here (name :: rest)
  | up {links : Nat} {here : Location} {rest : List String}
      (directory : t.node? here = some .directory)
      (onward : Visits t a links here.dropLast rest) : Visits t a links here (".." :: rest)
  | down {links : Nat} {here : Location} {name : String} {rest : List String}
      (directory : t.node? here = some .directory) (names : Descends name)
      (noLink : ∀ target, t.node? (here ++ [name]) ≠ some (.link target))
      (onward : Visits t a links (here ++ [name]) rest) : Visits t a links here (name :: rest)
  | follow {links : Nat} {here : Location} {name : String} {rest : List String} {target : Path}
      (directory : t.node? here = some .directory) (names : Descends name)
      (link : t.node? (here ++ [name]) = some (.link target))
      (onward : Visits t a links (start here target) (pieces target ++ rest)) :
      Visits t a (links + 1) here (name :: rest)

/-- With all links followed, names pass where they lead. -/
theorem Leads.visits (h : Leads t true links here names left loc) : Visits t loc links here names := by
  induction h with
  | done => exact .here
  | stay directory names _ ih => exact .stay directory names ih
  | up directory _ ih => exact .up directory ih
  | down directory names noLink _ ih => exact .down directory names noLink ih
  | stop _ _ _ last => cases last
  | follow directory names link _ _ ih => exact .follow directory names link ih

/-- Whether a location is passed does not depend on what is there, unless that is a directory or a
link. -/
theorem Visits.of_same {a : Location} (same : SameOff (· = a) t t') (plain : Plain t a) (plain' : Plain t' a)
    (h : Visits t a links here names) : Visits t' a links here names := by
  have stays : ∀ {dir}, t.node? dir = some .directory → t'.node? dir = some .directory := by
    intro dir hdir
    rw [same.off dir]
    · exact hdir
    · rintro rfl
      exact plain.noDirectory hdir
  induction h with
  | here => exact .here
  | stay directory names _ ih => exact .stay (stays directory) names ih
  | up directory _ ih => exact .up (stays directory) ih
  | @down _ here name _ directory names noLink _ ih =>
    refine .down (stays directory) names (fun target hlink => ?_) ih
    by_cases ha : here ++ [name] = a
    · exact plain'.noLink target (ha ▸ hlink)
    · exact noLink target (same.off _ ha ▸ hlink)
  | @follow _ here name _ target directory names link _ ih =>
    refine .follow (stays directory) names ?_ ih
    rw [same.off]
    · exact link
    · intro ha
      exact plain.noLink target (ha ▸ link)

theorem descend_of_unvisited {a : Location} (same : SameOff (· = a) t t') (plain : Plain t a) (plain' : Plain t' a)
    (hgoOn : ∀ dir target rest name, t.node? dir = some .directory → Descends name →
      t.node? (dir ++ [name]) = some (.link target) → ¬Visits t a links dir (name :: rest) →
      goOn t' followLast links dir target rest = goOn t followLast links dir target rest)
    (h : ¬Visits t a links here names) :
    descend t' followLast (goOn t' followLast links) here names =
      descend t followLast (goOn t followLast links) here names := by
  induction names generalizing here with
  | nil => rfl
  | cons name rest ih =>
    have hhere : here ≠ a := by
      rintro rfl
      exact h .here
    rw [descend, descend, same.off here hhere]
    rcases hnode : t.node? here with _ | (_ | _ | _ | _)
    all_goals try rfl
    dsimp only
    by_cases hstay : (name = "" || name = ".") = true
    · rw [if_pos hstay, if_pos hstay]
      exact ih fun honward => h (.stay hnode (by simpa using hstay) honward)
    rw [if_neg hstay, if_neg hstay]
    simp only [Bool.or_eq_true, decide_eq_true_eq, not_or] at hstay
    by_cases hup : name = ".."
    · subst hup
      rw [if_pos rfl, if_pos rfl]
      exact ih fun honward => h (.up hnode honward)
    rw [if_neg hup, if_neg hup]
    by_cases hlong : maxName < name.utf8ByteSize
    · rw [if_pos hlong, if_pos hlong]
    rw [if_neg hlong, if_neg hlong]
    have hname : Descends name := ⟨hstay.1, hstay.2, hup, Nat.le_of_not_lt hlong⟩
    by_cases hlink : ∃ target, t.node? (here ++ [name]) = some (.link target)
    · obtain ⟨target, hlink⟩ := hlink
      have hne : here ++ [name] ≠ a := fun ha => plain.noLink target (ha ▸ hlink)
      rw [same.off _ hne, hlink]
      dsimp only
      rw [hgoOn here target rest name hnode hname hlink h]
    · have hnone : ∀ target, t.node? (here ++ [name]) ≠ some (.link target) :=
        fun target hn => hlink ⟨target, hn⟩
      have hnone' : ∀ target, t'.node? (here ++ [name]) ≠ some (.link target) := by
        intro target hn
        by_cases ha : here ++ [name] = a
        · exact plain'.noLink target (ha ▸ hn)
        · exact hnone target (same.off _ ha ▸ hn)
      have honward := ih fun honward => h (.down hnode hname hnone honward)
      split
      · next target hn => exact absurd hn (hnone' target)
      · exact honward

/-- Where a walk goes, and how it fails, does not depend on a location that it does not pass. -/
theorem walk_of_unvisited {a : Location} (same : SameOff (· = a) t t') (plain : Plain t a) (plain' : Plain t' a)
    (h : ¬Visits t a links here names) :
    t'.walk followLast links here names = t.walk followLast links here names := by
  induction links generalizing here names with
  | zero =>
    rw [walk_eq, walk_eq]
    exact descend_of_unvisited same plain plain' (fun _ _ _ _ _ _ _ _ => rfl) h
  | succ links ih =>
    rw [walk_eq, walk_eq]
    refine descend_of_unvisited same plain plain' ?_ h
    intro dir target rest name directory names link hrest
    exact ih fun honward => hrest (.follow directory names link honward)

/-- Whatever there is is in a directory. -/
def Coherent (t : FileTree) : Prop :=
  ∀ loc name, (t.node? (loc ++ [name])).isSome → t.node? loc = some .directory

theorem mem_of_lookup {entries : List (Location × Node)} {node : Node}
    (h : lookup loc entries = some node) : (loc, node) ∈ entries := by
  induction entries with
  | nil => cases h
  | cons e es ih =>
    obtain ⟨l, n⟩ := e
    rw [lookup] at h
    split at h
    · next heq =>
      cases h
      exact heq ▸ List.mem_cons_self
    · exact .tail _ (ih h)

theorem mem_of_node? {node : Node} (h : t.node? loc = some node) (hne : node ≠ .directory) :
    (loc, node) ∈ t.entries := by
  unfold node? at h
  split at h
  · exact absurd (Option.some.inj h).symm hne
  · exact mem_of_lookup h

theorem coherent_of_entries
    (h : ∀ e ∈ t.entries, e.1 = [] ∨ t.node? e.1.dropLast = some .directory) : Coherent t := by
  intro loc name hsome
  obtain ⟨node, hn⟩ := Option.isSome_iff_exists.1 hsome
  rw [node?, if_neg (by simp)] at hn
  rcases h _ (mem_of_lookup hn) with hnil | hdirectory
  · simp at hnil
  · rwa [List.dropLast_concat] at hdirectory

theorem Coherent.dropLast (h : Coherent t) (hloc : t.node? loc = some .directory) :
    t.node? loc.dropLast = some .directory := by
  rcases List.eq_nil_or_concat loc with rfl | ⟨dir, name, rfl⟩
  · rfl
  · rw [List.concat_eq_append] at hloc ⊢
    rw [List.dropLast_concat]
    exact h dir name (by simp [hloc])

/-- What is at the end of a way is in a directory. -/
theorem Leads.inside (coherent : Coherent t) (h : Leads t followLast links here names left loc)
    (hnames : names ≠ []) :
    t.node? loc = some .directory ∨ ∃ dir name, loc = dir ++ [name] ∧
      t.node? dir = some .directory := by
  have key : ∀ {links here names left loc}, Leads t followLast links here names left loc →
      (t.node? here = some .directory ∨ ∃ dir name, here = dir ++ [name] ∧
        t.node? dir = some .directory) →
      (t.node? loc = some .directory ∨ ∃ dir name, loc = dir ++ [name] ∧
        t.node? dir = some .directory) := by
    intro links here names left loc h hhere
    induction h with
    | done => exact hhere
    | stay _ _ _ ih => exact ih hhere
    | up directory _ ih => exact ih (.inl (coherent.dropLast directory))
    | down directory _ _ _ ih => exact ih (.inr ⟨_, _, rfl, directory⟩)
    | stop directory => exact .inr ⟨_, _, rfl, directory⟩
    | @follow _ _ here _ _ _ target directory _ _ _ _ ih =>
      refine ih (.inl ?_)
      rw [start]
      split
      · rfl
      · exact directory
  obtain ⟨name, rest, rfl⟩ := List.exists_cons_of_ne_nil hnames
  exact key h (.inl h.directory)

theorem Coherent.inside_of_locate (coherent : Coherent t) {p : Path}
    (h : t.locate followLast p = .ok loc) :
    t.node? loc = some .directory ∨ ∃ dir name, loc = dir ++ [name] ∧
      t.node? dir = some .directory := by
  obtain ⟨-, left, hleads⟩ := FileTree.locate_eq_ok_iff.1 h
  exact hleads.inside coherent (by simp [pieces, Text.splitAll_ne_nil])

end CrashCapture.FileTree
