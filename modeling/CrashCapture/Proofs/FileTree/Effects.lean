import CrashCapture.Proofs.FileTree.Changes
import Mathlib.Data.List.Induction

namespace CrashCapture.FileTree

variable {t t' : FileTree} {a b loc : Location} {bytes : Bytes}

theorem Coherent.eq_of_prefix (coherent : Coherent t) (ha : t.node? a ≠ some .directory)
    (hbelow : a <+: loc) (hloc : (t.node? loc).isSome) : a = loc := by
  obtain ⟨names, rfl⟩ := hbelow
  induction names using List.reverseRecOn with
  | nil => simp
  | append_singleton names name ih =>
    rw [← List.append_assoc] at hloc
    have hdirectory := coherent _ _ hloc
    rw [← ih (by simp [hdirectory])] at hdirectory
    exact absurd hdirectory ha

theorem isSome_lookup_of_mem {entries : List (Location × Node)} {node : Node}
    (h : (loc, node) ∈ entries) : (lookup loc entries).isSome := by
  induction entries with
  | nil => cases h
  | cons e es ih =>
    obtain ⟨l, n⟩ := e
    rw [lookup]
    split
    · rfl
    · next hne =>
      refine ih ((List.mem_cons.1 h).resolve_left fun heq => hne ?_)
      exact (congrArg Prod.fst heq).symm

theorem isSome_node?_of_mem {node : Node} (h : (loc, node) ∈ t.entries) :
    (t.node? loc).isSome := by
  unfold node?
  split
  · rfl
  · exact isSome_lookup_of_mem h

theorem lookup_relocate (loc : Location) {entries : List (Location × Node)} (hab : a ≠ b)
    (ha : ∀ l n, (l, n) ∈ entries → a <+: l → a = l)
    (hb : ∀ l n, (l, n) ∈ entries → b <+: l → b = l) :
    lookup loc ((entries.filter fun (l, _) => !b.isPrefixOf l).map fun (l, n) =>
        if a.isPrefixOf l then (b ++ l.drop a.length, n) else (l, n)) =
      if loc = a then none else if loc = b then lookup a entries else lookup loc entries := by
  induction entries with
  | nil => simp [lookup]
  | cons e es ih =>
    obtain ⟨l, n⟩ := e
    have ih := ih (fun l n h => ha l n (List.mem_cons_of_mem _ h))
      (fun l n h => hb l n (List.mem_cons_of_mem _ h))
    have ha : a.isPrefixOf l = true ↔ a = l :=
      ⟨fun h => ha l n List.mem_cons_self (List.isPrefixOf_iff_prefix.1 h),
        fun h => by simp [h]⟩
    have hb : b.isPrefixOf l = true ↔ b = l :=
      ⟨fun h => hb l n List.mem_cons_self (List.isPrefixOf_iff_prefix.1 h),
        fun h => by simp [h]⟩
    by_cases hlb : b = l
    · subst hlb
      rw [List.filter_cons_of_neg (by simp), ih, lookup, lookup, if_neg (Ne.symm hab)]
      grind
    · have hkeep : b.isPrefixOf l = false := Bool.eq_false_iff.2 fun h => hlb (hb.1 h)
      rw [List.filter_cons_of_pos (by simp [hkeep]), List.map_cons]
      by_cases hla : a = l
      · subst hla
        dsimp only
        rw [if_pos (by simp), List.drop_length, List.append_nil, lookup, ih, lookup, lookup]
        grind
      · dsimp only
        rw [if_neg (fun h => hla (ha.1 h)), lookup, ih, lookup, lookup]
        grind

/-- What was at one location is at another one, and nothing else happened. -/
structure Moved (a b : Location) (t t' : FileTree) : Prop where
  source : t'.node? a = none
  target : t'.node? b = t.node? a
  same : SameOff (fun loc => loc = a ∨ loc = b) t t'

theorem Coherent.moved (coherent : Coherent t) (hab : a ≠ b)
    (ha : t.node? a ≠ some .directory) (hb : t.node? b ≠ some .directory) :
    Moved a b t ((t.remove b).relocate a b) := by
  have hlookup : ∀ loc, ((t.remove b).relocate a b).node? loc =
      if loc = a then none else if loc = b then t.node? a else t.node? loc := by
    intro loc
    have := lookup_relocate loc hab
      (fun l n hmem hbelow => coherent.eq_of_prefix ha hbelow (isSome_node?_of_mem hmem))
      (fun l n hmem hbelow => coherent.eq_of_prefix hb hbelow (isSome_node?_of_mem hmem))
    simp only [node?, remove, relocate, List.isEmpty_iff, ne_root t ha, if_false]
    by_cases hloc : loc = []
    · subst hloc
      simp [Ne.symm (ne_root t ha), Ne.symm (ne_root t hb)]
    · simp only [if_neg hloc]
      exact this
  refine ⟨by simp [hlookup], by simp [hlookup, Ne.symm hab], fun loc hloc => ?_, rfl⟩
  rw [not_or] at hloc
  simp [hlookup, hloc]

theorem Moved.coherent (h : Moved a b t t') (coherent : Coherent t)
    (ha : t.node? a ≠ some .directory) (hb : t.node? b ≠ some .directory)
    (hinside : ∃ dir name, b = dir ++ [name] ∧ t.node? dir = some .directory) : Coherent t' := by
  have hkept : ∀ {dir}, t.node? dir = some .directory → t'.node? dir = some .directory := by
    intro dir hdir
    rw [h.same.off dir]
    · exact hdir
    · rintro (rfl | rfl)
      · exact ha hdir
      · exact hb hdir
  intro loc name hsome
  by_cases hS : loc ++ [name] = a ∨ loc ++ [name] = b
  · rcases hS with rfl | hS
    · simp [h.source] at hsome
    · obtain ⟨dir, last, rfl, hdir⟩ := hinside
      obtain ⟨rfl, -⟩ := List.append_inj' hS rfl
      exact hkept hdir
  · rw [h.same.off _ hS] at hsome
    exact hkept (coherent loc name hsome)

/-- A file was given new contents, which may have been made for that. -/
structure Filed (loc : Location) (bytes : Bytes) (t t' : FileTree) : Prop where
  wrote : Wrote loc bytes t t'
  before : t.node? loc = none ∨ (t.contents loc).isSome

/-- A file, or a place where one can be made, is not the root. -/
theorem ne_root_of_place
    (h : t.node? loc = none ∨ ∃ content mode, t.node? loc = some (.file content mode)) :
    loc ≠ [] := by
  apply ne_root t
  rcases h with hnone | ⟨_, _, hfile⟩
  · simp [hnone]
  · simp [hfile]

theorem filed_put
    (hbefore : t.node? loc = none ∨ ∃ content mode, t.node? loc = some (.file content mode))
    (content : Content) (mode : Nat) :
    Filed loc content.bytes t (t.put loc (.file content mode)) := by
  have hhere := node?_put_self (ne_root_of_place hbefore) t (.file content mode)
  refine ⟨⟨contents_eq_some.2 ⟨_, _, hhere, rfl⟩, fun other hne => node?_put_of_ne hne t _, rfl⟩, ?_⟩
  rcases hbefore with hnone | ⟨old, mode', hold⟩
  · exact .inl hnone
  · exact .inr (by simp [contents, hold])

namespace Filed

theorem same (h : Filed loc bytes t t') : SameOff (· = loc) t t' :=
  ⟨fun other hne => h.wrote.elsewhere other (Ne.symm hne), h.wrote.workingDirectory⟩

theorem exists_file (h : Filed loc bytes t t') :
    ∃ content mode, t'.node? loc = some (.file content mode) := by
  obtain ⟨content, mode, hfile, -⟩ := contents_eq_some.1 h.wrote.here
  exact ⟨content, mode, hfile⟩

theorem before_cases (h : Filed loc bytes t t') :
    t.node? loc = none ∨ ∃ content mode, t.node? loc = some (.file content mode) :=
  h.before.imp_right exists_file_of_isSome

theorem plain_after (h : Filed loc bytes t t') : Plain t' loc := by
  obtain ⟨content, mode, hafter⟩ := h.exists_file
  exact ⟨by simp [hafter], by simp [hafter]⟩

theorem plain_before (h : Filed loc bytes t t') : Plain t loc := by
  rcases h.before_cases with hbefore | ⟨content, mode, hbefore⟩
  all_goals exact ⟨by simp [hbefore], by simp [hbefore]⟩

theorem leads_iff (h : Filed loc bytes t t') {followLast : Bool} {links left : Nat}
    {here end' : Location} {names : List String} :
    Leads t' followLast links here names left end' ↔
      Leads t followLast links here names left end' :=
  h.same.leads_iff (fun _ heq => heq ▸ h.plain_before) fun _ heq => heq ▸ h.plain_after

theorem locate_eq_ok_iff (h : Filed loc bytes t t') {followLast : Bool} {p : Path}
    {end' : Location} :
    t'.locate followLast p = .ok end' ↔ t.locate followLast p = .ok end' :=
  h.same.locate_eq_ok_iff (fun _ heq => heq ▸ h.plain_before) fun _ heq => heq ▸ h.plain_after

theorem enters_iff (h : Filed loc bytes t t') {p : Path} {left : Nat} {dir : Location} :
    Enters t' p left dir ↔ Enters t p left dir := by
  unfold Enters
  rw [h.leads_iff, h.wrote.workingDirectory]
  refine and_congr_right fun _ => ?_
  by_cases hdir : dir = loc
  · subst hdir
    exact iff_of_false h.plain_after.noDirectory h.plain_before.noDirectory
  · rw [h.same.off dir hdir]

theorem coherent (h : Filed loc bytes t t') (coherent : Coherent t)
    (hinside : ∃ dir name, loc = dir ++ [name] ∧ t.node? dir = some .directory) : Coherent t' := by
  have hkept : ∀ {dir}, t.node? dir = some .directory → t'.node? dir = some .directory := by
    intro dir hdir
    rw [h.same.off dir]
    · exact hdir
    · rintro rfl
      exact h.plain_before.noDirectory hdir
  intro dir name hsome
  by_cases hloc : dir ++ [name] = loc
  · obtain ⟨above, last, rfl, habove⟩ := hinside
    obtain ⟨rfl, -⟩ := List.append_inj' hloc rfl
    exact hkept habove
  · rw [h.same.off _ hloc] at hsome
    exact hkept (coherent dir name hsome)

end Filed

/-- Directories were made where there was nothing. -/
structure Dug (t t' : FileTree) : Prop where
  kept : ∀ loc node, t.node? loc = some node → t'.node? loc = some node
  made : ∀ loc, t.node? loc = none → t'.node? loc = none ∨ t'.node? loc = some .directory
  workingDirectory : t'.workingDirectory = t.workingDirectory
  coherent : Coherent t → Coherent t'

namespace Dug

theorem refl (t : FileTree) : Dug t t := ⟨fun _ _ h => h, fun _ h => .inl h, rfl, id⟩

theorem trans {t'' : FileTree} (h : Dug t t') (h' : Dug t' t'') : Dug t t'' := by
  refine ⟨fun loc node hn => h'.kept loc node (h.kept loc node hn), fun loc hn => ?_,
    h'.workingDirectory.trans h.workingDirectory, fun hc => h'.coherent (h.coherent hc)⟩
  rcases h.made loc hn with hnone | hdirectory
  · exact h'.made loc hnone
  · exact .inr (h'.kept loc _ hdirectory)

theorem put {p : Path} (hloc : t.locate false p = .ok loc) (hnone : t.node? loc = none) :
    Dug t (t.put loc .directory) := by
  have hroot : loc ≠ [] := ne_root t (by simp [hnone])
  have hkept : ∀ other node, t.node? other = some node →
      (t.put loc .directory).node? other = some node := by
    intro other node hn
    rwa [node?_put_of_ne]
    rintro rfl
    simp [hnone] at hn
  refine ⟨hkept, fun other hn => ?_, rfl, fun coherent dir name hsome => ?_⟩
  · by_cases hne : loc = other
    · exact .inr (hne ▸ node?_put_self hroot t _)
    · exact .inl ((node?_put_of_ne hne t _).trans hn)
  · by_cases hne : loc = dir ++ [name]
    · subst hne
      rcases coherent.inside_of_locate hloc with hdirectory | ⟨above, last, heq, habove⟩
      · simp [hdirectory] at hnone
      · obtain ⟨rfl, -⟩ := List.append_inj' heq rfl
        exact hkept _ _ habove
    · rw [node?_put_of_ne hne] at hsome
      exact hkept _ _ (coherent dir name hsome)

theorem node?_eq_of_ne (h : Dug t t') {node : Node} (hn : t'.node? loc = some node)
    (hne : node ≠ .directory) : t.node? loc = some node := by
  cases hbefore : t.node? loc with
  | none => rcases h.made loc hbefore with hmade | hmade <;> simp_all
  | some old =>
    rw [← hn]
    exact (h.kept loc old hbefore).symm

/-- What led somewhere still leads there. -/
theorem leads (h : Dug t t') {followLast : Bool} {links left : Nat} {here end' : Location}
    {names : List String} (hleads : Leads t followLast links here names left end') :
    Leads t' followLast links here names left end' := by
  induction hleads with
  | done => exact .done
  | stay directory names _ ih => exact .stay (h.kept _ _ directory) names ih
  | up directory _ ih => exact .up (h.kept _ _ directory) ih
  | @down _ _ here _ name _ directory names noLink _ ih =>
    exact .down (h.kept _ _ directory) names
      (fun target hlink => noLink target (h.node?_eq_of_ne hlink nofun)) ih
  | stop directory names link last =>
    exact .stop (h.kept _ _ directory) names (h.kept _ _ link) last
  | follow directory names link goesOn _ ih =>
    exact .follow (h.kept _ _ directory) names (h.kept _ _ link) goesOn ih

theorem locate (h : Dug t t') {followLast : Bool} {p : Path}
    (hloc : t.locate followLast p = .ok loc) : t'.locate followLast p = .ok loc := by
  rw [locate_eq_ok_iff] at hloc ⊢
  obtain ⟨usable, left, hleads⟩ := hloc
  exact ⟨usable, left, h.workingDirectory ▸ h.leads hleads⟩

theorem enters (h : Dug t t') {p : Path} {left : Nat} {dir : Location}
    (henters : Enters t p left dir) : Enters t' p left dir :=
  ⟨h.workingDirectory ▸ h.leads henters.1, h.kept _ _ henters.2⟩

/-- What could be read is read as before. -/
theorem read (h : Dug t t') {access : Access} {p : Path} {found : Bytes}
    (hread : t.read p access = .ok found) : t'.read p access = .ok found := by
  rw [read_access_eq_ok_iff, read_eq_ok_iff] at hread ⊢
  obtain ⟨⟨loc, hloc, hfound⟩, readable⟩ := hread
  have hloc' := h.locate hloc
  refine ⟨⟨loc, hloc', ?_⟩, fun other hother content mode hfile => ?_⟩
  · rcases hfound with hfile | ⟨hnull, rfl⟩
    · obtain ⟨content, mode, hnode, hbytes⟩ := contents_eq_some.1 hfile
      exact .inl (contents_eq_some.2 ⟨content, mode, h.kept _ _ hnode, hbytes⟩)
    · exact .inr ⟨h.kept _ _ hnull, rfl⟩
  · obtain rfl := Except.ok.inj (hloc'.symm.trans hother)
    exact readable loc hloc content mode (h.node?_eq_of_ne hfile nofun)

end Dug

end CrashCapture.FileTree

namespace CrashCapture.Disk

open FileTree

variable {t t' : FileTree} {p q : Path}

theorem createDirectories_dug (p : Path) (t : FileTree) :
    Dug t (endState ((createDirectories p).run t)) :=
  createDirectories_endState .refl (fun _ _ _ => .trans) (fun _ _ _ _ => .put) t

theorem dug_of_made (h : (createDirectories p).run t = .ok () t') : Dug t t' := by
  have hdug := createDirectories_dug p t
  rwa [h] at hdug

/-- In a file that was emptied or made are then all bytes, or those up to where writing stops. -/
theorem writeFile_opened {access : Access} {loc : Location} {content : Content} {mode : Nat}
    (hempty : content.bytes = [])
    (hbefore : t.node? loc = none ∨ ∃ content mode, t.node? loc = some (.file content mode))
    (hopen : (openTruncated p access).run t = .ok loc (t.put loc (.file content mode)))
    (bytes : Bytes) :
    (∃ opened n e t', access.stops opened loc bytes = some (n, e) ∧
        (writeFile p bytes access).run t = .error e t' ∧ Filed loc (bytes.take n) t t') ∨
      ∃ t', (writeFile p bytes access).run t = .ok () t' ∧ Filed loc bytes t t' := by
  let opened := t.put loc (.file content mode)
  have hfile : opened.node? loc = some (.file content mode) :=
    node?_put_self (ne_root_of_place hbefore) t _
  have hadded : ∀ added : Bytes,
      Filed loc added t (opened.put loc (.file (content.append added) mode)) := by
    intro added
    have hfiled := filed_put hbefore content mode
    have hwrote := wrote_put (by rw [hfiled.wrote.here]; rfl) (content.append added) mode
    rw [Content.bytes_append, hempty, List.nil_append] at hwrote
    exact ⟨hfiled.wrote.trans hwrote, hfiled.before⟩
  rw [writeFile, run_bind_ok hopen, write, run_bind_ok (EStateM.run_get opened), hfile]
  dsimp only
  rw [run_bind_ok (EStateM.run_get opened)]
  cases hstops : access.stops opened loc bytes with
  | none => exact .inr ⟨_, rfl, hadded bytes⟩
  | some stop => exact .inl ⟨opened, stop.1, stop.2, _, hstops, rfl, hadded (bytes.take stop.1)⟩

/-- Writing a file fails and changes nothing, or it stops and has replaced what was in the file by the
first bytes, or the file is where its path leads, unless that is a device. -/
theorem writeFile_ends (p : Path) (bytes : Bytes) (t : FileTree) (access : Access) :
    (∃ e, (writeFile p bytes access).run t = .error e t) ∨
    ∃ loc, t.locate true p = .ok loc ∧
      ((∃ opened n e t', access.stops opened loc bytes = some (n, e) ∧
          (writeFile p bytes access).run t = .error e t' ∧ Filed loc (bytes.take n) t t') ∨
        ∃ t', (writeFile p bytes access).run t = .ok () t' ∧
          (Filed loc bytes t t' ∨ t' = t ∧ ∃ d, t.node? loc = some (.device d))) := by
  rcases openOrCreate_cases (fun _ => .empty) p t access with
    ⟨e, he⟩ | ⟨loc, hloc, ⟨old, mode, hold, hrun⟩ | ⟨d, hd, hrun⟩ | ⟨hnone, hrun⟩⟩
  · left
    exact ⟨e, by rw [writeFile, openTruncated, run_bind_error he]⟩
  · have hends := writeFile_opened Content.bytes_empty (.inr ⟨old, mode, hold⟩) hrun bytes
    exact .inr ⟨loc, hloc, hends.imp_right fun ⟨t', hwrite, hfiled⟩ => ⟨t', hwrite, .inl hfiled⟩⟩
  · rw [writeFile, openTruncated, run_bind_ok hrun]
    rcases write_device hd bytes with hwrite | hwrite
    · exact .inr ⟨loc, hloc, .inr ⟨t, hwrite, .inr ⟨rfl, _, hd⟩⟩⟩
    · exact .inl hwrite
  · have hends := writeFile_opened Content.bytes_empty (.inl hnone) hrun bytes
    exact .inr ⟨loc, hloc, hends.imp_right fun ⟨t', hwrite, hfiled⟩ => ⟨t', hwrite, .inl hfiled⟩⟩

/-- With full access nothing stops on the way. -/
theorem writeFile_filed (p : Path) (bytes : Bytes) (t : FileTree) :
    (∃ e, (writeFile p bytes).run t = .error e t) ∨
    ∃ loc t', (writeFile p bytes).run t = .ok () t' ∧ t.locate true p = .ok loc ∧
      (Filed loc bytes t t' ∨ t' = t ∧ ∃ d, t.node? loc = some (.device d)) := by
  rcases writeFile_ends p bytes t .full with
    he | ⟨loc, hloc, ⟨_, _, _, _, hstops, -⟩ | ⟨t', hrun, hwritten⟩⟩
  · exact .inl he
  · cases hstops
  · exact .inr ⟨loc, t', hrun, hloc, hwritten⟩

/-- A file that was written has kept its mode, unless it was made. -/
theorem writeFile_mode {bytes : Bytes} {loc : Location} {content : Content} {mode : Nat}
    (h : (writeFile p bytes).run t = .ok () t') (hloc : t.locate true p = .ok loc)
    (hfile : t'.node? loc = some (.file content mode)) :
    (∃ old, t.node? loc = some (.file old mode)) ∨ mode = defaultMode := by
  unfold writeFile openTruncated at h
  rcases openOrCreate_cases (fun _ => .empty) p t with
    ⟨e, he⟩ | ⟨at', hat, ⟨old, mode', hold, hrun⟩ | ⟨d, hd, hrun⟩ | ⟨hnone, hrun⟩⟩
  · rw [run_bind_error he] at h
    cases h
  all_goals
    obtain rfl := Except.ok.inj (hloc.symm.trans hat)
    rw [run_bind_ok hrun] at h
  · have hroot : loc ≠ [] := ne_root t (by simp [hold])
    rw [write_run (node?_put_self hroot t _)] at h
    cases h
    rw [node?_put_self hroot] at hfile
    cases hfile
    exact .inl ⟨old, hold⟩
  · have hsame : t = t' := by
      rcases write_device hd bytes with hwrite | ⟨e, hwrite⟩
      all_goals
        rw [hwrite] at h
        cases h
      rfl
    rw [← hsame, hd] at hfile
    cases hfile
  · have hroot : loc ≠ [] := ne_root t (by simp [hnone])
    rw [write_run (node?_put_self hroot t _)] at h
    cases h
    rw [node?_put_self hroot] at hfile
    cases hfile
    exact .inr rfl

/-- What could be written with some access is written alike with more. -/
theorem writeFile_full {access : Access} {bytes : Bytes}
    (h : (writeFile p bytes access).run t = .ok () t') : (writeFile p bytes).run t = .ok () t' := by
  unfold writeFile openTruncated at h ⊢
  obtain ⟨loc, opened, hopen, hwrite⟩ := run_bind_eq_ok h
  rw [run_bind_ok (openOrCreate_full hopen)]
  exact write_full hwrite

theorem locateFile_entry {name : String} {loc : Location} (hname : EntryName name)
    (hloc : t.locate false (Path.join p name) = .ok loc)
    (hnode : t.node? loc = none ∨ ∃ old mode, t.node? loc = some (.file old mode)) :
    (locateFile (Path.join p name)).run t = .ok loc t := by
  have hslash : endsInSlash (Path.join p name) = false := decide_eq_false (getLast?_join hname)
  have noLink : ∀ target, t.node? loc ≠ some (.link target) := by
    rcases hnode with hnone | ⟨_, _, hfile⟩
    · simp [hnone]
    · simp [hfile]
  have hlinks : linksToSlash t maxLinks loc = false := by
    change linksToSlash t (39 + 1) loc = false
    rw [linksToSlash]
    split
    · next target hlink => exact absurd hlink (noLink target)
    · rfl
  have hfollowed : t.locate true (Path.join p name) = .ok loc :=
    locate_entry_of_noLink hname hloc noLink
  unfold locateFile
  rw [hslash, if_neg nofun, run_bind_ok (EStateM.run_get t), run_bind_ok (locate_ok hloc), hlinks,
    if_neg nofun, locate_ok hfollowed]

/-- An entry can be opened where there is a file that may be written, or one may be made. -/
theorem openOrCreate_entry (content : Content → Content) {name : String} {loc : Location}
    {access : Access} (hname : EntryName name)
    (hloc : t.locate false (Path.join p name) = .ok loc)
    (hnode : t.node? loc = none ∨ ∃ old mode, t.node? loc = some (.file old mode))
    (writable : ∀ old mode, t.node? loc = some (.file old mode) → access.mayWrite mode = true)
    (makable : t.node? loc = none → access.mayMake loc = true) :
    ∃ opened mode, (openOrCreate content (Path.join p name) access).run t =
      .ok loc (t.put loc (.file opened mode)) := by
  rw [openOrCreate_run content (locateFile_entry hname hloc hnode)]
  rcases hnode with hnone | ⟨old, mode, hfile⟩
  · rw [hnone]
    exact ⟨_, _, if_pos (makable hnone)⟩
  · rw [hfile]
    exact ⟨_, _, if_pos (writable old mode hfile)⟩

theorem rename_run {a b : Location} {node : Node} (ha : t.locate false p = .ok a)
    (hb : t.locate false q = .ok b) (hnode : t.node? a = some node) (hne : node ≠ .directory)
    (hover : t.node? b ≠ some .directory) :
    (rename p q).run t =
      if a = b then .ok () t
      else if a.isPrefixOf b then .error .invalid t
      else .ok () ((t.remove b).relocate a b) := by
  unfold rename
  rw [run_bind_ok (locate_ok ha), run_bind_ok (locate_ok hb), run_bind_ok (EStateM.run_get t)]
  cases node <;> first | contradiction | skip
  all_goals
    simp only [hnode]
    rcases hn : t.node? b with _ | (_ | _ | _ | _)
    all_goals try contradiction
    all_goals
      dsimp only
      split
      · rfl
      · split <;> rfl

/-- Moving fails and changes nothing, or it succeeds. -/
theorem rename_cases (p q : Path) (t : FileTree) :
    (∃ e, (rename p q).run t = .error e t) ∨ ∃ t', (rename p q).run t = .ok () t' := by
  cases ha : t.locate false p with
  | error e =>
    rw [rename, run_bind_error (locate_error ha)]
    exact .inl ⟨e, rfl⟩
  | ok a =>
    cases hb : t.locate false q with
    | error e =>
      rw [rename, run_bind_ok (locate_ok ha), run_bind_error (locate_error hb)]
      exact .inl ⟨e, rfl⟩
    | ok b =>
      rw [rename, run_bind_ok (locate_ok ha), run_bind_ok (locate_ok hb),
        run_bind_ok (EStateM.run_get t)]
      rcases t.node? a with _ | (_ | _ | _ | _) <;> rcases t.node? b with _ | (_ | _ | _ | _)
      all_goals
        repeat' split
        all_goals first | exact .inl ⟨_, rfl⟩ | exact .inr ⟨_, rfl⟩

/-- What was moved, if it is no directory, is now where the other path itself is. -/
theorem moved_of_rename {a : Location} (coherent : Coherent t)
    (h : (rename p q).run t = .ok () t') (ha : t.locate false p = .ok a)
    (hdirectory : t.node? a ≠ some .directory) :
    ∃ b, t.locate false q = .ok b ∧ t.node? b ≠ some .directory ∧ (t.node? a).isSome ∧
      (a = b ∧ t' = t ∨ a ≠ b ∧ Moved a b t t') := by
  cases hb : t.locate false q with
  | error e =>
    rw [rename, run_bind_ok (locate_ok ha), run_bind_error (locate_error hb)] at h
    cases h
  | ok b =>
    cases hnode : t.node? a with
    | none =>
      rw [rename, run_bind_ok (locate_ok ha), run_bind_ok (locate_ok hb),
        run_bind_ok (EStateM.run_get t)] at h
      simp only [hnode] at h
      rw [run_bind_error (run_throw _ t)] at h
      cases h
    | some node =>
      have hne : node ≠ .directory := fun heq => hdirectory (heq ▸ hnode)
      have hover : t.node? b ≠ some .directory := by
        intro hover
        rw [rename, run_bind_ok (locate_ok ha), run_bind_ok (locate_ok hb),
          run_bind_ok (EStateM.run_get t)] at h
        cases node <;> simp [hnode, hover] at hne h
      rw [rename_run ha hb hnode hne hover] at h
      refine ⟨b, rfl, hover, rfl, ?_⟩
      by_cases hab : a = b
      · rw [if_pos hab] at h
        cases h
        exact .inl ⟨hab, rfl⟩
      · rw [if_neg hab] at h
        split at h
        · cases h
        · cases h
          exact .inr ⟨hab, coherent.moved hab hdirectory hover⟩

end CrashCapture.Disk
