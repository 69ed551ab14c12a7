import CrashCapture.Proofs.FileTree.Writing
import CrashCapture.Proofs.Host.Scope
import CrashCapture.Proofs.RunFiles.Breadcrumbs

namespace CrashCapture

namespace RunFiles

open FileTree

variable {σ σ' : Type} [Host σ] [Host σ'] {f : RunFiles} {scope : Members Json} {access : Access}

def flushed (scope : Members Json) : Members Json := (scope.erase "breadcrumbs").erase "modules"

theorem ordered_flushed (ordered : scope.Ordered) : (flushed scope).Ordered :=
  (ordered.erase _).erase _

theorem get?_flushed (ordered : scope.Ordered) (key : String) : (flushed scope).get? key =
    if key = "breadcrumbs" ∨ key = "modules" then none else scope.get? key := by
  rw [flushed, (ordered.erase _).get?_erase, ordered.get?_erase]
  by_cases hmodules : key = "modules"
  · rw [if_pos hmodules, if_pos (.inr hmodules)]
  · simp only [hmodules, if_false, or_false]

theorem exact_flushed {depth : Nat} (h : Json.Exact depth (.obj scope)) :
    Json.Exact depth (.obj (flushed scope)) := by
  cases h with
  | obj ordered members =>
    refine .obj (ordered_flushed ordered) fun m hm => members m ?_
    exact (Members.erase_sublist _ _).subset ((Members.erase_sublist _ _).subset hm)

/-- Into an empty event the client puts what it keeps of the scope, and it has no written form of its
own for values. -/
structure Copies (keeps : String → Bool) (scope : Members Json) (s s₁ : Site σ) : Prop where
  applies : ∃ event, (Host.applyScope (.obj []) .none).run s = (.obj event, s₁) ∧
    Members.Ordered event ∧ ∀ key, Members.get? key event = if keeps key then scope.get? key else none
  encodes : ∀ v, (Host.encode v).run s₁ = (v.encode, s₁)

abbrev Heeds (scope : Members Json) (s s₁ : Site σ) : Prop :=
  Copies (fun key => !ScopeMode.none.excludes key) scope s s₁

abbrev Disregards (scope : Members Json) (s s₁ : Site σ) : Prop := Copies (fun _ => true) scope s s₁

theorem heeds_keeps (key : String) :
    (!ScopeMode.none.excludes key) = true ∨ key = "breadcrumbs" ∨ key = "modules" := by
  by_cases hbreadcrumbs : key = "breadcrumbs"
  · exact .inr (.inl hbreadcrumbs)
  · by_cases hmodules : key = "modules"
    · exact .inr (.inr hmodules)
    · simp [ScopeMode.excludes, ScopeMode.none, hbreadcrumbs, hmodules]

theorem scopeBytes_of_copies (ordered : scope.Ordered) {keeps : String → Bool} {s s₁ : Site σ}
    (keepsRest : ∀ key, keeps key = true ∨ key = "breadcrumbs" ∨ key = "modules")
    (copies : Copies keeps scope s s₁) :
    scopeBytes.run s = ((Json.obj (flushed scope)).encode, s₁) := by
  obtain ⟨⟨event, happlied, hevent, hget⟩, encodes⟩ := copies
  have hsame : flushed event = flushed scope := by
    apply (ordered_flushed hevent).ext (ordered_flushed ordered)
    intro key
    rw [get?_flushed hevent, get?_flushed ordered, hget]
    rcases keepsRest key with hkept | hpart
    · rw [if_pos hkept]
    · rw [if_pos hpart, if_pos hpart]
  rw [← hsame, scopeBytes, stateM_run_bind happlied]
  exact encodes _

/-- Bytes take the place of what was in a file, if writing it succeeds, as it does where the process may
write a file and there is room for them. -/
structure Overwrites (access : Access) (p : Path) (bytes : Bytes) (t : FileTree)
    (outcome : Except Error Unit) (t' : FileTree) : Prop where
  succeeds : Clear t p → Permits access t p bytes → outcome = .ok ()
  written : outcome = .ok () → ¬LeadsToDevice t p → t'.read p = .ok bytes

/-- Nothing else can be read in another way than before. -/
def Spares (p : Path) (t t' : FileTree) : Prop :=
  ∀ q, LeadApart t p q → ∀ found, t'.read q = .ok found ↔ t.read q = .ok found

theorem flush_overwrites {runPath : Path} (hf : f.event = Path.join runPath eventName)
    {s s₁ : Site σ} {bytes : Bytes} (h : scopeBytes.run s = (bytes, s₁)) (hne : bytes ≠ []) :
    Overwrites access f.event bytes s₁.env.files ((f.flushScope access).run s).1
      ((f.flushScope access).run s).2.env.files := by
  rw [flush_written f access h hne]
  constructor
  · intro clear permits
    rw [hf] at clear permits ⊢
    obtain ⟨t', hrun⟩ := Disk.writeFile_clear (by decide) clear permits
    rw [hrun]
  · rcases Disk.writeFile_ends f.event bytes s₁.env.files access with
      ⟨e, hrun⟩ | ⟨loc, hloc, ⟨_, _, e, t', -, hrun, -⟩ | ⟨t', hrun, hfiled | ⟨-, d, hd⟩⟩⟩
    · rw [hrun]
      exact nofun
    · rw [hrun]
      exact nofun
    · rw [hrun]
      exact fun _ _ => hfiled.read_self hloc
    · exact fun _ device => absurd ⟨loc, d, hloc, hd⟩ device

theorem flush_spares {s s₁ : Site σ} {bytes : Bytes} (h : scopeBytes.run s = (bytes, s₁)) :
    Spares f.event s₁.env.files ((f.flushScope access).run s).2.env.files := by
  intro q apart found
  rcases flushScope_files f access h with hfiles | hfiles
  · rw [hfiles]
  · rw [hfiles]
    rcases Disk.writeFile_ends f.event bytes s₁.env.files access with
      ⟨e, hrun⟩ | ⟨loc, hloc, ⟨_, _, e, t', -, hrun, hfiled⟩ | ⟨t', hrun, hfiled | ⟨rfl, -⟩⟩⟩
    · rw [hrun, endState]
    · rw [hrun, endState]
      exact hfiled.read_apart hloc apart found
    · rw [hrun, endState]
      exact hfiled.read_apart hloc apart found
    · rw [hrun, endState]

/-- The same bytes have the same effect on the same files. -/
theorem flush_alike (access : Access) {s s₁ : Site σ} {r r₁ : Site σ'} {bytes : Bytes}
    (h : scopeBytes.run s = (bytes, s₁)) (h' : scopeBytes.run r = (bytes, r₁)) (hne : bytes ≠ [])
    (files : r₁.env.files = s₁.env.files) :
    ((f.flushScope access).run r).1 = ((f.flushScope access).run s).1 ∧
      ((f.flushScope access).run r).2.env.files = ((f.flushScope access).run s).2.env.files := by
  rw [flush_written f access h hne, flush_written f access h' hne, files]
  generalize EStateM.run _ s₁.env.files = result
  cases result <;> exact ⟨rfl, rfl⟩

inductive Use
  | add (breadcrumb : Json)
  | flush (access : Access)

namespace Use

def isAdd : Use → Bool
  | add _ => true
  | flush _ => false

def run : Use → RunFiles → SiteM σ RunFiles
  | add breadcrumb, f => return (← f.add breadcrumb).1
  | flush access, f => do
    let _ ← f.flushScope access (σ := σ)
    return f

end Use

def runUses (uses : List Use) (f : RunFiles) : SiteM σ RunFiles :=
  uses.foldlM (fun f use => use.run f) f

theorem run_use (use : Use) (f : RunFiles) (s : Site σ) :
    ((use.run f).run s).1 = if use.isAdd then f.next.1 else f := by
  cases use with
  | add breadcrumb => exact add_next f breadcrumb s
  | flush access => rfl

/-- Only breadcrumbs are counted. -/
theorem count_runUses (uses : List Use) (f : RunFiles) (s : Site σ) :
    ((runUses uses f).run s).1 = (fun f => f.next.1)^[uses.countP Use.isAdd] f := by
  induction uses generalizing f s with
  | nil => rfl
  | cons use uses ih =>
    have hstep := run_use use f s
    have hrest : ((runUses (use :: uses) f).run s).1 =
        ((runUses uses ((use.run f).run s).1).run ((use.run f).run s).2).1 := rfl
    rw [hrest, ih, hstep, List.countP_cons]
    cases huse : use.isAdd with
    | true => rw [if_pos rfl, if_pos rfl, Function.iterate_succ_apply]
    | false => rw [if_neg Bool.false_ne_true, if_neg Bool.false_ne_true, Nat.add_zero]

end RunFiles

theorem DirectoryHost.heeds (s : Site DirectoryHost) : RunFiles.Heeds s.host.scope s s := by
  refine ⟨⟨mergeMembers s.host.scope .none [], rfl, ordered_mergeMembers _ _ Members.ordered_nil,
    fun key => ?_⟩, fun _ => rfl⟩
  rw [get?_mergeMembers, Members.get?, Option.none_or]
  by_cases hexcluded : ScopeMode.none.excludes key
  · simp [hexcluded]
  · simp [hexcluded]

namespace RecordingHost

def overwriteMembers (keep : String → Bool) (event scope : Members Json) : Members Json :=
  scope.foldl (fun ms m => if keep m.1 then ms.insert m.1 m.2 else ms) event

theorem ordered_overwriteMembers (keep : String → Bool) {event : Members Json}
    (h : event.Ordered) (scope : Members Json) : (overwriteMembers keep event scope).Ordered := by
  induction scope generalizing event with
  | nil => exact h
  | cons m scope ih =>
    apply ih
    dsimp only
    split
    · exact h.insert m.1 m.2
    · exact h

theorem get?_overwriteMembers (keep : String → Bool) (event : Members Json) {scope : Members Json}
    (ordered : scope.Ordered) (key : String) : (overwriteMembers keep event scope).get? key =
      (if keep key then scope.get? key else none).or (event.get? key) := by
  induction scope generalizing event with
  | nil => simp [overwriteMembers, Members.get?]
  | cons m scope ih =>
    obtain ⟨k, v⟩ := m
    obtain ⟨hbefore, hrest⟩ := Members.ordered_cons.1 ordered
    have hstep : overwriteMembers keep event ((k, v) :: scope) =
        overwriteMembers keep (if keep k then event.insert k v else event) scope := rfl
    rw [hstep, ih _ hrest, Members.get?]
    by_cases hkey : k = key
    · subst hkey
      rw [Members.get?_of_before hbefore, if_pos rfl]
      by_cases hkeep : keep k
      · rw [if_pos hkeep, if_pos hkeep, if_pos hkeep, Members.get?_insert, if_pos rfl]
        rfl
      · rw [if_neg hkeep, if_neg hkeep, if_neg hkeep]
    · rw [if_neg hkey]
      by_cases hkeep : keep k
      · rw [if_pos hkeep, Members.get?_insert, if_neg (Ne.symm hkey)]
      · rw [if_neg hkeep]

theorem disregards {s : Site RecordingHost} {scope : Members Json}
    (rule : s.host.rule = .overwrite) (hscope : s.host.scope = .obj scope)
    (encodes : s.host.encodeFails = false) (ordered : scope.Ordered) :
    RunFiles.Disregards scope s
      { s with env := { s.env with calls := s.env.calls ++ [.applyScope .none] } } := by
  have hmerged : s.host.merged (.obj []) .none =
      .obj (overwriteMembers (fun _ => true) [] scope) := by
    rw [merged, rule, hscope]
    rfl
  refine ⟨⟨_, congrArg (·, _) hmerged, ordered_overwriteMembers _ Members.ordered_nil _,
    fun key => ?_⟩, fun v => ?_⟩
  · rw [get?_overwriteMembers _ _ ordered]
    exact Option.or_none
  · change (if s.host.encodeFails then [] else v.encode, _) = _
    rw [encodes]
    rfl

end RecordingHost

namespace RunFiles

variable {σ σ' : Type} [Host σ] [Host σ'] {f : RunFiles}

/-- What comes of a flush by a client at `s`, and that a client at `r` has the same of it. -/
structure FlushedAlike (access : Access) (f : RunFiles) (scope : Members Json) (s s₁ : Site σ)
    (r : Site σ') : Prop where
  outcome : ((f.flushScope access).run r).1 = ((f.flushScope access).run s).1
  files : ((f.flushScope access).run r).2.env.files = ((f.flushScope access).run s).2.env.files
  overwrites : Overwrites access f.event (Json.obj (flushed scope)).encode s₁.env.files
    ((f.flushScope access).run s).1 ((f.flushScope access).run s).2.env.files
  members : ∀ key, (flushed scope).get? key =
    if key = "breadcrumbs" ∨ key = "modules" then none else scope.get? key
  decodes : ∀ depth ≤ Json.maxDepth, Json.Exact depth (.obj scope) →
    Json.parse (Json.obj (flushed scope)).encode = .ok (.obj (flushed scope))

/-- Whether the client heeds the mode or not, a flush writes the same: the scope without its own
breadcrumbs and modules. Whatever the client does, a flush changes nothing else, not even one that fails
on the way. -/
theorem scope_flushed {runPath : Path} (hevent : f.event = Path.join runPath eventName)
    (access : Access) :
    (∀ {scope : Members Json} {s s₁ : Site σ} {r r₁ : Site σ'}, scope.Ordered →
      Heeds scope s s₁ → Disregards scope r r₁ → r₁.env.files = s₁.env.files →
      FlushedAlike access f scope s s₁ r) ∧
    (∀ {s s₁ : Site σ} {bytes : Bytes}, scopeBytes.run s = (bytes, s₁) →
      (bytes = [] → ((f.flushScope access).run s).1 = .ok () ∧
        ((f.flushScope access).run s).2.env.files = s₁.env.files) ∧
      Spares f.event s₁.env.files ((f.flushScope access).run s).2.env.files) ∧
    ∀ (uses : List Use) (s : Site σ),
      ((runUses uses f).run s).1 = (fun f => f.next.1)^[uses.countP Use.isAdd] f := by
  refine ⟨?_, ?_, fun uses s => count_runUses uses f s⟩
  · intro scope s s₁ r r₁ ordered heeds disregards files
    have hbytes := scopeBytes_of_copies ordered heeds_keeps heeds
    have hbytes' := scopeBytes_of_copies ordered (fun _ => .inl rfl) disregards
    have hne : (Json.obj (flushed scope)).encode ≠ [] := by
      rw [Json.encode_obj]
      exact List.cons_ne_nil _ _
    obtain ⟨houtcome, hfiles⟩ := flush_alike (f := f) access hbytes hbytes' hne files
    refine ⟨houtcome, hfiles, flush_overwrites hevent hbytes hne, get?_flushed ordered, ?_⟩
    intro depth hdepth hexact
    exact Json.parse_encode ((exact_flushed hexact).mono hdepth)
  · intro s s₁ bytes hbytes
    refine ⟨fun hempty => ?_, flush_spares hbytes⟩
    subst hempty
    obtain ⟨s₂, hrun, hfiles⟩ := flush_skipped f access hbytes
    rw [hrun]
    exact ⟨rfl, hfiles⟩

/-- A scope that has the names of the parts at a deeper level too. -/
def tagged (t : FileTree) : Site DirectoryHost where
  host := DirectoryHost.changed [.tag "breadcrumbs" "1", .breadcrumb .null, .tag "modules" "2"]
    (DirectoryHost.blank "/root" .default 1)
  env := .fresh t

def withScope (scope : Members Json) (t : FileTree) : Site RecordingHost :=
  ⟨{ RecordingHost.initial .default with scope := .obj scope }, .fresh t⟩

theorem exact_tagged : Json.Exact 3 (.obj (tagged madeRun).host.scope) := by
  refine .obj (by decide +kernel) ?_
  have hempty : Json.Exact 2 (.obj []) := .obj (by decide) nofun
  have hbreadcrumbs : Json.Exact 2 (.arr [.null]) := by
    apply Json.Exact.arr
    rw [List.forall_mem_singleton]
    exact .null
  have htags : Json.Exact 2 (.obj [("breadcrumbs", .str "1"), ("modules", .str "2")]) := by
    refine .obj (by decide) ?_
    rw [List.forall_mem_cons, List.forall_mem_singleton]
    exact ⟨.str _, .str _⟩
  have huser : Json.Exact 2 (.obj [("id", .str "1")]) := by
    refine .obj (by decide) ?_
    rw [List.forall_mem_singleton]
    exact .str _
  change ∀ m ∈ [("breadcrumbs", .arr [.null]), ("modules", .obj []),
    ("tags", .obj [("breadcrumbs", .str "1"), ("modules", .str "2")]),
    ("user", .obj [("id", .str "1")])], Json.Exact 2 (Prod.snd m)
  rw [List.forall_mem_cons, List.forall_mem_cons, List.forall_mem_cons, List.forall_mem_singleton]
  exact ⟨hbreadcrumbs, hempty, htags, huser⟩

theorem scope_flushed_tagged :
    let f := inside "run" 2
    let s := tagged madeRun
    let r := withScope s.host.scope madeRun
    let kept : Members Json := [("tags", .obj [("breadcrumbs", .str "1"), ("modules", .str "2")]),
      ("user", .obj [("id", .str "1")])]
    (f.flushScope.run s).1 = .ok () ∧
      (f.flushScope.run s).2.env.files.read f.event = .ok (Json.obj kept).encode ∧
      (f.flushScope.run r).2.env.files.read f.event = .ok (Json.obj kept).encode ∧
      Json.parse (Json.obj kept).encode = .ok (.obj kept) := by
  intro f s r kept
  have hordered : Members.Ordered s.host.scope := by decide +kernel
  have disregards : Disregards s.host.scope r _ := RecordingHost.disregards rfl rfl rfl hordered
  have hevent : f.event = Path.join "run" eventName := rfl
  obtain ⟨alike, -⟩ := @scope_flushed DirectoryHost RecordingHost _ _ f "run" hevent .full
  have flushed := alike hordered (DirectoryHost.heeds s) disregards rfl
  have hlocate : ∀ followLast, madeRun.locate followLast f.event = .ok ["run", eventName] := by decide
  have hfile : madeRun.node? ["run", eventName] = some (.file .empty Disk.defaultMode) := by decide
  have hok := flushed.overwrites.succeeds ⟨_, hlocate false, .inr ⟨_, _, hfile⟩⟩
    (FileTree.permits_full _ _ _)
  have hread := flushed.overwrites.written hok (by
    rintro ⟨loc, d, hloc, hd⟩
    have hloc : madeRun.locate true f.event = .ok loc := hloc
    rw [hlocate true, Except.ok.injEq] at hloc
    subst hloc
    rw [show s.env.files = madeRun from rfl, hfile] at hd
    cases hd)
  refine ⟨hok, hread, ?_, flushed.decodes 3 (by decide) exact_tagged⟩
  rw [flushed.files]
  exact hread

/-- The event file is a link to the first file of breadcrumbs, or to a device. -/
def linkedEvent (target : Path) : FileTree where
  entries := [(["run"], .directory), (["run", eventName], .link target),
    (["run", firstName], .file .empty Disk.defaultMode),
    (["run", secondName], .file .empty Disk.defaultMode),
    (["dev"], .directory), (["dev", "null"], .device .null)]
  workingDirectory := []

/-- Then a flush changes the breadcrumbs, or succeeds and keeps nothing. One for which there is no room
fails, and what the event file held is gone. -/
theorem linked_event_flushed :
    let f := inside "run" 1
    let scope : Members Json := [("a", .num (.int 1))]
    let flush := fun t => f.flushScope.run (withScope scope t)
    let crowded := (f.flushScope (.within 1)).run (withScope scope (flush madeRun).2.env.files)
    (∀ target ∈ [firstName, "/dev/null"],
      (create "run" 1).run (linkedEvent target) = .ok f (linkedEvent target)) ∧
    (flush (linkedEvent firstName)).1 = .ok () ∧
    (linkedEvent firstName).read f.first = .ok [] ∧
    (flush (linkedEvent firstName)).2.env.files.read f.first = .ok (Json.obj scope).encode ∧
    (flush (linkedEvent "/dev/null")).1 = .ok () ∧
    (flush (linkedEvent "/dev/null")).2.env.files.read f.event ≠ .ok (Json.obj scope).encode ∧
    crowded.1 = .error (.io .noSpace) ∧ crowded.2.env.files.read f.event = .ok [123] := by
  decide +kernel

end RunFiles

end CrashCapture
