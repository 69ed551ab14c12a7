import CrashCapture.Proofs.FileTree.Contents
import CrashCapture.Proofs.RunFiles.Blocks

namespace CrashCapture.RunFiles

open FileTree

variable {σ : Type} [Host σ]

def withFiles (s : Site σ) (t : FileTree) : Site σ := { s with env := { s.env with files := t } }

def breadcrumbPath (f : RunFiles) (second : Bool) : Path := if second then f.second else f.first

/-- How a breadcrumb is written: in place of all that was there, or at the end. -/
def record (target : Target) (path : Path) (bytes : Bytes) : Disk Unit :=
  if target.starts then Disk.writeFile path bytes else Disk.appendFile path bytes

theorem next_some {f f' : RunFiles} {target : Target} (hmax : 0 < f.max)
    (h : f.next = (f', some target)) :
    f' = { f with count := f.count + 1 } ∧
      target = ⟨inSecond f.max f.count, f.count % f.max = 0⟩ := by
  unfold next Word.add? Word.fit? at h
  split_ifs at h
  · simp only [Prod.mk.injEq] at h
    exact ⟨h.1.symm, targetOf?_eq hmax h.2⟩
  · simp at h

omit [Host σ] in
theorem disk_run {α : Type} (op : Disk α) (s : Site σ) :
    (liftM (Run.disk op) : SiteM σ (Except IoError α)).run s =
      match op.run s.env.files with
      | .ok a t => (.ok a, withFiles s t)
      | .error e t => (.error e, withFiles s t) := by
  change ((fun r : Except IoError α × Environment => (r.1, { s with env := r.2 }))
    (match op.run s.env.files with
      | .ok a files => (.ok a, { s.env with files })
      | .error e files => (.error e, { s.env with files }))) = _
  cases op.run s.env.files <;> rfl

theorem add_overflow {f f' : RunFiles} (h : f.next = (f', none)) (breadcrumb : Json) (s : Site σ) :
    (f.add breadcrumb).run s = ((f', .error .overflow), s) := by
  unfold add
  rw [h]
  rfl

theorem add_skipped {f f' : RunFiles} {target : Target} (h : f.next = (f', some target))
    {breadcrumb : Json} {s s₁ : Site σ} (hencode : (Host.encode breadcrumb).run s = ([], s₁)) :
    ∃ s₂, (f.add breadcrumb).run s = ((f', .ok ()), s₂) ∧ s₂.env.files = s₁.env.files := by
  unfold add
  rw [h]
  dsimp only
  rw [stateM_run_bind hencode]
  exact ⟨_, rfl, rfl⟩

theorem add_recorded {f f' : RunFiles} {target : Target} (h : f.next = (f', some target))
    {breadcrumb : Json} {s s₁ : Site σ} {bytes : Bytes}
    (hencode : (Host.encode breadcrumb).run s = (bytes, s₁)) (hne : bytes ≠ []) :
    (f.add breadcrumb).run s =
      match (record target (f'.breadcrumbPath target.inSecond) bytes).run s₁.env.files with
      | .ok _ t => ((f', .ok ()), withFiles s₁ t)
      | .error e t => ((f', .error (.failed (.io e))), withFiles s₁ t) := by
  unfold add
  rw [h]
  dsimp only
  rw [stateM_run_bind hencode, if_neg (by simpa using hne), StateT.run_bind, disk_run]
  unfold record breadcrumbPath
  generalize EStateM.run _ s₁.env.files = result
  cases result <;> rfl

theorem add_next (f : RunFiles) (breadcrumb : Json) (s : Site σ) :
    ((f.add breadcrumb).run s).1.1 = f.next.1 := by
  cases hnext : f.next with
  | mk f' target =>
    cases target with
    | none => rw [add_overflow hnext]
    | some target =>
      cases hencode : (Host.encode (σ := σ) breadcrumb).run s with
      | mk bytes s₁ =>
        by_cases hempty : bytes = []
        · subst hempty
          obtain ⟨s₂, hrun, -⟩ := add_skipped hnext hencode
          rw [hrun]
        · rw [add_recorded hnext hencode hempty]
          split <;> rfl

/-- What the client does for a flush of the scope. -/
def scopeBytes : SiteM σ Bytes := do
  let event ← Host.applyScope (σ := σ) (.obj []) .none
  Host.encode (σ := σ) (withoutRunParts event)

theorem flush_eq (f : RunFiles) (access : Access) : f.flushScope access (σ := σ) = do
    let bytes ← scopeBytes
    if bytes.isEmpty then
      Run.debug "failed to encode the scope, skipping flush"
      return .ok ()
    return liftIo (← Run.disk (Disk.writeFile f.event bytes access)) := by
  unfold flushScope scopeBytes
  rw [bind_assoc]

theorem flush_skipped (f : RunFiles) (access : Access) {s s₁ : Site σ}
    (h : scopeBytes.run s = ([], s₁)) :
    ∃ s₂, (f.flushScope access).run s = (.ok (), s₂) ∧ s₂.env.files = s₁.env.files := by
  rw [flush_eq, stateM_run_bind h]
  exact ⟨_, rfl, rfl⟩

theorem flush_written (f : RunFiles) (access : Access) {s s₁ : Site σ} {bytes : Bytes}
    (h : scopeBytes.run s = (bytes, s₁)) (hne : bytes ≠ []) :
    (f.flushScope access).run s = match (Disk.writeFile f.event bytes access).run s₁.env.files with
      | .ok _ t => (.ok (), withFiles s₁ t)
      | .error e t => (.error (.io e), withFiles s₁ t) := by
  rw [flush_eq, stateM_run_bind h, if_neg (by simpa using hne), StateT.run_bind, disk_run]
  generalize EStateM.run _ s₁.env.files = result
  cases result <;> rfl

theorem flushScope_files (f : RunFiles) (access : Access) {s s₁ : Site σ} {bytes : Bytes}
    (h : scopeBytes.run s = (bytes, s₁)) :
    ((f.flushScope access).run s).2.env.files = s₁.env.files ∨
    ((f.flushScope access).run s).2.env.files =
      endState ((Disk.writeFile f.event bytes access).run s₁.env.files) := by
  by_cases hempty : bytes = []
  · subst hempty
    obtain ⟨s₂, hrun, hfiles⟩ := flush_skipped f access h
    rw [hrun]
    exact .inl hfiles
  · rw [flush_written f access h hempty]
    right
    generalize EStateM.run _ s₁.env.files = result
    cases result <;> rfl

/-- Where the three files are: no two of them are one file. -/
structure Places where
  event : Location
  first : Location
  second : Location
  event_ne_first : event ≠ first
  event_ne_second : event ≠ second
  first_ne_second : first ≠ second

namespace Places

variable (places : Places)

def breadcrumbs (second : Bool) : Location := if second then places.second else places.first

structure Found (f : RunFiles) (t : FileTree) : Prop where
  event : t.locate true f.event = .ok places.event
  first : t.locate true f.first = .ok places.first
  second : t.locate true f.second = .ok places.second
  files : ∀ loc ∈ [places.event, places.first, places.second], (t.contents loc).isSome

/-- The files are there, and a path leads to its file if it leads anywhere: it may be that a file
can't be opened for a while. -/
structure Lead (f : RunFiles) (t : FileTree) : Prop where
  event : ∀ loc, t.locate true f.event = .ok loc → loc = places.event
  breadcrumbs : ∀ second loc, t.locate true (f.breadcrumbPath second) = .ok loc →
    loc = places.breadcrumbs second
  event_file : (t.contents places.event).isSome
  file : ∀ second, (t.contents (places.breadcrumbs second)).isSome

/-- What somebody else does is not to touch the files. -/
structure Untouched (f : RunFiles) (t t' : FileTree) : Prop where
  lead : places.Lead f t'
  contents : ∀ second,
    t'.contents (places.breadcrumbs second) = t.contents (places.breadcrumbs second)

variable {places}

theorem Found.lead {f : RunFiles} {t : FileTree} (h : places.Found f t) : places.Lead f t := by
  refine ⟨fun loc hloc => ?_, fun second loc hloc => ?_, h.files _ (by simp), fun second => ?_⟩
  · rw [h.event] at hloc
    exact (Except.ok.inj hloc).symm
  · cases second with
    | false =>
      rw [breadcrumbPath, if_neg Bool.false_ne_true, h.first] at hloc
      exact (Except.ok.inj hloc).symm
    | true =>
      rw [breadcrumbPath, if_pos rfl, h.second] at hloc
      exact (Except.ok.inj hloc).symm
  · cases second with
    | false => exact h.files _ (by simp [breadcrumbs])
    | true => exact h.files _ (by simp [breadcrumbs])

theorem breadcrumbs_ne (second : Bool) :
    places.breadcrumbs second ≠ places.breadcrumbs (!second) := by
  cases second with
  | false => exact places.first_ne_second
  | true => exact places.first_ne_second.symm

theorem event_ne (second : Bool) : places.event ≠ places.breadcrumbs second := by
  cases second with
  | false => exact places.event_ne_first
  | true => exact places.event_ne_second

theorem Lead.wrote {f : RunFiles} {t t' : FileTree} {loc : Location} {bytes : Bytes}
    (h : places.Lead f t) (hwrote : Wrote loc bytes t t') (hfile : (t.contents loc).isSome) :
    places.Lead f t' := by
  have hkept : ∀ other, (t.contents other).isSome → (t'.contents other).isSome := by
    intro other hother
    by_cases hne : loc = other
    · rw [← hne, hwrote.here]
      rfl
    · rwa [hwrote.contents_of_ne hne]
  refine ⟨fun other hloc => h.event other ?_,
    fun second other hloc => h.breadcrumbs second other ?_,
    hkept _ h.event_file, fun second => hkept _ (h.file second)⟩
  · rwa [hwrote.locate hfile] at hloc
  · rwa [hwrote.locate hfile] at hloc

theorem Lead.leadsToFile {f : RunFiles} {t : FileTree} (h : places.Lead f t) (second : Bool) :
    LeadsToFile t (f.breadcrumbPath second) := by
  intro loc hloc
  rw [h.breadcrumbs second loc hloc]
  exact h.file second

end Places

/-- What is written of a breadcrumb by a call with that outcome. -/
def recorded (bytes : Bytes) : Except Breach Unit → Option Bytes
  | .ok () => if bytes.isEmpty then none else some bytes
  | .error _ => none

/-- Calls one after the other, with their log of what was written. -/
inductive Run (places : Places) (f₀ : RunFiles) (s₀ : Site σ) :
    List (Option Bytes) → RunFiles → Site σ → Prop
  | start : Run places f₀ s₀ [] f₀ s₀
  | add {log : List (Option Bytes)} {f f' : RunFiles} {s s₁ s' : Site σ} {bytes : Bytes}
      {outcome : Except Breach Unit} (before : Run places f₀ s₀ log f s) (breadcrumb : Json)
      (encoded : (Host.encode breadcrumb).run s = (bytes, s₁))
      (aloof : places.Untouched f s.env.files s₁.env.files)
      (added : (f.add breadcrumb).run s = ((f', outcome), s'))
      (returned : outcome ≠ .error .overflow) :
      Run places f₀ s₀ (log ++ [recorded bytes outcome]) f' s'
  | flush {log : List (Option Bytes)} {f : RunFiles} {s s₁ : Site σ} {bytes : Bytes}
      (before : Run places f₀ s₀ log f s) (encoded : scopeBytes.run s = (bytes, s₁))
      (aloof : places.Untouched f s.env.files s₁.env.files) :
      Run places f₀ s₀ log f (f.flushScope.run s).2
  | elsewhere {log : List (Option Bytes)} {f : RunFiles} {s s' : Site σ}
      (before : Run places f₀ s₀ log f s) (aloof : places.Untouched f s.env.files s'.env.files) :
      Run places f₀ s₀ log f s'

/-- What a run keeps: the calls are counted, and each file holds what the rotation says. -/
structure Rotated (places : Places) (f₀ : RunFiles) (start : Bool → Bytes)
    (log : List (Option Bytes)) (f : RunFiles) (t : FileTree) : Prop where
  files : f = { f₀ with count := log.length }
  lead : places.Lead f t
  contents : ∀ second, t.contents (places.breadcrumbs second) =
    some (held f₀.max second [start second] log).flatten

namespace Rotated

variable {places : Places} {f₀ f f' : RunFiles} {start : Bool → Bytes} {log : List (Option Bytes)}
  {t t' : FileTree}

theorem untouched (h : Rotated places f₀ start log f t) (aloof : places.Untouched f t t') :
    Rotated places f₀ start log f t' :=
  ⟨h.files, aloof.lead, fun second => (aloof.contents second).trans (h.contents second)⟩

theorem count (h : Rotated places f₀ start log f t) : f.count = log.length := by rw [h.files]

theorem max (h : Rotated places f₀ start log f t) : f.max = f₀.max := by rw [h.files]

theorem skipped (h : Rotated places f₀ start log f t) :
    Rotated places f₀ start (log ++ [none]) { f with count := f.count + 1 } t := by
  refine ⟨?_, ⟨h.lead.event, h.lead.breadcrumbs, h.lead.event_file, h.lead.file⟩, fun second => ?_⟩
  · rw [h.files]
    simp
  · rw [held_concat]
    exact h.contents second

theorem written (h : Rotated places f₀ start log f t) {bytes old : Bytes}
    (hold : t.contents (places.breadcrumbs (inSecond f.max f.count)) = some old)
    (hwrote : Wrote (places.breadcrumbs (inSecond f.max f.count))
      (if f.count % f.max = 0 then bytes else old ++ bytes) t t') :
    Rotated places f₀ start (log ++ [some bytes]) { f with count := f.count + 1 } t' := by
  have lead := h.lead.wrote hwrote (by rw [hold]; rfl)
  refine ⟨?_, ⟨lead.event, lead.breadcrumbs, lead.event_file, lead.file⟩, fun second => ?_⟩
  · rw [h.files]
    simp
  · rw [held_concat, turn, ← h.count, ← h.max]
    by_cases hsecond : inSecond f.max f.count = second
    · subst hsecond
      rw [h.contents, Option.some.injEq, ← h.max] at hold
      rw [hwrote.here]
      by_cases hstarts : f.count % f.max = 0
      · simp [hstarts]
      · simp [hstarts, ← hold]
    · have hother : second = !inSecond f.max f.count := Bool.eq_not.2 (Ne.symm hsecond)
      have hne : places.breadcrumbs (inSecond f.max f.count) ≠ places.breadcrumbs second := by
        rw [hother]
        exact places.breadcrumbs_ne _
      rw [hwrote.contents_of_ne hne, if_pos hsecond, h.contents, h.max]

theorem record_cases (h : Rotated places f₀ start log f t) (bytes : Bytes) :
    (∃ e, (record ⟨inSecond f.max f.count, f.count % f.max = 0⟩
      (f.breadcrumbPath (inSecond f.max f.count)) bytes).run t = .error e t) ∨
    ∃ t', (record ⟨inSecond f.max f.count, f.count % f.max = 0⟩
        (f.breadcrumbPath (inSecond f.max f.count)) bytes).run t = .ok () t' ∧
      Rotated places f₀ start (log ++ [some bytes]) { f with count := f.count + 1 } t' := by
  have hfile := h.lead.leadsToFile (inSecond f.max f.count)
  unfold record
  by_cases hstarts : f.count % f.max = 0
  · rw [if_pos (by simpa using hstarts)]
    rcases Disk.writeFile_cases hfile bytes with herror | ⟨loc, t', hloc, hwrote, hrun⟩
    · exact .inl herror
    · obtain rfl := h.lead.breadcrumbs _ loc hloc
      refine .inr ⟨t', hrun, h.written (h.contents _) ?_⟩
      rw [if_pos hstarts]
      exact hwrote
  · rw [if_neg (by simpa using hstarts)]
    rcases Disk.appendFile_cases hfile bytes with herror | ⟨loc, old, t', hloc, hold, hwrote, hrun⟩
    · exact .inl herror
    · obtain rfl := h.lead.breadcrumbs _ loc hloc
      refine .inr ⟨t', hrun, h.written hold ?_⟩
      rw [if_neg hstarts]
      exact hwrote

theorem add {s s₁ s' : Site σ} {breadcrumb : Json} {bytes : Bytes} {outcome : Except Breach Unit}
    (h : Rotated places f₀ start log f s.env.files) (hmax : 0 < f₀.max)
    (encoded : (Host.encode breadcrumb).run s = (bytes, s₁))
    (aloof : places.Untouched f s.env.files s₁.env.files)
    (added : (f.add breadcrumb).run s = ((f', outcome), s'))
    (returned : outcome ≠ .error .overflow) :
    Rotated places f₀ start (log ++ [recorded bytes outcome]) f' s'.env.files := by
  rcases hnext : f.next with ⟨f₁, none | target⟩
  · rw [add_overflow hnext] at added
    cases added
    exact absurd rfl returned
  · obtain ⟨rfl, rfl⟩ := next_some (by rw [h.max]; exact hmax) hnext
    have hpath : RunFiles.breadcrumbPath { f with count := f.count + 1 } = f.breadcrumbPath := rfl
    have hnow := h.untouched aloof
    by_cases hempty : bytes = []
    · subst hempty
      obtain ⟨s₂, hrun, hfiles⟩ := add_skipped hnext encoded
      rw [hrun] at added
      cases added
      rw [hfiles]
      exact hnow.skipped
    · rw [add_recorded hnext encoded hempty, hpath] at added
      rcases hnow.record_cases bytes with ⟨e, hrun⟩ | ⟨t', hrun, hwritten⟩
      · rw [hrun] at added
        cases added
        exact hnow.skipped
      · rw [hrun] at added
        cases added
        rw [recorded, if_neg (by simpa using hempty)]
        exact hwritten

/-- A flush writes to the event file at most. -/
theorem flush {s s₁ : Site σ} {bytes : Bytes} (h : Rotated places f₀ start log f s.env.files)
    (encoded : scopeBytes.run s = (bytes, s₁))
    (aloof : places.Untouched f s.env.files s₁.env.files) :
    Rotated places f₀ start log f (f.flushScope.run s).2.env.files := by
  have hnow := h.untouched aloof
  have hfile : LeadsToFile s₁.env.files f.event := by
    intro loc hloc
    rw [hnow.lead.event loc hloc]
    exact hnow.lead.event_file
  rcases flushScope_files f .full encoded with hfiles | hfiles
  · rw [hfiles]
    exact hnow
  · rw [hfiles]
    rcases Disk.writeFile_cases hfile bytes with ⟨e, hrun⟩ | ⟨loc, t', hloc, hwrote, hrun⟩
    · rw [hrun]
      exact hnow
    · rw [hrun]
      obtain rfl := hnow.lead.event loc hloc
      refine ⟨hnow.files, hnow.lead.wrote hwrote hnow.lead.event_file, fun second => ?_⟩
      rw [endState, hwrote.contents_of_ne (places.event_ne second), hnow.contents]

end Rotated

theorem Run.rotated {places : Places} {f₀ f : RunFiles} {s₀ s : Site σ}
    {log : List (Option Bytes)} {start : Bool → Bytes} (hmax : 0 < f₀.max)
    (h₀ : Rotated places f₀ start [] f₀ s₀.env.files) (run : Run places f₀ s₀ log f s) :
    Rotated places f₀ start log f s.env.files := by
  induction run with
  | start => exact h₀
  | add before breadcrumb encoded aloof added returned ih =>
    exact ih.add hmax encoded aloof added returned
  | flush before encoded aloof ih => exact ih.flush encoded aloof
  | elsewhere before aloof ih => exact ih.untouched aloof

theorem forM_touch_grew (paths : List Path) (t : FileTree) :
    Grew t (endState ((paths.forM Disk.touch).run t)) := by
  induction paths generalizing t with
  | nil => exact .refl t
  | cons p paths ih =>
    exact endState_bind (R := Grew) (fun _ _ _ => Grew.trans) (Disk.touch_grew p t)
      fun _ t' _ => ih t'

theorem create_grew {runPath : Path} {m : Nat} {t t' : FileTree} {f : RunFiles}
    (h : (create runPath m).run t = .ok f t') : f = inside runPath m ∧ Grew t t' := by
  have hgrew : Grew t (endState ((create runPath m).run t)) := by
    unfold create
    refine endState_bind (R := Grew) (fun _ _ _ => Grew.trans)
      (Disk.createDirectories_grew runPath t) fun _ t₁ _ => ?_
    exact endState_bind (R := Grew) (fun _ _ _ => Grew.trans) (forM_touch_grew _ t₁)
      fun _ t₂ _ => .refl t₂
  constructor
  · obtain ⟨-, t₁, -, h⟩ := run_bind_eq_ok h
    obtain ⟨-, t₂, -, h⟩ := run_bind_eq_ok h
    cases h
    rfl
  · rw [h] at hgrew
    exact hgrew

/-- The files are as `create` found them until something is added. -/
theorem rotated_create {runPath : Path} {m : Nat} {t t' : FileTree} {f : RunFiles}
    {places : Places} (h : (create runPath m).run t = .ok f t') (found : places.Found f t') :
    Rotated places f (fun second => (t.contents (places.breadcrumbs second)).getD []) [] f t' := by
  obtain ⟨rfl, hgrew⟩ := create_grew h
  refine ⟨rfl, found.lead, fun second => ?_⟩
  obtain ⟨bytes, hbytes⟩ := Option.isSome_iff_exists.1 (found.lead.file second)
  rw [hbytes, hgrew.contents_eq hbytes]
  simp

end CrashCapture.RunFiles
