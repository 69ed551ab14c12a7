import CrashCapture.Fault.Lock
import Mathlib.Data.List.Count
import Mathlib.Data.List.Induction
import Mathlib.Logic.Function.Basic

namespace CrashCapture

namespace FaultMarks

inductive Call
  | enter
  | leave
deriving DecidableEq, Repr

def Call.steps (thread : ThreadId) : Call → List Step
  | enter => enterSteps thread
  | leave => leaveSteps

end FaultMarks

open FaultMarks

/-- A call that is not over, and the steps that are left of it. -/
abbrev Underway := FaultMarks.Call × List Step

structure Crowd where
  marks : FaultMarks
  /-- The open scopes, each as the thread that has it. -/
  scopes : List ThreadId
  /-- The calls that each thread is in. A fault may interrupt a call, so the latest comes first. -/
  calls : ThreadId → List Underway
  /-- The threads that have claimed the marks, the latest first. -/
  claims : List ThreadId

namespace Crowd

def initial : Crowd := ⟨.initial, [], fun _ => [], []⟩

/-- How many of some calls are to leave a scope. -/
def leaves (calls : List Underway) : Nat := calls.countP (·.1 = .leave)

/-- A thread can leave only the scopes that it has open and is not leaving already. -/
def mayBegin (thread : ThreadId) (call : FaultMarks.Call) (c : Crowd) : Bool :=
  call = .enter || leaves (c.calls thread) < c.scopes.count thread

def begin (thread : ThreadId) (call : FaultMarks.Call) (c : Crowd) : Crowd :=
  if c.mayBegin thread call then
    { c with calls :=
        Function.update c.calls thread ((call, call.steps thread) :: c.calls thread) }
  else c

/-- The open scopes once a call is over. -/
def returned (thread : ThreadId) (scopes : List ThreadId) : FaultMarks.Call → List ThreadId
  | .enter => thread :: scopes
  | .leave => scopes.erase thread

def claimed (claims : List ThreadId) : Step → List ThreadId
  | .claim thread => thread :: claims
  | .raise => claims
  | .lower => claims

/-- A thread takes the next step of the call that it is in. A call is over with its last step. -/
def proceed (thread : ThreadId) (c : Crowd) : Crowd :=
  match c.calls thread with
  | (call, step :: left) :: outer =>
    { marks := c.marks.apply step
      scopes := if left = [] then returned thread c.scopes call else c.scopes
      calls := Function.update c.calls thread (if left = [] then outer else (call, left) :: outer)
      claims := claimed c.claims step }
  | _ => c

inductive Move
  | begin (thread : ThreadId) (call : FaultMarks.Call)
  | proceed (thread : ThreadId)
deriving DecidableEq, Repr

def Move.run : Move → Crowd → Crowd
  | .begin thread call, c => c.begin thread call
  | .proceed thread, c => c.proceed thread

def run (moves : List Move) : Crowd := moves.foldl (fun c m => m.run c) initial

theorem run_concat (moves : List Move) (move : Move) :
    run (moves ++ [move]) = move.run (run moves) := by
  simp [run]

/-- How far a call of a thread may have come. -/
inductive Midway (thread : ThreadId) (claims : List ThreadId) : Underway → Prop
  | begun : Midway thread claims (.enter, [.claim thread, .raise])
  | claimed (mem : thread ∈ claims) : Midway thread claims (.enter, [.raise])
  | leaving : Midway thread claims (.leave, [.lower])

/-- What a thread may be in the middle of, given the open scopes and who has claimed the marks. -/
structure Permitted (scopes claims : List ThreadId) (thread : ThreadId) (calls : List Underway) :
    Prop where
  midway : ∀ x ∈ calls, Midway thread claims x
  leaves : leaves calls ≤ scopes.count thread

/-- The marks count the open scopes and name the last thread that has claimed them. -/
structure Sound (c : Crowd) : Prop where
  depth : c.marks.depth = c.scopes.length
  named : c.marks.handlingThread = c.claims.head?.getD 0
  claimed : ∀ t ∈ c.scopes, t ∈ c.claims
  permitted : ∀ t, Permitted c.scopes c.claims t (c.calls t)

variable {c : Crowd} {t : ThreadId}

theorem Permitted.mono {scopes scopes' claims claims' : List ThreadId} {calls : List Underway}
    (h : Permitted scopes claims t calls) (hscopes : scopes.count t ≤ scopes'.count t)
    (hclaims : claims ⊆ claims') : Permitted scopes' claims' t calls := by
  refine ⟨fun x hx => ?_, Nat.le_trans h.leaves hscopes⟩
  cases h.midway x hx with
  | begun => exact .begun
  | claimed mem => exact .claimed (hclaims mem)
  | leaving => exact .leaving

theorem midway_steps (claims : List ThreadId) (call : FaultMarks.Call) :
    Midway t claims (call, call.steps t) := by
  cases call with
  | enter => exact .begun
  | leave => exact .leaving

/-- What holds of all threads still does if it holds of the one whose calls have changed. -/
theorem forall_update {P : ThreadId → List Underway → Prop} {calls : ThreadId → List Underway}
    {new : List Underway} (hnew : P t new) (hothers : ∀ u, u ≠ t → P u (calls u)) (u : ThreadId) :
    P u (Function.update calls t new u) := by
  by_cases hu : u = t
  · subst hu
    rwa [Function.update_self]
  · rw [Function.update_of_ne hu]
    exact hothers u hu

theorem sound_initial : initial.Sound :=
  ⟨rfl, rfl, nofun, fun _ => ⟨nofun, Nat.le_refl 0⟩⟩

theorem Sound.begin (h : c.Sound) (t : ThreadId) (call : FaultMarks.Call) :
    (c.begin t call).Sound := by
  unfold Crowd.begin
  split
  · next hmay =>
    have hold := h.permitted t
    have hnew : Permitted c.scopes c.claims t ((call, call.steps t) :: c.calls t) := by
      refine ⟨List.forall_mem_cons.2 ⟨midway_steps c.claims call, hold.midway⟩, ?_⟩
      cases call with
      | enter => simpa [leaves] using hold.leaves
      | leave =>
        have hroom : leaves (c.calls t) < c.scopes.count t := by simpa [mayBegin] using hmay
        simpa [leaves, Nat.succ_le_iff] using hroom
    exact ⟨h.depth, h.named, h.claimed, forall_update hnew fun u _ => h.permitted u⟩
  · exact h

/-- What the next step of a thread can be. -/
inductive Taken (t : ThreadId) (c : Crowd) : Crowd → Prop
  | idle (calls : c.calls t = []) : Taken t c c
  | claim (outer : List Underway) (calls : c.calls t = (.enter, [.claim t, .raise]) :: outer) :
      Taken t c ⟨{ c.marks with handlingThread := t }, c.scopes,
        Function.update c.calls t ((.enter, [.raise]) :: outer), t :: c.claims⟩
  | raise (outer : List Underway) (calls : c.calls t = (.enter, [.raise]) :: outer) :
      Taken t c ⟨{ c.marks with depth := c.marks.depth + 1 }, t :: c.scopes,
        Function.update c.calls t outer, c.claims⟩
  | lower (outer : List Underway) (calls : c.calls t = (.leave, [.lower]) :: outer) :
      Taken t c ⟨{ c.marks with depth := c.marks.depth - 1 }, c.scopes.erase t,
        Function.update c.calls t outer, c.claims⟩

theorem Sound.taken (h : c.Sound) (t : ThreadId) : Taken t c (c.proceed t) := by
  have hold := (h.permitted t).midway
  unfold Crowd.proceed
  cases hcalls : c.calls t with
  | nil => exact .idle hcalls
  | cons x outer =>
    rw [hcalls] at hold
    cases hold x List.mem_cons_self with
    | begun => exact .claim outer hcalls
    | claimed mem => exact .raise outer hcalls
    | leaving => exact .lower outer hcalls

theorem Sound.step {c' : Crowd} (h : c.Sound) (taken : Taken t c c') : c'.Sound := by
  have hold := h.permitted t
  cases taken with
  | idle calls => exact h
  | claim outer calls =>
    rw [calls] at hold
    have hsub : c.claims ⊆ t :: c.claims := List.subset_cons_self t c.claims
    have hnew : Permitted c.scopes (t :: c.claims) t ((.enter, [.raise]) :: outer) := by
      refine ⟨fun x hx => ?_, by simpa [leaves] using hold.leaves⟩
      rcases List.mem_cons.1 hx with rfl | hx
      · exact .claimed List.mem_cons_self
      · exact (hold.mono (Nat.le_refl _) hsub).midway x (List.mem_cons_of_mem _ hx)
    exact ⟨h.depth, rfl, fun u hu => hsub (h.claimed u hu),
      forall_update hnew fun u _ => (h.permitted u).mono (Nat.le_refl _) hsub⟩
  | raise outer calls =>
    rw [calls] at hold
    obtain ⟨hfirst, hmidway⟩ := List.forall_mem_cons.1 hold.midway
    have hmem : t ∈ c.claims := by
      cases hfirst with
      | claimed mem => exact mem
    have hnew : Permitted c.scopes c.claims t outer :=
      ⟨hmidway, by simpa [leaves] using hold.leaves⟩
    exact ⟨congrArg (· + 1) h.depth, h.named, List.forall_mem_cons.2 ⟨hmem, h.claimed⟩,
      forall_update (hnew.mono List.count_le_count_cons fun _ => id)
        fun u _ => (h.permitted u).mono List.count_le_count_cons fun _ => id⟩
  | lower outer calls =>
    rw [calls] at hold
    have hone : leaves outer + 1 ≤ c.scopes.count t := by simpa [leaves] using hold.leaves
    have hmem : t ∈ c.scopes := List.count_pos_iff.1 (by omega)
    have hdepth : c.marks.depth - 1 = (c.scopes.erase t).length := by
      rw [h.depth, List.length_erase_of_mem hmem]
    have hnew : Permitted (c.scopes.erase t) c.claims t outer := by
      refine ⟨fun x hx => hold.midway x (List.mem_cons_of_mem _ hx), ?_⟩
      rw [List.count_erase_self]
      omega
    have hcount : ∀ u, u ≠ t → c.scopes.count u ≤ (c.scopes.erase t).count u :=
      fun u hu => Nat.le_of_eq (List.count_erase_of_ne hu).symm
    exact ⟨hdepth, h.named, fun u hu => h.claimed u (List.mem_of_mem_erase hu),
      forall_update hnew fun u hu => (h.permitted u).mono (hcount u hu) fun _ => id⟩

theorem sound_run (moves : List Move) : (run moves).Sound := by
  induction moves using List.reverseRecOn with
  | nil => exact sound_initial
  | append_singleton moves move ih =>
    rw [run_concat]
    cases move with
    | begin t call => exact ih.begin t call
    | proceed t => exact ih.step (ih.taken t)

theorem Sound.inHandler_iff (h : c.Sound) : c.marks.inHandler = true ↔ ∃ t, t ∈ c.scopes := by
  rw [inHandler, decide_eq_true_iff, h.depth, List.length_pos_iff_exists_mem]

/-- A thread that has an open scope has claimed the marks, so these name a thread by then. -/
theorem Sound.mayBlock_iff (h : c.Sound) (t : ThreadId) :
    c.marks.mayBlock t = false ↔ c.scopes ≠ [] ∧ c.claims.head? = some t := by
  have hblock : c.marks.mayBlock t = false ↔
      c.marks.inHandler = true ∧ c.marks.handlingThread = t := by
    simp [mayBlock]
  have hopen : (∃ u, u ∈ c.scopes) ↔ c.scopes ≠ [] :=
    ⟨fun ⟨_, hu⟩ => List.ne_nil_of_mem hu, List.exists_mem_of_ne_nil _⟩
  rw [hblock, h.inHandler_iff, h.named, hopen]
  refine and_congr_right fun hne => ?_
  obtain ⟨u, hu⟩ := List.exists_mem_of_ne_nil _ hne
  cases hclaims : c.claims with
  | nil => exact absurd (hclaims ▸ h.claimed u hu) List.not_mem_nil
  | cons first claims => simp

/-- A thread is concerned with faults: it has a scope open, or is about to have one. -/
def IsBusy (c : Crowd) (t : ThreadId) : Prop := t ∈ c.scopes ∨ c.calls t ≠ []

def IsExclusive (c : Crowd) : Prop := ∀ t u, c.IsBusy t → c.IsBusy u → t = u

/-- If a thread is going to open a scope with its next step, it was the last to claim the marks. -/
def Entitled (claims : List ThreadId) (t : ThreadId) (calls : List Underway) : Prop :=
  (.enter, [.raise]) ∈ calls → claims.head? = some t

/-- No thread has claimed the marks after one that has a scope open, or is going to have it. -/
structure Undisputed (c : Crowd) : Prop where
  scopes : ∀ t ∈ c.scopes, c.claims.head? = some t
  entering : ∀ t, Entitled c.claims t (c.calls t)

theorem Undisputed.begin (h : c.Undisputed) (t : ThreadId) (call : FaultMarks.Call) :
    (c.begin t call).Undisputed := by
  unfold Crowd.begin
  split
  · have hnew : Entitled c.claims t ((call, call.steps t) :: c.calls t) := by
      intro hmem
      rcases List.mem_cons.1 hmem with heq | hmem
      · cases call <;> cases heq
      · exact h.entering t hmem
    exact ⟨h.scopes, forall_update hnew fun u _ => h.entering u⟩
  · exact h

theorem Undisputed.step {c' : Crowd} (h : c.Undisputed) (exclusive : c.IsExclusive)
    (taken : Taken t c c') : c'.Undisputed := by
  cases taken with
  | idle calls => exact h
  | claim outer calls =>
    have hbusy : c.IsBusy t := .inr (by simp [calls])
    have hlatest : ∀ u, c.IsBusy u → (t :: c.claims).head? = some u :=
      fun u hu => congrArg some (exclusive t u hbusy hu)
    have hnew : Entitled (t :: c.claims) t ((.enter, [.raise]) :: outer) := fun _ => rfl
    exact ⟨fun u hu => hlatest u (.inl hu),
      forall_update hnew fun u _ hmem => hlatest u (.inr (List.ne_nil_of_mem hmem))⟩
  | raise outer calls =>
    have hfirst : c.claims.head? = some t := h.entering t (calls ▸ List.mem_cons_self)
    have hnew : Entitled c.claims t outer := fun _ => hfirst
    exact ⟨List.forall_mem_cons.2 ⟨hfirst, h.scopes⟩, forall_update hnew fun u _ => h.entering u⟩
  | lower outer calls =>
    have hnew : Entitled c.claims t outer :=
      fun hmem => h.entering t (calls ▸ List.mem_cons_of_mem _ hmem)
    exact ⟨fun u hu => h.scopes u (List.mem_of_mem_erase hu),
      forall_update hnew fun u _ => h.entering u⟩

theorem undisputed_run {moves : List Move}
    (exclusive : ∀ before, before <+: moves → (run before).IsExclusive) :
    (run moves).Undisputed := by
  induction moves using List.reverseRecOn with
  | nil => exact ⟨nofun, nofun⟩
  | append_singleton moves move ih =>
    have hprefix : moves <+: moves ++ [move] := List.prefix_append moves [move]
    have hbefore := ih fun before hb => exclusive before (hb.trans hprefix)
    rw [run_concat]
    cases move with
    | begin t call => exact hbefore.begin t call
    | proceed t => exact hbefore.step (exclusive moves hprefix) ((sound_run moves).taken t)

end Crowd

namespace Lock

variable {α : Type}

theorem spin_held {l : Lock α} (h : l.held = true) (n : Nat) : spin n l = (.forced, l) := by
  induction n with
  | zero => rfl
  | succ n ih =>
    have hrefused : l.tryLock = none := if_pos h
    rw [spin, hrefused]
    exact ih

theorem lock_held {l : Lock α} (h : l.held = true) (marks : FaultMarks) (t : ThreadId) :
    l.lock marks t = if marks.mayBlock t = false then some (.forced, l) else none := by
  unfold lock acquisition
  cases marks.mayBlock t with
  | true => exact if_pos h
  | false => exact congrArg some (spin_held h spinLimit)

end Lock

namespace Crowd

/-- Whenever a thread has a scope open, the marks say that a fault is handled, by the last thread that
has claimed them: that one does not wait for a lock that is held, and the others do. So they follow
the open scopes exactly as long as these are all on that thread, as they are if at any time at most
one thread is concerned with faults. -/
theorem marks_follow_iff (moves : List Move) :
    let c := run moves
    (c.marks.inHandler = true ↔ ∃ t, t ∈ c.scopes) ∧
    (∀ t, c.marks.mayBlock t = false ↔ c.scopes ≠ [] ∧ c.claims.head? = some t) ∧
    (∀ (α : Type) (l : Lock α) t, l.held = true → l.lock c.marks t =
      if c.scopes ≠ [] ∧ c.claims.head? = some t then some (.forced, l) else none) ∧
    ((∀ t, c.marks.mayBlock t = false ↔ t ∈ c.scopes) ↔
      ∀ t ∈ c.scopes, c.claims.head? = some t) ∧
    ((∀ before, before <+: moves → (run before).IsExclusive) →
      ∀ t, c.marks.mayBlock t = false ↔ t ∈ c.scopes) := by
  intro c
  have hsound : c.Sound := sound_run moves
  have hfollow : (∀ t, c.marks.mayBlock t = false ↔ t ∈ c.scopes) ↔
      ∀ t ∈ c.scopes, c.claims.head? = some t := by
    constructor
    · intro hall t ht
      exact ((hsound.mayBlock_iff t).1 ((hall t).2 ht)).2
    · intro hlast t
      rw [hsound.mayBlock_iff]
      refine ⟨fun ⟨hopen, ht⟩ => ?_, fun ht => ⟨List.ne_nil_of_mem ht, hlast t ht⟩⟩
      obtain ⟨u, hu⟩ := List.exists_mem_of_ne_nil _ hopen
      -- the scope that is open is on the thread that the marks name
      have hsame : t = u := Option.some.inj (ht.symm.trans (hlast u hu))
      exact hsame ▸ hu
  refine ⟨hsound.inHandler_iff, hsound.mayBlock_iff, fun α l t hl => ?_, hfollow,
    fun hexclusive => hfollow.2 (undisputed_run hexclusive).scopes⟩
  rw [Lock.lock_held hl]
  exact if_congr (hsound.mayBlock_iff t) rfl rfl

def entering (t : ThreadId) : List Move := [.begin t .enter, .proceed t, .proceed t]

/-- Two faults that overlap: the first thread would wait for a lock that is held, in its fault. When
the second one has left its scope, it uses the lock without having it. -/
theorem marks_follow_iff_two :
    (run (entering 1 ++ entering 2)).scopes = [2, 1] ∧
    (⟨(), true⟩ : Lock Unit).lock (run (entering 1 ++ entering 2)).marks 1 = none ∧
    (let c := run (entering 1 ++ entering 2 ++ [.begin 2 .leave, .proceed 2])
     c.scopes = [1] ∧ (⟨(), true⟩ : Lock Unit).lock c.marks 2 = some (.forced, ⟨(), true⟩)) ∧
    ¬∀ t, (run (entering 1 ++ entering 2)).marks.mayBlock t = false ↔
      t ∈ (run (entering 1 ++ entering 2)).scopes := by
  have hfirst := marks_follow_iff (entering 1 ++ entering 2)
  have hlast := marks_follow_iff (entering 1 ++ entering 2 ++ [.begin 2 .leave, .proceed 2])
  refine ⟨by decide, ?_, ⟨by decide, ?_⟩, fun hall => ?_⟩
  · exact (hfirst.2.2.1 Unit ⟨(), true⟩ 1 rfl).trans (if_neg (by decide))
  · exact (hlast.2.2.1 Unit ⟨(), true⟩ 2 rfl).trans (if_pos (by decide))
  · exact absurd (hfirst.2.2.2.1.1 hall) (by decide)

end Crowd

end CrashCapture
