import CrashCapture.Handler.Supervision
import CrashCapture.Proofs.External.Launching
import Mathlib.Data.List.Count
import Mathlib.Data.List.Induction

namespace CrashCapture

namespace Supervisor

/-- What a supervisor makes of what it learns. -/
inductive Takes (s : Supervisor) : Event → Supervisor → Prop
  | goesOn (asking : s.phase = .asking) : Takes s (.asked false) { s with phase := .polling }
  | stops (asking : s.phase = .asking) : Takes s (.asked true) { s with phase := .stopped }
  | waits (polling : s.phase = .polling) : Takes s (.polled .running) { s with phase := .asking }
  | loses (polling : s.phase = .polling) : Takes s (.polled .failed) { s with phase := .stopped }
  | givesUp (polling : s.phase = .polling) (spent : maxRestarts ≤ s.restarts) :
      Takes s (.polled .ended) { s with phase := .stopped }
  | restarts (polling : s.phase = .polling) (room : s.restarts < maxRestarts) :
      Takes s (.polled .ended) { s with phase := .launching, restarts := s.restarts + 1 }
  | launches (launching : s.phase = .launching) (pid : Nat) :
      Takes s (.launched (some pid)) { s with phase := .publishing, child := pid }
  | fails (launching : s.phase = .launching) :
      Takes s (.launched none) { s with phase := .stopped }
  | publishes (publishing : s.phase = .publishing) :
      Takes s .published { s with phase := .asking, pid := s.child }

variable {s s' : Supervisor} {e : Event}

theorem takes_of_step (h : s.step e = some s') : Takes s e s' := by
  unfold step at h
  cases e with
  | asked stop =>
    obtain ⟨hphase, hnext⟩ := Option.ite_none_right_eq_some.1 h
    cases hnext
    cases stop with
    | true => exact .stops hphase
    | false => exact .goesOn hphase
  | polled result =>
    obtain ⟨hphase, hnext⟩ := Option.ite_none_right_eq_some.1 h
    cases hnext
    cases result with
    | running => exact .waits hphase
    | failed => exact .loses hphase
    | ended =>
      by_cases hspent : maxRestarts ≤ s.restarts
      · rw [afterPoll, if_pos hspent]
        exact .givesUp hphase hspent
      · rw [afterPoll, if_neg hspent]
        exact .restarts hphase (Nat.lt_of_not_le hspent)
  | launched pid =>
    obtain ⟨hphase, hnext⟩ := Option.ite_none_right_eq_some.1 h
    cases hnext
    cases pid with
    | some pid => exact .launches hphase pid
    | none => exact .fails hphase
  | published =>
    obtain ⟨hphase, hnext⟩ := Option.ite_none_right_eq_some.1 h
    cases hnext
    exact .publishes hphase

/-- When a supervisor learns something of a kind. -/
def Event.phase : Event → Phase
  | .asked _ => .asking
  | .polled _ => .polling
  | .launched _ => .launching
  | .published => .publishing

theorem Takes.phase (taken : Takes s e s') : s.phase = e.phase := by
  cases taken <;> assumption

theorem Takes.stopped (taken : Takes s (.asked true) s') : s'.phase = .stopped := by
  cases taken
  rfl

/-- Whatever comes of what a supervisor does, it takes it. -/
theorem isSome_step_iff : (s.step e).isSome = true ↔ s.phase = e.phase := by
  cases e <;> simp [step, Event.phase]

theorem run_append (s : Supervisor) (es es' : List Event) :
    s.run (es ++ es') = (s.run es).bind (·.run es') := by
  induction es generalizing s with
  | nil => rfl
  | cons e es ih =>
    rw [List.cons_append, run, run]
    cases s.step e with
    | none => rfl
    | some s' => exact ih s'

theorem run_concat (s : Supervisor) (es : List Event) (e : Event) :
    s.run (es ++ [e]) = (s.run es).bind (·.step e) := by
  rw [run_append]
  refine congrArg _ (funext fun s' => ?_)
  rw [run]
  cases s'.step e <;> rfl

/-- How often a handler was seen to have ended. -/
def exits (es : List Event) : Nat := es.count (.polled .ended)

def Event.pid? : Event → Option Nat
  | .launched pid => pid
  | _ => none

/-- The handlers that were launched in place of the first one. -/
def launched (es : List Event) : List Nat := es.filterMap Event.pid?

def latest (first : Nat) (es : List Event) : Nat := (launched es).getLast?.getD first

variable {first : Nat} {es : List Event}

theorem exits_concat (es : List Event) (e : Event) :
    exits (es ++ [e]) = exits es + if e = .polled .ended then 1 else 0 := by
  rw [exits, List.count_append, List.count_singleton]
  simp [exits]

theorem launched_concat (es : List Event) (e : Event) :
    launched (es ++ [e]) = launched es ++ e.pid?.toList := by
  rw [launched, List.filterMap_append]
  cases h : e.pid? <;> simp [launched, h]

theorem launched_ended (es : List Event) : launched (es ++ [.polled .ended]) = launched es := by
  rw [launched_concat]
  exact List.append_nil _

theorem latest_concat (first : Nat) (es : List Event) (e : Event) :
    latest first (es ++ [e]) = e.pid?.getD (latest first es) := by
  rw [latest, launched_concat]
  cases e.pid? with
  | none => rw [Option.toList_none, List.append_nil, Option.getD_none, latest]
  | some pid => rw [Option.toList_some, List.getLast?_concat]; rfl

/-- What a supervisor knows, given what it has learned. Each restart goes back to a handler that was
seen to have ended, and at most one of these was not answered by a restart. -/
structure Sound (first : Nat) (es : List Event) (s : Supervisor) : Prop where
  limit : s.restarts ≤ maxRestarts
  counted : exits es = s.restarts ∨ exits es = maxRestarts + 1 ∧ s.phase = .stopped
  within : (launched es).length + (if s.phase = .launching then 1 else 0) ≤ s.restarts
  child : s.child = latest first es
  published : s.phase ≠ .publishing → s.pid = s.child
  seen : s.phase = .launching → ∃ earlier, es = earlier ++ [.polled .ended]

theorem sound_initial (first : Nat) : Sound first [] (initial first) :=
  ⟨Nat.zero_le _, .inl rfl, Nat.le_refl 0, rfl, fun _ => rfl, nofun⟩

theorem Sound.exits_of_running (h : Sound first es s) (running : s.phase ≠ .stopped) :
    exits es = s.restarts :=
  h.counted.resolve_right fun gaveUp => running gaveUp.2

/-- Most of what is learned is neither the end nor the launch of a handler. -/
theorem Sound.quiet (h : Sound first es s) (running : s.phase ≠ .stopped)
    (noEnd : e ≠ .polled .ended) (noLaunch : e.pid? = none) (restarts : s'.restarts = s.restarts)
    (child : s'.child = s.child) (published : s'.pid = s'.child)
    (idle : s'.phase ≠ .launching) : Sound first (es ++ [e]) s' := by
  have hexits : exits (es ++ [e]) = s'.restarts := by
    rw [exits_concat, if_neg noEnd, Nat.add_zero, restarts]
    exact h.exits_of_running running
  have hlaunched : launched (es ++ [e]) = launched es := by
    rw [launched_concat, noLaunch, Option.toList_none, List.append_nil]
  have hlatest : latest first (es ++ [e]) = latest first es := by
    rw [latest_concat, noLaunch, Option.getD_none]
  refine ⟨restarts ▸ h.limit, .inl hexits, ?_, ?_, fun _ => published, fun hl => absurd hl idle⟩
  · rw [hlaunched, if_neg idle, Nat.add_zero, restarts]
    exact Nat.le_of_add_right_le h.within
  · rw [child, hlatest]
    exact h.child

theorem Sound.step (h : Sound first es s) (taken : Takes s e s') : Sound first (es ++ [e]) s' := by
  cases taken with
  | goesOn asking =>
    exact h.quiet (by simp [asking]) nofun rfl rfl rfl (h.published (by simp [asking])) nofun
  | stops asking =>
    exact h.quiet (by simp [asking]) nofun rfl rfl rfl (h.published (by simp [asking])) nofun
  | waits polling =>
    exact h.quiet (by simp [polling]) nofun rfl rfl rfl (h.published (by simp [polling])) nofun
  | loses polling =>
    exact h.quiet (by simp [polling]) nofun rfl rfl rfl (h.published (by simp [polling])) nofun
  | givesUp polling spent =>
    have hexits : exits (es ++ [.polled .ended]) = maxRestarts + 1 := by
      rw [exits_concat, if_pos rfl, h.exits_of_running (by simp [polling]),
        Nat.le_antisymm h.limit spent]
    refine ⟨h.limit, .inr ⟨hexits, rfl⟩, ?_, ?_, fun _ => h.published (by simp [polling]), nofun⟩
    · rw [launched_ended]
      exact Nat.le_of_add_right_le h.within
    · rw [latest_concat]
      exact h.child
  | restarts polling room =>
    have hexits : exits (es ++ [.polled .ended]) = s.restarts + 1 := by
      rw [exits_concat, if_pos rfl, h.exits_of_running (by simp [polling])]
    refine ⟨room, .inl hexits, ?_, ?_, fun _ => h.published (by simp [polling]), fun _ => ⟨es, rfl⟩⟩
    · rw [launched_ended, if_pos rfl]
      exact Nat.succ_le_succ (Nat.le_of_add_right_le h.within)
    · rw [latest_concat]
      exact h.child
  | launches launching pid =>
    have hexits : exits (es ++ [.launched (some pid)]) = s.restarts := by
      rw [exits_concat, if_neg nofun, h.exits_of_running (by simp [launching]), Nat.add_zero]
    have hroom := h.within
    rw [if_pos launching] at hroom
    refine ⟨h.limit, .inl hexits, ?_, ?_, fun hp => absurd rfl hp, nofun⟩
    · rw [launched_concat, List.length_append]
      exact hroom
    · rw [latest_concat]
      rfl
  | fails launching =>
    exact h.quiet (by simp [launching]) nofun rfl rfl rfl (h.published (by simp [launching])) nofun
  | publishes publishing =>
    exact h.quiet (by simp [publishing]) nofun rfl rfl rfl rfl nofun

theorem sound_run (h : (initial first).run es = some s) : Sound first es s := by
  -- what is known depends on all that was learned before, so the last event is taken off
  induction es using List.reverseRecOn generalizing s with
  | nil =>
    cases h
    exact sound_initial first
  | append_singleton es e ih =>
    rw [run_concat] at h
    obtain ⟨q, hq, hstep⟩ := Option.bind_eq_some_iff.1 h
    exact (ih hq).step (takes_of_step hstep)

/-- What is launched goes back to restarts, and these are limited. -/
theorem length_launched_le (h : (initial first).run es = some s) :
    (launched es).length ≤ maxRestarts :=
  Nat.le_trans (Nat.le_of_add_right_le (sound_run h).within) (sound_run h).limit

/-- A supervisor at work. Others set the flag that is to stop it, and the handlers that it knows of end
at any time. -/
structure Scene where
  supervisor : Supervisor
  flag : Bool
  alive : List Nat

namespace Scene

def begin (first : Nat) : Scene := ⟨initial first, false, [first]⟩

inductive Happening
  | flagged
  | ended (pid : Nat)
  | learned (e : Event)
deriving DecidableEq

def Happening.event? : Happening → Option Event
  | .learned e => some e
  | _ => none

/-- What the supervisor has learned. -/
def heard (happenings : List Happening) : List Event := happenings.filterMap Happening.event?

/-- The flag is read as it is, and no handler that is alive is seen to have ended. -/
def shows (c : Scene) : Event → Bool
  | .asked stop => stop = c.flag
  | .polled .ended => !c.alive.contains c.supervisor.child
  | _ => true

def step (c : Scene) : Happening → Option Scene
  | .flagged => some { c with flag := true }
  | .ended pid => some { c with alive := c.alive.erase pid }
  | .learned e =>
    if c.shows e then
      (c.supervisor.step e).map fun s => { c with supervisor := s, alive := e.pid?.toList ++ c.alive }
    else none

def run (c : Scene) : List Happening → Option Scene
  | [] => some c
  | x :: xs => (c.step x).bind (·.run xs)

variable {c c' : Scene} {x : Happening} {xs : List Happening}

theorem run_append (c : Scene) (xs ys : List Happening) :
    c.run (xs ++ ys) = (c.run xs).bind (·.run ys) := by
  induction xs generalizing c with
  | nil => rfl
  | cons x xs ih =>
    rw [List.cons_append, run, run]
    cases c.step x with
    | none => rfl
    | some c' => exact ih c'

theorem run_concat (c : Scene) (xs : List Happening) (x : Happening) :
    c.run (xs ++ [x]) = (c.run xs).bind (·.step x) := by
  rw [run_append]
  refine congrArg _ (funext fun c' => ?_)
  rw [run]
  cases c'.step x <;> rfl

/-- Where a run comes to something that happened in it. -/
theorem exists_of_run {before after : List Happening}
    (h : c.run (before ++ x :: after) = some c') :
    ∃ q q', c.run before = some q ∧ q.step x = some q' ∧ q'.run after = some c' := by
  rw [run_append] at h
  obtain ⟨q, hq, hrest⟩ := Option.bind_eq_some_iff.1 h
  obtain ⟨q', hstep, hafter⟩ := Option.bind_eq_some_iff.1 hrest
  exact ⟨q, q', hq, hstep, hafter⟩

theorem taken_of_step (h : c.step (.learned e) = some c') :
    c.shows e = true ∧ Takes c.supervisor e c'.supervisor ∧ c'.alive = e.pid?.toList ++ c.alive := by
  obtain ⟨hshows, hmap⟩ := Option.ite_none_right_eq_some.1 h
  obtain ⟨s, hs, rfl⟩ := Option.map_eq_some_iff.1 hmap
  exact ⟨hshows, takes_of_step hs, rfl⟩

theorem heard_concat (xs : List Happening) (x : Happening) :
    heard (xs ++ [x]) = heard xs ++ x.event?.toList := by
  rw [heard, List.filterMap_append]
  cases h : x.event? <;> simp [heard, h]

/-- The supervisor goes through what it learns, whatever else happens. -/
theorem run_heard (h : (begin first).run xs = some c) :
    (initial first).run (heard xs) = some c.supervisor := by
  induction xs using List.reverseRecOn generalizing c with
  | nil =>
    cases h
    rfl
  | append_singleton xs x ih =>
    rw [run_concat] at h
    obtain ⟨q, hq, hstep⟩ := Option.bind_eq_some_iff.1 h
    have hbefore := ih hq
    rw [heard_concat]
    cases x with
    | flagged =>
      cases hstep
      exact (List.append_nil (heard xs)).symm ▸ hbefore
    | ended pid =>
      cases hstep
      exact (List.append_nil (heard xs)).symm ▸ hbefore
    | learned e =>
      obtain ⟨-, hmap⟩ := Option.ite_none_right_eq_some.1 hstep
      obtain ⟨s, hs, rfl⟩ := Option.map_eq_some_iff.1 hmap
      exact (Supervisor.run_concat _ _ e).trans (hbefore ▸ hs)

/-- Of the handlers that the supervisor knows of, none but the last is alive, and none at all when it
is about to launch another. -/
structure Single (c : Scene) : Prop where
  alive : c.alive = [] ∨ c.alive = [c.supervisor.child]
  launching : c.supervisor.phase = .launching → c.alive = []

theorem single_begin (first : Nat) : (begin first).Single := ⟨.inr rfl, nofun⟩

theorem Single.learned (h : c.Single) (step : c.step (.learned e) = some c') : c'.Single := by
  obtain ⟨hshows, htaken, halive⟩ := taken_of_step step
  have hold := h.alive
  obtain ⟨s', flag, alive⟩ := c'
  subst halive
  dsimp only at htaken
  cases htaken with
  | goesOn asking => exact ⟨hold, nofun⟩
  | stops asking => exact ⟨hold, nofun⟩
  | waits polling => exact ⟨hold, nofun⟩
  | loses polling => exact ⟨hold, nofun⟩
  | givesUp polling spent => exact ⟨hold, nofun⟩
  | restarts polling room =>
    -- an end is only shown of a handler that is not alive, and there is no other one
    have hgone : c.alive = [] := by
      refine hold.resolve_right fun hone => ?_
      simp [shows, hone] at hshows
    exact ⟨.inl hgone, fun _ => hgone⟩
  | launches launching pid =>
    have hnone : c.alive = [] := h.launching launching
    exact ⟨.inr (by simp [Event.pid?, hnone]), nofun⟩
  | fails launching => exact ⟨hold, nofun⟩
  | publishes publishing => exact ⟨hold, nofun⟩

theorem Single.step (h : c.Single) (step : c.step x = some c') : c'.Single := by
  cases x with
  | flagged =>
    cases step
    exact ⟨h.alive, h.launching⟩
  | ended pid =>
    cases step
    refine ⟨?_, fun hl => by simp [h.launching hl]⟩
    rcases h.alive with hnone | hone
    · exact .inl (by simp [hnone])
    · by_cases hpid : c.supervisor.child = pid <;> simp [hone, hpid]
  | learned e => exact h.learned step

theorem single_run (h : (begin first).run xs = some c) : c.Single := by
  induction xs using List.reverseRecOn generalizing c with
  | nil =>
    cases h
    exact single_begin first
  | append_singleton xs x ih =>
    rw [run_concat] at h
    obtain ⟨q, hq, hstep⟩ := Option.bind_eq_some_iff.1 h
    exact (ih hq).step hstep

/-- A supervisor that has stopped does nothing more. -/
theorem heard_of_stopped (h : c.run xs = some c') (stopped : c.supervisor.phase = .stopped) :
    heard xs = [] := by
  induction xs generalizing c with
  | nil => rfl
  | cons x xs ih =>
    obtain ⟨q, hstep, hrest⟩ := Option.bind_eq_some_iff.1 h
    cases x with
    | flagged =>
      cases hstep
      exact ih hrest stopped
    | ended pid =>
      cases hstep
      exact ih hrest stopped
    | learned e =>
      obtain ⟨-, htaken, -⟩ := taken_of_step hstep
      have hphase := htaken.phase
      rw [stopped] at hphase
      cases e <;> cases hphase

/-- A supervisor launches a handler only when it has just seen the one before end, at most three times,
so never are two handlers alive that it knows of. Whenever it looks at the flag, others see the handler
that was launched last, and it does nothing more once the flag was set. It stops when it has seen the
fourth handler end, and until it stops it goes on whatever comes of what it does. -/
theorem restarts_bounded (h : (begin first).run xs = some c) :
    c.alive.length ≤ 1 ∧
    (∀ before result after, xs = before ++ .learned (.launched result) :: after →
      ∃ q earlier, (begin first).run before = some q ∧ q.alive = [] ∧
        q.supervisor.child = latest first (heard before) ∧
        heard before = earlier ++ [.polled .ended]) ∧
    (launched (heard xs)).length ≤ maxRestarts ∧
    (∀ before stop after, xs = before ++ .learned (.asked stop) :: after →
      ∃ q, (begin first).run before = some q ∧ stop = q.flag ∧
        q.supervisor.pid = latest first (heard before) ∧ (stop = true → heard after = [])) ∧
    exits (heard xs) ≤ maxRestarts + 1 ∧
    (exits (heard xs) = maxRestarts + 1 → c.supervisor.phase = .stopped) ∧
    ∀ e, (c.supervisor.step e).isSome = true ↔ c.supervisor.phase = e.phase := by
  have hsound := sound_run (run_heard h)
  have hlimit := hsound.limit
  refine ⟨?_, fun before result after hxs => ?_, length_launched_le (run_heard h),
    fun before stop after hxs => ?_, ?_, fun hmany => ?_, fun e => isSome_step_iff⟩
  · rcases (single_run h).alive with hnone | hone
    · simp [hnone]
    · simp [hone]
  · subst hxs
    obtain ⟨q, q', hq, hstep, -⟩ := exists_of_run h
    have hbefore := sound_run (run_heard hq)
    obtain ⟨-, htaken, -⟩ := taken_of_step hstep
    have hlaunching : q.supervisor.phase = .launching := htaken.phase
    obtain ⟨earlier, hearlier⟩ := hbefore.seen hlaunching
    exact ⟨q, earlier, hq, (single_run hq).launching hlaunching, hbefore.child, hearlier⟩
  · subst hxs
    obtain ⟨q, q', hq, hstep, hafter⟩ := exists_of_run h
    have hbefore := sound_run (run_heard hq)
    obtain ⟨hshows, htaken, -⟩ := taken_of_step hstep
    have hasking : q.supervisor.phase = .asking := htaken.phase
    have hpublished := hbefore.published (by simp [hasking])
    refine ⟨q, hq, by simpa [shows] using hshows, hpublished.trans hbefore.child, ?_⟩
    rintro rfl
    exact heard_of_stopped hafter htaken.stopped
  · rcases hsound.counted with hcounted | ⟨hcounted, -⟩ <;> omega
  · rcases hsound.counted with hcounted | ⟨-, hstopped⟩
    · omega
    · exact hstopped

/-- The handler ends four times, each time before others see which one it is. -/
def exhausting : List Happening :=
  [.ended 7, .learned (.asked false), .learned (.polled .ended)] ++
    [8, 9, 10].flatMap fun pid =>
      [.learned (.launched (some pid)), .ended pid, .learned .published, .learned (.asked false),
        .learned (.polled .ended)]

theorem restarts_bounded_exhausting : ∃ c, (begin 7).run exhausting = some c ∧
    launched (heard exhausting) = [8, 9, 10] ∧ exits (heard exhausting) = maxRestarts + 1 ∧
    c.supervisor.pid = 10 ∧ c.alive = [] ∧ c.supervisor.phase = .stopped := by
  have hrun : (begin 7).run exhausting = some ⟨⟨.stopped, 10, 10, 3⟩, false, []⟩ := rfl
  have hexits : exits (heard exhausting) = maxRestarts + 1 := rfl
  obtain ⟨-, -, -, -, -, hstopped, -⟩ := restarts_bounded hrun
  exact ⟨_, hrun, rfl, hexits, rfl, rfl, hstopped hexits⟩

end Scene

end Supervisor

namespace Supervision

open Supervisor

variable {σ : Type} {s s' s'' : Supervision} {p q r : Machine σ} {es es' : List Event}

/-- A supervisor learns these things on the way from one process to another, which only has the
children more that were launched. -/
structure Learns (s : Supervision) (p : Machine σ) (es : List Event) (s' : Supervision)
    (q : Machine σ) : Prop where
  supervisor : s.supervisor.run es = some s'.supervisor
  children : ∃ added, q.site.env.children = p.site.env.children ++ added ∧
    added.map (·.pid) = launched es

theorem Learns.nothing (s : Supervision) (p : Machine σ) : s.Learns p [] s p :=
  ⟨rfl, [], (List.append_nil _).symm, rfl⟩

theorem Learns.trans (h : s.Learns p es s' q) (h' : s'.Learns q es' s'' r) :
    s.Learns p (es ++ es') s'' r := by
  obtain ⟨added, hq, hadded⟩ := h.children
  obtain ⟨added', hr, hadded'⟩ := h'.children
  refine ⟨?_, added ++ added', ?_, ?_⟩
  · rw [run_append, h.supervisor]
    exact h'.supervisor
  · rw [hr, hq, List.append_assoc]
  · rw [List.map_append, hadded, hadded', launched, launched, ← List.filterMap_append, launched]

theorem poll_env (pid : Nat) (env : Environment) : ((Run.poll pid).run env).2 = env := by
  unfold Run.poll
  rw [stateM_run_get]
  cases env.children.find? (·.pid = pid) with
  | none => rfl
  | some child => cases hended : child.hasEnded <;> simp only [hended] <;> rfl

theorem poll_run (pid : Nat) (p : Machine σ) :
    ∃ result, (liftM (Run.poll pid) : MachineM σ Poll).run p = (result, p) := by
  have henv := poll_env pid p.site.env
  cases hpolled : (Run.poll pid).run p.site.env with
  | mk result env =>
    rw [hpolled] at henv
    subst henv
    exact ⟨result, run_liftM_run hpolled⟩

/-- A supervisor that has not stopped comes to what it is waiting for. -/
theorem observe_cases (s : Supervision) (p : Machine σ) :
    s.observe.run p = (none, p) ∨
    ∃ e q, s.observe.run p = (some e, q) ∧ s.supervisor.phase = e.phase ∧
      ∃ added, q.site.env.children = p.site.env.children ++ added ∧
        added.map (·.pid) = launched [e] := by
  unfold observe
  cases s.supervisor.phase with
  | stopped => exact .inl rfl
  | asking => exact .inr ⟨.asked false, p, rfl, rfl, [], (List.append_nil _).symm, rfl⟩
  | publishing => exact .inr ⟨.published, p, rfl, rfl, [], (List.append_nil _).symm, rfl⟩
  | polling =>
    obtain ⟨result, hpolled⟩ := poll_run s.supervisor.child p
    exact .inr ⟨.polled result, p, stateM_run_bind hpolled _, rfl, [], (List.append_nil _).symm, rfl⟩
  | launching =>
    rcases s.command.spawn_cases p with ⟨e, hspawn⟩ | ⟨child, q, hspawn, -, hchildren⟩
    · exact .inr ⟨.launched none, p, stateM_run_bind hspawn _, rfl, [],
        (List.append_nil _).symm, rfl⟩
    · exact .inr ⟨.launched (some child.pid), q, stateM_run_bind hspawn _, rfl, [child], hchildren,
        rfl⟩

/-- Whatever is done in a supervision, the supervisor learns of it. -/
def Learning (f : Supervision → MachineM σ Supervision) : Prop :=
  ∀ (s : Supervision) (p : Machine σ), ∃ es, s.Learns p es ((f s).run p).1 ((f s).run p).2

theorem Learning.bind {f g : Supervision → MachineM σ Supervision} (hf : Learning f)
    (hg : Learning g) : Learning fun s => f s >>= g := fun s p => by
  obtain ⟨es, hfirst⟩ := hf s p
  obtain ⟨es', hsecond⟩ := hg ((f s).run p).1 ((f s).run p).2
  exact ⟨es ++ es', hfirst.trans hsecond⟩

theorem learning_pure : Learning (pure : Supervision → MachineM σ Supervision) :=
  fun s p => ⟨[], .nothing s p⟩

theorem learning_advance : Learning (advance : Supervision → MachineM σ Supervision) := by
  intro s p
  unfold advance
  rcases observe_cases s p with hrun | ⟨e, q, hrun, hphase, hchildren⟩
  · rw [stateM_run_bind hrun]
    exact ⟨[], .nothing s p⟩
  · obtain ⟨next, hnext⟩ := Option.isSome_iff_exists.1 (isSome_step_iff.2 hphase)
    rw [stateM_run_bind hrun]
    dsimp only [Option.bind_some]
    rw [hnext]
    refine ⟨[e], ?_, hchildren⟩
    rw [Supervisor.run, hnext]
    rfl

theorem learning_turn : Learning (turn : Supervision → MachineM σ Supervision) := by
  refine learning_advance.bind (learning_advance.bind fun s p => ?_)
  split
  · exact learning_advance.bind learning_advance s p
  · exact learning_pure s p

theorem learning_turns (n : Nat) : Learning (turns n : Supervision → MachineM σ Supervision) := by
  induction n with
  | zero => exact learning_pure
  | succ n ih => exact learning_turn.bind ih

/-- However long a handler is supervised, the process has at most three children more. -/
theorem children_turns {first : Nat} (begun : s.supervisor = .initial first) (n : Nat)
    (p : Machine σ) : ∃ added, ((turns n s).run p).2.site.env.children =
      p.site.env.children ++ added ∧ added.length ≤ maxRestarts := by
  obtain ⟨es, hlearns⟩ := learning_turns n s p
  obtain ⟨added, hchildren, hadded⟩ := hlearns.children
  have hrun := hlearns.supervisor
  rw [begun] at hrun
  refine ⟨added, hchildren, ?_⟩
  rw [← added.length_map (·.pid), hadded]
  exact length_launched_le hrun

end Supervision

end CrashCapture
