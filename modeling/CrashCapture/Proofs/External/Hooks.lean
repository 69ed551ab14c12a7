import CrashCapture.Proofs.External.Shutdown
import CrashCapture.Proofs.RunFiles.Creation

namespace CrashCapture

def Site.noting {σ : Type} (added : List LogRecord) (s : Site σ) : Site σ :=
  { s with env := s.env.noting added }

namespace External

variable {σ : Type} [Host σ]

inductive Progress
  | unresolved
  | uncreated
  | created (run : RunFiles) (opened launched : Bool)
deriving DecidableEq, Repr

/-- A database that can't be opened does not keep a startup from launching the handler. -/
def progress (b : External) (p : Machine σ) : Progress :=
  let options := Host.options p.site.host
  match Handler.resolve options p.site.env.executable p.site.env.files with
  | .error _ => .unresolved
  | .ok handler =>
    match (RunFiles.create options.runPath options.maxBreadcrumbs).run p.site.env.files with
    | .error _ _ => .uncreated
    | .ok run _ =>
      let q := ((prepare options).run p).2
      let opened := (Database.openAt options.databasePath).run q.site.env
      let site := ((readyDatabase options.databasePath
        { b with run := some run, hosted := true }).run q.site).2
      let launched := (commandFor options handler run site.env.pid).launch.run { q with site }
      .created run opened.1.isOk launched.1.isOk

/-- What a startup makes of a backend and of the process. -/
inductive Ended (b : External) (p : Machine σ) : Progress → External → Machine σ → Prop
  | unresolved : Ended b p .unresolved b p
  | uncreated (files : FileTree)
      (made : RunFiles.Made (Host.options p.site.host).runPath p.site.env.files files) :
      Ended b p .uncreated b (p.modifyEnv ({ · with files }))
  | created {run : RunFiles} {opened launched : Bool} (db : Option Database)
      (process : Option Supervision) (attached : Bool) (q : Machine σ)
      (some_db : db.isSome = (b.db.isSome || opened)) :
      Ended b p (.created run opened launched)
        { hosted := true, run := some run, db, hooked := b.hooked || launched, process, attached } q

omit [Host σ] in
theorem isSome_openDatabase (path : Path) (b : External) (s : Site σ) :
    ((openDatabase path b).run s).1.db.isSome =
      (b.db.isSome || ((Database.openAt path).run s.env).1.isOk) := by
  unfold openDatabase
  cases hopened : (Database.openAt path).run s.env with
  | mk opened env =>
    rw [stateM_run_bind (run_liftM_env hopened)]
    cases opened with
    | ok db => exact (Bool.or_true _).symm
    | error e => exact (Bool.or_false _).symm

theorem isSome_userConsentChanged (b : External) (s : Site σ) :
    ((userConsentChanged b).run s).1.db.isSome = b.db.isSome := by
  unfold userConsentChanged
  split
  · next hdb => rw [hdb]; rfl
  · rfl

theorem isSome_readyDatabase (path : Path) (b : External) (s : Site σ) :
    ((readyDatabase path b).run s).1.db.isSome =
      (b.db.isSome || ((Database.openAt path).run s.env).1.isOk) := by
  have hopened := isSome_openDatabase path b s
  unfold readyDatabase
  cases hrun : (openDatabase path b).run s with
  | mk b' s' =>
    rw [hrun] at hopened
    rw [stateM_run_bind hrun, isSome_userConsentChanged]
    exact hopened

theorem launch_hooked (options : Options) (handler : Path) (run : RunFiles) (b : External)
    (p : Machine σ) : ∃ process attached, ((launch options handler run b).run p).1.1 =
      { b with process, attached, hooked := b.hooked ||
          ((commandFor options handler run p.site.env.pid).launch.run p).1.isOk } := by
  rcases launch_cases options handler run b p with
    ⟨e, q, hrun, hlaunch⟩ | ⟨supervision, q, hrun, hlaunch⟩
  · rw [hrun, hlaunch]
    dsimp only [Except.isOk, Except.toBool]
    rw [Bool.or_false]
    exact ⟨b.process, b.attached, rfl⟩
  · obtain ⟨site, log, -, hhooked⟩ := hook_run { b with process := some supervision } q
    rw [hrun, hlaunch, hhooked]
    dsimp only [Except.isOk, Except.toBool]
    rw [Bool.or_true]
    exact ⟨_, _, rfl⟩

theorem tryStartup_ended (b : External) (p : Machine σ) :
    Ended b p (progress b p) ((tryStartup b).run p).1.1 ((tryStartup b).run p).2 := by
  unfold progress
  dsimp only
  rcases prepare_cases (Host.options p.site.host) p with
    ⟨e, hresolved, hprepared⟩ | ⟨handler, hresolved,
      ⟨e, files, hcreated, hprepared⟩ | ⟨run, files, q, hcreated, -, hprepared⟩⟩
  · rw [tryStartup_refused hprepared, hresolved]
    exact .unresolved
  · have hmade := RunFiles.create_made (Host.options p.site.host).runPath
      (Host.options p.site.host).maxBreadcrumbs p.site.env.files
    rw [hcreated] at hmade
    rw [tryStartup_refused hprepared, hresolved, hcreated]
    exact .uncreated files hmade
  · cases hready : (readyDatabase (Host.options p.site.host).databasePath
        { b with run := some run, hosted := true }).run q.site with
    | mk b' site =>
      obtain ⟨db, hdb⟩ := readyDatabase_db (Host.options p.site.host).databasePath
        { b with run := some run, hosted := true } q.site
      have hopened := isSome_readyDatabase (Host.options p.site.host).databasePath
        { b with run := some run, hosted := true } q.site
      rw [hready] at hdb hopened
      obtain rfl : b' = { b with run := some run, hosted := true, db } := hdb
      obtain ⟨process, attached, hlaunched⟩ := launch_hooked (Host.options p.site.host) handler run
        { b with run := some run, hosted := true, db } { q with site }
      rw [tryStartup_run hprepared hready, hlaunched, hresolved, hcreated, hprepared]
      dsimp only
      rw [hready]
      exact .created db process attached _ hopened

/-- A startup that failed is only noted in the log. -/
theorem startup_ended (b : External) (p : Machine σ) : ∃ q added,
    Ended b p (progress b p) (b.startup.run p).1 q ∧
      (b.startup.run p).2 = q.modifyEnv (·.noting added) := by
  obtain ⟨added, hrun⟩ := startup_run b p
  rw [hrun]
  exact ⟨_, added, tryStartup_ended b p, rfl⟩

theorem startup_unresolved {b : External} {p : Machine σ} (h : progress b p = .unresolved) :
    ∃ added, b.startup.run p = (b, p.modifyEnv (·.noting added)) := by
  obtain ⟨q, added, hended, hq⟩ := startup_ended b p
  rw [h] at hended
  generalize hb : (b.startup.run p).1 = b' at hended
  cases hended with
  | unresolved => exact ⟨added, Prod.ext hb hq⟩

theorem startup_uncreated {b : External} {p : Machine σ} (h : progress b p = .uncreated) :
    ∃ files added, RunFiles.Made (Host.options p.site.host).runPath p.site.env.files files ∧
      b.startup.run p = (b, p.modifyEnv fun env => { env with files }.noting added) := by
  obtain ⟨q, added, hended, hq⟩ := startup_ended b p
  rw [h] at hended
  generalize hb : (b.startup.run p).1 = b' at hended
  cases hended with
  | uncreated files made => exact ⟨files, added, made, Prod.ext hb hq⟩

omit [Host σ] in
theorem shutdown_backend (b : External) (p : Machine σ) : (b.shutdown.run p).1 = initial := by
  obtain ⟨hosted, run, db, hooked, process, attached⟩ := b
  cases attached <;> rfl

section

variable {b : External} {run : RunFiles}

theorem flushScope_run (hosted : b.hosted = true) (hrun : b.run = some run) (s : Site σ) :
    ∃ added, b.flushScope.run s = ((), (run.flushScope.run s).2.noting added) := by
  cases hflushed : run.flushScope.run s with
  | mk outcome s' =>
    obtain ⟨added, hadded⟩ := logFailure_run "failed to flush scope" outcome s'.env
    rw [flushScope, hosted, hrun]
    dsimp only
    rw [stateM_run_bind hflushed]
    exact ⟨added, run_liftM_env hadded⟩

theorem addBreadcrumb_run (hosted : b.hosted = true) (hrun : b.run = some run) (breadcrumb : Json)
    (s : Site σ) : ∃ result added, (b.addBreadcrumb breadcrumb).run s =
      (({ b with run := some ((run.add breadcrumb).run s).1.1 }, result),
        ((run.add breadcrumb).run s).2.noting added) := by
  cases hadded : (run.add breadcrumb).run s with
  | mk added s' =>
    obtain ⟨run', outcome⟩ := added
    rw [addBreadcrumb, hosted, hrun]
    dsimp only
    have hsame : s'.noting [] = s' := by rw [Site.noting, Environment.noting_nil]
    rw [stateM_run_bind hadded]
    cases outcome with
    | ok u => exact ⟨.done, [], by rw [hsame]; rfl⟩
    | error breach =>
      cases breach with
      | failed e => exact ⟨.done, _, rfl⟩
      | overflow => exact ⟨.overflow, [], by rw [hsame]; rfl⟩

theorem flushScope_unhosted (h : b.hosted = false) : (b.flushScope : SiteM σ Unit) = pure () := by
  rw [flushScope, h]

theorem addBreadcrumb_unhosted (h : b.hosted = false) (breadcrumb : Json) :
    (b.addBreadcrumb breadcrumb : SiteM σ _) = pure (b, .done) := by
  rw [addBreadcrumb, h]

theorem userConsentChanged_unopened (h : b.hosted = false ∨ b.db = none) :
    (userConsentChanged b : SiteM σ External) = pure b := by
  unfold userConsentChanged
  split
  · next hhosted hdb => simp [hhosted, hdb] at h
  · rfl

theorem handleException_unhooked (h : b.hooked = false) :
    (b.handleException : SiteM σ Unit) = pure () := by
  rw [handleException, h]
  rfl

end

/-- No hook does anything. -/
structure Inert (σ : Type) [Host σ] (b : External) : Prop where
  flushScope : (b.flushScope : SiteM σ Unit) = pure ()
  addBreadcrumb : ∀ breadcrumb, (b.addBreadcrumb breadcrumb : SiteM σ _) = pure (b, .done)
  userConsentChanged : (External.userConsentChanged b : SiteM σ External) = pure b
  handleException : (b.handleException : SiteM σ Unit) = pure ()

theorem initial_inert : Inert σ initial where
  flushScope := flushScope_unhosted rfl
  addBreadcrumb := addBreadcrumb_unhosted rfl
  userConsentChanged := userConsentChanged_unopened (.inl rfl)
  handleException := handleException_unhooked rfl

/-- What all startups since the last shutdown together have come to. -/
structure Standing where
  run : Option RunFiles
  opened : Bool
  launched : Bool
deriving DecidableEq, Repr

inductive Action
  | startup
  | shutdown
  | ask (request : Request)
  | handleException

def Action.run : Action → External → MachineM σ External
  | startup, b => b.startup
  | shutdown, b => b.shutdown
  | ask request, b => request.run b
  | handleException, b => do
    (b.handleException : SiteM σ Unit)
    return b

namespace Standing

def initial : Standing := ⟨none, false, false⟩

/-- The run files are those of the latest startup that has made some. A database that was opened stays
open, and the hook of a launched handler stays. -/
def reach (st : Standing) : Progress → Standing
  | .created run opened launched => ⟨some run, st.opened || opened, st.launched || launched⟩
  | _ => st

/-- The run files count the breadcrumbs they get. -/
def after (st : Standing) (b : External) (p : Machine σ) : Action → Standing
  | .startup => st.reach (progress b p)
  | .shutdown => initial
  | .ask (.addBreadcrumb _) => { st with run := st.run.map (·.next.1) }
  | .ask _ | .handleException => st

end Standing

/-- A backend and its standing after some actions. Anything may have become of the process between
two of them. -/
def follow (b : External) (st : Standing) : List (Action × Machine σ) → External × Standing
  | [] => (b, st)
  | (action, p) :: actions =>
    follow ((action.run b).run p).1 (st.after b p action) actions

/-- What the fields of a backend have to do with its standing. -/
structure Standing.Of (st : Standing) (b : External) : Prop where
  run : b.run = st.run
  hosted : b.hosted = st.run.isSome
  opened : b.db.isSome = st.opened
  launched : b.hooked = st.launched

namespace Standing.Of

variable {st : Standing} {b : External}

theorem startup (h : st.Of b) (p : Machine σ) :
    (st.reach (progress b p)).Of (b.startup.run p).1 := by
  obtain ⟨q, -, hended, -⟩ := startup_ended b p
  generalize progress b p = reached, (b.startup.run p).1 = b' at hended ⊢
  cases hended with
  | unresolved => exact h
  | uncreated => exact h
  | created db process attached q some_db =>
    exact ⟨rfl, rfl, some_db.trans (congrArg (· || _) h.opened), congrArg (· || _) h.launched⟩

theorem ask (h : st.Of b) (request : Request) (p : Machine σ) :
    (st.after b p (.ask request)).Of ((request.run b).run p).1 := by
  cases request with
  | flushScope => exact h
  | addBreadcrumb breadcrumb =>
    change Standing.Of { st with run := st.run.map (·.next.1) }
      ((b.addBreadcrumb breadcrumb).run p.site).1.1
    cases hrun : st.run with
    | none =>
      have hhosted : b.hosted = false := by rw [h.hosted, hrun]; rfl
      rw [addBreadcrumb_unhosted hhosted]
      refine ⟨?_, ?_, h.opened, h.launched⟩
      · exact h.run.trans hrun
      · exact hhosted
    | some run =>
      have hhosted : b.hosted = true := by rw [h.hosted, hrun]; rfl
      obtain ⟨result, added, hadded⟩ :=
        addBreadcrumb_run hhosted (h.run.trans hrun) breadcrumb p.site
      rw [hadded]
      refine ⟨?_, hhosted, h.opened, h.launched⟩
      rw [run.add_next]
      rfl
  | userConsentChanged =>
    have hopened := isSome_userConsentChanged b p.site
    obtain ⟨db, hdb⟩ := userConsentChanged_db b p.site
    change Standing.Of st ((External.userConsentChanged b).run p.site).1
    rw [hdb] at hopened ⊢
    exact ⟨h.run, h.hosted, hopened.trans h.opened, h.launched⟩
  | pass milliseconds =>
    have hprocess : ∃ process, ((b.pass milliseconds).run p).1 = { b with process } := by
      unfold pass
      split
      · exact ⟨b.process, rfl⟩
      · exact ⟨_, rfl⟩
    obtain ⟨process, hprocess⟩ := hprocess
    change Standing.Of st ((b.pass milliseconds).run p).1
    rw [hprocess]
    exact ⟨h.run, h.hosted, h.opened, h.launched⟩

theorem after (h : st.Of b) (action : Action) (p : Machine σ) :
    (st.after b p action).Of ((action.run b).run p).1 := by
  cases action with
  | startup => exact h.startup p
  | shutdown =>
    change Standing.initial.Of (b.shutdown.run p).1
    rw [shutdown_backend]
    exact ⟨rfl, rfl, rfl, rfl⟩
  | ask request => exact h.ask request p
  | handleException => exact h

end Standing.Of

theorem Standing.Of.follow {st : Standing} {b : External} (h : st.Of b)
    (actions : List (Action × Machine σ)) :
    (External.follow b st actions).2.Of (External.follow b st actions).1 := by
  -- what the fields have to do with the standing is the invariant of the whole run
  induction actions generalizing b st with
  | nil => exact h
  | cons step actions ih => exact ih (h.after step.1 step.2)

/-- A hook does with the run files what these do for it, and may add to the log. Where the standing has
nothing to act on it does nothing at all. -/
structure HooksAct (σ : Type) [Host σ] (b : External) (st : Standing) : Prop where
  flushScope : ∀ run, st.run = some run → ∀ s : Site σ, ∃ added,
    b.flushScope.run s = ((), (run.flushScope.run s).2.noting added)
  addBreadcrumb : ∀ run, st.run = some run → ∀ breadcrumb (s : Site σ), ∃ result added,
    (b.addBreadcrumb breadcrumb).run s =
      (({ b with run := some ((run.add breadcrumb).run s).1.1 }, result),
        ((run.add breadcrumb).run s).2.noting added)
  uncreated : st.run = none → (b.flushScope : SiteM σ Unit) = pure () ∧
    ∀ breadcrumb, (b.addBreadcrumb breadcrumb : SiteM σ _) = pure (b, .done)
  unopened : st.run = none ∨ st.opened = false →
    (External.userConsentChanged b : SiteM σ External) = pure b
  unlaunched : st.launched = false → (b.handleException : SiteM σ Unit) = pure ()

theorem Standing.Of.hooksAct {st : Standing} {b : External} (h : st.Of b) : HooksAct σ b st := by
  have hhosted {run : RunFiles} (hrun : st.run = some run) : b.hosted = true := by
    rw [h.hosted, hrun]
    rfl
  have hunhosted (hnone : st.run = none) : b.hosted = false := by
    rw [h.hosted, hnone]
    rfl
  refine ⟨fun run hrun => ?_, fun run hrun => ?_, fun hnone => ?_, ?_, fun hnot => ?_⟩
  · exact flushScope_run (hhosted hrun) (h.run.trans hrun)
  · exact addBreadcrumb_run (hhosted hrun) (h.run.trans hrun)
  · exact ⟨flushScope_unhosted (hunhosted hnone), addBreadcrumb_unhosted (hunhosted hnone)⟩
  · rintro (hnone | hclosed)
    · exact userConsentChanged_unopened (.inl (hunhosted hnone))
    · rw [← h.opened, Option.isSome_eq_false_iff, Option.isNone_iff_eq_none] at hclosed
      exact userConsentChanged_unopened (.inr hclosed)
  · exact handleException_unhooked (h.launched.trans hnot)

/-- However a backend was started up, shut down and asked before: its hooks act on the run files of the
last startup that has made some, if no shutdown came after it, and otherwise they do nothing. -/
theorem hooks_act (actions : List (Action × Machine σ)) :
    let b := (follow initial .initial actions).1
    HooksAct σ b (follow initial .initial actions).2 ∧ ∀ p : Machine σ,
      (progress b p = .unresolved →
        ∃ added, b.startup.run p = (b, p.modifyEnv (·.noting added))) ∧
      (progress b p = .uncreated → ∃ files added,
        RunFiles.Made (Host.options p.site.host).runPath p.site.env.files files ∧
        b.startup.run p = (b, p.modifyEnv fun env => { env with files }.noting added)) ∧
      let ended := (b.shutdown.run p).1
      ended.breadcrumbs = 0 ∧ ended.handlerPid? = none ∧ ended.attached = false ∧
        Inert σ ended := by
  intro b
  have hinitial : Standing.initial.Of initial := ⟨rfl, rfl, rfl, rfl⟩
  refine ⟨(hinitial.follow actions).hooksAct, fun p =>
    ⟨startup_unresolved, startup_uncreated, ?_⟩⟩
  rw [shutdown_backend]
  exact ⟨rfl, rfl, rfl, initial_inert⟩

/-- A client whose handler is missing. -/
def handlerless : Machine RecordingHost := declining ⟨[(["root"], .directory)], []⟩

/-- A client with a directory in the place of one of its run files. -/
def occupied : Machine RecordingHost :=
  declining { consented with entries := consented.entries ++
    [(["root", "run"], .directory), (["root", "run", RunFiles.secondName], .directory)] }

/-- The client is started up once more, but its handler is gone by then. -/
def restarted : List (Action × Machine RecordingHost) :=
  [(.startup, declining consented), (.startup, handlerless)]

theorem hooks_act_restarted :
    let b := (follow initial .initial restarted).1
    (∀ s : Site RecordingHost, ∃ added,
      b.flushScope.run s = ((), (rootedFiles.flushScope.run s).2.noting added)) ∧
    (∃ added, b.startup.run handlerless = (b, handlerless.modifyEnv (·.noting added))) ∧
    (∃ files added, RunFiles.Made "/root/run" occupied.site.env.files files ∧
      b.startup.run occupied =
        (b, occupied.modifyEnv fun env => { env with files }.noting added)) ∧
    (b.shutdown.run handlerless).1.handlerPid? = none := by
  obtain ⟨hacts, hprocess⟩ := hooks_act restarted
  have hstanding : (follow initial .initial restarted).2.run = some rootedFiles := by
    decide +kernel
  have hhandlerless : progress (follow initial .initial restarted).1 handlerless = .unresolved := by
    decide +kernel
  have hoccupied : progress (follow initial .initial restarted).1 occupied = .uncreated := by
    decide +kernel
  exact ⟨hacts.flushScope _ hstanding, (hprocess handlerless).1 hhandlerless,
    (hprocess occupied).2.1 hoccupied, (hprocess handlerless).2.2.2.1⟩

end External

end CrashCapture
