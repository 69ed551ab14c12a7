import CrashCapture.Proofs.Backend.Startup
import CrashCapture.Proofs.Chain.Stacks
import CrashCapture.Proofs.External.Consent
import CrashCapture.Proofs.RunFiles.Rotation

namespace CrashCapture

variable {σ : Type}

/-- Whether another thread can be started in a process. -/
def Machine.startsThread (p : Machine σ) : Bool :=
  p.site.env.memory.quota.commits && p.site.env.memory.quota.reserves Run.threadStackSize

/-- Spawning fails and changes nothing, or it adds a child. -/
theorem Run.spawn_cases (forget : Bool) (path : Path) (arguments : List String)
    (env : Environment) :
    (∃ e, (spawn forget path arguments).run env = (.error e, env)) ∨
    ∃ child env', (spawn forget path arguments).run env = (.ok child.pid, env') ∧
      env'.memory = env.memory ∧ env'.children = env.children ++ [child] := by
  unfold spawn
  rw [stateM_run_get]
  by_cases hcan : (!canSpawn env.memory.quota) = true
  · rw [if_pos hcan]
    exact .inl ⟨_, rfl⟩
  · rw [if_neg hcan]
    cases Program.start env.files path arguments with
    | error e => exact .inl ⟨e, rfl⟩
    | ok started => exact .inr ⟨⟨env.nextPid, _, forget⟩, _, rfl, rfl, rfl⟩

/-- The log goes on with these records. -/
def Environment.noting (added : List LogRecord) (env : Environment) : Environment :=
  { env with log := env.log ++ added }

theorem Environment.noting_nil (env : Environment) : env.noting [] = env := by
  rw [noting, List.append_nil]

theorem debug_run (text : String) (p : Machine σ) :
    (liftM (Run.debug text) : MachineM σ Unit).run p = ((), p.modifyEnv (External.logged text)) := rfl

namespace HandlerCommand

theorem spawn_cases (c : HandlerCommand) (p : Machine σ) :
    (∃ e, c.spawn.run p = (.error e, p)) ∨
    ∃ child q, c.spawn.run p = (.ok child.pid, q) ∧
      q.site.env.memory = p.site.env.memory ∧
      q.site.env.children = p.site.env.children ++ [child] := by
  have hspawn : c.spawn.run p = (liftM (Run.spawn
      ((p.dispositions .chld).handler = .ignore) c.handler c.arguments) : MachineM σ _).run p := rfl
  rcases Run.spawn_cases ((p.dispositions .chld).handler = .ignore) c.handler c.arguments
    p.site.env with ⟨e, hrun⟩ | ⟨child, env', hrun, hmemory, hchildren⟩
  · exact .inl ⟨e, hspawn.trans (run_liftM_run hrun)⟩
  · exact .inr ⟨child, _, hspawn.trans (run_liftM_run hrun), hmemory, hchildren⟩

/-- What a launch comes to, and what it leaves behind. -/
inductive Launched (c : HandlerCommand) (p : Machine σ) :
    Except Error Supervision → Machine σ → Prop
  | unspawned (e : IoError) (spawn : (c.spawn.run p).1 = .error e) :
      Launched c p (.error (.handlerLaunch e)) p
  | supervised (child : Child) (spawn : (c.spawn.run p).1 = .ok child.pid)
      (starts : p.startsThread = true) (q : Machine σ)
      (children : q.site.env.children = p.site.env.children ++ [child]) :
      Launched c p (.ok ⟨c, .initial child.pid, 0⟩) q
  | abandoned (child : Child) (spawn : (c.spawn.run p).1 = .ok child.pid)
      (starts : p.startsThread = false) (q : Machine σ)
      (children : q.site.env.children = p.site.env.children ++ [child]) :
      Launched c p (.error (.io .tryAgain)) q

theorem launch_launched (c : HandlerCommand) (p : Machine σ) :
    c.Launched p (c.launch.run p).1 (c.launch.run p).2 := by
  unfold launch
  rcases c.spawn_cases p with ⟨e, hrun⟩ | ⟨child, q, hrun, hmemory, hchildren⟩
  · rw [stateM_run_bind hrun]
    exact .unspawned e (congrArg Prod.fst hrun)
  · have hspawn : (c.spawn.run p).1 = .ok child.pid := congrArg Prod.fst hrun
    -- spawning takes no memory of the process, so a thread can be started if it could before
    have hstarts (text : String) :
        (q.modifyEnv (External.logged text)).startsThread = p.startsThread := by
      change (q.site.env.memory.quota.commits && q.site.env.memory.quota.reserves _) = _
      rw [hmemory]
      rfl
    have hcan (r : Machine σ) : (liftM Run.canStartThread : MachineM σ Bool).run r =
        (r.startsThread, r) := rfl
    rw [stateM_run_bind hrun]
    dsimp only
    rw [stateM_run_bind (debug_run _ q), stateM_run_bind (hcan _)]
    cases h : p.startsThread with
    | true =>
      rw [if_pos ((hstarts _).trans h)]
      exact .supervised child hspawn h _ hchildren
    | false =>
      rw [if_neg (Bool.eq_false_iff.1 ((hstarts _).trans h))]
      exact .abandoned child hspawn h _ hchildren

end HandlerCommand

namespace External

/-- Where a startup launches the handler: with what, and in which process. -/
structure Launching (σ : Type) where
  handler : Path
  run : RunFiles
  backend : External
  machine : Machine σ

variable [Host σ]

/-- The database is made ready between the preparation and the launch. -/
def Launching.ofPrepared (options : Options) (handler : Path) (run : RunFiles) (q : Machine σ) :
    Launching σ :=
  let ready := (readyDatabase options.databasePath (begun run)).run q.site
  ⟨handler, run, ready.1, { q with site := ready.2 }⟩

/-- The launch that the startup of a new backend comes to, if it does. -/
def launching? (p : Machine σ) : Option (Launching σ) :=
  match (prepare (Host.options p.site.host)).run p with
  | (.error _, _) => none
  | (.ok (handler, run), q) => some (.ofPrepared (Host.options p.site.host) handler run q)

theorem launching?_of_prepared {p : Machine σ} {options : Options} {handler : Path}
    {run : RunFiles} (configured : Host.options p.site.host = options)
    (prepared : ((prepare options).run p).1 = .ok (handler, run)) :
    launching? p = some (.ofPrepared options handler run ((prepare options).run p).2) := by
  rw [launching?, configured, eq_of_fst_eq prepared]

/-- The command that is launched. -/
def Launching.command (l : Launching σ) (options : Options) : HandlerCommand :=
  commandFor options l.handler l.run l.machine.site.env.pid

theorem prepare_cases (options : Options) (p : Machine σ) :
    (∃ e, Handler.resolve options p.site.env.executable p.site.env.files = .error e ∧
      (prepare options).run p = (.error e, p)) ∨
    ∃ handler, Handler.resolve options p.site.env.executable p.site.env.files = .ok handler ∧
      ((∃ e files, (RunFiles.create options.runPath options.maxBreadcrumbs).run p.site.env.files =
          .error e files ∧
          (prepare options).run p = (.error (.io e), p.modifyEnv ({ · with files }))) ∨
        ∃ run files q, (RunFiles.create options.runPath options.maxBreadcrumbs).run
            p.site.env.files = .ok run files ∧
          run = .inside options.runPath options.maxBreadcrumbs ∧
          (prepare options).run p = (.ok (handler, run), q)) := by
  have hcreate := Run.disk_run (RunFiles.create options.runPath options.maxBreadcrumbs) p.site.env
  unfold prepare
  rw [stateM_run_get]
  dsimp only
  cases Handler.resolve options p.site.env.executable p.site.env.files with
  | error e => exact .inl ⟨e, rfl, rfl⟩
  | ok handler =>
    refine .inr ⟨handler, rfl, ?_⟩
    cases hcreated : (RunFiles.create options.runPath options.maxBreadcrumbs).run p.site.env.files with
    | error e files =>
      rw [hcreated] at hcreate
      dsimp only
      rw [stateM_run_bind (run_liftM_run hcreate)]
      exact .inl ⟨e, files, rfl, rfl⟩
    | ok run files =>
      rw [hcreated] at hcreate
      dsimp only
      rw [stateM_run_bind (run_liftM_run hcreate)]
      cases hflushed : (liftM (run.flushScope : SiteM σ _) : MachineM σ _).run
          { p with site := { p.site with env := { p.site.env with files } } } with
      | mk flushed q =>
        rw [stateM_run_bind hflushed]
        exact .inr ⟨run, files, _, rfl, (RunFiles.create_grew hcreated).1, rfl⟩

/-- What a launch has to do with the startup that comes to it. -/
structure Launching.Reached (l : Launching σ) (p : Machine σ) : Prop where
  tryStartup : (tryStartup initial).run p =
    (launch (Host.options p.site.host) l.handler l.run l.backend).run l.machine
  resolved : Handler.resolve (Host.options p.site.host) p.site.env.executable p.site.env.files =
    .ok l.handler
  files : l.run =
    .inside (Host.options p.site.host).runPath (Host.options p.site.host).maxBreadcrumbs
  unsupervised : l.backend.process = none

theorem launching_cases (p : Machine σ) :
    (launching? p = none ∧ ∃ e q, (tryStartup initial).run p = ((initial, .error e), q) ∧
      q.site.env.children = p.site.env.children) ∨
    ∃ l, launching? p = some l ∧ l.Reached p := by
  unfold launching?
  rcases prepare_cases (Host.options p.site.host) p with
    ⟨e, -, hrefused⟩ | ⟨handler, hresolved, ⟨e, files, -, hrefused⟩ | ⟨run, files, q, -, hrun, hprepared⟩⟩
  · rw [hrefused, tryStartup_refused hrefused]
    exact .inl ⟨rfl, _, p, rfl, rfl⟩
  · rw [hrefused, tryStartup_refused hrefused]
    exact .inl ⟨rfl, _, _, rfl, rfl⟩
  · obtain ⟨db, hdb⟩ := readyDatabase_db (Host.options p.site.host).databasePath (begun run) q.site
    rw [hprepared]
    exact .inr ⟨_, rfl, tryStartup_run hprepared rfl, hresolved, hrun, congrArg process hdb⟩

omit [Host σ] in
theorem logFailure_run (what : String) (outcome : Except Error Unit) (env : Environment) :
    ∃ added, (logFailure what outcome).run env = ((), env.noting added) := by
  cases outcome with
  | ok u => exact ⟨[], congrArg (Prod.mk ()) env.noting_nil.symm⟩
  | error e => exact ⟨_, rfl⟩

/-- A startup that failed is only noted in the log. -/
theorem startup_run (b : External) (p : Machine σ) : ∃ added, b.startup.run p =
    ((b.tryStartup.run p).1.1, (b.tryStartup.run p).2.modifyEnv (·.noting added)) := by
  unfold startup
  cases htried : b.tryStartup.run p with
  | mk r q =>
    obtain ⟨b', outcome⟩ := r
    obtain ⟨added, hadded⟩ :=
      logFailure_run "failed to start the external crash handler" outcome q.site.env
    rw [stateM_run_bind htried]
    dsimp only
    rw [stateM_run_bind (run_liftM_run hadded)]
    exact ⟨added, rfl⟩

/-- The pool is reserved before a chain is attached, and a failure to do that is noted after it. -/
theorem hook_run (b : External) (p : Machine σ) : ∃ site log,
    site.env.children = p.site.env.children ∧
      (hook b).run p =
        let attached := (Chain.attach (faultHandler (σ := σ))).run { p with site }
        ({ b with attached := b.attached || attached.1.isOk, hooked := true },
          attached.2.modifyEnv ({ · with log })) := by
  obtain ⟨site, hreserved, hchildren⟩ : ∃ site, (liftM Run.reservePool : MachineM σ Unit).run p =
      ((), { p with site }) ∧ site.env.children = p.site.env.children := ⟨_, rfl, rfl⟩
  unfold hook
  rw [stateM_run_bind hreserved]
  cases hattached : (Chain.attach (faultHandler (σ := σ))).run { p with site } with
  | mk attached q =>
    rw [stateM_run_bind hattached]
    cases attached with
    | ok u =>
      refine ⟨site, q.site.env.log, hchildren, ?_⟩
      dsimp only [Except.isOk, Except.toBool]
      rw [hattached, Bool.or_true]
      rfl
    | error e =>
      exact ⟨site, _, hchildren, by
        dsimp only [Except.isOk, Except.toBool]
        rw [hattached, Bool.or_false, stateM_run_bind (debug_run _ q)]
        rfl⟩

theorem launch_launched (options : Options) (handler : Path) (run : RunFiles) (b : External)
    (unsupervised : b.process = none) (p : Machine σ) :
    ∃ result q, (commandFor options handler run p.site.env.pid).Launched p result q ∧
      ((launch options handler run b).run p).1.1.handlerPid? =
        result.toOption.map (·.supervisor.pid) ∧
      ((launch options handler run b).run p).2.site.env.children = q.site.env.children := by
  have hlaunched := (commandFor options handler run p.site.env.pid).launch_launched p
  rcases launch_cases options handler run b p with
    ⟨e, q, hrun, hlaunch⟩ | ⟨supervision, q, hrun, hlaunch⟩
  · have hunknown : b.handlerPid? = none := by rw [handlerPid?, unsupervised]; rfl
    rw [hrun] at hlaunched
    rw [hlaunch]
    exact ⟨.error e, q, hlaunched, hunknown, rfl⟩
  · obtain ⟨site, log, hsite, hhooked⟩ := hook_run { b with process := some supervision } q
    have hchildren := Chain.children_attach (faultHandler (σ := σ)) { q with site }
    rw [hrun] at hlaunched
    rw [hlaunch, hhooked]
    refine ⟨.ok supervision, q, hlaunched, rfl, ?_⟩
    dsimp only
    split <;> exact hchildren.trans hsite

/-- The handler is known by its process id if it was spawned and is supervised. One that was spawned
without that goes on, and is not known. -/
theorem handler_of_startup (p : Machine σ) :
    let after := (startup initial).run p
    (launching? p = none ∧ after.1.handlerPid? = none ∧
      after.2.site.env.children = p.site.env.children) ∨
    ∃ l result q, launching? p = some l ∧
      (l.command (Host.options p.site.host)).Launched l.machine result q ∧
      after.1.handlerPid? = result.toOption.map (·.supervisor.pid) ∧
      after.2.site.env.children = q.site.env.children := by
  intro after
  obtain ⟨added, hstartup⟩ := startup_run initial p
  have hbackend : after.1 = ((tryStartup initial).run p).1.1 := congrArg Prod.fst hstartup
  have hchildren : after.2.site.env.children =
      ((tryStartup initial).run p).2.site.env.children := by
    change ((startup initial).run p).2.site.env.children = _
    rw [hstartup]
    rfl
  rw [hbackend, hchildren]
  rcases launching_cases p with ⟨hnone, e, q, hrefused, hq⟩ | ⟨l, hsome, hreached⟩
  · rw [hrefused]
    exact .inl ⟨hnone, rfl, hq⟩
  · obtain ⟨result, q, hlaunched⟩ := launch_launched (Host.options p.site.host) l.handler l.run
      l.backend hreached.unsupervised l.machine
    rw [hreached.tryStartup]
    exact .inr ⟨l, result, q, hsome, hlaunched⟩

/-- A client whose process may map little more. -/
def cramped : Machine RecordingHost :=
  (declining consented).modifyEnv ({ · with memory := ⟨[], 0x7f0000000000, .upTo 65536⟩ })

theorem options_cramped : Host.options cramped.site.host = rooted := rfl

def crampedLaunch : Launching RecordingHost :=
  .ofPrepared rooted "/handler" rootedFiles ((prepare rooted).run cramped).2

theorem launching_cramped : launching? cramped = some crampedLaunch :=
  launching?_of_prepared options_cramped (by decide +kernel)

/-- The handler runs, but the backend knows of none. -/
theorem handler_of_startup_cramped : ∃ child,
    ((startup initial).run cramped).2.site.env.children = [child] ∧
      ((startup initial).run cramped).1.handlerPid? = none := by
  have hspawned : ((crampedLaunch.command rooted).spawn.run crampedLaunch.machine).1 = .ok 2 := by
    decide +kernel
  have hstarts : crampedLaunch.machine.startsThread = false := by decide +kernel
  have hchildren : crampedLaunch.machine.site.env.children = [] := by decide +kernel
  rcases handler_of_startup cramped with
    ⟨hnone, -⟩ | ⟨l, result, q, hsome, hlaunched, hknown, hafter⟩
  · rw [launching_cramped] at hnone
    cases hnone
  · obtain rfl : l = crampedLaunch := Option.some.inj (hsome.symm.trans launching_cramped)
    rw [options_cramped] at hlaunched
    cases hlaunched with
    | unspawned e spawn =>
      rw [hspawned] at spawn
      cases spawn
    | supervised child spawn starts q children =>
      rw [hstarts] at starts
      cases starts
    | abandoned child spawn starts q children =>
      rw [hchildren] at children
      exact ⟨child, hafter.trans children, hknown⟩

end External

end CrashCapture
