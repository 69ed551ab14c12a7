import CrashCapture.Proofs.Backend.Startup
import CrashCapture.Proofs.External.Launching

namespace CrashCapture

variable {σ : Type}

theorem Machine.Still.altstacks {p q : Machine σ} (h : p.Still q) : q.altstacks = p.altstacks := by
  unfold Machine.altstacks
  rw [h.threads]

namespace Chain

/-- Detaching brings back these alternate stacks. -/
def Owed (before : ThreadId → Option Mapping) (p : Machine σ) : Prop :=
  match p.chain with
  | none => p.altstacks = before
  | some c => Lent before p c.altstack

variable {before : ThreadId → Option Mapping} {p q : Machine σ}

theorem Owed.of_none (unattached : p.chain = none) : Owed before p ↔ p.altstacks = before := by
  rw [Owed, unattached]

theorem Owed.of_some {c : ChainState σ} (attached : p.chain = some c) :
    Owed before p ↔ Lent before p c.altstack := by
  rw [Owed, attached]

theorem Owed.congr (h : Owed before p) (still : p.Still q) (running : q.running = p.running) :
    Owed before q := by
  have hchain := still.chain
  cases hp : p.chain with
  | none =>
    rw [hp] at hchain
    exact (of_none hchain).2 (still.altstacks.trans ((of_none hp).1 h))
  | some c =>
    rw [hp] at hchain
    have hstanding : q.thread.onAltstack = p.thread.onAltstack := by
      unfold Machine.thread
      rw [still.threads, running]
    exact (of_some hchain).2 (((of_some hp).1 h).congr still.altstacks running hstanding)

theorem Owed.detach (h : Owed before p) : (Chain.detach.run p).2.altstacks = before := by
  cases hchain : p.chain with
  | none =>
    rw [detach_of_none hchain]
    exact (of_none hchain).1 h
  | some c => exact altstacks_detach hchain ((of_some hchain).1 h)

theorem transparent_of_started {before after : Bool} (h : p.Started q before after)
    (unattached : p.chain = none) : Transparent p.dispositions q := by
  cases h with
  | refused still =>
    exact ((Transparent.of_none unattached).2 rfl).congr still.dispositions still.chain
  | attached takes =>
    obtain ⟨altstack, handler, hchain⟩ := takes.chain
    exact Transparent.of_installed hchain takes.dispositions

theorem attach_owed (handler : FaultHandler σ) (unattached : p.chain = none) :
    Owed p.altstacks ((attach handler).run p).2 ∧ ((attach handler).run p).2.core = p.core := by
  rcases attach_lends handler p with ⟨e, hrun⟩ | ⟨c, q, hrun, hchain, hlends⟩
  · rw [hrun]
    exact ⟨(Owed.of_none unattached).2 rfl, rfl⟩
  · rw [hrun]
    exact ⟨(Owed.of_some hchain).2 hlends.lent, hlends.core⟩

end Chain

namespace External

open Chain

/-- What a startup leaves for the shutdown to undo: alternate stacks, and a limit for core dumps that
is set once the handler was launched. -/
structure Leaves (p q : Machine σ) (disabled : Bool) : Prop where
  owed : Owed p.altstacks q
  core : q.core = if disabled then { p.core with soft := 0 } else p.core

namespace Leaves

variable {p q r : Machine σ} {disabled : Bool}

theorem nothing (unattached : p.chain = none) (still : p.Still q) (core : q.core = p.core) :
    Leaves p q false :=
  ⟨(Owed.of_none (still.chain.trans unattached)).2 still.altstacks, core⟩

theorem after (h : Leaves q r disabled) (still : p.Still q) (core : q.core = p.core) :
    Leaves p r disabled := by
  have howed := h.owed
  have hcore := h.core
  rw [still.altstacks] at howed
  rw [core] at hcore
  exact ⟨howed, hcore⟩

end Leaves

variable [Host σ] {p : Machine σ}

theorem hook_leaves (b : External) (unattached : p.chain = none) :
    Leaves p ((hook b).run p).2 false := by
  obtain ⟨site, log, -, hhooked⟩ := hook_run b p
  have hattach := attach_owed (p := { p with site }) (faultHandler (σ := σ)) unattached
  rw [hhooked]
  exact ⟨hattach.1.congr ⟨rfl, rfl, rfl⟩ rfl, hattach.2⟩

theorem launch_leaves (options : Options) (handler : Path) (run : RunFiles) (b : External)
    (unattached : p.chain = none) : Leaves p ((launch options handler run b).run p).2
      (((launch options handler run b).run p).1.2.isOk && !options.systemCrashReporter) := by
  have haside := HandlerCommand.launch_aside (σ := σ) (commandFor options handler run p.site.env.pid)
  have hstill := haside.still p
  have hcore := haside.core p
  rcases launch_cases options handler run b p with
    ⟨e, q, hrun, hlaunch⟩ | ⟨supervision, q, hrun, hlaunch⟩
  · rw [hrun] at hstill hcore
    rw [hlaunch]
    exact .nothing unattached hstill hcore
  · rw [hrun] at hstill hcore
    obtain ⟨howed, hcore'⟩ := (hook_leaves { b with process := some supervision }
      (hstill.chain.trans unattached)).after hstill hcore
    rw [hlaunch]
    cases hreporter : options.systemCrashReporter with
    | true => exact ⟨howed, hcore'⟩
    | false =>
      exact ⟨howed.congr ⟨rfl, rfl, rfl⟩ rfl,
        congrArg (fun c : CoreLimit => { c with soft := 0 }) hcore'⟩

theorem tryStartup_leaves (b : External) (unattached : p.chain = none) :
    Leaves p (b.tryStartup.run p).2
      ((b.tryStartup.run p).1.2.isOk && !(Host.options p.site.host).systemCrashReporter) := by
  have haside := prepare_aside (σ := σ) (Host.options p.site.host)
  cases hprepared : (prepare (Host.options p.site.host)).run p with
  | mk prepared q =>
    have hstill := haside.still p
    have hcore := haside.core p
    rw [hprepared] at hstill hcore
    cases prepared with
    | error e =>
      rw [tryStartup_refused hprepared]
      exact .nothing unattached hstill hcore
    | ok made =>
      obtain ⟨handler, run⟩ := made
      cases hready : (readyDatabase (Host.options p.site.host).databasePath
          { b with run := some run, hosted := true }).run q.site with
      | mk b' site =>
        rw [tryStartup_run hprepared hready]
        have hlaunch := launch_leaves (p := { q with site }) (Host.options p.site.host) handler run
          b' (hstill.chain.trans unattached)
        exact hlaunch.after (hstill.trans ⟨rfl, rfl, rfl⟩) hcore

theorem startup_leaves (b : External) (unattached : p.chain = none) :
    Leaves p (b.startup.run p).2
      ((b.tryStartup.run p).1.2.isOk && !(Host.options p.site.host).systemCrashReporter) := by
  obtain ⟨added, hrun⟩ := startup_run b p
  obtain ⟨howed, hcore⟩ := tryStartup_leaves b unattached
  rw [hrun]
  exact ⟨howed.congr ⟨rfl, rfl, rfl⟩ rfl, hcore⟩

inductive Request
  | flushScope
  | addBreadcrumb (breadcrumb : Json)
  | userConsentChanged
  | pass (milliseconds : Nat)

namespace Request

def run : Request → External → MachineM σ External
  | flushScope, b => do
    (b.flushScope : SiteM σ Unit)
    return b
  | addBreadcrumb breadcrumb, b => do return (← (b.addBreadcrumb breadcrumb : SiteM σ _)).1
  | userConsentChanged, b => (External.userConsentChanged b : SiteM σ _)
  | pass milliseconds, b => External.pass milliseconds b

def runAll : List Request → External → MachineM σ External
  | [], b => return b
  | request :: requests, b => do runAll requests (← request.run b)

end Request

end External

namespace Supervision

theorem observe_aside (s : Supervision) : (s.observe : MachineM σ _).Aside := by
  unfold observe
  split
  · exact .pure _
  · exact .bind (.env _) fun _ => .pure _
  · exact .bind (.bind (.get fun _ => .pure _) fun _ => .env _) fun _ => .pure _
  · exact .pure _
  · exact .pure _

theorem advance_aside (s : Supervision) : (s.advance : MachineM σ _).Aside := by
  unfold advance
  refine .bind (observe_aside s) fun event => ?_
  split
  · exact .pure _
  · exact .pure _

theorem turn_aside (s : Supervision) : (s.turn : MachineM σ _).Aside := by
  unfold turn
  refine .bind (advance_aside s) fun s => .bind (advance_aside s) fun s => ?_
  split
  · exact .bind (advance_aside s) advance_aside
  · exact .pure _

theorem turns_aside (n : Nat) (s : Supervision) : (turns n s : MachineM σ _).Aside := by
  induction n generalizing s with
  | zero => exact .pure s
  | succ n ih => exact .bind (turn_aside s) ih

end Supervision

namespace External

open Chain

theorem pass_aside (milliseconds : Nat) (b : External) :
    (b.pass milliseconds : MachineM σ _).Aside := by
  unfold pass
  split
  · exact .pure _
  · exact .bind (Supervision.turns_aside _ _) fun _ => .pure _

theorem attached_pass (milliseconds : Nat) (b : External) (p : Machine σ) :
    ((b.pass milliseconds).run p).1.attached = b.attached := by
  unfold pass
  split <;> rfl

variable [Host σ]

theorem attached_addBreadcrumb (breadcrumb : Json) (b : External) (s : Site σ) :
    ((b.addBreadcrumb breadcrumb).run s).1.1.attached = b.attached := by
  unfold addBreadcrumb
  split
  · next run _ _ =>
    cases hadded : (run.add breadcrumb).run s with
    | mk added s' =>
      obtain ⟨run', outcome⟩ := added
      rw [stateM_run_bind hadded]
      cases outcome with
      | ok u => rfl
      | error breach => cases breach <;> rfl
  · rfl

namespace Request

theorem run_aside (request : Request) (b : External) : (request.run b : MachineM σ _).Aside := by
  cases request with
  | flushScope => exact .bind (.site _) fun _ => .pure _
  | addBreadcrumb breadcrumb => exact .bind (.site _) fun _ => .pure _
  | userConsentChanged => exact .site _
  | pass milliseconds => exact pass_aside milliseconds b

theorem runAll_aside (requests : List Request) (b : External) :
    (runAll requests b : MachineM σ _).Aside := by
  induction requests generalizing b with
  | nil => exact .pure b
  | cons request requests ih => exact .bind (request.run_aside b) ih

theorem attached_run (request : Request) (b : External) (p : Machine σ) :
    ((request.run b).run p).1.attached = b.attached := by
  cases request with
  | flushScope => rfl
  | addBreadcrumb breadcrumb => exact attached_addBreadcrumb breadcrumb b p.site
  | userConsentChanged =>
    obtain ⟨db, hdb⟩ := userConsentChanged_db b p.site
    exact (congrArg (·.attached) hdb : _ = { b with db }.attached)
  | pass milliseconds => exact attached_pass milliseconds b p

theorem attached_runAll (requests : List Request) (b : External) (p : Machine σ) :
    ((runAll requests b).run p).1.attached = b.attached := by
  induction requests generalizing b p with
  | nil => rfl
  | cons request requests ih => exact (ih _ _).trans (request.attached_run b p)

end Request

omit [Host σ] in
theorem shutdown_end (b : External) (p : Machine σ) :
    (b.shutdown.run p).2 = if b.attached then (Chain.detach.run p).2 else p := by
  obtain ⟨hosted, run, db, hooked, process, attached⟩ := b
  cases attached <;> rfl

omit [Host σ] in
/-- A backend that is not attached after its startup has left the process without a chain, so its
shutdown may as well detach one. -/
theorem shutdown_detaches {b b' : External} {p q : Machine σ} (unattached : p.chain = none)
    (started : p.Started q b.attached b'.attached) (r : Machine σ) (still : q.Still r) :
    (b'.shutdown.run r).2 = (Chain.detach.run r).2 := by
  rw [shutdown_end]
  cases hattached : b'.attached with
  | true => rfl
  | false =>
    rw [hattached] at started
    have hchain : q.chain = none := by
      generalize hfalse : false = attached at started
      cases started with
      | refused h => exact h.chain.trans unattached
      | attached takes => cases hfalse
    rw [Chain.detach_of_none (still.chain.trans hchain)]
    rfl

/-- A shutdown on the thread of the startup undoes what that did to the signals. No core dumps are
written afterwards if the startup had turned them off. -/
theorem shutdown_undoes {b b₁ b₂ b₃ : External} {p q r s : Machine σ} {requests : List Request}
    (unattached : p.chain = none) (started : b.startup.run p = (b₁, q))
    (asked : (Request.runAll requests b₁).run q = (b₂, r)) (same : r.running = q.running)
    (ended : b₂.shutdown.run r = (b₃, s)) :
    s.dispositions = p.dispositions ∧ s.altstacks = p.altstacks ∧ s.core.hard = p.core.hard ∧
      s.core.soft =
        if (b.tryStartup.run p).1.2.isOk && !(Host.options p.site.host).systemCrashReporter then 0
        else p.core.soft := by
  have hstarted := startup_started b p
  have hleaves := startup_leaves b unattached
  have haside := Request.runAll_aside (σ := σ) requests b₁
  have hstill := haside.still q
  have hcore := haside.core q
  have hattached := Request.attached_runAll requests b₁ q
  rw [started] at hstarted hleaves
  rw [asked] at hstill hcore hattached
  have hended : (b₂.shutdown.run r).2 = (Chain.detach.run r).2 :=
    shutdown_detaches unattached (hattached ▸ hstarted) r hstill
  rw [ended] at hended
  obtain rfl : s = (Chain.detach.run r).2 := hended
  have htransparent := transparent_of_started hstarted unattached
  have hsignals := (htransparent.congr hstill.dispositions hstill.chain).detach
  have hlimit : (Chain.detach.run r).2.core = q.core := (core_detach r).trans hcore
  rw [hlimit, hleaves.core]
  refine ⟨(Transparent.of_none (chain_detach r)).1 hsignals,
    (hleaves.owed.congr hstill same).detach, ?_, ?_⟩
  · split <;> rfl
  · split <;> rfl

/-- A client whose process writes core dumps, and has a small alternate stack. -/
def dumping : Machine RecordingHost :=
  .initial (.initial rooted) (.fresh consented) (some ⟨0x10000, 8192⟩) ⟨1024, 4096⟩

theorem shutdown_undoes_dumping : ∃ b q b' s, (startup initial).run dumping = (b, q) ∧
    b.shutdown.run q = (b', s) ∧ s.altstacks = dumping.altstacks ∧
    dumping.core.soft = 1024 ∧ s.core.soft = 0 := by
  have hlaunched : ((tryStartup initial).run dumping).1.2.isOk = true := by decide +kernel
  cases hstarted : (startup initial).run dumping with
  | mk b q =>
    cases hended : b.shutdown.run q with
    | mk b' s =>
      obtain ⟨-, hstacks, -, hsoft⟩ := shutdown_undoes rfl hstarted
        (rfl : (Request.runAll [] b).run q = (b, q)) rfl hended
      rw [hlaunched] at hsoft
      exact ⟨b, q, b', s, rfl, hended, hstacks, rfl, hsoft⟩

end External

end CrashCapture
