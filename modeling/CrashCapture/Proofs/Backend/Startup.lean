import CrashCapture.Backend
import CrashCapture.Proofs.Chain.Dispositions
import CrashCapture.Proofs.Running

namespace CrashCapture

variable {σ α β : Type}

namespace Machine

/-- Nothing has happened to the chain, to the dispositions and to the threads with their alternate
stacks. -/
structure Still (p p' : Machine σ) : Prop where
  chain : p'.chain = p.chain
  dispositions : p'.dispositions = p.dispositions
  threads : p'.threads = p.threads

/-- A chain was attached where there was none. -/
structure Takes (p p' : Machine σ) : Prop where
  unattached : p.chain = none
  dispositions : p'.dispositions =
    fun s => if s ∈ Descriptor.codes then .chain else p.dispositions s
  chain : ∃ altstack handler, p'.chain = some ⟨p.dispositions, altstack, handler⟩

/-- What a startup comes to, for a backend that was attached or not before, and after it. -/
inductive Started (p p' : Machine σ) (before : Bool) : Bool → Prop
  | refused (still : p.Still p') : Started p p' before before
  | attached (takes : p.Takes p') : Started p p' before true

variable {p q r : Machine σ} {before after : Bool}

theorem Still.refl (p : Machine σ) : p.Still p := ⟨rfl, rfl, rfl⟩

theorem Still.trans (h : p.Still q) (h' : q.Still r) : p.Still r :=
  ⟨h'.chain.trans h.chain, h'.dispositions.trans h.dispositions, h'.threads.trans h.threads⟩

theorem Takes.from (h : q.Takes r) (hq : p.Still q) : p.Takes r := by
  obtain ⟨hnone, hdisp, altstack, handler, hchain⟩ := h
  rw [hq.chain] at hnone
  rw [hq.dispositions] at hdisp hchain
  exact ⟨hnone, hdisp, altstack, handler, hchain⟩

theorem Takes.to (h : p.Takes q) (hr : q.Still r) : p.Takes r := by
  obtain ⟨hnone, hdisp, altstack, handler, hchain⟩ := h
  exact ⟨hnone, hr.dispositions.trans hdisp, altstack, handler, hr.chain.trans hchain⟩

theorem Started.from (h : Started q r before after) (hq : p.Still q) :
    Started p r before after := by
  cases h with
  | refused still => exact .refused (hq.trans still)
  | attached takes => exact .attached (takes.from hq)

theorem Started.to (h : Started p q before after) (hr : q.Still r) : Started p r before after := by
  cases h with
  | refused still => exact .refused (still.trans hr)
  | attached takes => exact .attached (takes.to hr)

/-- While some chain is attached, a startup leaves all as it is. -/
theorem Started.still (h : Started p q before after) (hchain : p.chain ≠ none) : p.Still q := by
  cases h with
  | refused still => exact still
  | attached takes => exact absurd takes.unattached hchain

end Machine

namespace MachineM

/-- Code that has to do with the client and its environment only. -/
def Aside (x : MachineM σ α) : Prop := ∀ p : Machine σ, ∃ site, (x.run p).2 = { p with site }

namespace Aside

theorem still {x : MachineM σ α} (h : x.Aside) (p : Machine σ) : p.Still (x.run p).2 := by
  obtain ⟨site, hsite⟩ := h p
  rw [hsite]
  exact ⟨rfl, rfl, rfl⟩

theorem core {x : MachineM σ α} (h : x.Aside) (p : Machine σ) : (x.run p).2.core = p.core := by
  obtain ⟨site, hsite⟩ := h p
  rw [hsite]

theorem pure (a : α) : Aside (Pure.pure a : MachineM σ α) := fun p => ⟨p.site, rfl⟩

theorem bind {x : MachineM σ α} {f : α → MachineM σ β} (hx : x.Aside) (hf : ∀ a, (f a).Aside) :
    (x >>= f).Aside := by
  intro p
  cases hrun : x.run p with
  | mk a q =>
    obtain ⟨site, hq⟩ := hx p
    obtain ⟨site', hr⟩ := hf a q
    rw [hrun] at hq
    rw [stateM_run_bind hrun, hr]
    exact ⟨site', congrArg (fun m : Machine σ => { m with site := site' }) hq⟩

theorem get {f : Machine σ → MachineM σ α} (hf : ∀ p, (f p).Aside) : (get >>= f).Aside :=
  fun p => hf p p

theorem site (act : SiteM σ α) : (liftM act : MachineM σ α).Aside := fun _ => ⟨_, rfl⟩

theorem env (act : Run α) : (liftM act : MachineM σ α).Aside := fun _ => ⟨_, rfl⟩

end Aside

end MachineM

theorem HandlerCommand.launch_aside (c : HandlerCommand) :
    (c.launch : MachineM σ (Except Error Supervision)).Aside := by
  unfold launch
  refine .bind (.bind (.get fun _ => .pure _) fun _ => .env _) fun spawned => ?_
  cases spawned with
  | error e => exact .pure _
  | ok pid =>
    refine .bind (.env _) fun _ => .bind (.env _) fun starts => ?_
    split
    · exact .pure _
    · exact .pure _

/-- Both backends reserve the pool first, whether a chain can be attached or not. -/
theorem Chain.reserve_attach (handler : FaultHandler σ) (p : Machine σ) :
    ∃ q, (liftM Run.reservePool : MachineM σ Unit).run p = ((), q) ∧
      ((∃ e r, (attach handler).run q = (.error e, r) ∧ p.Still r) ∨
        ∃ r, (attach handler).run q = (.ok (), r) ∧ p.Takes r) := by
  obtain ⟨q, hrun, hq⟩ : ∃ q, (liftM Run.reservePool : MachineM σ Unit).run p = ((), q) ∧
      p.Still q := ⟨_, rfl, rfl, rfl, rfl⟩
  refine ⟨q, hrun, ?_⟩
  rcases attach_cases handler q with ⟨e, hattach⟩ | ⟨hnone, altstack, r, hattach, hview⟩
  · exact .inl ⟨e, q, hattach, hq⟩
  · obtain ⟨hdisp, hchain, -⟩ := View.mk.inj hview
    have htakes : q.Takes r := ⟨hnone, hdisp, altstack, handler, hchain⟩
    exact .inr ⟨r, hattach, htakes.from hq⟩

section

variable [Host σ]

theorem InProcess.startup_started (b : InProcess) (p : Machine σ) :
    p.Started (b.startup.run p).2 b.attached (b.startup.run p).1.attached := by
  unfold startup
  obtain ⟨q, hreserved, hattach⟩ := Chain.reserve_attach (faultHandler (σ := σ)) p
  rw [stateM_run_bind hreserved]
  rcases hattach with ⟨e, r, hrun, hr⟩ | ⟨r, hrun, hr⟩
  · rw [stateM_run_bind hrun]
    exact .to (.refused hr) ⟨rfl, rfl, rfl⟩
  · rw [stateM_run_bind hrun]
    exact .attached hr

namespace External

theorem hook_started (b : External) (p : Machine σ) :
    p.Started ((hook b).run p).2 b.attached ((hook b).run p).1.attached := by
  unfold hook
  obtain ⟨q, hreserved, hattach⟩ := Chain.reserve_attach (faultHandler (σ := σ)) p
  rw [stateM_run_bind hreserved]
  rcases hattach with ⟨e, r, hrun, hr⟩ | ⟨r, hrun, hr⟩
  · rw [stateM_run_bind hrun]
    exact .to (.refused hr) ⟨rfl, rfl, rfl⟩
  · rw [stateM_run_bind hrun]
    exact .attached hr

/-- A handler that was launched makes the backend take the faults, and may keep core dumps from being
written. -/
theorem launch_cases (options : Options) (handler : Path) (run : RunFiles) (b : External)
    (p : Machine σ) :
    (∃ e q, (commandFor options handler run p.site.env.pid).launch.run p = (.error e, q) ∧
      (launch options handler run b).run p = ((b, .error e), q)) ∨
    ∃ supervision q,
      (commandFor options handler run p.site.env.pid).launch.run p = (.ok supervision, q) ∧
      (launch options handler run b).run p =
        let hooked := (hook { b with process := some supervision }).run q
        ((hooked.1, .ok ()), if options.systemCrashReporter then hooked.2
          else { hooked.2 with core := { hooked.2.core with soft := 0 } }) := by
  unfold launch
  rw [stateM_run_get]
  cases hlaunched : (commandFor options handler run p.site.env.pid).launch.run p with
  | mk launched q =>
    rw [stateM_run_bind hlaunched]
    cases launched with
    | error e => exact .inl ⟨e, q, rfl, rfl⟩
    | ok supervision =>
      refine .inr ⟨supervision, q, rfl, ?_⟩
      cases hhooked : (hook { b with process := some supervision }).run q with
      | mk b' r =>
        dsimp only
        rw [stateM_run_bind hhooked]
        cases options.systemCrashReporter <;> rfl

theorem launch_started (options : Options) (handler : Path) (run : RunFiles) (b : External)
    (p : Machine σ) : p.Started ((launch options handler run b).run p).2 b.attached
      ((launch options handler run b).run p).1.1.attached := by
  have haside := (HandlerCommand.launch_aside
    (commandFor options handler run p.site.env.pid)).still p
  rcases launch_cases options handler run b p with
    ⟨e, q, hrun, hlaunch⟩ | ⟨supervision, q, hrun, hlaunch⟩
  · rw [hrun] at haside
    rw [hlaunch]
    exact .refused haside
  · have hhook := hook_started { b with process := some supervision } q
    rw [hrun] at haside
    rw [hlaunch]
    dsimp only
    split
    · exact hhook.from haside
    · exact (hhook.from haside).to ⟨rfl, rfl, rfl⟩

theorem prepare_aside (options : Options) :
    (prepare options : MachineM σ (Except Error (Path × RunFiles))).Aside := by
  unfold prepare
  refine .get fun p => ?_
  dsimp only
  split
  · exact .pure _
  · refine .bind (.env _) fun created => ?_
    cases created with
    | error e => exact .pure _
    | ok run => exact .bind (.site _) fun flushed => .bind (.env _) fun _ => .pure _

theorem userConsentChanged_db (b : External) (s : Site σ) :
    ∃ db, ((userConsentChanged b).run s).1 = { b with db } := by
  unfold userConsentChanged
  split
  · exact ⟨_, rfl⟩
  · exact ⟨b.db, rfl⟩

omit [Host σ] in
theorem openDatabase_db (path : Path) (b : External) (s : Site σ) :
    ∃ db, ((openDatabase path b).run s).1 = { b with db } := by
  unfold openDatabase
  cases hopened : (liftM (Database.openAt path) : SiteM σ (Except Error Database)).run s with
  | mk opened t =>
    rw [stateM_run_bind hopened]
    cases opened with
    | ok db => exact ⟨some db, rfl⟩
    | error e => exact ⟨b.db, rfl⟩

theorem readyDatabase_db (path : Path) (b : External) (s : Site σ) :
    ∃ db, ((readyDatabase path b).run s).1 = { b with db } := by
  unfold readyDatabase
  cases hopened : (openDatabase path b).run s with
  | mk b' s' =>
    obtain ⟨db, hdb⟩ := openDatabase_db path b s
    rw [hopened] at hdb
    obtain rfl : b' = { b with db } := hdb
    rw [stateM_run_bind hopened]
    exact userConsentChanged_db _ s'

theorem attached_readyDatabase (path : Path) (b : External) (s : Site σ) :
    ((readyDatabase path b).run s).1.attached = b.attached := by
  obtain ⟨db, hdb⟩ := readyDatabase_db path b s
  rw [hdb]

theorem tryStartup_refused {b : External} {p q : Machine σ} {e : Error}
    (refused : (prepare (Host.options p.site.host)).run p = (.error e, q)) :
    (tryStartup b).run p = ((b, .error e), q) := by
  have hoptions : (MachineM.hostOptions : MachineM σ Options).run p =
      (Host.options p.site.host, p) := rfl
  rw [tryStartup, stateM_run_bind hoptions, stateM_run_bind refused]
  rfl

theorem tryStartup_run {p q : Machine σ} {handler : Path} {run : RunFiles} {b b' : External}
    {site : Site σ}
    (prepared : (prepare (Host.options p.site.host)).run p = (.ok (handler, run), q))
    (ready : (readyDatabase (Host.options p.site.host).databasePath
      { b with run := some run, hosted := true }).run q.site = (b', site)) :
    (tryStartup b).run p =
      (launch (Host.options p.site.host) handler run b').run { q with site } := by
  have hoptions : (MachineM.hostOptions : MachineM σ Options).run p =
      (Host.options p.site.host, p) := rfl
  rw [tryStartup, stateM_run_bind hoptions, stateM_run_bind prepared]
  exact stateM_run_bind (run_liftM_site ready) _

theorem tryStartup_started (b : External) (p : Machine σ) :
    p.Started (b.tryStartup.run p).2 b.attached (b.tryStartup.run p).1.1.attached := by
  have haside := (prepare_aside (Host.options p.site.host)).still p
  cases hprepared : (prepare (Host.options p.site.host)).run p with
  | mk prepared q =>
    rw [hprepared] at haside
    cases prepared with
    | error e =>
      rw [tryStartup_refused hprepared]
      exact .refused haside
    | ok made =>
      obtain ⟨handler, run⟩ := made
      have hattached := attached_readyDatabase (Host.options p.site.host).databasePath
        { b with run := some run, hosted := true } q.site
      cases hready : (readyDatabase (Host.options p.site.host).databasePath
          { b with run := some run, hosted := true }).run q.site with
      | mk b' site =>
        rw [hready] at hattached
        rw [tryStartup_run hprepared hready, ← hattached]
        exact (launch_started _ handler run b' _).from (haside.trans ⟨rfl, rfl, rfl⟩)

theorem startup_started (b : External) (p : Machine σ) :
    p.Started (b.startup.run p).2 b.attached (b.startup.run p).1.attached := by
  have htried := tryStartup_started b p
  unfold startup
  cases hrun : b.tryStartup.run p with
  | mk r q =>
    rw [hrun] at htried
    rw [stateM_run_bind hrun]
    exact htried.to ⟨rfl, rfl, rfl⟩

end External

namespace Backend

/-- Whether a backend says that it is attached. -/
def attached : Backend → Bool
  | inProcess b => b.attached
  | external b => b.attached
  | disabled => false

/-- A startup attaches a chain where there is none, or it changes only files and processes. -/
theorem startup_started (b : Backend) (p : Machine σ) :
    p.Started (b.startup.run p).2 b.attached (b.startup.run p).1.attached := by
  cases b with
  | inProcess b => exact b.startup_started p
  | external b => exact b.startup_started p
  | disabled => exact .refused (.refl p)

theorem startup_still {p : Machine σ} (h : p.chain ≠ none) (b : Backend) :
    p.Still (b.startup.run p).2 := (b.startup_started p).still h

omit [Host σ] in
/-- A backend that is not attached leaves the chain to the one that is. -/
theorem shutdown_run (b : Backend) (p : Machine σ) :
    (b.shutdown.run p).1.attached = false ∧
      (b.shutdown.run p).2 = if b.attached then (Chain.detach.run p).2 else p := by
  cases b with
  | inProcess b =>
    obtain ⟨started, attached⟩ := b
    cases attached <;> exact ⟨rfl, rfl⟩
  | external b =>
    obtain ⟨hosted, run, db, hooked, process, attached⟩ := b
    cases attached <;> exact ⟨rfl, rfl⟩
  | disabled => exact ⟨rfl, rfl⟩

end Backend

end

end CrashCapture
