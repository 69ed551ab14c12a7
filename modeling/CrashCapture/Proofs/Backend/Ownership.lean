import CrashCapture.Host.Recording
import CrashCapture.Proofs.Backend.Startup
import CrashCapture.Proofs.Chain.Kept
import Mathlib.Logic.ExistsUnique
import Mathlib.Logic.Function.Basic

namespace CrashCapture

variable {σ ι : Type}

namespace Chain

theorem takes_kept {p p' : Machine σ} (h : p.Takes p') (hp : Kept p.chain p.view) :
    Kept p'.chain p'.view := by
  obtain ⟨-, hdisp, altstack, handler, hchain⟩ := h
  refine ⟨rfl, fun s => ?_, fun c hc => ?_⟩
  · change ¬(p'.dispositions s).handler.Attaches
    rw [hdisp]
    dsimp only
    by_cases hs : s ∈ Descriptor.codes
    · rw [if_pos hs]
      exact id
    · rw [if_neg hs]
      exact hp.current s
  · obtain rfl := Option.some.inj (hchain.symm.trans hc)
    exact hp.current

theorem detach_kept {p : Machine σ} (h : Kept p.chain p.view) :
    Kept none (detach.run p).2.view := by
  cases hc : p.chain with
  | none =>
    rw [detach_of_none hc]
    exact ⟨hc, h.current, nofun⟩
  | some c =>
    have hrestored := h.restored hc
      (fun s => s ∈ Descriptor.codes ∧ (p.dispositions s).handler = .chain) p.site.host
    rw [detach_of_some hc]
    exact ⟨rfl, hrestored.current, nofun⟩

end Chain

namespace Backend

/-- Captures a fault that did not happen, which only one kind of backend can do. -/
def simulateFault [Host σ] (code : SignalNumber) : Backend → MachineM σ Unit
  | inProcess b => b.simulateFault code
  | _ => pure ()

def handleException [Host σ] (k : Kernel σ) (context : FaultContext) : Backend → Exec σ Unit
  | inProcess b => b.handleException k context
  | external b => (b.handleException : SiteM σ Unit)
  | disabled => pure ()

variable {chain : Option (ChainState σ)}

theorem site_keeps (act : SiteM σ Unit) : Upholds False (Kept chain) (liftM act : Exec σ Unit) :=
  fun _ _ h => .ok ⟨h.same, h.current, h.previous⟩ False.elim

theorem simulateFault_keeps [Host σ] (code : SignalNumber) (b : Backend) :
    Upholds False (Kept chain) (liftM (b.simulateFault code : MachineM σ Unit) : Exec σ Unit) := by
  cases b with
  | inProcess b =>
    intro p _ h
    obtain ⟨started, attached⟩ := b
    cases started <;> exact .ok ⟨h.same, h.current, h.previous⟩ False.elim
  | external b => exact .pure ()
  | disabled => exact .pure ()

theorem handleException_keeps [Host σ] {k : Kernel σ} (hk : k.Keeps chain) (context : FaultContext)
    (b : Backend) : Upholds False (Kept chain) (b.handleException k context) := by
  cases b with
  | inProcess b =>
    change Upholds False (Kept chain) (b.handleException k context)
    unfold InProcess.handleException
    split
    · exact (site_keeps _).bind fun _ => Chain.invokePreviousHandler_keeps hk context
    · exact .pure ()
  | external b => exact site_keeps _
  | disabled => exact .pure ()

/-- What may happen in a process with some backends. Each of them is used with a client of its own.
Others may set what they want to, but no handler that attaches a chain. -/
inductive Act (σ ι : Type)
  | startup (i : ι) (host : Host σ)
  | shutdown (i : ι)
  | simulate (i : ι) (host : Host σ) (code : SignalNumber)
  | exception (i : ι) (host : Host σ) (room : Nat) (context : FaultContext)
  | tend (i : ι) (f : Backend → Backend) (keeps : ∀ b, (f b).attached = b.attached)
  | deliver (delivery : Chain.Delivery) (room : Nat) (signal : SignalNumber)
  | raise (room : Nat) (fault : Fault)
  | release (room : Nat)
  | install (signal : SignalNumber) (d : Disposition) (harmless : ¬d.handler.Attaches)
  | elsewhere (f : Machine σ → Machine σ)
      (keeps : ∀ p, (f p).dispositions = p.dispositions ∧ (f p).chain = p.chain)

variable [DecidableEq ι]

namespace Act

def run : Act σ ι → (ι → Backend) → Exec σ (ι → Backend)
  | .startup i host, bs => do
    let b ← (@Backend.startup σ host (bs i) : MachineM σ Backend)
    return Function.update bs i b
  | .shutdown i, bs => do
    let b ← ((bs i).shutdown : MachineM σ Backend)
    return Function.update bs i b
  | .simulate i host code, bs => do
    (@Backend.simulateFault σ host code (bs i) : MachineM σ Unit)
    return bs
  | .exception i host room context, bs => do
    @Backend.handleException σ host (.withRoom room) context (bs i)
    return bs
  | .tend i f _, bs => return Function.update bs i (f (bs i))
  | .deliver delivery room signal, bs => do
    delivery.run (.withRoom room) signal
    return bs
  | .raise room fault, bs => do
    fault.raise (.withRoom room)
    return bs
  | .release room, bs => do
    (Kernel.withRoom room).settle
    return bs
  | .install signal d _, bs => do
    modify (·.setDisposition signal d)
    return bs
  | .elsewhere f _, bs => do
    modify f
    return bs

end Act

def runActs : List (Act σ ι) → (ι → Backend) → Exec σ (ι → Backend)
  | [], bs => pure bs
  | act :: acts, bs => do runActs acts (← act.run bs)

/-- If there is a chain then it belongs to one backend, and only that one says so. -/
structure Owned (bs : ι → Backend) (p : Machine σ) : Prop where
  owner : p.chain ≠ none → ∃! i, (bs i).attached = true
  idle : p.chain = none → ∀ i, (bs i).attached = false
  kept : Kept p.chain p.view

namespace Owned

variable {bs bs' : ι → Backend} {p p' : Machine σ}

omit [DecidableEq ι] in
theorem chain_of_attached (h : Owned bs p) {i : ι} (hi : (bs i).attached = true) :
    p.chain ≠ none := fun hnone => absurd hi (by simp [h.idle hnone i])

omit [DecidableEq ι] in
/-- The backends say the same as before, and the chain is the same. -/
theorem congr (h : Owned bs p) (hbs : ∀ i, (bs' i).attached = (bs i).attached)
    (hp : Kept p.chain p'.view) : Owned bs' p' := by
  have hchain : p'.chain = p.chain := hp.same
  refine ⟨fun hsome => ?_, fun hnone i => ?_, hchain ▸ hp⟩
  · simpa only [hbs] using h.owner (hchain ▸ hsome)
  · rw [hbs]
    exact h.idle (hchain ▸ hnone) i

theorem attached_update (i : ι) {b : Backend} (h : b.attached = (bs i).attached) (j : ι) :
    (Function.update bs i b j).attached = (bs j).attached := by
  by_cases hj : j = i
  · rw [hj, Function.update_self, h]
  · rw [Function.update_of_ne hj]

theorem startup [Host σ] (h : Owned bs p) (i : ι) :
    Owned (Function.update bs i ((bs i).startup.run p).1) ((bs i).startup.run p).2 := by
  have hstarted := (bs i).startup_started p
  generalize (bs i).startup.run p = r at hstarted
  obtain ⟨b, p'⟩ := r
  dsimp only at hstarted ⊢
  generalize hb : b.attached = after at hstarted
  cases hstarted with
  | refused still =>
    refine h.congr (attached_update i hb) ⟨still.chain, fun s => ?_, h.kept.previous⟩
    change ¬(p'.dispositions s).handler.Attaches
    rw [still.dispositions]
    exact h.kept.current s
  | attached takes =>
    have hidle := h.idle takes.unattached
    obtain ⟨altstack, handler, hchain⟩ := takes.chain
    refine ⟨fun _ => ⟨i, ?_, fun j hj => ?_⟩, fun hnone => ?_, Chain.takes_kept takes h.kept⟩
    · change (Function.update bs i b i).attached = true
      rw [Function.update_self, hb]
    · by_contra hne
      simp [Function.update_of_ne hne, hidle j] at hj
    · exact absurd (hchain.symm.trans hnone) nofun

theorem shutdown (h : Owned bs p) (i : ι) :
    Owned (Function.update bs i ((bs i).shutdown.run p).1) ((bs i).shutdown.run p).2 := by
  obtain ⟨hb, hrun⟩ := (bs i).shutdown_run p
  rw [hrun]
  cases hi : (bs i).attached with
  | false => exact h.congr (attached_update i (hb.trans hi.symm)) h.kept
  | true =>
    obtain ⟨j, -, honly⟩ := h.owner (h.chain_of_attached hi)
    have hnone : (Chain.detach.run p).2.chain = none := (Chain.detach_kept h.kept).same
    refine ⟨fun hsome => absurd hnone hsome, fun _ k => ?_, ?_⟩
    · by_cases hk : k = i
      · rw [hk, Function.update_self, hb]
      · rw [Function.update_of_ne hk]
        by_contra hattached
        exact hk ((honly k (by simpa using hattached)).trans (honly i hi).symm)
    · change Kept (Chain.detach.run p).2.chain (Chain.detach.run p).2.view
      rw [hnone]
      exact Chain.detach_kept h.kept

omit [DecidableEq ι] in
/-- The chain is kept, and the backends are what they were. -/
theorem kept_run {x : Exec σ Unit} (h : Owned bs p) (hx : Upholds False (Kept p.chain) x)
    (hrun : (do x; return bs : Exec σ (ι → Backend)).run p = .ok bs' p') : Owned bs' p' := by
  cases hfirst : x.run p with
  | error e q =>
    rw [run_bind_error hfirst] at hrun
    cases hrun
  | ok _ q =>
    rw [run_bind_ok hfirst] at hrun
    cases hrun
    have hview := (hx p False.elim h.kept).view
    rw [hfirst] at hview
    exact h.congr (fun _ => rfl) hview

theorem run (h : Owned bs p) (act : Act σ ι) (hrun : (act.run bs).run p = .ok bs' p') :
    Owned bs' p' := by
  cases act with
  | startup i host =>
    cases hrun
    exact h.startup i
  | shutdown i =>
    cases hrun
    exact h.shutdown i
  | simulate i host code => exact h.kept_run (simulateFault_keeps code (bs i)) hrun
  | exception i host room context =>
    exact h.kept_run (handleException_keeps (Kernel.withRoom_keeps _ room) context (bs i)) hrun
  | tend i f keeps =>
    cases hrun
    exact h.congr (attached_update i (keeps _)) h.kept
  | deliver delivery room signal =>
    exact h.kept_run (Chain.Delivery.keeps (Kernel.withRoom_keeps _ room) delivery signal) hrun
  | raise room fault =>
    exact h.kept_run (Chain.raise_keeps (Kernel.withRoom_keeps _ room) fault) hrun
  | release room => exact h.kept_run (Kernel.withRoom_keeps _ room).settle hrun
  | install signal d harmless => exact h.kept_run (Kernel.setDisposition_keeps signal harmless) hrun
  | elsewhere f keeps =>
    cases hrun
    obtain ⟨hdisp, hchain⟩ := keeps p
    refine h.congr (fun _ => rfl) ⟨hchain, fun s => ?_, h.kept.previous⟩
    change ¬((f p).dispositions s).handler.Attaches
    rw [hdisp]
    exact h.kept.current s

theorem runActs {acts : List (Act σ ι)} (h : Owned bs p)
    (hrun : (Backend.runActs acts bs).run p = .ok bs' p') : Owned bs' p' := by
  induction acts generalizing bs p with
  | nil =>
    cases hrun
    exact h
  | cons act acts ih =>
    unfold Backend.runActs at hrun
    cases hfirst : (act.run bs).run p with
    | error e q =>
      rw [run_bind_error hfirst] at hrun
      cases hrun
    | ok bs₁ q =>
      rw [run_bind_ok hfirst] at hrun
      exact ih (h.run act hfirst) hrun

end Owned

/-- A chain is attached if and only if exactly one backend says that it is. As long as one does, no
startup changes the signals or a stack, and no shutdown of another one does anything to the
process. -/
theorem one_owner {p₀ : Machine σ} {bs₀ : ι → Backend} (unattached : p₀.chain = none)
    (idle : ∀ i, (bs₀ i).attached = false)
    (harmless : ∀ s, ¬(p₀.dispositions s).handler.Attaches) (acts : List (Act σ ι))
    (bs : ι → Backend) (p : Machine σ) (hrun : (runActs acts bs₀).run p₀ = .ok bs p) :
    (p.chain ≠ none ↔ ∃! i, (bs i).attached = true) ∧
    (p.chain = none → ∀ i, (bs i).attached = false) ∧
    (∀ [Host σ] i j, (bs i).attached = true → p.Still ((bs j).startup.run p).2) ∧
    (∀ i, (bs i).attached = false → ((bs i).shutdown.run p).2 = p) := by
  have hstart : Owned bs₀ p₀ := by
    refine ⟨fun hsome => absurd unattached hsome, fun _ => idle, rfl, harmless, fun c hc => ?_⟩
    exact absurd (unattached.symm.trans hc) nofun
  have howned := hstart.runActs hrun
  refine ⟨⟨howned.owner, fun ⟨i, hi, _⟩ => howned.chain_of_attached hi⟩, howned.idle,
    fun i j hi => startup_still (howned.chain_of_attached hi) (bs j), fun i hi => ?_⟩
  rw [((bs i).shutdown_run p).2, hi]
  rfl

/-- The second backend has no handler to launch, and is shut down while the first one is attached. A
trap in between has restored the dispositions. -/
def contested : List (Act RecordingHost Bool) :=
  [.install .trap ⟨.other ⟨"older", true, .returns⟩, .none, []⟩ nofun, .startup false inferInstance,
    .startup true inferInstance, .raise 5 .trap, .shutdown true, .startup true inferInstance]

def oneOfEach (i : Bool) : Backend := .new (if i then .external else .inProcess)

def untouched : Machine RecordingHost :=
  .initial (.initial (.withRoot "/root")) (.fresh ⟨[], []⟩) none ⟨0, 0⟩

def contestedRun : EStateM.Result Ending (Machine RecordingHost) (Bool → Backend) :=
  (runActs contested oneOfEach).run untouched

/-- Whether there is a chain in the end, and which backends are attached. -/
def standing : EStateM.Result Ending (Machine RecordingHost) (Bool → Backend) →
    Option (Bool × Bool × Bool)
  | .ok bs p => some (p.chain.isSome, (bs false).attached, (bs true).attached)
  | .error _ _ => none

theorem one_owner_contested : ∃ bs p, contestedRun = .ok bs p ∧
    (bs false).attached = true ∧ p.chain ≠ none ∧ (∃! i, (bs i).attached = true) ∧
    p.Still ((bs true).startup.run p).2 ∧ ((bs true).shutdown.run p).2 = p := by
  have hstanding : standing contestedRun = some (true, true, false) := by decide +kernel
  have hnone : untouched.chain = none := rfl
  have hidle : ∀ i, (oneOfEach i).attached = false := by decide
  have harmless : ∀ s, ¬(untouched.dispositions s).handler.Attaches := by
    intro s hs
    change (Machine.startingDispositions s).handler.Attaches at hs
    unfold Machine.startingDispositions Dispositions.set at hs
    split at hs <;> exact hs
  cases hrun : contestedRun with
  | error e p =>
    rw [hrun] at hstanding
    cases hstanding
  | ok bs p =>
    rw [hrun] at hstanding
    obtain ⟨hchain, hfirst, hsecond⟩ :
        p.chain.isSome = true ∧ (bs false).attached = true ∧ (bs true).attached = false := by
      simpa [standing] using hstanding
    unfold contestedRun at hrun
    obtain ⟨howner, -, hstartup, hshutdown⟩ := one_owner hnone hidle harmless contested bs p hrun
    have hsome : p.chain ≠ none := Option.isSome_iff_ne_none.1 hchain
    exact ⟨bs, p, rfl, hfirst, hsome, howner.1 hsome, hstartup false true hfirst,
      hshutdown true hsecond⟩

end Backend

end CrashCapture
