import CrashCapture.Proofs.Chain.Dispositions
import CrashCapture.Proofs.Start

namespace CrashCapture

variable {σ : Type}

namespace Memory

/-- Nothing is mapped where the next mapping will be. -/
def Fresh (m : Memory) : Prop := ∀ mapping ∈ m.mappings, mapping.base < m.next

/-- The memory once a mapping was granted, which is at `next`. -/
def granted (size : Nat) (m : Memory) : Memory :=
  { m with
    mappings := ⟨m.next, size⟩ :: m.mappings
    next := m.next + (size + pageSize - 1) / pageSize * pageSize + pageSize }

theorem reserve_eq (size : Nat) (m : Memory) : m.reserve size =
    if m.quota.reserves size then some (⟨m.next, size⟩, m.granted size) else none := rfl

theorem Fresh.granted {m : Memory} (h : m.Fresh) (size : Nat) : (m.granted size).Fresh := by
  have hnext : m.next < (m.granted size).next := by
    unfold Memory.granted pageSize
    dsimp only
    omega
  intro mapping hmapping
  rcases List.mem_cons.1 hmapping with rfl | hmapping
  · exact hnext
  · exact Nat.lt_trans (h mapping hmapping) hnext

/-- A mapping that was granted and is unmapped again leaves nothing, but its place is used up. -/
theorem Fresh.unmap_granted {m : Memory} (h : m.Fresh) (size : Nat) :
    (m.granted size).unmap ⟨m.next, size⟩ = { m with next := (m.granted size).next } := by
  have hrest : m.mappings.filter (fun mapping => decide (mapping ≠ ⟨m.next, size⟩)) = m.mappings := by
    rw [List.filter_eq_self]
    intro mapping hmapping
    have hne : mapping ≠ ⟨m.next, size⟩ := fun heq => by
      have hlt := h mapping hmapping
      rw [heq] at hlt
      exact Nat.lt_irrefl m.next hlt
    exact decide_eq_true hne
  unfold unmap Memory.granted
  dsimp only
  rw [List.filter_cons_of_neg (by simp), hrest]

end Memory

namespace Machine

abbrev memory (p : Machine σ) : Memory := p.site.env.memory

end Machine

namespace Chain

inductive Syscall
  | readStack
  | map (size : Nat)
  | makeAccessible (area : Mapping)
  | register (stack : Option Mapping)
  | unmap (mapping : Mapping)
  | readDisposition (signal : SignalNumber)
deriving DecidableEq, Repr

/-- Which calls the system refuses, and why. -/
abbrev Refusals := Syscall → Option IoError

/-- A process and the calls that it has made. -/
structure Trail (σ : Type) where
  machine : Machine σ
  calls : List Syscall

abbrev Calls (σ : Type) := EStateM Error (Trail σ)

/-- A thread that runs on its alternate stack is never given another one. -/
def refusal (refuses : Refusals) (p : Machine σ) : Syscall → Option IoError
  | .register stack => if p.thread.onAltstack then some .notPermitted else refuses (.register stack)
  | call => refuses call

def perform (refuses : Refusals) (call : Syscall) (error : IoError → Error)
    (effect : Machine σ → Machine σ) : Calls σ Unit := do
  let t ← get
  match refusal refuses t.machine call with
  | some e =>
    set { t with calls := t.calls ++ [call] }
    throw (error e)
  | none => set { machine := effect t.machine, calls := t.calls ++ [call] : Trail σ }

/-- Undoes what was done before, if something fails. -/
def undoing (undo act : Calls σ Unit) : Calls σ Unit :=
  tryCatch act fun e => do
    undo
    throw e

/-- The machine once a mapping was unmapped. -/
def without (mapping : Mapping) (p : Machine σ) : Machine σ := p.modifyEnv fun env =>
  { env with memory := env.memory.unmap mapping }

def unmapping (mapping : Mapping) : Calls σ Unit := modify fun t =>
  { machine := without mapping t.machine, calls := t.calls ++ [.unmap mapping] }

def restoring (s : SignalStack) : Calls σ Unit := modify fun t =>
  { machine := restoreStack s t.machine
    calls := t.calls ++ .readStack ::
      if t.machine.thread.altstack.map (·.base) = some s.area.base then
        [.register s.old, .unmap s.mapping]
      else [] }

/-- The stack that is mapped for the running thread. -/
def offered (p : Machine σ) : SignalStack where
  area := ⟨p.memory.next + Memory.pageSize, signalStackSize⟩
  old := p.thread.altstack
  mapping := ⟨p.memory.next, Memory.pageSize + signalStackSize⟩

def granting (p : Machine σ) : Machine σ := p.modifyEnv fun env =>
  { env with memory := env.memory.granted (Memory.pageSize + signalStackSize) }

/-- Makes the memory of a stack accessible and registers it. -/
def lend (refuses : Refusals) (area : Mapping) : Calls σ Unit := do
  perform refuses (.makeAccessible area) .io id
  perform refuses (.register (some area)) .io (·.onThread (·.register (some area)))

def installStackBy (refuses : Refusals) : Calls σ (Option SignalStack) := do
  perform refuses .readStack .io id
  let p := (← get).machine
  if hasRoom p.thread then return none
  let s := offered p
  perform refuses (.map s.mapping.size) (fun _ => .outOfMemory) granting
  undoing (unmapping s.mapping) (lend refuses s.area)
  return some s

def readDispositions (refuses : Refusals) : List SignalNumber → Calls σ Unit
  | [] => return
  | code :: codes => do
    perform refuses (.readDisposition code) .io id
    readDispositions refuses codes

def installed (handler : FaultHandler σ) (altstack : Option SignalStack) (p : Machine σ) : Machine σ :=
  { installHandlers p with chain := some ⟨p.dispositions, altstack, handler⟩ }.modifyEnv
    fun env => (Run.debug "attached signal handlers" env).2

def attachBy (refuses : Refusals) (handler : FaultHandler σ) : Calls σ Unit := do
  if isAttached (← get).machine then throw .handlerAlreadyInstalled
  let altstack ← installStackBy refuses
  undoing (altstack.forM restoring) (readDispositions refuses Descriptor.codes)
  modify fun t => { t with machine := installed handler altstack t.machine }

section

variable {refuses : Refusals} {call : Syscall} {t : Trail σ}

theorem perform_granted (h : refusal refuses t.machine call = none) (error : IoError → Error)
    (effect : Machine σ → Machine σ) : (perform refuses call error effect).run t =
      .ok () ⟨effect t.machine, t.calls ++ [call]⟩ := by
  unfold perform
  rw [run_get, h]
  rfl

theorem perform_refused {e : IoError} (h : refusal refuses t.machine call = some e)
    (error : IoError → Error) (effect : Machine σ → Machine σ) :
    (perform refuses call error effect).run t =
      .error (error e) ⟨t.machine, t.calls ++ [call]⟩ := by
  unfold perform
  rw [run_get, h]
  rfl

end

theorem perform_cases (refuses : Refusals) (call : Syscall) (error : IoError → Error)
    (effect : Machine σ → Machine σ) (t : Trail σ) :
    (∃ e calls, (perform refuses call error effect).run t = .error (error e) ⟨t.machine, calls⟩) ∨
    refusal refuses t.machine call = none ∧
      ∃ calls, (perform refuses call error effect).run t = .ok () ⟨effect t.machine, calls⟩ := by
  cases h : refusal refuses t.machine call with
  | some e => exact .inl ⟨e, _, perform_refused h error effect⟩
  | none => exact .inr ⟨rfl, _, perform_granted h error effect⟩

theorem undoing_ok {undo act : Calls σ Unit} {t t' : Trail σ} (h : act.run t = .ok () t') :
    (undoing undo act).run t = .ok () t' := by
  rw [undoing, run_tryCatch, h]

theorem undoing_error {undo act : Calls σ Unit} {t t' t'' : Trail σ} {e : Error}
    (h : act.run t = .error e t') (undone : undo.run t' = .ok () t'') :
    (undoing undo act).run t = .error e t'' := by
  rw [undoing, run_tryCatch, h]
  exact run_bind_ok undone _

theorem unmapping_run (mapping : Mapping) (t : Trail σ) : (unmapping mapping).run t =
    .ok () ⟨without mapping t.machine, t.calls ++ [.unmap mapping]⟩ := rfl

theorem lend_cases (refuses : Refusals) (area : Mapping) (p : Machine σ) (calls : List Syscall) :
    (∃ e calls', (lend refuses area).run ⟨p, calls⟩ = .error (.io e) ⟨p, calls'⟩) ∨
    p.thread.onAltstack = false ∧ ∃ calls', (lend refuses area).run ⟨p, calls⟩ =
      .ok () ⟨p.onThread (·.register (some area)), calls'⟩ := by
  unfold lend
  rcases perform_cases refuses (.makeAccessible area) .io id ⟨p, calls⟩ with
    ⟨e, calls₁, hrun⟩ | ⟨-, calls₁, hrun⟩
  · exact .inl ⟨e, calls₁, run_bind_error hrun _⟩
  rw [run_bind_ok hrun]
  rcases perform_cases refuses (.register (some area)) .io (·.onThread (·.register (some area)))
      ⟨p, calls₁⟩ with ⟨e, calls₂, hrun⟩ | ⟨hgranted, calls₂, hrun⟩
  · exact .inl ⟨e, calls₂, hrun⟩
  · refine .inr ⟨Bool.eq_false_iff.2 fun honstack => ?_, calls₂, hrun⟩
    rw [refusal, if_pos honstack] at hgranted
    cases hgranted

theorem readDispositions_cases (refuses : Refusals) (codes : List SignalNumber) (t : Trail σ) :
    (∃ e calls, (readDispositions refuses codes).run t = .error (.io e) ⟨t.machine, calls⟩) ∨
    ∃ calls, (readDispositions refuses codes).run t = .ok () ⟨t.machine, calls⟩ := by
  induction codes generalizing t with
  | nil => exact .inr ⟨t.calls, rfl⟩
  | cons code codes ih =>
    rw [readDispositions]
    rcases perform_cases refuses (.readDisposition code) .io id t with
      ⟨e, calls, hrun⟩ | ⟨-, calls, hrun⟩
    · exact .inl ⟨e, calls, run_bind_error hrun _⟩
    · rw [run_bind_ok hrun]
      exact ih ⟨t.machine, calls⟩

/-- An error that says what the system has refused. -/
inductive BySystem : Error → Prop
  | outOfMemory : BySystem .outOfMemory
  | io (source : IoError) : BySystem (.io source)

/-- Everything is as it was, but that a place for mappings may be used up. -/
def Undone (p q : Machine σ) : Prop :=
  ∃ next, q = p.modifyEnv fun env => { env with memory := { env.memory with next } }

theorem Undone.refl (p : Machine σ) : Undone p p := ⟨p.memory.next, rfl⟩

/-- The machine with the offered stack. -/
def lent (p : Machine σ) : Machine σ :=
  (granting p).onThread (·.register (some (offered p).area))

theorem undone_unmap {p : Machine σ} (fresh : p.memory.Fresh) :
    Undone p (without (offered p).mapping (granting p)) := by
  have hmemory := fresh.unmap_granted (Memory.pageSize + signalStackSize)
  refine ⟨(p.memory.granted (Memory.pageSize + signalStackSize)).next, ?_⟩
  exact congrArg (fun memory => p.modifyEnv fun env => { env with memory }) hmemory

theorem lent_eq {p : Machine σ} (off : p.thread.onAltstack = false) : lent p =
    (granting p).setThread { p.thread with altstack := some (offered p).area } :=
  congrArg ((granting p).setThread ·) (Thread.register_of_off off _)

/-- Putting the old stack back undoes that the thread was lent one. -/
theorem undone_restore {p : Machine σ} (fresh : p.memory.Fresh)
    (off : p.thread.onAltstack = false) : Undone p (restoreStack (offered p) (lent p)) := by
  let lending : Thread := { p.thread with altstack := some (offered p).area }
  have hthread : (lent p).thread = lending := by rw [lent_eq off, Machine.thread_setThread]
  have hold : lending.register (offered p).old = p.thread :=
    Thread.register_of_off (t := lending) off _
  have hback : (lent p).onThread (·.register (offered p).old) = granting p := by
    rw [Machine.onThread, hthread, hold, lent_eq off, Machine.setThread_setThread]
    exact (granting p).setThread_thread
  unfold restoreStack
  rw [hthread, if_neg (by simp [lending]), hback]
  exact undone_unmap fresh

/-- What is done with a stack if something fails later. -/
def givenBack (altstack : Option SignalStack) (p : Machine σ) : Machine σ :=
  altstack.elim p (restoreStack · p)

theorem restoring_run (altstack : Option SignalStack) (t : Trail σ) : ∃ calls,
    (altstack.forM restoring : Calls σ Unit).run t = .ok () ⟨givenBack altstack t.machine, calls⟩ := by
  cases altstack with
  | none => exact ⟨t.calls, rfl⟩
  | some s => exact ⟨_, rfl⟩

/-- What there is of a stack once the thread has one that will do. -/
inductive Took (p : Machine σ) : Option SignalStack → Machine σ → Prop
  | nothing (room : hasRoom p.thread = true) : Took p none p
  | stack (noRoom : ¬hasRoom p.thread = true) (off : p.thread.onAltstack = false) :
    Took p (some (offered p)) (lent p)

theorem Took.undone {p q : Machine σ} {altstack : Option SignalStack} (h : Took p altstack q)
    (fresh : p.memory.Fresh) : Undone p (givenBack altstack q) := by
  cases h with
  | nothing => exact .refl p
  | stack _ off => exact undone_restore fresh off

theorem installStackBy_cases (refuses : Refusals) {p : Machine σ} (fresh : p.memory.Fresh)
    (calls : List Syscall) :
    (∃ e t, (installStackBy refuses).run ⟨p, calls⟩ = .error e t ∧ BySystem e ∧
      Undone p t.machine) ∨
    ∃ altstack t, (installStackBy refuses).run ⟨p, calls⟩ = .ok altstack t ∧
      Took p altstack t.machine := by
  unfold installStackBy
  rcases perform_cases refuses .readStack .io id ⟨p, calls⟩ with
    ⟨e, calls₁, hrun⟩ | ⟨-, calls₁, hrun⟩
  · exact .inl ⟨_, _, run_bind_error hrun _, .io e, .refl p⟩
  rw [run_bind_ok hrun, run_get]
  dsimp only [id]
  by_cases hroom : hasRoom p.thread
  · rw [if_pos hroom]
    exact .inr ⟨none, _, rfl, .nothing hroom⟩
  rw [if_neg hroom]
  rcases perform_cases refuses (.map (offered p).mapping.size) (fun _ => .outOfMemory) granting
      ⟨p, calls₁⟩ with ⟨e, calls₂, hrun⟩ | ⟨-, calls₂, hrun⟩
  · exact .inl ⟨_, _, run_bind_error hrun _, .outOfMemory, .refl p⟩
  rw [run_bind_ok hrun]
  dsimp only
  rcases lend_cases refuses (offered p).area (granting p) calls₂ with
    ⟨e, calls₃, hrun⟩ | ⟨off, calls₃, hrun⟩
  · have hundone := undoing_error hrun (unmapping_run (offered p).mapping _)
    exact .inl ⟨_, _, run_bind_error hundone _, .io e, undone_unmap fresh⟩
  · rw [run_bind_ok (undoing_ok hrun)]
    exact .inr ⟨_, _, rfl, .stack hroom off⟩

/-- Whatever the system refuses, attaching either fails and has undone what it did, or it has taken
what it needs. -/
theorem attachBy_cases (refuses : Refusals) (handler : FaultHandler σ) {p : Machine σ}
    (fresh : p.memory.Fresh) (unattached : ¬isAttached p) (calls : List Syscall) :
    (∃ e t, (attachBy refuses handler).run ⟨p, calls⟩ = .error e t ∧ BySystem e ∧
      Undone p t.machine) ∨
    ∃ t, (attachBy refuses handler).run ⟨p, calls⟩ = .ok () t := by
  unfold attachBy
  rw [run_get, if_neg unattached]
  dsimp only
  rcases installStackBy_cases refuses fresh calls with
    ⟨e, t, hrun, hrefused, hundone⟩ | ⟨altstack, t, hrun, htook⟩
  · exact .inl ⟨e, t, run_bind_error hrun _, hrefused, hundone⟩
  · rw [run_bind_ok hrun]
    rcases readDispositions_cases refuses Descriptor.codes t with
      ⟨e, calls', hread⟩ | ⟨calls', hread⟩
    · obtain ⟨calls'', hrestore⟩ := restoring_run altstack ⟨t.machine, calls'⟩
      exact .inl ⟨_, _, run_bind_error (undoing_error hread hrestore) _, .io e, htook.undone fresh⟩
    · rw [run_bind_ok (undoing_ok hread)]
      exact .inr ⟨_, rfl⟩

theorem attachBy_attached (refuses : Refusals) (handler : FaultHandler σ) (t : Trail σ)
    (attached : isAttached t.machine) :
    (attachBy refuses handler).run t = .error .handlerAlreadyInstalled t := by
  unfold attachBy
  rw [run_get, if_pos attached]
  rfl

/-- Under a limit for memory the system refuses mappings, or makes none of them accessible. -/
def ownRefusals (p : Machine σ) : Refusals
  | .map size => if p.memory.quota.reserves size then none else some .outOfMemory
  | .makeAccessible _ => if p.memory.quota.commits then none else some .outOfMemory
  | _ => none

/-- Calls have come to the same as one step has. -/
def Agrees {α : Type} : EStateM.Result Error (Trail σ) α → Except Error α × Machine σ → Prop
  | .ok a t, (outcome, q) => outcome = .ok a ∧ t.machine = q
  | .error e _, (outcome, _) => outcome = .error e

theorem lend_own {p : Machine σ} (hcommits : p.memory.quota.commits) {q : Machine σ}
    (area : Mapping) (calls : List Syscall) : ∃ calls', (lend (ownRefusals p) area).run ⟨q, calls⟩ =
      if q.thread.onAltstack then .error (.io .notPermitted) ⟨q, calls'⟩
      else .ok () ⟨q.onThread (·.register (some area)), calls'⟩ := by
  have haccess : refusal (ownRefusals p) q (.makeAccessible area) = none := if_pos hcommits
  unfold lend
  rw [run_bind_ok (perform_granted haccess _ _)]
  by_cases honstack : q.thread.onAltstack
  · have hregister : refusal (ownRefusals p) q (.register (some area)) = some .notPermitted :=
      if_pos honstack
    exact ⟨_, (perform_refused hregister _ _).trans (if_pos honstack).symm⟩
  · have hregister : refusal (ownRefusals p) q (.register (some area)) = none := if_neg honstack
    exact ⟨_, (perform_granted hregister _ _).trans (if_neg honstack).symm⟩

theorem installStackBy_own (p : Machine σ) (calls : List Syscall) :
    Agrees ((installStackBy (ownRefusals p)).run ⟨p, calls⟩) (installStack.run p) := by
  unfold installStackBy installStack
  rw [run_bind_ok (perform_granted rfl _ _), run_get, stateM_run_get]
  dsimp only [id]
  by_cases hroom : hasRoom p.thread
  · rw [if_pos hroom, if_pos hroom]
    exact ⟨rfl, rfl⟩
  rw [if_neg hroom, if_neg hroom, Memory.reserve_eq]
  by_cases hreserves : p.memory.quota.reserves (Memory.pageSize + signalStackSize)
  · have hmap : refusal (ownRefusals p) p (.map (offered p).mapping.size) = none := if_pos hreserves
    rw [if_pos hreserves, run_bind_ok (perform_granted hmap _ _)]
    dsimp only
    by_cases hcommits : p.memory.quota.commits
    · obtain ⟨calls', hlend⟩ := lend_own hcommits (q := granting p) (offered p).area
        (calls ++ [.readStack] ++ [.map (offered p).mapping.size])
      have hthread : (granting p).thread = p.thread := rfl
      rw [hthread] at hlend
      rw [if_neg (by simp [hcommits])]
      by_cases honstack : p.thread.onAltstack
      · rw [if_pos honstack] at hlend ⊢
        have hundone := undoing_error hlend (unmapping_run (offered p).mapping _)
        rw [run_bind_error hundone]
        rfl
      · rw [if_neg honstack] at hlend ⊢
        rw [run_bind_ok (undoing_ok hlend)]
        exact ⟨rfl, lent_eq (Bool.eq_false_iff.2 honstack)⟩
    · have haccess : refusal (ownRefusals p) (granting p) (.makeAccessible (offered p).area) =
          some .outOfMemory := if_neg hcommits
      have hlend : (lend (ownRefusals p) (offered p).area).run
          ⟨granting p, calls ++ [.readStack] ++ [.map (offered p).mapping.size]⟩ = _ :=
        run_bind_error (perform_refused haccess _ _) _
      have hundone := undoing_error hlend (unmapping_run (offered p).mapping _)
      rw [if_pos (by simpa using hcommits), run_bind_error hundone]
      rfl
  · have hmap : refusal (ownRefusals p) p (.map (offered p).mapping.size) = some .outOfMemory :=
      if_neg hreserves
    rw [if_neg hreserves, run_bind_error (perform_refused hmap _ _)]
    rfl

theorem readDispositions_granted (refuses : Refusals)
    (granted : ∀ code, refuses (.readDisposition code) = none) (codes : List SignalNumber)
    (t : Trail σ) : ∃ calls, (readDispositions refuses codes).run t = .ok () ⟨t.machine, calls⟩ := by
  induction codes generalizing t with
  | nil => exact ⟨t.calls, rfl⟩
  | cons code codes ih =>
    have hcode : refusal refuses t.machine (.readDisposition code) = none := granted code
    rw [readDispositions, run_bind_ok (perform_granted hcode _ _)]
    exact ih ⟨t.machine, _⟩

theorem attach_run {p : Machine σ} (unattached : ¬isAttached p) (handler : FaultHandler σ) :
    (attach handler).run p = match installStack.run p with
      | (.error e, q) => (.error e, q)
      | (.ok altstack, q) => (.ok (), installed handler altstack q) := by
  unfold attach
  rw [stateM_run_get, if_neg unattached]
  cases hstack : installStack.run p with
  | mk outcome q =>
    rw [stateM_run_bind hstack]
    cases outcome <;> rfl

theorem attach_attached {p : Machine σ} (attached : isAttached p) (handler : FaultHandler σ) :
    (attach handler).run p = (.error .handlerAlreadyInstalled, p) := by
  unfold attach
  rw [stateM_run_get, if_pos attached]
  rfl

/-- Call by call it comes to the same. -/
theorem attachBy_own (handler : FaultHandler σ) (p : Machine σ) (calls : List Syscall) :
    Agrees ((attachBy (ownRefusals p) handler).run ⟨p, calls⟩) ((attach handler).run p) := by
  by_cases hattached : isAttached p
  · rw [attachBy_attached _ handler ⟨p, calls⟩ hattached, attach_attached hattached]
    rfl
  have hinstall := installStackBy_own p calls
  rw [attach_run hattached]
  unfold attachBy
  rw [run_get, if_neg hattached]
  dsimp only
  cases hby : (installStackBy (ownRefusals p)).run ⟨p, calls⟩ with
  | error e t =>
    rw [hby] at hinstall
    cases hstack : installStack.run p with
    | mk outcome q =>
      rw [hstack] at hinstall
      obtain rfl : outcome = .error e := hinstall
      rw [run_bind_error hby]
      rfl
  | ok altstack t =>
    rw [hby] at hinstall
    cases hstack : installStack.run p with
    | mk outcome q =>
      rw [hstack] at hinstall
      obtain ⟨rfl, rfl⟩ : outcome = .ok altstack ∧ t.machine = q := hinstall
      obtain ⟨calls', hread⟩ :=
        readDispositions_granted (ownRefusals p) (fun _ => rfl) Descriptor.codes t
      rw [run_bind_ok hby, run_bind_ok (undoing_ok hread)]
      exact ⟨rfl, rfl⟩

/-- An attempt to attach a chain that fails changes nothing, whatever the system refuses. Nothing is
asked of it if there is a chain. -/
theorem failed_attach_undone {p : Machine σ} (fresh : p.memory.Fresh) (refuses : Refusals)
    (handler : FaultHandler σ) :
    (isAttached p → (attachBy refuses handler).run ⟨p, []⟩ =
      .error .handlerAlreadyInstalled ⟨p, []⟩) ∧
    (¬isAttached p → ∀ e t, (attachBy refuses handler).run ⟨p, []⟩ = .error e t →
      BySystem e ∧ Undone p t.machine) ∧
    Agrees ((attachBy (ownRefusals p) handler).run ⟨p, []⟩) ((attach handler).run p) ∧
    (((attach handler).run p).1 = .error .handlerAlreadyInstalled ↔ isAttached p) ∧
    ∀ e q, (attach handler).run p = (.error e, q) → q = p := by
  have hagrees := attachBy_own handler p []
  refine ⟨attachBy_attached refuses handler ⟨p, []⟩, ?_, hagrees, ⟨?_, ?_⟩, ?_⟩
  · intro unattached e t herror
    rcases attachBy_cases refuses handler fresh unattached [] with
      ⟨e', t', hrun, hrefused, hundone⟩ | ⟨t', hrun⟩
    · rw [hrun] at herror
      cases herror
      exact ⟨hrefused, hundone⟩
    · rw [hrun] at herror
      cases herror
  · intro herror
    refine Classical.byContradiction fun unattached => ?_
    rw [eq_of_fst_eq herror] at hagrees
    rcases attachBy_cases (ownRefusals p) handler fresh unattached [] with
      ⟨e, t, hrun, hrefused, -⟩ | ⟨t, hrun⟩
    · rw [hrun] at hagrees
      have heq : (.error .handlerAlreadyInstalled : Except Error Unit) = .error e := hagrees
      cases heq
      cases hrefused
    · rw [hrun] at hagrees
      have heq : (.error .handlerAlreadyInstalled : Except Error Unit) = .ok () := hagrees.1
      cases heq
  · intro attached
    rw [attach_attached attached]
  · intro e q herror
    rcases attach_cases handler p with ⟨e', hrun⟩ | ⟨-, altstack, p', hrun, -⟩
    · rw [hrun] at herror
      cases herror
      rfl
    · rw [hrun] at herror
      cases herror

/-- A process whose thread has a small alternate stack. -/
def cramped : Machine Unit := .initial () (.fresh ⟨[], []⟩) (some ⟨0x10000, 8192⟩) ⟨1024, 4096⟩

/-- The disposition of one signal can't be read, after the new stack was registered. -/
def lateRefusal : Refusals
  | .readDisposition signal => if signal = .trap then some .notPermitted else none
  | _ => none

theorem failed_attach_undone_late : ∃ t,
    (attachBy lateRefusal fun _ => return .continueSearch).run ⟨cramped, []⟩ =
      .error (.io .notPermitted) t ∧
    .register (some (offered cramped).area) ∈ t.calls ∧
    .unmap (offered cramped).mapping ∈ t.calls ∧ Undone cramped t.machine := by
  have fresh : cramped.memory.Fresh := nofun
  have hundone := (failed_attach_undone fresh lateRefusal fun _ => return .continueSearch).2.1
  refine ⟨endState ((attachBy lateRefusal fun _ => return .continueSearch).run ⟨cramped, []⟩), rfl,
    by decide, by decide, ?_⟩
  exact (hundone (by decide) (.io .notPermitted) _ rfl).2

end Chain

end CrashCapture
