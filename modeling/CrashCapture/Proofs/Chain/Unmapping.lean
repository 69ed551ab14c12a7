import CrashCapture.Proofs.Chain.Attaching
import CrashCapture.Proofs.Chain.Stacks
import Mathlib.Logic.Relation

namespace CrashCapture

variable {σ : Type}

namespace Mapping

/-- Two pieces of memory without a common place. -/
def Apart (a b : Mapping) : Prop := a.base + a.size ≤ b.base ∨ b.base + b.size ≤ a.base

instance (a b : Mapping) : Decidable (a.Apart b) := inferInstanceAs (Decidable (_ ∨ _))

theorem Apart.symm {a b : Mapping} (h : a.Apart b) : b.Apart a := Or.symm h

theorem apart_of_le {a b : Mapping} {address : Nat} (ha : a.base + a.size ≤ address)
    (hb : address ≤ b.base) : a.Apart b := .inl (Nat.le_trans ha hb)

end Mapping

namespace Machine

/-- Which threads run on their alternate stacks. -/
def standing (p : Machine σ) : ThreadId → Bool := fun id => (p.threads id).onAltstack

theorem standing_onThread {f : Thread → Thread} (kept : ∀ t, (f t).onAltstack = t.onAltstack)
    (p : Machine σ) : (p.onThread f).standing = p.standing := by
  funext id
  by_cases h : id = p.running
  · subst h
    exact (congrArg Thread.onAltstack (if_pos rfl)).trans (kept p.thread)
  · exact congrArg Thread.onAltstack (if_neg h)

end Machine

namespace Chain

theorem onAltstack_register (stack : Option Mapping) (t : Thread) :
    (t.register stack).onAltstack = t.onAltstack := by
  unfold Thread.register
  split <;> rfl

theorem standing_setAll (codes : List SignalNumber) (d : SignalNumber → Disposition)
    (p : Machine σ) : (setAll codes d p).standing = p.standing :=
  funext (part_setAll Thread.onAltstack (fun _ _ => rfl) codes d p)

/-- The stack in a mapping, above its guard page. -/
def stackIn (mapping : Mapping) : Mapping := ⟨mapping.base + Memory.pageSize, signalStackSize⟩

theorem not_apart_stackIn {m s : Mapping} (size : m.size = Memory.pageSize + signalStackSize)
    (base : s.base = (stackIn m).base) : ¬s.Apart m := by
  unfold stackIn at base
  dsimp only at base
  unfold Mapping.Apart
  rw [size, base]
  unfold Memory.pageSize signalStackSize
  omega

theorem attach_took {p : Machine σ} (fresh : p.memory.Fresh) (handler : FaultHandler σ) :
    (∃ e, (attach handler).run p = (.error e, p)) ∨
    p.chain = none ∧ ∃ altstack q, (attach handler).run p = (.ok (), installed handler altstack q) ∧
      Took p altstack q := by
  rcases attach_cases handler p with hfailed | ⟨unattached, altstack, q, hrun, -⟩
  · exact .inl hfailed
  have hattached : ¬isAttached p := by simp [isAttached, unattached]
  have hagrees := installStackBy_own p []
  rw [attach_run hattached] at hrun ⊢
  rcases installStackBy_cases (ownRefusals p) fresh [] with
    ⟨e, t, hby, -⟩ | ⟨altstack', t, hby, htook⟩
  · rw [hby] at hagrees
    rw [eq_of_fst_eq (show (installStack.run p).1 = .error e from hagrees)] at hrun
    cases hrun
  · rw [hby] at hagrees
    have hstack : installStack.run p = (.ok altstack', t.machine) :=
      Prod.ext hagrees.1 hagrees.2.symm
    rw [hstack]
    exact .inr ⟨unattached, altstack', t.machine, rfl, htook⟩

theorem altstacks_installed (handler : FaultHandler σ) (altstack : Option SignalStack)
    (p : Machine σ) : (installed handler altstack p).altstacks = p.altstacks :=
  altstacks_setAll Descriptor.codes (fun _ => .chain) p

theorem memory_installed (handler : FaultHandler σ) (altstack : Option SignalStack)
    (p : Machine σ) : (installed handler altstack p).memory = p.memory :=
  congrArg (·.env.memory) (site_setAll Descriptor.codes (fun _ => .chain) p)

theorem altstacks_lent {p : Machine σ} (off : p.thread.onAltstack = false) : (lent p).altstacks =
    Function.update p.altstacks p.running (some (offered p).area) := by
  rw [lent_eq off, Machine.altstacks_setThread]
  rfl

theorem memory_lent (p : Machine σ) :
    (lent p).memory = p.memory.granted (Memory.pageSize + signalStackSize) := rfl

theorem standing_lent (p : Machine σ) : (lent p).standing = p.standing :=
  (granting p).standing_onThread (onAltstack_register _)

theorem standing_detach (p : Machine σ) : (detach.run p).2.standing = p.standing := by
  cases hchain : p.chain with
  | none => rw [detach_of_none hchain]
  | some c =>
    have hown : (restoreOwn c.previous { p with chain := none }).standing = p.standing :=
      standing_setAll _ _ _
    unfold detach
    rw [stateM_run_get, hchain]
    dsimp only
    cases c.altstack with
    | none => exact hown
    | some s =>
      have hback : ∀ q : Machine σ, (restoreStack s q).standing = q.standing := by
        intro q
        unfold restoreStack
        split
        · rfl
        · exact q.standing_onThread (onAltstack_register _)
      exact (hback _).trans hown

theorem offered_below (p : Machine σ) : (offered p).mapping.base + (offered p).mapping.size ≤
    (p.memory.granted (Memory.pageSize + signalStackSize)).next := by
  unfold offered Machine.memory Memory.granted Memory.pageSize signalStackSize
  dsimp only
  omega

theorem next_le_granted (m : Memory) (size : Nat) : m.next ≤ (m.granted size).next := by
  unfold Memory.granted
  dsimp only
  omega

/-- Detaching unmaps what the chain has mapped, if the running thread still has it, and gives the thread
what it had before, if the system allows that. Else it leaves all stacks and mappings alone. -/
inductive TookBack (p : Machine σ) : Option SignalStack → Machine σ → Prop
  | nothing {altstack : Option SignalStack} {q : Machine σ} (registered : q.altstacks = p.altstacks)
    (memory : q.memory = p.memory)
    (other : ∀ s ∈ altstack, p.thread.altstack.map (·.base) ≠ some s.area.base) :
    TookBack p altstack q
  | stack {s : SignalStack} {q : Machine σ}
    (registered : q.altstacks =
      Function.update p.altstacks p.running (p.thread.register s.old).altstack)
    (memory : q.memory = p.memory.unmap s.mapping)
    (same : p.thread.altstack.map (·.base) = some s.area.base) : TookBack p (some s) q

theorem TookBack.congr {p p' q q' : Machine σ} {altstack : Option SignalStack}
    (h : TookBack p altstack q) (same : p'.altstacks = p.altstacks ∧ p'.site = p.site)
    (standing : p'.thread.onAltstack = p.thread.onAltstack)
    (same' : q'.altstacks = q.altstacks ∧ q'.memory = q.memory) : TookBack p' altstack q' := by
  obtain ⟨hstacks, hsite⟩ := same
  obtain ⟨hstacks', hmemory'⟩ := same'
  have hrunning : p'.running = p.running := congrArg (·.env.thread) hsite
  have hmemory : p'.memory = p.memory := congrArg (·.env.memory) hsite
  have hthread := Machine.altstack_congr hstacks hrunning
  cases h with
  | nothing registered memory other =>
    refine .nothing ?_ ?_ ?_
    · rw [hstacks', hstacks, registered]
    · rw [hmemory', hmemory, memory]
    · rw [hthread]
      exact other
  | @stack s _ registered memory same =>
    have hregister :
        (p'.thread.register s.old).altstack = (p.thread.register s.old).altstack := by
      unfold Thread.register
      rw [standing]
      split
      · exact hthread
      · rfl
    refine .stack ?_ ?_ ?_
    · rw [hstacks', hstacks, hrunning, hregister, registered]
    · rw [hmemory', hmemory, memory]
    · rw [hthread]
      exact same

theorem restoreStack_tookBack (s : SignalStack) (p : Machine σ) :
    TookBack p (some s) (restoreStack s p) := by
  unfold restoreStack
  by_cases hsame : p.thread.altstack.map (·.base) = some s.area.base
  · rw [if_neg (not_not.2 hsame)]
    exact .stack (Machine.altstacks_setThread _ p) rfl hsame
  · rw [if_pos hsame]
    refine .nothing rfl rfl fun s' hs' => ?_
    obtain rfl : s = s' := Option.some.inj hs'
    exact hsame

theorem detach_tookBack {p : Machine σ} {c : ChainState σ} (attached : p.chain = some c) :
    (detach.run p).2.chain = none ∧ TookBack p c.altstack (detach.run p).2 := by
  let own : Machine σ := restoreOwn c.previous { p with chain := none }
  have hsite : own.site = p.site := site_setAll _ _ _
  have hstacks : own.altstacks = p.altstacks := altstacks_setAll _ _ _
  refine ⟨congrArg View.chain (detach_of_some attached), ?_⟩
  unfold detach
  rw [stateM_run_get, attached]
  dsimp only
  cases c.altstack with
  | none => exact .nothing hstacks (congrArg (·.env.memory) hsite) nofun
  | some s =>
    have hstanding : own.thread.onAltstack = p.thread.onAltstack := onAltstack_setAll _ _ _
    have hback := restoreStack_tookBack s own
    exact hback.congr ⟨hstacks.symm, hsite.symm⟩ hstanding.symm ⟨rfl, rfl⟩

/-- The running thread runs on the stack that was mapped for the chain. -/
def OnChainStack (p : Machine σ) : Prop := p.thread.onAltstack = true ∧
  ∃ c ∈ p.chain, ∃ s ∈ c.altstack, p.thread.altstack.map (·.base) = some s.area.base

theorem off_of_same {p : Machine σ} (off : ¬OnChainStack p) {c : ChainState σ} {s : SignalStack}
    (attached : p.chain = some c) (stack : c.altstack = some s)
    (same : p.thread.altstack.map (·.base) = some s.area.base) : p.thread.onAltstack = false :=
  Bool.eq_false_iff.2 fun honstack => off ⟨honstack, c, attached, s, stack, same⟩

/-- A process, the mappings that attaching has made in it, and those that detaching has unmapped. -/
structure Ledger (σ : Type) where
  machine : Machine σ
  made : List Mapping
  gone : List Mapping

/-- The mappings that are in one process and not in the other. -/
def newIn (p q : Machine σ) : List Mapping :=
  q.memory.mappings.filter fun m => m ∉ p.memory.mappings

theorem mem_newIn {p q : Machine σ} {m : Mapping} :
    m ∈ newIn p q ↔ m ∈ q.memory.mappings ∧ m ∉ p.memory.mappings := by
  simp [newIn]

theorem newIn_of_memory {p q : Machine σ} (h : q.memory = p.memory) : newIn p q = [] := by
  unfold newIn
  rw [h, List.filter_eq_nil_iff]
  intro m hm
  simp [hm]

theorem mem_newIn_granted {p q : Machine σ} (fresh : p.memory.Fresh)
    (h : q.memory = p.memory.granted (Memory.pageSize + signalStackSize)) {m : Mapping} :
    m ∈ newIn p q ↔ m = (offered p).mapping := by
  have hnew : (offered p).mapping ∉ p.memory.mappings := fun hmem =>
    Nat.lt_irrefl _ (fresh _ hmem)
  have hmappings : q.memory.mappings = (offered p).mapping :: p.memory.mappings :=
    congrArg Memory.mappings h
  rw [mem_newIn, hmappings, List.mem_cons]
  constructor
  · rintro ⟨heq | hold, hnot⟩
    · exact heq
    · exact absurd hold hnot
  · rintro rfl
    exact ⟨.inl rfl, hnew⟩

theorem mem_newIn_unmap {p q : Machine σ} {mapping : Mapping}
    (h : q.memory = p.memory.unmap mapping) {m : Mapping} :
    m ∈ newIn q p ↔ m = mapping ∧ m ∈ p.memory.mappings := by
  have hmappings : q.memory.mappings = p.memory.mappings.filter (· ≠ mapping) :=
    congrArg Memory.mappings h
  rw [mem_newIn, hmappings, List.mem_filter]
  by_cases heq : m = mapping
  · simp [heq]
  · simp [heq]

namespace Ledger

def attach (handler : FaultHandler σ) (l : Ledger σ) : Ledger σ :=
  let q := ((Chain.attach handler).run l.machine).2
  ⟨q, newIn l.machine q ++ l.made, l.gone⟩

def detach (l : Ledger σ) : Ledger σ :=
  let q := (Chain.detach.run l.machine).2
  ⟨q, l.made, newIn q l.machine ++ l.gone⟩

/-- A stack that is none of those that were made by attaching. Nothing will be mapped in it. -/
structure Own (l : Ledger σ) (s : Mapping) : Prop where
  apart : ∀ m ∈ l.made, s.Apart m
  below : s.base + s.size ≤ l.machine.memory.next

/-- What others do besides: they leave the chain and its mappings alone, and threads may end. Their
handlers of signals may run on stacks of their own, but none is left running on one of the chain's. -/
structure Aloof (l : Ledger σ) (q : Machine σ) : Prop where
  chain : q.chain = l.machine.chain
  registered : ∀ id, q.altstacks id = l.machine.altstacks id ∨ q.altstacks id = none
  standing : ∀ id s, q.standing id = true → q.altstacks id = some s →
    l.machine.standing id = true ∨ ∀ m ∈ l.made, s.Apart m
  mapped : ∀ m ∈ l.made, m ∈ l.machine.memory.mappings → m ∈ q.memory.mappings
  next : l.machine.memory.next ≤ q.memory.next
  fresh : q.memory.Fresh

/-- What happens in a process: the running thread attaches or detaches a chain, or sets a stack of its
own or none, or something else happens, such as that another thread runs. -/
inductive Happens : Ledger σ → Ledger σ → Prop
  | attach (l : Ledger σ) (handler : FaultHandler σ) : Happens l (l.attach handler)
  | detach (l : Ledger σ) : Happens l l.detach
  | register (l : Ledger σ) (stack : Option Mapping) (own : ∀ s ∈ stack, Own l s) :
    Happens l { l with machine := l.machine.onThread (·.register stack) }
  | elsewhere {l : Ledger σ} {q : Machine σ} (aloof : Aloof l q) : Happens l { l with machine := q }

/-- Where the stacks of threads are: one is apart from a mapping that was made, or it is the stack in
that, which no other thread has. -/
structure Placed (registered : ThreadId → Option Mapping) (made : List Mapping) (next : Nat) :
    Prop where
  below : ∀ id s, registered id = some s → s.base + s.size ≤ next
  parted : ∀ id s, registered id = some s → ∀ m ∈ made, s.Apart m ∨ s = stackIn m
  owner : ∀ id id', ∀ m ∈ made,
    registered id = some (stackIn m) → registered id' = some (stackIn m) → id = id'

/-- What always holds: nobody's stack is in what was unmapped, and the rest of what was made is
mapped. -/
structure Sound (l : Ledger σ) : Prop where
  fresh : l.machine.memory.Fresh
  size : ∀ m ∈ l.made, m.size = Memory.pageSize + signalStackSize
  below : ∀ m ∈ l.made, m.base + m.size ≤ l.machine.memory.next
  placed : Placed l.machine.altstacks l.made l.machine.memory.next
  unmapped : ∀ m ∈ l.gone, m ∈ l.made
  apart : ∀ id s, l.machine.altstacks id = some s → ∀ m ∈ l.gone, s.Apart m
  mapped : ∀ m ∈ l.made, m ∈ l.gone ∨ m ∈ l.machine.memory.mappings
  chain : ∀ c ∈ l.machine.chain, ∀ s ∈ c.altstack,
    s.area = stackIn s.mapping ∧ s.mapping ∈ l.made ∧ ∀ old ∈ s.old, Own l old

/-- No thread runs on a stack that was made by attaching. -/
def Unused (l : Ledger σ) : Prop := ∀ id s, l.machine.standing id = true →
  l.machine.altstacks id = some s → ∀ m ∈ l.made, s.Apart m

variable {l l' : Ledger σ} {q : Machine σ}

theorem Placed.change {registered registered' : ThreadId → Option Mapping} {made : List Mapping}
    {next next' : Nat} (h : Placed registered made next)
    (size : ∀ m ∈ made, m.size = Memory.pageSize + signalStackSize) (grows : next ≤ next')
    (from' : ∀ id s, registered' id = some s →
      registered id = some s ∨ (∀ m ∈ made, s.Apart m) ∧ s.base + s.size ≤ next') :
    Placed registered' made next' := by
  have hkept : ∀ id, ∀ m ∈ made,
      registered' id = some (stackIn m) → registered id = some (stackIn m) := by
    intro id m hm hid
    rcases from' id _ hid with hbefore | ⟨happart, -⟩
    · exact hbefore
    · exact absurd (happart m hm) (not_apart_stackIn (size m hm) rfl)
  refine ⟨fun id s hs => ?_, fun id s hs m hm => ?_, fun id id' m hm hid hid' => ?_⟩
  · rcases from' id s hs with hbefore | ⟨-, hbelow⟩
    · exact Nat.le_trans (h.below id s hbefore) grows
    · exact hbelow
  · rcases from' id s hs with hbefore | ⟨happart, -⟩
    · exact h.parted id s hbefore m hm
    · exact .inl (happart m hm)
  · exact h.owner id id' m hm (hkept id m hm hid) (hkept id' m hm hid')

theorem Own.of_machine {s : Mapping} (h : Own l s) (grows : l.machine.memory.next ≤ q.memory.next) :
    Own { l with machine := q } s := ⟨h.apart, Nat.le_trans h.below grows⟩

namespace Sound

theorem elsewhere (h : Sound l) (aloof : Aloof l q) : Sound { l with machine := q } := by
  have hstacks : ∀ id s, q.altstacks id = some s → l.machine.altstacks id = some s := by
    intro id s hs
    rcases aloof.registered id with hsame | hnone
    · rw [← hsame, hs]
    · rw [hnone] at hs
      cases hs
  constructor
  case fresh => exact aloof.fresh
  case size => exact h.size
  case below => exact fun m hm => Nat.le_trans (h.below m hm) aloof.next
  case placed => exact h.placed.change h.size aloof.next fun id s hs => .inl (hstacks id s hs)
  case unmapped => exact h.unmapped
  case apart => exact fun id s hs => h.apart id s (hstacks id s hs)
  case mapped => exact fun m hm => (h.mapped m hm).imp_right (aloof.mapped m hm)
  case chain =>
    intro c hc s hs
    obtain ⟨harea, hmade, hold⟩ := h.chain c (aloof.chain ▸ hc) s hs
    exact ⟨harea, hmade, fun old hold' => (hold old hold').of_machine aloof.next⟩

theorem register (h : Sound l) {stack : Option Mapping} (own : ∀ s ∈ stack, Own l s) :
    Sound { l with machine := l.machine.onThread (·.register stack) } := by
  have hstacks : ∀ id s, (l.machine.onThread (·.register stack)).altstacks id = some s →
      l.machine.altstacks id = some s ∨ Own l s := by
    intro id s hs
    rw [Machine.onThread, Machine.altstacks_setThread, Function.update_apply] at hs
    by_cases hid : id = l.machine.running
    · rw [if_pos hid, Thread.register] at hs
      by_cases honstack : l.machine.thread.onAltstack
      · rw [if_pos honstack] at hs
        exact .inl (hid ▸ hs)
      · rw [if_neg honstack] at hs
        exact .inr (own s hs)
    · rw [if_neg hid] at hs
      exact .inl hs
  constructor
  case fresh => exact h.fresh
  case size => exact h.size
  case below => exact h.below
  case placed =>
    exact h.placed.change h.size (Nat.le_refl _) fun id s hs =>
      (hstacks id s hs).imp_right fun hown => ⟨hown.apart, hown.below⟩
  case unmapped => exact h.unmapped
  case apart =>
    intro id s hs m hm
    rcases hstacks id s hs with hbefore | hown
    · exact h.apart id s hbefore m hm
    · exact hown.apart m (h.unmapped m hm)
  case mapped => exact h.mapped
  case chain =>
    intro c hc s hs
    obtain ⟨harea, hmade, hold⟩ := h.chain c hc s hs
    exact ⟨harea, hmade, fun old hold' => (hold old hold').of_machine (Nat.le_refl _)⟩

/-- A chain without a stack of its own has nothing to do with the stacks. -/
theorem rechained (h : Sound l) (registered : q.altstacks = l.machine.altstacks)
    (memory : q.memory = l.machine.memory) (chain : ∀ c ∈ q.chain, c.altstack = none) :
    Sound { l with machine := q } := by
  constructor
  case fresh => exact memory ▸ h.fresh
  case size => exact h.size
  case below => exact memory ▸ h.below
  case placed =>
    dsimp only
    rw [registered, memory]
    exact h.placed
  case unmapped => exact h.unmapped
  case apart => exact registered ▸ h.apart
  case mapped => exact memory ▸ h.mapped
  case chain =>
    intro c hc s hs
    rw [chain c hc] at hs
    cases hs

/-- A new mapping is where nobody's stack is. -/
theorem lent (h : Sound l) (registered : q.altstacks = Function.update l.machine.altstacks
      l.machine.running (some (offered l.machine).area))
    (noRoom : ¬hasRoom l.machine.thread = true)
    (memory : q.memory = l.machine.memory.granted (Memory.pageSize + signalStackSize))
    (chain : ∀ c ∈ q.chain, c.altstack = some (offered l.machine)) :
    Sound ⟨q, newIn l.machine q ++ l.made, l.gone⟩ := by
  let new := (offered l.machine).mapping
  have hnew : ∀ m, m ∈ newIn l.machine q ++ l.made ↔ m = new ∨ m ∈ l.made := by
    intro m
    rw [List.mem_append, mem_newIn_granted h.fresh memory]
  have hgrows : l.machine.memory.next ≤ q.memory.next := memory ▸ next_le_granted _ _
  have hend : new.base + new.size ≤ q.memory.next := memory ▸ offered_below l.machine
  have hinside : (stackIn new).base + (stackIn new).size ≤ q.memory.next := by
    refine Nat.le_trans (Nat.le_of_eq ?_) hend
    exact Nat.add_assoc _ _ _
  -- What there was before is below the new mapping.
  have habove : ∀ s : Mapping, s.base + s.size ≤ l.machine.memory.next →
      s.Apart new ∧ s.Apart (stackIn new) := fun s hs =>
    ⟨Mapping.apart_of_le hs (Nat.le_refl _), Mapping.apart_of_le hs (Nat.le_add_right _ _)⟩
  have hcases : ∀ id s, q.altstacks id = some s →
      id = l.machine.running ∧ s = stackIn new ∨ l.machine.altstacks id = some s := by
    intro id s hs
    rw [registered, Function.update_apply] at hs
    by_cases hid : id = l.machine.running
    · rw [if_pos hid] at hs
      exact .inl ⟨hid, (Option.some.inj hs).symm⟩
    · rw [if_neg hid] at hs
      exact .inr hs
  have hne : ∀ m ∈ l.made, stackIn m ≠ stackIn new := by
    intro m hm heq
    have hbelow := h.below m hm
    have hbase : m.base = new.base := Nat.add_right_cancel (congrArg Mapping.base heq)
    have hbase : m.base = l.machine.memory.next := hbase
    have hsize := h.size m hm
    unfold Memory.pageSize at hsize
    omega
  constructor
  case fresh =>
    dsimp only
    rw [memory]
    exact h.fresh.granted _
  case size =>
    intro m hm
    rcases (hnew m).1 hm with rfl | hm
    · rfl
    · exact h.size m hm
  case below =>
    intro m hm
    rcases (hnew m).1 hm with rfl | hm
    · exact hend
    · exact Nat.le_trans (h.below m hm) hgrows
  case placed =>
    constructor
    case below =>
      intro id s hs
      rcases hcases id s hs with ⟨-, rfl⟩ | hs
      · exact hinside
      · exact Nat.le_trans (h.placed.below id s hs) hgrows
    case parted =>
      intro id s hs m hm
      rcases (hnew m).1 hm with rfl | hm
      · rcases hcases id s hs with ⟨-, rfl⟩ | hs
        · exact .inr rfl
        · exact .inl (habove s (h.placed.below id s hs)).1
      · rcases hcases id s hs with ⟨-, rfl⟩ | hs
        · exact .inl (habove m (h.below m hm)).2.symm
        · exact h.placed.parted id s hs m hm
    case owner =>
      intro id id' m hm hid hid'
      rcases (hnew m).1 hm with rfl | hm
      · have hrunning : ∀ id, q.altstacks id = some (stackIn new) → id = l.machine.running := by
          intro id hid
          rcases hcases id _ hid with ⟨hid, -⟩ | hid
          · exact hid
          · have hapart := (habove _ (h.placed.below id _ hid)).1
            exact absurd hapart (not_apart_stackIn rfl rfl)
        exact (hrunning id hid).trans (hrunning id' hid').symm
      · rcases hcases id _ hid with ⟨-, heq⟩ | hid
        · exact absurd heq (hne m hm)
        · rcases hcases id' _ hid' with ⟨-, heq⟩ | hid'
          · exact absurd heq (hne m hm)
          · exact h.placed.owner id id' m hm hid hid'
  case unmapped => exact fun m hm => (hnew m).2 (.inr (h.unmapped m hm))
  case apart =>
    intro id s hs m hm
    rcases hcases id s hs with ⟨-, rfl⟩ | hs
    · exact (habove m (h.below m (h.unmapped m hm))).2.symm
    · exact h.apart id s hs m hm
  case mapped =>
    intro m hm
    dsimp only
    rw [memory]
    rcases (hnew m).1 hm with rfl | hm
    · exact .inr List.mem_cons_self
    · exact (h.mapped m hm).imp_right (List.mem_cons_of_mem _)
  case chain =>
    intro c hc s hs
    rw [chain c hc] at hs
    cases hs
    refine ⟨rfl, (hnew _).2 (.inl rfl), fun old hold => ?_⟩
    have hbelow := h.placed.below l.machine.running old hold
    refine ⟨fun m hm => ?_, Nat.le_trans hbelow hgrows⟩
    rcases (hnew m).1 hm with rfl | hm
    · exact (habove old hbelow).1
    · rcases h.placed.parted _ old hold m hm with hapart | rfl
      · exact hapart
      · refine absurd ?_ noRoom
        have hold : l.machine.thread.altstack = some (stackIn m) := hold
        rw [hasRoom, hold]
        rfl

theorem attach (h : Sound l) (handler : FaultHandler σ) : Sound (l.attach handler) := by
  rcases attach_took h.fresh handler with ⟨e, hrun⟩ | ⟨-, altstack, q, hrun, htook⟩
  · have hsame : l.attach handler = l := by
      unfold Ledger.attach
      rw [hrun]
      dsimp only
      rw [newIn_of_memory rfl]
      rfl
    rw [hsame]
    exact h
  · have hresult : l.attach handler =
        ⟨installed handler altstack q, newIn l.machine (installed handler altstack q) ++ l.made,
          l.gone⟩ := by
      unfold Ledger.attach
      rw [hrun]
    have hstacks := altstacks_installed handler altstack q
    have hmemory := memory_installed handler altstack q
    rw [hresult]
    cases htook with
    | nothing room =>
      rw [newIn_of_memory hmemory]
      refine h.rechained hstacks hmemory fun c hc => ?_
      cases hc
      rfl
    | stack noRoom off =>
      refine h.lent (hstacks.trans (altstacks_lent off)) noRoom (hmemory.trans (memory_lent _)) ?_
      intro c hc
      cases hc
      rfl

/-- A mapping that is unmapped was the stack of the running thread, so it is nobody's then. -/
theorem returned (h : Sound l) {mapping : Mapping} {old : Option Mapping} (made : mapping ∈ l.made)
    (mine : l.machine.thread.altstack = some (stackIn mapping)) (own : ∀ s ∈ old, Own l s)
    (registered : q.altstacks = Function.update l.machine.altstacks l.machine.running old)
    (memory : q.memory = l.machine.memory.unmap mapping) (chain : q.chain = none) :
    Sound ⟨q, l.made, newIn q l.machine ++ l.gone⟩ := by
  have hcases : ∀ id s, q.altstacks id = some s →
      Own l s ∨ id ≠ l.machine.running ∧ l.machine.altstacks id = some s := by
    intro id s hs
    rw [registered, Function.update_apply] at hs
    by_cases hid : id = l.machine.running
    · rw [if_pos hid] at hs
      exact .inl (own s hs)
    · rw [if_neg hid] at hs
      exact .inr ⟨hid, hs⟩
  constructor
  case fresh =>
    dsimp only
    rw [memory]
    exact fun m hm => h.fresh m (List.mem_filter.1 hm).1
  case size => exact h.size
  case below =>
    dsimp only
    rw [memory]
    exact h.below
  case placed =>
    have hnext : l.machine.memory.next = q.memory.next := memory ▸ rfl
    refine h.placed.change h.size (Nat.le_of_eq hnext) fun id s hs => ?_
    rcases hcases id s hs with hown | ⟨-, hs⟩
    · exact .inr ⟨hown.apart, hnext ▸ hown.below⟩
    · exact .inl hs
  case unmapped =>
    intro m hm
    rcases List.mem_append.1 hm with hm | hm
    · exact ((mem_newIn_unmap memory).1 hm).1 ▸ made
    · exact h.unmapped m hm
  case apart =>
    intro id s hs m hm
    rcases List.mem_append.1 hm with hm | hm
    · obtain ⟨rfl, -⟩ := (mem_newIn_unmap memory).1 hm
      rcases hcases id s hs with hown | ⟨hid, hs⟩
      · exact hown.apart m made
      · rcases h.placed.parted id s hs m made with hapart | rfl
        · exact hapart
        · exact absurd (h.placed.owner id _ m made hs mine) hid
    · rcases hcases id s hs with hown | ⟨-, hs⟩
      · exact hown.apart m (h.unmapped m hm)
      · exact h.apart id s hs m hm
  case mapped =>
    intro m hm
    rcases h.mapped m hm with hgone | hmapped
    · exact .inl (List.mem_append_right _ hgone)
    · by_cases heq : m = mapping
      · exact .inl (List.mem_append_left _ ((mem_newIn_unmap memory).2 ⟨heq, hmapped⟩))
      · dsimp only
        rw [memory]
        exact .inr (List.mem_filter.2 ⟨hmapped, decide_eq_true heq⟩)
  case chain =>
    intro c hc
    rw [show q.chain = none from chain] at hc
    cases hc

/-- The stack that a chain was given is in its mapping, if the running thread has it still. -/
theorem own_stack (h : Sound l) {c : ChainState σ} {s : SignalStack}
    (attached : l.machine.chain = some c) (stack : c.altstack = some s)
    (same : l.machine.thread.altstack.map (·.base) = some s.area.base) :
    l.machine.thread.altstack = some (stackIn s.mapping) := by
  obtain ⟨harea, hmade, -⟩ := h.chain c attached s stack
  obtain ⟨mine, hmine, hbase⟩ := Option.map_eq_some_iff.1 same
  rcases h.placed.parted _ mine hmine s.mapping hmade with hapart | heq
  · exact absurd hapart (not_apart_stackIn (h.size _ hmade) (hbase.trans (harea ▸ rfl)))
  · rw [hmine, heq]

theorem detach (h : Sound l) (off : ¬OnChainStack l.machine) : Sound l.detach := by
  unfold Ledger.detach
  cases hchain : l.machine.chain with
  | none =>
    rw [detach_of_none hchain]
    dsimp only
    rw [newIn_of_memory rfl]
    exact h
  | some c =>
    obtain ⟨hnone, hback⟩ := detach_tookBack hchain
    generalize (Chain.detach.run l.machine).2 = q at hnone hback
    generalize haltstack : c.altstack = altstack at hback
    cases hback with
    | nothing registered memory other =>
      dsimp only
      rw [newIn_of_memory memory.symm]
      refine h.rechained registered memory fun c' hc' => ?_
      rw [hnone] at hc'
      cases hc'
    | @stack s _ registered memory same =>
      obtain ⟨-, hmade, hold⟩ := h.chain c hchain s haltstack
      rw [Thread.register_of_off (off_of_same off hchain haltstack same)] at registered
      exact h.returned hmade (h.own_stack hchain haltstack same) hold registered memory hnone

/-- From within a handler that runs on the stack of a chain, detaching takes the mapping away, but the
system does not take the stack from the thread. -/
theorem detach_beneath (h : Sound l) (on : OnChainStack l.machine) :
    ∃ s, l.detach.machine.altstacks l.machine.running = some s ∧ ∃ m ∈ l.detach.gone, ¬s.Apart m := by
  obtain ⟨honstack, c, hchain, s, haltstack, hsame⟩ := on
  have hmine := h.own_stack hchain haltstack hsame
  obtain ⟨-, hmade, -⟩ := h.chain c hchain s haltstack
  obtain ⟨-, hback⟩ := detach_tookBack hchain
  rw [haltstack] at hback
  unfold Ledger.detach
  dsimp only
  generalize (Chain.detach.run l.machine).2 = q at hback
  cases hback with
  | nothing registered memory other => exact absurd hsame (other s rfl)
  | stack registered memory same =>
    refine ⟨stackIn s.mapping, ?_, s.mapping, ?_, not_apart_stackIn (h.size _ hmade) rfl⟩
    · rw [registered, Function.update_self, Thread.register, if_pos honstack, hmine]
    · rcases h.mapped _ hmade with hgone | hmapped
      · exact List.mem_append_right _ hgone
      · exact List.mem_append_left _ ((mem_newIn_unmap memory).2 ⟨rfl, hmapped⟩)

/-- A thread that runs on the chain's stack runs on one that was made. -/
theorem off_chain (h : Sound l) (unused : Unused l) : ¬OnChainStack l.machine := by
  rintro ⟨honstack, c, hchain, s, haltstack, hsame⟩
  obtain ⟨-, hmade, -⟩ := h.chain c hchain s haltstack
  have hmine := h.own_stack hchain haltstack hsame
  have hapart := unused l.machine.running _ honstack hmine _ hmade
  exact not_apart_stackIn (h.size _ hmade) rfl hapart

end Sound

namespace Unused

theorem elsewhere (h : Unused l) (aloof : Aloof l q) : Unused { l with machine := q } := by
  intro id s hon hs
  rcases aloof.standing id s hon hs with hbefore | hapart
  · rcases aloof.registered id with hsame | hnone
    · exact h id s hbefore (hsame ▸ hs)
    · rw [hnone] at hs
      cases hs
  · exact hapart

theorem register (h : Unused l) (stack : Option Mapping) :
    Unused { l with machine := l.machine.onThread (·.register stack) } := by
  intro id s hon hs
  rw [l.machine.standing_onThread (onAltstack_register stack)] at hon
  refine h id s hon ?_
  rw [Machine.onThread, Machine.altstacks_setThread, Function.update_apply] at hs
  by_cases hid : id = l.machine.running
  · subst hid
    have hon : l.machine.thread.onAltstack = true := hon
    rw [if_pos rfl, Thread.register, if_pos hon] at hs
    exact hs
  · rw [if_neg hid] at hs
    exact hs

/-- A stack is lent only to a thread that does not run on the one that it has. -/
theorem attach (h : Unused l) (sound : Sound l) (handler : FaultHandler σ) :
    Unused (l.attach handler) := by
  unfold Ledger.attach
  rcases attach_took sound.fresh handler with ⟨e, hrun⟩ | ⟨-, altstack, q, hrun, htook⟩
  · rw [hrun]
    dsimp only
    rw [newIn_of_memory rfl]
    exact h
  · rw [hrun]
    dsimp only
    have hstacks := altstacks_installed handler altstack q
    have hmemory := memory_installed handler altstack q
    have hstanding : (installed handler altstack q).standing = q.standing :=
      standing_setAll Descriptor.codes (fun _ => .chain) q
    cases htook with
    | nothing room =>
      rw [newIn_of_memory hmemory]
      intro id s hon hs
      exact h id s (hstanding ▸ hon) (hstacks ▸ hs)
    | stack noRoom off =>
      intro id s hon hs m hm
      rw [hstanding, standing_lent] at hon
      rw [hstacks, altstacks_lent off, Function.update_apply] at hs
      have hid : id ≠ l.machine.running := by
        rintro rfl
        exact absurd (off.symm.trans hon) Bool.false_ne_true
      rw [if_neg hid] at hs
      rcases List.mem_append.1 hm with hnew | hold
      · rw [mem_newIn_granted sound.fresh (hmemory.trans (memory_lent _))] at hnew
        subst hnew
        exact Mapping.apart_of_le (sound.placed.below id s hs) (Nat.le_refl _)
      · exact h id s hon hs m hold

theorem detach (h : Unused l) (sound : Sound l) : Unused l.detach := by
  intro id s hon hs
  unfold Ledger.detach at hon hs
  rw [standing_detach] at hon
  refine h id s hon ?_
  cases hchain : l.machine.chain with
  | none =>
    rw [detach_of_none hchain] at hs
    exact hs
  | some c =>
    obtain ⟨-, hback⟩ := detach_tookBack hchain
    dsimp only at hs
    generalize (Chain.detach.run l.machine).2 = q at hs hback
    generalize haltstack : c.altstack = altstack at hback
    cases hback with
    | nothing registered => rwa [registered] at hs
    | stack registered memory same =>
      have hoff := off_of_same (sound.off_chain h) hchain haltstack same
      rw [registered, Function.update_apply, if_neg] at hs
      · exact hs
      · rintro rfl
        exact absurd (hoff.symm.trans hon) Bool.false_ne_true

end Unused

/-- What holds as long as no handler of a signal runs on a stack of the chain. -/
structure Steady (l : Ledger σ) : Prop where
  sound : Sound l
  unused : Unused l

namespace Steady

theorem step (h : Steady l) (happens : Happens l l') : Steady l' := by
  obtain ⟨sound, unused⟩ := h
  cases happens with
  | attach handler => exact ⟨sound.attach handler, unused.attach sound handler⟩
  | detach => exact ⟨sound.detach (sound.off_chain unused), unused.detach sound⟩
  | register stack own => exact ⟨sound.register own, unused.register stack⟩
  | elsewhere aloof => exact ⟨sound.elsewhere aloof, unused.elsewhere aloof⟩

theorem run (h : Steady l) (run : Relation.ReflTransGen Happens l l') : Steady l' := by
  induction run with
  | refl => exact h
  | tail _ happens ih => exact ih.step happens

end Steady

/-- Nothing is attached in the process, and nothing will be mapped where a thread has its stack. -/
structure Begins (p : Machine σ) : Prop where
  unattached : p.chain = none
  fresh : p.memory.Fresh
  below : ∀ id s, p.altstacks id = some s → s.base + s.size ≤ p.memory.next

theorem Begins.steady {p : Machine σ} (h : Begins p) : Steady ⟨p, [], []⟩ where
  sound := {
    fresh := h.fresh
    size := nofun
    below := nofun
    placed := ⟨h.below, fun _ _ _ => nofun, fun _ _ _ => nofun⟩
    unmapped := nofun
    apart := fun _ _ _ => nofun
    mapped := nofun
    chain := fun c hc => by
      rw [show p.chain = none from h.unattached] at hc
      cases hc }
  unused := fun _ _ _ _ => nofun

end Ledger

theorem hasRoom_iff {t : Thread} :
    hasRoom t = true ↔ ∃ s, t.altstack = some s ∧ signalStackSize ≤ s.size := by
  unfold hasRoom
  cases t.altstack with
  | none => simp
  | some s => simp

/-- After a chain was attached, the thread has a stack that will do. -/
theorem Took.room {p q : Machine σ} {altstack : Option SignalStack} (h : Took p altstack q) :
    ∃ s, q.altstacks p.running = some s ∧ signalStackSize ≤ s.size := by
  cases h with
  | nothing room => exact hasRoom_iff.1 room
  | stack noRoom off =>
    rw [altstacks_lent off, Function.update_self]
    exact ⟨_, rfl, Nat.le_refl _⟩

/-- Detaching on the thread that has attached the chain gives back what the thread had, if it still has
the stack from then. -/
theorem Took.gives_back {p q r : Machine σ} {altstack : Option SignalStack} (h : Took p altstack q)
    (fresh : p.memory.Fresh) {handler : FaultHandler σ}
    (chain : r.chain = (installed handler altstack q).chain) (running : r.running = p.running)
    (kept : r.altstacks p.running = q.altstacks p.running) (off : ¬OnChainStack r) :
    (detach.run r).2.altstacks p.running = p.altstacks p.running ∧
      ∀ m ∈ newIn p (installed handler altstack q), m ∉ (detach.run r).2.memory.mappings := by
  have hmemory := memory_installed handler altstack q
  obtain ⟨-, hback⟩ := detach_tookBack chain
  dsimp only at hback
  generalize (detach.run r).2 = r' at hback
  cases h with
  | nothing room =>
    cases hback with
    | nothing registered memory other =>
      rw [newIn_of_memory hmemory, registered]
      exact ⟨kept, nofun⟩
  | stack noRoom taken =>
    rw [altstacks_lent taken, Function.update_self] at kept
    have hmine : r.thread.altstack = some (offered p).area := by
      change r.altstacks r.running = _
      rw [running]
      exact kept
    cases hback with
    | nothing registered memory other =>
      refine absurd ?_ (other _ rfl)
      rw [hmine]
      rfl
    | stack registered memory same =>
      constructor
      · rw [Thread.register_of_off (off_of_same off chain rfl same)] at registered
        rw [registered, running, Function.update_self]
        rfl
      · intro m hm
        rw [(mem_newIn_granted fresh (hmemory.trans (memory_lent p))).1 hm, memory]
        exact fun hmem => of_decide_eq_true (List.mem_filter.1 hmem).2 rfl

/-- However chains are attached and detached on any threads, while no handler of a signal runs on a stack
of theirs, nobody's alternate stack is in a mapping that was unmapped; whoever attaches one has a stack
that will do, and gets back what it had before by detaching, whatever happened in between, if it still has
that stack. -/
theorem stack_in_use_stays {start : Machine σ} (begins : Ledger.Begins start) {l : Ledger σ}
    (run : Relation.ReflTransGen Ledger.Happens ⟨start, [], []⟩ l) :
    (∀ id s, l.machine.altstacks id = some s → (∀ m ∈ l.gone, s.Apart m) ∧
      ∀ m ∈ l.made, s.Apart m ∨ m ∈ l.machine.memory.mappings) ∧
    ∀ (handler : FaultHandler σ) (q : Machine σ), (attach handler).run l.machine = (.ok (), q) →
      (∃ s, q.altstacks l.machine.running = some s ∧ signalStackSize ≤ s.size) ∧
      ∀ l', Relation.ReflTransGen Ledger.Happens (l.attach handler) l' →
        l'.machine.chain = q.chain → l'.machine.running = l.machine.running →
        l'.machine.altstacks l.machine.running = q.altstacks l.machine.running →
        l'.detach.machine.altstacks l.machine.running = l.machine.altstacks l.machine.running ∧
          ∀ m ∈ newIn l.machine q, m ∉ l'.detach.machine.memory.mappings := by
  have hsteady := begins.steady.run run
  have hsound := hsteady.sound
  constructor
  · intro id s hs
    have hapart := hsound.apart id s hs
    exact ⟨hapart, fun m hm => (hsound.mapped m hm).imp_left (hapart m)⟩
  · intro handler q hattach
    rcases attach_took hsound.fresh handler with ⟨e, hrun⟩ | ⟨-, altstack, p, hrun, htook⟩
    · rw [hrun] at hattach
      cases hattach
    · rw [hrun] at hattach
      cases hattach
      have hstacks := altstacks_installed handler altstack p
      refine ⟨hstacks ▸ htook.room, fun l' onward chain running kept => ?_⟩
      have hafter := (hsteady.step (.attach l handler)).run onward
      exact htook.gives_back hsound.fresh chain running (kept.trans (congrFun hstacks _))
        (hafter.sound.off_chain hafter.unused)

section Leaked

def idle : FaultHandler Unit := fun _ => return .continueSearch

/-- A thread attaches a chain, detaches it, and attaches another one. -/
def attachedAgain : Ledger Unit :=
  (((⟨cramped, [], []⟩ : Ledger Unit).attach idle).detach).attach idle

/-- Then another thread runs, and detaches that one. -/
def switched : Machine Unit := attachedAgain.machine.modifyEnv fun env =>
  { env with thread := mainThread + 1 }

def leaked : Ledger Unit := ({ attachedAgain with machine := switched } : Ledger Unit).detach

theorem begins_cramped : Ledger.Begins cramped := by
  refine ⟨rfl, nofun, fun id s hs => ?_⟩
  obtain rfl : (⟨0x10000, 8192⟩ : Mapping) = s := Option.some.inj hs
  decide

theorem run_attachedAgain :
    Relation.ReflTransGen Ledger.Happens ⟨cramped, [], []⟩ attachedAgain := by
  exact .tail (.tail (.tail .refl (.attach _ idle)) (.detach _)) (.attach _ idle)

theorem run_leaked : Relation.ReflTransGen Ledger.Happens ⟨cramped, [], []⟩ leaked := by
  have hfresh := (begins_cramped.steady.run run_attachedAgain).sound.fresh
  have haloof : Ledger.Aloof attachedAgain switched :=
    ⟨rfl, fun _ => .inl rfl, fun _ _ hon _ => .inl hon, fun _ _ h => h, Nat.le_refl _, hfresh⟩
  exact .tail (.tail run_attachedAgain (.elsewhere haloof)) (.detach _)

theorem stack_in_use_stays_leaked :
    leaked.machine.chain.isNone ∧ leaked.gone ≠ [] ∧ ∃ s m,
      leaked.machine.altstacks mainThread = some s ∧ m ∈ leaked.made ∧ ¬s.Apart m ∧
      (∀ unmapped ∈ leaked.gone, s.Apart unmapped) ∧ m ∈ leaked.machine.memory.mappings := by
  have hstack : leaked.machine.altstacks mainThread = some ⟨0x7f0000013000, 65536⟩ := by
    decide
  have hmade : ⟨0x7f0000012000, 69632⟩ ∈ leaked.made := by decide
  have hinside : ¬(⟨0x7f0000013000, 65536⟩ : Mapping).Apart ⟨0x7f0000012000, 69632⟩ := by decide
  obtain ⟨hapart, hmapped⟩ := (stack_in_use_stays begins_cramped run_leaked).1 _ _ hstack
  exact ⟨by decide, by decide, _, _, hstack, hmade, hinside, hapart,
    (hmapped _ hmade).resolve_left hinside⟩

end Leaked

end Chain

end CrashCapture
