import CrashCapture.Proofs.Chain.Capture
import CrashCapture.Proofs.Chain.Transparency

namespace CrashCapture.Chain

variable {σ : Type}

/-- What may happen if others also save and restore: what they have saved may be the chain's own
handler. -/
inductive Turn (σ : Type)
  | move (m : Move σ)
  | putBack (signal : SignalNumber) (d : Disposition)

namespace Turn

def run : Turn σ → Machine σ → Machine σ
  | .move m, p => m.run p
  | .putBack signal d, p => p.setDisposition signal d

/-- Somebody else sets the disposition of a signal. -/
def Sets (signal : SignalNumber) : Turn σ → Prop
  | .move m => (m.set? signal).isSome
  | .putBack s _ => s = signal

end Turn

def runTurns (turns : List (Turn σ)) (p : Machine σ) : Machine σ :=
  turns.foldl (fun p t => t.run p) p

theorem runTurns_append (turns more : List (Turn σ)) (p : Machine σ) :
    runTurns (turns ++ more) p = runTurns more (runTurns turns p) := List.foldl_append

theorem runTurns_concat (turns : List (Turn σ)) (turn : Turn σ) (p : Machine σ) :
    runTurns (turns ++ [turn]) p = turn.run (runTurns turns p) := runTurns_append turns [turn] p

/-- Nothing that is remembered for a handled signal is the chain's own handler. -/
def RemembersOthers (p : Machine σ) : Prop :=
  ∀ c, p.chain = some c → ∀ s ∈ Descriptor.codes, (c.previous s).handler ≠ .chain

/-- No chain is attached, and its handler is in place all the same. -/
structure Stranded (p : Machine σ) (s : SignalNumber) : Prop where
  unattached : p.chain = none
  handled : s ∈ Descriptor.codes
  own : (p.dispositions s).handler = .chain

def Attaches (p : Machine σ) (handler : FaultHandler σ) : Prop :=
  ((attach handler).run p).1 = .ok ()

/-- The last that others have done about a signal was to put the chain's handler back while no chain
was attached. -/
def PutBackLate (p : Machine σ) (turns : List (Turn σ)) (s : SignalNumber) : Prop :=
  ∃ before d between, turns = before ++ .putBack s d :: between ∧
    d.handler = .chain ∧ s ∈ Descriptor.codes ∧ (runTurns before p).chain = none ∧
    ∀ t ∈ between, ¬t.Sets s

/-- After that, a chain is attached. -/
def Doubles (p : Machine σ) (turns : List (Turn σ)) : Prop :=
  ∃ first handler rest s, turns = first ++ .move (.attach handler) :: rest ∧
    PutBackLate p first s ∧ Attaches (runTurns first p) handler

variable {p : Machine σ}

theorem Doubles.append {turns : List (Turn σ)} (h : Doubles p turns) (more : List (Turn σ)) :
    Doubles p (turns ++ more) := by
  obtain ⟨first, handler, rest, s, rfl, hlate, hattaches⟩ := h
  exact ⟨first, handler, rest ++ more, s, by simp, hlate, hattaches⟩

theorem Doubles.of_take {turns : List (Turn σ)} {n : Nat} (h : Doubles p (turns.take n)) :
    Doubles p turns := by
  have happend := h.append (turns.drop n)
  rwa [List.take_append_drop] at happend

theorem PutBackLate.concat {turns : List (Turn σ)} {s : SignalNumber} (h : PutBackLate p turns s)
    {turn : Turn σ} (hother : ¬turn.Sets s) : PutBackLate p (turns ++ [turn]) s := by
  obtain ⟨before, d, between, rfl, hown, hcodes, hnone, hbetween⟩ := h
  refine ⟨before, d, between ++ [turn], by simp, hown, hcodes, hnone, fun t ht => ?_⟩
  rcases List.mem_append.1 ht with ht | ht
  · exact hbetween t ht
  · rw [List.mem_singleton.1 ht]
    exact hother

/-- What attaching does to the dispositions and the chain, in terms of whether it succeeds. -/
theorem run_attach (handler : FaultHandler σ) (p : Machine σ) :
    (¬Attaches p handler ∧ (Move.attach handler).run p = p) ∨
    (Attaches p handler ∧ p.chain = none ∧
      ∃ altstack, ((Move.attach handler).run p).chain = some ⟨p.dispositions, altstack, handler⟩) := by
  change (_ ∧ ((attach handler).run p).2 = p) ∨
    (_ ∧ _ ∧ ∃ altstack, ((attach handler).run p).2.chain = _)
  unfold Attaches
  rcases attach_cases handler p with ⟨e, hrun⟩ | ⟨hnone, altstack, p', hrun, hview⟩
  · rw [hrun]
    exact .inl ⟨nofun, rfl⟩
  · rw [hrun]
    exact .inr ⟨rfl, hnone, altstack, congrArg View.chain hview⟩

theorem setDisposition_chain (s : SignalNumber) (d : Disposition) (p : Machine σ) :
    (p.setDisposition s d).chain = p.chain :=
  congrArg View.chain (p.view_setDisposition s d)

theorem setDisposition_self (s : SignalNumber) (d : Disposition) (p : Machine σ) :
    (p.setDisposition s d).dispositions s = d := by
  have hset := congrArg (fun v => v.dispositions s) (p.view_setDisposition s d)
  simpa [Machine.view, Dispositions.set] using hset

theorem setDisposition_of_ne {s signal : SignalNumber} (h : s ≠ signal) (d : Disposition)
    (p : Machine σ) : (p.setDisposition signal d).dispositions s = p.dispositions s := by
  have hset := congrArg (fun v => v.dispositions s) (p.view_setDisposition signal d)
  simpa [Machine.view, Dispositions.set, h] using hset

/-- A chain that leaves its own handler behind was left it, or remembered it. -/
theorem stranded_run {turn : Turn σ} {s : SignalNumber} (hothers : RemembersOthers p)
    (h : Stranded (turn.run p) s) :
    (Stranded p s ∧ ¬turn.Sets s) ∨
      ∃ d, turn = .putBack s d ∧ d.handler = .chain ∧ p.chain = none := by
  obtain ⟨hnone, hcodes, hown⟩ := h
  cases turn with
  | move m =>
    left
    cases m with
    | attach handler =>
      rcases run_attach handler p with ⟨-, hsame⟩ | ⟨-, -, altstack, hsome⟩
      · change ((Move.attach handler).run p).chain = none at hnone
        change (((Move.attach handler).run p).dispositions s).handler = .chain at hown
        rw [hsame] at hnone hown
        exact ⟨⟨hnone, hcodes, hown⟩, Bool.false_ne_true⟩
      · exact absurd hnone (by simp [Turn.run, hsome])
    | detach =>
      change ((Chain.detach.run p).2.dispositions s).handler = .chain at hown
      cases hchain : p.chain with
      | none =>
        rw [detach_of_none hchain] at hown
        exact ⟨⟨hchain, hcodes, hown⟩, Bool.false_ne_true⟩
      | some c =>
        obtain ⟨hdisp, -, -⟩ := View.mk.inj (detach_of_some hchain)
        simp only [hdisp] at hown
        by_cases hkept : (p.dispositions s).handler = .chain
        · rw [if_pos ⟨hcodes, hkept⟩] at hown
          exact absurd hown (hothers c hchain s hcodes)
        · rw [if_neg fun h => hkept h.2] at hown
          exact absurd hown hkept
    | install signal d foreign =>
      change (p.setDisposition signal d).chain = none at hnone
      change ((p.setDisposition signal d).dispositions s).handler = .chain at hown
      rw [setDisposition_chain] at hnone
      by_cases hs : s = signal
      · rw [hs, setDisposition_self] at hown
        exact absurd hown foreign
      · rw [setDisposition_of_ne hs] at hown
        exact ⟨⟨hnone, hcodes, hown⟩, by simp [Turn.Sets, Move.set?, Ne.symm hs]⟩
    | elsewhere f keeps =>
      change (f p).chain = none at hnone
      change ((f p).dispositions s).handler = .chain at hown
      rw [(keeps p).2] at hnone
      rw [(keeps p).1] at hown
      exact ⟨⟨hnone, hcodes, hown⟩, Bool.false_ne_true⟩
  | putBack signal d =>
    change (p.setDisposition signal d).chain = none at hnone
    change ((p.setDisposition signal d).dispositions s).handler = .chain at hown
    rw [setDisposition_chain] at hnone
    by_cases hs : s = signal
    · subst hs
      rw [setDisposition_self] at hown
      exact .inr ⟨d, rfl, hown, hnone⟩
    · rw [setDisposition_of_ne hs] at hown
      exact .inl ⟨⟨hnone, hcodes, hown⟩, fun h => hs h.symm⟩

/-- Only attaching changes what is remembered. -/
theorem remembersOthers_run {turn : Turn σ} (hothers : RemembersOthers p)
    (hclear : ∀ handler, turn = .move (.attach handler) → Attaches p handler → ∀ s, ¬Stranded p s) :
    RemembersOthers (turn.run p) := by
  intro c hc s hs
  cases turn with
  | move m =>
    cases m with
    | attach handler =>
      rcases run_attach handler p with ⟨-, hsame⟩ | ⟨hattaches, hnone, altstack, hsome⟩
      · change ((Move.attach handler).run p).chain = some c at hc
        rw [hsame] at hc
        exact hothers c hc s hs
      · obtain rfl := Option.some.inj (hsome.symm.trans hc)
        exact fun hown => hclear handler rfl hattaches s ⟨hnone, hs, hown⟩
    | detach =>
      have hnone : (Chain.detach.run p).2.chain = none := chain_detach p
      exact absurd (hc.symm.trans hnone) nofun
    | install signal d foreign =>
      exact hothers c ((setDisposition_chain signal d p).symm.trans hc) s hs
    | elsewhere f keeps => exact hothers c ((keeps p).2.symm.trans hc) s hs
  | putBack signal d => exact hothers c ((setDisposition_chain signal d p).symm.trans hc) s hs

/-- As long as nobody has doubled the chain, its handler is stranded only where it was put back. -/
theorem remembersOthers_runTurns (start : p.chain = none)
    (foreign : ∀ s ∈ Descriptor.codes, (p.dispositions s).handler ≠ .chain) (turns : List (Turn σ))
    (h : ¬Doubles p turns) :
    RemembersOthers (runTurns turns p) ∧
      ∀ s, Stranded (runTurns turns p) s → PutBackLate p turns s := by
  induction turns using List.reverseRecOn with
  | nil =>
    refine ⟨fun c hc => ?_, fun s hs => absurd hs.own (foreign s hs.handled)⟩
    exact absurd (hc.symm.trans start) nofun
  | append_singleton turns turn ih =>
    obtain ⟨hothers, hlate⟩ := ih fun hdoubles => h (hdoubles.append [turn])
    rw [runTurns_concat]
    constructor
    · refine remembersOthers_run hothers fun handler hturn hattaches s hstranded => ?_
      exact h ⟨turns, handler, [], s, by rw [hturn], hlate s hstranded, hattaches⟩
    · intro s hstranded
      rcases stranded_run hothers hstranded with ⟨hbefore, hother⟩ | ⟨d, rfl, hown, hnone⟩
      · exact (hlate s hbefore).concat hother
      · exact ⟨turns, d, [], rfl, hown, hstranded.handled, hnone, by simp⟩

theorem not_remembersOthers_of_stranded {s : SignalNumber} (h : Stranded p s)
    {handler : FaultHandler σ} (hattaches : Attaches p handler) :
    ¬RemembersOthers ((Move.attach handler).run p) := by
  intro hothers
  rcases run_attach handler p with ⟨hnot, -⟩ | ⟨-, -, altstack, hsome⟩
  · exact hnot hattaches
  · exact hothers _ hsome s h.handled h.own

/-- A handler that is stranded stays so until it is replaced or a chain is attached. -/
theorem Stranded.run {s : SignalNumber} (h : Stranded p s) {turn : Turn σ} (hother : ¬turn.Sets s)
    (hnot : ∀ handler, turn = .move (.attach handler) → ¬Attaches p handler) :
    Stranded (turn.run p) s := by
  have kept : ∀ signal d, s ≠ signal → Stranded (p.setDisposition signal d) s := by
    intro signal d hs
    refine ⟨(setDisposition_chain signal d p).trans h.unattached, h.handled, ?_⟩
    rw [setDisposition_of_ne hs]
    exact h.own
  cases turn with
  | move m =>
    cases m with
    | attach handler =>
      rcases run_attach handler p with ⟨-, hsame⟩ | ⟨hattaches, -⟩
      · change Stranded ((Move.attach handler).run p) s
        rw [hsame]
        exact h
      · exact absurd hattaches (hnot handler rfl)
    | detach =>
      change Stranded (Chain.detach.run p).2 s
      rw [detach_of_none h.unattached]
      exact h
    | install signal d foreign =>
      exact kept signal d fun hs => hother (by simp [Turn.Sets, Move.set?, hs])
    | elsewhere f keeps =>
      exact ⟨(keeps p).2.trans h.unattached, h.handled,
        (congrArg (fun ds => (ds s).handler) (keeps p).1).trans h.own⟩
  | putBack signal d => exact kept signal d fun hs => hother hs.symm

theorem exists_not_remembersOthers {s : SignalNumber} (h : Stranded p s) (between : List (Turn σ))
    (hothers : ∀ t ∈ between, ¬t.Sets s) {handler : FaultHandler σ}
    (hattaches : Attaches (runTurns between p) handler) (rest : List (Turn σ)) :
    ∃ n, ¬RemembersOthers
      (runTurns ((between ++ .move (.attach handler) :: rest).take n) p) := by
  induction between generalizing p with
  | nil => exact ⟨1, not_remembersOthers_of_stranded h hattaches⟩
  | cons turn between ih =>
    by_cases hfirst : ∃ handler, turn = .move (.attach handler) ∧ Attaches p handler
    · obtain ⟨handler', rfl, hattaches'⟩ := hfirst
      exact ⟨1, not_remembersOthers_of_stranded h hattaches'⟩
    · have hstranded : Stranded (turn.run p) s := by
        refine h.run (hothers turn (by simp)) fun handler' hturn hattaches' => ?_
        exact hfirst ⟨handler', hturn, hattaches'⟩
      obtain ⟨n, hn⟩ := ih hstranded (fun t ht => hothers t (by simp [ht])) hattaches
      exact ⟨n + 1, hn⟩

/-- At all times what is remembered is not the chain's own, if and only if nobody doubles the
chain. -/
theorem remembersOthers_iff (start : p.chain = none)
    (foreign : ∀ s ∈ Descriptor.codes, (p.dispositions s).handler ≠ .chain)
    (turns : List (Turn σ)) :
    (∀ n, RemembersOthers (runTurns (turns.take n) p)) ↔ ¬Doubles p turns := by
  constructor
  · rintro hothers ⟨first, handler, rest, s, rfl, hlate, hattaches⟩
    obtain ⟨before, d, between, rfl, hown, hcodes, hnone, hbetween⟩ := hlate
    have hstranded : Stranded (runTurns (before ++ [.putBack s d]) p) s := by
      rw [runTurns_concat]
      refine ⟨(setDisposition_chain s d _).trans hnone, hcodes, ?_⟩
      change (((runTurns before p).setDisposition s d).dispositions s).handler = .chain
      rw [setDisposition_self]
      exact hown
    have hsplit : before ++ Turn.putBack s d :: between =
        (before ++ [Turn.putBack s d]) ++ between := by
      simp
    rw [hsplit, runTurns_append] at hattaches
    obtain ⟨n, hn⟩ := exists_not_remembersOthers hstranded between hbetween hattaches rest
    apply hn
    have htake := hothers ((before ++ [Turn.putBack s d]).length + n)
    rwa [hsplit, List.append_assoc, List.take_length_add_append, runTurns_append] at htake
  · intro hnot n
    exact (remembersOthers_runTurns start foreign _ fun h => hnot h.of_take).1

theorem previousFor?_handled (c : ChainState σ) {signal : SignalNumber}
    (h : signal ∈ Descriptor.codes) :
    ChainState.previousFor? c signal = some (c.previous signal) := by
  simp [ChainState.previousFor?, h]

theorem invokePreviousHandler_run (k : Kernel σ) {context : FaultContext} {c : ChainState σ}
    (hc : p.chain = some c) (hcodes : context.signal ∈ Descriptor.codes) :
    (invokePreviousHandler k context).run p =
      (invokePrevious k (c.previous context.signal) context).run (restoreAll c.previous p) := by
  unfold invokePreviousHandler
  rw [run_get, hc]
  dsimp only
  rw [previousFor?_handled c hcodes]
  rfl

theorem invokePrevious_own (k : Kernel σ) {d : Disposition} (h : d.handler = .chain)
    (hsiginfo : d.flags.siginfo) (context : FaultContext) :
    invokePrevious k d context = k.call .chain true context := by
  unfold invokePrevious
  rw [h, if_neg (by decide), if_pos hsiginfo]

/-- The handler is entered again each time that it is left, until there is no room on the stack. -/
theorem call_endless (room : Nat) {context : FaultContext} {c : ChainState σ}
    (hc : p.chain = some c) (hcodes : context.signal ∈ Descriptor.codes)
    (hown : (c.previous context.signal).handler = .chain)
    (hsiginfo : (c.previous context.signal).flags.siginfo)
    (hdetails : (p.dispositions context.signal).lostDetails = false) :
    ∃ r, ((Kernel.withRoom room).call .chain true context).run p = .error (.killed .segv) r := by
  induction room generalizing p with
  | zero => exact ⟨p, rfl⟩
  | succ room ih =>
    change ∃ r, (onSignal (Kernel.withRoom room) context).run p = _
    obtain ⟨hdisp, hchain, -⟩ := View.mk.inj (view_captured c context p)
    rw [onSignal_attached _ hc hdetails, previousFor?_handled c hcodes]
    dsimp only
    rw [invokePrevious_own _ hown hsiginfo]
    refine ih (hchain.trans hc) ?_
    simp only [hdisp, if_pos hcodes]
    simp [Disposition.lostDetails, hsiginfo]

/-- What is remembered is never the chain's own handler, if and only if nobody puts that handler back
late and has it found by the next chain. What is done for a signal in the end is what was remembered;
if that is the chain's own handler, it is entered again until the process is killed. -/
theorem remembers_others_unless_doubled (start : p.chain = none)
    (foreign : ∀ s ∈ Descriptor.codes, (p.dispositions s).handler ≠ .chain)
    (turns : List (Turn σ)) :
    let q := runTurns turns p
    ((∀ n, RemembersOthers (runTurns (turns.take n) p)) ↔ ¬Doubles p turns) ∧
    ∀ c, q.chain = some c → ∀ context, context.signal ∈ Descriptor.codes →
      (∀ k : Kernel σ, ∃ action, IsRemembered k (c.previous context.signal) context action ∧
        (invokePreviousHandler k context).run q = action.run (restoreAll c.previous q)) ∧
      ((c.previous context.signal).handler = .chain →
        (c.previous context.signal).flags.siginfo → ∀ room,
          ∃ r, (invokePreviousHandler (.withRoom room) context).run q =
            .error (.killed .segv) r) := by
  intro q
  refine ⟨remembersOthers_iff start foreign turns, fun c hc context hcodes => ⟨fun k => ?_, ?_⟩⟩
  · exact ⟨_, invokePrevious_remembered k _ context, invokePreviousHandler_run k hc hcodes⟩
  · intro hown hsiginfo room
    obtain ⟨hdisp, hchain, -⟩ := View.mk.inj (view_setAll Descriptor.codes c.previous q)
    rw [invokePreviousHandler_run _ hc hcodes, invokePrevious_own _ hown hsiginfo]
    refine call_endless room (hchain.trans hc) hcodes hown hsiginfo ?_
    change ((setAll Descriptor.codes c.previous q).dispositions context.signal).lostDetails = false
    simp only [hdisp, if_pos hcodes]
    simp [Disposition.lostDetails, hsiginfo]

/-- Somebody saves the disposition of a signal while a chain is attached and replaces it for a while.
When it is put back the chain is gone, and then there is another one. -/
def savedAndPutBack : List (Turn Unit) :=
  [.move (.attach fun _ => pure .invokePrevious),
    .move (.install .trap (someRoutine "newer") (someRoutine_foreign "newer")), .move .detach,
    .putBack .trap .chain,
    .move (.attach fun _ => pure .invokePrevious)]

theorem remembers_own_after_put_back :
    let p : Machine Unit := .initial () (.fresh ⟨[], []⟩) none ⟨0, 0⟩
    let q := runTurns savedAndPutBack p
    ¬(∀ n, RemembersOthers (runTurns (savedAndPutBack.take n) p)) ∧
      ∀ c, q.chain = some c → c.previous .trap = .chain →
        ∃ r, (invokePreviousHandler .system (.synthetic .trap)).run q =
          .error (.killed .segv) r := by
  intro p q
  obtain ⟨hiff, hinvoke⟩ := remembers_others_unless_doubled (p := p) rfl (by decide) savedAndPutBack
  constructor
  · rw [hiff, not_not]
    refine ⟨savedAndPutBack.take 4, _, [], .trap, rfl, ?_, by unfold Attaches; decide +kernel⟩
    exact ⟨savedAndPutBack.take 3, .chain, [], rfl, rfl, by decide, chain_detach _, by simp⟩
  · intro c hc hown
    refine (hinvoke c hc (.synthetic .trap) (by decide)).2 ?_ ?_ Kernel.stackRoom
    · exact congrArg Disposition.handler hown
    · exact congrArg (fun d => d.flags.siginfo) hown

end CrashCapture.Chain
