import CrashCapture.Proofs.Chain.Capture

namespace CrashCapture

variable {σ : Type}

/-- A client beside which the attaching of chains and the faults they are told of are counted. -/
structure Tallied (σ : Type) where
  inner : σ
  attached : Nat
  faults : List SignalNumber

def FaultHandler.tallied (handler : FaultHandler σ) : FaultHandler (Tallied σ) := fun context s =>
  let (action, inner) := (handler context).run ⟨s.host.inner, s.env⟩
  (action, ⟨⟨inner.host, s.host.attached, s.host.faults ++ [context.signal]⟩, inner.env⟩)

/-- A handler that the client takes no notice of. -/
def FaultHandler.Quiet (handler : FaultHandler σ) : Prop :=
  ∀ context s, ((handler context).run s).2.host = s.host

theorem FaultHandler.quiet_recording (name : String) (action : ChainAction) (walks : Bool) :
    (recording name action walks : FaultHandler σ).Quiet := fun _ _ => rfl

namespace Chain

theorem attached_withstands (c : ChainState σ) :
    Kernel.Withstands False (fun v => v.chain = some c) fun _ _ => True where
  set := fun _ _ _ _ _ h => h
  attached := False.elim
  attach := by
    intro v altstack hnone h
    rw [h] at hnone
    cases hnone
  deliver := fun room hk s p _ _ _ h =>
    Kernel.runHandler_upheld hk (fun _ _ _ _ _ h => h) (fun _ _ _ => trivial) False.elim
      False.elim h
  handle := by
    intro k hk context p _ _ h
    cases hdetails : (p.dispositions context.signal).lostDetails with
    | true =>
      rw [onSignal_lost k hdetails]
      refine .ok ?_ False.elim
      rw [Machine.view_setDisposition]
      exact h
    | false =>
      have hcaptured : (captured c context p).view.chain = some c := by
        rw [view_captured]
        exact h
      have hraise := raiseDefault_upholds hk (fun _ _ _ _ h => h) context.signal
      rw [onSignal_attached k h hdetails]
      cases ChainState.previousFor? c context.signal with
      | none => exact (hraise _ False.elim hcaptured).from False.elim
      | some d =>
        exact (invokePrevious_upholds hk (fun _ _ _ => trivial) _ False.elim hcaptured).from
          False.elim

/-- Nothing has happened to the handled signals: the same chain is attached, and what is in place
for them is the same. -/
structure Calm (c : ChainState σ) (ds : Dispositions) (host : σ) (v : View σ) : Prop where
  chain : v.chain = some c
  host : v.host = host
  handled : ∀ s ∈ Descriptor.codes, v.dispositions s = ds s
  others : ∀ s ∉ Descriptor.codes, (v.dispositions s).handler ≠ .chain

/-- While all handled signals are blocked, nothing happens to them. -/
theorem calm_withstands (c : ChainState σ) (ds : Dispositions) (host : σ) :
    Kernel.Withstands True (Calm c ds host) fun _ _ => False where
  set := by
    intro v s d hs hd h
    refine ⟨h.chain, h.host, fun s' hs' => ?_, fun s' hs' => ?_⟩
    · have hne : s' ≠ s := fun heq => hs trivial (heq ▸ hs')
      simpa [Dispositions.set, hne] using h.handled s' hs'
    · by_cases heq : s' = s
      · simpa [Dispositions.set, heq] using hd
      · simpa [Dispositions.set, heq] using h.others s' hs'
  attached := by
    intro _ v h hnone
    rw [h.chain] at hnone
    cases hnone
  attach := by
    intro v altstack hnone h
    rw [h.chain] at hnone
    cases hnone
  deliver := by
    intro room hk s p hown _ hs h
    exact absurd hown (h.others s (hs trivial))
  handle := fun _ _ _ _ hready => hready.elim

/-- A chain is attached, but its handler is in place for no signal. -/
structure Spent (Q : ChainState σ → σ → Prop) (v : View σ) : Prop where
  attached : ∃ c, v.chain = some c ∧ Q c v.host
  foreign : ∀ s, (v.dispositions s).handler ≠ .chain

theorem own_of_set {ds : Dispositions} {s s' : SignalNumber} {d : Disposition}
    (hd : d.handler ≠ .chain) (hown : (ds.set s d s').handler = .chain) :
    (ds s').handler = .chain ∧ ds.set s d s' = ds s' := by
  by_cases heq : s' = s
  · exact absurd (by simpa [Dispositions.set, heq] using hown) hd
  · have hsame : ds.set s d s' = ds s' := by simp [Dispositions.set, heq]
    exact ⟨hsame ▸ hown, hsame⟩

theorem set_foreign {ds : Dispositions} {s : SignalNumber} {d : Disposition}
    (hds : ∀ s, (ds s).handler ≠ .chain) (hd : d.handler ≠ .chain) (s' : SignalNumber) :
    (ds.set s d s').handler ≠ .chain := fun hown => hds s' (own_of_set hd hown).1

theorem spent_withstands (Q : ChainState σ → σ → Prop) :
    Kernel.Withstands False (Spent Q) fun _ _ => False where
  set := fun _ _ _ _ hd h => ⟨h.attached, set_foreign h.foreign hd⟩
  attached := False.elim
  attach := by
    intro v altstack hnone h
    obtain ⟨c, hc, -⟩ := h.attached
    rw [hc] at hnone
    cases hnone
  deliver := fun _ _ s _ hown _ _ h => absurd hown (h.foreign s)
  handle := fun _ _ _ _ hready => hready.elim

/-- What is so at all times: the chain's handler is in place only as the attached chain has
installed it, and there is an attaching for every fault that was captured or may be. -/
structure Sound (v : View (Tallied σ)) : Prop where
  others : ∀ s ∉ Descriptor.codes, (v.dispositions s).handler ≠ .chain
  whole : ∀ s, (v.dispositions s).handler = .chain → v.dispositions s = .chain
  unattached : v.chain = none → ∀ s, (v.dispositions s).handler ≠ .chain
  previous : ∀ c, v.chain = some c → ∀ s, (c.previous s).handler ≠ .chain
  handler : ∀ c, v.chain = some c → c.handler.Quiet ∨ ∃ handler, c.handler = .tallied handler
  bound : v.host.faults.length ≤ v.host.attached
  armed : ∀ c, v.chain = some c → c.handler.Quiet ∨
    (∀ s, (v.dispositions s).handler ≠ .chain) ∨ v.host.faults.length < v.host.attached

/-- At most one fault was captured since, and then the chain's handler is in place for no signal. -/
def Since (faults : List SignalNumber) (v : View (Tallied σ)) : Prop :=
  v.host.faults = faults ∨
    ∃ s ∈ Descriptor.codes, v.host.faults = faults ++ [s] ∧ v.chain ≠ none ∧
      ∀ s, (v.dispositions s).handler ≠ .chain

def Ready (s : SignalNumber) (v : View σ) : Prop :=
  v.chain ≠ none → (v.dispositions s).handler = .chain

namespace Sound

variable {v : View (Tallied σ)} {faults : List SignalNumber}

theorem mem_codes (h : Sound v) {s : SignalNumber} (hown : (v.dispositions s).handler = .chain) :
    s ∈ Descriptor.codes := Decidable.byContradiction fun hs => h.others s hs hown

theorem set (h : Sound v) {s : SignalNumber} {d : Disposition} (hd : d.handler ≠ .chain) :
    Sound ⟨v.dispositions.set s d, v.chain, v.host⟩ where
  others s' hs' := fun hown => h.others s' hs' (own_of_set hd hown).1
  whole s' hown := (own_of_set hd hown).2.trans (h.whole s' (own_of_set hd hown).1)
  unattached hnone := set_foreign (h.unattached hnone) hd
  previous := h.previous
  handler := h.handler
  bound := h.bound
  armed c hc := by
    rcases h.armed c hc with hquiet | hforeign | hlt
    · exact .inl hquiet
    · exact .inr (.inl (set_foreign hforeign hd))
    · exact .inr (.inr hlt)

/-- Attaching remembers nothing of the chain's own. A handler that is told of counts. -/
theorem attach (h : Sound v) (hnone : v.chain = none) (altstack : Option SignalStack)
    {handler : FaultHandler (Tallied σ)} {host : Tallied σ}
    (hfaults : host.faults = v.host.faults)
    (hcounts : handler.Quiet ∧ host.attached = v.host.attached ∨
      (∃ h, handler = .tallied h) ∧ host.attached = v.host.attached + 1) :
    Sound ⟨fun s => if s ∈ Descriptor.codes then .chain else v.dispositions s,
      some ⟨v.dispositions, altstack, handler⟩, host⟩ where
  others s hs := by
    dsimp only
    rw [if_neg hs]
    exact h.others s hs
  whole s hown := by
    dsimp only at hown ⊢
    split
    · rfl
    · next hs =>
      rw [if_neg hs] at hown
      exact h.whole s hown
  unattached := nofun
  previous c hc := by
    cases hc
    exact h.unattached hnone
  handler c hc := by
    cases hc
    rcases hcounts with ⟨hquiet, -⟩ | ⟨htallied, -⟩
    · exact .inl hquiet
    · exact .inr htallied
  bound := by
    have hbound := h.bound
    dsimp only
    rcases hcounts with ⟨-, hattached⟩ | ⟨-, hattached⟩ <;> rw [hfaults, hattached] <;> omega
  armed c hc := by
    cases hc
    rcases hcounts with ⟨hquiet, -⟩ | ⟨-, hattached⟩
    · exact .inl hquiet
    · have hbound := h.bound
      refine .inr (.inr ?_)
      dsimp only
      rw [hfaults, hattached]
      omega

theorem detach (h : Sound v) {c : ChainState (Tallied σ)} (hc : v.chain = some c) :
    Sound ⟨fun s =>
      if s ∈ Descriptor.codes ∧ (v.dispositions s).handler = .chain then c.previous s
      else v.dispositions s, none, v.host⟩ := by
  have hforeign : ∀ s, (if s ∈ Descriptor.codes ∧ (v.dispositions s).handler = .chain
      then c.previous s else v.dispositions s).handler ≠ .chain := by
    intro s
    by_cases hown : s ∈ Descriptor.codes ∧ (v.dispositions s).handler = .chain
    · rw [if_pos hown]
      exact h.previous c hc s
    · rw [if_neg hown]
      intro hchain
      exact hown ⟨h.mem_codes hchain, hchain⟩
  exact ⟨fun s _ => hforeign s, fun s hown => absurd hown (hforeign s), fun _ => hforeign, nofun,
    nofun, h.bound, nofun⟩

theorem since_set (h : Since faults v) {s : SignalNumber} {d : Disposition}
    (hd : d.handler ≠ .chain) : Since faults ⟨v.dispositions.set s d, v.chain, v.host⟩ := by
  rcases h with h | ⟨s', hs', hfaults, hchain, hforeign⟩
  · exact .inl h
  · exact .inr ⟨s', hs', hfaults, hchain, set_foreign hforeign hd⟩

/-- A fault is captured: what was remembered is in place again, and the fault was counted. -/
theorem captured (h : Sound v) (hsince : Since faults v) {c : ChainState (Tallied σ)}
    (hc : v.chain = some c) {context : FaultContext} {env : Environment}
    (hown : (v.dispositions context.signal).handler = .chain) :
    let v' : View (Tallied σ) :=
      ⟨fun s => if s ∈ Descriptor.codes then c.previous s else v.dispositions s, v.chain,
        ((c.handler context).run ⟨v.host, env⟩).2.host⟩
    Sound v' ∧ Since faults v' := by
  intro v'
  have hcodes := h.mem_codes hown
  have hforeign : ∀ s, (v'.dispositions s).handler ≠ .chain :=
    restored_foreign (h.previous c hc) h.others
  have hfaults : v.host.faults = faults := by
    rcases hsince with hfaults | ⟨s, -, -, -, hnone⟩
    · exact hfaults
    · exact absurd hown (hnone context.signal)
  have hhost : v'.host = v.host ∨
      v'.host.faults = v.host.faults ++ [context.signal] ∧
        v'.host.attached = v.host.attached ∧ v.host.faults.length < v.host.attached := by
    rcases h.armed c hc with hquiet | hnone | hlt
    · exact .inl (hquiet context _)
    · exact absurd hown (hnone context.signal)
    · rcases h.handler c hc with hquiet | ⟨handler, hhandler⟩
      · exact .inl (hquiet context _)
      · right
        simp only [v', hhandler]
        exact ⟨rfl, rfl, hlt⟩
  have hbound : v'.host.faults.length ≤ v'.host.attached := by
    rcases hhost with hsame | ⟨hadded, hattached, hlt⟩
    · rw [hsame]
      exact h.bound
    · rw [hadded, hattached, List.length_append, List.length_singleton]
      exact hlt
  refine ⟨⟨fun s _ => hforeign s, fun s hs => absurd hs (hforeign s), fun _ => hforeign, h.previous,
    h.handler, hbound, fun _ _ => .inr (.inl hforeign)⟩, ?_⟩
  rcases hhost with hsame | ⟨hadded, -, -⟩
  · exact .inl (by rw [hsame, hfaults])
  · refine .inr ⟨context.signal, hcodes, by rw [hadded, hfaults], ?_, hforeign⟩
    change v.chain ≠ none
    rw [hc]
    exact nofun

end Sound

/-- The chain's handler is entered, and nothing else happens to the handled signals before that. -/
theorem settle_calm (room : Nat) (signal : SignalNumber) {p : Machine σ} {c : ChainState σ}
    (hc : p.chain = some c)
    (hothers : ∀ s ∉ Descriptor.codes, (p.dispositions s).handler ≠ .chain) :
    Upheld True (Calm c p.dispositions p.site.host)
      (Kernel.enter signal .chain p.site.env.stack p)
      ((Kernel.withRoom room).settle.run (Kernel.enter signal .chain p.site.env.stack p)) :=
  (Kernel.withRoom_reliable (calm_withstands c p.dispositions p.site.host) room).settle _
    (fun _ => Kernel.masked_enter_chain signal _ p) ⟨hc, rfl, fun _ _ => rfl, hothers⟩

variable {faults : List SignalNumber}

theorem sound_handle {k : Kernel (Tallied σ)}
    (hk : k.Reliable False (fun v => Sound v ∧ Since faults v) Ready) {context : FaultContext}
    {p : Machine (Tallied σ)} (hready : Ready context.signal p.view)
    (h : Sound p.view ∧ Since faults p.view) :
    Upheld False (fun v => Sound v ∧ Since faults v) p ((onSignal k context).run p) := by
  have hraise := raiseDefault_upholds hk
    (fun v s d hd h => ⟨h.1.set hd, Sound.since_set h.2 hd⟩) context.signal
  cases hc : p.chain with
  | none =>
    have hforeign := h.1.unattached hc context.signal
    have hdetails : (p.dispositions context.signal).lostDetails = false := by
      simp only [Disposition.lostDetails, Bool.and_eq_false_imp, decide_eq_true_eq]
      exact fun hown => absurd hown hforeign
    rw [onSignal_unattached k hc hdetails]
    exact (hraise (closed (opened p)) False.elim h).from False.elim
  | some c =>
    have hown : (p.dispositions context.signal).handler = .chain :=
      hready (by simp [Machine.view, hc])
    have hdetails : (p.dispositions context.signal).lostDetails = false := by
      have hwhole : p.dispositions context.signal = .chain := h.1.whole _ hown
      rw [hwhole, lostDetails_chain]
    have hcaptured :
        Sound (captured c context p).view ∧ Since faults (captured c context p).view := by
      rw [view_captured]
      exact h.1.captured h.2 hc hown
    rw [onSignal_attached k hc hdetails]
    cases hprevious : ChainState.previousFor? c context.signal with
    | none => exact (hraise _ False.elim hcaptured).from False.elim
    | some d =>
      have hd : d.handler ≠ .chain := by
        unfold ChainState.previousFor? at hprevious
        split at hprevious
        · cases hprevious
          exact h.1.previous c hc _
        · cases hprevious
      exact (invokePrevious_upholds hk (fun h => absurd h hd) _ False.elim hcaptured).from
        False.elim

theorem sound_deliver {room : Nat}
    (hk : (Kernel.withRoom room).Reliable False
      (fun v : View (Tallied σ) => Sound v ∧ Since faults v) Ready)
    {signal : SignalNumber} {p : Machine (Tallied σ)}
    (hown : (p.dispositions signal).handler = .chain) (h : Sound p.view ∧ Since faults p.view) :
    Upheld False (fun v => Sound v ∧ Since faults v) p
      ((Kernel.runHandler (.withRoom room) signal (p.dispositions signal)).run p) := by
  have hwhole : p.dispositions signal = .chain := h.1.whole signal hown
  cases hc : p.chain with
  | none => exact absurd hown (h.1.unattached hc signal)
  | some c =>
    have hreset : Kernel.reset signal .chain p = p := rfl
    rw [hwhole, Kernel.runHandler_run, hreset]
    refine (hk.settle (Kernel.enter signal .chain p.site.env.stack p) False.elim h).bind
      fun _ p₁ hrun hview₁ _ => ?_
    have hcalm : Calm c p.dispositions p.site.host p₁.view := by
      have hsettled := (settle_calm room signal hc h.1.others).view
      rw [hrun] at hsettled
      exact hsettled
    have hready : Ready signal p₁.view := fun _ =>
      (congrArg Disposition.handler (hcalm.handled signal (h.1.mem_codes hown))).trans hown
    refine (hk.call .chain true _ p₁ (fun _ => hready) False.elim hview₁).bind
      fun _ p₂ _ hview₂ _ => ?_
    rw [run_modify]
    exact (hk.settle (Kernel.leave p p₂) False.elim hview₂).from False.elim

/-- Whatever is delivered, there is an attaching for every fault that is captured, and at most one
is captured before the chain's handler is in place for no signal. -/
theorem sound_withstands (faults : List SignalNumber) :
    Kernel.Withstands False (fun v : View (Tallied σ) => Sound v ∧ Since faults v) Ready where
  set := fun _ _ _ _ hd h => ⟨h.1.set hd, Sound.since_set h.2 hd⟩
  attached := False.elim
  attach := by
    rintro v altstack hnone ⟨h, hsince⟩
    refine ⟨h.attach hnone altstack rfl (.inl ⟨FaultHandler.quiet_recording _ _ _, rfl⟩), ?_⟩
    rcases hsince with hfaults | ⟨-, -, -, hsome, -⟩
    · exact .inl hfaults
    · exact absurd hnone hsome
  deliver := fun _ hk _ _ hown _ _ h => sound_deliver hk hown h
  handle := fun _ hk _ _ hready _ h => sound_handle hk hready h

end Chain

end CrashCapture
