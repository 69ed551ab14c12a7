import CrashCapture.Proofs.Chain.Dispositions
import CrashCapture.Proofs.Start
import Mathlib.Data.List.Induction

namespace CrashCapture.Chain

variable {σ : Type}

/-- What may happen as long as no signal is handled. Others set what they want to, but not the
chain's own handler. -/
inductive Move (σ : Type)
  | attach (handler : FaultHandler σ)
  | detach
  | install (signal : SignalNumber) (d : Disposition) (foreign : d.handler ≠ .chain)
  | elsewhere (f : Machine σ → Machine σ)
      (keeps : ∀ p, (f p).dispositions = p.dispositions ∧ (f p).chain = p.chain)

namespace Move

def run : Move σ → Machine σ → Machine σ
  | .attach handler, p => ((Chain.attach handler).run p).2
  | .detach, p => (Chain.detach.run p).2
  | .install signal d _, p => p.setDisposition signal d
  | .elsewhere f _, p => f p

def set? (signal : SignalNumber) : Move σ → Option Disposition
  | .install s d _ => if s = signal then some d else none
  | _ => none

end Move

def runMoves (moves : List (Move σ)) (p : Machine σ) : Machine σ :=
  moves.foldl (fun p m => m.run p) p

/-- The last disposition that somebody else has set, or else the initial one. -/
def lastSet (initial : Dispositions) (moves : List (Move σ)) : Dispositions := fun signal =>
  (moves.filterMap (Move.set? signal)).getLast?.getD (initial signal)

theorem runMoves_concat (moves : List (Move σ)) (move : Move σ) (p : Machine σ) :
    runMoves (moves ++ [move]) p = move.run (runMoves moves p) := by
  simp [runMoves]

theorem lastSet_concat (initial : Dispositions) (moves : List (Move σ)) (move : Move σ)
    (signal : SignalNumber) :
    lastSet initial (moves ++ [move]) signal =
      (move.set? signal).getD (lastSet initial moves signal) := by
  unfold lastSet
  rw [List.filterMap_append]
  cases h : move.set? signal <;> simp [h]

def IsOwn (p : Machine σ) (signal : SignalNumber) : Prop :=
  signal ∈ Descriptor.codes ∧ (p.dispositions signal).handler = .chain

/-- What others have set is in place, or remembered where the chain's handler is in its place. -/
def Transparent (set : Dispositions) (p : Machine σ) : Prop :=
  match p.chain with
  | none => p.dispositions = set
  | some c => ∀ signal,
      (IsOwn p signal → c.previous signal = set signal) ∧
      (¬IsOwn p signal → p.dispositions signal = set signal)

namespace Transparent

variable {set : Dispositions} {p : Machine σ}

theorem of_none (hnone : p.chain = none) : Transparent set p ↔ p.dispositions = set := by
  rw [Transparent, hnone]

theorem of_some {c : ChainState σ} (hsome : p.chain = some c) : Transparent set p ↔
    ∀ signal, (IsOwn p signal → c.previous signal = set signal) ∧
      (¬IsOwn p signal → p.dispositions signal = set signal) := by
  rw [Transparent, hsome]

theorem congr {q : Machine σ} (h : Transparent set p) (hdisp : q.dispositions = p.dispositions)
    (hchain : q.chain = p.chain) : Transparent set q := by
  unfold Transparent IsOwn at *
  rw [hchain, hdisp]
  exact h

/-- The chain's handler has been put in all of its places. -/
theorem of_installed {c : ChainState σ} (hsome : p.chain = some c)
    (hdisp : p.dispositions = fun s => if s ∈ Descriptor.codes then .chain else c.previous s) :
    Transparent c.previous p := by
  rw [of_some hsome]
  intro signal
  refine ⟨fun _ => rfl, fun hother => ?_⟩
  have hcodes : signal ∉ Descriptor.codes := by
    intro hmem
    exact hother ⟨hmem, by simp [hdisp, hmem, Disposition.chain]⟩
  simp [hdisp, hcodes]

theorem attach (h : Transparent set p) (handler : FaultHandler σ) :
    Transparent set ((Chain.attach handler).run p).2 := by
  rcases attach_cases handler p with ⟨e, hrun⟩ | ⟨hnone, altstack, q, hrun, hview⟩
  · rw [hrun]
    exact h
  · obtain ⟨hdisp, hchain, -⟩ := View.mk.inj hview
    rw [of_none hnone] at h
    rw [hrun, ← h]
    exact of_installed hchain hdisp

theorem detach (h : Transparent set p) : Transparent set (Chain.detach.run p).2 := by
  cases hchain : p.chain with
  | none =>
    rw [detach_of_none hchain]
    exact h
  | some c =>
    obtain ⟨hdisp, hnone, -⟩ := View.mk.inj (detach_of_some hchain)
    rw [of_some hchain] at h
    rw [of_none hnone, hdisp]
    funext signal
    by_cases hown : IsOwn p signal
    · rw [← (h signal).1 hown]
      exact if_pos hown
    · rw [← (h signal).2 hown]
      exact if_neg hown

theorem install (h : Transparent set p) (signal : SignalNumber) {d : Disposition}
    (foreign : d.handler ≠ .chain) :
    Transparent (set.set signal d) (p.setDisposition signal d) := by
  obtain ⟨hdisp, hchain, -⟩ := View.mk.inj (p.view_setDisposition signal d)
  cases hc : p.chain with
  | none =>
    rw [of_none hc] at h
    rw [of_none (hchain.trans hc), hdisp, h]
  | some c =>
    rw [of_some hc] at h
    rw [of_some (hchain.trans hc)]
    intro s
    by_cases hs : s = signal
    · subst hs
      have hother : ¬IsOwn (p.setDisposition s d) s := by
        rintro ⟨-, hown⟩
        rw [hdisp] at hown
        exact foreign (by simpa [Dispositions.set] using hown)
      refine ⟨fun hown => absurd hown hother, fun _ => ?_⟩
      simp [hdisp, Dispositions.set]
    · simpa [IsOwn, hdisp, Dispositions.set, hs] using h s

theorem run (h : Transparent set p) (move : Move σ) :
    Transparent (fun s => (move.set? s).getD (set s)) (move.run p) := by
  cases move with
  | attach handler => exact h.attach handler
  | detach => exact h.detach
  | install signal d foreign =>
    have hset : (fun s => ((Move.install signal d foreign : Move σ).set? s).getD (set s)) =
        set.set signal d := by
      funext s
      by_cases hs : s = signal
      · simp [Move.set?, Dispositions.set, hs]
      · simp [Move.set?, Dispositions.set, hs, Ne.symm hs]
    rw [hset]
    exact h.install signal foreign
  | elsewhere f keeps => exact h.congr (keeps p).1 (keeps p).2

theorem runMoves (h : Transparent set p) (moves : List (Move σ)) :
    Transparent (lastSet set moves) (runMoves moves p) := by
  induction moves using List.reverseRecOn with
  | nil => exact h
  | append_singleton moves move ih =>
    have hset : lastSet set (moves ++ [move]) =
        fun s => (move.set? s).getD (lastSet set moves s) :=
      funext (lastSet_concat set moves move)
    rw [runMoves_concat, hset]
    exact ih.run move

end Transparent

theorem chain_detach (p : Machine σ) : (detach.run p).2.chain = none := by
  cases hchain : p.chain with
  | none =>
    rw [detach_of_none hchain]
    exact hchain
  | some c => exact congrArg View.chain (detach_of_some hchain)

theorem detach_of_foreign {p : Machine σ} {signal : SignalNumber}
    (foreign : (p.dispositions signal).handler ≠ .chain) :
    (detach.run p).2.dispositions signal = p.dispositions signal := by
  cases hchain : p.chain with
  | none => rw [detach_of_none hchain]
  | some c =>
    obtain ⟨hdisp, -, -⟩ := View.mk.inj (detach_of_some hchain)
    rw [hdisp]
    exact if_neg fun hown => foreign hown.2

/-- While no chain is attached, the dispositions are the last ones that others have set, however
often chains were attached and detached. -/
theorem transparent (p : Machine σ) (start : p.chain = none) (moves : List (Move σ)) :
    let q := runMoves moves p
    (q.chain = none → ∀ signal, q.dispositions signal = lastSet p.dispositions moves signal) ∧
    (q.chain = none → ∀ handler,
      (detach.run ((attach handler).run q).2).2.dispositions = q.dispositions) ∧
    (∀ signal, (q.dispositions signal).handler ≠ .chain →
      (detach.run q).2.dispositions signal = q.dispositions signal) ∧
    (q.chain = none → detach.run q = ((), q)) ∧
    detach.run (detach.run q).2 = ((), (detach.run q).2) := by
  intro q
  have htransparent : Transparent (lastSet p.dispositions moves) q :=
    ((Transparent.of_none start).2 rfl).runMoves moves
  refine ⟨fun hnone signal => ?_, fun hnone handler => ?_, fun signal => detach_of_foreign,
    detach_of_none, detach_of_none (chain_detach q)⟩
  · rw [(Transparent.of_none hnone).1 htransparent]
  · have hboth := (((Transparent.of_none hnone).2 rfl).attach handler).detach
    exact (Transparent.of_none (chain_detach _)).1 hboth

/-- A handler of somebody else, for the examples. -/
def someRoutine (name : String) : Disposition := ⟨.other ⟨name, true, .returns⟩, .none, []⟩

theorem someRoutine_foreign (name : String) : (someRoutine name).handler ≠ .chain := nofun

def threeMoves : List (Move Unit) :=
  [.attach fun _ => pure .invokePrevious, .install .abrt (someRoutine "newer") nofun, .detach]

/-- One handler is set before the chain is attached, and one is set after that. -/
theorem transparent_three :
    let p := (Machine.initial () (.fresh ⟨[], []⟩) none ⟨0, 0⟩).setDisposition .segv
      (someRoutine "older")
    (runMoves threeMoves p).dispositions .segv = someRoutine "older" ∧
      (runMoves threeMoves p).dispositions .abrt = someRoutine "newer" := by
  intro p
  have hnone : p.chain = none := rfl
  have hlast : (runMoves threeMoves p).chain = none := chain_detach _
  have hset := (transparent p hnone threeMoves).1 hlast
  rw [hset, hset]
  exact ⟨rfl, rfl⟩

end CrashCapture.Chain
