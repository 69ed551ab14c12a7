import CrashCapture.Proofs.RunFiles.Breadcrumbs
import Mathlib.Algebra.Ring.Parity

namespace CrashCapture.RunFiles

/-- The place of a breadcrumb in the rotation, by division. -/
def placeOf (size count : Nat) : Target where
  inSecond := Odd (count / size)
  starts := size ∣ count

theorem limit_eq : Word.limit = 2 ^ 63 * 2 := rfl

theorem targetOf?_eq_none_iff {count size : Nat} : targetOf? count size = none ↔ 2 ^ 63 ≤ size := by
  have hlimit := limit_eq
  unfold targetOf? Word.mul? Word.fit?
  split
  · next hfits =>
    refine iff_of_false (by simp) ?_
    omega
  · next hlarge =>
    refine iff_of_true rfl ?_
    omega

theorem targetOf?_eq_place {count size : Nat} (hsize : 0 < size) (hfits : size < 2 ^ 63) :
    targetOf? count size = some (placeOf size count) := by
  cases h : targetOf? count size with
  | none =>
    have hlarge := targetOf?_eq_none_iff.1 h
    omega
  | some target =>
    have hodd : inSecond size count = decide (Odd (count / size)) := by
      simp only [inSecond, Nat.odd_iff]
    have hstarts : decide (count % size = 0) = decide (size ∣ count) := by
      simp only [Nat.dvd_iff_mod_eq_zero]
    rw [targetOf?_eq hsize h, placeOf, hodd, hstarts]

/-- A breadcrumb is counted before its place is found, so it counts even if that overflows. -/
theorem next_eq {f : RunFiles} (hmax : 0 < f.max) (hcount : f.count + 1 < Word.limit) :
    f.next = ({ f with count := f.count + 1 },
      if f.max < 2 ^ 63 then some (placeOf f.max f.count) else none) := by
  have hcounted : Word.add? f.count 1 = some (f.count + 1) := by
    rw [Word.add?, Word.fit?, if_pos hcount]
  rw [next, hcounted]
  dsimp only
  split
  · next hfits => rw [targetOf?_eq_place hmax hfits]
  · next hlarge => rw [targetOf?_eq_none_iff.2 (Nat.le_of_not_lt hlarge)]

section

variable {σ : Type} [Host σ] {f f' f₀ : RunFiles} {breadcrumb : Json} {s s' : Site σ}
  {outcome : Except Breach Unit}

/-- Adding overflows where finding the place does, whatever becomes of the files. -/
theorem overflow_iff_next (added : (f.add breadcrumb).run s = ((f', outcome), s')) :
    outcome = .error .overflow ↔ f.next.2 = none := by
  rcases hnext : f.next with ⟨f₁, none | target⟩
  · rw [add_overflow hnext] at added
    cases added
    exact iff_of_true rfl rfl
  · refine iff_of_false ?_ (Option.some_ne_none target)
    rcases hencode : (Host.encode breadcrumb).run s with ⟨bytes, s₁⟩
    by_cases hempty : bytes = []
    · subst hempty
      obtain ⟨s₂, hrun, -⟩ := add_skipped hnext hencode
      rw [hrun] at added
      cases added
      exact nofun
    · rw [add_recorded hnext hencode hempty] at added
      split at added
      all_goals
        cases added
        exact nofun

/-- Breadcrumbs are added one after the other, with these outcomes, the latest first. In between
anything may become of the files and of the client. -/
inductive Adds (σ : Type) [Host σ] (f₀ : RunFiles) : List (Except Breach Unit) → RunFiles → Prop
  | none : Adds σ f₀ [] f₀
  | add {outcomes : List (Except Breach Unit)} {f f' : RunFiles} {breadcrumb : Json} {s s' : Site σ}
      {outcome : Except Breach Unit} (before : Adds σ f₀ outcomes f)
      (added : (f.add breadcrumb).run s = ((f', outcome), s')) : Adds σ f₀ (outcome :: outcomes) f'

theorem step_add (hmax : 0 < f.max) (hcount : f.count + 1 < Word.limit)
    (added : (f.add breadcrumb).run s = ((f', outcome), s')) :
    f' = { f with count := f.count + 1 } ∧ (outcome = .error .overflow ↔ 2 ^ 63 ≤ f.max) := by
  have hnext := next_eq hmax hcount
  constructor
  · have hadd := add_next f breadcrumb s
    rw [added, hnext] at hadd
    exact hadd
  · rw [overflow_iff_next added, hnext]
    simp

theorem Adds.counted {outcomes : List (Except Breach Unit)} (adds : Adds σ f₀ outcomes f)
    (hstart : f₀.count = 0) (hmax : 0 < f₀.max) (hfits : outcomes.length < Word.limit) :
    f = { f₀ with count := outcomes.length } ∧
      ∀ outcome ∈ outcomes, outcome = .error .overflow ↔ 2 ^ 63 ≤ f₀.max := by
  -- A call that overflows has counted its breadcrumb before, so the count is that of all calls.
  induction adds with
  | none =>
    refine ⟨?_, by simp⟩
    rw [List.length_nil, ← hstart]
  | @add outcomes _ _ _ _ _ _ before added ih =>
    rw [List.length_cons] at hfits
    obtain ⟨rfl, hbefore⟩ := ih (Nat.lt_of_succ_lt hfits)
    have hstep := step_add (f := { f₀ with count := outcomes.length }) hmax hfits added
    refine ⟨hstep.1, fun outcome hmem => ?_⟩
    rcases List.mem_cons.1 hmem with rfl | hmem
    · exact hstep.2
    · exact hbefore outcome hmem

end

section

variable {σ : Type} [Host σ] {runPath : Path} {m : Nat} {t t' : FileTree} {f f₀ : RunFiles}

/-- Finding the place of a breadcrumb never divides by zero. It is total, and adding breadcrumbs never
overflows, if and only if the configured size of a block is less than half of what a word holds. -/
theorem rotation_total_iff (created : (create runPath m).run t = .ok f₀ t')
    {outcomes : List (Except Breach Unit)} (adds : Adds σ f₀ outcomes f)
    (hfits : outcomes.length + 1 < Word.limit) :
    let size := Max.max m 1
    f₀.max = size ∧ 0 < size ∧ f.count = outcomes.length ∧
    (∀ n, n + 1 < Word.limit → RunFiles.next { f with count := n } =
      ({ f with count := n + 1 }, if m < 2 ^ 63 then some (placeOf size n) else none)) ∧
    (∀ outcome ∈ outcomes, outcome = .error .overflow ↔ 2 ^ 63 ≤ m) ∧
    ∀ breadcrumb (s : Site σ), ((f.add breadcrumb).run s).1.1.count = outcomes.length + 1 ∧
      (((f.add breadcrumb).run s).1.2 = .error .overflow ↔ 2 ^ 63 ≤ m) := by
  intro size
  have hsize : 0 < size := Nat.lt_of_lt_of_le Nat.one_pos (Nat.le_max_right m 1)
  have hlarge : 2 ^ 63 ≤ size ↔ 2 ^ 63 ≤ m := by omega
  obtain ⟨rfl, -⟩ := create_grew created
  obtain ⟨rfl, houtcomes⟩ := adds.counted rfl hsize (Nat.lt_of_succ_lt hfits)
  refine ⟨rfl, hsize, rfl, fun n hn => ?_, ?_, fun breadcrumb s => ?_⟩
  · have hsmall : (inside runPath m).max < 2 ^ 63 ↔ m < 2 ^ 63 := by
      rw [← Nat.not_le, ← Nat.not_le]
      exact not_congr hlarge
    have hnext := next_eq (f := { inside runPath m with count := n }) hsize hn
    simp only [hsmall] at hnext
    exact hnext
  · intro outcome hmem
    exact (houtcomes outcome hmem).trans hlarge
  · rcases hadd : (add { inside runPath m with count := outcomes.length } breadcrumb).run s with
      ⟨⟨f', outcome⟩, s'⟩
    obtain ⟨rfl, hoverflow⟩ := step_add hsize hfits hadd
    exact ⟨rfl, hoverflow.trans hlarge⟩

/-- With the largest size that can be configured the first breadcrumb overflows, and so does the
second one. -/
theorem rotation_total_iff_largest :
    (create "run" (2 ^ 64 - 1)).run emptyRun = .ok (inside "run" (2 ^ 64 - 1)) madeRun ∧
    ((add (inside "run" (2 ^ 64 - 1)) .null).run (recording madeRun)).1.2 = .error .overflow := by
  have created : (create "run" (2 ^ 64 - 1)).run emptyRun =
      .ok (inside "run" (2 ^ 64 - 1)) madeRun := by
    decide +kernel
  obtain ⟨-, -, -, -, -, hadd⟩ :=
    rotation_total_iff (σ := RecordingHost) created .none (by decide)
  exact ⟨created, (hadd .null (recording madeRun)).2.2 (by decide)⟩

end

end CrashCapture.RunFiles
