import CrashCapture.Proofs.Outcome
import CrashCapture.Unwind
import Mathlib.Data.List.TakeWhile

namespace CrashCapture.Unwind

/-- The frames of a fault: those from the first one at its instruction on, if there is one. -/
def faulted (stack : List UInt64) : Option UInt64 → List UInt64
  | some ip => if ip ∈ stack then stack.dropWhile (· ≠ ip) else stack
  | none => stack

/-- A buffer with as many frames at its start as fit, and how many these are. -/
def filled (frames buffer : List UInt64) : List UInt64 × Nat :=
  let count := min buffer.length frames.length
  (frames.take count ++ buffer.drop count, count)

/-- A walk that has started takes all frames that fit after those that are written. -/
theorem trace_started (startAt : Option UInt64) (frames written free : List UInt64) :
    trace startAt frames ⟨written ++ free, written.length, true⟩ =
      ⟨written ++ (filled frames free).1, written.length + (filled frames free).2, true⟩ := by
  -- For any amount that is written: each visit moves one entry of the buffer to it.
  induction frames generalizing written free with
  | nil => simp [trace, filled]
  | cons ip frames ih =>
    cases free with
    | nil => simp [trace, Walk.visit, filled]
    | cons old free =>
      have hvisit : Walk.visit startAt ⟨written ++ old :: free, written.length, true⟩ ip =
          (⟨(written ++ [ip]) ++ free, (written ++ [ip]).length, true⟩, true) := by
        simp [Walk.visit]
      rw [trace, hvisit]
      dsimp only
      rw [ih]
      simp [filled, Nat.succ_min_succ, Nat.add_right_comm, Nat.add_assoc]

/-- A walk that waits for a frame passes over the others. -/
theorem trace_waiting (ip : UInt64) (frames buffer : List UInt64) (count : Nat) :
    trace (some ip) frames ⟨buffer, count, false⟩ =
      trace (some ip) (frames.dropWhile (· ≠ ip)) ⟨buffer, count, false⟩ := by
  induction frames with
  | nil => rfl
  | cons other frames ih =>
    by_cases hfound : other = ip
    · simp [hfound]
    · have hvisit : Walk.visit (some ip) ⟨buffer, count, false⟩ other =
          (⟨buffer, count, false⟩, true) := by
        simp [Walk.visit, Ne.symm hfound]
      rw [trace, hvisit, List.dropWhile_cons_of_pos (by simpa using hfound)]
      exact ih

/-- At the frame that it waits for, a walk goes on as if it had started. -/
theorem trace_found (ip : UInt64) (frames buffer : List UInt64) (count : Nat) :
    trace (some ip) (ip :: frames) ⟨buffer, count, false⟩ =
      trace (some ip) (ip :: frames) ⟨buffer, count, true⟩ := by
  have hvisit : Walk.visit (some ip) ⟨buffer, count, false⟩ ip =
      Walk.visit (some ip) ⟨buffer, count, true⟩ ip := by
    simp [Walk.visit]
  rw [trace, trace, hvisit]

theorem trace_fresh (startAt : Option UInt64) (frames buffer : List UInt64) :
    trace startAt frames ⟨buffer, 0, true⟩ =
      ⟨(filled frames buffer).1, (filled frames buffer).2, true⟩ := by
  have htrace := trace_started startAt frames [] buffer
  simpa only [List.nil_append, List.length_nil, Nat.zero_add] using htrace

theorem walkStack_none (stack buffer : List UInt64) :
    walkStack stack buffer none = filled stack buffer := by
  rw [walkStack, Option.isNone_none, trace_fresh]

theorem walkStack_missing {ip : UInt64} {stack : List UInt64} (h : ip ∉ stack)
    (buffer : List UInt64) : walkStack stack buffer (some ip) = (buffer, 0) := by
  have hnone : stack.dropWhile (· ≠ ip) = [] := by
    rw [List.dropWhile_eq_nil_iff]
    exact fun other hother => decide_eq_true fun heq => h (heq ▸ hother)
  rw [walkStack, Option.isNone_some, trace_waiting, hnone]
  rfl

theorem dropWhile_first {ip : UInt64} {before : List UInt64} (h : ip ∉ before)
    (after : List UInt64) : (before ++ ip :: after).dropWhile (· ≠ ip) = ip :: after := by
  have hbefore : ∀ other ∈ before, decide (other ≠ ip) = true :=
    fun other hother => decide_eq_true fun heq => h (heq ▸ hother)
  rw [List.dropWhile_append_of_pos hbefore, List.dropWhile_cons_of_neg (by simp)]

theorem walkStack_found {ip : UInt64} {stack : List UInt64} (h : ip ∈ stack)
    (buffer : List UInt64) :
    walkStack stack buffer (some ip) = filled (stack.dropWhile (· ≠ ip)) buffer := by
  obtain ⟨before, after, rfl, hbefore⟩ := List.eq_append_cons_of_mem h
  rw [walkStack, Option.isNone_some, trace_waiting, dropWhile_first hbefore, trace_found,
    trace_fresh]

/-- A walk that starts at a frame of the stack writes at least that one, if there is any room. -/
theorem eq_nil_of_filled {ip : UInt64} {stack buffer : List UInt64} (h : ip ∈ stack)
    (hnothing : (filled (stack.dropWhile (· ≠ ip)) buffer).2 = 0) : buffer = [] := by
  obtain ⟨before, after, rfl, hbefore⟩ := List.eq_append_cons_of_mem h
  rw [dropWhile_first hbefore] at hnothing
  cases buffer with
  | nil => rfl
  | cons old buffer => simp [filled] at hnothing

theorem filled_nil (frames : List UInt64) : filled frames [] = ([], 0) := by
  simp [filled]

section

variable {stack buffer : List UInt64} {context : FaultContext} {ip : UInt64}

theorem currentStack_unknown (h : context.instructionPointer = none) :
    currentStack stack context buffer = walkStack stack buffer none := by
  rw [currentStack, currentStackBy, h]

theorem currentStack_first (h : context.instructionPointer = some ip)
    (hwritten : 0 < (walkStack stack buffer (some ip)).2) :
    currentStack stack context buffer = walkStack stack buffer (some ip) := by
  rw [currentStack, currentStackBy, h]
  exact if_pos hwritten

theorem currentStack_again (h : context.instructionPointer = some ip)
    (hnothing : (walkStack stack buffer (some ip)).2 = 0) :
    currentStack stack context buffer =
      walkStack stack (walkStack stack buffer (some ip)).1 none := by
  rw [currentStack, currentStackBy, h]
  exact if_neg hnothing.not_gt

end

theorem currentStack_eq (stack : List UInt64) (context : FaultContext) (buffer : List UInt64) :
    currentStack stack context buffer =
      filled (faulted stack context.instructionPointer) buffer := by
  cases hip : context.instructionPointer with
  | none => rw [currentStack_unknown hip, walkStack_none, faulted]
  | some ip =>
    by_cases hfound : ip ∈ stack
    · rw [faulted, if_pos hfound]
      rcases Nat.eq_zero_or_pos (walkStack stack buffer (some ip)).2 with hnothing | hwritten
      · rw [currentStack_again hip hnothing]
        rw [walkStack_found hfound] at hnothing ⊢
        -- the frame was found but not written, so there is no room for the second walk either
        obtain rfl := eq_nil_of_filled hfound hnothing
        rw [walkStack_none, filled_nil, filled_nil]
      · rw [currentStack_first hip hwritten, walkStack_found hfound]
    · have hnothing := walkStack_missing hfound buffer
      rw [faulted, if_neg hfound, currentStack_again hip (congrArg Prod.snd hnothing), hnothing,
        walkStack_none]

/-- A walk that is noted, with the frame that it waits for and how many frames it writes. -/
def notedWalk (stack buffer : List UInt64) (startAt : Option UInt64) :
    StateM (List (Option UInt64 × Nat)) (List UInt64 × Nat) := do
  let (written, count) := walkStack stack buffer startAt
  modify (· ++ [(startAt, count)])
  return (written, count)

theorem notedWalk_run (stack buffer : List UInt64) (startAt : Option UInt64)
    (walks : List (Option UInt64 × Nat)) :
    (notedWalk stack buffer startAt).run walks =
      (walkStack stack buffer startAt,
        walks ++ [(startAt, (walkStack stack buffer startAt).2)]) := rfl

theorem currentStackBy_notedWalk (stack : List UInt64) (context : FaultContext)
    (buffer : List UInt64) :
    ∃ walks,
      (currentStackBy (notedWalk stack) context buffer).run [] =
        (currentStack stack context buffer, walks) ∧
      (walks = [(context.instructionPointer, (currentStack stack context buffer).2)] ∨
        walks =
          [(context.instructionPointer, 0), (none, (currentStack stack context buffer).2)]) := by
  unfold currentStackBy
  cases hip : context.instructionPointer with
  | none =>
    rw [currentStack_unknown hip]
    exact ⟨_, notedWalk_run stack buffer none [], .inl rfl⟩
  | some ip =>
    dsimp only
    rw [stateM_run_bind (notedWalk_run stack buffer (some ip) [])]
    rcases Nat.eq_zero_or_pos (walkStack stack buffer (some ip)).2 with hnothing | hwritten
    · rw [currentStack_again hip hnothing, if_neg hnothing.not_gt, hnothing]
      exact ⟨_, notedWalk_run stack _ none _, .inr rfl⟩
    · rw [currentStack_first hip hwritten, if_pos hwritten]
      exact ⟨_, rfl, .inl rfl⟩

/-- All frames of a fault that fit are written to the start of the buffer, and nothing else is. When
the walks are noted, there are two only if the first one has written nothing. -/
theorem frames_from_fault (stack buffer : List UInt64) (context : FaultContext) :
    let frames := faulted stack context.instructionPointer
    let count := min buffer.length frames.length
    currentStack stack context buffer = (frames.take count ++ buffer.drop count, count) ∧
    currentStack stack context buffer =
      currentStackBy (m := Id) (walkStack stack) context buffer ∧
    ∃ walks,
      (currentStackBy (notedWalk stack) context buffer).run [] =
        (currentStack stack context buffer, walks) ∧
      (walks = [(context.instructionPointer, count)] ∨
        walks = [(context.instructionPointer, 0), (none, count)]) := by
  intro frames count
  have hstack : currentStack stack context buffer =
      (frames.take count ++ buffer.drop count, count) := currentStack_eq stack context buffer
  have hwalks := currentStackBy_notedWalk stack context buffer
  rw [congrArg Prod.snd hstack] at hwalks
  exact ⟨hstack, rfl, hwalks⟩

/-- In a recursion the first frame counts, and the end of the buffer stays as it was. -/
example : currentStack [1, 7, 7, 3] ⟨.segv, none, some 7⟩ [0, 0, 0, 9] = ([7, 7, 3, 9], 3) := by
  decide

end CrashCapture.Unwind
