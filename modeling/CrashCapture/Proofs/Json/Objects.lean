import CrashCapture.Proofs.Json.Skipping

namespace CrashCapture.Json

variable {α : Type} {step : α → String → Bytes → Decode (α × Bytes)} {fuel : Nat} {state : α}
  {ws bs rest : Bytes}

theorem foldMembers_name (step : α → String → Bytes → Decode (α × Bytes)) {key : String}
    {name : Bytes} (nameText : NameText key name) :
    ∃ after colon, Blanks after ∧ Blanks colon ∧ ∀ fuel state text,
      foldMembers step (fuel + 1) true state (name ++ text) =
        step state key (after ++ 58 :: (colon ++ text)) >>= fun p =>
          foldMembers step fuel false p.1 p.2 := by
  obtain @⟨cs, before, key, after, colon, hbefore, hname, hafter, hcolon⟩ := nameText
  refine ⟨after, colon, hafter, hcolon, fun fuel state text => ?_⟩
  have htext : before ++ 34 :: (key ++ 34 :: (after ++ 58 :: colon)) ++ text =
      before ++ 34 :: (key ++ 34 :: (after ++ 58 :: (colon ++ text))) := by simp
  rw [htext, foldMembers, skipBlanks_append hbefore rfl]
  simp [stringTail_text hname, bind, Except.bind]

/-- After a comma it goes on as after the brace. -/
theorem foldMembers_comma (h : Blanks ws) (hopens : Opens .object bs) :
    foldMembers step (fuel + 1) false state (ws ++ 44 :: (bs ++ rest)) =
      foldMembers step (fuel + 1) true state (bs ++ rest) := by
  obtain ⟨before, b, more, rfl, blanks, hblank, hclose⟩ := hopens
  have hclose : b ≠ 125 := hclose
  have hinside : skipBlanks (before ++ b :: (more ++ rest)) = b :: (more ++ rest) :=
    skipBlanks_append blanks hblank (more ++ rest)
  rw [List.append_assoc, List.cons_append, foldMembers, foldMembers, skipBlanks_append h rfl, hinside]
  by_cases hquote : b = 34
  · subst hquote
    simp [hinside]
  · simp [hinside, hquote]

/-- Reading gives a value and leaves the rest, or it fails. -/
def Gives {α : Type} (outcome : Decode (α × Bytes)) (value : Option α) (rest : Bytes) : Prop :=
  match value with
  | some a => outcome = .ok (a, rest)
  | none => ∃ e, outcome = .error e

theorem Gives.map {β : Type} {outcome : Decode (α × Bytes)} {value : Option α}
    (h : Gives outcome value rest) (f : α → β) :
    Gives (outcome >>= fun p => pure (f p.1, p.2)) (value.map f) rest := by
  cases value with
  | some a =>
    obtain rfl : outcome = .ok (a, rest) := h
    exact rfl
  | none =>
    obtain ⟨e, rfl⟩ := h
    exact ⟨e, rfl⟩

/-- The step reads what comes after the name of a member as `take` says of its value. -/
def ReadsMembers (step : α → String → Bytes → Decode (α × Bytes))
    (take : α → String × Shape → Option α) : Prop :=
  ∀ (state : α) (key : String) (v : Shape) (after colon bs rest : Bytes), Blanks after →
    Blanks colon → Text (.value v) bs → (∀ b ∈ rest.head?, EndsNumber b) →
    Gives (step state key (after ++ 58 :: (colon ++ (bs ++ rest)))) (take state (key, v)) rest

/-- One member is read, and then those after it. -/
theorem foldMembers_member {take : α → String × Shape → Option α} (reads : ReadsMembers step take)
    {key : String} {v : Shape} {name bs text : Bytes} {ms : List (String × Shape)}
    (nameText : NameText key name) (value : Text (.value v) bs)
    (hends : ∀ b ∈ text.head?, EndsNumber b)
    (hnext : ∀ state', take state (key, v) = some state' →
      Gives (foldMembers step fuel false state' text) (ms.foldlM take state') rest) :
    Gives (foldMembers step (fuel + 1) true state (name ++ (bs ++ text)))
      (((key, v) :: ms).foldlM take state) rest := by
  obtain ⟨after, colon, hafter, hcolon, hname⟩ := foldMembers_name step nameText
  have hread := reads state key v after colon bs text hafter hcolon value hends
  rw [hname, List.foldlM_cons]
  cases htake : take state (key, v) with
  | none =>
    rw [htake] at hread
    obtain ⟨e, he⟩ := hread
    rw [he]
    exact ⟨e, rfl⟩
  | some state' =>
    rw [htake] at hread
    have hread : step state key (after ++ 58 :: (colon ++ (bs ++ text))) = .ok (state', text) := hread
    rw [hread]
    exact hnext state' htake

/-- The members of an object are read one after the other, up to the first that can't be read. -/
theorem foldMembers_text {take : α → String × Shape → Option α} (reads : ReadsMembers step take)
    {ms : List (String × Shape)} (h : Text (.members ms) bs) (hfuel : ms.length < fuel) :
    Gives (foldMembers step fuel true state (bs ++ 125 :: rest)) (ms.foldlM take state) rest := by
  obtain ⟨fuel, rfl⟩ := Nat.exists_eq_add_one_of_ne_zero (Nat.ne_zero_of_lt hfuel)
  -- The grammar has values inside of members, so the induction goes over all parts; only the two
  -- for members are left.
  generalize hpart : Part.members ms = part at h
  induction h generalizing ms state fuel with
  | @lastMember key v name bs after nameText value blanks =>
    cases hpart
    have hpositive : 0 < fuel := Nat.lt_of_succ_lt_succ hfuel
    obtain ⟨fuel, rfl⟩ := Nat.exists_eq_add_one_of_ne_zero (Nat.ne_of_gt hpositive)
    have htext : name ++ (bs ++ after) ++ 125 :: rest = name ++ (bs ++ (after ++ 125 :: rest)) := by
      simp
    rw [htext]
    refine foldMembers_member reads nameText value (ends_of_blanks blanks (by decide) rest) ?_
    intro state' _
    exact foldMembers_end blanks false
  | @member key v others name bs after more nameText value blanks inside _ ih =>
    cases hpart
    have hothers : others.length < fuel := Nat.lt_of_succ_lt_succ hfuel
    obtain ⟨fuel, rfl⟩ := Nat.exists_eq_add_one_of_ne_zero (Nat.ne_zero_of_lt hothers)
    have htext : name ++ (bs ++ (after ++ 44 :: more)) ++ 125 :: rest =
        name ++ (bs ++ (after ++ 44 :: (more ++ 125 :: rest))) := by
      simp
    rw [htext]
    refine foldMembers_member reads nameText value (ends_of_blanks blanks (by decide) _) ?_
    intro state' _
    rw [foldMembers_comma blanks (opens_members inside)]
    exact ih fuel hothers rfl
  | _ => cases hpart

end CrashCapture.Json
