namespace CrashCapture.Text

/-- Cuts at the first occurrence of a word. -/
def splitOnce (word : List Char) : List Char → Option (List Char × List Char)
  | [] => if word.isEmpty then some ([], []) else none
  | c :: cs =>
    if word.isPrefixOf (c :: cs) then some ([], (c :: cs).drop word.length)
    else (splitOnce word cs).map fun (a, b) => (c :: a, b)

def splitFirst (sep : Char) : List Char → Option (List Char × List Char)
  | [] => none
  | c :: cs => if c = sep then some ([], cs) else (splitFirst sep cs).map fun (a, b) => (c :: a, b)

def splitLast (sep : Char) : List Char → Option (List Char × List Char)
  | [] => none
  | c :: cs =>
    match splitLast sep cs with
    | some (a, b) => some (c :: a, b)
    | none => if c = sep then some ([], cs) else none

/-- All the pieces between occurrences of a character, one more than there are occurrences. -/
def splitAll (sep : Char) : List Char → List (List Char)
  | [] => [[]]
  | c :: cs =>
    match splitAll sep cs with
    | [] => [[c]]
    | p :: ps => if c = sep then [] :: p :: ps else (c :: p) :: ps

/-- Replaces all occurrences of a word from the left on. The number says how many characters are passed
over, as they belong to an occurrence. -/
def replaceFrom (word new : List Char) : Nat → List Char → List Char
  | _, [] => []
  | skip + 1, _ :: cs => replaceFrom word new skip cs
  | 0, c :: cs =>
    if word.isPrefixOf (c :: cs) then new ++ replaceFrom word new (word.length - 1) cs
    else c :: replaceFrom word new 0 cs

def replaceAll (word new s : String) : String :=
  .ofList (replaceFrom word.toList new.toList 0 s.toList)

def dropTrailing (c : Char) : List Char → List Char
  | [] => []
  | d :: cs =>
    match dropTrailing c cs with
    | [] => if d = c then [] else [d]
    | r => d :: r

theorem splitFirst_eq_some {sep : Char} {s a b : List Char} :
    splitFirst sep s = some (a, b) ↔ s = a ++ sep :: b ∧ sep ∉ a := by
  induction s generalizing a with
  | nil => simp [splitFirst]
  | cons c cs ih =>
    by_cases h : c = sep
    · subst h
      cases a with
      | nil => simp [splitFirst, eq_comm]
      | cons d a => simp +contextual [splitFirst, eq_comm]
    · cases a with
      | nil => simp [splitFirst, h]
      | cons d a => simp [splitFirst, h, ih]; grind

theorem splitLast_eq_none {sep : Char} {s : List Char} : splitLast sep s = none ↔ sep ∉ s := by
  induction s with
  | nil => simp [splitLast]
  | cons c cs ih =>
    rw [splitLast]
    cases h : splitLast sep cs with
    | none => simp [ih.1 h]; grind
    | some p => simp [h] at ih ⊢; grind

theorem splitLast_append {sep : Char} (a : List Char) {b : List Char} (hb : sep ∉ b) :
    splitLast sep (a ++ sep :: b) = some (a, b) := by
  induction a with
  | nil => simp [splitLast, splitLast_eq_none.2 hb]
  | cons c a ih => rw [List.cons_append, splitLast, ih]

theorem splitLast_eq_some {sep : Char} {s a b : List Char} :
    splitLast sep s = some (a, b) ↔ s = a ++ sep :: b ∧ sep ∉ b := by
  constructor
  · intro h
    induction s generalizing a with
    | nil => cases h
    | cons c cs ih =>
      rw [splitLast] at h
      cases hcs : splitLast sep cs with
      | some p =>
        rw [hcs] at h
        cases h
        obtain ⟨rfl, hb⟩ := ih hcs
        exact ⟨rfl, hb⟩
      | none =>
        rw [hcs] at h
        by_cases hc : c = sep
        · simp only [hc, if_true, Option.some.injEq, Prod.mk.injEq] at h
          obtain ⟨rfl, rfl⟩ := h
          exact ⟨by rw [hc]; rfl, splitLast_eq_none.1 hcs⟩
        · simp [hc] at h
  · rintro ⟨rfl, hb⟩
    exact splitLast_append a hb

theorem dropTrailing_of_notMem {c : Char} {s : List Char} (hs : c ∉ s) : dropTrailing c s = s := by
  induction s with
  | nil => rfl
  | cons d s ih =>
    have hd : d ≠ c := fun h => hs (h ▸ List.mem_cons_self)
    rw [dropTrailing, ih fun h => hs (List.mem_cons_of_mem d h)]
    cases s with
    | nil => simp [hd]
    | cons e s => rfl

theorem dropTrailing_append {c : Char} (a : List Char) {b : List Char} (hb : c ∉ b) (hne : b ≠ []) :
    dropTrailing c (a ++ b) = a ++ b := by
  induction a with
  | nil => exact dropTrailing_of_notMem hb
  | cons d a ih =>
    rw [List.cons_append, dropTrailing, ih]
    cases hab : a ++ b with
    | nil => exact absurd (List.append_eq_nil_iff.1 hab).2 hne
    | cons e r => rfl

end CrashCapture.Text
