import CrashCapture.CommandLine

namespace CrashCapture.CommandLine

/-- A value that starts another option, as all do that go on after a hyphen. -/
def LooksLikeOption (value : String) : Prop := ∃ c cs, value.toList = '-' :: c :: cs

theorem longOption_ne_positional (cs : List Char) : longOption cs ≠ .positional := by
  unfold longOption
  dsimp only
  split <;> nofun

theorem isValue_iff (value : String) : isValue value = true ↔ ¬LooksLikeOption value := by
  unfold isValue classify LooksLikeOption
  rw [decide_eq_true_iff]
  split
  · next h => simp [h]
  · next h => simp [h, longOption_ne_positional]
  · next h => simp [h]
  · next cs _ _ hmore h =>
    cases cs with
    | nil => exact absurd rfl hmore
    | cons c cs => simp [h]
  · next hother =>
    refine ⟨fun _ ⟨c, cs, h⟩ => ?_, fun _ => rfl⟩
    exact hother (c :: cs) h

instance : DecidablePred LooksLikeOption := fun value =>
  decidable_of_iff (¬isValue value = true) (by rw [isValue_iff, Classical.not_not])

/-- An option as it is given, with its value unless it is a flag. -/
structure Item where
  spec : Spec
  value : Option String

namespace Item

def arguments (i : Item) : List String := ("--" ++ i.spec.name) :: i.value.toList

def entry (i : Item) : String × String := (i.spec.name, i.value.getD "")

def isTaken (i : Item) : Bool := i.value.all isValue && i.spec.accepts (i.value.getD "")

theorem isTaken_iff (spec : Spec) {value : String} (accepts : spec.accepts value = true) :
    (Item.mk spec (some value)).isTaken = true ↔ ¬LooksLikeOption value := by
  have htaken : (Item.mk spec (some value)).isTaken = (isValue value && spec.accepts value) := rfl
  rw [htaken, accepts, Bool.and_true, isValue_iff]

/-- One option for each of some values. -/
def each (spec : Spec) (values : List String) : List Item :=
  values.map fun value => ⟨spec, some value⟩

theorem mem_each {spec : Spec} {values : List String} {i : Item} :
    i ∈ each spec values ↔ ∃ value ∈ values, ⟨spec, some value⟩ = i := List.mem_map

theorem arguments_each (spec : Spec) (values : List String) :
    (each spec values).flatMap arguments =
      values.flatMap fun value => ["--" ++ spec.name, value] := by
  rw [each, List.flatMap_map]
  rfl

/-- An option that a program knows, and that reads as such. -/
structure Known (specs : List Spec) (i : Item) : Prop where
  found : specs.find? (·.name = i.spec.name) = some i.spec
  written : classify ("--" ++ i.spec.name) = .long i.spec.name none
  named : i.spec.name ≠ "help"
  valued : i.value = none ↔ i.spec.arity = .flag

end Item

namespace Given

theorem has_eq_all (name : String) (g : Given) : g.has name = !(g.all name).isEmpty := by
  unfold has all
  induction g with
  | nil => rfl
  | cons entry g ih =>
    rw [List.any_cons, ih, List.filter_cons]
    cases decide (entry.1 = name) <;> rfl

theorem all_append (name : String) (g g' : Given) :
    all name (g ++ g') = g.all name ++ g'.all name := by
  simp [all]

theorem all_each (name : String) (spec : Spec) (values : List String) :
    all name ((Item.each spec values).map Item.entry) = if spec.name = name then values else [] := by
  induction values with
  | nil => simp [Item.each, all]
  | cons value values ih =>
    have hfirst : all name [Item.entry ⟨spec, some value⟩] =
        if spec.name = name then [value] else [] := by
      by_cases h : spec.name = name <;> simp [all, Item.entry, h]
    have hcons : (Item.each spec (value :: values)).map Item.entry =
        [Item.entry ⟨spec, some value⟩] ++ (Item.each spec values).map Item.entry := rfl
    rw [hcons, all_append, hfirst, ih]
    split <;> rfl

end Given

variable {specs : List Spec} {given : Given} {i : Item}

theorem bind_add {α : Type} {spec : Spec}
    (fresh : spec.arity = .repeated ∨ given.has spec.name = false) (value : String)
    (f : Given → Except Refusal α) : (add spec value given).bind f =
      if spec.accepts value then f (given ++ [(spec.name, value)]) else .error .usage := by
  have hfresh : (decide (spec.arity ≠ .repeated) && given.has spec.name) = false := by
    rcases fresh with h | h <;> simp [h]
  unfold add
  rw [hfresh]
  cases spec.accepts value <;> rfl

/-- The argument is an option that is known; what follows may be its value. -/
theorem read_long {spec : Spec} {argument : String} (rest : List String)
    (written : classify argument = .long spec.name none) (named : spec.name ≠ "help")
    (found : specs.find? (·.name = spec.name) = some spec) :
    read specs given (argument :: rest) =
      if spec.arity = .flag then (add spec "" given).bind (read specs · rest)
      else
        match rest with
        | [] => .error .usage
        | value :: rest =>
          if isValue value then (add spec value given).bind (read specs · rest)
          else .error .usage := by
  rw [read.eq_def]
  dsimp only
  rw [written]
  split
  · next h => cases h
  · next h => cases h
  · next h => cases h
  · next h => cases h
  · next h => exact absurd (Argument.long.inj h).1 named
  · next name attached hne h =>
    obtain ⟨rfl, rfl⟩ := Argument.long.inj h
    rw [found]
    dsimp only
    cases harity : spec.arity <;> cases rest <;> rfl

theorem read_item (known : i.Known specs)
    (fresh : i.spec.arity = .repeated ∨ given.has i.spec.name = false) (rest : List String) :
    read specs given (i.arguments ++ rest) =
      if i.isTaken then read specs (given ++ [i.entry]) rest else .error .usage := by
  obtain ⟨hfound, hwritten, hnamed, hvalued⟩ := known
  unfold Item.arguments Item.isTaken Item.entry
  cases hvalue : i.value with
  | none =>
    have harity := hvalued.1 hvalue
    rw [List.cons_append, read_long _ hwritten hnamed hfound, if_pos harity, bind_add fresh]
    rfl
  | some value =>
    have harity : i.spec.arity ≠ .flag := fun h => by simp [hvalued.2 h] at hvalue
    rw [List.cons_append, read_long _ hwritten hnamed hfound, if_neg harity]
    dsimp only [Option.toList, Option.getD, Option.all, List.cons_append, List.nil_append]
    rw [bind_add fresh]
    by_cases hstarts : isValue value = true
    · simp [hstarts]
    · simp [hstarts]

/-- Options of which those that are given once have different names. -/
def Distinct (items : List Item) : Prop :=
  items.Pairwise fun i j => j.spec.arity = .repeated ∨ i.spec.name ≠ j.spec.name

theorem read_items {items : List Item} (known : ∀ i ∈ items, i.Known specs)
    (distinct : Distinct items)
    (fresh : ∀ i ∈ items, i.spec.arity = .repeated ∨ given.has i.spec.name = false) :
    read specs given (items.flatMap Item.arguments) =
      if items.all Item.isTaken then .ok (given ++ items.map Item.entry) else .error .usage := by
  induction items generalizing given with
  | nil => simp [read]
  | cons i items ih =>
    obtain ⟨hi, hitems⟩ := List.forall_mem_cons.1 known
    obtain ⟨hfirst, hdistinct⟩ := List.pairwise_cons.1 distinct
    obtain ⟨hfresh, hothers⟩ := List.forall_mem_cons.1 fresh
    rw [List.flatMap_cons, read_item hi hfresh]
    cases htaken : i.isTaken with
    | false => simp [htaken]
    | true =>
      have hlater : ∀ j ∈ items, j.spec.arity = .repeated ∨
          Given.has j.spec.name (given ++ [i.entry]) = false := by
        intro j hj
        rcases hfirst j hj with h | h
        · exact .inl h
        · refine (hothers j hj).imp_right fun hnew => ?_
          simpa [Given.has, Item.entry, h] using hnew
      rw [if_pos rfl, ih hitems hdistinct hlater]
      simp [htaken]

end CrashCapture.CommandLine
