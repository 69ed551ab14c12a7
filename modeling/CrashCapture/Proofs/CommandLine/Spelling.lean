import CrashCapture.Proofs.CommandLine.Items

namespace CrashCapture.CommandLine

theorem longOption_append {name : List Char} (h : '=' ∉ name) (value : List Char) :
    longOption (name ++ '=' :: value) = .long (.ofList name) (some (.ofList value)) := by
  have hname : ∀ c ∈ name, decide (c ≠ '=') = true := by
    intro c hc
    exact decide_eq_true fun heq => h (heq ▸ hc)
  have htake : (name ++ '=' :: value).takeWhile (· ≠ '=') = name := by
    rw [List.takeWhile_append_of_pos hname]
    simp
  unfold longOption
  dsimp only
  rw [htake, List.drop_left]

theorem longOption_bare {name : List Char} (h : '=' ∉ name) :
    longOption name = .long (.ofList name) none := by
  have hname : ∀ c ∈ name, decide (c ≠ '=') = true := by
    intro c hc
    exact decide_eq_true fun heq => h (heq ▸ hc)
  have htake : name.takeWhile (· ≠ '=') = name := by
    have happend : (name ++ []).takeWhile (· ≠ '=') = name ++ [].takeWhile (· ≠ '=') :=
      List.takeWhile_append_of_pos hname
    simpa using happend
  unfold longOption
  dsimp only
  rw [htake, List.drop_length]

/-- How an option is written whose value is in the same argument, if it has one. -/
def longText (name : String) : Option String → String
  | none => "--" ++ name
  | some value => "--" ++ name ++ "=" ++ value

theorem classify_longText {name : String} (named : name ≠ "") (h : '=' ∉ name.toList)
    (value : Option String) : classify (longText name value) = .long name value := by
  have hne : name.toList ≠ [] := by simpa using named
  obtain ⟨c, cs, hcons⟩ := List.exists_cons_of_ne_nil hne
  have hclassify : ∀ (text : String) (rest : List Char), text.toList = '-' :: '-' :: c :: rest →
      classify text = longOption (c :: rest) := by
    intro text rest htext
    rw [classify, htext]
    rfl
  cases value with
  | none =>
    have htext : (longText name none).toList = '-' :: '-' :: c :: cs := by simp [longText, hcons]
    rw [hclassify _ _ htext, ← hcons, longOption_bare h, String.ofList_toList]
  | some value =>
    have htext : (longText name (some value)).toList =
        '-' :: '-' :: c :: (cs ++ '=' :: value.toList) := by
      simp [longText, hcons]
    rw [hclassify _ _ htext, ← List.cons_append, ← hcons, longOption_append h, String.ofList_toList,
      String.ofList_toList]

/-- Every long option is written so. -/
theorem eq_longText {argument name : String} {value : Option String}
    (h : classify argument = .long name value) : argument = longText name value := by
  unfold classify at h
  split at h
  · cases h
  · next cs _ hcs =>
    by_cases hequals : '=' ∈ cs
    · obtain ⟨key, rest, rfl, hkey⟩ := List.eq_append_cons_of_mem hequals
      rw [longOption_append hkey] at h
      cases h
      apply String.toList_injective
      simp [longText, hcs]
    · rw [longOption_bare hequals] at h
      cases h
      apply String.toList_injective
      simp [longText, hcs]
  · cases h
  · cases h
  · cases h

namespace Item

/-- An option is written in one of two ways. A value of its own must not look like another option. -/
inductive Written (i : Item) : List String → Prop
  | apart (noOption : ∀ value ∈ i.value, ¬LooksLikeOption value) : Written i i.arguments
  | attached {value : String} (valued : i.value = some value) :
      Written i [longText i.spec.name (some value)]

/-- A program takes the option after those that were given before. -/
structure Fits (specs : List Spec) (given : Given) (i : Item) : Prop where
  found : specs.find? (·.name = i.spec.name) = some i.spec
  valued : i.value = none ↔ i.spec.arity = .flag
  accepted : i.spec.accepts (i.value.getD "") = true
  fresh : i.spec.arity = .repeated ∨ given.has i.spec.name = false

end Item

/-- After those that were given before, the options on a command line are given. -/
inductive Spelled (specs : List Spec) : Given → List String → Given → Prop
  | done {given : Given} : Spelled specs given [] given
  | terminated {given : Given} : Spelled specs given ["--"] given
  | option {given given' : Given} {i : Item} {arguments rest : List String}
      (written : i.Written arguments) (fits : i.Fits specs given)
      (others : Spelled specs (given ++ [i.entry]) rest given') :
      Spelled specs given (arguments ++ rest) given'

variable {specs : List Spec} {given given' : Given}

theorem add_eq_ok_iff {spec : Spec} {value : String} :
    add spec value given = .ok given' ↔
      (spec.arity = .repeated ∨ given.has spec.name = false) ∧ spec.accepts value = true ∧
        given' = given ++ [(spec.name, value)] := by
  have hmore : (decide (spec.arity ≠ .repeated) && given.has spec.name) = true ↔
      ¬(spec.arity = .repeated ∨ given.has spec.name = false) := by simp
  unfold add
  by_cases hfresh : spec.arity = .repeated ∨ given.has spec.name = false
  · rw [if_neg (fun h => hmore.1 h hfresh)]
    cases spec.accepts value with
    | true =>
      exact ⟨fun h => ⟨hfresh, rfl, (Except.ok.inj h).symm⟩, fun h => congrArg Except.ok h.2.2.symm⟩
    | false => exact ⟨nofun, fun h => absurd h.2.1 nofun⟩
  · rw [if_pos (hmore.2 hfresh)]
    simp only [hfresh, false_and, reduceCtorEq]

/-- A value that is added makes an option that fits. -/
theorem fits_of_add {spec : Spec} (value : Option String)
    (found : specs.find? (·.name = spec.name) = some spec) (valued : value = none ↔ spec.arity = .flag)
    {rest : List String}
    (h : (add spec (value.getD "") given).bind (read specs · rest) = .ok given') :
    Item.Fits specs given ⟨spec, value⟩ ∧
      read specs (given ++ [Item.entry ⟨spec, value⟩]) rest = .ok given' := by
  cases hadd : add spec (value.getD "") given with
  | error e =>
    rw [hadd] at h
    cases h
  | ok g =>
    obtain ⟨fresh, accepted, rfl⟩ := add_eq_ok_iff.1 hadd
    rw [hadd] at h
    exact ⟨⟨found, valued, accepted, fresh⟩, h⟩

/-- The argument is an option that is known, with its value. -/
theorem read_attached {spec : Spec} {argument value : String} (rest : List String)
    (written : classify argument = .long spec.name (some value))
    (found : specs.find? (·.name = spec.name) = some spec) :
    read specs given (argument :: rest) =
      if spec.arity = .flag then .error .usage
      else (add spec value given).bind (read specs · rest) := by
  rw [read.eq_def]
  dsimp only
  rw [written]
  split
  · next h => cases h
  · next h => cases h
  · next h => cases h
  · next h => cases h
  · next h => exact absurd (Argument.long.inj h).2 nofun
  · next name attached _ h =>
    obtain ⟨rfl, rfl⟩ := Argument.long.inj h
    rw [found]
    dsimp only
    cases harity : spec.arity <;> rfl

theorem eq_of_terminator {argument : String} (h : classify argument = .terminator) :
    argument = "--" := by
  unfold classify at h
  split at h
  · next hhyphens =>
    apply String.toList_injective
    exact hhyphens
  · next cs _ _ =>
    unfold longOption at h
    dsimp only at h
    split at h <;> cases h
  · cases h
  · cases h
  · cases h

/-- What was read is an option that is known, unless the command line ends there. -/
theorem classify_of_read {argument : String} {rest : List String}
    (h : read specs given (argument :: rest) = .ok given') :
    (argument = "--" ∧ rest = [] ∧ given' = given) ∨
    ∃ spec value, classify argument = .long spec.name value ∧
      specs.find? (·.name = spec.name) = some spec ∧ (value = none → spec.name ≠ "help") := by
  rw [read.eq_def] at h
  dsimp only at h
  split at h
  · next hclassify =>
    cases rest with
    | nil => exact .inl ⟨eq_of_terminator hclassify, rfl, (Except.ok.inj h).symm⟩
    | cons value rest => cases h
  · cases h
  · cases h
  · cases h
  · cases h
  · next name value hhelp hclassify =>
    split at h
    · cases h
    · next spec hspec =>
      obtain rfl : spec.name = name := by simpa using List.find?_some hspec
      exact .inr ⟨spec, value, hclassify, hspec, fun hnone heq => hhelp heq hnone⟩

/-- The first argument is the start of an option, or ends the command line. -/
theorem read_cons {argument : String} {rest : List String}
    (h : read specs given (argument :: rest) = .ok given') :
    (argument = "--" ∧ rest = [] ∧ given' = given) ∨
    ∃ (i : Item) (arguments more : List String), argument :: rest = arguments ++ more ∧
      more.length ≤ rest.length ∧ i.Written arguments ∧ i.Fits specs given ∧
      read specs (given ++ [i.entry]) more = .ok given' := by
  refine (classify_of_read h).imp_right ?_
  rintro ⟨spec, value, hclassify, hfound, hnamed⟩
  have hargument : argument = longText spec.name value := eq_longText hclassify
  cases value with
  | some value =>
    rw [read_attached rest hclassify hfound] at h
    obtain ⟨harity, hadd⟩ : spec.arity ≠ .flag ∧
        (add spec value given).bind (read specs · rest) = .ok given' := by
      split at h
      · cases h
      · next harity => exact ⟨harity, h⟩
    have hfits := fits_of_add (some value) hfound ⟨nofun, fun hflag => absurd hflag harity⟩ hadd
    exact ⟨⟨spec, some value⟩, [argument], rest, rfl, Nat.le_refl _, hargument ▸ .attached rfl,
      hfits⟩
  | none =>
    rw [read_long rest hclassify (hnamed rfl) hfound] at h
    by_cases harity : spec.arity = .flag
    · rw [if_pos harity] at h
      have hfits := fits_of_add none hfound ⟨fun _ => harity, fun _ => rfl⟩ h
      exact ⟨⟨spec, none⟩, [argument], rest, rfl, Nat.le_refl _, hargument ▸ .apart nofun, hfits⟩
    · rw [if_neg harity] at h
      cases rest with
      | nil => cases h
      | cons value more =>
        dsimp only at h
        split at h
        · next hvalue =>
          have hfits := fits_of_add (some value) hfound
            ⟨nofun, fun hflag => absurd hflag harity⟩ h
          refine ⟨⟨spec, some value⟩, [argument, value], more, rfl, Nat.le_succ _, ?_, hfits⟩
          rw [hargument]
          refine .apart fun v hv => ?_
          cases hv
          exact (isValue_iff value).1 hvalue
        · cases h

/-- What is read is given on the command line. -/
theorem spelled_of_read {arguments : List String} (h : read specs given arguments = .ok given') :
    Spelled specs given arguments given' := by
  induction hn : arguments.length using Nat.strongRecOn generalizing given arguments with
  | _ n ih =>
    cases arguments with
    | nil =>
      cases h
      exact .done
    | cons argument rest =>
      rcases read_cons h with ⟨rfl, rfl, rfl⟩ | ⟨i, first, more, heq, hshorter, written, fits, hread⟩
      · exact .terminated
      · have hless : more.length < n := by
          rw [← hn, List.length_cons]
          exact Nat.lt_succ_of_le hshorter
        rw [heq]
        exact .option written fits (ih _ hless hread rfl)

/-- A name that options can be written with. -/
structure PlainName (name : String) : Prop where
  ne_empty : name ≠ ""
  noEquals : '=' ∉ name.toList
  ne_help : name ≠ "help"

instance (name : String) : Decidable (PlainName name) :=
  decidable_of_iff (name ≠ "" ∧ '=' ∉ name.toList ∧ name ≠ "help")
    ⟨fun ⟨a, b, c⟩ => ⟨a, b, c⟩, fun ⟨a, b, c⟩ => ⟨a, b, c⟩⟩

theorem Item.Fits.known {i : Item} (h : i.Fits specs given) (plain : PlainName i.spec.name) :
    i.Known specs :=
  ⟨h.found, classify_longText plain.ne_empty plain.noEquals none, plain.ne_help, h.valued⟩

theorem read_of_spelled (plain : ∀ spec ∈ specs, PlainName spec.name) {arguments : List String}
    (h : Spelled specs given arguments given') : read specs given arguments = .ok given' := by
  induction h with
  | done => rfl
  | terminated => rfl
  | @option given given' i arguments rest written fits others ih =>
    have hplain : PlainName i.spec.name := plain i.spec (List.mem_of_find?_eq_some fits.found)
    cases written with
    | apart noOption =>
      have hvalue : i.value.all isValue = true := by
        rw [Option.all_eq_true]
        intro value hvalue
        exact (isValue_iff value).2 (noOption value hvalue)
      have htaken : i.isTaken = true := by
        rw [Item.isTaken, hvalue, fits.accepted]
        rfl
      rw [read_item (fits.known hplain) fits.fresh, if_pos htaken]
      exact ih
    | @attached value valued =>
      have harity : i.spec.arity ≠ .flag := by
        intro hflag
        have hnone := fits.valued.2 hflag
        rw [valued] at hnone
        cases hnone
      have haccepted : i.spec.accepts value = true := by
        have haccepted := fits.accepted
        rwa [valued] at haccepted
      have hentry : i.entry = (i.spec.name, value) := by
        rw [Item.entry, valued]
        rfl
      rw [List.singleton_append, read_attached rest
        (classify_longText hplain.ne_empty hplain.noEquals (some value)) fits.found, if_neg harity,
        bind_add fits.fresh, if_pos haccepted, ← hentry]
      exact ih

/-- A command line is read if it is options that fit, one after the other. -/
theorem read_eq_ok_iff (plain : ∀ spec ∈ specs, PlainName spec.name) {arguments : List String} :
    read specs given arguments = .ok given' ↔ Spelled specs given arguments given' :=
  ⟨spelled_of_read, read_of_spelled plain⟩

theorem Given.all_concat (name : String) (g : Given) (i : Item) :
    all name (g ++ [i.entry]) =
      g.all name ++ if i.spec.name = name then [i.value.getD ""] else [] := by
  rw [all_append]
  by_cases h : i.spec.name = name <;> simp [all, Item.entry, h]

theorem Given.all_eq_nil {name : String} {g : Given} (h : g.has name = false) : g.all name = [] := by
  rw [has_eq_all, Bool.not_eq_false', List.isEmpty_iff] at h
  exact h

namespace Spelled

variable {arguments : List String} {name : String} {spec : Spec}

/-- What holds of the values of an option lasts if it does when one more is taken. -/
theorem lasts {P : List String → Prop} (h : Spelled specs given arguments given')
    (found : specs.find? (·.name = name) = some spec)
    (step : ∀ values value, P values → spec.accepts value = true →
      (spec.arity = .repeated ∨ values = []) → P (values ++ [value]))
    (before : P (given.all name)) : P (given'.all name) := by
  induction h with
  | done => exact before
  | terminated => exact before
  | @option given given' i arguments rest written fits others ih =>
    apply ih
    rw [Given.all_concat]
    by_cases hname : i.spec.name = name
    · have hfound := fits.found
      rw [hname, found] at hfound
      have hspec : spec = i.spec := Option.some.inj hfound
      have hfresh : i.spec.arity = .repeated ∨ given.all name = [] :=
        fits.fresh.imp_right fun h => hname ▸ Given.all_eq_nil h
      rw [if_pos hname]
      exact step _ _ before (hspec ▸ fits.accepted) (hspec ▸ hfresh)
    · rw [if_neg hname, List.append_nil]
      exact before

/-- Only what may be repeated is given more than once. -/
theorem length_all_le (h : Spelled specs [] arguments given')
    (found : specs.find? (·.name = name) = some spec) (unrepeated : spec.arity ≠ .repeated) :
    (given'.all name).length ≤ 1 := by
  refine h.lasts (P := fun values => values.length ≤ 1) found (fun values value _ _ hroom => ?_)
    (Nat.zero_le 1)
  rw [hroom.resolve_left unrepeated]
  exact Nat.le_refl 1

theorem accepts_of_mem_all (h : Spelled specs [] arguments given')
    (found : specs.find? (·.name = name) = some spec) :
    ∀ value ∈ given'.all name, spec.accepts value = true := by
  refine h.lasts (P := fun values => ∀ value ∈ values, spec.accepts value = true) found
    (fun values value hold hnew _ => ?_) (List.forall_mem_nil _)
  intro other hother
  rcases List.mem_append.1 hother with hmem | hmem
  · exact hold other hmem
  · rw [List.mem_singleton.1 hmem]
    exact hnew

end Spelled

end CrashCapture.CommandLine
