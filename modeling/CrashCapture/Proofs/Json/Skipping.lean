import CrashCapture.Proofs.Json.Grammar

namespace CrashCapture.Json

variable {fuel : Nat} {stack : List Enclosing} {top : Enclosing} {expecting : Expecting}
  {ws bs text rest : Bytes} {b : UInt8}

theorem skipFrom_blanks (h : Blanks ws) :
    skipFrom fuel stack .value (ws ++ text) = skipFrom fuel stack .value text := by
  cases fuel with
  | zero => rfl
  | succ fuel => rw [skipFrom, skipFrom, skipBlanks_of_blanks h]

theorem skipFrom_scalar (hblank : isBlank b = false) (noArray : b ≠ 91) (noObject : b ≠ 123)
    (h : skipScalar (b :: text) = .ok rest) :
    skipFrom (fuel + 1) stack .value (b :: text) = skipFrom fuel stack .commaOrClose rest := by
  rw [skipFrom, skipBlanks_self hblank]
  split
  · next heq => exact absurd (List.cons.inj heq).1 noArray
  · next heq => exact absurd (List.cons.inj heq).1 noObject
  · rw [h]
    rfl

theorem skipFrom_array :
    skipFrom (fuel + 1) stack .value (91 :: text) =
      skipFrom fuel (.array :: stack) .firstOrClose text := rfl

theorem skipFrom_object :
    skipFrom (fuel + 1) stack .value (123 :: text) =
      skipFrom fuel (.object :: stack) .firstOrClose text := rfl

theorem isBlank_close (top : Enclosing) : isBlank top.close = false := by cases top <;> rfl

theorem skipFrom_close (h : Blanks ws) (hexpecting : expecting ≠ .value) :
    skipFrom (fuel + 1) (top :: stack) expecting (ws ++ top.close :: rest) =
      skipFrom fuel stack .commaOrClose rest := by
  have hskip := skipBlanks_append h (isBlank_close top) rest
  cases expecting with
  | value => exact absurd rfl hexpecting
  | firstOrClose =>
    rw [skipFrom, hskip]
    · simp
    · nofun
  | commaOrClose =>
    rw [skipFrom, hskip]
    · simp
    · nofun

theorem skipFrom_comma (h : Blanks ws) :
    skipFrom (fuel + 1) (top :: stack) .commaOrClose (ws ++ 44 :: text) =
      top.lead text >>= skipFrom fuel (top :: stack) .value := by
  have hclose : (44 : UInt8) ≠ top.close := by cases top <;> decide
  rw [skipFrom, skipBlanks_append h rfl]
  · simp [hclose]
  · nofun

theorem skipFrom_first (h : Blanks ws) (hblank : isBlank b = false) (hclose : b ≠ top.close) :
    skipFrom (fuel + 1) (top :: stack) .firstOrClose (ws ++ b :: text) =
      top.lead (b :: text) >>= skipFrom fuel (top :: stack) .value := by
  rw [skipFrom, skipBlanks_append h hblank]
  · simp [hclose]
  · nofun

theorem punctuation_blanks (h : Blanks ws) (hblank : isBlank b = false) (rest : Bytes) :
    punctuation b (ws ++ b :: rest) = .ok rest := by
  rw [punctuation, skipBlanks_append h hblank]
  simp

theorem lead_blanks (h : Blanks ws) (text : Bytes) :
    Enclosing.object.lead (ws ++ text) = Enclosing.object.lead text := by
  rw [Enclosing.lead, Enclosing.lead, punctuation, punctuation, skipBlanks_of_blanks h]

/-- The name of a member starts with a quote and is passed over, up to blanks before the value. -/
theorem NameText.cases {key : String} {name : Bytes} (h : NameText key name) :
    ∃ before more colon, name = before ++ 34 :: more ∧ Blanks before ∧ Blanks colon ∧
      ∀ text, Enclosing.object.lead (name ++ text) = .ok (colon ++ text) := by
  obtain @⟨cs, before, key, after, colon, hbefore, hname, hafter, hcolon⟩ := h
  refine ⟨before, key ++ 34 :: (after ++ 58 :: colon), colon, rfl, hbefore, hcolon, fun text => ?_⟩
  have htext : before ++ 34 :: (key ++ 34 :: (after ++ 58 :: colon)) ++ text =
      before ++ 34 :: (key ++ 34 :: (after ++ 58 :: (colon ++ text))) := by simp
  rw [htext, Enclosing.lead, punctuation_blanks hbefore rfl]
  simp only [bind, Except.bind]
  rw [skipString_text hname]
  exact punctuation_blanks hafter rfl _

theorem skipScalar_number {n : Numeral} (h : NumeralText n bs)
    (hrest : ∀ b ∈ rest.head?, EndsNumber b) : skipScalar (bs ++ rest) = .ok rest := by
  have hnumeral : numeral .malformed (bs ++ rest) = .ok (n, rest) := numeral_text h hrest
  obtain ⟨b, more, rfl, hb⟩ := h.head
  have hne : ∀ {c : UInt8}, c ≠ 45 → Bytes.isDigit c = false → b ≠ c := by
    rintro c hminus hdigit rfl
    rcases hb with rfl | hb
    · exact hminus rfl
    · exact ne_of_isDigit hb hdigit rfl
  have hstart : (b = 45 || Bytes.isDigit b) = true := by simpa using hb
  rw [List.cons_append] at hnumeral ⊢
  unfold skipScalar
  split
  · next heq => cases heq
  · next heq => exact absurd (List.cons.inj heq).1 (hne (by decide) rfl)
  · next heq => exact absurd (List.cons.inj heq).1 (hne (by decide) rfl)
  · next heq => exact absurd (List.cons.inj heq).1 (hne (by decide) rfl)
  · next heq => exact absurd (List.cons.inj heq).1 (hne (by decide) rfl)
  · next heq =>
    obtain ⟨rfl, rfl⟩ := List.cons.inj heq
    rw [if_pos hstart, hnumeral]
    rfl

/-- The inside of an array or object starts with something else than its end. -/
def Opens (top : Enclosing) (bs : Bytes) : Prop :=
  ∃ ws b more, bs = ws ++ b :: more ∧ Blanks ws ∧ isBlank b = false ∧ b ≠ top.close

theorem opens_elements (h : Text .elements bs) : Opens .array bs := by
  have key : ∀ {v before bs after}, Blanks before → Text (.value v) bs →
      Opens .array (before ++ (bs ++ after)) := by
    intro v before bs after blanks value
    obtain ⟨b, more, rfl, hb⟩ := value.head
    exact ⟨before, b, more ++ after, rfl, blanks, hb.starts.noBlank, hb.starts.noEnd⟩
  cases h with
  | lastElement blanks value => exact key blanks value
  | element blanks value => exact key blanks value

theorem opens_members {ms : List (String × Shape)} (h : Text (.members ms) bs) :
    Opens .object bs := by
  have key : ∀ {name key more}, NameText key name → Opens .object (name ++ more) := by
    intro name key more nameText
    obtain ⟨before, inside, colon, rfl, blanks, -⟩ := nameText.cases
    exact ⟨before, 34, inside ++ more, by simp, blanks, rfl, by decide⟩
  cases h with
  | lastMember nameText => exact key nameText
  | member nameText => exact key nameText

/-- After a comma it goes on as after the bracket. -/
theorem skipFrom_next (h : Blanks ws) (hopens : Opens top bs) (rest : Bytes) :
    skipFrom (fuel + 1) (top :: stack) .commaOrClose (ws ++ 44 :: (bs ++ rest)) =
      skipFrom (fuel + 1) (top :: stack) .firstOrClose (bs ++ rest) := by
  obtain ⟨before, b, more, rfl, blanks, hblank, hclose⟩ := hopens
  rw [skipFrom_comma h, List.append_assoc, List.cons_append, skipFrom_first blanks hblank hclose]
  cases top with
  | array => exact skipFrom_blanks blanks
  | object => rw [lead_blanks blanks]

/-- A value is passed over in so many steps, whatever comes after it. -/
def Over (k : Nat) (bs : Bytes) : Prop :=
  ∀ fuel stack rest, (∀ b ∈ rest.head?, EndsNumber b) →
    skipFrom (fuel + k) stack .value (bs ++ rest) = skipFrom fuel stack .commaOrClose rest

/-- So is the first element or member. -/
def Led (top : Enclosing) (k : Nat) (bs : Bytes) : Prop :=
  ∀ fuel stack rest, (∀ b ∈ rest.head?, EndsNumber b) →
    skipFrom (fuel + k) (top :: stack) .firstOrClose (bs ++ rest) =
      skipFrom fuel (top :: stack) .commaOrClose rest

/-- So is all up to the end of an array or object, and one step more passes over that. -/
def Inside (top : Enclosing) (k : Nat) (bs : Bytes) : Prop :=
  ∀ fuel stack rest, skipFrom (fuel + 1 + k) (top :: stack) .firstOrClose (bs ++ top.close :: rest) =
    skipFrom fuel stack .commaOrClose rest

theorem over_scalar {more : Bytes} (hstart : isBlank b = false ∧ b ≠ 91 ∧ b ≠ 123)
    (h : ∀ rest, (∀ b ∈ rest.head?, EndsNumber b) → skipScalar (b :: more ++ rest) = .ok rest) :
    Over 1 (b :: more) := by
  intro fuel stack rest hrest
  exact skipFrom_scalar hstart.1 hstart.2.1 hstart.2.2 (h rest hrest)

theorem led_element {v : Shape} {before : Bytes} {k : Nat} (blanks : Blanks before)
    (value : Text (.value v) bs) (hvalue : Over k bs) : Led .array (k + 1) (before ++ bs) := by
  intro fuel stack rest hrest
  obtain ⟨b, more, rfl, hb⟩ := value.head
  have hfirst : skipFrom (fuel + k + 1) (.array :: stack) .firstOrClose
      (before ++ b :: (more ++ rest)) =
        Enclosing.array.lead (b :: (more ++ rest)) >>= skipFrom (fuel + k) (.array :: stack) .value :=
    skipFrom_first blanks hb.starts.noBlank hb.starts.noEnd
  rw [List.append_assoc]
  exact hfirst.trans (hvalue fuel (.array :: stack) rest hrest)

theorem led_member {key : String} {name : Bytes} {k : Nat} (nameText : NameText key name)
    (hvalue : Over k bs) : Led .object (k + 1) (name ++ bs) := by
  intro fuel stack rest hrest
  obtain ⟨before, inside, colon, rfl, blanks, blanks', hlead⟩ := nameText.cases
  have hlead := hlead (bs ++ rest)
  rw [List.append_assoc, List.cons_append, lead_blanks blanks] at hlead
  rw [List.append_assoc, List.append_assoc, List.cons_append, ← Nat.add_assoc,
    skipFrom_first blanks rfl (by decide), hlead]
  exact (skipFrom_blanks blanks').trans (hvalue fuel (.object :: stack) rest hrest)

theorem inside_blanks (h : Blanks ws) : Inside top 0 ws := by
  intro fuel stack rest
  exact skipFrom_close h nofun

/-- The last element or member. -/
theorem Led.last {k : Nat} (led : Led top k bs) (h : Blanks ws) : Inside top k (bs ++ ws) := by
  intro fuel stack rest
  have hclose : top.close ∈ [44, 93, 123, 125] := by cases top <;> decide
  rw [List.append_assoc, led (fuel + 1) stack _ (ends_of_blanks h hclose rest)]
  exact skipFrom_close h nofun

/-- One that others come after. -/
theorem Led.more {k k' : Nat} {more : Bytes} (led : Led top k bs) (h : Blanks ws)
    (hopens : Opens top more) (inside : Inside top k' more) :
    Inside top (k' + k) (bs ++ (ws ++ 44 :: more)) := by
  intro fuel stack rest
  have htext : bs ++ (ws ++ 44 :: more) ++ top.close :: rest =
      bs ++ (ws ++ 44 :: (more ++ top.close :: rest)) := by
    simp
  have hfuel : fuel + 1 + k' = fuel + k' + 1 := by omega
  rw [htext, ← Nat.add_assoc, led _ stack _ (ends_of_blanks h (by decide) _), hfuel,
    skipFrom_next h hopens, ← hfuel]
  exact inside fuel stack rest

theorem Inside.array {k : Nat} (inside : Inside .array k bs) : Over (k + 2) (91 :: (bs ++ [93])) := by
  intro fuel stack rest _
  have htext : 91 :: (bs ++ [93]) ++ rest = 91 :: (bs ++ 93 :: rest) := by simp
  have hfuel : fuel + (k + 2) = fuel + 1 + k + 1 := by omega
  rw [htext, hfuel, skipFrom_array]
  exact inside fuel stack rest

theorem Inside.object {k : Nat} (inside : Inside .object k bs) :
    Over (k + 2) (123 :: (bs ++ [125])) := by
  intro fuel stack rest _
  have htext : 123 :: (bs ++ [125]) ++ rest = 123 :: (bs ++ 125 :: rest) := by simp
  have hfuel : fuel + (k + 2) = fuel + 1 + k + 1 := by omega
  rw [htext, hfuel, skipFrom_object]
  exact inside fuel stack rest

/-- What is written is passed over in steps that its length bounds. -/
def Passed : Part → Bytes → Prop
  | .value _, bs => ∃ k < 2 * bs.length, Over k bs
  | .elements, bs => ∃ k ≤ 2 * bs.length, Inside .array k bs
  | .members _, bs => ∃ k ≤ 2 * bs.length, Inside .object k bs

theorem passed {part : Part} (h : Text part bs) : Passed part bs := by
  -- By induction on the grammar. The skipper has no recursion of its own on values, only a stack, so
  -- what is inside an array or object is passed over under any stack and before any rest.
  induction h with
  | null => exact ⟨1, by simp, over_scalar (by decide) fun rest _ => word_self [117, 108, 108] rest⟩
  | true => exact ⟨1, by simp, over_scalar (by decide) fun rest _ => word_self [114, 117, 101] rest⟩
  | false =>
    exact ⟨1, by simp, over_scalar (by decide) fun rest _ => word_self [97, 108, 115, 101] rest⟩
  | @number n bs numeral =>
    have hskip : ∀ rest, (∀ b ∈ rest.head?, EndsNumber b) → skipScalar (bs ++ rest) = .ok rest :=
      fun rest => skipScalar_number numeral
    obtain ⟨b, more, rfl, hb⟩ := (Text.number numeral).head
    refine ⟨1, by simp; omega, over_scalar ⟨hb.starts.noBlank, ?_, ?_⟩ hskip⟩
    all_goals
      rintro rfl
      rcases hb with h | h <;> cases h
  | @string cs bs chars =>
    refine ⟨1, by simp; omega, over_scalar (by decide) fun rest _ => ?_⟩
    rw [List.cons_append, List.append_assoc]
    exact skipString_text chars rest
  | noElements blanks => exact ⟨2, by simp, (inside_blanks blanks).array⟩
  | array _ ih =>
    obtain ⟨k, hk, hinside⟩ := ih
    exact ⟨k + 2, by simp; omega, hinside.array⟩
  | noMembers blanks => exact ⟨2, by simp, (inside_blanks blanks).object⟩
  | object _ ih =>
    obtain ⟨k, hk, hinside⟩ := ih
    exact ⟨k + 2, by simp; omega, hinside.object⟩
  | lastElement blanks value blanks' ih =>
    obtain ⟨k, hk, hover⟩ := ih
    have hlast := (led_element blanks value hover).last blanks'
    rw [List.append_assoc] at hlast
    exact ⟨k + 1, by simp; omega, hlast⟩
  | element blanks value blanks' others ih ih' =>
    obtain ⟨k, hk, hover⟩ := ih
    obtain ⟨k', hk', hinside⟩ := ih'
    have hmore := (led_element blanks value hover).more blanks' (opens_elements others) hinside
    rw [List.append_assoc] at hmore
    exact ⟨k' + (k + 1), by simp; omega, hmore⟩
  | lastMember nameText value blanks ih =>
    obtain ⟨k, hk, hover⟩ := ih
    have hlast := (led_member nameText hover).last blanks
    rw [List.append_assoc] at hlast
    exact ⟨k + 1, by simp; omega, hlast⟩
  | member nameText value blanks others ih ih' =>
    obtain ⟨k, hk, hover⟩ := ih
    obtain ⟨k', hk', hinside⟩ := ih'
    have hmore := (led_member nameText hover).more blanks (opens_members others) hinside
    rw [List.append_assoc] at hmore
    exact ⟨k' + (k + 1), by simp; omega, hmore⟩

/-- Any value is passed over, and nothing more. -/
theorem skipValue_text {v : Shape} (h : Text (.value v) bs) (hws : Blanks ws)
    (hrest : ∀ b ∈ rest.head?, EndsNumber b) : skipValue (ws ++ (bs ++ rest)) = .ok rest := by
  obtain ⟨k, hk, hpassed⟩ := passed h
  have hfuel : ∃ fuel, 2 * (ws ++ (bs ++ rest)).length + 2 = fuel + 1 + k := by
    refine ⟨2 * (ws ++ (bs ++ rest)).length + 1 - k, ?_⟩
    simp only [List.length_append]
    omega
  obtain ⟨fuel, hfuel⟩ := hfuel
  rw [skipValue, skipFrom_blanks hws, hfuel, hpassed (fuel + 1) [] rest hrest]
  rfl

end CrashCapture.Json
