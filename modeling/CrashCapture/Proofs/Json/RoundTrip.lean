import CrashCapture.Json.Parser
import CrashCapture.Proofs.Json.Tokens

namespace CrashCapture

namespace Members

variable {α : Type}

/-- In the order of their names, one of each. -/
def Ordered (ms : Members α) : Prop := (ms.map Prod.fst).Pairwise (· < ·)

instance (ms : Members α) : Decidable ms.Ordered :=
  inferInstanceAs (Decidable (List.Pairwise _ _))

theorem insert_last {ms : Members α} {key : String} (h : ∀ m ∈ ms, m.1 < key) (value : α) :
    ms.insert key value = ms ++ [(key, value)] := by
  induction ms with
  | nil => rfl
  | cons m ms ih =>
    obtain ⟨k, v⟩ := m
    have hk : k < key := h (k, v) List.mem_cons_self
    have hne : k ≠ key := fun heq => String.lt_irrefl key (heq ▸ hk)
    rw [insert, if_neg hne, if_neg (String.lt_asymm hk),
      ih fun m hm => h m (List.mem_cons_of_mem _ hm)]
    rfl

theorem Ordered.before {ms rest : Members α} {m : String × α} (h : Ordered (ms ++ m :: rest)) :
    ∀ other ∈ ms, other.1 < m.1 := by
  intro other hother
  rw [Ordered, List.map_append, List.pairwise_append] at h
  exact h.2.2 other.1 (List.mem_map_of_mem hother) m.1 (by simp)

end Members

namespace Json

/-- The first byte of a value: it is no blank, and does not end an array. -/
structure Starts (b : UInt8) : Prop where
  noBlank : isBlank b = false
  noEnd : b ≠ 93

theorem Starts.of_isDigit {d : UInt8} (hd : Bytes.isDigit d = true) : Starts d := by
  have hne : d ≠ 32 ∧ d ≠ 10 ∧ d ≠ 9 ∧ d ≠ 13 :=
    ⟨ne_of_isDigit hd rfl, ne_of_isDigit hd rfl, ne_of_isDigit hd rfl, ne_of_isDigit hd rfl⟩
  exact ⟨by simp [isBlank, hne], ne_of_isDigit hd rfl⟩

section Elements

variable {α : Type} {step : α → Bytes → Decode (α × Bytes)} {fuel : Nat} {state state' : α}
  {b : UInt8} {blanks text rest : Bytes}

theorem foldElements_first (hblanks : ∀ c ∈ blanks, isBlank c = true) (hb : Starts b)
    (hstep : step state (b :: text) = .ok (state', rest)) :
    foldElements step (fuel + 1) true state (blanks ++ b :: text) =
      foldElements step fuel false state' rest := by
  have hclose := hb.noEnd
  rw [foldElements, skipBlanks_append hblanks hb.noBlank]
  simp [hstep, bind, Except.bind]

theorem foldElements_next (hblanks : ∀ c ∈ blanks, isBlank c = true) (hb : Starts b)
    (hstep : step state (b :: text) = .ok (state', rest)) :
    foldElements step (fuel + 1) false state (44 :: (blanks ++ b :: text)) =
      foldElements step fuel false state' rest := by
  have hcomma : ∀ text, skipBlanks (44 :: text) = 44 :: text := fun _ => rfl
  have hclose := hb.noEnd
  rw [foldElements, hcomma]
  simp [skipBlanks_append hblanks hb.noBlank, hclose, hstep, bind, Except.bind]

theorem foldElements_end (hblanks : ∀ c ∈ blanks, isBlank c = true) (first : Bool) :
    foldElements step (fuel + 1) first state (blanks ++ 93 :: rest) = .ok (state, rest) := by
  rw [foldElements, skipBlanks_append hblanks rfl]
  rfl

end Elements

section Members

variable {α : Type} {step : α → String → Bytes → Decode (α × Bytes)} {fuel : Nat} {state state' : α}
  {key : String} {blanks text rest : Bytes}

theorem foldMembers_first (hblanks : ∀ c ∈ blanks, isBlank c = true)
    (hstep : step state key text = .ok (state', rest)) :
    foldMembers step (fuel + 1) true state (blanks ++ encodeString key ++ text) =
      foldMembers step fuel false state' rest := by
  rw [encodeString, foldMembers, List.append_assoc]
  simp only [List.cons_append]
  rw [skipBlanks_append hblanks rfl, List.append_assoc]
  simp [stringTail_escaped, hstep, bind, Except.bind]

theorem foldMembers_next (hblanks : ∀ c ∈ blanks, isBlank c = true)
    (hstep : step state key text = .ok (state', rest)) :
    foldMembers step (fuel + 1) false state (44 :: (blanks ++ encodeString key ++ text)) =
      foldMembers step fuel false state' rest := by
  have hcomma : ∀ text, skipBlanks (44 :: text) = 44 :: text := fun _ => rfl
  have hline : ∀ text, skipBlanks (blanks ++ 34 :: text) = 34 :: text :=
    fun _ => skipBlanks_append hblanks rfl _
  rw [encodeString, foldMembers, hcomma, List.append_assoc]
  simp [hline, stringTail_escaped, hstep, bind, Except.bind]

theorem foldMembers_end (hblanks : ∀ c ∈ blanks, isBlank c = true) (first : Bool) :
    foldMembers step (fuel + 1) first state (blanks ++ 125 :: rest) = .ok (state, rest) := by
  rw [foldMembers, skipBlanks_append hblanks rfl]
  rfl

end Members

theorem isBlank_newline (level : Nat) : ∀ c ∈ newline level, isBlank c = true := by
  intro c hc
  rcases List.mem_cons.1 hc with rfl | hspace
  · rfl
  · rw [List.eq_of_mem_replicate hspace]
    rfl

/-- A way to write values: with blanks before each element and member, and after the colon of a member.
An element or member is written one level further in than its array or object. -/
structure Layout where
  write : Nat → Json → Bytes
  gap : Nat → Bytes
  space : Bytes
  gap_blank : ∀ level, ∀ c ∈ gap level, isBlank c = true
  space_blank : ∀ c ∈ space, isBlank c = true
  leaf : ∀ level v, (∀ vs, v ≠ .arr vs) → (∀ ms, v ≠ .obj ms) → write level v = encode v
  arr_nil : ∀ level, write level (.arr []) = [91, 93]
  arr_cons : ∀ level v vs, write level (.arr (v :: vs)) =
    91 :: (gap (level + 1) ++ write (level + 1) v ++
      (vs.flatMap fun w => 44 :: (gap (level + 1) ++ write (level + 1) w)) ++ (gap level ++ [93]))
  obj_nil : ∀ level, write level (.obj []) = [123, 125]
  obj_cons : ∀ level m ms, write level (.obj (m :: ms)) =
    123 :: (gap (level + 1) ++ encodeString m.1 ++ 58 :: (space ++ write (level + 1) m.2) ++
      (ms.flatMap fun m => 44 :: (gap (level + 1) ++ encodeString m.1 ++
        58 :: (space ++ write (level + 1) m.2))) ++ (gap level ++ [125]))

theorem encodeElements_cons (v : Json) (vs : List Json) :
    encodeElements (v :: vs) = encode v ++ vs.flatMap fun w => 44 :: encode w := by
  induction vs generalizing v with
  | nil => simp [encodeElements]
  | cons w vs ih => rw [encodeElements, ih, List.flatMap_cons, List.cons_append]

theorem encodeMembers_cons (m : String × Json) (ms : Members Json) :
    encodeMembers (m :: ms) = encodeString m.1 ++ 58 :: encode m.2 ++
      ms.flatMap fun m => 44 :: (encodeString m.1 ++ 58 :: encode m.2) := by
  induction ms generalizing m with
  | nil => simp [encodeMembers]
  | cons m' ms ih => rw [encodeMembers, ih, List.flatMap_cons, List.cons_append]

theorem prettyElements_cons (level : Nat) (v : Json) (vs : List Json) :
    prettyElements level (v :: vs) = newline level ++ encodePretty level v ++
      vs.flatMap fun w => 44 :: (newline level ++ encodePretty level w) := by
  induction vs generalizing v with
  | nil => simp [prettyElements]
  | cons w vs ih => rw [prettyElements, ih, List.flatMap_cons, List.cons_append]

theorem prettyMembers_cons (level : Nat) (m : String × Json) (ms : Members Json) :
    prettyMembers level (m :: ms) =
      newline level ++ encodeString m.1 ++ 58 :: 32 :: encodePretty level m.2 ++
        ms.flatMap fun m =>
          44 :: (newline level ++ encodeString m.1 ++ 58 :: 32 :: encodePretty level m.2) := by
  induction ms generalizing m with
  | nil => simp [prettyMembers]
  | cons m' ms ih => rw [prettyMembers, ih, List.flatMap_cons, List.cons_append]

namespace Layout

/-- With no blanks at all. -/
def compact : Layout where
  write _ := encode
  gap _ := []
  space := []
  gap_blank _ := nofun
  space_blank := nofun
  leaf _ _ _ _ := rfl
  arr_nil _ := by rw [encode, encodeElements]; rfl
  arr_cons _ v vs := by simp [encode, encodeElements_cons]
  obj_nil _ := by rw [encode, encodeMembers]; rfl
  obj_cons _ m ms := by simp [encode, encodeMembers_cons]

/-- One element or member a line. -/
def lines : Layout where
  write := encodePretty
  gap := newline
  space := [32]
  gap_blank := isBlank_newline
  space_blank := List.forall_mem_singleton.2 rfl
  leaf level v noArray noObject := by
    cases v with
    | arr vs => exact absurd rfl (noArray vs)
    | obj ms => exact absurd rfl (noObject ms)
    | _ => rw [encodePretty] <;> simp
  arr_nil _ := by rw [encodePretty]
  arr_cons _ v vs := by simp [encodePretty, prettyElements_cons]
  obj_nil _ := by rw [encodePretty]
  obj_cons _ m ms := by simp [encodePretty, prettyMembers_cons]

end Layout

/-- Values with integers of 64 bits, with or without a sign, as their only numbers, which are nested
that deep at most. -/
inductive Exact : Nat → Json → Prop
  | null {depth : Nat} : Exact depth .null
  | bool {depth : Nat} (b : Bool) : Exact depth (.bool b)
  | int {depth : Nat} {n : Int} (lower : -2 ^ 63 ≤ n) (upper : n < 2 ^ 64) :
    Exact depth (.num (.int n))
  | str {depth : Nat} (s : String) : Exact depth (.str s)
  | arr {depth : Nat} {vs : List Json} (elements : ∀ v ∈ vs, Exact depth v) :
    Exact (depth + 1) (.arr vs)
  | obj {depth : Nat} {ms : Members Json} (ordered : ms.Ordered)
    (members : ∀ m ∈ ms, Exact depth m.2) : Exact (depth + 1) (.obj ms)

theorem Exact.mono {depth : Nat} {v : Json} (h : Exact depth v) :
    ∀ {deeper : Nat}, depth ≤ deeper → Exact deeper v := by
  induction h with
  | null => exact fun _ => .null
  | bool b => exact fun _ => .bool b
  | int lower upper => exact fun _ => .int lower upper
  | str s => exact fun _ => .str s
  | arr elements ih =>
    intro deeper hdeeper
    obtain ⟨deeper, rfl⟩ := Nat.exists_eq_add_one_of_ne_zero (Nat.ne_zero_of_lt hdeeper)
    exact .arr fun v hv => ih v hv (Nat.le_of_succ_le_succ hdeeper)
  | obj ordered members ih =>
    intro deeper hdeeper
    obtain ⟨deeper, rfl⟩ := Nat.exists_eq_add_one_of_ne_zero (Nat.ne_zero_of_lt hdeeper)
    exact .obj ordered fun m hm => ih m hm (Nat.le_of_succ_le_succ hdeeper)

theorem encode_null : encode .null = 110 :: [117, 108, 108] := by decide +kernel

theorem encode_true : encode (.bool true) = 116 :: [114, 117, 101] := by decide +kernel

theorem encode_false : encode (.bool false) = 102 :: [97, 108, 115, 101] := by decide +kernel

theorem encode_int (n : Int) : encode (.num (.int n)) = Bytes.ofString (toString n) := by
  rw [encode, Number.text]

theorem Exact.head {depth : Nat} {v : Json} (h : Exact depth v) (l : Layout) (level : Nat) :
    ∃ b text, l.write level v = b :: text ∧ Starts b := by
  cases h with
  | null => exact ⟨_, _, (l.leaf level .null nofun nofun).trans encode_null, rfl, by decide⟩
  | bool b =>
    have hwrite := l.leaf level (.bool b) nofun nofun
    cases b with
    | true => exact ⟨_, _, hwrite.trans encode_true, rfl, by decide⟩
    | false => exact ⟨_, _, hwrite.trans encode_false, rfl, by decide⟩
  | @int _ n _ _ =>
    have hwrite := (l.leaf level (.num (.int n)) nofun nofun).trans (encode_int n)
    obtain ⟨b, text, htext, hb | hb⟩ := ofString_toString_head n
    · exact ⟨b, text, hwrite.trans htext, by subst hb; exact ⟨rfl, by decide⟩⟩
    · exact ⟨b, text, hwrite.trans htext, .of_isDigit hb⟩
  | str s =>
    have hwrite := l.leaf level (.str s) nofun nofun
    rw [encode, encodeString, List.cons_append] at hwrite
    exact ⟨34, _, hwrite, rfl, by decide⟩
  | @arr _ vs elements =>
    cases vs with
    | nil => exact ⟨91, _, l.arr_nil level, rfl, by decide⟩
    | cons v vs => exact ⟨91, _, l.arr_cons level v vs, rfl, by decide⟩
  | @obj _ ms ordered members =>
    cases ms with
    | nil => exact ⟨123, _, l.obj_nil level, rfl, by decide⟩
    | cons m ms => exact ⟨123, _, l.obj_cons level m ms, rfl, by decide⟩

/-- Neither a comma nor a bracket goes on with a number. -/
theorem EndsNumber.of_mem {b : UInt8} (h : b ∈ [44, 93, 123, 125]) : EndsNumber b := by
  simp only [List.mem_cons, List.not_mem_nil, or_false] at h
  rcases h with rfl | rfl | rfl | rfl
  all_goals exact ⟨rfl, by decide, by decide, by decide⟩

theorem EndsNumber.of_isBlank {b : UInt8} (h : isBlank b = true) : EndsNumber b := by
  simp only [isBlank, Bool.or_eq_true, decide_eq_true_eq] at h
  rcases h with ((rfl | rfl) | rfl) | rfl
  all_goals exact ⟨rfl, by decide, by decide, by decide⟩

/-- Blanks, commas and brackets do not go on with a number. -/
theorem ends_of_blanks {ws : Bytes} (h : ∀ c ∈ ws, isBlank c = true) {b : UInt8}
    (hb : b ∈ [44, 93, 123, 125]) (rest : Bytes) :
    ∀ c ∈ (ws ++ b :: rest).head?, EndsNumber c := by
  intro c hc
  cases ws with
  | nil =>
    cases hc
    exact .of_mem hb
  | cons w ws =>
    cases hc
    exact .of_isBlank (h c List.mem_cons_self)

/-- Items with a comma before each, and the bracket that ends them. -/
def continued {α : Type} (write : α → Bytes) (blanks : Bytes) (close : UInt8) (as : List α)
    (rest : Bytes) : Bytes := (as.flatMap fun a => 44 :: write a) ++ (blanks ++ close :: rest)

section Continued

variable {α : Type} {write : α → Bytes} {blanks : Bytes} {close : UInt8}

theorem continued_cons (a : α) (as : List α) (rest : Bytes) :
    continued write blanks close (a :: as) rest =
      44 :: (write a ++ continued write blanks close as rest) := by
  simp [continued]

theorem ends_continued (hblanks : ∀ c ∈ blanks, isBlank c = true)
    (hclose : close = 93 ∨ close = 125) (as : List α) (rest : Bytes) :
    ∀ b ∈ (continued write blanks close as rest).head?, EndsNumber b := by
  cases as with
  | nil => exact ends_of_blanks hblanks (by rcases hclose with rfl | rfl <;> decide) rest
  | cons a as =>
    intro b hb
    obtain rfl : 44 = b := by simpa [continued] using hb
    exact .of_mem (by decide)

theorem length_item_le {as : List α} {a : α} (ha : a ∈ as) (rest : Bytes) :
    (write a).length ≤ (continued write blanks close as rest).length := by
  induction as with
  | nil => cases ha
  | cons other as ih =>
    rw [continued_cons, List.length_cons, List.length_append]
    rcases List.mem_cons.1 ha with rfl | ha
    · omega
    · have := ih ha
      omega

theorem length_le_continued (as : List α) (rest : Bytes) :
    as.length < (continued write blanks close as rest).length := by
  induction as with
  | nil =>
    rw [continued, List.flatMap_nil, List.nil_append, List.length_append]
    exact Nat.lt_add_left _ (Nat.succ_pos _)
  | cons a as ih =>
    rw [continued_cons, List.length_cons, List.length_cons, List.length_append]
    omega

end Continued

namespace Layout

variable (l : Layout) (level : Nat)

def element (v : Json) : Bytes := l.gap level ++ l.write level v

def member (m : String × Json) : Bytes :=
  l.gap level ++ encodeString m.1 ++ 58 :: (l.space ++ l.write level m.2)

def elements (vs : List Json) (rest : Bytes) : Bytes :=
  continued (l.element (level + 1)) (l.gap level) 93 vs rest

def members (ms : Members Json) (rest : Bytes) : Bytes :=
  continued (l.member (level + 1)) (l.gap level) 125 ms rest

theorem write_arr (v : Json) (vs : List Json) (rest : Bytes) :
    l.write level (.arr (v :: vs)) ++ rest =
      91 :: (l.gap (level + 1) ++ (l.write (level + 1) v ++ l.elements level vs rest)) := by
  rw [l.arr_cons]
  simp [elements, element, continued]

theorem write_obj (m : String × Json) (ms : Members Json) (rest : Bytes) :
    l.write level (.obj (m :: ms)) ++ rest =
      123 :: (l.gap (level + 1) ++ encodeString m.1 ++
        (58 :: (l.space ++ l.write (level + 1) m.2) ++ l.members level ms rest)) := by
  rw [l.obj_cons]
  simp [members, member, continued]

/-- An array has no more elements than bytes, and none of them has more. -/
theorem arr_fits (vs : List Json) :
    vs.length ≤ (l.write level (.arr vs)).length ∧
      ∀ v ∈ vs, (l.write (level + 1) v).length ≤ (l.write level (.arr vs)).length := by
  cases vs with
  | nil => exact ⟨Nat.zero_le _, nofun⟩
  | cons v vs =>
    have hwrite := congrArg List.length (l.write_arr level v vs [])
    simp only [List.append_nil, List.length_cons, List.length_append] at hwrite
    have hcount : vs.length < (l.elements level vs []).length := length_le_continued vs []
    refine ⟨by rw [List.length_cons]; omega, fun w hw => ?_⟩
    rcases List.mem_cons.1 hw with rfl | hw
    · omega
    · have hitem : (l.element (level + 1) w).length ≤ (l.elements level vs []).length :=
        length_item_le hw []
      rw [element, List.length_append] at hitem
      omega

theorem obj_fits (ms : Members Json) :
    ms.length ≤ (l.write level (.obj ms)).length ∧
      ∀ m ∈ ms, (l.write (level + 1) m.2).length ≤ (l.write level (.obj ms)).length := by
  cases ms with
  | nil => exact ⟨Nat.zero_le _, nofun⟩
  | cons m ms =>
    have hwrite := congrArg List.length (l.write_obj level m ms [])
    simp only [List.append_nil, List.length_cons, List.length_append] at hwrite
    have hcount : ms.length < (l.members level ms []).length := length_le_continued ms []
    refine ⟨by rw [List.length_cons]; omega, fun other hother => ?_⟩
    rcases List.mem_cons.1 hother with rfl | hother
    · omega
    · have hitem : (l.member (level + 1) other).length ≤ (l.members level ms []).length :=
        length_item_le hother []
      simp only [member, List.length_append, List.length_cons] at hitem
      omega

end Layout

section Loops

variable {l : Layout} {level depth fuel : Nat} {rest : Bytes}

/-- The step reads a value that was written, and puts it before those that were read. -/
def ReadsElement (l : Layout) (level : Nat)
    (step : List Json → Bytes → Decode (List Json × Bytes)) (v : Json) : Prop :=
  ∀ (read : List Json) (rest : Bytes), (∀ b ∈ rest.head?, EndsNumber b) →
    step read (l.write level v ++ rest) = .ok (v :: read, rest)

/-- The step reads what was written of a member after its name, and puts it behind those that were
read, whose names come before. -/
def ReadsMember (l : Layout) (level : Nat)
    (step : Members Json → String → Bytes → Decode (Members Json × Bytes)) (m : String × Json) :
    Prop :=
  ∀ (read : Members Json) (rest : Bytes), (∀ other ∈ read, other.1 < m.1) →
    (∀ b ∈ rest.head?, EndsNumber b) →
      step read m.1 (58 :: (l.space ++ l.write level m.2) ++ rest) = .ok (read ++ [m], rest)

theorem foldElements_continued {step : List Json → Bytes → Decode (List Json × Bytes)}
    {vs : List Json} (hvs : ∀ v ∈ vs, Exact depth v ∧ ReadsElement l (level + 1) step v)
    (hfuel : vs.length < fuel) (read : List Json) :
    foldElements step fuel false read (l.elements level vs rest) = .ok (vs.reverse ++ read, rest) := by
  induction vs generalizing fuel read with
  | nil =>
    obtain ⟨fuel, rfl⟩ := Nat.exists_eq_add_one_of_ne_zero (Nat.ne_zero_of_lt hfuel)
    exact foldElements_end (l.gap_blank level) false
  | cons v vs ih =>
    obtain ⟨fuel, rfl⟩ := Nat.exists_eq_add_one_of_ne_zero (Nat.ne_zero_of_lt hfuel)
    obtain ⟨exact, reads⟩ := hvs v List.mem_cons_self
    obtain ⟨b, text, htext, hb⟩ := exact.head l (level + 1)
    have hread := reads read (l.elements level vs rest)
      (ends_continued (l.gap_blank level) (.inl rfl) vs rest)
    have hcons : l.elements level (v :: vs) rest =
        44 :: (l.gap (level + 1) ++ (l.write (level + 1) v ++ l.elements level vs rest)) := by
      rw [Layout.elements, continued_cons, Layout.element, List.append_assoc]
      rfl
    rw [htext, List.cons_append] at hread hcons
    rw [hcons, foldElements_next (l.gap_blank _) hb hread,
      ih (fun w hw => hvs w (List.mem_cons_of_mem v hw)) (Nat.lt_of_succ_lt_succ hfuel)]
    simp

theorem foldElements_write {step : List Json → Bytes → Decode (List Json × Bytes)} {v : Json}
    {vs : List Json} (hvs : ∀ w ∈ v :: vs, Exact depth w ∧ ReadsElement l (level + 1) step w)
    (hfuel : (v :: vs).length < fuel) :
    foldElements step fuel true []
      (l.gap (level + 1) ++ (l.write (level + 1) v ++ l.elements level vs rest)) =
      .ok ((v :: vs).reverse, rest) := by
  obtain ⟨fuel, rfl⟩ := Nat.exists_eq_add_one_of_ne_zero (Nat.ne_zero_of_lt hfuel)
  obtain ⟨exact, reads⟩ := hvs v List.mem_cons_self
  obtain ⟨b, text, htext, hb⟩ := exact.head l (level + 1)
  have hread := reads [] (l.elements level vs rest)
    (ends_continued (l.gap_blank level) (.inl rfl) vs rest)
  rw [htext, List.cons_append] at hread
  rw [htext, List.cons_append, foldElements_first (l.gap_blank _) hb hread,
    foldElements_continued (fun w hw => hvs w (List.mem_cons_of_mem v hw))
      (Nat.lt_of_succ_lt_succ hfuel), List.reverse_cons]

theorem foldMembers_continued
    {step : Members Json → String → Bytes → Decode (Members Json × Bytes)} {ms read : Members Json}
    (hms : ∀ m ∈ ms, ReadsMember l (level + 1) step m) (ordered : (read ++ ms).Ordered)
    (hfuel : ms.length < fuel) :
    foldMembers step fuel false read (l.members level ms rest) = .ok (read ++ ms, rest) := by
  induction ms generalizing fuel read with
  | nil =>
    obtain ⟨fuel, rfl⟩ := Nat.exists_eq_add_one_of_ne_zero (Nat.ne_zero_of_lt hfuel)
    rw [List.append_nil]
    exact foldMembers_end (l.gap_blank level) false
  | cons m ms ih =>
    obtain ⟨fuel, rfl⟩ := Nat.exists_eq_add_one_of_ne_zero (Nat.ne_zero_of_lt hfuel)
    have hread := hms m List.mem_cons_self read (l.members level ms rest)
      ordered.before (ends_continued (l.gap_blank level) (.inr rfl) ms rest)
    have hcons : l.members level (m :: ms) rest = 44 :: (l.gap (level + 1) ++ encodeString m.1 ++
        (58 :: (l.space ++ l.write (level + 1) m.2) ++ l.members level ms rest)) := by
      rw [Layout.members, continued_cons, Layout.member, List.append_assoc]
      rfl
    rw [hcons, foldMembers_next (l.gap_blank _) hread,
      ih (fun other hother => hms other (List.mem_cons_of_mem m hother)) (by simpa using ordered)
        (Nat.lt_of_succ_lt_succ hfuel)]
    simp

theorem foldMembers_write
    {step : Members Json → String → Bytes → Decode (Members Json × Bytes)} {m : String × Json}
    {ms : Members Json} (hms : ∀ other ∈ m :: ms, ReadsMember l (level + 1) step other)
    (ordered : Members.Ordered (m :: ms)) (hfuel : (m :: ms).length < fuel) :
    foldMembers step fuel true [] (l.gap (level + 1) ++ encodeString m.1 ++
      (58 :: (l.space ++ l.write (level + 1) m.2) ++ l.members level ms rest)) =
      .ok (m :: ms, rest) := by
  obtain ⟨fuel, rfl⟩ := Nat.exists_eq_add_one_of_ne_zero (Nat.ne_zero_of_lt hfuel)
  have hread := hms m List.mem_cons_self [] (l.members level ms rest) nofun
    (ends_continued (l.gap_blank level) (.inr rfl) ms rest)
  rw [foldMembers_first (l.gap_blank _) hread,
    foldMembers_continued (fun other hother => hms other (List.mem_cons_of_mem m hother))
      (by simpa using ordered) (Nat.lt_of_succ_lt_succ hfuel)]
  simp

end Loops

/-- What is written of the value is read back, whatever follows it that does not go on with a
number. -/
def Reads (l : Layout) (level size depth : Nat) (v : Json) : Prop :=
  ∀ rest : Bytes, (∀ b ∈ rest.head?, EndsNumber b) →
    value size depth (l.write level v ++ rest) = .ok (v, rest)

theorem value_blanks {size depth : Nat} {blanks : Bytes} (hblanks : ∀ c ∈ blanks, isBlank c = true)
    (text : Bytes) : value size depth (blanks ++ text) = value size depth text := by
  have hskip : skipBlanks (blanks ++ text) = skipBlanks text :=
    List.dropWhile_append_of_pos hblanks
  cases depth <;> simp only [value, hskip]

/-- What is no array or object is read in the same way at every depth. -/
theorem value_scalar {size depth : Nat} {b : UInt8} (hb : isBlank b = false) (harray : b ≠ 91)
    (hobject : b ≠ 123) (text : Bytes) : value size depth (b :: text) = scalar (b :: text) := by
  cases depth <;> simp [value, skipBlanks_self hb, harray, hobject]

theorem scalar_number {b : UInt8} (hb : b = 45 ∨ Bytes.isDigit b = true) {text rest : Bytes}
    {n : Number} (hnumber : number (b :: text) = .ok (n, rest)) :
    scalar (b :: text) = .ok (.num n, rest) := by
  obtain ⟨hnull, htrue, hfalse, hquote⟩ : b ≠ 110 ∧ b ≠ 116 ∧ b ≠ 102 ∧ b ≠ 34 := by
    rcases hb with rfl | hb
    · decide
    · exact ⟨ne_of_isDigit hb rfl, ne_of_isDigit hb rfl, ne_of_isDigit hb rfl, ne_of_isDigit hb rfl⟩
  simp [scalar, hb, hnumber, bind, Except.bind, pure, Except.pure]

/-- How an array goes on after its bracket. -/
def readElement (size depth : Nat) (read : List Json) (text : Bytes) :
    Decode (List Json × Bytes) := do
  let (v, rest) ← value size depth text
  return (v :: read, rest)

/-- How an object goes on after the name of a member. -/
def readMember (size depth : Nat) (read : Members Json) (key : String) (text : Bytes) :
    Decode (Members Json × Bytes) := do
  let text ← punctuation 58 text
  let (v, rest) ← value size depth text
  return (read.insert key v, rest)

theorem value_array (size depth : Nat) (text : Bytes) :
    value size (depth + 1) (91 :: text) = do
      let (vs, rest) ← foldElements (readElement size depth) (size + 1) true [] text
      return (.arr vs.reverse, rest) := rfl

theorem value_object (size depth : Nat) (text : Bytes) :
    value size (depth + 1) (123 :: text) = do
      let (ms, rest) ← foldMembers (readMember size depth) (size + 1) true [] text
      return (.obj ms, rest) := rfl

section Reads

variable {l : Layout} {level size depth : Nat}

theorem Reads.of_leaf {v : Json} (leaf : l.write level v = encode v)
    (h : ∀ rest : Bytes, (∀ b ∈ rest.head?, EndsNumber b) →
      value size depth (encode v ++ rest) = .ok (v, rest)) : Reads l level size depth v := by
  intro rest hrest
  rw [leaf]
  exact h rest hrest

theorem Reads.element {v : Json} (h : Reads l level size depth v) :
    ReadsElement l level (readElement size depth) v := by
  intro read rest hrest
  simp [readElement, h rest hrest, bind, Except.bind, pure, Except.pure]

theorem Reads.member {m : String × Json} (h : Reads l level size depth m.2) :
    ReadsMember l level (readMember size depth) m := by
  intro read rest hbefore hrest
  have hvalue : value size depth (l.space ++ (l.write level m.2 ++ rest)) = .ok (m.2, rest) :=
    (value_blanks l.space_blank _).trans (h rest hrest)
  simp [readMember, punctuation_self, isBlank, hvalue, Members.insert_last hbefore, bind,
    Except.bind, pure, Except.pure]

theorem Reads.arr {vs : List Json} (hvs : ∀ v ∈ vs, Exact depth v ∧ Reads l (level + 1) size depth v)
    (hsize : vs.length ≤ size) : Reads l level size (depth + 1) (.arr vs) := by
  intro rest _
  cases vs with
  | nil =>
    rw [l.arr_nil]
    rfl
  | cons v vs =>
    have helements : ∀ w ∈ v :: vs, Exact depth w ∧
        ReadsElement l (level + 1) (readElement size depth) w :=
      fun w hw => ⟨(hvs w hw).1, (hvs w hw).2.element⟩
    rw [l.write_arr, value_array, foldElements_write helements (Nat.lt_succ_of_le hsize)]
    simp [bind, Except.bind, pure, Except.pure]

theorem Reads.obj {ms : Members Json} (ordered : ms.Ordered)
    (hms : ∀ m ∈ ms, Reads l (level + 1) size depth m.2)
    (hsize : ms.length ≤ size) : Reads l level size (depth + 1) (.obj ms) := by
  intro rest _
  cases ms with
  | nil =>
    rw [l.obj_nil]
    rfl
  | cons m ms =>
    have hmembers : ∀ other ∈ m :: ms, ReadsMember l (level + 1) (readMember size depth) other :=
      fun other hother => (hms other hother).member
    rw [l.write_obj, value_object, foldMembers_write hmembers ordered (Nat.lt_succ_of_le hsize)]
    rfl

end Reads

theorem Exact.reads {depth : Nat} {v : Json} (h : Exact depth v) (l : Layout) :
    ∀ {level size : Nat}, (l.write level v).length ≤ size → Reads l level size depth v := by
  induction h with
  | null =>
    intro level size _
    refine .of_leaf (l.leaf level .null nofun nofun) fun rest _ => ?_
    rw [encode_null, List.cons_append, value_scalar rfl (by decide) (by decide), scalar, word_self]
    rfl
  | bool b =>
    intro level size _
    refine .of_leaf (l.leaf level (.bool b) nofun nofun) fun rest _ => ?_
    cases b with
    | true =>
      rw [encode_true, List.cons_append, value_scalar rfl (by decide) (by decide), scalar, word_self]
      rfl
    | false =>
      rw [encode_false, List.cons_append, value_scalar rfl (by decide) (by decide), scalar,
        word_self]
      rfl
  | @int depth n lower upper =>
    intro level size _
    refine .of_leaf (l.leaf level (.num (.int n)) nofun nofun) fun rest hrest => ?_
    obtain ⟨b, text, htext, hb⟩ := ofString_toString_head n
    have hnumber := number_toString lower upper hrest
    have starts : isBlank b = false ∧ b ≠ 91 ∧ b ≠ 123 := by
      rcases hb with rfl | hb
      · decide
      · exact ⟨(Starts.of_isDigit hb).noBlank, ne_of_isDigit hb rfl, ne_of_isDigit hb rfl⟩
    rw [htext, List.cons_append] at hnumber
    rw [encode_int, htext, List.cons_append, value_scalar starts.1 starts.2.1 starts.2.2,
      scalar_number hb hnumber]
  | str s =>
    intro level size _
    refine .of_leaf (l.leaf level (.str s) nofun nofun) fun rest _ => ?_
    rw [encode, encodeString, List.append_assoc, List.cons_append,
      value_scalar rfl (by decide) (by decide), scalar, List.singleton_append, stringTail_escaped]
    rfl
  | @arr depth vs elements ih =>
    intro level size hsize
    obtain ⟨hcount, hlength⟩ := l.arr_fits level vs
    exact .arr (fun v hv => ⟨elements v hv, ih v hv (Nat.le_trans (hlength v hv) hsize)⟩)
      (Nat.le_trans hcount hsize)
  | @obj depth ms ordered members ih =>
    intro level size hsize
    obtain ⟨hcount, hlength⟩ := l.obj_fits level ms
    exact .obj ordered (fun m hm => ih m hm (Nat.le_trans (hlength m hm) hsize))
      (Nat.le_trans hcount hsize)

theorem parse_write {v : Json} (h : Exact maxDepth v) (l : Layout) :
    parse (l.write 0 v) = .ok v := by
  have hread := h.reads l (Nat.le_refl (l.write 0 v).length) [] nofun
  rw [List.append_nil] at hread
  rw [parse, hread]
  rfl

theorem parse_encode {v : Json} (h : Exact maxDepth v) : parse (encode v) = .ok v :=
  parse_write h .compact

theorem parse_encodePretty {v : Json} (h : Exact maxDepth v) : parse (encodePretty 0 v) = .ok v :=
  parse_write h .lines

theorem encode_obj (ms : Members Json) :
    encode (.obj ms) = 123 :: (encodeMembers ms ++ [125]) := by
  rw [encode, List.cons_append]

theorem ends_objects {vs : List Json} (h : ∀ v ∈ vs, ∃ ms, v = .obj ms) :
    ∀ b ∈ (vs.flatMap encode).head?, EndsNumber b := by
  intro b hb
  cases vs with
  | nil => cases hb
  | cons v vs =>
    obtain ⟨ms, rfl⟩ := h v List.mem_cons_self
    obtain rfl : 123 = b := by simpa [encode_obj] using hb
    exact .of_mem (by decide)

theorem valuesFrom_flatMap {vs : List Json} (hobjects : ∀ v ∈ vs, ∃ ms, v = .obj ms)
    (hexact : ∀ v ∈ vs, Exact maxDepth v) {fuel : Nat} (hfuel : (vs.flatMap encode).length < fuel) :
    valuesFrom fuel (vs.flatMap encode) = .ok vs := by
  induction vs generalizing fuel with
  | nil =>
    obtain ⟨fuel, rfl⟩ := Nat.exists_eq_add_one_of_ne_zero (Nat.ne_zero_of_lt hfuel)
    rfl
  | cons v vs ih =>
    obtain ⟨fuel, rfl⟩ := Nat.exists_eq_add_one_of_ne_zero (Nat.ne_zero_of_lt hfuel)
    obtain ⟨ms, hv⟩ := hobjects v List.mem_cons_self
    have hothers : ∀ w ∈ vs, ∃ ms, w = .obj ms :=
      fun w hw => hobjects w (List.mem_cons_of_mem v hw)
    have htext : encode v = 123 :: (encodeMembers ms ++ [125]) := by rw [hv, encode_obj]
    rw [List.flatMap_cons, List.length_append, htext, List.length_cons] at hfuel
    have hsize : (encode v).length ≤ fuel := by
      rw [htext, List.length_cons]
      omega
    have hreads : Reads .compact 0 fuel maxDepth v :=
      (hexact v List.mem_cons_self).reads .compact hsize
    have hread : value fuel maxDepth (encode v ++ vs.flatMap encode) = .ok (v, vs.flatMap encode) :=
      hreads _ (ends_objects hothers)
    have hrest : valuesFrom fuel (vs.flatMap encode) = .ok vs :=
      ih hothers (fun w hw => hexact w (List.mem_cons_of_mem v hw)) (by omega)
    have hmore : (skipBlanks (encode v ++ vs.flatMap encode)).isEmpty = false := by
      rw [htext, List.cons_append, skipBlanks_self rfl]
      rfl
    rw [List.flatMap_cons, valuesFrom, hmore, hread]
    simp [hrest, bind, Except.bind, pure, Except.pure]

/-- Objects show where they end: written one after the other, with nothing in between, they are read
back as they were. -/
theorem parseAll_flatMap {vs : List Json} (hobjects : ∀ v ∈ vs, ∃ ms, v = .obj ms)
    (hexact : ∀ v ∈ vs, Exact maxDepth v) : parseAll (vs.flatMap encode) = .ok vs :=
  valuesFrom_flatMap hobjects hexact (Nat.lt_succ_self _)

end Json

end CrashCapture
