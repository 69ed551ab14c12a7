import CrashCapture.Proofs.Database.Settings
import CrashCapture.Proofs.Json.Objects

namespace CrashCapture.Settings

open Json

def uuid? : Shape → Option Uuid
  | .string s => Uuid.parse? s
  | _ => none

def bool? : Shape → Option Bool
  | .bool b => some b
  | _ => none

/-- Null, or a natural number of 64 bits. -/
def time? : Shape → Option (Option UInt64)
  | .null => some none
  | .number ⟨false, whole, none, none⟩ =>
    if decimal whole < 2 ^ 64 then some (some (decimal whole).toUInt64) else none
  | _ => none

variable {v : Shape} {ws bs rest : Bytes}

theorem readValue_blanks {α : Type} {read : Bytes → Decode (α × Bytes)} {b : UInt8}
    (blanks : Blanks ws) (hb : isBlank b = false) :
    readValue read (ws ++ b :: rest) = read (b :: rest) := by
  rw [readValue, skipBlanks_append blanks hb]

theorem readValue_text {α : Type} {read : Bytes → Decode (α × Bytes)} (blanks : Blanks ws)
    (text : Text (.value v) bs) : readValue read (ws ++ (bs ++ rest)) = read (bs ++ rest) := by
  obtain ⟨b, more, rfl, hb⟩ := text.head
  exact readValue_blanks blanks hb.starts.noBlank

/-- Nothing else starts like a number. -/
theorem ne_of_number {n : Numeral} {b c : UInt8} (h : Shape.StartsWith b (.number n))
    (hminus : c ≠ 45) (hdigit : Bytes.isDigit c = false) : b ≠ c := by
  rintro rfl
  rcases h with rfl | hd
  · exact hminus rfl
  · exact ne_of_isDigit hd hdigit rfl

theorem readUuid_text (blanks : Blanks ws) (text : Text (.value v) bs) :
    Gives (readUuid (ws ++ (bs ++ rest))) (uuid? v) rest := by
  rw [readUuid, readValue_text blanks text]
  cases text with
  | string chars =>
    have hstring := stringTail_text chars rest
    simp only [List.cons_append, List.append_assoc, List.nil_append, uuid?]
    simp only [hstring, bind, Except.bind]
    cases Uuid.parse? (.ofList _) with
    | some u => exact rfl
    | none => exact ⟨_, rfl⟩
  | number numeral =>
    obtain ⟨b, more, rfl, hb⟩ := (Text.number numeral).head
    dsimp only
    split
    · next heq => exact absurd (List.cons.inj heq).1 (ne_of_number hb (by decide) rfl)
    · exact ⟨_, rfl⟩
  | _ => exact ⟨_, rfl⟩

theorem readBool_text (blanks : Blanks ws) (text : Text (.value v) bs) :
    Gives (readBool (ws ++ (bs ++ rest))) (bool? v) rest := by
  rw [readBool, readValue_text blanks text]
  cases text with
  | true =>
    have hword := word_self [114, 117, 101] rest
    simp only [List.cons_append, List.nil_append] at hword ⊢
    simp only [hword, bind, Except.bind]
    exact rfl
  | false =>
    have hword := word_self [97, 108, 115, 101] rest
    simp only [List.cons_append, List.nil_append] at hword ⊢
    simp only [hword, bind, Except.bind]
    exact rfl
  | number numeral =>
    obtain ⟨b, more, rfl, hb⟩ := (Text.number numeral).head
    split
    · next heq => exact absurd (List.cons.inj heq).1 (ne_of_number hb (by decide) rfl)
    · next heq => exact absurd (List.cons.inj heq).1 (ne_of_number hb (by decide) rfl)
    · exact ⟨_, rfl⟩
  | _ => exact ⟨_, rfl⟩

/-- A number is a time if and only if it is read as an integer that is not negative. -/
theorem number_of_numeral (n : Numeral) :
    (∃ k : Nat, n.number = .ok (.int k) ∧ time? (.number n) = some (some k.toUInt64)) ∨
      time? (.number n) = none ∧ ∀ k : Nat, n.number ≠ .ok (.int k) := by
  simp only [ne_eq, number_eq_int_iff]
  obtain ⟨negative, whole, fraction, exponent⟩ := n
  rcases fraction with _ | fraction
  · rcases exponent with _ | exponent
    · cases negative with
      | true =>
        refine .inr ⟨rfl, ?_⟩
        rintro k ⟨-, hfits, hk⟩
        have hne : decimal whole ≠ 0 := hfits.1
        have hneg : (k : Int) = -(decimal whole : Int) := hk
        omega
      | false =>
        by_cases hlt : decimal whole < 2 ^ 64
        · exact .inl ⟨decimal whole, ⟨⟨rfl, rfl⟩, hlt, rfl⟩, if_pos hlt⟩
        · exact .inr ⟨if_neg hlt, fun k h => hlt h.2.1⟩
    · refine .inr ⟨by cases negative <;> rfl, ?_⟩
      rintro k ⟨⟨-, h⟩, -⟩
      cases h
  · refine .inr ⟨by cases negative <;> rfl, ?_⟩
    rintro k ⟨⟨h, -⟩, -⟩
    cases h

theorem readTime_text (blanks : Blanks ws) (text : Text (.value v) bs)
    (hrest : ∀ b ∈ rest.head?, EndsNumber b) :
    Gives (readTime (ws ++ (bs ++ rest))) (time? v) rest := by
  rw [readTime, readValue_text blanks text]
  cases text with
  | null =>
    have hword := word_self [117, 108, 108] rest
    simp only [List.cons_append, List.nil_append] at hword ⊢
    simp only [hword, bind, Except.bind]
    exact rfl
  | @number n bs numeral =>
    have hnumeral : Json.numeral .truncated (bs ++ rest) = .ok (n, rest) := numeral_text numeral hrest
    obtain ⟨b, more, rfl, hb⟩ := (Text.number numeral).head
    have hstart : (b = 45 || Bytes.isDigit b) = true := by simpa [Shape.StartsWith] using hb
    rw [List.cons_append] at hnumeral ⊢
    dsimp only
    split
    · next heq => exact absurd (List.cons.inj heq).1 (ne_of_number hb (by decide) rfl)
    · next heq =>
      obtain ⟨rfl, rfl⟩ := List.cons.inj heq
      rw [if_pos hstart, number, hnumeral]
      simp only [bind, Except.bind]
      rcases number_of_numeral n with ⟨k, hnumber, htime⟩ | ⟨htime, hnumber⟩
      · rw [hnumber, htime]
        exact rfl
      · rw [htime]
        cases hread : n.number with
        | error e => exact ⟨e, rfl⟩
        | ok read =>
          rcases read with (k | k) | bits
          · exact absurd hread (hnumber k)
          · exact ⟨_, rfl⟩
          · exact ⟨_, rfl⟩
    · next heq => cases heq
  | _ => exact ⟨_, rfl⟩

namespace Draft

/-- What is read of one member. -/
def take (d : Draft) (m : String × Shape) : Option Draft :=
  if m.1 = "client_id" then
    if d.clientId.isSome then none else (uuid? m.2).map fun v => { d with clientId := some v }
  else if m.1 = "uploads_enabled" then
    if d.uploadsEnabled.isSome then none
    else (bool? m.2).map fun v => { d with uploadsEnabled := some v }
  else if m.1 = "last_upload_attempt" then
    if d.lastUploadAttempt.isSome then none
    else (time? m.2).map fun v => { d with lastUploadAttempt := some v }
  else some d

theorem readsMembers : ReadsMembers member take := by
  intro d key v after colon bs rest hafter hcolon text hrest
  have hpunctuation : punctuation 58 (after ++ 58 :: (colon ++ (bs ++ rest))) =
      .ok (colon ++ (bs ++ rest)) := punctuation_blanks hafter rfl _
  unfold member take
  rw [hpunctuation]
  dsimp only
  split
  · split
    · exact ⟨_, rfl⟩
    · exact (readUuid_text hcolon text).map fun v => { d with clientId := some v }
  split
  · split
    · exact ⟨_, rfl⟩
    · exact (readBool_text hcolon text).map fun v => { d with uploadsEnabled := some v }
  split
  · split
    · exact ⟨_, rfl⟩
    · exact (readTime_text hcolon text hrest).map fun v => { d with lastUploadAttempt := some v }
  · have hskip : skipValue (colon ++ (bs ++ rest)) = .ok rest := skipValue_text text hcolon hrest
    change (skipValue (colon ++ (bs ++ rest)) >>= fun rest => pure (d, rest)) = _
    rw [hskip]
    rfl

end Draft

/-- The values of the members with a name. -/
def values (key : String) (ms : List (String × Shape)) : List Shape :=
  (ms.filter (·.1 = key)).map (·.2)

/-- Reads a value unless one was found before. -/
def once {α : Type} (read : Shape → Option α) : Option α → List Shape → Option (Option α)
  | found, [] => some found
  | none, v :: vs => (read v).bind fun a => once read (some a) vs
  | some _, _ :: _ => none

theorem once_some {α : Type} {read : Shape → Option α} {a : α} {vs : List Shape} {found : Option α} :
    once read (some a) vs = some found ↔ vs = [] ∧ found = some a := by
  cases vs with
  | nil => simp [once, eq_comm]
  | cons v vs => simp [once]

theorem once_none {α : Type} {read : Shape → Option α} {vs : List Shape} {found : Option α} :
    once read none vs = some found ↔
      vs = [] ∧ found = none ∨ ∃ v a, vs = [v] ∧ read v = some a ∧ found = some a := by
  cases vs with
  | nil => simp [once, eq_comm]
  | cons v vs =>
    simp only [once, Option.bind_eq_some_iff, once_some, List.cons.injEq]
    constructor
    · rintro ⟨a, hread, rfl, rfl⟩
      exact .inr ⟨v, a, ⟨rfl, rfl⟩, hread, rfl⟩
    · rintro (⟨h, -⟩ | ⟨w, a, ⟨rfl, rfl⟩, hread, rfl⟩)
      · cases h
      · exact ⟨a, hread, rfl, rfl⟩

theorem values_self (key : String) (v : Shape) (ms : List (String × Shape)) :
    values key ((key, v) :: ms) = v :: values key ms := by simp [values]

theorem values_of_ne {key other : String} (h : other ≠ key) (v : Shape)
    (ms : List (String × Shape)) : values key ((other, v) :: ms) = values key ms := by
  simp [values, h]

/-- Each of the three members is read once at most, whatever the order. -/
theorem foldlM_take {ms : List (String × Shape)} {d d' : Draft} :
    ms.foldlM Draft.take d = some d' ↔
      once uuid? d.clientId (values "client_id" ms) = some d'.clientId ∧
      once bool? d.uploadsEnabled (values "uploads_enabled" ms) = some d'.uploadsEnabled ∧
      once time? d.lastUploadAttempt (values "last_upload_attempt" ms) =
        some d'.lastUploadAttempt := by
  -- For any draft to start with: each member changes one field, and `once` for that field goes on from
  -- what is found so far.
  induction ms generalizing d with
  | nil =>
    obtain ⟨a, b, c⟩ := d
    obtain ⟨a', b', c'⟩ := d'
    simp [values, once, pure]
  | cons m ms ih =>
    obtain ⟨key, v⟩ := m
    rw [List.foldlM_cons]
    by_cases hid : key = "client_id"
    · subst hid
      rw [values_self, values_of_ne (by decide), values_of_ne (by decide)]
      cases hd : d.clientId with
      | some u => simp [Draft.take, hd, once]
      | none => cases hv : uuid? v <;> simp [Draft.take, hd, hv, once, ih]
    by_cases huploads : key = "uploads_enabled"
    · subst huploads
      rw [values_self, values_of_ne (by decide), values_of_ne (by decide)]
      cases hd : d.uploadsEnabled with
      | some b => simp [Draft.take, hd, once]
      | none => cases hv : bool? v <;> simp [Draft.take, hd, hv, once, ih]
    by_cases htime : key = "last_upload_attempt"
    · subst htime
      rw [values_self, values_of_ne (by decide), values_of_ne (by decide)]
      cases hd : d.lastUploadAttempt with
      | some time => simp [Draft.take, hd, once]
      | none => cases hv : time? v <;> simp [Draft.take, hd, hv, once, ih]
    · rw [values_of_ne hid, values_of_ne huploads, values_of_ne htime]
      simp [Draft.take, hid, huploads, htime, ih]

/-- Settings are read from members that have one value for the first two, and for the third at most
one, all of which can be read. -/
structure From (ms : List (String × Shape)) (s : Settings) : Prop where
  clientId : ∃ v, values "client_id" ms = [v] ∧ uuid? v = some s.clientId
  uploadsEnabled : ∃ v, values "uploads_enabled" ms = [v] ∧ bool? v = some s.uploadsEnabled
  lastUploadAttempt : values "last_upload_attempt" ms = [] ∧ s.lastUploadAttempt = none ∨
    ∃ v, values "last_upload_attempt" ms = [v] ∧ time? v = some s.lastUploadAttempt

theorem settings?_eq_some {d : Draft} {s : Settings} :
    d.settings? = some s ↔ d.clientId = some s.clientId ∧ d.uploadsEnabled = some s.uploadsEnabled ∧
      d.lastUploadAttempt.join = s.lastUploadAttempt := by
  obtain ⟨id, uploads, time⟩ := d
  obtain ⟨sid, suploads, stime⟩ := s
  cases id <;> cases uploads <;> simp [Draft.settings?]

theorem settings?_foldlM {ms : List (String × Shape)} {s : Settings} :
    (ms.foldlM Draft.take {}).bind Draft.settings? = some s ↔ From ms s := by
  rw [Option.bind_eq_some_iff]
  simp only [foldlM_take, settings?_eq_some, once_none]
  constructor
  · rintro ⟨⟨id, uploads, time⟩, ⟨hid, huploads, htime⟩, hsid, hsuploads, hstime⟩
    dsimp only at *
    subst hsid hsuploads
    refine ⟨?_, ?_, ?_⟩
    · simpa using hid
    · simpa using huploads
    · rcases htime with ⟨hnone, rfl⟩ | ⟨v, a, hv, hread, rfl⟩
      · exact .inl ⟨hnone, hstime.symm⟩
      · exact .inr ⟨v, hv, hread.trans (congrArg some hstime)⟩
  · rintro ⟨⟨v, hv, hid⟩, ⟨w, hw, huploads⟩, htime⟩
    rcases htime with ⟨hnone, hstime⟩ | ⟨x, hx, hread⟩
    · exact ⟨⟨some s.clientId, some s.uploadsEnabled, none⟩,
        ⟨.inr ⟨v, _, hv, hid, rfl⟩, .inr ⟨w, _, hw, huploads, rfl⟩, .inl ⟨hnone, rfl⟩⟩,
        rfl, rfl, hstime.symm⟩
    · exact ⟨⟨some s.clientId, some s.uploadsEnabled, some s.lastUploadAttempt⟩,
        ⟨.inr ⟨v, _, hv, hid, rfl⟩, .inr ⟨w, _, hw, huploads, rfl⟩, .inr ⟨x, _, hx, hread, rfl⟩⟩,
        rfl, rfl, rfl⟩

/-- A text that is an object with these members. -/
inductive Document : List (String × Shape) → Bytes → Prop
  | empty {before inside after : Bytes} (blanks : Blanks before) (blanks' : Blanks inside)
      (blanks'' : Blanks after) : Document [] (before ++ 123 :: (inside ++ 125 :: after))
  | members {ms : List (String × Shape)} {before bs after : Bytes} (blanks : Blanks before)
      (text : Text (.members ms) bs) (blanks' : Blanks after) :
      Document ms (before ++ 123 :: (bs ++ 125 :: after))

theorem length_members {ms : List (String × Shape)} (h : Text (.members ms) bs) :
    ms.length ≤ bs.length := by
  generalize hpart : Part.members ms = part at h
  induction h generalizing ms with
  | lastMember nameText =>
    cases hpart
    obtain ⟨_, _, _, rfl, -⟩ := nameText.cases
    simp
    omega
  | member nameText _ _ _ _ ih =>
    cases hpart
    have hlength := ih rfl
    obtain ⟨_, _, _, rfl, -⟩ := nameText.cases
    simp
    omega
  | _ => cases hpart

/-- What is read of an object is what is read of its members. -/
theorem ofMembers_gives {ms : List (String × Shape)} {text : Bytes}
    (h : Gives (foldMembers Draft.member (text.length + 1) true {} text)
      (ms.foldlM Draft.take {}) rest) :
    Gives (ofMembers text) ((ms.foldlM Draft.take {}).bind Draft.settings?) rest := by
  unfold ofMembers
  cases htake : ms.foldlM Draft.take {} with
  | none =>
    rw [htake] at h
    obtain ⟨e, he⟩ := h
    rw [he]
    exact ⟨e, rfl⟩
  | some d =>
    rw [htake] at h
    have h : foldMembers Draft.member (text.length + 1) true {} text = .ok (d, rest) := h
    rw [h]
    dsimp only [bind, Except.bind, Option.bind]
    cases d.settings? with
    | none => exact ⟨_, rfl⟩
    | some s => exact rfl

theorem parse_object {before after text : Bytes} {value : Option Settings} (hbefore : Blanks before)
    (hafter : Blanks after) (h : Gives (ofMembers text) value after) {s : Settings} :
    parse (before ++ 123 :: text) = .ok s ↔ value = some s := by
  have hfinish : (skipBlanks after).isEmpty = true := by
    rw [← List.append_nil after, skipBlanks_of_blanks hafter]
    rfl
  unfold parse
  dsimp only
  rw [readValue_blanks hbefore rfl]
  change ofMembers text >>= finish = .ok s ↔ _
  cases value with
  | none =>
    obtain ⟨e, he⟩ := h
    rw [he]
    exact iff_of_false nofun nofun
  | some found =>
    have h : ofMembers text = .ok (found, after) := h
    rw [h]
    change finish (found, after) = .ok s ↔ _
    rw [finish, if_pos hfinish, Except.ok.injEq, Option.some.injEq]

/-- Settings are read of a text, however it is laid out, if and only if its members say them. -/
theorem parse_eq_ok_iff {ms : List (String × Shape)} {text : Bytes} (h : Document ms text)
    {s : Settings} : parse text = .ok s ↔ From ms s := by
  rw [← settings?_foldlM]
  cases h with
  | empty blanks blanks' blanks'' =>
    refine parse_object blanks blanks'' (ofMembers_gives ?_)
    exact foldMembers_end blanks' true
  | members blanks inside blanks' =>
    refine parse_object blanks blanks' (ofMembers_gives (foldMembers_text Draft.readsMembers inside ?_))
    have hlength := length_members inside
    simp
    omega

/-- The value for the time of an upload. -/
def natural (n : UInt64) : Shape := .number ⟨false, Bytes.ofString n.toNat.repr, none, none⟩

/-- Members that say settings: the identifier in either case, and no time or null for none. -/
structure Describes (ms : List (String × Shape)) (s : Settings) : Prop where
  clientId : ∃ text, values "client_id" ms = [.string text] ∧ text.toLower = s.clientId.hyphenated
  uploadsEnabled : values "uploads_enabled" ms = [.bool s.uploadsEnabled]
  lastUploadAttempt : values "last_upload_attempt" ms = s.lastUploadAttempt.toList.map natural ∨
    s.lastUploadAttempt = none ∧ values "last_upload_attempt" ms = [.null]

theorem time?_natural (n : UInt64) : time? (natural n) = some (some n) := by
  have hlt : decimal (Bytes.ofString n.toNat.repr) < 2 ^ 64 := by
    rw [decimal_repr]
    exact n.toNat_lt
  rw [natural, time?, if_pos hlt, decimal_repr]
  simp

theorem Describes.from {ms : List (String × Shape)} {s : Settings} (h : Describes ms s) :
    From ms s := by
  obtain ⟨⟨text, hid, hlower⟩, huploads, htime⟩ := h
  refine ⟨⟨_, hid, Uuid.parse?_of_toLower hlower⟩, ⟨_, huploads, rfl⟩, ?_⟩
  cases hlast : s.lastUploadAttempt with
  | none =>
    rcases htime with hnone | ⟨-, hnull⟩
    · rw [hlast] at hnone
      exact .inl ⟨hnone, rfl⟩
    · exact .inr ⟨_, hnull, rfl⟩
  | some n =>
    rcases htime with hsome | ⟨hnone, -⟩
    · rw [hlast] at hsome
      exact .inr ⟨_, hsome, time?_natural n⟩
    · rw [hlast] at hnone
      cases hnone

/-- One of the first two members is missing, one of the three is there more than once, or has a value
of another type. -/
def Spoiled (ms : List (String × Shape)) : Prop :=
  values "client_id" ms = [] ∨ values "uploads_enabled" ms = [] ∨
  (∃ key ∈ ["client_id", "uploads_enabled", "last_upload_attempt"], 2 ≤ (values key ms).length) ∨
  (∃ v ∈ values "client_id" ms, uuid? v = none) ∨
  (∃ v ∈ values "uploads_enabled" ms, bool? v = none) ∨
  ∃ v ∈ values "last_upload_attempt" ms, time? v = none

theorem Spoiled.not_from {ms : List (String × Shape)} (h : Spoiled ms) (s : Settings) :
    ¬From ms s := by
  rintro ⟨⟨v, hv, hid⟩, ⟨w, hw, huploads⟩, htime⟩
  rw [Spoiled, hv, hw] at h
  simp only [List.mem_cons, List.not_mem_nil, or_false, exists_eq_or_imp, exists_eq_left, hv, hw] at h
  rcases htime with ⟨hx, -⟩ | ⟨x, hx, hread⟩
  · simp [hx, hid, huploads] at h
  · simp [hx, hid, huploads, hread] at h

theorem exists_error {ms : List (String × Shape)} {text : Bytes} (h : Document ms text)
    (spoiled : Spoiled ms) : ∃ e, parse text = .error e := by
  cases hparse : parse text with
  | error e => exact ⟨e, rfl⟩
  | ok s => exact absurd ((parse_eq_ok_iff h).1 hparse) (spoiled.not_from s)

end CrashCapture.Settings
