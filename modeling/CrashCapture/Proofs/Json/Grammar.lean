import CrashCapture.Proofs.Json.RoundTrip

namespace CrashCapture.Json

/-- What a backslash and one more byte stand for, as a code point. -/
def shorts : List (UInt8 × Nat) :=
  [(34, 34), (92, 92), (47, 47), (98, 8), (102, 12), (110, 10), (114, 13), (116, 9)]

/-- How a character may stand in a string: as it is, after a backslash, or as one or two units of 16
bits. -/
inductive Spells : Char → Bytes → Prop
  | plain {c : Char} (noControl : 32 ≤ c.toNat) (noQuote : c.toNat ≠ 34)
      (noBackslash : c.toNat ≠ 92) : Spells c (Bytes.ofString (String.singleton c))
  | short {b : UInt8} {n : Nat} (h : (b, n) ∈ shorts) : Spells (Char.ofNat n) [92, b]
  | unit {a b c d : UInt8} {n : Nat} (digits : hex4? a b c d = some n)
      (whole : n < 0xD800 ∨ 0xDFFF < n) : Spells (Char.ofNat n) [92, 117, a, b, c, d]
  | pair {a b c d a' b' c' d' : UInt8} {n m : Nat} (high : hex4? a b c d = some n)
      (leading : 0xD800 ≤ n ∧ n ≤ 0xDBFF) (low : hex4? a' b' c' d' = some m)
      (trailing : 0xDC00 ≤ m ∧ m ≤ 0xDFFF) :
      Spells (Char.ofNat ((n - 0xD800) * 1024 + (m - 0xDC00) + 0x10000))
        [92, 117, a, b, c, d, 92, 117, a', b', c', d']

/-- The text between the quotes of a string. -/
inductive StringText : List Char → Bytes → Prop
  | nil : StringText [] []
  | cons {c : Char} {cs : List Char} {bs more : Bytes} (first : Spells c bs)
      (rest : StringText cs more) : StringText (c :: cs) (bs ++ more)

/-- A byte that stands for itself in a string. -/
structure PlainByte (b : UInt8) : Prop where
  noControl : 32 ≤ b.toNat
  noQuote : b ≠ 34
  noBackslash : b ≠ 92

theorem ofString_singleton (c : Char) :
    Bytes.ofString (String.singleton c) = String.utf8EncodeChar c := by
  rw [Bytes.ofString_eq, String.singleton_eq_ofList, String.toByteArray_ofList,
    List.utf8Encode_singleton, List.toList_data_toByteArray]

/-- The bytes of a character beyond ASCII are beyond ASCII. -/
theorem le_of_mem_utf8 {c : Char} (h : 128 ≤ c.toNat) : ∀ b ∈ String.utf8EncodeChar c, 128 ≤ b.toNat := by
  have high : ∀ {n : Nat}, 128 ≤ n → n < 256 → 128 ≤ (UInt8.ofNat n).toNat := by
    intro n hlow hhigh
    rw [UInt8.toNat_ofNat']
    omega
  have hascii : ¬c.val.toNat ≤ 127 := by
    change ¬c.toNat ≤ 127
    omega
  rw [String.utf8EncodeChar]
  simp only [hascii, if_false]
  split
  · simp only [List.forall_mem_cons]
    exact ⟨high (by omega) (by omega), high (by omega) (by omega), nofun⟩
  · split
    · simp only [List.forall_mem_cons]
      exact ⟨high (by omega) (by omega), high (by omega) (by omega), high (by omega) (by omega),
        nofun⟩
    · simp only [List.forall_mem_cons]
      exact ⟨high (by omega) (by omega), high (by omega) (by omega), high (by omega) (by omega),
        high (by omega) (by omega), nofun⟩

theorem plainByte_of_char {c : Char} (noControl : 32 ≤ c.toNat) (noQuote : c.toNat ≠ 34)
    (noBackslash : c.toNat ≠ 92) :
    ∀ b ∈ Bytes.ofString (String.singleton c), PlainByte b := by
  intro b hb
  rw [ofString_singleton] at hb
  by_cases hascii : c.toNat < 128
  · have hsize : c.utf8Size = 1 := by
      rw [Char.utf8Size_eq_one_iff, UInt32.le_iff_toNat_le]
      change c.toNat ≤ 127
      omega
    rw [String.utf8EncodeChar_eq_singleton hsize, List.mem_singleton] at hb
    have hnat : b.toNat = c.toNat := by
      rw [hb]
      change c.toNat % 256 = c.toNat
      omega
    refine ⟨by omega, ?_, ?_⟩
    · rintro rfl
      exact noQuote hnat.symm
    · rintro rfl
      exact noBackslash hnat.symm
  · have hb := le_of_mem_utf8 (Nat.le_of_not_lt hascii) b hb
    refine ⟨by omega, ?_, ?_⟩
    · rintro rfl
      exact absurd hb (by decide)
    · rintro rfl
      exact absurd hb (by decide)

theorem PlainByte.escapeByte {b : UInt8} (h : PlainByte b) : escapeByte b = [b] := by
  have ne_of_control : ∀ {c : UInt8}, c.toNat < 32 → b ≠ c := by
    rintro c hc rfl
    exact absurd h.noControl (by omega)
  have noControl : ¬b < 32 := by
    rw [UInt8.lt_iff_toNat_lt]
    exact Nat.not_lt.2 h.noControl
  rw [Json.escapeByte, if_neg h.noQuote, if_neg h.noBackslash, if_neg (ne_of_control (by decide)),
    if_neg (ne_of_control (by decide)), if_neg (ne_of_control (by decide)),
    if_neg (ne_of_control (by decide)), if_neg (ne_of_control (by decide)), if_neg noControl]

theorem stringBody_plain {bytes : Bytes} (h : ∀ b ∈ bytes, PlainByte b) (acc rest : Bytes) :
    stringBody acc (bytes ++ rest) = stringBody (bytes.reverse ++ acc) rest := by
  induction bytes generalizing acc with
  | nil => rfl
  | cons b bytes ih =>
    have hb := stringBody_escapeByte acc (bytes ++ rest) b
    rw [(h b List.mem_cons_self).escapeByte, List.singleton_append] at hb
    rw [List.cons_append, hb, ih fun c hc => h c (List.mem_cons_of_mem b hc)]
    simp

theorem skipString_plain {bytes : Bytes} (h : ∀ b ∈ bytes, PlainByte b) (rest : Bytes) :
    skipString (bytes ++ rest) = skipString rest := by
  induction bytes with
  | nil => rfl
  | cons b bytes ih =>
    obtain ⟨noControl, noQuote, noBackslash⟩ := h b List.mem_cons_self
    have hb : ¬b < 32 := by
      rw [UInt8.lt_iff_toNat_lt]
      exact Nat.not_lt.2 noControl
    rw [List.cons_append, skipString.eq_def]
    split <;> grind

/-- Any spelling of a character is read as it. -/
theorem stringBody_spells {c : Char} {bs : Bytes} (h : Spells c bs) (acc rest : Bytes) :
    stringBody acc (bs ++ rest) =
      stringBody ((Bytes.ofString (String.singleton c)).reverse ++ acc) rest := by
  cases h with
  | plain noControl noQuote noBackslash =>
    exact stringBody_plain (plainByte_of_char noControl noQuote noBackslash) acc rest
  | @short b n h =>
    have hutf8 : ∀ m ∈ shorts, unescape? m.1 = some m.2.toUInt8 ∧ m.1 ≠ 117 ∧
        Bytes.ofString (String.singleton (Char.ofNat m.2)) = [m.2.toUInt8] := by
      decide +kernel
    obtain ⟨hunescape, hne, hbytes⟩ := hutf8 _ h
    rw [hbytes]
    simp [stringBody, hunescape, hne]
  | @unit _ _ _ _ n digits whole =>
    have htrailing : isTrailing n = false := by
      simp [isTrailing]
      omega
    have hleading : isLeading n = false := by
      simp [isLeading]
      omega
    simp [stringBody, digits, htrailing, hleading, utf8]
  | @pair _ _ _ _ _ _ _ _ n m high leading low trailing =>
    have htrailing : isTrailing n = false := by
      simp [isTrailing]
      omega
    have hleading : isLeading n = true := by simp [isLeading, leading]
    have hlow : isTrailing m = true := by simp [isTrailing, trailing]
    simp [stringBody, high, low, htrailing, hleading, hlow, utf8]

theorem skipString_spells {c : Char} {bs : Bytes} (h : Spells c bs) (rest : Bytes) :
    skipString (bs ++ rest) = skipString rest := by
  cases h with
  | plain noControl noQuote noBackslash =>
    exact skipString_plain (plainByte_of_char noControl noQuote noBackslash) rest
  | @short b n h =>
    have hutf8 : ∀ m ∈ shorts, (unescape? m.1).isSome ∧ m.1 ≠ 117 := by decide +kernel
    obtain ⟨hunescape, hne⟩ := hutf8 _ h
    simp [skipString, hunescape, hne]
  | unit digits => simp [skipString, digits]
  | pair high _ low => simp [skipString, high, low]

theorem ofList_cons (c : Char) (cs : List Char) :
    String.ofList (c :: cs) = String.singleton c ++ String.ofList cs := by
  rw [String.singleton_eq_ofList, ← String.ofList_append]
  rfl

theorem stringBody_text {cs : List Char} {bs : Bytes} (h : StringText cs bs) (acc rest : Bytes) :
    stringBody acc (bs ++ 34 :: rest) = .ok (acc.reverse ++ Bytes.ofString (.ofList cs), rest) := by
  induction h generalizing acc with
  | nil => simp [stringBody, Bytes.ofString_eq]
  | @cons c cs bs more first _ ih =>
    rw [List.append_assoc, stringBody_spells first, ih, ofList_cons, Bytes.ofString_append]
    simp

/-- A string is read as its characters, however they are spelled. -/
theorem stringTail_text {cs : List Char} {bs : Bytes} (h : StringText cs bs) (rest : Bytes) :
    stringTail (bs ++ 34 :: rest) = .ok (.ofList cs, rest) := by
  rw [stringTail, stringBody_text h]
  simp [bind, Except.bind, pure, Except.pure, Bytes.text?_ofString]

theorem skipString_text {cs : List Char} {bs : Bytes} (h : StringText cs bs) (rest : Bytes) :
    skipString (bs ++ 34 :: rest) = .ok rest := by
  induction h with
  | nil => rfl
  | cons first _ ih => rw [List.append_assoc, skipString_spells first, ih]

/-- Characters may stand as they are, but for quotes, backslashes and control characters. -/
theorem stringText_plain {cs : List Char}
    (h : ∀ c ∈ cs, 32 ≤ c.toNat ∧ c.toNat ≠ 34 ∧ c.toNat ≠ 92) :
    StringText cs (Bytes.ofString (.ofList cs)) := by
  induction cs with
  | nil =>
    rw [Bytes.ofString_eq]
    exact .nil
  | cons c cs ih =>
    obtain ⟨noControl, noQuote, noBackslash⟩ := h c List.mem_cons_self
    rw [ofList_cons, Bytes.ofString_append]
    exact .cons (.plain noControl noQuote noBackslash)
      (ih fun d hd => h d (List.mem_cons_of_mem c hd))

/-- Digits, one at least. -/
structure Digits (ds : Bytes) : Prop where
  ne_nil : ds ≠ []
  digit : ∀ b ∈ ds, Bytes.isDigit b = true

inductive FractionText : Option Bytes → Bytes → Prop
  | none : FractionText none []
  | some {ds : Bytes} (digits : Digits ds) : FractionText (some ds) (46 :: ds)

/-- An exponent, whose sign may be left out. -/
inductive ExponentText : Option (Bool × Bytes) → Bytes → Prop
  | none : ExponentText none []
  | some {e : UInt8} {negative : Bool} {sign ds : Bytes} (letter : e = 101 ∨ e = 69)
      (signed : (negative, sign) ∈ [(false, []), (false, [43]), (true, [45])]) (digits : Digits ds) :
      ExponentText (some (negative, ds)) (e :: (sign ++ ds))

/-- A number of any size, without zeros before other digits. -/
inductive NumeralText : Numeral → Bytes → Prop
  | mk {negative : Bool} {whole fs es : Bytes} {fraction : Option Bytes}
      {exponent : Option (Bool × Bytes)} (digits : Digits whole)
      (noZeros : whole.head? = some 48 → whole = [48]) (fractionText : FractionText fraction fs)
      (exponentText : ExponentText exponent es) :
      NumeralText ⟨negative, whole, fraction, exponent⟩
        ((if negative then [45] else []) ++ (whole ++ (fs ++ es)))

section Numbers

variable {early : DecodeError} {rest : Bytes}

theorem Digits.cons {ds : Bytes} (h : Digits ds) :
    ∃ d more, ds = d :: more ∧ Bytes.isDigit d = true := by
  obtain ⟨d, more, rfl⟩ := List.exists_cons_of_ne_nil h.ne_nil
  exact ⟨d, more, rfl, h.digit d List.mem_cons_self⟩

theorem exponentPart_text {exponent : Option (Bool × Bytes)} {es : Bytes}
    (h : ExponentText exponent es) (hrest : ∀ b ∈ rest.head?, EndsNumber b) :
    exponentPart early (es ++ rest) = .ok (exponent, rest) := by
  cases h with
  | none => exact exponentPart_of_ends hrest
  | @some e negative sign ds letter signed digits =>
    have hdigits : exponentDigits early negative (ds ++ rest) = .ok (some (negative, ds), rest) := by
      rw [exponentDigits, digits_append digits.ne_nil digits.digit fun b hb => (hrest b hb).noDigit]
      rfl
    have hletter : (e = 101 || e = 69) = true := by simpa using letter
    rw [List.cons_append, List.append_assoc]
    unfold exponentPart
    dsimp only
    rw [if_pos hletter]
    simp only [List.mem_cons, Prod.mk.injEq, List.not_mem_nil, or_false] at signed
    rcases signed with ⟨rfl, rfl⟩ | ⟨rfl, rfl⟩ | ⟨rfl, rfl⟩
    · obtain ⟨d, more, rfl, hd⟩ := digits.cons
      have hplus : d ≠ 43 := ne_of_isDigit hd rfl
      have hminus : d ≠ 45 := ne_of_isDigit hd rfl
      rw [List.nil_append, List.cons_append]
      split
      · next heq => exact absurd (List.cons.inj heq).1 hplus
      · next heq => exact absurd (List.cons.inj heq).1 hminus
      · exact hdigits
    · exact hdigits
    · exact hdigits

theorem noPoint_of_exponent {exponent : Option (Bool × Bytes)} {es : Bytes}
    (h : ExponentText exponent es) (hrest : ∀ b ∈ rest.head?, EndsNumber b) :
    ∀ b ∈ (es ++ rest).head?, Bytes.isDigit b = false ∧ b ≠ 46 := by
  intro b hb
  cases h with
  | none => exact ⟨(hrest b hb).noDigit, (hrest b hb).noPoint⟩
  | some letter =>
    cases hb
    rcases letter with rfl | rfl
    · exact ⟨rfl, by decide⟩
    · exact ⟨rfl, by decide⟩

theorem fractionPart_text {fraction : Option Bytes} {fs : Bytes} (h : FractionText fraction fs)
    (hrest : ∀ b ∈ rest.head?, Bytes.isDigit b = false ∧ b ≠ 46) :
    fractionPart early (fs ++ rest) = .ok (fraction, rest) := by
  cases h with
  | none =>
    rw [List.nil_append]
    unfold fractionPart
    split
    · exact absurd rfl (hrest 46 rfl).2
    · rfl
  | some digits =>
    rw [List.cons_append, fractionPart,
      digits_append digits.ne_nil digits.digit fun b hb => (hrest b hb).1]
    rfl

theorem noDigit_of_fraction {fraction : Option Bytes} {fs : Bytes} (h : FractionText fraction fs)
    (hrest : ∀ b ∈ rest.head?, Bytes.isDigit b = false ∧ b ≠ 46) :
    ∀ b ∈ (fs ++ rest).head?, Bytes.isDigit b = false := by
  intro b hb
  cases h with
  | none => exact (hrest b hb).1
  | some => cases hb; rfl

theorem wholePart_text {ds : Bytes} (digits : Digits ds) (noZeros : ds.head? = some 48 → ds = [48])
    (hrest : ∀ b ∈ rest.head?, Bytes.isDigit b = false) :
    wholePart early (ds ++ rest) = .ok (ds, rest) := by
  rw [wholePart, digits_append digits.ne_nil digits.digit hrest]
  have hzero : ¬(ds.head? = some 48 ∧ ds.length ≠ 1) := by
    rintro ⟨hhead, hlength⟩
    rw [noZeros hhead] at hlength
    exact hlength rfl
  simp only [bind, Except.bind]
  rw [if_neg (by simpa using hzero)]
  rfl

/-- A number is read as its parts. -/
theorem numeral_text {n : Numeral} {bs : Bytes} (h : NumeralText n bs)
    (hrest : ∀ b ∈ rest.head?, EndsNumber b) : numeral early (bs ++ rest) = .ok (n, rest) := by
  cases h with
  | @mk negative whole fs es fraction exponent digits noZeros fractionText exponentText =>
    have hpoint := noPoint_of_exponent exponentText hrest
    have hdigit := noDigit_of_fraction fractionText hpoint
    have hexponent : exponentPart early (es ++ rest) = .ok (exponent, rest) :=
      exponentPart_text exponentText hrest
    have hfraction : fractionPart early (fs ++ (es ++ rest)) = .ok (fraction, es ++ rest) :=
      fractionPart_text fractionText hpoint
    have hwhole : wholePart early (whole ++ (fs ++ (es ++ rest))) =
        .ok (whole, fs ++ (es ++ rest)) := wholePart_text digits noZeros hdigit
    obtain ⟨d, more, rfl, hd⟩ := digits.cons
    have hminus : d ≠ 45 := ne_of_isDigit hd rfl
    simp only [List.append_assoc]
    cases negative with
    | true =>
      simp only [if_true, List.cons_append, List.nil_append] at *
      simp only [numeral, hwhole, hfraction, hexponent, bind, Except.bind]
      rfl
    | false =>
      simp only [Bool.false_eq_true, if_false, List.cons_append, List.nil_append] at *
      unfold numeral
      split
      · next heq =>
        split at heq
        · next htext => exact absurd (List.cons.inj htext).1 hminus
        · cases heq
          simp only [hwhole, hfraction, hexponent, bind, Except.bind]
          rfl

theorem NumeralText.head {n : Numeral} {bs : Bytes} (h : NumeralText n bs) :
    ∃ b more, bs = b :: more ∧ (b = 45 ∨ Bytes.isDigit b = true) := by
  cases h with
  | @mk negative whole fs es fraction exponent digits noZeros fractionText exponentText =>
    obtain ⟨d, more, rfl, hd⟩ := digits.cons
    cases negative with
    | true => exact ⟨45, _, rfl, .inl rfl⟩
    | false => exact ⟨d, _, rfl, .inr hd⟩

/-- A number is read as an integer if it has no fraction and no exponent and fits in 64 bits. -/
theorem number_eq_int_iff {n : Numeral} {k : Int} :
    n.number = .ok (.int k) ↔ (n.fraction = none ∧ n.exponent = none) ∧
      (if n.negative then decimal n.whole ≠ 0 ∧ decimal n.whole ≤ 2 ^ 63
        else decimal n.whole < 2 ^ 64) ∧
      k = if n.negative then -(decimal n.whole : Int) else decimal n.whole := by
  obtain ⟨negative, whole, fraction, exponent⟩ := n
  unfold Numeral.number
  cases negative
  all_goals
    simp only [if_true, Bool.false_eq_true, if_false]
    split
    · next hexact =>
      simp only [Bool.and_eq_true, Option.isNone_iff_eq_none, decide_eq_true_eq] at hexact
      obtain ⟨hinteger, hfits⟩ := hexact
      constructor
      · intro heq
        exact ⟨hinteger, hfits, (Number.int.inj (Except.ok.inj heq)).symm⟩
      · rintro ⟨-, -, rfl⟩
        rfl
    · next hexact =>
      refine iff_of_false ?_ ?_
      · split
        · simp
        · simp
      · rintro ⟨⟨rfl, rfl⟩, hfits, -⟩
        exact hexact (by simpa using hfits)

end Numbers

/-- A value as far as settings look into it. -/
inductive Shape
  | null
  | bool (b : Bool)
  | number (n : Numeral)
  | string (s : String)
  | array
  | object

def Blanks (ws : Bytes) : Prop := ∀ c ∈ ws, isBlank c = true

/-- The name of a member, up to its value. -/
inductive NameText : String → Bytes → Prop
  | mk {cs : List Char} {before key after colon : Bytes} (blanks : Blanks before)
      (name : StringText cs key) (blanks' : Blanks after) (blanks'' : Blanks colon) :
      NameText (.ofList cs) (before ++ 34 :: (key ++ 34 :: (after ++ 58 :: colon)))

/-- What is written: a value, or the inside of an array or object that is not empty. -/
inductive Part
  | value (v : Shape)
  | elements
  | members (ms : List (String × Shape))

/-- The grammar of JSON. -/
inductive Text : Part → Bytes → Prop
  | null : Text (.value .null) [110, 117, 108, 108]
  | true : Text (.value (.bool true)) [116, 114, 117, 101]
  | false : Text (.value (.bool false)) [102, 97, 108, 115, 101]
  | number {n : Numeral} {bs : Bytes} (numeral : NumeralText n bs) : Text (.value (.number n)) bs
  | string {cs : List Char} {bs : Bytes} (chars : StringText cs bs) :
      Text (.value (.string (.ofList cs))) (34 :: (bs ++ [34]))
  | noElements {ws : Bytes} (blanks : Blanks ws) : Text (.value .array) (91 :: (ws ++ [93]))
  | array {bs : Bytes} (inside : Text .elements bs) : Text (.value .array) (91 :: (bs ++ [93]))
  | noMembers {ws : Bytes} (blanks : Blanks ws) : Text (.value .object) (123 :: (ws ++ [125]))
  | object {ms : List (String × Shape)} {bs : Bytes} (inside : Text (.members ms) bs) :
      Text (.value .object) (123 :: (bs ++ [125]))
  | lastElement {v : Shape} {before bs after : Bytes} (blanks : Blanks before)
      (value : Text (.value v) bs) (blanks' : Blanks after) :
      Text .elements (before ++ (bs ++ after))
  | element {v : Shape} {before bs after more : Bytes} (blanks : Blanks before)
      (value : Text (.value v) bs) (blanks' : Blanks after) (others : Text .elements more) :
      Text .elements (before ++ (bs ++ (after ++ 44 :: more)))
  | lastMember {key : String} {v : Shape} {name bs after : Bytes} (nameText : NameText key name)
      (value : Text (.value v) bs) (blanks : Blanks after) :
      Text (.members [(key, v)]) (name ++ (bs ++ after))
  | member {key : String} {v : Shape} {ms : List (String × Shape)} {name bs after more : Bytes}
      (nameText : NameText key name) (value : Text (.value v) bs) (blanks : Blanks after)
      (others : Text (.members ms) more) :
      Text (.members ((key, v) :: ms)) (name ++ (bs ++ (after ++ 44 :: more)))

/-- The byte with which a value starts shows what it is. -/
def Shape.StartsWith (b : UInt8) : Shape → Prop
  | .null => b = 110
  | .bool true => b = 116
  | .bool false => b = 102
  | .number _ => b = 45 ∨ Bytes.isDigit b = true
  | .string _ => b = 34
  | .array => b = 91
  | .object => b = 123

theorem Text.head {v : Shape} {bs : Bytes} (h : Text (.value v) bs) :
    ∃ b more, bs = b :: more ∧ v.StartsWith b := by
  cases h with
  | null => exact ⟨_, _, rfl, rfl⟩
  | true => exact ⟨_, _, rfl, rfl⟩
  | false => exact ⟨_, _, rfl, rfl⟩
  | number numeral => exact numeral.head
  | string => exact ⟨_, _, rfl, rfl⟩
  | noElements => exact ⟨_, _, rfl, rfl⟩
  | array => exact ⟨_, _, rfl, rfl⟩
  | noMembers => exact ⟨_, _, rfl, rfl⟩
  | object => exact ⟨_, _, rfl, rfl⟩

theorem Shape.StartsWith.starts {v : Shape} {b : UInt8} (h : v.StartsWith b) : Starts b := by
  rcases v with _ | (_ | _) | _ | _ | _ | _
  case number =>
    rcases h with rfl | hd
    · exact ⟨rfl, by decide⟩
    · exact .of_isDigit hd
  all_goals
    obtain rfl : b = _ := h
    exact ⟨rfl, by decide⟩

theorem skipBlanks_of_blanks {ws : Bytes} (h : Blanks ws) (text : Bytes) :
    skipBlanks (ws ++ text) = skipBlanks text := List.dropWhile_append_of_pos h

end CrashCapture.Json
