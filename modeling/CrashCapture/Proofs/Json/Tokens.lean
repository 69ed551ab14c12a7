import CrashCapture.Json.Lexical
import CrashCapture.Json.Printer
import Mathlib.Algebra.Group.Int.Defs
import Mathlib.Algebra.Group.Nat.Defs

namespace CrashCapture

namespace Bytes

theorem toList_loop_eq (b : ByteArray) (i : Nat) (acc : Bytes) :
    ByteArray.toList.loop b i acc = acc.reverse ++ b.data.toList.drop i := by
  induction i, acc using ByteArray.toList.loop.induct b with
  | case1 i acc hlt ih =>
    have hlt' : i < b.data.toList.length := by simpa using hlt
    rw [ByteArray.toList.loop, if_pos hlt, ih, List.drop_eq_getElem_cons hlt', List.reverse_cons,
      List.append_assoc, List.singleton_append]
    congr 2
    simp [ByteArray.get!, getElem!_pos, hlt]
  | case2 i acc hge =>
    have hge' : b.data.toList.length ≤ i := by simpa using hge
    rw [ByteArray.toList.loop, if_neg hge, List.drop_of_length_le hge', List.append_nil]

theorem ofString_eq (s : String) : ofString s = s.toByteArray.data.toList := by
  rw [ofString, String.toUTF8_eq_toByteArray, ByteArray.toList, toList_loop_eq]
  simp

theorem text?_ofString (s : String) : (ofString s).text? = some s := by
  have harray : (⟨(ofString s).toArray⟩ : ByteArray) = s.toByteArray := by
    rw [ofString_eq]
  rw [text?, harray, String.fromUTF8?, dif_pos s.isValidUTF8]
  rfl

theorem ofString_append (s t : String) : ofString (s ++ t) = ofString s ++ ofString t := by
  simp [ofString_eq, String.toByteArray_append]

/-- Texts of ASCII characters take one byte for each of them. -/
theorem ofString_ofList {cs : List Char} (h : ∀ c ∈ cs, c.toNat < 128) :
    ofString (.ofList cs) = cs.map fun c => c.toNat.toUInt8 := by
  rw [ofString_eq, String.toByteArray_ofList]
  induction cs with
  | nil => simp
  | cons c cs ih =>
    have hc : c.utf8Size = 1 := by
      have hlt : c.toNat < 128 := h c List.mem_cons_self
      rw [Char.utf8Size_eq_one_iff]
      rw [UInt32.le_iff_toNat_le]
      change c.toNat ≤ 127
      omega
    rw [List.utf8Encode_cons, ByteArray.toList_data_append, ih fun d hd => h d (.tail c hd),
      List.utf8Encode_singleton, List.toList_data_toByteArray,
      String.utf8EncodeChar_eq_singleton hc]
    rfl

end Bytes

namespace Json

theorem skipBlanks_self {b : UInt8} (hb : isBlank b = false) (text : Bytes) :
    skipBlanks (b :: text) = b :: text := List.dropWhile_cons_of_neg (by simp [hb])

theorem punctuation_self (b : UInt8) (hb : isBlank b = false) (rest : Bytes) :
    punctuation b (b :: rest) = .ok rest := by
  rw [punctuation, skipBlanks_self hb]
  simp

theorem word_self (w rest : Bytes) : word w (w ++ rest) = .ok rest := by
  induction w with
  | nil => cases rest <;> rfl
  | cons b w ih => simp [word, ih]

theorem skipBlanks_append {blanks : Bytes} (hblanks : ∀ c ∈ blanks, isBlank c = true) {b : UInt8}
    (hb : isBlank b = false) (text : Bytes) : skipBlanks (blanks ++ b :: text) = b :: text := by
  rw [skipBlanks, List.dropWhile_append_of_pos hblanks]
  exact skipBlanks_self hb text

theorem hex4?_control : ∀ n : Fin 32,
    hex4? 48 48 (Bytes.hexDigit (n.val / 16)) (Bytes.hexDigit (n.val % 16)) = some n.val ∧
      utf8 n.val = [n.val.toUInt8] := by
  decide +kernel

theorem stringBody_escapeByte (acc rest : Bytes) (b : UInt8) :
    stringBody acc (escapeByte b ++ rest) = stringBody (b :: acc) rest := by
  unfold escapeByte
  split
  · next h => simp [stringBody, unescape?, h]
  split
  · next h => simp [stringBody, unescape?, h]
  split
  · next h => simp [stringBody, unescape?, h]
  split
  · next h => simp [stringBody, unescape?, h]
  split
  · next h => simp [stringBody, unescape?, h]
  split
  · next h => simp [stringBody, unescape?, h]
  split
  · next h => simp [stringBody, unescape?, h]
  split
  · next hlt =>
    have hlt' : b.toNat < 32 := by simpa [UInt8.lt_iff_toNat_lt] using hlt
    obtain ⟨hhex, hutf8⟩ := hex4?_control ⟨b.toNat, hlt'⟩
    have htrailing : isTrailing b.toNat = false := by simp [isTrailing]; omega
    have hleading : isLeading b.toNat = false := by simp [isLeading]; omega
    dsimp only at hhex hutf8
    simp [stringBody, hhex, htrailing, hleading, hutf8]
  · next hquote hbackslash _ _ _ _ _ hlt =>
    rw [List.singleton_append, stringBody.eq_def]
    split <;> grind

theorem stringBody_escaped (acc bytes rest : Bytes) :
    stringBody acc (bytes.flatMap escapeByte ++ 34 :: rest) = .ok (acc.reverse ++ bytes, rest) := by
  induction bytes generalizing acc with
  | nil => simp [stringBody]
  | cons b bytes ih =>
    rw [List.flatMap_cons, List.append_assoc, stringBody_escapeByte, ih]
    simp

/-- A string that was written is read back, from after its opening quote. -/
theorem stringTail_escaped (s : String) (rest : Bytes) :
    stringTail ((Bytes.ofString s).flatMap escapeByte ++ 34 :: rest) = .ok (s, rest) := by
  rw [stringTail, stringBody_escaped]
  simp [bind, Except.bind, pure, Except.pure, Bytes.text?_ofString]

theorem ofString_repr_digit : ∀ n : Fin 10, Bytes.ofString n.val.repr = [48 + n.val.toUInt8] := by
  decide +kernel

theorem ofString_repr_of_lt {n : Nat} (h : n < 10) : Bytes.ofString n.repr = [48 + n.toUInt8] :=
  ofString_repr_digit ⟨n, h⟩

theorem ofString_repr_of_ge {n : Nat} (h : 10 ≤ n) :
    Bytes.ofString n.repr = Bytes.ofString (n / 10).repr ++ [48 + (n % 10).toUInt8] := by
  rw [Nat.repr_eq_repr_append_repr h, Bytes.ofString_append,
    ofString_repr_of_lt (Nat.mod_lt n (by decide))]

theorem toNat_digit {n : Nat} (h : n < 10) : (48 + n.toUInt8).toNat = 48 + n := by
  simp
  omega

theorem isDigit_of_lt {n : Nat} (h : n < 10) : Bytes.isDigit (48 + n.toUInt8) = true := by
  simp only [Bytes.isDigit, UInt8.le_iff_toNat_le, toNat_digit h, Bool.and_eq_true,
    decide_eq_true_eq]
  exact ⟨Nat.le_add_right 48 n, by change 48 + n ≤ 57; omega⟩

theorem isDigit_of_mem_repr {n : Nat} : ∀ b ∈ Bytes.ofString n.repr, Bytes.isDigit b = true := by
  induction n using Nat.strongRecOn with
  | _ n ih =>
    by_cases h : n < 10
    · rw [ofString_repr_of_lt h]
      simpa using isDigit_of_lt h
    · have hge : 10 ≤ n := Nat.le_of_not_lt h
      rw [ofString_repr_of_ge hge]
      intro b hb
      rcases List.mem_append.1 hb with hb | hb
      · exact ih (n / 10) (by omega) b hb
      · rw [List.mem_singleton.1 hb]
        exact isDigit_of_lt (Nat.mod_lt n (by decide))

theorem ne_of_isDigit {d : UInt8} (hd : Bytes.isDigit d = true) {b : UInt8}
    (hb : Bytes.isDigit b = false) : d ≠ b := by
  rintro rfl
  rw [hd] at hb
  cases hb

theorem decimal_repr (n : Nat) : decimal (Bytes.ofString n.repr) = n := by
  induction n using Nat.strongRecOn with
  | _ n ih =>
    by_cases h : n < 10
    · rw [ofString_repr_of_lt h, decimal, List.foldl_cons, List.foldl_nil, toNat_digit h]
      omega
    · have hge : 10 ≤ n := Nat.le_of_not_lt h
      have hfold := ih (n / 10) (by omega)
      rw [decimal] at hfold
      rw [ofString_repr_of_ge hge, decimal, List.foldl_append, hfold, List.foldl_cons,
        List.foldl_nil, toNat_digit (Nat.mod_lt n (by decide))]
      omega

theorem ofString_repr_ne_nil (n : Nat) : Bytes.ofString n.repr ≠ [] := by
  by_cases h : n < 10
  · simp [ofString_repr_of_lt h]
  · simp [ofString_repr_of_ge (Nat.le_of_not_lt h)]

/-- Only zero starts with a zero. -/
theorem eq_zero_of_head {n : Nat} (h : (Bytes.ofString n.repr).head? = some 48) : n = 0 := by
  induction n using Nat.strongRecOn with
  | _ n ih =>
    by_cases hlt : n < 10
    · rw [ofString_repr_of_lt hlt, List.head?_cons] at h
      have hnat := congrArg UInt8.toNat (Option.some.inj h)
      rw [toNat_digit hlt] at hnat
      change 48 + n = 48 at hnat
      omega
    · have hge : 10 ≤ n := Nat.le_of_not_lt hlt
      obtain ⟨d, ds, hds⟩ := List.exists_cons_of_ne_nil (ofString_repr_ne_nil (n / 10))
      rw [ofString_repr_of_ge hge, hds] at h
      have hzero := ih (n / 10) (by omega) (by rw [hds]; exact h)
      omega

/-- A byte that does not go on with a number. -/
structure EndsNumber (b : UInt8) : Prop where
  noDigit : Bytes.isDigit b = false
  noPoint : b ≠ 46
  noExponent : b ≠ 101 ∧ b ≠ 69

theorem digits_append {early : DecodeError} {ds rest : Bytes} (hne : ds ≠ [])
    (hds : ∀ b ∈ ds, Bytes.isDigit b = true) (hrest : ∀ b ∈ rest.head?, Bytes.isDigit b = false) :
    digits early (ds ++ rest) = .ok (ds, rest) := by
  obtain ⟨d, ds, rfl⟩ := List.exists_cons_of_ne_nil hne
  have htake : (d :: ds ++ rest).takeWhile Bytes.isDigit = d :: ds := by
    rw [List.takeWhile_append_of_pos hds]
    cases rest with
    | nil => simp
    | cons b rest => simp [hrest b rfl]
  have hdrop : (d :: ds ++ rest).dropWhile Bytes.isDigit = rest := by
    rw [List.dropWhile_append_of_pos hds]
    cases rest with
    | nil => simp
    | cons b rest => simp [hrest b rfl]
  rw [List.cons_append] at htake hdrop ⊢
  rw [digits, if_pos (hds d List.mem_cons_self), htake, hdrop]

theorem fractionPart_of_ends {rest : Bytes} (hrest : ∀ b ∈ rest.head?, EndsNumber b) :
    fractionPart .truncated rest = .ok (none, rest) := by
  unfold fractionPart
  split
  · next text => exact absurd rfl (hrest 46 rfl).noPoint
  · rfl

theorem exponentPart_of_ends {early : DecodeError} {rest : Bytes}
    (hrest : ∀ b ∈ rest.head?, EndsNumber b) : exponentPart early rest = .ok (none, rest) := by
  cases rest with
  | nil => rfl
  | cons b rest =>
    have hb := (hrest b rfl).noExponent
    unfold exponentPart
    dsimp only
    rw [if_neg (by simp [hb])]
    rfl

theorem wholePart_repr (n : Nat) {rest : Bytes} (hrest : ∀ b ∈ rest.head?, EndsNumber b) :
    wholePart .truncated (Bytes.ofString n.repr ++ rest) = .ok (Bytes.ofString n.repr, rest) := by
  rw [wholePart, digits_append (ofString_repr_ne_nil n) isDigit_of_mem_repr
    fun b hb => (hrest b hb).noDigit]
  have hzero : ¬((Bytes.ofString n.repr).head? = some 48 ∧
      (Bytes.ofString n.repr).length ≠ 1) := by
    rintro ⟨hhead, hlength⟩
    rw [eq_zero_of_head hhead] at hlength
    exact hlength (by decide +kernel)
  simp only [bind, Except.bind]
  rw [if_neg (by simpa using hzero)]
  rfl

theorem numeral_repr (n : Nat) {rest : Bytes} (hrest : ∀ b ∈ rest.head?, EndsNumber b) :
    numeral .truncated (Bytes.ofString n.repr ++ rest) =
      .ok (⟨false, Bytes.ofString n.repr, none, none⟩, rest) := by
  have hwhole := wholePart_repr n hrest
  obtain ⟨d, ds, hds⟩ := List.exists_cons_of_ne_nil (ofString_repr_ne_nil n)
  have hd : d ≠ 45 := by
    rintro rfl
    have := isDigit_of_mem_repr 45 (by rw [hds]; exact List.mem_cons_self)
    cases this
  rw [hds, List.cons_append] at hwhole ⊢
  unfold numeral
  split
  · next heq =>
    split at heq
    · next htext => exact absurd (List.cons.inj htext).1 hd
    · cases heq
      simp only [hwhole, bind, Except.bind, fractionPart_of_ends hrest,
        exponentPart_of_ends hrest]
      rfl

/-- A natural number that was written is read back, if what follows ends it. -/
theorem number_repr {n : Nat} (hn : n < 2 ^ 64) {rest : Bytes}
    (hrest : ∀ b ∈ rest.head?, EndsNumber b) :
    number (Bytes.ofString n.repr ++ rest) = .ok (.int n, rest) := by
  have hnumber : (⟨false, Bytes.ofString n.repr, none, none⟩ : Numeral).number = .ok (.int n) := by
    have hexact : decide (n < Nat.pow 2 64) = true := decide_eq_true hn
    simp [Numeral.number, decimal_repr, hexact]
  rw [number, numeral_repr n hrest]
  simp only [bind, Except.bind, hnumber]
  rfl

theorem numeral_sign (n : Nat) {rest : Bytes} (hrest : ∀ b ∈ rest.head?, EndsNumber b) :
    numeral .truncated (45 :: (Bytes.ofString n.repr ++ rest)) =
      .ok (⟨true, Bytes.ofString n.repr, none, none⟩, rest) := by
  simp only [numeral, wholePart_repr n hrest, bind, Except.bind, fractionPart_of_ends hrest,
    exponentPart_of_ends hrest]
  rfl

theorem number_sign {n : Nat} (hpos : n ≠ 0) (hn : n ≤ 2 ^ 63) {rest : Bytes}
    (hrest : ∀ b ∈ rest.head?, EndsNumber b) :
    number (45 :: (Bytes.ofString n.repr ++ rest)) = .ok (.int (-n), rest) := by
  have hnumber : (⟨true, Bytes.ofString n.repr, none, none⟩ : Numeral).number =
      .ok (.int (-n)) := by
    have hexact : decide (n ≤ Nat.pow 2 63) = true := decide_eq_true hn
    simp [Numeral.number, decimal_repr, hexact, hpos]
  rw [number, numeral_sign n hrest]
  simp only [bind, Except.bind, hnumber]
  rfl

theorem ofString_negSucc (n : Nat) :
    Bytes.ofString (toString (Int.negSucc n)) = 45 :: Bytes.ofString (n + 1).repr := by
  have htext : toString (Int.negSucc n) = "-" ++ (n + 1).repr := rfl
  have hsign : Bytes.ofString "-" = [45] := by decide +kernel
  rw [htext, Bytes.ofString_append, hsign]
  rfl

/-- Integers of 64 bits, with or without a sign, are read back. -/
theorem number_toString {n : Int} (hlower : -2 ^ 63 ≤ n) (hupper : n < 2 ^ 64) {rest : Bytes}
    (hrest : ∀ b ∈ rest.head?, EndsNumber b) :
    number (Bytes.ofString (toString n) ++ rest) = .ok (.int n, rest) := by
  cases n with
  | ofNat n =>
    have hn : n < 2 ^ 64 := by
      have hcast : (n : Int) < 2 ^ 64 := hupper
      omega
    exact number_repr hn hrest
  | negSucc n =>
    have hn : n + 1 ≤ 2 ^ 63 := by omega
    rw [ofString_negSucc, List.cons_append, number_sign n.succ_ne_zero hn hrest]
    rfl

/-- A number starts with its sign or with a digit. -/
theorem ofString_toString_head (n : Int) :
    ∃ b text, Bytes.ofString (toString n) = b :: text ∧ (b = 45 ∨ Bytes.isDigit b = true) := by
  cases n with
  | ofNat n =>
    obtain ⟨d, ds, hds⟩ := List.exists_cons_of_ne_nil (ofString_repr_ne_nil n)
    exact ⟨d, ds, hds, .inr (isDigit_of_mem_repr d (by rw [hds]; exact List.mem_cons_self))⟩
  | negSucc n => exact ⟨45, _, ofString_negSucc n, .inl rfl⟩

end Json

end CrashCapture
