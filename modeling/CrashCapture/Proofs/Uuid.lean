import CrashCapture.Proofs.Json.Tokens
import CrashCapture.Uuid

namespace CrashCapture.Uuid

theorem hexValue?_hexDigit : ∀ d : Fin 16,
    Bytes.hexValue? (Bytes.hexDigit d.val) = some d.val ∧ (Bytes.hexDigit d.val).toNat < 128 := by
  decide

theorem toNat_ofNat : ∀ n : Fin 128, (Char.ofNat n.val).toNat = n.val := by decide

theorem ofString_ofBytes {bs : Bytes} (h : ∀ b ∈ bs, b.toNat < 128) :
    Bytes.ofString (ofBytes bs) = bs := by
  have hchar : ∀ b ∈ bs, (Char.ofNat b.toNat).toNat = b.toNat := fun b hb =>
    toNat_ofNat ⟨b.toNat, h b hb⟩
  rw [ofBytes, Bytes.ofString_ofList]
  · rw [List.map_map]
    conv => rhs; rw [← List.map_id bs]
    refine List.map_congr_left fun b hb => ?_
    simp [hchar b hb]
  · intro c hc
    obtain ⟨b, hb, rfl⟩ := List.mem_map.1 hc
    rw [hchar b hb]
    exact h b hb

theorem length_lowDigits (n count : Nat) : (lowDigits n count).length = count := by
  induction count generalizing n with
  | zero => rfl
  | succ count ih => simp [lowDigits, ih]

theorem ascii_lowDigits {n count : Nat} : ∀ b ∈ lowDigits n count, b.toNat < 128 := by
  induction count generalizing n with
  | zero => simp [lowDigits]
  | succ count ih =>
    intro b hb
    rcases List.mem_append.1 hb with hb | hb
    · exact ih b hb
    · rw [List.mem_singleton.1 hb]
      exact (hexValue?_hexDigit ⟨n % 16, Nat.mod_lt n (by decide)⟩).2

/-- Digits are worth the number that they were taken from, as far as they reach. -/
theorem mapM_lowDigits (n count : Nat) :
    ∃ ns, (lowDigits n count).mapM Bytes.hexValue? = some ns ∧
      ns.foldl (fun n d => 16 * n + d) 0 = n % 16 ^ count := by
  induction count generalizing n with
  | zero => exact ⟨[], rfl, by simp [Nat.mod_one]⟩
  | succ count ih =>
    obtain ⟨ns, hns, hfold⟩ := ih (n / 16)
    have hlast := (hexValue?_hexDigit ⟨n % 16, Nat.mod_lt n (by decide)⟩).1
    dsimp only at hlast
    refine ⟨ns ++ [n % 16], ?_, ?_⟩
    · simp [lowDigits, List.mapM_append, hns, hlast]
    · rw [List.foldl_append, hfold, List.foldl_cons, List.foldl_nil, Nat.pow_succ',
        Nat.mod_mul]
      omega

theorem parseDigits?_digits (u : Uuid) : parseDigits? u.digits = some u := by
  obtain ⟨ns, hns, hfold⟩ := mapM_lowDigits u.bits.toNat 32
  have hbits : u.bits.toNat % 16 ^ 32 = u.bits.toNat := Nat.mod_eq_of_lt u.bits.isLt
  rw [hbits] at hfold
  rw [parseDigits?, digits, hns]
  simp [hfold]

theorem parseHyphenated?_append {a b c d e : Bytes} (ha : a.length = 8) (hb : b.length = 4)
    (hc : c.length = 4) (hd : d.length = 4) (he : e.length = 12) :
    parseHyphenated? (a ++ 45 :: (b ++ 45 :: (c ++ 45 :: (d ++ 45 :: e)))) =
      parseDigits? (a ++ b ++ c ++ d ++ e) := by
  have hlength : (a ++ 45 :: (b ++ 45 :: (c ++ 45 :: (d ++ 45 :: e)))).length = 36 := by
    simp [ha, hb, hc, hd, he]
  unfold parseHyphenated?
  rw [if_pos]
  · congr 1
    simp (disch := omega) [List.drop_append, List.drop_of_length_le, ha, hb, hc, hd]
  · simp [List.getElem?_append, ha, hb, hc, hd, he]

theorem hyphenated_eq (u : Uuid) :
    List.intercalate [45] (groups u.digits) = u.digits.take 8 ++ 45 ::
      ((u.digits.drop 8).take 4 ++ 45 :: ((u.digits.drop 12).take 4 ++ 45 ::
        ((u.digits.drop 16).take 4 ++ 45 :: u.digits.drop 20))) := by
  simp [groups, List.intercalate, List.intersperse]

theorem take_append_drop_add (ds : Bytes) (k n : Nat) :
    (ds.drop k).take n ++ ds.drop (k + n) = ds.drop k := by
  rw [← List.drop_drop, List.take_append_drop]

theorem groups_flatten (ds : Bytes) : (groups ds).flatten = ds := by
  simp only [groups, List.flatten_cons, List.flatten_nil, List.append_nil]
  rw [take_append_drop_add ds 16 4, take_append_drop_add ds 12 4, take_append_drop_add ds 8 4,
    List.take_append_drop]

theorem hyphen_or_digit {u : Uuid} {b : UInt8} (hb : b ∈ List.intercalate [45] (groups u.digits)) :
    b = 45 ∨ b ∈ u.digits := by
  rw [hyphenated_eq] at hb
  simp only [List.mem_append, List.mem_cons] at hb
  grind [List.mem_of_mem_take, List.mem_of_mem_drop]

theorem ascii_hyphenated (u : Uuid) :
    ∀ b ∈ List.intercalate [45] (groups u.digits), b.toNat < 128 := by
  intro b hb
  rcases hyphen_or_digit hb with rfl | hb
  · decide
  · exact ascii_lowDigits b hb

/-- An identifier is written with these characters. -/
def characters : List Char := "0123456789abcdef-".toList

theorem hexDigit_of_mem_lowDigits {n count : Nat} :
    ∀ b ∈ lowDigits n count, ∃ d : Fin 16, b = Bytes.hexDigit d.val := by
  induction count generalizing n with
  | zero => simp [lowDigits]
  | succ count ih =>
    intro b hb
    rcases List.mem_append.1 hb with hb | hb
    · exact ih b hb
    · exact ⟨⟨n % 16, Nat.mod_lt n (by decide)⟩, List.mem_singleton.1 hb⟩

theorem mem_characters : ∀ d : Fin 16, Char.ofNat (Bytes.hexDigit d.val).toNat ∈ characters := by
  decide +kernel

theorem mem_characters_of_hyphenated (u : Uuid) : ∀ c ∈ u.hyphenated.toList, c ∈ characters := by
  intro c hc
  rw [hyphenated, ofBytes, String.toList_ofList] at hc
  obtain ⟨b, hb, rfl⟩ := List.mem_map.1 hc
  rcases hyphen_or_digit hb with rfl | hdigit
  · decide +kernel
  · obtain ⟨d, rfl⟩ := hexDigit_of_mem_lowDigits b hdigit
    exact mem_characters d

theorem ofString_hyphenated (u : Uuid) :
    Bytes.ofString u.hyphenated = List.intercalate [45] (groups u.digits) :=
  ofString_ofBytes (ascii_hyphenated u)

theorem length_hyphenated (u : Uuid) : (Bytes.ofString u.hyphenated).length = 36 := by
  have hlength : u.digits.length = 32 := length_lowDigits _ 32
  rw [ofString_hyphenated, hyphenated_eq]
  simp [hlength]

/-- The length of the text tells that it has hyphens. -/
theorem parse?_of_length {s : String} (h : (Bytes.ofString s).length = 36) :
    parse? s = parseHyphenated? (Bytes.ofString s) := by
  rw [parse?, parseBytes?, if_neg (by omega), if_pos h]

theorem parse?_hyphenated (u : Uuid) : parse? u.hyphenated = some u := by
  have hlength : u.digits.length = 32 := length_lowDigits _ 32
  rw [parse?_of_length (length_hyphenated u), ofString_hyphenated, hyphenated_eq,
    parseHyphenated?_append]
  · have hflatten := groups_flatten u.digits
    simp only [groups, List.flatten_cons, List.flatten_nil, List.append_nil] at hflatten
    simp only [List.append_assoc, hflatten]
    exact parseDigits?_digits u
  all_goals simp [hlength]

theorem hexValue?_lowerByte : ∀ n : Fin 256,
    Bytes.hexValue? (lowerByte n.val.toUInt8) = Bytes.hexValue? n.val.toUInt8 ∧
      (lowerByte n.val.toUInt8 = 45 ↔ n.val.toUInt8 = 45) := by
  decide +kernel

theorem lowerByte_spec (b : UInt8) :
    Bytes.hexValue? (lowerByte b) = Bytes.hexValue? b ∧ (lowerByte b = 45 ↔ b = 45) := by
  have h := hexValue?_lowerByte ⟨b.toNat, b.toNat_lt⟩
  simpa using h

theorem parseDigits?_lower (ds : Bytes) : parseDigits? (ds.map lowerByte) = parseDigits? ds := by
  have hvalues : Bytes.hexValue? ∘ lowerByte = Bytes.hexValue? := by
    funext b
    exact (lowerByte_spec b).1
  rw [parseDigits?, parseDigits?, List.mapM_map, hvalues]

theorem parseHyphenated?_lower (bs : Bytes) :
    parseHyphenated? (bs.map lowerByte) = parseHyphenated? bs := by
  have hhyphen : ∀ i : Nat, (bs.map lowerByte)[i]? = some 45 ↔ bs[i]? = some 45 := by
    intro i
    rw [List.getElem?_map]
    cases bs[i]? with
    | none => simp
    | some b => simpa using (lowerByte_spec b).2
  unfold parseHyphenated?
  simp only [List.length_map, hhyphen, ← List.map_take, ← List.map_drop, ← List.map_append,
    parseDigits?_lower]

theorem toLower_ascii : ∀ n : Fin 128, (Char.ofNat n.val).toLower.toNat.toUInt8 =
    lowerByte (Char.ofNat n.val).toNat.toUInt8 := by
  decide +kernel

theorem ascii_of_toLower {c : Char} (h : c.toLower.toNat < 128) : c.toNat < 128 := by
  unfold Char.toLower at h
  split at h
  · next hletter =>
    have hle : c.toNat ≤ 90 := UInt32.le_iff_toNat_le.1 hletter.2
    omega
  · exact h

theorem map_lowerByte_ofString {s : String} (h : ∀ c ∈ s.toLower.toList, c.toNat < 128) :
    (Bytes.ofString s).map lowerByte = Bytes.ofString s.toLower := by
  have hlower : s.toLower.toList = s.toList.map Char.toLower := String.toList_map
  have hascii : ∀ c ∈ s.toList, c.toNat < 128 := by
    intro c hc
    refine ascii_of_toLower (h _ ?_)
    rw [hlower]
    exact List.mem_map_of_mem hc
  rw [← String.ofList_toList (s := s.toLower), Bytes.ofString_ofList h, hlower,
    ← String.ofList_toList (s := s), Bytes.ofString_ofList hascii, String.ofList_toList,
    List.map_map, List.map_map]
  refine List.map_congr_left fun c hc => ?_
  have hc := toLower_ascii ⟨c.toNat, hascii c hc⟩
  simpa using hc.symm

/-- An identifier with hyphens is read in either case. -/
theorem parse?_of_toLower {s : String} {u : Uuid} (h : s.toLower = u.hyphenated) :
    parse? s = some u := by
  have hascii : ∀ c ∈ s.toLower.toList, c.toNat < 128 := by
    intro c hc
    rw [h, hyphenated, ofBytes, String.toList_ofList] at hc
    obtain ⟨b, hb, rfl⟩ := List.mem_map.1 hc
    rw [toNat_ofNat ⟨b.toNat, ascii_hyphenated u b hb⟩]
    exact ascii_hyphenated u b hb
  have hbytes := map_lowerByte_ofString hascii
  rw [h] at hbytes
  have hlength : (Bytes.ofString s).length = 36 := by
    rw [← List.length_map lowerByte, hbytes]
    exact length_hyphenated u
  rw [parse?_of_length hlength, ← parseHyphenated?_lower, hbytes,
    ← parse?_of_length (length_hyphenated u)]
  exact parse?_hyphenated u

end CrashCapture.Uuid
