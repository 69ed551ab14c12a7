namespace CrashCapture.Text

def digitsValue (ds : List Char) : Nat := ds.foldl (fun n d => 10 * n + (d.toNat - '0'.toNat)) 0

def withoutPlus : List Char → List Char
  | '+' :: ds => ds
  | ds => ds

/-- An optional plus sign and at least one digit, for a number that is not above `max`. -/
def parseUnsigned (max : Nat) (s : List Char) : Option Nat :=
  let ds := withoutPlus s
  if ds.isEmpty || !ds.all Char.isDigit then none
  else if digitsValue ds ≤ max then some (digitsValue ds)
  else none

theorem isDigit_of_mem_toString {n : Nat} {c : Char} (h : c ∈ (toString n).toList) : c.isDigit := by
  rw [Nat.toString_eq_repr, Nat.toList_repr] at h
  exact Nat.isDigit_of_mem_toDigits (by decide) (by decide) h

theorem digitsValue_toString (n : Nat) : digitsValue (toString n).toList = n := by
  rw [Nat.toString_eq_repr, Nat.toList_repr]
  exact Nat.ofDigitChars_toDigits (by decide) (by decide)

theorem parseUnsigned_toString {max n : Nat} (h : n ≤ max) :
    parseUnsigned max (toString n).toList = some n := by
  have hplus : withoutPlus (toString n).toList = (toString n).toList := by
    unfold withoutPlus
    split
    · next ds hds =>
      have hmem : '+' ∈ (toString n).toList := hds ▸ List.mem_cons_self
      exact absurd (isDigit_of_mem_toString hmem) (by decide)
    · rfl
  have hall : (toString n).toList.all Char.isDigit = true :=
    List.all_eq_true.2 fun _ => isDigit_of_mem_toString
  rw [parseUnsigned, hplus, digitsValue_toString, hall, if_neg (by simp), if_pos h]

theorem parseUnsigned_le {max n : Nat} {s : List Char} (h : parseUnsigned max s = some n) :
    n ≤ max := by
  unfold parseUnsigned at h
  dsimp only at h
  split at h
  · cases h
  · split at h
    · next hle =>
      cases h
      exact hle
    · cases h

end CrashCapture.Text
