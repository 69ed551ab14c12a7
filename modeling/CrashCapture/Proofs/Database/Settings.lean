import CrashCapture.Proofs.Json.RoundTrip
import CrashCapture.Proofs.Uuid
import CrashCapture.Settings

namespace CrashCapture.Settings

open Json

theorem readValue_space {α : Type} {read : Bytes → Decode (α × Bytes)} {b : UInt8}
    (hb : isBlank b = false) (rest : Bytes) :
    readValue read (32 :: b :: rest) = read (b :: rest) := by
  rw [readValue, skipBlanks, List.dropWhile_cons_of_pos (by decide),
    List.dropWhile_cons_of_neg (by simp [hb])]

theorem readUuid_hyphenated (u : Uuid) (rest : Bytes) :
    readUuid (32 :: (encodeString u.hyphenated ++ rest)) = .ok (u, rest) := by
  rw [readUuid, encodeString, List.cons_append, List.cons_append, readValue_space rfl]
  simp [stringTail_escaped, Uuid.parse?_hyphenated, bind, Except.bind, pure, Except.pure]

theorem readBool_encode (b : Bool) (rest : Bytes) :
    readBool (32 :: (encode (.bool b) ++ rest)) = .ok (b, rest) := by
  cases b with
  | true =>
    have htext : encode (.bool true) = 116 :: [114, 117, 101] := by decide +kernel
    rw [readBool, htext, List.cons_append, readValue_space rfl]
    simp only [word_self, bind, Except.bind]
    rfl
  | false =>
    have htext : encode (.bool false) = 102 :: [97, 108, 115, 101] := by decide +kernel
    rw [readBool, htext, List.cons_append, readValue_space rfl]
    simp only [word_self, bind, Except.bind]
    rfl

theorem readTime_null (rest : Bytes) : readTime (32 :: (encode .null ++ rest)) = .ok (none, rest) := by
  have htext : encode .null = 110 :: [117, 108, 108] := by decide +kernel
  rw [readTime, htext, List.cons_append, readValue_space rfl]
  simp only [word_self, bind, Except.bind]
  rfl

theorem readTime_ofNat (time : UInt64) {rest : Bytes} (hrest : ∀ b ∈ rest.head?, EndsNumber b) :
    readTime (32 :: (encode (.ofNat time.toNat) ++ rest)) = .ok (some time, rest) := by
  have htext : encode (.ofNat time.toNat) = Bytes.ofString time.toNat.repr := by
    rw [Json.ofNat, encode]
    rfl
  have hread := number_repr time.toNat_lt hrest
  obtain ⟨d, ds, hds⟩ := List.exists_cons_of_ne_nil (ofString_repr_ne_nil time.toNat)
  have hd : Bytes.isDigit d = true :=
    isDigit_of_mem_repr d (by rw [hds]; exact List.mem_cons_self)
  have hblank : isBlank d = false := (Starts.of_isDigit hd).noBlank
  rw [hds, List.cons_append] at hread
  rw [readTime, htext, hds, List.cons_append, readValue_space hblank]
  split
  · next heq => exact absurd (List.cons.inj heq).1 (ne_of_isDigit hd rfl)
  · next heq =>
    obtain ⟨rfl, rfl⟩ := List.cons.inj heq
    rw [if_pos (by simp [hd]), hread]
    simp [bind, Except.bind, pure, Except.pure]
  · next heq => cases heq

def timeJson (time : Option UInt64) : Json := (time.map (Json.ofNat ·.toNat)).getD .null

theorem readTime_encode (time : Option UInt64) {rest : Bytes}
    (hrest : ∀ b ∈ rest.head?, EndsNumber b) :
    readTime (32 :: (encode (timeJson time) ++ rest)) = .ok (time, rest) := by
  cases time with
  | none => exact readTime_null rest
  | some time => exact readTime_ofNat time hrest

/-- The written form after its brace. -/
def membersText (s : Settings) : Bytes :=
  newline 1 ++ encodeString "client_id" ++
    (58 :: 32 :: (encodeString s.clientId.hyphenated ++
    (44 :: (newline 1 ++ encodeString "uploads_enabled" ++
    (58 :: 32 :: (encode (.bool s.uploadsEnabled) ++
    (44 :: (newline 1 ++ encodeString "last_upload_attempt" ++
    (58 :: 32 :: (encode (timeJson s.lastUploadAttempt) ++
    (newline 0 ++ 125 :: [])))))))))))

theorem render_eq (s : Settings) : s.render = 123 :: membersText s := by
  have htime : encodePretty 1 (timeJson s.lastUploadAttempt) =
      encode (timeJson s.lastUploadAttempt) := by
    cases s.lastUploadAttempt <;> rfl
  rw [timeJson] at htime
  simp [membersText, timeJson, render, encodePretty, prettyMembers, encode, htime]

theorem member_clientId (d : Draft) (hd : d.clientId = none) (u : Uuid) (rest : Bytes) :
    d.member "client_id" (58 :: 32 :: (encodeString u.hyphenated ++ rest)) =
      .ok ({ d with clientId := some u }, rest) := by
  simp [Draft.member, hd, punctuation_self, isBlank, readUuid_hyphenated, bind, Except.bind, pure,
    Except.pure]

theorem member_uploadsEnabled (d : Draft) (hd : d.uploadsEnabled = none) (b : Bool)
    (rest : Bytes) :
    d.member "uploads_enabled" (58 :: 32 :: (encode (.bool b) ++ rest)) =
      .ok ({ d with uploadsEnabled := some b }, rest) := by
  simp [Draft.member, hd, punctuation_self, isBlank, readBool_encode, bind, Except.bind, pure,
    Except.pure]

theorem member_lastUploadAttempt (d : Draft) (hd : d.lastUploadAttempt = none)
    (time : Option UInt64) {rest : Bytes} (hrest : ∀ b ∈ rest.head?, EndsNumber b) :
    d.member "last_upload_attempt" (58 :: 32 :: (encode (timeJson time) ++ rest)) =
      .ok ({ d with lastUploadAttempt := some time }, rest) := by
  simp [Draft.member, hd, punctuation_self, isBlank, readTime_encode time hrest, bind, Except.bind,
    pure, Except.pure]

theorem foldMembers_membersText (s : Settings) (fuel : Nat) :
    foldMembers Draft.member (fuel + 4) true {} (membersText s) =
      .ok (⟨some s.clientId, some s.uploadsEnabled, some s.lastUploadAttempt⟩, []) := by
  have hends : ∀ b ∈ (newline 0 ++ [125]).head?, EndsNumber b := by
    intro b hb
    cases hb
    exact ⟨rfl, by decide, by decide⟩
  rw [membersText, foldMembers_first (isBlank_newline 1) (member_clientId {} rfl s.clientId _),
    foldMembers_next (isBlank_newline 1) (member_uploadsEnabled _ rfl s.uploadsEnabled _),
    foldMembers_next (isBlank_newline 1) (member_lastUploadAttempt _ rfl s.lastUploadAttempt hends),
    foldMembers_end (isBlank_newline 0)]

/-- Settings that were written are read back. -/
theorem parse_render (s : Settings) : parse s.render = .ok s := by
  have hfuel : ∃ fuel, (membersText s).length + 1 = fuel + 4 :=
    ⟨(membersText s).length - 3, by simp [membersText, newline]⟩
  obtain ⟨fuel, hfuel⟩ := hfuel
  have hmembers : ofMembers (membersText s) = .ok (s, []) := by
    rw [ofMembers, hfuel, foldMembers_membersText]
    rfl
  have hskip : skipBlanks (123 :: membersText s) = 123 :: membersText s := rfl
  rw [render_eq, parse, readValue, hskip]
  simp [hmembers, finish, skipBlanks, bind, Except.bind]

end CrashCapture.Settings
