import CrashCapture.Proofs.Dsn.RoundTrip

namespace CrashCapture.Dsn

open Text

/-- Decimal digits, and the number that they are. -/
structure Decimal (ds : List Char) (n : Nat) : Prop where
  ne : ds ≠ []
  digits : ∀ c ∈ ds, c.isDigit
  value : Nat.ofDigitChars 10 ds 0 = n

/-- A port may have a plus sign. -/
inductive PortText : List Char → Nat → Prop
  | plain {ds : List Char} {n : Nat} (digits : Decimal ds n) (le : n ≤ 65535) : PortText ds n
  | signed {ds : List Char} {n : Nat} (digits : Decimal ds n) (le : n ≤ 65535) :
      PortText ('+' :: ds) n

/-- The key, and a secret after the first colon. -/
inductive KeyText : List Char → List Char → Prop
  | alone {key : List Char} (ne : key ≠ []) (colon : ':' ∉ key) : KeyText key key
  | secret {key : List Char} (rest : List Char) (ne : key ≠ []) (colon : ':' ∉ key) :
      KeyText (key ++ ':' :: rest) key

/-- Only a host that is followed by a port may have colons. -/
inductive HostText : List Char → List Char → Option Nat → Prop
  | alone {host : List Char} (ne : host ≠ []) (colon : ':' ∉ host) : HostText host host none
  | withPort {host port : List Char} {n : Nat} (ne : host ≠ []) (number : PortText port n) :
      HostText (host ++ ':' :: port) host (some n)

/-- The project is the last segment, however many slashes follow it. -/
inductive PathText : List Char → List Char → List Char → Prop
  | alone {project : List Char} (n : Nat) (ne : project ≠ []) (slash : '/' ∉ project) :
      PathText (project ++ List.replicate n '/') [] project
  | nested {project : List Char} (before : List Char) (n : Nat) (ne : project ≠ [])
      (slash : '/' ∉ project) :
      PathText (before ++ '/' :: project ++ List.replicate n '/') ('/' :: before) project

/-- A way to divide a text into the parts of credentials. -/
structure Divided (s : List Char) (scheme : Scheme) (auth hostPort path : List Char) : Prop where
  text : s = scheme.text.toList ++ "://".toList ++ auth ++ '@' :: hostPort ++ '/' :: path
  auth_at : '@' ∉ auth
  key : ∃ key, KeyText auth key
  hostPort_slash : '/' ∉ hostPort
  host : ∃ host port, HostText hostPort host port
  path : ∃ c ∈ path, c ≠ '/'

/-- What credentials are, given the parts. -/
structure Denoted (d : Dsn) (scheme : Scheme) (auth hostPort path : List Char) : Prop where
  scheme : d.scheme = scheme
  key : KeyText auth d.publicKey.toList
  host : HostText hostPort d.host.toList d.explicitPort
  path : PathText path d.pathPrefix.toList d.projectId.toList

theorem parseKey_append {key : List Char} (h : ':' ∉ key) (rest : List Char) :
    parseKey (key ++ ':' :: rest) = key := by
  have hkey : ∀ c ∈ key, decide (c ≠ ':') = true :=
    fun c hc => decide_eq_true fun heq => h (heq ▸ hc)
  rw [parseKey, List.takeWhile_append_of_pos hkey, List.takeWhile_cons_of_neg (by decide),
    List.append_nil]

theorem keyText_iff {auth key : List Char} : KeyText auth key ↔ parseKey auth = key ∧ key ≠ [] := by
  constructor
  · rintro (⟨ne, colon⟩ | ⟨rest, ne, colon⟩)
    · exact ⟨parseKey_of_notMem colon, ne⟩
    · exact ⟨parseKey_append colon rest, ne⟩
  · rintro ⟨rfl, ne⟩
    by_cases hcolon : ':' ∈ auth
    · obtain ⟨key, rest, rfl, colon⟩ := List.eq_append_cons_of_mem hcolon
      rw [parseKey_append colon] at ne ⊢
      exact .secret rest ne colon
    · rw [parseKey_of_notMem hcolon] at ne ⊢
      exact .alone ne hcolon

theorem parseUnsigned_eq_some_iff {max n : Nat} {s : List Char} :
    parseUnsigned max s = some n ↔ Decimal (withoutPlus s) n ∧ n ≤ max := by
  have hvalue : digitsValue (withoutPlus s) = Nat.ofDigitChars 10 (withoutPlus s) 0 := rfl
  unfold parseUnsigned
  dsimp only
  rw [hvalue]
  constructor
  · intro h
    split at h
    · cases h
    · next hdigits =>
      split at h
      · next hle =>
        cases h
        simp only [Bool.or_eq_true, List.isEmpty_iff, Bool.not_eq_true', not_or,
          Bool.not_eq_false] at hdigits
        exact ⟨⟨hdigits.1, List.all_eq_true.1 hdigits.2, rfl⟩, hle⟩
      · cases h
  · rintro ⟨⟨ne, digits, rfl⟩, hle⟩
    have hall : (withoutPlus s).all Char.isDigit = true := List.all_eq_true.2 digits
    rw [if_neg (by simp [ne, hall]), if_pos hle]

theorem withoutPlus_digits {ds : List Char} {n : Nat} (h : Decimal ds n) : withoutPlus ds = ds := by
  unfold withoutPlus
  split
  · next rest => exact absurd (h.digits '+' List.mem_cons_self) (by decide)
  · rfl

theorem portText_iff {s : List Char} {n : Nat} :
    PortText s n ↔ parseUnsigned maxPort s = some n := by
  rw [parseUnsigned_eq_some_iff]
  constructor
  · rintro (⟨digits, le⟩ | ⟨digits, le⟩)
    · rw [withoutPlus_digits digits]
      exact ⟨digits, le⟩
    · exact ⟨digits, le⟩
  · rintro ⟨digits, le⟩
    unfold withoutPlus at digits
    split at digits
    · exact .signed digits le
    · exact .plain digits le

theorem colon_notMem_port {s : List Char} {n : Nat} (h : PortText s n) : ':' ∉ s := by
  have hdigits {ds : List Char} (h : Decimal ds n) : ':' ∉ ds :=
    fun hmem => absurd (h.digits _ hmem) (by decide)
  rcases h with ⟨digits, -⟩ | ⟨digits, -⟩
  · exact hdigits digits
  · simpa using hdigits digits

theorem hostText_iff {s host : List Char} {port : Option Nat} :
    HostText s host port ↔ parseHostPort s = some (host, port) ∧ host ≠ [] := by
  unfold parseHostPort
  constructor
  · rintro (⟨ne, colon⟩ | ⟨ne, hport⟩)
    · rw [splitLast_eq_none.2 colon]
      exact ⟨rfl, ne⟩
    · rw [splitLast_append _ (colon_notMem_port hport)]
      dsimp only
      rw [portText_iff.1 hport]
      exact ⟨rfl, ne⟩
  · rintro ⟨hparsed, ne⟩
    cases hcolon : splitLast ':' s with
    | none =>
      rw [hcolon] at hparsed
      cases hparsed
      exact .alone ne (splitLast_eq_none.1 hcolon)
    | some parts =>
      rw [hcolon] at hparsed
      obtain ⟨n, hn, heq⟩ := Option.map_eq_some_iff.1 hparsed
      cases heq
      obtain ⟨rfl, -⟩ := splitLast_eq_some.1 hcolon
      exact .withPort ne (portText_iff.2 hn)

/-- What is dropped are the slashes at the end, and all of them. -/
theorem exists_eq_dropTrailing (c : Char) (s : List Char) :
    ∃ n, s = dropTrailing c s ++ List.replicate n c := by
  induction s with
  | nil => exact ⟨0, rfl⟩
  | cons d s ih =>
    obtain ⟨n, hn⟩ := ih
    rw [dropTrailing]
    cases hrest : dropTrailing c s with
    | nil =>
      rw [hrest, List.nil_append] at hn
      by_cases hd : d = c
      · exact ⟨n + 1, by simp [hd, hn, List.replicate_succ]⟩
      · exact ⟨n, by simp [hd, hn]⟩
    | cons e r => exact ⟨n, by rw [hrest] at hn; exact congrArg (d :: ·) hn⟩

theorem dropTrailing_ne_concat (c : Char) (s body : List Char) :
    dropTrailing c s ≠ body ++ [c] := by
  induction s generalizing body with
  | nil => simp [dropTrailing]
  | cons d s ih =>
    rw [dropTrailing]
    cases hrest : dropTrailing c s with
    | nil =>
      by_cases hd : d = c
      · simp [hd]
      · cases body <;> simp [hd]
    | cons e r =>
      cases body with
      | nil => simp
      | cons b body =>
        intro h
        exact ih body (hrest.trans (List.cons.inj h).2)

theorem dropTrailing_append_replicate (c : Char) (a : List Char) (n : Nat) :
    dropTrailing c (a ++ List.replicate n c) = dropTrailing c a := by
  induction a with
  | nil =>
    induction n with
    | zero => rfl
    | succ n ih =>
      have hnone : dropTrailing c (List.replicate n c) = [] := ih
      simp [List.replicate_succ, dropTrailing, hnone]
  | cons d a ih => rw [List.cons_append, dropTrailing, ih, dropTrailing]

theorem pathText_iff {path before project : List Char} :
    PathText path before project ↔ parsePath path = (before, project) ∧ project ≠ [] := by
  constructor
  · rintro (⟨n, ne, slash⟩ | ⟨before, n, ne, slash⟩)
    · have hparsed := parsePath_written slash
      unfold parsePath at hparsed ⊢
      rw [dropTrailing_append_replicate]
      exact ⟨hparsed, ne⟩
    · have hparsed := parsePath_prefixed before slash ne
      unfold parsePath at hparsed ⊢
      rw [dropTrailing_append_replicate]
      exact ⟨hparsed, ne⟩
  · rintro ⟨hparsed, ne⟩
    obtain ⟨n, hn⟩ := exists_eq_dropTrailing '/' path
    unfold parsePath at hparsed
    cases hlast : splitLast '/' (dropTrailing '/' path) with
    | none =>
      rw [hlast] at hparsed
      cases hparsed
      have halone := PathText.alone n ne (splitLast_eq_none.1 hlast)
      rwa [← hn] at halone
    | some parts =>
      rw [hlast] at hparsed
      cases hparsed
      obtain ⟨hparts, slash⟩ := splitLast_eq_some.1 hlast
      have hnested := PathText.nested parts.1 n ne slash
      rwa [← hparts, ← hn] at hnested

/-- There is a project if there is anything but slashes. -/
theorem exists_pathText_iff {path : List Char} :
    (∃ before project, PathText path before project) ↔ ∃ c ∈ path, c ≠ '/' := by
  constructor
  · rintro ⟨_, project, ⟨n, ne, slash⟩ | ⟨before, n, ne, slash⟩⟩
    all_goals
      obtain ⟨c, hc⟩ := List.exists_mem_of_ne_nil project ne
      exact ⟨c, by simp [hc], fun heq => slash (heq ▸ hc)⟩
  · rintro ⟨c, hc, hslash⟩
    obtain ⟨n, hn⟩ := exists_eq_dropTrailing '/' path
    have hbody : dropTrailing '/' path ≠ [] := by
      intro hempty
      rw [hempty, List.nil_append] at hn
      rw [hn] at hc
      exact hslash (List.eq_of_mem_replicate hc)
    refine ⟨_, _, pathText_iff.2 ⟨rfl, ?_⟩⟩
    change (parsePath path).2 ≠ []
    unfold parsePath
    cases hlast : splitLast '/' (dropTrailing '/' path) with
    | none => exact hbody
    | some parts =>
      intro hempty
      obtain ⟨hparts, -⟩ := splitLast_eq_some.1 hlast
      have hproject : parts.2 = [] := hempty
      rw [hproject] at hparts
      exact dropTrailing_ne_concat '/' path parts.1 hparts

theorem parse_eq_ok_iff_divided {s : String} {d : Dsn} :
    parse s = .ok d ↔ ∃ scheme auth hostPort path,
      Divided s.toList scheme auth hostPort path ∧ Denoted d scheme auth hostPort path := by
  rw [parse_eq_ok_iff, parse?_eq_some_iff]
  constructor
  · rintro ⟨auth, hostPort, path, text, hat, hslash, hkey, hhost, hpath⟩
    have key := keyText_iff.2 hkey
    have host := hostText_iff.2 hhost
    have path := pathText_iff.2 hpath
    exact ⟨d.scheme, auth, hostPort, _,
      ⟨by simpa using text, hat, ⟨_, key⟩, hslash, ⟨_, _, host⟩,
        exists_pathText_iff.1 ⟨_, _, path⟩⟩, ⟨rfl, key, host, path⟩⟩
  · rintro ⟨_, auth, hostPort, path, divided, ⟨rfl, key, host, hpath⟩⟩
    exact ⟨auth, hostPort, path, by simpa using divided.text, divided.auth_at,
      divided.hostPort_slash, keyText_iff.1 key, hostText_iff.1 host, pathText_iff.1 hpath⟩

theorem Divided.exists_denoted {s auth hostPort path : List Char} {scheme : Scheme}
    (h : Divided s scheme auth hostPort path) : ∃ d, Denoted d scheme auth hostPort path := by
  obtain ⟨key, hkey⟩ := h.key
  obtain ⟨host, port, hhost⟩ := h.host
  obtain ⟨before, project, hpath⟩ := exists_pathText_iff.2 h.path
  refine ⟨⟨scheme, .ofList key, .ofList host, port, .ofList before, .ofList project⟩, rfl, ?_, ?_,
    ?_⟩
  all_goals simpa only [String.toList_ofList]

theorem parse_error {s : String} (h : ∀ d, parse s ≠ .ok d) : parse s = .error (.invalidDsn s) := by
  unfold parse at h ⊢
  cases hparsed : parse? s with
  | some d => exact absurd (by rw [hparsed]) (h d)
  | none => rfl

/-- A text is accepted if and only if it can be divided into the parts of credentials. It does not
matter in which way it is divided: what comes of it is what the parts say. Any other text is refused
with an error that carries it. -/
theorem accepts_grammar (s : String) :
    ((∃ d, parse s = .ok d) ↔
      ∃ scheme auth hostPort path, Divided s.toList scheme auth hostPort path) ∧
    (∀ scheme auth hostPort path, Divided s.toList scheme auth hostPort path →
      ∀ d, parse s = .ok d ↔ Denoted d scheme auth hostPort path) ∧
    ((¬∃ scheme auth hostPort path, Divided s.toList scheme auth hostPort path) →
      parse s = .error (.invalidDsn s)) := by
  have haccepts : (∃ d, parse s = .ok d) ↔
      ∃ scheme auth hostPort path, Divided s.toList scheme auth hostPort path := by
    constructor
    · rintro ⟨d, hd⟩
      obtain ⟨scheme, auth, hostPort, path, divided, -⟩ := parse_eq_ok_iff_divided.1 hd
      exact ⟨scheme, auth, hostPort, path, divided⟩
    · rintro ⟨scheme, auth, hostPort, path, divided⟩
      obtain ⟨d, denoted⟩ := divided.exists_denoted
      exact ⟨d, parse_eq_ok_iff_divided.2 ⟨scheme, auth, hostPort, path, divided, denoted⟩⟩
  refine ⟨haccepts, fun scheme auth hostPort path divided d => ⟨fun hd => ?_, fun denoted => ?_⟩,
    fun hnone => parse_error fun d hd => hnone (haccepts.1 ⟨d, hd⟩)⟩
  · obtain ⟨d', denoted⟩ := divided.exists_denoted
    have hd' := parse_eq_ok_iff_divided.2 ⟨scheme, auth, hostPort, path, divided, denoted⟩
    obtain rfl : d = d' := Except.ok.inj (hd.symm.trans hd')
    exact denoted
  · exact parse_eq_ok_iff_divided.2 ⟨scheme, auth, hostPort, path, divided, denoted⟩

/-- A secret, a host with a colon and an at sign, a port with a sign and zeros, and repeated
slashes. -/
theorem accepts_grammar_nested :
    let s := "http://ké:secret@a:b@host:+0080//nested//7//"
    let divided := Divided s.toList .http "ké:secret".toList "a:b@host:+0080".toList
      "/nested//7//".toList
    divided ∧ parse s = .ok ⟨.http, "ké", "a:b@host", some 80, "//nested/", "7"⟩ := by
  have key : KeyText "ké:secret".toList "ké".toList :=
    keyText_iff.2 ⟨by decide +kernel, by decide +kernel⟩
  have host : HostText "a:b@host:+0080".toList "a:b@host".toList (some 80) :=
    hostText_iff.2 ⟨by decide +kernel, by decide +kernel⟩
  have path : PathText "/nested//7//".toList "//nested/".toList "7".toList :=
    pathText_iff.2 ⟨by decide +kernel, by decide +kernel⟩
  have divided : Divided "http://ké:secret@a:b@host:+0080//nested//7//".toList .http
      "ké:secret".toList "a:b@host:+0080".toList "/nested//7//".toList :=
    ⟨by decide +kernel, by decide +kernel, ⟨_, key⟩, by decide +kernel, ⟨_, _, host⟩,
      exists_pathText_iff.1 ⟨_, _, path⟩⟩
  obtain ⟨-, hparsed, -⟩ := accepts_grammar "http://ké:secret@a:b@host:+0080//nested//7//"
  exact ⟨divided, (hparsed _ _ _ _ divided _).2 ⟨rfl, key, host, path⟩⟩

end CrashCapture.Dsn
