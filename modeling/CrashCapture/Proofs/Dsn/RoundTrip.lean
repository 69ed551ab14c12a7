import CrashCapture.Dsn
import Mathlib.Data.List.TakeWhile

namespace CrashCapture

open Text

theorem Scheme.ofChars?_eq_some {s : List Char} {scheme : Scheme} :
    ofChars? s = some scheme ↔ s = scheme.text.toList := by
  unfold ofChars?
  by_cases hhttp : s = http.text.toList
  · rw [if_pos hhttp, hhttp]
    cases scheme <;> decide
  · rw [if_neg hhttp]
    by_cases hhttps : s = https.text.toList
    · rw [if_pos hhttps, hhttps]
      cases scheme <;> decide
    · rw [if_neg hhttps]
      cases scheme
      · simp [hhttp]
      · simp [hhttps]

theorem splitOnce_scheme (scheme : Scheme) (rest : List Char) :
    splitOnce "://".toList (scheme.text.toList ++ "://".toList ++ rest) =
      some (scheme.text.toList, rest) := by
  cases scheme <;> rfl

theorem eq_of_splitOnce {word s a b : List Char} (h : splitOnce word s = some (a, b)) :
    s = a ++ word ++ b := by
  induction s generalizing a with
  | nil =>
    unfold splitOnce at h
    split at h
    · next hempty =>
      cases h
      simpa using hempty
    · cases h
  | cons c cs ih =>
    unfold splitOnce at h
    split at h
    · next hbefore =>
      cases h
      obtain ⟨rest, hrest⟩ := List.isPrefixOf_iff_prefix.1 hbefore
      rw [← hrest, List.drop_left]
      rfl
    · obtain ⟨⟨a', b'⟩, hcs, heq⟩ := Option.map_eq_some_iff.1 h
      cases heq
      rw [ih hcs]
      rfl

namespace Dsn

/-- What the parts of parsed credentials look like, so that what separates them is found again. -/
structure WellFormed (d : Dsn) : Prop where
  key_ne : d.publicKey.toList ≠ []
  key_at : '@' ∉ d.publicKey.toList
  key_colon : ':' ∉ d.publicKey.toList
  host_ne : d.host.toList ≠ []
  host_slash : '/' ∉ d.host.toList
  host_colon : d.explicitPort = none → ':' ∉ d.host.toList
  port_le : ∀ p, d.explicitPort = some p → p ≤ maxPort
  path_slash : d.pathPrefix.toList = [] ∨ ∃ before, d.pathPrefix.toList = '/' :: before
  project_ne : d.projectId.toList ≠ []
  project_slash : '/' ∉ d.projectId.toList

/-- Credentials are parsed in four parts: the scheme, the key with what follows it up to the `@`,
the host with its port up to the next slash, and the rest. -/
theorem parse?_eq_some_iff {s : String} {d : Dsn} : parse? s = some d ↔
    ∃ auth hostPort path, s.toList =
        d.scheme.text.toList ++ "://".toList ++ (auth ++ '@' :: (hostPort ++ '/' :: path)) ∧
      '@' ∉ auth ∧ '/' ∉ hostPort ∧
      (parseKey auth = d.publicKey.toList ∧ d.publicKey.toList ≠ []) ∧
      (parseHostPort hostPort = some (d.host.toList, d.explicitPort) ∧ d.host.toList ≠ []) ∧
      (parsePath path = (d.pathPrefix.toList, d.projectId.toList) ∧ d.projectId.toList ≠ []) := by
  unfold parse?
  simp only [Option.bind_eq_bind, Option.bind_none, Option.bind_eq_some_iff,
    Option.ite_none_left_eq_some, List.isEmpty_iff, Option.pure_def, Option.some.injEq]
  constructor
  · rintro ⟨⟨scheme, rest⟩, hsplit, scheme', hscheme, ⟨auth, rest'⟩, hauth, hkey, ⟨hostPort, path⟩,
      hpath, ⟨host, port⟩, hhost, hhostne, hproject, rfl⟩
    obtain rfl := Scheme.ofChars?_eq_some.1 hscheme
    obtain ⟨rfl, hat⟩ := splitFirst_eq_some.1 hauth
    obtain ⟨rfl, hslash⟩ := splitFirst_eq_some.1 hpath
    refine ⟨auth, hostPort, path, eq_of_splitOnce hsplit, hat, hslash, ?_⟩
    simpa only [String.toList_ofList, true_and] using ⟨hkey, ⟨hhost, hhostne⟩, hproject⟩
  · rintro ⟨auth, hostPort, path, hs, hat, hslash, ⟨hkey, hkeyne⟩, ⟨hhost, hhostne⟩, hpath,
      hproject⟩
    refine ⟨_, hs ▸ splitOnce_scheme d.scheme _, _, Scheme.ofChars?_eq_some.2 rfl, _,
      splitFirst_eq_some.2 ⟨rfl, hat⟩, hkey ▸ hkeyne, _, splitFirst_eq_some.2 ⟨rfl, hslash⟩, _,
      hhost, hhostne, ?_, ?_⟩
    · rw [hpath]
      exact hproject
    · rw [hpath, hkey]
      simp only [String.ofList_toList]

theorem parseKey_of_notMem {key : List Char} (h : ':' ∉ key) : parseKey key = key :=
  List.takeWhile_eq_self_iff.2 fun _ hc => decide_eq_true fun heq => h (heq ▸ hc)

theorem notMem_parseKey {auth : List Char} (hat : '@' ∉ auth) :
    '@' ∉ parseKey auth ∧ ':' ∉ parseKey auth := by
  unfold parseKey
  constructor
  · exact fun h => hat ((List.takeWhile_prefix _).subset h)
  · intro h
    simpa using List.mem_takeWhile_imp h

theorem host_of_parseHostPort {s host : List Char} {port : Option Nat}
    (h : parseHostPort s = some (host, port)) (hslash : '/' ∉ s) :
    '/' ∉ host ∧ (port = none → ':' ∉ host) ∧ ∀ p, port = some p → p ≤ maxPort := by
  unfold parseHostPort at h
  cases hcolon : splitLast ':' s with
  | none =>
    rw [hcolon] at h
    cases h
    exact ⟨hslash, fun _ => splitLast_eq_none.1 hcolon, nofun⟩
  | some parts =>
    rw [hcolon] at h
    obtain ⟨p, hp, heq⟩ := Option.map_eq_some_iff.1 h
    cases heq
    obtain ⟨rfl, -⟩ := splitLast_eq_some.1 hcolon
    refine ⟨fun hmem => hslash (List.mem_append_left _ hmem), nofun, fun q hq => ?_⟩
    cases hq
    exact parseUnsigned_le hp

theorem parts_of_parsePath {s before project : List Char} (h : parsePath s = (before, project)) :
    (before = [] ∨ ∃ rest, before = '/' :: rest) ∧ '/' ∉ project := by
  unfold parsePath at h
  cases hlast : splitLast '/' (dropTrailing '/' s) with
  | none =>
    rw [hlast] at h
    cases h
    exact ⟨.inl rfl, splitLast_eq_none.1 hlast⟩
  | some parts =>
    rw [hlast] at h
    cases h
    exact ⟨.inr ⟨_, rfl⟩, (splitLast_eq_some.1 hlast).2⟩

theorem wellFormed_of_parse? {s : String} {d : Dsn} (h : parse? s = some d) : d.WellFormed := by
  obtain ⟨auth, hostPort, path, -, hat, hslash, ⟨hkey, hkeyne⟩, ⟨hhost, hhostne⟩, hpath,
    hproject⟩ := parse?_eq_some_iff.1 h
  obtain ⟨hkeyat, hkeycolon⟩ := notMem_parseKey hat
  obtain ⟨hhostslash, hhostcolon, hport⟩ := host_of_parseHostPort hhost hslash
  obtain ⟨hbefore, hprojectslash⟩ := parts_of_parsePath hpath
  rw [hkey] at hkeyat hkeycolon
  exact ⟨hkeyne, hkeyat, hkeycolon, hhostne, hhostslash, hhostcolon, hport, hbefore, hproject,
    hprojectslash⟩

/-- What is written of a port, with the colon before it. -/
def portText : Option Nat → List Char
  | some p => ':' :: (toString p).toList
  | none => []

theorem toList_render (d : Dsn) : d.render.toList =
    d.scheme.text.toList ++ "://".toList ++ (d.publicKey.toList ++ '@' ::
      (d.host.toList ++ portText d.explicitPort ++
        (d.pathPrefix.toList ++ '/' :: d.projectId.toList))) := by
  unfold render
  simp only [String.toList_append]
  cases d.explicitPort <;> simp [portText]

theorem slash_notMem_portText (port : Option Nat) : '/' ∉ portText port := by
  cases port with
  | none => exact List.not_mem_nil
  | some p =>
    intro h
    rcases List.mem_cons.1 h with h | h
    · exact absurd h (by decide)
    · exact absurd (isDigit_of_mem_toString h) (by decide)

theorem parseHostPort_written {host : List Char} {port : Option Nat}
    (hcolon : port = none → ':' ∉ host) (hle : ∀ p, port = some p → p ≤ maxPort) :
    parseHostPort (host ++ portText port) = some (host, port) := by
  unfold parseHostPort
  cases port with
  | none => rw [portText, List.append_nil, splitLast_eq_none.2 (hcolon rfl)]
  | some p =>
    have hlast : ':' ∉ (toString p).toList := fun h =>
      absurd (isDigit_of_mem_toString h) (by decide)
    rw [portText, splitLast_append host hlast]
    dsimp only
    rw [parseUnsigned_toString (hle p rfl)]
    rfl

theorem parsePath_written {project : List Char} (hslash : '/' ∉ project) :
    parsePath project = ([], project) := by
  rw [parsePath, dropTrailing_of_notMem hslash, splitLast_eq_none.2 hslash]

theorem parsePath_prefixed (before : List Char) {project : List Char} (hslash : '/' ∉ project)
    (hne : project ≠ []) : parsePath (before ++ '/' :: project) = ('/' :: before, project) := by
  have htrailing : dropTrailing '/' (before ++ '/' :: project) = before ++ '/' :: project := by
    have happend := dropTrailing_append (before ++ ['/']) hslash hne
    simpa using happend
  rw [parsePath, htrailing, splitLast_append before hslash]

/-- What is written has one slash after the host, whether there is a path or not. -/
theorem exists_path {d : Dsn} (h : d.WellFormed) : ∃ path,
    d.pathPrefix.toList ++ '/' :: d.projectId.toList = '/' :: path ∧
      parsePath path = (d.pathPrefix.toList, d.projectId.toList) := by
  rcases h.path_slash with hnone | ⟨before, hbefore⟩
  · rw [hnone]
    exact ⟨_, rfl, parsePath_written h.project_slash⟩
  · rw [hbefore]
    exact ⟨_, rfl, parsePath_prefixed before h.project_slash h.project_ne⟩

theorem parse?_render {d : Dsn} (h : d.WellFormed) : parse? d.render = some d := by
  obtain ⟨path, hpath, hparsed⟩ := exists_path h
  have hauth := parseKey_of_notMem h.key_colon
  have hslash : '/' ∉ d.host.toList ++ portText d.explicitPort := by
    intro hmem
    rcases List.mem_append.1 hmem with hmem | hmem
    · exact h.host_slash hmem
    · exact slash_notMem_portText _ hmem
  refine parse?_eq_some_iff.2 ⟨d.publicKey.toList, _, path, ?_, h.key_at, hslash, ⟨hauth, h.key_ne⟩,
    ⟨parseHostPort_written h.host_colon h.port_le, h.host_ne⟩, hparsed, h.project_ne⟩
  rw [toList_render, hpath]

theorem parse_eq_ok_iff {s : String} {d : Dsn} : parse s = .ok d ↔ parse? s = some d := by
  unfold parse
  cases parse? s <;> simp

/-- Credentials that come from some text are the same after they are written and parsed again, and
so is all that is made of them. They are those whose parts can be told apart in what is written. -/
theorem written_is_parsed (d : Dsn) :
    (∀ s, parse s = .ok d → parse d.render = .ok d ∧
      ∀ d', parse d.render = .ok d' →
        d'.render = d.render ∧ d'.port = d.port ∧ d'.minidumpUrl = d.minidumpUrl) ∧
    ((∃ s, parse s = .ok d) ↔ d.WellFormed) := by
  have hrender (h : d.WellFormed) : parse d.render = .ok d := parse_eq_ok_iff.2 (parse?_render h)
  constructor
  · intro s hs
    have hagain := hrender (wellFormed_of_parse? (parse_eq_ok_iff.1 hs))
    refine ⟨hagain, fun d' hd' => ?_⟩
    rw [hagain] at hd'
    cases hd'
    exact ⟨rfl, rfl, rfl⟩
  · constructor
    · rintro ⟨s, hs⟩
      exact wellFormed_of_parse? (parse_eq_ok_iff.1 hs)
    · exact fun h => ⟨_, hrender h⟩

/-- A secret, a colon and an at sign in the host, a port with a sign and zeros, and repeated
slashes: written again, they are gone or stand where they are found. -/
theorem written_is_parsed_nested :
    let d : Dsn := ⟨.http, "ké", "a:b@host", some 80, "//nested/", "7"⟩
    parse "http://ké:secret@a:b@host:+0080//nested//7//" = .ok d ∧
      d.render = "http://ké@a:b@host:80//nested//7" ∧ parse d.render = .ok d := by
  have hparsed : parse "http://ké:secret@a:b@host:+0080//nested//7//" =
      .ok ⟨.http, "ké", "a:b@host", some 80, "//nested/", "7"⟩ := by
    decide +kernel
  exact ⟨hparsed, by decide +kernel, ((written_is_parsed _).1 _ hparsed).1⟩

end Dsn

end CrashCapture
