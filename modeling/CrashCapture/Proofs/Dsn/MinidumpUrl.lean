import CrashCapture.Proofs.Dsn.Grammar

namespace CrashCapture

namespace Text

variable {sep : Char} {a a' b b' : List Char}

theorem eq_of_append_first (h : a ++ sep :: b = a' ++ sep :: b') (ha : sep ∉ a) (ha' : sep ∉ a') :
    a = a' ∧ b = b' := by
  have hleft : splitFirst sep (a' ++ sep :: b') = some (a, b) := splitFirst_eq_some.2 ⟨h.symm, ha⟩
  have hright : splitFirst sep (a' ++ sep :: b') = some (a', b') :=
    splitFirst_eq_some.2 ⟨rfl, ha'⟩
  rw [hleft] at hright
  exact Prod.mk.inj (Option.some.inj hright)

theorem eq_of_append_last (h : a ++ sep :: b = a' ++ sep :: b') (hb : sep ∉ b) (hb' : sep ∉ b') :
    a = a' ∧ b = b' := by
  have hleft := splitLast_append a hb
  rw [h, splitLast_append a' hb'] at hleft
  obtain ⟨ha, hb⟩ := Prod.mk.inj (Option.some.inj hleft)
  exact ⟨ha.symm, hb.symm⟩

theorem toString_injective {n m : Nat} (h : (toString n).toList = (toString m).toList) : n = m := by
  rw [← digitsValue_toString n, h, digitsValue_toString]

end Text

open Text

theorem Scheme.eq_of_append {scheme scheme' : Scheme} {rest rest' : List Char}
    (h : scheme.text.toList ++ "://".toList ++ rest =
      scheme'.text.toList ++ "://".toList ++ rest') : scheme = scheme' ∧ rest = rest' := by
  have hsplit := splitOnce_scheme scheme rest
  rw [h, splitOnce_scheme scheme' rest'] at hsplit
  obtain ⟨htext, hrest⟩ := Prod.mk.inj (Option.some.inj hsplit)
  have hscheme : ofChars? scheme'.text.toList = some scheme := ofChars?_eq_some.2 htext
  rw [ofChars?_eq_some.2 rfl] at hscheme
  exact ⟨(Option.some.inj hscheme).symm, hrest.symm⟩

namespace Dsn

/-- The host and the port, in front of all slashes that follow the scheme. -/
def authority (d : Dsn) : List Char := d.host.toList ++ ':' :: (toString d.port).toList

/-- What the key is written after; it has no slash. -/
def query (d : Dsn) : List Char := "?sentry_key=".toList ++ d.publicKey.toList

/-- Path, project and key, with three slashes that are found from the end. -/
def resource (d : Dsn) : List Char :=
  (d.pathPrefix.toList ++ "/api".toList) ++ '/' :: d.projectId.toList ++ '/' :: "minidump".toList ++
    '/' :: d.query

theorem toList_minidumpUrl (d : Dsn) : d.minidumpUrl.toList =
    d.scheme.text.toList ++ "://".toList ++ (d.authority ++ d.resource) := by
  have hcolon : ":".toList = [':'] := rfl
  have hapi : "/api/".toList = "/api".toList ++ ['/'] := rfl
  have hquery : "/minidump/?sentry_key=".toList =
      '/' :: ("minidump".toList ++ '/' :: "?sentry_key=".toList) := rfl
  unfold minidumpUrl authority resource query
  simp only [String.toList_append, hcolon, hapi, hquery, List.append_assoc, List.cons_append,
    List.nil_append]

theorem slash_notMem_authority {d : Dsn} (h : d.WellFormed) : '/' ∉ d.authority := by
  intro hmem
  rcases List.mem_append.1 hmem with hmem | hmem
  · exact h.host_slash hmem
  · exact slash_notMem_portText (some d.port) hmem

theorem colon_notMem_port_digits (d : Dsn) : ':' ∉ (toString d.port).toList := fun h =>
  absurd (isDigit_of_mem_toString h) (by decide)

theorem slash_notMem_query {d : Dsn} (h : '/' ∉ d.publicKey.toList) : '/' ∉ d.query := by
  intro hmem
  rcases List.mem_append.1 hmem with hmem | hmem
  · exact absurd hmem (by decide)
  · exact h hmem

theorem exists_resource {d : Dsn} (h : d.WellFormed) : ∃ rest, d.resource = '/' :: rest := by
  unfold resource
  rcases h.path_slash with hnone | ⟨before, hbefore⟩
  · rw [hnone]
    exact ⟨_, rfl⟩
  · rw [hbefore]
    exact ⟨_, rfl⟩

variable {d d' : Dsn}

theorem eq_of_authority (h : d.authority = d'.authority) : d.host = d'.host ∧ d.port = d'.port := by
  obtain ⟨hhost, hport⟩ :=
    eq_of_append_last h (colon_notMem_port_digits d) (colon_notMem_port_digits d')
  exact ⟨String.toList_inj.1 hhost, toString_injective hport⟩

theorem eq_of_resource (wf : d.WellFormed) (wf' : d'.WellFormed) (hkey : '/' ∉ d.publicKey.toList)
    (hkey' : '/' ∉ d'.publicKey.toList) (h : d.resource = d'.resource) :
    d.pathPrefix = d'.pathPrefix ∧ d.projectId = d'.projectId ∧ d.publicKey = d'.publicKey := by
  -- The path may have any of these words, so the text is taken apart from its end.
  obtain ⟨h, hquery⟩ := eq_of_append_last h (slash_notMem_query hkey) (slash_notMem_query hkey')
  obtain ⟨h, -⟩ := eq_of_append_last h (by decide) (by decide)
  obtain ⟨hpath, hproject⟩ := eq_of_append_last h wf.project_slash wf'.project_slash
  exact ⟨String.toList_inj.1 (List.append_cancel_right hpath), String.toList_inj.1 hproject,
    String.toList_inj.1 (List.append_cancel_left hquery)⟩

theorem minidumpUrl_eq_iff (wf : d.WellFormed) (wf' : d'.WellFormed)
    (hkey : '/' ∉ d.publicKey.toList) (hkey' : '/' ∉ d'.publicKey.toList) :
    d.minidumpUrl = d'.minidumpUrl ↔
      d.scheme = d'.scheme ∧ d.host = d'.host ∧ d.port = d'.port ∧ d.pathPrefix = d'.pathPrefix ∧
        d.projectId = d'.projectId ∧ d.publicKey = d'.publicKey := by
  constructor
  · intro h
    have htext := congrArg String.toList h
    rw [toList_minidumpUrl, toList_minidumpUrl] at htext
    obtain ⟨hscheme, hrest⟩ := Scheme.eq_of_append htext
    obtain ⟨rest, hresource⟩ := exists_resource wf
    obtain ⟨rest', hresource'⟩ := exists_resource wf'
    rw [hresource, hresource'] at hrest
    obtain ⟨hauthority, hrest⟩ :=
      eq_of_append_first hrest (slash_notMem_authority wf) (slash_notMem_authority wf')
    obtain ⟨hhost, hport⟩ := eq_of_authority hauthority
    have hsame : d.resource = d'.resource := by rw [hresource, hresource', hrest]
    exact ⟨hscheme, hhost, hport, eq_of_resource wf wf' hkey hkey' hsame⟩
  · rintro ⟨hscheme, hhost, hport, hpath, hproject, hkey⟩
    rw [minidumpUrl, hscheme, hhost, hport, hpath, hproject, hkey, minidumpUrl]

/-- Credentials that are written in another way: with a secret, with one more slash at the end, or
with the port that is meant without one. -/
inductive Respelled : List Char → List Char → Prop
  | secret {scheme : Scheme} {key secret rest : List Char} (key_at : '@' ∉ key)
      (key_colon : ':' ∉ key) (secret_at : '@' ∉ secret) :
      Respelled (scheme.text.toList ++ "://".toList ++ (key ++ '@' :: rest))
        (scheme.text.toList ++ "://".toList ++ (key ++ ':' :: secret ++ '@' :: rest))
  | slash (s : List Char) : Respelled s (s ++ ['/'])
  | port {scheme : Scheme} {auth host path : List Char} (auth_at : '@' ∉ auth)
      (host_slash : '/' ∉ host) (host_colon : ':' ∉ host) :
      Respelled (scheme.text.toList ++ "://".toList ++ (auth ++ '@' :: (host ++ '/' :: path)))
        (scheme.text.toList ++ "://".toList ++
          (auth ++ '@' :: (host ++ portText (some scheme.defaultPort) ++ '/' :: path)))

section

variable {s s' : String} {scheme : Scheme}

theorem parse?_secret {key secret rest : List Char} (key_at : '@' ∉ key) (key_colon : ':' ∉ key)
    (secret_at : '@' ∉ secret)
    (hs : s.toList = scheme.text.toList ++ "://".toList ++ (key ++ '@' :: rest))
    (hs' : s'.toList =
      scheme.text.toList ++ "://".toList ++ (key ++ ':' :: secret ++ '@' :: rest))
    (h : parse? s = some d) : parse? s' = some d := by
  obtain ⟨auth, hostPort, path, htext, hat, hslash, hauth, hparts⟩ := parse?_eq_some_iff.1 h
  obtain ⟨rfl, hrest⟩ := Scheme.eq_of_append (hs.symm.trans htext)
  obtain ⟨rfl, rfl⟩ := eq_of_append_first hrest key_at hat
  rw [parseKey_of_notMem key_colon] at hauth
  refine parse?_eq_some_iff.2 ⟨key ++ ':' :: secret, hostPort, path, hs', ?_, hslash, ?_, hparts⟩
  · simp [key_at, secret_at]
  · rwa [parseKey_append key_colon]

theorem parsePath_slash (path : List Char) : parsePath (path ++ ['/']) = parsePath path := by
  have htrailing := dropTrailing_append_replicate '/' path 1
  unfold parsePath
  rw [show ['/'] = List.replicate 1 '/' from rfl, htrailing]

theorem parse?_slash (hs' : s'.toList = s.toList ++ ['/']) (h : parse? s = some d) :
    parse? s' = some d := by
  obtain ⟨auth, hostPort, path, htext, hat, hslash, hauth, hhost, hpath⟩ :=
    parse?_eq_some_iff.1 h
  refine parse?_eq_some_iff.2 ⟨auth, hostPort, path ++ ['/'], ?_, hat, hslash, hauth, hhost, ?_⟩
  · rw [hs', htext]
    simp only [List.append_assoc, List.cons_append]
  · rwa [parsePath_slash]

theorem parse?_port {auth host path : List Char} {p : Nat} (auth_at : '@' ∉ auth)
    (host_slash : '/' ∉ host) (host_colon : ':' ∉ host) (hp : p ≤ maxPort)
    (hs : s.toList = scheme.text.toList ++ "://".toList ++ (auth ++ '@' :: (host ++ '/' :: path)))
    (hs' : s'.toList = scheme.text.toList ++ "://".toList ++
      (auth ++ '@' :: (host ++ portText (some p) ++ '/' :: path)))
    (h : parse? s = some d) :
    d.scheme = scheme ∧ d.explicitPort = none ∧
      parse? s' = some { d with explicitPort := some p } := by
  obtain ⟨auth', hostPort, path', htext, hat, hslash, hauth, ⟨hhost, hne⟩, hpath⟩ :=
    parse?_eq_some_iff.1 h
  obtain ⟨rfl, hrest⟩ := Scheme.eq_of_append (hs.symm.trans htext)
  obtain ⟨rfl, hafter⟩ := eq_of_append_first hrest auth_at hat
  obtain ⟨rfl, rfl⟩ := eq_of_append_first hafter host_slash hslash
  have halone : parseHostPort host = some (host, none) := by
    rw [parseHostPort, splitLast_eq_none.2 host_colon]
  rw [halone] at hhost
  obtain ⟨hhost, hport⟩ := Prod.mk.inj (Option.some.inj hhost)
  have hslash' : '/' ∉ host ++ portText (some p) := by
    rw [List.mem_append, not_or]
    exact ⟨host_slash, slash_notMem_portText (some p)⟩
  have hwritten : parseHostPort (host ++ portText (some p)) = some (host, some p) :=
    parseHostPort_written nofun fun q hq => Option.some.inj hq ▸ hp
  rw [hhost] at hwritten
  exact ⟨rfl, hport.symm, parse?_eq_some_iff.2
    ⟨auth, _, path, hs', hat, hslash', hauth, ⟨hhost ▸ hwritten, hne⟩, hpath⟩⟩

end

theorem Respelled.parse {s s' : String} (h : Respelled s.toList s'.toList) (hs : parse s = .ok d) :
    ∃ d', parse s' = .ok d' ∧ d'.minidumpUrl = d.minidumpUrl := by
  rw [parse_eq_ok_iff] at hs
  simp only [parse_eq_ok_iff]
  generalize hw : s.toList = w at h
  generalize hw' : s'.toList = w' at h
  cases h with
  | secret key_at key_colon secret_at =>
    exact ⟨d, parse?_secret key_at key_colon secret_at hw hw' hs, rfl⟩
  | slash => exact ⟨d, parse?_slash (hw ▸ hw') hs, rfl⟩
  | @port scheme _ _ _ auth_at host_slash host_colon =>
    have hle : scheme.defaultPort ≤ maxPort := by cases scheme <;> decide
    obtain ⟨rfl, hnone, hs'⟩ := parse?_port auth_at host_slash host_colon hle hw hw' hs
    refine ⟨_, hs', ?_⟩
    unfold minidumpUrl Dsn.port
    rw [hnone]
    rfl

/-- Credentials have the same url if and only if they are of the same project, on the same host and
port, and with the same key, given that no key has a slash. A secret, a slash at the end and the
port that is meant anyway make no difference. -/
theorem url_identifies_project {s₁ s₂ : String} {d₁ d₂ : Dsn} (h₁ : parse s₁ = .ok d₁)
    (h₂ : parse s₂ = .ok d₂) (hkey₁ : '/' ∉ d₁.publicKey.toList)
    (hkey₂ : '/' ∉ d₂.publicKey.toList) :
    (d₁.minidumpUrl = d₂.minidumpUrl ↔
      d₁.scheme = d₂.scheme ∧ d₁.host = d₂.host ∧ d₁.port = d₂.port ∧
        d₁.pathPrefix = d₂.pathPrefix ∧ d₁.projectId = d₂.projectId ∧
        d₁.publicKey = d₂.publicKey) ∧
    ∀ s, Respelled s₁.toList s.toList →
      ∃ d, parse s = .ok d ∧ d.minidumpUrl = d₁.minidumpUrl :=
  ⟨minidumpUrl_eq_iff (wellFormed_of_parse? (parse_eq_ok_iff.1 h₁))
    (wellFormed_of_parse? (parse_eq_ok_iff.1 h₂)) hkey₁ hkey₂, fun _ h => h.parse h₁⟩

/-- A path that has the words of a url in it, and a host with an at sign. The second text has a
secret, the default port and more slashes; the third one is the first with one more slash. -/
theorem url_identifies_project_spelled :
    let d : Dsn := ⟨.http, "?k=", "a@b", none, "/api/1/minidump", "2"⟩
    let d' : Dsn := { d with explicitPort := some 80 }
    parse "http://?k=@a@b/api/1/minidump/2" = .ok d ∧
      parse "http://?k=:s@a@b:80/api/1/minidump/2//" = .ok d' ∧ d.minidumpUrl = d'.minidumpUrl ∧
      ∃ d'', parse "http://?k=@a@b/api/1/minidump/2/" = .ok d'' ∧
        d''.minidumpUrl = d.minidumpUrl := by
  intro d d'
  have hd : parse "http://?k=@a@b/api/1/minidump/2" = .ok d := by decide +kernel
  have hd' : parse "http://?k=:s@a@b:80/api/1/minidump/2//" = .ok d' := by decide +kernel
  obtain ⟨hsame, hrespelled⟩ :=
    url_identifies_project hd hd' (by decide +kernel) (by decide +kernel)
  exact ⟨hd, hd', hsame.2 ⟨rfl, rfl, rfl, rfl, rfl, rfl⟩, hrespelled _ (.slash _)⟩

/-- A key with a slash can be taken for a part of the path. -/
example : minidumpUrl ⟨.http, "x/api/2/minidump/?sentry_key=y", "h", none, "", "1"⟩ =
    minidumpUrl ⟨.http, "y", "h", none, "/api/1/minidump/?sentry_key=x", "2"⟩ := by
  decide +kernel

end Dsn

end CrashCapture
