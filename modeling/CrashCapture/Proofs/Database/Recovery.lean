import CrashCapture.Proofs.Database.Opening
import CrashCapture.Proofs.Database.Reading
import CrashCapture.Proofs.Start

namespace CrashCapture.Database

open FileTree Json Settings

variable {path : Path} {t t' : FileTree} {env : Environment} {ms : List (String × Shape)}
  {text : Bytes}

/-- Where the settings can't be read, and can be replaced, the database is opened with new ones. -/
theorem openAt_of_unread {e : Error} (unread : settingsIn t path = .error e)
    (made : (Disk.createDirectories (reportsPath path)).run env.files = .ok () t)
    (replaced : (replaceSettings path (.fresh (.ofRandom (env.random env.drawn)))).run t = .ok () t') :
    ∃ env', (openAt path).run env =
        (.ok ⟨path, .fresh (.ofRandom (env.random env.drawn))⟩, env') ∧ env'.files = t' := by
  rw [openAt_run, made]
  dsimp only
  rw [unread]
  dsimp only
  rw [writeNew, StateT.run_bind, writeSettings_run, files_noted]
  dsimp only
  rw [replaced]
  exact ⟨_, rfl, rfl⟩

/-- Settings are read of any text whose members say them, in any order and among any others. If one of
the members is missing, is there twice or has a value of another type, they can't be read, and opening
the database puts new ones in their place. -/
theorem read_in_any_layout (document : Document ms text)
    (read : t.read (settingsPath path) = .ok text) :
    (∀ s, Describes ms s → settingsIn t path = .ok s) ∧
    (Spoiled ms → (∃ e, settingsIn t path = .error (.serialize e)) ∧
      ∀ (env : Environment) (t₁ t₂ : FileTree), env.files = t → Coherent t →
        (∀ a, t.locate false (draftPath path) = .ok a →
          (∀ target, t.node? a ≠ some (.link target)) ∧ ∀ d, t.node? a ≠ some (.device d)) →
        (Disk.createDirectories (reportsPath path)).run t = .ok () t₁ →
        (replaceSettings path (.fresh (.ofRandom (env.random env.drawn)))).run t₁ = .ok () t₂ →
        ∃ db env', (openAt path).run env = (.ok db, env') ∧
          env'.files.read (settingsPath path) = .ok db.settings.render ∧
          settingsIn env'.files path = .ok db.settings) := by
  refine ⟨fun s describes => ?_, fun spoiled => ?_⟩
  · exact settingsIn_eq_ok_iff.2 ⟨text, read, (parse_eq_ok_iff document).2 describes.from⟩
  · obtain ⟨e, he⟩ := exists_error document spoiled
    have unread : ∀ {t : FileTree}, t.read (settingsPath path) = .ok text →
        settingsIn t path = .error (.serialize e) := by
      intro t read
      rw [settingsIn, read]
      dsimp only
      rw [he]
      rfl
    refine ⟨⟨e, unread read⟩, ?_⟩
    rintro env t₁ t₂ rfl coherent draft made replaced
    have hdug := Disk.dug_of_made made
    obtain ⟨env', hopened, rfl⟩ := openAt_of_unread (unread (hdug.read read)) made replaced
    obtain ⟨t', left, dir, spot, hreplacing⟩ := replacing_of_run (hdug.coherent coherent) replaced
    obtain ⟨-, hloc, hcontents⟩ := hreplacing.settings_after (ready_dug hdug draft read)
    have hread : env'.files.read (settingsPath path) = .ok _ :=
      read_eq_ok_iff.2 ⟨_, hloc, .inl hcontents⟩
    exact ⟨_, env', hopened, hread, settingsIn_eq_ok_iff.2 ⟨_, hread, Settings.parse_render _⟩⟩

/-- A database with such settings. -/
def storing (text : Bytes) : FileTree where
  entries := [(["db"], .directory), (["db", settingsFile], .file (.ofBytes text) 0o644)]
  workingDirectory := []

theorem read_storing (text : Bytes) : (storing text).read (settingsPath "db") = .ok text := by
  have hcontents : (storing text).contents ["db", settingsFile] = some text :=
    contents_eq_some.2 ⟨.ofBytes text, 0o644, rfl, Content.bytes_ofBytes text⟩
  exact read_eq_ok_iff.2 ⟨["db", settingsFile], rfl, .inl hcontents⟩

def identifier : String := "67E55044-10B1-426F-9247-BB680E5FE0C8"

def laidOut : Bytes := Bytes.ofString
  " \x7b\"later\" : [ \x7b\x7d, -1.5e+3 ] ,\"uploads_enabled\":true,\"client_id\": \"67E55044-10B1-426F-9247-BB680E5FE0C8\" \x7d "

theorem document_laidOut : Document
    [("later", .array), ("uploads_enabled", .bool true), ("client_id", .string identifier)]
    laidOut := by
  have none : Blanks [] := by simp [Blanks]
  have blank : Blanks [32] := by simp [Blanks, isBlank]
  have plain : ∀ {cs : List Char}, cs.all (fun c => 32 ≤ c.toNat ∧ c.toNat ≠ 34 ∧ c.toNat ≠ 92) →
      StringText cs (Bytes.ofString (.ofList cs)) :=
    fun h => stringText_plain fun c hc => of_decide_eq_true (List.all_eq_true.1 h c hc)
  have digits : ∀ {d : UInt8} {ds : Bytes}, (d :: ds).all Bytes.isDigit = true → Digits (d :: ds) :=
    fun h => ⟨List.cons_ne_nil _ _, List.all_eq_true.1 h⟩
  have signed : (false, ([43] : Bytes)) ∈ [(false, []), (false, [43]), (true, [45])] := by decide
  have numeral : NumeralText ⟨true, [49], some [53], some (false, [51])⟩ _ :=
    .mk (digits rfl) (by decide) (.some (digits rfl)) (.some (.inl rfl) signed (digits rfl))
  have later : NameText (.ofList "later".toList) _ :=
    .mk none (plain (by decide +kernel)) blank blank
  have uploads : NameText (.ofList "uploads_enabled".toList) _ :=
    .mk none (plain (by decide +kernel)) none none
  have client : NameText (.ofList "client_id".toList) _ :=
    .mk none (plain (by decide +kernel)) none blank
  have elements : Text (.value .array) _ :=
    .array (.element blank (.noMembers none) none (.lastElement blank (.number numeral) blank))
  have id : Text (.value (.string (.ofList identifier.toList))) _ :=
    .string (plain (by decide +kernel))
  have inside := Text.member later elements blank
    (.member uploads .true none (.lastMember client id blank))
  have document := Document.members blank inside blank
  simp only [String.ofList_toList] at document
  refine Eq.mp (congrArg (Document _) ?_) document
  decide +kernel

theorem describes_laidOut : Describes
    [("later", .array), ("uploads_enabled", .bool true), ("client_id", .string identifier)]
    ⟨⟨0x67E5504410B1426F9247BB680E5FE0C8⟩, true, none⟩ := by
  refine ⟨⟨identifier, rfl, ?_⟩, rfl, .inl rfl⟩
  have hlower : identifier.toLower.toList = identifier.toList.map Char.toLower := String.toList_map
  apply String.toList_injective
  rw [hlower]
  decide

def emptyObject : Bytes := Bytes.ofString "\x7b\x7d"

theorem document_emptyObject : Document [] emptyObject := by
  have none : Blanks [] := by simp [Blanks]
  refine Eq.mp (congrArg (Document _) ?_) (Document.empty none none none)
  decide +kernel

/-- Settings are read from among other members. Those in an empty object are replaced by new ones. -/
theorem read_in_any_layout_fixed :
    settingsIn (storing laidOut) "db" =
      .ok ⟨⟨0x67E5504410B1426F9247BB680E5FE0C8⟩, true, none⟩ ∧
    ∃ db env', (openAt "db").run (.fresh (storing emptyObject)) = (.ok db, env') ∧
      settingsIn env'.files "db" = .ok db.settings := by
  constructor
  · exact (read_in_any_layout document_laidOut (read_storing laidOut)).1 _ describes_laidOut
  · have spoiled : Spoiled [] := .inl rfl
    have coherent : Coherent (storing emptyObject) := coherent_of_entries (by decide +kernel)
    have hdraft : (storing emptyObject).locate false (draftPath "db") = .ok ["db", draftFile] := by
      decide +kernel
    have hnone : (storing emptyObject).node? ["db", draftFile] = none := by decide +kernel
    have hmade : (Disk.createDirectories (reportsPath "db")).run (storing emptyObject) =
        .ok () ((storing emptyObject).put ["db", reportsDirectory] .directory) := by
      decide +kernel
    let written := (replaceSettings "db" (.fresh (.ofRandom 0))).run
      ((storing emptyObject).put ["db", reportsDirectory] .directory)
    have hreplaced : written = .ok () (endState written) := by decide +kernel
    obtain ⟨-, hrecovers⟩ :=
      (read_in_any_layout document_emptyObject (read_storing emptyObject)).2 spoiled
    have hfree : ∀ a, (storing emptyObject).locate false (draftPath "db") = .ok a →
        (∀ target, (storing emptyObject).node? a ≠ some (.link target)) ∧
          ∀ d, (storing emptyObject).node? a ≠ some (.device d) := by
      intro a ha
      obtain rfl := Except.ok.inj (hdraft.symm.trans ha)
      simp [hnone]
    obtain ⟨db, env', hopened, -, hread⟩ :=
      hrecovers (.fresh (storing emptyObject)) _ _ rfl coherent hfree hmade hreplaced
    exact ⟨db, env', hopened, hread⟩

/-- In the place of the draft is a link to the settings. -/
def turningBack : FileTree :=
  let t := storing emptyObject
  { t with entries := t.entries ++ [(["db", draftFile], .link settingsFile)] }

/-- Then what is put in the place of the settings is that link, which leads nowhere. -/
theorem opened_over_link : ∃ db env',
    Document [] emptyObject ∧ Spoiled [] ∧ turningBack.read (settingsPath "db") = .ok emptyObject ∧
    (openAt "db").run (.fresh turningBack) = (.ok db, env') ∧
    settingsIn env'.files "db" = .error (.database "db" .tooManyLinks) := by
  have hopened : (openAt "db").run (.fresh turningBack) =
      (.ok ⟨"db", .fresh (.ofRandom 0)⟩, _) :=
    eq_of_fst_eq (by decide +kernel)
  exact ⟨_, _, document_emptyObject, .inl rfl, by decide +kernel, hopened, by decide +kernel⟩

end CrashCapture.Database
