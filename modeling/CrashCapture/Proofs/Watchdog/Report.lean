import CrashCapture.Proofs.Database.Replacement
import CrashCapture.Proofs.FileTree.Writing
import CrashCapture.Proofs.Json.Members
import CrashCapture.Proofs.Running
import CrashCapture.Proofs.Start
import CrashCapture.Proofs.Watchdog.Arguments
import CrashCapture.Watchdog
import Mathlib.Data.List.Forall2

namespace CrashCapture

namespace Watch

open FileTree Json

/-- The last annotation with this key has this value. A key goes up to the first equals sign. -/
structure Annotated (annotations : List String) (key value : String) : Prop where
  noEquals : '=' ∉ key.toList
  last : ∃ before after, annotations = before ++ (key ++ "=" ++ value) :: after ∧
    ∀ other, key ++ "=" ++ other ∉ after

variable {annotations : List String} {text key value : String}

theorem annotation?_eq_some_iff {v : Json} : annotation? text = some (key, v) ↔
    '=' ∉ key.toList ∧ ∃ value, text = key ++ "=" ++ value ∧ v = .str value := by
  unfold annotation?
  rw [Option.map_eq_some_iff]
  constructor
  · rintro ⟨⟨k, rest⟩, hsplit, heq⟩
    obtain ⟨hkey, hvalue⟩ := Prod.mk.inj heq
    obtain ⟨htext, hk⟩ := Text.splitFirst_eq_some.1 hsplit
    refine ⟨?_, .ofList rest, ?_, hvalue.symm⟩
    · rw [← hkey, String.toList_ofList]
      exact hk
    · apply String.toList_injective
      rw [← hkey]
      simp [htext]
  · rintro ⟨hkey, value, rfl, rfl⟩
    refine ⟨(key.toList, value.toList), Text.splitFirst_eq_some.2 ⟨by simp, hkey⟩, ?_⟩
    simp

/-- A later annotation with the same key counts instead. -/
theorem annotated_concat : Annotated (annotations ++ [text]) key value ↔
    annotation? text = some (key, .str value) ∨
      (∀ v, annotation? text ≠ some (key, v)) ∧ Annotated annotations key value := by
  constructor
  · rintro ⟨noEquals, before, after, heq, hafter⟩
    -- the new one is the last with this key, or it has another one
    rcases List.eq_nil_or_concat after with rfl | ⟨others, last, rfl⟩
    · obtain ⟨-, htext⟩ := List.append_inj' heq rfl
      left
      exact annotation?_eq_some_iff.2 ⟨noEquals, value, (List.cons.inj htext).1, rfl⟩
    · rw [List.concat_eq_append, ← List.cons_append, ← List.append_assoc] at heq
      obtain ⟨hbefore, htext⟩ := List.append_inj' heq rfl
      obtain rfl : text = last := (List.cons.inj htext).1
      right
      refine ⟨fun v hv => ?_, noEquals, before, others, hbefore, fun other hother => ?_⟩
      · obtain ⟨-, other, hother, -⟩ := annotation?_eq_some_iff.1 hv
        exact hafter other (by simp [hother])
      · exact hafter other (by simp [hother])
  · rintro (htext | ⟨hother, noEquals, before, after, rfl, hafter⟩)
    · obtain ⟨noEquals, value', htext', hvalue⟩ := annotation?_eq_some_iff.1 htext
      obtain rfl : value = value' := Json.str.inj hvalue
      exact ⟨noEquals, annotations, [], by rw [htext'], fun _ => List.not_mem_nil⟩
    · refine ⟨noEquals, before, after ++ [text], by simp, fun other hmem => ?_⟩
      rcases List.mem_append.1 hmem with hold | hnew
      · exact hafter other hold
      · have htext := (List.mem_singleton.1 hnew).symm
        exact hother (.str other) (annotation?_eq_some_iff.2 ⟨noEquals, other, htext, rfl⟩)

/-- Each key has the value of the last annotation with it. Annotations without a key add nothing. -/
theorem get?_annotations (annotations : List String) (key : String) (v : Json) :
    (Members.ofList (annotations.filterMap annotation?)).get? key = some v ↔
      ∃ value, v = .str value ∧ Annotated annotations key value := by
  -- from the end, since that is where a later value takes the place of an earlier one
  induction annotations using List.reverseRecOn with
  | nil =>
    refine ⟨nofun, ?_⟩
    rintro ⟨value, -, -, before, after, heq, -⟩
    exact absurd heq.symm (by simp)
  | append_singleton annotations text ih =>
    simp only [annotated_concat]
    rw [List.filterMap_append]
    cases htext : annotation? text with
    | none =>
      have hnothing : [text].filterMap annotation? = [] := by simp [htext]
      rw [hnothing, List.append_nil, ih]
      simp
    | some pair =>
      obtain ⟨k, first⟩ := pair
      have hpair : [text].filterMap annotation? = [(k, first)] := by simp [htext]
      obtain ⟨-, value, -, rfl⟩ := annotation?_eq_some_iff.1 htext
      rw [hpair, Members.get?_ofList_concat]
      by_cases hkey : key = k
      · subst hkey
        simp [eq_comm]
      · rw [if_neg hkey, ih]
        simp [Ne.symm hkey]

/-- An attachment is there with its path and its size. -/
structure Attached (files : FileTree) (path : Path) (v : Json) : Prop where
  named : v.get? "path" = some (.str path)
  sized : ∃ n, files.size path = .ok n ∧ v.get? "size" = some (.ofNat n)

/-- What is to be reported: what was given, with the settings at launch and the files now. Of the
attachments there are those that have a size. -/
structure Reported (w : Watch) (id : Uuid) (files : FileTree) (v : Json) : Prop where
  id : v.get? "id" = some (.str id.hyphenated)
  clientId : v.get? "client_id" = some (.str w.settings.clientId.hyphenated)
  monitoredPid : v.get? "monitored_pid" = some (.ofNat w.command.monitorPid)
  url : v.get? "url" = some (w.command.url.elim .null .str)
  uploadsEnabled : v.get? "uploads_enabled" = some (.bool w.settings.uploadsEnabled)
  rateLimited : v.get? "rate_limited" = some (.bool !w.command.noRateLimit)
  annotations : ∃ ms, v.get? "annotations" = some (.obj ms) ∧ ∀ key value,
    Members.get? key ms = some value ↔
      ∃ text, value = .str text ∧ Annotated w.command.annotations key text
  attachments : ∃ vs, v.get? "attachments" = some (.arr vs) ∧
    List.Forall₂ (Attached files) (w.command.attachments.filter fun p => (files.size p).isOk) vs

def sizeIn (files : FileTree) (path : Path) : Option Nat := (files.size path).toOption

theorem sizeIn_eq_some_iff {files : FileTree} {path : Path} {n : Nat} :
    sizeIn files path = some n ↔ files.size path = .ok n := by
  unfold sizeIn
  cases files.size path <;> simp [Except.toOption]

theorem attached_filterMap (files : FileTree) (paths : List Path) :
    List.Forall₂ (Attached files) (paths.filter fun p => (files.size p).isOk)
      (paths.filterMap (attachment? (sizeIn files))) := by
  induction paths with
  | nil => exact .nil
  | cons path paths ih =>
    cases hsize : files.size path with
    | error e =>
      have hnone : attachment? (sizeIn files) path = none := by
        rw [attachment?, sizeIn, hsize]
        rfl
      rw [List.filter_cons_of_neg (by simp [hsize, Except.isOk, Except.toBool]),
        List.filterMap_cons_none hnone]
      exact ih
    | ok n =>
      have hsome : attachment? (sizeIn files) path =
          some (.object [("path", .str path), ("size", .ofNat n)]) := by
        rw [attachment?, sizeIn, hsize]
        rfl
      rw [List.filter_cons_of_pos (by simp [hsize, Except.isOk, Except.toBool]),
        List.filterMap_cons_some hsome]
      exact .cons ⟨rfl, n, hsize, rfl⟩ ih

theorem reported_report (w : Watch) (id : Uuid) (files : FileTree) :
    Reported w id files (w.report id (sizeIn files)) where
  id := rfl
  clientId := rfl
  monitoredPid := rfl
  url := by
    have hurl : optional w.command.url = w.command.url.elim .null .str := by
      cases w.command.url <;> rfl
    rw [← hurl]
    rfl
  uploadsEnabled := rfl
  rateLimited := rfl
  annotations := ⟨_, rfl, get?_annotations w.command.annotations⟩
  attachments := ⟨_, rfl, attached_filterMap files w.command.attachments⟩

theorem exact_attachment? {size : Path → Option Nat} {path : Path} {v : Json}
    (small : ∀ n, size path = some n → n < 2 ^ 64) (h : attachment? size path = some v) :
    Exact 1 v := by
  obtain ⟨n, hn, rfl⟩ := Option.map_eq_some_iff.1 h
  have hsmall := small n hn
  refine exact_object fun pair hpair => ?_
  simp only [List.mem_cons, List.not_mem_nil, or_false] at hpair
  rcases hpair with rfl | rfl
  · exact .str path
  · exact .int (by omega) (by omega)

/-- A report can be written so that it is read back, if all sizes fit in 64 bits. -/
theorem exact_report {w : Watch} (id : Uuid) {size : Path → Option Nat}
    (pid : w.command.monitorPid < 2 ^ 64)
    (small : ∀ path ∈ w.command.attachments, ∀ n, size path = some n → n < 2 ^ 64) :
    Exact 3 (w.report id size) := by
  refine exact_object fun pair hpair => ?_
  simp only [List.mem_cons, List.not_mem_nil, or_false] at hpair
  rcases hpair with rfl | rfl | rfl | rfl | rfl | rfl | rfl | rfl
  · exact .str _
  · exact .str _
  · exact .int (by omega) (by omega)
  · cases w.command.url with
    | none => exact .null
    | some url => exact .str url
  · exact .bool _
  · exact .bool _
  · refine exact_object fun pair hpair => ?_
    obtain ⟨text, -, htext⟩ := List.mem_filterMap.1 hpair
    obtain ⟨key, v⟩ := pair
    obtain ⟨-, value, -, rfl⟩ := annotation?_eq_some_iff.1 htext
    exact .str value
  · refine .arr fun v hv => ?_
    obtain ⟨path, hpath, hsome⟩ := List.mem_filterMap.1 hv
    exact exact_attachment? (small path hpath) hsome

variable {w : Watch} {t : FileTree}

theorem utf8ByteSize_name (id : Uuid) : (id.hyphenated ++ ".json").utf8ByteSize = 41 := by
  have hlength := id.length_hyphenated
  have hjson : ".json".utf8ByteSize = 5 := by decide +kernel
  have hsize : id.hyphenated.utf8ByteSize = 36 := by
    rw [Bytes.ofString_eq] at hlength
    simpa using hlength
  rw [String.utf8ByteSize_append, hsize, hjson]

theorem notMem_name {c : Char} (id : Uuid) (h : c ∉ Uuid.characters) (h' : c ∉ ".json".toList) :
    c ∉ (id.hyphenated ++ ".json").toList := by
  rw [String.toList_append, List.mem_append, not_or]
  exact ⟨fun hc => h (id.mem_characters_of_hyphenated c hc), h'⟩

theorem entryName_name (id : Uuid) : EntryName (id.hyphenated ++ ".json") := by
  have hsize := utf8ByteSize_name id
  -- names that are set apart are shorter
  have hne : ∀ other : String, other.utf8ByteSize ≠ 41 → id.hyphenated ++ ".json" ≠ other := by
    rintro other hother rfl
    exact hother hsize
  constructor
  · constructor
    · exact hne "" (by decide +kernel)
    · exact hne "." (by decide +kernel)
    · exact hne ".." (by decide +kernel)
    · rw [hsize]
      decide
  · exact notMem_name id (by decide +kernel) (by decide +kernel)

theorem finish_eq (w : Watch) (id : Uuid) (t : FileTree) : (w.finish id).run t =
    (Disk.writeFile (w.reportPath id) ((w.report id (sizeIn t)).encodePretty 0)).run t := by
  unfold finish
  rw [run_get]
  rfl

/-- A report that has too long a path is not written. -/
theorem finish_long {id : Uuid} (long : maxPath ≤ (w.reportPath id).utf8ByteSize) :
    ∃ e, (w.finish id).run t = .error e t := by
  rw [finish_eq]
  rcases Disk.writeFile_filed (w.reportPath id) ((w.report id (sizeIn t)).encodePretty 0) t with
    hfailed | ⟨loc, -, -, hloc, -⟩
  · exact hfailed
  · have fits := (locate_eq_ok_iff.1 hloc).1.fits
    omega

/-- Where there is room for it, the report is all that is written. -/
theorem finish_run {id : Uuid}
    (room : t.RoomFor (Database.reportsPath w.command.database) (id.hyphenated ++ ".json")) :
    ∃ dir t', t.locate true (Database.reportsPath w.command.database) = .ok dir ∧
      (w.finish id).run t = .ok () t' ∧
      Filed (dir ++ [id.hyphenated ++ ".json"]) ((w.report id (sizeIn t)).encodePretty 0) t t' := by
  have hnul : '\x00' ∉ (id.hyphenated ++ ".json").toList :=
    notMem_name id (by decide +kernel) (by decide +kernel)
  obtain ⟨dir, t', hdir, hrun, hfiled⟩ := Disk.writeFile_room room Database.entryName_reports
    (entryName_name id) hnul ((w.report id (sizeIn t)).encodePretty 0)
  exact ⟨dir, t', hdir, (finish_eq w id t).trans hrun, hfiled⟩

end Watch

namespace Watchdog

open FileTree

variable {arguments : List String} {command : WatchdogCommand} {meanwhile : Run Unit}
  {launched gone : Environment} {settings : Settings}

theorem monitorPid_small {isText : String → Bool}
    (accepted : WatchdogCommand.parse arguments isText = .ok command) :
    command.monitorPid < 2 ^ 64 := by
  obtain ⟨given, -, taken⟩ := WatchdogCommand.parse_eq_ok_iff.1 accepted
  obtain ⟨text, -, hpid⟩ := taken.monitorPid
  have hmax : command.monitorPid ≤ WatchdogCommand.maxPid := Text.parseUnsigned_le hpid
  have hbound : WatchdogCommand.maxPid < 2 ^ 64 := by decide
  omega

/-- Without settings nothing is awaited, and nothing is written. -/
theorem runDuring_unsettled {e : Error}
    (accepted : WatchdogCommand.parse arguments launched.isText = .ok command)
    (unsettled : Database.settingsIn launched.files command.database = .error e) :
    (runDuring meanwhile arguments).run launched = (failureCode, launched) := by
  have hstart : Watch.start launched.files command = .error e := by
    rw [Watch.start, unsettled]
    rfl
  unfold runDuring
  simp only [stateM_run_get, accepted]
  rw [hstart]
  rfl

/-- How a watchdog ends once the watched process is gone. -/
def ending (w : Watch) (gone : Environment) : Nat × Environment :=
  if w.isReportable gone.isText gone.files then
    match (w.finish (.ofRandom (gone.random gone.drawn))).run gone.files with
    | .ok () files => (0, { gone with files, drawn := gone.drawn + 1 })
    | .error _ files => (failureCode, { gone with files, drawn := gone.drawn + 1 })
  else (panicCode, gone)

/-- With settings it waits, and then tries to write the report in what is left. -/
theorem runDuring_settled
    (accepted : WatchdogCommand.parse arguments launched.isText = .ok command)
    (settled : Database.settingsIn launched.files command.database = .ok settings)
    (hgone : meanwhile.run launched = ((), gone)) :
    (runDuring meanwhile arguments).run launched = ending ⟨command, settings⟩ gone := by
  have hstart : Watch.start launched.files command = .ok ⟨command, settings⟩ := by
    rw [Watch.start, settled]
    rfl
  have hdrawn : Run.newUuid.run gone =
      (.ofRandom (gone.random gone.drawn), { gone with drawn := gone.drawn + 1 }) := rfl
  unfold runDuring ending
  simp only [stateM_run_get, accepted]
  rw [hstart, stateM_run_bind hgone, stateM_run_get]
  by_cases hreportable : Watch.isReportable ⟨command, settings⟩ gone.isText gone.files = true
  · rw [if_pos hreportable, if_neg (by simp [hreportable]), stateM_run_bind hdrawn, StateT.run_bind,
      Run.disk_run]
    dsimp only
    generalize (Watch.finish _ _).run gone.files = result
    cases result <;> rfl
  · rw [if_neg hreportable, if_pos (by simpa using hreportable)]
    rfl

/-- The report is complete. It tells of what was on the command line, of the settings at launch, and
of the files when the watched process is gone, whatever happened until then. There is none without
settings, none if the path of an attachment that is there is not text, and none if its own path is too
long. -/
theorem report_complete (meanwhile : Run Unit) (launched : Environment)
    (accepted : WatchdogCommand.parse arguments launched.isText = .ok command) :
    let gone := (meanwhile.run launched).2
    let id := Uuid.ofRandom (gone.random gone.drawn)
    (∃ given, CommandLine.Spelled (WatchdogCommand.specs launched.isText) [] arguments given ∧
      command.TakenFrom given) ∧
    (∀ e, Database.settingsIn launched.files command.database = .error e →
      (runDuring meanwhile arguments).run launched = (failureCode, launched)) ∧
    ∀ settings, Database.settingsIn launched.files command.database = .ok settings →
      (∀ path ∈ command.attachments, (gone.files.size path).isOk = true → gone.isText path = false →
        (runDuring meanwhile arguments).run launched = (panicCode, gone)) ∧
      ((∀ path ∈ command.attachments, (gone.files.size path).isOk = true →
          gone.isText path = true) →
        (FileTree.maxPath ≤ (Watch.reportPath ⟨command, settings⟩ id).utf8ByteSize →
          (runDuring meanwhile arguments).run launched =
            (failureCode, { gone with drawn := gone.drawn + 1 })) ∧
        (gone.files.RoomFor (Database.reportsPath command.database) (id.hyphenated ++ ".json") →
          ∃ dir files report,
            (runDuring meanwhile arguments).run launched =
              (0, { gone with files, drawn := gone.drawn + 1 }) ∧
            gone.files.locate true (Database.reportsPath command.database) = .ok dir ∧
            Filed (dir ++ [id.hyphenated ++ ".json"]) (report.encodePretty 0) gone.files files ∧
            Watch.Reported ⟨command, settings⟩ id gone.files report ∧
            ((∀ path ∈ command.attachments, ∀ n, gone.files.size path = .ok n → n < 2 ^ 64) →
              Json.parse (report.encodePretty 0) = .ok report))) := by
  intro gone id
  refine ⟨WatchdogCommand.parse_eq_ok_iff.1 accepted, ?_, ?_⟩
  · intro e unsettled
    exact runDuring_unsettled accepted unsettled
  · intro settings settled
    let watch : Watch := ⟨command, settings⟩
    have hrun : (runDuring meanwhile arguments).run launched = ending watch gone :=
      runDuring_settled accepted settled rfl
    rw [hrun]
    refine ⟨fun path hpath hthere htext => ?_, fun texts => ⟨fun long => ?_, fun room => ?_⟩⟩
    · have hunreportable : ¬watch.isReportable gone.isText gone.files = true := by
        intro hall
        have hpath := List.all_eq_true.1 hall path hpath
        simp [hthere, htext] at hpath
      exact if_neg hunreportable
    all_goals
      have hreportable : watch.isReportable gone.isText gone.files = true :=
        List.all_eq_true.2 fun path hpath => by
          cases hthere : (gone.files.size path).isOk <;> simp [texts path hpath, hthere]
      rw [ending, if_pos hreportable]
    · obtain ⟨e, hfailed⟩ := Watch.finish_long (w := watch) (t := gone.files) long
      rw [hfailed]
    · obtain ⟨dir, t, hdir, hfinished, hfiled⟩ := Watch.finish_run (w := watch) room
      rw [hfinished]
      refine ⟨dir, t, watch.report id (Watch.sizeIn gone.files), rfl, hdir, hfiled,
        Watch.reported_report watch id gone.files, ?_⟩
      intro small
      have hexact : Json.Exact 3 (watch.report id (Watch.sizeIn gone.files)) := by
        apply Watch.exact_report id (monitorPid_small accepted)
        intro path hpath n hn
        exact small path hpath n (Watch.sizeIn_eq_some_iff.1 hn)
      exact Json.parse_encodePretty (hexact.mono (by decide))

/-- A database, and a log that is going to be attached. -/
def logging : FileTree where
  entries := [(["db"], .directory), (["db", "reports"], .directory),
    (["db", "settings.json"], .file (.ofBytes (Settings.render ⟨⟨1⟩, true, none⟩)) 0o644),
    (["log"], .file (.ofBytes [97, 98]) 0o644)]
  workingDirectory := []

def mixedArguments : List String := ["--annotation", "a=1", "--attachment", "log", "--database=db",
  "--annotation=a=2=3", "--attachment=missing", "--monitor-pid", "7", "--annotation", "plain",
  "--no-rate-limit", "--attachment", "log", "--"]

def mixed : WatchdogCommand where
  database := "db"
  metricsDirectory := none
  url := none
  handler := none
  monitorPid := 7
  noRateLimit := true
  annotations := ["a=1", "a=2=3", "plain"]
  attachments := ["log", "missing", "log"]

/-- The log gets longer, and the settings are spoiled. -/
def spoiling : Run Unit := do
  let _ ← Run.disk (Disk.writeFile "log" [97, 98, 99])
  let _ ← Run.disk (Disk.writeFile "db/settings.json" [])

/-- The log has a name that is not text. -/
def unspeakable : Environment := { Environment.fresh logging with isText := (· ≠ "log") }

/-- What is left of the process when it is gone. -/
def spoiled : Environment := (spoiling.run (.fresh logging)).2

theorem roomFor_spoiled : spoiled.files.RoomFor (Database.reportsPath "db")
    ((Uuid.ofRandom 0).hyphenated ++ ".json") := by
  have hloc : spoiled.files.locate false (Path.join (Database.reportsPath "db")
      ((Uuid.ofRandom 0).hyphenated ++ ".json")) =
        .ok ["db", "reports", (Uuid.ofRandom 0).hyphenated ++ ".json"] := by
    decide +kernel
  refine ⟨by decide +kernel, by decide +kernel, fun loc h => ?_⟩
  rw [hloc] at h
  cases h
  left
  decide +kernel

/-- The report has the longer log twice, and the settings from before. With those that are spoiled
there is none, and none if the path of the log is not text. -/
theorem report_complete_mixed :
    (∃ files report ms first second,
      (runDuring spoiling mixedArguments).run (.fresh logging) =
        (0, { spoiled with files, drawn := 1 }) ∧
      files.contents ["db", "reports", (Uuid.ofRandom 0).hyphenated ++ ".json"] =
        some (report.encodePretty 0) ∧
      Json.parse (report.encodePretty 0) = .ok report ∧
      report.get? "uploads_enabled" = some (.bool true) ∧
      report.get? "annotations" = some (.obj ms) ∧ Members.get? "a" ms = some (.str "2=3") ∧
      report.get? "attachments" = some (.arr [first, second]) ∧
      Watch.Attached spoiled.files "log" first ∧ Watch.Attached spoiled.files "log" second) ∧
    (runDuring (pure ()) mixedArguments).run spoiled = (failureCode, spoiled) ∧
    (runDuring (pure ()) mixedArguments).run unspeakable = (panicCode, unspeakable) := by
  have accepted : WatchdogCommand.parse mixedArguments = .ok mixed := by decide +kernel
  have accepted_log : WatchdogCommand.parse mixedArguments unspeakable.isText = .ok mixed := by
    decide +kernel
  have settled : Database.settingsIn (Environment.fresh logging).files mixed.database =
      .ok ⟨⟨1⟩, true, none⟩ := by
    decide +kernel
  have unsettled : Database.settingsIn spoiled.files mixed.database =
      .error (.serialize .truncated) := by
    decide +kernel
  obtain ⟨-, -, hreport⟩ := report_complete spoiling (.fresh logging) accepted
  obtain ⟨-, hfails, -⟩ := report_complete (pure ()) spoiled accepted
  obtain ⟨-, -, hpanics⟩ := report_complete (pure ()) unspeakable accepted_log
  obtain ⟨hpanic, -⟩ := hpanics _ settled
  refine ⟨?_, hfails _ unsettled, hpanic "log" (by decide) (by decide +kernel) (by decide)⟩
  obtain ⟨-, hwhole⟩ := hreport _ settled
  obtain ⟨-, hroom⟩ := hwhole fun _ _ _ => rfl
  obtain ⟨dir, files, report, hrun, hdir, hfiled, hreported, hparse⟩ := hroom roomFor_spoiled
  have hreports : spoiled.files.locate true (Database.reportsPath mixed.database) =
      .ok ["db", "reports"] := by
    decide +kernel
  obtain rfl : ["db", "reports"] = dir := Except.ok.inj (hreports.symm.trans hdir)
  have small : ∀ path ∈ mixed.attachments, ∀ n, spoiled.files.size path = .ok n → n < 2 ^ 64 := by
    have hsizes : ∀ path ∈ mixed.attachments,
        (spoiled.files.size path).toOption.all (· < 2 ^ 64) = true := by
      decide +kernel
    intro path hpath n hn
    have hsize := hsizes path hpath
    rw [hn] at hsize
    exact of_decide_eq_true hsize
  obtain ⟨ms, hannotations, hms⟩ := hreported.annotations
  have hlast : Watch.Annotated mixed.annotations "a" "2=3" :=
    ⟨by decide, ["a=1"], ["plain"], by decide, by simp [← String.toList_inj]⟩
  have hpaths : (mixed.attachments.filter fun p => (spoiled.files.size p).isOk) =
      ["log", "log"] := by
    decide +kernel
  obtain ⟨vs, hattachments, hfiltered⟩ := hreported.attachments
  have hvs : List.Forall₂ (Watch.Attached spoiled.files) ["log", "log"] vs := hpaths ▸ hfiltered
  obtain ⟨first, _, hfirst, hothers, rfl⟩ := List.forall₂_cons_left_iff.1 hvs
  obtain ⟨second, _, hsecond, hnone, rfl⟩ := List.forall₂_cons_left_iff.1 hothers
  obtain rfl := List.forall₂_nil_left_iff.1 hnone
  have hvalue : Members.get? "a" ms = some (.str "2=3") := (hms _ _).2 ⟨_, rfl, hlast⟩
  exact ⟨files, report, ms, first, second, hrun, hfiled.wrote.here, hparse small,
    hreported.uploadsEnabled, hannotations, hvalue, hattachments, hfirst, hsecond⟩

end Watchdog

end CrashCapture
