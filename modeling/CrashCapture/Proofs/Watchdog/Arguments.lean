import CrashCapture.Proofs.CommandLine.Spelling
import CrashCapture.Watchdog.Command

namespace CrashCapture.WatchdogCommand

open CommandLine

/-- What was given on a command line is all that a command says. -/
structure TakenFrom (c : WatchdogCommand) (g : Given) : Prop where
  database : g.all "database" = [c.database]
  metricsDirectory : g.all "metrics-dir" = c.metricsDirectory.toList
  url : g.all "url" = c.url.toList
  handler : g.all "handler" = c.handler.toList
  monitorPid : ∃ text, g.all "monitor-pid" = [text] ∧ parsePid text = some c.monitorPid
  noRateLimit : c.noRateLimit = g.has "no-rate-limit"
  annotations : g.all "annotation" = c.annotations
  attachments : g.all "attachment" = c.attachments

theorem plain_specs (isText : String → Bool) : ∀ spec ∈ specs isText, PlainName spec.name := by
  have hplain : ∀ name ∈ specs.map (·.name), PlainName name := by decide
  intro spec hspec
  -- which values are taken does not change the names
  exact hplain _ (List.mem_map_of_mem hspec : spec.name ∈ (specs isText).map (·.name))

variable {isText : String → Bool} {c : WatchdogCommand} {g : Given} {arguments : List String}

theorem required_eq_ok_iff {name value : String} :
    required name g = .ok value ↔ g.value? name = some value := by
  unfold required
  cases g.value? name <;> simp

theorem value?_of_all {name : String} {value : Option String} (h : g.all name = value.toList) :
    g.value? name = value := by
  unfold Given.value?
  rw [h]
  cases value <;> rfl

theorem all_of_value? {name : String} {value : Option String} (single : (g.all name).length ≤ 1)
    (h : g.value? name = value) : g.all name = value.toList := by
  subst h
  unfold Given.value?
  cases hall : g.all name with
  | nil => rfl
  | cons first others =>
    have hothers : others = [] := by
      rw [hall, List.length_cons] at single
      exact List.eq_nil_of_length_eq_zero (by omega)
    rw [hothers]
    rfl

theorem TakenFrom.value? (h : c.TakenFrom g) : g.value? "metrics-dir" = c.metricsDirectory ∧
    g.value? "url" = c.url ∧ g.value? "handler" = c.handler :=
  ⟨value?_of_all h.metricsDirectory, value?_of_all h.url, value?_of_all h.handler⟩

/-- A command that is complete is taken from what was given. -/
theorem TakenFrom.ofGiven (h : c.TakenFrom g) : ofGiven g = .ok c := by
  obtain ⟨text, htext, hpid⟩ := h.monitorPid
  obtain ⟨hmetrics, hurl, hhandler⟩ := h.value?
  have hdatabase : required "database" g = .ok c.database :=
    required_eq_ok_iff.2 (value?_of_all h.database)
  have hrequired : required "monitor-pid" g = .ok text :=
    required_eq_ok_iff.2 (value?_of_all htext)
  unfold WatchdogCommand.ofGiven
  rw [hdatabase, hrequired, hmetrics, hurl, hhandler, ← h.noRateLimit, h.annotations, h.attachments]
  simp [bind, Except.bind, pure, Except.pure, hpid]

theorem takenFrom_of_ofGiven (h : ofGiven g = .ok c)
    (single : ∀ name ∈ ["database", "metrics-dir", "url", "handler", "monitor-pid"],
      (g.all name).length ≤ 1)
    (pid : ∀ text ∈ g.all "monitor-pid", (parsePid text).isSome = true) : c.TakenFrom g := by
  unfold WatchdogCommand.ofGiven at h
  cases hdatabase : required "database" g with
  | error e =>
    rw [hdatabase] at h
    cases h
  | ok database =>
    cases hpid : required "monitor-pid" g with
    | error e =>
      rw [hdatabase, hpid] at h
      cases h
    | ok text =>
      rw [hdatabase, hpid] at h
      cases h
      have htext : g.all "monitor-pid" = [text] :=
        all_of_value? (single _ (by simp)) (required_eq_ok_iff.1 hpid)
      obtain ⟨n, hn⟩ := Option.isSome_iff_exists.1 (pid text (by simp [htext]))
      exact {
        database := all_of_value? (single _ (by simp)) (required_eq_ok_iff.1 hdatabase)
        metricsDirectory := all_of_value? (single _ (by simp)) rfl
        url := all_of_value? (single _ (by simp)) rfl
        handler := all_of_value? (single _ (by simp)) rfl
        monitorPid := ⟨text, htext, by simp [hn]⟩
        noRateLimit := rfl
        annotations := rfl
        attachments := rfl }

/-- The command lines that the watchdog accepts, and what it takes from them. -/
theorem parse_eq_ok_iff :
    parse arguments isText = .ok c ↔
      ∃ g, Spelled (specs isText) [] arguments g ∧ c.TakenFrom g := by
  unfold parse
  constructor
  · intro h
    cases hread : read (specs isText) [] arguments with
    | error e =>
      rw [hread] at h
      cases h
    | ok g =>
      rw [hread] at h
      have hspelled : Spelled (specs isText) [] arguments g := spelled_of_read hread
      refine ⟨g, hspelled, takenFrom_of_ofGiven h ?_ ?_⟩
      · intro name hname
        simp only [List.mem_cons, List.not_mem_nil, or_false] at hname
        rcases hname with rfl | rfl | rfl | rfl | rfl
        all_goals exact hspelled.length_all_le rfl nofun
      · have hfound : (specs isText).find? (·.name = "monitor-pid") = some _ := rfl
        exact hspelled.accepts_of_mem_all hfound
  · rintro ⟨g, spelled, taken⟩
    rw [read_of_spelled (plain_specs isText) spelled]
    exact taken.ofGiven

end CrashCapture.WatchdogCommand
