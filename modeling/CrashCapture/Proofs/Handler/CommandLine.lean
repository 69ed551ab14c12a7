import CrashCapture.Proofs.CommandLine.Items
import CrashCapture.Proofs.External.Launching
import CrashCapture.Proofs.Handler.Resolution
import CrashCapture.Watchdog.Command

namespace CrashCapture

open CommandLine

namespace WatchdogCommand

def databaseSpec : Spec := specs.get ⟨0, by decide⟩
def metricsSpec : Spec := specs.get ⟨1, by decide⟩
def urlSpec : Spec := specs.get ⟨2, by decide⟩
def handlerSpec : Spec := specs.get ⟨3, by decide⟩
def pidSpec : Spec := specs.get ⟨4, by decide⟩
def noLimitSpec : Spec := specs.get ⟨5, by decide⟩
def annotationSpec : Spec := specs.get ⟨6, by decide⟩
def attachmentSpec : Spec := specs.get ⟨7, by decide⟩

theorem known_of_mem {i : Item} (mem : i.spec ∈ specs)
    (valued : i.value = none ↔ i.spec.arity = .flag) : i.Known specs := by
  obtain ⟨spec, value⟩ := i
  have hspec : specs.find? (·.name = spec.name) = some spec ∧
      classify ("--" ++ spec.name) = .long spec.name none ∧ spec.name ≠ "help" := by
    simp only [specs, List.mem_cons, List.not_mem_nil, or_false] at mem
    rcases mem with rfl | rfl | rfl | rfl | rfl | rfl | rfl | rfl <;>
      exact ⟨rfl, by decide, by decide⟩
  exact ⟨hspec.1, hspec.2.1, hspec.2.2, valued⟩

theorem known_value {spec : Spec} (mem : spec ∈ specs) (valued : spec.arity ≠ .flag)
    (value : String) : Item.Known specs ⟨spec, some value⟩ :=
  known_of_mem mem ⟨nofun, fun h => absurd h valued⟩

end WatchdogCommand

namespace HandlerCommand

open WatchdogCommand

/-- The options of a command that are given once, in the order in which the watchdog knows them. -/
def single (c : HandlerCommand) : List Item :=
  [⟨databaseSpec, some c.database⟩, ⟨metricsSpec, some c.metricsDirectory⟩] ++
  (c.url.map fun url => ⟨urlSpec, some url⟩).toList ++
  [⟨handlerSpec, some c.handler⟩, ⟨pidSpec, some (toString c.monitorPid)⟩] ++
  if c.rateLimit then [] else [⟨noLimitSpec, none⟩]

def annotationTexts (c : HandlerCommand) : List String :=
  c.annotations.map fun (k, v) => k ++ "=" ++ v

def repeated (c : HandlerCommand) : List Item :=
  Item.each annotationSpec c.annotationTexts ++ Item.each attachmentSpec c.attachments

def items (c : HandlerCommand) : List Item := c.single ++ c.repeated

/-- What the watchdog is to be told by a command. -/
def told (c : HandlerCommand) : WatchdogCommand where
  database := c.database
  metricsDirectory := some c.metricsDirectory
  url := c.url
  handler := some c.handler
  monitorPid := c.monitorPid
  noRateLimit := !c.rateLimit
  annotations := c.annotationTexts
  attachments := c.attachments

theorem arguments_eq (c : HandlerCommand) : c.arguments = c.items.flatMap Item.arguments := by
  have hannotations : c.annotations.flatMap (fun (k, v) => option "annotation" (k ++ "=" ++ v)) =
      (Item.each annotationSpec c.annotationTexts).flatMap Item.arguments := by
    rw [Item.arguments_each, annotationTexts, List.flatMap_map]
    rfl
  have hattachments : c.attachments.flatMap (option "attachment") =
      (Item.each attachmentSpec c.attachments).flatMap Item.arguments := by
    rw [Item.arguments_each]
    rfl
  unfold arguments items single repeated
  rw [hannotations, hattachments]
  simp only [List.flatMap_append, ← List.append_assoc]
  cases c.url <;> cases c.rateLimit <;> rfl

theorem nodup_single (c : HandlerCommand) : (c.single.map (·.spec.name)).Nodup := by
  have hnames : c.single.map (·.spec.name) =
      ["database", "metrics-dir"] ++ (if c.url.isSome then ["url"] else []) ++
      ["handler", "monitor-pid"] ++ (if c.rateLimit then [] else ["no-rate-limit"]) := by
    unfold single
    cases c.url <;> cases c.rateLimit <;> rfl
  rw [hnames]
  cases c.url.isSome <;> cases c.rateLimit <;> decide

theorem arity_of_mem_repeated {c : HandlerCommand} {i : Item} (mem : i ∈ c.repeated) :
    i.spec.arity = .repeated := by
  rcases List.mem_append.1 mem with h | h <;> obtain ⟨_, _, rfl⟩ := Item.mem_each.1 h <;> rfl

theorem distinct_items (c : HandlerCommand) : Distinct c.items := by
  refine List.pairwise_append.2 ⟨?_, ?_, fun i _ j hj => .inl (arity_of_mem_repeated hj)⟩
  · exact (List.pairwise_map.1 c.nodup_single).imp .inr
  · exact List.pairwise_of_forall_mem_list fun i _ j hj => .inl (arity_of_mem_repeated hj)

theorem known_single (c : HandlerCommand) : ∀ i ∈ c.single, i.Known specs := by
  have hvalue (n : Fin specs.length) (h : (specs.get n).arity ≠ .flag) (value : String) :
      Item.Known specs ⟨specs.get n, some value⟩ := known_value (List.get_mem specs n) h value
  refine List.forall_mem_append.2 ⟨List.forall_mem_append.2 ⟨List.forall_mem_append.2 ⟨?_, ?_⟩,
    ?_⟩, ?_⟩
  · exact List.forall_mem_cons.2 ⟨hvalue ⟨0, by decide⟩ nofun _,
      List.forall_mem_singleton.2 (hvalue ⟨1, by decide⟩ nofun _)⟩
  · cases c.url with
    | none => exact List.forall_mem_nil _
    | some url => exact List.forall_mem_singleton.2 (hvalue ⟨2, by decide⟩ nofun _)
  · exact List.forall_mem_cons.2 ⟨hvalue ⟨3, by decide⟩ nofun _,
      List.forall_mem_singleton.2 (hvalue ⟨4, by decide⟩ nofun _)⟩
  · split
    · exact List.forall_mem_nil _
    · exact List.forall_mem_singleton.2 (known_of_mem (List.get_mem specs ⟨5, by decide⟩)
        ⟨fun _ => rfl, fun _ => rfl⟩)

theorem known_repeated (c : HandlerCommand) : ∀ i ∈ c.repeated, i.Known specs := by
  intro i hi
  rcases List.mem_append.1 hi with h | h <;> obtain ⟨_, _, rfl⟩ := Item.mem_each.1 h
  · exact known_value (List.get_mem specs ⟨6, by decide⟩) nofun _
  · exact known_value (List.get_mem specs ⟨7, by decide⟩) nofun _

theorem all_items (c : HandlerCommand) (name : String) : Given.all name (c.items.map Item.entry) =
    Given.all name (c.single.map Item.entry) ++
      if name = "annotation" then c.annotationTexts
      else if name = "attachment" then c.attachments else [] := by
  have hannotation : annotationSpec.name = "annotation" := rfl
  have hattachment : attachmentSpec.name = "attachment" := rfl
  unfold items repeated
  rw [List.map_append, Given.all_append, List.map_append, Given.all_append, Given.all_each,
    Given.all_each, hannotation, hattachment]
  split
  · next h => simp [← h]
  · next h => simp [Ne.symm h, eq_comm]

theorem ofGiven_items (c : HandlerCommand) (pid : c.monitorPid ≤ maxPid) :
    ofGiven (c.items.map Item.entry) = .ok c.told := by
  have hpid : parsePid (toString c.monitorPid) = some c.monitorPid :=
    Text.parseUnsigned_toString pid
  have hgiven : ofGiven (c.items.map Item.entry) = .ok { c.told with
      monitorPid := (parsePid (toString c.monitorPid)).getD 0 } := by
    unfold ofGiven required Given.value?
    simp only [Given.has_eq_all, all_items]
    unfold single told
    cases c.url <;> cases c.rateLimit <;> rfl
  rw [hgiven, hpid]
  rfl

theorem parse_arguments (c : HandlerCommand) (pid : c.monitorPid ≤ maxPid) : parse c.arguments =
    if c.items.all Item.isTaken then .ok c.told else .error .usage := by
  have hknown : ∀ i ∈ c.items, i.Known specs :=
    List.forall_mem_append.2 ⟨c.known_single, c.known_repeated⟩
  rw [parse, arguments_eq, read_items hknown c.distinct_items fun _ _ => .inr rfl]
  split
  · exact c.ofGiven_items pid
  · rfl

/-- The values of all options but the process id, which never looks like an option. -/
def values (c : HandlerCommand) : List String :=
  [c.database, c.metricsDirectory] ++ c.url.toList ++ [c.handler] ++
  c.annotationTexts ++ c.attachments

theorem isPath_of_ne {path : Path} (h : path ≠ "") : isPath path = true := by
  simpa [isPath] using h

theorem isTaken_pid {pid : Nat} (h : pid ≤ maxPid) :
    (Item.mk pidSpec (some (toString pid))).isTaken = true := by
  have haccepts : pidSpec.accepts (toString pid) = true := by
    change (parsePid (toString pid)).isSome = true
    rw [parsePid, Text.parseUnsigned_toString h]
    rfl
  refine (Item.isTaken_iff pidSpec haccepts).2 ?_
  rintro ⟨c, cs, hstarts⟩
  have hdigit : '-'.isDigit = true := Text.isDigit_of_mem_toString (hstarts ▸ List.mem_cons_self)
  exact absurd hdigit (by decide)

theorem taken_single {c : HandlerCommand} (pid : c.monitorPid ≤ maxPid)
    (database : c.database ≠ "") (metrics : c.metricsDirectory ≠ "") (handler : c.handler ≠ "") :
    (∀ i ∈ c.single, i.isTaken = true) ↔
      ∀ v ∈ [c.database, c.metricsDirectory] ++ c.url.toList ++ [c.handler], ¬LooksLikeOption v := by
  have hdatabase := Item.isTaken_iff databaseSpec (isPath_of_ne database)
  have hmetrics := Item.isTaken_iff metricsSpec (isPath_of_ne metrics)
  have hhandler := Item.isTaken_iff handlerSpec (isPath_of_ne handler)
  have hurl (url : String) := @Item.isTaken_iff urlSpec url rfl
  have hflag : (Item.mk noLimitSpec none).isTaken = true := rfl
  have hpid := isTaken_pid pid
  unfold single
  simp only [List.forall_mem_append, List.forall_mem_cons, hdatabase, hmetrics, hhandler, hpid]
  cases c.url <;> cases c.rateLimit <;> simp [hurl, hflag]

theorem taken_repeated {c : HandlerCommand} (attachments : ∀ path ∈ c.attachments, path ≠ "") :
    (∀ i ∈ c.repeated, i.isTaken = true) ↔
      ∀ v ∈ c.annotationTexts ++ c.attachments, ¬LooksLikeOption v := by
  have hannotation (text : String) := @Item.isTaken_iff annotationSpec text rfl
  have hattachment (path : Path) (h : path ∈ c.attachments) :=
    Item.isTaken_iff attachmentSpec (isPath_of_ne (attachments path h))
  simp only [repeated, Item.each, List.forall_mem_append, List.forall_mem_map, hannotation]
  exact and_congr_right fun _ => forall₂_congr hattachment

theorem all_isTaken_iff {c : HandlerCommand} (pid : c.monitorPid ≤ maxPid)
    (database : c.database ≠ "") (metrics : c.metricsDirectory ≠ "") (handler : c.handler ≠ "")
    (attachments : ∀ path ∈ c.attachments, path ≠ "") :
    c.items.all Item.isTaken = true ↔ ∀ v ∈ c.values, ¬LooksLikeOption v := by
  rw [List.all_eq_true, items, List.forall_mem_append,
    taken_single pid database metrics handler, taken_repeated attachments,
    ← List.forall_mem_append]
  simp only [values, List.append_assoc]

end HandlerCommand

theorem Path.not_looksLikeOption {p : Path} (h : p.isAbsolute = true) : ¬LooksLikeOption p := by
  obtain ⟨cs, hcs⟩ := isAbsolute_iff.1 h
  rintro ⟨c, cs', h'⟩
  rw [hcs] at h'
  cases h'

theorem Dsn.not_looksLikeOption_minidumpUrl (d : Dsn) : ¬LooksLikeOption d.minidumpUrl := by
  obtain ⟨scheme, key, host, port, before, project⟩ := d
  rintro ⟨c, cs, h⟩
  cases scheme <;> simp [minidumpUrl, Scheme.text, String.toList_append] at h

theorem RunFiles.ne_empty_of_mem_paths {runPath path : Path} {max : Nat}
    (h : path ∈ (inside runPath max).paths) : path ≠ "" := by
  simp only [paths, inside, List.mem_cons, List.not_mem_nil, or_false] at h
  rcases h with rfl | rfl | rfl <;> exact Path.join_ne_empty runPath (by decide)

namespace External

open WatchdogCommand

variable {σ : Type} [Host σ]

theorem values_commandFor {options : Options} {handler : Path} {run : RunFiles} {pid : Nat}
    (absolute : handler.isAbsolute = true) :
    (∀ v ∈ (commandFor options handler run pid).values, ¬LooksLikeOption v) ↔
      ∀ v ∈ options.databasePath :: (options.attachments ++ run.paths), ¬LooksLikeOption v := by
  have hhandler := Path.not_looksLikeOption absolute
  have hurl : ∀ url ∈ (options.dsn.map (·.minidumpUrl)).toList, ¬LooksLikeOption url := by
    intro url hmem
    cases hdsn : options.dsn with
    | none => simp [hdsn] at hmem
    | some dsn =>
      simp only [hdsn, Option.map, Option.toList, List.mem_singleton] at hmem
      exact hmem ▸ dsn.not_looksLikeOption_minidumpUrl
  have hvalues : (commandFor options handler run pid).values =
      [options.databasePath, options.databasePath] ++
        (options.dsn.map (·.minidumpUrl)).toList ++ [handler] ++ [] ++
        (options.attachments ++ run.paths) := rfl
  simp only [hvalues, List.append_nil, List.forall_mem_append, List.forall_mem_cons,
    iff_true_intro hurl, hhandler, not_false_eq_true, List.not_mem_nil, false_implies,
    implies_true, and_true, and_self]

theorem taken_commandFor {options : Options} {handler : Path} {run : RunFiles} {pid : Nat}
    (database : options.databasePath ≠ "") (absolute : handler.isAbsolute = true)
    (paths : ∀ path ∈ options.attachments ++ run.paths, path ≠ "") (known : pid ≤ maxPid) :
    (commandFor options handler run pid).items.all Item.isTaken = true ↔
      ∀ path ∈ options.databasePath :: (options.attachments ++ run.paths),
        ¬LooksLikeOption path :=
  (HandlerCommand.all_isTaken_iff known database database (Path.ne_empty absolute) paths).trans
    (values_commandFor absolute)

theorem parse_commandFor {options : Options} {handler : Path} {run : RunFiles} {pid : Nat}
    (database : options.databasePath ≠ "") (absolute : handler.isAbsolute = true)
    (paths : ∀ path ∈ options.attachments ++ run.paths, path ≠ "") (known : pid ≤ maxPid) :
    parse (commandFor options handler run pid).arguments =
      if ∃ path ∈ options.databasePath :: (options.attachments ++ run.paths), LooksLikeOption path
      then .error .usage else .ok (commandFor options handler run pid).told := by
  have htaken := taken_commandFor database absolute paths known
  rw [HandlerCommand.parse_arguments _ known]
  by_cases hoption :
    ∃ path ∈ options.databasePath :: (options.attachments ++ run.paths), LooksLikeOption path
  · obtain ⟨path, hmem, hlooks⟩ := hoption
    rw [if_neg fun h => htaken.1 h path hmem hlooks, if_pos ⟨path, hmem, hlooks⟩]
  · rw [if_pos (htaken.2 fun path hmem hlooks => hoption ⟨path, hmem, hlooks⟩), if_neg hoption]

/-- The watchdog reads from its command line what it is launched with, if no path among that goes on
after a hyphen at its start. Otherwise it refuses its command line, whenever it is launched. -/
theorem command_parsed {p : Machine σ} {l : Launching σ} (reached : launching? p = some l)
    (database : (Host.options p.site.host).databasePath ≠ "")
    (attachments : ∀ path ∈ (Host.options p.site.host).attachments, path ≠ "")
    (pid : l.machine.site.env.pid ≤ maxPid) :
    let options := Host.options p.site.host
    let attached := options.attachments ++
      (RunFiles.inside options.runPath options.maxBreadcrumbs).paths
    ∃ handler, Handler.resolve options p.site.env.executable p.site.env.files = .ok handler ∧
      parse (l.command options).arguments =
        if ∃ path ∈ options.databasePath :: attached, LooksLikeOption path then .error .usage
        else .ok {
          database := options.databasePath
          metricsDirectory := some options.databasePath
          url := options.dsn.map (·.minidumpUrl)
          handler := some handler
          monitorPid := l.machine.site.env.pid
          noRateLimit := true
          annotations := []
          attachments := attached } := by
  intro options attached
  rcases launching_cases p with ⟨hnone, -⟩ | ⟨l', hsome, hreached⟩
  · rw [reached] at hnone
    cases hnone
  obtain rfl := Option.some.inj (reached.symm.trans hsome)
  have hfiles : l.run = .inside options.runPath options.maxBreadcrumbs := hreached.files
  have hpaths : ∀ path ∈ attached, path ≠ "" :=
    List.forall_mem_append.2 ⟨attachments, fun _ => RunFiles.ne_empty_of_mem_paths⟩
  refine ⟨l.handler, hreached.resolved, ?_⟩
  rw [Launching.command, hfiles,
    parse_commandFor database (Handler.isAbsolute_of_resolve hreached.resolved) hpaths pid]
  rfl

/-- A client with a database below the working directory, in one that is named like an option. -/
def hyphened : Machine RecordingHost :=
  .initial (.initial (rooted.withDatabasePath "-db")) (.fresh consented) none ⟨0, 0⟩

theorem command_parsed_hyphened : ∃ l, launching? hyphened = some l ∧
    parse (l.command (Host.options hyphened.site.host)).arguments = .error .usage := by
  have hlaunching : launching? hyphened = some (.ofPrepared (rooted.withDatabasePath "-db")
      "/handler" rootedFiles ((prepare (rooted.withDatabasePath "-db")).run hyphened).2) :=
    launching?_of_prepared rfl (by decide +kernel)
  obtain ⟨handler, -, htold⟩ := command_parsed hlaunching (by decide) (by decide)
    (by decide +kernel)
  rw [if_pos ⟨"-db", List.mem_cons_self, 'd', ['b'], by decide⟩] at htold
  exact ⟨_, hlaunching, htold⟩

end External

end CrashCapture
