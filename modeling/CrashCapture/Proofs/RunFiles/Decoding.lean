import CrashCapture.Host.Directory
import CrashCapture.Proofs.Json.RoundTrip
import CrashCapture.Proofs.RunFiles.Breadcrumbs
import CrashCapture.Proofs.RunFiles.Creation

namespace CrashCapture.RunFiles

open FileTree

section

variable {σ : Type} [Host σ] {runPath : Path} {m : Nat} {t t' : FileTree} {f f' : RunFiles}
  {places : Places} {s₀ s : Site σ} {breadcrumbs : List Json}

/-- Breadcrumbs that were added one after the other and all written, with whatever else happens in
between. -/
inductive Added (places : Places) (f₀ : RunFiles) (s₀ : Site σ) :
    List Json → RunFiles → Site σ → Prop
  | start : Added places f₀ s₀ [] f₀ s₀
  | add {breadcrumbs : List Json} {f f' : RunFiles} {s s' : Site σ}
      (before : Added places f₀ s₀ breadcrumbs f s) {breadcrumb : Json}
      (added : (f.add breadcrumb).run s = ((f', .ok ()), s')) :
      Added places f₀ s₀ (breadcrumbs ++ [breadcrumb]) f' s'
  | flush {breadcrumbs : List Json} {f : RunFiles} {s s₁ : Site σ} {bytes : Bytes}
      (before : Added places f₀ s₀ breadcrumbs f s) (encoded : scopeBytes.run s = (bytes, s₁))
      (aloof : places.Untouched f s.env.files s₁.env.files) :
      Added places f₀ s₀ breadcrumbs f (f.flushScope.run s).2
  | elsewhere {breadcrumbs : List Json} {f : RunFiles} {s s' : Site σ}
      (before : Added places f₀ s₀ breadcrumbs f s)
      (aloof : places.Untouched f s.env.files s'.env.files) :
      Added places f₀ s₀ breadcrumbs f s'

def encodedLog (breadcrumbs : List Json) : List (Option Bytes) :=
  (breadcrumbs.map some).map (Option.map Json.encode)

theorem recorded_encode {v : Json} (h : ∃ ms, v = .obj ms) :
    recorded v.encode (.ok ()) = some v.encode := by
  obtain ⟨ms, rfl⟩ := h
  have hne : (Json.encode (.obj ms)).isEmpty = false := by rw [Json.encode_obj]; rfl
  simp [recorded, hne]

/-- With the usual encoding this is a run in which every record is a text of its own. -/
theorem Added.run {start : Bool → Bytes} {f₀ : RunFiles}
    (encodes : ∀ v : Json, (Host.encode v : SiteM σ Bytes) = pure v.encode) (hmax : 0 < f₀.max)
    (h₀ : Rotated places f₀ start [] f₀ s₀.env.files)
    (objects : ∀ v ∈ breadcrumbs, ∃ ms, v = .obj ms) (h : Added places f₀ s₀ breadcrumbs f s) :
    Run places f₀ s₀ (encodedLog breadcrumbs) f s := by
  induction h with
  | start => exact .start
  | @add breadcrumbs f f' s s' before breadcrumb added ih =>
    have run := ih fun v hv => objects v (List.mem_append_left _ hv)
    have aloof : places.Untouched f s.env.files s.env.files :=
      ⟨(run.rotated hmax h₀).lead, fun _ => rfl⟩
    have encoded : (Host.encode breadcrumb).run s = (breadcrumb.encode, s) := by
      rw [encodes]
      rfl
    have hadded := run.add breadcrumb encoded aloof added nofun
    rw [recorded_encode (objects breadcrumb (by simp))] at hadded
    simpa [encodedLog] using hadded
  | flush before encoded aloof ih => exact (ih objects).flush encoded aloof
  | elsewhere before aloof ih => exact (ih objects).elsewhere aloof

/-- The breadcrumbs of the block that a file holds. -/
def block (size : Nat) (second : Bool) (breadcrumbs : List Json) : List Json :=
  held size second [] (breadcrumbs.map some)

theorem held_encodedLog {start : Bytes} (empty : start = []) (size : Nat) (second : Bool)
    (breadcrumbs : List Json) :
    (held size second [start] (encodedLog breadcrumbs)).flatten =
      (block size second breadcrumbs).flatMap Json.encode := by
  have hstart : [start].flatten = ([] : List Bytes).flatten := by rw [empty]; rfl
  have hmap := held_map Json.encode size second [] (breadcrumbs.map some)
  rw [held_flatten size second hstart, block, List.flatMap_def, ← hmap]
  rfl

theorem block_written (size : Nat) (breadcrumbs : List Json) :
    block size (latestInSecond size breadcrumbs) breadcrumbs = latest size breadcrumbs ∧
      block size (!latestInSecond size breadcrumbs) breadcrumbs =
        if lastBlock size breadcrumbs = 0 then [] else earlier size breadcrumbs := by
  by_cases hne : breadcrumbs = []
  · subst hne
    simp [block, latest, earlier]
  · exact held_written size (fun _ => []) hne

theorem mem_of_mem_block {size : Nat} {second : Bool} {v : Json}
    (h : v ∈ block size second breadcrumbs) : v ∈ breadcrumbs := by
  obtain ⟨hlatest, hearlier⟩ := block_written size breadcrumbs
  rcases Bool.eq_or_eq_not second (latestInSecond size breadcrumbs) with rfl | rfl
  · rw [hlatest] at h
    exact List.mem_of_mem_drop h
  · rw [hearlier] at h
    split at h
    · cases h
    · exact List.mem_of_mem_drop (List.mem_of_mem_take h)

/-- A file holds values, one after the other with nothing in between. -/
structure Decodes (places : Places) (f : RunFiles) (t : FileTree) (second : Bool)
    (values : List Json) : Prop where
  held : ∃ bytes, t.contents (places.breadcrumbs second) = some bytes ∧
    Json.parseAll bytes = .ok values
  read : ∀ bytes, t.read (f.breadcrumbPath second) = .ok bytes → Json.parseAll bytes = .ok values

theorem decodes_of_contents {second : Bool} {values : List Json} {bytes : Bytes}
    (lead : places.Lead f t) (hcontents : t.contents (places.breadcrumbs second) = some bytes)
    (hparse : Json.parseAll bytes = .ok values) : Decodes places f t second values := by
  refine ⟨⟨bytes, hcontents, hparse⟩, fun other hread => ?_⟩
  obtain ⟨loc, hloc, hother⟩ := read_eq_ok_iff.1 hread
  obtain rfl := lead.breadcrumbs second loc hloc
  rcases hother with hother | ⟨hdevice, -⟩
  · rw [hcontents, Option.some.injEq] at hother
    rwa [← hother]
  · obtain ⟨content, mode, hfile, -⟩ := contents_eq_some.1 hcontents
    simp [hfile] at hdevice

theorem latest_suffix {size : Nat} (hsize : 0 < size) (breadcrumbs : List Json) :
    let older := if lastBlock size breadcrumbs = 0 then [] else earlier size breadcrumbs
    (older ++ latest size breadcrumbs) <:+ breadcrumbs ∧
      min breadcrumbs.length size ≤ (older ++ latest size breadcrumbs).length := by
  intro older
  by_cases hne : breadcrumbs = []
  · subst hne
    simp [older, lastBlock, latest]
  · obtain ⟨kept, hsuffix, hmin, -, hkept⟩ := kept_suffix hsize hne
    have heq : older ++ latest size breadcrumbs = kept := by
      rw [← hkept]
      simp only [older]
      split
      · rfl
      · rfl
    rw [heq]
    exact ⟨hsuffix, hmin⟩

/-- Each breadcrumb file is read as the breadcrumbs of its block, in order, and the older block with
the newer one behind it are the latest that were added. -/
theorem breadcrumbs_decode
    (encodes : ∀ v : Json, (Host.encode v : SiteM σ Bytes) = pure v.encode)
    (created : (create runPath m).run t = .ok f t') (fresh : Fresh f t t')
    (starts : s₀.env.files = t') :
    ∃ places : Places, places.Found f t' ∧
      ∀ {breadcrumbs : List Json} {f' : RunFiles} {s : Site σ} {depth : Nat},
        Added places f s₀ breadcrumbs f' s → depth ≤ Json.maxDepth →
        (∀ v ∈ breadcrumbs, (∃ ms, v = .obj ms) ∧ v.Exact depth) →
        let size := Max.max m 1
        let last := latestInSecond size breadcrumbs
        let older := if lastBlock size breadcrumbs = 0 then [] else earlier size breadcrumbs
        let newer := latest size breadcrumbs
        Decodes places f' s.env.files (!last) older ∧ Decodes places f' s.env.files last newer ∧
          (older ++ newer) <:+ breadcrumbs ∧
          min breadcrumbs.length size ≤ (older ++ newer).length := by
  obtain ⟨places, found, missing⟩ := found_of_fresh created fresh
  refine ⟨places, found, ?_⟩
  intro breadcrumbs f' s depth added hdepth hvalues size last older newer
  have empty : ∀ second, original places t second = [] := by
    intro second
    simp [original, contents, missing second]
  have rotated₀ : Rotated places f (original places t) [] f s₀.env.files := by
    rw [starts]
    exact rotated_create created found
  have run := added.run encodes (max_pos created) rotated₀ fun v hv => (hvalues v hv).1
  have rotated := run.rotated (max_pos created) rotated₀
  have hmax : f.max = size := by rw [(create_grew created).1]; rfl
  have decodes : ∀ second,
      Decodes places f' s.env.files second (block size second breadcrumbs) := by
    intro second
    have hcontents := rotated.contents second
    rw [held_encodedLog (empty second), hmax] at hcontents
    apply decodes_of_contents rotated.lead hcontents
    apply Json.parseAll_flatMap
    · exact fun v hv => (hvalues v (mem_of_mem_block hv)).1
    · exact fun v hv => (hvalues v (mem_of_mem_block hv)).2.mono hdepth
  obtain ⟨hlatest, hearlier⟩ := block_written size breadcrumbs
  have hsize : 0 < size := Nat.lt_of_lt_of_le Nat.one_pos (Nat.le_max_right m 1)
  obtain ⟨hsuffix, hmin⟩ := latest_suffix hsize breadcrumbs
  refine ⟨?_, ?_, hsuffix, hmin⟩
  · have hother := decodes (!last)
    rwa [hearlier] at hother
  · have hlast := decodes last
    rwa [hlatest] at hlast

/-- Adds breadcrumbs one after the other. -/
def addEach (f : RunFiles) (s : Site σ) : List Json → List (Except Breach Unit) × RunFiles × Site σ
  | [] => ([], f, s)
  | breadcrumb :: rest =>
    let r := (f.add breadcrumb).run s
    let last := addEach r.1.1 r.2 rest
    (r.1.2 :: last.1, last.2)

theorem Added.each {f₀ : RunFiles} {more : List Json} (h : Added places f₀ s₀ breadcrumbs f s)
    (hok : ∀ outcome ∈ (addEach f s more).1, outcome = .ok ()) :
    Added places f₀ s₀ (breadcrumbs ++ more) (addEach f s more).2.1 (addEach f s more).2.2 := by
  induction more generalizing breadcrumbs f s with
  | nil => simpa [addEach] using h
  | cons breadcrumb rest ih =>
    obtain ⟨hfirst, hrest⟩ := List.forall_mem_cons.1 hok
    have hadded : (f.add breadcrumb).run s =
        ((((f.add breadcrumb).run s).1.1, .ok ()), ((f.add breadcrumb).run s).2) := by
      rw [← hfirst]
      rfl
    rw [List.append_cons]
    exact ih (h.add hadded) hrest

end

/-- A client with the usual encoding, over the files of a run that was just begun. -/
def directorySite : Site DirectoryHost where
  host := {
    options := .default, directory := "/", user := "1", tags := [], trail := [], queue := []
    diskTransport := false, envelopes := 0, consent := true }
  env := .fresh madeRun

def threeObjects : List Json := [
  .obj [("message", .str "\"\\\x7d\x7b\n")],
  .obj [("data", .arr [.obj [], .null, .num (.int (-1))]), ("level", .str "é")],
  .obj []]

theorem exact_threeObjects : ∀ v ∈ threeObjects, (∃ ms, v = .obj ms) ∧ v.Exact 99 := by
  have hempty : ∀ depth, Json.Exact (depth + 1) (.obj []) :=
    fun _ => .obj (by decide +kernel) nofun
  have hdata : Json.Exact 98 (.arr [.obj [], .null, .num (.int (-1))]) := by
    apply Json.Exact.arr
    rw [List.forall_mem_cons, List.forall_mem_cons, List.forall_mem_singleton]
    exact ⟨hempty 96, .null, .int (by decide) (by decide)⟩
  rw [threeObjects, List.forall_mem_cons, List.forall_mem_cons, List.forall_mem_singleton]
  refine ⟨⟨⟨_, rfl⟩, .obj (by decide +kernel) ?_⟩, ⟨⟨_, rfl⟩, .obj (by decide +kernel) ?_⟩,
    ⟨_, rfl⟩, hempty 98⟩
  · rw [List.forall_mem_singleton]
    exact .str _
  · rw [List.forall_mem_cons, List.forall_mem_singleton]
    exact ⟨hdata, .str _⟩

/-- The client after it has added these in blocks of two. -/
def afterThree : RunFiles × Site DirectoryHost :=
  (addEach (inside "run" 2) directorySite threeObjects).2

theorem breadcrumbs_decode_three :
    ∃ older newer, afterThree.2.env.files.read "run/__sentry-breadcrumb1" = .ok older ∧
      afterThree.2.env.files.read "run/__sentry-breadcrumb2" = .ok newer ∧
      Json.parseAll older = .ok (threeObjects.take 2) ∧
      Json.parseAll newer = .ok (threeObjects.drop 2) := by
  have fresh : Fresh (inside "run" 2) emptyRun madeRun := by
    intro p hp loc hloc
    have hall : ∀ p ∈ (inside "run" 2).paths,
        ((madeRun.locate false p).toOption.all fun loc => emptyRun.node? loc = none) = true := by
      decide +kernel
    simpa [hloc, Except.toOption] using hall p hp
  have encodes : ∀ v : Json, (Host.encode v : SiteM DirectoryHost Bytes) = pure v.encode :=
    fun _ => rfl
  have starts : directorySite.env.files = madeRun := rfl
  obtain ⟨places, -, decode⟩ := breadcrumbs_decode encodes create_emptyRun fresh starts
  have added : Added places (inside "run" 2) directorySite ([] ++ threeObjects) afterThree.1
      afterThree.2 := Added.start.each (by decide +kernel)
  obtain ⟨older, newer, -⟩ := decode added (show 99 ≤ Json.maxDepth by decide) exact_threeObjects
  have hlast : latestInSecond (Max.max 2 1) ([] ++ threeObjects) = true := by decide
  have hblock : lastBlock (Max.max 2 1) ([] ++ threeObjects) ≠ 0 := by decide
  have hearlier : earlier (Max.max 2 1) ([] ++ threeObjects) = threeObjects.take 2 := rfl
  have hlatest : latest (Max.max 2 1) ([] ++ threeObjects) = threeObjects.drop 2 := rfl
  have hfirst : afterThree.1.breadcrumbPath (!true) = "run/__sentry-breadcrumb1" := by
    decide +kernel
  have hsecond : afterThree.1.breadcrumbPath true = "run/__sentry-breadcrumb2" := by decide +kernel
  have holder : afterThree.2.env.files.read "run/__sentry-breadcrumb1" =
      .ok ((threeObjects.take 2).flatMap Json.encode) := by decide +kernel
  have hnewer : afterThree.2.env.files.read "run/__sentry-breadcrumb2" =
      .ok ((threeObjects.drop 2).flatMap Json.encode) := by decide +kernel
  rw [hlast, if_neg hblock, hearlier] at older
  rw [hlast, hlatest] at newer
  exact ⟨_, _, holder, hnewer, older.read _ (by rw [hfirst, holder]),
    newer.read _ (by rw [hsecond, hnewer])⟩

end CrashCapture.RunFiles
