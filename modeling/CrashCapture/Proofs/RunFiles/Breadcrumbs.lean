import CrashCapture.Host.Recording
import CrashCapture.Proofs.RunFiles.Rotation
import CrashCapture.Proofs.Start

namespace CrashCapture.RunFiles

open FileTree

/-- What was in a breadcrumb file before the files were made. -/
def original (places : Places) (t : FileTree) (second : Bool) : Bytes :=
  (t.contents (places.breadcrumbs second)).getD []

section

variable {σ : Type} [Host σ] {runPath : Path} {m : Nat} {t t' : FileTree} {f f' : RunFiles}
  {places : Places} {s₀ s : Site σ}

theorem max_pos (created : (create runPath m).run t = .ok f t') : 0 < f.max := by
  obtain ⟨rfl, -⟩ := create_grew created
  exact Nat.lt_of_lt_of_le Nat.one_pos (Nat.le_max_right m 1)

theorem rotated_of_run (created : (create runPath m).run t = .ok f t')
    (found : places.Found f t') (starts : s₀.env.files = t') {log : List (Option Bytes)}
    (run : Run places f s₀ log f' s) :
    Rotated places f (original places t) log f' s.env.files := by
  refine run.rotated (max_pos created) ?_
  rw [starts]
  exact rotated_create created found

/-- The latest records that two blocks hold: no fewer than one block has room for, if there are as
many. -/
theorem kept_suffix {α : Type} {size : Nat} (hsize : 0 < size) {records : List α} (hne : records ≠ []) :
    ∃ kept, kept <:+ records ∧ min records.length size ≤ kept.length ∧ kept.length ≤ 2 * size ∧
      (if lastBlock size records = 0 then latest size records
        else earlier size records ++ latest size records) = kept := by
  have hlen := length_le_of_lastBlock hsize hne
  by_cases hfirst : lastBlock size records = 0
  · have hall : latest size records = records := by simp [latest, hfirst]
    rw [hfirst, Nat.zero_mul, Nat.zero_add] at hlen
    refine ⟨records, List.suffix_rfl, Nat.min_le_left _ _, by omega, ?_⟩
    rw [if_pos hfirst, hall]
  · have hblock := pred_block_mul hfirst size
    have hlt := lastBlock_mul_lt size hne
    refine ⟨_, List.drop_suffix ((lastBlock size records - 1) * size) records, ?_, ?_, ?_⟩
    · rw [List.length_drop]
      omega
    · rw [List.length_drop]
      omega
    · rw [if_neg hfirst, earlier_append_latest hfirst]

theorem add_fits (hcount : f.count + 1 < Word.limit) (hmax : 2 * f.max < Word.limit)
    (breadcrumb : Json) (s : Site σ) :
    ((f.add breadcrumb).run s).1.2 ≠ .error .overflow := by
  have hcycle : f.max * 2 < Word.limit := by omega
  have hnext : f.next = ({ f with count := f.count + 1 },
      some ⟨f.max ≤ f.count % (f.max * 2), f.count % f.max = 0⟩) := by
    simp [next, Word.add?, targetOf?, Word.mul?, Word.fit?, hcount, hcycle]
  rcases hencode : (Host.encode breadcrumb).run s with ⟨bytes, s₁⟩
  by_cases hempty : bytes = []
  · subst hempty
    obtain ⟨s₂, hrun, -⟩ := add_skipped hnext hencode
    rw [hrun]
    exact nofun
  · rw [add_recorded hnext hencode hempty]
    split <;> exact nofun

end

def withEncoder (fails : Bool) (s : Site RecordingHost) : Site RecordingHost :=
  { s with host := { s.host with encodeFails := fails } }

/-- Adds breadcrumbs one after the other, each with whether it can't be encoded. -/
def addAll (f : RunFiles) (s : Site RecordingHost) :
    List (Bool × Json) → List (Option Bytes) × RunFiles × Site RecordingHost
  | [] => ([], f, s)
  | (fails, breadcrumb) :: rest =>
    let ((f', outcome), s') := (f.add breadcrumb).run (withEncoder fails s)
    let (log, last) := addAll f' s' rest
    (recorded (if fails then [] else breadcrumb.encode) outcome :: log, last)

theorem encode_run (breadcrumb : Json) (fails : Bool) (s : Site RecordingHost) :
    (Host.encode breadcrumb).run (withEncoder fails s) =
      (if fails then [] else breadcrumb.encode, withEncoder fails s) := rfl

theorem run_addAll {places : Places} {f₀ f : RunFiles} {s₀ s : Site RecordingHost}
    {start : Bool → Bytes} {log : List (Option Bytes)} {steps : List (Bool × Json)}
    (hpos : 0 < f₀.max) (hmax : 2 * f₀.max < Word.limit)
    (hcount : log.length + steps.length < Word.limit)
    (h₀ : Rotated places f₀ start [] f₀ s₀.env.files) (run : Run places f₀ s₀ log f s) :
    Run places f₀ s₀ (log ++ (addAll f s steps).1) (addAll f s steps).2.1
      (addAll f s steps).2.2 := by
  induction steps generalizing log f s with
  | nil => simpa [addAll] using run
  | cons step rest ih =>
    obtain ⟨fails, breadcrumb⟩ := step
    have rotated := run.rotated hpos h₀
    have aloof : places.Untouched f s.env.files s.env.files := ⟨rotated.lead, fun _ => rfl⟩
    have returned : ((f.add breadcrumb).run (withEncoder fails s)).1.2 ≠ .error .overflow := by
      rw [List.length_cons] at hcount
      refine add_fits ?_ (by rw [rotated.max]; exact hmax) breadcrumb _
      rw [rotated.count]
      omega
    have turned : Run places f₀ s₀ log f (withEncoder fails s) := run.elsewhere aloof
    have added := turned.add breadcrumb (encode_run breadcrumb fails s) aloof rfl returned
    have last := ih (by simpa [Nat.add_right_comm, Nat.add_assoc] using hcount) added
    rwa [List.append_assoc] at last

def emptyRun : FileTree := ⟨[(["run"], .directory)], []⟩

def madeRun : FileTree where
  entries := [(["run"], .directory), (["run", eventName], .file .empty Disk.defaultMode),
    (["run", firstName], .file .empty Disk.defaultMode),
    (["run", secondName], .file .empty Disk.defaultMode)]
  workingDirectory := []

def madePlaces : Places where
  event := ["run", eventName]
  first := ["run", firstName]
  second := ["run", secondName]
  event_ne_first := by decide
  event_ne_second := by decide
  first_ne_second := by decide

theorem create_emptyRun : (create "run" 2).run emptyRun = .ok (inside "run" 2) madeRun := by
  decide +kernel

theorem found_madeRun : madePlaces.Found (inside "run" 2) madeRun where
  event := by decide
  first := by decide
  second := by decide
  files := by decide

def recording (t : FileTree) : Site RecordingHost := ⟨.initial .default, .fresh t⟩

theorem run_madeRun {steps : List (Bool × Json)} {log : List (Option Bytes)}
    (hlog : (addAll (inside "run" 2) (recording madeRun) steps).1 = log)
    (h : steps.length < Word.limit) :
    Run madePlaces (inside "run" 2) (recording madeRun) log
      (addAll (inside "run" 2) (recording madeRun) steps).2.1
      (addAll (inside "run" 2) (recording madeRun) steps).2.2 := by
  rw [← hlog]
  exact run_addAll (by decide) (by decide) (by simpa using h)
    (rotated_create create_emptyRun found_madeRun) .start

section

variable {σ : Type} [Host σ] {runPath : Path} {m : Nat} {t t' : FileTree} {f f' : RunFiles}
  {places : Places} {s₀ s : Site σ}

/-- The rotation, if all breadcrumbs are written: the file of the last block has that block, and the
other one the block before it. -/
theorem breadcrumbs_rotate (created : (create runPath m).run t = .ok f t')
    (found : places.Found f t') (starts : s₀.env.files = t') {records : List Bytes}
    (run : Run places f s₀ (records.map some) f' s) :
    let size := Max.max m 1
    let last := latestInSecond size records
    let file := fun second => s.env.files.contents (places.breadcrumbs second)
    f'.count = records.length ∧
    (2 * size < Word.limit → records.length + 1 < Word.limit →
      ∀ breadcrumb r, ((f'.add (σ := σ) breadcrumb).run r).1.2 ≠ .error .overflow) ∧
    (records = [] → ∀ second, file second = some (original places t second)) ∧
    (records ≠ [] →
      file last = some (latest size records).flatten ∧
      file (!last) = some (if lastBlock size records = 0 then original places t (!last)
        else (earlier size records).flatten) ∧
      ∃ kept older newer, kept <:+ records ∧
        min records.length size ≤ kept.length ∧ kept.length ≤ 2 * size ∧
        file (!last) = some older ∧ file last = some newer ∧
        older ++ newer =
          (if lastBlock size records = 0 then original places t (!last) else []) ++
            kept.flatten) := by
  intro size last file
  have rotated := rotated_of_run created found starts run
  obtain ⟨rfl, -⟩ := create_grew created
  have hsize : 0 < size := Nat.lt_of_lt_of_le Nat.one_pos (Nat.le_max_right m 1)
  have hcount : f'.count = records.length := by rw [rotated.count, List.length_map]
  have hfile : ∀ second, file second =
      some (held size second [original places t second] (records.map some)).flatten :=
    rotated.contents
  refine ⟨hcount, fun hword hfits => add_fits (by omega) (by rw [rotated.max]; exact hword), ?_, ?_⟩
  · rintro rfl second
    rw [hfile, List.map_nil, held_nil, List.flatten_singleton]
  · intro hne
    obtain ⟨hlatest, hother⟩ :=
      held_written size (fun second => [original places t second]) hne
    have hlast : file last = some (latest size records).flatten := by
      rw [hfile, hlatest]
    have hbefore : file (!last) = some (if lastBlock size records = 0 then original places t (!last)
        else (earlier size records).flatten) := by
      rw [hfile, hother]
      split
      · rw [List.flatten_singleton]
      · rfl
    obtain ⟨kept, hsuffix, hmin, hmax, hkept⟩ := kept_suffix hsize hne
    refine ⟨hlast, hbefore, kept, _, _, hsuffix, hmin, hmax, hbefore, hlast, ?_⟩
    rw [← hkept]
    split
    · rfl
    · rw [List.nil_append, List.flatten_append]

theorem breadcrumbs_rotate_three :
    let records := [Json.null.encode, (Json.bool true).encode, (Json.bool false).encode]
    let steps := [(false, Json.null), (false, .bool true), (false, .bool false)]
    let s := (addAll (inside "run" 2) (recording madeRun) steps).2.2
    s.env.files.contents madePlaces.second = some (latest 2 records).flatten ∧
      s.env.files.contents madePlaces.first = some (earlier 2 records).flatten := by
  intro records steps s
  have hlog : (addAll (inside "run" 2) (recording madeRun) steps).1 = records.map some := by
    decide +kernel
  have run := run_madeRun hlog (by decide)
  have rotate := breadcrumbs_rotate create_emptyRun found_madeRun rfl run
  obtain ⟨hlatest, hearlier, -⟩ := rotate.2.2.2 (by simp [records])
  have hlast : latestInSecond 2 records = true := by decide
  have hblock : lastBlock 2 records ≠ 0 := by decide
  rw [show Max.max 2 1 = 2 from rfl, hlast] at hlatest hearlier
  rw [if_neg hblock] at hearlier
  exact ⟨hlatest, hearlier⟩

/-- A link makes one file of the two. -/
def linkedRun : FileTree :=
  ⟨[(["run"], .directory), (["run", firstName], .link secondName)], []⟩

def linkedMade : FileTree where
  entries := [(["run"], .directory), (["run", firstName], .link secondName),
    (["run", eventName], .file .empty Disk.defaultMode),
    (["run", secondName], .file .empty Disk.defaultMode)]
  workingDirectory := []

def linkedAdds : List (Option Bytes) × RunFiles × Site RecordingHost :=
  addAll (inside "run" 1) (recording linkedMade) [(false, .bool true), (false, .bool false)]

/-- Then the block before the last one is not in its file. -/
theorem linked_breadcrumbs_do_not_rotate :
    (create "run" 1).run linkedRun = .ok (inside "run" 1) linkedMade ∧
    linkedAdds.1 = [some (Json.bool true).encode, some (Json.bool false).encode] ∧
    linkedAdds.2.1.count = 2 ∧
    linkedAdds.2.2.env.files.read linkedAdds.2.1.second = .ok (Json.bool false).encode ∧
    linkedAdds.2.2.env.files.read linkedAdds.2.1.first ≠
      .ok (earlier 1 [(Json.bool true).encode, (Json.bool false).encode]).flatten := by
  decide +kernel

/-- If some breadcrumbs are not written, a file may hold records of more than one block. It never
does if and only if a block that is written at all is written from its start, or has nothing to
join. -/
theorem blocks_stay_apart_iff (created : (create runPath m).run t = .ok f t')
    (found : places.Found f t') (starts : s₀.env.files = t')
    (empty : ∀ second, original places t second = []) {log : List (Option Bytes)}
    (run : Run places f s₀ log f' s) :
    let size := Max.max m 1
    (∀ second, s.env.files.contents (places.breadcrumbs second) =
      some ((records size second log).map Prod.snd).flatten) ∧
    ((∀ n second, OneBlock size (records size second (log.take n))) ↔ Separated size log) := by
  intro size
  have rotated := rotated_of_run created found starts run
  obtain ⟨rfl, -⟩ := create_grew created
  have hsize : 0 < size := Nat.lt_of_lt_of_le Nat.one_pos (Nat.le_max_right m 1)
  refine ⟨fun second => ?_, oneBlock_iff hsize log⟩
  have hheld : held size second [] log = (records size second log).map Prod.snd := by
    rw [records, ← held_map, numbered_map_snd]
    rfl
  rw [rotated.contents, ← hheld]
  exact congrArg some (held_flatten size second (by simp [empty]) log)

/-- Six breadcrumbs in blocks of two, of which number 4 can't be encoded. -/
def sixSteps : List (Bool × Json) :=
  [(false, .num (.int 0)), (false, .num (.int 1)), (false, .num (.int 2)), (false, .num (.int 3)),
    (true, .num (.int 4)), (false, .num (.int 5))]

def sixLog : List (Option Bytes) :=
  [some "0".toUTF8.toList, some "1".toUTF8.toList, some "2".toUTF8.toList, some "3".toUTF8.toList,
    none, some "5".toUTF8.toList]

/-- The last of them joins the records of the block before last. -/
theorem blocks_stay_apart_iff_six :
    let s := (addAll (inside "run" 2) (recording madeRun) sixSteps).2.2
    s.env.files.contents madePlaces.first = some "015".toUTF8.toList ∧
      ¬∀ n second, OneBlock 2 (records 2 second (sixLog.take n)) := by
  intro s
  have hlog : (addAll (inside "run" 2) (recording madeRun) sixSteps).1 = sixLog := by
    decide +kernel
  have run := run_madeRun hlog (by decide)
  obtain ⟨hcontents, hapart⟩ :=
    blocks_stay_apart_iff create_emptyRun found_madeRun rfl (by decide) run
  constructor
  · have hrecords : ((records 2 false sixLog).map Prod.snd).flatten = "015".toUTF8.toList := by
      decide +kernel
    rw [← hrecords]
    exact hcontents false
  · intro hone
    rcases hapart.1 hone 5 (by decide) with hstart | hnone
    · exact absurd hstart (by decide)
    · exact absurd (hnone 0 (by decide) (by decide)) (by decide)

end

end CrashCapture.RunFiles
