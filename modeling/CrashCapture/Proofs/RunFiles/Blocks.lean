import CrashCapture.RunFiles
import Mathlib.Algebra.Order.Group.Nat
import Mathlib.Data.List.Induction
import Mathlib.Data.List.Perm.Subperm
import Mathlib.Data.Nat.Find

namespace CrashCapture.RunFiles

/-- Whether a breadcrumb goes into the second file: the blocks take turns. -/
def inSecond (size i : Nat) : Bool := i / size % 2 = 1

theorem le_mod_two_blocks {size : Nat} (hsize : 0 < size) (i : Nat) :
    size ≤ i % (size * 2) ↔ i / size % 2 = 1 := by
  rw [← Nat.mod_mul_right_div_self]
  have hlt : i % (size * 2) < size * 2 := Nat.mod_lt _ (by omega)
  have hdiv : i % (size * 2) / size < 2 := Nat.div_lt_of_lt_mul hlt
  have hle := Nat.le_div_iff_mul_le hsize (x := 1) (y := i % (size * 2))
  omega

theorem targetOf?_eq {size count : Nat} {target : Target} (hsize : 0 < size)
    (h : targetOf? count size = some target) :
    target = ⟨inSecond size count, count % size = 0⟩ := by
  unfold targetOf? Word.mul? Word.fit? at h
  split at h
  · have ht : (⟨size ≤ count % (size * 2), count % size = 0⟩ : Target) = target := by simpa using h
    rw [← ht]
    simp only [inSecond, le_mod_two_blocks hsize]
  · simp at h

variable {α β : Type}

/-- What a file holds once breadcrumb `i` has come: the first of a block starts the file over. There
is no record of a breadcrumb that was not written. -/
def turn (size : Nat) (second : Bool) (i : Nat) : Option α → List α → List α
  | none, held => held
  | some record, held =>
    if inSecond size i ≠ second then held
    else if i % size = 0 then [record]
    else held ++ [record]

def held (size : Nat) (second : Bool) (start : List α) (log : List (Option α)) : List α :=
  log.zipIdx.foldl (fun now x => turn size second x.2 x.1 now) start

@[simp] theorem held_nil (size : Nat) (second : Bool) (start : List α) :
    held size second start [] = start := rfl

theorem held_concat (size : Nat) (second : Bool) (start : List α) (log : List (Option α))
    (record : Option α) :
    held size second start (log ++ [record]) =
      turn size second log.length record (held size second start log) := by
  simp [held, List.zipIdx_append, List.foldl_append]

theorem turn_map (f : α → β) (size : Nat) (second : Bool) (i : Nat) (record : Option α)
    (now : List α) :
    turn size second i (record.map f) (now.map f) = (turn size second i record now).map f := by
  cases record with
  | none => rfl
  | some record =>
    simp only [turn, Option.map_some]
    split_ifs <;> simp

theorem held_map (f : α → β) (size : Nat) (second : Bool) (start : List α)
    (log : List (Option α)) :
    held size second (start.map f) (log.map (Option.map f)) =
      (held size second start log).map f := by
  induction log using List.reverseRecOn with
  | nil => rfl
  | append_singleton log record ih =>
    rw [List.map_append, List.map_singleton, held_concat, held_concat, ih, List.length_map,
      turn_map]

/-- What is in a file depends on what was in it at first, but not on how that was written. -/
theorem held_flatten (size : Nat) (second : Bool) {start start' : List (List α)}
    (h : start.flatten = start'.flatten) (log : List (Option (List α))) :
    (held size second start log).flatten = (held size second start' log).flatten := by
  induction log using List.reverseRecOn with
  | nil => exact h
  | append_singleton log record ih =>
    rw [held_concat, held_concat]
    cases record with
    | none => exact ih
    | some record =>
      simp only [turn]
      split_ifs
      · exact ih
      · rfl
      · rw [List.flatten_append, List.flatten_append, ih]

def lastBlock (size : Nat) (records : List α) : Nat := (records.length - 1) / size

/-- The records of the last block, which may not be full. -/
def latest (size : Nat) (records : List α) : List α :=
  records.drop (lastBlock size records * size)

def earlier (size : Nat) (records : List α) : List α :=
  (records.drop ((lastBlock size records - 1) * size)).take size

def latestInSecond (size : Nat) (records : List α) : Bool := lastBlock size records % 2 = 1

theorem lastBlock_concat (size : Nat) (records : List α) (r : α) :
    lastBlock size (records ++ [r]) = records.length / size := by
  simp [lastBlock]

/-- The next record goes on with the last block, or that block is full and the next one begins. -/
theorem lastBlock_cases (size : Nat) {records : List α} (hne : records ≠ []) :
    (records.length % size ≠ 0 ∧ records.length / size = lastBlock size records) ∨
    (records.length % size = 0 ∧ records.length / size = lastBlock size records + 1 ∧
      records.length = (lastBlock size records + 1) * size) := by
  obtain ⟨m, hm⟩ : ∃ m, records.length = m + 1 :=
    ⟨records.length - 1, by have := List.length_pos_iff.2 hne; omega⟩
  have hsucc : records.length / size =
      lastBlock size records + if size ∣ records.length then 1 else 0 := by
    rw [lastBlock, hm, Nat.succ_div, Nat.add_sub_cancel]
  by_cases hdvd : size ∣ records.length
  · rw [if_pos hdvd] at hsucc
    have hmod : records.length % size = 0 := Nat.mod_eq_zero_of_dvd hdvd
    refine .inr ⟨hmod, hsucc, ?_⟩
    rw [← hsucc]
    exact (Nat.div_mul_cancel hdvd).symm
  · rw [if_neg hdvd] at hsucc
    exact .inl ⟨fun h => hdvd (Nat.dvd_of_mod_eq_zero h), hsucc⟩

theorem lastBlock_mul_lt (size : Nat) {records : List α} (hne : records ≠ []) :
    lastBlock size records * size < records.length := by
  have hpos := List.length_pos_iff.2 hne
  have hle := Nat.div_mul_le_self (records.length - 1) size
  rw [lastBlock]
  omega

theorem pred_block_mul {block : Nat} (h : block ≠ 0) (size : Nat) :
    (block - 1) * size + size = block * size := by
  rw [← Nat.succ_mul, Nat.succ_eq_add_one, Nat.sub_add_cancel (by omega)]

theorem held_written (size : Nat) (start : Bool → List α) {records : List α}
    (hne : records ≠ []) :
    held size (latestInSecond size records) (start (latestInSecond size records))
        (records.map some) = latest size records ∧
    held size (!latestInSecond size records) (start (!latestInSecond size records))
        (records.map some) =
      if lastBlock size records = 0 then start (!latestInSecond size records)
      else earlier size records := by
  induction records using List.reverseRecOn with
  | nil => exact absurd rfl hne
  | append_singleton records r ih =>
    have hsecond : latestInSecond size (records ++ [r]) = inSecond size records.length := by
      simp only [latestInSecond, lastBlock_concat, inSecond]
    have hlog : (records ++ [r]).map some = records.map some ++ [some r] := by simp
    rw [hlog, held_concat, held_concat, List.length_map, hsecond]
    simp only [turn, latest, earlier, lastBlock_concat]
    by_cases hnil : records = []
    · subst hnil
      simp [inSecond]
    obtain ⟨hlatest, hearlier⟩ := ih hnil
    have hfull := lastBlock_mul_lt size hnil
    rcases lastBlock_cases size hnil with ⟨hmod, hdiv⟩ | ⟨hmod, hdiv, hlen⟩
    · -- the block goes on
      have hsame : inSecond size records.length = latestInSecond size records := by
        simp only [inSecond, hdiv, latestInSecond]
      rw [hsame, hdiv, hlatest, hearlier]
      constructor
      · rw [if_neg (by simp), if_neg hmod, latest, List.drop_append_of_le_length hfull.le]
      · rw [if_pos (by simp)]
        by_cases hfirst : lastBlock size records = 0
        · rw [if_pos hfirst, if_pos hfirst]
        · rw [if_neg hfirst, if_neg hfirst, earlier]
          have hblock := pred_block_mul hfirst size
          rw [List.drop_append_of_le_length (by omega),
            List.take_append_of_le_length (by rw [List.length_drop]; omega)]
    · -- a new block begins in the other file
      have hother : inSecond size records.length = !latestInSecond size records := by
        simp only [inSecond, hdiv, latestInSecond]
        rcases Nat.mod_two_eq_zero_or_one (lastBlock size records) with h | h <;>
          simp [Nat.add_mod, h]
      rw [hother, hdiv, Bool.not_not, hlatest, ← hlen]
      constructor
      · rw [if_neg (by simp), if_pos hmod, List.drop_left]
      · have hsize : (lastBlock size records + 1) * size = lastBlock size records * size + size :=
          Nat.succ_mul _ _
        have hdrop : (records.drop (lastBlock size records * size)).length = size := by
          rw [List.length_drop]
          omega
        rw [if_pos (by simp), if_neg (by omega), Nat.add_sub_cancel,
          List.drop_append_of_le_length hfull.le, List.take_left' hdrop, latest]

/-- The two blocks together are the latest records, in order. -/
theorem earlier_append_latest {size : Nat} {records : List α}
    (hblock : lastBlock size records ≠ 0) :
    earlier size records ++ latest size records =
      records.drop ((lastBlock size records - 1) * size) := by
  rw [earlier, latest, ← pred_block_mul hblock, ← List.drop_drop, List.take_append_drop]

theorem length_le_of_lastBlock {size : Nat} (hsize : 0 < size) {records : List α}
    (hne : records ≠ []) : records.length ≤ lastBlock size records * size + size := by
  have hlt := Nat.lt_div_mul_add hsize (a := records.length - 1)
  have hpos := List.length_pos_iff.2 hne
  rw [lastBlock]
  omega

def written (log : List (Option α)) (i : Nat) : Bool := (log[i]?.join).isSome

def numbered (log : List (Option α)) : List (Option (Nat × α)) :=
  log.zipIdx.map fun x => x.1.map fun record => (x.2, record)

theorem numbered_concat (log : List (Option α)) (record : Option α) :
    numbered (log ++ [record]) =
      numbered log ++ [record.map fun record => (log.length, record)] := by
  simp [numbered, List.zipIdx_append]

@[simp] theorem length_numbered (log : List (Option α)) : (numbered log).length = log.length := by
  simp [numbered]

theorem numbered_map_snd (log : List (Option α)) :
    (numbered log).map (Option.map Prod.snd) = log := by
  induction log using List.reverseRecOn with
  | nil => rfl
  | append_singleton log record ih =>
    rw [numbered_concat, List.map_append, ih]
    cases record <;> rfl

/-- The records in a file with their numbers. -/
def records (size : Nat) (second : Bool) (log : List (Option α)) : List (Nat × α) :=
  held size second [] (numbered log)

theorem records_concat (size : Nat) (second : Bool) (log : List (Option α)) (record : Option α) :
    records size second (log ++ [record]) =
      turn size second log.length (record.map fun record => (log.length, record))
        (records size second log) := by
  rw [records, numbered_concat, held_concat, length_numbered, records]

theorem getElem?_concat_eq_some {log : List (Option α)} {last record : Option α} {i : Nat} :
    (log ++ [last])[i]? = some record ↔
      log[i]? = some record ∨ i = log.length ∧ last = record := by
  rcases Nat.lt_trichotomy i log.length with h | h | h
  · rw [List.getElem?_append_left h]
    simp [h.ne]
  · subst h
    simp
  · rw [List.getElem?_eq_none (by simp; omega), List.getElem?_eq_none h.le]
    simp [h.ne']

theorem written_concat (log : List (Option α)) (last : Option α) (i : Nat) :
    written (log ++ [last]) i = if i = log.length then last.isSome else written log i := by
  unfold written
  rcases Nat.lt_trichotomy i log.length with h | h | h
  · rw [List.getElem?_append_left h, if_neg h.ne]
  · subst h
    simp
  · rw [List.getElem?_eq_none (by simp; omega), List.getElem?_eq_none h.le, if_neg h.ne']

theorem written_of_length_le (log : List (Option α)) {i : Nat} (h : log.length ≤ i) :
    written log i = false := by
  rw [written, List.getElem?_eq_none h]
  rfl

/-- A record is in a file unless it was not written, or a block was begun in that file later. -/
theorem mem_records {size : Nat} {second : Bool} {log : List (Option α)} {x : Nat × α} :
    x ∈ records size second log ↔
      log[x.1]? = some (some x.2) ∧ inSecond size x.1 = second ∧
      ∀ s, x.1 < s → s % size = 0 → inSecond size s = second → written log s = false := by
  induction log using List.reverseRecOn with
  | nil => simp [records, numbered]
  | append_singleton log last ih =>
    have hlength := written_of_length_le log le_rfl
    have hnone : log[log.length]? = none := List.getElem?_eq_none le_rfl
    rw [records_concat, getElem?_concat_eq_some]
    simp only [written_concat]
    cases last with
    | none =>
      simp only [Option.map_none, turn, ih]
      grind
    | some record =>
      simp only [Option.map_some, turn]
      split_ifs with hother hstarts
      · rw [ih]
        grind
      · rw [List.mem_singleton]
        constructor
        · rintro rfl
          refine ⟨.inr ⟨rfl, rfl⟩, by simpa using hother, fun s hs _ _ => ?_⟩
          rw [if_neg hs.ne', written_of_length_le log hs.le]
        · rintro ⟨hx | ⟨hx, hrecord⟩, hsecond, hlater⟩
          · have hlt := (List.getElem?_eq_some_iff.1 hx).1
            have hstart := hlater log.length hlt hstarts (by simpa using hother)
            simp at hstart
          · grind
      · rw [List.mem_append, ih, List.mem_singleton]
        constructor
        · rintro (⟨hx, hsecond, hlater⟩ | rfl)
          · grind
          · refine ⟨.inr ⟨rfl, rfl⟩, by simpa using hother, fun s hs _ _ => ?_⟩
            rw [if_neg hs.ne', written_of_length_le log hs.le]
        · grind

theorem records_sorted (size : Nat) (second : Bool) (log : List (Option α)) :
    (records size second log).Pairwise (fun a b => a.1 < b.1) := by
  induction log using List.reverseRecOn with
  | nil => simp [records, numbered]
  | append_singleton log last ih =>
    rw [records_concat]
    cases last with
    | none => exact ih
    | some record =>
      simp only [Option.map_some, turn]
      split_ifs
      · exact ih
      · exact List.pairwise_singleton _ _
      · rw [List.pairwise_append]
        refine ⟨ih, List.pairwise_singleton _ _, fun a ha b hb => ?_⟩
        rw [List.mem_singleton.1 hb]
        exact (List.getElem?_eq_some_iff.1 (mem_records.1 ha).1).1

/-- A file with records of one block only, which are not more than a block has room for. -/
structure OneBlock (size : Nat) (records : List (Nat × α)) : Prop where
  length_le : records.length ≤ size
  same : ∀ a ∈ records, ∀ b ∈ records, a.1 / size = b.1 / size

theorem oneBlock_of_same {size : Nat} (hsize : 0 < size) {second : Bool} {log : List (Option α)}
    (same : ∀ a ∈ records size second log, ∀ b ∈ records size second log,
      a.1 / size = b.1 / size) : OneBlock size (records size second log) := by
  refine ⟨?_, same⟩
  cases hrecords : records size second log with
  | nil => simp
  | cons first rest =>
    rw [← hrecords]
    have hfirst : first ∈ records size second log := by simp [hrecords]
    have hnodup : ((records size second log).map Prod.fst).Nodup :=
      List.Pairwise.map _ (fun a b h => h.ne) (records_sorted size second log)
    have hrange : (records size second log).map Prod.fst ⊆
        List.range' (first.1 / size * size) size := by
      intro i hi
      obtain ⟨a, ha, rfl⟩ := List.mem_map.1 hi
      have hblock := same first hfirst a ha
      have hle := Nat.div_mul_le_self a.1 size
      have hlt := Nat.lt_div_mul_add hsize (a := a.1)
      rw [List.mem_range'_1, hblock]
      omega
    simpa using (List.subperm_of_subset hnodup hrange).length_le

/-- No block joins an older one in its file: if any of it is written, then so is its first
breadcrumb, unless nothing was written to that file before. -/
def Separated (size : Nat) (log : List (Option α)) : Prop :=
  ∀ i, written log i = true → written log (i / size * size) = true ∨
    ∀ e, e < i / size * size → inSecond size e = inSecond size i → written log e = false

theorem written_take (log : List (Option α)) (m i : Nat) :
    written (log.take m) i = (decide (i < m) && written log i) := by
  unfold written
  rw [List.getElem?_take]
  split_ifs with h <;> simp [h]

theorem exists_of_written {log : List (Option α)} {i : Nat} (h : written log i = true) :
    ∃ record, log[i]? = some (some record) := by
  unfold written at h
  cases hi : log[i]? with
  | none => simp [hi] at h
  | some record =>
    cases record with
    | none => simp [hi] at h
    | some record => exact ⟨record, rfl⟩

theorem written_of_getElem? {log : List (Option α)} {i : Nat} {record : α}
    (h : log[i]? = some (some record)) : written log i = true := by
  simp [written, h]

theorem inSecond_block {size : Nat} (hsize : 0 < size) (i : Nat) :
    inSecond size (i / size * size) = inSecond size i := by
  rw [inSecond, inSecond, Nat.mul_div_cancel _ hsize]

theorem block_eq_of_separated {size : Nat} (hsize : 0 < size) {second : Bool}
    {log : List (Option α)} (h : Separated size log) {a b : Nat × α}
    (ha : a ∈ records size second log) (hb : b ∈ records size second log)
    (hle : a.1 / size ≤ b.1 / size) : a.1 / size = b.1 / size := by
  by_contra hne
  obtain ⟨ha', hasecond, hlater⟩ := mem_records.1 ha
  obtain ⟨hb', hbsecond, -⟩ := mem_records.1 hb
  have hlt : a.1 < b.1 / size * size :=
    (Nat.div_lt_iff_lt_mul hsize).1 (Nat.lt_of_le_of_ne hle hne)
  rcases h b.1 (written_of_getElem? hb') with hstart | hnone
  · have hgone := hlater _ hlt (Nat.mul_mod_left _ _) ((inSecond_block hsize _).trans hbsecond)
    rw [hgone] at hstart
    cases hstart
  · have hgone := hnone _ hlt (hasecond.trans hbsecond.symm)
    rw [written_of_getElem? ha'] at hgone
    cases hgone

theorem Separated.take {size : Nat} {log : List (Option α)} (h : Separated size log) (m : Nat) :
    Separated size (log.take m) := by
  intro i hi
  rw [written_take, Bool.and_eq_true, decide_eq_true_eq] at hi
  have hstart : i / size * size ≤ i := Nat.div_mul_le_self i size
  rcases h i hi.2 with hwritten | hnone
  · left
    rw [written_take, hwritten, decide_eq_true (by omega)]
    rfl
  · right
    intro e he hsecond
    rw [written_take, hnone e he hsecond, Bool.and_false]

theorem exists_last (P : Nat → Prop) {e n : Nat} (he : e < n) (h : P e) :
    ∃ last, last < n ∧ P last ∧ ∀ m, last < m → m < n → ¬P m := by
  classical
  refine ⟨Nat.findGreatest P (n - 1), ?_, Nat.findGreatest_spec (by omega) h, fun m hm hlt => ?_⟩
  · have hle := Nat.findGreatest_le (P := P) (n - 1)
    omega
  · exact Nat.findGreatest_is_greatest hm (by omega)

/-- Each file has records of one block only at all times, if and only if no block joins an older
one. -/
theorem oneBlock_iff {size : Nat} (hsize : 0 < size) (log : List (Option α)) :
    (∀ m second, OneBlock size (records size second (log.take m))) ↔ Separated size log := by
  constructor
  · intro hone i hi
    by_contra hmixed
    rw [not_or, Bool.not_eq_true] at hmixed
    obtain ⟨hstart, hold⟩ := hmixed
    push Not at hold
    obtain ⟨e, he, hsecond, hwritten⟩ := hold
    obtain ⟨last, hlt, ⟨hlast, hkept⟩, hmax⟩ := exists_last
      (fun n => inSecond size n = inSecond size i ∧ written log n = true) he
      ⟨hsecond, by simpa using hwritten⟩
    have hle : i / size * size ≤ i := Nat.div_mul_le_self i size
    obtain ⟨r, hr⟩ := exists_of_written hkept
    obtain ⟨q, hq⟩ := exists_of_written hi
    -- right after breadcrumb `i` the file has its record and the last one from before its block
    have hmem : (last, r) ∈ records size (inSecond size i) (log.take (i + 1)) := by
      refine mem_records.2 ⟨by rw [List.getElem?_take_of_lt (by omega), hr], hlast, ?_⟩
      intro s hs hstarts hparity
      rw [written_take]
      by_cases hin : s < i + 1
      · rw [decide_eq_true hin, Bool.true_and]
        by_cases hbefore : s < i / size * size
        · simpa [hparity] using hmax s hs hbefore
        · have hsame : s = i / size * size := by
            have hend := Nat.lt_div_mul_add hsize (a := i)
            rw [← Nat.succ_mul, Nat.succ_eq_add_one] at hend
            have hblock : s / size = i / size :=
              Nat.div_eq_of_lt_le (by omega) (by omega)
            rw [← hblock, Nat.div_mul_cancel (Nat.dvd_of_mod_eq_zero hstarts)]
          rw [hsame]
          exact hstart
      · rw [decide_eq_false hin, Bool.false_and]
    have hmem' : (i, q) ∈ records size (inSecond size i) (log.take (i + 1)) := by
      refine mem_records.2 ⟨by rw [List.getElem?_take_of_lt (by omega), hq], rfl, ?_⟩
      intro s hs _ _
      rw [written_take, decide_eq_false (by omega), Bool.false_and]
    have hsame : last / size = i / size := (hone (i + 1) _).same _ hmem _ hmem'
    have hback := Nat.div_mul_le_self last size
    rw [hsame] at hback
    omega
  · intro h m second
    refine oneBlock_of_same hsize fun a ha b hb => ?_
    rcases Nat.le_total (a.1 / size) (b.1 / size) with hle | hle
    · exact block_eq_of_separated hsize (h.take m) ha hb hle
    · exact (block_eq_of_separated hsize (h.take m) hb ha hle).symm

end CrashCapture.RunFiles
