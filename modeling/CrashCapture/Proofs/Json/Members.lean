import CrashCapture.Proofs.Json.RoundTrip
import Mathlib.Data.List.Induction
import Mathlib.Data.String.Basic

namespace CrashCapture.Members

variable {α β : Type} {ms other : Members α} {key name : String} {value : α}

theorem get?_eq_none_iff : ms.get? key = none ↔ ∀ m ∈ ms, m.1 ≠ key := by
  induction ms with
  | nil => simp [get?]
  | cons m rest ih =>
    obtain ⟨k, v⟩ := m
    by_cases hk : k = key
    · simp [get?, hk]
    · simp [get?, hk, ih]

theorem get?_of_before (h : ∀ m ∈ ms, key < m.1) : ms.get? key = none := by
  rw [get?_eq_none_iff]
  intro m hm heq
  exact String.lt_irrefl key (heq ▸ h m hm)

theorem get?_map (f : α → β) (ms : Members α) (key : String) :
    get? key (ms.map fun m => (m.1, f m.2)) = (ms.get? key).map f := by
  induction ms with
  | nil => rfl
  | cons m rest ih =>
    rw [List.map_cons, get?, get?, ih]
    split <;> rfl

theorem ordered_nil : Ordered ([] : Members α) := List.Pairwise.nil

theorem ordered_cons {m : String × α} :
    Ordered (m :: ms) ↔ (∀ m' ∈ ms, m.1 < m'.1) ∧ ms.Ordered := by
  simp [Ordered, List.pairwise_cons]

theorem Ordered.map (h : ms.Ordered) (f : α → β) : Ordered (ms.map fun m => (m.1, f m.2)) := by
  unfold Ordered at *
  rwa [List.map_map]

/-- Members in order are the same if the same is found under each name. -/
theorem Ordered.ext (h : ms.Ordered) (h' : other.Ordered)
    (same : ∀ key, ms.get? key = other.get? key) : ms = other := by
  induction ms generalizing other with
  | nil =>
    cases other with
    | nil => rfl
    | cons m rest =>
      have hfirst := same m.1
      simp [get?] at hfirst
  | cons m rest ih =>
    obtain ⟨k, v⟩ := m
    obtain ⟨hbefore, hrest⟩ := ordered_cons.1 h
    cases other with
    | nil =>
      have hfirst := same k
      simp [get?] at hfirst
    | cons m' rest' =>
      obtain ⟨k', v'⟩ := m'
      obtain ⟨hbefore', hrest'⟩ := ordered_cons.1 h'
      have hk : k = k' := by
        by_contra hne
        rcases lt_or_gt_of_ne hne with hlt | hgt
        · have hnone : get? k rest' = none :=
            get?_of_before fun m hm => lt_trans hlt (hbefore' m hm)
          have hfirst := same k
          simp [get?, Ne.symm hne, hnone] at hfirst
        · have hnone : get? k' rest = none :=
            get?_of_before fun m hm => lt_trans hgt (hbefore m hm)
          have hfirst := same k'
          simp [get?, hne, hnone] at hfirst
      subst hk
      have hv : v = v' := by simpa [get?] using same k
      subst hv
      have hsame : ∀ key, get? key rest = get? key rest' := by
        intro key
        by_cases hkey : k = key
        · subst hkey
          rw [get?_of_before hbefore, get?_of_before hbefore']
        · simpa [get?, hkey] using same key
      rw [ih hrest hrest' hsame]

theorem erase_sublist (key : String) (ms : Members α) : (ms.erase key).Sublist ms := by
  induction ms with
  | nil => exact .slnil
  | cons m rest ih =>
    rw [erase]
    split
    · exact .cons _ (.refl rest)
    · exact .cons_cons _ ih

theorem Ordered.erase (h : ms.Ordered) (key : String) : (ms.erase key).Ordered :=
  List.Pairwise.sublist ((erase_sublist key ms).map Prod.fst) h

theorem Ordered.get?_erase (h : ms.Ordered) (key name : String) :
    (ms.erase key).get? name = if name = key then none else ms.get? name := by
  induction ms with
  | nil => simp [Members.erase, get?]
  | cons m rest ih =>
    obtain ⟨k, v⟩ := m
    obtain ⟨hbefore, hrest⟩ := ordered_cons.1 h
    by_cases hk : k = key
    · subst hk
      rw [Members.erase, if_pos rfl, get?]
      by_cases hname : name = k
      · subst hname
        rw [if_pos rfl, get?_of_before hbefore]
      · rw [if_neg hname, if_neg (Ne.symm hname)]
    · rw [Members.erase, if_neg hk, get?, get?, ih hrest]
      by_cases hname : k = name
      · subst hname
        simp [hk]
      · simp [hname]

theorem get?_insert (key name : String) (value : α) (ms : Members α) :
    (ms.insert key value).get? name = if name = key then some value else ms.get? name := by
  by_cases hname : name = key
  · subst hname
    rw [if_pos rfl, get?_insert_self]
  · rw [if_neg hname, get?_insert_of_ne (Ne.symm hname)]

theorem mem_insert {m : String × α} (h : m ∈ ms.insert key value) : m = (key, value) ∨ m ∈ ms := by
  induction ms with
  | nil => simpa [insert] using h
  | cons m' rest ih =>
    obtain ⟨k, v⟩ := m'
    rw [insert] at h
    split_ifs at h
    · rcases List.mem_cons.1 h with h | h
      · exact .inl h
      · exact .inr (List.mem_cons_of_mem _ h)
    · rcases List.mem_cons.1 h with h | h
      · exact .inl h
      · exact .inr h
    · rcases List.mem_cons.1 h with h | h
      · exact .inr (h ▸ List.mem_cons_self)
      · exact (ih h).imp_right (List.mem_cons_of_mem _)

theorem Ordered.insert (h : ms.Ordered) (key : String) (value : α) : (ms.insert key value).Ordered := by
  induction ms with
  | nil => exact ordered_cons.2 ⟨nofun, ordered_nil⟩
  | cons m rest ih =>
    obtain ⟨k, v⟩ := m
    obtain ⟨hbefore, hrest⟩ := ordered_cons.1 h
    rw [Members.insert]
    split_ifs with hk hlt
    · subst hk
      exact ordered_cons.2 ⟨hbefore, hrest⟩
    · refine ordered_cons.2 ⟨fun m hm => ?_, h⟩
      rcases List.mem_cons.1 hm with rfl | hm
      · exact hlt
      · exact lt_trans hlt (hbefore m hm)
    · have hgt : k < key := lt_of_le_of_ne (le_of_not_gt hlt) hk
      refine ordered_cons.2 ⟨fun m hm => ?_, ih hrest⟩
      rcases mem_insert hm with rfl | hm
      · exact hgt
      · exact hbefore m hm

theorem insert_map (f : α → β) (key : String) (value : α) (ms : Members α) :
    insert key (f value) (ms.map fun m => (m.1, f m.2)) =
      (ms.insert key value).map fun m => (m.1, f m.2) := by
  induction ms with
  | nil => rfl
  | cons m rest ih =>
    rw [List.map_cons, insert, insert, ih]
    split
    · rfl
    · split <;> rfl

/-- What is there stays, and anything else is added. -/
theorem get?_insertNew (key name : String) (value : α) (ms : Members α) :
    (ms.insertNew key value).get? name =
      (ms.get? name).or (if name = key then some value else none) := by
  unfold insertNew
  cases hkey : ms.get? key with
  | some old =>
    dsimp only
    by_cases hname : name = key
    · subst hname
      rw [hkey, Option.some_or]
    · rw [if_neg hname, Option.or_none]
  | none =>
    dsimp only
    rw [get?_insert]
    by_cases hname : name = key
    · subst hname
      rw [hkey, if_pos rfl, Option.none_or]
    · rw [if_neg hname, if_neg hname, Option.or_none]

theorem Ordered.insertNew (h : ms.Ordered) (key : String) (value : α) :
    (ms.insertNew key value).Ordered := by
  unfold Members.insertNew
  split
  · exact h
  · exact h.insert key value

theorem insertNew_of_some {old : α} (h : ms.get? key = some old) (value : α) :
    ms.insertNew key value = ms := by
  rw [insertNew, h]

theorem ofList_concat (pairs : List (String × α)) (key : String) (value : α) :
    ofList (pairs ++ [(key, value)]) = (ofList pairs).insert key value := by
  rw [ofList, List.foldl_append]
  rfl

theorem ordered_ofList (pairs : List (String × α)) : (ofList pairs).Ordered := by
  induction pairs using List.reverseRecOn with
  | nil => exact ordered_nil
  | append_singleton pairs pair ih =>
    obtain ⟨key, value⟩ := pair
    rw [ofList_concat]
    exact ih.insert key value

theorem mem_of_mem_ofList {pairs : List (String × α)} {m : String × α} (h : m ∈ ofList pairs) :
    m ∈ pairs := by
  induction pairs using List.reverseRecOn with
  | nil => cases h
  | append_singleton pairs pair ih =>
    obtain ⟨key, value⟩ := pair
    rw [ofList_concat] at h
    rcases mem_insert h with rfl | h
    · exact List.mem_append_right _ List.mem_cons_self
    · exact List.mem_append_left _ (ih h)

/-- Of members with one name in a list the last one counts. -/
theorem get?_ofList_concat (pairs : List (String × α)) (key name : String) (value : α) :
    (ofList (pairs ++ [(key, value)])).get? name =
      if name = key then some value else (ofList pairs).get? name := by
  rw [ofList_concat, get?_insert]

end CrashCapture.Members

namespace CrashCapture.Json

/-- Of members in any order an object is made that can be written, if their values can. -/
theorem exact_object {depth : Nat} {pairs : List (String × Json)}
    (h : ∀ pair ∈ pairs, Exact depth pair.2) : Exact (depth + 1) (object pairs) := by
  apply Exact.obj (Members.ordered_ofList pairs)
  intro pair hpair
  exact h pair (Members.mem_of_mem_ofList hpair)

end CrashCapture.Json
