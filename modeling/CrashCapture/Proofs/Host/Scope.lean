import CrashCapture.Proofs.Host.Delivery
import CrashCapture.Proofs.Json.Members
import Mathlib.Data.List.Induction

namespace CrashCapture

namespace Json

/-- Changes the member of a value that is found by its name. One that is missing is null at first, and
null becomes an object. Nothing else has members: there is no result if the program would panic. -/
def changeAt (key : String) (change : Json → Option Json) : Json → Option Json
  | .null => (change .null).map fun v => .obj [(key, v)]
  | .obj ms =>
    (change ((Members.get? key ms).getD .null)).map fun v => .obj (Members.insert key v ms)
  | _ => none

end Json

namespace DirectoryHost

def mergeMembers (scope : Members Json) (mode : ScopeMode) (event : Members Json) : Members Json :=
  scope.foldl (fun ms m => if mode.excludes m.1 then ms else ms.insertNew m.1 m.2) event

theorem mergeMembers_cons (m : String × Json) (scope : Members Json) (mode : ScopeMode)
    (event : Members Json) : mergeMembers (m :: scope) mode event =
      mergeMembers scope mode (if mode.excludes m.1 then event else event.insertNew m.1 m.2) := rfl

theorem merge_members (scope : Members Json) (mode : ScopeMode) (event : Members Json) :
    merge scope mode (.obj event) = .obj (mergeMembers scope mode event) := rfl

theorem merge_other {event : Json} (h : ∀ ms, event ≠ .obj ms) (scope : Members Json)
    (mode : ScopeMode) : merge scope mode event = event := by
  cases event with
  | obj ms => exact absurd rfl (h ms)
  | _ => rfl

/-- What the event has stays, and the rest is from the scope. -/
theorem get?_mergeMembers (scope : Members Json) (mode : ScopeMode) (event : Members Json)
    (key : String) : (mergeMembers scope mode event).get? key =
      (event.get? key).or (if mode.excludes key then none else scope.get? key) := by
  induction scope generalizing event with
  | nil => simp [mergeMembers, Members.get?]
  | cons m scope ih =>
    obtain ⟨k, v⟩ := m
    rw [mergeMembers_cons, ih, Members.get?]
    by_cases hexcluded : mode.excludes k
    · rw [if_pos hexcluded]
      by_cases hkey : k = key
      · rw [← hkey, if_pos hexcluded, if_pos hexcluded]
      · rw [if_neg hkey]
    · rw [if_neg hexcluded, Members.get?_insertNew]
      by_cases hkey : k = key
      · subst hkey
        rw [if_neg hexcluded, if_pos rfl, if_neg hexcluded, if_pos rfl, Option.or_assoc,
          Option.some_or]
      · rw [if_neg (Ne.symm hkey), Option.or_none, if_neg hkey]

theorem ordered_mergeMembers (scope : Members Json) (mode : ScopeMode) {event : Members Json}
    (h : event.Ordered) : (mergeMembers scope mode event).Ordered := by
  induction scope generalizing event with
  | nil => exact h
  | cons m scope ih =>
    rw [mergeMembers_cons]
    apply ih
    split
    · exact h
    · exact h.insertNew m.1 m.2

/-- Nothing is left to be added. -/
theorem mergeMembers_of_present {scope : Members Json} {mode : ScopeMode} {event : Members Json}
    (h : ∀ m ∈ scope, mode.excludes m.1 = false → (event.get? m.1).isSome) :
    mergeMembers scope mode event = event := by
  induction scope with
  | nil => rfl
  | cons m scope ih =>
    have hrest := ih fun m' hm' => h m' (List.mem_cons_of_mem _ hm')
    rw [mergeMembers_cons]
    by_cases hexcluded : mode.excludes m.1
    · rw [if_pos hexcluded, hrest]
    · obtain ⟨old, hold⟩ := Option.isSome_iff_exists.1
        (h m List.mem_cons_self (Bool.eq_false_iff.2 hexcluded))
      rw [if_neg hexcluded, Members.insertNew_of_some hold, hrest]

theorem isSome_get?_of_mem {α : Type} {ms : Members α} {m : String × α} (h : m ∈ ms) :
    (ms.get? m.1).isSome := by
  rw [Option.isSome_iff_ne_none, ne_eq, Members.get?_eq_none_iff]
  exact fun hnone => hnone m h rfl

theorem isSome_get?_mergeMembers {scope : Members Json} {mode : ScopeMode} {m : String × Json}
    (h : m ∈ scope) (included : mode.excludes m.1 = false) (event : Members Json) :
    ((mergeMembers scope mode event).get? m.1).isSome := by
  rw [get?_mergeMembers, included, if_neg Bool.false_ne_true, Option.isSome_or,
    isSome_get?_of_mem h, Bool.or_true]

theorem excludes_all (key : String) : ScopeMode.all.excludes key = false := by
  simp [ScopeMode.all, ScopeMode.excludes]

/-- What a merge with everything has added, no other one adds. -/
theorem merge_merge_all (scope : Members Json) (mode : ScopeMode) (event : Json) :
    merge scope mode (merge scope .all event) = merge scope .all event := by
  cases event with
  | obj ms =>
    rw [merge_members, merge_members]
    congr 1
    exact mergeMembers_of_present fun m hm _ => isSome_get?_mergeMembers hm (excludes_all m.1) ms
  | _ => rfl

theorem merge_idem (scope : Members Json) (mode : ScopeMode) (event : Json) :
    merge scope mode (merge scope mode event) = merge scope mode event := by
  cases event with
  | obj ms =>
    rw [merge_members, merge_members]
    congr 1
    exact mergeMembers_of_present fun m hm included => isSome_get?_mergeMembers hm included ms
  | _ => rfl

theorem merge_all_merge (scope : Members Json) (mode : ScopeMode) {event : Json}
    (h : ∀ ms, event = .obj ms → Members.Ordered ms) :
    merge scope .all (merge scope mode event) = merge scope .all event := by
  cases event with
  | obj ms =>
    have hordered := h ms rfl
    rw [merge_members, merge_members, merge_members]
    congr 1
    apply (ordered_mergeMembers _ _ (ordered_mergeMembers _ _ hordered)).ext
      (ordered_mergeMembers _ _ hordered)
    intro key
    rw [get?_mergeMembers, get?_mergeMembers, get?_mergeMembers, excludes_all,
      if_neg Bool.false_ne_true, Option.or_assoc]
    by_cases hexcluded : mode.excludes key
    · rw [if_pos hexcluded, Option.none_or]
    · rw [if_neg hexcluded, Option.or_self]
  | _ => rfl

/-- What the scope has at first. -/
def initialScope (user : String) : Json := .object [
  ("user", .object [("id", .str user)]), ("tags", .obj []), ("breadcrumbs", .arr []),
  ("modules", .object [])]

inductive Change
  | tag (key value : String)
  | breadcrumb (value : Json)

namespace Change

/-- The change of the scope in place, if that does not panic. -/
def inPlace : Change → Json → Option Json
  | tag key value => Json.changeAt "tags" (Json.changeAt key fun _ => some (.str value))
  | breadcrumb value => Json.changeAt "breadcrumbs" fun
    | .arr vs => some (.arr (vs ++ [value]))
    | v => some v

def apply : Change → DirectoryHost → DirectoryHost
  | tag key value => setTag key value
  | breadcrumb value => pushBreadcrumb value

def tag? (key : String) : Change → Option String
  | tag k v => if k = key then some v else none
  | breadcrumb _ => none

def breadcrumb? : Change → Option Json
  | tag _ _ => none
  | breadcrumb v => some v

end Change

/-- The value that a tag was set to last. -/
def lastTag (changes : List Change) (key : String) : Option String :=
  (changes.filterMap (Change.tag? key)).getLast?

def pushed (changes : List Change) : List Json := changes.filterMap Change.breadcrumb?

def changed (changes : List Change) (h : DirectoryHost) : DirectoryHost :=
  changes.foldl (fun h change => change.apply h) h

def tagMembers (h : DirectoryHost) : Members Json := h.tags.map fun m => (m.1, .str m.2)

theorem scope_eq (h : DirectoryHost) : h.scope = [
    ("breadcrumbs", .arr h.trail.reverse), ("modules", .obj []), ("tags", .obj h.tagMembers),
    ("user", .obj [("id", .str h.user)])] := rfl

theorem inPlace_scope (change : Change) (h : DirectoryHost) :
    change.inPlace (.obj h.scope) = some (.obj (change.apply h).scope) := by
  rw [scope_eq, scope_eq]
  cases change with
  | tag key value =>
    have htags : (setTag key value h).tagMembers = h.tagMembers.insert key (.str value) :=
      (Members.insert_map Json.str key value h.tags).symm
    rw [Change.apply, htags]
    rfl
  | breadcrumb value =>
    have htrail : (value :: h.trail).reverse = h.trail.reverse ++ [value] := List.reverse_cons
    rw [Change.apply, pushBreadcrumb, htrail]
    rfl

/-- No change of the scope panics, and each is in the state that is kept of it. -/
theorem inPlace_changed (changes : List Change) (h : DirectoryHost) :
    changes.foldlM (fun scope change => change.inPlace scope) (.obj h.scope) =
      some (.obj (changed changes h).scope) := by
  induction changes generalizing h with
  | nil => rfl
  | cons change changes ih =>
    rw [List.foldlM_cons, inPlace_scope]
    exact ih (change.apply h)

theorem changed_concat (changes : List Change) (change : Change) (h : DirectoryHost) :
    changed (changes ++ [change]) h = change.apply (changed changes h) := by
  simp [changed]

theorem lastTag_concat (changes : List Change) (change : Change) (key : String) :
    lastTag (changes ++ [change]) key = (change.tag? key).or (lastTag changes key) := by
  unfold lastTag
  rw [List.filterMap_append]
  cases hchange : change.tag? key with
  | none => simp [hchange]
  | some v => simp [hchange]

theorem pushed_concat (changes : List Change) (change : Change) :
    pushed (changes ++ [change]) = pushed changes ++ change.breadcrumb?.toList := by
  unfold pushed
  rw [List.filterMap_append]
  cases change <;> rfl

/-- What the changes have made of a client. -/
theorem changed_fields (changes : List Change) (h : DirectoryHost) :
    (changed changes h).user = h.user ∧
      (changed changes h).trail = (pushed changes).reverse ++ h.trail ∧
      ∀ key, (changed changes h).tags.get? key = (lastTag changes key).or (h.tags.get? key) := by
  induction changes using List.reverseRecOn with
  | nil => exact ⟨rfl, rfl, fun _ => rfl⟩
  | append_singleton changes change ih =>
    obtain ⟨huser, htrail, htags⟩ := ih
    rw [changed_concat, pushed_concat]
    cases change with
    | tag k v =>
      refine ⟨huser, ?_, fun key => ?_⟩
      · rw [Change.breadcrumb?, Option.toList_none, List.append_nil]
        exact htrail
      · rw [lastTag_concat]
        change (Members.insert k v (changed changes h).tags).get? key = _
        rw [Members.get?_insert, htags, Change.tag?]
        by_cases hkey : key = k
        · rw [if_pos hkey, if_pos hkey.symm, Option.some_or, Option.some_or]
        · rw [if_neg hkey, if_neg (Ne.symm hkey), Option.none_or]
    | breadcrumb v =>
      refine ⟨huser, ?_, fun key => ?_⟩
      · change v :: (changed changes h).trail = _
        rw [htrail, Change.breadcrumb?, Option.toList_some, List.reverse_append]
        rfl
      · rw [lastTag_concat]
        exact htags key

/-- The scope of a client after some changes. -/
structure Holds (changes : List Change) (user : String) (scope : Members Json) : Prop where
  user : scope.get? "user" = some (.obj [("id", .str user)])
  tags : ∃ tags, scope.get? "tags" = some (.obj tags) ∧ Members.Ordered tags ∧
    ∀ key, Members.get? key tags = (lastTag changes key).map .str
  breadcrumbs : scope.get? "breadcrumbs" = some (.arr (pushed changes))
  modules : scope.get? "modules" = some (.obj [])

/-- What applying a scope does to an event, and that it has no more to add when it is applied again. -/
structure Merges (s : Site DirectoryHost) : Prop where
  other : ∀ event mode, (∀ ms, event ≠ .obj ms) →
    (Host.applyScope event mode).run s = (event, s)
  members : ∀ event mode, ∃ merged,
    (Host.applyScope (.obj event) mode).run s = (.obj merged, s) ∧
      (Members.Ordered event → Members.Ordered merged) ∧
      ∀ key, Members.get? key merged = (Members.get? key event).or
        (if mode.excludes key then none else s.host.scope.get? key)
  again : ∀ event mode, (Host.applyScope event mode >>= (Host.applyScope · mode)).run s =
    (Host.applyScope event mode).run s
  completed : ∀ event, (∀ ms, event = .obj ms → Members.Ordered ms) →
    (Host.applyScope event .none >>= (Host.applyScope · .all)).run s =
      (Host.applyScope event .all).run s
  complete : ∀ event mode, (Host.applyScope event .all >>= (Host.applyScope · mode)).run s =
    (Host.applyScope event .all).run s

theorem merges (s : Site DirectoryHost) : Merges s := by
  have happly (event : Json) (mode : ScopeMode) :
      (Host.applyScope event mode).run s = (merge s.host.scope mode event, s) := rfl
  have hboth (event : Json) (mode mode' : ScopeMode) :
      (Host.applyScope event mode >>= (Host.applyScope · mode')).run s =
        (merge s.host.scope mode' (merge s.host.scope mode event), s) := rfl
  constructor
  case other =>
    intro event mode hother
    rw [happly, merge_other hother]
  case members =>
    intro event mode
    refine ⟨_, happly _ _, ordered_mergeMembers _ _, fun key => ?_⟩
    exact get?_mergeMembers s.host.scope mode event key
  case again =>
    intro event mode
    rw [hboth, happly, merge_idem]
  case completed =>
    intro event hordered
    rw [hboth, happly, merge_all_merge _ _ hordered]
  case complete =>
    intro event mode
    rw [hboth, happly, merge_merge_all]

theorem ordered_tags (changes : List Change) {h : DirectoryHost} (ordered : h.tags.Ordered) :
    (changed changes h).tags.Ordered := by
  induction changes generalizing h with
  | nil => exact ordered
  | cons change changes ih =>
    apply ih
    cases change with
    | tag key value => exact ordered.insert key value
    | breadcrumb value => exact ordered

theorem holds_changed (changes : List Change) (directory : Path) (options : Options) (pid : Nat) :
    Holds changes (toString pid) (changed changes (blank directory options pid)).scope := by
  obtain ⟨huser, htrail, htags⟩ := changed_fields changes (blank directory options pid)
  have hordered := ordered_tags changes (h := blank directory options pid) Members.ordered_nil
  generalize changed changes (blank directory options pid) = h at huser htrail htags hordered
  rw [scope_eq]
  constructor
  case user =>
    change some (Json.obj [("id", .str h.user)]) = _
    rw [huser]
    rfl
  case tags =>
    refine ⟨h.tagMembers, rfl, hordered.map Json.str, fun key => ?_⟩
    rw [tagMembers, Members.get?_map, htags]
    exact congrArg (Option.map Json.str) (Option.or_none ..)
  case breadcrumbs =>
    change some (Json.arr h.trail.reverse) = _
    rw [htrail, List.reverse_append, List.reverse_reverse]
    rfl
  case modules => rfl

variable {directory : Path} {options : Options} {env env₀ : Environment} {h : DirectoryHost}

/-- The changes of a scope never panic, and none is lost. Applied to an event, the scope adds what that
does not have. -/
theorem scope_merged (fresh : (new directory options).run env = (.ok h, env₀))
    (changes : List Change) (now : Environment) :
    let s : Site DirectoryHost := ⟨changed changes h, now⟩
    changes.foldlM (fun scope change => change.inPlace scope) (initialScope (toString env.pid)) =
        some (.obj s.host.scope) ∧
      Holds changes (toString env.pid) s.host.scope ∧ Merges s := by
  intro s
  have hblank : h = blank directory options env.pid := by
    rw [new_run] at fresh
    split at fresh
    · cases fresh
      rfl
    · cases fresh
  subst hblank
  have hscope : initialScope (toString env.pid) = .obj (blank directory options env.pid).scope := rfl
  refine ⟨?_, holds_changed changes directory options env.pid, merges s⟩
  rw [hscope]
  exact inPlace_changed changes _

/-- A tag that is set twice, and one with the name of a member of the scope. -/
def someChanges : List Change := [.tag "release" "1", .breadcrumb .null, .tag "tags" "2",
  .tag "release" "3", .breadcrumb (.str "end")]

theorem scope_merged_colliding :
    let s : Site DirectoryHost := ⟨changed someChanges (madeOver ⟨[], []⟩).host, .fresh ⟨[], []⟩⟩
    let event : Members Json := [("modules", .null), ("user", .str "nobody")]
    s.host.scope.get? "breadcrumbs" = some (.arr [.null, .str "end"]) ∧
      (Host.applyScope (.obj event) .none).run s = (.obj [
        ("modules", .null), ("tags", .obj [("release", .str "3"), ("tags", .str "2")]),
        ("user", .str "nobody")], s) ∧
      (Host.applyScope (.obj event) .none >>= (Host.applyScope · .all)).run s =
        (Host.applyScope (.obj event) .all).run s := by
  intro s event
  have hfresh := @new_rooted ⟨[], []⟩ (by decide +kernel)
  obtain ⟨-, holds, merges⟩ := scope_merged hfresh someChanges (.fresh ⟨[], []⟩)
  have hordered : event.Ordered := by decide
  refine ⟨holds.breadcrumbs, rfl, ?_⟩
  apply merges.completed (.obj event)
  intro ms hms
  cases hms
  exact hordered

end DirectoryHost

end CrashCapture
