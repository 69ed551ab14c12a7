import CrashCapture.Emergency.SystemHeap
import CrashCapture.Proofs.Emergency.Blocks
import Mathlib.Data.List.Induction

namespace CrashCapture

namespace Pool

/-- A pool that is not mapped yet, or one that is in use up to some offset. -/
inductive Regular : Pool → Prop
  | unmapped : Regular .empty
  | mapped {base offset : Nat} (within : offset ≤ size) : Regular (mappedAt base offset)

/-- The addresses that may have been handed out. -/
def used (p : Pool) : Set Nat :=
  {i | ∃ mapping ∈ p.mapping, mapping.base ≤ i ∧ i < mapping.base + p.offset}

theorem used_empty : empty.used = ∅ := by
  simp [used, empty]

theorem used_mappedAt (base offset : Nat) :
    (mappedAt base offset).used = Set.Ico base (base + offset) := by
  ext i
  simp [used, mappedAt]

variable {p : Pool}

theorem Regular.contains_of_used (h : p.Regular) {i : Nat} (hi : i ∈ p.used) :
    p.contains i = true := by
  cases h with
  | unmapped => simp [used_empty] at hi
  | mapped within =>
    rw [used_mappedAt, Set.mem_Ico] at hi
    simp only [contains, mappedAt, Option.map_some, Option.getD_some, Mapping.contains,
      Bool.and_eq_true, decide_eq_true_eq]
    omega

theorem reserve_cases (h : p.Regular) (m : Memory) :
    (p.reserve m).1 = p ∨ p = .empty ∧ ∃ base, (p.reserve m).1 = mappedAt base 0 := by
  cases h with
  | mapped => exact .inl rfl
  | unmapped =>
    cases hmap : m.map size with
    | none =>
      left
      simp [reserve, empty, hmap]
    | some made =>
      right
      exact ⟨rfl, m.next, by rw [reserve_empty hmap]⟩

theorem Regular.reserve (h : p.Regular) (m : Memory) : (p.reserve m).1.Regular := by
  rcases reserve_cases h m with hsame | ⟨-, base, hmapped⟩
  · rwa [hsame]
  · rw [hmapped]
    exact .mapped (Nat.zero_le size)

theorem used_reserve (h : p.Regular) (m : Memory) : (p.reserve m).1.used = p.used := by
  rcases reserve_cases h m with hsame | ⟨rfl, base, hmapped⟩
  · rw [hsame]
  · rw [hmapped, used_mappedAt, used_empty, Nat.add_zero, Set.Ico_self]

theorem mapping_reserve {mapping : Mapping} (m : Memory) (h : mapping ∈ p.mapping) :
    mapping ∈ (p.reserve m).1.mapping := by
  rw [Option.mem_def] at h
  simp [reserve, h]

theorem mapping_alloc {mapping : Mapping} (m : Memory) (l : Layout) (h : mapping ∈ p.mapping) :
    mapping ∈ (p.alloc m l).2.1.mapping := by
  rw [Option.mem_def] at h
  simp [alloc, reserve, h]

/-- The pool has answered a request: a block is of addresses that were not in use before. -/
structure Lent (l : Layout) (grant : Grant) (p p' : Pool) : Prop where
  regular : p'.Regular
  grows : p.used ⊆ p'.used
  answer : grant = .refused ∨ ∃ a, grant = .block a ∧ handedOut (l, grant) ⊆ p'.used
  apart : Disjoint p.used (handedOut (l, grant))

theorem Answered.lent {base offset after : Nat} {l : Layout} {grant : Grant}
    (h : Answered base offset l grant after) (hoffset : offset ≤ size) :
    Lent l grant (mappedAt base offset) (mappedAt base after) := by
  obtain ⟨hle, hsize⟩ := h.bounds hoffset
  refine ⟨.mapped hsize, ?_, ?_, ?_⟩
  · rw [used_mappedAt, used_mappedAt]
    exact Set.Ico_subset_Ico_right (by omega)
  · cases h with
    | refused => exact .inl rfl
    | @block a first fits =>
      have hstart := first.1.1
      refine .inr ⟨a, rfl, ?_⟩
      rw [used_mappedAt, handedOut]
      exact Set.Ico_subset_Ico (by omega) (by omega)
  · cases h with
    | refused => exact Set.disjoint_empty _
    | block first fits =>
      rw [used_mappedAt, handedOut, Set.disjoint_left]
      intro i hi hi'
      exact absurd (hi.2.trans_le (first.1.1.trans hi'.1)) (lt_irrefl i)

theorem Regular.lent (h : p.Regular) (m : Memory) {l : Layout} (hl : l.valid)
    (words : ∀ mapping ∈ (p.alloc m l).2.1.mapping, mapping.base + mapping.size ≤ 2 ^ 63) :
    Lent l (p.alloc m l).1 p (p.alloc m l).2.1 := by
  have hused := used_reserve h m
  have hregular := h.reserve m
  rcases hreserve : p.reserve m with ⟨p₁, m₁⟩
  rw [hreserve] at hused hregular
  cases hregular with
  | unmapped =>
    have hrefused : p.alloc m l = (.refused, .empty, m₁) := by simp [alloc, hreserve, empty]
    rw [hrefused]
    exact ⟨.unmapped, hused ▸ subset_rfl, .inl rfl, Set.disjoint_empty _⟩
  | @mapped base offset within =>
    have halloc : p.alloc m l = (mappedAt base offset).alloc m₁ l := by
      rw [alloc, hreserve]
      rfl
    rw [halloc, alloc_mappedAt] at words ⊢
    have hbase : base + size ≤ 2 ^ 63 := words ⟨base, size⟩ rfl
    have hlent := (answered_cut hbase within hl).lent within
    exact ⟨hlent.regular, hused ▸ hlent.grows, hlent.answer, hused ▸ hlent.apart⟩

end Pool

namespace Allocator

/-- What a client asks of an allocator. -/
inductive Request
  | alloc (l : Layout)
  | allocZeroed (l : Layout)
  | realloc (address : Nat) (l : Layout) (newSize : Nat)
  | dealloc (address : Nat) (l : Layout)
deriving DecidableEq

/-- A request with what came of it; there is no answer when a block is given back. -/
structure Call where
  request : Request
  answer : Option Grant
deriving DecidableEq

structure Block where
  address : Nat
  layout : Layout
deriving DecidableEq

def Block.span (b : Block) : Set Nat := Set.Ico b.address (b.address + b.layout.extent)

namespace Request

/-- The layout of the block that is asked for. -/
def asked? : Request → Option Layout
  | alloc l => some l
  | allocZeroed l => some l
  | realloc _ l newSize => some ⟨newSize, l.align⟩
  | dealloc _ _ => none

/-- The block that the request is about. -/
def named? : Request → Option Block
  | realloc address l _ => some ⟨address, l⟩
  | dealloc address l => some ⟨address, l⟩
  | _ => none

end Request

namespace Call

def block? (c : Call) : Option Block :=
  match c.request.asked?, c.answer with
  | some l, some (.block address) => some ⟨address, l⟩
  | _, _ => none

/-- The block that the client does not have any more. A block that could not be moved stays. -/
def released? (c : Call) : Option Block :=
  match c.request, c.answer with
  | .dealloc address l, _ => some ⟨address, l⟩
  | .realloc address l _, some (.block _) => some ⟨address, l⟩
  | _, _ => none

end Call

/-- The blocks that a client has. -/
def live (calls : List Call) : List Block :=
  calls.foldl (fun blocks c =>
    c.block?.toList ++ (c.released?.map blocks.erase).getD blocks) []

theorem live_concat (calls : List Call) (c : Call) :
    live (calls ++ [c]) =
      c.block?.toList ++ (c.released?.map (live calls).erase).getD (live calls) := by
  simp [live]

theorem exists_call_of_live {calls : List Call} {b : Block} (h : b ∈ live calls) :
    ∃ c ∈ calls, c.block? = some b := by
  induction calls using List.reverseRecOn with
  | nil => cases h
  | append_singleton calls c ih =>
    rw [live_concat, List.mem_append] at h
    rcases h with h | h
    · exact ⟨c, by simp, by simpa using h⟩
    · have hbefore : b ∈ live calls := by
        cases hreleased : c.released? with
        | none => simpa [hreleased] using h
        | some released =>
          rw [hreleased] at h
          exact List.mem_of_mem_erase h
      obtain ⟨c', hc', hblock⟩ := ih hbefore
      exact ⟨c', List.mem_append_left _ hc', hblock⟩

/-- What the contract of allocators lets a client ask that has these blocks. -/
structure Permitted (blocks : List Block) (r : Request) : Prop where
  valid : ∀ l ∈ r.asked?, l.valid
  owned : ∀ b ∈ r.named?, b ∈ blocks

variable {ι : Type}

/-- A block was cut off the pool, or refused, and at most its bytes were written. -/
structure Cut (l : Layout) (grant : Grant) (a a' : Allocator ι) : Prop where
  pool : a.emergency.pool.alloc a.memory l = (grant, a'.emergency.pool, a'.memory)
  enabled : a'.emergency.enabled = a.emergency.enabled
  inner : a'.heap.inner = a.heap.inner
  bytes : ∀ i, (∀ address, grant = .block address → i ∉ Block.span ⟨address, l⟩) →
    a'.heap.bytes i = a.heap.bytes i

theorem cut_fromPool (l : Layout) (a : Allocator ι) : Cut l (a.fromPool l).1 a (a.fromPool l).2 :=
  ⟨rfl, rfl, rfl, fun _ _ => rfl⟩

theorem Cut.copy {l : Layout} {target : Nat} {a a' : Allocator ι} (h : Cut l (.block target) a a')
    (source : Nat) {count : Nat} (hcount : count ≤ l.size) :
    Cut l (.block target) a { a' with heap :=
      { a'.heap with bytes := copyBytes source target count a'.heap.bytes } } := by
  refine ⟨h.pool, h.enabled, h.inner, fun i hi => ?_⟩
  have hout := hi target rfl
  have hextent : l.size ≤ l.extent := Nat.le_max_left l.size 1
  have hoff : ¬(target ≤ i ∧ i < target + count) := by
    intro hin
    exact hout ⟨hin.1, by simp only; omega⟩
  rw [← h.bytes i hi]
  simp only [copyBytes, Bool.and_eq_true, decide_eq_true_eq, if_neg hoff]

variable [InnerAllocator ι]

/-- The wrapped allocator's answer. -/
def ask (r : Request) (h : Heap ι) : Option Grant × Heap ι :=
  match r with
  | .alloc l => let (address, h) := InnerAllocator.alloc l h; (some (ofAnswer address), h)
  | .allocZeroed l => let (address, h) := InnerAllocator.allocZeroed l h; (some (ofAnswer address), h)
  | .realloc address l newSize =>
    let (address, h) := InnerAllocator.realloc address l newSize h
    (some (ofAnswer address), h)
  | .dealloc address l => (none, InnerAllocator.dealloc address l h)

def serve (r : Request) (a : Allocator ι) : Option Grant × Allocator ι :=
  match r with
  | .alloc l => let (grant, a) := a.alloc l; (some grant, a)
  | .allocZeroed l => let (grant, a) := a.allocZeroed l; (some grant, a)
  | .realloc address l newSize => let (grant, a) := a.realloc address l newSize; (some grant, a)
  | .dealloc address l => (none, a.dealloc address l)

/-- A request goes to the wrapped allocator. -/
structure Passed (a : Allocator ι) (r : Request) : Prop where
  calm : a.emergency.enabled = false
  outside : ∀ b ∈ r.named?, a.emergency.pool.contains b.address = false

theorem Passed.serve {a : Allocator ι} {r : Request} (h : Passed a r) :
    a.serve r = ((ask r a.heap).1, { a with heap := (ask r a.heap).2 }) := by
  obtain ⟨calm, outside⟩ := h
  cases r with
  | alloc l => simp [Allocator.serve, alloc, ask, calm]
  | allocZeroed l => simp [Allocator.serve, allocZeroed, ask, calm]
  | realloc address l newSize =>
    have hout := outside ⟨address, l⟩ rfl
    simp [Allocator.serve, realloc, ask, calm, hout]
  | dealloc address l =>
    have hout := outside ⟨address, l⟩ rfl
    simp [Allocator.serve, dealloc, ask, calm, hout]

theorem serve_cases (a : Allocator ι) (r : Request) :
    Passed a r ∨ r.asked? = none ∧ a.serve r = (none, a) ∨
      ∃ l grant a', r.asked? = some l ∧ a.serve r = (some grant, a') ∧ Cut l grant a a' := by
  cases r with
  | alloc l =>
    by_cases calm : a.emergency.enabled = false
    · exact .inl ⟨calm, nofun⟩
    · exact .inr (.inr ⟨l, _, _, rfl, by simp [serve, alloc, calm], cut_fromPool l a⟩)
  | allocZeroed l =>
    by_cases calm : a.emergency.enabled = false
    · exact .inl ⟨calm, nofun⟩
    · exact .inr (.inr ⟨l, _, _, rfl, by simp [serve, allocZeroed, calm], cut_fromPool l a⟩)
  | realloc address l newSize =>
    by_cases hroute : (!a.emergency.pool.contains address && !a.emergency.enabled) = true
    · left
      rw [Bool.and_eq_true, Bool.not_eq_true', Bool.not_eq_true'] at hroute
      exact ⟨hroute.2, by simp [Request.named?, hroute.1]⟩
    · right
      right
      have cut := cut_fromPool ⟨newSize, l.align⟩ a
      rcases htaken : a.fromPool ⟨newSize, l.align⟩ with ⟨grant, a'⟩
      rw [htaken] at cut
      cases grant with
      | block target =>
        exact ⟨_, _, _, rfl, by rw [serve, realloc, if_neg hroute, htaken],
          cut.copy address (Nat.min_le_right l.size newSize)⟩
      | refused => exact ⟨_, _, _, rfl, by rw [serve, realloc, if_neg hroute, htaken], cut⟩
      | overflow => exact ⟨_, _, _, rfl, by rw [serve, realloc, if_neg hroute, htaken], cut⟩
  | dealloc address l =>
    by_cases hkept : (a.emergency.pool.contains address || a.emergency.enabled) = true
    · exact .inr (.inl ⟨rfl, by rw [serve, dealloc, if_pos hkept]⟩)
    · left
      rw [Bool.or_eq_true, not_or, Bool.not_eq_true, Bool.not_eq_true] at hkept
      exact ⟨hkept.2, by simp [Request.named?, hkept.1]⟩

/-- An allocator with the calls that it got and how it answered them. -/
structure Watched (ι : Type) where
  inner : ι
  calls : List Call

namespace Watched

def bare (h : Heap (Watched ι)) : Heap ι := ⟨h.inner.inner, h.bytes⟩

def note (h : Heap (Watched ι)) (c : Call) (after : Heap ι) : Heap (Watched ι) :=
  ⟨⟨after.inner, h.inner.calls ++ [c]⟩, after.bytes⟩

instance : InnerAllocator (Watched ι) where
  alloc l h :=
    let (address, after) := InnerAllocator.alloc l (bare h)
    (address, note h ⟨.alloc l, some (ofAnswer address)⟩ after)
  allocZeroed l h :=
    let (address, after) := InnerAllocator.allocZeroed l (bare h)
    (address, note h ⟨.allocZeroed l, some (ofAnswer address)⟩ after)
  realloc old l newSize h :=
    let (address, after) := InnerAllocator.realloc old l newSize (bare h)
    (address, note h ⟨.realloc old l newSize, some (ofAnswer address)⟩ after)
  dealloc old l h := note h ⟨.dealloc old l, none⟩ (InnerAllocator.dealloc old l (bare h))

theorem ask_eq (r : Request) (h : Heap (Watched ι)) :
    ask r h = ((ask r (bare h)).1, note h ⟨r, (ask r (bare h)).1⟩ (ask r (bare h)).2) := by
  cases r <;> rfl

/-- The allocator around one that is not watched. -/
def forget (a : Allocator (Watched ι)) : Allocator ι := ⟨a.emergency, a.memory, bare a.heap⟩

/-- To watch it changes nothing. -/
theorem serve_forget (r : Request) (a : Allocator (Watched ι)) :
    (forget a).serve r = ((a.serve r).1, forget (a.serve r).2) := by
  have hpool : (forget a).emergency = a.emergency := rfl
  cases r with
  | alloc l =>
    simp only [serve, alloc, hpool]
    split <;> rfl
  | allocZeroed l =>
    simp only [serve, allocZeroed, hpool]
    split <;> rfl
  | realloc address l newSize =>
    simp only [serve, realloc, hpool]
    split
    · rfl
    · have htaken : (forget a).fromPool ⟨newSize, l.align⟩ =
          ((a.fromPool ⟨newSize, l.align⟩).1, forget (a.fromPool ⟨newSize, l.align⟩).2) := rfl
      rw [htaken]
      rcases a.fromPool ⟨newSize, l.align⟩ with ⟨grant, a'⟩
      cases grant <;> rfl
  | dealloc address l =>
    simp only [serve, dealloc, hpool]
    split <;> rfl

end Watched

/-- A process from its start, with the mode and with the calls of its client without and with the
emergency mode. Others may write to memory, map some, and use the wrapped allocator by themselves. -/
inductive Run (a₀ : Allocator (Watched ι)) :
    Bool → List Call → List Call → Allocator (Watched ι) → Prop
  | start : Run a₀ false [] [] a₀
  | reserve {on : Bool} {calm late : List Call} {a : Allocator (Watched ι)}
      (before : Run a₀ on calm late a) : Run a₀ on calm late a.reserve
  | enable {on : Bool} {calm late : List Call} {a : Allocator (Watched ι)}
      (before : Run a₀ on calm late a) : Run a₀ true calm late a.enable
  | calm {calm late : List Call} {a : Allocator (Watched ι)} (before : Run a₀ false calm late a)
      {r : Request} (permitted : Permitted (live (calm ++ late)) r) :
      Run a₀ false (calm ++ [⟨r, (a.serve r).1⟩]) late (a.serve r).2
  | late {calm late : List Call} {a : Allocator (Watched ι)} (before : Run a₀ true calm late a)
      {r : Request} (permitted : Permitted (live (calm ++ late)) r) :
      Run a₀ true calm (late ++ [⟨r, (a.serve r).1⟩]) (a.serve r).2
  | elsewhere {on : Bool} {calm late : List Call} {a : Allocator (Watched ι)}
      (before : Run a₀ on calm late a) (memory : Memory) (inner : ι) (bytes : Nat → UInt8) :
      Run a₀ on calm late { a with memory, heap := ⟨{ a.heap.inner with inner }, bytes⟩ }

/-- No block of the wrapped allocator has an address of the pool, and these fit in a signed word. -/
structure Apart (a : Allocator (Watched ι)) : Prop where
  blocks : ∀ c ∈ a.heap.inner.calls, ∀ b ∈ c.block?, ∀ i ∈ b.span,
    a.emergency.pool.contains i = false
  words : ∀ mapping ∈ a.emergency.pool.mapping, mapping.base + mapping.size ≤ 2 ^ 63

/-- No call is forgotten, and a pool that is mapped stays so. -/
structure Extends (a a' : Allocator (Watched ι)) : Prop where
  calls : a.heap.inner.calls ⊆ a'.heap.inner.calls
  mapping : ∀ mapping ∈ a.emergency.pool.mapping, mapping ∈ a'.emergency.pool.mapping

omit [InnerAllocator ι] in
theorem Apart.of_extends {a a' : Allocator (Watched ι)} (h : Apart a') (e : Extends a a') :
    Apart a := by
  refine ⟨fun c hc b hb i hi => ?_, fun mapping hm => h.words mapping (e.mapping mapping hm)⟩
  have hout := h.blocks c (e.calls hc) b hb i hi
  cases hmapping : a.emergency.pool.mapping with
  | none => simp [Pool.contains, hmapping]
  | some mapping =>
    have hkept : a'.emergency.pool.mapping = some mapping := e.mapping mapping hmapping
    rw [← hout]
    simp only [Pool.contains, hmapping, hkept]

theorem Extends.serve (a : Allocator (Watched ι)) (r : Request) : Extends a (a.serve r).2 := by
  rcases serve_cases a r with passed | ⟨-, hserve⟩ | ⟨l, grant, a', -, hserve, cut⟩
  · rw [passed.serve, Watched.ask_eq]
    exact ⟨List.subset_append_left _ _, fun _ hm => hm⟩
  · rw [hserve]
    exact ⟨List.Subset.refl _, fun _ hm => hm⟩
  · rw [hserve]
    refine ⟨by rw [cut.inner]; exact List.Subset.refl _, fun mapping hm => ?_⟩
    have hkept := Pool.mapping_alloc a.memory l hm
    rwa [cut.pool] at hkept

namespace Call

/-- The request was answered by a block of these addresses, or refused. -/
def ServedIn (s : Set Nat) (c : Call) : Prop :=
  match c.request.asked? with
  | none => c.answer = none
  | some l => c.answer = some .refused ∨
      ∃ address, c.answer = some (.block address) ∧ Block.span ⟨address, l⟩ ⊆ s

/-- No address was handed out for both. -/
def Separate (c d : Call) : Prop := ∀ b ∈ c.block?, ∀ b' ∈ d.block?, Disjoint b.span b'.span

theorem ServedIn.mono {s s' : Set Nat} {c : Call} (h : c.ServedIn s) (hs : s ⊆ s') :
    c.ServedIn s' := by
  unfold ServedIn at *
  split
  · next hasked =>
    rwa [hasked] at h
  · next l hasked =>
    rw [hasked] at h
    rcases h with hrefused | ⟨address, hblock, hspan⟩
    · exact .inl hrefused
    · exact .inr ⟨address, hblock, hspan.trans hs⟩

theorem ServedIn.span_subset {s : Set Nat} {c : Call} (h : c.ServedIn s) :
    ∀ b ∈ c.block?, b.span ⊆ s := by
  intro b hb
  unfold ServedIn at h
  unfold block? at hb
  split at h
  · next hasked => simp [hasked] at hb
  · next l hasked =>
    rw [hasked] at hb
    rcases h with hrefused | ⟨address, hblock, hspan⟩
    · simp [hrefused] at hb
    · rw [hblock] at hb
      cases hb
      exact hspan

end Call

/-- What a run keeps: which calls the wrapped allocator has seen, and where the blocks are. -/
structure Routed (on : Bool) (calm late : List Call) (a : Allocator (Watched ι)) : Prop where
  enabled : a.emergency.enabled = on
  calls : a.heap.inner.calls = calm
  early : on = false → late = []
  regular : a.emergency.pool.Regular
  named : ∀ c ∈ calm, ∀ b ∈ c.request.named?, ∃ c' ∈ calm, c'.block? = some b
  served : ∀ c ∈ late, c.ServedIn a.emergency.pool.used
  separate : late.Pairwise Call.Separate

namespace Routed

variable {a : Allocator (Watched ι)} {on : Bool} {calm late : List Call}

omit [InnerAllocator ι] in
theorem reserve (h : Routed on calm late a) : Routed on calm late a.reserve where
  enabled := h.enabled
  calls := h.calls
  early := h.early
  regular := h.regular.reserve a.memory
  named := h.named
  served := by
    intro c hc
    apply (h.served c hc).mono
    exact (Pool.used_reserve h.regular a.memory).ge
  separate := h.separate

omit [InnerAllocator ι] in
theorem enable (h : Routed on calm late a) : Routed true calm late a.enable where
  enabled := rfl
  calls := h.calls
  early := nofun
  regular := h.regular.reserve a.memory
  named := h.named
  served := h.reserve.served
  separate := h.separate

omit [InnerAllocator ι] in
/-- Without the emergency mode all requests are passed on: the client has no blocks but those of the
wrapped allocator. -/
theorem passed (h : Routed false calm late a) (apart : Apart a) {r : Request}
    (permitted : Permitted (live (calm ++ late)) r) : Passed a r := by
  refine ⟨h.enabled, fun b hb => ?_⟩
  have howned := permitted.owned b hb
  rw [h.early rfl, List.append_nil] at howned
  obtain ⟨c, hc, hblock⟩ := exists_call_of_live howned
  have hmem : b.address ∈ b.span := by
    have hextent : 0 < b.layout.extent := Nat.lt_of_lt_of_le Nat.one_pos (Nat.le_max_right _ 1)
    exact ⟨le_rfl, by omega⟩
  exact apart.blocks c (h.calls ▸ hc) b hblock b.address hmem

theorem serve_calm (h : Routed false calm late a) (apart : Apart a) {r : Request}
    (permitted : Permitted (live (calm ++ late)) r) :
    Routed false (calm ++ [⟨r, (a.serve r).1⟩]) late (a.serve r).2 := by
  have hpassed := h.passed apart permitted
  rw [hpassed.serve, Watched.ask_eq]
  refine ⟨h.enabled, congrArg (· ++ [_]) h.calls, h.early, h.regular, ?_, h.served, h.separate⟩
  intro c hc b hb
  rcases List.mem_append.1 hc with hc | hc
  · obtain ⟨c', hc', hblock⟩ := h.named c hc b hb
    exact ⟨c', List.mem_append_left _ hc', hblock⟩
  · obtain rfl := List.mem_singleton.1 hc
    have howned := permitted.owned b hb
    rw [h.early rfl, List.append_nil] at howned
    obtain ⟨c', hc', hblock⟩ := exists_call_of_live howned
    exact ⟨c', List.mem_append_left _ hc', hblock⟩

theorem serve_late (h : Routed true calm late a) {r : Request} (apart : Apart (a.serve r).2)
    (permitted : Permitted (live (calm ++ late)) r) :
    Routed true calm (late ++ [⟨r, (a.serve r).1⟩]) (a.serve r).2 := by
  rcases serve_cases a r with hpassed | ⟨hasked, hserve⟩ | ⟨l, grant, a', hasked, hserve, cut⟩
  · have hcalm := hpassed.calm
    rw [h.enabled] at hcalm
    cases hcalm
  · rw [hserve]
    have hnone : Call.block? ⟨r, none⟩ = none := by simp [Call.block?, hasked]
    refine ⟨h.enabled, h.calls, nofun, h.regular, h.named, ?_, ?_⟩
    · rw [List.forall_mem_append, List.forall_mem_singleton]
      exact ⟨h.served, by simp [Call.ServedIn, hasked]⟩
    · rw [List.pairwise_append]
      refine ⟨h.separate, List.pairwise_singleton _ _, fun c _ d hd b _ b' hb' => ?_⟩
      obtain rfl := List.mem_singleton.1 hd
      simp [hnone] at hb'
  · rw [hserve] at apart ⊢
    have lent : Pool.Lent l grant a.emergency.pool a'.emergency.pool := by
      have hlent := h.regular.lent a.memory (permitted.valid l hasked)
      rw [cut.pool] at hlent
      exact hlent apart.words
    refine ⟨cut.enabled.trans h.enabled, ?_, nofun, lent.regular, h.named, ?_, ?_⟩
    · rw [cut.inner, h.calls]
    · rw [List.forall_mem_append, List.forall_mem_singleton]
      refine ⟨fun c hc => (h.served c hc).mono lent.grows, ?_⟩
      simp only [Call.ServedIn, hasked]
      rcases lent.answer with rfl | ⟨address, rfl, hspan⟩
      · exact .inl rfl
      · exact .inr ⟨address, rfl, hspan⟩
    · rw [List.pairwise_append]
      refine ⟨h.separate, List.pairwise_singleton _ _, fun c hc d hd b hb b' hb' => ?_⟩
      obtain rfl := List.mem_singleton.1 hd
      have hold := (h.served c hc).span_subset b hb
      have hnew : b'.span = Pool.handedOut (l, grant) := by
        cases grant with
        | block address =>
          simp only [Call.block?, hasked, Option.mem_some_iff] at hb'
          rw [← hb']
          rfl
        | refused => simp [Call.block?, hasked] at hb'
        | overflow => simp [Call.block?, hasked] at hb'
      rw [hnew]
      exact lent.apart.mono_left hold

end Routed

theorem Run.routed {a₀ a : Allocator (Watched ι)} {on : Bool} {calm late : List Call}
    (fresh : a₀.emergency = .initial) (unused : a₀.heap.inner.calls = [])
    (run : Run a₀ on calm late a) (apart : Apart a) : Routed on calm late a := by
  induction run with
  | start =>
    refine ⟨by rw [fresh]; rfl, unused, fun _ => rfl, ?_, nofun, nofun, .nil⟩
    rw [fresh]
    exact .unmapped
  | @reserve on calm late a before ih =>
    refine (ih (apart.of_extends ⟨List.Subset.refl _, fun mapping hm => ?_⟩)).reserve
    exact Pool.mapping_reserve a.memory hm
  | @enable on calm late a before ih =>
    refine (ih (apart.of_extends ⟨List.Subset.refl _, fun mapping hm => ?_⟩)).enable
    exact Pool.mapping_reserve a.memory hm
  | calm before permitted ih =>
    have before := apart.of_extends (.serve _ _)
    exact (ih before).serve_calm before permitted
  | late before permitted ih => exact (ih (apart.of_extends (.serve _ _))).serve_late apart permitted
  | elsewhere before memory inner bytes ih =>
    have h := ih (apart.of_extends ⟨List.Subset.refl _, fun _ hm => hm⟩)
    exact ⟨h.enabled, h.calls, h.early, h.regular, h.named, h.served, h.separate⟩

/-- With the emergency mode on, a request writes at most to the block that it is given. -/
theorem serve_kept {a : Allocator ι} (enabled : a.emergency.enabled = true) (r : Request) :
    (a.serve r).2.heap.inner = a.heap.inner ∧
      ((a.serve r).1 = some .refused → (a.serve r).2.heap = a.heap) ∧
      ∀ i, (∀ b ∈ Call.block? ⟨r, (a.serve r).1⟩, i ∉ b.span) →
        (a.serve r).2.heap.bytes i = a.heap.bytes i := by
  rcases serve_cases a r with hpassed | ⟨-, hserve⟩ | ⟨l, grant, a', hasked, hserve, cut⟩
  · have hcalm := hpassed.calm
    rw [enabled] at hcalm
    cases hcalm
  · rw [hserve]
    exact ⟨rfl, fun _ => rfl, fun _ _ => rfl⟩
  · rw [hserve]
    refine ⟨cut.inner, fun hrefused => ?_, fun i hi => cut.bytes i fun address hblock => ?_⟩
    · obtain rfl : grant = .refused := Option.some.inj hrefused
      have hbytes : a'.heap.bytes = a.heap.bytes := funext fun i => cut.bytes i nofun
      show a'.heap = a.heap
      calc a'.heap = ⟨a'.heap.inner, a'.heap.bytes⟩ := rfl
        _ = ⟨a.heap.inner, a.heap.bytes⟩ := by rw [cut.inner, hbytes]
    · exact hi ⟨address, l⟩ (by simp [Call.block?, hasked, hblock])

/-- The wrapped allocator gets all requests before the emergency mode is on, and none from then on:
those are served from the pool, whose addresses it never sees. After that no address is handed out
again, wherever it is from, and a request that is refused changes nothing. -/
theorem requests_routed {a₀ a : Allocator (Watched ι)} {on : Bool} {calm late : List Call}
    (fresh : a₀.emergency = .initial) (unused : a₀.heap.inner.calls = [])
    (run : Run a₀ on calm late a) (apart : Apart a) :
    a.emergency.enabled = on ∧
    a.heap.inner.calls = calm ∧
    (∀ c ∈ late, c.ServedIn {i | a.emergency.pool.contains i = true}) ∧
    (∀ c ∈ a.heap.inner.calls, ∀ b ∈ c.request.named?, ∀ i ∈ b.span,
      a.emergency.pool.contains i = false) ∧
    late.Pairwise Call.Separate ∧ (∀ c ∈ calm, ∀ d ∈ late, c.Separate d) ∧
    (on = true → ∀ r : Request,
      (a.serve r).2.heap.inner = a.heap.inner ∧
      ((a.serve r).1 = some .refused → (a.serve r).2.heap = a.heap) ∧
      ∀ i, (∀ b ∈ Call.block? ⟨r, (a.serve r).1⟩, i ∉ b.span) →
        (a.serve r).2.heap.bytes i = a.heap.bytes i) := by
  have routed := run.routed fresh unused apart
  refine ⟨routed.enabled, routed.calls, fun c hc => ?_, fun c hc b hb i hi => ?_, routed.separate,
    fun c hc d hd b hb b' hb' => ?_, fun enabled r => ?_⟩
  · exact (routed.served c hc).mono fun i hi => routed.regular.contains_of_used hi
  · rw [routed.calls] at hc
    obtain ⟨c', hc', hblock⟩ := routed.named c hc b hb
    exact apart.blocks c' (routed.calls ▸ hc') b hblock i hi
  · -- a block of the wrapped allocator has no address of the pool
    rw [Set.disjoint_left]
    intro i hi hi'
    have hout := apart.blocks c (routed.calls ▸ hc) b hb i hi
    have hin := routed.regular.contains_of_used ((routed.served d hd).span_subset b' hb' hi')
    rw [hin] at hout
    cases hout
  · exact serve_kept (routed.enabled.trans enabled) r

def watchedSystem : Allocator (Watched SystemHeap) :=
  ⟨.initial, Pool.roomyMemory, ⟨⟨.initial, []⟩, fun _ => 0⟩⟩

def taken : Call := ⟨.alloc ⟨24, 8⟩, some (.block 0x550000000000)⟩

def moved : Call := ⟨.realloc 0x550000000000 ⟨24, 8⟩ 48, some (.block 0x7f0000000000)⟩

/-- The system after a block was taken from its allocator, and then moved in the emergency mode. -/
def movedSystem : Allocator (Watched SystemHeap) :=
  (serve moved.request (watchedSystem.serve taken.request).2.enable).2

theorem apart_movedSystem : Apart movedSystem := by
  have hcalls : movedSystem.heap.inner.calls = [taken] := rfl
  have hpool : movedSystem.emergency.pool.mapping = some ⟨0x7f0000000000, Pool.size⟩ := rfl
  constructor
  · intro c hc b hb i hi
    rw [hcalls, List.mem_singleton] at hc
    subst hc
    obtain rfl : Block.mk 0x550000000000 ⟨24, 8⟩ = b := Option.some.inj hb
    have hbelow : i < 0x550000000000 + 24 := hi.2
    simp only [Pool.contains, hpool, Option.map_some, Option.getD_some, Mapping.contains,
      Bool.and_eq_false_iff, decide_eq_false_iff_not]
    left
    omega
  · intro mapping hm
    rw [hpool] at hm
    obtain rfl := Option.some.inj hm
    decide

theorem requests_routed_moved :
    movedSystem.heap.inner.calls = [taken] ∧
      moved.ServedIn {i | movedSystem.emergency.pool.contains i = true} ∧ taken.Separate moved := by
  have run : Run watchedSystem true ([] ++ [taken]) ([] ++ [moved]) movedSystem := by
    have htaken : Permitted (live ([] ++ [])) taken.request := ⟨by decide, nofun⟩
    have hmoved : Permitted (live ([] ++ [taken] ++ [])) moved.request := ⟨by decide, by decide⟩
    exact (Run.start.calm htaken).enable.late hmoved
  obtain ⟨-, hcalls, hserved, -, -, hseparate, -⟩ :=
    requests_routed rfl rfl run apart_movedSystem
  exact ⟨hcalls, hserved moved (by simp), hseparate taken (by simp) moved (by simp)⟩

end Allocator

end CrashCapture
