import CrashCapture.Proofs.Emergency.Routing

namespace CrashCapture

namespace Pool

/-- The addresses that were not handed out yet. -/
def unused (base offset : Nat) : Set Nat := Set.Ico (base + offset) (base + size)

variable {base offset after : Nat} {l : Layout} {grant : Grant}

theorem Answered.unused_subset (h : Answered base offset l grant after) (hoffset : offset ≤ size) :
    unused base after ⊆ unused base offset := by
  have hle := (h.bounds hoffset).1
  exact Set.Ico_subset_Ico_left (by omega)

theorem Answered.handedOut_subset (h : Answered base offset l grant after) :
    handedOut (l, grant) ⊆ unused base offset := by
  cases h with
  | refused => exact Set.empty_subset _
  | block first fits => exact Set.Ico_subset_Ico first.1.1 fits

theorem Answered.handedOut_disjoint (h : Answered base offset l grant after) :
    Disjoint (handedOut (l, grant)) (unused base after) := by
  cases h with
  | refused => exact Set.empty_disjoint _
  | @block a first fits =>
    have hstart := first.1.1
    rw [Set.disjoint_left]
    intro i hi hi'
    have hbelow : i < a + l.extent := hi.2
    have habove : base + (a - base + l.extent) ≤ i := hi'.1
    omega

end Pool

namespace Allocator

variable {ι : Type}

/-- The block that a request was answered with is at the addresses that were handed out for it. -/
theorem Call.span_of_block? {c : Call} {l : Layout} {grant : Grant}
    (hasked : c.request.asked? = some l) (hanswer : c.answer = some grant) {b : Block}
    (hb : b ∈ c.block?) : b.span = Pool.handedOut (l, grant) := by
  cases grant with
  | block address =>
    simp only [Call.block?, hasked, hanswer, Option.mem_some_iff] at hb
    rw [← hb]
    rfl
  | refused => simp [Call.block?, hasked, hanswer] at hb
  | overflow => simp [Call.block?, hasked, hanswer] at hb

/-- All bytes of a block have their addresses in it. -/
theorem Block.mem_span {b : Block} {i : Nat} (h : i < b.layout.size) : b.address + i ∈ b.span := by
  have hextent : b.layout.size ≤ b.layout.extent := Nat.le_max_left _ 1
  exact ⟨Nat.le_add_right _ _, by omega⟩

/-- The emergency mode is on, and the pool is as it was mapped. -/
structure FreshPool (base : Nat) (a : Allocator ι) : Prop where
  enabled : a.emergency.enabled = true
  pool : a.emergency.pool = .mappedAt base 0
  words : base + Pool.size ≤ 2 ^ 63
  zero : ∀ i ∈ Set.Ico base (base + Pool.size), a.heap.bytes i = 0

variable [InnerAllocator ι]

/-- A client at work: it has the blocks that it was given before and those that it was given since,
asks for more, and writes into them. Those that it gives back stay listed, as nothing depends on it
that they are left alone. -/
inductive Work (a₀ : Allocator ι) (given : List Block) : List Block → Allocator ι → Prop
  | start : Work a₀ given given a₀
  | serve {blocks : List Block} {a : Allocator ι} (before : Work a₀ given blocks a) {r : Request}
      (permitted : Permitted blocks r) :
      Work a₀ given ((Call.block? ⟨r, (a.serve r).1⟩).toList ++ blocks) (a.serve r).2
  | write {blocks : List Block} {a : Allocator ι} (before : Work a₀ given blocks a) {b : Block}
      (owned : b ∈ blocks) {start count : Nat} (inside : start + count ≤ b.layout.size)
      (data : Nat → UInt8) : Work a₀ given blocks (a.write (b.address + start) data count)

/-- What was not handed out is still zero, and no block of the client reaches into it. -/
structure Intact (base offset : Nat) (blocks : List Block) (a : Allocator ι) : Prop where
  enabled : a.emergency.enabled = true
  pool : a.emergency.pool = .mappedAt base offset
  within : offset ≤ Pool.size
  zero : ∀ i ∈ Pool.unused base offset, a.heap.bytes i = 0
  apart : ∀ b ∈ blocks, Disjoint b.span (Pool.unused base offset)

variable {base offset : Nat} {blocks : List Block} {a : Allocator ι} {r : Request}

/-- A request in the emergency mode is one to give back a block, which is ignored, or it is answered
by the pool. Then at most the bytes of the new block are written. -/
theorem Intact.serve_cases (h : Intact base offset blocks a) (words : base + Pool.size ≤ 2 ^ 63)
    (permitted : Permitted blocks r) :
    r.asked? = none ∧ a.serve r = (none, a) ∨
      ∃ l grant after, r.asked? = some l ∧ (a.serve r).1 = some grant ∧
        Pool.Answered base offset l grant after ∧ (a.serve r).2.emergency.enabled = true ∧
        (a.serve r).2.emergency.pool = .mappedAt base after ∧
        ∀ i ∉ Pool.handedOut (l, grant), (a.serve r).2.heap.bytes i = a.heap.bytes i := by
  rcases Allocator.serve_cases a r with passed | ignored | ⟨l, grant, a', hasked, hserve, cut⟩
  · -- a request is passed on only while the emergency mode is off
    have hcalm := passed.calm
    rw [h.enabled] at hcalm
    cases hcalm
  · exact .inl ignored
  · have hanswered := Pool.answered_cut words h.within (permitted.valid l hasked)
    have hpool := cut.pool
    rw [h.pool, Pool.alloc_mappedAt] at hpool
    obtain ⟨hgrant, hpool⟩ := Prod.mk.inj hpool
    obtain ⟨hpool, -⟩ := Prod.mk.inj hpool
    rw [hgrant] at hanswered
    rw [hserve]
    refine .inr ⟨l, grant, _, hasked, rfl, hanswered, cut.enabled.trans h.enabled, hpool.symm, ?_⟩
    intro i hi
    apply cut.bytes
    rintro address rfl
    exact hi

theorem Intact.serve (h : Intact base offset blocks a) (words : base + Pool.size ≤ 2 ^ 63)
    (permitted : Permitted blocks r) :
    ∃ after, Intact base after ((Call.block? ⟨r, (a.serve r).1⟩).toList ++ blocks)
      (a.serve r).2 := by
  rcases h.serve_cases words permitted with ⟨hasked, hserve⟩ |
    ⟨l, grant, after, hasked, hanswer, hanswered, henabled, hpool, hbytes⟩
  · have hnone : Call.block? ⟨r, none⟩ = none := by simp [Call.block?, hasked]
    rw [hserve, hnone]
    exact ⟨offset, h⟩
  · have hsubset := hanswered.unused_subset h.within
    have hdisjoint := hanswered.handedOut_disjoint
    refine ⟨after, henabled, hpool, (hanswered.bounds h.within).2, ?_, ?_⟩
    · intro i hi
      rw [hbytes i fun hnew => Set.disjoint_left.1 hdisjoint hnew hi]
      exact h.zero i (hsubset hi)
    · intro b hb
      rcases List.mem_append.1 hb with hnew | hold
      · rw [Call.span_of_block? hasked hanswer (Option.mem_toList.1 hnew)]
        exact hdisjoint
      · exact (h.apart b hold).mono_right hsubset

omit [InnerAllocator ι] in
theorem Intact.write (h : Intact base offset blocks a) {b : Block} (owned : b ∈ blocks)
    {start count : Nat} (inside : start + count ≤ b.layout.size) (data : Nat → UInt8) :
    Intact base offset blocks (a.write (b.address + start) data count) := by
  refine ⟨h.enabled, h.pool, h.within, ?_, h.apart⟩
  intro i hi
  have houtside : ¬(b.address + start ≤ i ∧ i < b.address + start + count) := by
    rintro ⟨hlow, hhigh⟩
    have hmem := Block.mem_span (b := b) (i := i - b.address) (by omega)
    rw [Nat.add_sub_cancel' (by omega)] at hmem
    exact Set.disjoint_left.1 (h.apart b owned) hmem hi
  have hsame : (a.write (b.address + start) data count).heap.bytes i = a.heap.bytes i := by
    simp [Allocator.write, houtside]
  rw [hsame]
  exact h.zero i hi

theorem Work.intact {a₀ : Allocator ι} {given : List Block} (fresh : FreshPool base a₀)
    (outside : ∀ b ∈ given, Disjoint b.span (Set.Ico base (base + Pool.size)))
    (work : Work a₀ given blocks a) : ∃ offset, Intact base offset blocks a := by
  induction work with
  | start => exact ⟨0, fresh.enabled, fresh.pool, Nat.zero_le _, fresh.zero, outside⟩
  | serve before permitted ih =>
    obtain ⟨offset, intact⟩ := ih
    exact intact.serve fresh.words permitted
  | write before owned inside data ih =>
    obtain ⟨offset, intact⟩ := ih
    exact ⟨offset, intact.write owned inside data⟩

theorem heap_allocZeroed (enabled : a.emergency.enabled = true) (l : Layout) :
    (a.serve (.allocZeroed l)).2.heap = a.heap := by
  simp [serve, allocZeroed, enabled, fromPool]

theorem bytes_realloc (enabled : a.emergency.enabled = true) {old newSize target : Nat} {l : Layout}
    (hblock : (a.serve (.realloc old l newSize)).1 = some (.block target)) :
    (a.serve (.realloc old l newSize)).2.heap.bytes =
      copyBytes old target (min l.size newSize) a.heap.bytes := by
  have hroute : ¬(!a.emergency.pool.contains old && !a.emergency.enabled) = true := by
    simp [enabled]
  have hheap : (a.fromPool ⟨newSize, l.align⟩).2.heap = a.heap := rfl
  rcases htaken : a.fromPool ⟨newSize, l.align⟩ with ⟨grant, a'⟩
  rw [htaken] at hheap
  cases grant with
  | block address =>
    simp only [serve, realloc, if_neg hroute, htaken, Option.some.injEq,
      Grant.block.injEq] at hblock ⊢
    rw [hblock, hheap]
  | refused => simp [serve, realloc, enabled, htaken] at hblock
  | overflow => simp [serve, realloc, enabled, htaken] at hblock

theorem copyBytes_inside {source target count i : Nat} (bytes : Nat → UInt8) (h : i < count) :
    copyBytes source target count bytes (target + i) = bytes (source + i) := by
  simp [copyBytes, h]

theorem copyBytes_beyond {source target count i : Nat} (bytes : Nat → UInt8) (h : count ≤ i) :
    copyBytes source target count bytes (target + i) = bytes (target + i) := by
  simp [copyBytes, h]

/-- A block that the pool hands out has not been written to. -/
theorem Intact.zero_of_block (h : Intact base offset blocks a)
    (words : base + Pool.size ≤ 2 ^ 63) (permitted : Permitted blocks r) {l : Layout}
    (hasked : r.asked? = some l) {address : Nat} (hblock : (a.serve r).1 = some (.block address))
    {i : Nat} (hi : i < l.size) : a.heap.bytes (address + i) = 0 := by
  rcases h.serve_cases words permitted with ⟨hnone, -⟩ |
    ⟨l', grant, after, hasked', hanswer, hanswered, -⟩
  · rw [hasked] at hnone
    cases hnone
  · rw [hasked] at hasked'
    rw [hblock] at hanswer
    cases hasked'
    cases hanswer
    apply h.zero
    apply hanswered.handedOut_subset
    exact Block.mem_span (b := ⟨address, l⟩) hi

/-- A request does not change what is in the blocks that the client has, and the one that it gets
has no address of theirs. -/
theorem Intact.kept (h : Intact base offset blocks a) (words : base + Pool.size ≤ 2 ^ 63)
    (permitted : Permitted blocks r) {b : Block} (hb : b ∈ blocks) :
    (∀ i ∈ b.span, (a.serve r).2.heap.bytes i = a.heap.bytes i) ∧
      ∀ b' ∈ Call.block? ⟨r, (a.serve r).1⟩, Disjoint b'.span b.span := by
  rcases h.serve_cases words permitted with ⟨hasked, hserve⟩ |
    ⟨l, grant, after, hasked, hanswer, hanswered, -, -, hbytes⟩
  · rw [hserve]
    exact ⟨fun _ _ => rfl, by simp [Call.block?, hasked]⟩
  · have hdisjoint : Disjoint (Pool.handedOut (l, grant)) b.span :=
      (h.apart b hb).symm.mono_left hanswered.handedOut_subset
    refine ⟨fun i hi => ?_, fun b' hb' => ?_⟩
    · exact hbytes i fun hnew => Set.disjoint_left.1 hdisjoint hnew hi
    · rw [Call.span_of_block? hasked hanswer hb']
      exact hdisjoint

/-- Whatever a client has asked for and written in its blocks: what it asks for next leaves all of
these as they are, and is answered by a block that has none of their addresses. One that is to be
zero is, and one to which another block is moved starts with what was in that, and is zero after
it. -/
theorem contents_kept {a₀ : Allocator ι} {given : List Block} (fresh : FreshPool base a₀)
    (outside : ∀ b ∈ given, Disjoint b.span (Set.Ico base (base + Pool.size)))
    (work : Work a₀ given blocks a) (r : Request) (permitted : Permitted blocks r) :
    let after := (a.serve r).2.heap.bytes
    (∀ l address, r = .allocZeroed l → (a.serve r).1 = some (.block address) →
      ∀ i < l.size, after (address + i) = 0) ∧
    (∀ old l newSize address, r = .realloc old l newSize →
      (a.serve r).1 = some (.block address) →
      (∀ i < min l.size newSize, after (address + i) = a.heap.bytes (old + i)) ∧
      ∀ i, l.size ≤ i → i < newSize → after (address + i) = 0) ∧
    ∀ b ∈ blocks, (∀ i ∈ b.span, after i = a.heap.bytes i) ∧
      ∀ b' ∈ Call.block? ⟨r, (a.serve r).1⟩, Disjoint b'.span b.span := by
  intro after
  obtain ⟨offset, intact⟩ := work.intact fresh outside
  refine ⟨?_, ?_, fun b hb => intact.kept fresh.words permitted hb⟩
  · rintro l address rfl hblock i hi
    have hzero := intact.zero_of_block fresh.words permitted rfl hblock hi
    rw [show after = a.heap.bytes from congrArg Heap.bytes (heap_allocZeroed intact.enabled l)]
    exact hzero
  · rintro old l newSize address rfl hblock
    have hafter : after = copyBytes old address (min l.size newSize) a.heap.bytes :=
      bytes_realloc intact.enabled hblock
    rw [hafter]
    refine ⟨fun i hi => copyBytes_inside _ hi, fun i hle hi => ?_⟩
    -- nothing is copied from beyond the old block, so the new one is still as it was mapped
    rw [copyBytes_beyond _ ((Nat.min_le_left _ _).trans hle)]
    exact intact.zero_of_block fresh.words permitted rfl hblock hi

/-- The emergency mode of a system, just after it was entered. -/
def calledSystem : Allocator SystemHeap :=
  enable ⟨.initial, Pool.roomyMemory, ⟨.initial, fun _ => 0⟩⟩

/-- A block that the wrapped allocator has handed out before. -/
def early : Block := ⟨0x550000000000, ⟨24, 8⟩⟩

/-- The system after a few bytes were taken from the pool, and written, as was the early block. -/
def writtenSystem : Allocator SystemHeap :=
  let a := (calledSystem.serve (.alloc ⟨3, 1⟩)).2
  (a.write (0x7f0000000000 + 0) (fun _ => 0xff) 3).write (early.address + 8) (fun _ => 0xaa) 16

theorem fresh_calledSystem : FreshPool 0x7f0000000000 calledSystem :=
  ⟨rfl, rfl, by decide, fun _ _ => rfl⟩

theorem work_writtenSystem :
    Work calledSystem [early] [⟨0x7f0000000000, ⟨3, 1⟩⟩, early] writtenSystem := by
  have htaken : Work calledSystem [early] [⟨0x7f0000000000, ⟨3, 1⟩⟩, early]
      (calledSystem.serve (.alloc ⟨3, 1⟩)).2 := by
    have hpermitted : Permitted [early] (.alloc ⟨3, 1⟩) := ⟨by decide, nofun⟩
    exact Work.start.serve hpermitted
  have hfirst : 0 + 3 ≤ (Layout.mk 3 1).size := by decide
  have hlast : 8 + 16 ≤ early.layout.size := by decide
  have htouched := htaken.write (b := ⟨0x7f0000000000, ⟨3, 1⟩⟩) (by simp) hfirst fun _ => 0xff
  exact htouched.write (b := early) (by simp) hlast fun _ => 0xaa

/-- The early block is moved into the pool, where it is followed by zeros. -/
theorem contents_kept_moved :
    let r : Request := .realloc 0x550000000000 ⟨24, 8⟩ 48
    let after := (writtenSystem.serve r).2.heap.bytes
    (writtenSystem.serve r).1 = some (.block 0x7f0000000008) ∧
      (∀ i < 24, after (0x7f0000000008 + i) = writtenSystem.heap.bytes (0x550000000000 + i)) ∧
      (∀ i, 24 ≤ i → i < 48 → after (0x7f0000000008 + i) = 0) ∧
      ∀ i ∈ early.span, after i = writtenSystem.heap.bytes i := by
  intro r after
  have hanswer : (writtenSystem.serve r).1 = some (.block 0x7f0000000008) := by decide
  have houtside : ∀ b ∈ [early],
      Disjoint b.span (Set.Ico 0x7f0000000000 (0x7f0000000000 + Pool.size)) := by
    intro b hb
    rw [List.mem_singleton.1 hb, Set.disjoint_left]
    intro i hi hi'
    have hbelow : i < 0x550000000000 + 24 := hi.2
    have habove : 0x7f0000000000 ≤ i := hi'.1
    omega
  have hpermitted : Permitted [⟨0x7f0000000000, ⟨3, 1⟩⟩, early] r := ⟨by decide, by decide⟩
  obtain ⟨-, hmoved, hkept⟩ :=
    contents_kept fresh_calledSystem houtside work_writtenSystem r hpermitted
  obtain ⟨hcopied, hzero⟩ := hmoved _ _ _ _ rfl hanswer
  exact ⟨hanswer, hcopied, hzero, (hkept early (by simp)).1⟩

end Allocator

end CrashCapture
