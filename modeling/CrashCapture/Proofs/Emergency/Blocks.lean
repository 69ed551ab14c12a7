import CrashCapture.Emergency.Pool
import Mathlib.Algebra.Group.Nat.Defs
import Mathlib.Data.Set.BooleanAlgebra
import Mathlib.Order.Bounds.Basic
import Mathlib.Order.CompletePartialOrder
import Mathlib.Order.Interval.Set.Basic

namespace CrashCapture

/-- The first address from `start` on that is a multiple of `align`. -/
def IsFirstAligned (start align address : Nat) : Prop :=
  IsLeast {a | start ≤ a ∧ align ∣ a} address

theorem IsFirstAligned.le_of_dvd {start align address bound : Nat}
    (h : IsFirstAligned start align address) (hstart : start ≤ bound) (hdvd : align ∣ bound) :
    address ≤ bound := h.2 ⟨hstart, hdvd⟩

theorem isFirstAligned_ceil (n : Nat) {m : Nat} (hm : 0 < m) :
    IsFirstAligned n m (if n % m = 0 then n else n + (m - n % m)) := by
  have hsplit := Nat.div_add_mod n m
  have hlt : n % m < m := Nat.mod_lt n hm
  by_cases hn : n % m = 0
  · rw [if_pos hn]
    exact ⟨⟨le_rfl, Nat.dvd_of_mod_eq_zero hn⟩, fun _ h => h.1⟩
  · have hnext : n + (m - n % m) = m * (n / m + 1) := by
      rw [Nat.mul_succ]
      omega
    rw [if_neg hn]
    refine ⟨⟨Nat.le_add_right _ _, hnext ▸ Nat.dvd_mul_right m _⟩, ?_⟩
    rintro _ ⟨hle, q, rfl⟩
    have hbelow : m * (n / m) < m * q := by omega
    have hq : n / m + 1 ≤ q := Nat.lt_of_mul_lt_mul_left hbelow
    rw [hnext]
    exact Nat.mul_le_mul_left m hq

namespace Word

theorem add?_of_lt {a b : Nat} (h : a + b < limit) : add? a b = some (a + b) := if_pos h

theorem nextMultiple?_of_isFirstAligned {n m a : Nat} (hm : 0 < m) (h : IsFirstAligned n m a)
    (hfit : a < limit) : nextMultiple? n m = some a := by
  have ha := h.unique (isFirstAligned_ceil n hm)
  unfold nextMultiple?
  rw [if_neg hm.ne']
  by_cases hn : n % m = 0
  · rw [if_pos hn] at ha ⊢
    rw [ha]
  · rw [if_neg hn] at ha ⊢
    rw [add?_of_lt (ha ▸ hfit), ha]

end Word

namespace Layout

/-- What a block takes up: an empty one has an address of its own as well. -/
def extent (l : Layout) : Nat := max l.size 1

/-- The alignment is a power of two, and the size, rounded up to it, fits in a signed word. -/
theorem valid_iff {l : Layout} : l.valid ↔
    (∃ k ≤ 63, l.align = 2 ^ k) ∧ ∃ r < 2 ^ 63, l.size ≤ r ∧ l.align ∣ r := by
  have hpower : isPowerOfTwo l.align ↔ ∃ k, l.align = 2 ^ k := by
    rw [isPowerOfTwo, Bool.and_eq_true, decide_eq_true_eq, decide_eq_true_eq]
    constructor
    · intro h
      exact ⟨l.align.log2, h.2⟩
    · rintro ⟨k, hk⟩
      rw [hk, Nat.log2_two_pow]
      exact ⟨Nat.two_pow_pos k, rfl⟩
  have hroom {k : Nat} (hk : k ≤ 63) (halign : l.align = 2 ^ k) :
      l.size + l.align ≤ 2 ^ 63 ↔ ∃ r < 2 ^ 63, l.size ≤ r ∧ l.align ∣ r := by
    have hdvd : l.align ∣ 2 ^ 63 := halign ▸ Nat.pow_dvd_pow 2 hk
    constructor
    · intro h
      have hpos : 0 < l.align := halign ▸ Nat.two_pow_pos k
      exact ⟨2 ^ 63 - l.align, by omega, by omega, Nat.dvd_sub hdvd (Nat.dvd_refl _)⟩
    · rintro ⟨r, hr, hle, hmul⟩
      have hnext := Nat.le_of_dvd (by omega) (Nat.dvd_sub hdvd hmul)
      omega
  unfold valid
  rw [Bool.and_eq_true, decide_eq_true_eq, hpower]
  constructor
  · rintro ⟨⟨k, hk⟩, h⟩
    have hle : k ≤ 63 := by
      have hpow : 2 ^ k ≤ 2 ^ 63 := hk ▸ (Nat.le_add_left _ _).trans h
      exact (Nat.pow_le_pow_iff_right (by decide)).1 hpow
    exact ⟨⟨k, hle, hk⟩, (hroom hle hk).1 h⟩
  · rintro ⟨⟨k, hle, hk⟩, h⟩
    exact ⟨⟨k, hk⟩, (hroom hle hk).2 h⟩

end Layout

namespace Pool

/-- A pool that is mapped at `base`, up to `offset` in use. -/
def mappedAt (base offset : Nat) : Pool := ⟨some ⟨base, size⟩, offset⟩

/-- How a request is answered: by the first aligned address that is free, unless the block would end
beyond the pool. -/
inductive Answered (base offset : Nat) (l : Layout) : Grant → Nat → Prop
  | block {a : Nat} (first : IsFirstAligned (base + offset) l.align a)
      (fits : a + l.extent ≤ base + size) : Answered base offset l (.block a) (a - base + l.extent)
  | refused {a : Nat} (first : IsFirstAligned (base + offset) l.align a)
      (beyond : base + size < a + l.extent) : Answered base offset l .refused offset

variable {base offset : Nat} {l : Layout}

/-- Addresses are at most `2 ^ 63`, which is a multiple of all alignments, and so is the one that is
looked for. -/
theorem answered_cut (hbase : base + size ≤ 2 ^ 63) (hoffset : offset ≤ size) (hl : l.valid) :
    Answered base offset l (cut base offset l).1 (cut base offset l).2 := by
  obtain ⟨⟨k, hk, halign⟩, r, hr, hsize, -⟩ := Layout.valid_iff.1 hl
  have hpos : 0 < l.align := halign ▸ Nat.two_pow_pos k
  have hlimit : Word.limit = 2 ^ 64 := rfl
  obtain ⟨a, hfirst⟩ : ∃ a, IsFirstAligned (base + offset) l.align a :=
    ⟨_, isFirstAligned_ceil _ hpos⟩
  have hle : a ≤ 2 ^ 63 := hfirst.le_of_dvd (by omega) (halign ▸ Nat.pow_dvd_pow 2 hk)
  have hstart : base + offset ≤ a := hfirst.1.1
  have haddress : (Word.add? base offset).bind (Word.nextMultiple? · l.align) = some a := by
    rw [Word.add?_of_lt (by omega)]
    exact Word.nextMultiple?_of_isFirstAligned hpos hfirst (by omega)
  have hstop : Word.add? (a - base) l.extent = some (a - base + l.extent) :=
    Word.add?_of_lt (by unfold Layout.extent; omega)
  unfold Layout.extent at hstop
  unfold cut
  rw [haddress]
  dsimp only
  rw [hstop]
  dsimp only
  by_cases hbeyond : size < a - base + max l.size 1
  · rw [if_pos hbeyond]
    exact .refused hfirst (by unfold Layout.extent; omega)
  · rw [if_neg hbeyond]
    exact .block hfirst (by unfold Layout.extent; omega)

theorem alloc_mappedAt (m : Memory) (l : Layout) :
    (mappedAt base offset).alloc m l =
      ((cut base offset l).1, mappedAt base (cut base offset l).2, m) := rfl

namespace Answered

variable {grant : Grant} {after : Nat}

theorem bounds (h : Answered base offset l grant after) (hoffset : offset ≤ size) :
    offset ≤ after ∧ after ≤ size := by
  cases h with
  | block first fits =>
    have hstart := first.1.1
    omega
  | refused => exact ⟨le_rfl, hoffset⟩

theorem ne_overflow (h : Answered base offset l grant after) : grant ≠ .overflow := by
  cases h <;> nofun

theorem of_block {a : Nat} (h : Answered base offset l (.block a) after) :
    IsFirstAligned (base + offset) l.align a ∧ a + l.extent ≤ base + size ∧
      a + l.extent = base + after := by
  cases h with
  | block first fits =>
    have hstart := first.1.1
    exact ⟨first, fits, by omega⟩

/-- The answer is determined by the first aligned address. -/
theorem of_isFirstAligned (h : Answered base offset l grant after) {a : Nat}
    (ha : IsFirstAligned (base + offset) l.align a) :
    (grant = .refused ↔ base + size < a + l.extent) ∧ (grant = .refused → after = offset) ∧
      (grant ≠ .refused → grant = .block a) := by
  cases h with
  | block first fits =>
    obtain rfl := first.unique ha
    exact ⟨⟨nofun, fun hbeyond => absurd fits hbeyond.not_ge⟩, nofun, fun _ => rfl⟩
  | refused first beyond =>
    obtain rfl := first.unique ha
    exact ⟨⟨fun _ => beyond, fun _ => rfl⟩, fun _ => rfl, fun h => absurd rfl h⟩

end Answered

/-- What requests were given, and the pool and the memory after them. -/
structure Served where
  answers : List (Layout × Grant)
  pool : Pool
  memory : Memory

def serve : List Layout → Pool → Memory → Served
  | [], p, m => ⟨[], p, m⟩
  | l :: requests, p, m =>
    let (grant, p, m) := p.alloc m l
    let rest := serve requests p m
    { rest with answers := (l, grant) :: rest.answers }

/-- The addresses that were handed out for a request. -/
def handedOut : Layout × Grant → Set Nat
  | (l, .block a) => Set.Ico a (a + l.extent)
  | _ => ∅

/-- A block that is not below `base + offset`, and ends inside the pool. -/
structure Placed (base offset : Nat) (x : Layout × Grant) : Prop where
  fits : x.2 ≠ .overflow
  block : ∀ a, x.2 = .block a → x.1.align ∣ a ∧ base + offset ≤ a ∧ a + x.1.extent ≤ base + size

theorem Answered.placed {grant : Grant} {after : Nat} (h : Answered base offset l grant after) :
    Placed base offset (l, grant) := by
  refine ⟨h.ne_overflow, ?_⟩
  rintro a rfl
  obtain ⟨first, hfits, -⟩ := h.of_block
  exact ⟨first.1.2, first.1.1, hfits⟩

theorem Placed.of_le {offset' : Nat} {x : Layout × Grant} (h : Placed base offset' x)
    (hle : offset ≤ offset') : Placed base offset x := by
  refine ⟨h.fits, fun a ha => ?_⟩
  obtain ⟨hdvd, hstart, hend⟩ := h.block a ha
  exact ⟨hdvd, by omega, hend⟩

/-- The first of two blocks ends before the second one starts. -/
def Precedes (x y : Layout × Grant) : Prop :=
  ∀ a b, x.2 = .block a → y.2 = .block b → a + x.1.extent ≤ b

theorem Precedes.disjoint {x y : Layout × Grant} (h : Precedes x y) :
    Disjoint (handedOut x) (handedOut y) := by
  obtain ⟨l, grant⟩ := x
  obtain ⟨l', grant'⟩ := y
  cases grant with
  | refused => exact Set.empty_disjoint _
  | overflow => exact Set.empty_disjoint _
  | block a =>
    cases grant' with
    | refused => exact Set.disjoint_empty _
    | overflow => exact Set.disjoint_empty _
    | block b =>
      have hapart : a + l.extent ≤ b := h a b rfl rfl
      rw [Set.disjoint_left]
      intro i hi hi'
      exact absurd (hi.2.trans_le (hapart.trans hi'.1)) (lt_irrefl i)

/-- Where a pool is after it has served requests, and how it has answered them. -/
structure IsServed (base offset : Nat) (m : Memory) (s : Served) : Prop where
  pool : ∃ after ≤ size, s.pool = mappedAt base after
  memory : s.memory = m
  placed : ∀ x ∈ s.answers, Placed base offset x
  ordered : s.answers.Pairwise Precedes

theorem isServed_serve (hbase : base + size ≤ 2 ^ 63) (hoffset : offset ≤ size) (m : Memory)
    {requests : List Layout} (hvalid : ∀ l ∈ requests, l.valid) :
    IsServed base offset m (serve requests (mappedAt base offset) m) := by
  induction requests generalizing offset with
  | nil => exact ⟨⟨offset, hoffset, rfl⟩, rfl, nofun, .nil⟩
  | cons l requests ih =>
    have hanswered := answered_cut hbase hoffset (hvalid l List.mem_cons_self)
    obtain ⟨hle, hsize⟩ := hanswered.bounds hoffset
    obtain ⟨hpool, hmemory, hplaced, hordered⟩ :=
      ih hsize fun l hl => hvalid l (List.mem_cons_of_mem _ hl)
    rw [serve, alloc_mappedAt]
    refine ⟨hpool, hmemory, fun x hx => ?_,
      List.pairwise_cons.2 ⟨fun y hy a b ha hb => ?_, hordered⟩⟩
    · rcases List.mem_cons.1 hx with rfl | hx
      · exact hanswered.placed
      · exact (hplaced x hx).of_le hle
    · change (cut base offset l).1 = .block a at ha
      rw [ha] at hanswered
      obtain ⟨-, -, hend⟩ := hanswered.of_block
      obtain ⟨-, hstart, -⟩ := (hplaced y hy).block b hb
      exact hend ▸ hstart

/-- The blocks of a pool are aligned, inside of it, in order and apart, whatever is asked for. A
request is refused exactly if its block would end beyond the pool, and then nothing has changed. -/
theorem blocks_apart {base : Nat} (hbase : base + size ≤ 2 ^ 63) (m : Memory)
    {requests : List Layout} (hvalid : ∀ l ∈ requests, l.valid) :
    let s := serve requests (mappedAt base 0) m
    (∀ x ∈ s.answers, x.2 ≠ .overflow) ∧
    (∀ l a, (l, .block a) ∈ s.answers →
      l.align ∣ a ∧ base ≤ a ∧ a + max l.size 1 ≤ base + size) ∧
    s.answers.Pairwise (fun x y =>
      ∀ a b, x.2 = .block a → y.2 = .block b → a + max x.1.size 1 ≤ b) ∧
    s.answers.Pairwise (fun x y => Disjoint (handedOut x) (handedOut y)) ∧
    ∃ offset, s.pool = mappedAt base offset ∧ ∀ l : Layout, l.valid →
      ∃ a, IsFirstAligned (base + offset) l.align a ∧
        ((s.pool.alloc m l).1 = .refused ↔ base + size < a + max l.size 1) ∧
        ((s.pool.alloc m l).1 = .refused → s.pool.alloc m l = (.refused, s.pool, m)) ∧
        ((s.pool.alloc m l).1 ≠ .refused → (s.pool.alloc m l).1 = .block a) := by
  intro s
  obtain ⟨⟨offset, hoffset, hpool⟩, -, hplaced, hordered⟩ :=
    isServed_serve hbase (Nat.zero_le size) m hvalid
  refine ⟨fun x hx => (hplaced x hx).fits, fun l a hx => (hplaced _ hx).block a rfl, hordered,
    hordered.imp Precedes.disjoint, offset, hpool, fun l hl => ?_⟩
  have hanswered := answered_cut hbase hoffset hl
  have halign : 0 < l.align := by
    obtain ⟨⟨k, -, hk⟩, -⟩ := Layout.valid_iff.1 hl
    exact hk ▸ Nat.two_pow_pos k
  have hfirst := isFirstAligned_ceil (base + offset) halign
  obtain ⟨hrefused, hkept, hblock⟩ := hanswered.of_isFirstAligned hfirst
  refine ⟨_, hfirst, ?_⟩
  rw [hpool, alloc_mappedAt]
  refine ⟨hrefused, fun h => ?_, hblock⟩
  have h : (cut base offset l).1 = .refused := h
  rw [hkept h, h]

/-- The pool is mapped when the first block is asked for. -/
theorem reserve_empty {m m' : Memory} {mapping : Mapping} (h : m.map size = some (mapping, m')) :
    empty.reserve m = (mappedAt m.next 0, m') := by
  have hmapping : mapping = ⟨m.next, size⟩ := by
    unfold Memory.map Memory.reserve at h
    split at h
    · split at h
      · cases h
        rfl
      · cases h
    · cases h
  unfold reserve
  dsimp only [empty]
  rw [h, hmapping]
  rfl

def fourRequests : List Layout := [⟨3, 1⟩, ⟨64, 64⟩, ⟨1, 2 ^ 62⟩, ⟨0, 1⟩]

def roomyMemory : Memory := ⟨[], 0x7f0000000000, .unlimited⟩

/-- An alignment that is larger than the pool is refused, and an empty block is still served. -/
theorem blocks_apart_four :
    let r := empty.reserve roomyMemory
    let s := serve fourRequests r.1 r.2
    s.answers.map (·.2) =
      [.block 0x7f0000000000, .block 0x7f0000000040, .refused, .block 0x7f0000000080] ∧
    s.answers.Pairwise (fun x y => Disjoint (handedOut x) (handedOut y)) := by
  intro r s
  have hreserve : r = (mappedAt 0x7f0000000000 0, r.2) := reserve_empty rfl
  have hbase : 0x7f0000000000 + size ≤ 2 ^ 63 := by decide
  have hvalid : ∀ l ∈ fourRequests, l.valid := by decide
  obtain ⟨-, -, -, hdisjoint, -⟩ := blocks_apart hbase r.2 hvalid
  refine ⟨by decide, ?_⟩
  unfold s
  rw [hreserve]
  exact hdisjoint

end Pool

end CrashCapture
