import Mathlib
import SereinGateway.Lib.Tally

/-!
The accounting of the memory pool.

`allocate` tests the free size, asks the system allocator for a block that may
be larger than what was requested, and then books it in two counters;
`deallocate` gives the block back with the layout of the request and books it
out. Each access to a counter is a step of its own, so the test may be out of
date when the size is subtracted, and then the counter wraps around. Blocks of
less than the smallest size are given back with a layout that is not theirs.

The system allocator is a parameter: it answers with a null pointer or with one
that it has not given out. The callers keep their side: a pointer is freed once,
with the layout it was requested with.
-/

namespace SereinGateway.Core

open SereinGateway.Lib

def minBlockSize : ℕ := 16

@[ext] structure Layout where
  size : ℕ
  align : ℕ
  isPowerOfTwo : ∃ k, align = 2 ^ k
  fits : size + align ≤ 2 ^ 63
  deriving DecidableEq

/-- `layout.size().max(MIN_BLOCK_SIZE)`. -/
def Layout.blockSize (layout : Layout) : ℕ := Nat.max layout.size minBlockSize

/-- `Layout::from_size_align` with the alignment of a layout. -/
def Layout.fromSizeAlign (size : ℕ) (layout : Layout) : Option Layout :=
  if h : size + layout.align ≤ 2 ^ 63 then some ⟨size, layout.align, layout.isPowerOfTwo, h⟩
  else none

inductive TlsfError where
  | outOfMemory
  | invalidLayout
  deriving DecidableEq

/-- A layout that the system allocator was given to take a block back, and the
one with which it had given the block out. -/
structure Deallocation where
  passed : Layout
  allocated : Layout

/-- The counters of the pool, the blocks of the system allocator, the pointers
that callers have not freed, with the layouts they requested, and what the
system allocator has taken back. -/
structure TlsfPool where
  totalSize : ℕ
  usedSize : ℕ
  freeSize : ℕ
  allocationCount : ℕ
  deallocationCount : ℕ
  blocks : AList fun _ : ℕ => Layout
  handed : AList fun _ : ℕ => Layout
  deallocations : List Deallocation

def TlsfPool.new (size : UInt64) : TlsfPool := ⟨size.toNat, 0, size.toNat, 0, 0, ∅, ∅, []⟩

/-- Where a call stands. The names say what it does next. -/
inductive PoolTask where
  | idle
  | testing (layout : Layout)
  | allocating (layout : Layout)
  | addingUsed (ptr : ℕ) (layout : Layout)
  | subtractingFree (ptr : ℕ) (layout : Layout)
  | countingAllocation (ptr : ℕ) (layout : Layout)
  | freeing (ptr : ℕ) (layout : Layout)
  | subtractingUsed (layout : Layout)
  | addingFree (layout : Layout)
  | countingDeallocation
  /-- With the pointer, if the call was `allocate`. -/
  | returned (result : Except TlsfError (Option ℕ))
  deriving DecidableEq

inductive PoolStep where
  | allocate (layout : Layout)
  | deallocate (ptr : ℕ)
  /-- The next step of the call. One of them is answered by the system allocator. -/
  | next (answer : Option ℕ)

namespace PoolTask

def start (pool : TlsfPool) : PoolStep → Option (TlsfPool × PoolTask)
  | .allocate layout => some (pool, .testing layout)
  | .deallocate ptr =>
      (pool.handed.lookup ptr).map fun layout =>
        ({ pool with handed := pool.handed.erase ptr }, .freeing ptr layout)
  | .next _ => none

def advance (pool : TlsfPool) (answer : Option ℕ) : PoolTask → Option (TlsfPool × PoolTask)
  | .idle => none
  | .testing layout =>
      if pool.freeSize < layout.blockSize then some (pool, .returned (.error .outOfMemory))
      else some (pool, .allocating layout)
  | .allocating layout =>
      match Layout.fromSizeAlign layout.blockSize layout with
      | none => some (pool, .returned (.error .invalidLayout))
      | some block =>
          match answer with
          | none => some (pool, .returned (.error .outOfMemory))
          | some ptr =>
              if ptr ∈ pool.blocks then none
              else some ({ pool with blocks := pool.blocks.insert ptr block },
                .addingUsed ptr layout)
  | .addingUsed ptr layout =>
      some ({ pool with usedSize := fetchAdd pool.usedSize layout.blockSize },
        .subtractingFree ptr layout)
  | .subtractingFree ptr layout =>
      some ({ pool with freeSize := fetchSub pool.freeSize layout.blockSize },
        .countingAllocation ptr layout)
  | .countingAllocation ptr layout =>
      some ({ pool with
        allocationCount := fetchAdd pool.allocationCount 1
        handed := pool.handed.insert ptr layout }, .returned (.ok (some ptr)))
  | .freeing ptr layout =>
      (pool.blocks.lookup ptr).map fun block =>
        ({ pool with
          blocks := pool.blocks.erase ptr
          deallocations := ⟨layout, block⟩ :: pool.deallocations }, .subtractingUsed layout)
  | .subtractingUsed layout =>
      some ({ pool with usedSize := fetchSub pool.usedSize layout.blockSize }, .addingFree layout)
  | .addingFree layout =>
      some ({ pool with freeSize := fetchAdd pool.freeSize layout.blockSize },
        .countingDeallocation)
  | .countingDeallocation =>
      some ({ pool with deallocationCount := fetchAdd pool.deallocationCount 1 },
        .returned (.ok none))
  | .returned _ => none

def act (_ : ℕ) (pool : TlsfPool) (t : PoolTask) (a : PoolStep) : Option (TlsfPool × PoolTask) :=
  match t, a with
  | t, .next answer => advance pool answer t
  | .idle, a => start pool a
  | .returned _, a => start pool a
  | _, _ => none

/-- No call is in progress. -/
def Rests : PoolTask → Prop
  | .idle => True
  | .returned _ => True
  | _ => False

/-- The block that only this call knows, with the layout of the request. -/
def holds : PoolTask → Option (ℕ × Layout)
  | .addingUsed ptr layout => some (ptr, layout)
  | .subtractingFree ptr layout => some (ptr, layout)
  | .countingAllocation ptr layout => some (ptr, layout)
  | .freeing ptr layout => some (ptr, layout)
  | _ => none

def usedAhead : PoolTask → ℤ
  | .addingUsed _ layout => -layout.blockSize
  | .subtractingUsed layout => layout.blockSize
  | _ => 0

def freeAhead : PoolTask → ℤ
  | .addingUsed _ layout => layout.blockSize
  | .subtractingFree _ layout => layout.blockSize
  | .subtractingUsed layout => -layout.blockSize
  | .addingFree layout => -layout.blockSize
  | _ => 0

end PoolTask

abbrev PoolState := Pool TlsfPool PoolTask

def PoolState.start (size : UInt64) : PoolState := ⟨.new size, fun _ => .idle⟩

/-- A size is subtracted while it is still free, and no block of less than the
smallest size is given back. -/
def Sufficient (p : PoolState) (e : ℕ × PoolStep) : Prop :=
  match p.task e.1 with
  | .subtractingFree _ layout => layout.blockSize ≤ p.shared.freeSize
  | .freeing _ layout => minBlockSize ≤ layout.size
  | _ => True

/-! ### Steps -/

/-- A step that concerns neither the blocks nor the two sizes. -/
structure Unbooked (pool pool' : TlsfPool) (t t' : PoolTask) : Prop where
  totalSize : pool'.totalSize = pool.totalSize
  usedSize : pool'.usedSize = pool.usedSize
  freeSize : pool'.freeSize = pool.freeSize
  blocks : pool'.blocks = pool.blocks
  handed : pool'.handed = pool.handed
  deallocations : pool'.deallocations = pool.deallocations
  holds : t'.holds = none ∧ t.holds = none
  usedAhead : t'.usedAhead = t.usedAhead
  freeAhead : t'.freeAhead = t.freeAhead

/-- The steps, but for those that nothing depends on. -/
inductive Books (pool : TlsfPool) : PoolTask → TlsfPool → PoolTask → Prop
  | unbooked {t pool' t'} : Unbooked pool pool' t t' → Books pool t pool' t'
  | take {t ptr layout} : t.holds = none → t.usedAhead = 0 → t.freeAhead = 0 →
      pool.handed.lookup ptr = some layout →
      Books pool t { pool with handed := pool.handed.erase ptr } (.freeing ptr layout)
  | alloc {ptr layout block} : Layout.fromSizeAlign layout.blockSize layout = some block →
      ptr ∉ pool.blocks →
      Books pool (.allocating layout) { pool with blocks := pool.blocks.insert ptr block }
        (.addingUsed ptr layout)
  | addUsed {ptr layout} :
      Books pool (.addingUsed ptr layout)
        { pool with usedSize := fetchAdd pool.usedSize layout.blockSize }
        (.subtractingFree ptr layout)
  | subtractFree {ptr layout} :
      Books pool (.subtractingFree ptr layout)
        { pool with freeSize := fetchSub pool.freeSize layout.blockSize }
        (.countingAllocation ptr layout)
  | hand {ptr layout count} :
      Books pool (.countingAllocation ptr layout)
        { pool with allocationCount := count, handed := pool.handed.insert ptr layout }
        (.returned (.ok (some ptr)))
  | free {ptr layout block} : pool.blocks.lookup ptr = some block →
      Books pool (.freeing ptr layout)
        { pool with
          blocks := pool.blocks.erase ptr
          deallocations := ⟨layout, block⟩ :: pool.deallocations } (.subtractingUsed layout)
  | subtractUsed {layout} :
      Books pool (.subtractingUsed layout)
        { pool with usedSize := fetchSub pool.usedSize layout.blockSize } (.addingFree layout)
  | addFree {layout} :
      Books pool (.addingFree layout)
        { pool with freeSize := fetchAdd pool.freeSize layout.blockSize } .countingDeallocation

section Steps

open PoolTask

variable {pool pool' : TlsfPool} {i : ℕ} {t t' : PoolTask} {a : PoolStep}

theorem books_of_start (h : start pool a = some (pool', t')) (hholds : t.holds = none)
    (hused : t.usedAhead = 0) (hfree : t.freeAhead = 0) : Books pool t pool' t' := by
  cases a with
  | allocate layout =>
      cases h
      exact .unbooked ⟨rfl, rfl, rfl, rfl, rfl, rfl, ⟨rfl, hholds⟩, hused.symm, hfree.symm⟩
  | deallocate ptr =>
      obtain ⟨layout, hlookup, heq⟩ := Option.map_eq_some_iff.mp h
      cases heq
      exact .take hholds hused hfree hlookup
  | next answer => cases h

theorem books_of_advance {answer : Option ℕ} (h : advance pool answer t = some (pool', t')) :
    Books pool t pool' t' := by
  cases t with
  | idle => cases h
  | returned result => cases h
  | testing layout =>
      rw [advance] at h
      split at h <;> cases h <;>
        exact .unbooked ⟨rfl, rfl, rfl, rfl, rfl, rfl, ⟨rfl, rfl⟩, rfl, rfl⟩
  | allocating layout =>
      rw [advance] at h
      split at h
      · cases h
        exact .unbooked ⟨rfl, rfl, rfl, rfl, rfl, rfl, ⟨rfl, rfl⟩, rfl, rfl⟩
      · rename_i block hblock
        split at h
        · cases h
          exact .unbooked ⟨rfl, rfl, rfl, rfl, rfl, rfl, ⟨rfl, rfl⟩, rfl, rfl⟩
        · rename_i ptr
          split at h
          · cases h
          · rename_i hfresh
            cases h
            exact .alloc hblock hfresh
  | addingUsed ptr layout =>
      cases h
      exact .addUsed
  | subtractingFree ptr layout =>
      cases h
      exact .subtractFree
  | countingAllocation ptr layout =>
      cases h
      exact .hand
  | freeing ptr layout =>
      obtain ⟨block, hlookup, heq⟩ := Option.map_eq_some_iff.mp h
      cases heq
      exact .free hlookup
  | subtractingUsed layout =>
      cases h
      exact .subtractUsed
  | addingFree layout =>
      cases h
      exact .addFree
  | countingDeallocation =>
      cases h
      exact .unbooked ⟨rfl, rfl, rfl, rfl, rfl, rfl, ⟨rfl, rfl⟩, rfl, rfl⟩

theorem books_of_act (h : act i pool t a = some (pool', t')) : Books pool t pool' t' := by
  cases a with
  | next answer => exact books_of_advance (t := t) (by cases t <;> exact h)
  | allocate layout =>
      cases t with
      | idle => exact books_of_start (a := .allocate layout) h rfl rfl rfl
      | returned result => exact books_of_start (a := .allocate layout) h rfl rfl rfl
      | _ => cases h
  | deallocate ptr =>
      cases t with
      | idle => exact books_of_start (a := .deallocate ptr) h rfl rfl rfl
      | returned result => exact books_of_start (a := .deallocate ptr) h rfl rfl rfl
      | _ => cases h

end Steps

/-! ### Who has which block -/

/-- A block has been given out for a request of this layout. -/
def Given (blocks : AList fun _ : ℕ => Layout) (ptr : ℕ) (layout : Layout) : Prop :=
  ∃ block, blocks.lookup ptr = some block ∧ block.size = layout.blockSize ∧
    block.align = layout.align

/-- The callers, or a call under way, have the pointer. -/
def Has (handed : AList fun _ : ℕ => Layout) (task : ℕ → PoolTask) (owner : Option ℕ) (ptr : ℕ)
    (layout : Layout) : Prop :=
  match owner with
  | none => handed.lookup ptr = some layout
  | some i => (task i).holds = some (ptr, layout)

/-- Pointers that someone has are blocks, and nobody else has them. -/
structure Owned (blocks handed : AList fun _ : ℕ => Layout) (task : ℕ → PoolTask) : Prop where
  given : ∀ {o ptr layout}, Has handed task o ptr layout → Given blocks ptr layout
  unique : ∀ {o o' ptr layout layout'}, Has handed task o ptr layout →
    Has handed task o' ptr layout' → o = o'

/-- The counters are as the blocks and the calls under way say. -/
structure Booked (p : PoolState) : Prop where
  owned : Owned p.shared.blocks p.shared.handed p.task
  used : ∃ n, Tally (fun j => (p.task j).usedAhead) n ∧
    (p.shared.usedSize : ℤ) ≡ weight Layout.size p.shared.blocks + n [ZMOD 2 ^ 64]
  free : Tally (fun j => (p.task j).freeAhead)
    (p.shared.freeSize - p.shared.totalSize + weight Layout.size p.shared.blocks)
  usedWord : p.shared.usedSize < 2 ^ 64
  freeWord : p.shared.freeSize < 2 ^ 64
  totalWord : p.shared.totalSize < 2 ^ 64
  exact : ∀ d ∈ p.shared.deallocations, d.passed = d.allocated

section Ownership

open PoolTask

variable {blocks blocks' handed handed' : AList fun _ : ℕ => Layout} {task task' : ℕ → PoolTask}
  {i ptr : ℕ} {layout : Layout} {t' : PoolTask}

/-- One pointer changes hands, appears or disappears. -/
theorem Owned.move (h : Owned blocks handed task) (ptr : ℕ) (layout : Layout)
    (owner : Option ℕ)
    (hcases : ∀ {o q l}, Has handed' task' o q l →
      (Has handed task o q l ∧ q ≠ ptr) ∨ (o = owner ∧ q = ptr ∧ l = layout))
    (hgiven : Has handed' task' owner ptr layout → Given blocks' ptr layout)
    (hkeep : ∀ {q l}, q ≠ ptr → Given blocks q l → Given blocks' q l) :
    Owned blocks' handed' task' := by
  constructor
  · intro o q l hhas
    rcases hcases hhas with ⟨hold, hne⟩ | ⟨rfl, rfl, rfl⟩
    · exact hkeep hne (h.given hold)
    · exact hgiven hhas
  · intro o o' q l l' hhas hhas'
    rcases hcases hhas with ⟨hold, hne⟩ | ⟨rfl, rfl, -⟩
    · rcases hcases hhas' with ⟨hold', -⟩ | ⟨-, rfl, -⟩
      · exact h.unique hold hold'
      · exact absurd rfl hne
    · rcases hcases hhas' with ⟨-, hne⟩ | ⟨rfl, -, -⟩
      · exact absurd rfl hne
      · rfl

/-- A call goes on without the pointers changing hands. -/
theorem Owned.update (h : Owned blocks handed task) (ht' : t'.holds = (task i).holds) :
    Owned blocks handed (Function.update task i t') := by
  have hold : ∀ {o q l}, Has handed (Function.update task i t') o q l → Has handed task o q l := by
    intro o q l hhas
    cases o with
    | none => exact hhas
    | some j =>
        by_cases hj : j = i
        · subst hj
          rwa [Has, Function.update_self, ht'] at hhas
        · rwa [Has, Function.update_of_ne hj] at hhas
  exact ⟨fun hhas => h.given (hold hhas), fun h₁ h₂ => h.unique (hold h₁) (hold h₂)⟩

theorem has_update {o : Option ℕ} {q : ℕ} {l : Layout}
    (h : Has handed (Function.update task i t') o q l) :
    (o ≠ some i ∧ Has handed task o q l) ∨ (o = some i ∧ t'.holds = some (q, l)) := by
  cases o with
  | none => exact .inl ⟨nofun, h⟩
  | some j =>
      by_cases hj : j = i
      · subst hj
        rw [Has, Function.update_self] at h
        exact .inr ⟨rfl, h⟩
      · rw [Has, Function.update_of_ne hj] at h
        exact .inl ⟨fun heq => hj (Option.some.inj heq), h⟩

theorem Owned.take (h : Owned blocks handed task) (hlookup : handed.lookup ptr = some layout) :
    Owned blocks (handed.erase ptr) (Function.update task i (.freeing ptr layout)) := by
  refine h.move ptr layout (some i) ?_
    (fun _ => h.given (o := none) hlookup) fun _ hgiven => hgiven
  intro o q l hhas
  rcases has_update hhas with ⟨-, hold⟩ | ⟨rfl, heq⟩
  · cases o with
    | none =>
        have hne : q ≠ ptr := by
          rintro rfl
          rw [Has, AList.lookup_erase] at hold
          cases hold
        rw [Has, AList.lookup_erase_ne hne] at hold
        exact .inl ⟨hold, hne⟩
    | some j =>
        refine .inl ⟨hold, ?_⟩
        rintro rfl
        have hold' : Has handed task (some j) q l := hold
        cases h.unique (o := none) hlookup hold'
  · cases heq
    exact .inr ⟨rfl, rfl, rfl⟩

theorem Owned.alloc {block : Layout} (h : Owned blocks handed task) (hfresh : ptr ∉ blocks)
    (hblock : Layout.fromSizeAlign layout.blockSize layout = some block) :
    Owned (blocks.insert ptr block) handed
      (Function.update task i (.addingUsed ptr layout)) := by
  have hnot : ∀ {o l}, ¬Has handed task o ptr l := by
    intro o l hhas
    obtain ⟨b, hb, -⟩ := h.given hhas
    exact hfresh (AList.lookup_isSome.mp (hb ▸ rfl))
  refine h.move ptr layout (some i) ?_ ?_ ?_
  · intro o q l hhas
    rcases has_update hhas with ⟨-, hold⟩ | ⟨rfl, heq⟩
    · refine .inl ⟨hold, ?_⟩
      rintro rfl
      exact hnot hold
    · cases heq
      exact .inr ⟨rfl, rfl, rfl⟩
  · intro _
    refine ⟨block, AList.lookup_insert _, ?_⟩
    rw [Layout.fromSizeAlign] at hblock
    split at hblock
    · cases hblock
      exact ⟨rfl, rfl⟩
    · cases hblock
  · rintro q l hne ⟨b, hb, hsizes⟩
    exact ⟨b, by rwa [AList.lookup_insert_ne hne], hsizes⟩

theorem Owned.hand (h : Owned blocks handed task) (hi : (task i).holds = some (ptr, layout))
    (ht' : t'.holds = none) :
    Owned blocks (handed.insert ptr layout) (Function.update task i t') := by
  refine h.move ptr layout none ?_
    (fun _ => h.given (o := some i) hi) fun _ hgiven => hgiven
  intro o q l hhas
  rcases has_update hhas with ⟨hoi, hold⟩ | ⟨rfl, heq⟩
  · cases o with
    | none =>
        by_cases hq : q = ptr
        · subst hq
          rw [Has, AList.lookup_insert] at hold
          cases hold
          exact .inr ⟨rfl, rfl, rfl⟩
        · rw [Has, AList.lookup_insert_ne hq] at hold
          exact .inl ⟨hold, hq⟩
    | some j =>
        refine .inl ⟨hold, ?_⟩
        rintro rfl
        have hold' : Has handed task (some j) q l := hold
        have hown : Has handed task (some i) q layout := hi
        exact hoi (h.unique hold' hown)
  · rw [ht'] at heq
    cases heq

theorem Owned.free (h : Owned blocks handed task) (hi : (task i).holds = some (ptr, layout))
    (ht' : t'.holds = none) : Owned (blocks.erase ptr) handed (Function.update task i t') := by
  have hrest : ∀ {o q l}, Has handed (Function.update task i t') o q l →
      Has handed task o q l ∧ q ≠ ptr := by
    intro o q l hhas
    rcases has_update hhas with ⟨hoi, hold⟩ | ⟨-, heq⟩
    · refine ⟨hold, ?_⟩
      rintro rfl
      have hown : Has handed task (some i) q layout := hi
      exact hoi (h.unique hold hown)
    · rw [ht'] at heq
      cases heq
  refine h.move ptr layout (some i) (fun hhas => .inl (hrest hhas))
    (fun hhas => absurd rfl (hrest hhas).2) ?_
  rintro q l hne ⟨b, hb, hsizes⟩
  exact ⟨b, by rwa [AList.lookup_erase_ne hne], hsizes⟩

theorem freeAhead_le_of_holds {t : PoolTask} (h : t.holds = some (ptr, layout)) :
    t.freeAhead ≤ layout.blockSize := by
  cases t with
  | addingUsed => cases h; exact le_refl _
  | subtractingFree => cases h; exact le_refl _
  | countingAllocation => exact Int.natCast_nonneg _
  | freeing => exact Int.natCast_nonneg _
  | _ => cases h

theorem freeAhead_of_holds_eq_none {t : PoolTask} (h : t.holds = none) : t.freeAhead ≤ 0 := by
  cases t with
  | addingUsed => cases h
  | subtractingFree => cases h
  | subtractingUsed layout => exact Int.neg_nonpos_of_nonneg (Int.natCast_nonneg _)
  | addingFree layout => exact Int.neg_nonpos_of_nonneg (Int.natCast_nonneg _)
  | _ => exact le_refl _

/-- What the calls under way have not yet subtracted is in the blocks. -/
theorem Owned.freeAhead_le {n : ℤ} (h : Owned blocks handed task)
    (ht : Tally (fun j => (task j).freeAhead) n) : n ≤ weight Layout.size blocks := by
  obtain ⟨S, -, rfl⟩ := ht
  let key : ℕ → ℕ := fun j => ((task j).holds.map Prod.fst).getD 0
  let C := S.filter fun j => (task j).holds.isSome
  have hinj : Set.InjOn key C := by
    intro i hi j hj heq
    obtain ⟨⟨pi, li⟩, hpi⟩ := Option.isSome_iff_exists.mp (Finset.mem_filter.mp hi).2
    obtain ⟨⟨pj, lj⟩, hpj⟩ := Option.isSome_iff_exists.mp (Finset.mem_filter.mp hj).2
    obtain rfl : pi = pj := by simpa [key, hpi, hpj] using heq
    have howned : Has handed task (some i) pi li := hpi
    have howned' : Has handed task (some j) pi lj := hpj
    exact Option.some.inj (h.unique howned howned')
  have hsum : (∑ j ∈ C, weightAt Layout.size blocks (key j) : ℤ) ≤ weight Layout.size blocks := by
    exact_mod_cast sum_weightAt_le C key hinj
  have hterm : ∀ j ∈ S, (task j).freeAhead ≤ if (task j).holds.isSome then
      (weightAt Layout.size blocks (key j) : ℤ) else 0 := by
    intro j _
    cases hholds : (task j).holds with
    | none => simpa using freeAhead_of_holds_eq_none hholds
    | some c =>
        obtain ⟨q, l⟩ := c
        obtain ⟨block, hlookup, hsize, -⟩ := h.given (o := some j) hholds
        have hkey : key j = q := by simp [key, hholds]
        rw [hkey, weightAt_of_lookup hlookup, hsize]
        simpa using freeAhead_le_of_holds hholds
  have hle := Finset.sum_le_sum hterm
  rw [← Finset.sum_filter] at hle
  exact hle.trans hsum

end Ownership

/-! ### Runs -/

section Runs

open PoolTask

variable {p : PoolState} {i : ℕ} {a : PoolStep}

/-- A step changes the counters by as much as it changes what they should be. -/
theorem Booked.move (h : Booked p) {pool : TlsfPool} {t t' : PoolTask} (htask : p.task i = t)
    (howned : Owned pool.blocks pool.handed (Function.update p.task i t'))
    (htotal : pool.totalSize = p.shared.totalSize)
    (hused : (pool.usedSize : ℤ) ≡ p.shared.usedSize + (weight Layout.size pool.blocks -
      weight Layout.size p.shared.blocks + (t'.usedAhead - t.usedAhead)) [ZMOD 2 ^ 64])
    (hfree : (pool.freeSize : ℤ) = p.shared.freeSize - (weight Layout.size pool.blocks -
      weight Layout.size p.shared.blocks) + (t'.freeAhead - t.freeAhead))
    (husedWord : pool.usedSize < 2 ^ 64) (hfreeWord : pool.freeSize < 2 ^ 64)
    (hexact : ∀ d ∈ pool.deallocations, d.passed = d.allocated) :
    Booked ⟨pool, Function.update p.task i t'⟩ := by
  obtain ⟨n, hn, hmod⟩ := h.used
  refine ⟨howned, ?_, ?_, husedWord, hfreeWord, htotal ▸ h.totalWord, hexact⟩
  · refine ⟨_, hn.update i t', hused.trans ?_⟩
    rw [htask]
    have hadd := Int.ModEq.add_right (weight Layout.size pool.blocks -
      weight Layout.size p.shared.blocks + (t'.usedAhead - t.usedAhead) : ℤ) hmod
    refine hadd.trans (congrArg (· % (2 ^ 64 : ℤ)) ?_)
    ring
  · have hmoved := h.free.update i t'
    rw [htask] at hmoved
    convert hmoved using 1
    rw [hfree, htotal]
    ring

theorem blockSize_le (layout : Layout) : layout.blockSize ≤ 2 ^ 64 := by
  have hfits := layout.fits
  rw [Layout.blockSize, minBlockSize]
  exact Nat.max_le.mpr ⟨by omega, by decide⟩

theorem Booked.step {q : PoolState} {e : ℕ × PoolStep} (h : Booked p) (hok : Sufficient p e)
    (hstep : p.step act e = some q) : Booked q ∧ q.shared.totalSize = p.shared.totalSize := by
  obtain ⟨pool, t', hact, rfl⟩ := Pool.step_eq_some.mp hstep
  obtain ⟨i, a⟩ := e
  have hbooks := books_of_act hact
  dsimp only at hbooks ⊢
  generalize htask : p.task i = t at hbooks
  rw [Sufficient, htask] at hok
  cases hbooks with
  | unbooked hu =>
      refine ⟨h.move htask ?_ hu.totalSize ?_ ?_ ?_ ?_ ?_, hu.totalSize⟩
      · rw [hu.blocks, hu.handed]
        exact h.owned.update (by rw [htask, hu.holds.1, hu.holds.2])
      · rw [hu.usedSize, hu.blocks, hu.usedAhead]
        simp
      · rw [hu.freeSize, hu.blocks, hu.freeAhead]
        simp
      · exact hu.usedSize ▸ h.usedWord
      · exact hu.freeSize ▸ h.freeWord
      · exact hu.deallocations ▸ h.exact
  | take hholds hused hfree hlookup =>
      refine ⟨h.move htask (h.owned.take hlookup) rfl ?_ ?_ h.usedWord h.freeWord h.exact, rfl⟩
      · rw [hused]
        simp [usedAhead]
      · rw [hfree]
        simp [freeAhead]
  | @alloc ptr layout block hblock hfresh =>
      have hinsert := weight_insert (w := Layout.size) (m := p.shared.blocks) ptr block
      rw [weightAt_of_notMem hfresh] at hinsert
      have hsize : block.size = layout.blockSize := by
        rw [Layout.fromSizeAlign] at hblock
        split at hblock
        · cases hblock
          rfl
        · cases hblock
      refine ⟨h.move htask (h.owned.alloc hfresh hblock) rfl ?_ ?_ h.usedWord h.freeWord h.exact,
        rfl⟩
      · refine congrArg (· % (2 ^ 64 : ℤ)) ?_
        simp only [usedAhead]
        omega
      · simp only [freeAhead]
        omega
  | @addUsed ptr layout =>
      refine ⟨h.move htask (h.owned.update (by rw [htask]; rfl)) rfl ?_ ?_
        (Nat.mod_lt _ (by decide)) h.freeWord h.exact, rfl⟩
      · refine (fetchAdd_modEq _ _).trans (congrArg (· % (2 ^ 64 : ℤ)) ?_)
        simp only [usedAhead]
        ring
      · simp only [freeAhead]
        ring
  | @subtractFree ptr layout =>
      have hsub := fetchSub_of_le hok h.freeWord
      have hword := h.freeWord
      refine ⟨h.move htask (h.owned.update (by rw [htask]; rfl)) rfl ?_ ?_ h.usedWord ?_ h.exact,
        rfl⟩
      · simp [usedAhead]
      · simp only [freeAhead]
        rw [hsub]
        omega
      · show fetchSub p.shared.freeSize layout.blockSize < 2 ^ 64
        omega
  | @hand ptr layout count =>
      have hholds : (p.task i).holds = some (ptr, layout) := by
        rw [htask]
        rfl
      refine ⟨h.move htask (h.owned.hand hholds rfl) rfl ?_ ?_ h.usedWord h.freeWord h.exact, rfl⟩
      · simp [usedAhead]
      · simp [freeAhead]
  | @free ptr layout block hlookup =>
      have hholds : (p.task i).holds = some (ptr, layout) := by
        rw [htask]
        rfl
      obtain ⟨block', hblock', hsize, halign⟩ := h.owned.given (o := some i) hholds
      obtain rfl := Option.some.inj (hlookup.symm.trans hblock')
      have herase := weight_erase (w := Layout.size) (m := p.shared.blocks) ptr
      rw [weightAt_of_lookup hlookup] at herase
      refine ⟨h.move htask (h.owned.free hholds rfl) rfl ?_ ?_ h.usedWord h.freeWord ?_, rfl⟩
      · refine congrArg (· % (2 ^ 64 : ℤ)) ?_
        simp only [usedAhead]
        omega
      · simp only [freeAhead]
        omega
      · intro d hd
        rcases List.mem_cons.mp hd with rfl | hd
        · -- The block is no larger than the request, so the layouts agree.
          refine Layout.ext ?_ halign.symm
          rw [hsize]
          exact (Nat.max_eq_left hok).symm
        · exact h.exact d hd
  | @subtractUsed layout =>
      refine ⟨h.move htask (h.owned.update (by rw [htask]; rfl)) rfl ?_ ?_
        (Nat.mod_lt _ (by decide)) h.freeWord h.exact, rfl⟩
      · refine (fetchSub_modEq (blockSize_le layout)).trans (congrArg (· % (2 ^ 64 : ℤ)) ?_)
        simp only [usedAhead]
        ring
      · simp only [freeAhead]
        ring
  | @addFree layout =>
      -- What is free afterwards is part of the pool, so the counter does not overflow.
      have howned : Owned _ _ (Function.update p.task i .countingDeallocation) :=
        h.owned.update (by rw [htask]; rfl)
      have hmoved := h.free.update i .countingDeallocation
      rw [htask] at hmoved
      have hle := howned.freeAhead_le hmoved
      rw [show (PoolTask.addingFree layout).freeAhead = -layout.blockSize from rfl,
        show PoolTask.countingDeallocation.freeAhead = 0 from rfl] at hle
      have htotal := h.totalWord
      have hadd : fetchAdd p.shared.freeSize layout.blockSize =
          p.shared.freeSize + layout.blockSize := fetchAdd_of_lt (by omega)
      refine ⟨h.move htask howned rfl ?_ ?_ h.usedWord ?_ h.exact, rfl⟩
      · simp [usedAhead]
      · simp only [freeAhead]
        rw [hadd]
        push_cast
        ring
      · show fetchAdd p.shared.freeSize layout.blockSize < 2 ^ 64
        omega

theorem Booked.start (size : UInt64) : Booked (PoolState.start size) := by
  have hnone : ∀ {o ptr layout}, ¬Has (∅ : AList fun _ : ℕ => Layout) (fun _ => PoolTask.idle) o
      ptr layout := by
    intro o ptr layout hhas
    cases o <;> cases hhas
  have hword : size.toNat < 2 ^ 64 := size.toNat_lt
  refine ⟨⟨fun hhas => absurd hhas hnone, fun hhas _ => absurd hhas hnone⟩,
    ⟨0, .zero fun _ => rfl, rfl⟩, ?_, Nat.two_pow_pos 64, hword, hword, nofun⟩
  have hzero : ((PoolState.start size).shared.freeSize - (PoolState.start size).shared.totalSize +
      weight Layout.size (PoolState.start size).shared.blocks : ℤ) = 0 := by
    show (size.toNat - size.toNat + (0 : ℕ) : ℤ) = 0
    simp
  rw [hzero]
  exact .zero fun _ => rfl

end Runs

/-- In every run of concurrent allocations and deallocations whose steps are
sufficient, blocks are given back with their own layout, and whenever no call
is in progress the counters add up. -/
theorem pool_accounting (size : UInt64) (p : PoolState)
    (hreach : Reach (Pool.step PoolTask.act) Sufficient (PoolState.start size) p) :
    (∀ d ∈ p.shared.deallocations, d.passed = d.allocated) ∧
      ((∀ i, (p.task i).Rests) →
        p.shared.usedSize = (p.shared.blocks.entries.map fun e => e.2.size).sum ∧
        p.shared.usedSize + p.shared.freeSize = size.toNat ∧
        p.shared.usedSize ≤ size.toNat) := by
  have hinv : Booked p ∧ p.shared.totalSize = size.toNat := by
    refine hreach.invariant (I := fun q => Booked q ∧ q.shared.totalSize = size.toNat)
      ⟨.start size, rfl⟩ ?_
    rintro q e r ⟨hq, htotal⟩ hok hstep
    obtain ⟨hr, htotal'⟩ := hq.step hok hstep
    exact ⟨hr, htotal'.trans htotal⟩
  obtain ⟨hbooked, htotal⟩ := hinv
  refine ⟨hbooked.exact, fun hrest => ?_⟩
  have hquiet : ∀ i, (p.task i).usedAhead = 0 ∧ (p.task i).freeAhead = 0 := by
    intro i
    have hi := hrest i
    cases hcase : p.task i <;> rw [hcase] at hi <;> first | exact ⟨rfl, rfl⟩ | exact absurd hi id
  obtain ⟨n, hn, hmod⟩ := hbooked.used
  obtain rfl := hn.eq_zero fun i => (hquiet i).1
  have hzero := hbooked.free.eq_zero fun i => (hquiet i).2
  have hword := hbooked.totalWord
  have hsum : p.shared.usedSize = weight Layout.size p.shared.blocks := by
    rw [add_zero] at hmod
    have hmod' : p.shared.usedSize ≡ weight Layout.size p.shared.blocks [MOD 2 ^ 64] := by
      exact_mod_cast hmod
    exact hmod'.eq_of_lt_of_lt hbooked.usedWord (by omega)
  refine ⟨hsum, ?_, ?_⟩
  · omega
  · omega

instance (p : PoolState) (e : ℕ × PoolStep) : Decidable (Sufficient p e) := by
  unfold Sufficient
  split <;> infer_instance

def eightAligned (size : ℕ) (h : size + 8 ≤ 2 ^ 63) : Layout := ⟨size, 8, ⟨3, rfl⟩, h⟩

/-- Two allocations in turns, the first of which is given back. -/
theorem pool_accounting_two_blocks :
    ∃ p, Reach (Pool.step PoolTask.act) Sufficient (PoolState.start 1024) p ∧
      p.shared.usedSize = 32 ∧ p.shared.freeSize = 992 ∧
      (∀ d ∈ p.shared.deallocations, d.passed = d.allocated) ∧
      ((∀ i, (p.task i).Rests) →
        p.shared.usedSize = (p.shared.blocks.entries.map fun e => e.2.size).sum ∧
        p.shared.usedSize + p.shared.freeSize = (1024 : UInt64).toNat ∧
        p.shared.usedSize ≤ (1024 : UInt64).toNat) := by
  have hrun : (exec (guarded (Pool.step PoolTask.act) Sufficient) (PoolState.start 1024)
      [(0, .allocate (eightAligned 64 (by decide))), (1, .allocate (eightAligned 32 (by decide))),
        (0, .next none), (1, .next none), (0, .next (some 4096)), (1, .next (some 8192)),
        (0, .next none), (1, .next none), (0, .next none), (1, .next none), (0, .next none),
        (1, .next none), (2, .deallocate 4096), (2, .next none), (2, .next none),
        (2, .next none), (2, .next none)]).map
      (fun p => decide (p.shared.usedSize = 32 ∧ p.shared.freeSize = 992)) = some true := by
    decide +kernel
  obtain ⟨p, hexec, hdecide⟩ := Option.map_eq_some_iff.mp hrun
  obtain ⟨hused, hfree⟩ := of_decide_eq_true hdecide
  have hreach := Reach.of_exec_guarded _ hexec
  exact ⟨p, hreach, hused, hfree, pool_accounting 1024 p hreach⟩

/-- A request of 8 bytes is served with a block of 16 and given back as one of
8; and two allocations that pass the same test take more than there is. -/
theorem small_block_and_race :
    (¬∀ (size : UInt64) (p : PoolState),
      Reach (Pool.step PoolTask.act) anyStep (PoolState.start size) p →
      ∀ d ∈ p.shared.deallocations, d.passed = d.allocated) ∧
    ¬∀ (size : UInt64) (p : PoolState),
      Reach (Pool.step PoolTask.act) anyStep (PoolState.start size) p →
      (∀ i, (p.task i).Rests) → p.shared.usedSize ≤ size.toNat := by
  constructor
  · intro hall
    have hrun : (exec (Pool.step PoolTask.act) (PoolState.start 1024)
        [(0, .allocate (eightAligned 8 (by decide))), (0, .next none), (0, .next (some 4096)),
          (0, .next none), (0, .next none), (0, .next none), (0, .deallocate 4096),
          (0, .next none)]).map
        (fun p => p.shared.deallocations.map fun d => (d.passed.size, d.allocated.size)) =
          some [(8, 16)] := by
      decide +kernel
    obtain ⟨p, hexec, hsizes⟩ := Option.map_eq_some_iff.mp hrun
    obtain ⟨d, hd, heq⟩ := List.mem_map.mp (hsizes ▸ List.mem_singleton_self (8, 16))
    rw [hall 1024 p (.of_exec _ hexec) d hd] at heq
    obtain ⟨hpassed, hallocated⟩ := Prod.mk.inj heq
    omega
  · intro hall
    have hrun : (exec (Pool.step PoolTask.act) (PoolState.start 64)
        [(0, .allocate (eightAligned 64 (by decide))),
          (1, .allocate (eightAligned 64 (by decide))), (0, .next none), (1, .next none),
          (0, .next (some 4096)), (1, .next (some 8192)), (0, .next none), (1, .next none),
          (0, .next none), (1, .next none), (0, .next none), (1, .next none)]).map
        (fun p => decide (p.shared.usedSize = 128 ∧ p.task 0 = .returned (.ok (some 4096)) ∧
          p.task 1 = .returned (.ok (some 8192)))) = some true := by
      decide +kernel
    obtain ⟨p, hexec, hdecide⟩ := Option.map_eq_some_iff.mp hrun
    obtain ⟨hused, hzero, hone⟩ := of_decide_eq_true hdecide
    have hrest : ∀ i, (p.task i).Rests := by
      intro i
      match i with
      | 0 => simp [hzero, PoolTask.Rests]
      | 1 => simp [hone, PoolTask.Rests]
      | i + 2 =>
          rw [Pool.exec_task_of_ne hexec (j := i + 2) (by simp)]
          trivial
    have hle := hall 64 p (.of_exec _ hexec) hrest
    rw [hused] at hle
    exact absurd hle (by decide)

end SereinGateway.Core
