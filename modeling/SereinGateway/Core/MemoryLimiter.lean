import Mathlib
import SereinGateway.Lib.Transition

/-!
The limiter of a store's linear memory.

The runtime asks the limiter before it creates or grows a memory, with the
size this memory wants, and grows it exactly if the answer is yes. The limiter
keeps no total, so what it bounds is each memory; the store is bounded exactly
if it never has more than one memory, or if the limit is below one page.
-/

namespace SereinGateway.Core

open SereinGateway.Lib

def wasmPageSizeBytes : ℕ := 64 * 1024

def maxInstanceMemoryBytes : ℕ := 256 * 1024 * 1024

structure MemoryResourceLimiter where
  maxMemoryBytes : ℕ
  deriving DecidableEq, Repr

namespace MemoryResourceLimiter

def default256mb : MemoryResourceLimiter := ⟨maxInstanceMemoryBytes⟩

def memoryGrowing (limiter : MemoryResourceLimiter) (_current desired : ℕ)
    (_maximum : Option ℕ) : Bool :=
  if limiter.maxMemoryBytes < desired then false else true

end MemoryResourceLimiter

/-! ### The memories of a store -/

/-- A memory of a store is to have some more pages. -/
structure GrowthRequest where
  memory : ℕ
  pages : ℕ
  maximum : Option ℕ

/-- The runtime serves a request. The state is the size of each memory, in
bytes; a memory that has not been created yet has none. -/
def growMemory (limiter : MemoryResourceLimiter) (memories : List ℕ) (r : GrowthRequest) :
    Option (List ℕ) :=
  memories[r.memory]?.map fun current =>
    let desired := current + r.pages * wasmPageSizeBytes
    if limiter.memoryGrowing current desired r.maximum then memories.set r.memory desired
    else memories

/-- What the limiter does keep: every memory consists of pages and is below the
limit. -/
def EachBelow (limiter : MemoryResourceLimiter) (memories : List ℕ) : Prop :=
  ∀ m ∈ memories, wasmPageSizeBytes ∣ m ∧ m ≤ limiter.maxMemoryBytes

section Runs

variable {limiter : MemoryResourceLimiter} {memories memories' : List ℕ} {r : GrowthRequest}

theorem length_growMemory (h : growMemory limiter memories r = some memories') :
    memories'.length = memories.length := by
  obtain ⟨current, -, rfl⟩ := Option.map_eq_some_iff.mp h
  dsimp only
  split
  · exact List.length_set
  · rfl

theorem EachBelow.step (hbelow : EachBelow limiter memories)
    (h : growMemory limiter memories r = some memories') : EachBelow limiter memories' := by
  obtain ⟨current, hcurrent, rfl⟩ := Option.map_eq_some_iff.mp h
  obtain ⟨hpages, -⟩ := hbelow current (List.mem_of_getElem? hcurrent)
  dsimp only
  split
  · rename_i hgrown
    intro m hm
    rcases List.mem_or_eq_of_mem_set hm with hm | rfl
    · exact hbelow m hm
    · refine ⟨Dvd.dvd.add hpages (Nat.dvd_mul_left ..), ?_⟩
      simpa [MemoryResourceLimiter.memoryGrowing] using hgrown
  · exact hbelow

/-- A store with the given number of memories, none of which is created. -/
theorem eachBelow_of_reach {n : ℕ}
    (h : Reach (growMemory limiter) anyStep (List.replicate n 0) memories) :
    memories.length = n ∧ EachBelow limiter memories := by
  refine h.invariant (I := fun s => s.length = n ∧ EachBelow limiter s) ?_ ?_
  · refine ⟨List.length_replicate, fun m hm => ?_⟩
    obtain rfl := List.eq_of_mem_replicate hm
    exact ⟨dvd_zero _, Nat.zero_le _⟩
  · rintro s r s' ⟨hlength, hbelow⟩ - hstep
    exact ⟨(length_growMemory hstep).trans hlength, hbelow.step hstep⟩

theorem sum_le_of_single (hlength : memories.length ≤ 1) (hbelow : EachBelow limiter memories) :
    memories.sum ≤ limiter.maxMemoryBytes := by
  match memories with
  | [] => exact Nat.zero_le _
  | [m] => simpa using (hbelow m List.mem_cons_self).2
  | _ :: _ :: _ => simp at hlength

theorem sum_le_of_below_page (hlimit : limiter.maxMemoryBytes < wasmPageSizeBytes)
    (hbelow : EachBelow limiter memories) : memories.sum ≤ limiter.maxMemoryBytes := by
  have hzero : ∀ m ∈ memories, m = 0 := by
    intro m hm
    obtain ⟨hpages, hle⟩ := hbelow m hm
    exact Nat.eq_zero_of_dvd_of_lt hpages (by omega)
  rw [List.sum_eq_zero hzero]
  exact Nat.zero_le _

theorem exists_exceeding {n : ℕ} (hn : 2 ≤ n)
    (hlimit : wasmPageSizeBytes ≤ limiter.maxMemoryBytes) :
    ∃ memories, Reach (growMemory limiter) anyStep (List.replicate n 0) memories ∧
      limiter.maxMemoryBytes < memories.sum := by
  obtain ⟨rest, rfl⟩ := Nat.exists_eq_add_of_le' hn
  obtain ⟨pages, hpages⟩ : ∃ k, k = limiter.maxMemoryBytes / wasmPageSizeBytes := ⟨_, rfl⟩
  have hpos : 0 < wasmPageSizeBytes := by decide
  have hone : 1 ≤ pages := by
    rw [hpages]
    exact (Nat.one_le_div_iff hpos).mpr hlimit
  have hle : pages * wasmPageSizeBytes ≤ limiter.maxMemoryBytes := by
    rw [hpages]
    exact Nat.div_mul_le_self ..
  have hlt : limiter.maxMemoryBytes < (pages + 1) * wasmPageSizeBytes := by
    rw [hpages]
    exact (Nat.div_lt_iff_lt_mul hpos).mp (Nat.lt_succ_self _)
  have hgrown : limiter.memoryGrowing 0 (pages * wasmPageSizeBytes) none = true := by
    simp [MemoryResourceLimiter.memoryGrowing, hle]
  have hfirst : growMemory limiter (List.replicate (rest + 2) 0) ⟨0, pages, none⟩ =
      some (pages * wasmPageSizeBytes :: List.replicate (rest + 1) 0) := by
    simp [growMemory, hgrown, List.replicate_succ]
  have hsecond : growMemory limiter
      (pages * wasmPageSizeBytes :: List.replicate (rest + 1) 0) ⟨1, pages, none⟩ =
      some (pages * wasmPageSizeBytes :: pages * wasmPageSizeBytes ::
        List.replicate rest 0) := by
    simp [growMemory, hgrown, List.replicate_succ]
  refine ⟨_, (Reach.refl.tail trivial hfirst).tail trivial hsecond, ?_⟩
  have hpage : (pages + 1) * wasmPageSizeBytes ≤ (pages + pages) * wasmPageSizeBytes :=
    Nat.mul_le_mul_right _ (Nat.add_le_add_left hone _)
  rw [List.sum_cons, List.sum_cons, ← Nat.add_assoc, ← Nat.add_mul]
  exact (hlt.trans_le hpage).trans_le (Nat.le_add_right _ _)

end Runs

/-- The limiter bounds the store, for every sequence of requests, exactly if
there is at most one memory or none can have a page. -/
theorem store_bounded_iff (limiter : MemoryResourceLimiter) (n : ℕ) :
    (∀ memories, Reach (growMemory limiter) anyStep (List.replicate n 0) memories →
      memories.sum ≤ limiter.maxMemoryBytes) ↔
    n ≤ 1 ∨ limiter.maxMemoryBytes < wasmPageSizeBytes := by
  constructor
  · intro hall
    by_contra hnot
    rw [not_or, Nat.not_le, Nat.not_lt] at hnot
    obtain ⟨memories, hreach, hlt⟩ := exists_exceeding hnot.1 hnot.2
    exact absurd (hall memories hreach) (Nat.not_le.mpr hlt)
  · intro hcase memories hreach
    obtain ⟨hlength, hbelow⟩ := eachBelow_of_reach hreach
    rcases hcase with hn | hlimit
    · exact sum_le_of_single (hlength ▸ hn) hbelow
    · exact sum_le_of_below_page hlimit hbelow

/-- Two memories of 256 MiB under the limiter of 256 MiB. -/
theorem two_memories_exceed :
    ¬∀ (limiter : MemoryResourceLimiter) (n : ℕ) (memories : List ℕ),
      Reach (growMemory limiter) anyStep (List.replicate n 0) memories →
      memories.sum ≤ limiter.maxMemoryBytes := by
  intro hall
  have hrun : exec (growMemory .default256mb) (List.replicate 2 0)
      [⟨0, 4096, none⟩, ⟨1, 4096, none⟩] = some [268435456, 268435456] := by
    simp [exec, growMemory, MemoryResourceLimiter.memoryGrowing,
      MemoryResourceLimiter.default256mb, maxInstanceMemoryBytes, wasmPageSizeBytes]
  exact absurd (hall .default256mb 2 _ (Reach.of_exec _ hrun)) (by decide)

end SereinGateway.Core
