import Mathlib
import SereinGateway.Lib.Transition

/-!
Counters, and what they count: sums over the entries of a finite map, and over
the tasks of a pool.

A counter has 64 bits and wraps around; modulo that it adds and subtracts.

`weight w m` is the sum of the weights of the values of a map. Inserting and
erasing change it by the weights of the values concerned, and keys that differ
weigh together at most what the map does.

`Tally w n` says that `n` is the sum of a weight over all tasks, of which only
finitely many weigh anything. A step of a pool updates one task, and then the
sum changes by the difference of its weights.
-/

namespace SereinGateway.Lib

section Counters

/-- `fetch_add` on a counter. -/
def fetchAdd (counter n : ℕ) : ℕ := (counter + n) % 2 ^ 64

/-- `fetch_sub` on a counter. -/
def fetchSub (counter n : ℕ) : ℕ := (counter + 2 ^ 64 - n) % 2 ^ 64

theorem fetchAdd_of_lt {counter n : ℕ} (h : counter + n < 2 ^ 64) :
    fetchAdd counter n = counter + n :=
  Nat.mod_eq_of_lt h

theorem fetchSub_of_le {counter n : ℕ} (hn : n ≤ counter) (hword : counter < 2 ^ 64) :
    fetchSub counter n = counter - n := by
  rw [fetchSub, show counter + 2 ^ 64 - n = counter - n + 2 ^ 64 by omega, Nat.add_mod_right]
  exact Nat.mod_eq_of_lt (by omega)

theorem fetchAdd_modEq (counter n : ℕ) :
    (fetchAdd counter n : ℤ) ≡ counter + n [ZMOD 2 ^ 64] := by
  rw [fetchAdd]
  push_cast
  exact Int.mod_modEq _ _

theorem fetchSub_modEq {counter n : ℕ} (hn : n ≤ 2 ^ 64) :
    (fetchSub counter n : ℤ) ≡ counter - n [ZMOD 2 ^ 64] := by
  have hcast : ((counter + 2 ^ 64 - n : ℕ) : ℤ) = counter - n + 2 ^ 64 := by omega
  rw [fetchSub, Int.natCast_mod, hcast]
  exact (Int.mod_modEq _ _).trans (by simp [Int.ModEq])

end Counters

section Weight

variable {κ β ι : Type*} (w : β → ℕ)

def weight (m : AList fun _ : κ => β) : ℕ := (m.entries.map fun e => w e.2).sum

theorem length_entries (m : AList fun _ : κ => β) :
    m.entries.length = weight (fun _ => 1) m := by
  simp [weight]

variable [DecidableEq κ]

/-- The weight of the value of a key, zero if it has none. -/
def weightAt (m : AList fun _ : κ => β) (k : κ) : ℕ := ((m.lookup k).map w).getD 0

variable {w} {m : AList fun _ : κ => β} {k : κ}

theorem weightAt_of_lookup {b : β} (h : m.lookup k = some b) : weightAt w m k = w b := by
  rw [weightAt, h]
  rfl

theorem weightAt_of_notMem (h : k ∉ m) : weightAt w m k = 0 := by
  rw [weightAt, AList.lookup_eq_none.mpr h]
  rfl

theorem weight_erase (k : κ) : weight w (m.erase k) + weightAt w m k = weight w m := by
  show (List.map _ (List.kerase k m.entries)).sum + ((List.dlookup k m.entries).map w).getD 0 = _
  rw [weight]
  induction m.entries with
  | nil => rfl
  | cons e l ih =>
      obtain ⟨k', b⟩ := e
      by_cases hk : k = k'
      · subst hk
        have hrest : List.kerase k ((⟨k, b⟩ : Σ _ : κ, β) :: l) = l := List.kerase_cons_eq rfl
        rw [hrest, List.dlookup_cons_eq]
        simp only [Option.map_some, Option.getD_some, List.map_cons, List.sum_cons]
        omega
      · have hrest : List.kerase k ((⟨k', b⟩ : Σ _ : κ, β) :: l) = ⟨k', b⟩ :: List.kerase k l :=
          List.kerase_cons_ne hk
        have hvalue : List.dlookup k ((⟨k', b⟩ : Σ _ : κ, β) :: l) = List.dlookup k l :=
          List.dlookup_cons_ne _ _ hk
        rw [hrest, hvalue]
        simp only [List.map_cons, List.sum_cons]
        omega

theorem weight_insert (k : κ) (b : β) :
    weight w (m.insert k b) + weightAt w m k = weight w m + w b := by
  have herase := weight_erase (w := w) (m := m) k
  have hcons : weight w (m.insert k b) = w b + weight w (m.erase k) := rfl
  omega

theorem weightAt_insert_of_ne {k' : κ} (b : β) (h : k' ≠ k) :
    weightAt w (m.insert k b) k' = weightAt w m k' := by
  rw [weightAt, AList.lookup_insert_ne h, weightAt]

theorem weightAt_erase_self : weightAt w (m.erase k) k = 0 := by
  rw [weightAt, AList.lookup_erase]
  rfl

theorem weightAt_erase_of_ne {k' : κ} (h : k' ≠ k) :
    weightAt w (m.erase k) k' = weightAt w m k' := by
  rw [weightAt, AList.lookup_erase_ne h, weightAt]

/-- Keys that differ weigh together at most what the map does. -/
theorem sum_weightAt_le [DecidableEq ι] (S : Finset ι) (key : ι → κ)
    (hinj : Set.InjOn key S) : ∑ i ∈ S, weightAt w m (key i) ≤ weight w m := by
  induction S using Finset.induction generalizing m with
  | empty => exact Nat.zero_le _
  | insert i S hi ih =>
      have hrest : ∑ j ∈ S, weightAt w m (key j) =
          ∑ j ∈ S, weightAt w (m.erase (key i)) (key j) := by
        refine Finset.sum_congr rfl fun j hj => ?_
        have hne : key j ≠ key i := by
          intro heq
          have hji := hinj (Finset.mem_insert_of_mem hj) (Finset.mem_insert_self i S) heq
          exact hi (hji ▸ hj)
        exact (weightAt_erase_of_ne hne).symm
      have hsub := ih (m := m.erase (key i))
        (hinj.mono (Finset.coe_subset.mpr (Finset.subset_insert i S)))
      have herase := weight_erase (w := w) (m := m) (key i)
      rw [Finset.sum_insert hi, hrest]
      omega

theorem length_entries_insert_of_mem {b : β} (h : k ∈ m) :
    (m.insert k b).entries.length = m.entries.length := by
  obtain ⟨c, hc⟩ := Option.isSome_iff_exists.mp (AList.lookup_isSome.mpr h)
  have hsum := weight_insert (w := fun _ : β => 1) (m := m) k b
  rw [weightAt_of_lookup hc] at hsum
  rw [length_entries, length_entries]
  omega

theorem length_entries_insert_of_notMem {b : β} (h : k ∉ m) :
    (m.insert k b).entries.length = m.entries.length + 1 := by
  rw [AList.entries_insert_of_notMem h, List.length_cons]

theorem length_entries_erase_le (k : κ) :
    (m.erase k).entries.length ≤ m.entries.length := by
  have hsum := weight_erase (w := fun _ : β => 1) (m := m) k
  rw [length_entries, length_entries]
  omega

end Weight

section Tasks

/-- `n` is the sum of the weights of all naturals. -/
def Tally (w : ℕ → ℤ) (n : ℤ) : Prop :=
  ∃ S : Finset ℕ, (∀ i, i ∉ S → w i = 0) ∧ ∑ i ∈ S, w i = n

namespace Tally

variable {w : ℕ → ℤ} {n : ℤ}

theorem zero (h : ∀ i, w i = 0) : Tally w 0 := ⟨∅, fun i _ => h i, rfl⟩

theorem eq_zero (ht : Tally w n) (h : ∀ i, w i = 0) : n = 0 := by
  obtain ⟨S, -, rfl⟩ := ht
  exact Finset.sum_eq_zero fun i _ => h i

/-- A finite set may be enlarged. -/
theorem sum_eq (h : Tally w n) (T : Finset ℕ) :
    ∃ S : Finset ℕ, T ⊆ S ∧ (∀ i, i ∉ S → w i = 0) ∧ ∑ i ∈ S, w i = n := by
  obtain ⟨S, hout, rfl⟩ := h
  refine ⟨S ∪ T, Finset.subset_union_right, fun i hi => ?_, ?_⟩
  · exact hout i fun hmem => hi (Finset.mem_union_left T hmem)
  · refine (Finset.sum_subset Finset.subset_union_left fun i _ hi => ?_).symm
    exact hout i hi

variable {τ : Type*} {v : τ → ℤ} {task : ℕ → τ} {i : ℕ} {c : τ}

theorem update (h : Tally (fun j => v (task j)) n) (i : ℕ) (c : τ) :
    Tally (fun j => v (Function.update task i c j)) (n - v (task i) + v c) := by
  obtain ⟨S, hsub, hout, rfl⟩ := h.sum_eq {i}
  have hi : i ∈ S := hsub (Finset.mem_singleton_self i)
  refine ⟨S, fun j hj => ?_, ?_⟩
  · have hne : j ≠ i := fun h => hj (h ▸ hi)
    show v (Function.update task i c j) = 0
    rw [Function.update_of_ne hne]
    exact hout j hj
  · have hrest : ∑ j ∈ S.erase i, v (Function.update task i c j) =
        ∑ j ∈ S.erase i, v (task j) := by
      refine Finset.sum_congr rfl fun j hj => ?_
      rw [Function.update_of_ne (Finset.ne_of_mem_erase hj)]
    rw [← Finset.add_sum_erase S _ hi, hrest, Function.update_self,
      ← Finset.add_sum_erase S (fun j => v (task j)) hi]
    ring

/-- A task that moves without changing its weight. -/
theorem update_stay (h : Tally (fun j => v (task j)) n) (hc : v c = v (task i)) :
    Tally (fun j => v (Function.update task i c j)) n := by
  have hupdate := h.update i c
  rwa [hc, sub_add_cancel] at hupdate

theorem le_of_le {w' : ℕ → ℤ} {m : ℤ} (h : Tally w n) (h' : Tally w' m)
    (hle : ∀ j, w j ≤ w' j) : n ≤ m := by
  obtain ⟨S, hout, rfl⟩ := h
  obtain ⟨T, hsub, hout', rfl⟩ := h'.sum_eq S
  rw [Finset.sum_subset hsub fun j _ hj => hout j hj]
  exact Finset.sum_le_sum fun j _ => hle j

theorem nonneg (h : Tally w n) (hle : ∀ j, 0 ≤ w j) : 0 ≤ n := (zero fun _ => rfl).le_of_le h hle

/-- Members of a finite set that weigh at least one are at most as many as the sum. -/
theorem card_le (h : Tally w n) (hle : ∀ j, 0 ≤ w j) {S : Finset ℕ} (hS : ∀ j ∈ S, 1 ≤ w j) :
    (S.card : ℤ) ≤ n := by
  obtain ⟨T, hsub, hout, rfl⟩ := h.sum_eq S
  calc (S.card : ℤ) = ∑ j ∈ S, 1 := by rw [Finset.sum_const, nsmul_eq_mul, mul_one]
    _ ≤ ∑ j ∈ S, w j := Finset.sum_le_sum hS
    _ ≤ ∑ j ∈ T, w j := Finset.sum_le_sum_of_subset_of_nonneg hsub fun j _ _ => hle j

end Tally

end Tasks

end SereinGateway.Lib
