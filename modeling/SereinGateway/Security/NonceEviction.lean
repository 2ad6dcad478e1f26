import Mathlib
import SereinGateway.Security.ReplayWindow

/-!
What the replay cache gives up when it is full.

The cache makes room by sorting its entries by age and dropping the first `3 / 4`
of them, where it is described to drop the first quarter. A cache that has grown
from the empty one never holds more than its capacity, whatever path is taken.
-/

namespace SereinGateway.Security

open SereinGateway.Lib

namespace NonceCacheInner

variable {cache : NonceCacheInner} {now : ℕ} {nonce : String}
variable {drain : Shuffle (Σ _ : String, ℕ)} {entries : AList fun _ : String => ℕ}

/-- The call finds the cache full when it inserts. -/
def Full (cache : NonceCacheInner) (now : ℕ) (nonce : String) : Prop :=
  cache.holds now nonce = false ∧ nonceCacheMaxCapacity ≤ (cache.cleaned now).entries.length

/-- In some order by age, every entry of `before` but the oldest quarter is in `after` with
its time, save for the nonce that is inserted. -/
def QuarterEvicted (nonce : String) (before after : AList fun _ : String => ℕ) : Prop :=
  ∃ byAge : List (Σ _ : String, ℕ), byAge.Perm before.entries ∧
    byAge.Pairwise (fun e e' => e.2 ≤ e'.2) ∧
    ∀ e ∈ byAge.drop (before.entries.length / 4), e.1 ≠ nonce → after.lookup e.1 = some e.2

/-- The policy, for one call: the capacity is kept, and a full cache gives up entries among
its oldest quarter only. -/
structure EvictsByPolicy (drain : Shuffle (Σ _ : String, ℕ)) (now : ℕ) (nonce : String)
    (cache : NonceCacheInner) : Prop where
  capacity : (cache.checkAndInsert drain now nonce).2.entries.entries.length ≤
    nonceCacheMaxCapacity
  oldest : cache.Full now nonce → QuarterEvicted nonce (cache.cleaned now)
    (cache.checkAndInsert drain now nonce).2.entries

/-! ### Sizes -/

theorem length_insert_le (t : ℕ) :
    (entries.insert nonce t).entries.length ≤ entries.entries.length + 1 := by
  rw [AList.entries_insert, List.length_cons]
  exact Nat.succ_le_succ (List.kerase_sublist _ _).length_le

theorem length_cleaned_le : (cache.cleaned now).entries.length ≤ cache.entries.entries.length := by
  rw [cleaned]
  split
  · exact List.length_filter_le _ _
  · exact le_rfl

/-- The entries by age, as `evictOldest` sorts them. -/
def sorted (drain : Shuffle (Σ _ : String, ℕ)) (entries : AList fun _ : String => ℕ) :
    List (Σ _ : String, ℕ) :=
  (drain.order entries.entries).mergeSort (fun e e' => e.2 ≤ e'.2)

theorem length_sorted : (sorted drain entries).length = entries.entries.length := by
  rw [sorted, List.length_mergeSort, (drain.perm _).length_eq]

theorem keys_evictOldest {key : String} (h : key ∈ evictOldest drain entries) :
    key ∈ ((sorted drain entries).drop (entries.entries.length * 3 / 4)).map Sigma.fst := by
  rw [evictOldest, ← sorted, length_sorted, ← AList.lookup_isSome, AList.lookup_to_alist,
    List.dlookup_isSome] at h
  exact h

theorem length_evictOldest_le :
    (evictOldest drain entries).entries.length ≤
      entries.entries.length - entries.entries.length * 3 / 4 := by
  have hsub : (evictOldest drain entries).keys ⊆
      ((sorted drain entries).drop (entries.entries.length * 3 / 4)).map Sigma.fst := by
    intro key hkey
    exact keys_evictOldest (AList.mem_keys.mpr hkey)
  have hle := (List.subperm_of_subset (evictOldest drain entries).keys_nodup hsub).length_le
  rw [List.length_map, List.length_drop, length_sorted] at hle
  simpa only [AList.keys, List.keys, List.length_map] using hle

theorem length_checkAndInsert_le
    (h : cache.holds now nonce = true → cache.entries.entries.length ≤ nonceCacheMaxCapacity)
    (hfull : (cache.cleaned now).entries.length ≤ nonceCacheMaxCapacity) :
    (cache.checkAndInsert drain now nonce).2.entries.entries.length ≤ nonceCacheMaxCapacity := by
  have hcapacity : nonceCacheMaxCapacity = 100000 := rfl
  rw [checkAndInsert]
  split
  · rename_i hheld
    exact h hheld
  · dsimp only
    split
    · refine (length_insert_le now).trans ?_
      have hle : (evictOldest drain (cache.cleaned now)).entries.length ≤ _ :=
        length_evictOldest_le
      omega
    · refine (length_insert_le now).trans ?_
      omega

/-! ### The quarter -/

theorem checkAndInsert_of_full (h : cache.Full now nonce) :
    (cache.checkAndInsert drain now nonce).2.entries =
      (evictOldest drain (cache.cleaned now)).insert nonce now := by
  rw [checkAndInsert, if_neg (by simp [h.1])]
  exact congrArg (fun entries : AList fun _ : String => ℕ => entries.insert nonce now)
    (if_pos h.2)

theorem Full.not_quarterEvicted (h : cache.Full now nonce) :
    ¬QuarterEvicted nonce (cache.cleaned now) (cache.checkAndInsert drain now nonce).2.entries := by
  rintro ⟨byAge, hperm, -, hstays⟩
  rw [checkAndInsert_of_full h] at hstays
  have hcapacity : 100000 ≤ (cache.cleaned now).entries.length := h.2
  set before := cache.cleaned now with hbefore
  set n := before.entries.length with hn
  set keys := (byAge.drop (n / 4)).map Sigma.fst with hkeys
  have hnodup : keys.Nodup := by
    have hall : (byAge.map Sigma.fst).Nodup :=
      (hperm.map Sigma.fst).nodup_iff.mpr before.nodupKeys
    rw [hkeys, List.map_drop]
    exact hall.sublist (List.drop_sublist _ _)
  have hsub : keys.erase nonce ⊆ ((sorted drain before).drop (n * 3 / 4)).map Sigma.fst := by
    intro key hkey
    obtain ⟨hne, hmem⟩ := hnodup.mem_erase_iff.mp hkey
    obtain ⟨e, he, rfl⟩ := List.mem_map.mp hmem
    have hlookup := hstays e he hne
    rw [AList.lookup_insert_ne hne] at hlookup
    have hkept : e.1 ∈ evictOldest drain before := by
      rw [← AList.lookup_isSome, hlookup]
      rfl
    exact keys_evictOldest hkept
  have hle := (List.subperm_of_subset (hnodup.erase nonce) hsub).length_le
  have herase : keys.length - 1 ≤ (keys.erase nonce).length := by
    rw [List.length_erase]
    split <;> omega
  have hlength : keys.length = n - n / 4 := by
    rw [hkeys, List.length_map, List.length_drop, hperm.length_eq]
  rw [List.length_map, List.length_drop, length_sorted] at hle
  omega

/-- The policy is followed exactly by the calls that do not find the cache full, and that
find a nonce they reject in a cache within its capacity. -/
theorem evictsByPolicy_iff (drain : Shuffle (Σ _ : String, ℕ)) (now : ℕ) (nonce : String)
    (cache : NonceCacheInner) :
    EvictsByPolicy drain now nonce cache ↔
      if cache.holds now nonce then cache.entries.entries.length ≤ nonceCacheMaxCapacity
      else (cache.cleaned now).entries.length < nonceCacheMaxCapacity := by
  cases hholds : cache.holds now nonce
  · rw [if_neg (by simp)]
    constructor
    · intro hpolicy
      by_contra hfull
      have hpath : cache.Full now nonce := ⟨hholds, not_lt.mp hfull⟩
      exact hpath.not_quarterEvicted (hpolicy.oldest hpath)
    · intro hroom
      refine ⟨length_checkAndInsert_le (by simp [hholds]) hroom.le, fun hpath => ?_⟩
      exact absurd hpath.2 (not_le.mpr hroom)
  · rw [if_pos rfl]
    have hsame : (cache.checkAndInsert drain now nonce).2 = cache := by
      rw [checkAndInsert, if_pos hholds]
    constructor
    · intro hpolicy
      have hcapacity := hpolicy.capacity
      rwa [hsame] at hcapacity
    · intro hcapacity
      refine ⟨by rwa [hsame], fun hpath => ?_⟩
      have hnot := hpath.1
      rw [hholds] at hnot
      cases hnot

end NonceCacheInner

theorem length_le_of_reach {s : CacheClock} {start : ℕ}
    (h : Reach cacheStep anyStep ⟨.new, start⟩ s) :
    s.cache.entries.entries.length ≤ nonceCacheMaxCapacity := by
  refine h.invariant (I := fun s => s.cache.entries.entries.length ≤ nonceCacheMaxCapacity)
    (Nat.zero_le _) ?_
  rintro s c s' hcapacity - hstep
  obtain ⟨-, rfl⟩ := cacheStep_eq_some.mp hstep
  exact NonceCacheInner.length_checkAndInsert_le (fun _ => hcapacity)
    (NonceCacheInner.length_cleaned_le.trans hcapacity)

/-! ### A full cache -/

theorem toString_injective_below {i j : ℕ} (hi : i < 2 ^ 64) (hj : j < 2 ^ 64)
    (h : toString i = toString j) : i = j := by
  have hparse := congrArg parseU64 h
  rw [parseU64_toString hi, parseU64_toString hj, Option.some.injEq] at hparse
  exact hparse

/-- The nonces `0` to `n - 1`, one every nanosecond. -/
def numberedNonces (n : ℕ) (hn : n < 2 ^ 64) : AList fun _ : String => ℕ where
  entries := (List.range n).map fun i => ⟨toString i, i⟩
  nodupKeys := by
    rw [List.NodupKeys, List.keys, List.map_map]
    refine List.Nodup.map_on ?_ List.nodup_range
    intro i hi j hj heq
    rw [List.mem_range] at hi hj
    exact toString_injective_below (hi.trans hn) (hj.trans hn) heq

theorem length_numberedNonces {n : ℕ} (hn : n < 2 ^ 64) :
    (numberedNonces n hn).entries.length = n := by
  rw [numberedNonces, List.length_map, List.length_range]

theorem mem_numberedNonces {n : ℕ} (hn : n < 2 ^ 64) {nonce : String}
    (h : nonce ∈ numberedNonces n hn) : (parseU64 nonce).isSome := by
  rw [AList.mem_keys, AList.keys, numberedNonces, List.keys, List.map_map, List.mem_map] at h
  obtain ⟨i, hi, rfl⟩ := h
  rw [List.mem_range] at hi
  rw [Function.comp_apply, parseU64_toString (hi.trans hn)]
  rfl

theorem capacity_lt : nonceCacheMaxCapacity < 2 ^ 64 := by
  norm_num [nonceCacheMaxCapacity]

def fullCache : NonceCacheInner where
  entries := numberedNonces nonceCacheMaxCapacity capacity_lt
  insertCount := nonceCacheMaxCapacity

theorem fullCache_full : fullCache.Full nonceCacheMaxCapacity "n-1" := by
  constructor
  · have habsent : "n-1" ∉ fullCache.entries := by
      intro hmem
      have hparse := mem_numberedNonces capacity_lt hmem
      revert hparse
      decide
    rw [NonceCacheInner.holds, AList.lookup_eq_none.mpr habsent]
    rfl
  · have hcount : ¬(nonceCacheMaxCapacity + 1) % cleanupInterval = 0 := by
      norm_num [nonceCacheMaxCapacity, cleanupInterval]
    have hcleaned : fullCache.cleaned nonceCacheMaxCapacity = fullCache.entries := if_neg hcount
    rw [hcleaned]
    exact (length_numberedNonces capacity_lt).ge

/-- It does not keep three quarters of its entries. -/
theorem fullCache_not_by_policy :
    ¬NonceCacheInner.EvictsByPolicy .id nonceCacheMaxCapacity "n-1" fullCache :=
  fun h => fullCache_full.not_quarterEvicted (h.oldest fullCache_full)

end SereinGateway.Security
