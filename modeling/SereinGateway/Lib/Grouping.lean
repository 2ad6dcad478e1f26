import Mathlib

/-!
Grouping a sequence by key into a hash map, and reading the map back in an
unspecified order.

A hash map is Mathlib's `AList`: a list of entries with distinct keys. What a
program may observe by iterating over it is not that list but some
permutation of it, chosen by the hasher; `Shuffle` is such a choice. Results
about iteration are therefore stated for every `Shuffle`, and the lemmas
below reduce them to facts about membership.
-/

namespace SereinGateway.Lib

/-- An iteration order: for every list of entries, some permutation of it. -/
structure Shuffle (α : Type*) where
  order : List α → List α
  perm : ∀ l, (order l).Perm l

namespace Shuffle

variable {α : Type*}

def id : Shuffle α := ⟨fun l => l, fun l => List.Perm.refl l⟩

@[simp] theorem mem_order (iter : Shuffle α) {l : List α} {a : α} :
    a ∈ iter.order l ↔ a ∈ l := (iter.perm l).mem_iff

/-- The order that keeps the entries satisfying `p` for the end. -/
def last (p : α → Bool) : Shuffle α where
  order l := l.filter (fun a => !p a) ++ l.filter p
  perm l := by
    have h := List.filter_append_perm (fun a => !p a) l
    simpa using h

end Shuffle

section Retain

variable {κ : Type*} {β : κ → Type*}

def retain (p : Sigma β → Bool) (m : AList β) : AList β :=
  ⟨m.entries.filter p, .sublist List.filter_sublist m.nodupKeys⟩

theorem retain_eq_self {p : Sigma β → Bool} {m : AList β} (h : ∀ e ∈ m.entries, p e = true) :
    retain p m = m := by
  refine AList.ext ?_
  exact List.filter_eq_self.mpr h

theorem retain_retain (p q : Sigma β → Bool) (m : AList β) :
    retain p (retain q m) = retain (fun e => p e && q e) m := by
  refine AList.ext ?_
  exact List.filter_filter

variable [DecidableEq κ]

theorem lookup_retain {p : Sigma β → Bool} {m : AList β} {k : κ} {v : β k}
    (h : m.lookup k = some v) (hp : p ⟨k, v⟩ = true) : (retain p m).lookup k = some v := by
  rw [← Option.mem_def, AList.mem_lookup_iff] at h ⊢
  exact List.mem_filter.mpr ⟨h, hp⟩

theorem lookup_retain_eq (p : Sigma β → Bool) (m : AList β) (k : κ) :
    (retain p m).lookup k = (m.lookup k).filter fun v => p ⟨k, v⟩ := by
  ext v
  rw [← Option.mem_def, ← Option.mem_def, AList.mem_lookup_iff, Option.mem_filter_iff,
    AList.mem_lookup_iff]
  exact List.mem_filter

theorem retain_eq_erase {p : Sigma β → Bool} {m : AList β} {k : κ}
    (h : ∀ e ∈ m.entries, p e = true ↔ e.1 ≠ k) : retain p m = m.erase k := by
  refine AList.ext ?_
  show m.entries.filter p = m.entries.kerase k
  have hnodup := m.nodupKeys
  generalize m.entries = l at h hnodup
  induction l with
  | nil => rfl
  | cons e l ih =>
      have hhead := h e List.mem_cons_self
      obtain ⟨hfresh, hrest⟩ := List.nodupKeys_cons.mp hnodup
      have htail := ih (fun e' he' => h e' (List.mem_cons_of_mem _ he')) hrest
      by_cases hk : k = e.1
      · have hdrop : p e = false := by
          rw [← Bool.not_eq_true, hhead]
          exact fun hne => hne hk.symm
        rw [List.filter_cons_of_neg (by simp [hdrop]), List.kerase_cons_eq hk, htail]
        exact List.kerase_of_notMem_keys (hk ▸ hfresh)
      · rw [List.filter_cons_of_pos (hhead.mpr (Ne.symm hk)), List.kerase_cons_ne hk, htail]

end Retain

section Update

variable {κ β : Type*} [DecidableEq κ]

theorem lookup_insert_eq_update (m : AList fun _ : κ => β) (k : κ) (v : β) :
    (fun k' => (m.insert k v).lookup k') =
      Function.update (fun k' => m.lookup k') k (some v) := by
  funext k'
  by_cases hk : k' = k
  · subst hk
    rw [AList.lookup_insert, Function.update_self]
  · rw [AList.lookup_insert_ne hk, Function.update_of_ne hk]

theorem lookup_erase_eq_update (m : AList fun _ : κ => β) (k : κ) :
    (fun k' => (m.erase k).lookup k') = Function.update (fun k' => m.lookup k') k none := by
  funext k'
  by_cases hk : k' = k
  · subst hk
    rw [AList.lookup_erase, Function.update_self]
  · rw [AList.lookup_erase_ne hk, Function.update_of_ne hk]

end Update

section MaxByKey

variable {α : Type*}

/-- The element of greatest key, the last one among equals. -/
def maxByKey (f : α → ℕ) : List α → Option α
  | [] => none
  | a :: l => some (l.foldl (fun best x => if f best ≤ f x then x else best) a)

theorem foldl_max_mem (f : α → ℕ) (l : List α) (a : α) :
    l.foldl (fun best x => if f best ≤ f x then x else best) a ∈ a :: l := by
  induction l generalizing a with
  | nil => simp
  | cons b l ih =>
      simp only [List.foldl_cons]
      have h := ih (if f a ≤ f b then b else a)
      rcases List.mem_cons.mp h with h | h
      · rw [h]
        split <;> simp
      · exact List.mem_cons_of_mem _ (List.mem_cons_of_mem _ h)

theorem foldl_max_ge (f : α → ℕ) (l : List α) (a : α) :
    ∀ x ∈ a :: l, f x ≤ f (l.foldl (fun best x => if f best ≤ f x then x else best) a) := by
  induction l generalizing a with
  | nil => simp
  | cons b l ih =>
      intro x hx
      simp only [List.foldl_cons]
      have hbest := ih (if f a ≤ f b then b else a)
      have hhead := hbest _ (List.mem_cons_self ..)
      rcases List.mem_cons.mp hx with rfl | hx
      · refine le_trans ?_ hhead
        split <;> omega
      · rcases List.mem_cons.mp hx with rfl | hx
        · refine le_trans ?_ hhead
          split <;> omega
        · exact hbest x (List.mem_cons_of_mem _ hx)

@[simp] theorem maxByKey_eq_none {f : α → ℕ} {l : List α} :
    maxByKey f l = none ↔ l = [] := by
  cases l <;> simp [maxByKey]

theorem maxByKey_mem {f : α → ℕ} {l : List α} {a : α} (h : maxByKey f l = some a) :
    a ∈ l := by
  cases l with
  | nil => simp [maxByKey] at h
  | cons b l =>
      simp only [maxByKey, Option.some.injEq] at h
      exact h ▸ foldl_max_mem f l b

theorem maxByKey_ge {f : α → ℕ} {l : List α} {a : α} (h : maxByKey f l = some a) :
    ∀ x ∈ l, f x ≤ f a := by
  cases l with
  | nil => simp
  | cons b l =>
      simp only [maxByKey, Option.some.injEq] at h
      exact h ▸ foldl_max_ge f l b

theorem maxByKey_concat {f : α → ℕ} {l : List α} {a : α} (h : ∀ x ∈ l, f x ≤ f a) :
    maxByKey f (l ++ [a]) = some a := by
  cases l with
  | nil => rfl
  | cons b l =>
      simp only [List.cons_append, maxByKey, List.foldl_append, List.foldl_cons,
        List.foldl_nil, Option.some.injEq]
      exact if_pos (h _ (foldl_max_mem f l b))

end MaxByKey

section GroupFold

variable {α κ ν : Type*} [DecidableEq κ]

/-- `entry(k).or_insert(init)` followed by an update of the entry in place. -/
def upsert (k : κ) (init : ν) (f : ν → ν) (m : AList fun _ : κ => ν) :
    AList fun _ : κ => ν :=
  m.insert k (f ((m.lookup k).getD init))

/-- Fold a sequence into a map, one entry for each key that occurs. -/
def groupFold (key : α → κ) (init : ν) (upd : ν → α → ν) (l : List α) :
    AList fun _ : κ => ν :=
  l.foldl (fun m a => upsert (key a) init (fun v => upd v a) m) ∅

variable (key : α → κ) (init : ν) (upd : ν → α → ν)

@[simp] theorem groupFold_nil : groupFold key init upd [] = ∅ := rfl

theorem groupFold_concat (l : List α) (a : α) :
    groupFold key init upd (l ++ [a]) =
      upsert (key a) init (fun v => upd v a) (groupFold key init upd l) := by
  simp [groupFold]

theorem lookup_groupFold (l : List α) (k : κ) :
    (groupFold key init upd l).lookup k =
      if l.filter (fun a => key a = k) = [] then none
      else some ((l.filter (fun a => key a = k)).foldl upd init) := by
  induction l using List.reverseRecOn with
  | nil => simp
  | append_singleton l a ih =>
      rw [groupFold_concat, upsert]
      by_cases hk : key a = k
      · subst hk
        rw [AList.lookup_insert, ih]
        simp only [List.filter_append, List.filter_cons, decide_true, if_true,
          List.filter_nil, List.append_eq_nil_iff, List.cons_ne_self, and_false,
          if_false, List.foldl_append, List.foldl_cons, List.foldl_nil]
        split
        · rename_i hnil
          simp [hnil]
        · rfl
      · rw [AList.lookup_insert_ne (Ne.symm hk), ih]
        simp [List.filter_append, hk]

theorem mem_groupFold {l : List α} {e : Σ _ : κ, ν} :
    e ∈ (groupFold key init upd l).entries ↔
      (∃ a ∈ l, key a = e.1) ∧
        e.2 = (l.filter (fun a => key a = e.1)).foldl upd init := by
  obtain ⟨k, v⟩ := e
  rw [← AList.mem_lookup_iff, Option.mem_def, lookup_groupFold]
  have hex : (∃ a ∈ l, key a = k) ↔ l.filter (fun a => key a = k) ≠ [] := by
    simp [List.filter_eq_nil_iff]
  rw [hex]
  split
  · rename_i hnil
    simp [hnil]
  · rename_i hnil
    simp only [Option.some.injEq, ne_eq, hnil, not_false_eq_true, true_and]
    exact eq_comm

end GroupFold

end SereinGateway.Lib
