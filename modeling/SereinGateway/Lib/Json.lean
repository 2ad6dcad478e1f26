import Mathlib.Data.List.Induction
import Mathlib.Data.List.Sort
import Mathlib.Data.String.Basic

/-!
JSON trees and the normal form that sorts the keys of every object.

An object is a list of members in the order in which a serialiser would write
them; a tree is well formed when no object has two members with one key. Two
trees are the same up to key order when one is obtained from the other by
permuting members of objects, at any depth. Sorting the members of every
object is a complete invariant of that relation: well-formed trees have the
same sorted form exactly when they are the same up to key order.
-/

namespace SereinGateway.Lib

section SortedInsert

variable {κ α : Type*} [LinearOrder κ]

/-- Insertion into an ordered map, replacing the value of a key already there. -/
@[grind =] def btreeInsert (k : κ) (v : α) : List (κ × α) → List (κ × α)
  | [] => [(k, v)]
  | (k', v') :: m =>
      if k < k' then (k, v) :: (k', v') :: m
      else if k = k' then (k, v) :: m
      else (k', v') :: btreeInsert k v m

/-- Collecting entries into an ordered map and listing it in key order. -/
def btreeCollect (l : List (κ × α)) : List (κ × α) :=
  l.foldl (fun m e => btreeInsert e.1 e.2 m) []

theorem btreeInsert_perm {k : κ} {v : α} {m : List (κ × α)} (h : k ∉ m.map Prod.fst) :
    (btreeInsert k v m).Perm ((k, v) :: m) := by
  induction m with
  | nil => exact List.Perm.refl _
  | cons e m ih =>
      obtain ⟨k', v'⟩ := e
      simp only [List.map_cons, List.mem_cons, not_or] at h
      rw [btreeInsert]
      split
      · exact List.Perm.refl _
      · rw [if_neg h.1]
        exact ((ih h.2).cons _).trans (List.Perm.swap _ _ _)

theorem mem_keys_btreeInsert {k : κ} {v : α} {m : List (κ × α)} {x : κ} :
    x ∈ (btreeInsert k v m).map Prod.fst ↔ x = k ∨ x ∈ m.map Prod.fst := by
  induction m with
  | nil => simp [btreeInsert]
  | cons e m ih =>
      obtain ⟨k', v'⟩ := e
      rw [btreeInsert]
      split
      · simp
      · split
        · rename_i hk
          subst hk
          simp
        · simp only [List.map_cons, List.mem_cons, ih]
          tauto

theorem btreeInsert_sorted {k : κ} {v : α} {m : List (κ × α)}
    (h : (m.map Prod.fst).Pairwise (· < ·)) :
    ((btreeInsert k v m).map Prod.fst).Pairwise (· < ·) := by
  induction m with
  | nil => simp [btreeInsert]
  | cons e m ih =>
      obtain ⟨k', v'⟩ := e
      simp only [List.map_cons, List.pairwise_cons] at h
      rw [btreeInsert]
      split
      · rename_i hlt
        simp only [List.map_cons, List.pairwise_cons, List.mem_cons]
        refine ⟨?_, h⟩
        rintro x (rfl | hx)
        · exact hlt
        · exact hlt.trans (h.1 x hx)
      · rename_i hnlt
        split
        · rename_i hk
          subst hk
          exact List.pairwise_cons.mpr h
        · rename_i hne
          simp only [List.map_cons, List.pairwise_cons]
          refine ⟨?_, ih h.2⟩
          intro x hx
          rcases mem_keys_btreeInsert.mp hx with rfl | hx
          · exact lt_of_le_of_ne (not_lt.mp hnlt) (Ne.symm hne)
          · exact h.1 x hx

theorem btreeCollect_concat (l : List (κ × α)) (e : κ × α) :
    btreeCollect (l ++ [e]) = btreeInsert e.1 e.2 (btreeCollect l) := by
  simp [btreeCollect]

theorem btreeCollect_sorted (l : List (κ × α)) :
    ((btreeCollect l).map Prod.fst).Pairwise (· < ·) := by
  induction l using List.reverseRecOn with
  | nil => simp [btreeCollect]
  | append_singleton l e ih =>
      rw [btreeCollect_concat]
      exact btreeInsert_sorted ih

theorem btreeCollect_perm {l : List (κ × α)} (h : (l.map Prod.fst).Nodup) :
    (btreeCollect l).Perm l := by
  induction l using List.reverseRecOn with
  | nil => exact List.Perm.refl _
  | append_singleton l e ih =>
      rw [List.map_append, List.nodup_append] at h
      have hperm := ih h.1
      have hnot : e.1 ∉ (btreeCollect l).map Prod.fst := by
        rw [(hperm.map Prod.fst).mem_iff]
        intro hmem
        exact h.2.2 _ hmem _ (by simp) rfl
      rw [btreeCollect_concat]
      exact (btreeInsert_perm hnot).trans
        ((hperm.cons e).trans (List.perm_append_singleton e l).symm)

theorem eq_of_perm_of_sorted_keys {l₁ l₂ : List (κ × α)} (h : l₁.Perm l₂)
    (h₁ : (l₁.map Prod.fst).Pairwise (· < ·)) (h₂ : (l₂.map Prod.fst).Pairwise (· < ·)) :
    l₁ = l₂ := by
  have hasymm : ∀ a b : κ × α, a ∈ l₁ → b ∈ l₂ → a.1 < b.1 → b.1 < a.1 → a = b := by
    intro a b _ _ hab hba
    exact absurd hab hba.asymm
  exact List.Perm.eq_of_pairwise hasymm (List.pairwise_map.mp h₁) (List.pairwise_map.mp h₂) h

theorem btreeCollect_congr {l₁ l₂ : List (κ × α)} (h : l₁.Perm l₂)
    (hnodup : (l₁.map Prod.fst).Nodup) : btreeCollect l₁ = btreeCollect l₂ := by
  have hnodup₂ : (l₂.map Prod.fst).Nodup := (h.map Prod.fst).nodup_iff.mp hnodup
  refine eq_of_perm_of_sorted_keys ?_ (btreeCollect_sorted l₁) (btreeCollect_sorted l₂)
  exact (btreeCollect_perm hnodup).trans (h.trans (btreeCollect_perm hnodup₂).symm)

theorem btreeCollect_of_sorted {l : List (κ × α)} (h : (l.map Prod.fst).Pairwise (· < ·)) :
    btreeCollect l = l :=
  eq_of_perm_of_sorted_keys (btreeCollect_perm (h.imp fun hab => ne_of_lt hab))
    (btreeCollect_sorted l) h

end SortedInsert

/-- A JSON tree with numbers in `ν`. -/
inductive Json (ν : Type) where
  | null
  | bool (b : Bool)
  | number (n : ν)
  | string (s : String)
  | array (elems : List (Json ν))
  | object (members : List (String × Json ν))

namespace Json

variable {ν : Type}

section Induction

variable {P : Json ν → Prop} (null : P .null) (bool : ∀ b, P (.bool b))
  (number : ∀ n, P (.number n)) (string : ∀ s, P (.string s))
  (array : ∀ elems : List (Json ν), (∀ v ∈ elems, P v) → P (.array elems))
  (object : ∀ members : List (String × Json ν), (∀ e ∈ members, P e.2) → P (.object members))

include null bool number string array object

set_option linter.unusedSectionVars false

mutual

/-- Structural induction, with one hypothesis for each element of an array
and each member of an object. -/
@[elab_as_elim]
theorem induct : ∀ v : Json ν, P v
  | .null => null
  | .bool b => bool b
  | .number n => number n
  | .string s => string s
  | .array elems => array elems (induct_elems elems)
  | .object members => object members (induct_members members)

theorem induct_elems : ∀ elems : List (Json ν), ∀ v ∈ elems, P v
  | [] => List.forall_mem_nil _
  | v :: elems => List.forall_mem_cons.mpr ⟨induct v, induct_elems elems⟩

theorem induct_members : ∀ members : List (String × Json ν), ∀ e ∈ members, P e.2
  | [] => List.forall_mem_nil _
  | (_, v) :: members => List.forall_mem_cons.mpr ⟨induct v, induct_members members⟩

end

end Induction

/-- No object of the tree has two members with one key. -/
inductive WellFormed : Json ν → Prop
  | null : WellFormed .null
  | bool (b : Bool) : WellFormed (.bool b)
  | number (n : ν) : WellFormed (.number n)
  | string (s : String) : WellFormed (.string s)
  | array {elems : List (Json ν)} : (∀ v ∈ elems, WellFormed v) → WellFormed (.array elems)
  | object {members : List (String × Json ν)} : (members.map Prod.fst).Nodup →
      (∀ e ∈ members, WellFormed e.2) → WellFormed (.object members)

theorem wellFormed_array {elems : List (Json ν)} :
    WellFormed (.array elems) ↔ ∀ v ∈ elems, WellFormed v := by
  constructor
  · rintro ⟨⟩
    assumption
  · exact .array

theorem wellFormed_object {members : List (String × Json ν)} :
    WellFormed (.object members) ↔
      (members.map Prod.fst).Nodup ∧ ∀ e ∈ members, WellFormed e.2 := by
  constructor
  · rintro ⟨⟩
    constructor <;> assumption
  · rintro ⟨hnodup, hall⟩
    exact .object hnodup hall

mutual

@[grind =] def sortKeys : Json ν → Json ν
  | .null => .null
  | .bool b => .bool b
  | .number n => .number n
  | .string s => .string s
  | .array elems => .array (sortKeysElems elems)
  | .object members => .object (btreeCollect (sortKeysMembers members))

@[grind =] def sortKeysElems : List (Json ν) → List (Json ν)
  | [] => []
  | v :: elems => sortKeys v :: sortKeysElems elems

@[grind =] def sortKeysMembers : List (String × Json ν) → List (String × Json ν)
  | [] => []
  | (k, v) :: members => (k, sortKeys v) :: sortKeysMembers members

end

theorem sortKeysElems_eq_map (elems : List (Json ν)) :
    sortKeysElems elems = elems.map sortKeys := by
  induction elems with
  | nil => rfl
  | cons v elems ih => rw [sortKeysElems, ih, List.map_cons]

/-- Sorting below a member keeps its key. -/
def sortMember (e : String × Json ν) : String × Json ν := (e.1, sortKeys e.2)

theorem sortKeysMembers_eq_map (members : List (String × Json ν)) :
    sortKeysMembers members = members.map sortMember := by
  induction members with
  | nil => rfl
  | cons e members ih =>
      obtain ⟨k, v⟩ := e
      rw [sortKeysMembers, ih, List.map_cons]
      rfl

theorem sortKeys_array (elems : List (Json ν)) :
    sortKeys (.array elems) = .array (elems.map sortKeys) := by
  rw [sortKeys, sortKeysElems_eq_map]

theorem sortKeys_object (members : List (String × Json ν)) :
    sortKeys (.object members) = .object (btreeCollect (members.map sortMember)) := by
  rw [sortKeys, sortKeysMembers_eq_map]

@[simp] theorem keys_map_sortMember (members : List (String × Json ν)) :
    (members.map sortMember).map Prod.fst = members.map Prod.fst := by
  rw [List.map_map]
  rfl

theorem collect_sortMember_perm {members : List (String × Json ν)}
    (h : (members.map Prod.fst).Nodup) :
    (btreeCollect (members.map sortMember)).Perm (members.map sortMember) := by
  apply btreeCollect_perm
  rw [keys_map_sortMember]
  exact h

theorem btreeInsert_map (f : Json ν → Json ν) (k : String) (v : Json ν)
    (m : List (String × Json ν)) :
    btreeInsert k (f v) (m.map fun e => (e.1, f e.2)) =
      (btreeInsert k v m).map fun e => (e.1, f e.2) := by
  induction m with
  | nil => rfl
  | cons e m ih =>
      obtain ⟨k', v'⟩ := e
      simp only [List.map_cons, btreeInsert]
      split
      · rfl
      · split
        · rfl
        · rw [List.map_cons, ih]

/-- Sorting the members and then descending into them, in that order, gives
the same tree. -/
theorem sortKeys_object_descend (members : List (String × Json ν)) :
    sortKeys (.object members) = .object ((btreeCollect members).map sortMember) := by
  rw [sortKeys_object]
  congr 1
  induction members using List.reverseRecOn with
  | nil => rfl
  | append_singleton members e ih =>
      rw [List.map_append, List.map_singleton, btreeCollect_concat, btreeCollect_concat, ih]
      exact btreeInsert_map sortKeys e.1 e.2 _

theorem WellFormed.sortKeys {v : Json ν} (h : v.WellFormed) : v.sortKeys.WellFormed := by
  induction v using induct with
  | null => exact .null
  | bool b => exact .bool b
  | number n => exact .number n
  | string s => exact .string s
  | array elems ih =>
      rw [wellFormed_array] at h
      rw [sortKeys_array, wellFormed_array]
      intro v hv
      obtain ⟨w, hw, rfl⟩ := List.mem_map.mp hv
      exact ih w hw (h w hw)
  | object members ih =>
      rw [wellFormed_object] at h
      have hperm := collect_sortMember_perm h.1
      rw [sortKeys_object, wellFormed_object]
      refine ⟨?_, ?_⟩
      · rw [(hperm.map Prod.fst).nodup_iff, keys_map_sortMember]
        exact h.1
      · intro e he
        obtain ⟨e', he', rfl⟩ := List.mem_map.mp (hperm.mem_iff.mp he)
        exact ih e' he' (h.2 e' he')

theorem sortKeys_idem {v : Json ν} (h : v.WellFormed) : v.sortKeys.sortKeys = v.sortKeys := by
  induction v using induct with
  | null => rfl
  | bool b => rfl
  | number n => rfl
  | string s => rfl
  | array elems ih =>
      rw [wellFormed_array] at h
      rw [sortKeys_array, sortKeys_array, List.map_map]
      congr 1
      exact List.map_congr_left fun v hv => ih v hv (h v hv)
  | object members ih =>
      rw [wellFormed_object] at h
      rw [sortKeys_object, sortKeys_object_descend]
      have hperm := collect_sortMember_perm h.1
      rw [btreeCollect_of_sorted (btreeCollect_sorted _)]
      congr 1
      have hfix : ∀ e ∈ btreeCollect (members.map sortMember), sortMember e = id e := by
        intro e he
        obtain ⟨e', he', rfl⟩ := List.mem_map.mp (hperm.mem_iff.mp he)
        exact Prod.ext rfl (ih e' he' (h.2 e' he'))
      rw [List.map_congr_left hfix, List.map_id]

/-- Equality up to the order of object members, at every depth: the least
equivalence that allows permuting the members of an object and is closed
under replacing one element of an array or one member of an object. -/
inductive SameUpToOrder : Json ν → Json ν → Prop
  | refl (v : Json ν) : SameUpToOrder v v
  | symm {v w : Json ν} : SameUpToOrder v w → SameUpToOrder w v
  | trans {u v w : Json ν} : SameUpToOrder u v → SameUpToOrder v w → SameUpToOrder u w
  | permute {xs ys : List (String × Json ν)} : xs.Perm ys →
      SameUpToOrder (.object xs) (.object ys)
  | elem (pre post : List (Json ν)) {v w : Json ν} : SameUpToOrder v w →
      SameUpToOrder (.array (pre ++ v :: post)) (.array (pre ++ w :: post))
  | member (pre post : List (String × Json ν)) (k : String) {v w : Json ν} :
      SameUpToOrder v w →
      SameUpToOrder (.object (pre ++ (k, v) :: post)) (.object (pre ++ (k, w) :: post))

namespace SameUpToOrder

theorem array_map {f : Json ν → Json ν} (elems pre : List (Json ν))
    (h : ∀ v ∈ elems, SameUpToOrder v (f v)) :
    SameUpToOrder (.array (pre ++ elems)) (.array (pre ++ elems.map f)) := by
  induction elems generalizing pre with
  | nil => exact refl _
  | cons v elems ih =>
      have hhead := elem pre elems (h v (by simp))
      have htail := ih (pre ++ [f v]) (fun w hw => h w (by simp [hw]))
      simp only [List.append_assoc, List.singleton_append] at htail
      exact hhead.trans htail

theorem object_map {f : Json ν → Json ν} (members pre : List (String × Json ν))
    (h : ∀ e ∈ members, SameUpToOrder e.2 (f e.2)) :
    SameUpToOrder (.object (pre ++ members))
      (.object (pre ++ members.map fun e => (e.1, f e.2))) := by
  induction members generalizing pre with
  | nil => exact refl _
  | cons e members ih =>
      obtain ⟨k, v⟩ := e
      have hhead := member pre members k (h (k, v) (by simp))
      have htail := ih (pre ++ [(k, f v)]) (fun e he => h e (by simp [he]))
      simp only [List.append_assoc, List.singleton_append] at htail
      exact hhead.trans htail

theorem sortKeys {v : Json ν} (h : v.WellFormed) : SameUpToOrder v v.sortKeys := by
  induction v using induct with
  | null => exact refl _
  | bool b => exact refl _
  | number n => exact refl _
  | string s => exact refl _
  | array elems ih =>
      rw [wellFormed_array] at h
      rw [sortKeys_array]
      exact array_map elems [] fun v hv => ih v hv (h v hv)
  | object members ih =>
      rw [wellFormed_object] at h
      -- First below the members where they stand, then their order.
      have hdescend := object_map members [] fun e he => ih e he (h.2 e he)
      have hperm := collect_sortMember_perm h.1
      rw [sortKeys_object]
      exact hdescend.trans (permute hperm.symm)

theorem wellFormed_iff_and_sortKeys_eq {v w : Json ν} (h : SameUpToOrder v w) :
    (v.WellFormed ↔ w.WellFormed) ∧ (v.WellFormed → v.sortKeys = w.sortKeys) := by
  induction h with
  | refl v => exact ⟨Iff.rfl, fun _ => rfl⟩
  | symm _ ih => exact ⟨ih.1.symm, fun hw => (ih.2 (ih.1.mpr hw)).symm⟩
  | trans _ _ ih₁ ih₂ =>
      exact ⟨ih₁.1.trans ih₂.1, fun hu => (ih₁.2 hu).trans (ih₂.2 (ih₁.1.mp hu))⟩
  | permute hperm =>
      refine ⟨?_, ?_⟩
      · rw [wellFormed_object, wellFormed_object, (hperm.map Prod.fst).nodup_iff]
        simp only [hperm.mem_iff]
      · intro hwf
        rw [wellFormed_object] at hwf
        rw [sortKeys_object, sortKeys_object]
        congr 1
        apply btreeCollect_congr (hperm.map sortMember)
        rw [keys_map_sortMember]
        exact hwf.1
  | @elem pre post v w _ ih =>
      refine ⟨?_, ?_⟩
      · simp only [wellFormed_array, List.mem_append, List.mem_cons, or_imp, forall_and,
          forall_eq, ih.1]
      · intro hwf
        rw [wellFormed_array] at hwf
        rw [sortKeys_array, sortKeys_array, List.map_append, List.map_append, List.map_cons,
          List.map_cons, ih.2 (hwf v (by simp))]
  | @member pre post k v w _ ih =>
      refine ⟨?_, ?_⟩
      · simp only [wellFormed_object, List.map_append, List.map_cons, List.mem_append,
          List.mem_cons, or_imp, forall_and, forall_eq, ih.1]
      · intro hwf
        rw [wellFormed_object] at hwf
        have hvw : sortMember (k, v) = sortMember (k, w) :=
          Prod.ext rfl (ih.2 (hwf.2 (k, v) (by simp)))
        rw [sortKeys_object, sortKeys_object, List.map_append, List.map_append, List.map_cons,
          List.map_cons, hvw]

theorem iff_sortKeys_eq {v w : Json ν} (hv : v.WellFormed) (hw : w.WellFormed) :
    SameUpToOrder v w ↔ v.sortKeys = w.sortKeys := by
  constructor
  · intro h
    exact h.wellFormed_iff_and_sortKeys_eq.2 hv
  · intro h
    have hvs := sortKeys hv
    rw [h] at hvs
    exact hvs.trans (sortKeys hw).symm

end SameUpToOrder

end Json

end SereinGateway.Lib
