import Mathlib
import SereinGateway.TrafficControl.Arbitration

/-!
`fuzzy_json_eq` is a tolerance: values are equal to themselves, the order of the two
does not count, and equal values have one shape.

Of two objects, the members of the first are looked up in the second, and the numbers
of members are compared. As keys are distinct, no member of the second is left over.
The numbers are rational here.
-/

namespace SereinGateway.TrafficControl

open SereinGateway.Lib SereinGateway.Consensus

def fuzzyDelta : ℚ := 1 / 10 ^ 6

/-- The comparison of two numbers in `fuzzy_json_eq`. -/
def numberFuzzyEq (fa fb : ℚ) : Bool :=
  let diff := |fa - fb|
  let maxAbs := max |fa| |fb|
  if 0 < maxAbs then diff / maxAbs ≤ fuzzyDelta else diff ≤ fuzzyDelta

/-- The same tree, but for numbers that are close and for the order of members. -/
inductive SameShape : Json ℚ → Json ℚ → Prop
  | null : SameShape .null .null
  | bool (b : Bool) : SameShape (.bool b) (.bool b)
  | string (s : String) : SameShape (.string s) (.string s)
  | number {a b : ℚ} (close : |a - b| ≤ fuzzyDelta * max |a| |b|) :
      SameShape (.number a) (.number b)
  | array {as bs : List (Json ℚ)} (elems : List.Forall₂ SameShape as bs) :
      SameShape (.array as) (.array bs)
  | object {as bs : List (String × Json ℚ)}
      (keys : ∀ key, key ∈ as.map Prod.fst ↔ key ∈ bs.map Prod.fst)
      (members : ∀ key a b, (key, a) ∈ as → (key, b) ∈ bs → SameShape a b) :
      SameShape (.object as) (.object bs)

/-! ### Numbers -/

theorem numberFuzzyEq_iff {a b : ℚ} :
    numberFuzzyEq a b = true ↔ |a - b| ≤ fuzzyDelta * max |a| |b| := by
  unfold numberFuzzyEq
  dsimp only
  split
  · rename_i hpos
    rw [decide_eq_true_iff, div_le_iff₀ hpos]
  · rename_i hzero
    have ha : a = 0 := abs_nonpos_iff.mp ((le_max_left _ _).trans (not_lt.mp hzero))
    have hb : b = 0 := abs_nonpos_iff.mp ((le_max_right _ _).trans (not_lt.mp hzero))
    subst ha hb
    simp [fuzzyDelta]

theorem numberFuzzyEq_self (a : ℚ) : numberFuzzyEq a a = true := by
  rw [numberFuzzyEq_iff, sub_self, abs_zero, max_self, fuzzyDelta]
  positivity

theorem numberFuzzyEq_comm (a b : ℚ) : numberFuzzyEq a b = numberFuzzyEq b a := by
  rw [Bool.eq_iff_iff, numberFuzzyEq_iff, numberFuzzyEq_iff, abs_sub_comm, max_comm]

/-! ### Elements and members -/

section Parts

variable {ν : Type} {numberEq : ν → ν → Bool}

theorem lookup_eq_some_iff_mem {α : Type} {key : String} {a : α} {l : List (String × α)}
    (hkeys : (l.map Prod.fst).Nodup) : l.lookup key = some a ↔ (key, a) ∈ l := by
  rw [List.lookup_eq_some_iff]
  constructor
  · rintro ⟨l₁, l₂, rfl, -⟩
    exact List.mem_append_right _ List.mem_cons_self
  · intro hmem
    obtain ⟨l₁, l₂, rfl⟩ := List.append_of_mem hmem
    refine ⟨l₁, l₂, rfl, fun e he => bne_iff_ne.mpr fun heq => ?_⟩
    rw [List.map_append, List.map_cons, List.nodup_append] at hkeys
    exact hkeys.2.2 e.1 (List.mem_map_of_mem he) key List.mem_cons_self heq.symm

theorem keys_subset_of_length {α β : Type} {as : List (String × α)} {bs : List (String × β)}
    (hkeys : (as.map Prod.fst).Nodup) (hlength : as.length = bs.length)
    (hsub : as.map Prod.fst ⊆ bs.map Prod.fst) : bs.map Prod.fst ⊆ as.map Prod.fst := by
  have hle : (bs.map Prod.fst).length ≤ (as.map Prod.fst).length := by
    rw [List.length_map, List.length_map, hlength]
  exact ((hkeys.subperm hsub).perm_of_length_le hle).symm.subset

theorem fuzzyElems_eq_true {as bs : List (Json ν)} (hlength : as.length = bs.length) :
    fuzzyElems numberEq as bs = true ↔
      List.Forall₂ (fun a b => fuzzyJsonEq numberEq a b = true) as bs := by
  induction as generalizing bs with
  | nil =>
      obtain rfl := List.length_eq_zero_iff.mp hlength.symm
      exact iff_of_true rfl .nil
  | cons a as ih =>
      cases bs with
      | nil => cases hlength
      | cons b bs =>
          rw [fuzzyElems, Bool.and_eq_true, List.forall₂_cons, ih (Nat.succ_injective hlength)]

theorem fuzzyJsonEq_array {as bs : List (Json ν)} :
    fuzzyJsonEq numberEq (.array as) (.array bs) = true ↔
      List.Forall₂ (fun a b => fuzzyJsonEq numberEq a b = true) as bs := by
  rw [fuzzyJsonEq, Bool.and_eq_true, beq_iff_eq]
  constructor
  · rintro ⟨hlength, helems⟩
    exact (fuzzyElems_eq_true hlength).mp helems
  · intro h
    exact ⟨h.length_eq, (fuzzyElems_eq_true h.length_eq).mpr h⟩

theorem fuzzyMembers_eq_true {as bs : List (String × Json ν)} :
    fuzzyMembers numberEq as bs = true ↔
      ∀ e ∈ as, ∃ b, bs.lookup e.1 = some b ∧ fuzzyJsonEq numberEq e.2 b = true := by
  induction as with
  | nil => exact iff_of_true rfl (List.forall_mem_nil _)
  | cons e as ih =>
      obtain ⟨key, a⟩ := e
      rw [fuzzyMembers, Bool.and_eq_true, Option.any_eq_true, ih, List.forall_mem_cons]

theorem fuzzyJsonEq_object {as bs : List (String × Json ν)} (has : (as.map Prod.fst).Nodup)
    (hbs : (bs.map Prod.fst).Nodup) :
    fuzzyJsonEq numberEq (.object as) (.object bs) = true ↔
      (∀ key, key ∈ as.map Prod.fst ↔ key ∈ bs.map Prod.fst) ∧
        ∀ key a b, (key, a) ∈ as → (key, b) ∈ bs → fuzzyJsonEq numberEq a b = true := by
  rw [fuzzyJsonEq, Bool.and_eq_true, beq_iff_eq, fuzzyMembers_eq_true]
  constructor
  · rintro ⟨hlength, hmembers⟩
    have hsub : as.map Prod.fst ⊆ bs.map Prod.fst := by
      intro key hkey
      obtain ⟨e, he, rfl⟩ := List.mem_map.mp hkey
      obtain ⟨b, hb, -⟩ := hmembers e he
      exact List.mem_map.mpr ⟨(e.1, b), (lookup_eq_some_iff_mem hbs).mp hb, rfl⟩
    refine ⟨fun key => ⟨@hsub key, @keys_subset_of_length _ _ _ _ has hlength hsub key⟩, ?_⟩
    intro key a b ha hb
    obtain ⟨b', hb', heq⟩ := hmembers (key, a) ha
    rw [(lookup_eq_some_iff_mem hbs).mpr hb, Option.some.injEq] at hb'
    rwa [hb']
  · rintro ⟨hkeys, hmembers⟩
    constructor
    · have hperm := (List.perm_ext_iff_of_nodup has hbs).mpr hkeys
      simpa using hperm.length_eq
    · intro e he
      obtain ⟨⟨key, b⟩, hb, heq⟩ := List.mem_map.mp ((hkeys e.1).mp (List.mem_map_of_mem he))
      obtain rfl : key = e.1 := heq
      exact ⟨b, (lookup_eq_some_iff_mem hbs).mpr hb, hmembers e.1 e.2 b he hb⟩

theorem forall₂_congr_mem {α β : Type} {R S : α → β → Prop} {as : List α} {bs : List β}
    (h : ∀ a ∈ as, ∀ b ∈ bs, R a b ↔ S a b) : List.Forall₂ R as bs ↔ List.Forall₂ S as bs := by
  induction as generalizing bs with
  | nil => rw [List.forall₂_nil_left_iff, List.forall₂_nil_left_iff]
  | cons a as ih =>
      cases bs with
      | nil => exact iff_of_false (fun h => by cases h) fun h => by cases h
      | cons b bs =>
          rw [List.forall₂_cons, List.forall₂_cons, h a List.mem_cons_self b List.mem_cons_self,
            ih fun a ha b hb => h a (List.mem_cons_of_mem _ ha) b (List.mem_cons_of_mem _ hb)]

/-! ### Whole values -/

theorem fuzzyJsonEq_self (hnumber : ∀ n, numberEq n n = true) {v : Json ν} (hv : v.WellFormed) :
    fuzzyJsonEq numberEq v v = true := by
  induction v using Json.induct with
  | null => rfl
  | bool b => exact beq_self_eq_true b
  | number n => exact hnumber n
  | string s => exact beq_self_eq_true s
  | array elems ih =>
      rw [fuzzyJsonEq_array, List.forall₂_same]
      exact fun w hw => ih w hw (Json.wellFormed_array.mp hv w hw)
  | object members ih =>
      obtain ⟨hkeys, hall⟩ := Json.wellFormed_object.mp hv
      refine (fuzzyJsonEq_object hkeys hkeys).mpr ⟨fun _ => Iff.rfl, fun key a b ha hb => ?_⟩
      rw [← lookup_eq_some_iff_mem hkeys] at hb
      rw [(lookup_eq_some_iff_mem hkeys).mpr ha, Option.some.injEq] at hb
      rw [← hb]
      exact ih (key, a) ha (hall (key, a) ha)

theorem fuzzyJsonEq_comm (hnumber : ∀ m n, numberEq m n = numberEq n m) {v w : Json ν}
    (hv : v.WellFormed) (hw : w.WellFormed) :
    fuzzyJsonEq numberEq v w = fuzzyJsonEq numberEq w v := by
  induction v using Json.induct generalizing w with
  | null => cases w <;> rfl
  | bool b => cases w <;> first | rfl | exact Bool.beq_comm
  | number n => cases w <;> first | rfl | exact hnumber _ _
  | string s => cases w <;> first | rfl | exact Bool.beq_comm
  | array as ih =>
      cases w with
      | array bs =>
          rw [Bool.eq_iff_iff, fuzzyJsonEq_array, fuzzyJsonEq_array]
          have hflip : List.Forall₂ (fun b a => fuzzyJsonEq numberEq b a = true) bs as ↔
              List.Forall₂ (fun a b => fuzzyJsonEq numberEq b a = true) as bs :=
            ⟨List.Forall₂.flip, List.Forall₂.flip⟩
          rw [hflip]
          refine forall₂_congr_mem fun a ha b hb => ?_
          rw [ih a ha (Json.wellFormed_array.mp hv a ha) (Json.wellFormed_array.mp hw b hb)]
      | _ => rfl
  | object as ih =>
      cases w with
      | object bs =>
          obtain ⟨has, hall⟩ := Json.wellFormed_object.mp hv
          obtain ⟨hbs, hall'⟩ := Json.wellFormed_object.mp hw
          have hmember : ∀ key a b, (key, a) ∈ as → (key, b) ∈ bs →
              fuzzyJsonEq numberEq a b = fuzzyJsonEq numberEq b a := fun key a b ha hb =>
            ih (key, a) ha (hall (key, a) ha) (hall' (key, b) hb)
          rw [Bool.eq_iff_iff, fuzzyJsonEq_object has hbs, fuzzyJsonEq_object hbs has]
          constructor
          · rintro ⟨hkeys, hmembers⟩
            refine ⟨fun key => (hkeys key).symm, fun key b a hb ha => ?_⟩
            rw [← hmember key a b ha hb]
            exact hmembers key a b ha hb
          · rintro ⟨hkeys, hmembers⟩
            refine ⟨fun key => (hkeys key).symm, fun key a b ha hb => ?_⟩
            rw [hmember key a b ha hb]
            exact hmembers key b a hb ha
      | _ => rfl

end Parts

/-- Values are equal exactly if they have one shape with close numbers. -/
theorem fuzzyJsonEq_iff_sameShape {v w : Json ℚ} (hv : v.WellFormed) (hw : w.WellFormed) :
    fuzzyJsonEq numberFuzzyEq v w = true ↔ SameShape v w := by
  have hfalse : ∀ {v w : Json ℚ}, fuzzyJsonEq numberFuzzyEq v w = false → ¬SameShape v w →
      (fuzzyJsonEq numberFuzzyEq v w = true ↔ SameShape v w) := fun hne hshape =>
    iff_of_false (by rw [hne]; exact Bool.false_ne_true) hshape
  induction v using Json.induct generalizing w with
  | null =>
      cases w with
      | null => exact iff_of_true rfl .null
      | _ => exact hfalse rfl fun h => by cases h
  | bool b =>
      cases w with
      | bool b' =>
          rw [fuzzyJsonEq, beq_iff_eq]
          constructor
          · rintro rfl
            exact .bool b
          · rintro ⟨⟩
            rfl
      | _ => exact hfalse rfl fun h => by cases h
  | number n =>
      cases w with
      | number m =>
          rw [fuzzyJsonEq, numberFuzzyEq_iff]
          constructor
          · exact .number
          · rintro ⟨⟩
            assumption
      | _ => exact hfalse rfl fun h => by cases h
  | string s =>
      cases w with
      | string s' =>
          rw [fuzzyJsonEq, beq_iff_eq]
          constructor
          · rintro rfl
            exact .string s
          · rintro ⟨⟩
            rfl
      | _ => exact hfalse rfl fun h => by cases h
  | array as ih =>
      cases w with
      | array bs =>
          have helems : List.Forall₂ (fun a b => fuzzyJsonEq numberFuzzyEq a b = true) as bs ↔
              List.Forall₂ SameShape as bs :=
            forall₂_congr_mem fun a ha b hb => ih a ha (Json.wellFormed_array.mp hv a ha)
              (Json.wellFormed_array.mp hw b hb)
          rw [fuzzyJsonEq_array, helems]
          constructor
          · exact .array
          · rintro ⟨⟩
            assumption
      | _ => exact hfalse rfl fun h => by cases h
  | object as ih =>
      cases w with
      | object bs =>
          obtain ⟨has, hall⟩ := Json.wellFormed_object.mp hv
          obtain ⟨hbs, hall'⟩ := Json.wellFormed_object.mp hw
          rw [fuzzyJsonEq_object has hbs]
          constructor
          · rintro ⟨hkeys, hmembers⟩
            refine .object hkeys fun key a b ha hb => ?_
            exact (ih (key, a) ha (hall _ ha) (hall' _ hb)).mp (hmembers key a b ha hb)
          · rintro ⟨⟩
            rename_i hkeys hmembers
            refine ⟨hkeys, fun key a b ha hb => ?_⟩
            exact (ih (key, a) ha (hall _ ha) (hall' _ hb)).mpr (hmembers key a b ha hb)
      | _ => exact hfalse rfl fun h => by cases h

/-- A value is equal to itself, the order of the two does not count, and equal values
have one shape. -/
theorem fuzzyJsonEq_tolerance (a b : Value ℚ) :
    fuzzyJsonEq numberFuzzyEq a.1 a.1 = true ∧
      fuzzyJsonEq numberFuzzyEq a.1 b.1 = fuzzyJsonEq numberFuzzyEq b.1 a.1 ∧
      (fuzzyJsonEq numberFuzzyEq a.1 b.1 = true ↔ SameShape a.1 b.1) :=
  ⟨fuzzyJsonEq_self numberFuzzyEq_self a.2, fuzzyJsonEq_comm numberFuzzyEq_comm a.2 b.2,
    fuzzyJsonEq_iff_sameShape a.2 b.2⟩

end SereinGateway.TrafficControl
