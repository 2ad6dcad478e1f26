import Mathlib
import SereinGateway.Lib.Replace
import SereinGateway.Lib.Search

/-!
Regular expressions with groups.

A matcher lists what it captures at the beginning of a text, and what it leaves of
it, in the order in which a search with backtracking tries it. The first one is the
match.
-/

namespace SereinGateway.Lib

def Matcher (α β : Type) := List α → List (β × List α)

namespace Matcher

variable {α β γ : Type}

instance : Monad (Matcher α) where
  pure b s := [(b, s)]
  bind m f s := (m s).flatMap fun r => f r.1 r.2

/-- A text as it stands. -/
def literal [BEq α] (l : List α) : Matcher α Unit := fun s =>
  if l.isPrefixOf s then [((), s.drop l.length)] else []

/-- `([p]*)` -/
def many (p : α → Bool) : Matcher α (List α) := fun s =>
  (greedy p s).map fun w => (w, s.drop w.length)

/-- `([p]+)` -/
def many1 (p : α → Bool) : Matcher α (List α) := fun s =>
  (many p s).filter fun r => !r.1.isEmpty

/-- `([p]{lo,hi})` -/
def between (p : α → Bool) (lo hi : ℕ) : Matcher α (List α) := fun s =>
  (many p s).filter fun r => lo ≤ r.1.length && r.1.length ≤ hi

/-- `([p]{lo,})` -/
def atLeast (p : α → Bool) (lo : ℕ) : Matcher α (List α) := fun s =>
  (many p s).filter fun r => lo ≤ r.1.length

/-- `(.*?)`, and what comes behind it. -/
@[grind =] def lazily (m : Matcher α β) : Matcher α (List α × β)
  | [] => (m []).map fun r => (([], r.1), r.2)
  | c :: s => (m (c :: s)).map (fun r => (([], r.1), r.2)) ++
      (lazily m s).map fun r => ((c :: r.1.1, r.1.2), r.2)

@[grind =] def search (m : Matcher α β) : List α → Option (β × List α)
  | [] => (m []).head?
  | c :: s => (m (c :: s)).head?.or (search m s)

/-- A match takes something of the text. -/
def Consumes (m : Matcher α β) : Prop := ∀ s, ∀ r ∈ m s, r.2.length < s.length

/-- The matches of a text one after the other. -/
def finder (m : Matcher α β) (h : m.Consumes) : Finder α (β × List α) where
  find _ s := (m s).head?.map fun r => (r.1, s.take (s.length - r.2.length))
  text b := b.2
  begins hfind := by
    obtain ⟨r, -, rfl⟩ := Option.map_eq_some_iff.mp hfind
    exact List.take_prefix _ _
  nonempty {_ s b} hfind := by
    obtain ⟨r, hr, rfl⟩ := Option.map_eq_some_iff.mp hfind
    have hshort := h s r (List.mem_of_mem_head? hr)
    refine List.ne_nil_of_length_pos ?_
    rw [List.length_take]
    omega

/-- What is captured is what is taken of the text, and it is any text of some form. -/
def Reads (m : Matcher α β) (text : β → List α) (Form : β → Prop) : Prop :=
  ∀ s b t, (b, t) ∈ m s ↔ s = text b ++ t ∧ Form b

def capturing (m : Matcher α β) {text : β → List α} {Form : β → Prop} (h : m.Reads text Form)
    (hne : ∀ b, Form b → text b ≠ []) : Finder α β where
  find _ s := (m s).head?.map Prod.fst
  text := text
  begins {_ s b} hfind := by
    obtain ⟨⟨b', t⟩, hr, rfl⟩ := Option.map_eq_some_iff.mp hfind
    exact ⟨t, ((h s b' t).mp (List.mem_of_mem_head? hr)).1.symm⟩
  nonempty {_ s b} hfind := by
    obtain ⟨⟨b', t⟩, hr, rfl⟩ := Option.map_eq_some_iff.mp hfind
    exact hne b' ((h s b' t).mp (List.mem_of_mem_head? hr)).2

variable {m : Matcher α β} {f : β → Matcher α γ} {p : α → Bool} {s t w l : List α} {b : β}

/-! ### What is matched -/

theorem mem_pure {r : β × List α} : r ∈ (pure b : Matcher α β) s ↔ r = (b, s) :=
  List.mem_singleton

theorem mem_bind {r : γ × List α} : r ∈ (m >>= f) s ↔ ∃ b t, (b, t) ∈ m s ∧ r ∈ f b t := by
  refine List.mem_flatMap.trans ?_
  rw [Prod.exists]

theorem mem_literal [BEq α] [LawfulBEq α] {u : Unit} :
    (u, t) ∈ literal l s ↔ s = l ++ t := by
  unfold literal
  split
  · rename_i hstarts
    obtain ⟨rest, rfl⟩ := List.isPrefixOf_iff_prefix.mp hstarts
    rw [List.mem_singleton, List.drop_left, Prod.mk.injEq, List.append_cancel_left_eq]
    exact ⟨fun h => h.2.symm, fun h => ⟨rfl, h.symm⟩⟩
  · rename_i hstarts
    refine iff_of_false List.not_mem_nil fun heq => hstarts ?_
    exact List.isPrefixOf_iff_prefix.mpr ⟨t, heq.symm⟩

theorem mem_many : (w, t) ∈ many p s ↔ s = w ++ t ∧ ∀ c ∈ w, p c = true := by
  unfold many
  rw [List.mem_map]
  constructor
  · rintro ⟨u, hu, heq⟩
    obtain ⟨hstarts, hall⟩ := mem_greedy.mp hu
    obtain ⟨rfl, rfl⟩ := Prod.mk.inj heq
    exact ⟨(List.prefix_iff_eq_append.mp hstarts).symm, hall⟩
  · rintro ⟨rfl, hall⟩
    exact ⟨w, mem_greedy.mpr ⟨List.prefix_append w t, hall⟩, by rw [List.drop_left]⟩

theorem mem_many1 : (w, t) ∈ many1 p s ↔ s = w ++ t ∧ w ≠ [] ∧ ∀ c ∈ w, p c = true := by
  unfold many1
  rw [List.mem_filter, mem_many]
  simp only [Bool.not_eq_true', List.isEmpty_eq_false_iff]
  tauto

theorem mem_between {lo hi : ℕ} : (w, t) ∈ between p lo hi s ↔
    s = w ++ t ∧ (∀ c ∈ w, p c = true) ∧ lo ≤ w.length ∧ w.length ≤ hi := by
  unfold between
  rw [List.mem_filter, mem_many, Bool.and_eq_true, decide_eq_true_iff, decide_eq_true_iff,
    and_assoc]

theorem mem_atLeast {lo : ℕ} : (w, t) ∈ atLeast p lo s ↔
    s = w ++ t ∧ (∀ c ∈ w, p c = true) ∧ lo ≤ w.length := by
  unfold atLeast
  rw [List.mem_filter, mem_many, decide_eq_true_iff, and_assoc]

theorem mem_here : ((w, b), t) ∈ (m s).map (fun r => (([], r.1), r.2)) ↔ w = [] ∧ (b, t) ∈ m s := by
  rw [List.mem_map]
  constructor
  · rintro ⟨r, hmem, heq⟩
    obtain ⟨hcaptured, rfl⟩ := Prod.mk.inj heq
    obtain ⟨rfl, rfl⟩ := Prod.mk.inj hcaptured
    exact ⟨rfl, hmem⟩
  · rintro ⟨rfl, hmem⟩
    exact ⟨(b, t), hmem, rfl⟩

theorem mem_lazily : ((w, b), t) ∈ lazily m s ↔ ∃ rest, s = w ++ rest ∧ (b, t) ∈ m rest := by
  induction s generalizing w with
  | nil =>
      rw [lazily, mem_here]
      constructor
      · rintro ⟨rfl, hmem⟩
        exact ⟨[], rfl, hmem⟩
      · rintro ⟨rest, heq, hmem⟩
        obtain ⟨rfl, rfl⟩ := List.append_eq_nil_iff.mp heq.symm
        exact ⟨rfl, hmem⟩
  | cons c s ih =>
      rw [lazily, List.mem_append, mem_here, List.mem_map]
      constructor
      · rintro (⟨rfl, hmem⟩ | ⟨⟨⟨w', b'⟩, t'⟩, hmem, heq⟩)
        · exact ⟨c :: s, rfl, hmem⟩
        · obtain ⟨hcaptured, rfl⟩ := Prod.mk.inj heq
          obtain ⟨rfl, rfl⟩ := Prod.mk.inj hcaptured
          obtain ⟨rest, rfl, hrest⟩ := ih.mp hmem
          exact ⟨rest, rfl, hrest⟩
      · rintro ⟨rest, heq, hmem⟩
        cases w with
        | nil =>
            rw [List.nil_append] at heq
            rw [heq]
            exact .inl ⟨rfl, hmem⟩
        | cons d w =>
            obtain ⟨rfl, rfl⟩ := List.cons.inj heq
            exact .inr ⟨((w, b), t), ih.mpr ⟨rest, rfl, hmem⟩, rfl⟩

/-! ### Texts of a form -/

section Reads

variable {text : β → List α} {Form : β → Prop} (h : m.Reads text Form)

include h

theorem Reads.search_eq_none_iff : m.search s = none ↔ ∀ b, Form b → ¬text b <:+: s := by
  induction s with
  | nil =>
      rw [search, List.head?_eq_none_iff, List.eq_nil_iff_forall_not_mem]
      constructor
      · intro hnone b hb hfound
        refine hnone (b, []) ((h [] b []).mpr ⟨?_, hb⟩)
        rw [List.eq_nil_of_infix_nil hfound, List.append_nil]
      · rintro hnone ⟨b, t⟩ hmem
        obtain ⟨heq, hb⟩ := (h [] b t).mp hmem
        exact hnone b hb (heq ▸ List.infix_append' [] (text b) t)
  | cons c s ih =>
      rw [search, Option.or_eq_none_iff, ih, List.head?_eq_none_iff,
        List.eq_nil_iff_forall_not_mem]
      constructor
      · rintro ⟨hhere, hlater⟩ b hb hfound
        rcases List.infix_cons_iff.mp hfound with ⟨t, ht⟩ | hfound
        · exact hhere (b, t) ((h _ b t).mpr ⟨ht.symm, hb⟩)
        · exact hlater b hb hfound
      · intro hnone
        refine ⟨?_, fun b hb hfound => hnone b hb (List.infix_cons_iff.mpr (.inr hfound))⟩
        rintro ⟨b, t⟩ hmem
        obtain ⟨heq, hb⟩ := (h _ b t).mp hmem
        exact hnone b hb (heq ▸ (List.prefix_append (text b) t).isInfix)

theorem Reads.search_of_infix (hnone : m.search s = none) (hin : t <:+: s) :
    m.search t = none := by
  rw [h.search_eq_none_iff] at hnone ⊢
  exact fun b hb hb' => hnone b hb (hb'.trans hin)

variable {hne : ∀ b, Form b → text b ≠ []} {left : List α}

theorem Reads.form_of_find (hfind : (m.capturing h hne).find left s = some b) : Form b := by
  obtain ⟨⟨b', t⟩, hr, rfl⟩ := Option.map_eq_some_iff.mp hfind
  exact ((h s b' t).mp (List.mem_of_mem_head? hr)).2

theorem Reads.form_of_hit (hhit : .hit b ∈ (m.capturing h hne).scan left s) : Form b := by
  induction left, s using (m.capturing h hne).scan_induct with
  | nil left => cases hhit
  | plain left c s hfind ih =>
      rw [Finder.scan_plain hfind, List.mem_cons] at hhit
      exact ih (hhit.resolve_left (by rintro ⟨⟩))
  | hit left b' s hfind ih =>
      rw [Finder.scan_hit hfind, List.mem_cons] at hhit
      rcases hhit with heq | hhit
      · cases heq
        exact h.form_of_find hfind
      · exact ih hhit

theorem Reads.find_ne_none (hb : Form b) : (m.capturing h hne).find left (text b ++ t) ≠ none := by
  intro hnone
  have hnil := List.head?_eq_none_iff.mp (Option.map_eq_none_iff.mp hnone)
  have hmem := (h _ b t).mpr ⟨rfl, hb⟩
  rw [hnil] at hmem
  cases hmem

/-- A text without a match is searched in vain. -/
theorem Reads.scan_of_search (hnone : m.search s = none) :
    (m.capturing h hne).scan left s = s.map .plain := by
  have hall : ∀ left y, y <:+ s → y ≠ [] → (m.capturing h hne).find left (y ++ []) = none := by
    intro left y hy _
    rw [List.append_nil, Option.eq_none_iff_forall_ne_some]
    intro b hfind
    obtain ⟨t, ht⟩ := (m.capturing h hne).begins hfind
    refine h.search_eq_none_iff.mp hnone b (h.form_of_find hfind) (List.IsInfix.trans ?_ hy.isInfix)
    exact ⟨[], t, ht⟩
  have hscan := Finder.scan_plains hall left
  rwa [List.append_nil, Finder.scan_nil, List.append_nil] at hscan

theorem Reads.replaceAll_of_search {new : β → List α} (hnone : m.search s = none) :
    (m.capturing h hne).replaceAll new s = s := by
  rw [Finder.replaceAll, h.scan_of_search hnone, List.flatMap_map]
  exact List.flatMap_singleton' s

end Reads

/-! ### The first match -/

theorem head?_bind {r : γ × List α} (hm : (m s).head? = some (b, t)) (hf : (f b t).head? = some r) :
    ((m >>= f) s).head? = some r := by
  obtain ⟨rest, hrest⟩ := List.head?_eq_some_iff.mp hm
  change ((m s).flatMap fun r => f r.1 r.2).head? = some r
  rw [hrest, List.flatMap_cons, List.head?_append, hf]
  rfl

theorem literal_append [BEq α] [LawfulBEq α] : literal l (l ++ t) = [((), t)] := by
  rw [literal, if_pos (List.isPrefixOf_iff_prefix.mpr (List.prefix_append l t)), List.drop_left]

theorem literal_bind [BEq α] [LawfulBEq α] {f : Unit → Matcher α γ} :
    (literal l >>= f) (l ++ t) = f () t := by
  change (literal l (l ++ t)).flatMap _ = _
  rw [literal_append, List.flatMap_singleton]

theorem head?_literal [BEq α] [LawfulBEq α] : (literal l (l ++ t)).head? = some ((), t) := by
  rw [literal_append]
  rfl

theorem literal_eq_nil [BEq α] [LawfulBEq α] (h : ¬l <+: s) : literal l s = [] :=
  if_neg fun hstarts => h (List.isPrefixOf_iff_prefix.mp hstarts)

theorem many1_eq_nil {c : α} (hc : p c = false) : many1 p (c :: s) = [] := by
  simp [many1, many, greedy, hc]

/-- As much is taken as can be. -/
theorem head?_many {c : α} (hw : ∀ d ∈ w, p d = true) (hc : p c = false) :
    (many p (w ++ c :: t)).head? = some (w, c :: t) := by
  have hlongest : (w ++ c :: t).takeWhile p = w := by
    rw [List.takeWhile_append_of_pos hw, List.takeWhile_cons_of_neg (by simp [hc]), List.append_nil]
  rw [many, List.head?_map, head?_greedy, hlongest, Option.map_some, List.drop_left]

theorem head?_many1 {c : α} (hne : w ≠ []) (hw : ∀ d ∈ w, p d = true) (hc : p c = false) :
    (many1 p (w ++ c :: t)).head? = some (w, c :: t) := by
  obtain ⟨rest, hrest⟩ := List.head?_eq_some_iff.mp (head?_many (t := t) hw hc)
  rw [many1, hrest, List.filter_cons_of_pos (by simpa using hne)]
  rfl

/-- As little is passed as can be. -/
theorem head?_lazily (hnot : ∀ x y, w = x ++ y → y ≠ [] → m (y ++ s) = [])
    (hm : (m s).head? = some (b, t)) : (lazily m (w ++ s)).head? = some ((w, b), t) := by
  induction w with
  | nil =>
      obtain ⟨rest, hrest⟩ := List.head?_eq_some_iff.mp hm
      rw [List.nil_append]
      cases s <;> rw [lazily, hrest] <;> rfl
  | cons c w ih =>
      have hskip := hnot [] (c :: w) rfl (List.cons_ne_nil c w)
      have hrest := ih fun x y hw => hnot (c :: x) y (by rw [hw]; rfl)
      rw [List.cons_append] at hskip ⊢
      rw [lazily, hskip, List.map_nil, List.nil_append, List.head?_map, hrest]
      rfl

theorem sorted_greedy (p : α → Bool) (s : List α) :
    (greedy p s).Pairwise fun u v => v.length < u.length := by
  induction s with
  | nil => exact List.pairwise_singleton _ _
  | cons c s ih =>
      rw [greedy]
      split
      · refine List.pairwise_append.mpr ⟨?_, List.pairwise_singleton _ _, ?_⟩
        · exact List.pairwise_map.mpr (ih.imp fun h => Nat.succ_lt_succ h)
        · rintro u hu v hv
          obtain ⟨w, -, rfl⟩ := List.mem_map.mp hu
          obtain rfl := List.mem_singleton.mp hv
          exact Nat.succ_pos _
      · exact List.pairwise_singleton _ _

/-- What comes behind a repetition could not be matched behind a longer one. -/
theorem exists_longest {f : List α → Matcher α γ} {r : γ × List α}
    (h : ((many1 p >>= f) s).head? = some r) :
    ∃ w t, (w, t) ∈ many1 p s ∧ (f w t).head? = some r ∧
      ∀ w' t', (w', t') ∈ many1 p s → w.length < w'.length → f w' t' = [] := by
  have hsorted : (many1 p s).Pairwise fun u v => v.1.length < u.1.length :=
    (List.pairwise_map.mpr (sorted_greedy p s)).filter _
  change ((many1 p s).flatMap fun r => f r.1 r.2).head? = some r at h
  generalize many1 p s = found at h hsorted
  induction found with
  | nil => cases h
  | cons u found ih =>
      obtain ⟨hlonger, hsorted⟩ := List.pairwise_cons.mp hsorted
      rw [List.flatMap_cons, List.head?_append] at h
      cases hu : f u.1 u.2 with
      | nil =>
          rw [hu] at h
          obtain ⟨w, t, hmem, hhead, hmax⟩ := ih h hsorted
          refine ⟨w, t, List.mem_cons_of_mem _ hmem, hhead, fun w' t' hmem' hlt => ?_⟩
          rcases List.mem_cons.mp hmem' with rfl | hmem'
          · exact hu
          · exact hmax w' t' hmem' hlt
      | cons v rest =>
          rw [hu] at h
          refine ⟨u.1, u.2, List.mem_cons_self, by rw [hu]; exact h, fun w' t' hmem' hlt => ?_⟩
          rcases List.mem_cons.mp hmem' with rfl | hmem'
          · exact absurd hlt (lt_irrefl _)
          · exact absurd (hlonger _ hmem') (by simpa using hlt.le)

theorem exists_of_search {r : β × List α} (h : m.search s = some r) :
    ∃ x y, s = x ++ y ∧ (m y).head? = some r := by
  induction s with
  | nil => exact ⟨[], [], rfl, h⟩
  | cons c s ih =>
      rw [search] at h
      cases hhead : (m (c :: s)).head? with
      | some u =>
          rw [hhead] at h
          cases h
          exact ⟨[], c :: s, rfl, hhead⟩
      | none =>
          rw [hhead] at h
          obtain ⟨x, y, rfl, hy⟩ := ih h
          exact ⟨c :: x, y, rfl, hy⟩

theorem search_of_head? {r : β × List α} (h : (m s).head? = some r) : m.search s = some r := by
  cases s with
  | nil => exact h
  | cons c s => rw [search, h, Option.some_or]

/-! ### Separators -/

theorem greedy_append_cons {p : α → Bool} {c : α} (hc : p c = false) (s t : List α) :
    greedy p (s ++ c :: t) = greedy p s := by
  induction s with
  | nil => simp [greedy, hc]
  | cons d s ih => rw [List.cons_append, greedy, greedy, ih]

/-- In front of a character that is in no class, all is matched as at the end of the text. -/
def StopsAt (m : Matcher α β) (c : α) : Prop :=
  ∀ s t, m (s ++ c :: t) = (m s).map fun r => (r.1, r.2 ++ c :: t)

section StopsAt

variable {m : Matcher α β} {f : β → Matcher α γ} {p : α → Bool} {c : α}

theorem stopsAt_pure (b : β) : (pure b : Matcher α β).StopsAt c := fun _ _ => rfl

theorem StopsAt.bind (hm : m.StopsAt c) (hf : ∀ b, (f b).StopsAt c) : (m >>= f).StopsAt c := by
  intro s t
  change (m (s ++ c :: t)).flatMap (fun r => f r.1 r.2) =
    ((m s).flatMap fun r => f r.1 r.2).map _
  rw [hm, List.flatMap_map, List.map_flatMap]
  exact List.flatMap_congr fun r _ => hf r.1 r.2 t

theorem stopsAt_literal [BEq α] [LawfulBEq α] {l : List α} (hc : c ∉ l) :
    (literal l).StopsAt c := by
  intro s t
  by_cases hstarts : l <+: s
  · obtain ⟨rest, rfl⟩ := hstarts
    rw [List.append_assoc, literal_append, literal_append]
    rfl
  · have hlonger : ¬l <+: s ++ c :: t := fun h => hstarts (prefix_of_prefix_append_cons hc h)
    rw [literal_eq_nil hstarts, literal_eq_nil hlonger]
    rfl

theorem stopsAt_many (hc : p c = false) : (many p).StopsAt c := by
  intro s t
  unfold many
  rw [greedy_append_cons hc, List.map_map]
  refine List.map_congr_left fun w hw => ?_
  have hle := (mem_greedy.mp hw).1.length_le
  simp [List.drop_append_of_le_length hle]

theorem StopsAt.filter (hm : m.StopsAt c) (q : β → Bool) :
    Matcher.StopsAt (fun s => (m s).filter fun r => q r.1) c := by
  intro s t
  dsimp only
  rw [hm, List.filter_map]
  rfl

theorem stopsAt_many1 (hc : p c = false) : (many1 p).StopsAt c :=
  (stopsAt_many hc).filter fun w => !w.isEmpty

theorem stopsAt_between (hc : p c = false) (lo hi : ℕ) : (between p lo hi).StopsAt c :=
  (stopsAt_many hc).filter fun w => lo ≤ w.length && w.length ≤ hi

theorem stopsAt_atLeast (hc : p c = false) (lo : ℕ) : (atLeast p lo).StopsAt c :=
  (stopsAt_many hc).filter fun w => lo ≤ w.length

variable {text : β → List α} {Form : β → Prop} (h : m.Reads text Form)
  {hne : ∀ b, Form b → text b ≠ []} {left left' s : List α}

theorem find_append_cons (hstop : m.StopsAt c) (s t : List α) :
    (m.capturing h hne).find left (s ++ c :: t) = (m.capturing h hne).find left' s := by
  change (m (s ++ c :: t)).head?.map Prod.fst = (m s).head?.map Prod.fst
  rw [hstop, List.head?_map, Option.map_map]
  rfl

theorem scan_capturing_left (left left' s : List α) :
    (m.capturing h hne).scan left s = (m.capturing h hne).scan left' s := by
  induction left, s using (m.capturing h hne).scan_induct generalizing left' with
  | nil left => rfl
  | plain left c s hfind ih =>
      have hfind' : (m.capturing h hne).find left' (c :: s) = none := hfind
      rw [Finder.scan_plain hfind, Finder.scan_plain hfind', ih]
  | hit left b s hfind ih =>
      have hfind' : (m.capturing h hne).find left' ((m.capturing h hne).text b ++ s) = some b :=
        hfind
      rw [Finder.scan_hit hfind, Finder.scan_hit hfind', ih]

/-- A text is searched apart on both sides of such a character. -/
theorem scan_append_cons (hstop : m.StopsAt c) (s t : List α) :
    (m.capturing h hne).scan left (s ++ c :: t) =
      (m.capturing h hne).scan left s ++ .plain c :: (m.capturing h hne).scan [] t := by
  induction left, s using (m.capturing h hne).scan_induct with
  | nil left =>
      have hnone : (m.capturing h hne).find left ([] ++ c :: t) = none := by
        have hnil : (m.capturing h hne).find left ([] ++ c :: t) =
            (m.capturing h hne).find left [] := find_append_cons h hstop [] t
        rw [hnil, Option.eq_none_iff_forall_ne_some]
        intro b hfind
        have hstarts := (m.capturing h hne).begins hfind
        exact (m.capturing h hne).nonempty hfind (List.prefix_nil.mp hstarts)
      rw [List.nil_append, Finder.scan_plain hnone, scan_capturing_left h _ []]
      rfl
  | plain left d s hfind ih =>
      have hfind' : (m.capturing h hne).find left (d :: (s ++ c :: t)) = none :=
        (find_append_cons h hstop (d :: s) t).trans hfind
      rw [List.cons_append, Finder.scan_plain hfind', ih, Finder.scan_plain hfind]
      rfl
  | hit left b s hfind ih =>
      have hfind' : (m.capturing h hne).find left
          ((m.capturing h hne).text b ++ (s ++ c :: t)) = some b := by
        rw [← List.append_assoc]
        exact (find_append_cons h hstop _ t).trans hfind
      rw [List.append_assoc, Finder.scan_hit hfind', ih, Finder.scan_hit hfind]
      rfl

theorem replaceAll_append_cons (hstop : m.StopsAt c) {new : β → List α} (s t : List α) :
    (m.capturing h hne).replaceAll new (s ++ c :: t) =
      (m.capturing h hne).replaceAll new s ++ c :: (m.capturing h hne).replaceAll new t := by
  rw [Finder.replaceAll, scan_append_cons h hstop, List.flatMap_append, List.flatMap_cons]
  rfl

end StopsAt

end Matcher

end SereinGateway.Lib
