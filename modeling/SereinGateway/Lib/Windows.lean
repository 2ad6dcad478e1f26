import Mathlib

/-!
Counting by fixed windows.

Times that do not decrease are cut into windows: a window begins with the first
time at which the one before is over, and lasts for `span`. Of each window the
first `limit` times are admitted. How many times are admitted in a stretch of
length `span` that lies anywhere is decided by each window and the next one.
-/

namespace SereinGateway.Lib

/-- The times of each window. -/
def windows (span : ℕ) : List ℕ → List (List ℕ)
  | [] => []
  | t :: ts => (t :: ts.takeWhile (· - t < span)) :: windows span (ts.dropWhile (· - t < span))
termination_by ts => ts.length
decreasing_by exact Nat.lt_succ_of_le (List.dropWhile_suffix _).length_le

def admitted (span limit : ℕ) (ts : List ℕ) : List ℕ :=
  (windows span ts).flatMap (List.take limit)

/-- How many of the times are in the stretch that begins at `a`. -/
def countIn (span a : ℕ) (ts : List ℕ) : ℕ := ts.countP fun t => a ≤ t ∧ t < a + span

/-- An admitted time of a window comes at least `span` after the one of the window
before that is admitted `limit` times earlier. -/
def Apart (span limit : ℕ) (w w' : List ℕ) : Prop :=
  ∀ i n x y, n < limit → i + limit = min limit w.length + n → w[i]? = some x → w'[n]? = some y →
    x + span ≤ y

section Sorted

variable {l : List ℕ} {i x a b : ℕ}

theorem exists_cut (h : l[i]? = some x) : ∃ l₁ l₂, l = l₁ ++ x :: l₂ ∧ l₁.length = i := by
  obtain ⟨hi, rfl⟩ := List.getElem?_eq_some_iff.mp h
  refine ⟨l.take i, l.drop (i + 1), ?_, List.length_take_of_le hi.le⟩
  rw [← List.drop_eq_getElem_cons, List.take_append_drop]

theorem countP_le_of_lt (hl : l.Pairwise (· ≤ ·)) (h : l[i]? = some x) (hx : x < a) :
    l.countP (a ≤ ·) + (i + 1) ≤ l.length := by
  obtain ⟨l₁, l₂, rfl, rfl⟩ := exists_cut h
  have hzero : l₁.countP (a ≤ ·) = 0 := by
    rw [List.countP_eq_zero]
    intro y hy
    have hle := (List.pairwise_append.mp hl).2.2 y hy x List.mem_cons_self
    simp only [decide_eq_true_eq]
    omega
  have hle := List.countP_le_length (p := (a ≤ ·)) (l := l₂)
  rw [List.countP_append, hzero, List.countP_cons_of_neg (by simpa using hx), List.length_append,
    List.length_cons]
  omega

theorem countP_lt_of_le (hl : l.Pairwise (· ≤ ·)) (h : l[i]? = some x) (hx : b ≤ x) :
    l.countP (· < b) ≤ i := by
  obtain ⟨l₁, l₂, rfl, rfl⟩ := exists_cut h
  have hzero : (x :: l₂).countP (· < b) = 0 := by
    rw [List.countP_eq_zero]
    intro y hy
    have hle : x ≤ y := by
      rcases List.mem_cons.mp hy with rfl | hy
      · exact le_rfl
      · exact List.rel_of_pairwise_cons (List.pairwise_append.mp hl).2.1 hy
    simp only [decide_eq_true_eq]
    omega
  rw [List.countP_append, hzero]
  exact List.countP_le_length

theorem le_countP_of_le (hl : l.Pairwise (· ≤ ·)) (h : l[i]? = some x) {p : ℕ → Bool}
    (hp : ∀ y ∈ l, x ≤ y → p y = true) : l.length ≤ l.countP p + i := by
  obtain ⟨l₁, l₂, rfl, rfl⟩ := exists_cut h
  have hall : (x :: l₂).countP p = (x :: l₂).length := by
    rw [List.countP_eq_length]
    intro y hy
    refine hp y (List.mem_append_right l₁ hy) ?_
    rcases List.mem_cons.mp hy with rfl | hy
    · exact le_rfl
    · exact List.rel_of_pairwise_cons (List.pairwise_append.mp hl).2.1 hy
  rw [List.countP_append, hall, List.length_append]
  omega

theorem lt_countP_of_le (hl : l.Pairwise (· ≤ ·)) (h : l[i]? = some x) {p : ℕ → Bool}
    (hp : ∀ y ∈ l, y ≤ x → p y = true) : i < l.countP p := by
  obtain ⟨l₁, l₂, rfl, rfl⟩ := exists_cut h
  have hall : l₁.countP p = l₁.length := by
    rw [List.countP_eq_length]
    intro y hy
    exact hp y (List.mem_append_left _ hy)
      ((List.pairwise_append.mp hl).2.2 y hy x List.mem_cons_self)
  rw [List.countP_append, hall, List.countP_cons_of_pos (hp x (by simp) le_rfl)]
  omega

end Sorted

section Windows

variable {span limit t x a : ℕ} {ts w : List ℕ}

theorem windows_cons (span t : ℕ) (ts : List ℕ) : windows span (t :: ts) =
    (t :: ts.takeWhile (· - t < span)) :: windows span (ts.dropWhile (· - t < span)) := by
  rw [windows]

theorem admitted_cons (span limit t : ℕ) (ts : List ℕ) : admitted span limit (t :: ts) =
    (t :: ts.takeWhile (· - t < span)).take limit ++
      admitted span limit (ts.dropWhile (· - t < span)) := by
  rw [admitted, windows_cons, List.flatMap_cons]
  rfl

theorem mem_of_admitted (h : x ∈ admitted span limit ts) : x ∈ ts := by
  induction ts using windows.induct span with
  | case1 => rwa [admitted, windows] at h
  | case2 t ts ih =>
      rw [admitted_cons] at h
      rcases List.mem_append.mp h with h | h
      · have hmem := List.take_subset _ _ h
        rcases List.mem_cons.mp hmem with rfl | hmem
        · exact List.mem_cons_self
        · exact List.mem_cons_of_mem t (List.takeWhile_subset _ hmem)
      · exact List.mem_cons_of_mem t (List.dropWhile_subset _ (ih h))

theorem mem_window (hts : (t :: ts).Pairwise (· ≤ ·)) (hspan : 0 < span)
    (hx : x ∈ t :: ts.takeWhile (· - t < span)) : t ≤ x ∧ x < t + span := by
  rcases List.mem_cons.mp hx with rfl | hx
  · omega
  · have hle := List.rel_of_pairwise_cons hts (List.takeWhile_subset _ hx)
    have hlt := List.mem_takeWhile_imp hx
    rw [decide_eq_true_eq] at hlt
    omega

/-- The next window begins when it is over. -/
theorem mem_rest (hts : (t :: ts).Pairwise (· ≤ ·)) (hx : x ∈ ts.dropWhile (· - t < span)) :
    t + span ≤ x := by
  have hhead := List.head?_dropWhile_not (· - t < span) ts
  have hsub := (List.dropWhile_suffix (l := ts) (· - t < span)).sublist
  cases hd : ts.dropWhile (· - t < span) with
  | nil =>
      rw [hd] at hx
      cases hx
  | cons y ys =>
      rw [hd] at hx hhead hsub
      have hy : t ≤ y := List.rel_of_pairwise_cons hts (hsub.subset List.mem_cons_self)
      have hle : y ≤ x := by
        rcases List.mem_cons.mp hx with rfl | hx
        · exact le_rfl
        · exact List.rel_of_pairwise_cons ((List.Pairwise.of_cons hts).sublist hsub) hx
      simp only [List.head?_cons, decide_eq_false_iff_not, not_lt] at hhead
      omega

theorem sorted_window (span : ℕ) (hts : (t :: ts).Pairwise (· ≤ ·)) :
    (t :: ts.takeWhile (· - t < span)).Pairwise (· ≤ ·) :=
  hts.sublist ((List.takeWhile_sublist _).cons_cons t)

theorem sorted_rest (span : ℕ) (hts : (t :: ts).Pairwise (· ≤ ·)) :
    (ts.dropWhile (· - t < span)).Pairwise (· ≤ ·) :=
  (List.Pairwise.of_cons hts).sublist (List.dropWhile_sublist _)

theorem countIn_append (ts ts' : List ℕ) :
    countIn span a (ts ++ ts') = countIn span a ts + countIn span a ts' := List.countP_append

theorem countIn_eq_zero (h : ∀ x ∈ ts, a + span ≤ x) : countIn span a ts = 0 := by
  rw [countIn, List.countP_eq_zero]
  intro x hx
  have hle := h x hx
  simp only [decide_eq_true_eq]
  omega

/-- The stretch meets a window and the next one only. -/
theorem countIn_le_of_apart {w w' : List ℕ} (hw : w.Pairwise (· ≤ ·)) (hw' : w'.Pairwise (· ≤ ·))
    (h : Apart span limit w w') (a : ℕ) :
    countIn span a (w.take limit) + countIn span a (w'.take limit) ≤ limit := by
  have hleft : countIn span a (w.take limit) ≤ (w.take limit).countP (a ≤ ·) :=
    List.countP_mono_left fun x _ hx => by
      simp only [decide_eq_true_eq] at hx ⊢
      exact hx.1
  have hright : countIn span a (w'.take limit) ≤ (w'.take limit).countP (· < a + span) :=
    List.countP_mono_left fun x _ hx => by
      simp only [decide_eq_true_eq] at hx ⊢
      exact hx.2
  have hlen := (List.countP_le_length (p := (a ≤ ·)) (l := w.take limit)).trans_eq
    List.length_take
  have hlen' := (List.countP_le_length (p := (· < a + span)) (l := w'.take limit)).trans_eq
    List.length_take
  by_contra hgt
  -- The last time of the next window in the stretch, and the one that it has to be apart from.
  obtain ⟨n, hn⟩ : ∃ n, countIn span a (w'.take limit) = n + 1 :=
    ⟨countIn span a (w'.take limit) - 1, by omega⟩
  obtain ⟨i, hi⟩ : ∃ i, i + limit = min limit w.length + n :=
    ⟨min limit w.length + n - limit, by omega⟩
  obtain ⟨x, hx⟩ : ∃ x, w[i]? = some x := ⟨_, List.getElem?_eq_getElem (by omega)⟩
  obtain ⟨y, hy⟩ : ∃ y, w'[n]? = some y := ⟨_, List.getElem?_eq_getElem (by omega)⟩
  have hxt : (w.take limit)[i]? = some x := by
    rw [List.getElem?_take_of_lt (by omega), hx]
  have hyt : (w'.take limit)[n]? = some y := by
    rw [List.getElem?_take_of_lt (by omega), hy]
  have hapart := h i n x y (by omega) hi hx hy
  by_cases hya : a + span ≤ y
  · have hle := countP_lt_of_le (hw'.sublist (List.take_sublist _ _)) hyt hya
    omega
  · have hle := countP_le_of_lt (hw.sublist (List.take_sublist _ _)) hxt (a := a) (by omega)
    rw [List.length_take] at hle
    omega

/-- Times that are not apart are too many for the stretch that begins with the first
of them. -/
theorem apart_of_countIn_le {w w' : List ℕ} (hw : w.Pairwise (· ≤ ·)) (hw' : w'.Pairwise (· ≤ ·))
    (hlast : ∀ x ∈ w, ∀ y ∈ w, x < y + span) (hnext : ∀ x ∈ w, ∀ y ∈ w', x ≤ y)
    (h : ∀ a, countIn span a (w.take limit) + countIn span a (w'.take limit) ≤ limit) :
    Apart span limit w w' := by
  intro i n x y hn hi hx hy
  by_contra hxy
  have hmem := List.mem_of_getElem? hx
  have hmem' := List.mem_of_getElem? hy
  have hxt : (w.take limit)[i]? = some x := by
    rw [List.getElem?_take_of_lt (by omega), hx]
  have hyt : (w'.take limit)[n]? = some y := by
    rw [List.getElem?_take_of_lt hn, hy]
  have hleft : (w.take limit).length ≤ countIn span x (w.take limit) + i :=
    le_countP_of_le (hw.sublist (List.take_sublist _ _)) hxt fun z hz hle => by
      have hlt := hlast z (List.take_subset _ _ hz) x hmem
      simp only [decide_eq_true_eq]
      omega
  have hright : n < countIn span x (w'.take limit) :=
    lt_countP_of_le (hw'.sublist (List.take_sublist _ _)) hyt fun z hz hle => by
      have hge := hnext x hmem z (List.take_subset _ _ hz)
      simp only [decide_eq_true_eq]
      omega
  have hbound := h x
  rw [List.length_take] at hleft
  omega

/-- Every stretch of length `span` has at most `limit` admitted times in it exactly if
each window is apart from the next. -/
theorem countIn_admitted_le_iff (hspan : 0 < span) (hts : ts.Pairwise (· ≤ ·)) :
    (∀ a, countIn span a (admitted span limit ts) ≤ limit) ↔
      (windows span ts).IsChain (Apart span limit) := by
  induction ts using windows.induct span with
  | case1 => simp [admitted, windows, countIn]
  | case2 t ts ih =>
      have hrest := ih (sorted_rest span hts)
      have hsorted := sorted_window span hts
      rw [windows_cons]
      simp only [admitted_cons, countIn_append]
      cases hd : ts.dropWhile (· - t < span) with
      | nil =>
          refine iff_of_true (fun a => ?_) ?_
          · have hle := List.countP_le_length (p := fun t => decide (a ≤ t ∧ t < a + span))
              (l := (t :: ts.takeWhile (· - t < span)).take limit)
            rw [← countIn, List.length_take] at hle
            simp only [admitted, windows, List.flatMap_nil, countIn, List.countP_nil] at hle ⊢
            omega
          · rw [windows]
            exact List.isChain_singleton _
      | cons t' ts' =>
          have hsorted' := sorted_rest span hts
          have hfrom := fun x (hx : x ∈ ts.dropWhile (· - t < span)) => mem_rest hts hx
          rw [hd] at hrest hsorted' hfrom
          rw [windows_cons, List.isChain_cons_cons]
          rw [windows_cons] at hrest
          rw [← hrest]
          simp only [admitted_cons, countIn_append]
          constructor
          · intro h
            refine ⟨apart_of_countIn_le hsorted (sorted_window span hsorted') ?_ ?_
              fun a => ?_, fun a => ?_⟩
            · intro x hx y hy
              have hx := mem_window hts hspan hx
              have hy := mem_window hts hspan hy
              omega
            · intro x hx y hy
              have hx := mem_window hts hspan hx
              have hy := (mem_window hsorted' hspan hy).1
              have ht := hfrom t' List.mem_cons_self
              omega
            · have hle := h a
              omega
            · have hle := h a
              omega
          · rintro ⟨hapart, h⟩ a
            by_cases hmeets : ∃ x ∈ (t :: ts.takeWhile (· - t < span)).take limit, a ≤ x
            · obtain ⟨x, hx, hax⟩ := hmeets
              have hlt := mem_window hts hspan (List.take_subset _ _ hx)
              have hle := countIn_le_of_apart hsorted (sorted_window span hsorted') hapart a
              have hzero : countIn span a
                  (admitted span limit (ts'.dropWhile (· - t' < span))) = 0 := by
                refine countIn_eq_zero fun y hy => ?_
                have hy := mem_rest hsorted' (mem_of_admitted hy)
                have ht := hfrom t' List.mem_cons_self
                omega
              omega
            · have hzero : countIn span a ((t :: ts.takeWhile (· - t < span)).take limit) = 0 := by
                rw [countIn, List.countP_eq_zero]
                intro x hx
                have hlt : ¬a ≤ x := fun hax => hmeets ⟨x, hx, hax⟩
                simp [hlt]
              have hle := h a
              omega

theorem isChain_windows_zero (hts : ts.Pairwise (· ≤ ·)) :
    (windows 0 ts).IsChain (Apart 0 limit) := by
  induction ts with
  | nil =>
      rw [windows]
      exact List.isChain_nil
  | cons t ts ih =>
      have hcons : ∀ t ts, windows 0 (t :: ts) = [t] :: windows 0 ts := by
        intro t ts
        rw [windows_cons]
        cases ts <;> simp
      have hrest := ih (List.Pairwise.of_cons hts)
      cases ts with
      | nil =>
          rw [hcons, windows]
          exact List.isChain_singleton _
      | cons t' ts =>
          rw [hcons] at hrest
          rw [hcons, hcons, List.isChain_cons_cons]
          refine ⟨fun i n x y _ _ hx hy => ?_, hrest⟩
          have hx := List.mem_singleton.mp (List.mem_of_getElem? hx)
          have hy := List.mem_singleton.mp (List.mem_of_getElem? hy)
          have hle := List.rel_of_pairwise_cons hts (List.mem_cons_self (a := t') (l := ts))
          omega

end Windows

end SereinGateway.Lib
