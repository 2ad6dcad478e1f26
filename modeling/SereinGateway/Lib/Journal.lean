import Mathlib.Data.Nat.Notation
import Mathlib.Data.List.Induction
import Mathlib.Data.Option.Basic
import Mathlib.Logic.Function.Basic

/-!
A journal of writes, and a store that answers for it.

A journal lists what was written under which key, the oldest first; to write
`none` is to remove. `latest` is what it says in the end: under each key, what
was written last.

A store that answers for a journal never holds anything else under a key, but
it may have forgotten entries that count as dead. Whoever looks only at live
entries does not notice, which is `AnswersFor.filter_lookup`: forgetting dead
entries, now or later, can not be observed.
-/

namespace SereinGateway.Lib

variable {κ β : Type*} [DecidableEq κ]

/-- What a journal says in the end. -/
def latest (journal : List (κ × Option β)) : κ → Option β :=
  journal.foldl (fun store e => Function.update store e.1 e.2) fun _ => none

@[simp] theorem latest_nil : latest ([] : List (κ × Option β)) = fun _ => none := rfl

@[simp] theorem latest_concat (journal : List (κ × Option β)) (e : κ × Option β) :
    latest (journal ++ [e]) = Function.update (latest journal) e.1 e.2 := by
  simp [latest]

theorem latest_append_of_ne {journal later : List (κ × Option β)} {k : κ}
    (h : ∀ e ∈ later, e.1 ≠ k) : latest (journal ++ later) k = latest journal k := by
  induction later using List.reverseRecOn with
  | nil => rw [List.append_nil]
  | append_singleton later e ih =>
      have hne : k ≠ e.1 := (h e (List.mem_append_right later (List.mem_singleton_self e))).symm
      rw [← List.append_assoc, latest_concat, Function.update_of_ne hne]
      exact ih fun e he => h e (List.mem_append_left _ he)

/-- What a journal says is what one of its writes says, the last under the key. -/
theorem exists_of_latest {journal : List (κ × Option β)} {k : κ} {v : β}
    (h : latest journal k = some v) : ∃ earlier later,
      journal = earlier ++ (k, some v) :: later ∧ ∀ e ∈ later, e.1 ≠ k := by
  induction journal using List.reverseRecOn with
  | nil => cases h
  | append_singleton journal e ih =>
      obtain ⟨key, written⟩ := e
      rw [latest_concat] at h
      by_cases hkey : k = key
      · subst hkey
        rw [Function.update_self] at h
        subst h
        exact ⟨journal, [], rfl, by simp⟩
      · rw [Function.update_of_ne hkey] at h
        obtain ⟨earlier, later, rfl, hlater⟩ := ih h
        refine ⟨earlier, later ++ [(key, written)], by simp, ?_⟩
        intro e he
        rcases List.mem_append.mp he with he | he
        · exact hlater e he
        · rw [List.mem_singleton.mp he]
          exact Ne.symm hkey

theorem latest_eq_some_iff {journal : List (κ × Option β)} {k : κ} {v : β} :
    latest journal k = some v ↔ ∃ earlier later,
      journal = earlier ++ (k, some v) :: later ∧ ∀ e ∈ later, e.1 ≠ k := by
  constructor
  · exact exists_of_latest
  · rintro ⟨earlier, later, rfl, hlater⟩
    rw [List.append_cons, latest_append_of_ne hlater, latest_concat, Function.update_self]

/-- The store holds what the journal says, except that it may have forgotten
dead entries. -/
structure AnswersFor (dead : β → Prop) (journal : List (κ × Option β))
    (store : κ → Option β) : Prop where
  sound : ∀ k v, store k = some v → latest journal k = some v
  complete : ∀ k v, latest journal k = some v → store k = some v ∨ dead v

namespace AnswersFor

variable {dead dead' : β → Prop} {journal : List (κ × Option β)} {store : κ → Option β}

theorem empty : AnswersFor dead [] fun _ : κ => none where
  sound _ _ h := h
  complete _ _ h := by cases h

theorem mem (h : AnswersFor dead journal store) {k : κ} {v : β} (hv : store k = some v) :
    (k, some v) ∈ journal := by
  obtain ⟨earlier, later, rfl, -⟩ := exists_of_latest (h.sound k v hv)
  exact List.mem_append_right earlier List.mem_cons_self

/-- Entries only die. -/
theorem mono (h : AnswersFor dead journal store) (hdead : ∀ v, dead v → dead' v) :
    AnswersFor dead' journal store where
  sound := h.sound
  complete k v hv := (h.complete k v hv).imp_right (hdead v)

theorem write (h : AnswersFor dead journal store) (k : κ) (w : Option β) :
    AnswersFor dead (journal ++ [(k, w)]) (Function.update store k w) where
  sound := by
    intro k' v hv
    rw [latest_concat]
    by_cases hk : k' = k
    · subst hk
      rwa [Function.update_self] at hv ⊢
    · rw [Function.update_of_ne hk] at hv ⊢
      exact h.sound k' v hv
  complete := by
    intro k' v hv
    rw [latest_concat] at hv
    by_cases hk : k' = k
    · subst hk
      rw [Function.update_self] at hv ⊢
      exact .inl hv
    · rw [Function.update_of_ne hk] at hv ⊢
      exact h.complete k' v hv

theorem forget (h : AnswersFor dead journal store) {keep : κ → β → Bool}
    (hkeep : ∀ k v, store k = some v → keep k v = false → dead v) :
    AnswersFor dead journal fun k => (store k).filter (keep k) where
  sound := by
    intro k v hv
    exact h.sound k v (Option.filter_eq_some_iff.mp hv).1
  complete := by
    intro k v hv
    rcases h.complete k v hv with hstore | hdead
    · cases hkept : keep k v with
      | false => exact .inr (hkeep k v hstore hkept)
      | true => exact .inl (Option.filter_eq_some_iff.mpr ⟨hstore, hkept⟩)
    · exact .inr hdead

/-- Among the live entries nothing is missing. -/
theorem filter_lookup (h : AnswersFor dead journal store) {live : β → Bool}
    (hlive : ∀ v, dead v → live v = false) (k : κ) :
    (store k).filter live = (latest journal k).filter live := by
  ext v
  rw [Option.filter_eq_some_iff, Option.filter_eq_some_iff]
  constructor
  · rintro ⟨hstore, hv⟩
    exact ⟨h.sound k v hstore, hv⟩
  · rintro ⟨hlatest, hv⟩
    rcases h.complete k v hlatest with hstore | hdead
    · exact ⟨hstore, hv⟩
    · rw [hlive v hdead] at hv
      cases hv

end AnswersFor

end SereinGateway.Lib
