import Mathlib.Data.List.Forall2

/-!
Validation that stops at the first check that fails, and lists of fallible computations.

A validated value is the last of a chain of computations, each of which makes one check
and names it in the text of its error. `Reports checks x` says that `x` is such a chain:
it succeeds when all checks pass, and otherwise its error begins with the name of the
first check that fails. Chains are composed by `Reports.bind`.
-/

namespace SereinGateway.Lib

universe u

variable {α β : Type u} {checks rest : List (String × Bool)} {x : Except String α}

def firstFailed (checks : List (String × Bool)) : Option String :=
  (checks.find? fun c => !c.2).map Prod.fst

structure Reports (checks : List (String × Bool)) (x : Except String α) : Prop where
  ok : firstFailed checks = none → ∃ a, x = .ok a
  error : ∀ name, firstFailed checks = some name →
    ∃ message, x = .error message ∧ name.toList <+: message.toList

theorem firstFailed_append :
    firstFailed (checks ++ rest) = (firstFailed checks).or (firstFailed rest) := by
  rw [firstFailed, List.find?_append, Option.map_or]
  rfl

namespace Reports

theorem pure (a : α) : Reports [] (Except.ok a : Except String α) :=
  ⟨fun _ => ⟨a, rfl⟩, nofun⟩

theorem bind {f : α → Except String β} (h : Reports checks x)
    (hrest : ∀ a, x = .ok a → Reports rest (f a)) : Reports (checks ++ rest) (x >>= f) := by
  cases hfirst : firstFailed checks with
  | none =>
      obtain ⟨a, rfl⟩ := h.ok hfirst
      have hf := hrest a rfl
      constructor
      · intro hall
        rw [firstFailed_append, hfirst, Option.none_or] at hall
        exact hf.ok hall
      · intro name hname
        rw [firstFailed_append, hfirst, Option.none_or] at hname
        exact hf.error name hname
  | some first =>
      obtain ⟨message, rfl, hprefix⟩ := h.error first hfirst
      constructor
      · intro hall
        rw [firstFailed_append, hfirst, Option.some_or] at hall
        cases hall
      · intro name hname
        rw [firstFailed_append, hfirst, Option.some_or, Option.some.injEq] at hname
        exact ⟨message, rfl, hname ▸ hprefix⟩

/-- A single check and what is checked after it. -/
theorem cons {c : String × Bool} {f : α → Except String β} (h : Reports [c] x)
    (hrest : ∀ a, x = .ok a → Reports rest (f a)) : Reports (c :: rest) (x >>= f) :=
  h.bind hrest

/-- One check, by its outcome. -/
theorem single {name : String} {passes : Bool} (hok : passes = true → ∃ a, x = .ok a)
    (herror : passes = false →
      ∃ message, x = .error message ∧ name.toList <+: message.toList) :
    Reports [(name, passes)] x := by
  cases passes with
  | true =>
      refine ⟨fun _ => hok rfl, ?_⟩
      intro first hfirst
      cases hfirst
  | false =>
      refine ⟨nofun, ?_⟩
      intro first hfirst
      obtain rfl := Option.some.inj hfirst
      exact herror rfl

end Reports

theorem exists_of_bind_eq_ok {ε : Type*} {y : Except ε α} {f : α → Except ε β} {b : β}
    (h : y >>= f = .ok b) : ∃ a, y = .ok a ∧ f a = .ok b := by
  cases y with
  | error e => cases h
  | ok a => exact ⟨a, rfl, h⟩

theorem mapM_eq_ok_iff {ε : Type u} {f : α → Except ε β} {as : List α} {bs : List β} :
    as.mapM f = .ok bs ↔ List.Forall₂ (fun a b => f a = .ok b) as bs := by
  induction as generalizing bs with
  | nil =>
      rw [List.mapM_nil, List.forall₂_nil_left_iff]
      exact ⟨fun h => (Except.ok.inj h).symm, fun h => by rw [h]; rfl⟩
  | cons a as ih =>
      rw [List.mapM_cons, List.forall₂_cons_left_iff]
      constructor
      · intro h
        obtain ⟨b, hb, h⟩ := exists_of_bind_eq_ok h
        obtain ⟨rest, hrest, h⟩ := exists_of_bind_eq_ok h
        cases h
        exact ⟨b, rest, hb, ih.mp hrest, rfl⟩
      · rintro ⟨b, rest, hb, hrest, rfl⟩
        rw [hb, ih.mpr hrest]
        rfl

end SereinGateway.Lib
