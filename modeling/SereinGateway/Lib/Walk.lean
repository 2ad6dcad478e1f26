import Mathlib

/-!
Walks in a tree of named places.

A place is the list of the names on the way to it from the root. A move stays,
goes one place up, or enters a place by its name; above the root there is
nothing, so going up from there stays. What a walk leads to depends on the place
it starts from only, so the walk that has led to a place may be replaced by the
shortest one.
-/

namespace SereinGateway.Lib

inductive Move (α : Type*) where
  | stay
  | up
  | enter (name : α)

namespace Move

variable {α : Type*}

def apply (place : List α) : Move α → List α
  | .stay => place
  | .up => place.dropLast
  | .enter name => place ++ [name]

/-- Where some moves lead to. -/
def walk (place : List α) (moves : List (Move α)) : List α := moves.foldl apply place

@[simp] theorem walk_nil (place : List α) : walk place [] = place := rfl

@[simp] theorem walk_cons (place : List α) (m : Move α) (moves : List (Move α)) :
    walk place (m :: moves) = walk (apply place m) moves := rfl

theorem walk_append (place : List α) (moves moves' : List (Move α)) :
    walk place (moves ++ moves') = walk (walk place moves) moves' := List.foldl_append

theorem walk_map_enter (place names : List α) : walk place (names.map .enter) = place ++ names := by
  induction names generalizing place with
  | nil => exact (List.append_nil place).symm
  | cons name names ih =>
      rw [List.map_cons, walk_cons, ih, apply, List.append_assoc]
      rfl

end Move

end SereinGateway.Lib
