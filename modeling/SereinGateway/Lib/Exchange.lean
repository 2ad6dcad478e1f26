import Mathlib.Data.List.Basic
import Mathlib.Data.Nat.Notation

/-!
A register whose value is replaced by an atomic exchange.

Each exchange installs a value and returns the one it replaces. Whoever the
exchanges are done by, the values form one chain: what was there at first and
what was installed is what was returned, in the same order, and what is there now.
-/

namespace SereinGateway.Lib

variable {α : Type*} {initial value : α} {installed returned : List α}

/-- The books of a register that held `initial` at first and holds `value` now. -/
def Exchanged (initial : α) (installed returned : List α) (value : α) : Prop :=
  initial :: installed = returned ++ [value]

namespace Exchanged

theorem start (a : α) : Exchanged a [] [] a := rfl

theorem exchange (h : Exchanged initial installed returned value) (b : α) :
    Exchanged initial (installed ++ [b]) (returned ++ [value]) b := by
  show (initial :: installed) ++ [b] = (returned ++ [value]) ++ [b]
  rw [h]

theorem length_returned (h : Exchanged initial installed returned value) :
    returned.length = installed.length := by
  have hlength := congrArg List.length h
  rw [List.length_cons, List.length_append, List.length_singleton] at hlength
  omega

theorem getLast?_eq (h : Exchanged initial installed returned value) :
    (initial :: installed).getLast? = some value := by
  rw [h, List.getLast?_append, List.getLast?_singleton, Option.some_or]

end Exchanged

end SereinGateway.Lib
