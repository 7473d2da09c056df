import Mathlib.Data.List.Basic

/-!
# VoipTests.Lib.Mro

The method resolution order of a class with several bases: the C3
linearization, which puts a class before its bases and keeps the order in
which every class lists its own bases.

A program with classes of type `α` gives their bases; a method is then a
recursion over the list `linearize` returns, in which `super()` is the rest
of the list.  An attribute is the first one defined along it (`attr`).
-/

namespace Mro

variable {α β : Type*} [DecidableEq α]

/-- The first head of a list that stands in the tail of none. -/
def candidate (ls : List (List α)) : Option α :=
  (ls.filterMap List.head?).find? fun c => ls.all fun l => c ∉ l.tail

/-- The merge step of C3, in at most the given number of rounds. -/
def merge : Nat → List (List α) → Option (List α)
  | 0, _ => none
  | n + 1, ls =>
    if ls.all List.isEmpty then some []
    else match candidate ls with
      | none => none
      | some c => (merge n (ls.map fun l => if l.head? = some c then l.tail else l)).map (c :: ·)

/-- The linearization of `c`, for hierarchies of at most the given depth. -/
def linearize (bases : α → List α) : Nat → α → Option (List α)
  | 0, _ => none
  | n + 1, c => match (bases c).mapM (linearize bases n) with
    | none => none
    | some ls => (merge (n * n + 1) (ls ++ [bases c])).map (c :: ·)

/-- The value of a class attribute along a method resolution order. -/
def attr (own : α → Option β) (mro : List α) : Option β := mro.findSome? own

end Mro
