import Mathlib.Data.List.Basic

/-!
# VoipTests.Lib.Sieve

A loop that takes elements out of the list it walks along.

`loop f` looks at the element under its index: `f` either takes it, and then
it is deleted and the index stays, or leaves it, and then the index moves on.
What `f` does may change a state and may depend on the number of the round.

The index and the length move together, so that the loop is one pass over the
list (`loop_eq_pass`); and if what is taken can be told from the element alone,
it is a partition (`pass_eq`).
-/

namespace Sieve

variable {σ α : Type*}

/-- The loop, from round `n` on; `none` as soon as `f` is.  The result has the
number of rounds, the state and what is left of the list. -/
def loop (f : Nat → σ → α → Option (Bool × σ)) (n : Nat) (s : σ) (xs : List α) (i : Nat) :
    Option (Nat × σ × List α) :=
  if h : i < xs.length then
    match f n s xs[i] with
    | none => none
    | some (true, s') => loop f (n + 1) s' (xs.eraseIdx i) i
    | some (false, s') => loop f (n + 1) s' xs (i + 1)
  else some (n, s, xs)
termination_by xs.length - i
decreasing_by
  · rw [List.length_eraseIdx_of_lt h]
    omega
  · omega

/-- One pass over the list, and the elements that are not taken. -/
def pass (f : Nat → σ → α → Option (Bool × σ)) (n : Nat) (s : σ) : List α → Option (σ × List α)
  | [] => some (s, [])
  | x :: xs => match f n s x with
    | none => none
    | some (true, s') => pass f (n + 1) s' xs
    | some (false, s') => (pass f (n + 1) s' xs).map fun p => (p.1, x :: p.2)

variable {f : Nat → σ → α → Option (Bool × σ)}

/-- **The loop ends**, after as many rounds as there were elements, and does
what one pass does: whatever has been left before the index stays there. -/
theorem loop_eq_pass (n : Nat) (s : σ) (done xs : List α) :
    loop f n s (done ++ xs) done.length =
      (pass f n s xs).map fun p => (n + xs.length, p.1, done ++ p.2) := by
  induction xs generalizing n s done with
  | nil => simp [loop, pass]
  | cons x xs ih =>
      have hlt : done.length < (done ++ x :: xs).length := by simp
      have hx : (done ++ x :: xs)[done.length] = x := by simp
      rw [loop, dif_pos hlt, hx, pass]
      match f n s x with
      | none => rfl
      | some (true, s') =>
          have hdel : (done ++ x :: xs).eraseIdx done.length = done ++ xs := by
            rw [List.eraseIdx_append_of_length_le (Nat.le_refl _), Nat.sub_self, List.eraseIdx_cons_zero]
          dsimp only
          rw [hdel, ih, List.length_cons, Nat.add_right_comm, Nat.add_assoc]
      | some (false, s') =>
          have hnext := ih (n + 1) s' (done ++ [x])
          rw [List.append_assoc, List.singleton_append, List.length_append, List.length_singleton] at hnext
          dsimp only
          rw [hnext, Option.map_map, List.length_cons, Nat.add_right_comm, Nat.add_assoc]
          congr 1
          funext p
          simp

/-- What the rounds that take an element do to the state, one after the other. -/
def applied (f : Nat → σ → α → Option (Bool × σ)) (s : σ) (xs : List (α × Nat)) : Option σ :=
  xs.foldlM (fun s x => (f x.2 s x.1).map Prod.snd) s

/-- `takes` tells what is taken, and what is not taken changes nothing. -/
structure Sorts (f : Nat → σ → α → Option (Bool × σ)) (takes : α → Bool) : Prop where
  leaves : ∀ n s x, takes x = false → f n s x = some (false, s)
  takes : ∀ n s x r, takes x = true → f n s x = some r → r.1 = true

/-- **A pass is a stable partition.** -/
theorem pass_eq {takes : α → Bool} (hf : Sorts f takes) (n : Nat) (s : σ) (xs : List α) :
    pass f n s xs = (applied f s ((xs.zipIdx n).filter fun x => takes x.1)).map fun s' =>
      (s', xs.filter fun x => !takes x) := by
  induction xs generalizing n s with
  | nil => rfl
  | cons x xs ih =>
      rw [pass, List.zipIdx_cons]
      cases ht : takes x with
      | false =>
          have hkeep : (x :: xs).filter (fun x => !takes x) = x :: xs.filter fun x => !takes x :=
            List.filter_cons_of_pos (by simp [ht])
          have hskip : ((x, n) :: xs.zipIdx (n + 1)).filter (fun x => takes x.1) =
              (xs.zipIdx (n + 1)).filter fun x => takes x.1 := List.filter_cons_of_neg (by simp [ht])
          rw [hf.leaves n s x ht, hkeep, hskip]
          dsimp only
          rw [ih, Option.map_map]
          rfl
      | true =>
          have hskip : (x :: xs).filter (fun x => !takes x) = xs.filter fun x => !takes x :=
            List.filter_cons_of_neg (by simp [ht])
          have htake : ((x, n) :: xs.zipIdx (n + 1)).filter (fun x => takes x.1) =
              (x, n) :: (xs.zipIdx (n + 1)).filter fun x => takes x.1 :=
            List.filter_cons_of_pos (by simpa using ht)
          rw [hskip, htake, applied, List.foldlM_cons]
          cases hr : f n s x with
          | none => rfl
          | some r =>
              obtain ⟨taken, s'⟩ := r
              obtain rfl : taken = true := hf.takes n s x _ ht hr
              exact ih (n + 1) s'

/-- The loop, from the start of a list. -/
theorem loop_eq {takes : α → Bool} (hf : Sorts f takes) (s : σ) (xs : List α) :
    loop f 0 s xs 0 = (applied f s (xs.zipIdx.filter fun x => takes x.1)).map fun s' =>
      (xs.length, s', xs.filter fun x => !takes x) := by
  have hloop := loop_eq_pass (f := f) 0 s [] xs
  rw [pass_eq hf, Option.map_map] at hloop
  simpa [Function.comp_def] using hloop

end Sieve
