import Mathlib.Data.Int.CardIntervalMod
import Mathlib.Data.List.Rotate

/-!
# VoipTests.Lib.Rotation

Taking turns: the last of a list is used, and put in front for the next time.

What is used is the reversed list over and over, and so everything on the list
gets its share: after `n` turns with a list of length `k` each has been used
`n / k` times, and those that have come round again once more (`count_turns`).
-/

namespace Rotation

variable {α : Type*} {n : Nat} {x : α} {xs ys zs : List α}

/-- One turn: what is used, and the list for the next. -/
def turn (xs : List α) : Option (α × List α) :=
  xs.getLast?.map fun x => (x, x :: xs.dropLast)

/-- `n` turns: what has been used, and the list for the next. -/
def turns : Nat → List α → Option (List α × List α)
  | 0, xs => some ([], xs)
  | n + 1, xs => (turn xs).bind fun p => (turns n p.2).map fun q => (p.1 :: q.1, q.2)

/-! ## one turn -/

theorem turn_eq_none_iff : turn xs = none ↔ xs = [] := by
  simp [turn]

theorem turn_eq_some (h : turn xs = some (x, ys)) : ∃ init, xs = init ++ [x] ∧ ys = x :: init := by
  unfold turn at h
  cases hl : xs.getLast? with
  | none => simp [hl] at h
  | some y =>
      obtain ⟨init, rfl⟩ := List.getLast?_eq_some_iff.mp hl
      simp only [hl, Option.map_some, Option.some.injEq, Prod.mk.injEq,
        List.dropLast_concat] at h
      obtain ⟨rfl, rfl⟩ := h
      exact ⟨init, rfl, rfl⟩

/-- Seen from its end, the list moves on by one. -/
theorem reverse_turn (h : turn xs = some (x, ys)) : ys.reverse = xs.reverse.rotate 1 := by
  obtain ⟨init, rfl, rfl⟩ := turn_eq_some h
  simp

theorem length_turn (h : turn xs = some (x, ys)) : ys.length = xs.length := by
  obtain ⟨init, rfl, rfl⟩ := turn_eq_some h
  simp

/-- What is used is at the end. -/
theorem head_turn (h : turn xs = some (x, ys)) : xs.reverse[0]? = some x := by
  obtain ⟨init, rfl, rfl⟩ := turn_eq_some h
  simp

/-! ## many turns -/

theorem turns_succ (h : turns (n + 1) xs = some (ys, zs)) :
    ∃ x xs' ys', turn xs = some (x, xs') ∧ turns n xs' = some (ys', zs) ∧ ys = x :: ys' := by
  simp only [turns, Option.bind_eq_some_iff, Option.map_eq_some_iff, Prod.mk.injEq] at h
  obtain ⟨⟨x, xs'⟩, hturn, ⟨ys', zs'⟩, hturns, rfl, rfl⟩ := h
  exact ⟨x, xs', ys', hturn, hturns, rfl⟩

/-- There is always a next, unless there was never one. -/
theorem exists_turns (hne : xs ≠ []) (n : Nat) : ∃ ys zs, turns n xs = some (ys, zs) := by
  induction n generalizing xs with
  | zero => exact ⟨[], xs, rfl⟩
  | succ n ih =>
      cases hturn : turn xs with
      | none => exact (hne (turn_eq_none_iff.mp hturn)).elim
      | some p =>
          obtain ⟨x, xs'⟩ := p
          obtain ⟨init, -, rfl⟩ := turn_eq_some hturn
          obtain ⟨ys, zs, hturns⟩ := ih (List.cons_ne_nil x init)
          exact ⟨x :: ys, zs, by simp [turns, hturn, hturns]⟩

theorem length_turns (h : turns n xs = some (ys, zs)) : ys.length = n := by
  induction n generalizing xs ys with
  | zero =>
      cases h
      rfl
  | succ n ih =>
      obtain ⟨x, xs', ys', -, hturns, rfl⟩ := turns_succ h
      simp [ih hturns]

/-- Nothing comes out that was not on the list. -/
theorem mem_turns (h : turns n xs = some (ys, zs)) : ∀ y ∈ ys, y ∈ xs := by
  induction n generalizing xs ys with
  | zero =>
      cases h
      simp
  | succ n ih =>
      obtain ⟨x, xs', ys', hturn, hturns, rfl⟩ := turns_succ h
      obtain ⟨init, rfl, rfl⟩ := turn_eq_some hturn
      intro y hy
      obtain rfl | hy := List.mem_cons.mp hy
      · simp
      · simpa [or_comm] using ih hturns y hy

/-- How often something is used, told by the turns it is used in. -/
theorem count_turns_eq [BEq α] (h : turns n xs = some (ys, zs)) (x : α) :
    ys.count x = n.count fun i => xs.reverse[i % xs.length]? == some x := by
  induction n generalizing xs ys with
  | zero =>
      cases h
      simp
  | succ n ih =>
      obtain ⟨y, xs', ys', hturn, hturns, rfl⟩ := turns_succ h
      have hnext (i : Nat) : xs'.reverse[i % xs'.length]? = xs.reverse[(i + 1) % xs.length]? := by
        have hpos : 0 < xs.length := by
          obtain ⟨init, rfl, -⟩ := turn_eq_some hturn
          simp
        rw [reverse_turn hturn, length_turn hturn,
          List.getElem?_rotate (by simpa using Nat.mod_lt i hpos), List.length_reverse,
          Nat.mod_add_mod]
      simp only [List.count_cons, ih hturns, Nat.count_succ', Nat.zero_mod, head_turn hturn, hnext,
        Option.some_beq_some]

/-- **Taking turns is even**: everything is used `n / k` times in `n` turns, and once more
what has come up again since. -/
theorem count_turns [BEq α] [LawfulBEq α] (hnd : xs.Nodup) (hx : x ∈ xs)
    (h : turns n xs = some (ys, zs)) : ys.count x =
      n / xs.length + if xs.reverse.idxOf x < n % xs.length then 1 else 0 := by
  have hpos : 0 < xs.length := List.length_pos_of_mem hx
  have hidx : xs.reverse.idxOf x < xs.reverse.length :=
    List.idxOf_lt_length_iff.mpr (List.mem_reverse.mpr hx)
  have hmod : xs.reverse.idxOf x % xs.length = xs.reverse.idxOf x :=
    Nat.mod_eq_of_lt (by simpa using hidx)
  have hturn (i : Nat) : xs.reverse[i % xs.length]? == some x ↔
      i ≡ xs.reverse.idxOf x [MOD xs.length] := by
    have hi : i % xs.length < xs.reverse.length := by simpa using Nat.mod_lt i hpos
    rw [beq_iff_eq, Nat.ModEq, hmod, List.getElem?_eq_getElem hi, Option.some.injEq]
    constructor
    · intro hget
      rw [← hget]
      exact ((List.nodup_reverse.mpr hnd).idxOf_getElem _ hi).symm
    · intro hi'
      simp only [hi', List.getElem_idxOf]
  rw [count_turns_eq h]
  simp only [hturn]
  rw [Nat.count_modEq_card _ hpos, hmod]

end Rotation
