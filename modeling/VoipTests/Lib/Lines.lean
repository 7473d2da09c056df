import Mathlib.Data.List.TakeWhile

/-!
# VoipTests.Lib.Lines

The lines of a sequence that arrives in pieces.

`ended sep s` are the lines of `s` that a separator has ended, `unfinished sep s`
is what follows the last of them.  Only the unfinished line matters for what
comes next (`ended_append`, `unfinished_append`), so that a reader which keeps
it sees the lines of the whole however the whole is cut into pieces.

`upTo sep n s` are the ended lines before the first that has more than `n`
elements with its separator; whether there is one (`TooLong`) is settled as soon
as `n` elements have come without a separator (`upTo_append`).
-/

namespace Lines

variable {α : Type*} [BEq α] (sep : α)

/-- The lines that have ended. -/
def ended (s : List α) : List (List α) := (s.splitOn sep).dropLast

/-- What follows the last separator. -/
def unfinished (s : List α) : List α :=
  (s.splitOn sep).getLast (List.splitOn_ne_nil sep s)

/-- The lines that have ended, before the first with more than `n` elements. -/
def upTo (n : Nat) (s : List α) : List (List α) := (ended sep s).takeWhile (·.length < n)

/-- A line has more than `n` elements with its separator, or is going to. -/
def TooLong (n : Nat) (s : List α) : Prop := ∃ line ∈ s.splitOn sep, n ≤ line.length

theorem splitOn_eq (s : List α) : s.splitOn sep = ended sep s ++ [unfinished sep s] :=
  (List.dropLast_concat_getLast _).symm

variable {sep} {line rest s : List α}

@[simp] theorem ended_nil : ended sep [] = [] := rfl

@[simp] theorem unfinished_nil : unfinished sep [] = [] := rfl

variable [LawfulBEq α]

theorem ended_of_not_mem (h : sep ∉ s) : ended sep s = [] := by
  rw [ended, List.splitOn_eq_singleton h, List.dropLast_singleton]

theorem unfinished_of_not_mem (h : sep ∉ s) : unfinished sep s = s := by
  have hsplit := splitOn_eq sep s
  rw [List.splitOn_eq_singleton h, ended_of_not_mem h] at hsplit
  exact (List.singleton_inj.mp hsplit).symm

/-- A separator ends the line before it. -/
theorem splitOn_line (h : sep ∉ line) : (line ++ sep :: rest).splitOn sep =
    (line :: ended sep rest) ++ [unfinished sep rest] := by
  rw [List.splitOn_append_cons_self_of_not_mem h, splitOn_eq sep rest, List.cons_append]

theorem ended_line (h : sep ∉ line) :
    ended sep (line ++ sep :: rest) = line :: ended sep rest := by
  rw [ended, splitOn_line h, List.dropLast_concat]

theorem unfinished_line (h : sep ∉ line) :
    unfinished sep (line ++ sep :: rest) = unfinished sep rest := by
  have hsplit := splitOn_eq sep (line ++ sep :: rest)
  rw [splitOn_line h, ended_line h] at hsplit
  exact (List.singleton_inj.mp (List.append_cancel_left hsplit)).symm

variable (sep)

/-! ## pieces -/

/-- Induction on the lines of a sequence. -/
theorem line_induction {motive : List α → Prop} (unended : ∀ s, sep ∉ s → motive s)
    (line : ∀ line rest, sep ∉ line → motive rest → motive (line ++ sep :: rest))
    (s : List α) : motive s := by
  induction hlen : s.length using Nat.strong_induction_on generalizing s with
  | _ k ih =>
      by_cases h : sep ∈ s
      · obtain ⟨l, rest, rfl, hl⟩ := List.eq_append_cons_of_mem h
        refine line l rest hl (ih rest.length ?_ rest rfl)
        rw [← hlen, List.length_append, List.length_cons]
        omega
      · exact unended s h

variable {sep}

theorem not_mem_unfinished (s : List α) : sep ∉ unfinished sep s := by
  induction s using line_induction sep with
  | unended s h => rwa [unfinished_of_not_mem h]
  | line line rest h ih => rwa [unfinished_line h]

/-- A line is shorter than what it has ended in. -/
theorem length_lt_of_mem_ended (h : line ∈ ended sep s) : line.length < s.length := by
  induction s using line_induction sep with
  | unended s hs =>
      rw [ended_of_not_mem hs] at h
      exact absurd h List.not_mem_nil
  | line l rest hl ih =>
      rw [ended_line hl, List.mem_cons] at h
      rw [List.length_append, List.length_cons]
      rcases h with rfl | h
      · omega
      · have hrest := ih h
        omega

/-- **What has ended stays, and the rest joins the unfinished line.** -/
theorem ended_append (s t : List α) :
    ended sep (s ++ t) = ended sep s ++ ended sep (unfinished sep s ++ t) := by
  induction s using line_induction sep with
  | unended s h => rw [ended_of_not_mem h, unfinished_of_not_mem h, List.nil_append]
  | line line rest h ih =>
      rw [List.append_assoc, List.cons_append, ended_line h, ended_line h, unfinished_line h, ih,
        List.cons_append]

theorem unfinished_append (s t : List α) :
    unfinished sep (s ++ t) = unfinished sep (unfinished sep s ++ t) := by
  induction s using line_induction sep with
  | unended s h => rw [unfinished_of_not_mem h]
  | line line rest h ih =>
      rw [List.append_assoc, List.cons_append, unfinished_line h, unfinished_line h, ih]

/-! ## lines that are too long -/

variable {n : Nat}

omit [LawfulBEq α] in
theorem tooLong_iff :
    TooLong sep n s ↔ (∃ line ∈ ended sep s, n ≤ line.length) ∨ n ≤ (unfinished sep s).length := by
  simp only [TooLong, splitOn_eq, List.mem_append, List.mem_singleton, or_and_right, exists_or,
    exists_eq_left]

omit [LawfulBEq α] in
/-- The lines are all there if none of them is too long. -/
theorem upTo_eq_ended_iff : upTo sep n s = ended sep s ↔ ∀ line ∈ ended sep s, line.length < n := by
  simp only [upTo, List.takeWhile_eq_self_iff, decide_eq_true_eq]

omit [LawfulBEq α] in
theorem not_tooLong_iff :
    ¬ TooLong sep n s ↔ upTo sep n s = ended sep s ∧ (unfinished sep s).length < n := by
  rw [upTo_eq_ended_iff, tooLong_iff]
  simp only [not_or, not_exists, not_and, Nat.not_le]

/-- A line that begins with too much is not passed on, and nothing after it. -/
theorem upTo_of_le_length {t : List α} (hs : sep ∉ s) (hn : n ≤ s.length) :
    upTo sep n (s ++ t) = [] := by
  by_cases ht : sep ∈ t
  · obtain ⟨line, rest, rfl, hline⟩ := List.eq_append_cons_of_mem ht
    have hmem : sep ∉ s ++ line := by simp [hs, hline]
    rw [upTo, ← List.append_assoc, ended_line hmem, List.takeWhile_cons_of_neg]
    simp only [List.length_append, decide_eq_true_eq]
    omega
  · have hmem : sep ∉ s ++ t := by simp [hs, ht]
    rw [upTo, ended_of_not_mem hmem, List.takeWhile_nil]

/-- **After a line that is too long nothing changes any more.** -/
theorem upTo_append {s t : List α} (h : TooLong sep n s) : upTo sep n (s ++ t) = upTo sep n s := by
  by_cases hall : ∀ line ∈ ended sep s, line.length < n
  · have hlong : n ≤ (unfinished sep s).length := by
      obtain ⟨line, hline, hle⟩ | hle := tooLong_iff.mp h
      · exact absurd (hall line hline) (Nat.not_lt.mpr hle)
      · exact hle
    have hrest := upTo_of_le_length (t := t) (not_mem_unfinished s) hlong
    rw [upTo_eq_ended_iff.mpr hall, upTo, ended_append,
      List.takeWhile_append_of_pos (by simpa using hall), ← upTo, hrest, List.append_nil]
  · have hshort : ((ended sep s).takeWhile (·.length < n)).length ≠ (ended sep s).length := by
      intro hlen
      exact hall (upTo_eq_ended_iff.mp ((List.takeWhile_prefix _).eq_of_length hlen))
    rw [upTo, ended_append, List.takeWhile_append, if_neg hshort, upTo]

/-- A line that is too long stays so. -/
theorem TooLong.append {s : List α} (h : TooLong sep n s) (t : List α) :
    TooLong sep n (s ++ t) := by
  rw [tooLong_iff, ended_append]
  obtain ⟨line, hline, hle⟩ | hle := tooLong_iff.mp h
  · exact .inl ⟨line, List.mem_append_left _ hline, hle⟩
  · by_cases ht : sep ∈ t
    · obtain ⟨l, rest, rfl, hl⟩ := List.eq_append_cons_of_mem ht
      have hmem : sep ∉ unfinished sep s ++ l := by simp [not_mem_unfinished s, hl]
      rw [← List.append_assoc, ended_line hmem]
      refine .inl ⟨_, List.mem_append_right _ List.mem_cons_self, ?_⟩
      rw [List.length_append]
      exact Nat.le_add_right_of_le hle
    · have hmem : sep ∉ unfinished sep s ++ t := by simp [not_mem_unfinished s, ht]
      rw [unfinished_append, unfinished_of_not_mem hmem, List.length_append]
      exact .inr (Nat.le_add_right_of_le hle)

end Lines
