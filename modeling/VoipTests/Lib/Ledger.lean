import Mathlib.Data.Finset.Card

/-!
# VoipTests.Lib.Ledger

A ledger of jobs: which jobs have been taken on and still have no verdict,
and which have ended with which verdict.  A job that is withdrawn leaves no
trace.

`owed` is the number of jobs that keep the ledger from being `Green`; the
equations below say how each operation changes it, so a program that keeps
a single counter of it can be checked operation by operation.  Where the jobs are
objects that have verdicts of their own, `Keeps` is what ties the ledger to them.
-/

/-- The jobs taken on, by what has become of them. -/
structure Ledger (ι : Type*) where
  pending : Finset ι
  passed : Finset ι
  failed : Finset ι

namespace Ledger

variable {ι : Type*}

/-- The ledger with the jobs `is` taken on. -/
def opening (is : Finset ι) : Ledger ι := ⟨is, ∅, ∅⟩

/-- Every job taken on has passed. -/
def Green (L : Ledger ι) : Prop := L.pending = ∅ ∧ L.failed = ∅

/-- The jobs that have not passed. -/
def owed (L : Ledger ι) : Nat := L.pending.card + L.failed.card

/-- A job that the ledger does not know. -/
def Fresh (L : Ledger ι) (i : ι) : Prop := i ∉ L.pending ∧ i ∉ L.passed ∧ i ∉ L.failed

/-- A job without a verdict is not among those with one. -/
structure WF (L : Ledger ι) : Prop where
  passed : Disjoint L.pending L.passed
  failed : Disjoint L.pending L.failed

theorem owed_eq_zero_iff (L : Ledger ι) : L.owed = 0 ↔ L.Green := by
  simp [owed, Green]

theorem owed_opening (is : Finset ι) : (opening is).owed = is.card := by
  simp [owed, opening]

theorem wf_opening (is : Finset ι) : (opening is).WF := by
  constructor <;> simp [opening]

/-- The ledger has every job as `v` has it, which is `none` where there is no job,
and `some none` where it has no verdict. -/
structure Keeps (L : Ledger ι) (v : ι → Option (Option Bool)) : Prop where
  pending : ∀ i, i ∈ L.pending ↔ v i = some none
  passed : ∀ i, i ∈ L.passed ↔ v i = some (some true)
  failed : ∀ i, i ∈ L.failed ↔ v i = some (some false)

theorem Keeps.green_iff_passed {L : Ledger ι} {v : ι → Option (Option Bool)} (h : L.Keeps v) :
    L.Green ↔ ∀ i, v i = none ∨ v i = some (some true) := by
  simp only [Green, Finset.eq_empty_iff_forall_notMem, h.pending, h.failed, ← forall_and]
  refine forall_congr' fun i => ?_
  obtain _ | _ | _ | _ := v i <;> simp

theorem Keeps.fresh {L : Ledger ι} {v : ι → Option (Option Bool)} (h : L.Keeps v) {i : ι}
    (hi : v i = none) : L.Fresh i := by
  simp [Fresh, h.pending, h.passed, h.failed, hi]

variable [DecidableEq ι]

/-- Take on a job. -/
def takeOn (L : Ledger ι) (i : ι) : Ledger ι := { L with pending := insert i L.pending }

/-- Give a job back. -/
def withdraw (L : Ledger ι) (i : ι) : Ledger ι := { L with pending := L.pending.erase i }

/-- A job ends with a verdict. -/
def complete (L : Ledger ι) (i : ι) (ok : Bool) : Ledger ι :=
  if ok then { L with pending := L.pending.erase i, passed := insert i L.passed }
  else { L with pending := L.pending.erase i, failed := insert i L.failed }

variable {L : Ledger ι} {i : ι}

theorem owed_takeOn (h : L.Fresh i) : (L.takeOn i).owed = L.owed + 1 := by
  simp only [owed, takeOn, Finset.card_insert_of_notMem h.1]
  omega

theorem wf_takeOn (hwf : L.WF) (h : L.Fresh i) : (L.takeOn i).WF := by
  constructor
  · simpa [takeOn, Finset.disjoint_insert_left] using ⟨h.2.1, hwf.passed⟩
  · simpa [takeOn, Finset.disjoint_insert_left] using ⟨h.2.2, hwf.failed⟩

/-- A job taken on and withdrawn at once leaves no trace. -/
theorem withdraw_takeOn (h : L.Fresh i) : (L.takeOn i).withdraw i = L := by
  simp [withdraw, takeOn, Finset.erase_insert h.1]

theorem owed_complete_of_mem (hwf : L.WF) (h : i ∈ L.pending) (ok : Bool) :
    (L.complete i ok).owed + (if ok then 1 else 0) = L.owed := by
  have hpos : 0 < L.pending.card := Finset.card_pos.mpr ⟨i, h⟩
  cases ok with
  | true => simp only [complete, owed, if_true, Finset.card_erase_of_mem h]; omega
  | false =>
      have hnew : i ∉ L.failed := Finset.disjoint_left.mp hwf.failed h
      simp only [complete, owed, Bool.false_eq_true, if_false, Finset.card_erase_of_mem h,
        Finset.card_insert_of_notMem hnew]
      omega

/-- A verdict of either kind takes the job off those still open. -/
@[simp] theorem pending_complete (ok : Bool) :
    (L.complete i ok).pending = L.pending.erase i := by
  cases ok <;> rfl

/-- A verdict makes no other job known. -/
theorem Fresh.complete {j : ι} (h : L.Fresh j) (hne : j ≠ i) (ok : Bool) :
    (L.complete i ok).Fresh j := by
  obtain ⟨h₁, h₂, h₃⟩ := h
  cases ok with
  | true => exact ⟨by simp [h₁], by simp [Ledger.complete, h₂, hne], h₃⟩
  | false => exact ⟨by simp [h₁], h₂, by simp [Ledger.complete, h₃, hne]⟩

theorem wf_complete (hwf : L.WF) (ok : Bool) : (L.complete i ok).WF := by
  have herase {is : Finset ι} (h : Disjoint L.pending is) : Disjoint (L.pending.erase i) is :=
    h.mono_left (Finset.erase_subset _ _)
  cases ok with
  | true =>
      constructor
      · simpa [complete, Finset.disjoint_insert_right] using herase hwf.passed
      · simpa [complete] using herase hwf.failed
  | false =>
      constructor
      · simpa [complete] using herase hwf.passed
      · simpa [complete, Finset.disjoint_insert_right] using herase hwf.failed

/-! ## the jobs themselves -/

namespace Keeps

variable {v : ι → Option (Option Bool)}

/-- What is owed, among the jobs of a set that has them all. -/
theorem owed_eq (h : L.Keeps v) {is : Finset ι} (his : ∀ i, v i ≠ none → i ∈ is) :
    L.owed = (is.filter fun i => v i ≠ none ∧ v i ≠ some (some true)).card := by
  have hsplit : is.filter (fun i => v i ≠ none ∧ v i ≠ some (some true)) =
      L.pending ∪ L.failed := by
    ext i
    have hi := his i
    rw [Finset.mem_union, h.pending, h.failed, Finset.mem_filter]
    rcases hv : v i with _ | _ | _ | _ <;> simp_all
  have hdisj : Disjoint L.pending L.failed := by
    simp +contextual [Finset.disjoint_left, h.pending, h.failed]
  rw [hsplit, Finset.card_union_of_disjoint hdisj, owed]

theorem takeOn (h : L.Keeps v) (hi : v i = none) :
    (L.takeOn i).Keeps (Function.update v i (some none)) := by
  constructor
  all_goals
    intro j
    by_cases hj : j = i
    · simp [Ledger.takeOn, hj, h.passed, h.failed, hi]
    · simp [Ledger.takeOn, hj, h.pending, h.passed, h.failed]

theorem complete (h : L.Keeps v) (hi : v i = some none) (ok : Bool) :
    (L.complete i ok).Keeps (Function.update v i (some (some ok))) := by
  constructor
  all_goals
    intro j
    by_cases hj : j = i
    · cases ok <;> simp [Ledger.complete, hj, h.passed, h.failed, hi]
    · cases ok <;> simp [Ledger.complete, hj, h.pending, h.passed, h.failed]

end Keeps

end Ledger
