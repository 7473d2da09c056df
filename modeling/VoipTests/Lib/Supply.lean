import Mathlib.Data.List.Basic

/-!
# VoipTests.Lib.Supply

Programs that take values from a supply: `f ds` is the result of `f` on the
values `ds` still to come, with those it has left, or `none` when `f` would
have gone on after the last of them.

"It finishes" cannot be said of one list then, but of all of them: `Fair f`
says that every list can be extended to one on which `f` has a result, and
that a result does not depend on what has not been taken.  A loop that waits
for a value it can use (`retry`) is fair as soon as there is one.
-/

namespace Supply

variable {δ α β : Type*}

/-- The next value. -/
def next : List δ → Option (δ × List δ)
  | [] => none
  | d :: ds => some (d, ds)

/-- Take values until one can be used. -/
def retry (use : δ → Option α) : List δ → Option (α × List δ)
  | [] => none
  | d :: ds => match use d with
    | some a => some (a, ds)
    | none => retry use ds

/-- Whatever comes first, `f` has a result in the end, and it depends on
nothing but the values it has taken. -/
structure Fair (f : List δ → Option (α × List δ)) : Prop where
  extend : ∀ ds more a rest, f ds = some (a, rest) → f (ds ++ more) = some (a, rest ++ more)
  suffice : ∀ ds, ∃ more a rest, f (ds ++ more) = some (a, rest)

variable {f f' : List δ → Option (α × List δ)} {g : α → List δ → Option (β × List δ)}

theorem Fair.congr (h : ∀ ds, f' ds = f ds) (hf : Fair f) : Fair f' := by
  rw [show f' = f from funext h]
  exact hf

theorem Fair.pure (a : α) : Fair fun ds : List δ => some (a, ds) := by
  constructor
  · intro ds more b rest h
    cases h
    rfl
  · intro ds
    exact ⟨[], a, ds ++ [], rfl⟩

theorem Fair.next (d : δ) : Fair (next : List δ → Option (δ × List δ)) := by
  constructor
  · intro ds more b rest h
    cases ds with
    | nil => cases h
    | cons d ds =>
        cases h
        rfl
  · intro ds
    cases ds with
    | nil => exact ⟨[d], d, [], rfl⟩
    | cons d' ds => exact ⟨[], d', ds ++ [], rfl⟩

/-- One program after another. -/
theorem Fair.bind (hf : Fair f) (hg : ∀ a, Fair (g a)) :
    Fair fun ds => (f ds).bind fun p => g p.1 p.2 := by
  constructor
  · intro ds more b rest h
    obtain ⟨⟨a, ds₁⟩, h₁, h₂⟩ := Option.bind_eq_some_iff.mp h
    have hfirst := hf.extend ds more a ds₁ h₁
    have hthen := (hg a).extend ds₁ more b rest h₂
    simp only [hfirst, Option.bind_some]
    exact hthen
  · intro ds
    obtain ⟨more₁, a, ds₁, h₁⟩ := hf.suffice ds
    obtain ⟨more₂, b, rest, h₂⟩ := (hg a).suffice ds₁
    have hfirst := hf.extend _ more₂ a ds₁ h₁
    refine ⟨more₁ ++ more₂, b, rest, ?_⟩
    rw [← List.append_assoc, hfirst]
    exact h₂

theorem Fair.map (hf : Fair f) (k : α → β) :
    Fair fun ds => (f ds).map fun p => (k p.1, p.2) := by
  have hbind := hf.bind fun a => Fair.pure (δ := δ) (k a)
  simpa only [Option.map_eq_bind, Function.comp_def] using hbind

/-- **A loop that retries finishes**, if there is a value it waits for. -/
theorem Fair.retry {use : δ → Option α} {d : δ} {a : α} (h : use d = some a) :
    Fair (retry use) := by
  constructor
  · intro ds more b rest hds
    induction ds with
    | nil => cases hds
    | cons d ds ih =>
        rw [Supply.retry] at hds
        rw [List.cons_append, Supply.retry]
        cases hu : use d with
        | none =>
            rw [hu] at hds
            exact ih hds
        | some a =>
            rw [hu] at hds
            cases hds
            rfl
  · intro ds
    refine ⟨[d], ?_⟩
    induction ds with
    | nil => exact ⟨a, [], by rw [List.nil_append, Supply.retry, h]⟩
    | cons d' ds ih =>
        rw [List.cons_append, Supply.retry]
        cases use d' with
        | none => exact ih
        | some a' => exact ⟨a', _, rfl⟩

/-- What a loop that retries comes to can be used. -/
theorem exists_of_retry {use : δ → Option α} {ds rest : List δ} {a : α}
    (h : retry use ds = some (a, rest)) : ∃ d ∈ ds, use d = some a := by
  induction ds with
  | nil => cases h
  | cons d ds ih =>
      rw [retry] at h
      cases hu : use d with
      | none =>
          rw [hu] at h
          obtain ⟨d', hmem, hd'⟩ := ih h
          exact ⟨d', List.mem_cons_of_mem d hmem, hd'⟩
      | some a' =>
          rw [hu] at h
          cases h
          exact ⟨d, List.mem_cons_self, hu⟩

end Supply
