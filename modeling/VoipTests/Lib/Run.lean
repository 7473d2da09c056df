import Mathlib.Order.Defs.PartialOrder

/-!
# VoipTests.Lib.Run

Runs of a partial step function: `exec step s as` performs the actions `as`
one after the other and is `none` as soon as one of them is not enabled.

Everything a development needs to know about a whole run is derived here
once from facts about one step: `exec_inv` (an invariant), `exec_rel` (a
preorder between the first and the last state, under an invariant),
`exec_inv_of_meets` (an invariant that only holds of the runs whose steps
all meet a condition) and `exec_sim` (a simulation of another system).
-/

namespace Run

variable {σ α : Type*}

/-- Perform the actions `as` from `s`. -/
def exec (step : σ → α → Option σ) (s : σ) (as : List α) : Option σ := as.foldlM step s

/-- Every step of the run of `as` from `s` meets the condition `Q`. -/
def Meets (step : σ → α → Option σ) (Q : σ → α → Prop) : σ → List α → Prop
  | _, [] => True
  | s, a :: as => Q s a ∧ ∀ s', step s a = some s' → Meets step Q s' as

variable {step : σ → α → Option σ} {s s' s'' : σ} {a : α} {as bs : List α}

@[simp] theorem exec_nil : exec step s [] = some s := rfl

@[simp] theorem exec_cons : exec step s (a :: as) = (step s a).bind (exec step · as) := rfl

theorem exec_append : exec step s (as ++ bs) = (exec step s as).bind (exec step · bs) := by
  simp only [exec, List.foldlM_append]
  rfl

/-! ## from one step to a whole run -/

/-- What every step preserves, a run preserves. -/
theorem exec_inv {P : σ → Prop} (hstep : ∀ s a s', P s → step s a = some s' → P s')
    (hs : P s) (h : exec step s as = some s') : P s' := by
  induction as generalizing s with
  | nil =>
      rw [exec_nil, Option.some.injEq] at h
      exact h ▸ hs
  | cons a as ih =>
      rw [exec_cons, Option.bind_eq_some_iff] at h
      obtain ⟨s₁, h₁, h₂⟩ := h
      exact ih (hstep s a s₁ hs h₁) h₂

/-- Under an invariant, a preorder that holds across every step holds across
a run. -/
theorem exec_rel {P : σ → Prop} {R : σ → σ → Prop} (hrefl : ∀ s, R s s)
    (htrans : ∀ s₁ s₂ s₃, R s₁ s₂ → R s₂ s₃ → R s₁ s₃)
    (hstep : ∀ s a s', P s → step s a = some s' → P s' ∧ R s s')
    (hs : P s) (h : exec step s as = some s') : R s s' := by
  induction as generalizing s with
  | nil =>
      rw [exec_nil, Option.some.injEq] at h
      exact h ▸ hrefl s
  | cons a as ih =>
      rw [exec_cons, Option.bind_eq_some_iff] at h
      obtain ⟨s₁, h₁, h₂⟩ := h
      obtain ⟨hP, hR⟩ := hstep s a s₁ hs h₁
      exact htrans _ _ _ hR (ih hP h₂)

/-- What every step that meets `Q` preserves, a run all of whose steps meet
`Q` preserves. -/
theorem exec_inv_of_meets {P : σ → Prop} {Q : σ → α → Prop}
    (hstep : ∀ s a s', P s → Q s a → step s a = some s' → P s')
    (hs : P s) (hQ : Meets step Q s as) (h : exec step s as = some s') : P s' := by
  induction as generalizing s with
  | nil =>
      rw [exec_nil, Option.some.injEq] at h
      exact h ▸ hs
  | cons a as ih =>
      rw [exec_cons, Option.bind_eq_some_iff] at h
      obtain ⟨s₁, h₁, h₂⟩ := h
      exact ih (hstep s a s₁ hs hQ.1 h₁) (hQ.2 s₁ h₁) h₂

/-- A condition that always holds. -/
theorem meets_of_forall {Q : σ → α → Prop} (hQ : ∀ s a, Q s a) : Meets step Q s as := by
  induction as generalizing s with
  | nil => exact trivial
  | cons a as ih => exact ⟨hQ s a, fun s' _ => ih⟩

/-- Two conditions. -/
theorem Meets.and {Q Q' : σ → α → Prop} (hQ : Meets step Q s as) (hQ' : Meets step Q' s as) :
    Meets step (fun s a => Q s a ∧ Q' s a) s as := by
  induction as generalizing s with
  | nil => exact trivial
  | cons a as ih => exact ⟨⟨hQ.1, hQ'.1⟩, fun s' hs => ih (hQ.2 s' hs) (hQ'.2 s' hs)⟩

/-- A condition that follows from another one at every step of a run. -/
theorem Meets.imp {P : σ → Prop} {Q Q' : σ → α → Prop} (hQ : Meets step Q s as)
    (hstep : ∀ s a s', P s → Q s a → step s a = some s' → P s' ∧ Q' s a) (hs : P s)
    (h : exec step s as = some s') : Meets step Q' s as := by
  induction as generalizing s with
  | nil => exact trivial
  | cons a as ih =>
      rw [exec_cons, Option.bind_eq_some_iff] at h
      obtain ⟨s₁, h₁, h₂⟩ := h
      obtain ⟨hP, hq⟩ := hstep s a s₁ hs hQ.1 h₁
      refine ⟨hq, fun s₂ hs₂ => ?_⟩
      rw [h₁, Option.some.injEq] at hs₂
      exact hs₂ ▸ ih (hQ.2 s₁ h₁) hP h₂

/-- Two conditions that come to the same at every step of the runs in question. -/
theorem meets_congr {P : σ → Prop} {Q Q' : σ → α → Prop}
    (hstep : ∀ s a s', P s → step s a = some s' → (Q s a ↔ Q' s a) ∧ (Q' s a → P s')) (hs : P s)
    (h : exec step s as = some s') : Meets step Q s as ↔ Meets step Q' s as := by
  induction as generalizing s with
  | nil => exact Iff.rfl
  | cons a as ih =>
      rw [exec_cons, Option.bind_eq_some_iff] at h
      obtain ⟨s₁, h₁, h₂⟩ := h
      obtain ⟨hQ, hP⟩ := hstep s a s₁ hs h₁
      simp only [Meets, h₁, Option.some.injEq, forall_eq', hQ]
      exact and_congr_right fun hq => ih (hP hq) h₂

/-! ## one system refines another -/

/-- The system `step'`, which is at `t`, follows an action that leads to `s'`: it
takes the action `b` for it, or none. -/
def Follows {τ β : Type*} (step' : τ → β → Option τ) (R : σ → τ → Prop) (t : τ) (s' : σ) :
    Option β → Prop
  | none => R s' t
  | some b => ∃ t', step' t b = some t' ∧ R s' t'

/-- **A simulation**.  The actions may be required to meet a condition. -/
theorem exec_sim {τ β : Type*} {step' : τ → β → Option τ} {R : σ → τ → Prop} {f : α → Option β}
    {C : α → Prop}
    (hstep : ∀ s t a s', R s t → C a → step s a = some s' → Follows step' R t s' (f a))
    {t : τ} (hR : R s t) (hC : ∀ a ∈ as, C a) (h : exec step s as = some s') :
    ∃ t', exec step' t (as.filterMap f) = some t' ∧ R s' t' := by
  induction as generalizing s t with
  | nil =>
      rw [exec_nil, Option.some.injEq] at h
      exact ⟨t, rfl, h ▸ hR⟩
  | cons a as ih =>
      rw [exec_cons, Option.bind_eq_some_iff] at h
      obtain ⟨s₁, h₁, h₂⟩ := h
      have hone := hstep s t a s₁ hR (hC a List.mem_cons_self) h₁
      have hrest : ∀ b ∈ as, C b := fun b hb => hC b (List.mem_cons_of_mem _ hb)
      cases hf : f a with
      | none =>
          rw [hf] at hone
          rw [List.filterMap_cons_none hf]
          exact ih hone hrest h₂
      | some b =>
          rw [hf] at hone
          obtain ⟨t₁, ht₁, hR₁⟩ := hone
          obtain ⟨t', ht', hR'⟩ := ih hR₁ hrest h₂
          refine ⟨t', ?_, hR'⟩
          rw [List.filterMap_cons_some hf, exec_cons, ht₁]
          exact ht'

/-! ## the first step at which something happens -/

/-- A run at the end of which a property holds that did not hold at first has
a step that makes it hold. -/
theorem exec_first {P : σ → Prop} (hs : ¬ P s) (hs' : P s') (h : exec step s as = some s') :
    ∃ as₁ a as₂ s₁ s₂, as = as₁ ++ a :: as₂ ∧ exec step s as₁ = some s₁ ∧ ¬ P s₁ ∧
      step s₁ a = some s₂ ∧ P s₂ ∧ exec step s₂ as₂ = some s' := by
  induction as generalizing s with
  | nil =>
      rw [exec_nil, Option.some.injEq] at h
      exact (hs (h ▸ hs')).elim
  | cons a as ih =>
      rw [exec_cons, Option.bind_eq_some_iff] at h
      obtain ⟨s₁, h₁, h₂⟩ := h
      by_cases hp : P s₁
      · exact ⟨[], a, as, s, s₁, rfl, rfl, hs, h₁, hp, h₂⟩
      · obtain ⟨as₁, b, as₂, t₁, t₂, rfl, ht₁, hn, hb, ht₂, he⟩ := ih hp h₂
        refine ⟨a :: as₁, b, as₂, t₁, t₂, rfl, ?_, hn, hb, ht₂, he⟩
        rw [exec_cons, h₁]
        exact ht₁

/-! ## conditions on concrete runs -/

/-- Whether a run meets a condition can be decided by running it. -/
instance decidableMeets {Q : σ → α → Prop} [∀ s a, Decidable (Q s a)] :
    ∀ (s : σ) (as : List α), Decidable (Meets step Q s as)
  | _, [] => .isTrue trivial
  | s, a :: as =>
    match h : step s a with
    | none => decidable_of_iff (Q s a) (by simp [Meets, h])
    | some s' =>
      have : Decidable (Meets step Q s' as) := decidableMeets s' as
      decidable_of_iff (Q s a ∧ Meets step Q s' as) (by simp [Meets, h])

/-! ## two systems side by side -/

section Interleave

variable {τ β : Type*} {step₁ : σ → α → Option σ} {step₂ : τ → β → Option τ}

/-- One step of either system; the other one stays where it is. -/
def interleave (step₁ : σ → α → Option σ) (step₂ : τ → β → Option τ) (y : σ × τ) :
    α ⊕ β → Option (σ × τ)
  | .inl a => (step₁ y.1 a).map fun s => (s, y.2)
  | .inr b => (step₂ y.2 b).map fun t => (y.1, t)

/-- A run of both is a run of each. -/
theorem exec_interleave {y y' : σ × τ} {cs : List (α ⊕ β)}
    (h : exec (interleave step₁ step₂) y cs = some y') :
    exec step₁ y.1 (cs.filterMap Sum.getLeft?) = some y'.1 ∧
      exec step₂ y.2 (cs.filterMap Sum.getRight?) = some y'.2 := by
  induction cs generalizing y with
  | nil =>
      rw [exec_nil, Option.some.injEq] at h
      subst h
      exact ⟨rfl, rfl⟩
  | cons c cs ih =>
      rw [exec_cons, Option.bind_eq_some_iff] at h
      obtain ⟨y₁, h₁, h₂⟩ := h
      have htail := ih h₂
      cases c with
      | inl a =>
          obtain ⟨s, hs, rfl⟩ := Option.map_eq_some_iff.mp h₁
          refine ⟨?_, htail.2⟩
          simpa [hs] using htail.1
      | inr b =>
          obtain ⟨t, ht, rfl⟩ := Option.map_eq_some_iff.mp h₁
          refine ⟨htail.1, ?_⟩
          simpa [ht] using htail.2

end Interleave

end Run
