import VoipTests.Lib.Callback
import Mathlib.Data.List.Forall2

/-!
# VoipTests.Lib.Stage

Callbacks that call out at most once.

Of such a callback two things are to be known: how its first stretch stops
(`P`), and what is left to be done once a call returns (`T`); `Out.Once` is the
judgement.  A machine all of whose callbacks are like that refines a
transition system without programs: its states hold the calls that are
pending instead of their continuations (`Stage`), and its steps are read off
`P` and `T` (`Staged`).
-/

namespace Callback

variable {σ ε κ ι ρ α β : Type}

/-! ## at most one call -/

/-- What the call of `c` in the state `s` leaves to be done: a change from the
state found on return within `T`, and no further call. -/
def Leaves (T : κ → σ → σ → σ → Prop) (c : κ) (s : σ) (k : σ → Out σ ε κ α) : Prop :=
  ∀ s₁, (k s₁).Until fun
    | .call _, _ => False
    | _, s₂ => T c s s₁ s₂

/-- The first stretch of `o` stops within `P`, and after a call there is only
`T` left to be done. -/
def Out.Once (P : Stop ε κ α → σ → Prop) (T : κ → σ → σ → σ → Prop) : Out σ ε κ α → Prop
  | .ret a s => P (.ret a) s
  | .raise e s => P (.raise e) s
  | .call c s k => P (.call c) s ∧ Leaves T c s k
  | .spin => True

section Once

variable {P : Stop ε κ α → σ → Prop} {P' : Stop ε κ β → σ → Prop} {T T' : κ → σ → σ → σ → Prop}
variable {o : Out σ ε κ α} {p : Prog σ ε κ α} {f : α → Prog σ ε κ β} {s : σ}

theorem Out.Once.until (h : o.Once P T) : o.Until P := by
  cases o with
  | ret a s => exact h
  | raise e s => exact h
  | call c s k => exact h.1
  | spin => exact trivial

theorem Out.Once.mono {Q : Stop ε κ α → σ → Prop} (h : o.Once P T)
    (hP : ∀ stop s, P stop s → Q stop s) : o.Once Q T := by
  cases o with
  | ret a s => exact hP _ _ h
  | raise e s => exact hP _ _ h
  | call c s k => exact ⟨hP _ _ h.1, h.2⟩
  | spin => exact trivial

/-- A program that does not call out. -/
theorem Out.Until.once (h : o.Until P) (hcall : ∀ c s, ¬ P (.call c) s) : o.Once P T := by
  cases o with
  | ret a s => exact h
  | raise e s => exact h
  | call c s k => exact (hcall c s h).elim
  | spin => exact trivial

/-- One program after another: if the first one calls out, the second one must
not. -/
theorem Out.Once.bind (h : (p s).Once P T)
    (hret : ∀ a s', P (.ret a) s' → (f a s').Once P' T')
    (hraise : ∀ e s', P (.raise e) s' → P' (.raise e) s')
    (hcall : ∀ c s', P (.call c) s' → P' (.call c) s')
    (hrest : ∀ c s₀ s₁ s₂, P (.call c) s₀ → T c s₀ s₁ s₂ → T' c s₀ s₁ s₂ ∧
      ∀ a, (f a s₂).Until fun
        | .call _, _ => False
        | _, s₃ => T' c s₀ s₁ s₃) : ((p >>= f) s).Once P' T' := by
  rw [Prog.bind_apply]
  cases ho : p s with
  | ret a s' =>
      rw [ho] at h
      exact hret a s' h
  | raise e s' =>
      rw [ho] at h
      exact hraise e s' h
  | call c s' k =>
      rw [ho] at h
      refine ⟨hcall c s' h.1, fun s₁ => ?_⟩
      have hk := h.2 s₁
      show ((k s₁).bind f).Until _
      cases hout : k s₁ with
      | ret a s₂ =>
          rw [hout] at hk
          exact (hrest c s' s₁ s₂ h.1 hk).2 a
      | raise e s₂ =>
          rw [hout] at hk
          exact (hrest c s' s₁ s₂ h.1 hk).1
      | call c' s₂ k' =>
          rw [hout] at hk
          exact hk.elim
      | spin => exact trivial
  | spin => exact trivial

/-- Code after a program that does not call out. -/
theorem Out.Until.once_bind (h : (p s).Until P) (hcall : ∀ c s', ¬ P (.call c) s')
    (hraise : ∀ e s', P (.raise e) s' → P' (.raise e) s')
    (hf : ∀ a s', P (.ret a) s' → (f a s').Once P' T') : ((p >>= f) s).Once P' T' := by
  rw [Prog.bind_apply]
  cases ho : p s with
  | ret a s₁ =>
      rw [ho] at h
      exact hf a s₁ h
  | raise e s₁ =>
      rw [ho] at h
      exact hraise e s₁ h
  | call c s₁ k =>
      rw [ho] at h
      exact (hcall c s₁ h).elim
  | spin => exact trivial

/-- Code after a quiet program. -/
theorem Quiet.once_bind {F : σ → σ → Prop} (hp : Quiet F p)
    (hraise : ∀ e s', F s s' → P' (.raise e) s')
    (hf : ∀ a s', F s s' → (f a s').Once P' T') : ((p >>= f) s).Once P' T' :=
  (hp s).once_bind (fun _ _ h => h) hraise hf

/-- More is known of the first stretch. -/
theorem Out.Until.and_once {Q : Stop ε κ α → σ → Prop} (h : o.Until Q) (h' : o.Once P T) :
    o.Once (fun stop s => Q stop s ∧ P stop s) T := by
  cases o with
  | ret a s => exact ⟨h, h'⟩
  | raise e s => exact ⟨h, h'⟩
  | call c s k => exact ⟨⟨h, h'.1⟩, h'.2⟩
  | spin => exact trivial

end Once

/-! ## the transition system -/

/-- The state of an object and the calls out that are pending, each with the
state it was made in, the innermost first. -/
structure Stage (σ κ : Type) where
  st : σ
  calls : List (κ × σ)

/-- The pending calls after a stretch that stopped in `s`. -/
def Stop.push (s : σ) (calls : List (κ × σ)) : Stop ε κ α → List (κ × σ)
  | .call c => (c, s) :: calls
  | _ => calls

namespace Machine

variable (m : Machine σ ε κ ι ρ)

/-- One step, as far as `P` and `T` tell. -/
inductive Staged (P : ι → σ → Stop ε κ Unit → σ → Prop) (T : κ → σ → σ → σ → Prop) :
    Stage σ κ → Act ε ι ρ → Stage σ κ → Prop
  | enter {i : ι} {s s₁ s₂ : σ} {cs : List (κ × σ)} {stop : Stop ε κ Unit}
      (he : m.entry i s cs.isEmpty = some s₁) (hP : P i s₁ stop s₂) :
      Staged P T ⟨s, cs⟩ (.enter i) ⟨m.land stop s₂, stop.push s₂ cs⟩
  | ret {r : ρ} {c : κ} {s s₀ s₂ : σ} {cs : List (κ × σ)} (hT : T c s₀ (m.resume r s) s₂) :
      Staged P T ⟨s, (c, s₀) :: cs⟩ (.ret r) ⟨s₂, cs⟩
  | retRaise {r : ρ} {c : κ} {e : ε} {s s₀ s₂ : σ} {cs : List (κ × σ)}
      (hT : T c s₀ (m.resume r s) s₂) :
      Staged P T ⟨s, (c, s₀) :: cs⟩ (.ret r) ⟨m.caught e s₂, cs⟩
  | throw {e : ε} {s : σ} {call : κ × σ} {cs : List (κ × σ)} :
      Staged P T ⟨s, call :: cs⟩ (.throw e) ⟨m.caught e s, cs⟩

/-- The continuations are what the calls have left to be done. -/
def Pends (T : κ → σ → σ → σ → Prop) (ks : List (σ → Out σ ε κ Unit)) (cs : List (κ × σ)) : Prop :=
  List.Forall₂ (fun k (call : κ × σ) => Leaves T call.1 call.2 k) ks cs

variable {m} {P : ι → σ → Stop ε κ Unit → σ → Prop} {T : κ → σ → σ → σ → Prop}
variable {y y' : Sys σ ε κ} {a : Act ε ι ρ} {cs : List (κ × σ)}

theorem Pends.isEmpty {ks : List (σ → Out σ ε κ Unit)} (h : Pends T ks cs) :
    ks.isEmpty = cs.isEmpty := by
  cases h <;> rfl

/-- Where a stretch leaves the machine. -/
theorem pends_settle {Q : Stop ε κ Unit → σ → Prop} {o : Out σ ε κ Unit}
    {ks : List (σ → Out σ ε κ Unit)} (ho : o.Once Q T) (hks : Pends T ks cs)
    (h : m.settle ks o = some y') :
    ∃ stop s, Q stop s ∧ y'.st = m.land stop s ∧ Pends T y'.pending (stop.push s cs) := by
  cases o with
  | ret a s =>
      cases h
      exact ⟨.ret a, s, ho, rfl, hks⟩
  | raise e s =>
      cases h
      exact ⟨.raise e, s, ho, rfl, hks⟩
  | call c s k =>
      cases h
      exact ⟨.call c, s, ho.1, rfl, .cons ho.2 hks⟩
  | spin => cases h

/-- **The refinement**: a step of the machine is one of the transition system,
if the callback it enters is as it should be. -/
theorem staged_step
    (hbody : ∀ i s₁, m.entry i y.st y.pending.isEmpty = some s₁ → (m.body i s₁).Once (P i s₁) T)
    (hy : Pends T y.pending cs) (h : m.step y a = some y') :
    ∃ cs', m.Staged P T ⟨y.st, cs⟩ a ⟨y'.st, cs'⟩ ∧ Pends T y'.pending cs' := by
  obtain ⟨s, ks⟩ := y
  cases a with
  | enter i =>
      obtain ⟨s₁, he, hs⟩ := Option.bind_eq_some_iff.mp h
      obtain ⟨stop, s₂, hP, hst, hpends⟩ := pends_settle (hbody i s₁ he) hy hs
      have he' : m.entry i s cs.isEmpty = some s₁ := hy.isEmpty ▸ he
      refine ⟨_, ?_, hpends⟩
      rw [hst]
      exact .enter he' hP
  | ret r =>
      cases hy with
      | nil => cases h
      | @cons k call ks cs hk hks =>
          have hk' := hk (m.resume r s)
          have hs : m.settle ks (k (m.resume r s)) = some y' := h
          cases ho : k (m.resume r s) with
          | ret a s₂ =>
              rw [ho] at hk' hs
              cases hs
              exact ⟨cs, .ret hk', hks⟩
          | raise e s₂ =>
              rw [ho] at hk' hs
              cases hs
              exact ⟨cs, .retRaise hk', hks⟩
          | call c s₂ k' =>
              rw [ho] at hk'
              exact hk'.elim
          | spin =>
              rw [ho] at hs
              cases hs
  | throw e =>
      cases hy with
      | nil => cases h
      | cons hk hks =>
          cases h
          exact ⟨_, .throw, hks⟩

/-- **Whole runs**: what every step of the transition system preserves that
meets the condition `Q` holds throughout a run whose steps meet it. -/
theorem staged_exec {I : Stage σ κ → Prop} {Q : σ → Act ε ι ρ → Prop}
    (hbody : ∀ i s idle s₁, m.entry i s idle = some s₁ → (m.body i s₁).Once (P i s₁) T)
    (hstep : ∀ g a g', I g → Q g.st a → m.Staged P T g a g' → I g') (hy : Pends T y.pending cs)
    (hI : I ⟨y.st, cs⟩) {as : List (Act ε ι ρ)}
    (hQ : Run.Meets m.step (fun y a => Q y.st a) y as) (h : Run.exec m.step y as = some y') :
    ∃ cs', Pends T y'.pending cs' ∧ I ⟨y'.st, cs'⟩ := by
  refine Run.exec_inv_of_meets (P := fun y => ∃ cs, Pends T y.pending cs ∧ I ⟨y.st, cs⟩)
    (fun y a y' hy hq hs => ?_) ⟨cs, hy, hI⟩ hQ h
  obtain ⟨cs, hpends, hI⟩ := hy
  obtain ⟨cs', hstaged, hpends'⟩ := staged_step (fun i s₁ => hbody i _ _ s₁) hpends hs
  exact ⟨cs', hpends', hstep _ _ _ hI hq hstaged⟩

end Machine

end Callback
