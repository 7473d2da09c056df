import VoipTests.Lib.Run

/-!
# VoipTests.Lib.Callback

Programs made of callbacks that call out and may be re-entered.

A callback of type `Prog σ ε κ α` runs on the state `σ` of its object until
it returns, raises, or calls out (`Out`).  While a call out is pending the
outside owns the state: it may enter further callbacks, return to the pending
one, or make the pending call raise.  `Machine.step` is that discipline: a
stack of pending continuations, resumed last in, first out.

What runs without interruption, from an entry or a return to the next call
out or the end, is a stretch.  Two judgements say what stretches do:

* `Out.Safe` — every stretch respects a `Contract`: it is within its
  guarantee, as long as what happens during a call is within its rely;
  `Machine.step_within` carries this over to the steps of a machine;
* `Out.Until` — where the first stretch stops, and in which state.
-/

namespace Callback

/-! ## programs -/

/-- What a callback does up to its next call out.  `call c s k` hands the
state `s` to the outside; `k` goes on with the state found on return.
`spin` is a loop that has not finished. -/
inductive Out (σ ε κ α : Type) : Type where
  | ret (a : α) (s : σ)
  | raise (e : ε) (s : σ)
  | call (c : κ) (s : σ) (k : σ → Out σ ε κ α)
  | spin

/-- A callback, or a part of one, over the state `σ`. -/
def Prog (σ ε κ α : Type) : Type := σ → Out σ ε κ α

variable {σ ε κ α β : Type}

/-- Go on with `f` once `o` has returned. -/
def Out.bind : Out σ ε κ α → (α → Prog σ ε κ β) → Out σ ε κ β
  | .ret a s, f => f a s
  | .raise e s, _ => .raise e s
  | .call c s k, f => .call c s fun s' => (k s').bind f
  | .spin, _ => .spin

instance : Monad (Prog σ ε κ) where
  pure a := fun s => .ret a s
  bind p f := fun s => (p s).bind f

namespace Prog

/-- The current state. -/
def get : Prog σ ε κ σ := fun s => .ret s s

/-- Change the state. -/
def modify (f : σ → σ) : Prog σ ε κ Unit := fun s => .ret () (f s)

/-- Raise an exception; the state stays as it is. -/
def raise (e : ε) : Prog σ ε κ α := fun s => .raise e s

/-- Call out and wait for the return. -/
def callOut (c : κ) : Prog σ ε κ Unit := fun s => .call c s (.ret ())

@[simp] theorem pure_apply (a : α) (s : σ) : (pure a : Prog σ ε κ α) s = .ret a s := rfl

@[simp] theorem bind_apply (p : Prog σ ε κ α) (f : α → Prog σ ε κ β) (s : σ) :
    (p >>= f) s = (p s).bind f := rfl

@[simp] theorem get_apply (s : σ) : (get : Prog σ ε κ σ) s = .ret s s := rfl

@[simp] theorem modify_apply (f : σ → σ) (s : σ) :
    (modify f : Prog σ ε κ Unit) s = .ret () (f s) := rfl

@[simp] theorem raise_apply (e : ε) (s : σ) : (raise e : Prog σ ε κ α) s = .raise e s := rfl

@[simp] theorem callOut_apply (c : κ) (s : σ) :
    (callOut c : Prog σ ε κ Unit) s = .call c s (.ret ()) := rfl

@[simp] theorem ite_apply (c : Prop) [Decidable c] (p q : Prog σ ε κ α) (s : σ) :
    (if c then p else q) s = if c then p s else q s := by
  split <;> rfl

end Prog

@[simp] theorem Out.bind_ret (a : α) (s : σ) (f : α → Prog σ ε κ β) :
    (Out.ret a s).bind f = f a s := rfl

@[simp] theorem Out.bind_raise (e : ε) (s : σ) (f : α → Prog σ ε κ β) :
    (Out.raise e s).bind f = .raise e s := rfl

@[simp] theorem Out.bind_call (c : κ) (s : σ) (k : σ → Out σ ε κ α) (f : α → Prog σ ε κ β) :
    (Out.call c s k).bind f = .call c s fun s' => (k s').bind f := rfl

@[simp] theorem Out.bind_spin (f : α → Prog σ ε κ β) :
    (Out.spin : Out σ ε κ α).bind f = .spin := rfl

theorem Out.bind_assoc {γ : Type} (o : Out σ ε κ α) (f : α → Prog σ ε κ β) (g : β → Prog σ ε κ γ) :
    (o.bind f).bind g = o.bind fun a => f a >>= g := by
  induction o with
  | ret a s => rfl
  | raise e s => rfl
  | call c s k ih =>
      simp only [Out.bind_call, Out.call.injEq, true_and]
      exact funext ih
  | spin => rfl

/-- A loop in the first stretch is a loop in one of the parts. -/
theorem Out.bind_ne_spin {o : Out σ ε κ α} {f : α → Prog σ ε κ β} (ho : o ≠ .spin)
    (hf : ∀ a s, o = .ret a s → f a s ≠ .spin) : o.bind f ≠ .spin := by
  cases o with
  | ret a s => exact hf a s rfl
  | raise e s => exact nofun
  | call c s k => exact nofun
  | spin => exact (ho rfl).elim

/-! ## the machine -/

/-- An object seen from outside: `entry i s idle` records that the callback
`i` is entered (`none` when it cannot be; `idle` says that no call out is
pending), `body i` is its code, `sent` and `caught` record a call out and an
exception that leaves a callback, `resume` what the outside leaves behind as it
returns. -/
structure Machine (σ ε κ ι ρ : Type) where
  entry : ι → σ → Bool → Option σ
  body : ι → Prog σ ε κ Unit
  sent : κ → σ → σ
  caught : ε → σ → σ
  resume : ρ → σ → σ

/-- What the outside can do. -/
inductive Act (ε ι ρ : Type) where
  | enter (i : ι)
  | ret (r : ρ)
  | throw (e : ε)

/-- The object's state and the continuations of its pending calls out, the
innermost first. -/
structure Sys (σ ε κ : Type) where
  st : σ
  pending : List (σ → Out σ ε κ Unit)

variable {ι ρ : Type}

namespace Machine

variable (m : Machine σ ε κ ι ρ)

/-- The system after a stretch of callback code. -/
def settle (pending : List (σ → Out σ ε κ Unit)) : Out σ ε κ Unit → Option (Sys σ ε κ)
  | .ret _ s => some ⟨s, pending⟩
  | .raise e s => some ⟨m.caught e s, pending⟩
  | .call c s k => some ⟨m.sent c s, k :: pending⟩
  | .spin => none

/-- One step of the outside. -/
def step (y : Sys σ ε κ) : Act ε ι ρ → Option (Sys σ ε κ)
  | .enter i => (m.entry i y.st y.pending.isEmpty).bind fun s => m.settle y.pending (m.body i s)
  | .ret r => match y.pending with
    | [] => none
    | k :: ks => m.settle ks (k (m.resume r y.st))
  | .throw e => match y.pending with
    | [] => none
    | _ :: ks => some ⟨m.caught e y.st, ks⟩

end Machine

/-! ## every stretch -/

/-- What a stretch of code does (`guar`), and what may happen to the state
while a call out is pending (`rely`). -/
structure Contract (σ : Type) where
  guar : σ → σ → Prop
  rely : σ → σ → Prop
  guar_refl : ∀ s, guar s s
  guar_trans : ∀ s₁ s₂ s₃, guar s₁ s₂ → guar s₂ s₃ → guar s₁ s₃
  rely_refl : ∀ s, rely s s
  rely_trans : ∀ s₁ s₂ s₃, rely s₁ s₂ → rely s₂ s₃ → rely s₁ s₃
  rely_of_guar : ∀ s₁ s₂, guar s₁ s₂ → rely s₁ s₂

section Safe

variable (m : Machine σ ε κ ι ρ) (C : Contract σ)

/-- Every stretch of `o` respects the contract, the current one having begun
in `s₀`; where `o` returns, `Q` holds of the beginning of the last stretch,
the value and the final state. -/
def Out.Wp : Out σ ε κ α → (σ → α → σ → Prop) → σ → Prop
  | .ret a s, Q, s₀ => Q s₀ a s
  | .raise e s, _, s₀ => C.guar s₀ (m.caught e s)
  | .call c s k, Q, s₀ => C.guar s₀ (m.sent c s) ∧
      ∀ s', C.rely (m.sent c s) s' → (k s').Wp Q s'
  | .spin, _, _ => True

/-- Every stretch of `o` respects the contract. -/
abbrev Out.Safe (o : Out σ ε κ α) (s₀ : σ) : Prop := o.Wp m C (fun s₁ _ s => C.guar s₁ s) s₀

variable {m C} {Q Q' : σ → α → σ → Prop} {o : Out σ ε κ α} {s s₀ s₁ : σ}

@[simp] theorem Out.wp_ret {a : α} : (Out.ret a s : Out σ ε κ α).Wp m C Q s₀ ↔ Q s₀ a s := Iff.rfl

@[simp] theorem Out.wp_raise {e : ε} :
    (Out.raise e s : Out σ ε κ α).Wp m C Q s₀ ↔ C.guar s₀ (m.caught e s) := Iff.rfl

@[simp] theorem Out.wp_call {c : κ} {k : σ → Out σ ε κ α} :
    (Out.call c s k).Wp m C Q s₀ ↔ C.guar s₀ (m.sent c s) ∧
      ∀ s', C.rely (m.sent c s) s' → (k s').Wp m C Q s' := Iff.rfl

@[simp] theorem Out.wp_spin : (Out.spin : Out σ ε κ α).Wp m C Q s₀ ↔ True := Iff.rfl

/-- What a stretch has done so far can be put in front. -/
theorem Out.Safe.of_guar (h : o.Safe m C s₁) (hg : C.guar s₀ s₁) : o.Safe m C s₀ := by
  cases o with
  | ret a s => exact C.guar_trans _ _ _ hg h
  | raise e s => exact C.guar_trans _ _ _ hg h
  | call c s k => exact ⟨C.guar_trans _ _ _ hg h.1, h.2⟩
  | spin => exact trivial

/-- One program after another.  Of the state between the two only what every
contract promises is known: it is within the rely. -/
theorem Out.Safe.bind {f : α → Prog σ ε κ β} (ho : o.Safe m C s₀) (hs : C.rely s₁ s₀)
    (hf : ∀ a s, C.rely s₁ s → (f a s).Safe m C s) : (o.bind f).Safe m C s₀ := by
  induction o generalizing s₀ with
  | ret a s =>
      exact (hf a s (C.rely_trans _ _ _ hs (C.rely_of_guar _ _ ho))).of_guar ho
  | raise e s => exact ho
  | call c s k ih =>
      refine ⟨ho.1, fun s' hr => ih s' (ho.2 s' hr) ?_⟩
      exact C.rely_trans _ _ _ hs (C.rely_trans _ _ _ (C.rely_of_guar _ _ ho.1) hr)
  | spin => exact trivial

end Safe

/-! ## the first stretch -/

/-- How a stretch stops. -/
inductive Stop (ε κ α : Type) : Type where
  | ret (a : α)
  | raise (e : ε)
  | call (c : κ)

/-- `P` holds of how and where the first stretch of `o` stops. -/
def Out.Until (P : Stop ε κ α → σ → Prop) : Out σ ε κ α → Prop
  | .ret a s => P (.ret a) s
  | .raise e s => P (.raise e) s
  | .call c s _ => P (.call c) s
  | .spin => True

/-- The judgement on `o.bind f`, from one on `f`. -/
def Stop.andThen (P : Stop ε κ β → σ → Prop) (f : α → Prog σ ε κ β) : Stop ε κ α → σ → Prop
  | .ret a, s => (f a s).Until P
  | .raise e, s => P (.raise e) s
  | .call c, s => P (.call c) s

section Until

variable {P P' : Stop ε κ α → σ → Prop} {o : Out σ ε κ α} {s : σ}

@[simp] theorem Out.until_ret {a : α} : (Out.ret a s).Until P ↔ P (.ret a) s := Iff.rfl

@[simp] theorem Out.until_raise {e : ε} : (Out.raise e s).Until P ↔ P (.raise e) s := Iff.rfl

@[simp] theorem Out.until_call {c : κ} {k : σ → Out σ ε κ α} :
    (Out.call c s k).Until P ↔ P (.call c) s := Iff.rfl

@[simp] theorem Out.until_spin : (Out.spin : Out σ ε κ α).Until P ↔ True := Iff.rfl

theorem Out.until_bind {f : α → Prog σ ε κ β} {P : Stop ε κ β → σ → Prop} :
    (o.bind f).Until P ↔ o.Until (Stop.andThen P f) := by
  cases o <;> rfl

/-- Where one program after another stops. -/
theorem Out.Until.bind {p : Prog σ ε κ α} {f : α → Prog σ ε κ β} {P' : Stop ε κ β → σ → Prop}
    (h : (p s).Until P) (hret : ∀ a s', P (.ret a) s' → (f a s').Until P')
    (hraise : ∀ e s', P (.raise e) s' → P' (.raise e) s')
    (hcall : ∀ c s', P (.call c) s' → P' (.call c) s') : ((p >>= f) s).Until P' := by
  rw [Prog.bind_apply]
  cases ho : p s with
  | ret a s₁ =>
      rw [ho] at h
      exact hret a s₁ h
  | raise e s₁ =>
      rw [ho] at h
      exact hraise e s₁ h
  | call c s₁ k =>
      rw [ho] at h
      exact hcall c s₁ h
  | spin => exact trivial

theorem Out.Until.mono (h : o.Until P) (hP : ∀ stop s, P stop s → P' stop s) : o.Until P' := by
  cases o with
  | ret a s => exact hP _ _ h
  | raise e s => exact hP _ _ h
  | call c s k => exact hP _ _ h
  | spin => exact trivial

end Until

/-- More is known of where a program stops that does not call out. -/
theorem Out.Until.stopped {R R' : σ → Prop} {o : Out σ ε κ α} (h : o.Until fun
      | .call _, _ => False
      | _, s => R s) (hR : ∀ s, R s → R' s) : o.Until fun
      | .call _, _ => False
      | _, s => R' s :=
  h.mono fun stop s hs => by
    cases stop with
    | ret a => exact hR s hs
    | raise e => exact hR s hs
    | call c => exact hs

theorem until_ite {P : Stop ε κ α → σ → Prop} {c : Prop} [Decidable c] {p q : Prog σ ε κ α} {s : σ}
    (hp : c → (p s).Until P) (hq : ¬ c → (q s).Until P) : ((if c then p else q) s).Until P := by
  split
  · next h => exact hp h
  · next h => exact hq h

/-- Two judgements on one stretch. -/
theorem Out.Until.and {P P' : Stop ε κ α → σ → Prop} {o : Out σ ε κ α} (h : o.Until P)
    (h' : o.Until P') : o.Until fun stop s => P stop s ∧ P' stop s := by
  cases o with
  | ret a s => exact ⟨h, h'⟩
  | raise e s => exact ⟨h, h'⟩
  | call c s k => exact ⟨h, h'⟩
  | spin => exact trivial

/-- What the first stretch of `o` returns, if it does, satisfies `R`. -/
def Out.Yields (R : α → Prop) (o : Out σ ε κ α) : Prop :=
  o.Until fun
    | .ret a, _ => R a
    | _, _ => True

/-- The last program decides what is returned. -/
theorem Out.Yields.bind {R : β → Prop} {f : α → Prog σ ε κ β} (hf : ∀ a s, (f a s).Yields R)
    (o : Out σ ε κ α) : (o.bind f).Yields R := by
  cases o with
  | ret a s => exact hf a s
  | raise e s => exact trivial
  | call c s k => exact trivial
  | spin => exact trivial

/-- `p` does not call out, and changes the state only within `F`. -/
def Quiet (F : σ → σ → Prop) (p : Prog σ ε κ α) : Prop :=
  ∀ s, (p s).Until fun
    | .call _, _ => False
    | _, s' => F s s'

section Quiet

variable {F : σ → σ → Prop} {p : Prog σ ε κ α} {f : α → Prog σ ε κ β}

theorem Quiet.pure (hrefl : ∀ s, F s s) (a : α) : Quiet F (pure a : Prog σ ε κ α) := hrefl

theorem Quiet.raise (hrefl : ∀ s, F s s) (e : ε) : Quiet F (Prog.raise e : Prog σ ε κ α) := hrefl

theorem Quiet.modify {g : σ → σ} (h : ∀ s, F s (g s)) :
    Quiet F (Prog.modify g : Prog σ ε κ Unit) := h

theorem Quiet.get {f : σ → Prog σ ε κ α} (h : ∀ s, Quiet F (f s)) : Quiet F (Prog.get >>= f) :=
  fun s => h s s

/-- Where code after a quiet program stops. -/
theorem Quiet.until_bind (hp : Quiet F p) {P : Stop ε κ β → σ → Prop} {s : σ}
    (hraise : ∀ e s', F s s' → P (.raise e) s') (hf : ∀ a s', F s s' → (f a s').Until P) :
    ((p >>= f) s).Until P :=
  (hp s).bind hf hraise fun _ _ h => h.elim

theorem Quiet.bind (htrans : ∀ s₁ s₂ s₃, F s₁ s₂ → F s₂ s₃ → F s₁ s₃) (hp : Quiet F p)
    (hf : ∀ a, Quiet F (f a)) : Quiet F (p >>= f) := fun _ =>
  hp.until_bind (fun _ _ h => h) fun a s₁ h₁ => (hf a s₁).stopped fun s₂ h₂ => htrans _ s₁ s₂ h₁ h₂

/-- A wider relation. -/
theorem Quiet.mono {F' : σ → σ → Prop} (hp : Quiet F p) (hF : ∀ s s', F s s' → F' s s') : Quiet F' p :=
  fun s => (hp s).stopped (hF s)

theorem Quiet.ite {c : Prop} [Decidable c] {q : Prog σ ε κ α} (hp : c → Quiet F p)
    (hq : ¬ c → Quiet F q) : Quiet F (if c then p else q) := by
  split
  · next h => exact hp h
  · next h => exact hq h

/-- Code after a quiet program: it goes on from a state within `F`. -/
theorem Quiet.safe_bind {m : Machine σ ε κ ι ρ} {C : Contract σ} (hp : Quiet F p) {s₀ s : σ}
    (hraise : ∀ e s', F s s' → C.guar s₀ (m.caught e s'))
    (hf : ∀ a s', F s s' → (f a s').Safe m C s₀) : ((p >>= f) s).Safe m C s₀ := by
  have h := hp s
  rw [Prog.bind_apply]
  cases ho : p s with
  | ret a s₁ =>
      rw [ho] at h
      exact hf a s₁ h
  | raise e s₁ =>
      rw [ho] at h
      exact hraise e s₁ h
  | call c s₁ k =>
      rw [ho] at h
      exact h.elim
  | spin => exact trivial

end Quiet

/-! ## steps and runs -/

namespace Machine

variable (m : Machine σ ε κ ι ρ) (C : Contract σ)

/-- The state in which the stretch of a step begins. -/
def begins (y : Sys σ ε κ) : Act ε ι ρ → Option σ
  | .enter i => m.entry i y.st y.pending.isEmpty
  | .ret r => some (m.resume r y.st)
  | .throw _ => some y.st

/-- Every callback respects the contract, and the outside its rely. -/
structure Respects : Prop where
  enter : ∀ i s idle s₁, m.entry i s idle = some s₁ → C.rely s s₁ ∧ (m.body i s₁).Safe m C s₁
  resume : ∀ r s, C.rely s (m.resume r s)
  caught : ∀ e s, C.guar s (m.caught e s)

/-- The pending continuations respect the contract, resumed after whatever
the rely allows. -/
def Ready (y : Sys σ ε κ) : Prop :=
  ∀ k ∈ y.pending, ∃ s₁, C.rely s₁ y.st ∧ ∀ s, C.rely s₁ s → (k s).Safe m C s

variable {m C} {y y' : Sys σ ε κ} {a : Act ε ι ρ}

theorem Ready.of_rely {s s' : σ} {ks : List (σ → Out σ ε κ Unit)} (h : m.Ready C ⟨s, ks⟩)
    (hr : C.rely s s') : m.Ready C ⟨s', ks⟩ := by
  intro k hk
  obtain ⟨s₁, hs₁, hsafe⟩ := h k hk
  exact ⟨s₁, C.rely_trans _ _ _ hs₁ hr, hsafe⟩

theorem ready_settle {o : Out σ ε κ Unit} {s₀ : σ} {ks : List (σ → Out σ ε κ Unit)}
    (ho : o.Safe m C s₀) (hks : m.Ready C ⟨s₀, ks⟩) (h : m.settle ks o = some y') :
    m.Ready C y' ∧ C.guar s₀ y'.st := by
  cases o with
  | ret a s =>
      cases h
      exact ⟨hks.of_rely (C.rely_of_guar _ _ ho), ho⟩
  | raise e s =>
      cases h
      exact ⟨hks.of_rely (C.rely_of_guar _ _ ho), ho⟩
  | call c s k =>
      cases h
      refine ⟨fun k' hk' => ?_, ho.1⟩
      rcases List.mem_cons.mp hk' with rfl | hk'
      · exact ⟨m.sent c s, C.rely_refl _, ho.2⟩
      · exact hks.of_rely (C.rely_of_guar _ _ ho.1) k' hk'
  | spin => cases h

/-- **One step**: a beginning, and a stretch within the guarantee. -/
theorem step_within (W : m.Respects C) (hy : m.Ready C y) (h : m.step y a = some y') :
    m.Ready C y' ∧ ∃ s₁, m.begins y a = some s₁ ∧ C.guar s₁ y'.st := by
  obtain ⟨s, ks⟩ := y
  cases a with
  | enter i =>
      obtain ⟨s₁, he, hs⟩ := Option.bind_eq_some_iff.mp h
      obtain ⟨hrely, hsafe⟩ := W.enter i s _ s₁ he
      obtain ⟨hr, hg⟩ := ready_settle hsafe (hy.of_rely hrely) hs
      exact ⟨hr, s₁, he, hg⟩
  | ret r =>
      cases ks with
      | nil => cases h
      | cons k ks =>
          have hy' : m.Ready C ⟨m.resume r s, k :: ks⟩ := hy.of_rely (W.resume r s)
          obtain ⟨s₁, hs₁, hk⟩ := hy' k List.mem_cons_self
          have hks : m.Ready C ⟨m.resume r s, ks⟩ := fun k' hk' => hy' k' (List.mem_cons_of_mem _ hk')
          obtain ⟨hr, hg⟩ := ready_settle (hk _ hs₁) hks h
          exact ⟨hr, _, rfl, hg⟩
  | throw e =>
      cases ks with
      | nil => cases h
      | cons k ks =>
          cases h
          have hks : m.Ready C ⟨s, ks⟩ := fun k' hk' => hy k' (List.mem_cons_of_mem _ hk')
          exact ⟨hks.of_rely (C.rely_of_guar _ _ (W.caught e s)), s, rfl, W.caught e s⟩

/-- The state after a stretch that stopped in `s`. -/
def land : Stop ε κ Unit → σ → σ
  | .ret _, s => s
  | .raise e, s => m.caught e s
  | .call c, s => m.sent c s

/-- **One entry**, by what is known of the first stretch of the callback. -/
theorem step_enter_until {i : ι} {s₁ : σ} {P : Stop ε κ Unit → σ → Prop}
    (he : m.entry i y.st y.pending.isEmpty = some s₁) (hu : (m.body i s₁).Until P)
    (h : m.step y (.enter i) = some y') : ∃ stop s, P stop s ∧ y'.st = m.land stop s := by
  obtain ⟨s₂, he₂, hs⟩ := Option.bind_eq_some_iff.mp h
  rw [he, Option.some.injEq] at he₂
  subst he₂
  cases ho : m.body i s₁ with
  | ret a s =>
      rw [ho] at hs hu
      cases hs
      exact ⟨_, _, hu, rfl⟩
  | raise e s =>
      rw [ho] at hs hu
      cases hs
      exact ⟨_, _, hu, rfl⟩
  | call c s k =>
      rw [ho] at hs hu
      cases hs
      exact ⟨_, _, hu, rfl⟩
  | spin =>
      rw [ho] at hs
      cases hs

end Machine

end Callback
