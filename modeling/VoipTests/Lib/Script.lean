import Mathlib.Data.List.Basic

/-!
# VoipTests.Lib.Script

Scripts that run inside a host program.

A script calls functions of its host; each returns a code that is positive
for yes and negative for no, and a function that returns 0 ends the script
(`Script.perform`).  `Script.run` replays a script against a list of return
codes and gives the calls it makes: the codes are all a script gets to know
of its host, so what holds of every list of codes holds in every host.

`Script.Wp` folds a monitor over the calls.  Its rules follow the script, one
call at a time, and `Script.Wp.run` is what they are for.  Where the order of
the calls matters, `Script.run_bind` takes a run apart, and `Script.Only` says
which functions a part of the script can have called.
-/

/-- A script over the host's functions `κ`.  `exit` ends it early. -/
inductive Script (κ α : Type) : Type where
  | ret (a : α)
  | exit
  | call (c : κ) (k : Int → Script κ α)

namespace Script

variable {κ α β σ : Type}

/-- Go on with `f` at the end of the script. -/
def bind : Script κ α → (α → Script κ β) → Script κ β
  | ret a, f => f a
  | exit, _ => exit
  | call c k, f => call c fun n => (k n).bind f

instance : Monad (Script κ) where
  pure := ret
  bind := bind

/-- Call `c`, for its return code. -/
def perform (c : κ) : Script κ Int := call c fun n => if n = 0 then exit else ret n

/-- Call `c` in a condition. -/
def test (c : κ) : Script κ Bool := perform c >>= fun n => pure (0 < n)

/-- Call `c` as a statement. -/
def act (c : κ) : Script κ Unit := perform c >>= fun _ => pure ()

/-- A statement of the script's own language: it does not end the script. -/
def tell (c : κ) : Script κ Unit := call c fun _ => ret ()

/-- The calls that a script makes with these return codes, and how it ends:
`none` is an exit.  There must be one code for each call. -/
def run : Script κ α → List Int → Option (List (κ × Int) × Option α)
  | ret a, [] => some ([], some a)
  | exit, [] => some ([], none)
  | call c k, n :: codes => ((k n).run codes).map fun r => ((c, n) :: r.1, r.2)
  | _, _ => none

/-- Whatever the return codes, `Q` holds of the end and of the state of the
monitor `m` there, which now is in `s`. -/
def Wp (m : σ → κ × Int → σ) (Q : σ → Option α → Prop) : Script κ α → σ → Prop
  | ret a, s => Q s (some a)
  | exit, s => Q s none
  | call c k, s => ∀ n, (k n).Wp m Q (m s (c, n))

section Wp

variable {m : σ → κ × Int → σ} {Q Q' : σ → Option α → Prop} {p : Script κ α} {s : σ}

@[simp] theorem wp_ret {a : α} : (ret a : Script κ α).Wp m Q s ↔ Q s (some a) := Iff.rfl

@[simp] theorem wp_pure {a : α} : (pure a : Script κ α).Wp m Q s ↔ Q s (some a) := Iff.rfl

@[simp] theorem wp_exit : (exit : Script κ α).Wp m Q s ↔ Q s none := Iff.rfl

@[simp] theorem wp_call {c : κ} {k : Int → Script κ α} :
    (call c k).Wp m Q s ↔ ∀ n, (k n).Wp m Q (m s (c, n)) := Iff.rfl

/-- **Sequencing**: the first script may exit. -/
@[simp] theorem wp_bind {f : α → Script κ β} {Q : σ → Option β → Prop} :
    (p >>= f).Wp m Q s ↔ p.Wp m (fun s r => match r with
      | some a => (f a).Wp m Q s
      | none => Q s none) s := by
  show (p.bind f).Wp m Q s ↔ _
  induction p generalizing s with
  | ret a => exact Iff.rfl
  | exit => exact Iff.rfl
  | call c k ih => exact forall_congr' fun n => ih n

/-- **A call**: it may end the script. -/
@[simp] theorem wp_perform {c : κ} {Q : σ → Option Int → Prop} :
    (perform c).Wp m Q s ↔ Q (m s (c, 0)) none ∧ ∀ n, n ≠ 0 → Q (m s (c, n)) (some n) := by
  constructor
  · intro h
    refine ⟨by simpa using h 0, fun n hn => ?_⟩
    simpa [hn] using h n
  · rintro ⟨h₀, h⟩ n
    by_cases hn : n = 0
    · subst hn
      exact h₀
    · simpa [hn] using h n hn

@[simp] theorem wp_test {c : κ} {Q : σ → Option Bool → Prop} :
    (test c).Wp m Q s ↔ Q (m s (c, 0)) none ∧ (∀ n < 0, Q (m s (c, n)) (some false)) ∧
      ∀ n > 0, Q (m s (c, n)) (some true) := by
  simp only [test, wp_bind, wp_perform, wp_pure]
  refine and_congr_right fun _ => ⟨fun h => ⟨fun n hn => ?_, fun n hn => ?_⟩, fun h n hn => ?_⟩
  · have hq := h n (by omega)
    rwa [decide_eq_false (by omega)] at hq
  · have hq := h n (by omega)
    rwa [decide_eq_true hn] at hq
  · rcases Int.lt_or_gt_of_ne hn with hlt | hgt
    · rw [decide_eq_false (by omega)]
      exact h.1 n hlt
    · rw [decide_eq_true hgt]
      exact h.2 n hgt

@[simp] theorem wp_act {c : κ} {Q : σ → Option Unit → Prop} :
    (act c).Wp m Q s ↔ Q (m s (c, 0)) none ∧ ∀ n, n ≠ 0 → Q (m s (c, n)) (some ()) := by
  simp only [act, wp_bind, wp_perform, wp_pure]

@[simp] theorem wp_tell {c : κ} {Q : σ → Option Unit → Prop} :
    (tell c).Wp m Q s ↔ ∀ n, Q (m s (c, n)) (some ()) := Iff.rfl

theorem Wp.mono (h : p.Wp m Q s) (hQ : ∀ s r, Q s r → Q' s r) : p.Wp m Q' s := by
  induction p generalizing s with
  | ret a => exact hQ _ _ h
  | exit => exact hQ _ _ h
  | call c k ih => exact fun n => ih n (h n)

/-- **The meaning of the judgement**: it is about every run. -/
theorem Wp.run (h : p.Wp m Q s) {codes : List Int} {l : List (κ × Int)} {r : Option α}
    (hr : p.run codes = some (l, r)) : Q (l.foldl m s) r := by
  induction p generalizing s codes l with
  | ret a =>
      cases codes with
      | nil =>
          cases hr
          exact h
      | cons n codes => cases hr
  | exit =>
      cases codes with
      | nil =>
          cases hr
          exact h
      | cons n codes => cases hr
  | call c k ih =>
      cases codes with
      | nil => cases hr
      | cons n codes =>
          obtain ⟨⟨l', r'⟩, hk, heq⟩ := Option.map_eq_some_iff.mp hr
          cases heq
          exact ih n (h n) hk

end Wp

/-! ## the calls of a run -/

theorem foldl_concat (l l' : List (κ × Int)) : l'.foldl (fun l x => l ++ [x]) l = l ++ l' := by
  induction l' generalizing l with
  | nil => simp
  | cons x l' ih => simp [ih]

/-- A judgement about the calls themselves. -/
theorem Wp.calls {p : Script κ α} {Q : List (κ × Int) → Option α → Prop}
    (h : p.Wp (fun l x => l ++ [x]) Q []) {codes : List Int} {l : List (κ × Int)} {r : Option α}
    (hr : p.run codes = some (l, r)) : Q l r := by
  have hq := h.run hr
  rwa [foldl_concat, List.nil_append] at hq

/-- **A run of two scripts**: the first one has ended it, or it is a run of each. -/
theorem run_bind {p : Script κ α} {f : α → Script κ β} {codes : List Int} {l : List (κ × Int)}
    {r : Option β} (h : (p >>= f).run codes = some (l, r)) :
    (p.run codes = some (l, none) ∧ r = none) ∨
      ∃ a codes₁ codes₂ l₁ l₂, p.run codes₁ = some (l₁, some a) ∧
        (f a).run codes₂ = some (l₂, r) ∧ l = l₁ ++ l₂ := by
  induction p generalizing codes l with
  | ret a => exact .inr ⟨a, [], codes, [], l, rfl, h, rfl⟩
  | exit =>
      cases codes with
      | nil =>
          cases h
          exact .inl ⟨rfl, rfl⟩
      | cons n codes => cases h
  | call c k ih =>
      cases codes with
      | nil => cases h
      | cons n codes =>
          obtain ⟨⟨l', r'⟩, hk, heq⟩ := Option.map_eq_some_iff.mp h
          cases heq
          obtain ⟨hrun, hr⟩ | ⟨a, codes₁, codes₂, l₁, l₂, h₁, h₂, hl⟩ := ih n hk
          · exact .inl ⟨by simp [run, hrun], hr⟩
          · refine .inr ⟨a, n :: codes₁, codes₂, (c, n) :: l₁, l₂, by simp [run, h₁], h₂, ?_⟩
            simp only [hl, List.cons_append]

/-- Whatever the return codes, the script calls functions in `P` only. -/
def Only (P : κ → Prop) : Script κ α → Prop
  | ret _ => True
  | exit => True
  | call c k => P c ∧ ∀ n, (k n).Only P

section Only

variable {P : κ → Prop} {p : Script κ α}

theorem Only.bind {f : α → Script κ β} (hp : p.Only P) (hf : ∀ a, (f a).Only P) :
    (p >>= f).Only P := by
  show (p.bind f).Only P
  induction p with
  | ret a => exact hf a
  | exit => trivial
  | call c k ih => exact ⟨hp.1, fun n => ih n (hp.2 n)⟩

theorem Only.mono {P' : κ → Prop} (h : p.Only P) (hP : ∀ c, P c → P' c) : p.Only P' := by
  induction p with
  | ret a => trivial
  | exit => trivial
  | call c k ih => exact ⟨hP c h.1, fun n => ih n (h.2 n)⟩

/-- What the calls in `P` preserve. -/
theorem Only.inv {m : σ → κ × Int → σ} {I : σ → Prop} (h : p.Only P)
    (hm : ∀ s x, I s → P x.1 → I (m s x)) {s : σ} (hs : I s) : p.Wp m (fun s _ => I s) s := by
  induction p generalizing s with
  | ret a => exact hs
  | exit => exact hs
  | call c k ih => exact fun n => ih n (h.2 n) (hm s (c, n) hs h.1)

theorem wp_and_iff {q : Prop} :
    p.Wp (fun q x => q ∧ P x.1) (fun q _ => q) q ↔ q ∧ p.Only P := by
  induction p generalizing q with
  | ret a => simp [Only]
  | exit => simp [Only]
  | call c k ih => simp [Only, ih, forall_and, and_assoc]

/-- The rules of `Script.Wp` decide the judgement. -/
theorem only_iff_wp : p.Only P ↔ p.Wp (fun q x => q ∧ P x.1) (fun q _ => q) True := by
  rw [wp_and_iff, true_and]

/-- **The meaning of the judgement**. -/
theorem Only.run (h : p.Only P) {codes : List Int} {l : List (κ × Int)} {r : Option α}
    (hr : p.run codes = some (l, r)) : ∀ x ∈ l, P x.1 := by
  induction p generalizing codes l with
  | ret a =>
      cases codes with
      | nil =>
          cases hr
          simp
      | cons n codes => cases hr
  | exit =>
      cases codes with
      | nil =>
          cases hr
          simp
      | cons n codes => cases hr
  | call c k ih =>
      cases codes with
      | nil => cases hr
      | cons n codes =>
          obtain ⟨⟨l', r'⟩, hk, heq⟩ := Option.map_eq_some_iff.mp hr
          cases heq
          exact List.forall_mem_cons.mpr ⟨h.1, ih n (h.2 n) hk⟩

end Only

end Script
