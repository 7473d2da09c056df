import VoipTests.Core.Base

/-!
# VoipTests.Core.Exit

The status the process leaves: `main_func` ends with `sys.exit(rval)`, and
the operating system keeps the low 8 bits of the value.

`rval` counts what the run owes and nothing bounds it, so the status is the
verdict exactly as long as the count is not a positive multiple of 256
(`exitStatus_iff`); up to 255 counted units it always is
(`not_wraps_of_created`).
-/

namespace VoipTests

/-- The status left by `sys.exit(rval)`: the low 8 bits of the value. -/
def exitStatus (rval : Int) : Nat := (rval % 256).toNat

theorem exitStatus_eq_zero_iff (rval : Int) : exitStatus rval = 0 ↔ (256 : Int) ∣ rval := by
  have hpos : 0 ≤ rval % 256 := Int.emod_nonneg rval (by decide)
  rw [exitStatus, Int.dvd_iff_emod_eq_zero]
  omega

/-- A count is lost when it is a multiple of 256 although something is owed;
the units counted are those of the ledger and the one `b_test` starts with. -/
def Wraps (cls : CoreClass) (L : Ledger Nat) : Prop := L.owed ≠ 0 ∧ 256 ∣ cls.base + L.owed

instance (cls : CoreClass) (L : Ledger Nat) : Decidable (Wraps cls L) := by
  unfold Wraps
  infer_instance

/-! ## the value at the end of the loop -/

/-- After the timeout `rval` is 0, or still the count it was before. -/
def Told (cls : CoreClass) (b : Books) : Prop :=
  b.core.loop = .timedOut → b.ledger.owed ≠ 0 → b.core.rval = cls.base + b.ledger.owed

theorem told_of_loop {cls : CoreClass} {b : Books} (h : b.core.loop ≠ .timedOut) : Told cls b :=
  fun hl => (h hl).elim

/-- No step but the timeout ends the loop by it. -/
theorem Core.loop_subtestDone {cls : CoreClass} {core core' : Core} {subtest : Nat} {rval : Int}
    (hl : core.loop = .looping) (h : core.subtestDone cls subtest rval = some core') :
    core'.loop ≠ .timedOut := by
  unfold Core.subtestDone Core.onNoSubtestsLeft at h
  split at h
  · cases h
  · dsimp only at h
    split at h <;> split at h <;> cases h <;> cases cls <;> simp [hl]

/-- The timeout changes the count only when nothing is owed. -/
theorem Told.timeout {cls : CoreClass} {b : Books} (T : Tracks cls b)
    (hl : b.core.loop = .looping) : Told cls ⟨b.core.timeout cls, b.ledger⟩ := by
  have hr : b.core.rval = cls.base + b.ledger.owed := T.rval (by simp [hl])
  intro _ howed
  cases cls with
  | aTest => exact hr
  | bTest =>
      have hbase : ¬ (b.core.subtestsRunning.length = 0 ∧ b.core.rval = 1) := by
        intro ⟨_, hone⟩
        simp only [CoreClass.base] at hr howed
        omega
      simpa only [Core.timeout, if_neg hbase] using hr

theorem Told.step {cls : CoreClass} {b b' : Books} {act : CoreAct} (T : Tracks cls b)
    (h : b.step cls act = some b') : Told cls b' := by
  unfold Books.step at h
  split at h
  · contradiction
  · next hl =>
    rw [not_not] at hl
    cases act with
    | invite ans =>
        cases cls with
        | aTest => contradiction
        | bTest =>
            cases h
            have hloop : (b.core.recvInvite ans).loop = b.core.loop := by
              cases ans <;> rfl
            exact told_of_loop (by simp [hloop, hl])
    | refuse =>
        cases h
        exact told_of_loop (by simp [hl])
    | done subtest rval =>
        simp only [Option.ite_none_right_eq_some, Option.map_eq_some_iff] at h
        obtain ⟨-, core, hcore, rfl⟩ := h
        exact told_of_loop (Core.loop_subtestDone hl hcore)
    | timeout =>
        cases h
        exact Told.timeout T hl

/-- The value a run of either core exits with: 0, or the base plus what is
owed. -/
theorem rval_of_ended {cls : CoreClass} {n : Nat} {acts : List CoreAct} {b : Books}
    (h : Run.exec (Books.step cls) (Books.start n cls) acts = some b)
    (hl : b.core.loop ≠ .looping) :
    b.core.rval = if b.ledger.owed = 0 then 0 else (cls.base + b.ledger.owed : Int) := by
  have hstart : Tracks cls (Books.start n cls) ∧ Told cls (Books.start n cls) :=
    ⟨tracks_start cls n, told_of_loop (by cases cls <;> simp [Books.start, Core.initA, Core.initB])⟩
  obtain ⟨T, hT⟩ : Tracks cls b ∧ Told cls b :=
    Run.exec_inv (P := fun b => Tracks cls b ∧ Told cls b)
      (fun _ _ _ hb hs => ⟨hb.1.step hs, Told.step hb.1 hs⟩) hstart h
  cases hloop : b.core.loop with
  | looping => exact (hl hloop).elim
  | drained =>
      have hcls : cls = .aTest := (T.drained hloop).1
      have hr := T.rval (by simp [hloop])
      simp only [hcls, CoreClass.base] at hr ⊢
      split <;> omega
  | timedOut =>
      by_cases h0 : b.ledger.owed = 0
      · simpa [h0] using (T.timedOut hloop).mpr ((Ledger.owed_eq_zero_iff _).mp h0)
      · simpa [h0] using hT hloop h0

/-- A run ends with 0 when it has turned out well, and only then. -/
theorem rval_eq_zero_iff {cls : CoreClass} {n : Nat} {acts : List CoreAct} {b : Books}
    (h : Run.exec (Books.step cls) (Books.start n cls) acts = some b)
    (hl : b.core.loop ≠ .looping) : b.core.rval = 0 ↔ b.ledger.Green := by
  have hr := rval_of_ended h hl
  rw [← Ledger.owed_eq_zero_iff, hr]
  split <;> omega

/-! ## the status -/

/-- The status is 0 when the run has turned out well, and when the count is lost. -/
theorem exitStatus_eq_zero_of_ended {cls : CoreClass} {n : Nat} {acts : List CoreAct} {b : Books}
    (h : Run.exec (Books.step cls) (Books.start n cls) acts = some b)
    (hl : b.core.loop ≠ .looping) :
    exitStatus b.core.rval = 0 ↔ b.ledger.Green ∨ Wraps cls b.ledger := by
  have hr := rval_of_ended h hl
  rw [exitStatus_eq_zero_iff, ← Ledger.owed_eq_zero_iff, hr, Wraps]
  by_cases h0 : b.ledger.owed = 0
  · simp [h0]
  · have hcast : (256 : Int) ∣ cls.base + b.ledger.owed ↔ 256 ∣ cls.base + b.ledger.owed := by
      omega
    simp [h0, hcast]

/-- **The exit status as a verdict.**  In every run of either core, from the
scheduling of any number of subtests: once the loop has ended, the status is 0
if and only if no subtest has failed or was left unfinished, exactly when the
count of those (and of Bob's own unit) is not a positive multiple of 256. -/
theorem exitStatus_iff (cls : CoreClass) (n : Nat) (acts : List CoreAct) (b : Books)
    (h : Run.exec (Books.step cls) (Books.start n cls) acts = some b)
    (hl : b.core.loop ≠ .looping) :
    (exitStatus b.core.rval = 0 ↔ b.ledger.Green) ↔ ¬ Wraps cls b.ledger := by
  have hgreen : Wraps cls b.ledger → ¬ b.ledger.Green := fun hw hg =>
    hw.1 ((Ledger.owed_eq_zero_iff _).mpr hg)
  rw [exitStatus_eq_zero_of_ended h hl]
  constructor
  · exact fun hiff hw => hgreen hw (hiff.mp (.inr hw))
  · exact fun hw => ⟨fun hor => hor.resolve_right hw, .inl⟩

/-- Alice with `n` subtests scheduled, and the timeout. -/
theorem exec_timeout (n : Nat) :
    Run.exec (Books.step .aTest) (Books.start n .aTest) [.timeout] =
      some ⟨(Core.initA n).timeout .aTest, .opening (Finset.range n)⟩ := rfl

/-- One subtest, never finished. -/
theorem exitStatus_iff_one :
    exitStatus ((Core.initA 1).timeout .aTest).rval ≠ 0 := by
  have hiff := exitStatus_iff .aTest 1 _ _ (exec_timeout 1) (by simp [Core.timeout])
  have hwrap : ¬ Wraps .aTest (.opening (Finset.range 1)) := by decide
  have hgreen : ¬ (Ledger.opening (Finset.range 1)).Green := by
    simp [Ledger.Green, Ledger.opening]
  exact fun h0 => hgreen ((hiff.mpr hwrap).mp h0)

/-- 256 subtests, none of them ever finished, leave the status 0. -/
theorem not_exitStatus_iff_green :
    ¬ ∀ (cls : CoreClass) (n : Nat) (acts : List CoreAct) (b : Books),
      Run.exec (Books.step cls) (Books.start n cls) acts = some b → b.core.loop ≠ .looping →
      (exitStatus b.core.rval = 0 ↔ b.ledger.Green) := by
  intro hall
  have hiff := hall .aTest 256 _ _ (exec_timeout 256) (by simp [Core.timeout])
  have hzero : exitStatus ((Core.initA 256).timeout .aTest).rval = 0 := by
    simp [Core.timeout, Core.initA, exitStatus]
  have hgreen : ¬ (Ledger.opening (Finset.range 256)).Green := by
    simp [Ledger.Green, Ledger.opening]
  exact hgreen (hiff.mp hzero)

/-! ## small runs -/

/-- What is owed has been created. -/
theorem Tracks.owed_le_created {cls : CoreClass} {b : Books} (T : Tracks cls b) :
    b.ledger.owed ≤ b.core.created := by
  have hdisj : Disjoint b.ledger.pending b.ledger.failed := T.wf.failed
  have hsub : b.ledger.pending ∪ b.ledger.failed ⊆ Finset.range b.core.created := by
    intro i hi
    by_contra hge
    obtain ⟨h₁, -, h₃⟩ := T.created i (by simpa using hge)
    rcases Finset.mem_union.mp hi with hi | hi
    · exact h₁ hi
    · exact h₃ hi
  have hcard := Finset.card_le_card hsub
  rwa [Finset.card_union_of_disjoint hdisj, Finset.card_range] at hcard

/-- As long as fewer than 256 units are counted, no count is lost: the whole default
schedule of Alice is far below that. -/
theorem not_wraps_of_created {cls : CoreClass} {n : Nat} {acts : List CoreAct} {b : Books}
    (h : Run.exec (Books.step cls) (Books.start n cls) acts = some b)
    (hn : cls.base + b.core.created < 256) : ¬ Wraps cls b.ledger := by
  rintro ⟨hne, hdvd⟩
  have hle := ((tracks_start cls n).exec h).owed_le_created
  have := Nat.le_of_dvd (by omega) hdvd
  omega

end VoipTests
