import VoipTests.Lib.Run
import VoipTests.Lib.Ledger

/-!
# VoipTests.Core.Base

The pass/fail accounting of the two test cores, `a_test` and `b_test` over
`testcore_base`: a counter `rval` and a list `subtests_running`, changed in
`__init__`, `recvRequest`, `subtest_done` and `timeout`.

What the counter is for is said by a `Ledger` (`VoipTests.Lib.Ledger`) that
is kept beside the core and records which subtests were taken on, withdrawn
and completed.  `Tracks` is the simulation between the two; `rval_faithful`
is what follows for the value the process exits with.

A subtest object is known by the number of subtests created before it.
-/

namespace VoipTests

/-! ## the cores -/

/-- The two classes derived from `testcore_base`. -/
inductive CoreClass where
  | aTest
  | bTest
  deriving DecidableEq, Repr

/-- How `ED2.loop()` stands, and who called `ED2.breakLoop()`. -/
inductive Loop where
  | looping
  | drained
  | timedOut
  deriving DecidableEq, Repr

/-- The attributes of a core, and the number of subtests created so far. -/
structure Core where
  rval : Int
  subtestsRunning : List Nat
  created : Nat
  loop : Loop
  deriving DecidableEq, Repr

/-- How the call of `subtest.answer` in `recvRequest` ends. -/
inductive Answered where
  | handed
  | authRequired
  | authFailed
  | escaped
  deriving DecidableEq, Repr

namespace Core

/-- `a_test.__init__`, with `n` subtests scheduled. -/
def initA (n : Nat) : Core :=
  { rval := (List.range n).length, subtestsRunning := List.range n, created := n, loop := .looping }

/-- `b_test.__init__`. -/
def initB : Core := { rval := 1, subtestsRunning := [], created := 0, loop := .looping }

/-- `recvRequest` of `b_test` on a new dialog whose test exists: the subtest
is created and counted, and given back when `answer` asks for credentials. -/
def recvInvite (core : Core) (ans : Answered) : Core :=
  let subtest := core.created
  let core := { core with
    subtestsRunning := core.subtestsRunning ++ [subtest]
    rval := core.rval + 1
    created := core.created + 1 }
  match ans with
  | .handed => core
  | .authRequired => { core with
      subtestsRunning := core.subtestsRunning.erase subtest
      rval := core.rval - 1 }
  | .authFailed => core
  | .escaped => core

/-- `_on_no_subtests_left`: only `a_test` breaks the loop. -/
def onNoSubtestsLeft (cls : CoreClass) (core : Core) : Core :=
  match cls with
  | .aTest => { core with loop := .drained }
  | .bTest => core

/-- `subtest_done`; `none` is the `ValueError` of `list.remove`. -/
def subtestDone (cls : CoreClass) (core : Core) (subtest : Nat) (rval : Int) : Option Core :=
  if subtest ∉ core.subtestsRunning then none
  else
    let core := { core with subtestsRunning := core.subtestsRunning.erase subtest }
    let core := if rval = 0 then { core with rval := core.rval - 1 } else core
    if core.subtestsRunning.length = 0 then some (core.onNoSubtestsLeft cls) else some core

/-- The check of the list after a completion touches the loop alone, and only
Alice's, once the list is empty. -/
theorem checked_some {cls : CoreClass} {core core' : Core}
    (h : (if core.subtestsRunning.length = 0 then some (core.onNoSubtestsLeft cls)
      else some core) = some core') :
    core'.subtestsRunning = core.subtestsRunning ∧ core'.created = core.created ∧
    core'.rval = core.rval ∧
    (core'.loop = core.loop ∨
      core'.loop = .drained ∧ cls = .aTest ∧ core'.subtestsRunning = []) := by
  split at h
  · next hlast =>
    cases h
    rw [List.length_eq_zero_iff] at hlast
    cases cls <;> simp [onNoSubtestsLeft, hlast]
  · cases h
    simp

/-- What a completion that is not refused does, guard included. -/
theorem subtestDone_some {cls : CoreClass} {core core' : Core} {subtest : Nat} {rval : Int}
    (h : core.subtestDone cls subtest rval = some core') :
    subtest ∈ core.subtestsRunning ∧
    core'.subtestsRunning = core.subtestsRunning.erase subtest ∧
    core'.created = core.created ∧
    core'.rval = (if rval = 0 then core.rval - 1 else core.rval) ∧
    (core'.loop = core.loop ∨
      core'.loop = .drained ∧ cls = .aTest ∧ core'.subtestsRunning = []) := by
  unfold subtestDone at h
  split at h
  · contradiction
  · next hmem =>
    refine ⟨not_not.mp hmem, ?_⟩
    by_cases h0 : rval = 0
    · simpa [h0] using checked_some h
    · simpa [h0] using checked_some h

/-- `timeout`; `b_test` settles its base count first. -/
def timeout (cls : CoreClass) (core : Core) : Core :=
  let core := match cls with
    | .aTest => core
    | .bTest =>
      if core.subtestsRunning.length = 0 ∧ core.rval = 1 then { core with rval := 0 } else core
  { core with loop := .timedOut }

end Core

/-! ## runs -/

/-- A core with the ledger of what has become of its subtests. -/
structure Books where
  core : Core
  ledger : Ledger Nat

/-- What happens to a core. -/
inductive CoreAct where
  /-- An INVITE that opens a new dialog and names a test. -/
  | invite (ans : Answered)
  /-- A request refused before a subtest is counted (481, 404, 501). -/
  | refuse
  /-- A subtest reports its verdict. -/
  | done (subtest : Nat) (rval : Int)
  /-- The timer of `test_timeout` fires. -/
  | timeout
  deriving DecidableEq, Repr

/-- The entry an INVITE leaves in the ledger: only a 401 takes it back. -/
def inviteEntry (L : Ledger Nat) (subtest : Nat) : Answered → Ledger Nat
  | .authRequired => (L.takeOn subtest).withdraw subtest
  | _ => L.takeOn subtest

/-- One step of a core while its loop runs.  A subtest without a verdict may
report one at any time; only `b_test` takes INVITEs. -/
def Books.step (cls : CoreClass) (b : Books) (act : CoreAct) : Option Books :=
  if b.core.loop ≠ .looping then none
  else match act with
    | .invite ans => match cls with
      | .aTest => none
      | .bTest => some ⟨b.core.recvInvite ans, inviteEntry b.ledger b.core.created ans⟩
    | .refuse => some b
    | .done subtest rval =>
      if subtest ∈ b.ledger.pending then
        (b.core.subtestDone cls subtest rval).map fun core =>
          ⟨core, b.ledger.complete subtest (rval = 0)⟩
      else none
    | .timeout => some ⟨b.core.timeout cls, b.ledger⟩

/-- The books as the loop is entered; `n` subtests are scheduled by `a_test`. -/
def Books.start (n : Nat) : CoreClass → Books
  | .aTest => ⟨.initA n, .opening (Finset.range n)⟩
  | .bTest => ⟨.initB, .opening ∅⟩

/-- The value `rval` has when nothing is owed. -/
def CoreClass.base : CoreClass → Nat
  | .aTest => 0
  | .bTest => 1

/-! ## the simulation -/

/-- The core counts what the ledger owes, and lists what it has pending. -/
structure Tracks (cls : CoreClass) (b : Books) : Prop where
  wf : b.ledger.WF
  created : ∀ i, b.core.created ≤ i → b.ledger.Fresh i
  nodup : b.core.subtestsRunning.Nodup
  running : ∀ i, i ∈ b.core.subtestsRunning ↔ i ∈ b.ledger.pending
  rval : b.core.loop ≠ .timedOut → b.core.rval = cls.base + b.ledger.owed
  timedOut : b.core.loop = .timedOut → (b.core.rval = 0 ↔ b.ledger.Green)
  drained : b.core.loop = .drained → cls = .aTest ∧ b.core.subtestsRunning = []

theorem Tracks.length_running {cls : CoreClass} {b : Books} (T : Tracks cls b) :
    b.core.subtestsRunning.length = b.ledger.pending.card := by
  rw [← List.toFinset_card_of_nodup T.nodup]
  congr 1
  ext i
  simp [T.running]

theorem tracks_start (cls : CoreClass) (n : Nat) : Tracks cls (Books.start n cls) := by
  cases cls with
  | aTest =>
      refine ⟨Ledger.wf_opening _, ?_, List.nodup_range, ?_, ?_, ?_, ?_⟩
      · intro i hi
        simpa [Ledger.Fresh, Ledger.opening, Books.start, Core.initA] using hi
      · intro i
        simp [Books.start, Core.initA, Ledger.opening]
      · intro _
        simp [Books.start, Core.initA, CoreClass.base, Ledger.owed_opening]
      · simp [Books.start, Core.initA]
      · simp [Books.start, Core.initA]
  | bTest =>
      refine ⟨Ledger.wf_opening _, ?_, List.nodup_nil, ?_, ?_, ?_, ?_⟩
      · intro i hi
        simp [Ledger.Fresh, Ledger.opening, Books.start]
      · intro i
        simp [Books.start, Core.initB, Ledger.opening]
      · intro _
        simp [Books.start, Core.initB, CoreClass.base, Ledger.owed_opening]
      · simp [Books.start, Core.initB]
      · simp [Books.start, Core.initB]

/-- **An admission**: counted and listed, or undone by the 401. -/
theorem Tracks.recvInvite {b : Books} (T : Tracks .bTest b) (hl : b.core.loop = .looping)
    (ans : Answered) :
    Tracks .bTest ⟨b.core.recvInvite ans, inviteEntry b.ledger b.core.created ans⟩ := by
  have hfresh : b.ledger.Fresh b.core.created := T.created _ (Nat.le_refl _)
  have hnot : b.core.created ∉ b.core.subtestsRunning := fun h => hfresh.1 ((T.running _).mp h)
  have hr := T.rval (by simp [hl])
  -- Apart from the 401 the subtest stays counted and listed.
  have stays : Tracks .bTest ⟨b.core.recvInvite .handed, b.ledger.takeOn b.core.created⟩ := by
    refine ⟨Ledger.wf_takeOn T.wf hfresh, ?_, ?_, ?_, ?_, ?_, ?_⟩
    · intro i hi
      simp only [Core.recvInvite] at hi
      obtain ⟨h₁, h₂, h₃⟩ := T.created i (by omega)
      refine ⟨?_, h₂, h₃⟩
      simp only [Ledger.takeOn, Finset.mem_insert, not_or]
      exact ⟨by omega, h₁⟩
    · simpa [Core.recvInvite, List.nodup_append, T.nodup] using
        fun i hi => ne_of_mem_of_not_mem hi hnot
    · intro i
      simp [Core.recvInvite, Ledger.takeOn, T.running, or_comm]
    · intro _
      simp only [Core.recvInvite, Ledger.owed_takeOn hfresh, hr]
      push_cast
      omega
    · simp [Core.recvInvite, hl]
    · simp [Core.recvInvite, hl]
  cases ans with
  | handed => exact stays
  | authFailed => exact stays
  | escaped => exact stays
  | authRequired =>
      rw [inviteEntry, Ledger.withdraw_takeOn hfresh]
      have herase : (b.core.subtestsRunning ++ [b.core.created]).erase b.core.created =
          b.core.subtestsRunning := by
        rw [List.erase_append_right _ hnot, List.erase_cons_head, List.append_nil]
      refine ⟨T.wf, fun i hi => T.created i ?_, ?_, ?_, ?_, ?_, ?_⟩
      · simp only [Core.recvInvite] at hi
        omega
      · simpa [Core.recvInvite, herase] using T.nodup
      · simpa [Core.recvInvite, herase] using T.running
      · intro _
        simp only [Core.recvInvite, hr]
        omega
      · simp [Core.recvInvite, hl]
      · simp [Core.recvInvite, hl]

/-- **A completion**: taken off the list, and off the count when it passed. -/
theorem Tracks.subtestDone {cls : CoreClass} {b : Books} {core : Core} (T : Tracks cls b)
    (hl : b.core.loop = .looping) {subtest : Nat} {rval : Int}
    (hp : subtest ∈ b.ledger.pending)
    (h : b.core.subtestDone cls subtest rval = some core) :
    Tracks cls ⟨core, b.ledger.complete subtest (rval = 0)⟩ := by
  have hr := T.rval (by simp [hl])
  have howed := Ledger.owed_complete_of_mem T.wf hp (decide (rval = 0))
  have hlists : ∀ i, i ∈ b.core.subtestsRunning.erase subtest ↔
      i ∈ (b.ledger.complete subtest (rval = 0)).pending := by
    intro i
    rw [Ledger.pending_complete, T.nodup.mem_erase_iff, Finset.mem_erase, T.running]
  have hfresh : ∀ i, b.core.created ≤ i → (b.ledger.complete subtest (rval = 0)).Fresh i := by
    intro i hi
    have hnew := T.created i hi
    exact hnew.complete (fun he => hnew.1 (he ▸ hp)) _
  -- The counter after the completion, whether or not it was the last one.
  have hcount : (if rval = 0 then b.core.rval - 1 else b.core.rval) =
      cls.base + (b.ledger.complete subtest (rval = 0)).owed := by
    by_cases h0 : rval = 0
    · simp only [h0, decide_true, if_true] at howed ⊢
      omega
    · simp only [h0, decide_false, Bool.false_eq_true, if_false] at howed ⊢
      omega
  obtain ⟨-, hrun, hcreated, hrval, hloop⟩ := Core.subtestDone_some h
  rw [hl] at hloop
  refine ⟨Ledger.wf_complete T.wf _, ?_, ?_, ?_, ?_, ?_, ?_⟩
  · simpa [hcreated] using hfresh
  · simpa [hrun] using T.nodup.erase subtest
  · simpa [hrun] using hlists
  · intro _
    simpa [hrval] using hcount
  · rcases hloop with hloop | hloop <;> simp [hloop]
  · rcases hloop with hloop | hloop
    · simp [hloop]
    · exact fun _ => hloop.2

/-- **The timeout**: the count becomes the verdict. -/
theorem Tracks.timeout {cls : CoreClass} {b : Books} (T : Tracks cls b)
    (hl : b.core.loop = .looping) : Tracks cls ⟨b.core.timeout cls, b.ledger⟩ := by
  have hr := T.rval (by simp [hl])
  have hlen := T.length_running
  have hgreen := Ledger.owed_eq_zero_iff b.ledger
  cases cls with
  | aTest =>
      refine ⟨T.wf, T.created, T.nodup, T.running, ?_, ?_, ?_⟩
      · simp [Core.timeout]
      · intro _
        simp only [Core.timeout, hr, ← hgreen, CoreClass.base]
        omega
      · simp [Core.timeout]
  | bTest =>
      have hcore : b.core.timeout .bTest = { b.core with
          rval := if b.ledger.owed = 0 then 0 else b.core.rval, loop := .timedOut } := by
        simp only [Core.timeout, hlen, hr, CoreClass.base]
        by_cases h0 : b.ledger.owed = 0
        · rw [if_pos h0, if_pos ⟨by simp only [Ledger.owed] at h0; omega, by omega⟩]
        · rw [if_neg h0, if_neg (fun hc => h0 (by omega)), hr]
          rfl
      rw [hcore]
      refine ⟨T.wf, T.created, T.nodup, T.running, by simp, ?_, by simp⟩
      intro _
      simp only [hr, ← hgreen, CoreClass.base]
      split <;> omega

/-- Every step of a core keeps its books. -/
theorem Tracks.step {cls : CoreClass} {b b' : Books} {act : CoreAct} (T : Tracks cls b)
    (h : b.step cls act = some b') : Tracks cls b' := by
  unfold Books.step at h
  split at h
  · contradiction
  · next hl =>
    rw [not_not] at hl
    cases act with
    | invite ans =>
        cases cls with
        | aTest => contradiction
        | bTest =>
            cases h
            exact T.recvInvite hl ans
    | refuse =>
        cases h
        exact T
    | done subtest rval =>
        simp only [Option.ite_none_right_eq_some, Option.map_eq_some_iff] at h
        obtain ⟨hp, core, hcore, rfl⟩ := h
        exact T.subtestDone hl hp hcore
    | timeout =>
        cases h
        exact T.timeout hl

/-- Every run of a core keeps its books. -/
theorem Tracks.exec {cls : CoreClass} {b b' : Books} {acts : List CoreAct} (T : Tracks cls b)
    (h : Run.exec (Books.step cls) b acts = some b') : Tracks cls b' :=
  Run.exec_inv (fun _ _ _ T hs => T.step hs) T h

/-- **Pass/fail accounting.**  In every run of either core, from the
scheduling of any number of subtests: until the timeout `rval` is the base
plus the subtests still running plus those that completed with a verdict
other than 0; no subtest is listed twice, or without being pending; a verdict
is never refused; Alice leaves the loop from `subtest_done` only when no
subtest is left; and once the loop has ended `rval` is 0 if and only if every
subtest that was taken on and not withdrawn has passed. -/
theorem rval_faithful {cls : CoreClass} {n : Nat} {acts : List CoreAct} {b : Books}
    (h : Run.exec (Books.step cls) (Books.start n cls) acts = some b) :
    (b.core.loop ≠ .timedOut →
      b.core.rval = cls.base + b.core.subtestsRunning.length + b.ledger.failed.card) ∧
    b.core.subtestsRunning.Nodup ∧
    (∀ i ∈ b.core.subtestsRunning, i ∈ b.ledger.pending ∧ i ∉ b.ledger.passed ∧ i ∉ b.ledger.failed) ∧
    (∀ i ∈ b.ledger.pending, ∀ rval, b.core.subtestDone cls i rval ≠ none) ∧
    (b.core.loop = .drained → cls = .aTest ∧ b.core.subtestsRunning = []) ∧
    (b.core.loop ≠ .looping → (b.core.rval = 0 ↔ b.ledger.Green)) := by
  have T : Tracks cls b := (tracks_start cls n).exec h
  refine ⟨fun hl => ?_, T.nodup, fun i hi => ?_, fun i hi rval => ?_, T.drained, fun hl => ?_⟩
  · rw [T.rval hl, T.length_running, Ledger.owed]
    push_cast
    omega
  · have hp := (T.running i).mp hi
    exact ⟨hp, Finset.disjoint_left.mp T.wf.passed hp, Finset.disjoint_left.mp T.wf.failed hp⟩
  · rw [Core.subtestDone, if_neg (not_not.mpr ((T.running i).mpr hi))]
    dsimp only
    split_ifs <;> exact Option.some_ne_none _
  · by_cases ht : b.core.loop = .timedOut
    · exact T.timedOut ht
    · have hd : b.core.loop = .drained := by
        cases hb : b.core.loop <;> simp_all
      rw [T.rval ht, (T.drained hd).1, ← Ledger.owed_eq_zero_iff, CoreClass.base]
      omega

/-- A call that is challenged first and passes then. -/
theorem rval_faithful_one_call :
    ∃ b, Run.exec (Books.step .bTest) (Books.start 0 .bTest)
        [.invite .authRequired, .invite .handed, .done 1 0, .timeout] = some b ∧
      (b.core.rval = 0 ↔ b.ledger.Green) := by
  have h : (Run.exec (Books.step .bTest) (Books.start 0 .bTest)
      [.invite .authRequired, .invite .handed, .done 1 0, .timeout]).map (·.core.loop) =
        some .timedOut := rfl
  obtain ⟨b, hb, hl⟩ := Option.map_eq_some_iff.mp h
  exact ⟨b, hb, (rval_faithful hb).2.2.2.2.2 (by simp [hl])⟩

end VoipTests
