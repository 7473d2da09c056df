import VoipTests.Subtest.Life

/-!
# VoipTests.Subtest.Mightfail

The list of tests that might fail.

`test.alldone` forgives a subtest that is on the list.  The classes with a
verdict of their own (`ownTest`) never get there: for these a failure counts
all the same.  `forgiven_iff` says exactly when the flag has its effect.
-/

namespace VoipTests

open Callback

/-- The condition of an `alldone` that does not go on to that of `test`. -/
def ownTest : List PyClass → Option (Subtest → Bool)
  | [] => none
  | .a .t3 :: _ => some fun s => s.disconnectDone && s.nerrs = 0
  | .a .t11 :: _ => some fun s => !s.connectDone && s.disconnectDone && s.nerrs = 0
  | .b .t11 :: _ => some fun s => s.ringDone && !s.connectDone && s.disconnectDone && s.nerrs = 0
  | .b .t12 :: _ => some fun s => !s.ringDone && !s.connectDone && s.disconnectDone && s.nerrs = 0
  | .b .t13 :: _ => some fun s => s.ringDone && !s.connectDone && s.disconnectDone && s.nerrs = 0
  | .a .invBrkn1 :: _ => some fun s => s.disconnectDone && s.nerrs = 0
  | .b .invBrkn1 :: _ =>
    some fun s => s.ringDone && !s.connectDone && s.disconnectDone && s.nerrs = 0
  | .b .reinvOnhold :: _ | .testEarlyCancel :: _ | .testReinvite :: _ | .test :: _ => none
  | _ :: sup => ownTest sup

theorem passes_of_ownTest {mro : List PyClass} {test : Subtest → Bool}
    (h : ownTest mro = some test) (s : Subtest) : passes mro s = test s := by
  fun_induction ownTest mro with
  | case1 => cases h
  | case9 => cases h
  | case10 => cases h
  | case11 => cases h
  | case12 => cases h
  | case13 c sup _ _ _ _ _ _ _ _ _ _ _ ih => rw [passes, ih h] <;> assumption
  | _ =>
      cases h
      rfl

/-- The classes without a verdict of their own are those that look at the flag. -/
theorem honours_eq_isNone_ownTest (p : Setup) :
    honours p.cls.mro = (ownTest p.cls.mro).isNone := by
  obtain ⟨scn, side, _, _, _⟩ := p
  cases side with
  | alice =>
      show honours (PyClass.a scn).mro = (ownTest (PyClass.a scn).mro).isNone
      cases scn <;> decide +kernel
  | bob body req =>
      show honours (PyClass.b scn).mro = (ownTest (PyClass.b scn).mro).isNone
      cases scn <;> decide +kernel

/-- The object `alldone` finds meets the test of its class, if that has one. -/
def Subtest.MeetsOwnTest (s : Subtest) : Prop := ∀ test, ownTest s.cls.mro = some test → test s = true

/-- A step in which an unreported subtest enters `alldone` finds it so. -/
def AlldoneMeets (y : Sys) (a : Act) : Prop :=
  ∀ env, a = .enter ⟨.dead, env⟩ → y.st.report = none → y.st.MeetsOwnTest

variable {p : Setup} {s : Subtest}

/-- The verdict on an object whose flag is set. -/
theorem Setup.Lives.judged_of_mightfail (h : p.Lives s) (hn : s.report = none)
    (hm : s.mightfail = true) : judged p.cls.mro s = 0 ↔ s.MeetsOwnTest := by
  have hv := (h.upright.unreported hn).2.2
  have hh := honours_eq_isNone_ownTest p
  unfold Subtest.MeetsOwnTest
  rw [judged, hm, hv, Bool.and_true, h.cls, hh]
  cases ho : ownTest p.cls.mro with
  | none => simp
  | some test =>
      rw [passes_of_ownTest ho]
      cases htest : test s <;> simp [htest]

/-- After the report the condition asks for nothing. -/
theorem meets_of_reported {acts : List Act} {y : Sys} {r : Report} (h : p.Found y)
    (hr : y.st.report = some r) : Run.Meets machine.step AlldoneMeets y acts := by
  induction acts generalizing y with
  | nil => exact trivial
  | cons a as ih =>
      refine ⟨fun env _ hn => ?_, fun y₁ hs => ?_⟩
      · rw [hr] at hn
        cases hn
      · obtain ⟨hfound, hch⟩ := h.step hs
        exact ih hfound ((h.lives_of_step hs).report hr hch)

/-- **What the list of tests that might fail is worth.**  A subtest whose flag
is set is reported with 0 if and only if its class has no test of its own, or
`alldone` finds the test met. -/
theorem forgiven_iff {acts acts' : List Act} {y y' : Sys} {r : Report} (h : p.Reaches acts y)
    (hm : y.st.mightfail = true) (hn : y.st.report = none)
    (h' : Run.exec machine.step y acts' = some y') (hr : y'.st.report = some r) :
    r.rval = 0 ↔ Run.Meets machine.step AlldoneMeets y acts' := by
  induction acts' generalizing acts y with
  | nil =>
      rw [Run.exec_nil, Option.some.injEq] at h'
      subst h'
      rw [hn] at hr
      cases hr
  | cons a as ih =>
      rw [Run.exec_cons, Option.bind_eq_some_iff] at h'
      obtain ⟨y₁, hs, h₁⟩ := h'
      obtain ⟨hfound, hwaits⟩ := Setup.waits_of_reaches h
      have hl := hfound.lives_of_step hs
      obtain ⟨hfound₁, hch⟩ := hfound.step hs
      have hcons : Run.Meets machine.step AlldoneMeets y (a :: as) ↔
          AlldoneMeets y a ∧ Run.Meets machine.step AlldoneMeets y₁ as := by
        rw [Run.Meets, hs]
        simp
      rw [hcons]
      cases hr₁ : y₁.st.report with
      | none =>
          have hreach : p.Reaches (acts ++ [a]) y₁ := h.append (by simp [hs])
          rw [ih hreach (hl.mightfail_changes hm hch) hr₁ h₁]
          refine ⟨fun hmeets => ⟨fun env ha _ test ht => ?_, hmeets⟩, And.right⟩
          -- An `alldone` with a test would have reported.
          subst ha
          rw [hl.cls] at ht
          exact (hl.reports_of_dead hn hs hr₁).elim
      | some r₁ =>
          have hlast := (hfound₁.lives ?_).report hr₁ (hfound₁.exec h₁).2
          · rw [hr, Option.some.injEq] at hlast
            subst hlast
            obtain ⟨env, rfl⟩ := hfound.report_step (hwaits hl) hn hs hr₁
            rcases hl.dead_step hn hs with ⟨n, hrep⟩ | ⟨hrep, -⟩
            · rw [hr₁, Option.some.injEq] at hrep
              subst hrep
              rw [hl.judged_of_mightfail hn hm]
              refine ⟨fun htest => ⟨fun _ _ _ => htest, meets_of_reported hfound₁ hr₁⟩, fun hq => ?_⟩
              exact hq.1 env rfl hn
            · rw [hr₁] at hrep
              cases hrep
          · rw [hch.sameLife.created, hl.created]

/-- `a_test3` on the list, ended before anything else: the flag is set, and the
verdict is 1. -/
theorem not_forgiven_t3 : ¬ ∀ (p : Setup) (acts : List Act) (y : Sys) (r : Report),
    p.Reaches acts y → y.st.mightfail = true → y.st.report = some r → r.rval = 0 := by
  intro hall
  have hrun : ((Sample.alice .t3 true).run [.ret Sample.env, Sample.enter .dead]).map
      (fun y => (y.st.mightfail, y.st.report.map Report.rval)) = some (true, some 1) := by
    decide +kernel
  obtain ⟨y, hy, hf⟩ := Setup.exists_of_run hrun
  rw [Prod.mk.injEq, Option.map_eq_some_iff] at hf
  obtain ⟨hm, r, hr, hv⟩ := hf
  rw [hall _ _ y r hy hm hr] at hv
  cases hv

/-- `a_test3` again, the call having been given up by the switch. -/
theorem forgiven_iff_t3 : ∃ (y y' : Sys) (r : Report), y'.st.report = some r ∧ (r.rval = 0 ↔
    Run.Meets machine.step AlldoneMeets y
      [Sample.enter (.disconnected .switch ⟨0, 1, false, true⟩), Sample.enter .dead]) := by
  have hrun : ((Sample.alice .t3 true).run [.ret Sample.env]).map (fun y =>
      (y.st.mightfail, y.st.report, (Run.exec machine.step y
        [Sample.enter (.disconnected .switch ⟨0, 1, false, true⟩), Sample.enter .dead]).map
          fun y' => y'.st.report.map Report.rval)) = some (true, none, some (some 0)) := by
    decide +kernel
  obtain ⟨y, hy, hf⟩ := Setup.exists_of_run hrun
  simp only [Prod.mk.injEq, Option.map_eq_some_iff] at hf
  obtain ⟨hm, hn, y', h', r, hr, -⟩ := hf
  exact ⟨y, y', r, hr, forgiven_iff hy hm hn h' hr⟩

end VoipTests
