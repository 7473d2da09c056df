import VoipTests.Core.Invited
import VoipTests.Harness

/-!
# VoipTests.EndToEnd

The script, both cores and all the subtests in one run.

The script sees nothing of the calls: it collects return codes.  But those of the two
ends are what their cores have counted, and that is what the objects have reported;
so a status of 0 says of every call how it went, on Alice's side and on Bob's
(`FullRun.exit_calls`).
-/

namespace VoipTests.Harness

open Run

/-- A run of the script with the subtests of both ends. -/
structure FullRun (env : Env) where
  run : TestRun env
  created : List (ACfg × VoipTests.Env × List Act)
  opening : Suite
  suiteActs : List SuiteAct
  suite : Suite
  bobActs : List BobAct
  bob : Bob
  shuffled : created.map Prod.fst = run.shuffled
  opened : Suite.create (mainConfig run.common (aliceOpts env run.flags)) created = some opening
  suiteRun : exec Suite.step opening suiteActs = some suite
  bobRun : exec Bob.step .start bobActs = some bob
  /-- The script is told what the cores have counted. -/
  suiteCore : run.alice.core = suite.core
  bobCore : run.bob.core = bob.core

namespace FullRun

variable {env : Env} (full : FullRun env)

/-- All objects that count have reported 0. -/
def AllPassed : Prop :=
  (∀ i < full.created.length, full.suite.verdict i = some (some 0)) ∧
    ∀ i, ¬ full.bob.Owes (invitesOf full.bobActs) i

/-- For every name that was asked for there is a call of Alice's, and it has gone as it
is to go. -/
def AliceCalls : Prop :=
  ∀ name ∈ splitComma (testSet env), ∀ atype ∈ familiesAsked full.run.flags,
    ∀ so ∈ modesAsked full.run.flags,
      ∃ (i : Nat) (x : ACfg) (y : Sys) (r : Report),
        full.run.shuffled[i]? = some x ∧ x.testClass.alice = "alice_" ++ name ∧
        x.tcfg.atype = atype ∧ x.signallingOnly = so ∧
        full.suite.subtests[i]? = some y ∧ y.st.report = some r ∧ r.rval = 0 ∧
        (name ∉ full.run.common.testsMightfail → Carried x.testClass x.tcfg r.log)

/-- Every INVITE that Bob has not asked credentials for has gone as it is to go. -/
def BobCalls : Prop :=
  ∀ (i : Nat) (p : Setup), (invitesOf full.bobActs)[i]? = some p → p.challenged = false →
    ∃ (y : Sys) (r : Report), full.bob.subtests[i]? = some y ∧ y.st.report = some r ∧
      r.rval = 0 ∧ (p.named = false → Served p.scn r.log)

theorem modesAsked_aliceOpts (env : Env) (flags : List (String × String)) :
    modesAsked (aliceOpts env flags) = modesAsked flags := by
  have hno : [("-t", testSet env)].any (fun oa => oa.1 = "-s") = false := rfl
  rw [modesAsked, aliceOpts, List.any_append, hno, Bool.or_false, modesAsked]

theorem allPassed_iff (hdry : dryRun full.run.flags = false) :
    full.AllPassed ↔ full.run.alice.ledger.Green ∧ full.run.bob.ledger.Green := by
  have hsuite : full.suite.core.loop ≠ .looping := full.suiteCore ▸ full.run.aliceEnd hdry
  have hbob : full.bob.core.loop ≠ .looping := full.bobCore ▸ full.run.bobEnd
  rw [AllPassed, ← Suite.rval_eq_zero_iff full.opened full.suiteRun hsuite,
    ← Bob.rval_eq_zero_iff full.bobRun hbob, ← full.suiteCore, ← full.bobCore,
    rval_eq_zero_iff full.run.aliceRun (full.run.aliceEnd hdry),
    rval_eq_zero_iff full.run.bobRun full.run.bobEnd]

theorem aliceCalls (h : full.AllPassed) : full.AliceCalls := by
  intro name hname atype hatype so hso
  have hreq := requested_aliceOpts env full.run.flags
  have hknown : Known name := allKnown_testSet env name hname
  obtain ⟨i, x, hx, halice, hfam, hmode⟩ := exists_shuffled full.run.scheduled full.run.perm
    (hreq ▸ hname) hknown (by rwa [familiesAsked_aliceOpts]) (by rwa [modesAsked_aliceOpts])
  have hx' : (full.created.map Prod.fst)[i]? = some x := full.shuffled ▸ hx
  have hi : i < full.created.length := by simpa using (List.getElem?_eq_some_iff.mp hx').1
  obtain ⟨y, r, hy, hr, hrval, hcarried⟩ :=
    Suite.carried_of_verdict full.opened full.suiteRun hx' halice (h.1 i hi)
  exact ⟨i, x, y, r, hx, halice, hfam, hmode, hy, hr, hrval, hcarried⟩

theorem bobCalls (h : full.AllPassed) : full.BobCalls := by
  intro i p hp hc
  obtain ⟨-, -, -, y, r, -, -, -, hy, hr, hrval, hserved⟩ :=
    Bob.served_of_not_owes full.bobRun hp hc (h.2 i)
  exact ⟨y, r, hy, hr, hrval, hserved⟩

end FullRun

namespace Sample

open VoipTests.Sample (enter proxied)

/-- The call is set up. -/
def setUp : List Act :=
  [enter (.event (.ring 180 "Ringing" none)), enter (.event (.connect 200 "OK" (some proxied))),
    enter .connected]

/-- Alice has a port to draw, and the UA is called. -/
def drawn (cb : Cb) : List Act :=
  [.enter ⟨cb, { VoipTests.Sample.env with draws := [.half] }⟩, .ret VoipTests.Sample.env]

/-- A re-INVITE of Alice's, and how it is answered. -/
def reinvited (cb : TimerCb) (ival : ℚ) (answer : CCEvent) : List Act :=
  drawn (.timer ⟨cb, ival⟩) ++ [enter (.event answer)]

/-- Bob ends the call. -/
def hungUp (duration : ℚ) : List Act :=
  [enter (.disconnected .callee ⟨duration, 1 / 2, decide (duration ≠ 0), true⟩), enter .dead]

/-- A call that goes as its scenario wants it. -/
def goesWell (scn : Scenario) : List Act :=
  let ok : CCEvent := .connect 200 "OK" (some proxied)
  match scn with
  | .earlyCancel | .earlyCancelLost100 => hungUp 0
  | .reinvite => setUp ++ reinvited .reinvite 7 ok ++ hungUp 10
  | .reinvFail => setUp ++ reinvited .reinvite (7 / 2) (.fail 408 "Nobody is Home") ++ hungUp 10
  | .reinvOnhold => setUp ++ reinvited .reinvite (7 / 2) ok ++
      reinvited .offHold (21 / 200) ok ++ reinvited .reinvite (21 / 200) ok ++
      reinvited .offHold (21 / 200) ok ++ reinvited .reinvite (21 / 200) ok ++ hungUp 10
  | .reinvFrombob => setUp ++ drawn (.event (.update (some proxied))) ++ hungUp 10
  | _ => if scn ∈ mustFail then [enter (.event (.fail 502 "Failure"))] ++ hungUp 0
      else setUp ++ hungUp 10

/-- The scheduled subtests, with what they find outside. -/
def created (atests : List ACfg) : List (ACfg × VoipTests.Env × List Act) :=
  atests.map fun x => (x, VoipTests.Sample.env, [.ret VoipTests.Sample.env])

theorem map_fst_created (atests : List ACfg) : (created atests).map Prod.fst = atests := by
  simp [created, Function.comp_def]

/-- All of them go well, one after the other. -/
def allWell (atests : List ACfg) : List SuiteAct :=
  atests.zipIdx.flatMap fun x => (goesWell x.1.testClass).map (.subtest x.2)

/-- Bob gets one call. -/
def oneCall : List BobAct :=
  [.invite (VoipTests.Sample.bob .t1 false)] ++ VoipTests.Sample.servedCall 0 ++ [.timeout]

end Sample

end VoipTests.Harness
