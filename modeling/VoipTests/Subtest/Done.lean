import VoipTests.Subtest.Reinvite

/-!
# VoipTests.Subtest.Done

The end of a subtest: `alldone`, which leaves the verdict in `rval`, and
`done`, which reports it to the core.
-/

namespace VoipTests

open M

namespace Test

/-- `done`; the last step is `self.tccfg.done_cb(self)`. -/
def done : M Unit := do
  let s ← get
  assert s.rtp.inited
  assert (!s.doneCalled)
  modify fun s => { s with doneCalled := true }
  if !s.tccfg.signallingOnly then
    reportRtp
  modify fun s => { s with report := some ⟨s.rval, s.log⟩ }

/-- The `alldone` of a class with its own condition for a pass. -/
def passIf (cond : Subtest → Bool) : M Unit := do
  let s ← get
  if cond s then
    modify fun s => { s with rval := 0 }
  done

def alldone : M Unit := do
  let s ← get
  if s.ringDone && s.connectDone && s.disconnectDone && s.nerrs = 0 then
    modify fun s => { s with rval := 0 }
  else
    if !s.finfoDisplayed then
      modify fun s => { s with finfoDisplayed := true }
    if s.mightfail then
      modify fun s => { s with rval := 0 }
  done

end Test

namespace ATest3

def alldone : M Unit := Test.passIf fun s => s.disconnectDone && s.nerrs = 0

end ATest3

namespace ATest11

def alldone : M Unit :=
  Test.passIf fun s => !s.connectDone && s.disconnectDone && s.nerrs = 0

end ATest11

namespace BTest11

def alldone : M Unit :=
  Test.passIf fun s => s.ringDone && !s.connectDone && s.disconnectDone && s.nerrs = 0

end BTest11

namespace BTest12

def alldone : M Unit :=
  Test.passIf fun s => !s.ringDone && !s.connectDone && s.disconnectDone && s.nerrs = 0

end BTest12

namespace BTest13

def alldone : M Unit :=
  Test.passIf fun s => s.ringDone && !s.connectDone && s.disconnectDone && s.nerrs = 0

end BTest13

namespace ATestInvBrkn1

def alldone : M Unit := Test.passIf fun s => s.disconnectDone && s.nerrs = 0

end ATestInvBrkn1

namespace BTestInvBrkn1

def alldone : M Unit :=
  Test.passIf fun s => s.ringDone && !s.connectDone && s.disconnectDone && s.nerrs = 0

end BTestInvBrkn1

/-- `round(q, 1)`: ties go to the even digit. -/
def round1 (q : ℚ) : ℚ :=
  let n := ⌊10 * q⌋
  let rest := 10 * q - n
  if rest < 1 / 2 ∨ rest = 1 / 2 ∧ n % 2 = 0 then n / 10 else (n + 1) / 10

namespace TestEarlyCancel

/-- The test that `alldone` makes of the account. -/
def cancelled (maxDelay : ℚ) (acct : Acct) : Bool :=
  acct.duration = 0 && !acct.connected && acct.disconnected && round1 acct.delay ≤ maxDelay

def alldone (sup : M Unit) : M Unit := do
  let s ← get
  if s.disconnectDone then
    match s.acct with
    | none => raise .typeError
    | some acct =>
      if cancelled s.cls.maxDelay acct then
        modify fun s => { s with ringDone := true }
        setConnectDone
      else
        addErr
  else
    addErr
  sup

end TestEarlyCancel

namespace TestReinvite

def alldone (sup : M Unit) : M Unit := do
  let s ← get
  if s.reinviteIval.isSome && (!s.reinviteDone || !s.disconnectDone) then
    addErr
  sup

end TestReinvite

namespace BTestReinvOnhold

def alldone (sup : M Unit) : M Unit := do
  let s ← get
  if s.onholdCount ≠ 3 ∨ s.offholdCount ≠ 2 then
    modify fun s => { s with finfoDisplayed := true }
    addErr
  sup

end BTestReinvOnhold

/-- `alldone` -/
def alldone : List PyClass → M Unit
  | [] => raise .attributeError
  | .a .t3 :: _ => ATest3.alldone
  | .a .t11 :: _ => ATest11.alldone
  | .b .t11 :: _ => BTest11.alldone
  | .b .t12 :: _ => BTest12.alldone
  | .b .t13 :: _ => BTest13.alldone
  | .a .invBrkn1 :: _ => ATestInvBrkn1.alldone
  | .b .invBrkn1 :: _ => BTestInvBrkn1.alldone
  | .b .reinvOnhold :: sup => BTestReinvOnhold.alldone (alldone sup)
  | .testEarlyCancel :: sup => TestEarlyCancel.alldone (alldone sup)
  | .testReinvite :: sup => TestReinvite.alldone (alldone sup)
  | .test :: _ => Test.alldone
  | _ :: sup => alldone sup

end VoipTests
