import VoipTests.Lib.Mro
import Mathlib.Data.Rat.Defs

/-!
# VoipTests.Subtest.Classes

The class hierarchy of `test_cases`: the root `test`, the mix-ins
`test_reinvite` and `test_early_cancel`, and one Alice and one Bob class for
each of the 26 scenarios.  Their method resolution orders are computed from
the bases the source lists (`PyClass.mro`), and their class attributes are
looked up along them.
-/

namespace VoipTests

/-! ## classes -/

/-- The scenarios: each has a class for Alice and one for Bob. -/
inductive Scenario where
  | t1 | t2 | t3 | t4 | t5 | t6 | t7 | t8 | t9 | t10 | t11 | t12 | t13 | t14
  | earlyCancel | earlyCancelLost100
  | reinvite | reinvFail | reinvBrkn1 | reinvBrkn2 | reinvOnhold | reinvAdelay | reinvFrombob
  | reinvBadAck
  | invBrkn1 | natedContact
  deriving DecidableEq, Repr

/-- The classes of `test_cases`: `a scn` is `a_test...`, `b scn` is `b_test...`. -/
inductive PyClass where
  | test
  | testReinvite
  | testEarlyCancel
  | a (scn : Scenario)
  | b (scn : Scenario)
  deriving DecidableEq, Repr

/-- `ALL_TESTS`, in the order of both cores. -/
def allTests : List Scenario :=
  [.t1, .t2, .t3, .t4, .t5, .t6, .t7, .t8, .t9, .t10, .t11, .t12, .t13, .t14,
    .earlyCancel, .earlyCancelLost100, .reinvite, .reinvFail, .reinvBrkn1, .reinvBrkn2,
    .reinvOnhold, .reinvAdelay, .reinvFrombob, .reinvBadAck, .invBrkn1, .natedContact]

theorem mem_allTests (scn : Scenario) : scn ∈ allTests := by
  cases scn <;> decide

/-- What the names of a scenario's two sides end in. -/
def Scenario.suffix : Scenario → String
  | .t1 => "1"
  | .t2 => "2"
  | .t3 => "3"
  | .t4 => "4"
  | .t5 => "5"
  | .t6 => "6"
  | .t7 => "7"
  | .t8 => "8"
  | .t9 => "9"
  | .t10 => "10"
  | .t11 => "11"
  | .t12 => "12"
  | .t13 => "13"
  | .t14 => "14"
  | .earlyCancel => "early_cancel"
  | .earlyCancelLost100 => "early_cancel_lost100"
  | .reinvite => "reinvite"
  | .reinvFail => "reinv_fail"
  | .reinvBrkn1 => "reinv_brkn1"
  | .reinvBrkn2 => "reinv_brkn2"
  | .reinvOnhold => "reinv_onhold"
  | .reinvAdelay => "reinv_adelay"
  | .reinvFrombob => "reinv_frombob"
  | .reinvBadAck => "reinv_bad_ack"
  | .invBrkn1 => "inv_brkn1"
  | .natedContact => "nated_contact"

/-- `cli` of an Alice class. -/
def Scenario.alice (scn : Scenario) : String := "alice_" ++ scn.suffix

/-- `cld` of an Alice class, which is `cli` of the Bob class. -/
def Scenario.bob (scn : Scenario) : String := "bob_" ++ scn.suffix

/-- The base classes of an Alice class. -/
def Scenario.aBases : Scenario → List PyClass
  | .t1 => [.test]
  | .t2 | .t3 | .t6 | .t11 | .t14 => [.a .t1]
  | .t4 | .t5 | .t8 => [.a .t3]
  | .t7 | .invBrkn1 => [.a .t2]
  | .t9 => [.a .t4]
  | .t10 => [.a .t5]
  | .t12 | .t13 => [.a .t11]
  | .earlyCancel => [.testEarlyCancel, .a .t1]
  | .earlyCancelLost100 => [.a .earlyCancel]
  | .reinvite | .reinvFrombob | .reinvBadAck => [.testReinvite, .a .t1]
  | .reinvFail | .reinvOnhold | .reinvAdelay => [.a .reinvite]
  | .reinvBrkn1 | .reinvBrkn2 => [.a .reinvFail]
  | .natedContact => [.a .reinvFrombob]

/-- The base classes of a Bob class. -/
def Scenario.bBases : Scenario → List PyClass
  | .t1 => [.test]
  | .t2 | .t3 | .t4 | .t6 | .t11 | .t14 => [.b .t1]
  | .t5 | .t7 | .t12 | .invBrkn1 => [.b .t2]
  | .t8 => [.b .t3]
  | .t9 => [.b .t4]
  | .t10 => [.b .t5]
  | .t13 => [.b .t12]
  | .earlyCancel => [.testEarlyCancel, .b .t1]
  | .earlyCancelLost100 => [.b .earlyCancel]
  | .reinvite | .reinvFrombob | .reinvBadAck => [.testReinvite, .b .t1]
  | .reinvFail | .reinvBrkn2 | .reinvOnhold | .reinvAdelay => [.b .reinvite]
  | .reinvBrkn1 => [.b .reinvFail]
  | .natedContact => [.b .reinvFrombob]

namespace PyClass

/-- The base classes, `object` left out. -/
def bases : PyClass → List PyClass
  | test => []
  | testReinvite => []
  | testEarlyCancel => [test]
  | a scn => scn.aBases
  | b scn => scn.bBases

/-- The method resolution order of a class. -/
def mro (cls : PyClass) : List PyClass := (Mro.linearize bases 6 cls).getD []

/-- Alice's side of a call. -/
def isAlice : PyClass → Bool
  | a _ => true
  | _ => false

end PyClass

/-! ## class attributes -/

namespace PyClass

/-- `disconnect_ival`; `None` is drawn at random by `b_test1.__init__`. -/
def ownDisconnectIval : PyClass → Option (Option ℚ)
  | a .t1 => some (some 9)
  | a .t14 => some (some 120)
  | a .reinvBadAck => some (some 50)
  | b .t1 => some none
  | b .t14 => some (some 120)
  | b .reinvite | b .reinvFrombob => some (some 16)
  | b .reinvBadAck => some (some 60)
  | _ => none

/-- `cancel_ival`. -/
def ownCancelIval : PyClass → Option (Option ℚ)
  | a .t1 => some none
  | a .earlyCancel => some (some (1 / 100))
  | _ => none

/-- `ring_ival`. -/
def ownRingIval : PyClass → Option ℚ
  | b .t1 => some 5
  | b .t12 => some 40
  | b .t13 | b .t14 | b .reinvite | b .reinvFrombob | b .reinvBadAck => some 1
  | _ => none

/-- `answer_ival`; `None` is drawn at random by `b_test1.__init__`. -/
def ownAnswerIval : PyClass → Option (Option ℚ)
  | b .t1 => some none
  | b .t11 | b .t13 => some (some 55)
  | b .t14 => some (some 2)
  | b .reinvite | b .reinvFrombob => some (some 5)
  | b .reinvBadAck => some (some 1)
  | _ => none

/-- `max_delay`. -/
def ownMaxDelay : PyClass → Option ℚ
  | testEarlyCancel => some (3 / 4)
  | b .earlyCancelLost100 => some 1
  | _ => none

/-- `reinv_answ_delay`. -/
def ownReinvAnswDelay : PyClass → Option ℚ
  | testReinvite => some 0
  | b .reinvAdelay => some (7 / 10)
  | _ => none

def disconnectIval (cls : PyClass) : Option ℚ := (Mro.attr ownDisconnectIval cls.mro).join
def cancelIval (cls : PyClass) : Option ℚ := (Mro.attr ownCancelIval cls.mro).join
def ringIval (cls : PyClass) : ℚ := (Mro.attr ownRingIval cls.mro).getD 0
def answerIval (cls : PyClass) : Option ℚ := (Mro.attr ownAnswerIval cls.mro).join
def maxDelay (cls : PyClass) : ℚ := (Mro.attr ownMaxDelay cls.mro).getD 0
def reinvAnswDelay (cls : PyClass) : ℚ := (Mro.attr ownReinvAnswDelay cls.mro).getD 0

end PyClass

end VoipTests
