import VoipTests.Subtest.Done

/-!
# VoipTests.Subtest.Create

How a subtest comes to life: the constructors, Alice's first INVITE, and
`answer`, by which Bob takes the INVITE that made the core create the object.
-/

namespace VoipTests

open M

/-! ## requests -/

/-- An `Authorization` header; `verify` is `none` when it raises `ValueError`. -/
structure Authorization where
  username : String
  verify : (password : String) → Option Bool

/-- What `answer` looks at in an INVITE. -/
structure Req where
  body : Option Sdp
  authorization : Option Authorization
  ruriHost : String

/-! ## constructors -/

/-- `get_reinvite_ival`, with the object's `disconnect_ival`. -/
def getReinviteIval (disconnectIval : ℚ) : List PyClass → ℚ
  | [] => 0
  | .a .reinvFail :: sup => getReinviteIval disconnectIval sup / 2
  | .a .reinvOnhold :: sup => getReinviteIval disconnectIval sup / 2
  | .a .reinvBadAck :: sup => getReinviteIval disconnectIval sup / 4
  | .testReinvite :: _ =>
    min disconnectIval ((PyClass.b .reinvite).disconnectIval.getD 0) - 2
  | _ :: sup => getReinviteIval disconnectIval sup

/-- `self.get_reinvite_ival()` -/
def Subtest.getReinviteIval (s : Subtest) : ℚ :=
  VoipTests.getReinviteIval (s.disconnectIval.getD 0) s.cls.mro

namespace ATest1

/-- The credentials of a UA are `None` before they are set. -/
def buildUa : M Unit :=
  modify fun s => { s with ua := { s.ua with
    created := true
    username := s.tccfg.uacCreds.map AuthCreds.username
    password := s.tccfg.uacCreds.map AuthCreds.password
    authEnalgs := s.tccfg.uacCreds.map AuthCreds.enalgs } }

end ATest1

namespace ATestNatedContact

def buildUa (sup : M Unit) : M Unit := do
  sup
  modify fun s => { s with expectedContactUri := some s.env.contactUri }

end ATestNatedContact

/-- `build_ua` -/
def buildUa : List PyClass → M Unit
  | [] => raise .attributeError
  | .a .natedContact :: sup => ATestNatedContact.buildUa (buildUa sup)
  | .a .t1 :: _ => ATest1.buildUa
  | _ :: sup => buildUa sup

namespace ATest1

def run (ev : CCEvent) : M Unit := do
  uaRecvEvent ev
  let s ← get
  if let some ival := s.cls.cancelIval then
    timeout .cancel ival

/-- The body of the first INVITE. -/
def localBody : M (Option Sdp) := do
  let s ← get
  if s.rtp.enabled then
    let body ← ofSome s.tccfg.body
    let laddr := s.env.laddr
    if bracketed s.tccfg.nhAddress.1 then
      let laddr := if bracketed laddr then unbracket laddr else laddr
      let body ← Test.rtpPrepareLocalSdp body laddr .ip6
      pure (some body)
    else
      let body ← Test.rtpPrepareLocalSdp body laddr .ip4
      pure (some body)
  else
    pure s.tccfg.body

def init (scn : Scenario) : M Unit := do
  Test.rtpInit
  let body ← localBody
  self VoipTests.buildUa
  let s ← get
  run (.ccTry (s.tccfg.cli.getD scn.alice) scn.bob body)

end ATest1

namespace BTest1

/-- The intervals the class leaves to chance. -/
def drawIvals : M Unit := do
  let s ← get
  if s.answerIval.isNone then
    let r ← random
    modify fun s => { s with answerIval := some (8 + r.val * 5) }
  if s.disconnectIval.isNone then
    let r ← random
    modify fun s => { s with disconnectIval := some (4 + r.val * 10) }

def init : M Unit := do
  Test.rtpInit
  drawIvals

end BTest1

/-- `0.1 + (random() * 0.5)` -/
def Draw.sched (r : Draw) : ℚ := 1 / 10 + r.val / 2

namespace ATestReinvOnhold

/-- The loop that draws `sched` until the sequence fits into the call. -/
def drawSched (limit : ℚ) : List Draw → Option (List ℚ × List Draw)
  | r₁ :: r₂ :: r₃ :: r₄ :: rest =>
    let sched := [r₁, r₂, r₃, r₄].map Draw.sched
    if sched.sum < limit then some (sched, rest) else drawSched limit rest
  | _ => none

def init (sup : M Unit) : M Unit := do
  let s ← get
  let bob := PyClass.b .reinvOnhold
  let limit := bob.ringIval + bob.answerIval.getD 0 + s.getReinviteIval - s.disconnectIval.getD 0
  match drawSched limit s.env.draws with
  | none => fun _ => .spin
  | some (sched, rest) =>
    modify fun s => { s with sched := sched, env := { s.env with draws := rest } }
    sup

end ATestReinvOnhold

namespace ATestReinvite

def init (sup : M Unit) : M Unit := do
  modify fun s => { s with reinviteIval := some s.getReinviteIval }
  sup

end ATestReinvite

namespace ATestReinvBadAck

def init (sup : M Unit) : M Unit := do
  modify fun s => { s with reinviteIval := some 1 }
  sup

end ATestReinvBadAck

namespace BTestReinvFrombob

def init (sup : M Unit) : M Unit := do
  let s ← get
  let ival := min (s.disconnectIval.getD 0) ((PyClass.a .reinvFrombob).disconnectIval.getD 0) - 2
  modify fun s => { s with reinviteIval := some ival }
  sup

end BTestReinvFrombob

namespace ATestEarlyCancel

def init (sup : M Unit) : M Unit := do
  modify fun s => { s with tccfg := { s.tccfg with uacCreds := none } }
  sup

end ATestEarlyCancel

namespace BTestEarlyCancel

def init (sup : M Unit) : M Unit := do
  modify fun s => { s with tccfg := { s.tccfg with uasCreds := none } }
  sup

end BTestEarlyCancel

/-- The `__init__` of `t13` and `t14`. -/
def rtpOff (sup : M Unit) : M Unit := do
  sup
  Test.modifyRtp fun rtp => { rtp with enabled := false }

/-- `__init__` of an object of a class of the scenario. -/
def init (scn : Scenario) : List PyClass → M Unit
  | [] => pure ()
  | .a .t13 :: sup => rtpOff (init scn sup)
  | .a .t14 :: sup => rtpOff (init scn sup)
  | .b .t13 :: sup => rtpOff (init scn sup)
  | .b .t14 :: sup => rtpOff (init scn sup)
  | .a .earlyCancel :: sup => ATestEarlyCancel.init (init scn sup)
  | .b .earlyCancel :: sup => BTestEarlyCancel.init (init scn sup)
  | .a .reinvite :: sup => ATestReinvite.init (init scn sup)
  | .a .reinvOnhold :: sup => ATestReinvOnhold.init (init scn sup)
  | .a .reinvBadAck :: sup => ATestReinvBadAck.init (init scn sup)
  | .b .reinvFrombob :: sup => BTestReinvFrombob.init (init scn sup)
  | .a .t1 :: _ => ATest1.init scn
  | .b .t1 :: _ => BTest1.init
  | _ :: sup => init scn sup

/-! ## answering the INVITE -/

namespace BTest1

/-- The part of `answer` that deals with `uas_creds`. -/
def authenticate (req : Req) : M Unit := do
  let s ← get
  match s.tccfg.uasCreds with
  | none => pure ()
  | some creds =>
    let realm := creds.realm.getD req.ruriHost
    match req.authorization with
    | none => raise (.authRequired (creds.enalgs.map fun alg => (alg, realm)))
    | some auth =>
      if auth.username ≠ creds.username then
        raise .authFailed
      if auth.verify creds.password ≠ some true then
        raise .authFailed

end BTest1

namespace TestReinvite

def completeAnswer (sup : M Unit) : M Unit := do
  sup
  let s ← get
  if let some ival := s.reinviteIval then
    timeout .reinvite ival

end TestReinvite

/-- `complete_answer` -/
def completeAnswer : List PyClass → M Unit
  | [] => raise .attributeError
  | .testReinvite :: sup => TestReinvite.completeAnswer (completeAnswer sup)
  | .b .t1 :: _ => uaRecvRequest
  | _ :: sup => completeAnswer sup

namespace BTest1

def answer (body : Sdp) (req : Req) : M Unit := do
  modify fun s => s.note (.invite req.body)
  let s ← get
  if !(s.connectDone || s.disconnectDone) then
    let inBody ← ofSome req.body
    Test.checkMedia inBody
    authenticate req
    assert s.rtp.inited
    modify fun s => { s with ua := { s.ua with created := true } }
    timeout .ring s.cls.ringIval
    modify fun s => { s with body := some body }
    self completeAnswer

end BTest1

/-! ## the core's part -/

/-- Which core creates the object: Bob's passes the body it has filled and the
INVITE to `answer`. -/
inductive Side where
  | alice
  | bob (body : Sdp) (req : Req)

/-- The class of a scenario for one side. -/
def Side.cls (scn : Scenario) : Side → PyClass
  | alice => .a scn
  | bob _ _ => .b scn

/-- What the core does with the class of a scenario. -/
def create (scn : Scenario) (side : Side) : M Unit := do
  self (init scn)
  modify fun s => { s with mightfail := s.named }
  match side with
  | .alice => pure ()
  | .bob body req => BTest1.answer body req

end VoipTests
