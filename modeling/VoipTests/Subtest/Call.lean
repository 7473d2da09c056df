import VoipTests.Subtest.Rtp

/-!
# VoipTests.Subtest.Call

Setting up and tearing down the call: the timers and callbacks of `a_test1`,
`b_test1` and of the classes that override them.

A method is a recursion over a method resolution order.  `super()` is the
rest of the list, and so is a base class that is named in the call: in a
hierarchy without a second mix-in that is the same method.  A class that does
not define the method hands over to the rest.
-/

namespace VoipTests

open M

namespace Test

/-- `cres, why = self.tccfg.checkhostport(sdp_body)`, and what both sides do
about the result. -/
def checkMedia (sdp : Sdp) : M Unit := do
  let s ← get
  match s.tccfg.checkhostport sdp with
  | none => raise .attributeError
  | some (cres, why) =>
    if !cres then
      addErr
      raise (.sdpValidationFailure why)

/-- The body of `a_test1.disconnect` and `b_test1.disconnect`. -/
def hangUp : M Unit := do
  let s ← get
  if !s.disconnectDone then
    uaRecvEvent .disconnect

end Test

/-! ## Alice -/

namespace ATest1

/-- The part of `recvEvent` that deals with the body of an event. -/
def recvMedia (ev : CCEvent) : M Unit :=
  match ev with
  | .ring _ _ sdp | .connect _ _ sdp | .preConnect _ _ sdp =>
    if !(ev.isRing && sdp.isNone) then do
      let sdp ← ofSome sdp
      Test.checkMedia sdp
      Test.rtpStartOrUpdate sdp
    else pure ()
  | _ => pure ()

def recvEvent (ev : CCEvent) : M Unit := do
  let s ← get
  if ev.isRing && !s.ringDone then
    modify fun s => { s with ringDone := true }
  recvMedia ev

def connected : M Unit := do
  let s ← get
  timeout .disconnect (s.disconnectIval.getD 0)
  setConnectDone

def disconnect : M Unit := Test.hangUp

def cancel : M Unit := do
  let s ← get
  if !(s.connectDone || s.disconnectDone) then
    uaRecvEvent .disconnect

def disconnected (origin : Origin) (acct : Acct) : M Unit := do
  if origin ∈ [Origin.switch, .callee] then
    setDisconnectDone
  modify fun s => { s with acct := some acct }

end ATest1

namespace TestReinvite

def connected (sup : M Unit) : M Unit := do
  sup
  let s ← get
  if let some ival := s.reinviteIval then
    timeout .reinvite ival

end TestReinvite

/-- `connected` -/
def connected : List PyClass → M Unit
  | [] => raise .attributeError
  | .testReinvite :: sup => TestReinvite.connected (connected sup)
  | .a .t1 :: _ => ATest1.connected
  | _ :: sup => connected sup

/-! ## Bob -/

namespace BTest1

/-- `_make_media_answer` -/
def makeMediaAnswer (sdp : Option Sdp) : M (Option Sdp) := do
  let s ← get
  assert sdp.isSome
  let sdp ← ofSome sdp
  if s.rtp.enabled then
    let body ← ofSome s.body
    Test.rtpStartOrUpdate sdp
    let s ← get
    let ep ← ofSome s.rtp.ep
    pure (some (body.applyLocalMedia ep.laddr ep.lport ep.proto))
  else
    pure s.body

def ring : M Unit := do
  let s ← get
  if !(s.connectDone || s.disconnectDone) then
    timeout .connect (s.answerIval.getD 0)
    uaRecvEvent (.ring 180 "Ringing" none)
    modify fun s => { s with ringDone := true }

def connect : M Unit := do
  let s ← get
  if !(s.connectDone || s.disconnectDone) then
    let body ← makeMediaAnswer s.env.rSDP
    timeout .disconnect (s.disconnectIval.getD 0)
    uaRecvEvent (.connect 200 "OK" body)
    setConnectDone

def disconnect : M Unit := Test.hangUp

def recvEvent (_ev : CCEvent) : M Unit := pure ()

def disconnected (origin : Origin) (acct : Acct) : M Unit := do
  if origin ∈ [Origin.switch, .caller] then
    setDisconnectDone
  modify fun s => { s with acct := some acct }

end BTest1

namespace BTest2

def ring : M Unit := do
  let s ← get
  if !(s.connectDone || s.disconnectDone) then
    let body ← BTest1.makeMediaAnswer s.env.rSDP
    timeout .connect (s.answerIval.getD 0)
    uaRecvEvent (.ring 183 "Session Progress" body)
    modify fun s => { s with ringDone := true }

end BTest2

namespace BTest3

-- `disconnect_done` is not looked at: the guard names `connect_done` twice.
def connect : M Unit := do
  let s ← get
  if !(s.connectDone || s.connectDone) then
    uaRecvEvent (.fail 501 "Post-ring Failure")
    setConnectDone

end BTest3

namespace BTest4

def ring : M Unit := do
  let s ← get
  if !(s.connectDone || s.disconnectDone) then
    uaRecvEvent (.fail 502 "Pre-ring Failure")
    modify fun s => { s with ringDone := true }
    setConnectDone

end BTest4

namespace BTest5

def connect : M Unit := do
  let s ← get
  if !(s.connectDone || s.disconnectDone) then
    uaRecvEvent (.fail 503 "Post-early-session Failure")
    setConnectDone

end BTest5

/-- The loop of `cripple_body`, with `p_incr` as it goes. -/
def crippleSections (pIncr : Int) : List Section → List Section × Int
  | [] => ([], pIncr)
  | sect :: sects =>
    if !sect.relevant then
      let (sects, pIncr) := crippleSections pIncr sects
      (sect :: sects, pIncr)
    else
      let p := if sect.mHeader.port + pIncr ≤ 0 then -pIncr else pIncr
      let (sects, pIncr) := crippleSections (-p) sects
      ({ sect.setPort (sect.mHeader.port + p) with cHeader := none } :: sects, pIncr)

/-- `cripple_body` -/
def crippleBody (sdp : Sdp) : M Sdp := do
  let s ← get
  let (sections, pIncr) := crippleSections s.pIncr sdp.sections
  modify fun s => { s with pIncr := pIncr }
  pure { sdp with sections := sections }.bumpVersion

namespace BTestInvBrkn1

def ring (sup : M Unit) : M Unit := do
  let s ← get
  if !(s.connectDone || s.disconnectDone) then
    let body ← ofSome s.body
    let body ← crippleBody body
    modify fun s => { s with body := some body }
    sup

end BTestInvBrkn1

/-- `ring` -/
def ring : List PyClass → M Unit
  | [] => raise .attributeError
  | .b .invBrkn1 :: sup => BTestInvBrkn1.ring (ring sup)
  | .b .t4 :: _ => BTest4.ring
  | .b .t2 :: _ => BTest2.ring
  | .b .t1 :: _ => BTest1.ring
  | _ :: sup => ring sup

/-- `connect` -/
def connect : List PyClass → M Unit
  | [] => raise .attributeError
  | .b .t5 :: _ => BTest5.connect
  | .b .t3 :: _ => BTest3.connect
  | .b .t1 :: _ => BTest1.connect
  | _ :: sup => connect sup

/-! ## both sides -/

/-- `cancel` -/
def cancel : List PyClass → M Unit
  | [] => raise .attributeError
  | .a .t1 :: _ => ATest1.cancel
  | _ :: sup => cancel sup

/-- `disconnected` -/
def disconnected (origin : Origin) (acct : Acct) : List PyClass → M Unit
  | [] => raise .attributeError
  | .a .t1 :: _ => ATest1.disconnected origin acct
  | .b .t1 :: _ => BTest1.disconnected origin acct
  | _ :: sup => disconnected origin acct sup

namespace ATestReinvOnhold

def disconnect (sup : M Unit) : M Unit := do
  let s ← get
  if !s.disconnectDone then
    if s.onholdCount ≠ 3 ∨ s.offholdCount ≠ 2 then
      timeout .disconnect 1
    else
      sup

end ATestReinvOnhold

namespace ATestReinvBadAck

def disconnect (sup : M Unit) : M Unit := do
  let s ← get
  if !s.disconnectDone then
    addErr
    raise (.valueError "The call was not interrupted early.")
  sup

end ATestReinvBadAck

/-- `disconnect` -/
def disconnect : List PyClass → M Unit
  | [] => raise .attributeError
  | .a .reinvOnhold :: sup => ATestReinvOnhold.disconnect (disconnect sup)
  | .a .reinvBadAck :: sup => ATestReinvBadAck.disconnect (disconnect sup)
  | .a .t1 :: _ => ATest1.disconnect
  | .b .t1 :: _ => BTest1.disconnect
  | _ :: sup => disconnect sup

end VoipTests
