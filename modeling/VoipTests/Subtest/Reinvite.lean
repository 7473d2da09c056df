import VoipTests.Subtest.Call

/-!
# VoipTests.Subtest.Reinvite

The re-INVITE scenarios: the mix-in `test_reinvite`, which starts re-INVITEs
and answers them, and the classes that override parts of it.

`recvEvent` stands last: what it does with an event depends on whether a
re-INVITE of our own is in progress, and on the overrides before it.
-/

namespace VoipTests

open M

/-! ## starting a re-INVITE -/

/-- The loop that gives every section with a checked transport a new port. -/
def alterPorts : List Section → M (List Section)
  | [] => pure []
  | sect :: sects =>
    if !sect.relevant then do
      let sects ← alterPorts sects
      pure (sect :: sects)
    else do
      let portn ← Test.rtpPortAlloc
      let sects ← alterPorts sects
      pure (sect.setPort portn :: sects)

/-- `ua.lSDP = sdp_body` -/
def setLSDP (sdp : Sdp) : M Unit := modify fun s => { s with ua := { s.ua with lSDP := some sdp } }

/-- `ua.lSDP = sdp_body_bak` -/
def restoreLSDP (sdp : Sdp) : M Unit :=
  modify fun s => { s with ua := { s.ua with lSDP := some sdp } }.note .restored

namespace TestReinvite

def reinvite (alterPort : Bool) : M Unit := do
  let s ← get
  if s.connectDone && !s.disconnectDone then
    let lSDP ← ofSome s.ua.lSDP
    let sections ← if alterPort then alterPorts lSDP.sections else pure lSDP.sections
    modify fun s => { s with reinviteInProgress := true }
    uaRecvEvent (.update (some { lSDP with sections := sections }.bumpVersion))

end TestReinvite

namespace ATestReinvBrkn2

def reinvite (sup : M Unit) : M Unit := do
  let s ← get
  if s.connectDone && !s.disconnectDone then
    let bak ← ofSome s.ua.lSDP
    setLSDP (bak.mapSections fun sect => { sect with cHeader := none })
    sup
    restoreLSDP bak

end ATestReinvBrkn2

/-- The loop of `a_test_reinv_onhold.reinvite`; it stops where a section has
no `c=` header, and says whether it came to its end.  The `while` in it is never
entered: `'sendrecv'` is a string, and what is in `a_headers` are header objects. -/
def putOnHold (addr : String) : List Section → List Section × Bool
  | [] => ([], true)
  | sect :: sects => match sect.cHeader with
    | none => (sect :: sects, false)
    | some c =>
      let (sects, done) := putOnHold addr sects
      ({ sect with cHeader := some { c with addr := addr } } :: sects, done)

namespace ATestReinvOnhold

def reinvite (sup : M Unit) : M Unit := do
  let s ← get
  if s.connectDone && !s.disconnectDone then
    let bak ← ofSome s.ua.lSDP
    let (sections, done) := putOnHold (if s.tccfg.atype = .ip4 then "0.0.0.0" else "::") bak.sections
    setLSDP { bak with sections := sections }
    if !done then
      raise .attributeError
    sup
    addHeld true
    restoreLSDP bak

end ATestReinvOnhold

namespace ATestReinvAdelay

def reinvite (sup : M Unit) : M Unit := do
  sup
  timeout .disconnect ((PyClass.b .reinvAdelay).reinvAnswDelay / 2)

end ATestReinvAdelay

namespace ATestReinvBadAck

def reinvite (sup : M Unit) : M Unit := do
  sup
  let s ← get
  if s.connectDone && !s.disconnectDone then
    -- `ua.tr.uack = True`
    if !s.env.trOk then
      raise .outside

end ATestReinvBadAck

/-- `reinvite` -/
def reinvite (alterPort : Bool) : List PyClass → M Unit
  | [] => raise .attributeError
  | .a .reinvBrkn2 :: sup => ATestReinvBrkn2.reinvite (reinvite true sup)
  | .a .reinvOnhold :: sup => ATestReinvOnhold.reinvite (reinvite false sup)
  | .a .reinvAdelay :: sup => ATestReinvAdelay.reinvite (reinvite alterPort sup)
  | .a .reinvBadAck :: sup => ATestReinvBadAck.reinvite (reinvite alterPort sup)
  | .testReinvite :: _ => TestReinvite.reinvite alterPort
  | _ :: sup => reinvite alterPort sup

namespace ATestReinvOnhold

/-- `off_hold`: the `reinvite` of `a_test_reinvite`, whatever the object. -/
def offHold : M Unit := do
  VoipTests.reinvite false (PyClass.a .reinvite).mro
  addHeld false

end ATestReinvOnhold

/-- `off_hold` -/
def offHold : List PyClass → M Unit
  | [] => raise .attributeError
  | .a .reinvOnhold :: _ => ATestReinvOnhold.offHold
  | _ :: sup => offHold sup

/-! ## the outcome of a re-INVITE -/

namespace ATestReinvOnhold

def onReinviteConnected (sup : M Unit) : M Unit := do
  let s ← get
  match s.sched.getLast? with
  | none => pure ()
  | some ival =>
    modify fun s => { s with sched := s.sched.dropLast }
    timeout (if s.onholdCount > s.offholdCount then .offHold else .reinvite) ival
  sup

end ATestReinvOnhold

namespace ATestReinvBadAck

/-- `ua.global_config['_sip_tm'].sendACK(ua.tr)` -/
def sendACK : M Unit := do
  let s ← get
  if !s.env.trOk then
    raise .outside

def onReinviteConnected : M Unit := sendACK

def onReinviteFailed (ev : CCEvent) (sup : M Unit) : M Unit := do
  if let .fail .. := ev then
    sendACK
  sup

end ATestReinvBadAck

namespace ATestNatedContact

def onReinviteConnected (sup : M Unit) : M Unit := do
  sup
  let s ← get
  if s.ua.lastInDialogInviteRuri ≠ s.expectedContactUri then
    addErr

end ATestNatedContact

/-- `on_reinvite_connected` -/
def onReinviteConnected : List PyClass → M Unit
  | [] => raise .attributeError
  | .a .reinvOnhold :: sup => ATestReinvOnhold.onReinviteConnected (onReinviteConnected sup)
  | .a .reinvBadAck :: _ => ATestReinvBadAck.onReinviteConnected
  | .a .natedContact :: sup => ATestNatedContact.onReinviteConnected (onReinviteConnected sup)
  | .testReinvite :: _ => pure ()
  | _ :: sup => onReinviteConnected sup

/-- `on_reinvite_failed` -/
def onReinviteFailed (ev : CCEvent) : List PyClass → M Unit
  | [] => raise .attributeError
  | .a .reinvBadAck :: sup => ATestReinvBadAck.onReinviteFailed ev (onReinviteFailed ev sup)
  | .testReinvite :: _ => addErr
  | _ :: sup => onReinviteFailed ev sup

/-! ## answering a re-INVITE -/

namespace TestReinvite

/-- `_process_reinvite` -/
def answerReinvite : M Unit := do
  let s ← get
  let lSDP ← ofSome s.ua.lSDP
  let sections ← alterPorts lSDP.sections
  uaRecvEvent (.connect 200 "OK" (some { lSDP with sections := sections }.bumpVersion))

def processReinvite : M Unit := do
  let s ← get
  if s.cls.reinvAnswDelay > 0 then
    timeout .processReinvite s.cls.reinvAnswDelay
  else
    answerReinvite

end TestReinvite

/-- `process_reinvite` and `_process_reinvite`, which no class overrides. -/
def processReinvite : List PyClass → M Unit
  | [] => raise .attributeError
  | .testReinvite :: _ => TestReinvite.processReinvite
  | _ :: sup => processReinvite sup

/-! ## events -/

namespace TestReinvite

def recvEvent (ev : CCEvent) (sup : M Unit) : M Unit := do
  if ev.isUpdate then
    self VoipTests.processReinvite
    modify fun s => { s with nupdates := s.nupdates + 1 }
  else
    let s ← get
    if !s.reinviteInProgress then
      sup
    else
      if ev.isConnect then
        modify fun s => { s with reinviteInProgress := false }
      else if ev.isFailure then
        addErr
      sup
      if ev.isConnect then
        modify fun s => { s with reinviteDone := true }
        self onReinviteConnected
      else if ev.isFailure then
        self (onReinviteFailed ev)

end TestReinvite

namespace ATestReinvFail

def recvEvent (ev : CCEvent) (sup : M Unit) : M Unit := do
  let s ← get
  if s.reinviteInProgress && !ev.isRing then
    if !ev.isFailure then
      addErr
      raise (.valueError "re-INVITE has NOT failed")
    modify fun s => { s with reinviteInProgress := false, reinviteDone := true }
  else
    sup

end ATestReinvFail

namespace BTestReinvFail

def recvEvent (ev : CCEvent) (sup : M Unit) : M Unit :=
  if !ev.isUpdate then sup
  else uaRecvEvent (.fail 408 "Nobody is Home")

end BTestReinvFail

/-- The loop of `b_test_reinv_brkn1.recvEvent`. -/
def dropMedia : List Section → M (List Section)
  | [] => pure []
  | sect :: sects =>
    if !sect.relevant then do
      let sects ← dropMedia sects
      pure (sect :: sects)
    else do
      let portn ← Test.rtpPortAlloc
      let sects ← dropMedia sects
      pure ({ sect.setPort portn with cHeader := none } :: sects)

namespace BTestReinvBrkn1

def recvEvent (ev : CCEvent) (sup : M Unit) : M Unit := do
  if !ev.isUpdate then
    sup
  else
    let s ← get
    let lSDP ← ofSome s.ua.lSDP
    let sections ← dropMedia lSDP.sections
    uaRecvEvent (.connect 200 "OK" (some { lSDP with sections := sections }.bumpVersion))
    modify fun s => { s with nupdates := s.nupdates + 1 }

end BTestReinvBrkn1

namespace BTestReinvOnhold

def recvEvent (ev : CCEvent) (sup : M Unit) : M Unit := do
  if ev.isUpdate then
    let s ← get
    let sdp ← ofSome ev.body
    -- Every section overwrites `onhold`, so the last one counts.
    let onhold ← ofSome (sdp.sections.foldlM (fun _ sect => s.env.isOnHold sect) false)
    addHeld onhold
  sup

end BTestReinvOnhold

namespace ATestInvBrkn1

def recvEvent (ev : CCEvent) (sup : M Unit) : M Unit := do
  match ev with
  | .ccTry .. => sup
  | .ring 100 _ _ => sup
  | _ =>
    let s ← get
    if s.connectDone || !ev.isFailure then
      addErr
      raise (.valueError "INVITE has NOT failed")
    sup

end ATestInvBrkn1

/-- `recvEvent` -/
def recvEvent (ev : CCEvent) : List PyClass → M Unit
  | [] => raise .attributeError
  | .a .reinvFail :: sup => ATestReinvFail.recvEvent ev (recvEvent ev sup)
  | .b .reinvFail :: sup => BTestReinvFail.recvEvent ev (recvEvent ev sup)
  | .b .reinvBrkn1 :: sup => BTestReinvBrkn1.recvEvent ev (recvEvent ev sup)
  | .b .reinvOnhold :: sup => BTestReinvOnhold.recvEvent ev (recvEvent ev sup)
  | .a .invBrkn1 :: sup => ATestInvBrkn1.recvEvent ev (recvEvent ev sup)
  | .testReinvite :: sup => TestReinvite.recvEvent ev (recvEvent ev sup)
  | .a .t1 :: _ => ATest1.recvEvent ev
  | .b .t1 :: _ => BTest1.recvEvent ev
  | _ :: sup => recvEvent ev sup

end VoipTests
