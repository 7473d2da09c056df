import VoipTests.Lib.Callback
import VoipTests.Subtest.Classes
import VoipTests.TestConfig

/-!
# VoipTests.Subtest.State

A subtest object and what goes in and out of it.

`Subtest` holds the attributes of the Python object, of its UA as far as the
scenarios touch it, and of its RTP endpoint.  Two things are added for the
proofs and never read by the code: `log`, the chronicle of what the subtest
has received, done and injected (`Obs`), and `report`, the verdict `done()`
handed to the core with the chronicle as it then was.

What the code finds outside (draws, endpoints, the transaction manager) is an
`Env`: a new one at every entry and at every return from the UA.
-/

namespace VoipTests

/-! ## events -/

/-- The `origin` argument of the `connected` and `disconnected` callbacks. -/
inductive Origin where
  | switch
  | caller
  | callee
  | other (w : String)
  deriving DecidableEq, Repr

/-- `ua.getAcct()`. -/
structure Acct where
  duration : ℚ
  delay : ℚ
  connected : Bool
  disconnected : Bool
  deriving DecidableEq, Repr

/-- `sippy.CCEvents`, with what `getData()` returns as far as it is used. -/
inductive CCEvent where
  | ccTry (cli cld : String) (body : Option Sdp)
  | ring (code : Nat) (reason : String) (body : Option Sdp)
  | preConnect (code : Nat) (reason : String) (body : Option Sdp)
  | connect (code : Nat) (reason : String) (body : Option Sdp)
  | update (body : Option Sdp)
  | fail (code : Nat) (reason : String)
  | disconnect
  /-- `CCEventRedirect`, `CCEventInfo`. -/
  | other
  deriving DecidableEq, Repr

namespace CCEvent

/-- The SDP body an event carries. -/
def body : CCEvent → Option Sdp
  | ccTry _ _ b => b
  | ring _ _ b => b
  | preConnect _ _ b => b
  | connect _ _ b => b
  | update b => b
  | _ => none

/-- `isinstance(event, CCEventRing)` -/
def isRing : CCEvent → Bool
  | ring .. => true
  | _ => false

/-- `isinstance(event, CCEventConnect)` -/
def isConnect : CCEvent → Bool
  | connect .. => true
  | _ => false

/-- `isinstance(event, CCEventUpdate)` -/
def isUpdate : CCEvent → Bool
  | update _ => true
  | _ => false

/-- `isinstance(event, (CCEventFail, CCEventDisconnect))` -/
def isFailure : CCEvent → Bool
  | fail .. => true
  | disconnect => true
  | _ => false

end CCEvent

/-- The exceptions that leave a callback. -/
inductive Exc where
  | sdpValidationFailure (why : Why)
  | valueError (msg : String)
  | attributeError
  | assertionError
  | typeError
  /-- `AuthRequired`, with the algorithm and realm of each challenge. -/
  | authRequired (challenges : List (Option String × String))
  | authFailed
  /-- Raised by the SIP or RTP library. -/
  | outside
  deriving DecidableEq, Repr

/-! ## what is found outside -/

/-- What the code finds outside while it runs to its next call of the UA. -/
structure Env where
  /-- `random()`. -/
  draws : List Draw
  /-- `ua.rSDP`. -/
  rSDP : Option Sdp
  /-- What `local4remote` returns. -/
  laddr : String
  /-- `RTPEPoint(...)`: the local address and port it binds, or it raises. -/
  endpoint : Option (Option String × Int)
  /-- `RTPEPoint.update` does not raise. -/
  updateOk : Bool
  /-- Reading an endpoint's statistics does not raise. -/
  statsOk : Bool
  /-- `RTPEPoint.shutdown` does not raise. -/
  shutdownOk : Bool
  /-- `ua.tr` and the transaction manager do what they are asked to. -/
  trOk : Bool
  /-- `sect.isOnHold()`, or it raises. -/
  isOnHold : Section → Option Bool
  /-- `str(nat_contact.getUrl())`. -/
  contactUri : String

/-! ## timers -/

/-- The methods that are put on a timer. -/
inductive TimerCb where
  | ring
  | connect
  | disconnect
  | cancel
  | reinvite
  | offHold
  | processReinvite
  deriving DecidableEq, Repr

/-- A pending one-shot `Timeout`. -/
structure Timer where
  cb : TimerCb
  ival : ℚ
  deriving DecidableEq, Repr

/-! ## chronicle -/

/-- What is recorded in the chronicle of a subtest. -/
inductive Obs where
  /-- The body of the INVITE that `answer` is asked to answer. -/
  | invite (body : Option Sdp)
  /-- An event from the UA, and `reinvite_in_progress` as it arrived. -/
  | event (ev : CCEvent) (inProgress : Bool)
  /-- The callback `connected`. -/
  | connected
  /-- The callback `disconnected`, and what `getAcct()` gave it. -/
  | disconnected (origin : Origin) (acct : Acct)
  /-- The callback `alldone`. -/
  | dead
  /-- A timer. -/
  | fired (cb : TimerCb)
  /-- An in-dialog INVITE received by a `_ReinviteTrackingUA`. -/
  | inDialogInvite (ruri : String)
  /-- `ua.recvEvent(event)`. -/
  | inject (ev : CCEvent)
  /-- `ua.recvRequest(req, sip_t)`. -/
  | recvRequest
  /-- `self.connect_done = True` -/
  | connectDone
  /-- `self.disconnect_done = True` -/
  | disconnectDone
  /-- `self.onhold_count += 1` or `self.offhold_count += 1` -/
  | held (on : Bool)
  /-- `ua.lSDP = sdp_body_bak` -/
  | restored
  /-- An exception has left a callback. -/
  | raised (exc : Exc)
  deriving DecidableEq, Repr

/-- What `done()` hands to the core. -/
structure Report where
  rval : Int
  log : List Obs
  deriving DecidableEq, Repr

/-! ## the object -/

inductive Codec where
  | g711
  | g722
  deriving DecidableEq, Repr

/-- A live `RTPEPoint`: the local address, port and family of its `rtp_params`. -/
structure Endpoint where
  laddr : Option String
  lport : Int
  proto : Option AType
  deriving DecidableEq, Repr

/-- What becomes of the RTP endpoints of a subtest. -/
inductive RtpOp where
  | created
  | shutdown
  deriving DecidableEq, Repr

/-- The `_rtp_...` attributes. -/
structure Rtp where
  inited : Bool
  enabled : Bool
  closing : Bool
  ep : Option Endpoint
  target : Option (String × Int)
  codec : Option Codec
  ptime : Option Int
  updates : Nat
  error : Bool
  ops : List RtpOp
  deriving DecidableEq, Repr

/-- The UA object, once it has been created. -/
structure Ua where
  created : Bool
  username : Option String
  password : Option String
  authEnalgs : Option (List (Option String))
  lSDP : Option Sdp
  lastInDialogInviteRuri : Option String
  deriving DecidableEq, Repr

/-- A subtest object. -/
structure Subtest where
  cls : PyClass
  tccfg : TcCfg
  /-- `test_id in tests_mightfail`, as the core finds it. -/
  named : Bool
  mightfail : Bool
  rval : Int
  nerrs : Nat
  ringDone : Bool
  connectDone : Bool
  disconnectDone : Bool
  acct : Option Acct
  finfoDisplayed : Bool
  doneCalled : Bool
  body : Option Sdp
  answerIval : Option ℚ
  disconnectIval : Option ℚ
  expectedContactUri : Option String
  reinviteIval : Option ℚ
  reinviteInProgress : Bool
  reinviteDone : Bool
  nupdates : Nat
  sched : List ℚ
  onholdCount : Nat
  offholdCount : Nat
  pIncr : Int
  rtp : Rtp
  ua : Ua
  timers : List Timer
  env : Env
  log : List Obs
  report : Option Report

/-- The class attributes of a new object. -/
def Subtest.fresh (cls : PyClass) (tccfg : TcCfg) (named : Bool) (env : Env) : Subtest where
  cls := cls
  tccfg := tccfg
  named := named
  mightfail := false
  rval := 1
  nerrs := 0
  ringDone := false
  connectDone := false
  disconnectDone := false
  acct := none
  finfoDisplayed := false
  doneCalled := false
  body := none
  answerIval := cls.answerIval
  disconnectIval := cls.disconnectIval
  expectedContactUri := none
  reinviteIval := none
  reinviteInProgress := false
  reinviteDone := false
  nupdates := 0
  sched := []
  onholdCount := 0
  offholdCount := 0
  pIncr := -10
  rtp :=
    { inited := false, enabled := false, closing := false, ep := none, target := none
      codec := none, ptime := none, updates := 0, error := false, ops := [] }
  ua :=
    { created := false, username := none, password := none, authEnalgs := none, lSDP := none
      lastInDialogInviteRuri := none }
  timers := []
  env := env
  log := []
  report := none

/-- The object with one more entry in its chronicle. -/
def Subtest.note (s : Subtest) (o : Obs) : Subtest := { s with log := s.log ++ [o] }

/-- The object with one more on-hold, or off-hold, counted. -/
def Subtest.hold (s : Subtest) (on : Bool) : Subtest :=
  if on then { s with onholdCount := s.onholdCount + 1 }
  else { s with offholdCount := s.offholdCount + 1 }

/-! ## programs -/

/-- The methods of the UA that the code calls and waits for. -/
inductive UaCall where
  | recvEvent (ev : CCEvent)
  | recvRequest
  deriving DecidableEq, Repr

/-- A method of a subtest, or a part of one. -/
abbrev M (α : Type) : Type := Callback.Prog Subtest Exc UaCall α

namespace M

export Callback.Prog (get modify raise)

/-- `ua.recvEvent(event)` -/
def uaRecvEvent (ev : CCEvent) : M Unit := Callback.Prog.callOut (.recvEvent ev)

/-- `ua.recvRequest(req, sip_t)` -/
def uaRecvRequest : M Unit := Callback.Prog.callOut .recvRequest

/-- `assert c` -/
def assert (c : Bool) : M Unit := if c then pure () else raise .assertionError

/-- The attribute of something that may be `None`. -/
def ofSome {α : Type} : Option α → M α
  | some a => pure a
  | none => raise .attributeError

/-- `Timeout(self.cb, ival, 1, ua)` -/
def timeout (cb : TimerCb) (ival : ℚ) : M Unit :=
  modify fun s => { s with timers := s.timers ++ [⟨cb, ival⟩] }

/-- `self.nerrs += 1` -/
def addErr : M Unit := modify fun s => { s with nerrs := s.nerrs + 1 }

/-- `self.connect_done = True` -/
def setConnectDone : M Unit := modify fun s => { s with connectDone := true }.note .connectDone

/-- `self.disconnect_done = True` -/
def setDisconnectDone : M Unit :=
  modify fun s => { s with disconnectDone := true }.note .disconnectDone

/-- `self.onhold_count += 1` or `self.offhold_count += 1` -/
def addHeld (on : Bool) : M Unit := modify fun s => (s.hold on).note (.held on)

/-- `random()` -/
def random : M Draw := do
  let s ← get
  match s.env.draws with
  | [] => fun _ => .spin
  | r :: rest =>
    modify fun s => { s with env := { s.env with draws := rest } }
    pure r

/-- `self.method(...)`: the method is looked up from the object's own class. -/
def self {α : Type} (method : List PyClass → M α) : M α := do
  let s ← get
  method s.cls.mro

end M

end VoipTests
