import VoipTests.Subtest.Create

/-!
# VoipTests.Subtest.Machine

A subtest as a machine (`VoipTests.Lib.Callback`): what can happen to it, and
its runs.

Anything can happen in any order once the UA exists, at any depth of calls:
events with any body, `connected`, `disconnected` with any origin and account,
`alldone`, and an exception out of any call of the UA.  Only the timers have
to be pending, and wait until no call of the UA is.

What is taken from the SIP library: only Alice's UA has `conn_cbs`; only
the UA of the NATed-Contact scenario keeps R-URIs; and the UA stores the body
of an event it is handed as `ua.lSDP`.
-/

namespace VoipTests

/-- What can be called from outside. -/
inductive Cb where
  /-- `event_cb` -/
  | event (ev : CCEvent)
  /-- `conn_cbs` -/
  | connected
  /-- `disc_cbs` and `fail_cbs`; `ua.getAcct()` returns `acct`. -/
  | disconnected (origin : Origin) (acct : Acct)
  /-- `dead_cbs` -/
  | dead
  | timer (t : Timer)
  /-- `recvRequest` of `_ReinviteTrackingUA`, with an INVITE. -/
  | inDialogInvite (ruri : String)

/-- A callback, and what it finds outside. -/
structure Input where
  cb : Cb
  env : Env

namespace Subtest

/-- `ua.lSDP` after the UA has been handed an event with this body. -/
def storeSDP (s : Subtest) (sdp : Option Sdp) : Subtest :=
  { s with ua := { s.ua with lSDP := sdp.or s.ua.lSDP } }

/-- The object as a callback is entered, or `none` when it cannot be. -/
def entry (cb : Cb) (s : Subtest) (idle : Bool) : Option Subtest :=
  if !s.ua.created then none
  else match cb with
    | .event ev => some (s.note (.event ev s.reinviteInProgress))
    | .connected => if s.cls.isAlice then some (s.note .connected) else none
    | .disconnected origin acct => some (s.note (.disconnected origin acct))
    | .dead => some (s.note .dead)
    | .timer t =>
      if idle ∧ t ∈ s.timers then
        some ({ s with timers := s.timers.erase t }.note (.fired t.cb))
      else none
    | .inDialogInvite ruri =>
      if s.cls = .a .natedContact then
        some ({ s with ua := { s.ua with lastInDialogInviteRuri := some ruri } }.note
          (.inDialogInvite ruri))
      else none

end Subtest

/-- The method a timer was set for. -/
def TimerCb.body : TimerCb → List PyClass → M Unit
  | ring => VoipTests.ring
  | connect => VoipTests.connect
  | disconnect => VoipTests.disconnect
  | cancel => VoipTests.cancel
  | reinvite => VoipTests.reinvite true
  | offHold => VoipTests.offHold
  | processReinvite => fun _ => TestReinvite.answerReinvite

/-- The method behind a callback. -/
def Cb.body : Cb → List PyClass → M Unit
  | event ev => recvEvent ev
  | connected => VoipTests.connected
  | disconnected origin acct => VoipTests.disconnected origin acct
  | dead => alldone
  | timer t => t.cb.body
  | inDialogInvite _ => fun _ => pure ()

/-- A subtest, seen from its UA and the event loop. -/
def machine : Callback.Machine Subtest Exc UaCall Input Env where
  entry i s idle := s.entry i.cb idle |>.map fun s => { s with env := i.env }
  body i := M.self i.cb.body
  sent
    | .recvEvent ev, s => (s.storeSDP ev.body).note (.inject ev)
    | .recvRequest, s => s.note .recvRequest
  caught exc s := s.note (.raised exc)
  resume env s := { s with env := env }

/-- A subtest with the calls of its UA that have not returned. -/
abbrev Sys : Type := Callback.Sys Subtest Exc UaCall

/-- One thing that happens to a subtest. -/
abbrev Act : Type := Callback.Act Exc Input Env

/-- What a core creates a subtest from. -/
structure Setup where
  scn : Scenario
  side : Side
  tccfg : TcCfg
  /-- `test_id in tests_mightfail` -/
  named : Bool
  env : Env

/-- The class of the subtest. -/
def Setup.cls (p : Setup) : PyClass := p.side.cls p.scn

/-- The subtest as the core's constructor call reaches the UA, or ends. -/
def Setup.start (p : Setup) : Option Sys :=
  machine.settle [] (create p.scn p.side (.fresh p.cls p.tccfg p.named p.env))

/-- The states a subtest can get into. -/
def Setup.Reaches (p : Setup) (acts : List Act) (y : Sys) : Prop :=
  ∃ y₀, p.start = some y₀ ∧ Run.exec machine.step y₀ acts = some y

end VoipTests
