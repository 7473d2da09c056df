import VoipTests.Lib.Script

/-!
# VoipTests.Switch.Cmd

What the routing scripts under `scenarios` call, and what a run of such a
script comes to.

The scripts are those of the switch that Alice and Bob call through.  The
functions belong to the modules of OpenSIPS and Kamailio; of each call a
script sees the return code.  `Seen` sums up the calls of a run: whether the
request has been answered or relayed, where to, whether the RTPProxy has a
session, and which routes are armed for what comes back.  Log lines are left
out.
-/

namespace VoipTests.Switch

/-- The functions the scripts call, and the statements that change the message. -/
inductive Cmd where
  | mfProcessMaxfwdHeader (maxfwd : Nat)
  | slSendReply (code : Nat) (reason : String)
  | slReplyError
  | tNewtran
  | tReply (code : Nat) (reason : String)
  | createDialog
  | matchDialog
  | recordRoute
  | looseRoute
  | tOnReply (route : String)
  | tOnFailure (route : String)
  | tRelay
  /-- `$rp = port` or `rewriteport(port)` -/
  | rewritePort (port : Nat)
  | rtpproxyOffer (flags : String)
  | rtpproxyAnswer (flags : String)
  | rtpproxyUnforce
  | natUacTest (test : String)
  | fixNatedContact (params flags : String)
  | restoreNatedRuri
  | addContactAlias
  | handleRuriAlias
  /-- `$avp(name) = value` -/
  | setAvp (name value : String)
  | pvWwwAuthorize (realm : String)
  | wwwAuthorize (realm table : String)
  | wwwChallenge (realm qop algs : String)
  | consumeCredentials
  | uacAuth (algs : String)
  deriving DecidableEq, Repr

/-- What a script looks at in a request: `$rm`, `has_totag()`, `$sp`, `msg:len`. -/
structure Msg where
  method : String
  hasTotag : Bool
  srcPort : Nat
  len : Nat
  deriving DecidableEq, Repr

/-- What a script looks at in a reply: `$rs`, and whether there is an SDP body. -/
structure Reply where
  status : Nat
  hasBody : Bool
  deriving DecidableEq, Repr

/-- What a failure route looks at: `$T_reply_code`, whether the transaction has
been cancelled, and `$DLG_end_reason`. -/
structure Failure where
  code : Nat
  cancelled : Bool
  endReason : String
  deriving DecidableEq, Repr

/-! ## what a run comes to -/

/-- What a switch does with a request, whichever software it runs. -/
inductive Act where
  /-- The offer goes through the RTPProxy. -/
  | offer
  /-- The RTPProxy lets go of the call. -/
  | free
  /-- The request goes on, to `port` where it has no `Route`. -/
  | relay (port : Option Nat)
  deriving DecidableEq, Repr

/-- What the calls made so far come to. -/
structure Seen where
  /-- Final replies. -/
  replies : Nat
  /-- Their codes; `sl_reply_error` chooses its own. -/
  answers : List (Option Nat)
  /-- Calls of `t_relay`. -/
  relays : Nat
  /-- Calls made once the request had been answered or relayed. -/
  late : Nat
  /-- The last `t_relay` has sent the request on. -/
  sent : Bool
  acts : List Act
  /-- The port in the R-URI, where it was set. -/
  port : Option Nat
  /-- `loose_route` has taken the next hop from a `Route`. -/
  routed : Bool
  /-- An offer has failed. -/
  declined : Bool
  /-- An offer has gone through and the session has not been given up since. -/
  held : Bool
  onReply : Option String
  onFailure : Option String
  /-- The last function called has ended the script. -/
  stopped : Bool
  deriving DecidableEq, Repr

namespace Seen

/-- As a script is entered. -/
def start (held : Bool) : Seen :=
  ⟨0, [], 0, 0, false, [], none, false, false, held, none, none, false⟩

/-- What the call `c` adds, given that it returned `n`. -/
def effect (s : Seen) (n : Int) : Cmd → Seen
  | .slSendReply code _ => { s with replies := s.replies + 1, answers := s.answers ++ [some code] }
  | .slReplyError => { s with replies := s.replies + 1, answers := s.answers ++ [none] }
  | .tReply code _ => { s with
      replies := if 200 ≤ code then s.replies + 1 else s.replies
      answers := if 200 ≤ code then s.answers ++ [some code] else s.answers }
  | .wwwChallenge _ _ _ => { s with replies := s.replies + 1, answers := s.answers ++ [some 401] }
  | .tRelay => { s with
      relays := s.relays + 1
      sent := decide (0 < n)
      acts := s.acts ++ [.relay (if s.routed then none else s.port)] }
  | .rewritePort port => { s with port := some port, stopped := false }
  | .setAvp _ _ => { s with stopped := false }
  | .looseRoute => { s with routed := decide (0 < n) }
  | .rtpproxyOffer _ => { s with
      acts := if 0 < n then s.acts ++ [.offer] else s.acts
      declined := s.declined || decide (n < 0)
      held := s.held || decide (0 < n) }
  | .rtpproxyUnforce => { s with acts := s.acts ++ [.free], held := false }
  | .tOnReply route => { s with onReply := some route }
  | .tOnFailure route => { s with onFailure := some route }
  | _ => s

/-- One call more. -/
def see (s : Seen) (x : Cmd × Int) : Seen :=
  effect { s with
    late := if s.replies + s.relays = 0 then s.late else s.late + 1
    stopped := decide (x.2 = 0) } x.2 x.1

/-- What a run has come to. -/
def of (held : Bool) (calls : List (Cmd × Int)) : Seen := calls.foldl see (start held)

theorem relays_see {s : Seen} (hs : s.sent = true → 0 < s.relays) (x : Cmd × Int)
    (h : (see s x).sent = true) : 0 < (see s x).relays := by
  obtain ⟨c, n⟩ := x
  cases c <;> simp_all [see, effect]

theorem relays_foldl {s : Seen} (hs : s.sent = true → 0 < s.relays) (calls : List (Cmd × Int))
    (h : (calls.foldl see s).sent = true) : 0 < (calls.foldl see s).relays := by
  induction calls generalizing s with
  | nil => exact hs h
  | cons x calls ih => exact ih (relays_see hs x) h

/-- What has been sent on has been relayed. -/
theorem relays_of_sent {held : Bool} {calls : List (Cmd × Int)} (h : (of held calls).sent = true) :
    0 < (of held calls).relays :=
  relays_foldl (fun h => by cases h) calls h

end Seen

/-- Where a request goes that has no `Route`: from Alice to Bob, and from anyone
else to Alice. -/
def otherSide (req : Msg) : Nat := if req.srcPort = 5061 then 5062 else 5061

/-- What a switch is to do for the session of a request. -/
def sessionActs (req : Msg) : List Act :=
  (if req.method = "INVITE" then [.offer] else []) ++ (if req.method = "BYE" then [.free] else [])

/-- What a switch is to do with a request that it lets through. -/
def passOn (req : Msg) (routed : Bool) : List Act :=
  sessionActs req ++ [.relay (if routed then none else some (otherSide req))]

/-- Whether the RTPProxy has a session once this has been done. -/
def heldAfter (held : Bool) (acts : List Act) : Bool :=
  if .offer ∈ acts then true else if .free ∈ acts then false else held

end VoipTests.Switch
