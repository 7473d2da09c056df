import VoipTests.Switch.Cmd

/-!
# VoipTests.Switch.Opensips

The `opensips.cfg.in` of the scenarios, as the preprocessor leaves them.

The files are one script with differences: which end of the call has to
authenticate, what is tried again with credentials, and the names of the
failure routes.  `Cfg` has the differences, and each file is its own `Cfg`.
-/

namespace VoipTests.Switch

open Script (exit test act)

/-- `OPENSIPS_VER_FULL` is `master`, or `OPENSIPS_VER` is a number of two digits. -/
inductive Ver where
  | master
  | num (ver : Nat)
  deriving DecidableEq, Repr

/-- How the proxy has Alice authenticate. -/
structure Authorize where
  /-- The variables that hold the password. -/
  avps : List (String × String)
  /-- The table that holds it otherwise. -/
  table : Option String
  challengeUsing : String
  deriving DecidableEq, Repr

/-- Where the files differ. -/
structure Cfg where
  ver : Ver
  /-- `max_len`, in the files that look at the length. -/
  maxLen : Option Nat
  authorize : Option Authorize
  /-- The failure route of an INVITE that opens a dialog. -/
  onInvite : String
  /-- The one of an INVITE within a dialog. -/
  onReInvite : Option String
  /-- The algorithms for which a challenge of the callee is answered. -/
  acceptAlgs : Option String
  /-- The failure routes have names of their own. -/
  names : onInvite ≠ "uac_auth_fail" ∧ onReInvite ≠ some "uac_auth_fail" ∧
    onReInvite ≠ some onInvite := by decide

/-- `NAT_PCONTACT` -/
def Ver.natPcontact : Ver → String
  | .master => "private-contact"
  | .num ver => if 33 < ver then "private-contact" else "1"

/-- `#if (OPENSIPS_VER < 24) && (OPENSIPS_VER_FULL != master)` -/
def Ver.before24 : Ver → Bool
  | .master => false
  | .num ver => ver < 24

namespace Opensips

variable (cfg : Cfg)

/-! ## the routes -/

/-- The checks at the top of `route`. -/
def checks (req : Msg) : Script Cmd Unit := do
  if !(← test (.mfProcessMaxfwdHeader 10)) then
    act (.slSendReply 483 "Too Many Hops")
    exit
  if let some maxLen := cfg.maxLen then
    if cfg.ver.before24 && maxLen ≤ req.len then
      act (.slSendReply 513 "Message too big")
      exit
  if !(← test .tNewtran) then
    act .slReplyError
    exit

/-- What the credentials are checked with. -/
def check (auth : Authorize) : Cmd :=
  match auth.table with
  | none => .pvWwwAuthorize "VoIPTests.NET"
  | some table => .wwwAuthorize "VoIPTests.NET" table

/-- `#if MM_AUTH == UAS` -/
def authorize (auth : Authorize) : Script Cmd Unit := do
  auth.avps.forM fun avp => Script.tell (.setAvp avp.1 avp.2)
  if !(← test (check auth)) then
    act (.wwwChallenge "VoIPTests.NET" "auth-int,auth" auth.challengeUsing)
    exit
  act .consumeCredentials

/-- The start of `if (is_method("INVITE"))`. -/
def dialog (req : Msg) : Script Cmd Unit := do
  act (.tReply 100 "Trying")
  if !req.hasTotag then act .createDialog
  act .recordRoute
  if req.hasTotag then
    if !(← test .matchDialog) then
      act (.tReply 481 "Call/Transaction Does Not Exist")
      exit

/-- The session of the RTPProxy. -/
def offer (req : Msg) : Script Cmd Unit := do
  if ← test (.rtpproxyOffer "rn") then
    act (.tOnReply "1")
    if !req.hasTotag then act (.tOnFailure cfg.onInvite)
    else if let some route := cfg.onReInvite then act (.tOnFailure route)
  else
    act (.tReply 502 "Very Bad Gateway")
    exit

/-- `if (is_method("INVITE"))` -/
def onInvite (req : Msg) : Script Cmd Unit := do
  if let some auth := cfg.authorize then
    if !req.hasTotag then authorize auth
  dialog req
  offer cfg req

/-- The Contact of an INVITE that opens a dialog. -/
def natContact (req : Msg) : Script Cmd Unit := do
  if req.method = "INVITE" ∧ req.hasTotag = false then
    if ← test (.natUacTest cfg.ver.natPcontact) then
      if cfg.ver = .master then
        act (.fixNatedContact "" "preserve-uri")

/-- The end of `route`: the request goes on. -/
def onward (req : Msg) : Script Cmd Unit := do
  if ← test .looseRoute then
    if cfg.ver = .master then act .restoreNatedRuri
    act .tRelay
    exit
  if req.srcPort = 5061 then Script.tell (.rewritePort 5062) else Script.tell (.rewritePort 5061)
  act .tRelay
  exit

/-- `route` -/
def route (req : Msg) : Script Cmd Unit := do
  checks cfg req
  if req.method = "INVITE" then onInvite cfg req
  if req.method = "BYE" then act .rtpproxyUnforce
  natContact cfg req
  onward cfg req

/-- `STATUS =~ "(183)|2[0-9][0-9]"`, of the three digits of a status. -/
def matches183Or2xx (status : Nat) : Bool := status = 183 || status / 100 = 2

/-- `onreply_route[1]` -/
def onreplyRoute (rep : Reply) : Script Cmd Unit := do
  if matches183Or2xx rep.status then
    if ← test (.natUacTest cfg.ver.natPcontact) then
      if cfg.ver = .master then
        act (.fixNatedContact "" "preserve-uri")
    if rep.hasBody then
      act (.rtpproxyAnswer "rn")

/-- `if (t_check_status("40[17]"))`: the request is sent again with credentials. -/
def retry (fl : Failure) : Script Cmd Unit := do
  if let some algs := cfg.acceptAlgs then
    if fl.code = 401 ∨ fl.code = 407 then
      if ← test (.uacAuth algs) then
        act (.tOnFailure "uac_auth_fail")
        act .tRelay
        exit

/-- What a failure route does that gives up. -/
def giveUp (fl : Failure) : Script Cmd Unit := do
  if fl.endReason ≠ "RTPProxy Timeout" then
    act .rtpproxyUnforce

/-- `failure_route[1]` and `failure_route[invite]` -/
def failureRouteInvite (fl : Failure) : Script Cmd Unit := do
  retry cfg fl
  giveUp fl

/-- `failure_route[re_invite]` -/
def failureRouteReInvite (fl : Failure) : Script Cmd Unit := do
  if fl.cancelled then exit
  retry cfg fl

/-- `failure_route[uac_auth_fail]` -/
def failureRouteUacAuthFail (fl : Failure) : Script Cmd Unit := giveUp fl

/-- The failure route of a name. -/
def failureRoute (name : String) (fl : Failure) : Script Cmd Unit :=
  if name = cfg.onInvite then failureRouteInvite cfg fl
  else if cfg.onReInvite = some name then failureRouteReInvite cfg fl
  else failureRouteUacAuthFail fl

/-! ## the files -/

/-- `scenarios/simple/opensips.cfg.in` -/
def simple (ver : Ver) (maxLen : Nat) : Cfg where
  ver := ver
  maxLen := some maxLen
  authorize := none
  onInvite := "1"
  onReInvite := none
  acceptAlgs := none

/-- `scenarios/passtr/opensips.cfg.in`, `MM_AUTH` being `passtr` -/
def passtr (ver : Ver) (maxLen : Nat) : Cfg where
  ver := ver
  maxLen := some maxLen
  authorize := none
  onInvite := "invite"
  onReInvite := none
  acceptAlgs := none

/-- `scenarios/UAC/opensips.cfg.in` -/
def uac (ver : Ver) : Cfg where
  ver := ver
  maxLen := none
  authorize := none
  onInvite := "invite"
  onReInvite := some "re_invite"
  acceptAlgs := some "md5-sess,sha-256-sess,sha-512-256-sess"

/-- All that the proxies under `UAS` challenge with. -/
def uasAlgs : String := "md5,md5-sess,sha-256,sha-256-sess,sha-512-256,sha-512-256-sess"

/-- `scenarios/UAS/auth/opensips.cfg.in` -/
def uasAuth (ver : Ver) : Cfg where
  ver := ver
  maxLen := none
  authorize := some
    { avps := [("username", "mightyuser"), ("password", "s3cr3tpAssw0Rd")]
      table := none
      challengeUsing := uasAlgs }
  onInvite := "invite"
  onReInvite := some "re_invite"
  acceptAlgs := some "md5-sess,sha-256-sess"

/-- `scenarios/UAS/auth_db/ha1/opensips.cfg.in` -/
def uasHa1 (ver : Ver) : Cfg where
  ver := ver
  maxLen := none
  authorize := some
    { avps := []
      table := some "subscriber"
      challengeUsing := uasAlgs }
  onInvite := "invite"
  onReInvite := some "re_invite"
  acceptAlgs := some "md5-sess,sha-256-sess"

/-- `scenarios/UAS/auth_db/calculate_ha1/opensips.cfg.in` -/
def uasCalculateHa1 (ver : Ver) : Cfg where
  ver := ver
  maxLen := none
  authorize := some
    { avps := []
      table := some "subscriber"
      challengeUsing := uasAlgs }
  onInvite := "invite"
  onReInvite := some "re_invite"
  acceptAlgs := some uasAlgs

end Opensips

end VoipTests.Switch
