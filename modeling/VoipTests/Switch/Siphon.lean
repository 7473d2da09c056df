import VoipTests.Switch.Kamailio

/-!
# VoipTests.Switch.Siphon

`scenarios/simple/siphon_script.py`, and what the three proxies of that
scenario have in common: a request they let through is handled alike.
-/

namespace VoipTests.Switch

namespace Siphon

/-- What the callbacks call. -/
inductive Call where
  | offer (profile : String)
  | answer (profile : String)
  | delete
  | recordRoute
  | looseRoute
  /-- `request.ruri.port = port` -/
  | setPort (port : Nat)
  | relay
  | relayReply
  deriving DecidableEq, Repr

def profile : String := "rtp_passthrough"

def alicePort : Nat := 5061

def bobPort : Nat := 5062

/-- `route`; `hasSdp` is `request.has_body("application/sdp")`, and `hasTotag`
of the request is `request.in_dialog`. -/
def route (req : Msg) (hasSdp : Bool) : List Call :=
  (if req.method = "INVITE" ∧ hasSdp then [.offer profile] else []) ++
  (if req.method = "BYE" then [.delete] else []) ++
  [.recordRoute] ++
  if req.hasTotag then [.looseRoute, .relay]
  else [.setPort (if req.srcPort = alicePort then bobPort else alicePort), .relay]

/-- `reply_route` -/
def replyRoute (rep : Reply) : List Call :=
  (if (rep.status = 180 ∨ rep.status = 183 ∨ 200 ≤ rep.status ∧ rep.status < 300) ∧ rep.hasBody
    then [.answer profile] else []) ++ [.relayReply]

/-- `failure_route` -/
def failureRoute (req : Msg) : List Call :=
  (if req.method = "INVITE" ∧ req.hasTotag = false then [.delete] else []) ++ [.relayReply]

/-- What the calls come to: the port is that of the R-URI. -/
def acts : Option Nat → List Call → List Act
  | _, [] => []
  | port, .offer _ :: calls => .offer :: acts port calls
  | port, .delete :: calls => .free :: acts port calls
  | _, .setPort port :: calls => acts (some port) calls
  | port, .relay :: calls => .relay port :: acts port calls
  | port, _ :: calls => acts port calls

/-- The script passes a request on, within a dialog to the next hop of its `Route`. -/
theorem acts_route {req : Msg} {hasSdp : Bool} (hsdp : req.method = "INVITE" → hasSdp = true) :
    acts none (route req hasSdp) = passOn req req.hasTotag := by
  have hport : (if req.srcPort = alicePort then bobPort else alicePort) = otherSide req := rfl
  by_cases hinv : req.method = "INVITE"
  · cases htag : req.hasTotag <;> simp [route, passOn, sessionActs, acts, hport, hinv, hsdp, htag]
  · by_cases hbye : req.method = "BYE" <;> cases htag : req.hasTotag <;>
      simp [route, passOn, sessionActs, acts, hport, hinv, hbye, htag]

end Siphon

section Agree

variable {cfg : Cfg} {req : Msg} {held held' hasSdp : Bool} {codes codes' : List Int}
variable {calls calls' : List (Cmd × Int)} {r r' : Option Unit}

/-- **The proxies agree**: OpenSIPS, Kamailio and SIPhon do the same with a
request that they relay, an INVITE that Kamailio has declined apart. -/
theorem proxies_agree (hsip : (Opensips.route cfg req).run codes = some (calls, r))
    (hkam : (Kamailio.route req).run codes' = some (calls', r'))
    (hsent : (Seen.of held calls).relays = 1)
    (hsent' : (Seen.of held' calls').relays = 1)
    (hdeclined : (Seen.of held' calls').declined = false)
    (hroute : (Seen.of held calls).routed = req.hasTotag)
    (hroute' : (Seen.of held' calls').routed = req.hasTotag)
    (hsdp : req.method = "INVITE" → hasSdp = true) :
    (Seen.of held calls).acts = (Seen.of held' calls').acts ∧
      (Seen.of held' calls').acts = Siphon.acts none (Siphon.route req hasSdp) := by
  have h₁ : Opensips.Disposed cfg req held (Seen.of held calls) := .of_run hsip
  have h₂ : Kamailio.Disposed req (Seen.of held' calls') := (Kamailio.route_wp.run hkam).2
  rw [h₁.relayed hsent, h₂.relayed hsent', hdeclined, Siphon.acts_route hsdp, hroute, hroute']
  exact ⟨rfl, rfl⟩

/-- Alice's INVITE goes to Bob through each of them. -/
theorem proxies_agree_invite : ∃ calls calls',
    (Opensips.route (Opensips.simple (.num 34) 4096) Opensips.aliceInvite).run
      [1, 1, 1, 1, 1, 1, 1, 1, -1, -1, 1, 1] = some (calls, none) ∧
    (Kamailio.route Opensips.aliceInvite).run [1, 1, 1, 1, 1, 1, -1, -1, 1, 1] =
      some (calls', none) ∧
    (Seen.of false calls).acts = (Seen.of false calls').acts ∧
      (Seen.of false calls').acts =
        Siphon.acts none (Siphon.route Opensips.aliceInvite true) := by
  have hsip : (Opensips.route (Opensips.simple (.num 34) 4096) Opensips.aliceInvite).run
    [1, 1, 1, 1, 1, 1, 1, 1, -1, -1, 1, 1] = some (_, none) := rfl
  have hkam : (Kamailio.route Opensips.aliceInvite).run [1, 1, 1, 1, 1, 1, -1, -1, 1, 1] =
    some (_, none) := rfl
  exact ⟨_, _, hsip, hkam, proxies_agree hsip hkam rfl rfl rfl rfl rfl fun _ => rfl⟩

end Agree

end VoipTests.Switch
