import VoipTests.Switch.Route

/-!
# VoipTests.Switch.Kamailio

`scenarios/simple/kamailio.cfg.in`.

The main route answers an INVITE with 502 when `rtpproxy_offer` fails, and
then goes on with it: such a request is relayed besides, or answered again.
Every other request is answered or relayed once (`Disposed`).
-/

namespace VoipTests.Switch.Kamailio

open Script (exit test act perform Wp)
open Seen (see start)

/-! ## the routes -/

/-- The checks at the top of `route`. -/
def checks (req : Msg) : Script Cmd Unit := do
  if !(← test (.mfProcessMaxfwdHeader 10)) then
    act (.slSendReply 483 "Too Many Hops")
    exit
  if 4096 ≤ req.len then
    act (.slSendReply 513 "Message too big")
    exit
  if !(← test .tNewtran) then
    act .slReplyError
    exit

/-- `if (method == "INVITE")` -/
def onInvite (req : Msg) : Script Cmd Unit := do
  if ← test (.rtpproxyOffer "r") then
    act (.tOnReply "1")
    if !req.hasTotag then
      act (.tOnFailure "1")
  else
    act (.slSendReply 502 "Very Bad Gateway")

/-- `$rc < 0` after a function that works on an alias. -/
def aliased (c : Cmd) : Script Cmd Unit := do
  let rc ← perform c
  if rc < 0 then
    act (.slSendReply 400 "Bad Request")
    exit

/-- The Contact of an INVITE that opens a dialog. -/
def natContact (req : Msg) : Script Cmd Unit := do
  if req.method = "INVITE" ∧ req.hasTotag = false then
    if ← test (.natUacTest "1") then
      aliased .addContactAlias

/-- The end of `route`: the request goes on. -/
def onward (req : Msg) : Script Cmd Unit := do
  if ← test .looseRoute then
    aliased .handleRuriAlias
    act .tRelay
    exit
  if req.srcPort = 5061 then Script.tell (.rewritePort 5062) else Script.tell (.rewritePort 5061)
  act .tRelay
  exit

/-- `route` -/
def route (req : Msg) : Script Cmd Unit := do
  checks req
  if req.method = "INVITE" then onInvite req
  if req.method = "BYE" then act .rtpproxyUnforce
  act .recordRoute
  natContact req
  onward req

/-- `status=~"(180)|(183)|2[0-9][0-9]"`, and the same without 180. -/
def matches18xOr2xx (status : Nat) : Bool := status = 180 || Opensips.matches183Or2xx status

/-- `onreply_route[1]` -/
def onreplyRoute (rep : Reply) : Script Cmd Unit := do
  if matches18xOr2xx rep.status then
    if Opensips.matches183Or2xx rep.status then
      if ← test (.natUacTest "1") then
        act .addContactAlias
    if rep.hasBody then
      act (.rtpproxyAnswer "r")

/-- `failure_route[1]` -/
def failureRoute : Script Cmd Unit := act .rtpproxyUnforce

/-! ## what the route makes of a request -/

variable {req : Msg} {held : Bool} {s : Seen}

/-- What the route makes of a request. -/
@[mk_iff]
structure Disposed (req : Msg) (s : Seen) : Prop where
  relays : s.relays ≤ 1
  /-- A request is answered or relayed; an INVITE that has been declined, which
  is answered with 502 already, is answered with 400 or relayed besides. -/
  disposed : s.stopped = false → s.replies + s.relays = if s.declined then 2 else 1
  once : s.replies + s.relays ≤ if s.declined then 2 else 1
  declined : s.declined = true → req.method = "INVITE" ∧
    (s.answers = [some 502] ∧ (s.relays = 1 ∨ s.relays = 0 ∧ s.stopped = true) ∨
      s.answers = [some 502, some 400] ∧ s.relays = 0)
  relayed : s.relays = 1 → s.acts =
    if s.declined then [.relay (if s.routed then none else some (otherSide req))]
    else passOn req s.routed

/-- Where the request is between the blocks of the route. -/
@[mk_iff]
structure Entered (req : Msg) (s : Seen) : Prop where
  relays : s.relays = 0
  replies : s.replies = if s.declined then 1 else 0
  answers : s.answers = if s.declined then [some 502] else []
  declined : s.declined = true → req.method = "INVITE"
  acts : s.acts = if s.declined then [] else sessionActs req

/-- A block goes on, or the request is disposed of. -/
def Goes {α : Type} (req : Msg) (before s : Seen) : Option α → Prop
  | some _ => Entered req s ∧ s.routed = before.routed
  | none => Disposed req s

theorem goes_bind {α β : Type} {p : Script Cmd α} {f : α → Script Cmd β}
    {Q : Seen → Option β → Prop} (hp : p.Wp see (Goes req s) s)
    (hf : ∀ a t, Entered req t → t.routed = s.routed → (f a).Wp see Q t)
    (hq : ∀ s, Disposed req s → Q s none) :
    (p >>= f).Wp see Q s := by
  refine Script.wp_bind.mpr (hp.mono fun t r h => ?_)
  cases r with
  | none => exact hq t h
  | some a => exact hf a t h.1 h.2

namespace Entered

theorem disposed (h : Entered req s) (hs : s.stopped = true) : Disposed req s := by
  obtain ⟨hrelays, hreplies, hanswers, hdeclined, -⟩ := h
  refine ⟨by omega, by simp [hs], ?_, fun hd => ⟨hdeclined hd, .inl ⟨?_, .inr ⟨hrelays, hs⟩⟩⟩,
    by simp [hrelays]⟩
  · rw [hrelays, hreplies]
    cases s.declined <;> simp
  · simp [hanswers, hd]

/-- A call that only asks. -/
theorem see (h : Entered req s) {c : Cmd} (hc : c.Quiet) (n : Int) :
    Entered req (Seen.see s (c, n)) ∧ (Seen.see s (c, n)).routed = s.routed := by
  rw [Seen.see, hc]
  exact ⟨⟨h.relays, h.replies, h.answers, h.declined, h.acts⟩, rfl⟩

theorem stop (h : Entered req s) {c : Cmd} (hc : c.Quiet) : Disposed req (Seen.see s (c, 0)) := by
  refine (h.see hc 0).1.disposed ?_
  rw [Seen.see, hc]
  rfl

theorem act_wp (h : Entered req s) {c : Cmd} (hc : c.Quiet) :
    (act c).Wp Seen.see (Goes req s) s :=
  Script.wp_act.mpr ⟨h.stop hc, fun n _ => h.see hc n⟩

theorem test_wp (h : Entered req s) {c : Cmd} (hc : c.Quiet) :
    (test c).Wp Seen.see (Goes req s) s :=
  Script.wp_test.mpr ⟨h.stop hc, fun n _ => h.see hc n, fun n _ => h.see hc n⟩

/-- One reply more, and the script is over. -/
theorem refuse_wp (h : Entered req s) (reason : String) :
    (act (.slSendReply 400 reason) >>= fun _ => exit : Script Cmd Unit).Wp Seen.see
      (fun s r => r = none ∧ Disposed req s) s := by
  obtain ⟨hrelays, hreplies, hanswers, hdeclined, hacts⟩ := h
  have hreply (n : Int) : Disposed req (Seen.see s (.slSendReply 400 reason, n)) := by
    cases hd : s.declined <;>
      simp [disposed_iff, Seen.see, Seen.effect, hrelays, hreplies, hanswers, hd, hdeclined]
  exact Script.wp_bind.mpr (Script.wp_act.mpr ⟨⟨rfl, hreply 0⟩, fun n _ => ⟨rfl, hreply n⟩⟩)

/-- The request goes on, and the script is over. -/
theorem relay_wp (h : Entered req s) (hport : s.routed = false → s.port = some (otherSide req)) :
    (act .tRelay >>= fun _ => exit : Script Cmd Unit).Wp Seen.see
      (fun s r => r = none ∧ Disposed req s) s := by
  obtain ⟨hrelays, hreplies, hanswers, hdeclined, hacts⟩ := h
  have hrelay (n : Int) : Disposed req (Seen.see s (.tRelay, n)) := by
    cases hd : s.declined <;> cases hr : s.routed <;>
      simp [disposed_iff, Seen.see, Seen.effect, hrelays, hreplies, hanswers, hacts, hd, hdeclined,
        hr, hport, passOn]
  exact Script.wp_bind.mpr (Script.wp_act.mpr ⟨⟨rfl, hrelay 0⟩, fun n _ => ⟨rfl, hrelay n⟩⟩)

end Entered

/-! ## the blocks -/

theorem checks_wp : (checks req).Wp see (fun s r => match r with
    | some _ => s = start held
    | none => Disposed req s) (start held) := by
  unfold checks
  by_cases h : 4096 ≤ req.len
  · simp [h, Seen.see, Seen.effect, start, disposed_iff]
  · simp [h, Seen.see, Seen.effect, start, disposed_iff]
    omega

theorem onInvite_wp (hinv : req.method = "INVITE") :
    (onInvite req).Wp see (Goes req (start held)) (start held) := by
  unfold onInvite
  refine Script.wp_bind.mpr (Script.wp_test.mpr ⟨?_, fun n hn => ?_, fun n hn => ?_⟩)
  · simp [Goes, Seen.see, Seen.effect, start, disposed_iff]
  · have hno : ¬ 0 < n := by omega
    simp [Goes, hno, hn, hinv, Seen.see, Seen.effect, start, disposed_iff, entered_iff]
  · have hn' : ¬ n < 0 := by omega
    have hn'' : n ≠ 0 := by omega
    cases req.hasTotag <;>
      simp [Goes, hn, hn', hn'', hinv, sessionActs, Seen.see, Seen.effect, start, disposed_iff,
        entered_iff]

theorem aliased_wp (hs : Entered req s) {c : Cmd} (hc : c.Quiet) :
    (aliased c).Wp see (Goes req s) s := by
  unfold aliased
  refine Script.wp_bind.mpr (Script.wp_perform.mpr ⟨hs.stop hc, fun n _ => ?_⟩)
  obtain ⟨ht, hroute⟩ := hs.see hc n
  by_cases hn : n < 0
  · simp only [hn, if_true]
    refine (ht.refuse_wp "Bad Request").mono fun t r h => ?_
    obtain ⟨rfl, hd⟩ := h
    exact hd
  · simp only [hn, if_false]
    exact ⟨ht, hroute⟩

theorem natContact_wp (hs : Entered req s) : (natContact req).Wp see (Goes req s) s := by
  unfold natContact
  split
  · refine goes_bind (hs.test_wp fun _ _ => rfl) (fun nat t ht hroute => ?_) fun _ h => h
    cases nat with
    | false => exact ⟨ht, hroute⟩
    | true =>
        refine (aliased_wp ht fun _ _ => rfl).mono fun u r h => ?_
        cases r with
        | none => exact h
        | some _ => exact ⟨h.1, h.2.trans hroute⟩
  · exact ⟨hs, rfl⟩

theorem onward_wp (hs : Entered req s) :
    (onward req).Wp see (fun s r => r = none ∧ Disposed req s) s := by
  have hloose (n : Int) : Entered req (see s (.looseRoute, n)) :=
    ⟨hs.relays, hs.replies, hs.answers, hs.declined, hs.acts⟩
  unfold onward
  refine Script.wp_bind.mpr (Script.wp_test.mpr ⟨?_, fun n hn => ?_, fun n hn => ?_⟩)
  · exact ⟨rfl, (hloose 0).disposed rfl⟩
  · have hport (n' : Int) : Entered req
        (see (see s (.looseRoute, n)) (.rewritePort (otherSide req), n')) :=
      ⟨hs.relays, hs.replies, hs.answers, hs.declined, hs.acts⟩
    have hrel (n' : Int) := (hport n').relay_wp fun _ => rfl
    unfold otherSide at hrel
    by_cases hsrc : req.srcPort = 5061
    · rw [if_pos hsrc] at hrel
      simp only [hsrc, Bool.false_eq_true, if_false, if_true]
      exact Script.wp_bind.mpr hrel
    · rw [if_neg hsrc] at hrel
      simp only [hsrc, Bool.false_eq_true, if_false]
      exact Script.wp_bind.mpr hrel
  · have hrouted : (see s (.looseRoute, n)).routed = true := decide_eq_true hn
    simp only [if_true]
    refine goes_bind (aliased_wp (hloose n) fun _ _ => rfl) (fun _ t ht hroute => ?_)
      fun t ht => ⟨rfl, ht⟩
    refine ht.relay_wp fun hno => ?_
    rw [hroute, hrouted] at hno
    cases hno

theorem unforce_wp (hbye : req.method = "BYE") :
    (act .rtpproxyUnforce).Wp see (Goes req (start held)) (start held) := by
  simp [Goes, hbye, sessionActs, Seen.see, Seen.effect, start, disposed_iff, entered_iff]

/-! ## the route -/

theorem route_wp : (route req).Wp see (fun s r => r = none ∧ Disposed req s) (start held) := by
  have hlast (s : Seen) (hs : Entered req s) :
      (act .recordRoute >>= fun _ => natContact req >>= fun _ => onward req).Wp see
        (fun s r => r = none ∧ Disposed req s) s := by
    refine goes_bind (hs.act_wp fun _ _ => rfl) (fun _ t ht _ => ?_) fun t ht => ⟨rfl, ht⟩
    exact goes_bind (natContact_wp ht) (fun _ t ht _ => onward_wp ht) fun t ht => ⟨rfl, ht⟩
  unfold route
  refine Script.wp_bind.mpr (checks_wp.mono fun s r h => ?_)
  cases r with
  | none => exact ⟨rfl, h⟩
  | some _ =>
      subst h
      by_cases hinv : req.method = "INVITE"
      · have hbye : req.method ≠ "BYE" := by simp [hinv]
        rw [if_pos hinv, if_neg hbye]
        exact goes_bind (onInvite_wp hinv) (fun _ t ht _ => hlast t ht) fun t ht => ⟨rfl, ht⟩
      · by_cases hbye : req.method = "BYE"
        · rw [if_neg hinv, if_pos hbye]
          exact goes_bind (unforce_wp hbye) (fun _ t ht _ => hlast t ht) fun t ht => ⟨rfl, ht⟩
        · rw [if_neg hinv, if_neg hbye]
          exact hlast _ (by simp [entered_iff, sessionActs, start, hinv, hbye])

section Run

variable {codes : List Int} {calls : List (Cmd × Int)} {r : Option Unit}

/-- **Only a declined INVITE is disposed of twice**, whatever the functions return. -/
theorem route_disposes_but (h : (route req).run codes = some (calls, r)) :
    r = none ∧ Disposed req (Seen.of held calls) := route_wp.run h

/-- An INVITE that is answered with 502 and goes to Bob all the same. -/
theorem route_disposes_but_declined : ∃ calls,
    (route Opensips.aliceInvite).run [1, 1, -1, 1, 1, -1, -1, 1, 1] = some (calls, none) ∧
    (Seen.of false calls).declined = true ∧ Disposed Opensips.aliceInvite (Seen.of false calls) := by
  have h : (route Opensips.aliceInvite).run [1, 1, -1, 1, 1, -1, -1, 1, 1] =
    some (_, none) := rfl
  exact ⟨_, h, rfl, (route_disposes_but h).2⟩

end Run

end VoipTests.Switch.Kamailio
