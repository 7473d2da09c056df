import VoipTests.Switch.Siphon
import VoipTests.Switch.Transaction

/-!
# VoipTests.Switch.Session

The session of a call while an INVITE is out, at the three proxies of
`scenarios/simple`.

`Session` says what becomes of it: an INVITE that fails ends the call that it
was to open, and leaves the one alone in which it was sent.  The transactions of
OpenSIPS and Kamailio refine it, and so does that of SIPhon until the caller
gives up: they agree on the session at any time (`sessions_agree`).
-/

namespace VoipTests.Switch

open Script (exit test act Only)
open Seen (see start)
open Run (exec exec_inv exec_sim)

/-! ## the abstract session -/

/-- What comes back for an INVITE. -/
inductive Answer where
  | reply (rep : Reply)
  | fail (fl : Failure)
  deriving DecidableEq, Repr

/-- An INVITE that has been sent on, and the session of its call. -/
structure Session where
  /-- There is no final reply yet. -/
  running : Bool
  /-- There is a 2xx reply. -/
  answered : Bool
  held : Bool
  deriving DecidableEq, Repr

namespace Session

/-- The INVITE has been sent on. -/
def start : Session := ⟨true, false, true⟩

/-- An answer to an INVITE that is sent within a dialog, or opens one. -/
def next (inDialog : Bool) (s : Session) (a : Answer) : Option Session :=
  if s.running then
    match a with
    | .reply rep => some
      { s with
        running := decide (rep.status / 100 ≠ 2)
        answered := decide (rep.status / 100 = 2) }
    | .fail _ => some { s with running := false, held := s.held && inDialog }
  else none

/-- **When there is a session**: as long as the call may come to be, and as long as it is. -/
theorem held_of_exec {inDialog : Bool} {as : List Answer} {s : Session}
    (h : exec (next inDialog) start as = some s) :
    s.held = (s.running || s.answered || inDialog) := by
  have hinv := exec_inv (P := fun s : Session =>
    s.held = (s.running || s.answered || inDialog) ∧ (s.running = true → s.answered = false))
    (fun s a s' hs hstep => ?_) ⟨rfl, fun _ => rfl⟩ h
  · exact hinv.1
  · unfold next at hstep
    split at hstep
    · next hrun =>
      cases a with
      | reply rep =>
          cases hstep
          by_cases hrep : rep.status / 100 = 2 <;> simp [hs.1, hrun, hrep]
      | fail fl =>
          cases hstep
          simp [hs.1, hrun, hs.2 hrun]
    · cases hstep

end Session

/-! ## OpenSIPS -/

namespace Opensips

/-- What comes back, whatever the functions return. -/
def Event.answer : Event → Answer
  | .reply rep _ => .reply rep
  | .fail fl _ => .fail fl

/-- The transaction is where the session has it. -/
structure Refines (cfg : Cfg) (inDialog : Bool) (t : Trans) (s : Session) : Prop where
  running : t.running = s.running
  answered : t.answered = s.answered
  held : t.held = s.held
  armed : t.running = true → t.armed = if inDialog then none else some cfg.onInvite
  open_ : t.running = true → t.answered = false

variable {cfg : Cfg} {inDialog held : Bool} {t t' : Trans} {s : Session} {fl : Failure}

/-- Where no challenge is answered, a failure gives the session up. -/
theorem failureRouteInvite_wp (halgs : cfg.acceptAlgs = none)
    (hend : fl.endReason ≠ "RTPProxy Timeout") : (failureRoute cfg cfg.onInvite fl).Wp see
      (fun s _ => s.held = false ∧ s.sent = false) (start held) := by
  unfold failureRoute failureRouteInvite retry giveUp
  simp [halgs, hend, see, Seen.effect, start]

theorem Refines.step {e : Event} (halgs : cfg.acceptAlgs = none) (h : Refines cfg inDialog t s)
    (he : ∀ fl, e.answer = .fail fl → fl.endReason ≠ "RTPProxy Timeout")
    (hs : step cfg t e = some t') :
    ∃ s', s.next inDialog e.answer = some s' ∧ Refines cfg inDialog t' s' := by
  unfold Opensips.step at hs
  split at hs
  · next hrun =>
    have hrun' : s.running = true := h.running ▸ hrun
    cases e with
    | reply rep codes =>
        obtain ⟨⟨calls, r⟩, hr, rfl⟩ := Option.map_eq_some_iff.mp hs
        have hheld : (Seen.of t.held calls).held = t.held := (onreplyRoute_wp rep).run hr
        refine ⟨_, if_pos hrun', rfl, rfl, hheld.trans h.held, fun _ => h.armed hrun, ?_⟩
        simp
    | fail fl codes =>
        refine ⟨_, if_pos hrun', ?_⟩
        have harm := h.armed hrun
        cases inDialog with
        | true =>
            simp only [if_true] at harm
            simp only [Trans.fail, harm, Option.some.injEq] at hs
            cases hs
            exact ⟨rfl, h.answered, by simp [h.held], fun hr => (by cases hr),
              fun hr => (by cases hr)⟩
        | false =>
            simp only [Bool.false_eq_true, if_false] at harm
            simp only [Trans.fail, harm] at hs
            obtain ⟨⟨calls, r⟩, hr, rfl⟩ := Option.map_eq_some_iff.mp hs
            obtain ⟨hheld, hsent⟩ := (failureRouteInvite_wp halgs (he fl rfl)).run hr
            have hanswered : s.answered = false := h.answered ▸ h.open_ hrun
            have hdone : (t.after fl (Seen.of t.held calls)).running = false := hsent
            exact ⟨hdone, hanswered.symm, hheld.trans (by simp),
              fun hr => absurd hr (by simp [hdone]), fun _ => rfl⟩
  · cases hs

/-- The runs of an INVITE that the main route has sent on. -/
theorem session_of_exec {req : Msg} {codes : List Int} {calls : List (Cmd × Int)}
    {r : Option Unit} {es : List Event} (halgs : cfg.acceptAlgs = none)
    (hre : cfg.onReInvite = none) (hr : (route cfg req).run codes = some (calls, r))
    (hinv : req.method = "INVITE") (hsent : (Seen.of held calls).sent = true)
    (hend : ∀ fl, .fail fl ∈ es.map Event.answer → fl.endReason ≠ "RTPProxy Timeout")
    (h : exec (step cfg) (.start (Seen.of held calls)) es = some t) :
    ∃ s, exec (Session.next req.hasTotag) .start (es.map Event.answer) = some s ∧
      Refines cfg req.hasTotag t s := by
  have hs : Disposed cfg req held (Seen.of held calls) := .of_run hr
  have hrelays : (Seen.of held calls).relays = 1 := by
    have := hs.once
    have := Seen.relays_of_sent hsent
    omega
  obtain ⟨hheld, -, harm⟩ := hs.invite hrelays hinv
  have hstart : Refines cfg req.hasTotag (.start (Seen.of held calls)) .start :=
    ⟨hsent, rfl, hheld, fun _ => hre ▸ harm, fun _ => rfl⟩
  have hsim := exec_sim (f := some ∘ Event.answer)
    (C := fun e => ∀ fl, e.answer = .fail fl → fl.endReason ≠ "RTPProxy Timeout")
    (fun _ _ _ _ hR he hs => hR.step halgs he hs) hstart
    (fun e he fl hfl => hend fl (hfl ▸ List.mem_map_of_mem he)) h
  rwa [List.filterMap_eq_map] at hsim

end Opensips

/-! ## Kamailio -/

namespace Kamailio

/-- An INVITE that has been relayed. -/
structure Trans where
  /-- The failure route that is armed. -/
  armed : Option String
  running : Bool
  answered : Bool
  held : Bool
  deriving DecidableEq, Repr

/-- The transaction as the main route leaves it. -/
def Trans.start (s : Seen) : Trans := ⟨s.onFailure, s.sent, false, s.held⟩

/-- An event of a transaction that is not over: `failure_route[1]` is the only one. -/
def step (t : Trans) (e : Opensips.Event) : Option Trans :=
  if t.running then
    match e with
    | .reply rep codes => ((onreplyRoute rep).run codes).map fun r =>
      { t with
        held := (Seen.of t.held r.1).held
        running := decide (rep.status / 100 ≠ 2)
        answered := decide (rep.status / 100 = 2) }
    | .fail _ codes =>
      if t.armed.isSome then (failureRoute.run codes).map fun r =>
        { t with armed := none, running := false, held := (Seen.of t.held r.1).held }
      else some { t with running := false }
  else none

/-- The transaction is where the session has it. -/
structure Refines (inDialog : Bool) (t : Trans) (s : Session) : Prop where
  running : t.running = s.running
  answered : t.answered = s.answered
  held : t.held = s.held
  armed : t.running = true → t.armed = if inDialog then none else some "1"
  open_ : t.running = true → t.answered = false

variable {req : Msg} {inDialog held : Bool} {t t' : Trans} {s : Session}

/-- A reply leaves the session as it is. -/
theorem onreplyRoute_wp (rep : Reply) :
    (onreplyRoute rep).Wp see (fun s _ => s.held = held) (start held) := by
  unfold onreplyRoute
  by_cases hst : matches18xOr2xx rep.status = true
  · by_cases hst' : Opensips.matches183Or2xx rep.status = true <;>
      by_cases hbody : rep.hasBody = true <;> simp [hst, hst', hbody, see, Seen.effect, start]
  · simp [hst, start]

theorem failureRoute_wp : failureRoute.Wp see (fun s _ => s.held = false) (start held) := by
  simp [failureRoute, see, Seen.effect]

theorem Refines.step {e : Opensips.Event} (h : Refines inDialog t s) (hs : step t e = some t') :
    ∃ s', s.next inDialog e.answer = some s' ∧ Refines inDialog t' s' := by
  unfold Kamailio.step at hs
  split at hs
  · next hrun =>
    have hrun' : s.running = true := h.running ▸ hrun
    cases e with
    | reply rep codes =>
        obtain ⟨⟨calls, r⟩, hr, rfl⟩ := Option.map_eq_some_iff.mp hs
        have hheld : (Seen.of t.held calls).held = t.held := (onreplyRoute_wp rep).run hr
        refine ⟨_, if_pos hrun', rfl, rfl, hheld.trans h.held, fun _ => h.armed hrun, ?_⟩
        simp
    | fail fl codes =>
        refine ⟨_, if_pos hrun', ?_⟩
        have harm := h.armed hrun
        cases inDialog with
        | true =>
            simp only [if_true] at harm
            simp only [harm, Option.isSome_none, Bool.false_eq_true, if_false,
              Option.some.injEq] at hs
            cases hs
            exact ⟨rfl, h.answered, by simp [h.held], fun hr => (by cases hr),
              fun hr => (by cases hr)⟩
        | false =>
            simp only [Bool.false_eq_true, if_false] at harm
            simp only [harm, Option.isSome_some, if_true] at hs
            obtain ⟨⟨calls, r⟩, hr, rfl⟩ := Option.map_eq_some_iff.mp hs
            have hheld : (Seen.of t.held calls).held = false := failureRoute_wp.run hr
            exact ⟨rfl, h.answered, hheld.trans (by simp), fun hr => (by cases hr),
              fun hr => (by cases hr)⟩
  · cases hs

/-- Unless the offer has failed, there is a session, and the failure of an INVITE
that opens a dialog is seen to. -/
def Armed (req : Msg) (s : Seen) : Prop :=
  s.declined = false → s.held = true ∧ s.onFailure = if req.hasTotag then none else some "1"

theorem checks_wp' : (checks req).Wp see (fun s r => match r with
    | some _ => s = start held
    | none => s.sent = false) (start held) := by
  unfold checks
  by_cases h : 4096 ≤ req.len <;> simp [h, see, Seen.effect, start]
  omega

theorem armed_onInvite : (onInvite req).Wp see (fun s r => match r with
    | some _ => Armed req s
    | none => s.sent = false) (start held) := by
  unfold onInvite
  refine Script.wp_bind.mpr (Script.wp_test.mpr ⟨rfl, fun n hn => ?_, fun n hn => ?_⟩)
  · simp [Armed, hn, see, Seen.effect, start]
  · cases htag : req.hasTotag <;> simp [htag, Armed, hn, see, Seen.effect, start]

/-- The functions that touch the session, or arm a failure route. -/
def Cmd.rearms : Cmd → Bool
  | .rtpproxyOffer _ => true
  | .rtpproxyUnforce => true
  | .tOnFailure _ => true
  | _ => false

theorem Armed.see {s : Seen} {x : Cmd × Int} (h : Armed req s) (hx : Cmd.rearms x.1 = false) :
    Armed req (Seen.see s x) := by
  obtain ⟨c, n⟩ := x
  cases c <;> first | exact h | cases hx

theorem aliased_only {c : Cmd} (hc : Cmd.rearms c = false) :
    (aliased c).Only (Cmd.rearms · = false) := by
  refine Script.Only.bind ?_ fun rc => ?_
  · rw [Script.only_iff_wp]
    simp [hc]
  · rw [Script.only_iff_wp]
    by_cases hrc : rc < 0 <;> simp [hrc, Cmd.rearms]

theorem natContact_only : (natContact req).Only (Cmd.rearms · = false) := by
  unfold natContact
  split
  · refine Script.Only.bind ?_ fun nat => ?_
    · rw [Script.only_iff_wp]
      simp [Cmd.rearms]
    · cases nat with
      | false => trivial
      | true => exact aliased_only rfl
  · trivial

theorem onward_only : (onward req).Only (Cmd.rearms · = false) := by
  unfold onward
  refine Script.Only.bind ?_ fun routed => ?_
  · rw [Script.only_iff_wp]
    simp [Cmd.rearms]
  · cases routed with
    | false =>
        rw [Script.only_iff_wp]
        by_cases hsrc : req.srcPort = 5061 <;> simp [hsrc, Cmd.rearms]
    | true =>
        refine Script.Only.bind (aliased_only rfl) fun _ => ?_
        rw [Script.only_iff_wp]
        simp [Cmd.rearms]

/-- What the main route has armed, once the session is made. -/
theorem armed_of_route {codes : List Int} {calls : List (Cmd × Int)} {r : Option Unit}
    (hr : (route req).run codes = some (calls, r)) (hinv : req.method = "INVITE")
    (hsent : (Seen.of held calls).sent = true) : Armed req (Seen.of held calls) := by
  have hbye : req.method ≠ "BYE" := by simp [hinv]
  have hlast : (act .recordRoute >>= fun _ => natContact req >>= fun _ => onward req).Only
      (Cmd.rearms · = false) := by
    refine Script.Only.bind ?_ fun _ => natContact_only.bind fun _ => onward_only
    rw [Script.only_iff_wp]
    simp [Cmd.rearms]
  have hroute : (route req).Wp see (fun s _ => s.sent = true → Armed req s) (start held) := by
    unfold route
    rw [if_pos hinv, if_neg hbye]
    refine Script.wp_bind.mpr (checks_wp'.mono fun s r h => ?_)
    cases r with
    | none => exact fun hs => absurd hs (by simp [h])
    | some _ =>
        subst h
        refine Script.wp_bind.mpr (armed_onInvite.mono fun s r h => ?_)
        cases r with
        | none => exact fun hs => absurd hs (by simp [h])
        | some _ =>
            have harmed : Armed req s := h
            exact (hlast.inv (fun _ _ hs hx => Armed.see hs hx) harmed).mono fun _ _ h _ => h
  exact hroute.run hr hsent

/-- The runs of an INVITE that the main route has sent on with a session. -/
theorem session_of_exec {codes : List Int} {calls : List (Cmd × Int)} {r : Option Unit}
    {es : List Opensips.Event} (hr : (route req).run codes = some (calls, r))
    (hinv : req.method = "INVITE") (hsent : (Seen.of held calls).sent = true)
    (hdeclined : (Seen.of held calls).declined = false)
    (h : exec step (.start (Seen.of held calls)) es = some t) :
    ∃ s, exec (Session.next req.hasTotag) .start (es.map Opensips.Event.answer) = some s ∧
      Refines req.hasTotag t s := by
  obtain ⟨hheld, harm⟩ := armed_of_route hr hinv hsent hdeclined
  have hstart : Refines req.hasTotag (.start (Seen.of held calls)) .start :=
    ⟨hsent, rfl, hheld, fun _ => harm, fun _ => rfl⟩
  have hsim := exec_sim (f := some ∘ Opensips.Event.answer) (C := fun _ => True)
    (fun _ _ _ _ hR _ hs => hR.step hs) hstart (fun _ _ => trivial) h
  rwa [List.filterMap_eq_map] at hsim

end Kamailio

/-! ## SIPhon -/

namespace Siphon

/-- `cancel_route` -/
def cancelRoute : List Call := [.delete]

/-- The session, once these calls are made. -/
def holds (held : Bool) (calls : List Call) : Bool :=
  calls.foldl (fun held c => match c with
    | .offer _ => true
    | .delete => false
    | _ => held) held

/-- The callbacks, in the order in which SIPhon calls them. -/
inductive Event where
  | reply (rep : Reply)
  | fail (fl : Failure)
  | cancel
  deriving DecidableEq, Repr

/-- An INVITE that has been relayed. -/
structure Trans where
  running : Bool
  answered : Bool
  held : Bool
  /-- The caller has given up. -/
  cancelled : Bool
  deriving DecidableEq, Repr

/-- The transaction as `route` leaves it. -/
def Trans.start (req : Msg) (hasSdp held : Bool) : Trans :=
  ⟨true, false, holds held (route req hasSdp), false⟩

/-- A callback for a transaction that is not over. -/
def step (req : Msg) (t : Trans) (e : Event) : Option Trans :=
  if t.running then
    match e with
    | .reply rep => some
      { t with
        held := holds t.held (replyRoute rep)
        running := decide (rep.status / 100 ≠ 2)
        answered := decide (rep.status / 100 = 2) }
    | .fail _ => some { t with running := false, held := holds t.held (failureRoute req) }
    | .cancel => some { t with held := holds t.held cancelRoute, cancelled := true }
  else none

/-- What comes back, if it is that. -/
def Event.answer : Event → Option Answer
  | .reply rep => some (.reply rep)
  | .fail fl => some (.fail fl)
  | .cancel => none

/-- The transaction is where the session has it, unless the caller has given up. -/
structure Refines (t : Trans) (s : Session) : Prop where
  running : t.running = s.running
  answered : t.answered = s.answered
  held : t.held = (s.held && !t.cancelled)

variable {req : Msg} {t t' : Trans} {s : Session}

theorem holds_replyRoute (held : Bool) (rep : Reply) : holds held (replyRoute rep) = held := by
  unfold replyRoute
  split <;> rfl

theorem holds_failureRoute (held : Bool) (hinv : req.method = "INVITE") :
    holds held (failureRoute req) = (held && req.hasTotag) := by
  cases htag : req.hasTotag <;> simp [failureRoute, holds, hinv, htag]

theorem holds_route (held : Bool) (hinv : req.method = "INVITE") :
    holds held (route req true) = true := by
  cases htag : req.hasTotag <;> simp [route, holds, hinv, htag]

theorem Refines.step {e : Event} (hinv : req.method = "INVITE") (h : Refines t s)
    (hs : step req t e = some t') :
    Run.Follows (Session.next req.hasTotag) Refines s t' e.answer := by
  unfold Siphon.step at hs
  split at hs
  · next hrun =>
    have hrun' : s.running = true := h.running ▸ hrun
    cases e with
    | reply rep =>
        cases hs
        exact ⟨_, if_pos hrun', rfl, rfl, (holds_replyRoute _ rep).trans h.held⟩
    | fail fl =>
        cases hs
        refine ⟨_, if_pos hrun', rfl, h.answered, (holds_failureRoute _ hinv).trans ?_⟩
        simp [h.held, Bool.and_right_comm]
    | cancel =>
        cases hs
        exact ⟨h.running, h.answered, by simp [holds, cancelRoute]⟩
  · cases hs

/-- The runs of an INVITE with SDP. -/
theorem session_of_exec {held : Bool} {es : List Event} (hinv : req.method = "INVITE")
    (h : exec (step req) (.start req true held) es = some t) :
    ∃ s, exec (Session.next req.hasTotag) .start (es.filterMap Event.answer) = some s ∧
      Refines t s := by
  have hstart : Refines (.start req true held) .start :=
    ⟨rfl, rfl, (holds_route held hinv).trans rfl⟩
  exact exec_sim (C := fun _ => True) (fun _ _ _ _ hR _ hs => hR.step hinv hs) hstart
    (fun _ _ => trivial) h

end Siphon

/-! ## the proxies -/

section Agree

variable {req : Msg} {ver : Ver} {maxLen : Nat} {held held' held'' : Bool} {codes codes' : List Int}
variable {calls calls' : List (Cmd × Int)} {r r' : Option Unit} {as : List Answer}
variable {es es' : List Opensips.Event} {es'' : List Siphon.Event}

/-- **The proxies agree about the session.**  Whatever comes back for an INVITE that
the three have sent on with a session, and in whatever order: there is a session as
long as the INVITE may be answered, when it has been, and within a dialog in any case;
but SIPhon lets it go when the caller gives up. -/
theorem sessions_agree {t : Opensips.Trans} {t' : Kamailio.Trans} {t'' : Siphon.Trans}
    (hinv : req.method = "INVITE")
    (hsip : (Opensips.route (Opensips.simple ver maxLen) req).run codes = some (calls, r))
    (hkam : (Kamailio.route req).run codes' = some (calls', r'))
    (hsent : (Seen.of held calls).sent = true) (hsent' : (Seen.of held' calls').sent = true)
    (hdeclined : (Seen.of held' calls').declined = false)
    (h : exec (Opensips.step (Opensips.simple ver maxLen)) (.start (Seen.of held calls)) es =
      some t)
    (h' : exec Kamailio.step (.start (Seen.of held' calls')) es' = some t')
    (h'' : exec (Siphon.step req) (.start req true held'') es'' = some t'')
    (has : es.map Opensips.Event.answer = as) (has' : es'.map Opensips.Event.answer = as)
    (has'' : es''.filterMap Siphon.Event.answer = as)
    (hend : ∀ fl, .fail fl ∈ as → fl.endReason ≠ "RTPProxy Timeout") :
    t.held = (t.running || t.answered || req.hasTotag) ∧ t'.held = t.held ∧
      t''.held = (t.held && !t''.cancelled) := by
  subst has
  obtain ⟨s, hs, hR⟩ := Opensips.session_of_exec rfl rfl hsip hinv hsent hend h
  obtain ⟨s', hs', hR'⟩ := Kamailio.session_of_exec hkam hinv hsent' hdeclined h'
  obtain ⟨s'', hs'', hR''⟩ := Siphon.session_of_exec hinv h''
  rw [has', hs, Option.some.injEq] at hs'
  rw [has'', hs, Option.some.injEq] at hs''
  subst hs' hs''
  refine ⟨?_, hR'.held.trans hR.held.symm, hR.held ▸ hR''.held⟩
  rw [hR.held, hR.running, hR.answered]
  exact Session.held_of_exec hs

/-- Alice's INVITE is turned down: she has given up at SIPhon's. -/
theorem sessions_agree_busy : ∃ calls calls' t t' t'',
    (Opensips.route (Opensips.simple (.num 34) 4096) Opensips.aliceInvite).run
      [1, 1, 1, 1, 1, 1, 1, 1, -1, -1, 1, 1] = some (calls, none) ∧
    (Kamailio.route Opensips.aliceInvite).run [1, 1, 1, 1, 1, 1, -1, -1, 1, 1] =
      some (calls', none) ∧
    exec (Opensips.step (Opensips.simple (.num 34) 4096)) (.start (Seen.of false calls))
      [.fail ⟨486, false, ""⟩ [1]] = some t ∧
    exec Kamailio.step (.start (Seen.of false calls')) [.fail ⟨486, false, ""⟩ [1]] = some t' ∧
    exec (Siphon.step Opensips.aliceInvite) (.start Opensips.aliceInvite true false)
      [.cancel, .fail ⟨486, false, ""⟩] = some t'' ∧
    t.held = false ∧ t'.held = t.held ∧ t''.held = (t.held && !t''.cancelled) := by
  have hsip : (Opensips.route (Opensips.simple (.num 34) 4096) Opensips.aliceInvite).run
    [1, 1, 1, 1, 1, 1, 1, 1, -1, -1, 1, 1] = some (_, none) := rfl
  have hkam : (Kamailio.route Opensips.aliceInvite).run [1, 1, 1, 1, 1, 1, -1, -1, 1, 1] =
    some (_, none) := rfl
  have h'' : exec (Siphon.step Opensips.aliceInvite) (.start Opensips.aliceInvite true false)
    [.cancel, .fail ⟨486, false, ""⟩] = some _ := rfl
  refine ⟨_, _, _, _, _, hsip, hkam, rfl, rfl, h'', rfl, sessions_agree rfl hsip hkam rfl rfl rfl
    (by rfl : exec _ _ [.fail ⟨486, false, ""⟩ [1]] = _)
    (by rfl : exec _ _ [.fail ⟨486, false, ""⟩ [1]] = _) h'' rfl rfl rfl ?_ |>.2⟩
  simp [Opensips.Event.answer]

end Agree

end VoipTests.Switch
