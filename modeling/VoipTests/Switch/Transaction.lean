import VoipTests.Switch.Route
import VoipTests.Lib.Run

/-!
# VoipTests.Switch.Transaction

The INVITE transactions of OpenSIPS, from the main route to the final reply.

The transaction keeps the failure route that the main route has armed.  A
failure disarms the route and runs it, and unless the route relays the request
again the transaction is over.  What is to be known is when the session of the
RTPProxy outlives it: `Trans.Inv`.
-/

namespace VoipTests.Switch.Opensips

open Script (exit test act Wp)
open Seen (see start)
open Run (exec)

/-- An INVITE that has been relayed. -/
structure Trans where
  /-- The failure route that is armed. -/
  armed : Option String
  /-- There is no final reply yet. -/
  running : Bool
  /-- There is a 2xx reply. -/
  answered : Bool
  /-- The RTPProxy has a session for the call. -/
  held : Bool
  /-- How many times `t_relay` has been called for the request. -/
  sent : Nat
  /-- The last failure. -/
  last : Option Failure
  /-- The last failure route has not come to its decision: one of its functions has
  ended it before, or the `t_relay` of its retry has failed. -/
  broken : Bool
  deriving DecidableEq, Repr

/-- What comes back. -/
inductive Event where
  | reply (rep : Reply) (codes : List Int)
  | fail (fl : Failure) (codes : List Int)
  deriving Repr

/-- The transaction as the main route leaves it. -/
def Trans.start (s : Seen) : Trans where
  armed := s.onFailure
  running := s.sent
  answered := false
  held := s.held
  sent := s.relays
  last := none
  broken := false

/-- A reply, after `onreply_route[1]` has seen it. -/
def Trans.reply (cfg : Cfg) (t : Trans) (rep : Reply) (codes : List Int) : Option Trans :=
  ((onreplyRoute cfg rep).run codes).map fun r =>
    { t with
      held := (Seen.of t.held r.1).held
      running := decide (rep.status / 100 ≠ 2)
      answered := decide (rep.status / 100 = 2) }

/-- A failure route that comes to `s` has neither sent the request again nor given up. -/
def broke (s : Seen) : Bool := !s.sent && (decide (0 < s.relays) || s.stopped && s.acts.isEmpty)

/-- What a failure route leaves that comes to `s`. -/
def Trans.after (t : Trans) (fl : Failure) (s : Seen) : Trans where
  armed := s.onFailure
  running := s.sent
  answered := false
  held := s.held
  sent := t.sent + s.relays
  last := some fl
  broken := broke s

/-- A failure, after the route that is armed has seen it. -/
def Trans.fail (cfg : Cfg) (t : Trans) (fl : Failure) (codes : List Int) : Option Trans :=
  match t.armed with
  | none => some { t with running := false, last := some fl }
  | some name => ((failureRoute cfg name fl).run codes).map fun r =>
    t.after fl (Seen.of t.held r.1)

/-- An event of a transaction that is not over. -/
def step (cfg : Cfg) (t : Trans) (e : Event) : Option Trans :=
  if t.running then
    match e with
    | .reply rep codes => t.reply cfg rep codes
    | .fail fl codes => t.fail cfg fl codes
  else none

/-! ## the routes -/

variable {cfg : Cfg} {held : Bool} {s : Seen} {fl : Failure}

/-- A reply leaves the session as it is. -/
theorem onreplyRoute_wp (rep : Reply) :
    (onreplyRoute cfg rep).Wp see (fun s _ => s.held = held) (start held) := by
  unfold onreplyRoute
  by_cases hst : matches183Or2xx rep.status = true
  · by_cases hver : cfg.ver = .master <;> by_cases hbody : rep.hasBody = true <;>
      simp [hst, hver, hbody, Seen.see, Seen.effect, start]
  · simp [hst, start]

/-- The failure route has sent the request on again. -/
@[mk_iff]
structure Retried (held : Bool) (s : Seen) : Prop where
  relays : s.relays = 1
  held : s.held = held
  onFailure : s.onFailure = some "uac_auth_fail"

/-- A function has ended the failure route before that. -/
@[mk_iff]
structure Ended (held : Bool) (s : Seen) : Prop where
  relays : s.relays = 0
  sent : s.sent = false
  stopped : s.stopped = true
  acts : s.acts = []
  held : s.held = held

/-- A challenge may have the request sent again; otherwise the failure route goes on. -/
theorem retry_wp : (retry cfg fl).Wp see (fun s r => match r with
    | some _ => s = start held
    | none => Retried held s ∨ Ended held s) (start held) := by
  unfold retry
  cases cfg.acceptAlgs with
  | none => exact rfl
  | some algs =>
      by_cases hcode : fl.code = 401 ∨ fl.code = 407
      · simp only [hcode, if_true]
        refine Script.wp_bind.mpr (Script.wp_test.mpr ⟨?_, fun n hn => ?_, fun n hn => ?_⟩)
        · simp [ended_iff, Seen.see, Seen.effect, start]
        · have hn' : n ≠ 0 := by omega
          simp [hn', Seen.see, Seen.effect, start]
        · have hn' : n ≠ 0 := by omega
          simp +contextual [hn', ended_iff, retried_iff, Seen.see, Seen.effect, start]
      · simp [hcode]

/-- `name` leaves the session alone when it gives up. -/
def keeps (cfg : Cfg) (name : String) (fl : Failure) : Bool :=
  decide (fl.endReason = "RTPProxy Timeout") || decide (cfg.onReInvite = some name)

/-- The failure route has let the failure through. -/
@[mk_iff]
structure GaveUp (kept : Bool) (s : Seen) : Prop where
  relays : s.relays = 0
  sent : s.sent = false
  held : s.held = kept
  decided : s.stopped = true → s.acts ≠ []

theorem giveUp_wp : (giveUp fl).Wp see
    (fun s _ => GaveUp (held && decide (fl.endReason = "RTPProxy Timeout")) s) (start held) := by
  unfold giveUp
  by_cases hend : fl.endReason = "RTPProxy Timeout" <;>
    simp [hend, gaveUp_iff, Seen.see, Seen.effect, start]

/-- **A failure route** either has the request sent again or lets the failure through. -/
theorem failureRoute_wp (name : String) : (failureRoute cfg name fl).Wp see
    (fun s _ => (name ≠ "uac_auth_fail" ∧ Retried held s) ∨ Ended held s ∨
      GaveUp (held && keeps cfg name fl) s) (start held) := by
  obtain ⟨hinv, hre, hne⟩ := cfg.names
  unfold failureRoute
  split_ifs with hname hname'
  · subst hname
    have hkeeps : keeps cfg cfg.onInvite fl = decide (fl.endReason = "RTPProxy Timeout") := by
      simp [keeps, hne]
    refine Script.wp_bind.mpr (retry_wp.mono fun s r h => ?_)
    cases r with
    | none => exact h.elim (fun h => .inl ⟨hinv, h⟩) fun h => .inr (.inl h)
    | some _ =>
        subst h
        rw [hkeeps]
        exact giveUp_wp.mono fun _ _ h => .inr (.inr h)
  · have hname'' : name ≠ "uac_auth_fail" := fun h => hre (h ▸ hname')
    have hkeeps : keeps cfg name fl = true := by simp [keeps, hname']
    have hgave : GaveUp (held && keeps cfg name fl) (start held) := by
      simp [gaveUp_iff, hkeeps, start]
    unfold failureRouteReInvite
    by_cases hcancel : fl.cancelled = true
    · simpa [hcancel] using .inr (.inr hgave)
    · simp only [hcancel, Bool.false_eq_true, if_false]
      refine retry_wp.mono fun s r h => ?_
      cases r with
      | none => exact h.elim (fun h => .inl ⟨hname'', h⟩) fun h => .inr (.inl h)
      | some _ =>
          subst h
          exact .inr (.inr hgave)
  · have hkeeps : keeps cfg name fl = decide (fl.endReason = "RTPProxy Timeout") := by
      simp [keeps, hname']
    rw [hkeeps]
    exact giveUp_wp.mono fun _ _ h => .inr (.inr h)

/-! ## the runs -/

/-- Where a transaction can be that has been armed with `first`. -/
structure Trans.Inv (cfg : Cfg) (first : Option String) (t : Trans) : Prop where
  /-- The request has been sent on once, or twice with the other route armed. -/
  armed : t.running = true → (t.sent = 1 ∧ t.armed = first) ∨
    (t.sent = 2 ∧ t.armed = some "uac_auth_fail")
  sent : t.sent = 1 ∨ t.sent = 2
  held : t.running = true ∨ t.answered = true → t.held = true
  /-- The failure route that was armed last decides about the session, if it gets there. -/
  ending : t.running = false → t.answered = false → ∃ fl, t.last = some fl ∧
    t.held = (t.broken || (if t.sent = 1 then first else some "uac_auth_fail").all (keeps cfg · fl))

variable {t t' : Trans} {first : Option String}

theorem Trans.Inv.reply {rep : Reply} {codes : List Int} (hi : t.Inv cfg first)
    (hrun : t.running = true) (h : t.reply cfg rep codes = some t') : t'.Inv cfg first := by
  obtain ⟨⟨calls, r⟩, hr, rfl⟩ := Option.map_eq_some_iff.mp h
  have hheld : (Seen.of t.held calls).held = t.held := (onreplyRoute_wp rep).run hr
  constructor
  · exact fun _ => hi.armed hrun
  · exact hi.sent
  · exact fun _ => hheld.trans (hi.held (.inl hrun))
  · intro h₁ h₂
    simp at h₁ h₂
    exact absurd h₁ h₂

theorem Trans.Inv.retried (hi : t.Inv cfg first) (hrun : t.running = true) {name : String}
    (hname : t.armed = some name) (hne : name ≠ "uac_auth_fail") (hs : Retried t.held s) :
    (t.after fl s).Inv cfg first := by
  have hsent : t.sent = 1 := by
    obtain ⟨hsent, -⟩ | ⟨-, harm⟩ := hi.armed hrun
    · exact hsent
    · rw [hname, Option.some.injEq] at harm
      exact absurd harm hne
  have hsent' : (t.after fl s).sent = 2 := by
    show t.sent + s.relays = 2
    rw [hsent, hs.relays]
  constructor
  · exact fun _ => .inr ⟨hsent', hs.onFailure⟩
  · exact .inr hsent'
  · exact fun _ => hs.held.trans (hi.held (.inl hrun))
  · intro hrun' _
    have hsent : s.sent = false := hrun'
    have hbroken : broke s = true := by simp [broke, hsent, hs.relays]
    refine ⟨fl, rfl, ?_⟩
    show s.held = (broke s || _)
    rw [hbroken, hs.held, hi.held (.inl hrun)]
    rfl

theorem Trans.Inv.ended (hi : t.Inv cfg first) (hrun : t.running = true) (hs : Ended t.held s) :
    (t.after fl s).Inv cfg first := by
  constructor
  · intro hrun'
    exact absurd hrun' (by simp [Trans.after, hs.sent])
  · simpa [Trans.after, hs.relays] using hi.sent
  · intro hrun'
    exact absurd hrun' (by simp [Trans.after, hs.sent])
  · intro _ _
    have hbroken : broke s = true := by simp [broke, hs.sent, hs.stopped, hs.acts]
    refine ⟨fl, rfl, ?_⟩
    show s.held = (broke s || _)
    rw [hbroken, hs.held, hi.held (.inl hrun)]
    rfl

theorem Trans.Inv.gaveUp (hi : t.Inv cfg first) (hrun : t.running = true) {name : String}
    (hname : t.armed = some name) (hs : GaveUp (t.held && keeps cfg name fl) s) :
    (t.after fl s).Inv cfg first := by
  have hsent : (t.after fl s).sent = t.sent := by simp [Trans.after, hs.relays]
  constructor
  · intro hrun'
    exact absurd hrun' (by simp [Trans.after, hs.sent])
  · rw [hsent]
    exact hi.sent
  · intro hrun'
    exact absurd hrun' (by simp [Trans.after, hs.sent])
  · intro _ _
    have hbroken : broke s = false := by
      cases hstop : s.stopped with
      | false => simp [broke, hs.relays, hstop]
      | true => simp [broke, hs.relays, hstop, hs.decided hstop]
    have hlast : (if t.sent = 1 then first else some "uac_auth_fail") = some name := by
      obtain ⟨hsent, harm⟩ | ⟨hsent, harm⟩ := hi.armed hrun <;> simp [hsent, ← harm, hname]
    refine ⟨fl, rfl, ?_⟩
    rw [hsent, hlast]
    show s.held = (broke s || _)
    rw [hbroken, hs.held, hi.held (.inl hrun)]
    rfl

theorem Trans.Inv.fail {codes : List Int} (hi : t.Inv cfg first) (hrun : t.running = true)
    (h : t.fail cfg fl codes = some t') : t'.Inv cfg first := by
  unfold Trans.fail at h
  split at h
  · rename_i hnone
    cases h
    constructor
    · intro hr
      cases hr
    · exact hi.sent
    · exact fun _ => hi.held (.inl hrun)
    · refine fun _ _ => ⟨fl, rfl, ?_⟩
      obtain ⟨hsent, harm⟩ | ⟨hsent, harm⟩ := hi.armed hrun
      · simp [hsent, ← harm, hnone, hi.held (.inl hrun)]
      · rw [hnone] at harm
        cases harm
  · rename_i name hname
    obtain ⟨⟨calls, r⟩, hr, rfl⟩ := Option.map_eq_some_iff.mp h
    obtain ⟨hne, hs⟩ | hs | hs := (failureRoute_wp name).run hr
    · exact hi.retried hrun hname hne hs
    · exact hi.ended hrun hs
    · exact hi.gaveUp hrun hname hs

theorem Trans.Inv.step {e : Event} (hi : t.Inv cfg first) (h : step cfg t e = some t') :
    t'.Inv cfg first := by
  unfold Opensips.step at h
  split at h
  · rename_i hrun
    cases e with
    | reply rep codes => exact hi.reply hrun h
    | fail fl codes => exact hi.fail hrun h
  · cases h

theorem Trans.Inv.exec {events : List Event} (hi : t.Inv cfg first)
    (h : exec (Opensips.step cfg) t events = some t') : t'.Inv cfg first :=
  Run.exec_inv (fun _ _ _ hi h => hi.step h) hi h

theorem Trans.inv_start (hsent : s.sent = true) (hrelays : s.relays = 1) (hheld : s.held = true) :
    (Trans.start s).Inv cfg s.onFailure where
  armed _ := .inl ⟨hrelays, rfl⟩
  sent := .inl hrelays
  held _ := hheld
  ending hrun := absurd hrun (by simp [Trans.start, hsent])

section Session

variable {req : Msg} {codes : List Int} {calls : List (Cmd × Int)} {r : Option Unit}
variable {events : List Event}

/-- The runs of a transaction that the main route has begun. -/
theorem inv_of_route (hr : (route cfg req).run codes = some (calls, r))
    (hinv : req.method = "INVITE") (hsent : (Seen.of held calls).sent = true)
    (h : exec (step cfg) (Trans.start (Seen.of held calls)) events = some t) :
    t.Inv cfg (if req.hasTotag then cfg.onReInvite else some cfg.onInvite) := by
  have hs : Disposed cfg req held (Seen.of held calls) := .of_run hr
  have hrelays : (Seen.of held calls).relays = 1 := by
    have := hs.once
    have := Seen.relays_of_sent hsent
    omega
  obtain ⟨hheld, -, harm⟩ := hs.invite hrelays hinv
  rw [← harm]
  exact (Trans.inv_start hsent hrelays hheld).exec h

/-- **The session of a call**: it lasts as long as the INVITE may succeed, and
it is given up when the INVITE fails, unless the RTPProxy has timed out or the
failure route does not get there. -/
theorem invite_session (hr : (route cfg req).run codes = some (calls, r))
    (hinv : req.method = "INVITE") (htag : req.hasTotag = false)
    (hsent : (Seen.of held calls).sent = true)
    (h : exec (step cfg) (Trans.start (Seen.of held calls)) events = some t) :
    t.sent ≤ 2 ∧ (t.running = true ∨ t.answered = true → t.held = true) ∧
      (t.running = false → t.answered = false → ∃ fl, t.last = some fl ∧
        (t.held = true ↔ t.broken = true ∨ fl.endReason = "RTPProxy Timeout")) := by
  have hi := inv_of_route hr hinv hsent h
  obtain ⟨-, hre, hne⟩ := cfg.names
  refine ⟨by have := hi.sent; omega, hi.held, fun h₁ h₂ => ?_⟩
  obtain ⟨fl, hfl, hheld⟩ := hi.ending h₁ h₂
  refine ⟨fl, hfl, ?_⟩
  obtain hsent | hsent := hi.sent <;> simp [hheld, hsent, htag, keeps, hre, hne]

/-- Bob challenges the INVITE, and is busy. -/
theorem invite_session_busy : ∃ calls t,
    (route (uac (.num 34)) aliceInvite).run [1, 1, 1, 1, 1, 1, 1, 1, -1, -1, 1, 1] =
      some (calls, none) ∧
    exec (step (uac (.num 34))) (Trans.start (Seen.of false calls))
      [.fail ⟨401, false, ""⟩ [1, 1, 1], .fail ⟨486, false, ""⟩ [1]] = some t ∧
    t.sent ≤ 2 ∧ (t.running = true ∨ t.answered = true → t.held = true) ∧
      (t.running = false → t.answered = false → ∃ fl, t.last = some fl ∧
        (t.held = true ↔ t.broken = true ∨ fl.endReason = "RTPProxy Timeout")) := by
  have hr : (route (uac (.num 34)) aliceInvite).run [1, 1, 1, 1, 1, 1, 1, 1, -1, -1, 1, 1] =
    some (_, none) := rfl
  refine ⟨_, _, hr, rfl, invite_session hr rfl rfl rfl (by rfl :
    exec _ _ [.fail ⟨401, false, ""⟩ [1, 1, 1], .fail ⟨486, false, ""⟩ [1]] = _)⟩

/-- **A re-INVITE that fails** leaves the session alone, but for one that has
been sent again with credentials and fails then. -/
theorem reinvite_session (hr : (route cfg req).run codes = some (calls, r))
    (hinv : req.method = "INVITE") (htag : req.hasTotag = true)
    (hsent : (Seen.of held calls).sent = true)
    (h : exec (step cfg) (Trans.start (Seen.of held calls)) events = some t) :
    t.sent ≤ 2 ∧ (t.running = true ∨ t.answered = true → t.held = true) ∧
      (t.running = false → t.answered = false → ∃ fl, t.last = some fl ∧
        (t.held = false ↔
          t.broken = false ∧ t.sent = 2 ∧ fl.endReason ≠ "RTPProxy Timeout")) := by
  have hi := inv_of_route hr hinv hsent h
  obtain ⟨-, hre, -⟩ := cfg.names
  refine ⟨by have := hi.sent; omega, hi.held, fun h₁ h₂ => ?_⟩
  obtain ⟨fl, hfl, hheld⟩ := hi.ending h₁ h₂
  refine ⟨fl, hfl, ?_⟩
  obtain hsent | hsent := hi.sent
  · cases hroute : cfg.onReInvite <;> simp [hheld, hsent, htag, keeps, hroute]
  · simp [hheld, hsent, keeps, hre]

end Session

/-- A re-INVITE of Alice's. -/
def aliceReInvite : Msg := ⟨"INVITE", true, 5061, 512⟩

/-- Bob challenges the re-INVITE, and turns it down. -/
theorem reinvite_session_declined : ∃ calls t,
    (route (uac (.num 34)) aliceReInvite).run [1, 1, 1, 1, 1, 1, 1, 1, 1, 1] =
      some (calls, none) ∧
    exec (step (uac (.num 34))) (Trans.start (Seen.of true calls))
      [.fail ⟨401, false, ""⟩ [1, 1, 1], .fail ⟨488, false, ""⟩ [1]] = some t ∧
    t.sent ≤ 2 ∧ (t.running = true ∨ t.answered = true → t.held = true) ∧
      (t.running = false → t.answered = false → ∃ fl, t.last = some fl ∧
        (t.held = false ↔
          t.broken = false ∧ t.sent = 2 ∧ fl.endReason ≠ "RTPProxy Timeout")) := by
  have hr : (route (uac (.num 34)) aliceReInvite).run [1, 1, 1, 1, 1, 1, 1, 1, 1, 1] =
    some (_, none) := rfl
  refine ⟨_, _, hr, rfl, reinvite_session hr rfl rfl rfl (by rfl :
    exec _ _ [.fail ⟨401, false, ""⟩ [1, 1, 1], .fail ⟨488, false, ""⟩ [1]] = _)⟩

end VoipTests.Switch.Opensips
