import VoipTests.Subtest.Machine
import VoipTests.Subtest.Verdict
import Mathlib.Logic.Relation

/-!
# VoipTests.Subtest.Moves

What a subtest does, one move at a time.

`Move` is an abstract model of a subtest whose UA exists: each constructor is
one thing its code can do without looking outside, with the condition under
which the code does it.  The condition is mostly about the last entry of the
chronicle, which tells what the code is reacting to.  `Moves` is a sequence
of moves, and `VoipTests.Subtest.Refine` shows that every stretch of code of
every class is one.

Facts about whole runs are then proved move by move.
-/

namespace VoipTests

open Callback

/-! ## classes -/

/-- `issubclass(cls, c)` -/
def PyClass.isA (cls c : PyClass) : Bool := c ∈ cls.mro

/-- The re-INVITE this class sends is meant to fail. -/
def PyClass.wantsFailure (cls : PyClass) : Bool := cls.isA (.a .reinvFail)

/-- The event a re-INVITE of this class is meant to end in. -/
def PyClass.wants (cls : PyClass) (ev : CCEvent) : Bool :=
  if cls.wantsFailure then ev.isFailure else ev.isConnect

/-- The classes whose `reinvite` puts an older body back into `ua.lSDP`. -/
def PyClass.restores (cls : PyClass) : Bool :=
  cls.isA (.a .reinvBrkn2) || cls.isA (.a .reinvOnhold)

/-- The origins for which `disconnected` sets `disconnect_done`. -/
def PyClass.accepts (cls : PyClass) (origin : Origin) : Bool :=
  if cls.isAlice then origin ∈ [Origin.switch, .callee] else origin ∈ [Origin.switch, .caller]

/-- The body of an event that `a_test1.recvEvent` checks. -/
def CCEvent.checked : CCEvent → Option Sdp
  | .ring _ _ sdp | .preConnect _ _ sdp | .connect _ _ sdp => sdp
  | _ => none

/-- What can make the code add to `nerrs`: a body that is rejected, an event
while a re-INVITE is in progress, any event of a call that must not be set up
(`a_test_inv_brkn1`), and the hang-up timer of `a_test_reinv_bad_ack`. -/
def Blames (cls : PyClass) (cfg : TcCfg) : Obs → Prop
  | .event ev inProgress =>
    (cls.isAlice = true ∧ ∃ sdp, ev.checked = some sdp ∧ cfg.Rejects sdp) ∨
      (inProgress = true ∧ cls.isA .testReinvite = true) ∨ cls.isA (.a .invBrkn1) = true
  | .fired .disconnect => cls.isA (.a .reinvBadAck) = true
  | _ => False

/-! ## moves -/

namespace Subtest

variable (s s' : Subtest)

/-- The last entry of the chronicle. -/
abbrev last : Option Obs := s.log.getLast?

/-- `s'` differs from `s` in what no verdict depends on. -/
def Unseen : Prop :=
  ∃ (rtp : Rtp) (env : Env) (body : Option Sdp) (pIncr : Int),
    rtp.inited = s.rtp.inited ∧ rtp.closing = s.rtp.closing ∧
      s' = { s with rtp := rtp, env := env, body := body, pIncr := pIncr }

/-- The object with `self.lSDP` replaced. -/
def withLSDP (sdp : Sdp) : Subtest := { s with ua := { s.ua with lSDP := some sdp } }

/-- The object after `ua.recvEvent(event)` has been called. -/
def injected (ev : CCEvent) : Subtest := (s.storeSDP ev.body).note (.inject ev)

/-- The object with a timer more. -/
def withTimer (t : Timer) : Subtest := { s with timers := s.timers ++ [t] }

/-- The other side has asked for a new session: a re-INVITE has just come in
(a class that wants its own one to fail takes none meanwhile), or the delay of
its answer is over. -/
def Asked : Prop :=
  s.last = some (.fired .processReinvite) ∨
    (∃ sdp inProgress, s.last = some (.event (.update sdp) inProgress) ∧
      (s.cls.wantsFailure = true → inProgress = false)) ∨
    (s.cls.isAlice = false ∧ ∃ on, s.last = some (.held on))

end Subtest

/-- One thing the code does. -/
inductive Move (s : Subtest) : Subtest → Prop
  | unseen {s' : Subtest} (h : s.Unseen s') : Move s s'
  | named : Move s { s with mightfail := s.named }
  | raised (exc : Exc) : Move s (s.note (.raised exc))
  | err {o : Obs} (ho : s.last = some o) (hb : Blames s.cls s.tccfg o) :
      Move s { s with nerrs := s.nerrs + 1 }
  | timer {t : Timer} (h : t.cb ∈ [TimerCb.disconnect, .cancel, .processReinvite]) :
      Move s (s.withTimer t)
  | hangUp (h : s.disconnectDone = false) : Move s (s.injected .disconnect)
  /-- `connected`, which may also set the timer of the first re-INVITE. -/
  | connected {ts : List Timer} (hl : s.last = some .connected)
      (hts : ∀ t ∈ ts, t.cb = .reinvite ∧ s.reinviteIval.isSome = true) (hlen : ts.length ≤ 1)
      (ival : ℚ) :
      Move s ({ s.withTimer ⟨.disconnect, ival⟩ with
        timers := (s.withTimer ⟨.disconnect, ival⟩).timers ++ ts
        connectDone := true }.note .connectDone)
  | disconnected {origin : Origin} {acct : Acct} (hl : s.last = some (.disconnected origin acct))
      (ha : s.cls.accepts origin = true) :
      Move s { ({ s with disconnectDone := true }.note .disconnectDone) with acct := some acct }
  | otherDisconnected {origin : Origin} {acct : Acct}
      (hl : s.last = some (.disconnected origin acct)) (ha : s.cls.accepts origin = false) :
      Move s { s with acct := some acct }
  | ringDone (h : s.cls.isAlice = true →
      ∃ ev inProgress, s.last = some (.event ev inProgress) ∧ ev.isRing = true) :
      Move s { s with ringDone := true }
  /-- Bob rings, and sets the timer of what comes next if something does. -/
  | ring {code : Nat} {reason : String} {sdp : Option Sdp} {ival : ℚ}
      (ha : s.cls.isAlice = false) (hl : s.last = some (.fired .ring))
      (hd : s.connectDone = false ∧ s.disconnectDone = false)
      (hsdp : s.cls.isA .testReinvite = true → sdp = none) :
      Move s ((s.withTimer ⟨.connect, ival⟩).injected (.ring code reason sdp))
  /-- Bob fails the call, or a re-INVITE. -/
  | fail {code : Nat} {reason : String} (ha : s.cls.isAlice = false) :
      Move s (s.injected (.fail code reason))
  /-- Bob answers the call. -/
  | connect {code : Nat} {reason : String} {sdp : Option Sdp} {ival : ℚ}
      (ha : s.cls.isAlice = false) (hl : s.last = some (.fired .connect))
      (hd : s.connectDone = false ∧ s.disconnectDone = false) :
      Move s ((s.withTimer ⟨.disconnect, ival⟩).injected (.connect code reason sdp))
  | connectDone (ha : s.cls.isAlice = false) :
      Move s ({ s with connectDone := true }.note .connectDone)
  /-- A timer for Bob's first re-INVITE. -/
  | reinviteTimer {ival : ℚ} (ha : s.cls.isAlice = false) (hi : s.reinviteIval = some ival) :
      Move s (s.withTimer ⟨.reinvite, ival⟩)
  /-- A re-INVITE is sent. -/
  | reinvite {lSDP sdp : Sdp} {cb : TimerCb} (hl : s.last = some (.fired cb))
      (hcb : cb = .reinvite ∨ cb = .offHold)
      (hc : s.connectDone = true) (hd : s.disconnectDone = false)
      (hlsdp : s.ua.lSDP = some lSDP) (hv : sdp.version = lSDP.version + 1) :
      Move s ({ s with reinviteInProgress := true }.injected (.update (some sdp)))
  /-- The body in `ua.lSDP` is swapped for another of the same version. -/
  | swapped {lSDP sdp : Sdp} (hr : s.cls.restores = true) (hl : s.ua.lSDP = some lSDP)
      (hv : sdp.version = lSDP.version) : Move s (s.withLSDP sdp)
  | restored (hr : s.cls.restores = true) (sdp : Sdp) :
      Move s ((s.withLSDP sdp).note .restored)
  /-- An on-hold, or an off-hold, is counted. -/
  | held (on : Bool) (h : s.cls.isAlice = true ∨
      ∃ sdp inProgress, s.last = some (.event (.update sdp) inProgress)) :
      Move s ((s.hold on).note (.held on))
  /-- The next step of the on-hold sequence is put on a timer. -/
  | scheduled {cb : TimerCb} {ival : ℚ} (hc : s.cls.isA (.a .reinvOnhold) = true)
      (hcb : cb = .reinvite ∨ cb = .offHold) (hs : s.sched.getLast? = some ival) :
      Move s ({ s with sched := s.sched.dropLast }.withTimer ⟨cb, ival⟩)
  /-- A re-INVITE from the other side is answered. -/
  | answer {code : Nat} {reason : String} {lSDP sdp : Sdp} (ha : s.Asked)
      (hl : s.ua.lSDP = some lSDP) (hv : sdp.version = lSDP.version + 1) :
      Move s (s.injected (.connect code reason (some sdp)))
  | updated : Move s { s with nupdates := s.nupdates + 1 }
  | settled {ev : CCEvent} (hl : s.last = some (.event ev true))
      (he : ev.isConnect = true ∨ ev.isFailure = true) :
      Move s { s with reinviteInProgress := false }
  | reinviteDone {ev : CCEvent} (hl : s.last = some (.event ev true))
      (he : s.cls.wants ev = true) : Move s { s with reinviteDone := true }
  /-- `alldone` is one move. -/
  | dead {s' : Subtest} (hl : s.last = some .dead)
      (h : machine.settle [] (alldone s.cls.mro s) = some ⟨s', []⟩) : Move s s'

/-- Any number of moves. -/
abbrev Moves : Subtest → Subtest → Prop := Relation.ReflTransGen Move

/-! ## what no move changes -/

theorem Subtest.Unseen.refl (s : Subtest) : s.Unseen s :=
  ⟨s.rtp, s.env, s.body, s.pIncr, rfl, rfl, rfl⟩

theorem Subtest.Unseen.trans {s₁ s₂ s₃ : Subtest} (h₁ : s₁.Unseen s₂) (h₂ : s₂.Unseen s₃) :
    s₁.Unseen s₃ := by
  obtain ⟨_, _, _, _, hi₁, hc₁, rfl⟩ := h₁
  obtain ⟨rtp, env, body, pIncr, hi₂, hc₂, rfl⟩ := h₂
  exact ⟨rtp, env, body, pIncr, hi₂.trans hi₁, hc₂.trans hc₁, rfl⟩

/-- How the move of `alldone` ends: it returns, or it raises. -/
theorem ends_of_settle {s s' : Subtest}
    (h : machine.settle [] (alldone s.cls.mro s) = some ⟨s', []⟩) :
    ∃ s₁, s.Ends (s.cls.isA .testEarlyCancel) s₁ ∧
      (s' = s₁ ∨ ∃ exc, s' = s₁.note (.raised exc)) := by
  have hquiet : Quiet (Subtest.Ends (s.cls.isA .testEarlyCancel)) (alldone s.cls.mro) :=
    quiet_alldone decide_eq_true
  have hq := hquiet s
  cases ho : alldone s.cls.mro s with
  | ret a s₁ =>
      rw [ho] at h hq
      cases h
      exact ⟨_, hq, .inl rfl⟩
  | raise exc s₁ =>
      rw [ho] at h hq
      cases h
      exact ⟨_, hq, .inr ⟨exc, rfl⟩⟩
  | call c s₁ k =>
      rw [ho] at hq
      exact hq.elim
  | spin =>
      rw [ho] at h
      cases h

/-- What a subtest is for life, once its UA exists. -/
structure Subtest.SameLife (s s' : Subtest) : Prop where
  cls : s'.cls = s.cls
  tccfg : s'.tccfg = s.tccfg
  named : s'.named = s.named
  reinviteIval : s'.reinviteIval = s.reinviteIval
  expectedContactUri : s'.expectedContactUri = s.expectedContactUri
  created : s'.ua.created = s.ua.created
  inited : s'.rtp.inited = s.rtp.inited

namespace Subtest.SameLife

theorem refl (s : Subtest) : s.SameLife s := ⟨rfl, rfl, rfl, rfl, rfl, rfl, rfl⟩

theorem trans {s₁ s₂ s₃ : Subtest} (h₁ : s₁.SameLife s₂) (h₂ : s₂.SameLife s₃) :
    s₁.SameLife s₃ :=
  ⟨h₂.cls.trans h₁.cls, h₂.tccfg.trans h₁.tccfg, h₂.named.trans h₁.named,
    h₂.reinviteIval.trans h₁.reinviteIval, h₂.expectedContactUri.trans h₁.expectedContactUri,
    h₂.created.trans h₁.created, h₂.inited.trans h₁.inited⟩

end Subtest.SameLife

theorem Subtest.Ends.sameLife {early : Bool} {s s' : Subtest} (h : s.Ends early s') :
    s.SameLife s' where
  cls := h.field Subtest.cls fun _ => rfl
  tccfg := h.field Subtest.tccfg fun _ => rfl
  named := h.field Subtest.named fun _ => rfl
  reinviteIval := h.field Subtest.reinviteIval fun _ => rfl
  expectedContactUri := h.field Subtest.expectedContactUri fun _ => rfl
  created := h.field (fun s => s.ua.created) fun _ => rfl
  inited := h.field (fun s => s.rtp.inited) fun _ => rfl

theorem Move.sameLife {s s' : Subtest} (h : Move s s') : s.SameLife s' := by
  cases h with
  | unseen h =>
      obtain ⟨_, _, _, _, hi, _, rfl⟩ := h
      exact ⟨rfl, rfl, rfl, rfl, rfl, rfl, hi⟩
  | dead hl h =>
      obtain ⟨s₁, he, rfl | ⟨exc, rfl⟩⟩ := ends_of_settle h
      · exact he.sameLife
      · exact he.sameLife.trans ⟨rfl, rfl, rfl, rfl, rfl, rfl, rfl⟩
  | held on _ => cases on <;> exact ⟨rfl, rfl, rfl, rfl, rfl, rfl, rfl⟩
  | _ => exact ⟨rfl, rfl, rfl, rfl, rfl, rfl, rfl⟩

theorem Moves.sameLife {s s' : Subtest} (h : Moves s s') : s.SameLife s' := by
  induction h with
  | refl => exact .refl _
  | tail _ hm ih => exact ih.trans hm.sameLife

/-- The contract of every callback: moves, once the UA exists.  Nothing is
asked of a stretch that begins before. -/
def inMoves : Callback.Contract Subtest where
  guar s s' := s.ua.created = true → Moves s s'
  rely s s' := s.ua.created = true → s.SameLife s'
  guar_refl _ _ := .refl
  guar_trans s₁ s₂ s₃ h₁ h₂ hc := by
    have hm := h₁ hc
    exact hm.trans (h₂ (hm.sameLife.created.trans hc))
  rely_refl _ _ := .refl _
  rely_trans s₁ s₂ s₃ h₁ h₂ hc := by
    have hl := h₁ hc
    exact hl.trans (h₂ (hl.created.trans hc))
  rely_of_guar _ _ h hc := (h hc).sameLife

end VoipTests
