import VoipTests.Subtest.Pair
import VoipTests.Subtest.Silence

/-!
# VoipTests.Subtest.OnHold

Alice of the scenario `reinv_onhold`, one callback at a time.

Of a stretch only what it does to the counts, the schedule, the timers and the
flags is of interest (`Holding`), and whether the next re-INVITE can still be
built (`Subtest.Ready`).  `Turn` has one constructor for each thing a callback
can do to them, and `Rest` is what is left to be done when the UA returns.
-/

namespace VoipTests

open Callback

variable {s s' s₁ s₂ : Subtest} {ev : CCEvent} {t : Timer}

/-! ## what is of interest -/

/-- Every section has a `c=` header. -/
def Headed (sects : List Section) : Prop := ∀ sect ∈ sects, sect.cHeader.isSome = true

instance (sects : List Section) : Decidable (Headed sects) :=
  inferInstanceAs (Decidable (∀ sect ∈ sects, sect.cHeader.isSome = true))

/-- A `CCEventConnect` that came in while a re-INVITE was in progress. -/
def Obs.concludes : Obs → Bool
  | .event ev inProgress => inProgress && ev.isConnect
  | _ => false

/-- The re-INVITEs that have been answered by a `CCEventConnect`. -/
def concluded (log : List Obs) : Nat := log.countP Obs.concludes

/-- What the chain of holds depends on. -/
structure Holding where
  cls : PyClass
  inited : Bool
  reinviteIval : Option ℚ
  reinviteInProgress : Bool
  connectDone : Bool
  disconnectDone : Bool
  sched : List ℚ
  onholdCount : Nat
  offholdCount : Nat
  timers : List Timer
  sent : Nat
  concluded : Nat

namespace Subtest

/-- What is of interest of an object. -/
def holding (s : Subtest) : Holding where
  cls := s.cls
  inited := s.rtp.inited
  reinviteIval := s.reinviteIval
  reinviteInProgress := s.reinviteInProgress
  connectDone := s.connectDone
  disconnectDone := s.disconnectDone
  sched := s.sched
  onholdCount := s.onholdCount
  offholdCount := s.offholdCount
  timers := s.timers
  sent := VoipTests.sent s.log
  concluded := VoipTests.concluded s.log

/-- There is a body that can be put on hold. -/
def Ready (s : Subtest) : Prop := ∃ lSDP, s.ua.lSDP = some lSDP ∧ Headed lSDP.sections

theorem Ready.headed {lSDP : Sdp} (h : s.Ready) (hl : s.ua.lSDP = some lSDP) :
    Headed lSDP.sections := by
  obtain ⟨lSDP', hl', hh⟩ := h
  rw [hl, Option.some.injEq] at hl'
  exact hl' ▸ hh

theorem not_ready (hl : s.ua.lSDP = none) : ¬ s.Ready := by
  rintro ⟨lSDP, hl', -⟩
  rw [hl] at hl'
  cases hl'

/-- The object has become one with these values, and can build as much as
before. -/
structure Becomes (s : Subtest) (v : Holding) (s' : Subtest) : Prop where
  holding : s'.holding = v
  ready : s.Ready → s'.Ready

/-- Nothing of interest has changed. -/
abbrev Still (s s' : Subtest) : Prop := s.Becomes s.holding s'

theorem Still.refl (s : Subtest) : s.Still s := ⟨rfl, id⟩

theorem Becomes.trans {v : Holding} (h : s.Becomes v s₁) (h' : s₁.Still s₂) : s.Becomes v s₂ :=
  ⟨h'.holding.trans h.holding, fun hr => h'.ready (h.ready hr)⟩

theorem Becomes.note {v : Holding} {o : Obs} (h : s.Becomes v s₁) (ho : o.sendsUpdate = false)
    (hc : o.concludes = false) : s.Becomes v (s₁.note o) := by
  refine ⟨?_, h.ready⟩
  rw [← h.holding]
  simp [Subtest.holding, Subtest.note, sent, concluded, ho, hc]

theorem Unseen.still (h : s.Unseen s') : s.Still s' := by
  obtain ⟨rtp, env, body, pIncr, hi, -, rfl⟩ := h
  exact ⟨by simp [Subtest.holding, hi], id⟩

/-- Entries that neither send nor answer a re-INVITE. -/
theorem still_of_log {l : List Obs} (hlog : s'.log = s.log ++ l)
    (hl : ∀ o ∈ l, o.sendsUpdate = false ∧ o.concludes = false)
    (hs : { s' with log := [] }.holding = { s with log := [] }.holding) (hua : s'.ua = s.ua) :
    s.Still s' := by
  have hcount {f : Obs → Bool} (hf : ∀ o ∈ l, f o = false) : s'.log.countP f = s.log.countP f := by
    have hzero : l.countP f = 0 := List.countP_eq_zero.mpr fun o ho => by simp [hf o ho]
    rw [hlog, List.countP_append, hzero, add_zero]
  have hsent : sent s'.log = sent s.log := hcount fun o ho => (hl o ho).1
  have hconcluded : concluded s'.log = concluded s.log := hcount fun o ho => (hl o ho).2
  refine ⟨?_, fun ⟨sdp, hl, hh⟩ => ⟨sdp, by rw [hua, hl], hh⟩⟩
  simp only [holding, Holding.mk.injEq] at hs ⊢
  simp only [hs, hsent, hconcluded, and_self]

theorem Ends.still (h : s.Ends false s') : s.Still s' := by
  obtain ⟨n, hn⟩ := h.log
  have hrest := h.field (fun s => { s with log := [], connectDone := false }.holding) fun _ => rfl
  have hc := (h.flags rfl).2
  refine still_of_log hn (fun o ho => ?_) ?_ (h.field Subtest.ua fun _ => rfl)
  · rw [List.eq_of_mem_replicate ho]
    exact ⟨rfl, rfl⟩
  · simp only [holding, Holding.mk.injEq] at hrest ⊢
    simp only [hrest, hc, and_self]

end Subtest

/-- A program that leaves everything of interest as it is. -/
abbrev Calm {α : Type} (p : M α) : Prop := Quiet Subtest.Still p

section Calm

variable {α β : Type} {p : M α} {f : α → M β}

theorem calm_bind (hp : Calm p) (hf : ∀ a, Calm (f a)) : Calm (p >>= f) :=
  Quiet.bind (fun _ _ _ h h' => h.trans h') hp hf

theorem calm_pure (a : α) : Calm (pure a : M α) := Quiet.pure .refl a

theorem calm_raise (e : Exc) : Calm (M.raise e : M α) := Quiet.raise .refl e

theorem calm_ofSome (o : Option α) : Calm (M.ofSome o) := by
  cases o with
  | none => exact calm_raise _
  | some a => exact calm_pure a

theorem calm_of_unseen (hp : Quiet Subtest.Unseen p) : Calm p := hp.mono fun _ _ => Subtest.Unseen.still

theorem calm_addErr : Calm M.addErr := Quiet.modify fun _ => ⟨rfl, id⟩

theorem calm_checkMedia (sdp : Sdp) : Calm (Test.checkMedia sdp) := by
  unfold Test.checkMedia
  refine Quiet.get fun s => ?_
  cases s.tccfg.checkhostport sdp with
  | none => exact calm_raise _
  | some r =>
      exact Quiet.ite (fun _ => calm_bind calm_addErr fun _ => calm_raise _) fun _ => calm_pure _

/-- The body of an event that is checked, and that the endpoint is set up for. -/
theorem ATest1.calm_recvMedia (ev : CCEvent) : Calm (ATest1.recvMedia ev) := by
  have hbody {sdp : Option Sdp} {c : Prop} [Decidable c] : Calm (if c then do
        let sdp ← M.ofSome sdp
        Test.checkMedia sdp
        Test.rtpStartOrUpdate sdp
      else pure () : M Unit) :=
    Quiet.ite (fun _ => calm_bind (calm_ofSome _) fun sdp => calm_bind (calm_checkMedia sdp) fun _ =>
      calm_of_unseen (unseen_rtpStartOrUpdate sdp)) fun _ => calm_pure _
  unfold ATest1.recvMedia
  cases ev with
  | ring _ _ sdp => exact hbody
  | connect _ _ sdp => exact hbody
  | preConnect _ _ sdp => exact hbody
  | _ => exact calm_pure _

theorem ATest1.calm_recvEvent (ev : CCEvent) : Calm (ATest1.recvEvent ev) := by
  unfold ATest1.recvEvent
  refine Quiet.get fun s => Quiet.ite (fun _ => ?_) fun _ => ATest1.calm_recvMedia ev
  exact calm_bind (Quiet.modify fun _ => ⟨rfl, id⟩) fun _ => ATest1.calm_recvMedia ev

end Calm

/-! ## an answer that is welcome -/

/-- `_rtp_start_or_update` finds no media in the body, or can set up the endpoint
for it. -/
def Subtest.streams (s : Subtest) (sdp : Sdp) : Bool :=
  !s.rtp.enabled || match pickMedia sdp.sections with
    | .ok none => true
    | _ => if s.rtp.ep.isNone then s.env.endpoint.isSome else s.env.updateOk

/-- The code can do with the body of an answer what it has to. -/
def Subtest.Welcomes (s : Subtest) (ev : CCEvent) : Prop :=
  ∃ sdp ∈ ev.body, s.tccfg.Accepts sdp ∧ s.streams sdp = true

instance (s : Subtest) (ev : CCEvent) : Decidable (s.Welcomes ev) :=
  inferInstanceAs (Decidable (∃ sdp ∈ ev.body, s.tccfg.Accepts sdp ∧ s.streams sdp = true))

theorem isSome_of_complaint {cfg : TcCfg} {sect : Section} (h : cfg.complaint sect = some .allGood) :
    sect.cHeader.isSome = true := by
  unfold TcCfg.complaint at h
  split at h
  · cases h
  · cases hc : sect.cHeader with
    | none =>
        rw [hc] at h
        cases h
    | some c => rfl

theorem relevant_of_isAudio {sect : Section} (h : sect.isAudio = true) : sect.relevant = true := by
  unfold Section.isAudio at h
  unfold Section.relevant
  simp only [Bool.and_eq_true, decide_eq_true_eq, List.mem_cons, List.not_mem_nil, or_false] at h ⊢
  tauto

/-- Media can be picked from a body that has been checked. -/
theorem pickMedia_of_headed {sects : List Section}
    (h : ∀ sect ∈ sects, sect.relevant = true → sect.cHeader.isSome = true) :
    ∃ mdata, pickMedia sects = .ok mdata := by
  induction sects with
  | nil => exact ⟨none, rfl⟩
  | cons sect sects ih =>
      rw [List.forall_mem_cons] at h
      unfold pickMedia
      split
      · exact ih h.2
      · next ha =>
        split
        · exact ih h.2
        · obtain ⟨c, hc⟩ := Option.isSome_iff_exists.mp (h.1 (relevant_of_isAudio (by simpa using ha)))
          rw [hc]
          exact ⟨_, rfl⟩

theorem finishes_rtpStartOrUpdate {sdp : Sdp} (hinit : s.rtp.inited = true)
    (hsdp : s.tccfg.Accepts sdp) (hstreams : s.streams sdp = true) :
    Finishes (Test.rtpStartOrUpdate sdp s) := by
  obtain ⟨mdata, hpick⟩ := pickMedia_of_headed fun sect hsect hr =>
    isSome_of_complaint ((TcCfg.accepts_iff _ _).mp hsdp sect hsect hr)
  unfold Subtest.streams at hstreams
  unfold Test.rtpStartOrUpdate M.assert Test.rtpPickMedia
  rw [hpick] at hstreams ⊢
  cases hen : s.rtp.enabled with
  | false => simp [hinit, hen]
  | true =>
      cases mdata with
      | none => simp [hinit, hen]
      | some mdata =>
          cases hr : s.rtp.ep with
          | none =>
              obtain ⟨⟨laddr, lport⟩, hep⟩ : ∃ ep, s.env.endpoint = some ep := by
                simpa [hen, hr, Option.isSome_iff_exists] using hstreams
              simp [hinit, hen, hr, Test.rtpCreate, hep, Test.modifyRtp]
          | some ep =>
              have hup : s.env.updateOk = true := by simpa [hen, hr] using hstreams
              simp [hinit, hen, hr, Test.rtpUpdate, hup, Test.modifyRtp]

/-- **An answer that is welcome** is taken in without a word. -/
theorem ATest1.finishes_recvEvent (hev : ev.isConnect = true) (hinit : s.rtp.inited = true)
    (h : s.Welcomes ev) : Finishes (ATest1.recvEvent ev s) := by
  obtain ⟨sdp, hsdp, hacc, hstreams⟩ := h
  cases ev with
  | connect code reason body =>
      obtain rfl : body = some sdp := hsdp
      have hmedia := finishes_rtpStartOrUpdate hinit hacc hstreams
      rw [TcCfg.Accepts] at hacc
      simpa [ATest1.recvEvent, ATest1.recvMedia, CCEvent.isRing, M.ofSome, Test.checkMedia, hacc]
        using hmedia
  | _ => cases hev

/-! ## turns -/

/-- What is left to be done when the UA returns: a hold has been sent and is to
be counted, and after an on-hold the body before it is put back. -/
def Rest : UaCall → Subtest → Subtest → Subtest → Prop
  | .recvEvent (.update _), s₀, s, s' =>
    if s₀.last = some (.fired .offHold) then
      s.Becomes { s.holding with offholdCount := s.offholdCount + 1 } s'
    else s'.holding = { s.holding with onholdCount := s.onholdCount + 1 } ∧ s'.Ready
  | _, _, s, s' => s.cls = .a .reinvOnhold → s.Still s'

/-- The first stretch of a callback: how it stops, and where. -/
inductive Turn (s : Subtest) : Cb → Stop Exc UaCall Unit → Subtest → Prop
  /-- An event that answers no re-INVITE. -/
  | event {ev : CCEvent} {stop : Stop Exc UaCall Unit} {s' : Subtest}
      (hev : (s.reinviteInProgress && ev.isConnect) = false) (hs : s.Still s')
      (hstop : ∀ c, stop ≠ .call c) : Turn s (.event ev) stop s'
  /-- A re-INVITE of the other side, which is answered. -/
  | answer {body : Option Sdp} {code : Nat} {reason : String} {sdp : Sdp} {s' : Subtest}
      (hs : s.Still s') (hsdp : s.Ready → Headed sdp.sections) :
      Turn s (.event (.update body)) (.call (.recvEvent (.connect code reason (some sdp)))) s'
  /-- The answer to a re-INVITE, which nothing follows. -/
  | last {ev : CCEvent} {stop : Stop Exc UaCall Unit} {s' : Subtest} (hev : ev.isConnect = true)
      (hp : s.reinviteInProgress = true) (hleft : s.sched = [] ∨ ¬ s.Welcomes ev)
      (hs : s.Becomes { s.holding with reinviteInProgress := false } s')
      (hstop : ∀ c, stop ≠ .call c) : Turn s (.event ev) stop s'
  /-- The answer to a re-INVITE, and the timer of the next one. -/
  | next {ev : CCEvent} {ival : ℚ} {s' : Subtest} (hev : ev.isConnect = true)
      (hp : s.reinviteInProgress = true) (hsched : s.sched ≠ [])
      (hs : s.Becomes { s.holding with
        reinviteInProgress := false
        sched := s.sched.dropLast
        timers := s.timers ++
          [⟨if s.onholdCount > s.offholdCount then .offHold else .reinvite, ival⟩] } s') :
      Turn s (.event ev) (.ret ()) s'
  | connected {ival ival' : ℚ} {s' : Subtest}
      (hs : s.Becomes { s.holding with
        connectDone := true
        timers := s.timers ++ [⟨.disconnect, ival⟩, ⟨.reinvite, ival'⟩] } s') :
      Turn s .connected (.ret ()) s'
  | disconnected {origin : Origin} {acct : Acct} {s' : Subtest}
      (hs : s.Becomes { s.holding with disconnectDone := true } s' ∨ s.Still s') :
      Turn s (.disconnected origin acct) (.ret ()) s'
  | dead {stop : Stop Exc UaCall Unit} {s' : Subtest} (hs : s.Still s')
      (hstop : ∀ c, stop ≠ .call c) : Turn s .dead stop s'
  /-- The poll, which goes on if there is something left to wait for. -/
  | poll {t : Timer} {ts : List Timer} {s' : Subtest} (ht : t.cb = .disconnect)
      (hts : ∀ t' ∈ ts, t'.cb = .disconnect) (hlog : s'.log = s.log)
      (hs : s.Becomes { s.holding with timers := s.timers ++ ts } s') : Turn s (.timer t) (.ret ()) s'
  | hangUp {t : Timer} (ht : t.cb = .disconnect) (hd : s.disconnectDone = false)
      (hc : s.onholdCount = 3 ∧ s.offholdCount = 2) :
      Turn s (.timer t) (.call (.recvEvent .disconnect)) s
  /-- An on-hold, or an off-hold. -/
  | hold {t : Timer} {sdp : Sdp} {s' : Subtest} (ht : t.cb.starts)
      (hd : s.connectDone = true ∧ s.disconnectDone = false) (hlast : s'.last = s.last)
      (hs : s.Becomes { s.holding with reinviteInProgress := true } s')
      (hsdp : s.Ready → Headed sdp.sections) :
      Turn s (.timer t) (.call (.recvEvent (.update (some sdp)))) s'
  /-- One that cannot be sent. -/
  | noHold {t : Timer} {stop : Stop Exc UaCall Unit} {s' : Subtest} (ht : t.cb.starts)
      (hlost : (t.cb = .reinvite ∧ (s.connectDone = false ∨ s.disconnectDone = true)) ∨
        (s.connectDone = true ∧ s.disconnectDone = false ∧ ¬ s.Ready))
      (hs : s.Still s') (hstop : ∀ c, stop ≠ .call c) : Turn s (.timer t) stop s'
  /-- An off-hold that is not sent, and is counted all the same. -/
  | stray {t : Timer} {s' : Subtest} (ht : t.cb = .offHold)
      (hgone : s.connectDone = false ∨ s.disconnectDone = true)
      (hs : s.Becomes { s.holding with offholdCount := s.offholdCount + 1 } s') :
      Turn s (.timer t) (.ret ()) s'

/-- The callback turns the object as it should. -/
abbrev Turns (cb : Cb) (s : Subtest) (o : Out Subtest Exc UaCall Unit) : Prop := o.Once (Turn s cb) Rest

theorem mro_a_reinvOnhold : (PyClass.a .reinvOnhold).mro =
    [.a .reinvOnhold, .a .reinvite, .testReinvite, .a .t1, .test] := by decide

/-! ## events -/

theorem Turns.of_calm {o : Out Subtest Exc UaCall Unit}
    (hev : (s.reinviteInProgress && ev.isConnect) = false) (h : o.Until fun
      | .call _, _ => False
      | _, s' => s.Still s') : Turns (.event ev) s o := by
  cases o with
  | ret a s' => exact .event hev h (by simp)
  | raise e s' => exact .event hev h (by simp)
  | call c s' k => exact h.elim
  | spin => exact trivial

theorem mro_of_onhold (hc : s.cls = .a .reinvOnhold) :
    s.cls.mro = [.a .reinvOnhold, .a .reinvite, .testReinvite, .a .t1, .test] := by
  rw [hc, mro_a_reinvOnhold]

theorem ATestReinvOnhold.onReinviteConnected_eq (hc : s.cls = .a .reinvOnhold) :
    M.self VoipTests.onReinviteConnected s = .ret () (match s.sched.getLast? with
      | none => s
      | some ival => { s with sched := s.sched.dropLast }.withTimer
          ⟨if s.onholdCount > s.offholdCount then .offHold else .reinvite, ival⟩) := by
  show VoipTests.onReinviteConnected s.cls.mro s = _
  rw [mro_of_onhold hc]
  show ATestReinvOnhold.onReinviteConnected (pure ()) s = _
  unfold ATestReinvOnhold.onReinviteConnected
  rw [Prog.bind_apply, Prog.get_apply, Out.bind_ret]
  cases s.sched.getLast? <;> rfl

theorem ATestReinvOnhold.turns_onReinviteConnected (hc : s.cls = .a .reinvOnhold)
    (hev : ev.isConnect = true) (hp : s.reinviteInProgress = true)
    (h : s.Becomes { s.holding with reinviteInProgress := false } s₁) :
    Turns (.event ev) s (M.self VoipTests.onReinviteConnected s₁) := by
  have hkeep := h.holding
  simp only [Subtest.holding, Holding.mk.injEq] at hkeep
  obtain ⟨hcls, -, -, -, -, -, hsched, hon, hoff, -⟩ := hkeep
  rw [onReinviteConnected_eq (hcls.trans hc)]
  cases hs : s₁.sched.getLast? with
  | none =>
      rw [hsched, List.getLast?_eq_none_iff] at hs
      exact .last hev hp (.inl hs) h (by simp)
  | some ival =>
      have hne : s.sched ≠ [] := fun hnil => by
        rw [hsched, hnil] at hs
        cases hs
      refine @Turn.next s ev ival _ hev hp hne ⟨?_, h.ready⟩
      have hhold := h.holding
      simp only [Subtest.holding, Holding.mk.injEq] at hhold
      simp [Subtest.holding, Subtest.withTimer, hhold]

/-- **The answer to a re-INVITE.** -/
theorem TestReinvite.turns_concluded (hc : s.cls = .a .reinvOnhold) (hi : s.rtp.inited = true)
    (hev : ev.isConnect = true) (hp : s.reinviteInProgress = true) :
    Turns (.event ev) s (TestReinvite.recvEvent ev (ATest1.recvEvent ev) s) := by
  have hup : ev.isUpdate = false := by cases ev <;> first | rfl | cases hev
  let s₁ : Subtest := { s with reinviteInProgress := false }
  have h₁ : s.Becomes { s.holding with reinviteInProgress := false } s₁ := ⟨rfl, id⟩
  have hcalm := ATest1.calm_recvEvent ev s₁
  have hfinishes (hw : s.Welcomes ev) : Finishes (ATest1.recvEvent ev s₁) :=
    ATest1.finishes_recvEvent hev hi hw
  unfold TestReinvite.recvEvent
  simp only [hup, Bool.false_eq_true, if_false, Prog.bind_apply, Prog.get_apply, Out.bind_ret, hp,
    Bool.not_true, hev, if_true, Prog.modify_apply]
  show Turns _ _ ((ATest1.recvEvent ev s₁).bind _)
  cases ho : ATest1.recvEvent ev s₁ with
  | raise e s₂ =>
      rw [ho] at hcalm hfinishes
      exact .last hev hp (.inr hfinishes) (h₁.trans hcalm) (by simp)
  | call c s₂ k =>
      rw [ho] at hcalm
      exact hcalm.elim
  | spin => exact trivial
  | ret a s₂ =>
      rw [ho] at hcalm
      have hdone : s₂.Still { s₂ with reinviteDone := true } := ⟨rfl, id⟩
      exact ATestReinvOnhold.turns_onReinviteConnected hc hev hp ((h₁.trans hcalm).trans hdone)

/-- Any other event. -/
theorem TestReinvite.turns_other (hc : s.cls = .a .reinvOnhold) (hup : ev.isUpdate = false)
    (hev : (s.reinviteInProgress && ev.isConnect) = false) :
    Turns (.event ev) s (TestReinvite.recvEvent ev (ATest1.recvEvent ev) s) := by
  refine .of_calm hev ?_
  unfold TestReinvite.recvEvent
  rw [if_neg (by simp [hup]), Prog.bind_apply, Prog.get_apply, Out.bind_ret]
  refine until_ite (fun _ => ATest1.calm_recvEvent ev s) fun hp => ?_
  have hcon : ev.isConnect = false := by
    rw [Bool.not_eq_true', Bool.not_eq_false] at hp
    rwa [hp, Bool.true_and] at hev
  have hfailed (s₁ : Subtest) (h₁ : s.Still s₁) : (M.self (VoipTests.onReinviteFailed ev) s₁).Until fun
      | .call _, _ => False
      | _, s' => s.Still s' := by
    have hcls : s₁.cls = s.cls := congrArg Holding.cls h₁.holding
    show (VoipTests.onReinviteFailed ev s₁.cls.mro s₁).Until _
    rw [mro_of_onhold (hcls.trans hc)]
    exact h₁.trans (calm_addErr s₁)
  -- What is done about the event once the UA has had it.
  have hrest (s₁ : Subtest) (h₁ : s.Still s₁) : ((ATest1.recvEvent ev >>= fun _ =>
      if ev.isConnect = true then do
        M.modify fun s => { s with reinviteDone := true }
        M.self VoipTests.onReinviteConnected
      else if ev.isFailure = true then M.self (VoipTests.onReinviteFailed ev)
      else pure ()) s₁).Until fun
        | .call _, _ => False
        | _, s' => s.Still s' :=
    (ATest1.calm_recvEvent ev).until_bind (fun _ _ h => h₁.trans h) fun _ s₂ h₂ =>
      until_ite (fun h => by simp [hcon] at h) fun _ =>
        until_ite (fun _ => hfailed s₂ (h₁.trans h₂)) fun _ => h₁.trans h₂
  refine until_ite (fun h => by simp [hcon] at h) fun _ => until_ite (fun _ => ?_) fun _ => hrest s (.refl s)
  exact hrest { s with nerrs := s.nerrs + 1 } ⟨rfl, id⟩

/-! ## the other side's re-INVITE -/

/-- New ports leave the `c=` headers as they are. -/
theorem yields_alterPorts (sects : List Section) :
    (alterPorts sects s).Yields fun sects' => Headed sects → Headed sects' := by
  induction sects generalizing s with
  | nil => exact fun h => h
  | cons sect sects ih =>
      have hcons {sect' : Section} {sects' : List Section} (hsect : sect'.cHeader = sect.cHeader)
          (hsects : Headed sects → Headed sects') (h : Headed (sect :: sects)) :
          Headed (sect' :: sects') := by
        obtain ⟨h₁, h₂⟩ := List.forall_mem_cons.mp h
        exact List.forall_mem_cons.mpr ⟨hsect ▸ h₁, hsects h₂⟩
      rw [alterPorts]
      refine until_ite (fun _ => ?_) fun _ => ?_
      · exact Out.Until.bind ih (fun sects' s' hs => hcons rfl hs) (fun _ _ h => h) fun _ _ h => h
      · refine unseen_rtpPortAlloc.until_bind (fun _ _ _ => trivial) fun portn s₁ _ => ?_
        exact Out.Until.bind ih (fun sects' s' hs => hcons rfl hs) (fun _ _ h => h) fun _ _ h => h

theorem reinvAnswDelay_onhold : (PyClass.a .reinvOnhold).reinvAnswDelay = 0 := by decide +kernel

theorem TestReinvite.turns_answerReinvite {body : Option Sdp} :
    Turns (.event (.update body)) s (TestReinvite.answerReinvite s) := by
  unfold TestReinvite.answerReinvite
  rw [Prog.bind_apply, Prog.get_apply, Out.bind_ret]
  cases hl : s.ua.lSDP with
  | none => exact .event (by simp [CCEvent.isConnect]) (.refl s) (by simp)
  | some lSDP =>
      refine ((unseen_alterPorts lSDP.sections s).and (yields_alterPorts lSDP.sections)).once_bind
        (fun c s' h => h.1) (fun e s' h => ?_) fun sects s' h => ?_
      · exact .event (by simp [CCEvent.isConnect]) h.1.still (by simp)
      · exact ⟨.answer h.1.still fun hready => h.2 (hready.headed hl), fun s₁ _ => .refl s₁⟩

/-- **A re-INVITE of the other side.** -/
theorem TestReinvite.turns_update {body : Option Sdp} (hc : s.cls = .a .reinvOnhold) (sup : M Unit) :
    Turns (.event (.update body)) s (TestReinvite.recvEvent (.update body) sup s) := by
  have hanswer : Turns (.event (.update body)) s (M.self VoipTests.processReinvite s) := by
    show Turns _ _ (VoipTests.processReinvite s.cls.mro s)
    rw [mro_of_onhold hc]
    show Turns _ _ (TestReinvite.processReinvite s)
    unfold TestReinvite.processReinvite
    rw [Prog.bind_apply, Prog.get_apply, Out.bind_ret, hc, reinvAnswDelay_onhold, if_neg (lt_irrefl 0)]
    exact turns_answerReinvite
  have hcounted (s' : Subtest) : s'.Still { s' with nupdates := s'.nupdates + 1 } := ⟨rfl, id⟩
  refine Out.Once.bind hanswer (fun _ s' h => ?_) (fun _ _ h => h) (fun _ _ h => h)
    fun c s₀ s₁ s₂ h hT => ?_
  · cases h with
    | event hev hs => exact .event hev (hs.trans (hcounted s')) (by simp)
    | last hev => cases hev
    | next hev => cases hev
  · cases h with
    | answer => exact ⟨hT, fun _ hc => (hT hc).trans (hcounted s₂)⟩
    | event _ _ hstop => exact (hstop c rfl).elim
    | last hev => cases hev

theorem turns_recvEvent (hc : s.cls = .a .reinvOnhold) (hi : s.rtp.inited = true) :
    Turns (.event ev) s (M.self (recvEvent ev) s) := by
  show Turns _ _ (recvEvent ev s.cls.mro s)
  rw [mro_of_onhold hc]
  show Turns _ _ (TestReinvite.recvEvent ev (ATest1.recvEvent ev) s)
  cases hup : ev.isUpdate with
  | true =>
      obtain ⟨body, rfl⟩ := CCEvent.exists_update hup
      exact TestReinvite.turns_update hc _
  | false =>
      cases hev : s.reinviteInProgress && ev.isConnect with
      | true =>
          rw [Bool.and_eq_true] at hev
          exact TestReinvite.turns_concluded hc hi hev.2 hev.1
      | false => exact TestReinvite.turns_other hc hup hev

/-! ## the call -/

theorem turns_connected (hc : s.cls = .a .reinvOnhold) (hi : s.reinviteIval.isSome = true) :
    Turns .connected s (M.self connected s) := by
  obtain ⟨ival, hi⟩ := Option.isSome_iff_exists.mp hi
  show Turns _ _ (connected s.cls.mro s)
  rw [mro_of_onhold hc]
  show Turns _ _ (TestReinvite.connected ATest1.connected s)
  have heq : TestReinvite.connected ATest1.connected s = .ret () ({ s with
      timers := s.timers ++ [Timer.mk .disconnect (s.disconnectIval.getD 0), Timer.mk .reinvite ival]
      connectDone := true }.note .connectDone) := by
    simp [TestReinvite.connected, ATest1.connected, M.timeout, M.setConnectDone, Subtest.note, hi]
  rw [heq]
  exact .connected (Subtest.Becomes.note ⟨rfl, id⟩ rfl rfl)

theorem turns_disconnected {origin : Origin} {acct : Acct} (hc : s.cls = .a .reinvOnhold) :
    Turns (.disconnected origin acct) s (M.self (disconnected origin acct) s) := by
  show Turns _ _ (disconnected origin acct s.cls.mro s)
  rw [mro_of_onhold hc]
  show Turns _ _ (ATest1.disconnected origin acct s)
  unfold ATest1.disconnected
  have hacct (s : Subtest) : s.Still { s with acct := some acct } := ⟨rfl, id⟩
  split
  · have hdone : s.Becomes { s.holding with disconnectDone := true }
        ({ s with disconnectDone := true }.note .disconnectDone) :=
      Subtest.Becomes.note ⟨rfl, id⟩ rfl rfl
    exact .disconnected (.inl (hdone.trans (hacct _)))
  · exact .disconnected (.inr (hacct s))

theorem turns_dead (hc : s.cls = .a .reinvOnhold) : Turns .dead s (M.self alldone s) := by
  have hends : Quiet (Subtest.Ends false) (alldone s.cls.mro) := quiet_alldone fun h => by
    rw [mro_of_onhold hc] at h
    simp at h
  have h := hends s
  show Turns _ _ (alldone s.cls.mro s)
  cases ho : alldone s.cls.mro s with
  | ret a s' =>
      rw [ho] at h
      exact .dead h.still (by simp)
  | raise e s' =>
      rw [ho] at h
      exact .dead h.still (by simp)
  | call c s' k =>
      rw [ho] at h
      exact h.elim
  | spin => exact trivial

/-! ## the timers -/

/-- **The poll.** -/
theorem turns_disconnect (hc : s.cls = .a .reinvOnhold) (ht : t.cb = .disconnect) :
    Turns (.timer t) s (M.self disconnect s) := by
  show Turns _ _ (disconnect s.cls.mro s)
  rw [mro_of_onhold hc]
  show Turns _ _ (ATestReinvOnhold.disconnect Test.hangUp s)
  unfold ATestReinvOnhold.disconnect
  rw [Prog.bind_apply, Prog.get_apply, Out.bind_ret, Prog.ite_apply]
  split
  · next hd =>
    rw [Prog.ite_apply]
    split
    · next hcounts =>
      have hts : ∀ t' ∈ [Timer.mk .disconnect 1], t'.cb = .disconnect := by simp
      exact .poll ht hts rfl ⟨rfl, id⟩
    · next hcounts =>
      rw [not_or, not_not, not_not] at hcounts
      unfold Test.hangUp
      rw [Prog.bind_apply, Prog.get_apply, Out.bind_ret, Prog.ite_apply, if_pos hd]
      exact ⟨.hangUp ht (by simpa using hd) hcounts, fun s₁ _ => .refl s₁⟩
  · next hd =>
    have hts : ∀ t' ∈ ([] : List Timer), t'.cb = .disconnect := by simp
    exact .poll ht hts rfl ⟨by rw [List.append_nil]; rfl, id⟩

/-- The loop comes to its end where every section has a `c=` header. -/
theorem headed_putOnHold {addr : String} {sects : List Section} :
    (putOnHold addr sects).2 = true ↔ Headed sects := by
  induction sects with
  | nil => exact iff_of_true rfl (List.forall_mem_nil _)
  | cons sect sects ih =>
      unfold Headed at ih
      rw [putOnHold, Headed, List.forall_mem_cons]
      cases hc : sect.cHeader with
      | none => simp
      | some c => simpa using ih

theorem headed_putOnHold_fst {addr : String} {sects : List Section} (h : Headed sects) :
    Headed (putOnHold addr sects).1 := by
  induction sects with
  | nil => exact List.forall_mem_nil _
  | cons sect sects ih =>
      obtain ⟨h₁, h₂⟩ := List.forall_mem_cons.mp h
      obtain ⟨c, hc⟩ := Option.isSome_iff_exists.mp h₁
      rw [putOnHold, hc]
      exact List.forall_mem_cons.mpr ⟨rfl, ih h₂⟩

theorem TestReinvite.reinvite_eq {lSDP : Sdp} (hd : s.connectDone = true ∧ s.disconnectDone = false)
    (hl : s.ua.lSDP = some lSDP) : TestReinvite.reinvite false s =
      .call (.recvEvent (.update (some lSDP.bumpVersion))) { s with reinviteInProgress := true } (.ret ()) := by
  unfold TestReinvite.reinvite
  simp [hd, hl, M.ofSome, M.uaRecvEvent]

/-- What is left of an on-hold: it is counted, and the body before it put back. -/
theorem rest_onHold (body : Option Sdp) {bak : Sdp} (hl : s₀.last = some (.fired .reinvite))
    (hh : Headed bak.sections) : Rest (.recvEvent (.update body)) s₀ s
      ((((s.hold true).note (.held true)).withLSDP bak).note .restored) := by
  have hheld : s.Becomes { s.holding with onholdCount := s.onholdCount + 1 }
      ((s.hold true).note (.held true)) := Subtest.Becomes.note ⟨rfl, id⟩ rfl rfl
  have hback : ((s.hold true).note (.held true)).Still
      ((((s.hold true).note (.held true)).withLSDP bak).note .restored) :=
    Subtest.Becomes.note ⟨rfl, fun _ => ⟨bak, rfl, hh⟩⟩ rfl rfl
  rw [Rest, if_neg (by simp [hl])]
  exact ⟨(hheld.trans hback).holding, bak, rfl, hh⟩

/-- What is left of an off-hold: it is counted. -/
theorem rest_offHold (body : Option Sdp) (hl : s₀.last = some (.fired .offHold)) :
    Rest (.recvEvent (.update body)) s₀ s ((s.hold false).note (.held false)) := by
  rw [Rest, if_pos hl]
  exact Subtest.Becomes.note ⟨rfl, id⟩ rfl rfl

/-- **The timer of an on-hold.** -/
theorem turns_reinvite (hc : s.cls = .a .reinvOnhold) (ht : t.cb = .reinvite)
    (hl : s.last = some (.fired .reinvite)) : Turns (.timer t) s (M.self (reinvite true) s) := by
  show Turns _ _ (reinvite true s.cls.mro s)
  rw [mro_of_onhold hc]
  show Turns _ _ (ATestReinvOnhold.reinvite (TestReinvite.reinvite false) s)
  unfold ATestReinvOnhold.reinvite
  rw [Prog.bind_apply, Prog.get_apply, Out.bind_ret, Prog.ite_apply]
  split
  · next hd =>
    rw [Bool.and_eq_true, Bool.not_eq_true'] at hd
    cases hlsdp : s.ua.lSDP with
    | none => exact .noHold (.inl ht) (.inr ⟨hd.1, hd.2, Subtest.not_ready hlsdp⟩) (.refl s) (by simp)
    | some bak =>
        let addr := if s.tccfg.atype = .ip4 then "0.0.0.0" else "::"
        let s₁ := s.withLSDP { bak with sections := (putOnHold addr bak.sections).1 }
        have h₁ : s.Still s₁ := ⟨rfl, fun h => ⟨_, rfl, headed_putOnHold_fst (h.headed hlsdp)⟩⟩
        show Turns _ _ ((if (!(putOnHold addr bak.sections).2) = true then _ else _ : M Unit) s₁)
        cases hdone : (putOnHold addr bak.sections).2 with
        | false =>
            refine .noHold (.inl ht) (.inr ⟨hd.1, hd.2, fun h => ?_⟩) h₁ (by simp)
            rw [headed_putOnHold.mpr (h.headed hlsdp)] at hdone
            cases hdone
        | true =>
            have hh : Headed bak.sections := headed_putOnHold.mp hdone
            show Turns _ _ ((TestReinvite.reinvite false >>= fun _ => M.addHeld true >>= fun _ =>
              restoreLSDP bak) s₁)
            rw [Prog.bind_apply, TestReinvite.reinvite_eq (s := s₁) hd rfl]
            have hl₁ : { s₁ with reinviteInProgress := true }.last = some (.fired .reinvite) := hl
            exact ⟨.hold (.inl ht) hd rfl ⟨rfl, h₁.ready⟩ fun _ => headed_putOnHold_fst hh,
              fun s₂ => rest_onHold none hl₁ hh⟩
  · next hd =>
    refine .noHold (.inl ht) (.inl ⟨ht, ?_⟩) (.refl s) (by simp)
    rw [Bool.and_eq_true, Bool.not_eq_true', not_and, Bool.not_eq_false] at hd
    cases hcon : s.connectDone with
    | false => exact .inl rfl
    | true => exact .inr (hd hcon)

/-- **The timer of an off-hold.** -/
theorem turns_offHold (hc : s.cls = .a .reinvOnhold) (ht : t.cb = .offHold)
    (hl : s.last = some (.fired .offHold)) : Turns (.timer t) s (M.self offHold s) := by
  show Turns _ _ (offHold s.cls.mro s)
  rw [mro_of_onhold hc]
  show Turns _ _ (ATestReinvOnhold.offHold s)
  unfold ATestReinvOnhold.offHold
  rw [mro_a_reinvite]
  show Turns _ _ ((TestReinvite.reinvite false >>= fun _ => M.addHeld false) s)
  by_cases hd : s.connectDone = true ∧ s.disconnectDone = false
  · cases hlsdp : s.ua.lSDP with
    | none =>
        have hraise : TestReinvite.reinvite false s = .raise .attributeError s := by
          unfold TestReinvite.reinvite
          simp [hd, hlsdp, M.ofSome]
        rw [Prog.bind_apply, hraise]
        exact .noHold (.inr ht) (.inr ⟨hd.1, hd.2, Subtest.not_ready hlsdp⟩) (.refl s) (by simp)
    | some lSDP =>
        rw [Prog.bind_apply, TestReinvite.reinvite_eq hd hlsdp]
        have hl₁ : { s with reinviteInProgress := true }.last = some (.fired .offHold) := hl
        have hh (hready : s.Ready) : Headed lSDP.sections := hready.headed hlsdp
        exact ⟨.hold (.inr ht) hd rfl ⟨rfl, id⟩ hh,
          fun s₁ => rest_offHold none hl₁⟩
  · have hret : TestReinvite.reinvite false s = .ret () s := by
      unfold TestReinvite.reinvite
      simp [hd]
    rw [Prog.bind_apply, hret, Out.bind_ret]
    refine .stray ht ?_ (Subtest.Becomes.note ⟨rfl, id⟩ rfl rfl)
    rw [not_and, Bool.not_eq_false] at hd
    cases hcon : s.connectDone with
    | false => exact .inl rfl
    | true => exact .inr (hd hcon)

/-! ## every callback -/

/-- What stays as it is all along. -/
structure Holding.Sound (v : Holding) : Prop where
  cls : v.cls = .a .reinvOnhold
  inited : v.inited = true
  reinviteIval : v.reinviteIval.isSome = true
  timers : ∀ t ∈ v.timers, t.cb = .disconnect ∨ t.cb.starts

/-- **Every callback** turns the object as it should. -/
theorem turns_body {i : Input} {idle : Bool} (hs : s.holding.Sound)
    (he : machine.entry i s idle = some s₁) : (machine.body i s₁).Once (Turn s₁ i.cb) Rest := by
  obtain ⟨hen, rfl⟩ := entry_eq_entered he
  obtain ⟨cb, env⟩ := i
  have hc : (s.entered cb env).cls = .a .reinvOnhold := hs.cls
  show Turns cb (s.entered cb env) (M.self cb.body (s.entered cb env))
  cases cb with
  | event ev => exact turns_recvEvent hc hs.inited
  | connected => exact turns_connected hc hs.reinviteIval
  | disconnected origin acct => exact turns_disconnected hc
  | dead => exact turns_dead hc
  | inDialogInvite ruri => cases hs.cls.symm.trans hen
  | timer t =>
      have hl : (s.entered (.timer t) env).last = some (.fired t.cb) := List.getLast?_concat
      show Turns _ _ (M.self t.cb.body (s.entered (.timer t) env))
      rcases hs.timers t hen with ht | ht | ht
      · rw [ht]
        exact turns_disconnect hc ht
      · rw [ht] at hl ⊢
        exact turns_reinvite hc ht hl
      · rw [ht] at hl ⊢
        exact turns_offHold hc ht hl

end VoipTests
