import VoipTests.Subtest.Refine

/-!
# VoipTests.Subtest.Start

A subtest as its core has created it.

Until the first call of the UA the constructors only fill in attributes
(`Subtest.Prep`).  `Setup.start_cases` says what the object is like as the UA is
called, and that an object whose creation ended before has no UA: nothing can
ever happen to it.  From there on `respects_inMoves` takes over.
-/

namespace VoipTests

open Callback

variable {s : Subtest} {mro : List PyClass}

/-! ## preparations -/

/-- The object without what the constructors fill in. -/
def Subtest.core (s : Subtest) : Subtest :=
  { s with
    tccfg := { s.tccfg with uasCreds := none, uacCreds := none }
    answerIval := none
    disconnectIval := none
    expectedContactUri := none
    reinviteIval := none
    sched := []
    rtp := (Subtest.fresh s.cls s.tccfg s.named s.env).rtp
    ua := { s.ua with created := false, username := none, password := none, authEnalgs := none }
    env := { s.env with draws := [] } }

theorem Subtest.field_of_core {s s' : Subtest} (h : s'.core = s.core) {α : Type}
    (f : Subtest → α) (hf : ∀ s, f s.core = f s) : f s' = f s := by
  rw [← hf s', h, hf s]

/-- What code does that only prepares the object. -/
structure Subtest.Prep (s s' : Subtest) : Prop where
  core : s'.core = s.core
  created : s'.ua.created = s.ua.created
  inited : s.rtp.inited = true → s'.rtp.inited = true
  closing : s'.rtp.closing = s.rtp.closing
  reinviteIval : s'.reinviteIval = s.reinviteIval
  expectedContactUri : s'.expectedContactUri = s.expectedContactUri
  sched : s'.sched = s.sched

/-- The code returns, and has only prepared the object. -/
def Subtest.Prepares {α : Type} (s : Subtest) : Stop Exc UaCall α → Subtest → Prop
  | .ret _, s' => s.Prep s'
  | _, _ => False

/-- Nothing has come of the object. -/
structure Subtest.Dud (s s' : Subtest) : Prop where
  created : s'.ua.created = s.ua.created
  report : s'.report = s.report
  log : s'.log = s.log

namespace Subtest.Prep

theorem refl (s : Subtest) : s.Prep s := ⟨rfl, rfl, id, rfl, rfl, rfl, rfl⟩

theorem trans {s₁ s₂ s₃ : Subtest} (h₁ : s₁.Prep s₂) (h₂ : s₂.Prep s₃) : s₁.Prep s₃ :=
  ⟨h₂.core.trans h₁.core, h₂.created.trans h₁.created, fun h => h₂.inited (h₁.inited h),
    h₂.closing.trans h₁.closing, h₂.reinviteIval.trans h₁.reinviteIval,
    h₂.expectedContactUri.trans h₁.expectedContactUri, h₂.sched.trans h₁.sched⟩

/-- Nothing has come of an object that has only been prepared. -/
theorem dud {s s' : Subtest} (h : s.Prep s') : s.Dud s' :=
  ⟨h.created, Subtest.field_of_core h.core Subtest.report fun _ => rfl,
    Subtest.field_of_core h.core Subtest.log fun _ => rfl⟩

end Subtest.Prep

section Prep

variable {α β : Type} {p : M α} {f : α → M β}

theorem prep_bind (hp : Quiet Subtest.Prep p) (hf : ∀ a, Quiet Subtest.Prep (f a)) :
    Quiet Subtest.Prep (p >>= f) :=
  Quiet.bind (fun _ _ _ => .trans) hp hf

theorem prep_pure (a : α) : Quiet Subtest.Prep (pure a : M α) := Quiet.pure .refl a

theorem prep_raise (e : Exc) : Quiet Subtest.Prep (M.raise e : M α) := Quiet.raise .refl e

theorem prep_assert (c : Bool) : Quiet Subtest.Prep (M.assert c) :=
  Quiet.ite (fun _ => prep_pure _) fun _ => prep_raise _

theorem prep_ofSome (o : Option α) : Quiet Subtest.Prep (M.ofSome o) := by
  cases o with
  | none => exact prep_raise _
  | some a => exact prep_pure a

theorem prep_modifyRtp {g : Rtp → Rtp} (hi : ∀ rtp, rtp.inited = true → (g rtp).inited = true)
    (hc : ∀ rtp, (g rtp).closing = rtp.closing) : Quiet Subtest.Prep (Test.modifyRtp g) :=
  Quiet.modify fun s => ⟨rfl, rfl, hi s.rtp, hc s.rtp, rfl, rfl, rfl⟩

theorem prep_rtpPickMedia (sdp : Sdp) : Quiet Subtest.Prep (Test.rtpPickMedia sdp) := by
  unfold Test.rtpPickMedia
  cases pickMedia sdp.sections with
  | ok mdata => exact prep_pure _
  | error e => exact prep_raise _

theorem prep_rtpCreate (proto : Option AType) : Quiet Subtest.Prep (Test.rtpCreate proto) := by
  unfold Test.rtpCreate
  refine Quiet.get fun s => ?_
  cases s.env.endpoint with
  | none => exact prep_raise _
  | some ep => exact prep_modifyRtp (fun _ h => h) fun _ => rfl

theorem prep_rtpPrepareLocalSdp (sdp : Sdp) (laddr : String) (af : AType) :
    Quiet Subtest.Prep (Test.rtpPrepareLocalSdp sdp laddr af) := by
  unfold Test.rtpPrepareLocalSdp
  have hrest (_ : Unit) : Quiet Subtest.Prep (do
      let s ← M.get
      let ep ← M.ofSome s.rtp.ep
      M.assert (!Test.badLaddr laddr)
      pure (sdp.applyLocalMedia (some laddr) ep.lport (some af)) : M Sdp) :=
    Quiet.get fun s => prep_bind (prep_ofSome _) fun ep =>
      prep_bind (prep_assert _) fun _ => prep_pure _
  refine Quiet.get fun s => prep_bind (prep_assert _) fun _ =>
    Quiet.ite (fun _ => prep_pure _) fun _ => prep_bind (prep_rtpPickMedia sdp) fun mdata =>
      prep_bind (prep_assert _) fun _ => ?_
  exact Quiet.ite (fun _ => prep_bind (prep_rtpCreate _) hrest) fun _ => hrest ()

theorem prep_localBody : Quiet Subtest.Prep ATest1.localBody := by
  unfold ATest1.localBody
  refine Quiet.get fun s => Quiet.ite (fun _ => prep_bind (prep_ofSome _) fun body => ?_)
    fun _ => prep_pure _
  exact Quiet.ite (fun _ => prep_bind (prep_rtpPrepareLocalSdp _ _ _) fun _ => prep_pure _)
    fun _ => prep_bind (prep_rtpPrepareLocalSdp _ _ _) fun _ => prep_pure _

end Prep

/-! ## the constructors -/

/-- The classes whose constructor sets `reinvite_ival`: the side that starts
the re-INVITE. -/
def initiates : List PyClass → Bool
  | [] => false
  | .a .reinvite :: _ | .a .reinvBadAck :: _ | .b .reinvFrombob :: _ => true
  | .a .t1 :: _ | .b .t1 :: _ => false
  | _ :: sup => initiates sup

/-- What a constructor does. -/
structure Subtest.Inits (mro : List PyClass) (s s' : Subtest) : Prop where
  core : s'.core = s.core
  inited : s'.rtp.inited = true
  closing : s'.rtp.closing = s.rtp.closing
  reinviteIval : s'.reinviteIval.isSome = (initiates mro || s.reinviteIval.isSome)
  sched : s.sched.length ≤ 4 → s'.sched.length ≤ 4

/-- Where a constructor stops: Bob's at its end, Alice's at the first INVITE. -/
def InitStop (mro : List PyClass) (s : Subtest) : Stop Exc UaCall Unit → Subtest → Prop
  | .ret _, s' => s.Inits mro s' ∧ s'.ua.created = s.ua.created
  | .raise _, s' => s.Dud s' ∧ (.a .t1 ∈ mro ∨ s.rtp.inited = true)
  | .call c, s' => s.Inits mro s' ∧ s'.ua.created = true ∧
      (s.cls = .a .natedContact → s'.expectedContactUri = some s.env.contactUri) ∧
      (∃ cli cld body, c = .recvEvent (.ccTry cli cld body)) ∧ .a .t1 ∈ mro

theorem Test.rtpInit_eq : Test.rtpInit s = if s.rtp.inited then .raise .assertionError s
    else .ret () { s with rtp :=
      { s.rtp with inited := true, enabled := !s.tccfg.signallingOnly } } := by
  unfold Test.rtpInit Test.modifyRtp M.assert
  cases h : s.rtp.inited <;> simp [h]

theorem until_buildUa : (buildUa mro s).Until fun
    | .ret _, s' => s'.core = s.core ∧ s'.ua.created = true ∧ s'.rtp = s.rtp ∧
        s'.reinviteIval = s.reinviteIval ∧ s'.sched = s.sched ∧
        (mro.head? = some (.a .natedContact) → s'.expectedContactUri = some s.env.contactUri)
    | .raise _, s' => s' = s
    | .call _, _ => False := by
  fun_induction buildUa mro with
  | case1 => rfl
  | case2 sup ih =>
      unfold ATestNatedContact.buildUa
      rw [Prog.bind_apply, Out.until_bind]
      refine ih.mono fun stop s' h => ?_
      cases stop with
      | ret a =>
          obtain ⟨hcore, hcreated, hrtp, hival, hsched, -⟩ := h
          have huri : s'.env.contactUri = s.env.contactUri :=
            Subtest.field_of_core hcore (fun s => s.env.contactUri) fun _ => rfl
          exact ⟨hcore, hcreated, hrtp, hival, hsched, fun _ => congrArg some huri⟩
      | raise e => exact h
      | call c => exact h.elim
  | case3 sup => exact ⟨rfl, rfl, rfl, rfl, rfl, fun h => by cases h⟩
  | case4 c sup hn _ ih =>
      refine ih.mono fun stop s' h => ?_
      cases stop with
      | ret a =>
          obtain ⟨hcore, hcreated, hrtp, hival, hsched, -⟩ := h
          exact ⟨hcore, hcreated, hrtp, hival, hsched, fun h => (hn (Option.some.inj h)).elim⟩
      | raise e => exact h
      | call c => exact h.elim

theorem head_mro_natedContact : (PyClass.a .natedContact).mro.head? = some (.a .natedContact) := by
  decide

/-- `a_test1.__init__` runs up to the first INVITE. -/
theorem ATest1.until_init {scn : Scenario} {sup : List PyClass} :
    (ATest1.init scn s).Until (InitStop (.a .t1 :: sup) s) := by
  unfold ATest1.init
  rw [Prog.bind_apply, Test.rtpInit_eq]
  split
  · exact ⟨⟨rfl, rfl, rfl⟩, .inl List.mem_cons_self⟩
  · refine prep_localBody.until_bind (fun _ _ h =>
      ⟨⟨h.dud.created, h.dud.report, h.dud.log⟩, .inl List.mem_cons_self⟩) fun body s₁ h₁ => ?_
    rw [Prog.bind_apply, Out.until_bind]
    have hbuild : (VoipTests.buildUa s₁.cls.mro s₁).Until _ := until_buildUa
    refine Out.Until.mono hbuild fun stop s₂ h₂ => ?_
    cases stop with
    | ret a =>
        obtain ⟨hcore, hcreated, hrtp, hival, hsched, huri⟩ := h₂
        have hcls : s₁.cls = s.cls := Subtest.field_of_core h₁.core Subtest.cls fun _ => rfl
        have huri₁ : s₁.env.contactUri = s.env.contactUri :=
          Subtest.field_of_core h₁.core (fun s => s.env.contactUri) fun _ => rfl
        refine ⟨⟨hcore.trans h₁.core, ?_, ?_, ?_, ?_⟩, hcreated, fun hn => ?_, ⟨_, _, _, rfl⟩,
          List.mem_cons_self⟩
        · exact (congrArg Rtp.inited hrtp).trans (h₁.inited rfl)
        · exact (congrArg Rtp.closing hrtp).trans h₁.closing
        · rw [hival, h₁.reinviteIval]
          rfl
        · rw [hsched, h₁.sched]
          exact id
        · rw [huri, huri₁]
          rw [hcls, hn, head_mro_natedContact]
    | raise e =>
        subst h₂
        exact ⟨⟨h₁.dud.created, h₁.dud.report, h₁.dud.log⟩, .inl List.mem_cons_self⟩
    | call c => exact h₂.elim

/-- Drawing the intervals does not fail. -/
theorem BTest1.until_drawIvals : (BTest1.drawIvals s).Until s.Prepares := by
  have hrandom (s : Subtest) : (M.random s).Until s.Prepares := by
    unfold M.random
    rw [Prog.bind_apply, Prog.get_apply, Out.bind_ret]
    cases s.env.draws with
    | nil => exact trivial
    | cons r rest => exact ⟨rfl, rfl, id, rfl, rfl, rfl, rfl⟩
  have hdraw {s₁ : Subtest} {f : Unit → M Unit} {g : Draw → Subtest → Subtest} (h₁ : s.Prep s₁)
      (hg : ∀ r s, Subtest.Prep s (g r s))
      (hf : ∀ a s₂, s.Prep s₂ → (f a s₂).Until s.Prepares) :
      ((do
        let r ← M.random
        let a ← M.modify (g r)
        f a : M Unit) s₁).Until s.Prepares :=
    (hrandom s₁).bind (fun r s₂ h₂ => hf () _ ((h₁.trans h₂).trans (hg r s₂)))
      (fun _ _ h => h.elim) fun _ _ h => h.elim
  have hlast (s₁ : Subtest) (h₁ : s.Prep s₁) : ((if s.disconnectIval.isNone = true then do
        let r ← M.random
        M.modify fun s => { s with disconnectIval := some (4 + r.val * 10) }
      else pure () : M Unit) s₁).Until s.Prepares := by
    rw [Prog.ite_apply]
    split
    · exact hdraw h₁ (fun _ _ => ⟨rfl, rfl, id, rfl, rfl, rfl, rfl⟩) fun _ _ h => h
    · exact h₁
  unfold BTest1.drawIvals
  rw [Prog.bind_apply, Prog.get_apply, Out.bind_ret, Prog.ite_apply]
  split
  · exact hdraw (.refl s) (fun _ _ => ⟨rfl, rfl, id, rfl, rfl, rfl, rfl⟩) fun _ => hlast
  · exact hlast s (.refl s)

/-- Bob's constructor returns to the core. -/
theorem BTest1.until_init {sup : List PyClass} :
    (BTest1.init s).Until (InitStop (.b .t1 :: sup) s) := by
  unfold BTest1.init
  rw [Prog.bind_apply, Test.rtpInit_eq]
  split
  · next hi => exact ⟨⟨rfl, rfl, rfl⟩, .inr hi⟩
  · refine Out.Until.mono BTest1.until_drawIvals fun stop s₁ h₁ => ?_
    cases stop with
    | ret a =>
        refine ⟨⟨h₁.core, h₁.inited rfl, h₁.closing, ?_, ?_⟩, h₁.created⟩
        · rw [h₁.reinviteIval]
          rfl
        · rw [h₁.sched]
          exact id
    | raise e => exact h₁.elim
    | call c => exact h₁.elim

theorem ATestReinvOnhold.length_drawSched {limit : ℚ} {draws rest : List Draw} {sched : List ℚ}
    (h : drawSched limit draws = some (sched, rest)) : sched.length = 4 := by
  fun_induction drawSched limit draws with
  | case1 =>
      rw [Option.some.injEq, Prod.mk.injEq] at h
      rw [← h.1]
      rfl
  | case2 _ _ _ _ _ _ _ ih => exact ih h
  | case3 => cases h

/-- A constructor that first fills in something of its own. -/
theorem InitStop.of_modify {c : PyClass} {sup : List PyClass} {s₁ s₂ : Subtest}
    {stop : Stop Exc UaCall Unit} (h : InitStop sup s₁ stop s₂) (hcore : s₁.core = s.core)
    (hcreated : s₁.ua.created = s.ua.created) (hrtp : s₁.rtp = s.rtp)
    (hival : (initiates sup || s₁.reinviteIval.isSome) =
      (initiates (c :: sup) || s.reinviteIval.isSome))
    (hsched : s.sched.length ≤ 4 → s₁.sched.length ≤ 4) : InitStop (c :: sup) s stop s₂ := by
  have hinits (h : s₁.Inits sup s₂) : s.Inits (c :: sup) s₂ :=
    ⟨h.core.trans hcore, h.inited, hrtp ▸ h.closing, h.reinviteIval.trans hival,
      fun hs => h.sched (hsched hs)⟩
  cases stop with
  | ret a => exact ⟨hinits h.1, h.2.trans hcreated⟩
  | raise e =>
      have hreport : s₁.report = s.report :=
        Subtest.field_of_core hcore Subtest.report fun _ => rfl
      have hlog : s₁.log = s.log := Subtest.field_of_core hcore Subtest.log fun _ => rfl
      refine ⟨⟨h.1.created.trans hcreated, h.1.report.trans hreport, h.1.log.trans hlog⟩, ?_⟩
      exact h.2.imp (List.mem_cons_of_mem _) fun hi => hrtp ▸ hi
  | call d =>
      have hcls : s₁.cls = s.cls := Subtest.field_of_core hcore Subtest.cls fun _ => rfl
      have huri : s₁.env.contactUri = s.env.contactUri :=
        Subtest.field_of_core hcore (fun s => s.env.contactUri) fun _ => rfl
      exact ⟨hinits h.1, h.2.1, fun hn => by rw [h.2.2.1 (hcls.trans hn), huri], h.2.2.2.1,
        List.mem_cons_of_mem _ h.2.2.2.2⟩

theorem until_rtpOff {c : PyClass} {sup : List PyClass} {p : M Unit}
    (hi : initiates sup = initiates (c :: sup)) (h : (p s).Until (InitStop sup s)) :
    (rtpOff p s).Until (InitStop (c :: sup) s) := by
  unfold rtpOff
  rw [Prog.bind_apply, Out.until_bind]
  refine h.mono fun stop s₁ h₁ => ?_
  have h₂ : InitStop (c :: sup) s stop s₁ := h₁.of_modify rfl rfl rfl (by rw [hi]) id
  cases stop with
  | ret a => exact ⟨⟨h₂.1.core, h₂.1.inited, h₂.1.closing, h₂.1.reinviteIval, h₂.1.sched⟩, h₂.2⟩
  | raise e => exact h₂
  | call d => exact h₂

/-- **Where the constructors stop**, for every class. -/
theorem until_init {scn : Scenario} (hm : .a .t1 ∈ mro ∨ .b .t1 ∈ mro) :
    (init scn mro s).Until (InitStop mro s) := by
  fun_induction init scn mro generalizing s with
  | case1 => simp at hm
  | case2 sup ih => exact until_rtpOff rfl (ih (by simpa using hm))
  | case3 sup ih => exact until_rtpOff rfl (ih (by simpa using hm))
  | case4 sup ih => exact until_rtpOff rfl (ih (by simpa using hm))
  | case5 sup ih => exact until_rtpOff rfl (ih (by simpa using hm))
  | case6 sup ih =>
      exact (ih (by simpa using hm)).mono fun _ _ h => h.of_modify rfl rfl rfl rfl id
  | case7 sup ih =>
      exact (ih (by simpa using hm)).mono fun _ _ h => h.of_modify rfl rfl rfl rfl id
  | case8 sup ih =>
      exact (ih (by simpa using hm)).mono fun _ _ h =>
        h.of_modify rfl rfl rfl (by simp [initiates]) id
  | case9 sup ih =>
      unfold ATestReinvOnhold.init
      rw [Prog.bind_apply, Prog.get_apply, Out.bind_ret]
      dsimp only
      generalize hd : ATestReinvOnhold.drawSched _ _ = drawn
      cases drawn with
      | none => exact trivial
      | some r =>
          exact (ih (by simpa using hm)).mono fun _ _ h =>
            h.of_modify rfl rfl rfl rfl fun _ => (ATestReinvOnhold.length_drawSched hd).le
  | case10 sup ih =>
      exact (ih (by simpa using hm)).mono fun _ _ h =>
        h.of_modify rfl rfl rfl (by simp [initiates]) id
  | case11 sup ih =>
      exact (ih (by simpa using hm)).mono fun _ _ h =>
        h.of_modify rfl rfl rfl (by simp [initiates]) id
  | case12 sup => exact ATest1.until_init
  | case13 sup => exact BTest1.until_init
  | case14 c sup h₁ h₂ h₃ h₄ h₅ h₆ h₇ h₈ h₉ h₁₀ h₁₁ h₁₂ ih =>
      have hm' : .a .t1 ∈ sup ∨ .b .t1 ∈ sup := by
        rcases hm with hm | hm
        · exact .inl ((List.mem_cons.mp hm).resolve_left fun h => h₁₁ h.symm)
        · exact .inr ((List.mem_cons.mp hm).resolve_left fun h => h₁₂ h.symm)
      have hi : initiates sup = initiates (c :: sup) := by
        rw [initiates] <;> assumption
      exact (ih hm').mono fun _ _ h => h.of_modify rfl rfl rfl (by rw [hi]) id

/-! ## the first call of the UA -/

/-- An object nothing has happened to. -/
structure Subtest.Blank (s : Subtest) : Prop where
  rval : s.rval = 1
  nerrs : s.nerrs = 0
  ringDone : s.ringDone = false
  connectDone : s.connectDone = false
  disconnectDone : s.disconnectDone = false
  acct : s.acct = none
  doneCalled : s.doneCalled = false
  reinviteInProgress : s.reinviteInProgress = false
  reinviteDone : s.reinviteDone = false
  onholdCount : s.onholdCount = 0
  offholdCount : s.offholdCount = 0
  report : s.report = none

/-- What the chronicle, the timers and the UA are like as the UA is first
called: Alice's sends the INVITE, Bob's gets the one that has been checked. -/
def Setup.Called (p : Setup) (s : Subtest) : Prop :=
  match p.side with
  | .alice => ∃ cli cld body, s.log = [.inject (.ccTry cli cld body)] ∧ s.ua.lSDP = body ∧
      s.timers = []
  | .bob _ req => ∃ sdp ival, req.body = some sdp ∧ p.tccfg.Accepts sdp ∧
      s.log = [.invite (some sdp), .recvRequest] ∧ s.ua.lSDP = none ∧ s.timers = [⟨.ring, ival⟩]

/-- A subtest as the UA is first called. -/
structure Setup.Begun (p : Setup) (s : Subtest) : Prop where
  cls : s.cls = p.cls
  named : s.named = p.named
  check : s.tccfg.checkhostport = p.tccfg.checkhostport
  mightfail : s.mightfail = true → p.named = true
  created : s.ua.created = true
  inited : s.rtp.inited = true
  closing : s.rtp.closing = false
  reinviteIval : s.reinviteIval.isSome = initiates p.cls.mro
  expectedContactUri : p.cls = .a .natedContact →
    s.expectedContactUri = some p.env.contactUri
  sched : s.sched.length ≤ 4
  blank : s.Blank
  called : p.Called s

/-- A subtest whose UA has never been called. -/
structure Subtest.Unborn (s : Subtest) : Prop where
  created : s.ua.created = false
  report : s.report = none
  log : ∀ ev, .inject ev ∉ s.log

theorem Subtest.Dud.unborn {s s' : Subtest} (h : s.Dud s') (hs : s.Unborn) : s'.Unborn :=
  ⟨h.created.trans hs.created, h.report.trans hs.report, h.log ▸ hs.log⟩

/-- Where the creation of a subtest first stops. -/
def Setup.CreateStop (p : Setup) : Stop Exc UaCall Unit → Subtest → Prop
  | .call c, s => p.Begun (machine.sent c s)
  | _, s => s.Unborn

/-- The object the constructors start from. -/
abbrev Setup.fresh (p : Setup) : Subtest := .fresh p.cls p.tccfg p.named p.env

theorem Setup.unborn_fresh (p : Setup) : p.fresh.Unborn := ⟨rfl, rfl, fun _ => List.not_mem_nil⟩

theorem Setup.blank_of_core {p : Setup} (h : s.core = p.fresh.core) : s.Blank where
  rval := Subtest.field_of_core h Subtest.rval fun _ => rfl
  nerrs := Subtest.field_of_core h Subtest.nerrs fun _ => rfl
  ringDone := Subtest.field_of_core h Subtest.ringDone fun _ => rfl
  connectDone := Subtest.field_of_core h Subtest.connectDone fun _ => rfl
  disconnectDone := Subtest.field_of_core h Subtest.disconnectDone fun _ => rfl
  acct := Subtest.field_of_core h Subtest.acct fun _ => rfl
  doneCalled := Subtest.field_of_core h Subtest.doneCalled fun _ => rfl
  reinviteInProgress := Subtest.field_of_core h Subtest.reinviteInProgress fun _ => rfl
  reinviteDone := Subtest.field_of_core h Subtest.reinviteDone fun _ => rfl
  onholdCount := Subtest.field_of_core h Subtest.onholdCount fun _ => rfl
  offholdCount := Subtest.field_of_core h Subtest.offholdCount fun _ => rfl
  report := Subtest.field_of_core h Subtest.report fun _ => rfl

/-- The check does not look at the credentials. -/
theorem TcCfg.checkSections_creds (cfg : TcCfg) (uas uac : Option AuthCreds)
    (sects : List Section) :
    { cfg with uasCreds := uas, uacCreds := uac : TcCfg }.checkSections sects =
      cfg.checkSections sects := by
  induction sects with
  | nil => rfl
  | cons sect sects ih =>
      rw [checkSections, checkSections, ih]
      rfl

theorem Setup.check_of_core {p : Setup} (h : s.core = p.fresh.core) :
    s.tccfg.checkhostport = p.tccfg.checkhostport := by
  refine Subtest.field_of_core h (fun s => s.tccfg.checkhostport) fun s => ?_
  funext sdp
  exact congrArg (Option.map Why.result) (s.tccfg.checkSections_creds none none sdp.sections)

theorem mem_mro_a (scn : Scenario) : .a .t1 ∈ (PyClass.a scn).mro := by
  cases scn <;> decide +kernel

theorem mem_mro_b (scn : Scenario) : .b .t1 ∈ (PyClass.b scn).mro := by
  cases scn <;> decide +kernel

theorem notMem_mro_b (scn : Scenario) : .a .t1 ∉ (PyClass.b scn).mro := by
  cases scn <;> decide +kernel

theorem mem_mro_cls (p : Setup) : .a .t1 ∈ p.cls.mro ∨ .b .t1 ∈ p.cls.mro := by
  unfold Setup.cls
  cases p.side with
  | alice => exact .inl (mem_mro_a p.scn)
  | bob body req => exact .inr (mem_mro_b p.scn)

theorem until_completeAnswer (h : .b .t1 ∈ mro) : (completeAnswer mro s).Until fun
    | .call c, s' => c = .recvRequest ∧ s' = s
    | _, _ => False := by
  fun_induction completeAnswer mro with
  | case1 => simp at h
  | case2 sup ih =>
      unfold TestReinvite.completeAnswer
      rw [Prog.bind_apply, Out.until_bind]
      refine (ih (by simpa using h)).mono fun stop s' hs => ?_
      cases stop with
      | call c => exact hs
      | ret a => exact hs.elim
      | raise e => exact hs.elim
  | case3 sup => exact ⟨rfl, rfl⟩
  | case4 c sup _ hn ih =>
      exact ih ((List.mem_cons.mp h).resolve_left fun h => hn h.symm)

/-- What a constructor leaves, with what its caller adds. -/
theorem Setup.begun_of_inits {p : Setup} (h : p.fresh.Inits p.cls.mro s) {mightfail : Bool}
    {body : Option Sdp} {timers : List Timer} {ua : Ua} {log : List Obs}
    (hm : mightfail = true → p.named = true) (hc : ua.created = true)
    (huri : p.cls = .a .natedContact → s.expectedContactUri = some p.env.contactUri)
    (hcalled : p.Called { s with
      mightfail := mightfail, body := body, timers := timers, ua := ua, log := log }) :
    p.Begun { s with
      mightfail := mightfail, body := body, timers := timers, ua := ua, log := log } where
  cls := Subtest.field_of_core h.core Subtest.cls fun _ => rfl
  named := Subtest.field_of_core h.core Subtest.named fun _ => rfl
  check := Setup.check_of_core (s := s) h.core
  mightfail := hm
  created := hc
  inited := h.inited
  closing := h.closing
  reinviteIval := by
    rw [h.reinviteIval]
    exact Bool.or_false _
  expectedContactUri := huri
  sched := h.sched (Nat.zero_le 4)
  blank := by
    obtain ⟨h₁, h₂, h₃, h₄, h₅, h₆, h₇, h₈, h₉, h₁₀, h₁₁, h₁₂⟩ := Setup.blank_of_core h.core
    exact ⟨h₁, h₂, h₃, h₄, h₅, h₆, h₇, h₈, h₉, h₁₀, h₁₁, h₁₂⟩
  called := hcalled

theorem Setup.until_create_alice {p : Setup} (ha : p.side = .alice) :
    (create p.scn p.side p.fresh).Until p.CreateStop := by
  have hinit : (init p.scn p.cls.mro p.fresh).Until _ := until_init (mem_mro_cls p)
  unfold create
  rw [Prog.bind_apply, Out.until_bind]
  refine Out.Until.mono hinit fun stop s h => ?_
  cases stop with
  | ret a =>
      have hlog : s.log = [] := Subtest.field_of_core h.1.core Subtest.log fun _ => rfl
      rw [ha]
      have hunborn : { s with mightfail := s.named }.Unborn :=
        ⟨h.2, (Setup.blank_of_core h.1.core).report, fun ev => by simp [hlog]⟩
      exact hunborn
  | raise e => exact h.1.unborn p.unborn_fresh
  | call c =>
      obtain ⟨hi, hc, huri, ⟨cli, cld, body, rfl⟩, -⟩ := h
      have hlog : s.log = [] := Subtest.field_of_core hi.core Subtest.log fun _ => rfl
      have hts : s.timers = [] := Subtest.field_of_core hi.core Subtest.timers fun _ => rfl
      have hsdp : s.ua.lSDP = none :=
        Subtest.field_of_core hi.core (fun s => s.ua.lSDP) fun _ => rfl
      have hm : s.mightfail = false := Subtest.field_of_core hi.core Subtest.mightfail fun _ => rfl
      refine Setup.begun_of_inits hi (fun h => absurd (hm.symm.trans h) (by decide)) hc huri ?_
      rw [Setup.Called, ha]
      refine ⟨cli, cld, body, ?_, ?_, hts⟩
      · show s.log ++ _ = _
        rw [hlog]
        rfl
      · show body.or s.ua.lSDP = _
        rw [hsdp, Option.or_none]

theorem Test.until_checkMedia {sdp : Sdp} : (Test.checkMedia sdp s).Until fun
    | .ret _, s' => s' = s ∧ s.tccfg.Accepts sdp
    | .raise _, s' => s.Dud s'
    | .call _, _ => False := by
  unfold Test.checkMedia
  rw [Prog.bind_apply, Prog.get_apply, Out.bind_ret]
  rcases s.tccfg.checkhostport_cases sdp with h | ⟨why, h⟩ | h
  · rw [h]
    exact ⟨rfl, h⟩
  · rw [h]
    exact ⟨rfl, rfl, rfl⟩
  · rw [h]
    exact ⟨rfl, rfl, rfl⟩

theorem BTest1.until_authenticate {req : Req} : (BTest1.authenticate req s).Until fun
    | .call _, _ => False
    | _, s' => s' = s := by
  unfold BTest1.authenticate
  rw [Prog.bind_apply, Prog.get_apply, Out.bind_ret]
  cases s.tccfg.uasCreds with
  | none => rfl
  | some creds =>
      cases req.authorization with
      | none => rfl
      | some auth =>
          by_cases hu : auth.username ≠ creds.username <;>
            by_cases hv : auth.verify creds.password ≠ some true <;> simp [hu, hv]

theorem until_assert {c : Bool} {f : Unit → M Unit} {P : Stop Exc UaCall Unit → Subtest → Prop}
    (hc : c = true) (h : (f () s).Until P) : ((M.assert c >>= f) s).Until P := by
  rw [M.assert, if_pos hc]
  exact h

/-- The rest of `answer`, once there is a body, on the object `s`. -/
def BTest1.answerChecked (body sdp : Sdp) (req : Req) (s : Subtest) : M Unit := do
  Test.checkMedia sdp
  BTest1.authenticate req
  M.assert s.rtp.inited
  M.modify fun s => { s with ua := { s.ua with created := true } }
  M.timeout .ring s.cls.ringIval
  M.modify fun s => { s with body := some body }
  M.self completeAnswer

/-- What `answer` does on a new object. -/
theorem BTest1.answer_eq {body : Sdp} {req : Req} (hc : s.connectDone = false)
    (hd : s.disconnectDone = false) :
    BTest1.answer body req s = match req.body with
      | none => .raise .attributeError (s.note (.invite none))
      | some sdp => BTest1.answerChecked body sdp req (s.note (.invite (some sdp)))
          (s.note (.invite (some sdp))) := by
  unfold BTest1.answer
  rw [Prog.bind_apply, Prog.modify_apply, Out.bind_ret, Prog.bind_apply, Prog.get_apply,
    Out.bind_ret, if_pos (by simp [Subtest.note, hc, hd])]
  cases req.body <;> rfl

/-- Bob's `answer`, from the object his constructor has returned. -/
theorem BTest1.until_answer {p : Setup} {body : Sdp} {req : Req} (hb : p.side = .bob body req)
    (h : p.fresh.Inits p.cls.mro s) (hc : s.ua.created = false) :
    (BTest1.answer body req { s with mightfail := p.named }).Until p.CreateStop := by
  have hlog : s.log = [] := Subtest.field_of_core h.core Subtest.log fun _ => rfl
  have hts : s.timers = [] := Subtest.field_of_core h.core Subtest.timers fun _ => rfl
  have hsdp : s.ua.lSDP = none := Subtest.field_of_core h.core (fun s => s.ua.lSDP) fun _ => rfl
  have hcls : s.cls = p.cls := Subtest.field_of_core h.core Subtest.cls fun _ => rfl
  have hblank := Setup.blank_of_core h.core
  have hunborn (b : Option Sdp) : ({ s with mightfail := p.named }.note (.invite b)).Unborn :=
    ⟨hc, hblank.report, fun ev => by simp [Subtest.note, hlog]⟩
  rw [BTest1.answer_eq (s := { s with mightfail := p.named }) hblank.connectDone
    hblank.disconnectDone]
  cases hbody : req.body with
  | none => exact hunborn none
  | some sdp =>
      refine Test.until_checkMedia.bind (fun _ s₁ h₁ => ?_) (fun _ _ h₁ => h₁.unborn (hunborn _))
        fun _ _ h₁ => h₁.elim
      obtain ⟨rfl, hacc⟩ := h₁
      refine BTest1.until_authenticate.bind (fun _ s₁ h₁ => ?_) (fun _ s₁ h₁ => ?_)
        fun _ _ h₁ => h₁.elim
      · subst h₁
        refine until_assert h.inited ?_
        have hmem : .b .t1 ∈ s.cls.mro := by
          rw [hcls, Setup.cls, hb]
          exact mem_mro_b p.scn
        refine Out.Until.mono (until_completeAnswer hmem) fun stop s₂ h₂ => ?_
        cases stop with
        | ret a => exact h₂.elim
        | raise e => exact h₂.elim
        | call c =>
            obtain ⟨rfl, rfl⟩ := h₂
            refine Setup.begun_of_inits h id rfl (fun hn => ?_) ?_
            · rw [Setup.cls, hb] at hn
              cases hn
            · rw [Setup.Called, hb]
              refine ⟨sdp, s.cls.ringIval, hbody, ?_, ?_, hsdp, ?_⟩
              · have hcheck := Setup.check_of_core h.core
                exact (congrFun hcheck sdp).symm.trans hacc
              · show s.log ++ _ ++ _ = _
                rw [hlog]
                rfl
              · show s.timers ++ _ = _
                rw [hts]
                rfl
      · subst h₁
        exact hunborn _

/-- Bob's core gets to `answer`, unless the draws of the constructor run out. -/
theorem Setup.create_bob {p : Setup} {body : Sdp} {req : Req} (hb : p.side = .bob body req) :
    (init p.scn p.cls.mro p.fresh = .spin ∧ create p.scn p.side p.fresh = .spin) ∨
      ∃ s, p.fresh.Inits p.cls.mro s ∧ s.ua.created = false ∧
        create p.scn p.side p.fresh = BTest1.answer body req { s with mightfail := p.named } := by
  have hinit : (init p.scn p.cls.mro p.fresh).Until _ := until_init (mem_mro_cls p)
  have hcls : p.cls = .b p.scn := by rw [Setup.cls, hb, Side.cls]
  have heq : create p.scn p.side p.fresh = (init p.scn p.cls.mro p.fresh).bind fun _ s =>
      BTest1.answer body req { s with mightfail := s.named } := by
    rw [hb]
    rfl
  rw [heq]
  cases ho : init p.scn p.cls.mro p.fresh with
  | ret a s =>
      rw [ho] at hinit
      have hnamed : s.named = p.named :=
        Subtest.field_of_core hinit.1.core Subtest.named fun _ => rfl
      refine .inr ⟨s, hinit.1, hinit.2, ?_⟩
      rw [← hnamed]
      rfl
  | raise e s =>
      rw [ho] at hinit
      obtain ⟨-, hmem | hi⟩ := hinit
      · rw [hcls] at hmem
        exact (notMem_mro_b p.scn hmem).elim
      · cases hi
  | call c s k =>
      rw [ho] at hinit
      have hmem := hinit.2.2.2.2
      rw [hcls] at hmem
      exact (notMem_mro_b p.scn hmem).elim
  | spin => exact .inl ⟨rfl, rfl⟩

theorem Setup.until_create_bob {p : Setup} {body : Sdp} {req : Req} (hb : p.side = .bob body req) :
    (create p.scn p.side p.fresh).Until p.CreateStop := by
  rcases Setup.create_bob hb with ⟨-, hspin⟩ | ⟨s, hi, hc, heq⟩
  · rw [hspin]
    exact trivial
  · rw [heq]
    exact BTest1.until_answer hb hi hc

/-- Where the answer to an INVITE stops whose body is rejected. -/
def RejectStop : Stop Exc UaCall Unit → Subtest → Prop
  | .raise e, s => (∃ why, e = .sdpValidationFailure why) ∧ s.nerrs = 1 ∧ s.ua.created = false
  | _, _ => False

/-- An INVITE whose body is rejected: `answer` raises, before there is a UA. -/
theorem Setup.until_create_rejected {p : Setup} {body sdp : Sdp} {req : Req}
    (hb : p.side = .bob body req) (hbody : req.body = some sdp) (hr : p.tccfg.Rejects sdp) :
    (create p.scn p.side p.fresh).Until RejectStop := by
  rcases Setup.create_bob hb with ⟨-, hspin⟩ | ⟨s, hi, hc, heq⟩
  · rw [hspin]
    exact trivial
  · have hblank := Setup.blank_of_core hi.core
    have hcheck : s.tccfg.checkhostport sdp = p.tccfg.checkhostport sdp :=
      congrFun (Setup.check_of_core hi.core) sdp
    obtain ⟨why, hwhy⟩ := hr
    rw [heq, BTest1.answer_eq (s := { s with mightfail := p.named }) hblank.connectDone
      hblank.disconnectDone, hbody]
    refine Out.Until.bind (p := Test.checkMedia sdp) (P := RejectStop) ?_ (fun _ _ h => h.elim)
      (fun _ _ h => h) fun _ _ h => h.elim
    unfold Test.checkMedia
    rw [Prog.bind_apply, Prog.get_apply, Out.bind_ret]
    simp only [Subtest.note, hcheck, hwhy]
    exact ⟨⟨why, rfl⟩, congrArg (· + 1) hblank.nerrs, hc⟩

/-! ## what comes after -/

section Safe

variable {s₀ : Subtest} {α β : Type} {p : M α} {f : α → M β}

/-- Nothing is asked of a stretch that began before there was a UA. -/
theorem young (h₀ : s₀.ua.created = false) : inMoves.guar s₀ s := fun h => by
  rw [h₀] at h
  cases h

theorem safe_bind (h₀ : s₀.ua.created = false) {P : Stop Exc UaCall α → Subtest → Prop}
    (hp : (p s).Until P) (hcall : ∀ c s', P (.call c) s' → False)
    (hf : ∀ a s', P (.ret a) s' → (f a s').Safe machine inMoves s₀) :
    ((p >>= f) s).Safe machine inMoves s₀ := by
  rw [Prog.bind_apply]
  cases ho : p s with
  | ret a s₁ =>
      rw [ho] at hp
      exact hf a s₁ hp
  | raise e s₁ => exact young h₀
  | call c s₁ k =>
      rw [ho] at hp
      exact (hcall c s₁ hp).elim
  | spin => exact trivial

theorem ATest1.safe_init (h₀ : s₀.ua.created = false) {scn : Scenario} :
    (ATest1.init scn s).Safe machine inMoves s₀ := by
  unfold ATest1.init
  rw [Prog.bind_apply, Test.rtpInit_eq]
  split
  · exact young h₀
  · rw [Out.bind_ret]
    refine safe_bind h₀ (prep_localBody _) (fun _ _ h => h.elim) fun body s₁ _ => ?_
    have hbuild : (M.self VoipTests.buildUa s₁).Until _ := until_buildUa
    refine safe_bind h₀ hbuild (fun _ _ h => h.elim) fun _ s₂ _ => ⟨young h₀, fun s₃ _ => ?_⟩
    show Ok (M.timeoutIf .cancel s₃.cls.cancelIval s₃) s₃
    cases s₃.cls.cancelIval with
    | none => exact Ok.ret
    | some ival => exact Ok.move (.timer (by simp)) Ok.ret

theorem safe_until (h₀ : s₀.ua.created = false) {P : Stop Exc UaCall α → Subtest → Prop}
    (hp : (p s).Until P) (hcall : ∀ c s', P (.call c) s' → False) :
    (p s).Safe machine inMoves s₀ := by
  cases ho : p s with
  | ret a s₁ => exact young h₀
  | raise e s₁ => exact young h₀
  | call c s₁ k =>
      rw [ho] at hp
      exact (hcall c s₁ hp).elim
  | spin => exact trivial

theorem BTest1.safe_init (h₀ : s₀.ua.created = false) :
    (BTest1.init s).Safe machine inMoves s₀ := by
  unfold BTest1.init
  rw [Prog.bind_apply, Test.rtpInit_eq]
  split
  · exact young h₀
  · rw [Out.bind_ret]
    exact safe_until h₀ BTest1.until_drawIvals fun _ _ h => h

theorem safe_rtpOff {p : M Unit} (hp : (p s).Safe machine inMoves s₀) :
    (rtpOff p s).Safe machine inMoves s₀ :=
  Out.Safe.bind hp (inMoves.rely_refl s₀) fun _ _ _ =>
    Ok.of_quiet (unseen_modifyRtp (fun _ => rfl) fun _ => rfl)

theorem safe_init (h₀ : s₀.ua.created = false) {scn : Scenario} :
    (init scn mro s).Safe machine inMoves s₀ := by
  fun_induction init scn mro generalizing s with
  | case1 => exact young h₀
  | case2 sup ih => exact safe_rtpOff ih
  | case3 sup ih => exact safe_rtpOff ih
  | case4 sup ih => exact safe_rtpOff ih
  | case5 sup ih => exact safe_rtpOff ih
  | case6 sup ih => exact ih
  | case7 sup ih => exact ih
  | case8 sup ih => exact ih
  | case9 sup ih =>
      unfold ATestReinvOnhold.init
      rw [Prog.bind_apply, Prog.get_apply, Out.bind_ret]
      dsimp only
      generalize ATestReinvOnhold.drawSched _ _ = drawn
      cases drawn with
      | none => exact trivial
      | some r => exact ih
  | case10 sup ih => exact ih
  | case11 sup ih => exact ih
  | case12 sup => exact ATest1.safe_init h₀
  | case13 sup => exact BTest1.safe_init h₀
  | case14 c sup _ _ _ _ _ _ _ _ _ _ _ _ ih => exact ih

theorem safe_completeAnswer (h₀ : s₀.ua.created = false) (hm : mro <:+ s.cls.mro)
    (hc : s.ua.created = true) (ha : s.cls.isAlice = false) :
    (completeAnswer mro s).Safe machine inMoves s₀ := by
  fun_induction completeAnswer mro with
  | case1 => exact young h₀
  | case2 sup ih =>
      rcases PyClass.eq_mro_testReinvite hm with rfl | rfl | rfl
      · exact young h₀
      · exact young h₀
      · refine ⟨young h₀, fun s₁ hr => ?_⟩
        have hcls : s₁.cls = s.cls := (hr hc).cls
        show Ok (M.timeoutIf .reinvite s₁.reinviteIval s₁) s₁
        cases hi : s₁.reinviteIval with
        | none => exact Ok.ret
        | some ival => exact Ok.move (.reinviteTimer (by rw [hcls, ha]) hi) Ok.ret
  | case3 sup => exact ⟨young h₀, fun s₁ _ => Ok.ret⟩
  | case4 c sup _ _ ih => exact ih (suffix_of_cons hm)

theorem BTest1.safe_answer (h₀ : s₀.ua.created = false) (ha : s.cls.isAlice = false) {body : Sdp}
    {req : Req} : (BTest1.answer body req s).Safe machine inMoves s₀ := by
  unfold BTest1.answer
  rw [Prog.bind_apply, Prog.modify_apply, Out.bind_ret, Prog.bind_apply, Prog.get_apply,
    Out.bind_ret, Prog.ite_apply]
  split
  · refine safe_bind h₀ (prep_ofSome _ _) (fun _ _ h => h.elim) fun sdp s₁ h₁ => ?_
    refine safe_bind h₀ Test.until_checkMedia (fun _ _ h => h.elim) fun _ s₂ h₂ => ?_
    obtain ⟨rfl, -⟩ := h₂
    refine safe_bind h₀ BTest1.until_authenticate (fun _ _ h => h.elim) fun _ s₃ h₃ => ?_
    subst h₃
    refine safe_bind h₀ (prep_assert _ _) (fun _ _ h => h.elim) fun _ s₄ h₄ => ?_
    have hcls : s₄.cls = s.cls :=
      Subtest.field_of_core (h₄.core.trans h₁.core) Subtest.cls fun _ => rfl
    refine safe_completeAnswer h₀ (List.suffix_refl _) rfl ?_
    exact (congrArg PyClass.isAlice hcls).trans ha
  · exact young h₀

end Safe

/-- The creation of a subtest respects the contract. -/
theorem Setup.safe_create (p : Setup) : (create p.scn p.side p.fresh).Safe machine inMoves p.fresh := by
  have h₀ : p.fresh.ua.created = false := rfl
  have hinit : (init p.scn p.cls.mro p.fresh).Safe machine inMoves p.fresh := safe_init h₀
  have huntil : (init p.scn p.cls.mro p.fresh).Until _ := until_init (mem_mro_cls p)
  unfold create
  cases hside : p.side with
  | alice =>
      refine Out.Safe.bind hinit (inMoves.rely_refl _) fun _ s _ => ?_
      exact Ok.move .named Ok.ret
  | bob body req =>
      have hcls : p.cls = .b p.scn := by rw [Setup.cls, hside, Side.cls]
      refine safe_bind h₀ (p := M.self (init p.scn)) huntil (fun c s h => ?_) fun _ s h => ?_
      · have hmem := h.2.2.2.2
        rw [hcls] at hmem
        exact notMem_mro_b p.scn hmem
      · have hcls' : s.cls = p.cls := Subtest.field_of_core h.1.core Subtest.cls fun _ => rfl
        refine BTest1.safe_answer h₀ ?_
        show s.cls.isAlice = false
        rw [hcls', hcls]
        rfl

theorem Setup.until_create (p : Setup) : (create p.scn p.side p.fresh).Until p.CreateStop := by
  cases hside : p.side with
  | alice =>
      rw [← hside]
      exact Setup.until_create_alice hside
  | bob body req =>
      rw [← hside]
      exact Setup.until_create_bob hside

/-- **How a subtest starts.**  Either its creation ends at once, without a UA,
or the UA has been called. -/
theorem Setup.start_cases {p : Setup} {y : Sys} (h : p.start = some y) :
    machine.Ready inMoves y ∧ (y.st.Unborn ∧ y.pending = [] ∨ p.Begun y.st) := by
  have huntil := p.until_create
  have hnone : machine.Ready inMoves ⟨p.fresh, []⟩ := fun _ hk => (List.not_mem_nil hk).elim
  have hready := Callback.Machine.ready_settle p.safe_create hnone h
  refine ⟨hready.1, ?_⟩
  unfold Setup.start at h
  cases ho : create p.scn p.side p.fresh with
  | ret a s =>
      rw [ho] at huntil h
      cases h
      exact .inl ⟨huntil, rfl⟩
  | raise e s =>
      rw [ho] at huntil h
      cases h
      have hlog : ∀ ev, .inject ev ∉ (s.note (.raised e)).log := fun ev => by
        simp [Subtest.note, huntil.log ev]
      exact .inl ⟨⟨huntil.created, huntil.report, hlog⟩, rfl⟩
  | call c s k =>
      rw [ho] at huntil h
      cases h
      exact .inr huntil
  | spin =>
      rw [ho] at h
      cases h

end VoipTests
