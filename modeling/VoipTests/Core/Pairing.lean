import VoipTests.Core.Alice
import VoipTests.Core.Recv

/-!
# VoipTests.Core.Pairing

That both agents mean the same test.

Alice spreads what a subtest is about over the users of `From:` and of the
R-URI and the `s=` line of her INVITE; Bob puts it together again from these
three.  `invite_of_start` is the encoder as the code runs, from `a_test1`'s
constructor to the first call of the UA, `Request.decode` the decoder that is
in `recvRequest`; `pairing` says that they are inverse to each other, and that
Bob creates what he has decoded.
-/

namespace VoipTests

open Callback Run

/-! ## the INVITE -/

section Invite

variable {s : Subtest} {scn : Scenario} {mro : List PyClass}

/-- Filling in the local media keeps the session name. -/
theorem sHeader_rtpPrepareLocalSdp (sdp : Sdp) (laddr : String) (af : AType) (s : Subtest) :
    (Test.rtpPrepareLocalSdp sdp laddr af s).Yields fun sdp' => sdp'.sHeader = sdp.sHeader := by
  unfold Test.rtpPrepareLocalSdp
  have hrest (s : Subtest) : ((do
      let s ← M.get
      let ep ← M.ofSome s.rtp.ep
      M.assert (!Test.badLaddr laddr)
      pure (sdp.applyLocalMedia (some laddr) ep.lport (some af)) : M Sdp) s).Yields fun sdp' =>
        sdp'.sHeader = sdp.sHeader := by
    refine Out.Yields.bind (fun s _ => Out.Yields.bind (fun ep s₁ => ?_) _) _
    refine Out.Yields.bind (fun _ s₂ => ?_) _
    exact rfl
  refine Out.Yields.bind (fun s _ => Out.Yields.bind (fun _ s₁ => ?_) _) _
  rw [Prog.ite_apply]
  split
  · exact rfl
  · refine Out.Yields.bind (fun _ _ => Out.Yields.bind (fun _ s₂ => ?_) _) _
    rw [Prog.ite_apply]
    split
    · exact Out.Yields.bind (fun _ s₃ => hrest s₃) _
    · exact hrest s₂

theorem sHeader_localBody (s : Subtest) : (ATest1.localBody s).Yields fun body =>
    body.map Sdp.sHeader = s.tccfg.body.map Sdp.sHeader := by
  unfold ATest1.localBody
  rw [Prog.bind_apply, Prog.get_apply, Out.bind_ret, Prog.ite_apply]
  split
  · cases hbody : s.tccfg.body with
    | none => exact trivial
    | some sdp =>
        have hprep (laddr : String) (af : AType) : ((do
            let body ← Test.rtpPrepareLocalSdp sdp laddr af
            pure (some body) : M (Option Sdp)) s).Yields fun body =>
              body.map Sdp.sHeader = some sdp.sHeader := by
          refine Out.Until.bind (sHeader_rtpPrepareLocalSdp sdp laddr af s) (fun body _ h => ?_)
            (fun _ _ _ => trivial) fun _ _ _ => trivial
          exact congrArg some h
        show ((if bracketed s.tccfg.nhAddress.1 then _ else _ : M (Option Sdp)) s).Yields _
        rw [Prog.ite_apply]
        split
        · exact hprep _ _
        · exact hprep _ _
  · exact rfl

/-- The call by which Alice sends the INVITE: her name, the callee's, and a body
with the session name of the configured one. -/
def InviteCall (scn : Scenario) (s : Subtest) : Stop Exc UaCall Unit → Subtest → Prop
  | .call c, _ => ∃ body, c = .recvEvent (.ccTry (s.tccfg.cli.getD scn.alice) scn.bob body) ∧
      body.map Sdp.sHeader = s.tccfg.body.map Sdp.sHeader
  | _, _ => True

theorem ATest1.inviteCall_init : (ATest1.init scn s).Until (InviteCall scn s) := by
  unfold ATest1.init
  rw [Prog.bind_apply, Test.rtpInit_eq]
  split
  · exact trivial
  · rw [Out.bind_ret]
    refine ((prep_localBody _).and (sHeader_localBody _)).bind (fun body s₁ h₁ => ?_)
      (fun _ _ _ => trivial) fun _ _ h => h.1.elim
    obtain ⟨hprep, hname⟩ := h₁
    have hbuild : (M.self VoipTests.buildUa s₁).Until _ := until_buildUa
    refine hbuild.bind (fun _ s₂ h₂ => ⟨body, ?_, hname⟩) (fun _ _ _ => trivial) fun _ _ h => h.elim
    have hcli₁ : s₁.tccfg.cli = s.tccfg.cli :=
      Subtest.field_of_core hprep.core (fun s => s.tccfg.cli) fun _ => rfl
    have hcli₂ : s₂.tccfg.cli = s₁.tccfg.cli :=
      Subtest.field_of_core h₂.1 (fun s => s.tccfg.cli) fun _ => rfl
    rw [← hcli₁, ← hcli₂]

theorem inviteCall_rtpOff {p : M Unit} (h : (p s).Until (InviteCall scn s)) :
    (rtpOff p s).Until (InviteCall scn s) :=
  h.bind (fun _ _ _ => trivial) (fun _ _ _ => trivial) fun _ _ h => h

/-- No constructor touches what goes into the INVITE. -/
theorem inviteCall_init (hb : .b .t1 ∉ mro) : (init scn mro s).Until (InviteCall scn s) := by
  have htail {c : PyClass} {sup : List PyClass} (h : .b .t1 ∉ c :: sup) : .b .t1 ∉ sup :=
    fun hmem => h (List.mem_cons_of_mem c hmem)
  fun_induction init scn mro generalizing s with
  | case1 => exact trivial
  | case2 sup ih => exact inviteCall_rtpOff (ih (htail hb))
  | case3 sup ih => exact inviteCall_rtpOff (ih (htail hb))
  | case4 sup ih => exact inviteCall_rtpOff (ih (htail hb))
  | case5 sup ih => exact inviteCall_rtpOff (ih (htail hb))
  | case6 sup ih => exact ih (htail hb)
  | case7 sup ih => exact ih (htail hb)
  | case8 sup ih => exact ih (htail hb)
  | case9 sup ih =>
      unfold ATestReinvOnhold.init
      rw [Prog.bind_apply, Prog.get_apply, Out.bind_ret]
      dsimp only
      generalize ATestReinvOnhold.drawSched _ _ = drawn
      cases drawn with
      | none => exact trivial
      | some r => exact ih (htail hb)
  | case10 sup ih => exact ih (htail hb)
  | case11 sup ih => exact ih (htail hb)
  | case12 sup => exact ATest1.inviteCall_init
  | case13 sup => exact (hb List.mem_cons_self).elim
  | case14 c sup _ _ _ _ _ _ _ _ _ _ _ _ ih => exact ih (htail hb)

end Invite

theorem notMem_mro_b_t1 (scn : Scenario) : .b .t1 ∉ (PyClass.a scn).mro := by
  cases scn <;> decide

/-- A subtest of Alice's is created up to the call that sends its INVITE. -/
theorem Setup.inviteCall_create {p : Setup} (ha : p.side = .alice) :
    (create p.scn p.side p.fresh).Until (InviteCall p.scn p.fresh) := by
  have hinit : (init p.scn p.cls.mro p.fresh).Until (InviteCall p.scn p.fresh) := by
    refine inviteCall_init ?_
    rw [Setup.cls, ha, Side.cls]
    exact notMem_mro_b_t1 p.scn
  unfold create
  rw [Prog.bind_apply, Out.until_bind]
  refine Out.Until.mono hinit fun stop s hs => ?_
  cases stop with
  | ret a =>
      rw [ha]
      exact trivial
  | raise e => exact trivial
  | call c => exact hs

/-- **The encoder.**  The INVITE of a subtest of Alice's: in `From:` the name
`a_test` has given it, in the R-URI the callee of its class, and a body with
the session name of the one it was configured with. -/
theorem Setup.invite_of_start {p : Setup} {y : Sys} {cli cld : String} {body : Option Sdp}
    (ha : p.side = .alice) (h : p.start = some y) (hmem : .inject (.ccTry cli cld body) ∈ y.st.log) :
    cli = p.tccfg.cli.getD p.scn.alice ∧ cld = p.scn.bob ∧
      body.map Sdp.sHeader = p.tccfg.body.map Sdp.sHeader := by
  have hstop := (Setup.inviteCall_create ha).and p.until_create
  unfold Setup.start at h
  cases ho : create p.scn p.side p.fresh with
  | ret a s =>
      rw [ho] at hstop h
      cases h
      exact (hstop.2.log _ hmem).elim
  | raise e s =>
      rw [ho] at hstop h
      cases h
      have hmem' : .inject (.ccTry cli cld body) ∈ s.log ++ [.raised e] := hmem
      simp only [List.mem_append, List.mem_singleton, reduceCtorEq, or_false] at hmem'
      exact (hstop.2.log _ hmem').elim
  | call c s k =>
      rw [ho] at hstop h
      cases h
      obtain ⟨⟨body', rfl, hname⟩, hbegun⟩ := hstop
      have hcalled := hbegun.called
      rw [Setup.Called, ha] at hcalled
      obtain ⟨cli', cld', body'', hlog, -, -⟩ := hcalled
      have hmem' : .inject (.ccTry cli cld body) ∈
        s.log ++ [.inject (.ccTry (p.tccfg.cli.getD p.scn.alice) p.scn.bob body')] := hmem
      have hlog' : s.log ++ [.inject (.ccTry (p.tccfg.cli.getD p.scn.alice) p.scn.bob body')] =
        [.inject (.ccTry cli' cld' body'')] := hlog
      rw [hlog', List.mem_singleton] at hmem'
      have hnil : s.log = [] := by
        have hlen := congrArg List.length hlog'
        simp only [List.length_append, List.length_singleton] at hlen
        exact List.eq_nil_of_length_eq_zero (by omega)
      rw [hnil, List.nil_append, ← hmem'] at hlog'
      simp only [List.cons.injEq, Obs.inject.injEq, CCEvent.ccTry.injEq, and_true] at hlog'
      obtain ⟨rfl, rfl, rfl⟩ := hlog'
      exact ⟨rfl, rfl, hname⟩
  | spin =>
      rw [ho] at h
      cases h

/-! ## the switch -/

/-- What the switch carries unchanged of an INVITE: the users of `From:` and of
the R-URI, and the `s=` line. -/
structure Request.Carries (req : Request) (cli cld : String) (body : Option Sdp) : Prop where
  toTag : req.toTag = none
  method : req.method = "INVITE"
  ruriUser : req.ruriUser = some cld
  fromUser : req.fromUser = some cli
  sHeader : req.body.map Sdp.sHeader = body.map Sdp.sHeader

/-- The subtest a scheduled entry is made into. -/
def ACfg.setup (x : ACfg) (named : Bool) (env : Env) : Setup := ⟨x.testClass, .alice, x.tcfg, named, env⟩

/-- The INVITE of a scheduled subtest has arrived at Bob's as `req`. -/
def ACfg.Arrives (x : ACfg) (req : Request) : Prop :=
  ∃ named env y cli cld body, (x.setup named env).start = some y ∧
    .inject (.ccTry cli cld body) ∈ y.st.log ∧ req.Carries cli cld body

/-! ## the decoder -/

/-- What `recvRequest` takes an INVITE to be about. -/
def Request.decode (req : Request) : Option (AType × Scenario × Bool) :=
  req.tclass.bind fun scn => req.fromUser.map fun cli => (Request.atypeOf cli, scn, req.signallingOnly)

theorem find_bob (scn : Scenario) :
    (allTests.find? fun scn' => some scn.bob = some scn'.bob) = some scn := by
  cases scn <;> decide

/-- The callee of a class is that of no other class. -/
theorem Scenario.bob_injective : Function.Injective Scenario.bob := by
  intro scn scn' h
  have hfound := find_bob scn
  rw [h, find_bob, Option.some.injEq] at hfound
  exact hfound.symm

theorem Request.tclass_eq {req : Request} {scn : Scenario} (h : req.ruriUser = some scn.bob) :
    req.tclass = some scn := by
  rw [tclass, h]
  exact find_bob scn

/-- The name that Alice gives a subtest tells the family. -/
theorem Request.atypeOf_cliOf (scn : Scenario) (atype : AType) :
    Request.atypeOf (TestConfig.cliOf scn atype) = atype := by
  cases scn <;> cases atype <;> decide

section Decode

variable {tcfg : TestConfig} {k : AType × Scenario × Bool} {x : ACfg} {req : Request}

/-- **The decoder inverts the encoder.**  What Bob takes the INVITE of a
scheduled subtest to be about is the round it was scheduled in. -/
theorem decode_of_arrives {body : Sdp} (hbody : tcfg.body = some body)
    (hname : body.sHeader ≠ sippyRtpOuser) (hx : tcfg.Scheduled k x) (h : x.Arrives req) :
    req.ruriUser = some x.testClass.bob ∧ req.decode = some k := by
  obtain ⟨named, env, y, cli, cld, body', hstart, hmem, hcarries⟩ := h
  obtain ⟨rfl, rfl, hs⟩ := Setup.invite_of_start (p := x.setup named env) rfl hstart hmem
  obtain ⟨body₁, htccfg, hs₁⟩ := hx.tcfg
  have hcli : x.tcfg.cli.getD x.testClass.alice = TestConfig.cliOf k.2.1 k.1 := by
    rw [htccfg]
    rfl
  -- The session name tells the mode.
  have hmode : req.body.map Sdp.sHeader = some (if k.2.2 then body.sHeader else sippyRtpOuser) := by
    have hs' : body'.map Sdp.sHeader = x.tcfg.body.map Sdp.sHeader := hs
    rw [hcarries.sHeader, hs', htccfg]
    exact hs₁.trans (by rw [hbody, Option.map_some])
  have hso : req.signallingOnly = k.2.2 := by
    obtain ⟨sdp, hsdp, heq⟩ := Option.map_eq_some_iff.mp hmode
    rw [Request.signallingOnly, hsdp, Option.all_some, heq]
    cases k.2.2 <;> simp [hname]
  have hruri : req.ruriUser = some x.testClass.bob := hcarries.ruriUser
  refine ⟨hruri, ?_⟩
  have hfrom : req.fromUser = some (TestConfig.cliOf k.2.1 k.1) := hcarries.fromUser.trans (congrArg some hcli)
  rw [Request.decode, Request.tclass_eq hruri, hfrom, hso, hx.testClass]
  simp [Request.atypeOf_cliOf]

/-- What a subtest of Bob's is about. -/
def Setup.key (q : Setup) : AType × Scenario × Bool := (q.tccfg.atype, q.scn, q.tccfg.signallingOnly)

/-- Bob has taken an INVITE on, and has one subtest more, which is of the class of the
scenario and about `k`. -/
def Bob.Creates (b b' : Bob) (k : AType × Scenario × Bool) : Prop :=
  ∃ q : Setup, b.step (.invite q) = some b' ∧ q.cls = .b k.2.1 ∧ q.key = k ∧
    ∃ y, q.start = some y ∧ b'.subtests = b.subtests ++ [y]

variable {bcfg : TestConfig} {b b' : Bob} {o : Outside} {r : Recv}

theorem Bob.subtests_of_invite {q : Setup} (h : b.step (.invite q) = some b') :
    b'.core.loop = .looping ∧ ∃ y, q.start = some y ∧ b'.subtests = b.subtests ++ [y] := by
  unfold Bob.step at h
  split at h
  · cases h
  · next hl =>
    dsimp only at h
    split at h
    · cases h
    · obtain ⟨y, hy, rfl⟩ := Option.map_eq_some_iff.mp h
      refine ⟨?_, y, hy, rfl⟩
      rw [not_not] at hl
      cases answered (create q.scn q.side q.fresh) <;> exact hl

/-- What `recvRequest` decodes is what it makes the subtest of. -/
theorem decode_of_recvRequest (hbcfg : bcfg.body = none) (ht : req.toTag = none)
    (hm : req.method = "INVITE") (hk : req.decode = some k)
    (h : b.recvRequest bcfg req o = some (r, b')) : b.Creates b' k := by
  obtain ⟨scn, hscn, hk⟩ := Option.bind_eq_some_iff.mp hk
  obtain ⟨cli, hcli, rfl⟩ := Option.map_eq_some_iff.mp hk
  have hgen : bcfg.genTccfg (Request.atypeOf cli) req.signallingOnly none o.tccfgOrigin o.draws =
      .ok (bcfg.tccfg (Request.atypeOf cli) req.signallingOnly none none, o.draws) := by
    rw [TestConfig.genTccfg, hbcfg]
  obtain ⟨-, hidle⟩ | ⟨q, hq, hstep, -⟩ := recvRequest_cases h
  · have herr := hidle ht hm (by simp [hscn]) cli hcli
    rw [hgen] at herr
    cases herr
  · obtain ⟨scn', cli', tccfg, draws, drawn, hscn', hcli', hgen', -, rfl⟩ := hq
    rw [hscn, Option.some.injEq] at hscn'
    rw [hcli, Option.some.injEq] at hcli'
    subst hscn' hcli'
    rw [hgen] at hgen'
    cases hgen'
    exact ⟨_, hstep, rfl, rfl, (Bob.subtests_of_invite hstep).2⟩

/-- **Bob gets there**: when his range leaves a port to draw, his loops come to their end. -/
theorem exists_recvRequest (hbcfg : bcfg.body = none) (hl : b.core.loop = .looping)
    (hpr : bcfg.portrange.Leaves) (ht : req.toTag = none) (hm : req.method = "INVITE")
    (hk : req.decode = some k) (o : Outside) : ∃ draws envDraws r b',
      b.recvRequest bcfg req (o.extend draws envDraws) = some (r, b') ∧ b.Creates b' k := by
  obtain ⟨scn, hscn, hk'⟩ := Option.bind_eq_some_iff.mp hk
  obtain ⟨cli, hcli, -⟩ := Option.map_eq_some_iff.mp hk'
  obtain ⟨draws, envDraws, hsome⟩ :=
    isSome_recvRequest (o := o) hbcfg hl ⟨ht, hm, hscn⟩ hcli hpr
  obtain ⟨⟨r, b'⟩, hr⟩ := Option.isSome_iff_exists.mp hsome
  exact ⟨draws, envDraws, r, b', hr, decode_of_recvRequest hbcfg ht hm hk hr⟩

/-- `recvRequest` for one INVITE after the other. -/
def Bob.recvRequests (tcfg : TestConfig) (b : Bob) : List (Request × Outside) → Option Bob
  | [] => some b
  | (req, o) :: rest => (b.recvRequest tcfg req o).bind fun r => r.2.recvRequests tcfg rest

/-- More draws are found outside. -/
def Outside.Extends (o o' : Outside) : Prop := ∃ draws envDraws, o' = o.extend draws envDraws

/-- **All the INVITEs**: each is one step of Bob's, which creates what it is about. -/
theorem exists_recvRequests (hbcfg : bcfg.body = none) (hpr : bcfg.portrange.Leaves)
    {reqs : List Request} {ks : List (AType × Scenario × Bool)}
    (hall : List.Forall₂ (fun req k => (req.toTag = none ∧ req.method = "INVITE") ∧
      req.decode = some k) reqs ks) (hl : b.core.loop = .looping) {os : List Outside}
    (hlen : os.length = reqs.length) : ∃ (os' : List Outside) (qs : List Setup) (b' : Bob),
      List.Forall₂ Outside.Extends os os' ∧ b.recvRequests bcfg (reqs.zip os') = some b' ∧
      exec Bob.step b (qs.map .invite) = some b' ∧ (∀ q ∈ qs, q.cls = .b q.scn) ∧
      qs.map Setup.key = ks := by
  induction hall generalizing b os with
  | nil =>
      obtain rfl := List.eq_nil_of_length_eq_zero hlen
      exact ⟨[], [], b, .nil, rfl, rfl, by simp, rfl⟩
  | @cons req k reqs ks hreq _ ih =>
      cases os with
      | nil => cases hlen
      | cons o os =>
          obtain ⟨draws, envDraws, r, b₁, hr, q, hstep, hcls, hkey, -⟩ :=
            exists_recvRequest hbcfg hl hpr hreq.1.1 hreq.1.2 hreq.2 o
          obtain ⟨os', qs, b', hos, hrun, hexec, hqs, hks⟩ :=
            ih (Bob.subtests_of_invite hstep).1 (Nat.succ.inj hlen)
          refine ⟨_ :: os', q :: qs, b', .cons ⟨draws, envDraws, rfl⟩ hos, ?_, ?_, ?_, ?_⟩
          · rw [List.zip_cons_cons, Bob.recvRequests, hr]
            exact hrun
          · rw [List.map_cons, exec_cons, hstep]
            exact hexec
          · refine List.forall_mem_cons.mpr ⟨?_, hqs⟩
            rw [hcls, ← hkey]
            rfl
          · rw [List.map_cons, hkey, hks]

end Decode

/-- An INVITE of Alice's opens a dialog. -/
theorem opens_of_arrives {x : ACfg} {req : Request} (h : x.Arrives req) :
    req.toTag = none ∧ req.method = "INVITE" := by
  obtain ⟨named, env, y, cli, cld, body, -, -, hcarries⟩ := h
  exact ⟨hcarries.toTag, hcarries.method⟩

section Shuffled

variable {tcfg : TestConfig} {body : Sdp} {plan : List (AType × Scenario × Bool)}
variable {atests shuffled : List ACfg} {reqs : List Request}

theorem decode_of_scheduled (hbody : tcfg.body = some body) (hname : body.sHeader ≠ sippyRtpOuser)
    {origins : Nat → OHeader} {draws rest : List Draw}
    (hsched : tcfg.atests origins draws = .ok (atests, rest)) (hperm : shuffled.Perm atests)
    {x : ACfg} (hx : x ∈ shuffled) {req : Request} (hreq : x.Arrives req) :
    req.ruriUser = some x.testClass.bob ∧
      req.decode = some (x.tcfg.atype, x.testClass, x.signallingOnly) := by
  have hall := TestConfig.scheduled_of_atests hsched
  obtain ⟨i, hi, rfl⟩ := List.getElem_of_mem (hperm.mem_iff.mp hx)
  have hk := hall.get (hall.length_eq ▸ hi) hi
  obtain ⟨hruri, hdecode⟩ := decode_of_arrives hbody hname hk hreq
  obtain ⟨body₁, htccfg, -⟩ := hk.tcfg
  refine ⟨hruri, hdecode.trans (congrArg some ?_)⟩
  rw [List.get_eq_getElem] at htccfg
  rw [htccfg]
  exact Prod.ext rfl (Prod.ext hk.testClass.symm hk.signallingOnly.symm)

/-- Reordering what has been received in step with what was sent. -/
theorem forall₂_decode (hbody : tcfg.body = some body) (hname : body.sHeader ≠ sippyRtpOuser)
    (hall : List.Forall₂ tcfg.Scheduled plan atests)
    (harr : List.Forall₂ ACfg.Arrives atests reqs) :
    List.Forall₂ (fun req k => (req.toTag = none ∧ req.method = "INVITE") ∧
      req.decode = some k) reqs plan := by
  induction hall generalizing reqs with
  | nil =>
      cases harr
      exact .nil
  | cons hx _ ih =>
      cases harr with
      | cons hreq harr =>
          exact .cons ⟨opens_of_arrives hreq, (decode_of_arrives hbody hname hx hreq).2⟩ (ih harr)

theorem map_decode {p : Request → Prop}
    (hall : List.Forall₂ (fun req k => p req ∧ req.decode = some k) reqs plan) :
    reqs.map Request.decode = plan.map some := by
  induction hall with
  | nil => rfl
  | cons h _ ih => rw [List.map_cons, List.map_cons, h.2, ih]

end Shuffled

/-- **Alice and Bob agree on what is being tested.**  For every configuration
of Alice's whose template does not name itself like the RTP-enabled mode, there is a
schedule; and for every order of the scheduled subtests the INVITE of each, however
the switch has changed the rest of it, is for the callee of its class and of no other,
and from it Bob's `recvRequest` creates a subtest of the Bob class of the scenario
and of the same family and mode, and does so as soon as there are draws enough.  From
the INVITEs of all of them Bob decodes, and creates, every family, class and mode
that was selected, as often as it was scheduled. -/
theorem pairing {tcfg : TestConfig} {body : Sdp} (hbody : tcfg.body = some body)
    (hname : body.sHeader ≠ sippyRtpOuser) :
    (tcfg.portrange.Leaves → body.Fillable → ∀ (origins : Nat → OHeader) (draws : List Draw),
      ∃ more r, tcfg.atests origins (draws ++ more) = .ok r) ∧
    ∀ (origins : Nat → OHeader) (draws rest : List Draw) (atests shuffled : List ACfg),
      tcfg.atests origins draws = .ok (atests, rest) → shuffled.Perm atests →
      (∀ x ∈ shuffled, ∀ req, x.Arrives req →
        (∀ scn ∈ allTests, req.ruriUser = some scn.bob ↔ scn = x.testClass) ∧
        req.decode = some (x.tcfg.atype, x.testClass, x.signallingOnly) ∧
        ∀ (bcfg : TestConfig) (b : Bob) (o : Outside), bcfg.body = none →
          (∀ r b', b.recvRequest bcfg req o = some (r, b') →
            b.Creates b' (x.tcfg.atype, x.testClass, x.signallingOnly)) ∧
          (b.core.loop = .looping → bcfg.portrange.Leaves → ∃ draws envDraws r b',
            b.recvRequest bcfg req (o.extend draws envDraws) = some (r, b') ∧
              b.Creates b' (x.tcfg.atype, x.testClass, x.signallingOnly))) ∧
      ∀ reqs, List.Forall₂ ACfg.Arrives shuffled reqs →
        (reqs.map Request.decode).Perm
          ((tcfg.families ×ˢ (allTests.filter tcfg.selects ×ˢ tcfg.smodes)).map some) ∧
        ∀ (bcfg : TestConfig) (b : Bob) (os : List Outside), bcfg.body = none →
          b.core.loop = .looping → bcfg.portrange.Leaves → os.length = reqs.length →
          ∃ (os' : List Outside) (qs : List Setup) (b' : Bob),
            List.Forall₂ Outside.Extends os os' ∧ b.recvRequests bcfg (reqs.zip os') = some b' ∧
            exec Bob.step b (qs.map .invite) = some b' ∧ (∀ q ∈ qs, q.cls = .b q.scn) ∧
            (qs.map Setup.key).Perm
              (tcfg.families ×ˢ (allTests.filter tcfg.selects ×ˢ tcfg.smodes)) := by
  refine ⟨fun hpr hfill origins draws => ?_, fun origins draws rest atests shuffled hsched hperm =>
    ⟨fun x hx req hreq => ?_, fun reqs hreqs => ?_⟩⟩
  · have hfair := TestConfig.fair_atests hpr (by simpa [hbody] using hfill) origins
    obtain ⟨more, atests, rest, hmore⟩ := hfair.suffice draws
    exact ⟨more, _, eq_ok_of_toOption hmore⟩
  · obtain ⟨hruri, hdecode⟩ := decode_of_scheduled hbody hname hsched hperm hx hreq
    refine ⟨fun scn _ => ?_, hdecode, fun bcfg b o hbcfg => ?_⟩
    · rw [hruri, Option.some.injEq]
      exact ⟨fun h => (Scenario.bob_injective h).symm, fun h => congrArg Scenario.bob h.symm⟩
    · obtain ⟨ht, hm⟩ := opens_of_arrives hreq
      exact ⟨fun r b' hr => decode_of_recvRequest hbcfg ht hm hdecode hr,
        fun hl hpr => exists_recvRequest hbcfg hl hpr ht hm hdecode o⟩
  · have hall := TestConfig.scheduled_of_atests hsched
    have hflip : List.Forall₂ (fun x k => tcfg.Scheduled k x) atests tcfg.plan := hall.flip
    obtain ⟨plan, hall', hplan⟩ := List.perm_comp_forall₂ hperm hflip
    rw [TestConfig.plan_eq] at hplan
    have hall'' := forall₂_decode hbody hname hall'.flip hreqs
    refine ⟨map_decode hall'' ▸ hplan.map some, fun bcfg b os hbcfg hl hpr hlen => ?_⟩
    obtain ⟨os', qs, b', hos, hrun, hexec, hqs, hks⟩ := exists_recvRequests hbcfg hpr hall'' hl hlen
    exact ⟨os', qs, b', hos, hrun, hexec, hqs, hks ▸ hplan⟩

namespace Sample

/-- An endpoint can be bound. -/
def bound : Env := { env with laddr := "127.0.0.1", endpoint := some (some "127.0.0.1", 40000) }

/-- What the switch makes of the INVITE of a scheduled subtest, its body left
out but for the session name. -/
def carried (x : ACfg) : Option Request :=
  (x.setup false bound).start.bind fun y => match y.st.log with
    | [.inject (.ccTry cli cld body)] => some {
        toTag := none, method := "INVITE", ruriUser := some cld, ruriHost := "127.0.0.1"
        fromUser := some cli, toUser := some cld
        body := body.map fun sdp => ⟨sdp.oHeader, sdp.sHeader, []⟩
        authorization := none }
    | _ => none

theorem arrives_carried {x : ACfg} {req : Request} (h : carried x = some req) : x.Arrives req := by
  obtain ⟨y, hstart, h⟩ := Option.bind_eq_some_iff.mp h
  split at h
  · next cli cld body hlog =>
    cases h
    refine ⟨false, bound, y, cli, cld, body, hstart, ?_, rfl, rfl, rfl, rfl, ?_⟩
    · rw [hlog]
      exact List.mem_singleton_self _
    · cases body <;> rfl
  · cases h

theorem exists_arrives {atests : List ACfg} (h : ∀ x ∈ atests, (carried x).isSome = true) :
    ∃ reqs, List.Forall₂ ACfg.Arrives atests reqs := by
  induction atests with
  | nil => exact ⟨[], .nil⟩
  | cons x atests ih =>
      obtain ⟨req, hreq⟩ := Option.isSome_iff_exists.mp (h x List.mem_cons_self)
      obtain ⟨reqs, hreqs⟩ := ih fun x hx => h x (List.mem_cons_of_mem _ hx)
      exact ⟨req :: reqs, .cons (arrives_carried hreq) hreqs⟩

end Sample

/-- One class and one family: four INVITEs, two in each mode, and Bob with four subtests. -/
theorem pairing_four : ∃ (atests : List ACfg) (reqs : List Request) (qs : List Setup) (b : Bob),
    List.Forall₂ ACfg.Arrives atests.reverse reqs ∧
    (reqs.map Request.decode).Perm [some (.ip4, .t1, false), some (.ip4, .t1, true),
      some (.ip4, .t1, false), some (.ip4, .t1, true)] ∧
    exec Bob.step .start (qs.map .invite) = some b ∧ (qs.map Setup.key).Perm
      [(.ip4, .t1, false), (.ip4, .t1, true), (.ip4, .t1, false), (.ip4, .t1, true)] := by
  let tcfg := mainConfig Sample.common [("-t", "1"), ("-4", "")]
  have hsome : ((tcfg.atests (fun _ => ⟨0⟩) (List.replicate 20 .half)).toOption.map fun p =>
      p.1.all fun x => (Sample.carried x).isSome) = some true := by
    decide +kernel
  obtain ⟨⟨atests, rest⟩, hopt, hcarried⟩ := Option.map_eq_some_iff.mp hsome
  have hall : ∀ x ∈ atests.reverse, (Sample.carried x).isSome = true := fun x hx =>
    List.all_eq_true.mp hcarried x (List.mem_reverse.mp hx)
  obtain ⟨reqs, hreqs⟩ := Sample.exists_arrives hall
  have hbody : tcfg.body = some aliceBody := rfl
  obtain ⟨-, hboth⟩ := (pairing hbody (by decide)).2 _ _ _ _ _ (eq_ok_of_toOption hopt)
    (List.reverse_perm atests)
  obtain ⟨hdecoded, hbob⟩ := hboth reqs hreqs
  -- Bob with the default port range finds a port.
  have hleaves : Sample.bobTcfg.portrange.Leaves := ⟨.half, 32766, by decide +kernel⟩
  obtain ⟨-, qs, b, -, -, hexec, -, hkeys⟩ := hbob Sample.bobTcfg .start
    (reqs.map fun _ => ⟨⟨0⟩, ⟨0⟩, [], Sample.bound⟩) rfl rfl hleaves (List.length_map _)
  exact ⟨atests, reqs, qs, b, hreqs, hdecoded, hexec, hkeys⟩

end VoipTests
