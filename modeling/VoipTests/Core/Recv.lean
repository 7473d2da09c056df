import VoipTests.Core.Bob
import VoipTests.Subtest.Conforming

/-!
# VoipTests.Core.Recv

`b_test.recvRequest`: from a request to a subtest, and what becomes of it.

The function decodes the scenario, the family and the mode from three parts
of the INVITE, creates the subtest and hands the INVITE to its `answer`; the
counting is that of `VoipTests.Core.Bob` (`recvRequest_cases`).
`answers_iff` says for which INVITEs it comes to an orderly end.
-/

namespace VoipTests

open Callback

/-! ## requests -/

/-- What `recvRequest` looks at in a request: the tag of `To:`, the users of
the R-URI, of `From:` and of `To:`, the parsed body and the credentials. -/
structure Request where
  toTag : Option String
  method : String
  ruriUser : Option String
  ruriHost : String
  fromUser : Option String
  toUser : Option String
  body : Option Sdp
  authorization : Option Authorization

namespace Request

/-- The loop over `ALL_TESTS`. -/
def tclass (req : Request) : Option Scenario := allTests.find? fun scn => req.ruriUser = some scn.bob

/-- `atype`, from the user of `From:`. -/
def atypeOf (cli : String) : AType := if endswith cli "_ipv6" then .ip6 else .ip4

/-- `signalling_only`: no body, or one without the mark of RTP-enabled mode. -/
def signallingOnly (req : Request) : Bool := req.body.all fun sdp => sdp.sHeader ≠ sippyRtpOuser

end Request

/-! ## Bob's bodies -/

/-- `body_audio` of `bob_main`, parsed. -/
def bodyAudio : Sdp where
  oHeader := ⟨4650⟩
  sHeader := "BobPentiumIV Call"
  sections := [{
    mHeader := ⟨"audio", 20000, "RTP/AVP", [.num 0, .num 4, .num 8, .num 101]⟩
    cHeader := some ⟨some .ip4, "192.168.0.5"⟩
    aHeaders := [⟨"rtpmap", some "0 PCMU/8000/1"⟩, ⟨"rtpmap", some "4 G723/8000/1"⟩,
      ⟨"rtpmap", some "8 PCMA/8000/1"⟩, ⟨"rtpmap", some "101 telephone-event/8000"⟩,
      ⟨"fmtp", some "101 0-15"⟩] }]

/-- `body_fax` of `bob_main`, parsed. -/
def bodyFax : Sdp where
  oHeader := ⟨187393⟩
  sHeader := "BOBSDP Session"
  sections := [{
    mHeader := ⟨"image", 53278, "udptl", [.word "t38"]⟩
    cHeader := some ⟨some .ip4, "192.168.174.156"⟩
    aHeaders := [⟨"T38FaxVersion", some "0"⟩, ⟨"T38MaxBitRate", some "14400"⟩,
      ⟨"T38FaxRateManagement", some "transferredTCF"⟩, ⟨"T38FaxMaxBuffer", some "262"⟩,
      ⟨"T38FaxMaxDatagram", some "176"⟩, ⟨"T38FaxUdpEC", some "t38UDPRedundancy"⟩] }]

/-- `self.tcfg.bodys[bidx]` -/
def bodys (bidx : Nat) : Sdp := if bidx = 0 then bodyAudio else bodyFax

theorem fillable_bodys (bidx : Nat) : (bodys bidx).Fillable := by
  unfold bodys
  split
  · simp [Sdp.Fillable, bodyAudio]
  · simp [Sdp.Fillable, bodyFax]

/-! ## recvRequest -/

/-- How `recvRequest` ends. -/
inductive Recv where
  /-- `(resp, None, None)`, with the challenges of a 401. -/
  | response (code : Nat) (reason : String) (challenges : List (Option String × String))
  /-- The request has been handed to the UA, whose result is returned. -/
  | handed
  /-- `answer` has returned without a UA. -/
  | nothing
  | raised (exc : Exc)
  deriving DecidableEq, Repr

/-- What is made of the call of `answer`. -/
def reply : Out Subtest Exc UaCall Unit → Recv
  | .raise (.authRequired challenges) _ => .response 401 "Unauthorized" challenges
  | .raise .authFailed _ => .response 403 "Auth Failed" []
  | .raise exc _ => .raised exc
  | .call .. => .handed
  | _ => .nothing

/-- What `recvRequest` finds outside: two fresh `SdpOrigin()`, and the draws of
`random()`, those of the constructor being in `env`. -/
structure Outside where
  tccfgOrigin : OHeader
  bodyOrigin : OHeader
  draws : List Draw
  env : Env

/-- With more draws to come. -/
def Outside.extend (o : Outside) (draws envDraws : List Draw) : Outside :=
  { o with draws := o.draws ++ draws, env := { o.env with draws := o.env.draws ++ envDraws } }

/-- `bidx`; only a signalling-only subtest may get a body for fax. -/
def drawBidx (tccfg : TcCfg) (draws : List Draw) : Option (Nat × List Draw) :=
  if !tccfg.signallingOnly then some (0, draws)
  else (Supply.next draws).map fun (r, rest) => (if r.val < 1 / 2 then 0 else 1, rest)

/-- `sdp_body`.  The bodies can be filled, so that no exception ends this. -/
def drawBody (pr : PortRange) (tccfg : TcCfg) (origin : OHeader) (draws : List Draw) :
    Option (Sdp × List Draw) := do
  let (bidx, draws) ← drawBidx tccfg draws
  (fillhostport (bodys bidx) pr tccfg.atype tccfg.signallingOnly origin draws).toOption

/-- The subtest that `recvRequest` creates for an INVITE of a scenario. -/
def Request.setup (req : Request) (tcfg : TestConfig) (scn : Scenario) (tccfg : TcCfg)
    (sdpBody : Sdp) (env : Env) : Setup where
  scn := scn
  side := .bob sdpBody ⟨req.body, req.authorization, req.ruriHost⟩
  tccfg := tccfg
  named := req.toUser.any (· ∈ tcfg.testsMightfail)
  env := env

/-- `recvRequest` of `b_test`; `none` while a loop waits for a draw. -/
def Bob.recvRequest (tcfg : TestConfig) (b : Bob) (req : Request) (o : Outside) :
    Option (Recv × Bob) :=
  if req.toTag.isSome then
    some (.response 481 "Call Leg/Transaction Does Not Exist" [], b)
  else if req.method = "INVITE" then
    match req.tclass with
    | none => some (.response 404 "Test Does Not Exist" [], b)
    | some scn => match req.fromUser with
      -- `None` has no `endswith`.
      | none => some (.raised .attributeError, b)
      | some cli =>
        match tcfg.genTccfg (Request.atypeOf cli) req.signallingOnly none o.tccfgOrigin o.draws with
        | .error .looping => none
        | .error .attributeError => some (.raised .attributeError, b)
        | .ok (tccfg, draws) => do
          let drawn ← drawBody tcfg.portrange tccfg o.bodyOrigin draws
          let p := req.setup tcfg scn tccfg drawn.1 o.env
          let b' ← b.step (.invite p)
          some (reply (create p.scn p.side p.fresh), b')
  else some (.response 501 "Not Implemented" [], b)

/-- `recvRequest` returns before it has created a subtest. -/
def Request.Idle (req : Request) (tcfg : TestConfig) (o : Outside) : Prop :=
  req.toTag = none → req.method = "INVITE" → req.tclass.isSome = true →
    ∀ cli, req.fromUser = some cli → tcfg.genTccfg (Request.atypeOf cli) req.signallingOnly none
      o.tccfgOrigin o.draws = .error .attributeError

/-- The subtest `p` is what `recvRequest` creates. -/
def Request.MadeInto (req : Request) (tcfg : TestConfig) (o : Outside) (p : Setup) : Prop :=
  ∃ scn cli tccfg draws drawn, req.tclass = some scn ∧ req.fromUser = some cli ∧
    tcfg.genTccfg (Request.atypeOf cli) req.signallingOnly none o.tccfgOrigin o.draws =
      .ok (tccfg, draws) ∧
    drawBody tcfg.portrange tccfg o.bodyOrigin draws = some drawn ∧
    p = req.setup tcfg scn tccfg drawn.1 o.env

/-- **What `recvRequest` comes to**: it leaves the core as it is, or it is an INVITE of
`Bob.step`. -/
theorem recvRequest_cases {tcfg : TestConfig} {b b' : Bob} {req : Request} {o : Outside}
    {r : Recv} (h : b.recvRequest tcfg req o = some (r, b')) :
    (b' = b ∧ req.Idle tcfg o) ∨ ∃ p, req.MadeInto tcfg o p ∧ b.step (.invite p) = some b' ∧
      r = reply (create p.scn p.side p.fresh) := by
  unfold Bob.recvRequest at h
  split at h
  · next htag =>
    cases h
    exact .inl ⟨rfl, fun hnone => by simp [hnone] at htag⟩
  · split at h
    · split at h
      · next hno =>
        cases h
        exact .inl ⟨rfl, fun _ _ hsome => by simp [hno] at hsome⟩
      · next scn hscn =>
        split at h
        · next hno =>
          cases h
          exact .inl ⟨rfl, fun _ _ _ _ hcli => by simp [hno] at hcli⟩
        · next cli hcli =>
          split at h
          · cases h
          · next herr =>
            cases h
            refine .inl ⟨rfl, fun _ _ _ cli' hcli' => ?_⟩
            rw [hcli, Option.some.injEq] at hcli'
            exact hcli' ▸ herr
          · next tccfg draws hgen =>
            simp only [Option.bind_eq_bind, Option.bind_eq_some_iff, Option.some.injEq] at h
            obtain ⟨drawn, hdrawn, b₁, hb₁, h⟩ := h
            cases h
            exact .inr ⟨_, ⟨scn, cli, tccfg, draws, drawn, hscn, hcli, hgen, hdrawn, rfl⟩, hb₁,
              rfl⟩
    · next hinv =>
      cases h
      exact .inl ⟨rfl, fun _ h => absurd h hinv⟩

/-! ## the call of `answer` -/

/-- `answer` ends in one of the ways `recvRequest` is prepared for, or with a
validation failure, or it calls the UA and returns when the UA does. -/
def Orderly : Out Subtest Exc UaCall Unit → Prop
  | .raise (.authRequired _) _ => True
  | .raise .authFailed _ => True
  | .raise (.sdpValidationFailure _) _ => True
  | .call c s k => c = .recvRequest ∧ s.ua.created = true ∧ ∀ s', ∃ s'', k s' = .ret () s''
  | _ => False

theorem completeAnswer_eq {mro : List PyClass} (h : .b .t1 ∈ mro) (s : Subtest) :
    ∃ k, completeAnswer mro s = .call .recvRequest s k ∧ ∀ s', ∃ s'', k s' = .ret () s'' := by
  fun_induction completeAnswer mro with
  | case1 => simp at h
  | case2 sup ih =>
      obtain ⟨k, hk, hret⟩ := ih (by simpa using h)
      refine ⟨_, by rw [TestReinvite.completeAnswer, Prog.bind_apply, hk, Out.bind_call], fun s' => ?_⟩
      obtain ⟨s₁, hs₁⟩ := hret s'
      rw [hs₁, Out.bind_ret, Prog.bind_apply, Prog.get_apply, Out.bind_ret]
      cases s₁.reinviteIval with
      | none => exact ⟨_, rfl⟩
      | some ival => exact ⟨_, rfl⟩
  | case3 sup => exact ⟨_, rfl, fun s' => ⟨s', rfl⟩⟩
  | case4 c sup _ hn ih =>
      exact ih ((List.mem_cons.mp h).resolve_left fun h => hn h.symm)

theorem BTest1.authenticate_cases (req : Req) (s : Subtest) :
    BTest1.authenticate req s = .ret () s ∨ ∃ e, BTest1.authenticate req s = .raise e s ∧
      (e = .authFailed ∨ ∃ challenges, e = .authRequired challenges) := by
  unfold BTest1.authenticate
  rw [Prog.bind_apply, Prog.get_apply, Out.bind_ret]
  cases s.tccfg.uasCreds with
  | none => exact .inl rfl
  | some creds =>
      cases req.authorization with
      | none => exact .inr ⟨_, rfl, .inr ⟨_, rfl⟩⟩
      | some auth =>
          by_cases hu : auth.username ≠ creds.username <;>
            by_cases hv : auth.verify creds.password ≠ some true <;> simp [hu, hv]

variable {body sdp : Sdp} {req : Req} {s : Subtest} {p : Setup}

theorem BTest1.answerChecked_of_none (h : s.tccfg.checkhostport sdp = none) :
    BTest1.answerChecked body sdp req s s = .raise .attributeError s := by
  unfold BTest1.answerChecked Test.checkMedia
  rw [Prog.bind_apply, Prog.bind_apply, Prog.get_apply, Out.bind_ret, h]
  rfl

theorem BTest1.orderly_answerChecked (hi : s.rtp.inited = true) (hm : .b .t1 ∈ s.cls.mro)
    (h : s.tccfg.checkhostport sdp ≠ none) :
    Orderly (BTest1.answerChecked body sdp req s s) := by
  obtain ⟨⟨cres, why⟩, hcheck⟩ := Option.ne_none_iff_exists'.mp h
  have hmedia : Test.checkMedia sdp s = if cres then .ret () s
      else .raise (.sdpValidationFailure why) { s with nerrs := s.nerrs + 1 } := by
    unfold Test.checkMedia
    rw [Prog.bind_apply, Prog.get_apply, Out.bind_ret, hcheck]
    cases cres <;> rfl
  unfold BTest1.answerChecked
  rw [Prog.bind_apply, hmedia]
  cases cres with
  | false => exact trivial
  | true =>
      rw [if_pos rfl, Out.bind_ret, Prog.bind_apply]
      rcases BTest1.authenticate_cases req s with hok | ⟨e, hrefused, he⟩
      · rw [hok, Out.bind_ret, M.assert, if_pos hi]
        let s₁ : Subtest := { s with
          ua := { s.ua with created := true }
          timers := s.timers ++ [⟨.ring, s.cls.ringIval⟩]
          body := some body }
        obtain ⟨k, hk, hret⟩ := completeAnswer_eq hm s₁
        have hcall : Orderly (completeAnswer s.cls.mro s₁) := by
          rw [hk]
          exact ⟨rfl, rfl, hret⟩
        exact hcall
      · rw [hrefused]
        rcases he with rfl | ⟨challenges, rfl⟩
        · exact trivial
        · exact trivial

/-- The creation of a subtest for an INVITE with a body that the check does not
stumble over. -/
theorem Setup.orderly_create (hb : p.side = .bob body req) (hs : create p.scn p.side p.fresh ≠ .spin)
    (hbody : req.body = some sdp) (hcheck : p.tccfg.checkhostport sdp ≠ none) :
    Orderly (create p.scn p.side p.fresh) := by
  obtain ⟨-, hspin⟩ | ⟨s, hi, hc, heq⟩ := Setup.create_bob hb
  · exact (hs hspin).elim
  · have hblank := Setup.blank_of_core hi.core
    have hcls : s.cls = p.cls := Subtest.field_of_core hi.core Subtest.cls fun _ => rfl
    rw [heq, BTest1.answer_eq (s := { s with mightfail := p.named }) hblank.connectDone
      hblank.disconnectDone, hbody]
    refine BTest1.orderly_answerChecked hi.inited ?_ ?_
    · show .b .t1 ∈ s.cls.mro
      rw [hcls, Setup.cls, hb]
      exact mem_mro_b p.scn
    · show s.tccfg.checkhostport sdp ≠ none
      rw [Setup.check_of_core hi.core]
      exact hcheck

/-- The creation of a subtest for any other INVITE. -/
theorem Setup.create_attributeError (hb : p.side = .bob body req)
    (hs : create p.scn p.side p.fresh ≠ .spin)
    (h : ∀ sdp, req.body = some sdp → p.tccfg.checkhostport sdp = none) :
    ∃ s, create p.scn p.side p.fresh = .raise .attributeError s := by
  obtain ⟨-, hspin⟩ | ⟨s, hi, hc, heq⟩ := Setup.create_bob hb
  · exact (hs hspin).elim
  · have hblank := Setup.blank_of_core hi.core
    rw [heq, BTest1.answer_eq (s := { s with mightfail := p.named }) hblank.connectDone
      hblank.disconnectDone]
    cases hbody : req.body with
    | none => exact ⟨_, rfl⟩
    | some sdp =>
        refine ⟨_, BTest1.answerChecked_of_none ?_⟩
        show s.tccfg.checkhostport sdp = none
        rw [Setup.check_of_core hi.core]
        exact h sdp hbody

/-! ## the draws are enough -/

theorem BTest1.init_ne_spin (hd : 2 ≤ s.env.draws.length) : BTest1.init s ≠ .spin := by
  have hdraws : ∃ r₁ r₂ rest, s.env.draws = r₁ :: r₂ :: rest := by
    match h : s.env.draws with
    | [] => simp [h] at hd
    | [_] => simp [h] at hd
    | r₁ :: r₂ :: rest => exact ⟨r₁, r₂, rest, rfl⟩
  obtain ⟨r₁, r₂, rest, hdraws⟩ := hdraws
  unfold BTest1.init
  rw [Prog.bind_apply, Test.rtpInit_eq]
  split
  · simp
  · unfold BTest1.drawIvals M.random
    cases s.answerIval <;> cases s.disconnectIval <;> simp [hdraws]

/-- A constructor of Bob draws two values at most. -/
theorem init_ne_spin {mro : List PyClass} {scn : Scenario} (ha : ∀ scn, .a scn ∉ mro)
    (hd : 2 ≤ s.env.draws.length) : init scn mro s ≠ .spin := by
  have htail {c : PyClass} {sup : List PyClass} (h : ∀ scn, .a scn ∉ c :: sup) :
      ∀ scn, .a scn ∉ sup := fun scn hmem => h scn (List.mem_cons_of_mem c hmem)
  fun_induction init scn mro generalizing s with
  | case1 => simp
  | case4 sup ih => exact Out.bind_ne_spin (ih (htail ha) hd) fun _ _ _ h => by cases h
  | case5 sup ih => exact Out.bind_ne_spin (ih (htail ha) hd) fun _ _ _ h => by cases h
  | case7 sup ih => exact ih (htail ha) hd
  | case11 sup ih => exact ih (htail ha) hd
  | case13 sup => exact BTest1.init_ne_spin hd
  | case14 c sup _ _ _ _ _ _ _ _ _ _ _ _ ih => exact ih (htail ha) hd
  | _ => exact (ha _ List.mem_cons_self).elim

theorem notMem_mro_a (scn scn' : Scenario) : .a scn' ∉ (PyClass.b scn).mro := by
  cases scn <;> cases scn' <;> decide

theorem Setup.create_ne_spin (hb : p.side = .bob body req) (hd : 2 ≤ p.env.draws.length) :
    create p.scn p.side p.fresh ≠ .spin := by
  obtain ⟨hinit, -⟩ | ⟨s, hi, hc, heq⟩ := Setup.create_bob hb
  · have hcls : p.cls = .b p.scn := by rw [Setup.cls, hb, Side.cls]
    refine (init_ne_spin (fun scn' => ?_) hd hinit).elim
    rw [hcls]
    exact notMem_mro_a p.scn scn'
  · have hblank := Setup.blank_of_core hi.core
    have hcls : s.cls = p.cls := Subtest.field_of_core hi.core Subtest.cls fun _ => rfl
    rw [heq, BTest1.answer_eq (s := { s with mightfail := p.named }) hblank.connectDone
      hblank.disconnectDone]
    cases hbody : req.body with
    | none => simp
    | some sdp =>
        dsimp only
        generalize hs₁ : ({ s with mightfail := p.named }.note (.invite (some sdp))) = s₁
        have hmem : .b .t1 ∈ s₁.cls.mro := by
          rw [← hs₁]
          show .b .t1 ∈ s.cls.mro
          rw [hcls, Setup.cls, hb]
          exact mem_mro_b p.scn
        have hinited : s₁.rtp.inited = true := by
          rw [← hs₁]
          exact hi.inited
        by_cases hcheck : s₁.tccfg.checkhostport sdp = none
        · rw [BTest1.answerChecked_of_none hcheck]
          simp
        · intro hspin
          have horderly : Orderly (BTest1.answerChecked body sdp req s₁ s₁) :=
            BTest1.orderly_answerChecked hinited hmem hcheck
          rw [hspin] at horderly
          exact horderly

theorem fair_drawBody {pr : PortRange} (hpr : pr.Leaves) (tccfg : TcCfg) (origin : OHeader) :
    Supply.Fair (drawBody pr tccfg origin) := by
  have hbidx : Supply.Fair (drawBidx tccfg) := by
    by_cases hso : tccfg.signallingOnly = true
    · have hnext : Supply.Fair (Supply.next : List Draw → Option (Draw × List Draw)) := .next .half
      refine Supply.Fair.congr (fun draws => ?_)
        (hnext.map fun r => if r.val < 1 / 2 then (0 : Nat) else 1)
      simp [drawBidx, hso]
    · refine Supply.Fair.congr (fun draws => ?_) (Supply.Fair.pure 0)
      simp [drawBidx, hso]
  exact hbidx.bind fun bidx =>
    fair_fillhostport hpr tccfg.atype tccfg.signallingOnly origin (fillable_bodys bidx)

theorem leaves_of_drawBody {pr : PortRange} {tccfg : TcCfg} {origin : OHeader} {draws : List Draw}
    {drawn : Sdp × List Draw} (h : drawBody pr tccfg origin draws = some drawn) : pr.Leaves := by
  obtain ⟨⟨bidx, draws₁⟩, -, hfill⟩ := Option.bind_eq_some_iff.mp h
  dsimp only at hfill
  obtain ⟨sect, hmem, hr⟩ : ∃ sect ∈ (bodys bidx).sections, sect.relevant = true := by
    unfold bodys
    split
    · exact ⟨_, List.mem_cons_self, by decide⟩
    · exact ⟨_, List.mem_cons_self, by decide⟩
  rw [fillhostport] at hfill
  split at hfill
  · cases hfill
  · next hsects => exact leaves_of_fillSections hsects hmem hr

theorem Setup.create_ne_spin_of_start {y : Sys} (h : p.start = some y) :
    create p.scn p.side p.fresh ≠ .spin := by
  intro hspin
  have hspin' : create p.scn p.side (.fresh p.cls p.tccfg p.named p.env) = .spin := hspin
  rw [Setup.start, hspin'] at h
  cases h

/-! ## every INVITE -/

/-- A counted subtest that no UA will ever finish has been left behind. -/
def Bob.Leaves (b b' : Bob) : Prop :=
  b.core.created ∈ b'.core.subtestsRunning ∧
    ∃ y, b'.subtests = b.subtests ++ [y] ∧ y.st.ua.created = false ∧ y.pending = []

/-- `recvRequest` has returned a refusal, or what the UA returns, or a
validation failure has left it; and an INVITE without a body has left nothing
behind. -/
def Proper (b : Bob) (req : Request) (r : Recv) (b' : Bob) : Prop :=
  ((∃ challenges, r = .response 401 "Unauthorized" challenges) ∨
    r = .response 403 "Auth Failed" [] ∨
    (r = .handed ∧ ∃ y k, b'.subtests = b.subtests ++ [y] ∧ y.st.ua.created = true ∧
      y.pending = [k] ∧ ∀ s, ∃ s', k s = .ret () s') ∨
    ∃ why, r = .raised (.sdpValidationFailure why)) ∧
  (req.body = none → ¬ b.Leaves b')

/-- Whatever is found outside, `recvRequest` ends properly; and no draws keep it
from ending. -/
def Answers (tcfg : TestConfig) (b : Bob) (req : Request) : Prop :=
  (∀ o r b', b.recvRequest tcfg req o = some (r, b') → Proper b req r b') ∧
    ∀ o : Outside, ∃ draws envDraws, (b.recvRequest tcfg req (o.extend draws envDraws)).isSome = true

/-- What a new subtest for the INVITE is configured with. -/
def Request.tccfg (req : Request) (tcfg : TestConfig) (cli : String) : TcCfg :=
  tcfg.tccfg (Request.atypeOf cli) req.signallingOnly none none

section Known

variable {tcfg : TestConfig} {b b' : Bob} {r : Recv} {scn : Scenario} {cli : String} {o : Outside}
variable {req : Request}

/-- An INVITE that opens a dialog and names a test. -/
structure Request.Opens (req : Request) (scn : Scenario) : Prop where
  toTag : req.toTag = none
  method : req.method = "INVITE"
  tclass : req.tclass = some scn

theorem recvRequest_of_noCaller (h : req.Opens scn) (hcli : req.fromUser = none) :
    b.recvRequest tcfg req o = some (.raised .attributeError, b) := by
  unfold Bob.recvRequest
  rw [h.toTag, h.method, h.tclass, hcli]
  rfl

/-- The subtest for such an INVITE, when its caller is known. -/
def Request.opened (req : Request) (tcfg : TestConfig) (scn : Scenario) (cli : String) (body : Sdp)
    (env : Env) : Setup := req.setup tcfg scn (req.tccfg tcfg cli) body env

/-- What `recvRequest` comes to for such an INVITE. -/
theorem recvRequest_eq (hbody : tcfg.body = none) (hl : b.core.loop = .looping) (h : req.Opens scn)
    (hcli : req.fromUser = some cli) :
    b.recvRequest tcfg req o =
      (drawBody tcfg.portrange (req.tccfg tcfg cli) o.bodyOrigin o.draws).bind fun drawn =>
        let p := req.opened tcfg scn cli drawn.1 o.env
        p.start.map fun y => (reply (create p.scn p.side p.fresh),
          ⟨b.core.recvInvite (answered (create p.scn p.side p.fresh)), b.subtests ++ [y]⟩) := by
  unfold Bob.recvRequest
  rw [h.toTag, h.method, h.tclass, hcli]
  simp only [Option.isSome_none, Bool.false_eq_true, if_false, if_true, TestConfig.genTccfg, hbody]
  refine Option.bind_congr fun drawn _ => ?_
  rw [Bob.step, if_neg (not_not.mpr hl)]
  show ((req.opened tcfg scn cli drawn.1 o.env).start.map _).bind _ = _
  cases (req.opened tcfg scn cli drawn.1 o.env).start <;> rfl

/-- The answer to an INVITE with a body that the check does not stumble over. -/
theorem proper_of_orderly {p : Setup} {sdp : Sdp} {y : Sys} (hbody : req.body = some sdp) (hstart : p.start = some y)
    (h : Orderly (create p.scn p.side p.fresh)) :
    Proper b req (reply (create p.scn p.side p.fresh))
      ⟨b.core.recvInvite (answered (create p.scn p.side p.fresh)), b.subtests ++ [y]⟩ := by
  refine ⟨?_, fun hnone => ?_⟩
  · have hstart' := hstart
    unfold Setup.start at hstart'
    cases ho : create p.scn p.side p.fresh with
    | ret a s =>
        rw [ho] at h
        exact h.elim
    | raise e s =>
        rw [ho] at h
        cases e with
        | sdpValidationFailure why => exact .inr (.inr (.inr ⟨why, rfl⟩))
        | authRequired challenges => exact .inl ⟨challenges, rfl⟩
        | authFailed => exact .inr (.inl rfl)
        | _ => exact h.elim
    | call c s k =>
        rw [ho] at h
        have ho' : create p.scn p.side (.fresh p.cls p.tccfg p.named p.env) = .call c s k := ho
        rw [ho'] at hstart'
        cases hstart'
        obtain ⟨rfl, hc, hret⟩ := h
        exact .inr (.inr (.inl ⟨rfl, _, k, rfl, hc, rfl, hret⟩))
    | spin =>
        rw [ho] at h
        exact h.elim
  · rw [hbody] at hnone
    cases hnone

/-- The loops of `recvRequest` end. -/
theorem isSome_recvRequest (hbody : tcfg.body = none) (hl : b.core.loop = .looping)
    (h : req.Opens scn) (hcli : req.fromUser = some cli) (hpr : tcfg.portrange.Leaves) :
    ∃ draws envDraws, (b.recvRequest tcfg req (o.extend draws envDraws)).isSome = true := by
  have hfair := fair_drawBody hpr (req.tccfg tcfg cli) o.bodyOrigin
  obtain ⟨draws, body, rest, hdrawn⟩ := hfair.suffice o.draws
  refine ⟨draws, [.half, .half], ?_⟩
  rw [recvRequest_eq hbody hl h hcli]
  simp only [Outside.extend, hdrawn, Option.bind_some, Option.isSome_map]
  have hne := Setup.create_ne_spin (p := req.opened tcfg scn cli body
    { o.env with draws := o.env.draws ++ [.half, .half] }) rfl (by simp [Request.opened, Request.setup])
  unfold Setup.start
  cases ho : create _ _ _ with
  | spin => exact (hne ho).elim
  | _ => rfl

/-- **Which INVITEs Bob answers.**  For every INVITE that opens a dialog and
names a test, whatever its body and its credentials, and whatever Bob's are:
`recvRequest` comes to a proper end if and only if the range leaves a port to
draw, `From:` has a user, and there is a body over which the check does not
stumble. -/
theorem answers_iff (hbody : tcfg.body = none) (hl : b.core.loop = .looping) (h : req.Opens scn) :
    Answers tcfg b req ↔ tcfg.portrange.Leaves ∧ ∃ cli sdp, req.fromUser = some cli ∧
      req.body = some sdp ∧ ¬ (req.tccfg tcfg cli).StumblesOver sdp.sections := by
  constructor
  · rintro ⟨hproper, hends⟩
    obtain ⟨draws, envDraws, hsome⟩ := hends ⟨⟨0⟩, ⟨0⟩, [], Sample.env⟩
    obtain ⟨⟨r, b'⟩, hr⟩ := Option.isSome_iff_exists.mp hsome
    have hp := (hproper _ r b' hr).1
    cases hcli : req.fromUser with
    | none =>
        rw [recvRequest_of_noCaller h hcli] at hr
        cases hr
        simp at hp
    | some cli =>
        rw [recvRequest_eq hbody hl h hcli] at hr
        obtain ⟨drawn, hdrawn, hr⟩ := Option.bind_eq_some_iff.mp hr
        refine ⟨leaves_of_drawBody hdrawn, ?_⟩
        by_contra hnot
        obtain ⟨y, hstart, hr⟩ := Option.map_eq_some_iff.mp hr
        cases hr
        -- Without such a body an `AttributeError` has left `answer`.
        have hside : (req.opened tcfg scn cli drawn.1
            ((⟨⟨0⟩, ⟨0⟩, [], Sample.env⟩ : Outside).extend draws envDraws).env).side =
              .bob drawn.1 ⟨req.body, req.authorization, req.ruriHost⟩ := rfl
        have hne := Setup.create_ne_spin_of_start hstart
        obtain ⟨s, hs⟩ := Setup.create_attributeError hside hne fun sdp hsdp => by
          rw [TcCfg.checkhostport_eq_none_iff]
          by_contra hstumble
          exact hnot ⟨cli, sdp, rfl, hsdp, hstumble⟩
        rw [hs] at hp
        simp [reply] at hp
  · rintro ⟨hpr, cli, sdp, hcli, hsdp, hstumble⟩
    refine ⟨fun o r b' hr => ?_, fun o => isSome_recvRequest hbody hl h hcli hpr⟩
    rw [recvRequest_eq hbody hl h hcli] at hr
    obtain ⟨drawn, -, hr⟩ := Option.bind_eq_some_iff.mp hr
    obtain ⟨y, hstart, hr⟩ := Option.map_eq_some_iff.mp hr
    cases hr
    refine proper_of_orderly hsdp hstart ?_
    refine Setup.orderly_create rfl (Setup.create_ne_spin_of_start hstart) hsdp ?_
    rw [Ne, TcCfg.checkhostport_eq_none_iff]
    exact hstumble

end Known

namespace Sample

/-- Bob's configuration: the defaults. -/
def bobTcfg : TestConfig where
  ttype := [.ip4, .ip6]
  body := none
  portrange := .default
  tests := none
  nhAddress4 := ("127.0.0.1", 5060)
  nhAddress6 := ("[::1]", 5060)
  acfg := none
  bcfg := none
  testsMightfail := []
  signallingOnly := false
  nhMediaIps := none

/-- An INVITE for `bob_1`. -/
def invite (body : Option Sdp) : Request where
  toTag := none
  method := "INVITE"
  ruriUser := some "bob_1"
  ruriHost := "127.0.0.1"
  fromUser := some "alice_1_ipv4"
  toUser := some "bob_1"
  body := body
  authorization := none

theorem opens_invite (body : Option Sdp) : (invite body).Opens .t1 := ⟨rfl, rfl, rfl⟩

end Sample

/-- An INVITE whose media go through the proxy. -/
theorem answers_iff_proxied : Answers Sample.bobTcfg Bob.start (Sample.invite (some Sample.proxied)) := by
  refine (answers_iff rfl rfl (Sample.opens_invite _)).mpr ⟨⟨.half, 32766, by decide +kernel⟩,
    _, _, rfl, rfl, fun hover => ?_⟩
  have hnone := (TcCfg.checkhostport_eq_none_iff _ Sample.proxied).mpr hover
  revert hnone
  decide +kernel

/-- An INVITE without a body. -/
theorem not_answers_noBody : ¬ ∀ (tcfg : TestConfig) (b : Bob) (req : Request) (scn : Scenario),
    tcfg.body = none → b.core.loop = .looping → req.Opens scn → Answers tcfg b req := by
  intro hall
  obtain ⟨hproper, -⟩ := hall Sample.bobTcfg Bob.start (Sample.invite none) .t1 rfl rfl
    (Sample.opens_invite none)
  let o : Outside := ⟨⟨0⟩, ⟨0⟩, List.replicate 8 .half, Sample.env⟩
  have hrun : (Bob.start.recvRequest Sample.bobTcfg (Sample.invite none) o).map Prod.fst =
      some (.raised .attributeError) := by
    decide +kernel
  obtain ⟨⟨r, b'⟩, hr, rfl⟩ := Option.map_eq_some_iff.mp hrun
  simpa using (hproper o _ b' hr).1

end VoipTests
