import VoipTests.Subtest.Strides

/-!
# VoipTests.Subtest.Opening

Whole runs of a subtest, as `VoipTests.Subtest.Stages` has it.

The constructors call the UA at most once, like every callback, and `Opens`
says what a subtest is like as they do.  `Setup.staged` is the way from there
to any state of a run: what holds at first and is kept by every `Stretch` and
every `Tail` holds throughout.
-/

namespace VoipTests

open Callback

variable {s s' s₁ s₂ : Subtest} {mro sup : List PyClass}

/-! ## Alice's INVITE -/

/-- The RTP attributes as `_rtp_init` leaves them. -/
def Rtp.armed (rtp : Rtp) (cfg : TcCfg) : Rtp :=
  { rtp with inited := true, enabled := !cfg.signallingOnly }

/-- What is known of the media where a constructor stops. -/
def InitMedia (s : Subtest) : Stop Exc UaCall Unit → Subtest → Prop
  | .call c, s' => s.cls.isAlice = true ∧ s'.cls = s.cls ∧ s'.tccfg.signallingOnly = s.tccfg.signallingOnly ∧
      (s.rtp.armed s.tccfg).Follows s'.rtp ∧
      s'.ua.lSDP.map Sdp.audioPort = s.ua.lSDP.map Sdp.audioPort ∧
      ∃ cli cld body, c = .recvEvent (.ccTry cli cld body) ∧ s'.Advertises body
  | .ret _, s' => s'.cls = s.cls ∧ s'.tccfg.signallingOnly = s.tccfg.signallingOnly ∧
      s'.ua.lSDP = s.ua.lSDP ∧ (s'.rtp = s.rtp.armed s.tccfg ∨ s'.rtp = { s.rtp.armed s.tccfg with enabled := false })
  | .raise _, _ => True

theorem ATest1.until_localBody : (ATest1.localBody s).Until fun
    | .ret body, s' => s.Wired s' ∧ s'.Advertises body
    | .raise _, _ => True
    | .call _, _ => False := by
  have hprepare {body : Sdp} {laddr : String} {af : AType} : ((do
      let body ← Test.rtpPrepareLocalSdp body laddr af
      pure (some body) : M (Option Sdp)) s).Until fun
        | .ret body, s' => s.Wired s' ∧ s'.Advertises body
        | .raise _, _ => True
        | .call _, _ => False :=
    (Test.until_rtpPrepareLocalSdp body laddr af).bind (fun _ _ h => h) (fun _ _ _ => trivial)
      fun _ _ h => h
  unfold ATest1.localBody
  rw [Prog.bind_apply, Prog.get_apply, Out.bind_ret]
  refine until_ite (fun _ => until_ofSome_bind trivial fun body _ => ?_) fun he => ?_
  · exact until_ite (fun _ => hprepare) fun _ => hprepare
  · exact ⟨.refl s, fun h => (he h).elim⟩

/-- `a_test1.run`, once the UA returns. -/
theorem ATest1.once_run {P : Stop Exc UaCall Unit → Subtest → Prop} {ev : CCEvent}
    (hev : ∃ cli cld body, ev = .ccTry cli cld body) (hP : P (.call (.recvEvent ev)) s) :
    (ATest1.run ev s).Once P Tail := by
  obtain ⟨cli, cld, body, rfl⟩ := hev
  refine ⟨hP, fun s₁ => ?_⟩
  show (M.timeoutIf .cancel s₁.cls.cancelIval s₁).Until _
  cases s₁.cls.cancelIval with
  | none => exact Tail.refl (by simp [UaCall.Sets])
  | some ival =>
      have hnone : Tail (.recvEvent (.ccTry cli cld body)) s s₁ s₁ := Tail.refl (by simp [UaCall.Sets])
      refine hnone.leads (.timer ⟨.cancel, ival⟩) (fun ts hts t ht => ?_) rfl
      rcases List.mem_append.mp ht with ht | ht
      · exact hts t ht
      · rw [List.mem_singleton.mp ht]

theorem ATest1.once_init {scn : Scenario} (ha : s.cls.isAlice = true) : (ATest1.init scn s).Once (InitMedia s) Tail := by
  unfold ATest1.init
  rw [Prog.bind_apply, Test.rtpInit_eq]
  split
  · exact trivial
  · refine ATest1.until_localBody.once_bind (fun _ _ h => h) (fun _ _ _ => trivial) fun body s₁ h₁ => ?_
    obtain ⟨hw, hadv⟩ := h₁
    have hbuild : (M.self VoipTests.buildUa s₁).Until _ := until_buildUa
    refine hbuild.once_bind (fun _ _ h => h) (fun _ _ _ => trivial) fun _ s₂ h₂ => ?_
    obtain ⟨hcore, -, hrtp, -⟩ := h₂
    have hcls : s₂.cls = s₁.cls := Subtest.field_of_core hcore Subtest.cls fun _ => rfl
    have hsig : s₂.tccfg.signallingOnly = s₁.tccfg.signallingOnly :=
      Subtest.field_of_core hcore (fun s => s.tccfg.signallingOnly) fun _ => rfl
    refine ATest1.once_run ⟨_, _, _, rfl⟩ ⟨ha, hcls.trans hw.cls, ?_, ?_, ?_, _, _, _, rfl, ?_⟩
    · rw [hsig, hw.tccfg]
    · rw [hrtp]
      exact hw.rtp
    · rw [Subtest.field_of_core hcore (fun s => s.ua.lSDP) fun _ => rfl]
      exact hw.lSDP
    · unfold Subtest.Advertises
      rw [hrtp]
      exact hadv

/-! ## the constructors -/

/-- The endpoint is left alone. -/
structure Subtest.SameRtp (s s' : Subtest) : Prop where
  cls : s'.cls = s.cls
  signallingOnly : s'.tccfg.signallingOnly = s.tccfg.signallingOnly
  rtp : s'.rtp = s.rtp
  lSDP : s'.ua.lSDP = s.ua.lSDP

theorem Subtest.SameRtp.refl (s : Subtest) : s.SameRtp s := ⟨rfl, rfl, rfl, rfl⟩

theorem Subtest.SameRtp.trans (h : s.SameRtp s₁) (h' : s₁.SameRtp s₂) : s.SameRtp s₂ :=
  ⟨h'.cls.trans h.cls, h'.signallingOnly.trans h.signallingOnly, h'.rtp.trans h.rtp,
    h'.lSDP.trans h.lSDP⟩

section SameRtp

variable {α β : Type} {p : M α} {f : α → M β}

theorem sameRtp_bind (hp : Quiet Subtest.SameRtp p) (hf : ∀ a, Quiet Subtest.SameRtp (f a)) :
    Quiet Subtest.SameRtp (p >>= f) :=
  Quiet.bind (fun _ _ _ => .trans) hp hf

theorem sameRtp_pure (a : α) : Quiet Subtest.SameRtp (pure a : M α) := Quiet.pure .refl a

theorem sameRtp_raise (e : Exc) : Quiet Subtest.SameRtp (M.raise e : M α) := Quiet.raise .refl e

theorem sameRtp_ofSome (o : Option α) : Quiet Subtest.SameRtp (M.ofSome o) := by
  cases o with
  | none => exact sameRtp_raise _
  | some a => exact sameRtp_pure a

theorem sameRtp_random : Quiet Subtest.SameRtp M.random := by
  unfold M.random
  refine Quiet.get fun s => ?_
  cases s.env.draws with
  | nil => exact fun _ => trivial
  | cons r rest =>
      exact sameRtp_bind (Quiet.modify fun _ => ⟨rfl, rfl, rfl, rfl⟩) fun _ => sameRtp_pure _

theorem BTest1.sameRtp_drawIvals : Quiet Subtest.SameRtp BTest1.drawIvals := by
  unfold BTest1.drawIvals
  have hdraw {g : Draw → Subtest → Subtest} (hg : ∀ r s, Subtest.SameRtp s (g r s)) :
      Quiet Subtest.SameRtp (do
        let r ← M.random
        M.modify (g r) : M Unit) :=
    sameRtp_bind sameRtp_random fun r => Quiet.modify (hg r)
  have hlast {c : Prop} [Decidable c] : Quiet Subtest.SameRtp (if c then do
      let r ← M.random
      M.modify fun s => { s with disconnectIval := some (4 + r.val * 10) }
    else pure () : M Unit) :=
    Quiet.ite (fun _ => hdraw fun _ _ => ⟨rfl, rfl, rfl, rfl⟩) fun _ => sameRtp_pure _
  refine Quiet.get fun s => Quiet.ite (fun _ => ?_) fun _ => hlast
  exact sameRtp_bind sameRtp_random fun _ =>
    sameRtp_bind (Quiet.modify fun _ => ⟨rfl, rfl, rfl, rfl⟩) fun _ => hlast

theorem Test.sameRtp_checkMedia (sdp : Sdp) : Quiet Subtest.SameRtp (Test.checkMedia sdp) := by
  unfold Test.checkMedia
  refine Quiet.get fun s => ?_
  cases s.tccfg.checkhostport sdp with
  | none => exact sameRtp_raise _
  | some r =>
      have herr : Quiet Subtest.SameRtp M.addErr := Quiet.modify fun _ => ⟨rfl, rfl, rfl, rfl⟩
      exact Quiet.ite (fun _ => sameRtp_bind herr fun _ => sameRtp_raise _) fun _ => sameRtp_pure _

end SameRtp

theorem BTest1.once_init : (BTest1.init s).Once (InitMedia s) Tail := by
  unfold BTest1.init
  rw [Prog.bind_apply, Test.rtpInit_eq]
  split
  · exact trivial
  · refine ((BTest1.sameRtp_drawIvals _).once fun _ _ h => h).mono fun stop s₁ h₁ => ?_
    cases stop with
    | ret a => exact ⟨h₁.cls, h₁.signallingOnly, h₁.lSDP, .inl h₁.rtp⟩
    | raise e => exact trivial
    | call c => exact h₁.elim

/-- A constructor that first fills in something of its own. -/
theorem InitMedia.of_same {stop : Stop Exc UaCall Unit} (h : InitMedia s₁ stop s₂) (hs : s.SameRtp s₁) :
    InitMedia s stop s₂ := by
  have harmed : s.rtp.armed s.tccfg = s₁.rtp.armed s₁.tccfg := by
    unfold Rtp.armed
    rw [hs.rtp, hs.signallingOnly]
  cases stop with
  | ret a =>
      obtain ⟨hcls, hsig, hl, hrtp⟩ := h
      exact ⟨hcls.trans hs.cls, hsig.trans hs.signallingOnly, hl.trans hs.lSDP, harmed ▸ hrtp⟩
  | raise e => exact trivial
  | call c =>
      obtain ⟨ha, hcls, hsig, hrtp, hl, hcall⟩ := h
      exact ⟨hs.cls ▸ ha, hcls.trans hs.cls, hsig.trans hs.signallingOnly, harmed ▸ hrtp, hs.lSDP ▸ hl,
        hcall⟩

theorem once_of_sameRtp {o : Out Subtest Exc UaCall Unit} (h : o.Once (InitMedia s₁) Tail)
    (hs : s.SameRtp s₁) : o.Once (InitMedia s) Tail :=
  h.mono fun _ _ h => h.of_same hs

theorem once_rtpOff {p : M Unit}
    (hc : s.cls.isAlice = true → s.cls.isA (.a .t13) = true ∨ s.cls.isA (.a .t14) = true)
    (hp : (p s).Once (InitMedia s) Tail) : (rtpOff p s).Once (InitMedia s) Tail := by
  unfold rtpOff
  refine hp.bind (fun _ s₁ h₁ => ?_) (fun _ _ h => h) (fun _ _ h => h) fun c s₀ s₁ s₂ hP hT => ?_
  · obtain ⟨hcls, hsig, hl, hrtp⟩ := h₁
    refine ⟨hcls, hsig, hl, .inr ?_⟩
    rcases hrtp with hrtp | hrtp
    · exact congrArg (fun rtp : Rtp => { rtp with enabled := false }) hrtp
    · exact congrArg (fun rtp : Rtp => { rtp with enabled := false }) hrtp
  · refine ⟨hT, fun _ => ?_⟩
    obtain ⟨ts, hstays, hts⟩ := hT.stays
    obtain ⟨ha, hcls, -⟩ := hP
    refine ⟨⟨ts ++ [], hstays.trans ⟨rfl, rfl, ⟨[], by simp⟩, by simp⟩, by rwa [List.append_nil]⟩,
      hT.connectDone, hT.disconnectDone, hT.report, hT.lSDP, .inr ⟨?_, hcls ▸ hc ha⟩⟩
    rcases hT.rtp with hrtp | ⟨hrtp, -⟩
    · exact congrArg (fun rtp : Rtp => { rtp with enabled := false }) hrtp
    · exact congrArg (fun rtp : Rtp => { rtp with enabled := false }) hrtp

/-- **The media where the constructors stop**, for every class. -/
theorem once_init {scn : Scenario} (hm : mro <:+ s.cls.mro) (ht : .a .t1 ∈ mro ∨ .b .t1 ∈ mro) :
    (init scn mro s).Once (InitMedia s) Tail := by
  have hbob {s : Subtest} {scn : Scenario} {sup : List PyClass} (hm : .b scn :: sup <:+ s.cls.mro)
      (ha : s.cls.isAlice = true) :
      s.cls.isA (.a .t13) = true ∨ s.cls.isA (.a .t14) = true := by
    rw [(PyClass.eq_mro_b hm).1] at ha
    cases ha
  fun_induction init scn mro generalizing s with
  | case1 => simp at ht
  | case2 sup ih =>
      exact once_rtpOff (fun _ => .inl (isA_of_suffix hm)) (ih (suffix_of_cons hm) (by simpa using ht))
  | case3 sup ih =>
      exact once_rtpOff (fun _ => .inr (isA_of_suffix hm)) (ih (suffix_of_cons hm) (by simpa using ht))
  | case4 sup ih => exact once_rtpOff (hbob hm) (ih (suffix_of_cons hm) (by simpa using ht))
  | case5 sup ih => exact once_rtpOff (hbob hm) (ih (suffix_of_cons hm) (by simpa using ht))
  | case6 sup ih =>
      exact once_of_sameRtp (ih (suffix_of_cons hm) (by simpa using ht)) ⟨rfl, rfl, rfl, rfl⟩
  | case7 sup ih =>
      exact once_of_sameRtp (ih (suffix_of_cons hm) (by simpa using ht)) ⟨rfl, rfl, rfl, rfl⟩
  | case8 sup ih =>
      exact once_of_sameRtp (ih (suffix_of_cons hm) (by simpa using ht)) ⟨rfl, rfl, rfl, rfl⟩
  | case9 sup ih =>
      unfold ATestReinvOnhold.init
      rw [Prog.bind_apply, Prog.get_apply, Out.bind_ret]
      dsimp only
      generalize ATestReinvOnhold.drawSched _ _ = drawn
      cases drawn with
      | none => exact trivial
      | some r =>
          exact once_of_sameRtp (ih (suffix_of_cons hm) (by simpa using ht)) ⟨rfl, rfl, rfl, rfl⟩
  | case10 sup ih =>
      exact once_of_sameRtp (ih (suffix_of_cons hm) (by simpa using ht)) ⟨rfl, rfl, rfl, rfl⟩
  | case11 sup ih =>
      exact once_of_sameRtp (ih (suffix_of_cons hm) (by simpa using ht)) ⟨rfl, rfl, rfl, rfl⟩
  | case12 sup => exact ATest1.once_init (PyClass.eq_mro_a hm).1
  | case13 sup => exact BTest1.once_init
  | case14 c sup _ _ _ _ _ _ _ _ _ _ hn₁ hn₂ ih =>
      have hm' : .a .t1 ∈ sup ∨ .b .t1 ∈ sup := by
        rcases ht with ht | ht
        · exact .inl ((List.mem_cons.mp ht).resolve_left fun h => hn₁ h.symm)
        · exact .inr ((List.mem_cons.mp ht).resolve_left fun h => hn₂ h.symm)
      exact ih (suffix_of_cons hm) hm'

/-! ## Bob's answer -/

/-- Where `answer` stops. -/
def AnswerMedia (s : Subtest) : Stop Exc UaCall Unit → Subtest → Prop
  | .call c, s' => c = .recvRequest ∧ s.SameRtp s'
  | _, _ => True

theorem once_completeAnswer (hm : mro <:+ s.cls.mro) :
    (completeAnswer mro s).Once (AnswerMedia s) Tail := by
  have hnone : UaCall.recvRequest.Sets s [] := ⟨Nat.zero_le 1, by simp⟩
  fun_induction completeAnswer mro with
  | case1 => exact trivial
  | case2 sup ih =>
      rcases PyClass.eq_mro_testReinvite hm with rfl | rfl | rfl
      · exact trivial
      · exact trivial
      · refine ⟨⟨rfl, .refl s⟩, fun s₁ => ?_⟩
        show (M.timeoutIf .reinvite s₁.reinviteIval s₁).Until _
        cases s₁.reinviteIval with
        | none => exact Tail.refl hnone
        | some ival =>
            have hone : UaCall.recvRequest.Sets s [⟨.reinvite, ival⟩] := by
              refine ⟨le_rfl, fun t ht => ?_⟩
              rw [List.mem_singleton.mp ht]
              exact ⟨rfl, isA_of_suffix hm⟩
            exact ⟨⟨_, (Subtest.Leads.timer ⟨.reinvite, ival⟩).toStays, hone⟩, .inl rfl, rfl, rfl,
              .inl rfl, .inl rfl⟩
  | case3 sup => exact ⟨⟨rfl, .refl s⟩, fun s₁ => Tail.refl hnone⟩
  | case4 c sup _ _ ih => exact ih (suffix_of_cons hm)

theorem AnswerMedia.of_same {stop : Stop Exc UaCall Unit} (h : AnswerMedia s₁ stop s₂)
    (hs : s.SameRtp s₁) : AnswerMedia s stop s₂ := by
  cases stop with
  | call c => exact ⟨h.1, hs.trans h.2⟩
  | _ => exact trivial

/-- Code of `answer` before the call. -/
theorem once_answer_bind {α : Type} {p : M α} {f : α → M Unit} (hp : Quiet Subtest.SameRtp p)
    (hs : s.SameRtp s₁) (hf : ∀ a s₂, s.SameRtp s₂ → (f a s₂).Once (AnswerMedia s) Tail) :
    ((p >>= f) s₁).Once (AnswerMedia s) Tail :=
  hp.once_bind (fun _ _ _ => trivial) fun a s₂ h => hf a s₂ (hs.trans h)

theorem BTest1.once_answer {body : Sdp} {req : Req} :
    (BTest1.answer body req s).Once (AnswerMedia s) Tail := by
  unfold BTest1.answer
  have hauth : Quiet Subtest.SameRtp (BTest1.authenticate req) := fun s =>
    BTest1.until_authenticate.mono fun stop s' h => by
      cases stop with
      | call c => exact h
      | ret a => exact h ▸ .refl s
      | raise e => exact h ▸ .refl s
  have hassert (c : Bool) : Quiet Subtest.SameRtp (M.assert c) :=
    Quiet.ite (fun _ => sameRtp_pure _) fun _ => sameRtp_raise _
  have hset (g : Subtest → Subtest) (hg : ∀ s, Subtest.SameRtp s (g s)) :
      Quiet Subtest.SameRtp (M.modify g : M Unit) := Quiet.modify hg
  refine once_answer_bind (hset _ fun _ => ⟨rfl, rfl, rfl, rfl⟩) (.refl s) fun _ s₁ h₁ => ?_
  rw [Prog.bind_apply, Prog.get_apply, Out.bind_ret, Prog.ite_apply]
  split
  · refine once_answer_bind (sameRtp_ofSome _) h₁ fun sdp s₂ h₂ =>
      once_answer_bind (Test.sameRtp_checkMedia sdp) h₂ fun _ s₃ h₃ =>
      once_answer_bind hauth h₃ fun _ s₄ h₄ => once_answer_bind (hassert _) h₄ fun _ s₅ h₅ =>
      once_answer_bind (hset _ fun _ => ⟨rfl, rfl, rfl, rfl⟩) h₅ fun _ s₆ h₆ =>
      once_answer_bind (hset _ fun _ => ⟨rfl, rfl, rfl, rfl⟩) h₆ fun _ s₇ h₇ =>
      once_answer_bind (hset _ fun _ => ⟨rfl, rfl, rfl, rfl⟩) h₇ fun _ s₈ h₈ => ?_
    exact (once_completeAnswer (List.suffix_refl _)).mono fun _ _ h => h.of_same h₈
  · exact trivial

/-! ## the first call -/

/-- A subtest that is about to make its first call of the UA. -/
structure Setup.Opens (p : Setup) (c : UaCall) (s : Subtest) : Prop where
  begun : p.Begun (machine.sent c s)
  signallingOnly : s.tccfg.signallingOnly = p.tccfg.signallingOnly
  enabled : s.rtp.enabled = true → p.tccfg.signallingOnly = false
  ep : s.rtp.ep = none ∧ s.rtp.ops = [] ∨
    s.cls.isAlice = true ∧ s.rtp.enabled = true ∧ s.rtp.ep.isSome = true ∧ s.rtp.ops = [.created]
  lSDP : s.ua.lSDP = none
  call : if s.cls.isAlice then ∃ cli cld body, c = .recvEvent (.ccTry cli cld body) ∧ s.Advertises body
    else c = .recvRequest

theorem Setup.isAlice_cls {p : Setup} : p.cls.isAlice = true ↔ p.side = .alice := by
  unfold Setup.cls
  cases p.side with
  | alice => simp [Side.cls, PyClass.isAlice]
  | bob body req => simp [Side.cls, PyClass.isAlice]

namespace Setup.Opens

variable {p : Setup} {c : UaCall}

theorem cls (h : p.Opens c s) : s.cls = p.cls := by
  have hcls := h.begun.cls
  cases c <;> exact hcls

/-- There is no endpoint where RTP is not enabled, and Bob has none at all. -/
theorem ep_eq_none (h : p.Opens c s) (hoff : s.rtp.enabled = false ∨ s.cls.isAlice = false) :
    s.rtp.ep = none := by
  obtain ⟨hep, -⟩ | ⟨ha, hen, -⟩ := h.ep
  · exact hep
  · simp [ha, hen] at hoff

/-- Alice's first call hands the INVITE to the UA. -/
theorem alice (h : p.Opens c s) (ha : s.cls.isAlice = true) : ∃ cli cld body,
    c = .recvEvent (.ccTry cli cld body) ∧ s.Advertises body ∧
      (machine.sent c s).log = [.inject (.ccTry cli cld body)] ∧ (machine.sent c s).ua.lSDP = body := by
  have hcall := h.call
  rw [if_pos ha] at hcall
  obtain ⟨cli, cld, body, rfl, hadv⟩ := hcall
  have hlSDP : (machine.sent (.recvEvent (.ccTry cli cld body)) s).ua.lSDP = body := by
    show body.or s.ua.lSDP = body
    rw [h.lSDP, Option.or_none]
  have hcalled := h.begun.called
  rw [Setup.Called, Setup.isAlice_cls.mp (h.cls ▸ ha)] at hcalled
  obtain ⟨cli', cld', body', hlog, -, -⟩ := hcalled
  obtain ⟨-, hinject⟩ := List.append_eq_singleton_iff.mp hlog |>.resolve_right (by simp)
  refine ⟨cli, cld, body, rfl, hadv, ?_, hlSDP⟩
  rw [hlog, hinject]

/-- Bob's first call is `recvRequest`, with the timer for the 180 set. -/
theorem bob (h : p.Opens c s) (hb : p.cls.isAlice = false) :
    c = .recvRequest ∧ ∃ body ival,
      (machine.sent .recvRequest s).log = [.invite body, .recvRequest] ∧ s.timers = [⟨.ring, ival⟩] := by
  have hc := h.call
  rw [if_neg (by simp [h.cls, hb])] at hc
  subst hc
  have hcalled := h.begun.called
  unfold Setup.Called at hcalled
  cases hside : p.side with
  | alice => simp [Setup.isAlice_cls.mpr hside] at hb
  | bob body req =>
      rw [hside] at hcalled
      obtain ⟨sdp, ival, -, -, hlog, -, htimers⟩ := hcalled
      exact ⟨rfl, _, ival, hlog, htimers⟩

end Setup.Opens

/-- Where the creation of a subtest first stops. -/
def Setup.OpenStop (p : Setup) : Stop Exc UaCall Unit → Subtest → Prop
  | .call c, s => p.Opens c s
  | _, s => s.Unborn

/-- What is known of the media at the first call. -/
def Setup.CreateMedia (p : Setup) : Stop Exc UaCall Unit → Subtest → Prop
  | .call c, s => InitMedia p.fresh (.call c) s ∨ p.cls.isAlice = false ∧ c = .recvRequest ∧
      s.cls = p.cls ∧ s.tccfg.signallingOnly = p.tccfg.signallingOnly ∧ s.ua.lSDP = none ∧
      (s.rtp = p.fresh.rtp.armed p.tccfg ∨ s.rtp = { p.fresh.rtp.armed p.tccfg with enabled := false })
  | _, _ => True

theorem Setup.media_create (p : Setup) : (create p.scn p.side p.fresh).Once p.CreateMedia Tail := by
  have hinit : (M.self (init p.scn) p.fresh).Once (InitMedia p.fresh) Tail :=
    once_init (List.suffix_refl _) (mem_mro_cls p)
  unfold create
  refine hinit.bind (fun _ s₁ h₁ => ?_) (fun _ _ _ => trivial) (fun _ _ h => .inl h)
    fun c s₀ s₁ s₂ hP hT => ⟨hT, fun _ => ?_⟩
  · obtain ⟨hcls, hsig, hl, hrtp⟩ := h₁
    rw [Prog.bind_apply, Prog.modify_apply, Out.bind_ret]
    cases hside : p.side with
    | alice => exact trivial
    | bob body req =>
        refine BTest1.once_answer.mono fun stop s₂ h₂ => ?_
        cases stop with
        | ret a => exact trivial
        | raise e => exact trivial
        | call c =>
            have ha : p.cls.isAlice = false := by
              rw [Setup.cls, hside]
              rfl
            refine .inr ⟨ha, h₂.1, h₂.2.cls.trans hcls, h₂.2.signallingOnly.trans hsig,
              h₂.2.lSDP.trans hl, ?_⟩
            rw [h₂.2.rtp]
            exact hrtp
  · have hside := Setup.isAlice_cls.mp hP.1
    rw [Prog.bind_apply, Prog.modify_apply, Out.bind_ret, hside]
    exact hT.leads (.same rfl rfl rfl rfl rfl rfl rfl rfl rfl)
      (fun ts h => by rwa [List.append_nil]) rfl

theorem Setup.once_create (p : Setup) : (create p.scn p.side p.fresh).Once p.OpenStop Tail := by
  refine (p.until_create.and_once p.media_create).mono fun stop s h => ?_
  obtain ⟨hstop, hmedia⟩ := h
  cases stop with
  | ret a => exact hstop
  | raise e => exact hstop
  | call c =>
      have henabled {rtp : Rtp} (he : rtp.enabled = true)
          (hrtp : rtp.enabled = (p.fresh.rtp.armed p.tccfg).enabled) : p.tccfg.signallingOnly = false := by
        rw [hrtp] at he
        simpa [Rtp.armed] using he
      rcases hmedia with ⟨ha, hcls, hsig, hrtp, hl, hcall⟩ | ⟨ha, hc, hcls, hsig, hl, hrtp⟩
      · have hcls' : s.cls.isAlice = true := by
          rw [hcls]
          exact ha
        refine ⟨hstop, hsig, fun he => henabled he hrtp.enabled, ?_, Option.map_eq_none_iff.mp hl,
          by rw [if_pos hcls']; exact hcall⟩
        obtain ⟨-, he, hsome, hops⟩ | ⟨hep, hops⟩ := hrtp.ep
        · exact .inr ⟨hcls', hrtp.enabled.trans he, hsome, hops⟩
        · exact .inl ⟨Option.map_eq_none_iff.mp hep, hops⟩
      · have hcls' : s.cls.isAlice = false := by
          rw [hcls]
          exact ha
        refine ⟨hstop, hsig, fun he => ?_, ?_, hl, by rw [if_neg (by simp [hcls'])]; exact hc⟩
        · rcases hrtp with hrtp | hrtp
          · exact henabled he (congrArg Rtp.enabled hrtp)
          · rw [hrtp] at he
            cases he
        · rcases hrtp with hrtp | hrtp
          · rw [hrtp]
            exact .inl ⟨rfl, rfl⟩
          · rw [hrtp]
            exact .inl ⟨rfl, rfl⟩

/-! ## whole runs -/

/-- The steps of a subtest, as far as `Stretch` and `Tail` tell. -/
abbrev Staged : Stage Subtest UaCall → Act → Stage Subtest UaCall → Prop :=
  machine.Staged (fun i => Stretch i.cb) Tail

/-- The calls that are pending are the ones of `cs`. -/
abbrev Pending (y : Sys) (cs : List (UaCall × Subtest)) : Prop := Machine.Pends Tail y.pending cs

/-- **A step**, as far as `Stretch` and `Tail` tell. -/
theorem staged_of_step {y y' : Sys} {a : Act} {cs : List (UaCall × Subtest)} (hy : Pending y cs)
    (h : machine.step y a = some y') :
    ∃ cs', Staged ⟨y.st, cs⟩ a ⟨y'.st, cs'⟩ ∧ Pending y' cs' :=
  Machine.staged_step (fun i s₁ => strides_body i _ _ s₁) hy h

/-- The class stays as it is. -/
theorem Staged.cls {g g' : Stage Subtest UaCall} {a : Act} (h : Staged g a g') :
    g'.st.cls = g.st.cls := by
  have htail {c : UaCall} {s₀ s s₂ : Subtest} {env : Env} (hT : Tail c s₀ (machine.resume env s) s₂) :
      s₂.cls = s.cls := by
    obtain ⟨ts, hstays, -⟩ := hT.stays
    exact hstays.cls
  cases h with
  | @enter i s s₁ s₂ cs stop he hP =>
      obtain ⟨-, rfl⟩ := entry_eq_entered he
      have hsilent (h : Silent i.cb (s.entered i.cb i.env) s₂) : s₂.cls = s.cls := by
        obtain ⟨ts, hstays, -⟩ := h.stays
        exact hstays.cls
      cases stop with
      | ret a => exact hsilent hP
      | raise e => exact hsilent hP
      | call c =>
          cases c with
          | recvRequest => exact hP.elim
          | recvEvent ev =>
              obtain ⟨ts, hleads⟩ := Sends.leads hP
              exact hleads.cls
  | ret hT => exact htail hT
  | retRaise hT =>
      have hcls := htail hT
      exact hcls
  | throw => rfl

/-- **The callback `alldone`** sends nothing. -/
theorem Staged.dead {g g' : Stage Subtest UaCall} {env : Env} (h : Staged g (.enter ⟨.dead, env⟩) g') :
    g'.calls = g.calls ∧ ∃ s₂, Silent .dead (g.st.entered .dead env) s₂ ∧
      (g'.st = s₂ ∨ ∃ e, g'.st = machine.caught e s₂) := by
  cases h with
  | @enter _ _ _ s₂ _ stop he hP =>
      obtain ⟨-, rfl⟩ := entry_eq_entered he
      cases stop with
      | ret a => exact ⟨rfl, s₂, hP, .inl rfl⟩
      | raise e => exact ⟨rfl, s₂, hP, .inr ⟨e, rfl⟩⟩
      | call c =>
          cases c with
          | recvRequest => exact hP.elim
          | recvEvent ev => exact (Sends.ne_dead hP rfl).elim

theorem Setup.staged_of_start {p : Setup} {y : Sys} (h : p.start = some y) :
    y.st.Unborn ∧ y.pending = [] ∨
      ∃ c s, p.Opens c s ∧ y.st = machine.sent c s ∧ Pending y [(c, s)] := by
  have honce := p.once_create
  unfold Setup.start at h
  cases ho : create p.scn p.side p.fresh with
  | ret a s =>
      rw [ho] at honce h
      cases h
      exact .inl ⟨honce, rfl⟩
  | raise e s =>
      have hborn := (p.start_cases (y := y) h).2
      rw [ho] at honce h
      cases h
      refine .inl ⟨?_, rfl⟩
      exact ⟨honce.created, honce.report, fun ev => by simp [Subtest.note, machine, honce.log ev]⟩
  | call c s k =>
      rw [ho] at honce h
      cases h
      exact .inr ⟨c, s, honce.1, rfl, .cons honce.2 .nil⟩
  | spin =>
      rw [ho] at h
      cases h

theorem Setup.pending_of_start {p : Setup} {y : Sys} (h : p.start = some y) : ∃ cs, Pending y cs := by
  rcases Setup.staged_of_start h with ⟨-, hp⟩ | ⟨c, s, -, -, hpends⟩
  · exact ⟨[], by simp [Pending, Machine.Pends, hp]⟩
  · exact ⟨_, hpends⟩

/-- **Whole runs**: what holds as the UA is first called, and is kept by every
step that meets `Q`, holds throughout a run whose steps meet it. -/
theorem Setup.staged {p : Setup} {I : Stage Subtest UaCall → Prop} {Q : Subtest → Act → Prop}
    {acts : List Act} {y₀ y : Sys} (hopens : ∀ c s, p.Opens c s → I ⟨machine.sent c s, [(c, s)]⟩)
    (hstep : ∀ g a g', I g → Q g.st a → Staged g a g' → I g') (hstart : p.start = some y₀)
    (hQ : Run.Meets machine.step (fun y a => Q y.st a) y₀ acts)
    (h : Run.exec machine.step y₀ acts = some y) (hl : p.Lives y.st) :
    ∃ cs, Pending y cs ∧ I ⟨y.st, cs⟩ := by
  rcases Setup.staged_of_start hstart with ⟨hun, hp⟩ | ⟨c, s, ho, hst, hpends⟩
  · cases acts with
    | nil =>
        cases h
        have hc := hl.created
        rw [hun.created] at hc
        cases hc
    | cons a acts =>
        rw [Run.exec_cons, step_eq_none hun.created hp] at h
        cases h
  · exact Machine.staged_exec strides_body hstep hpends (hst ▸ hopens c s ho) hQ h

/-- The same for a run of any steps. -/
theorem Setup.staged_of_reaches {p : Setup} {I : Stage Subtest UaCall → Prop} {acts : List Act}
    {y : Sys} (hopens : ∀ c s, p.Opens c s → I ⟨machine.sent c s, [(c, s)]⟩)
    (hstep : ∀ g a g', I g → Staged g a g' → I g') (h : p.Reaches acts y) (hl : p.Lives y.st) :
    ∃ cs, Pending y cs ∧ I ⟨y.st, cs⟩ := by
  obtain ⟨y₀, hstart, hexec⟩ := h
  exact Setup.staged (Q := fun _ _ => True) hopens (fun g a g' hI _ => hstep g a g' hI) hstart
    (Run.meets_of_forall fun _ _ => trivial) hexec hl

end VoipTests
