import VoipTests.Subtest.Stages

/-!
# VoipTests.Subtest.Strides

Every callback of every class is as `VoipTests.Subtest.Stages` has it
(`strides_body`).  With the constructors, which `VoipTests.Subtest.Opening` adds,
the machine of a subtest refines a transition system whose steps are `Stretch`
and `Tail`.

As in `VoipTests.Subtest.Refine` there is one lemma for each method of each
class, and an induction for each method that goes along a method resolution
order.
-/

namespace VoipTests

open Callback

variable {s s₁ s₂ : Subtest} {sup mro : List PyClass} {t : Timer} {cb : Cb}

/-! ## Bob's timers -/

theorem Subtest.Wired.last (h : s.Wired s₁) : s₁.last = s.last := by
  unfold Subtest.last
  rw [h.same]

/-- Flags that are set when a call returns. -/
theorem Tail.setRingDone {c : UaCall} {s₀ : Subtest} (hts : c.Sets s₀ []) :
    Tail c s₀ s { s with ringDone := true } :=
  ⟨⟨[], ⟨rfl, rfl, ⟨[], by simp⟩, by simp⟩, hts⟩, .inl rfl, rfl, rfl, .inl rfl, .inl rfl⟩

/-- This flag has its entry in the chronicle. -/
theorem Tail.setConnectDone {c : UaCall} {s₀ : Subtest} (ringDone : Bool) (hts : c.Sets s₀ [])
    (hc : c.Settles s₀) :
    Tail c s₀ s ({ s with ringDone := ringDone, connectDone := true }.note .connectDone) :=
  ⟨⟨[], ⟨rfl, rfl, ⟨[.connectDone], rfl, by simp [Obs.isMark]⟩, (List.append_nil _).symm⟩, hts⟩,
    .inr hc, rfl, rfl, .inl rfl, .inl rfl⟩

/-- The 180, and the timer for the answer. -/
theorem BTest1.strides_ring (ht : t.cb = .ring) (ha : s.cls.isAlice = false) :
    Strides (.timer t) s (BTest1.ring s) := by
  unfold BTest1.ring
  rw [Prog.bind_apply, Prog.get_apply, Out.bind_ret, Prog.ite_apply]
  split
  · next hd =>
    exact ⟨.ring ht ha (by simpa using hd) (.timer _) (.inl rfl), fun s₁ => Tail.setRingDone rfl⟩
  · exact .ret (by simp)

/-- The 183 advertises the port of the media answer. -/
theorem BTest2.strides_ring (ht : t.cb = .ring) (ha : s.cls.isAlice = false)
    (hc : s.cls.isA (.b .t2) = true) : Strides (.timer t) s (BTest2.ring s) := by
  unfold BTest2.ring
  rw [Prog.bind_apply, Prog.get_apply, Out.bind_ret, Prog.ite_apply]
  split
  · next hd =>
    have hmedia := (BTest1.until_makeMediaAnswer (s := s) s.env.rSDP).once (T := Tail) fun _ _ h => h
    refine hmedia.bind (fun body s₁ h₁ => ?_) (fun _ s₁ h₁ => ?_) (fun _ _ h => h.elim)
      fun _ _ _ _ h => h.elim
    · obtain ⟨hw, hadv⟩ := h₁
      exact ⟨.ring ht ha (by simpa using hd) (hw.toLeads.trans (.timer _)) (.inr ⟨hc, hadv⟩),
        fun s₂ => Tail.setRingDone rfl⟩
    · exact Silent.of_leads (by simp) h₁.toLeads (by simp)
  · exact .ret (by simp)

/-- The call is declined, and counts as rung and answered. -/
theorem BTest4.strides_ring (ht : t.cb = .ring) (hl : s.last = some (.fired .ring))
    (hc : s.cls.isA (.b .t4) = true) : Strides (.timer t) s (BTest4.ring s) := by
  unfold BTest4.ring
  rw [Prog.bind_apply, Prog.get_apply, Out.bind_ret, Prog.ite_apply]
  split
  · next hd =>
    refine ⟨.failRing ht hc (by simpa using hd) (.refl s), fun s₁ => ?_⟩
    exact Tail.setConnectDone true rfl ⟨⟨_, rfl, .inr rfl⟩, .inl hl⟩
  · exact .ret (by simp)

/-- The body is spoiled before; that draws from what the object has outside and no more. -/
theorem BTestInvBrkn1.strides_ring {p : M Unit} (hp : ∀ s', s.Wired s' → Strides (.timer t) s' (p s')) :
    Strides (.timer t) s (BTestInvBrkn1.ring p s) := by
  unfold BTestInvBrkn1.ring
  rw [Prog.bind_apply, Prog.get_apply, Out.bind_ret, Prog.ite_apply]
  split
  · cases hb : s.body with
    | none => exact .raise (by simp)
    | some body =>
        have hw (pIncr : Int) (body : Option Sdp) : s.Wired { s with pIncr := pIncr, body := body } :=
          ⟨.same rfl rfl rfl rfl rfl rfl rfl rfl rfl, rfl⟩
        exact (hp _ (hw _ _)).of_leads (by simp) (hw _ _).toLeads (by rfl)
  · exact .ret (by simp)

/-- The method of every class that answers. -/
theorem strides_ring (hm : mro <:+ s.cls.mro) (ht : t.cb = .ring)
    (hl : s.last = some (.fired .ring)) : Strides (.timer t) s (ring mro s) := by
  fun_induction ring mro generalizing s with
  | case1 => exact .raise (by simp)
  | case2 sup ih =>
      refine BTestInvBrkn1.strides_ring fun s' hw => ?_
      exact ih (hw.cls ▸ suffix_of_cons hm) (hw.last.trans hl)
  | case3 => exact BTest4.strides_ring ht hl (isA_of_suffix hm)
  | case4 => exact BTest2.strides_ring ht (PyClass.eq_mro_b hm).1 (isA_of_suffix hm)
  | case5 => exact BTest1.strides_ring ht (PyClass.eq_mro_b hm).1
  | case6 _ _ _ _ _ _ ih => exact ih (suffix_of_cons hm) hl

/-- The 200 advertises the port of the media answer. -/
theorem BTest1.strides_connect (ht : t.cb = .connect) (hl : s.last = some (.fired .connect))
    (ha : s.cls.isAlice = false) : Strides (.timer t) s (BTest1.connect s) := by
  unfold BTest1.connect
  rw [Prog.bind_apply, Prog.get_apply, Out.bind_ret, Prog.ite_apply]
  split
  · next hd =>
    have hmedia := (BTest1.until_makeMediaAnswer (s := s) s.env.rSDP).once (T := Tail) fun _ _ h => h
    refine hmedia.bind (fun body s₁ h₁ => ?_) (fun _ s₁ h₁ => ?_) (fun _ _ h => h.elim)
      fun _ _ _ _ h => h.elim
    · obtain ⟨hw, hadv⟩ := h₁
      refine ⟨.connect ht ha (by simpa using hd) (hw.toLeads.trans (.timer _)) hadv, fun s₂ => ?_⟩
      exact Tail.setConnectDone s₂.ringDone rfl ⟨⟨_, rfl, .inl rfl⟩, .inr (hw.last.trans hl)⟩
    · exact Silent.of_leads (by simp) h₁.toLeads (by simp)
  · exact .ret (by simp)

/-- The call is declined, even when it has ended. -/
theorem BTest3.strides_connect (ht : t.cb = .connect) (hl : s.last = some (.fired .connect))
    (hc : s.cls.isA (.b .t3) = true) : Strides (.timer t) s (BTest3.connect s) := by
  unfold BTest3.connect
  rw [Prog.bind_apply, Prog.get_apply, Out.bind_ret, Prog.ite_apply]
  split
  · next hd =>
    have hcon : s.connectDone = false := by simpa using hd
    have hopen : s.cls.isA (.b .t3) = false → s.disconnectDone = false := fun h => by
      rw [hc] at h
      cases h
    refine ⟨.failConnect ht (.inl hc) ⟨hcon, hopen⟩ (.refl s), fun s₁ => ?_⟩
    exact Tail.setConnectDone s₁.ringDone rfl ⟨⟨_, rfl, .inr rfl⟩, .inr hl⟩
  · exact .ret (by simp)

/-- The call is declined. -/
theorem BTest5.strides_connect (ht : t.cb = .connect) (hl : s.last = some (.fired .connect))
    (hc : s.cls.isA (.b .t5) = true) : Strides (.timer t) s (BTest5.connect s) := by
  unfold BTest5.connect
  rw [Prog.bind_apply, Prog.get_apply, Out.bind_ret, Prog.ite_apply]
  split
  · next hd =>
    have hd' : s.connectDone = false ∧ s.disconnectDone = false := by simpa using hd
    refine ⟨.failConnect ht (.inr hc) ⟨hd'.1, fun _ => hd'.2⟩ (.refl s), fun s₁ => ?_⟩
    exact Tail.setConnectDone s₁.ringDone rfl ⟨⟨_, rfl, .inr rfl⟩, .inr hl⟩
  · exact .ret (by simp)

theorem strides_connect (hm : mro <:+ s.cls.mro) (ht : t.cb = .connect)
    (hl : s.last = some (.fired .connect)) : Strides (.timer t) s (connect mro s) := by
  fun_induction connect mro with
  | case1 => exact .raise (by simp)
  | case2 => exact BTest5.strides_connect ht hl (isA_of_suffix hm)
  | case3 => exact BTest3.strides_connect ht hl (isA_of_suffix hm)
  | case4 => exact BTest1.strides_connect ht hl (PyClass.eq_mro_b hm).1
  | case5 _ _ _ _ _ ih => exact ih (suffix_of_cons hm)

/-! ## hanging up -/

/-- The call is ended if it has not been. -/
theorem Test.strides_hangUp (ht : t.cb = .disconnect ∨ t.cb = .cancel) :
    Strides (.timer t) s (Test.hangUp s) := by
  unfold Test.hangUp
  rw [Prog.bind_apply, Prog.get_apply, Out.bind_ret, Prog.ite_apply]
  split
  · next hd => exact ⟨.hangUp ht (by simpa using hd) (.refl s), fun s₁ => Tail.refl rfl⟩
  · exact .ret (by simp)

theorem ATest1.strides_cancel (ht : t.cb = .cancel) : Strides (.timer t) s (ATest1.cancel s) := by
  unfold ATest1.cancel
  rw [Prog.bind_apply, Prog.get_apply, Out.bind_ret, Prog.ite_apply]
  split
  · next hd =>
    have hd' : s.connectDone = false ∧ s.disconnectDone = false := by simpa using hd
    exact ⟨.hangUp (.inr ht) hd'.2 (.refl s), fun s₁ => Tail.refl rfl⟩
  · exact .ret (by simp)

theorem strides_cancel (ht : t.cb = .cancel) : Strides (.timer t) s (cancel mro s) := by
  fun_induction cancel mro with
  | case1 => exact .raise (by simp)
  | case2 => exact ATest1.strides_cancel ht
  | case3 _ _ _ ih => exact ih

/-- The timer is set again until the call may end; only Alice has such a class. -/
theorem ATestReinvOnhold.strides_disconnect {p : M Unit} (ha : s.cls.isAlice = true)
    (hp : Strides (.timer t) s (p s)) : Strides (.timer t) s (ATestReinvOnhold.disconnect p s) := by
  unfold ATestReinvOnhold.disconnect
  rw [Prog.bind_apply, Prog.get_apply, Out.bind_ret, Prog.ite_apply]
  split
  · rw [Prog.ite_apply]
    split
    · exact Silent.of_leads (by simp) (.timer ⟨.disconnect, 1⟩) fun t' ht' => by
        rw [List.mem_singleton.mp ht']
        exact ⟨ha, rfl⟩
    · exact hp
  · exact .ret (by simp)

/-- An error is counted, and nothing is sent after it. -/
theorem ATestReinvBadAck.strides_disconnect {p : M Unit} (hp : Strides (.timer t) s (p s)) :
    Strides (.timer t) s (ATestReinvBadAck.disconnect p s) := by
  unfold ATestReinvBadAck.disconnect
  rw [Prog.bind_apply, Prog.get_apply, Out.bind_ret, Prog.ite_apply]
  split
  · exact Silent.of_leads (by simp) (.same rfl rfl rfl rfl rfl rfl rfl rfl rfl) (by simp)
  · exact hp

/-- The timer for the end sends a BYE, or is set again, or counts an error. -/
theorem strides_disconnect (hm : mro <:+ s.cls.mro) (ht : t.cb = .disconnect) :
    Strides (.timer t) s (disconnect mro s) := by
  fun_induction disconnect mro with
  | case1 => exact .raise (by simp)
  | case2 sup ih =>
      exact ATestReinvOnhold.strides_disconnect (PyClass.eq_mro_a hm).1 (ih (suffix_of_cons hm))
  | case3 sup ih => exact ATestReinvBadAck.strides_disconnect (ih (suffix_of_cons hm))
  | case4 => exact Test.strides_hangUp (.inl ht)
  | case5 => exact Test.strides_hangUp (.inl ht)
  | case6 _ _ _ _ _ _ ih => exact ih (suffix_of_cons hm)

/-! ## starting a re-INVITE -/

/-- The headers `c=` and `a=` of the sections do not matter for the port. -/
theorem Sdp.audioPort_mapSections {f : Section → Section} (hf : ∀ sect, (f sect).mHeader = sect.mHeader)
    (sdp : Sdp) : (sdp.mapSections f).audioPort = sdp.audioPort := by
  have haudio : Section.isAudio ∘ f = Section.isAudio := by
    funext sect
    simp [Section.isAudio, hf]
  simp only [Sdp.audioPort, Sdp.mapSections, List.find?_map, haudio, Option.map_map]
  congr 1
  funext sect
  simp [hf]

/-- The port is the same on hold. -/
theorem audioPort_putOnHold (addr : String) (sdp : Sdp) :
    { sdp with sections := (putOnHold addr sdp.sections).1 }.audioPort = sdp.audioPort := by
  have hsects (sects : List Section) :
      ((putOnHold addr sects).1.find? Section.isAudio).map (fun sect => sect.mHeader.port) =
        (sects.find? Section.isAudio).map fun sect => sect.mHeader.port := by
    induction sects with
    | nil => rfl
    | cons sect sects ih =>
        rw [putOnHold]
        cases hc : sect.cHeader with
        | none => rfl
        | some c =>
            have haudio (c' : Option CHeader) :
                { sect with cHeader := c' }.isAudio = sect.isAudio := rfl
            by_cases ha : sect.isAudio = true
            · simp [haudio, ha]
            · simpa [haudio, ha] using ih
  exact hsects sdp.sections

/-- What is sent is sent from a state the callback has got to. -/
theorem Sends.leads {ev : CCEvent} (h : Sends s cb ev s₁) : ∃ ts, s.Leads s₁ ts := by
  cases h <;> exact ⟨_, ‹_›⟩

/-- `alldone` sends nothing. -/
theorem Sends.ne_dead {ev : CCEvent} (h : Sends s cb ev s₁) : cb ≠ .dead := by
  cases h with
  | answer hcb => rcases hcb with ⟨t, rfl, -⟩ | ⟨⟨body, rfl⟩, -⟩ <;> nofun
  | _ => nofun

/-- What the timers for re-INVITEs send are re-INVITEs. -/
theorem Sends.isUpdate {ev : CCEvent} (ht : t.cb = .reinvite ∨ t.cb = .offHold)
    (h : Sends s (.timer t) ev s₁) : ev.isUpdate = true := by
  cases h with
  | reinvite => rfl
  | hangUp ht' => rcases ht with ht | ht <;> simp [ht] at ht'
  | answer hcb =>
      obtain ⟨t', ht', hcb⟩ | ⟨⟨body, hbody⟩, -⟩ := hcb
      · cases ht'
        rcases ht with ht | ht <;> simp [ht] at hcb
      · cases hbody
  | _ => rcases ht with ht | ht <;> simp_all

/-- What is left to be done goes on. -/
theorem Tail.leads {c : UaCall} {s₀ s₃ : Subtest} {ts : List Timer} (h : Tail c s₀ s₁ s₂)
    (h' : s₂.Leads s₃ ts) (hts : ∀ ts₀, c.Sets s₀ ts₀ → c.Sets s₀ (ts₀ ++ ts))
    (hrtp : s₃.rtp = s₂.rtp) : Tail c s₀ s₁ s₃ := by
  obtain ⟨ts₀, hstays, hset⟩ := h.stays
  refine ⟨⟨ts₀ ++ ts, hstays.trans h'.toStays, hts ts₀ hset⟩, ?_,
    h'.disconnectDone.trans h.disconnectDone, h'.report.trans h.report, ?_, ?_⟩
  · rw [h'.connectDone]
    exact h.connectDone
  · rw [h'.lSDP]
    exact h.lSDP
  · rw [hrtp]
    exact h.rtp

/-- A program that is followed by one that only changes the object. -/
theorem Strides.bind {p : M Unit} {f : Unit → M Unit} (hp : Strides cb s (p s₁))
    (hret : ∀ s', Silent cb s s' → Strides cb s (f () s'))
    (hrest : ∀ ev s₀ s₂ s₃, Sends s cb ev s₀ → Tail (.recvEvent ev) s₀ s₂ s₃ → (f () s₃).Until fun
      | .call _, _ => False
      | _, s₄ => Tail (.recvEvent ev) s₀ s₂ s₄) : Strides cb s ((p >>= f) s₁) := by
  refine Out.Once.bind hp (fun _ => hret) (fun _ _ h => h) (fun _ _ h => h) fun c s₀ s₂ s₃ hP hT => ?_
  cases c with
  | recvRequest => exact hP.elim
  | recvEvent ev => exact ⟨hT, fun _ => hrest ev s₀ s₂ s₃ hP hT⟩

/-- An on-hold, or an off-hold, is counted. -/
theorem Subtest.Leads.held (on : Bool) : s.Leads ((s.hold on).note (.held on)) [] := by
  cases on <;>
    exact ⟨⟨rfl, rfl, ⟨[.held _], rfl, by simp [Obs.isMark]⟩, (List.append_nil _).symm⟩, rfl, rfl, rfl,
      rfl, .refl _⟩

/-- The count comes after the call, if there is one. -/
theorem Strides.held {p : M Unit} {on : Bool} (hp : Strides cb s (p s₁)) (hcb : cb ≠ .dead) :
    Strides cb s ((p >>= fun _ => M.addHeld on) s₁) := by
  refine hp.bind (fun s₂ h₂ => ?_) fun ev s₀ s₂ s₃ _ hT => ?_
  · exact h₂.trans hcb (Silent.of_leads hcb (.held on) (by simp))
  · exact hT.leads (.held on) (fun ts₀ h => by rwa [List.append_nil]) (by cases on <;> rfl)

/-- The body that was in `ua.lSDP` as the callback began is put back. -/
theorem Strides.restore {p : M Unit} {bak : Sdp} (hp : Strides cb s (p s₁)) (hcb : cb ≠ .dead)
    (hbak : s.ua.lSDP = some bak) :
    Strides cb s ((p >>= fun _ => restoreLSDP bak) s₁) := by
  have hmark (s : Subtest) : s.Stays ((s.withLSDP bak).note .restored) [] :=
    ⟨rfl, rfl, ⟨[.restored], rfl, by simp [Obs.isMark]⟩, (List.append_nil _).symm⟩
  refine hp.bind (fun s₂ h₂ => ?_) fun ev s₀ s₂ s₃ hP hT => ?_
  · have hport := h₂.lSDP
    rw [hbak] at hport
    have hleads : s₂.Leads ((s₂.withLSDP bak).note .restored) [] :=
      ⟨hmark s₂, rfl, rfl, rfl, hport.symm, .refl _⟩
    exact h₂.trans hcb (Silent.of_leads hcb hleads (by simp))
  · obtain ⟨ts, hleads⟩ := hP.leads
    obtain ⟨ts₀, hstays, hset⟩ := hT.stays
    have hport := hleads.lSDP
    rw [hbak] at hport
    refine ⟨⟨ts₀ ++ [], hstays.trans (hmark s₃), by rwa [List.append_nil]⟩, hT.connectDone,
      hT.disconnectDone, hT.report, .inr ⟨hport.symm, ?_⟩, hT.rtp⟩
    have hsome := congrArg Option.isSome hport
    rwa [Option.isSome_map, Option.isSome_map] at hsome

/-- The re-INVITE of the mix-in advertises a port that has been drawn, or the one there was. -/
theorem TestReinvite.strides_reinvite {alterPort : Bool} (ht : t.cb = .reinvite ∨ t.cb = .offHold)
    (halter : alterPort = true → s.Alters t) :
    Strides (.timer t) s (TestReinvite.reinvite alterPort s) := by
  unfold TestReinvite.reinvite
  refine .get (.ite (fun hd => .ofSome (by simp) fun lSDP hl => ?_) fun _ => .ret (by simp))
  have hd' : s.connectDone = true ∧ s.disconnectDone = false := by simpa using hd
  have hrest (sections : List Section) (s₁ : Subtest) (h₁ : s.Drawn s₁)
      (hsdp : s.Alters t ∨ sections = lSDP.sections) : Strides (.timer t) s ((do
        M.modify fun s => { s with reinviteInProgress := true }
        M.uaRecvEvent (.update (some { lSDP with sections := sections }.bumpVersion)) : M Unit)
          s₁) := by
    refine ⟨.reinvite ht hd' (h₁.toLeads.trans (.same rfl rfl rfl rfl rfl rfl rfl rfl rfl)) h₁.rtpSame hl ?_,
      fun s₂ => Tail.refl (by simp [UaCall.Sets])⟩
    refine hsdp.imp_right fun h => ?_
    rw [h]
    rfl
  refine .ite (fun ha => ?_) fun _ => hrest _ s (.refl s) (.inr rfl)
  refine (drawn_alterPorts _).once_bind (fun _ s₁ h₁ => ?_) fun sections s₁ h₁ => ?_
  · exact Silent.of_leads (by simp) h₁.toLeads (by simp)
  · exact hrest sections s₁ h₁ (.inl (halter ha))

/-- The body in `ua.lSDP` is swapped for one with the same port. -/
theorem Subtest.Leads.withLSDP {bak sdp : Sdp} (hl : s.ua.lSDP = some bak)
    (hport : sdp.audioPort = bak.audioPort) : s.Leads (s.withLSDP sdp) [] := by
  refine ⟨⟨rfl, rfl, ⟨[], by simp [Subtest.withLSDP]⟩, by simp [Subtest.withLSDP]⟩, rfl, rfl, rfl,
    ?_, .refl _⟩
  rw [hl]
  exact congrArg some hport

/-- The sections lose their `c=` headers, not their ports, and get them back. -/
theorem ATestReinvBrkn2.strides_reinvite {p : M Unit} (hp : ∀ s', s.Leads s' [] →
    Strides (.timer t) s' (p s')) : Strides (.timer t) s (ATestReinvBrkn2.reinvite p s) := by
  unfold ATestReinvBrkn2.reinvite
  refine .get (.ite (fun hd => .ofSome (by simp) fun bak hl => ?_) fun _ => .ret (by simp))
  have hleads := Subtest.Leads.withLSDP hl (Sdp.audioPort_mapSections
    (f := fun sect => { sect with cHeader := none }) (fun _ => rfl) bak)
  have hsup : Strides (.timer t) s (p _) := (hp _ hleads).of_leads (by simp) hleads rfl
  exact hsup.restore (by simp) hl

/-- The body is put on hold, with the same ports, and put back when the on-hold is counted. -/
theorem ATestReinvOnhold.strides_reinvite {p : M Unit} (hp : ∀ s', s.Leads s' [] →
    Strides (.timer t) s' (p s')) : Strides (.timer t) s (ATestReinvOnhold.reinvite p s) := by
  unfold ATestReinvOnhold.reinvite
  refine .get (.ite (fun hd => .ofSome (by simp) fun bak hl => ?_) fun _ => .ret (by simp))
  have hport := audioPort_putOnHold (if s.tccfg.atype = .ip4 then "0.0.0.0" else "::") bak
  generalize putOnHold (if s.tccfg.atype = .ip4 then "0.0.0.0" else "::") bak.sections = r at hport ⊢
  obtain ⟨sections, done⟩ := r
  have hleads := Subtest.Leads.withLSDP hl hport
  have hsup : Strides (.timer t) s (p _) := (hp _ hleads).of_leads (by simp) hleads rfl
  have hheld : Strides (.timer t) s ((p >>= fun _ => M.addHeld true) _) := hsup.held (by simp)
  refine .ite (fun _ => Silent.of_leads (by simp) hleads (by simp)) fun _ => ?_
  have hrestored := hheld.restore (by simp) hl
  rw [Prog.bind_apply, Prog.bind_apply, Out.bind_assoc] at hrestored
  exact hrestored

/-- The timer that ends the call is set when the call has returned. -/
theorem ATestReinvAdelay.strides_reinvite {p : M Unit} (ha : s.cls.isAlice = true)
    (ht : t.cb = .reinvite) (hp : Strides (.timer t) s (p s)) :
    Strides (.timer t) s (ATestReinvAdelay.reinvite p s) := by
  unfold ATestReinvAdelay.reinvite
  refine hp.bind (fun s₂ h₂ => ?_) fun ev s₀ s₂ s₃ hP hT => ?_
  · refine h₂.trans (by simp) (Silent.of_leads (by simp) (.timer _) fun t' ht' => ?_)
    obtain ⟨ts, hstays, -⟩ := h₂.stays
    rw [List.mem_singleton.mp ht']
    exact ⟨hstays.cls ▸ ha, rfl⟩
  · obtain ⟨ts, hleads⟩ := hP.leads
    have hup := hP.isUpdate (.inl ht)
    refine hT.leads (.timer _) (fun ts₀ hts₀ => ?_) rfl
    cases ev with
    | update body =>
        intro t' ht'
        rcases List.mem_append.mp ht' with ht' | ht'
        · exact hts₀ t' ht'
        · rw [List.mem_singleton.mp ht']
          exact ⟨rfl, hleads.cls ▸ ha⟩
    | _ => cases hup

/-- What follows may raise an exception, and does nothing else. -/
theorem ATestReinvBadAck.strides_reinvite {p : M Unit} (hp : Strides (.timer t) s (p s)) :
    Strides (.timer t) s (ATestReinvBadAck.reinvite p s) := by
  have hstop {Q : Subtest → Prop} {s : Subtest} (hs : Q s) : ((do
      let s ← M.get
      if s.connectDone && !s.disconnectDone then
        if !s.env.trOk then
          M.raise .outside : M Unit) s).Until fun
        | .call _, _ => False
        | _, s' => Q s' := by
    rw [Prog.bind_apply, Prog.get_apply, Out.bind_ret, Prog.ite_apply]
    split
    · rw [Prog.ite_apply]
      split
      · exact hs
      · exact hs
    · exact hs
  unfold ATestReinvBadAck.reinvite
  exact hp.bind (fun s₂ h₂ => .of_until (hstop h₂)) fun ev s₀ s₂ s₃ _ hT => hstop hT

/-- The two classes that change the body for a re-INVITE have nothing to do with each other. -/
theorem PyClass.not_reinvOnhold {cls : PyClass} (h : cls.isA (.a .reinvBrkn2) = true) :
    cls.isA (.a .reinvOnhold) = false := by
  cases cls with
  | a scn => cases scn <;> first | decide +kernel | exact absurd h (by decide +kernel)
  | b scn => cases scn <;> exact absurd h (by decide +kernel)
  | _ => exact absurd h (by decide +kernel)

/-- The re-INVITE of every class; ports are altered where `reinv_onhold` is not, or is still to
forbid it. -/
theorem strides_reinvite {alterPort : Bool} (hm : mro <:+ s.cls.mro) (ht : t.cb = .reinvite)
    (halter : alterPort = true → .a .reinvOnhold ∈ mro ∨ s.cls.isA (.a .reinvOnhold) = false) :
    Strides (.timer t) s (reinvite alterPort mro s) := by
  fun_induction reinvite alterPort mro generalizing s with
  | case1 => exact .raise (by simp)
  | case2 _ sup ih =>
      refine ATestReinvBrkn2.strides_reinvite fun s' hs' => ih (hs'.cls ▸ suffix_of_cons hm) fun _ => ?_
      exact .inr (hs'.cls ▸ PyClass.not_reinvOnhold (isA_of_suffix hm))
  | case3 _ sup ih =>
      refine ATestReinvOnhold.strides_reinvite fun s' hs' => ih (hs'.cls ▸ suffix_of_cons hm) (by simp)
  | case4 _ sup ih =>
      exact ATestReinvAdelay.strides_reinvite (PyClass.eq_mro_a hm).1 ht
        (ih (suffix_of_cons hm) fun h => by simpa using halter h)
  | case5 _ sup ih =>
      exact ATestReinvBadAck.strides_reinvite
        (ih (suffix_of_cons hm) fun h => by simpa using halter h)
  | case6 alterPort sup =>
      refine TestReinvite.strides_reinvite (.inl ht) fun h => ⟨ht, ?_⟩
      refine (halter h).resolve_left fun hmem => ?_
      rcases PyClass.eq_mro_testReinvite hm with rfl | rfl | rfl <;> simp at hmem
  | case7 _ c sup _ hn _ _ _ ih =>
      refine ih (suffix_of_cons hm) fun h => (halter h).imp_left fun hmem => ?_
      exact (List.mem_cons.mp hmem).resolve_left fun h => hn h.symm

/-- The off-hold keeps its ports, and is counted when it is out. -/
theorem strides_offHold (ht : t.cb = .offHold) : Strides (.timer t) s (offHold mro s) := by
  fun_induction offHold mro with
  | case1 => exact .raise (by simp)
  | case2 sup =>
      have hsup : Strides (.timer t) s (reinvite false (PyClass.a .reinvite).mro s) := by
        rw [mro_a_reinvite]
        exact TestReinvite.strides_reinvite (.inr ht) (by simp)
      exact hsup.held (by simp)
  | case3 _ _ _ ih => exact ih

/-! ## answering a re-INVITE -/

/-- The 200 to a re-INVITE advertises a port that has been drawn. -/
theorem TestReinvite.strides_answerReinvite
    (hcb : (∃ t, cb = .timer t ∧ t.cb = .processReinvite) ∨
      (∃ body, cb = .event (.update body)) ∧ s.cls.answers = true) :
    Strides cb s (TestReinvite.answerReinvite s) := by
  have hdead : cb ≠ .dead := by
    rintro rfl
    simp at hcb
  unfold TestReinvite.answerReinvite
  refine .get (.ofSome hdead fun lSDP hl => ?_)
  refine (drawn_alterPorts _).once_bind (fun _ s₁ h₁ => ?_) fun sections s₁ h₁ => ?_
  · cases cb with
    | dead => exact (hdead rfl).elim
    | _ => exact Silent.of_leads (by simp) h₁.toLeads (by simp)
  · exact ⟨.answer hcb (by rw [hl]; rfl) h₁.toLeads h₁.rtpSame, fun s₂ => Tail.refl rfl⟩

/-- A re-INVITE is answered at once by a class without a delay, and with one a timer is set. -/
theorem strides_processReinvite {body : Option Sdp} (hm : mro <:+ s.cls.mro)
    (hfail : s.cls.isA (.b .reinvFail) = false) :
    Strides (.event (.update body)) s (processReinvite mro s) := by
  fun_induction processReinvite mro with
  | case1 => exact .raise (by simp)
  | case2 sup =>
      unfold TestReinvite.processReinvite
      refine .get (.ite (fun hdelay => ?_) fun hdelay =>
        TestReinvite.strides_answerReinvite (.inr ⟨⟨body, rfl⟩, ?_⟩))
      exact Silent.of_leads (by simp) (.timer ⟨.processReinvite, s.cls.reinvAnswDelay⟩) fun t ht => by
        rw [List.mem_singleton.mp ht]
        exact .inl ⟨rfl, rfl, hdelay⟩
      simp [PyClass.answers, isA_of_suffix hm, hfail, not_lt.mp hdelay]
  | case3 _ _ _ ih => exact ih (suffix_of_cons hm)

/-- One more re-INVITE is counted. -/
theorem Strides.updated {p : M Unit} (hp : Strides cb s (p s₁)) (hcb : cb ≠ .dead) :
    Strides cb s ((p >>= fun _ => M.modify fun s => { s with nupdates := s.nupdates + 1 }) s₁) := by
  have hleads (s : Subtest) : s.Leads { s with nupdates := s.nupdates + 1 } [] :=
    .same rfl rfl rfl rfl rfl rfl rfl rfl rfl
  refine hp.bind (fun s₂ h₂ => h₂.trans hcb (Silent.of_leads hcb (hleads s₂) (by simp)))
    fun ev s₀ s₂ s₃ _ hT => ?_
  exact hT.leads (hleads s₃) (fun ts₀ h => by rwa [List.append_nil]) rfl

/-! ## events -/

/-- What an event other than a re-INVITE does: nothing is sent, and only Alice
sets timers. -/
def Subtest.Heeds (s s' : Subtest) : Prop :=
  ∃ ts, s.Leads s' ts ∧ ∀ t ∈ ts, s.cls.isAlice = true ∧ (t.cb = .reinvite ∨ t.cb = .offHold)

namespace Subtest.Heeds

theorem of_leads (h : s.Leads s₁ []) : s.Heeds s₁ := ⟨[], h, by simp⟩

theorem refl (s : Subtest) : s.Heeds s := of_leads (.refl s)

theorem trans (h : s.Heeds s₁) (h' : s₁.Heeds s₂) : s.Heeds s₂ := by
  obtain ⟨ts, hs, hts⟩ := h
  obtain ⟨ts', hs', hts'⟩ := h'
  refine ⟨ts ++ ts', hs.trans hs', fun t ht => ?_⟩
  rcases List.mem_append.mp ht with ht | ht
  · exact hts t ht
  · have ht' := hts' t ht
    rwa [hs.cls] at ht'

theorem cls (h : s.Heeds s₁) : s₁.cls = s.cls := by
  obtain ⟨ts, hs, -⟩ := h
  exact hs.cls

theorem silent {ev : CCEvent} (h : s.Heeds s₁) : Silent (.event ev) s s₁ := by
  obtain ⟨ts, hs, hts⟩ := h
  exact Silent.of_leads (by simp) hs fun t ht => .inr (hts t ht)

end Subtest.Heeds

section Heeds

variable {α β : Type} {p : M α} {f : α → M β}

theorem heeds_bind (hp : Quiet Subtest.Heeds p) (hf : ∀ a, Quiet Subtest.Heeds (f a)) :
    Quiet Subtest.Heeds (p >>= f) :=
  Quiet.bind (fun _ _ _ => .trans) hp hf

theorem heeds_pure (a : α) : Quiet Subtest.Heeds (pure a : M α) := Quiet.pure .refl a

theorem heeds_raise (e : Exc) : Quiet Subtest.Heeds (M.raise e : M α) := Quiet.raise .refl e

theorem heeds_ofSome (o : Option α) : Quiet Subtest.Heeds (M.ofSome o) := by
  cases o with
  | none => exact heeds_raise _
  | some a => exact heeds_pure a

/-- Programs that only look after the endpoint heed their event. -/
theorem heeds_of_wired (hp : Quiet Subtest.Wired p) : Quiet Subtest.Heeds p :=
  hp.mono fun _ _ h => .of_leads h.toLeads

theorem heeds_addErr : Quiet Subtest.Heeds M.addErr :=
  Quiet.modify fun _ => .of_leads (.same rfl rfl rfl rfl rfl rfl rfl rfl rfl)

/-- A body that is rejected is an error, and there is nothing else to it. -/
theorem heeds_checkMedia (sdp : Sdp) : Quiet Subtest.Heeds (Test.checkMedia sdp) := by
  unfold Test.checkMedia
  refine Quiet.get fun s => ?_
  cases s.tccfg.checkhostport sdp with
  | none => exact heeds_raise _
  | some r =>
      exact Quiet.ite (fun _ => heeds_bind heeds_addErr fun _ => heeds_raise _) fun _ => heeds_pure _

/-- The body of a 180, 183 or 200 is checked, and its target goes to the endpoint. -/
theorem ATest1.heeds_recvMedia (ev : CCEvent) : Quiet Subtest.Heeds (ATest1.recvMedia ev) := by
  have hbody {sdp : Option Sdp} {c : Prop} [Decidable c] : Quiet Subtest.Heeds (if c then do
        let sdp ← M.ofSome sdp
        Test.checkMedia sdp
        Test.rtpStartOrUpdate sdp
      else pure () : M Unit) :=
    Quiet.ite (fun _ => heeds_bind (heeds_ofSome _) fun sdp => heeds_bind (heeds_checkMedia sdp) fun _ =>
      heeds_of_wired (wired_rtpStartOrUpdate sdp)) fun _ => heeds_pure _
  unfold ATest1.recvMedia
  cases ev with
  | ring _ _ sdp => exact hbody
  | connect _ _ sdp => exact hbody
  | preConnect _ _ sdp => exact hbody
  | _ => exact heeds_pure _

/-- The method of `a_test1` sends nothing and sets no timer. -/
theorem ATest1.heeds_recvEvent (ev : CCEvent) : Quiet Subtest.Heeds (ATest1.recvEvent ev) := by
  unfold ATest1.recvEvent
  refine Quiet.get fun s => Quiet.ite (fun _ => ?_) fun _ => ATest1.heeds_recvMedia ev
  exact heeds_bind (Quiet.modify fun _ => .of_leads (.same rfl rfl rfl rfl rfl rfl rfl rfl rfl))
    fun _ => ATest1.heeds_recvMedia ev

/-- A re-INVITE that has failed sets no timer: no other one follows it. -/
theorem heeds_onReinviteFailed (ev : CCEvent) (mro : List PyClass) :
    Quiet Subtest.Heeds (onReinviteFailed ev mro) := by
  fun_induction onReinviteFailed ev mro with
  | case1 => exact heeds_raise _
  | case2 sup ih =>
      unfold ATestReinvBadAck.onReinviteFailed
      cases ev with
      | fail code reason => exact heeds_bind (heeds_of_wired wired_sendACK) fun _ => ih
      | _ => exact ih
  | case3 => exact heeds_addErr
  | case4 _ _ _ _ ih => exact ih

end Heeds

/-- When a re-INVITE has been answered, the timer of the next one may be set. -/
theorem heeds_onReinviteConnected (hm : mro <:+ s.cls.mro) : (onReinviteConnected mro s).Until fun
    | .call _, _ => False
    | _, s' => s.Heeds s' := by
  fun_induction onReinviteConnected mro generalizing s with
  | case1 => exact .refl s
  | case2 sup ih =>
      have ha := (PyClass.eq_mro_a hm).1
      unfold ATestReinvOnhold.onReinviteConnected
      rw [Prog.bind_apply, Prog.get_apply, Out.bind_ret]
      cases s.sched.getLast? with
      | none => exact ih (suffix_of_cons hm)
      | some ival =>
          let t : Timer := ⟨if s.onholdCount > s.offholdCount then .offHold else .reinvite, ival⟩
          have hset : s.Heeds ({ s with sched := s.sched.dropLast }.withTimer t) := by
            refine ⟨[t], ⟨⟨rfl, rfl, ⟨[], by simp [Subtest.withTimer]⟩, rfl⟩, rfl, rfl, rfl, rfl, .refl _⟩,
              fun t' ht' => ⟨ha, ?_⟩⟩
            rw [List.mem_singleton.mp ht']
            by_cases hc : s.onholdCount > s.offholdCount <;> simp [t, hc]
          have hsup := ih (s := { s with sched := s.sched.dropLast }.withTimer t) (suffix_of_cons hm)
          exact hsup.stopped fun _ => hset.trans
  | case3 => exact heeds_of_wired wired_sendACK s
  | case4 sup ih =>
      unfold ATestNatedContact.onReinviteConnected
      refine (ih (suffix_of_cons hm)).bind (fun _ s₁ h₁ => ?_) (fun _ _ h => h) fun _ _ h => h
      have hrest : Quiet Subtest.Heeds (do
          let s ← M.get
          if s.ua.lastInDialogInviteRuri ≠ s.expectedContactUri then
            M.addErr : M Unit) :=
        Quiet.get fun s => Quiet.ite (fun _ => heeds_addErr) fun _ => heeds_pure _
      exact (hrest s₁).stopped fun _ => h₁.trans
  | case5 => exact .refl s
  | case6 _ _ _ _ _ _ ih => exact ih (suffix_of_cons hm)

/-- An event that is no re-INVITE, the mix-in being followed by `a_test1` or
`b_test1` (or nothing). -/
theorem TestReinvite.heeds_recvEvent {ev : CCEvent} {p : M Unit} (he : ev.isUpdate = false)
    (hp : Quiet Subtest.Heeds p) : (TestReinvite.recvEvent ev p s).Until fun
      | .call _, _ => False
      | _, s' => s.Heeds s' := by
  have hfield {s s₁ : Subtest} (h : s.Leads s₁ []) : s.Heeds s₁ := .of_leads h
  -- What is done about the outcome, once `super().recvEvent` has returned.
  have hrest (s₁ : Subtest) (h₁ : s.Heeds s₁) : ((p >>= fun _ =>
      if ev.isConnect = true then do
        M.modify fun s => { s with reinviteDone := true }
        M.self onReinviteConnected
      else if ev.isFailure = true then M.self (onReinviteFailed ev)
      else pure ()) s₁).Until fun
        | .call _, _ => False
        | _, s' => s.Heeds s' := by
    refine hp.until_bind (fun _ _ h => h₁.trans h) fun _ s₂ h₂ => until_ite (fun _ => ?_) fun _ =>
      until_ite (fun _ => ?_) fun _ => h₁.trans h₂
    · have hdone : s₂.Heeds { s₂ with reinviteDone := true } :=
        hfield (.same rfl rfl rfl rfl rfl rfl rfl rfl rfl)
      have hconnected := heeds_onReinviteConnected (s := { s₂ with reinviteDone := true }) (List.suffix_refl _)
      exact hconnected.stopped fun _ => ((h₁.trans h₂).trans hdone).trans
    · exact (heeds_onReinviteFailed ev s₂.cls.mro s₂).stopped fun _ => (h₁.trans h₂).trans
  unfold TestReinvite.recvEvent
  rw [if_neg (by simp [he]), Prog.bind_apply, Prog.get_apply, Out.bind_ret]
  refine until_ite (fun _ => hp s) fun _ => until_ite (fun _ => ?_) fun _ =>
    until_ite (fun _ => ?_) fun _ => hrest s (.refl s)
  · exact hrest { s with reinviteInProgress := false }
      (hfield (.same rfl rfl rfl rfl rfl rfl rfl rfl rfl))
  · exact hrest { s with nerrs := s.nerrs + 1 } (hfield (.same rfl rfl rfl rfl rfl rfl rfl rfl rfl))

/-- Such a program is a stretch without a call. -/
theorem Strides.of_heeds {ev : CCEvent} {o : Out Subtest Exc UaCall Unit} (h : o.Until fun
      | .call _, _ => False
      | _, s' => s.Heeds s') : Strides (.event ev) s o :=
  .of_until (h.stopped fun _ => Subtest.Heeds.silent)

theorem CCEvent.exists_update {ev : CCEvent} (h : ev.isUpdate = true) : ∃ body, ev = .update body := by
  cases ev with
  | update body => exact ⟨body, rfl⟩
  | _ => cases h

/-- A re-INVITE that comes in is answered and counted; of all others only the outcome is seen to. -/
theorem TestReinvite.strides_recvEvent {ev : CCEvent} {p : M Unit} (hp : Quiet Subtest.Heeds p)
    (hfail : ev.isUpdate = true → s.cls.isA (.b .reinvFail) = false) :
    Strides (.event ev) s (TestReinvite.recvEvent ev p s) := by
  cases he : ev.isUpdate with
  | true =>
      obtain ⟨body, rfl⟩ := CCEvent.exists_update he
      have hprocess : Strides (.event (.update body)) s (M.self VoipTests.processReinvite s) :=
        strides_processReinvite (List.suffix_refl _) (hfail he)
      exact hprocess.updated (by simp)
  | false => exact .of_heeds (TestReinvite.heeds_recvEvent he hp)

/-- The outcome of a re-INVITE that has to fail is seen to here. -/
theorem ATestReinvFail.strides_recvEvent {ev : CCEvent} {p : M Unit} (hp : Strides (.event ev) s (p s)) :
    Strides (.event ev) s (ATestReinvFail.recvEvent ev p s) := by
  unfold ATestReinvFail.recvEvent
  refine .get (.ite (fun _ => .ite (fun _ => ?_) fun _ => ?_) fun _ => hp)
  · exact Silent.of_leads (by simp) (.same rfl rfl rfl rfl rfl rfl rfl rfl rfl) (by simp)
  · exact Silent.of_leads (by simp) (.same rfl rfl rfl rfl rfl rfl rfl rfl rfl) (by simp)

/-- A re-INVITE is refused at once, and goes no further. -/
theorem BTestReinvFail.strides_recvEvent {ev : CCEvent} {p : M Unit}
    (hc : s.cls.isA (.b .reinvFail) = true) (hp : ev.isUpdate = false → Strides (.event ev) s (p s)) :
    Strides (.event ev) s (BTestReinvFail.recvEvent ev p s) := by
  unfold BTestReinvFail.recvEvent
  refine .ite (fun he => hp (by simpa using he)) fun he => ?_
  obtain ⟨body, rfl⟩ := CCEvent.exists_update (by simpa using he)
  exact ⟨.refuse hc (.refl s), fun s₁ => Tail.refl rfl⟩

theorem PyClass.isA_testReinvite_of_brkn1 {cls : PyClass} (h : cls.isA (.b .reinvBrkn1) = true) :
    cls.isA .testReinvite = true := by
  cases cls with
  | b scn => cases scn <;> first | decide +kernel | exact absurd h (by decide +kernel)
  | a scn => cases scn <;> exact absurd h (by decide +kernel)
  | _ => exact absurd h (by decide +kernel)

/-- A re-INVITE is answered at once, with ports that have been drawn, and goes no further. -/
theorem BTestReinvBrkn1.strides_recvEvent {ev : CCEvent} {p : M Unit}
    (hc : s.cls.isA (.b .reinvBrkn1) = true) (hp : ev.isUpdate = false → Strides (.event ev) s (p s)) :
    Strides (.event ev) s (BTestReinvBrkn1.recvEvent ev p s) := by
  unfold BTestReinvBrkn1.recvEvent
  refine .ite (fun he => hp (by simpa using he)) fun he => .get (.ofSome (by simp) fun lSDP hl => ?_)
  obtain ⟨body, rfl⟩ := CCEvent.exists_update (by simpa using he)
  have hanswers : s.cls.answers = true := by
    simp [PyClass.answers, PyClass.isA_testReinvite_of_brkn1 hc, hc]
  refine (drawn_dropMedia _).once_bind (fun _ s₁ h₁ => ?_) fun sections s₁ h₁ => ?_
  · exact Silent.of_leads (by simp) h₁.toLeads (by simp)
  · have hcall : Strides (.event (.update body)) s (M.uaRecvEvent (.connect 200 "OK"
        (some { lSDP with sections := sections }.bumpVersion)) s₁) :=
      ⟨.answer (.inr ⟨⟨body, rfl⟩, hanswers⟩) (by rw [hl]; rfl) h₁.toLeads h₁.rtpSame,
        fun s₂ => Tail.refl rfl⟩
    exact hcall.updated (by simp)

/-- An on-hold or an off-hold is counted before it is answered. -/
theorem BTestReinvOnhold.strides_recvEvent {ev : CCEvent} {p : M Unit}
    (hp : ∀ s', s.Leads s' [] → Strides (.event ev) s' (p s')) :
    Strides (.event ev) s (BTestReinvOnhold.recvEvent ev p s) := by
  unfold BTestReinvOnhold.recvEvent
  refine .ite (fun _ => .get (.ofSome (by simp) fun sdp _ => .ofSome (by simp) fun onhold _ => ?_)) fun _ =>
    hp s (.refl s)
  exact (hp _ (.held onhold)).of_leads (by simp) (.held onhold) (by cases onhold <;> rfl)

/-- An error may come before the method of the base. -/
theorem ATestInvBrkn1.strides_recvEvent {ev : CCEvent} {p : M Unit}
    (hp : Strides (.event ev) s (p s)) :
    Strides (.event ev) s (ATestInvBrkn1.recvEvent ev p s) := by
  have hrest : Strides (.event ev) s ((M.get >>= fun s =>
      if (s.connectDone || !ev.isFailure) = true then do
        M.addErr
        M.raise (.valueError "INVITE has NOT failed")
        p
      else p) s) :=
    .get (.ite (fun _ => Silent.of_leads (by simp) (.same rfl rfl rfl rfl rfl rfl rfl rfl rfl) (by simp))
      fun _ => hp)
  unfold ATestInvBrkn1.recvEvent
  split
  · exact hp
  · exact hp
  · exact hrest

/-- The method of every class; one that refuses re-INVITEs does so before the mix-in sees them. -/
theorem strides_recvEvent {ev : CCEvent} (hm : mro <:+ s.cls.mro)
    (hfail : ev.isUpdate = true → s.cls.isA (.b .reinvFail) = true → .b .reinvFail ∈ mro) :
    Strides (.event ev) s (recvEvent ev mro s) := by
  fun_induction recvEvent ev mro generalizing s with
  | case1 => exact .raise (by simp)
  | case2 sup ih =>
      exact ATestReinvFail.strides_recvEvent (ih (suffix_of_cons hm) (by simpa using hfail))
  | case3 sup ih =>
      exact BTestReinvFail.strides_recvEvent (isA_of_suffix hm) fun he =>
        ih (suffix_of_cons hm) (by simp [he])
  | case4 sup ih =>
      exact BTestReinvBrkn1.strides_recvEvent (isA_of_suffix hm) fun he =>
        ih (suffix_of_cons hm) (by simp [he])
  | case5 sup ih =>
      exact BTestReinvOnhold.strides_recvEvent fun s' hs' =>
        ih (hs'.cls ▸ suffix_of_cons hm) (by rw [hs'.cls]; simpa using hfail)
  | case6 sup ih =>
      exact ATestInvBrkn1.strides_recvEvent (ih (suffix_of_cons hm) (by simpa using hfail))
  | case7 sup ih =>
      have hsup := PyClass.eq_mro_testReinvite hm
      refine TestReinvite.strides_recvEvent ?_ fun he => ?_
      · rcases hsup with rfl | rfl | rfl
        · exact heeds_raise _
        · exact ATest1.heeds_recvEvent ev
        · exact heeds_pure _
      · by_contra hno
        have hmem := hfail he (by simpa using hno)
        rcases hsup with rfl | rfl | rfl <;> simp at hmem
  | case8 sup => exact .of_heeds (ATest1.heeds_recvEvent ev s)
  | case9 => exact .of_heeds (.refl s)
  | case10 c sup _ hn _ _ _ _ _ _ ih =>
      refine ih (suffix_of_cons hm) fun he hc => ?_
      exact (List.mem_cons.mp (hfail he hc)).resolve_left fun h => hn h.symm

/-! ## the other callbacks -/

/-- The flag is set with the timer for the end of the call, and one for a re-INVITE if there is
to be any. -/
theorem ATest1.silent_connected (ha : s.cls.isAlice = true) (ts : List Timer)
    (hts : ∀ t ∈ ts, t.cb = .reinvite) : Silent .connected s ({ s with
      timers := s.timers ++ [Timer.mk .disconnect (s.disconnectIval.getD 0)] ++ ts
      connectDone := true }.note .connectDone) where
  stays := by
    refine ⟨Timer.mk .disconnect (s.disconnectIval.getD 0) :: ts, ⟨rfl, rfl, ⟨[.connectDone], rfl,
      by simp [Obs.isMark]⟩, by simp [Subtest.note]⟩, fun t ht => ⟨ha, ?_⟩⟩
    by_cases hd : t.cb = .disconnect
    · exact .inl hd
    · have hmem : t ∈ ts := by grind
      exact .inr (hts t hmem)
  connectDone := .inr (.inl ha)
  disconnectDone h := h
  lSDP := rfl
  rtp := ⟨.refl _, rfl⟩

/-- Only Alice is told that she is connected. -/
theorem strides_connected (hm : mro <:+ s.cls.mro) (ha : s.cls.isAlice = true) :
    Strides .connected s (connected mro s) := by
  have hone := ATest1.silent_connected ha [] (by simp)
  rw [List.append_nil] at hone
  fun_induction connected mro with
  | case1 => exact .raise (by simp)
  | case2 sup ih =>
      rcases PyClass.eq_mro_testReinvite hm with rfl | rfl | rfl
      · exact .raise (by simp)
      · have htwo (ival : ℚ) := ATest1.silent_connected ha [⟨.reinvite, ival⟩] (by simp)
        show Strides .connected s (M.timeoutIf .reinvite s.reinviteIval _)
        cases s.reinviteIval with
        | none => exact hone
        | some ival => exact htwo ival
      · exact .raise (by simp)
  | case3 => exact hone
  | case4 _ _ _ _ ih => exact ih (suffix_of_cons hm)

/-- The flag and the account, which sends nothing. -/
theorem strides_disconnected {origin : Origin} {acct : Acct} :
    Strides (.disconnected origin acct) s (disconnected origin acct mro s) := by
  -- Both classes do the same, for the origins of their side.
  have hboth {c : Prop} [Decidable c] : Strides (.disconnected origin acct) s ((do
      if c then
        M.setDisconnectDone
      M.modify fun s => { s with acct := some acct } : M Unit) s) := by
    by_cases hc : c
    · rw [if_pos hc]
      exact ⟨⟨[], ⟨rfl, rfl, ⟨[.disconnectDone], rfl, by simp [Obs.isMark]⟩,
        (List.append_nil _).symm⟩, by simp⟩, .inl rfl, fun _ => rfl, rfl, .refl _, rfl⟩
    · rw [if_neg hc]
      exact Silent.of_leads (by simp) (.same rfl rfl rfl rfl rfl rfl rfl rfl rfl) (by simp)
  fun_induction disconnected origin acct mro with
  | case1 => exact .raise (by simp)
  | case2 => exact hboth
  | case3 => exact hboth
  | case4 _ _ _ _ ih => exact ih

/-! ## the end -/

/-- Nothing has changed that `done` looks at to close the endpoint. -/
structure Subtest.Unclosed (s s' : Subtest) : Prop where
  rtp : s'.rtp = s.rtp
  tccfg : s'.tccfg = s.tccfg
  env : s'.env = s.env
  doneCalled : s'.doneCalled = s.doneCalled
  report : s'.report = s.report

theorem Subtest.Unclosed.refl (s : Subtest) : s.Unclosed s := ⟨rfl, rfl, rfl, rfl, rfl⟩

theorem Subtest.Unclosed.trans (h : s.Unclosed s₁) (h' : s₁.Unclosed s₂) : s.Unclosed s₂ :=
  ⟨h'.rtp.trans h.rtp, h'.tccfg.trans h.tccfg, h'.env.trans h.env, h'.doneCalled.trans h.doneCalled,
    h'.report.trans h.report⟩

theorem Subtest.Unclosed.closes (h : s.Unclosed s₁) : s.Closes s₁ := .inl ⟨h.rtp, h.report⟩

/-- `alldone`, or what is left of it in the middle of it. -/
abbrev Closing (s : Subtest) (o : Out Subtest Exc UaCall Unit) : Prop :=
  o.Until fun
    | .call _, _ => False
    | _, s' => s.Closes s'

/-- `done` shuts the endpoint down once, or an assertion keeps it from reporting. -/
theorem Test.closing_done (h : s.Unclosed s₁) : Closing s (Test.done s₁) := by
  unfold Test.done M.assert
  cases hi : s₁.rtp.inited with
  | false => simpa [hi] using h.closes
  | true =>
      cases hd : s₁.doneCalled with
      | true => simpa [hi, hd] using h.closes
      | false =>
          cases hso : s₁.tccfg.signallingOnly with
          | true =>
              have hkeep : s.Closes { s₁ with
                  doneCalled := true
                  report := some ⟨s₁.rval, s₁.log⟩ } := by
                refine .inr ⟨h.doneCalled.symm.trans hd, ?_⟩
                rw [← h.tccfg, hso, if_pos rfl]
                exact h.rtp
              simpa [hi, hd, hso] using hkeep
          | false =>
              have hclose {rtp : Rtp} (hrtp : rtp = s₁.rtp.shutdown s₁.env) : s.Closes { s₁ with
                  doneCalled := true
                  rtp := rtp
                  report := some ⟨s₁.rval, s₁.log⟩ } := by
                refine .inr ⟨h.doneCalled.symm.trans hd, ?_⟩
                rw [← h.tccfg, hso, ← h.rtp, ← h.env]
                exact hrtp
              cases hc : s₁.rtp.closing with
              | false => simpa [hi, hd, hso, Test.reportRtp_eq, hc] using hclose rfl
              | true =>
                  -- The assertion of `_rtp_shutdown_stats`, if it comes to it.
                  unfold Test.reportRtp Test.rtpShutdownStats M.assert
                  cases he : s₁.rtp.enabled with
                  | true =>
                      have hraised : s.Closes { s₁ with doneCalled := true } := .inl ⟨h.rtp, h.report⟩
                      simpa [hi, hd, hso, hc, he] using hraised
                  | false =>
                      have hkeep : s₁.rtp = s₁.rtp.shutdown s₁.env := by simp [Rtp.shutdown, he]
                      simpa [hi, hd, hso, he] using hclose hkeep

/-- The verdict makes no difference for the endpoint. -/
theorem Test.closing_passIf {cond : Subtest → Bool} (h : s.Unclosed s₁) :
    Closing s (Test.passIf cond s₁) := by
  unfold Test.passIf
  rw [Prog.bind_apply, Prog.get_apply, Out.bind_ret]
  refine until_ite (fun _ => ?_) fun _ => Test.closing_done h
  have hpass : s.Unclosed { s₁ with rval := 0 } := h.trans ⟨rfl, rfl, rfl, rfl, rfl⟩
  exact Test.closing_done hpass

/-- Every `alldone` comes to `done`, or raises an exception before. -/
theorem closing_alldone (h : s.Unclosed s₁) : Closing s (alldone mro s₁) := by
  -- What is set before `done` is called does not matter for the endpoint.
  have herr {s₁ : Subtest} (h : s.Unclosed s₁) : s.Unclosed { s₁ with nerrs := s₁.nerrs + 1 } :=
    h.trans ⟨rfl, rfl, rfl, rfl, rfl⟩
  fun_induction alldone mro generalizing s₁ with
  | case1 => exact h.closes
  | case9 sup ih =>
      unfold BTestReinvOnhold.alldone
      rw [Prog.bind_apply, Prog.get_apply, Out.bind_ret]
      refine until_ite (fun _ => ?_) fun _ => ih h
      have hshown : s.Unclosed { s₁ with finfoDisplayed := true } := h.trans ⟨rfl, rfl, rfl, rfl, rfl⟩
      exact ih (herr hshown)
  | case10 sup ih =>
      unfold TestEarlyCancel.alldone
      rw [Prog.bind_apply, Prog.get_apply, Out.bind_ret]
      refine until_ite (fun _ => ?_) fun _ => ih (herr h)
      cases s₁.acct with
      | none => exact h.closes
      | some acct =>
          refine until_ite (fun _ => ?_) fun _ => ih (herr h)
          have hearly : s.Unclosed ({ s₁ with ringDone := true, connectDone := true }.note .connectDone) :=
            h.trans ⟨rfl, rfl, rfl, rfl, rfl⟩
          exact ih hearly
  | case11 sup ih =>
      unfold TestReinvite.alldone
      rw [Prog.bind_apply, Prog.get_apply, Out.bind_ret]
      exact until_ite (fun _ => ih (herr h)) fun _ => ih h
  | case12 =>
      have hpass {s₁ : Subtest} (h : s.Unclosed s₁) : s.Unclosed { s₁ with rval := 0 } :=
        h.trans ⟨rfl, rfl, rfl, rfl, rfl⟩
      unfold Test.alldone
      rw [Prog.bind_apply, Prog.get_apply, Out.bind_ret]
      refine until_ite (fun _ => Test.closing_done (hpass h)) fun _ => until_ite (fun _ => ?_) fun _ => ?_
      · have hshown : s.Unclosed { s₁ with finfoDisplayed := true } := h.trans ⟨rfl, rfl, rfl, rfl, rfl⟩
        exact until_ite (fun _ => Test.closing_done (hpass hshown)) fun _ => Test.closing_done hshown
      · exact until_ite (fun _ => Test.closing_done (hpass h)) fun _ => Test.closing_done h
  | case13 _ _ _ _ _ _ _ _ _ _ _ _ _ ih => exact ih h
  | _ => exact Test.closing_passIf h

/-- `alldone` sends nothing, sets no timer and shuts the endpoint down at most once. -/
theorem strides_alldone : Strides .dead s (alldone s.cls.mro s) := by
  have hends : Quiet (Subtest.Ends (s.cls.isA .testEarlyCancel)) (alldone s.cls.mro) :=
    quiet_alldone fun h => decide_eq_true h
  have hclosing : Closing s (alldone s.cls.mro s) := closing_alldone (.refl s)
  refine .of_until (((hends s).and hclosing).mono fun stop s' h => ?_)
  have hsilent (he : s.Ends (s.cls.isA .testEarlyCancel) s') (hc : s.Closes s') :
      Silent .dead s s' := by
    obtain ⟨n, hn⟩ := he.log
    refine ⟨⟨[], ⟨he.field _ fun _ => rfl, he.field _ fun _ => rfl, ⟨_, hn, fun o ho => ?_⟩, ?_⟩,
      by simp⟩, ?_, fun hd => (he.field _ fun _ => rfl).trans hd, ?_, hc⟩
    · rw [List.eq_of_mem_replicate ho]
      rfl
    · exact (he.field Subtest.timers fun _ => rfl).trans (List.append_nil _).symm
    · cases hearly : s.cls.isA .testEarlyCancel with
      | false => exact .inl (he.flags hearly).2
      | true => exact .inr (.inr rfl)
    · exact he.field (fun s => s.ua.lSDP.map Sdp.audioPort) fun _ => rfl
  cases stop with
  | ret a => exact hsilent h.1 h.2
  | raise e => exact hsilent h.1 h.2
  | call c => exact h.1

/-! ## every callback -/

/-- Where a callback goes on from the state in which it is entered. -/
def Subtest.entered (s : Subtest) (cb : Cb) (env : Env) : Subtest :=
  { { s with timers := cb.timers s, ua := cb.ua s }.note (cb.obs s) with env := env }

theorem entry_eq_entered {i : Input} {idle : Bool} (h : machine.entry i s idle = some s₁) :
    i.cb.Enabled s ∧ s₁ = s.entered i.cb i.env := by
  obtain ⟨s₂, h₂, rfl⟩ := Option.map_eq_some_iff.mp h
  obtain ⟨hen, rfl⟩ := eq_of_entry h₂
  exact ⟨hen, rfl⟩

/-- Each of the callbacks that timers are set for. -/
theorem strides_timer (hl : s.last = some (.fired t.cb)) :
    Strides (.timer t) s (t.cb.body s.cls.mro s) := by
  cases ht : t.cb with
  | ring => exact strides_ring (List.suffix_refl _) ht (ht ▸ hl)
  | connect => exact strides_connect (List.suffix_refl _) ht (ht ▸ hl)
  | disconnect => exact strides_disconnect (List.suffix_refl _) ht
  | cancel => exact strides_cancel ht
  | reinvite =>
      refine strides_reinvite (List.suffix_refl _) ht fun _ => ?_
      by_cases hc : s.cls.isA (.a .reinvOnhold) = true
      · exact .inl (of_decide_eq_true hc)
      · exact .inr (by simpa using hc)
  | offHold => exact strides_offHold ht
  | processReinvite => exact TestReinvite.strides_answerReinvite (.inl ⟨t, rfl, ht⟩)

/-- **Every callback** calls its UA at most once, and says what it should. -/
theorem strides_body (i : Input) (s : Subtest) (idle : Bool) (s₁ : Subtest)
    (h : machine.entry i s idle = some s₁) :
    (machine.body i s₁).Once (Stretch i.cb s₁) Tail := by
  obtain ⟨hen, rfl⟩ := entry_eq_entered h
  obtain ⟨cb, env⟩ := i
  show Strides cb (s.entered cb env) (cb.body (s.entered cb env).cls.mro (s.entered cb env))
  cases cb with
  | event ev => exact strides_recvEvent (List.suffix_refl _) fun _ => of_decide_eq_true
  | connected => exact strides_connected (List.suffix_refl _) hen
  | disconnected origin acct => exact strides_disconnected
  | dead => exact strides_alldone
  | timer t => exact strides_timer (by simp [Subtest.entered, Subtest.note, Subtest.last, Cb.obs])
  | inDialogInvite ruri => exact .ret (by simp)

end VoipTests
