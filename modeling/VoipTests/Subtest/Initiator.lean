import VoipTests.Subtest.Effects

/-!
# VoipTests.Subtest.Initiator

The verdict of the side that starts a re-INVITE.

The pass of such a subtest rests on flags that the mix-in `test_reinvite`, the
base classes and the overrides set at different times.  `Orderly` says in
which order: a re-INVITE in progress has been sent in a call that was up, and
an outcome that counts belongs to one.
-/

namespace VoipTests

open Callback Relation

variable {p : Setup} {s s' : Subtest}

/-! ## the classes -/

/-- The classes whose objects have a `reinvite_ival`. -/
def initiators : List PyClass :=
  [.a .reinvite, .a .reinvOnhold, .a .reinvAdelay, .a .reinvBadAck, .a .reinvFail, .a .reinvBrkn1,
    .a .reinvBrkn2, .b .reinvFrombob, .b .natedContact]

theorem Setup.initiates_iff (p : Setup) : initiates p.cls.mro = true ↔ p.cls ∈ initiators := by
  obtain ⟨scn, side, _, _, _⟩ := p
  cases side with
  | alice =>
      show initiates (PyClass.a scn).mro = true ↔ PyClass.a scn ∈ initiators
      cases scn <;> decide +kernel
  | bob body req =>
      show initiates (PyClass.b scn).mro = true ↔ PyClass.b scn ∈ initiators
      cases scn <;> decide +kernel

theorem isA_of_initiator {cls : PyClass} (h : cls ∈ initiators) :
    cls.isA .testReinvite = true ∧ cls.isA .testEarlyCancel = false ∧
      asksReinvite cls.mro = true := by
  have hall : ∀ cls ∈ initiators, (cls.isA .testReinvite && !cls.isA .testEarlyCancel &&
      asksReinvite cls.mro) = true := by decide +kernel
  simpa [and_assoc] using hall cls h

/-! ## the order of things -/

/-- A re-INVITE has been sent, in a call that was up. -/
def Sent (log : List Obs) : Prop :=
  ∃ l sdp l', log = l ++ .inject (.update sdp) :: l' ∧ .connectDone ∈ l ∧ .disconnectDone ∉ l

theorem Sent.mono {log log' : List Obs} (h : Sent log) (hp : log <+: log') : Sent log' := by
  obtain ⟨l, sdp, l', rfl, hc, hd⟩ := h
  obtain ⟨l'', rfl⟩ := hp
  exact ⟨l, sdp, l' ++ l'', by rw [List.append_assoc, List.cons_append], hc, hd⟩

/-- The event that settled a re-INVITE as the class wants it has come in. -/
def Settled (cls : PyClass) (log : List Obs) : Prop :=
  ∃ l ev, l ++ [.event ev true] <+: log ∧ cls.wants ev = true

/-- The flags of a re-INVITE and the chronicle. -/
structure Subtest.Orderly (s : Subtest) : Prop where
  inProgress : s.reinviteInProgress = true → Sent s.log
  outcome : ∀ l ev, l ++ [.event ev true] <+: s.log → Sent l
  done : s.reinviteDone = true → Settled s.cls s.log

/-- Where an entry of a list that has been added to stands. -/
theorem prefix_of_append {α : Type} {l log l' : List α} {o : α} (h : l ++ [o] <+: log ++ l') :
    l ++ [o] <+: log ∨ (log <+: l ∧ o ∈ l') := by
  rcases List.prefix_or_prefix_of_prefix h (List.prefix_append log l') with hp | hp
  · exact .inl hp
  · rcases List.prefix_concat_iff.mp hp with he | hp
    · exact .inl (he ▸ List.prefix_refl _)
    · obtain ⟨m, rfl⟩ := hp
      rw [List.append_assoc, List.prefix_append_right_inj] at h
      exact .inr ⟨List.prefix_append _ _, h.subset (List.mem_append_right _ (List.mem_singleton_self o))⟩

/-- New entries leave the order as it is, as long as the flags stay. -/
theorem Subtest.Orderly.append (h : s.Orderly) {l : List Obs} (hcls : s'.cls = s.cls)
    (hp : s'.reinviteInProgress = true → s.reinviteInProgress = true)
    (hd : s'.reinviteDone = s.reinviteDone) (hlog : s'.log = s.log ++ l)
    (hl : ∀ ev, .event ev true ∈ l → s.reinviteInProgress = true) : s'.Orderly := by
  have hprefix : s.log <+: s'.log := hlog ▸ List.prefix_append _ _
  refine ⟨fun hp' => (h.inProgress (hp hp')).mono hprefix, fun l' ev hev => ?_, fun hd' => ?_⟩
  · rw [hlog] at hev
    rcases prefix_of_append hev with hev | ⟨hp', hmem⟩
    · exact h.outcome l' ev hev
    · exact (h.inProgress (hl ev hmem)).mono hp'
  · obtain ⟨l', ev, hev, hw⟩ := h.done (hd ▸ hd')
    exact ⟨l', ev, hev.trans hprefix, hcls ▸ hw⟩

theorem Move.orderly (h : Move s s') (hr : s.Recorded) (he : s.cls.isA .testEarlyCancel = false)
    (hs : s.Orderly) : s'.Orderly := by
  have hsame {s' : Subtest} {l : List Obs} (hcls : s'.cls = s.cls)
      (hp : s'.reinviteInProgress = s.reinviteInProgress)
      (hd : s'.reinviteDone = s.reinviteDone) (hlog : s'.log = s.log ++ l)
      (hl : ∀ o ∈ l, o.made = true) : s'.Orderly :=
    hs.append hcls (fun h => hp ▸ h) hd hlog fun ev hev => by cases hl _ hev
  obtain ⟨l, hlog, hmade⟩ := h.log
  cases h with
  | unseen h =>
      obtain ⟨_, _, _, _, -, -, rfl⟩ := h
      exact hsame rfl rfl rfl hlog hmade
  | held on => cases on <;> exact hsame rfl rfl rfl hlog hmade
  | dead hl h =>
      obtain ⟨s₁, he, rfl | ⟨exc, rfl⟩⟩ := ends_of_settle h
      · exact hsame he.sameLife.cls (he.field Subtest.reinviteInProgress fun _ => rfl)
          (he.field Subtest.reinviteDone fun _ => rfl) hlog hmade
      · exact hsame he.sameLife.cls (he.field Subtest.reinviteInProgress fun _ => rfl)
          (he.field Subtest.reinviteDone fun _ => rfl) hlog hmade
  | @reinvite lSDP sdp cb hl hcb hc hd hlsdp hv =>
      have hsent : Sent (s.log ++ [.inject (.update (some sdp))]) := by
        refine ⟨s.log, some sdp, [], rfl, hr.connectDone he hc, fun hno => ?_⟩
        rw [hr.disconnectDone.mpr hno] at hd
        cases hd
      refine ⟨fun _ => hsent, fun l' ev hev => ?_, fun hd' => ?_⟩
      · rcases prefix_of_append hev with hev | ⟨-, hmem⟩
        · exact hs.outcome l' ev hev
        · simp at hmem
      · obtain ⟨l', ev, hev, hw⟩ := hs.done hd'
        exact ⟨l', ev, hev.trans (List.prefix_append _ _), hw⟩
  | settled hl hev =>
      exact hs.append (l := []) rfl nofun rfl (by simp) (by simp)
  | @reinviteDone ev hl hw =>
      refine ⟨hs.inProgress, hs.outcome, fun _ => ?_⟩
      obtain ⟨l', hl'⟩ := List.getLast?_eq_some_iff.mp hl
      exact ⟨l', ev, hl' ▸ List.prefix_refl _, hw⟩
  | _ => exact hsame rfl rfl rfl hlog hmade

/-- **What happens to a re-INVITE happens in order.** -/
theorem Setup.Lives.orderly (h : p.Lives s) (hi : p.cls ∈ initiators) : s.Orderly := by
  refine h.induction (fun s hb => ?_) fun s s' hl hs hc => ?_
  · refine ⟨fun hp => ?_, fun l ev hp => ?_, fun hd => ?_⟩
    · rw [hb.blank.reinviteInProgress] at hp
      cases hp
    · have hmem := hp.subset (List.mem_append_right l (List.mem_singleton_self _))
      cases hb.not_entered hmem
    · rw [hb.blank.reinviteDone] at hd
      cases hd
  · cases hc with
    | enter h =>
        obtain ⟨-, rfl⟩ := eq_of_entry h
        refine hs.append rfl id rfl rfl fun ev hev => ?_
        rename_i cb _
        cases cb <;> simp only [Cb.obs, List.mem_singleton, reduceCtorEq, Obs.event.injEq] at hev
        exact hev.2.symm
    | move h =>
        have he : s.cls.isA .testEarlyCancel = false := by
          rw [hl.cls]
          exact (isA_of_initiator hi).2.1
        exact h.orderly hl.recorded he hs

/-! ## the verdict -/

/-- An outcome of the other kind, while a re-INVITE is in progress, is an error. -/
theorem faults_of_opposite {cls : PyClass} {cfg : TcCfg} {ev : CCEvent} (hi : cls ∈ initiators)
    (he : ev.isConnect = true ∨ ev.isFailure = true) (hw : cls.wants ev = false) :
    Faults cls.mro cls cfg ev true := by
  have hmem : .testReinvite ∈ cls.mro := by
    simpa [PyClass.isA] using (isA_of_initiator hi).1
  exact .inr (.inl ⟨rfl, hmem, he, hw⟩)

/-- A pass of this side takes the outcome of a re-INVITE. -/
theorem Setup.Lives.settled_of_passes (hl : p.Lives s) (hi : p.cls ∈ initiators)
    (hpass : passes p.cls.mro s = true) : Settled p.cls s.log := by
  have hival : s.reinviteIval.isSome = true := by
    rw [hl.reinviteIval]
    exact p.initiates_iff.mpr hi
  have hsettled := (hl.orderly hi).done (reinviteDone_of_passes hpass (isA_of_initiator hi).2.2 hival)
  rwa [hl.cls] at hsettled

/-- **The verdict of the side that starts a re-INVITE is sound.**  In every
run in which it is reported to have passed, the call was up as it sent a
re-INVITE; then came the outcome that the scenario wants, and then the end of
the call, before `alldone`.  No outcome of the other kind came in while a
re-INVITE was in progress. -/
theorem initiator_sound {acts : List Act} {y : Sys} {r : Report} (hi : p.cls ∈ initiators)
    (hm : p.named = false) (h : p.Reaches acts y) (hr : y.st.report = some r) (hv : r.rval = 0) :
    (∃ l₁ sdp l₂ ev l₃ l₄,
      r.log = l₁ ++ .inject (.update sdp) :: l₂ ++ .event ev true :: l₃ ++ .dead :: l₄ ∧
        .connectDone ∈ l₁ ∧ .disconnectDone ∉ l₁ ∧ p.cls.wants ev = true ∧
        .disconnectDone ∈ l₂ ++ l₃) ∧
    ∀ ev, .event ev true ∈ r.log → ev.isConnect = true ∨ ev.isFailure = true →
      p.cls.wants ev = true := by
  obtain ⟨acts₁, y₁, h₁, hl, hpass, ⟨n, hlog⟩, -⟩ := Setup.passes_of_rval h hr hm hv
  have hdisc := hl.recorded.disconnectDone.mp (disconnectDone_of_passes hpass)
  have horder := hl.orderly hi
  constructor
  · obtain ⟨l, ev, ⟨l₃, hev⟩, hw⟩ := hl.settled_of_passes hi hpass
    obtain ⟨l₁, sdp, l₂, rfl, hconn, hno⟩ := horder.outcome l ev ⟨l₃, hev⟩
    refine ⟨l₁, sdp, l₂, ev, l₃, List.replicate n .connectDone, ?_, hconn, hno, hw, ?_⟩
    · rw [hlog, ← hev]
      simp
    · rw [← hev] at hdisc
      simpa [hno] using hdisc
  · intro ev hmem he
    by_contra hw
    have hmem₁ : .event ev true ∈ y₁.st.log := by
      rw [hlog] at hmem
      simpa using hmem
    have hf : Faults p.cls.mro p.cls p.tccfg ev true := faults_of_opposite hi he (by simpa using hw)
    rw [passes_eq_false (hl.nerrs_of_faults h₁ hmem₁ hf)] at hpass
    cases hpass

/-- `a_test_reinvite`: the call is set up, a re-INVITE is answered, and the
other side hangs up. -/
theorem initiator_sound_reinvite : ∃ r : Report, r.rval = 0 ∧
    ∃ l₁ sdp l₂ ev l₃ l₄,
      r.log = l₁ ++ .inject (.update sdp) :: l₂ ++ .event ev true :: l₃ ++ .dead :: l₄ ∧
        .connectDone ∈ l₁ ∧ .disconnectDone ∉ l₁ ∧ ev.isConnect = true := by
  have hrun : ((Sample.alice .reinvite false).run [.ret Sample.env,
      Sample.enter (.event (.ring 180 "" none)), Sample.enter .connected,
      Sample.enter (.timer ⟨.reinvite, 7⟩), .ret Sample.env,
      Sample.enter (.event (.connect 200 "" (some Sample.proxied))),
      Sample.enter (.disconnected .switch ⟨10, 1, true, true⟩), Sample.enter .dead]).map
        (fun y => y.st.report.map Report.rval) = some (some 0) := by
    decide +kernel
  obtain ⟨y, hy, hf⟩ := Setup.exists_of_run hrun
  obtain ⟨r, hr, hv⟩ := Option.map_eq_some_iff.mp hf
  obtain ⟨⟨l₁, sdp, l₂, ev, l₃, l₄, hlog, hc, hd, hw, -⟩, -⟩ :=
    initiator_sound (p := Sample.alice .reinvite false) (by decide) rfl hy hr hv
  exact ⟨r, hv, l₁, sdp, l₂, ev, l₃, l₄, hlog, hc, hd, hw⟩

/-! ## the other classes -/

theorem initiator_of_isA {p : Setup} (h : p.cls.isA (.a .reinvOnhold) = true) :
    p.cls ∈ initiators := by
  rw [← p.initiates_iff]
  obtain ⟨scn, side, _, _, _⟩ := p
  cases side with
  | alice =>
      have hall (scn : Scenario) : (PyClass.a scn).isA (.a .reinvOnhold) = true →
          initiates (PyClass.a scn).mro = true := by
        cases scn <;> decide +kernel
      exact hall scn h
  | bob body req =>
      have hall (scn : Scenario) : (PyClass.b scn).isA (.a .reinvOnhold) = true →
          initiates (PyClass.b scn).mro = true := by
        cases scn <;> decide +kernel
      exact hall scn h

/-- What starts a re-INVITE when it fires. -/
def TimerCb.starts (cb : TimerCb) : Prop := cb = .reinvite ∨ cb = .offHold

instance (cb : TimerCb) : Decidable cb.starts :=
  inferInstanceAs (Decidable (cb = .reinvite ∨ cb = .offHold))

theorem Move.timers (h : Move s s') : ∃ ts, s'.timers = s.timers ++ ts ∧ ∀ t ∈ ts, t.cb.starts →
    s.reinviteIval.isSome = true ∨ s.cls.isA (.a .reinvOnhold) = true := by
  have hnone {s' : Subtest} (h : s'.timers = s.timers) :
      ∃ ts, s'.timers = s.timers ++ ts ∧ ∀ t ∈ ts, t.cb.starts →
        s.reinviteIval.isSome = true ∨ s.cls.isA (.a .reinvOnhold) = true :=
    ⟨[], by simpa using h, by simp⟩
  have hone {s' : Subtest} {t : Timer} (h : s'.timers = s.timers ++ [t])
      (ht : t.cb.starts → s.reinviteIval.isSome = true ∨ s.cls.isA (.a .reinvOnhold) = true) :
      ∃ ts, s'.timers = s.timers ++ ts ∧ ∀ t ∈ ts, t.cb.starts →
        s.reinviteIval.isSome = true ∨ s.cls.isA (.a .reinvOnhold) = true :=
    ⟨[t], h, by simpa using ht⟩
  cases h with
  | unseen h =>
      obtain ⟨_, _, _, _, -, -, rfl⟩ := h
      exact hnone rfl
  | held on => cases on <;> exact hnone rfl
  | dead hl h =>
      obtain ⟨s₁, he, rfl | ⟨exc, rfl⟩⟩ := ends_of_settle h
      · exact hnone (he.field Subtest.timers fun _ => rfl)
      · exact hnone (he.field Subtest.timers fun _ => rfl)
  | @timer t ht =>
      refine hone rfl fun hcb => ?_
      rcases hcb with hcb | hcb <;> simp [hcb] at ht
  | @connected ts _ hts _ ival =>
      refine ⟨⟨.disconnect, ival⟩ :: ts, ?_, fun t ht hcb => ?_⟩
      · simp [Subtest.withTimer, Subtest.note]
      · rcases List.mem_cons.mp ht with rfl | ht
        · rcases hcb with hcb | hcb <;> cases hcb
        · exact .inl (hts t ht).2
  | ring => exact hone rfl fun hcb => by rcases hcb with hcb | hcb <;> cases hcb
  | connect => exact hone rfl fun hcb => by rcases hcb with hcb | hcb <;> cases hcb
  | reinviteTimer ha hi => exact hone rfl fun _ => .inl (by rw [hi]; rfl)
  | scheduled hc => exact hone rfl fun _ => .inr hc
  | _ => exact hnone rfl

/-- A subtest that never starts a re-INVITE. -/
structure Subtest.Passive (s : Subtest) : Prop where
  timers : ∀ t ∈ s.timers, ¬ t.cb.starts
  fired : ∀ cb, .fired cb ∈ s.log → ¬ cb.starts
  inProgress : s.reinviteInProgress = false
  events : ∀ ev, .event ev true ∉ s.log

theorem Move.passive (h : Move s s') (hi : s.reinviteIval = none)
    (hc : s.cls.isA (.a .reinvOnhold) = false) (hs : s.Passive) : s'.Passive := by
  have hin : s'.reinviteInProgress = false := by
    have hin := hs.inProgress
    cases h with
    | unseen h =>
        obtain ⟨_, _, _, _, -, -, rfl⟩ := h
        exact hin
    | held on => cases on <;> exact hin
    | dead hl h =>
        obtain ⟨s₁, he, rfl | ⟨exc, rfl⟩⟩ := ends_of_settle h
        · exact (he.field Subtest.reinviteInProgress fun _ => rfl).trans hin
        · exact (he.field Subtest.reinviteInProgress fun _ => rfl).trans hin
    | reinvite hl hcb => exact (hs.fired _ (mem_of_last hl) hcb).elim
    | settled => rfl
    | _ => exact hin
  obtain ⟨ts, hts, hstarts⟩ := h.timers
  obtain ⟨l, hlog, hmade⟩ := h.log
  refine ⟨fun t ht hcb => ?_, fun cb hcb => ?_, hin, fun ev hev => ?_⟩
  · rw [hts, List.mem_append] at ht
    rcases ht with ht | ht
    · exact hs.timers t ht hcb
    · rcases hstarts t ht hcb with h | h
      · rw [hi] at h
        cases h
      · rw [hc] at h
        cases h
  · rw [hlog, List.mem_append] at hcb
    rcases hcb with hcb | hcb
    · exact hs.fired cb hcb
    · cases hmade _ hcb
  · rw [hlog, List.mem_append] at hev
    rcases hev with hev | hev
    · exact hs.events ev hev
    · cases hmade _ hev

/-- **A class that has no `reinvite_ival` starts no re-INVITE.** -/
theorem Setup.Lives.passive (h : p.Lives s) (hi : p.cls ∉ initiators) : s.Passive := by
  refine h.induction (fun s hb => ?_) fun s s' hl hs hc => ?_
  · have hno {o : Obs} (ho : o.entered = true) : o ∉ s.log := fun hmem => by
      rw [hb.not_entered hmem] at ho
      cases ho
    refine ⟨fun t ht => ?_, fun cb hcb => (hno rfl hcb).elim, hb.blank.reinviteInProgress,
      fun ev => hno rfl⟩
    have hcalled := hb.called
    unfold Setup.Called at hcalled
    split at hcalled
    · obtain ⟨cli, cld, body, -, -, hts⟩ := hcalled
      rw [hts] at ht
      cases ht
    · obtain ⟨sdp, ival, -, -, -, -, hts⟩ := hcalled
      rw [hts, List.mem_singleton] at ht
      subst ht
      rintro (hcb | hcb) <;> cases hcb
  · cases hc with
    | enter h =>
        obtain ⟨hen, rfl⟩ := eq_of_entry h
        rename_i cb _
        refine ⟨fun t ht => ?_, fun cb' hcb => ?_, hs.inProgress, fun ev hev => ?_⟩
        · refine hs.timers t ?_
          cases cb with
          | timer t' => exact List.mem_of_mem_erase ht
          | _ => exact ht
        · rcases List.mem_append.mp hcb with hcb | hcb
          · exact hs.fired cb' hcb
          · cases cb with
            | timer t =>
                rw [Cb.obs, List.mem_singleton, Obs.fired.injEq] at hcb
                rw [hcb]
                exact hs.timers t hen
            | _ => simp [Cb.obs] at hcb
        · rcases List.mem_append.mp hev with hev | hev
          · exact hs.events ev hev
          · cases cb with
            | event ev' =>
                rw [Cb.obs, List.mem_singleton, Obs.event.injEq, hs.inProgress] at hev
                cases hev.2
            | _ => simp [Cb.obs] at hev
    | move h =>
        have hnone : initiates p.cls.mro = false := by
          rw [← Bool.not_eq_true, p.initiates_iff]
          exact hi
        refine h.passive ?_ ?_ hs
        · rw [← Option.isNone_iff_eq_none, ← Option.not_isSome, hl.reinviteIval, hnone]
          rfl
        · rw [hl.cls, ← Bool.not_eq_true]
          exact fun hc => hi (initiator_of_isA hc)

end VoipTests
