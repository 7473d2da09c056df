import VoipTests.Subtest.Chronicle

/-!
# VoipTests.Subtest.Effects

What a callback has done by the time the subtest is left alone again.

The chronicle says that a callback has been entered; its code may still be
waiting for the UA.  `Setup.Lives.of_entered` is the rule: an effect that the
first stretch of the code brings about, and nothing takes back, is there in
every state in which the subtest is found.
-/

namespace VoipTests

open Callback Relation

variable {p : Setup} {s s' : Subtest} {mro : List PyClass}

/-! ## the rule -/

/-- The entries that callbacks make as they are entered. -/
def Obs.entered : Obs → Bool
  | event .. => true
  | connected => true
  | disconnected .. => true
  | dead => true
  | fired _ => true
  | inDialogInvite _ => true
  | _ => false

/-- The object as the code of a callback begins. -/
def Cb.begun (cb : Cb) (s : Subtest) (env : Env) : Subtest :=
  { ({ s with timers := cb.timers s, ua := cb.ua s }.note (cb.obs s)) with env := env }

/-- The object as the code leaves it alone, from what is known of its moves. -/
theorem Ok.until {o : Out Subtest Exc UaCall Unit} (h : Ok o s) (hc : s.ua.created = true) :
    o.Until fun stop s' => Moves s (machine.land stop s') := by
  cases o with
  | ret a s' => exact h hc
  | raise e s' => exact h hc
  | call c s' k => exact h.1 hc
  | spin => exact trivial

theorem Setup.Begun.not_entered (hb : p.Begun s) {o : Obs} (ho : o ∈ s.log) :
    o.entered = false := by
  have hcalled := hb.called
  unfold Setup.Called at hcalled
  split at hcalled
  · obtain ⟨cli, cld, body, hlog, -⟩ := hcalled
    rw [hlog, List.mem_singleton] at ho
    rw [ho, Obs.entered]
    all_goals nofun
  · obtain ⟨sdp, ival, -, -, hlog, -⟩ := hcalled
    rw [hlog, List.mem_cons, List.mem_singleton] at ho
    rcases ho with rfl | rfl <;> rfl

theorem Obs.not_entered_of_made {o : Obs} (h : o.made = true) : o.entered = false := by
  cases o <;> first | rfl | cases h

theorem begins_enter {y : Sys} {cb : Cb} {env : Env}
    (h : machine.begins y (.enter ⟨cb, env⟩) = some s) :
    cb.Enabled y.st ∧ s = cb.begun y.st env := by
  obtain ⟨s₁, h₁, rfl⟩ := Option.map_eq_some_iff.mp h
  obtain ⟨hen, rfl⟩ := eq_of_entry h₁
  exact ⟨hen, rfl⟩

/-- **Callbacks have their effect.**  `K` says which entries are meant and `Q`
what the callbacks behind them bring about. -/
theorem Setup.Lives.of_entered {K : Obs → Prop} {Q : Subtest → Prop} {acts : List Act} {y : Sys}
    (hent : ∀ o, K o → o.entered = true)
    (hchange : ∀ s s', p.Lives s → Change s s' → Q s → Q s')
    (hentry : ∀ (s : Subtest) (cb : Cb) (env : Env), p.Lives s → cb.Enabled s → K (cb.obs s) →
      (cb.body p.cls.mro (cb.begun s env)).Until fun stop s' => Q (machine.land stop s'))
    (hl : p.Lives y.st) (h : p.Reaches acts y) : ∀ o ∈ y.st.log, K o → Q y.st := by
  refine hl.of_run h (P := fun y => ∀ o ∈ y.st.log, K o → Q y.st) (fun y hb o ho hk => ?_)
    fun y a y' hfound hl hy hs o ho hk => ?_
  · have hno := hb.not_entered ho
    rw [hent o hk] at hno
    cases hno
  · obtain ⟨-, s₀, hb, hch, hm⟩ := changes_of_step hfound.1 hl.created hs
    obtain ⟨l, hlog, hmade⟩ := hm.log
    have hkeep {s₁ s₂ : Subtest} (hl₁ : p.Lives s₁) (hch : Changes s₁ s₂) (hq : Q s₁) : Q s₂ := by
      induction hch with
      | refl => exact hq
      | tail h₁ hc ih => exact hchange _ _ (hl₁.changes h₁) hc ih
    rw [hlog, log_of_begins hb, List.mem_append, List.mem_append] at ho
    rcases ho with (ho | ho) | ho
    · exact hkeep hl (hch.trans hm.changes) (hy o ho hk)
    · cases a with
      | enter i =>
          obtain ⟨cb, env⟩ := i
          rw [actObs, List.mem_singleton] at ho
          subst ho
          obtain ⟨hen, hs₀⟩ := begins_enter hb
          have hcls : s₀.cls = p.cls := (hch.sameLife.cls).trans hl.cls
          have hu : (machine.body ⟨cb, env⟩ s₀).Until fun stop s' => Q (machine.land stop s') := by
            show (cb.body s₀.cls.mro s₀).Until _
            rw [hcls, hs₀]
            exact hentry _ cb env hl hen hk
          obtain ⟨stop, s', hq, hst⟩ := Machine.step_enter_until hb hu hs
          rw [hst]
          exact hq
      | ret env => cases ho
      | throw e => cases ho
    · have hno := Obs.not_entered_of_made (hmade o ho)
      rw [hent o hk] at hno
      cases hno

/-- What `alldone` adds to the chronicle is no callback. -/
theorem entered_mem_iff {log : List Obs} {o : Obs} {n : Nat} (ho : o.entered = true)
    (hdead : o ≠ .dead) : o ∈ log ++ .dead :: List.replicate n .connectDone ↔ o ∈ log := by
  rw [List.mem_append, List.mem_cons]
  constructor
  · rintro (h | h | h)
    · exact h
    · exact (hdead h).elim
    · rw [List.eq_of_mem_replicate h] at ho
      cases ho
  · exact .inl

theorem event_mem_iff {log : List Obs} {ev : CCEvent} {inProgress : Bool} {n : Nat} :
    .event ev inProgress ∈ log ++ .dead :: List.replicate n .connectDone ↔
      .event ev inProgress ∈ log :=
  entered_mem_iff rfl nofun

theorem connected_mem_iff {log : List Obs} {n : Nat} :
    .connected ∈ log ++ .dead :: List.replicate n .connectDone ↔ .connected ∈ log :=
  entered_mem_iff rfl nofun

theorem disconnected_mem_iff {log : List Obs} {origin : Origin} {acct : Acct} {n : Nat} :
    .disconnected origin acct ∈ log ++ .dead :: List.replicate n .connectDone ↔
      .disconnected origin acct ∈ log :=
  entered_mem_iff rfl nofun

/-! ## what no change takes back -/

theorem Move.flags (h : Move s s') :
    (s.connectDone = true → s'.connectDone = true) ∧
      (s.disconnectDone = true → s'.disconnectDone = true) ∧
      (s.ringDone = true → s'.ringDone = true) := by
  cases h with
  | unseen h =>
      obtain ⟨_, _, _, _, -, -, rfl⟩ := h
      exact ⟨id, id, id⟩
  | held on => cases on <;> exact ⟨id, id, id⟩
  | dead hl h =>
      obtain ⟨s₁, he, rfl | ⟨exc, rfl⟩⟩ := ends_of_settle h
      · have hd : s'.disconnectDone = s.disconnectDone := he.field Subtest.disconnectDone fun _ => rfl
        exact ⟨he.connectDone, hd.trans, he.ringDone⟩
      · have hd : s₁.disconnectDone = s.disconnectDone := he.field Subtest.disconnectDone fun _ => rfl
        exact ⟨he.connectDone, hd.trans, he.ringDone⟩
  | connected => exact ⟨fun _ => rfl, id, id⟩
  | disconnected => exact ⟨id, fun _ => rfl, id⟩
  | ringDone => exact ⟨id, id, fun _ => rfl⟩
  | connectDone => exact ⟨fun _ => rfl, id, id⟩
  | _ => exact ⟨id, id, id⟩

/-- No change takes a flag back. -/
theorem Change.flags (h : Change s s') :
    (s.connectDone = true → s'.connectDone = true) ∧
      (s.disconnectDone = true → s'.disconnectDone = true) ∧
      (s.ringDone = true → s'.ringDone = true) := by
  cases h with
  | enter h =>
      obtain ⟨-, rfl⟩ := eq_of_entry h
      exact ⟨id, id, id⟩
  | move h => exact h.flags

/-! ## `connected` and `disconnected` -/

theorem until_connected (hm : .a .t1 ∈ mro) :
    (connected mro s).Until fun stop s' => (machine.land stop s').connectDone = true := by
  fun_induction connected mro with
  | case1 => cases hm
  | case2 sup ih =>
      unfold TestReinvite.connected
      refine Out.Until.bind (ih ?_) (fun _ s₁ h => ?_) (fun _ _ h => h) fun c _ h => ?_
      · simpa using hm
      · rw [Prog.bind_apply, Prog.get_apply, Out.bind_ret]
        cases s₁.reinviteIval with
        | none => exact h
        | some ival => exact h
      · exact h
  | case3 => exact rfl
  | case4 c sup _ hne ih =>
      refine ih ?_
      rcases List.mem_cons.mp hm with rfl | hm
      · exact (hne rfl).elim
      · exact hm

theorem until_disconnected {origin : Origin} {acct : Acct} (hm : mro <:+ s.cls.mro)
    (ht : .a .t1 ∈ mro ∨ .b .t1 ∈ mro) :
    (disconnected origin acct mro s).Until fun stop s' =>
      (machine.land stop s').acct = some acct ∧
        (s.cls.accepts origin = true → (machine.land stop s').disconnectDone = true) := by
  fun_induction disconnected origin acct mro with
  | case1 => simp at ht
  | case2 sup =>
      have ha := (PyClass.eq_mro_a hm).1
      unfold ATest1.disconnected PyClass.accepts
      rw [ha]
      by_cases ho : origin ∈ [Origin.switch, .callee]
      · simp [ho, M.setDisconnectDone, Machine.land, Subtest.note]
      · simp [ho, Machine.land]
  | case3 sup =>
      have ha := (PyClass.eq_mro_b hm).1
      unfold BTest1.disconnected PyClass.accepts
      rw [ha]
      by_cases ho : origin ∈ [Origin.switch, .caller]
      · simp [ho, M.setDisconnectDone, Machine.land, Subtest.note]
      · simp [ho, Machine.land]
  | case4 c sup ha hb ih =>
      refine ih (suffix_of_cons hm) ?_
      rcases ht with ht | ht
      · rcases List.mem_cons.mp ht with rfl | ht
        · exact (ha rfl).elim
        · exact .inl ht
      · rcases List.mem_cons.mp ht with rfl | ht
        · exact (hb rfl).elim
        · exact .inr ht

theorem mem_mro_of_isAlice (h : p.cls.isAlice = true) : .a .t1 ∈ p.cls.mro := by
  obtain ⟨scn, side, _, _, _⟩ := p
  cases side with
  | alice => exact mem_mro_a scn
  | bob body req => cases h

/-- Once `connected` has been called, the call is up. -/
theorem Setup.Lives.connectDone_of_connected {acts : List Act} {y : Sys} (hl : p.Lives y.st)
    (h : p.Reaches acts y) (ho : .connected ∈ y.st.log) : y.st.connectDone = true := by
  refine hl.of_entered (K := (· = .connected)) (Q := fun s => s.connectDone = true) ?_ ?_ ?_ h _ ho rfl
  · rintro _ rfl
    rfl
  · exact fun s s' _ hc => hc.flags.1
  · intro s cb env hl hen hk
    cases cb with
    | connected =>
        have ha : p.cls.isAlice = true := hl.cls ▸ hen
        exact until_connected (mem_mro_of_isAlice ha)
    | _ => cases hk

/-- Once the other side or the switch has ended the call, it is down. -/
theorem Setup.Lives.disconnectDone_of_disconnected {acts : List Act} {y : Sys} (hl : p.Lives y.st)
    (h : p.Reaches acts y) {origin : Origin} {acct : Acct}
    (ho : .disconnected origin acct ∈ y.st.log) (ha : p.cls.accepts origin = true) :
    y.st.disconnectDone = true := by
  refine hl.of_entered (K := (· = .disconnected origin acct)) (Q := fun s => s.disconnectDone = true)
    ?_ ?_ ?_ h _ ho rfl
  · rintro _ rfl
    rfl
  · exact fun s s' _ hc => hc.flags.2.1
  · intro s cb env hl hen hk
    cases cb with
    | disconnected origin' acct' =>
        cases hk
        have hcls : ((Cb.disconnected origin acct).begun s env).cls = p.cls := hl.cls
        have hu : (disconnected origin acct p.cls.mro _).Until _ :=
          until_disconnected (s := (Cb.disconnected origin acct).begun s env) (by rw [hcls])
            (mem_mro_cls p)
        rw [hcls] at hu
        exact hu.mono fun _ _ h => h.2 ha
    | _ => cases hk

/-! ## events -/

/-- What a class with this order has to complain about: a body that is
rejected, the wrong outcome of a re-INVITE, and a call that is set up where
none should be. -/
def Faults (mro : List PyClass) (cls : PyClass) (cfg : TcCfg) (ev : CCEvent) (inProgress : Bool) :
    Prop :=
  (cls.isAlice = true ∧ ∃ sdp, ev.checked = some sdp ∧ cfg.Rejects sdp) ∨
    (inProgress = true ∧ .testReinvite ∈ mro ∧ (ev.isConnect = true ∨ ev.isFailure = true) ∧
      cls.wants ev = false) ∨
    (.a .invBrkn1 ∈ mro ∧ ev.isConnect = true)

theorem Faults.not_update {cls : PyClass} {cfg : TcCfg} {ev : CCEvent} {inProgress : Bool}
    (h : Faults mro cls cfg ev inProgress) : ev.isUpdate = false := by
  cases ev with
  | update sdp =>
      obtain ⟨-, sdp, hsdp, -⟩ | ⟨-, -, he | he, -⟩ | ⟨-, he⟩ := h
      · cases hsdp
      · cases he
      · cases he
      · cases he
  | _ => rfl

/-- A class further down has to complain about the same. -/
theorem Faults.of_cons {c : PyClass} {sup : List PyClass} {cls : PyClass} {cfg : TcCfg}
    {ev : CCEvent} {inProgress : Bool} (h : Faults (c :: sup) cls cfg ev inProgress)
    (hc : c ≠ .testReinvite) (hi : c ≠ .a .invBrkn1) : Faults sup cls cfg ev inProgress := by
  obtain h | ⟨hin, hm, h⟩ | ⟨hm, h⟩ := h
  · exact .inl h
  · exact .inr (.inl ⟨hin, List.mem_of_ne_of_mem hc.symm hm, h⟩)
  · exact .inr (.inr ⟨List.mem_of_ne_of_mem hi.symm hm, h⟩)

/-- By the time `o` leaves the subtest alone an error has been counted. -/
abbrev Fails (o : Out Subtest Exc UaCall Unit) : Prop :=
  o.Until fun stop s => (machine.land stop s).nerrs ≠ 0

theorem Fails.of_ok {o : Out Subtest Exc UaCall Unit} (h : Ok o s) (hc : s.ua.created = true)
    (hn : s.nerrs ≠ 0) : Fails o :=
  (h.until hc).mono fun stop s' hm => by
    have hle : s.nerrs ≤ (machine.land stop s').nerrs := Changes.nerrs (Moves.changes hm)
    omega

/-- `o` raises, and has counted an error. -/
def Complains {α : Type} (o : Out Subtest Exc UaCall α) : Prop :=
  o.Until fun
    | .raise _, s => s.nerrs ≠ 0
    | _, _ => False

theorem Complains.bind {α β : Type} {q : M α} {f : α → M β} (h : Complains (q s)) :
    Complains ((q >>= f) s) :=
  Out.Until.bind h (fun _ _ h => h.elim) (fun _ _ h => h) fun _ _ h => h.elim

theorem Complains.fails {o : Out Subtest Exc UaCall Unit} (h : Complains o) : Fails o :=
  h.mono fun stop s hs => by
    cases stop with
    | ret a => exact hs.elim
    | raise e => exact hs
    | call c => exact hs.elim

/-- Before it looks at the body, `recvEvent` touches `ring_done` at most. -/
theorem ATest1.recvEvent_eq (ev : CCEvent) (s : Subtest) : ∃ ringDone,
    ATest1.recvEvent ev s = ATest1.recvMedia ev { s with ringDone := ringDone } := by
  unfold ATest1.recvEvent
  rw [Prog.bind_apply, Prog.get_apply, Out.bind_ret, Prog.ite_apply]
  split
  · exact ⟨true, rfl⟩
  · exact ⟨s.ringDone, rfl⟩

theorem ATest1.recvMedia_of_checked {ev : CCEvent} {sdp : Sdp} (hsdp : ev.checked = some sdp)
    (s : Subtest) :
    ATest1.recvMedia ev s = (Test.checkMedia sdp >>= fun _ => Test.rtpStartOrUpdate sdp) s := by
  cases ev <;> cases hsdp <;> rfl

/-- A rejected body is an error, and the end of `recvEvent`. -/
theorem ATest1.recvEvent_of_rejects {ev : CCEvent} {sdp : Sdp} (hsdp : ev.checked = some sdp)
    (hr : s.tccfg.Rejects sdp) : ∃ why ringDone, ATest1.recvEvent ev s =
      .raise (.sdpValidationFailure why) { s with ringDone := ringDone, nerrs := s.nerrs + 1 } := by
  obtain ⟨why, hwhy⟩ := hr
  obtain ⟨ringDone, heq⟩ := ATest1.recvEvent_eq ev s
  refine ⟨why, ringDone, ?_⟩
  rw [heq, ATest1.recvMedia_of_checked hsdp, Prog.bind_apply, Test.checkMedia, Prog.bind_apply,
    Prog.get_apply, Out.bind_ret]
  simp only [hwhy]
  rfl

theorem ATest1.complains_recvEvent {ev : CCEvent} {sdp : Sdp} (hsdp : ev.checked = some sdp)
    (hr : s.tccfg.Rejects sdp) : Complains (ATest1.recvEvent ev s) := by
  obtain ⟨why, ringDone, heq⟩ := ATest1.recvEvent_of_rejects hsdp hr
  rw [heq]
  exact Nat.succ_ne_zero s.nerrs

theorem TestReinvite.fails_recvEvent {ev : CCEvent} {inProgress : Bool} {sup : M Unit}
    (hc : s.ua.created = true) (he : ev.isUpdate = false)
    (hl : s.last = some (.event ev inProgress)) (hin : s.reinviteInProgress = inProgress)
    (ht : s.cls.isA .testReinvite = true)
    (hsup : ∀ s', s'.cls = s.cls → s'.last = s.last → Local (sup s') s')
    (hf : (∀ s', s'.tccfg = s.tccfg → Complains (sup s')) ∨
      inProgress = true ∧ ev.isConnect = false ∧ ev.isFailure = true) :
    Fails (TestReinvite.recvEvent ev sup s) := by
  unfold TestReinvite.recvEvent
  rw [if_neg (by simp [he]), Prog.bind_apply, Prog.get_apply, Out.bind_ret, Prog.ite_apply]
  rcases hf with hf | ⟨rfl, hcon, hfail⟩
  · split
    · exact (hf s rfl).fails
    · rw [Prog.ite_apply, Prog.ite_apply]
      split
      · exact (Complains.bind (q := sup) (hf { s with reinviteInProgress := false } rfl)).fails
      · split
        · exact (Complains.bind (q := sup) (hf { s with nerrs := s.nerrs + 1 } rfl)).fails
        · exact (Complains.bind (q := sup) (hf s rfl)).fails
  · rw [if_neg (by simp [hin]), Prog.ite_apply, Prog.ite_apply, if_neg (by simp [hcon]), if_pos hfail]
    have hok := TestReinvite.ok_outcome (s := { s with nerrs := s.nerrs + 1 }) hl ht
      (fun h => by rw [hcon] at h; cases h) (hsup _ rfl rfl)
    exact Fails.of_ok hok hc (Nat.succ_ne_zero _)

theorem mro_a_invBrkn1 : (PyClass.a .invBrkn1).mro = [.a .invBrkn1, .a .t2, .a .t1, .test] := by
  decide

/-- Anything but a failure is an error to a class that wants the re-INVITE to
fail, and what is one in the base class stays one. -/
theorem ATestReinvFail.fails_recvEvent {ev : CCEvent} {inProgress : Bool} {sup : M Unit}
    (hin : s.reinviteInProgress = inProgress) (hwf : s.cls.wantsFailure = true)
    (hf : Faults mro s.cls s.tccfg ev inProgress)
    (hsup : inProgress = false ∨ ev.isRing = true → Fails (sup s)) :
    Fails (ATestReinvFail.recvEvent ev sup s) := by
  unfold ATestReinvFail.recvEvent
  rw [Prog.bind_apply, Prog.get_apply, Out.bind_ret, Prog.ite_apply]
  split
  · next hnow =>
    rw [Bool.and_eq_true, hin] at hnow
    rw [Prog.ite_apply, if_pos]
    · exact Nat.succ_ne_zero _
    · -- A failure is what the class wants, and carries no body.
      obtain ⟨-, sdp, hsdp, -⟩ | ⟨-, -, -, hwant⟩ | ⟨-, he⟩ := hf
      · cases ev <;> first | rfl | cases hsdp
      · simpa [PyClass.wants, hwf] using hwant
      · cases ev <;> first | rfl | cases he
  · next hnot =>
    rw [Bool.and_eq_true, hin, not_and_or] at hnot
    exact hsup (by simpa using hnot)

/-- Nothing but a failure gets past a class that wants the INVITE to fail. -/
theorem ATestInvBrkn1.fails_recvEvent {ev : CCEvent} {sup : M Unit}
    (hsup : ev.isConnect = false → Fails (sup s)) : Fails (ATestInvBrkn1.recvEvent ev sup s) := by
  unfold ATestInvBrkn1.recvEvent
  split
  · exact hsup rfl
  · exact hsup rfl
  · rw [Prog.bind_apply, Prog.get_apply, Out.bind_ret, Prog.ite_apply]
    split
    · exact Nat.succ_ne_zero _
    · next hfail =>
      refine hsup ?_
      cases ev <;> simp_all [CCEvent.isFailure, CCEvent.isConnect]

/-- A failure where a `CCEventConnect` is wanted, or a body that is rejected. -/
theorem TestReinvite.fails_of_faults {ev : CCEvent} {inProgress : Bool} {sup : List PyClass}
    (hm : .testReinvite :: sup <:+ s.cls.mro) (hc : s.ua.created = true)
    (hl : s.last = some (.event ev inProgress)) (hin : s.reinviteInProgress = inProgress)
    (ht : .a .t1 ∈ sup ∨ .b .t1 ∈ sup)
    (hw : s.cls.wantsFailure = true → inProgress = false ∨ ev.isRing = true)
    (hf : Faults (.testReinvite :: sup) s.cls s.tccfg ev inProgress) :
    Fails (TestReinvite.recvEvent ev (VoipTests.recvEvent ev sup) s) := by
  have hsup : sup = [.a .t1, .test] ∨ sup = [.b .t1, .test] := by
    rcases PyClass.eq_mro_testReinvite hm with rfl | h
    · simp at ht
    · exact h
  refine TestReinvite.fails_recvEvent hc hf.not_update hl hin (isA_of_suffix hm)
    (fun s' hcls hl' => ?_) ?_
  · rcases hsup with rfl | rfl
    · have ha : s'.cls.isAlice = true := hcls ▸ (PyClass.eq_mro_a (suffix_of_cons hm)).1
      exact ATest1.local_recvEvent ha (hl'.trans hl)
    · exact .ret
  · obtain ⟨ha, sdp, hsdp, hr⟩ | ⟨hnow, -, he, hwant⟩ | ⟨hmem, -⟩ := hf
    · rcases hsup with rfl | rfl
      · exact .inl fun s' hs' => ATest1.complains_recvEvent hsdp (hs' ▸ hr)
      · rw [(PyClass.eq_mro_b (suffix_of_cons hm)).1] at ha
        cases ha
    · have hwf : s.cls.wantsFailure = false := by
        by_contra hwf
        rcases hw (by simpa using hwf) with h | h
        · rw [hnow] at h
          cases h
        · cases ev <;> simp_all [CCEvent.isRing, CCEvent.isConnect, CCEvent.isFailure]
      have hcon : ev.isConnect = false := by simpa [PyClass.wants, hwf] using hwant
      refine .inr ⟨hnow, hcon, ?_⟩
      simpa [hcon] using he
    · rcases hsup with rfl | rfl <;> simp at hmem

/-- **What a class has to complain about, it complains about.** -/
theorem fails_recvEvent {ev : CCEvent} {inProgress : Bool} (hm : mro <:+ s.cls.mro)
    (hc : s.ua.created = true) (hl : s.last = some (.event ev inProgress))
    (hin : s.reinviteInProgress = inProgress) (ht : .a .t1 ∈ mro ∨ .b .t1 ∈ mro)
    (hw : s.cls.wantsFailure = true →
      .a .reinvFail ∈ mro ∨ inProgress = false ∨ ev.isRing = true)
    (hf : Faults mro s.cls s.tccfg ev inProgress) : Fails (recvEvent ev mro s) := by
  have hup := hf.not_update
  fun_induction recvEvent ev mro with
  | case1 => simp at ht
  | case2 sup ih =>
      refine ATestReinvFail.fails_recvEvent hin (isA_of_suffix hm) hf fun hnot => ?_
      exact ih (suffix_of_cons hm) (by simpa using ht) (fun _ => .inr hnot)
        (hf.of_cons (by simp) (by simp))
  | case3 sup ih =>
      unfold BTestReinvFail.recvEvent
      rw [if_pos (by simp [hup])]
      exact ih (suffix_of_cons hm) (by simpa using ht) (by simpa using hw) (hf.of_cons (by simp) (by simp))
  | case4 sup ih =>
      unfold BTestReinvBrkn1.recvEvent
      rw [if_pos (by simp [hup])]
      exact ih (suffix_of_cons hm) (by simpa using ht) (by simpa using hw) (hf.of_cons (by simp) (by simp))
  | case5 sup ih =>
      unfold BTestReinvOnhold.recvEvent
      rw [if_neg (by simp [hup])]
      exact ih (suffix_of_cons hm) (by simpa using ht) (by simpa using hw) (hf.of_cons (by simp) (by simp))
  | case6 sup ih =>
      have hsup := (PyClass.eq_mro_a hm).2
      rw [mro_a_invBrkn1, List.cons.injEq] at hsup
      have hno : .testReinvite ∉ PyClass.a .invBrkn1 :: sup := by simp [hsup.2]
      refine ATestInvBrkn1.fails_recvEvent fun he => ?_
      refine ih (suffix_of_cons hm) (by simpa using ht) (by simpa using hw) ?_
      obtain h | ⟨-, hmem, -⟩ | ⟨-, hcon⟩ := hf
      · exact .inl h
      · exact (hno hmem).elim
      · rw [he] at hcon
        cases hcon
  | case7 sup ih =>
      have hfail : .a .reinvFail ∉ PyClass.testReinvite :: sup := by
        rcases PyClass.eq_mro_testReinvite hm with rfl | rfl | rfl <;> simp
      exact TestReinvite.fails_of_faults hm hc hl hin (by simpa using ht)
        (fun hwf => (hw hwf).resolve_left hfail) hf
  | case8 sup =>
      obtain ⟨ha, hsup⟩ := PyClass.eq_mro_a hm
      rw [PyClass.mro_a_t1, List.cons.injEq] at hsup
      obtain ⟨-, sdp, hsdp, hr⟩ | ⟨-, hmem, -⟩ | ⟨hmem, -⟩ := hf
      · exact (ATest1.complains_recvEvent hsdp hr).fails
      · simp [hsup.2] at hmem
      · simp [hsup.2] at hmem
  | case9 sup =>
      obtain ⟨ha, hsup⟩ := PyClass.eq_mro_b hm
      rw [PyClass.mro_b_t1, List.cons.injEq] at hsup
      obtain ⟨ha', -⟩ | ⟨-, hmem, -⟩ | ⟨hmem, -⟩ := hf
      · rw [ha] at ha'
        cases ha'
      · simp [hsup.2] at hmem
      · simp [hsup.2] at hmem
  | case10 c sup h _ _ _ hi hre ha hb ih =>
      have hne {c' : PyClass} (hc' : c = c' → False) (hmem : c' ∈ c :: sup) : c' ∈ sup :=
        List.mem_of_ne_of_mem (fun he => hc' he.symm) hmem
      exact ih (suffix_of_cons hm) (ht.imp (hne ha) (hne hb)) (fun hwf => (hw hwf).imp_left (hne h))
        (hf.of_cons hre hi)

theorem Faults.of_check {cls : PyClass} {cfg cfg' : TcCfg} {ev : CCEvent} {inProgress : Bool}
    (h : Faults mro cls cfg ev inProgress) (hc : cfg'.checkhostport = cfg.checkhostport) :
    Faults mro cls cfg' ev inProgress := by
  unfold Faults TcCfg.Rejects at h ⊢
  rw [hc]
  exact h

/-- An event that calls for a complaint has been counted as an error. -/
theorem Setup.Lives.nerrs_of_faults {acts : List Act} {y : Sys} (hl : p.Lives y.st)
    (h : p.Reaches acts y) {ev : CCEvent} {inProgress : Bool}
    (ho : .event ev inProgress ∈ y.st.log)
    (hf : Faults p.cls.mro p.cls p.tccfg ev inProgress) : y.st.nerrs ≠ 0 := by
  refine hl.of_entered (K := (· = .event ev inProgress)) (Q := fun s => s.nerrs ≠ 0)
    ?_ ?_ ?_ h _ ho rfl
  · rintro _ rfl
    rfl
  · intro s s' _ hc hn
    have hle := hc.nerrs
    omega
  · intro s cb env hl hen hk
    cases cb with
    | event ev' =>
        cases hk
        have hcls : ((Cb.event ev).begun s env).cls = p.cls := hl.cls
        have hf' : Faults p.cls.mro ((Cb.event ev).begun s env).cls s.tccfg ev s.reinviteInProgress := by
          rw [hcls]
          exact hf.of_check hl.check
        refine fails_recvEvent (by rw [hcls]) hl.created List.getLast?_concat rfl (mem_mro_cls p) ?_ hf'
        rw [hcls]
        intro hwf
        exact .inl (by simpa [PyClass.wantsFailure, PyClass.isA] using hwf)
    | _ => cases hk

/-! ### ring events -/

/-- By the time `o` leaves the subtest alone it has rung. -/
abbrev Rings (o : Out Subtest Exc UaCall Unit) : Prop :=
  o.Until fun stop s => (machine.land stop s).ringDone = true

theorem Moves.ringDone (h : Moves s s') (hr : s.ringDone = true) : s'.ringDone = true := by
  induction h with
  | refl => exact hr
  | tail _ hm ih => exact hm.flags.2.2 ih

theorem Rings.of_ok {o : Out Subtest Exc UaCall Unit} (h : Ok o s) (hc : s.ua.created = true)
    (hr : s.ringDone = true) : Rings o :=
  (h.until hc).mono fun _ _ hm => Moves.ringDone hm hr

theorem ATest1.rings_recvEvent {ev : CCEvent} {inProgress : Bool} (hc : s.ua.created = true)
    (ha : s.cls.isAlice = true) (hl : s.last = some (.event ev inProgress)) (he : ev.isRing = true) :
    Rings (ATest1.recvEvent ev s) := by
  unfold ATest1.recvEvent
  rw [Prog.bind_apply, Prog.get_apply, Out.bind_ret, he, Prog.ite_apply]
  have hmedia (s : Subtest) (hc : s.ua.created = true) (ha : s.cls.isAlice = true)
      (hl : s.last = some (.event ev inProgress)) (hr : s.ringDone = true) :
      Rings (ATest1.recvMedia ev s) :=
    Rings.of_ok (ATest1.local_recvMedia ha hl).ok hc hr
  split
  · exact hmedia { s with ringDone := true } hc ha hl rfl
  · next hr => exact hmedia s hc ha hl (by simpa using hr)

/-- Alice notes a ring event, unless her call must not be set up. -/
theorem rings_recvEvent {ev : CCEvent} {inProgress : Bool} (hm : mro <:+ s.cls.mro)
    (hc : s.ua.created = true) (hl : s.last = some (.event ev inProgress))
    (he : ev.isRing = true) (ht : .a .t1 ∈ mro) (hi : .a .invBrkn1 ∉ mro) :
    Rings (recvEvent ev mro s) := by
  have hno : ev.isUpdate = false ∧ ev.isConnect = false ∧ ev.isFailure = false := by
    cases ev <;> first | exact ⟨rfl, rfl, rfl⟩ | cases he
  obtain ⟨hup, hcon, hfail⟩ := hno
  fun_induction recvEvent ev mro with
  | case1 => cases ht
  | case2 sup ih =>
      unfold ATestReinvFail.recvEvent
      rw [Prog.bind_apply, Prog.get_apply, Out.bind_ret, if_neg (by simp [he])]
      exact ih (suffix_of_cons hm) (by simpa using ht) (by simpa using hi)
  | case3 sup ih =>
      unfold BTestReinvFail.recvEvent
      rw [if_pos (by simp [hup])]
      exact ih (suffix_of_cons hm) (by simpa using ht) (by simpa using hi)
  | case4 sup ih =>
      unfold BTestReinvBrkn1.recvEvent
      rw [if_pos (by simp [hup])]
      exact ih (suffix_of_cons hm) (by simpa using ht) (by simpa using hi)
  | case5 sup ih =>
      unfold BTestReinvOnhold.recvEvent
      rw [if_neg (by simp [hup])]
      exact ih (suffix_of_cons hm) (by simpa using ht) (by simpa using hi)
  | case6 sup ih => simp at hi
  | case7 sup ih =>
      have hsup := ih (suffix_of_cons hm) (by simpa using ht) (by simpa using hi)
      unfold TestReinvite.recvEvent
      rw [if_neg (by simp [hup]), Prog.bind_apply, Prog.get_apply, Out.bind_ret, hcon, hfail,
        Prog.ite_apply]
      split
      · exact hsup
      · exact Out.Until.bind (p := recvEvent ev sup) hsup (fun _ _ h => h) (fun _ _ h => h)
          fun _ _ h => h
  | case8 sup => exact ATest1.rings_recvEvent hc (PyClass.eq_mro_a hm).1 hl he
  | case9 sup =>
      obtain ⟨-, hsup⟩ := PyClass.eq_mro_b hm
      rw [PyClass.mro_b_t1, List.cons.injEq] at hsup
      simp [hsup.2] at ht
  | case10 c sup _ _ _ _ _ _ ha _ ih =>
      refine ih (suffix_of_cons hm) ?_ fun hmem => hi (List.mem_cons_of_mem c hmem)
      exact List.mem_of_ne_of_mem (fun he => ha he.symm) ht

/-- Once a ring event has come in, Alice has rung. -/
theorem Setup.Lives.ringDone_of_ring {acts : List Act} {y : Sys} (hl : p.Lives y.st)
    (h : p.Reaches acts y) {ev : CCEvent} {inProgress : Bool}
    (ho : .event ev inProgress ∈ y.st.log) (he : ev.isRing = true) (ha : p.cls.isAlice = true)
    (hi : p.cls.isA (.a .invBrkn1) = false) : y.st.ringDone = true := by
  refine hl.of_entered (K := (· = .event ev inProgress)) (Q := fun s => s.ringDone = true)
    ?_ ?_ ?_ h _ ho rfl
  · rintro _ rfl
    rfl
  · exact fun s s' _ hc => hc.flags.2.2
  · intro s cb env hl hen hk
    cases cb with
    | event ev' =>
        cases hk
        have hcls : ((Cb.event ev).begun s env).cls = p.cls := hl.cls
        refine rings_recvEvent (by rw [hcls]) hl.created List.getLast?_concat he
          (mem_mro_of_isAlice ha) ?_
        simpa [PyClass.isA] using hi
    | _ => cases hk

/-! ### errors and what is to blame -/

theorem Move.blamed (h : Move s s') : s'.nerrs = s.nerrs ∨
    (∃ o, s.last = some o ∧ Blames s.cls s.tccfg o) ∨
    (s.last = some .dead ∧ machine.settle [] (alldone s.cls.mro s) = some ⟨s', []⟩) := by
  cases h with
  | unseen h =>
      obtain ⟨_, _, _, _, -, -, rfl⟩ := h
      exact .inl rfl
  | held on => cases on <;> exact .inl rfl
  | err ho hb => exact .inr (.inl ⟨_, ho, hb⟩)
  | dead hl h => exact .inr (.inr ⟨hl, h⟩)
  | _ => exact .inl rfl

theorem Blames.of_check {cls : PyClass} {cfg cfg' : TcCfg} {o : Obs} (h : Blames cls cfg o)
    (hc : cfg'.checkhostport = cfg.checkhostport) : Blames cls cfg' o := by
  unfold Blames TcCfg.Rejects at h ⊢
  rw [hc]
  exact h

/-- An error that has been counted before the verdict has something to blame
in the chronicle. -/
theorem Setup.Lives.blamed (h : p.Lives s) :
    s.report = none → s.nerrs ≠ 0 → ∃ o ∈ s.log, Blames p.cls p.tccfg o := by
  refine h.induction (P := fun s => s.report = none → s.nerrs ≠ 0 →
    ∃ o ∈ s.log, Blames p.cls p.tccfg o) (fun s hb _ hn => ?_) fun s s' hl ih hc hr' hn' => ?_
  · exact (hn hb.blank.nerrs).elim
  · have hr : s.report = none := by
      cases hrep : s.report with
      | none => rfl
      | some r =>
          rw [hl.report hrep (.single hc)] at hr'
          cases hr'
    obtain ⟨l, hlog⟩ := hc.log
    have hmem {o : Obs} (ho : o ∈ s.log) : o ∈ s'.log := by
      rw [hlog]
      exact List.mem_append_left l ho
    cases hc with
    | enter h =>
        obtain ⟨-, rfl⟩ := eq_of_entry h
        obtain ⟨o, ho, hb⟩ := ih hr hn'
        exact ⟨o, hmem ho, hb⟩
    | move h =>
        rcases h.blamed with heq | ⟨o, ho, hb⟩ | ⟨-, hset⟩
        · obtain ⟨o, ho, hb⟩ := ih hr (heq ▸ hn')
          exact ⟨o, hmem ho, hb⟩
        · exact ⟨o, hmem (mem_of_last ho), (hl.cls ▸ hb).of_check hl.check.symm⟩
        · -- `alldone` would have reported.
          have ho : s.Open := hl.open_of_unreported hr
          have hret : Returns (alldone s.cls.mro s) := by
            rw [hl.cls]
            exact returns_alldone ho (test_mem_mro p) hl.acct
          have hrep : (alldone s.cls.mro s).Until _ := reported_alldone ho
          cases hout : alldone s.cls.mro s with
          | ret a s₁ =>
              rw [hout] at hset hrep
              cases hset
              obtain ⟨-, n, hrep⟩ := hrep
              rw [hr'] at hrep
              cases hrep
          | raise e s₁ =>
              rw [hout] at hret
              exact hret.elim
          | call c s₁ k =>
              rw [hout] at hret
              exact hret.elim
          | spin =>
              rw [hout] at hset
              cases hset

/-! ## the account -/

/-- The accounts that `getAcct()` gave in `disconnected`. -/
def accts (log : List Obs) : List Acct :=
  log.filterMap fun
    | .disconnected _ acct => some acct
    | _ => none

@[simp] theorem accts_append (l l' : List Obs) : accts (l ++ l') = accts l ++ accts l' :=
  List.filterMap_append

theorem accts_of_made {l : List Obs} (h : ∀ o ∈ l, o.made = true) : accts l = [] := by
  refine List.filterMap_eq_nil_iff.mpr fun o ho => ?_
  have hm := h o ho
  cases o <;> first | rfl | cases hm

/-- The object has kept the account of the last `disconnected`. -/
def Subtest.KeepsAcct (s : Subtest) : Prop := s.acct = (accts s.log).getLast?

theorem Move.acct (h : Move s s') : s'.acct = s.acct ∨
    ∃ origin acct, s.last = some (.disconnected origin acct) ∧ s'.acct = some acct := by
  cases h with
  | unseen h =>
      obtain ⟨_, _, _, _, -, -, rfl⟩ := h
      exact .inl rfl
  | held on => cases on <;> exact .inl rfl
  | disconnected hl => exact .inr ⟨_, _, hl, rfl⟩
  | otherDisconnected hl => exact .inr ⟨_, _, hl, rfl⟩
  | dead hl h =>
      obtain ⟨s₁, he, rfl | ⟨exc, rfl⟩⟩ := ends_of_settle h
      · exact .inl (he.field Subtest.acct fun _ => rfl)
      · exact .inl (he.field Subtest.acct fun _ => rfl)
  | _ => exact .inl rfl

theorem Move.keepsAcct (h : Move s s') (hs : s.KeepsAcct) : s'.KeepsAcct := by
  obtain ⟨l, hlog, hmade⟩ := h.log
  unfold Subtest.KeepsAcct at hs ⊢
  rw [hlog, accts_append, accts_of_made hmade, List.append_nil]
  rcases h.acct with ha | ⟨origin, acct, hl, ha⟩
  · rw [ha, hs]
  · obtain ⟨l', hl'⟩ := List.getLast?_eq_some_iff.mp hl
    rw [ha, hl', accts_append]
    exact List.getLast?_concat.symm

theorem Moves.keepsAcct (h : Moves s s') (hs : s.KeepsAcct) : s'.KeepsAcct := by
  induction h with
  | refl => exact hs
  | tail _ hm ih => exact hm.keepsAcct ih

/-- The object has the account of the last `disconnected`. -/
theorem Setup.Lives.keepsAcct {acts : List Act} {y : Sys} (hl : p.Lives y.st)
    (h : p.Reaches acts y) : y.st.KeepsAcct := by
  refine hl.of_run h (P := fun y => y.st.KeepsAcct) (fun y hb => ?_) fun y a y' hfound hl hy hs => ?_
  · have hnil : accts y.st.log = [] := by
      refine List.filterMap_eq_nil_iff.mpr fun o ho => ?_
      have hno := hb.not_entered ho
      cases o <;> first | rfl | cases hno
    unfold Subtest.KeepsAcct
    rw [hb.blank.acct, hnil]
    rfl
  · obtain ⟨-, s₀, hb, hch, hm⟩ := changes_of_step hfound.1 hl.created hs
    have hsame (hno : accts (actObs y.st a) = []) (ha : s₀.acct = y.st.acct) : y'.st.KeepsAcct := by
      refine Moves.keepsAcct hm ?_
      unfold Subtest.KeepsAcct
      rw [log_of_begins hb, accts_append, hno, List.append_nil, ha]
      exact hy
    cases a with
    | enter i =>
        obtain ⟨cb, env⟩ := i
        obtain ⟨hen, hs₀⟩ := begins_enter hb
        cases cb with
        | disconnected origin acct =>
            have hcls : s₀.cls = p.cls := (hch.sameLife.cls).trans hl.cls
            have hu : (machine.body ⟨.disconnected origin acct, env⟩ s₀).Until fun stop s' =>
                (machine.land stop s').acct = some acct := by
              show (disconnected origin acct s₀.cls.mro s₀).Until _
              refine (until_disconnected (List.suffix_refl _) ?_).mono fun _ _ h => h.1
              rw [hcls]
              exact mem_mro_cls p
            obtain ⟨stop, s', ha, hst⟩ := Machine.step_enter_until hb hu hs
            obtain ⟨l, hlog, hmade⟩ := hm.log
            unfold Subtest.KeepsAcct
            rw [hlog, log_of_begins hb, accts_append, accts_append, accts_of_made hmade,
              List.append_nil, hst, ha]
            exact List.getLast?_concat.symm
        | _ => exact hsame rfl (by rw [hs₀]; rfl)
    | ret env =>
        cases hb
        exact hsame rfl rfl
    | throw e =>
        cases hb
        exact hsame rfl rfl

end VoipTests
