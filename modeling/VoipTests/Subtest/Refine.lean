import VoipTests.Subtest.Rules

/-!
# VoipTests.Subtest.Refine

Every stretch of code of every class is a sequence of moves
(`respects_inMoves`), so the machine of a subtest refines the abstract model
of `VoipTests.Subtest.Moves`.

There is one lemma for each method of each class, and one for each method
that goes along a method resolution order.  The latter are inductions over
the order; what they need to know of the classes in it they read off the fact
that it is the end of the object's own (`List.IsSuffix`).
-/

namespace VoipTests

open Callback

variable {s : Subtest} {sup mro : List PyClass}

/-! ## Bob's timers -/

/-- The 180: the flag is set once the UA has been called, whoever has been at the object
meanwhile. -/
theorem BTest1.ok_ring (hc : s.ua.created = true) (ha : s.cls.isAlice = false)
    (hl : s.last = some (.fired .ring)) : Ok (BTest1.ring s) s := by
  unfold BTest1.ring
  simp only [Prog.bind_apply, Prog.get_apply, Out.bind_ret]
  split
  · next hd =>
    refine .call hc (.single (.ring ha hl (by simpa using hd) fun _ => rfl)) fun s' hs' => ?_
    refine .move (.ringDone fun h => ?_) .ret
    rw [hs'.cls, ha] at h
    cases h
  · exact .ret

/-- The 183 has a body, but no class that has one sends re-INVITEs. -/
theorem BTest2.ok_ring (hc : s.ua.created = true) (ha : s.cls.isAlice = false)
    (hl : s.last = some (.fired .ring)) (ht : s.cls.isA (.b .t2) = true) :
    Ok (BTest2.ring s) s := by
  unfold BTest2.ring
  simp only [Prog.bind_apply, Prog.get_apply, Out.bind_ret]
  split
  · next hd =>
    refine .unseen (p := BTest1.makeMediaAnswer _) (unseen_makeMediaAnswer _) fun body s₁ hs₁ => ?_
    obtain ⟨_, _, _, _, -, -, rfl⟩ := hs₁
    have hsdp : s.cls.isA .testReinvite = true → body = none := by
      rw [PyClass.not_testReinvite ht]
      exact fun h => absurd h (by decide)
    refine .call hc (.single (.ring ha hl (by simpa using hd) hsdp)) fun s' hs' => ?_
    refine .move (.ringDone fun h => ?_) .ret
    rw [hs'.cls, ha] at h
    cases h
  · exact .ret

/-- The call is declined when it is time to ring, and both flags are set. -/
theorem BTest4.ok_ring (hc : s.ua.created = true) (ha : s.cls.isAlice = false) :
    Ok (BTest4.ring s) s := by
  unfold BTest4.ring
  simp only [Prog.bind_apply, Prog.get_apply, Out.bind_ret]
  split
  · refine .call hc (.single (.fail ha)) fun s' hs' => ?_
    have ha' : s'.cls.isAlice = false := by rw [hs'.cls, ha]
    refine .move (.ringDone fun h => ?_) (.move (.connectDone ha') .ret)
    rw [ha'] at h
    cases h
  · exact .ret

/-- The body is spoiled before the method of the base is called, which any object will do for. -/
theorem BTestInvBrkn1.ok_ring {p : M Unit} (hp : ∀ s', s.Unseen s' → Ok (p s') s') :
    Ok (BTestInvBrkn1.ring p s) s := by
  unfold BTestInvBrkn1.ring
  simp only [Prog.bind_apply, Prog.get_apply, Out.bind_ret]
  split
  · refine .unseen (unseen_ofSome _) fun body s₁ hs₁ => ?_
    refine .unseen (unseen_crippleBody _) fun body s₂ hs₂ => ?_
    have hbody : s₂.Unseen { s₂ with body := some body } :=
      ⟨s₂.rtp, s₂.env, some body, s₂.pIncr, rfl, rfl, rfl⟩
    exact .move (.unseen hbody) (hp _ ((hs₁.trans hs₂).trans hbody))
  · exact .ret

/-- The method of every class that answers. -/
theorem ok_ring (hm : mro <:+ s.cls.mro) (hc : s.ua.created = true)
    (hl : s.last = some (.fired .ring)) : Ok (ring mro s) s := by
  fun_induction ring mro generalizing s with
  | case1 => exact .raise
  | case2 sup ih =>
      refine BTestInvBrkn1.ok_ring fun s' hs' => ?_
      obtain ⟨_, _, _, _, -, -, rfl⟩ := hs'
      exact ih (suffix_of_cons hm) hc hl
  | case3 => exact BTest4.ok_ring hc (PyClass.eq_mro_b hm).1
  | case4 => exact BTest2.ok_ring hc (PyClass.eq_mro_b hm).1 hl (isA_of_suffix hm)
  | case5 => exact BTest1.ok_ring hc (PyClass.eq_mro_b hm).1 hl
  | case6 _ _ _ _ _ _ ih => exact ih (suffix_of_cons hm) hc hl

/-- The 200, with the body of the media answer. -/
theorem BTest1.ok_connect (hc : s.ua.created = true) (ha : s.cls.isAlice = false)
    (hl : s.last = some (.fired .connect)) : Ok (BTest1.connect s) s := by
  unfold BTest1.connect
  simp only [Prog.bind_apply, Prog.get_apply, Out.bind_ret]
  split
  · next hd =>
    refine .unseen (p := BTest1.makeMediaAnswer _) (unseen_makeMediaAnswer _) fun body s₁ hs₁ => ?_
    obtain ⟨_, _, _, _, -, -, rfl⟩ := hs₁
    refine .call hc (.single (.connect ha hl (by simpa using hd))) fun s' hs' => ?_
    exact .move (.connectDone (by rw [hs'.cls, ha])) .ret
  · exact .ret

/-- The call is declined when it is time to answer, whether or not it has ended. -/
theorem BTest3.ok_connect (hc : s.ua.created = true) (ha : s.cls.isAlice = false) :
    Ok (BTest3.connect s) s := by
  unfold BTest3.connect
  simp only [Prog.bind_apply, Prog.get_apply, Out.bind_ret]
  split
  · refine .call hc (.single (.fail ha)) fun s' hs' => ?_
    exact .move (.connectDone (by rw [hs'.cls, ha])) .ret
  · exact .ret

/-- The call is declined when it is time to answer. -/
theorem BTest5.ok_connect (hc : s.ua.created = true) (ha : s.cls.isAlice = false) :
    Ok (BTest5.connect s) s := by
  unfold BTest5.connect
  simp only [Prog.bind_apply, Prog.get_apply, Out.bind_ret]
  split
  · refine .call hc (.single (.fail ha)) fun s' hs' => ?_
    exact .move (.connectDone (by rw [hs'.cls, ha])) .ret
  · exact .ret

theorem ok_connect (hm : mro <:+ s.cls.mro) (hc : s.ua.created = true)
    (hl : s.last = some (.fired .connect)) : Ok (connect mro s) s := by
  fun_induction connect mro with
  | case1 => exact .raise
  | case2 => exact BTest5.ok_connect hc (PyClass.eq_mro_b hm).1
  | case3 => exact BTest3.ok_connect hc (PyClass.eq_mro_b hm).1
  | case4 => exact BTest1.ok_connect hc (PyClass.eq_mro_b hm).1 hl
  | case5 _ _ _ _ _ ih => exact ih (suffix_of_cons hm)

/-! ## hanging up -/

/-- The BYE: it is not sent again once the call has ended. -/
theorem Test.ok_hangUp (hc : s.ua.created = true) : Ok (Test.hangUp s) s := by
  unfold Test.hangUp
  simp only [Prog.bind_apply, Prog.get_apply, Out.bind_ret]
  split
  · next hd =>
    exact .call hc (.single (.hangUp (by simpa using hd))) fun s' _ => .ret
  · exact .ret

/-- The CANCEL: it is not sent once the call has been set up or has ended. -/
theorem ATest1.ok_cancel (hc : s.ua.created = true) : Ok (ATest1.cancel s) s := by
  unfold ATest1.cancel
  simp only [Prog.bind_apply, Prog.get_apply, Out.bind_ret]
  split
  · next hd =>
    have hd' : s.connectDone = false ∧ s.disconnectDone = false := by simpa using hd
    exact .call hc (.single (.hangUp hd'.2)) fun s' _ => .ret
  · exact .ret

theorem ok_cancel (hc : s.ua.created = true) : Ok (cancel mro s) s := by
  fun_induction cancel mro with
  | case1 => exact .raise
  | case2 => exact ATest1.ok_cancel hc
  | case3 _ _ _ ih => exact ih

/-- Until the on-holds and off-holds have all been counted, the timer is only set again. -/
theorem ATestReinvOnhold.ok_disconnect {p : M Unit} (hp : Ok (p s) s) :
    Ok (ATestReinvOnhold.disconnect p s) s := by
  unfold ATestReinvOnhold.disconnect
  simp only [Prog.bind_apply, Prog.get_apply, Out.bind_ret]
  split
  · split
    · exact .move (.timer (by simp)) .ret
    · exact hp
  · exact .ret

/-- A call that is still there when its time is up is an error. -/
theorem ATestReinvBadAck.ok_disconnect {p : M Unit} (hp : Ok (p s) s)
    (hl : s.last = some (.fired .disconnect)) (hr : s.cls.isA (.a .reinvBadAck) = true) :
    Ok (ATestReinvBadAck.disconnect p s) s := by
  unfold ATestReinvBadAck.disconnect
  simp only [Prog.bind_apply, Prog.get_apply, Out.bind_ret]
  split
  · exact .move (.err hl hr) .raise
  · exact hp

/-- The timer of the base classes hangs up; two classes put something before that. -/
theorem ok_disconnect (hm : mro <:+ s.cls.mro) (hc : s.ua.created = true)
    (hl : s.last = some (.fired .disconnect)) : Ok (disconnect mro s) s := by
  fun_induction disconnect mro with
  | case1 => exact .raise
  | case2 sup ih => exact ATestReinvOnhold.ok_disconnect (ih (suffix_of_cons hm))
  | case3 sup ih =>
      exact ATestReinvBadAck.ok_disconnect (ih (suffix_of_cons hm)) hl (isA_of_suffix hm)
  | case4 => exact Test.ok_hangUp hc
  | case5 => exact Test.ok_hangUp hc
  | case6 _ _ _ _ _ _ ih => exact ih (suffix_of_cons hm)

/-! ## the callbacks -/

/-- The flag and the timer for the end of the call are one move. -/
theorem ATest1.ok_connected (hl : s.last = some .connected) : Ok (ATest1.connected s) s := by
  have h := @Move.connected s [] hl (by simp) (by simp) (s.disconnectIval.getD 0)
  rw [List.append_nil] at h
  exact .move h .ret

/-- With the mix-in the whole callback is still one move. -/
theorem TestReinvite.ok_connected (hl : s.last = some .connected) :
    Ok (TestReinvite.connected ATest1.connected s) s := by
  unfold TestReinvite.connected
  cases hi : s.reinviteIval with
  | none =>
      have h := ATest1.ok_connected hl
      simpa [ATest1.connected, M.timeout, M.setConnectDone, Subtest.note, hi] using h
  | some ival =>
      have h := @Move.connected s [⟨.reinvite, ival⟩] hl (by simp [hi]) (by simp)
        (s.disconnectIval.getD 0)
      have hret : Ok (.ret () _ : Out Subtest Exc UaCall Unit) s := .move h .ret
      simpa [ATest1.connected, M.timeout, M.setConnectDone, Subtest.note, Subtest.withTimer, hi]
        using hret

/-- Bob's classes have no such callback, and end in an exception. -/
theorem ok_connected (hm : mro <:+ s.cls.mro) (hl : s.last = some .connected) :
    Ok (connected mro s) s := by
  fun_induction connected mro with
  | case1 => exact .raise
  | case2 sup ih =>
      rcases PyClass.eq_mro_testReinvite hm with rfl | rfl | rfl
      · exact .raise
      · exact TestReinvite.ok_connected hl
      · exact .raise
  | case3 => exact ATest1.ok_connected hl
  | case4 _ _ _ _ ih => exact ih (suffix_of_cons hm)

theorem ok_disconnected {origin : Origin} {acct : Acct} (hm : mro <:+ s.cls.mro)
    (hl : s.last = some (.disconnected origin acct)) : Ok (disconnected origin acct mro s) s := by
  -- Both classes do the same, for the origins of their side.
  have hboth {c : Prop} [Decidable c] (h : s.cls.accepts origin = decide c) :
      Ok ((do
        if c then
          M.setDisconnectDone
        M.modify fun s => { s with acct := some acct } : M Unit) s) s := by
    by_cases hor : c
    · rw [decide_eq_true hor] at h
      rw [if_pos hor]
      exact .move (.disconnected hl h) .ret
    · rw [decide_eq_false hor] at h
      rw [if_neg hor]
      exact .move (.otherDisconnected hl h) .ret
  fun_induction disconnected origin acct mro with
  | case1 => exact .raise
  | case2 =>
      refine hboth ?_
      rw [PyClass.accepts, (PyClass.eq_mro_a hm).1, if_pos rfl]
  | case3 =>
      refine hboth ?_
      rw [PyClass.accepts, (PyClass.eq_mro_b hm).1, if_neg (by decide)]
  | case4 _ _ _ _ ih => exact ih (suffix_of_cons hm)

/-! ## starting a re-INVITE -/

/-- The re-INVITE of the mix-in: a body of the next version, with other ports or the same ones. -/
theorem TestReinvite.ok_reinvite {alterPort : Bool} {cb : TimerCb} (hc : s.ua.created = true)
    (hl : s.last = some (.fired cb)) (hcb : cb = .reinvite ∨ cb = .offHold) :
    Ok (TestReinvite.reinvite alterPort s) s := by
  unfold TestReinvite.reinvite
  refine .get (.ite (fun hd => .ofSome fun lSDP hlsdp => ?_) fun _ => .ret)
  have hd' : s.connectDone = true ∧ s.disconnectDone = false := by simpa using hd
  -- The ports of the body do not matter, its version does.
  have hrest (sections : List Section) (s₁ : Subtest) (hs₁ : s.Unseen s₁) :
      Ok ((do
        M.modify fun s => { s with reinviteInProgress := true }
        M.uaRecvEvent (.update (some { lSDP with sections := sections }.bumpVersion)) : M Unit) s₁)
        s₁ := by
    obtain ⟨_, _, _, _, -, -, rfl⟩ := hs₁
    exact .call hc (.single (.reinvite hl hcb hd'.1 hd'.2 hlsdp rfl)) fun s' _ => .ret
  exact .ite (fun _ => .unseen (unseen_alterPorts _) hrest) fun _ => hrest _ s (.refl s)

/-- The sections have no `c=` headers while the UA is called, and get them back. -/
theorem ATestReinvBrkn2.ok_reinvite {p : M Unit} (hc : s.ua.created = true)
    (hr : s.cls.restores = true)
    (hp : ∀ s', s'.cls = s.cls → s'.ua.created = true → s'.last = s.last → Ok (p s') s') :
    Ok (ATestReinvBrkn2.reinvite p s) s := by
  unfold ATestReinvBrkn2.reinvite
  refine .get (.ite (fun _ => .ofSome fun bak hbak => ?_) fun _ => .ret)
  refine .modify (.swapped hr hbak (Sdp.version_mapSections _ bak)) ?_
  refine .bind hc (hp _ rfl hc rfl) fun _ s' hs' => ?_
  exact .move (.restored (by rw [hs'.cls]; exact hr) bak) .ret

/-- The on-hold is counted after the call, and then the body is put back; a section without `c=`
leaves it as it is by then. -/
theorem ATestReinvOnhold.ok_reinvite {p : M Unit} (hc : s.ua.created = true)
    (ha : s.cls.isAlice = true) (hr : s.cls.restores = true)
    (hp : ∀ s', s'.cls = s.cls → s'.ua.created = true → s'.last = s.last → Ok (p s') s') :
    Ok (ATestReinvOnhold.reinvite p s) s := by
  unfold ATestReinvOnhold.reinvite
  refine .get (.ite (fun _ => .ofSome fun bak hbak => ?_) fun _ => .ret)
  generalize putOnHold (if s.tccfg.atype = .ip4 then "0.0.0.0" else "::") bak.sections = r
  obtain ⟨sections, done⟩ := r
  refine .modify (.swapped hr hbak rfl) (.ite (fun _ => .raise) fun _ => ?_)
  refine .bind hc (hp _ rfl hc rfl) fun _ s' hs' => ?_
  have ha' : s'.cls.isAlice = true := by rw [hs'.cls]; exact ha
  have hr' : s'.cls.restores = true := by rw [hs'.cls]; exact hr
  refine .move (.held true (.inl ha')) (.move (.restored ?_ bak) .ret)
  exact hr'

/-- The end of the call is scheduled when the re-INVITE is out. -/
theorem ATestReinvAdelay.ok_reinvite {p : M Unit} (hc : s.ua.created = true) (hp : Ok (p s) s) :
    Ok (ATestReinvAdelay.reinvite p s) s := by
  unfold ATestReinvAdelay.reinvite
  exact .bind hc hp fun _ s' _ => .move (.timer (by simp)) .ret

/-- What comes after the call can only raise an exception. -/
theorem ATestReinvBadAck.ok_reinvite {p : M Unit} (hc : s.ua.created = true) (hp : Ok (p s) s) :
    Ok (ATestReinvBadAck.reinvite p s) s := by
  unfold ATestReinvBadAck.reinvite
  exact .bind hc hp fun _ s' _ =>
    .get (.ite (fun _ => .ite (fun _ => .raise) fun _ => .ret) fun _ => .ret)

/-- The method of every class that sends re-INVITEs, for both of the timers that send one. -/
theorem ok_reinvite {alterPort : Bool} {cb : TimerCb} (hm : mro <:+ s.cls.mro)
    (hc : s.ua.created = true) (hl : s.last = some (.fired cb))
    (hcb : cb = .reinvite ∨ cb = .offHold) : Ok (reinvite alterPort mro s) s := by
  fun_induction reinvite alterPort mro generalizing s with
  | case1 => exact .raise
  | case2 _ sup ih =>
      have hr : s.cls.restores = true := by simp [PyClass.restores, isA_of_suffix hm]
      refine ATestReinvBrkn2.ok_reinvite hc hr fun s' hcls hc' hl' => ?_
      exact ih (hcls ▸ suffix_of_cons hm) hc' (hl'.trans hl)
  | case3 _ sup ih =>
      have hr : s.cls.restores = true := by simp [PyClass.restores, isA_of_suffix hm]
      refine ATestReinvOnhold.ok_reinvite hc (PyClass.eq_mro_a hm).1 hr fun s' hcls hc' hl' => ?_
      exact ih (hcls ▸ suffix_of_cons hm) hc' (hl'.trans hl)
  | case4 _ sup ih => exact ATestReinvAdelay.ok_reinvite hc (ih (suffix_of_cons hm) hc hl)
  | case5 _ sup ih => exact ATestReinvBadAck.ok_reinvite hc (ih (suffix_of_cons hm) hc hl)
  | case6 => exact TestReinvite.ok_reinvite hc hl hcb
  | case7 _ _ _ _ _ _ _ _ ih => exact ih (suffix_of_cons hm) hc hl

theorem mro_a_reinvite : (PyClass.a .reinvite).mro = [.a .reinvite, .testReinvite, .a .t1, .test] := by
  decide

/-- The off-hold is a re-INVITE of the mix-in's, without what `reinv_onhold` puts around it. -/
theorem ok_offHold (hm : mro <:+ s.cls.mro) (hc : s.ua.created = true)
    (hl : s.last = some (.fired .offHold)) : Ok (offHold mro s) s := by
  fun_induction offHold mro with
  | case1 => exact .raise
  | case2 sup =>
      have hr : Ok (reinvite false (PyClass.a .reinvite).mro s) s := by
        rw [mro_a_reinvite]
        exact TestReinvite.ok_reinvite hc hl (.inr rfl)
      refine .bind hc hr fun _ s' hs' => ?_
      have ha : s'.cls.isAlice = true := by rw [hs'.cls]; exact (PyClass.eq_mro_a hm).1
      exact .move (.held false (.inl ha)) .ret
  | case3 _ _ _ ih => exact ih (suffix_of_cons hm)

/-! ## events -/

/-- `o` goes on without a call and without an entry in the chronicle. -/
def Local {α : Type} (o : Out Subtest Exc UaCall α) (s : Subtest) : Prop :=
  o.Until fun
    | .call _, _ => False
    | _, s' => Moves s s' ∧ s'.log = s.log

theorem Local.ret {α : Type} {a : α} : Local (.ret a s) s := ⟨.refl, rfl⟩

theorem Local.raise {α : Type} {e : Exc} : Local (α := α) (.raise e s) s := ⟨.refl, rfl⟩

/-- A move that leaves the chronicle alone comes before. -/
theorem Local.move {α : Type} {o : Out Subtest Exc UaCall α} {s' : Subtest} (hm : Move s s')
    (hlog : s'.log = s.log) (h : Local o s') : Local o s :=
  h.stopped fun _ h₂ => ⟨.head hm h₂.1, h₂.2.trans hlog⟩

/-- Code after a local program knows how the program got there. -/
theorem Local.ok_bind {α β : Type} {p : M α} {f : α → M β} (hp : Local (p s) s)
    (hf : ∀ a s', Moves s s' → s'.log = s.log → Ok (f a s') s') : Ok ((p >>= f) s) s := by
  rw [Prog.bind_apply]
  unfold Local at hp
  cases ho : p s with
  | ret a s' =>
      rw [ho] at hp
      exact (hf a s' hp.1 hp.2).of_guar fun _ => hp.1
  | raise e s' =>
      rw [ho] at hp
      exact fun _ => .tail hp.1 (.raised e)
  | call c s' k =>
      rw [ho] at hp
      exact hp.elim
  | spin => exact trivial

/-- A program that does nothing but local moves makes moves. -/
theorem Local.ok {α : Type} {o : Out Subtest Exc UaCall α} (h : Local o s) : Ok o s := by
  unfold Local at h
  cases o with
  | ret a s' => exact fun _ => h.1
  | raise e s' => exact fun _ => .tail h.1 (.raised e)
  | call c s' k => exact h.elim
  | spin => exact trivial

theorem Local.bind {α β : Type} {p : M α} {f : α → M β} (hp : Local (p s) s)
    (hf : ∀ a s', Moves s s' → s'.log = s.log → Local (f a s') s') : Local ((p >>= f) s) s := by
  refine Out.Until.bind hp (fun a s' h => ?_) (fun _ _ h => h) fun _ _ h => h
  exact (hf a s' h.1 h.2).stopped fun _ h₂ => ⟨h.1.trans h₂.1, h₂.2.trans h.2⟩

theorem Local.ite {α : Type} {c : Prop} [Decidable c] {p q : M α} (hp : c → Local (p s) s)
    (hq : ¬ c → Local (q s) s) : Local ((if c then p else q) s) s := by
  split
  · next h => exact hp h
  · next h => exact hq h

/-- What changes no more than the endpoint, the environment and the body is local. -/
theorem Local.of_quiet {α : Type} {p : M α} (hp : Quiet Subtest.Unseen p) : Local (p s) s :=
  (hp s).stopped fun s' h => by
    have hlog : s'.log = s.log := by
      obtain ⟨_, _, _, _, -, -, rfl⟩ := h
      rfl
    exact ⟨.single (.unseen h), hlog⟩

/-- The check of a body; a complaint is an error. -/
theorem Test.local_checkMedia {sdp : Sdp} {ev : CCEvent} {inProgress : Bool}
    (ha : s.cls.isAlice = true) (hl : s.last = some (.event ev inProgress))
    (he : ev.checked = some sdp) : Local (Test.checkMedia sdp s) s := by
  unfold Test.checkMedia
  simp only [Prog.bind_apply, Prog.get_apply, Out.bind_ret]
  cases hcheck : s.tccfg.checkhostport sdp with
  | none => exact .raise
  | some r =>
      obtain ⟨cres, why⟩ := r
      cases cres with
      | true => exact .ret
      | false => exact .move (.err hl (.inl ⟨ha, sdp, he, why, hcheck⟩)) rfl .raise

/-- A body is checked in a 180, 183 or 200, and whatever it says is about the event that has
come last. -/
theorem ATest1.local_recvMedia {ev : CCEvent} {inProgress : Bool} (ha : s.cls.isAlice = true)
    (hl : s.last = some (.event ev inProgress)) : Local (ATest1.recvMedia ev s) s := by
  have hbody {sdp : Option Sdp} (he : ev.checked = sdp) {c : Prop} [Decidable c] :
      Local ((if c then do
        let sdp ← M.ofSome sdp
        Test.checkMedia sdp
        Test.rtpStartOrUpdate sdp
      else pure () : M Unit) s) s := by
    refine .ite (fun _ => ?_) fun _ => .ret
    cases sdp with
    | none => exact .raise
    | some sdp =>
        refine .bind (p := Test.checkMedia sdp) (Test.local_checkMedia ha hl he) fun _ _ _ _ => ?_
        exact .of_quiet (unseen_rtpStartOrUpdate sdp)
  unfold ATest1.recvMedia
  cases ev with
  | ring _ _ sdp => exact hbody rfl
  | connect _ _ sdp => exact hbody rfl
  | preConnect _ _ sdp => exact hbody rfl
  | _ => exact .ret

/-- The method of `a_test1` calls nothing: it sets a flag and looks at the body. -/
theorem ATest1.local_recvEvent {ev : CCEvent} {inProgress : Bool} (ha : s.cls.isAlice = true)
    (hl : s.last = some (.event ev inProgress)) : Local (ATest1.recvEvent ev s) s := by
  unfold ATest1.recvEvent
  rw [Prog.bind_apply, Prog.get_apply, Out.bind_ret]
  refine .ite (fun hr => ?_) fun _ => ATest1.local_recvMedia ha hl
  rw [Bool.and_eq_true] at hr
  exact .move (.ringDone fun _ => ⟨ev, inProgress, hl, hr.1⟩) rfl (ATest1.local_recvMedia ha hl)

/-! ### the re-INVITE classes -/

/-- The next of the schedule is taken, to be an on-hold or an off-hold. -/
theorem ATestReinvOnhold.ok_onReinviteConnected {p : M Unit} (hc : s.cls.isA (.a .reinvOnhold) = true)
    (hp : ∀ s', s'.cls = s.cls → s'.last = s.last → Ok (p s') s') :
    Ok (ATestReinvOnhold.onReinviteConnected p s) s := by
  unfold ATestReinvOnhold.onReinviteConnected
  refine .get ?_
  cases hs : s.sched.getLast? with
  | none => exact hp s rfl rfl
  | some ival =>
      refine .move (.scheduled hc ?_ hs) (hp _ rfl rfl)
      split
      · exact .inr rfl
      · exact .inl rfl

theorem mro_a_natedContact : (PyClass.a .natedContact).mro =
    [.a .natedContact, .a .reinvFrombob, .testReinvite, .a .t1, .test] := by
  decide

/-- Only `nated_contact` finds an error there, which is about an answered re-INVITE. -/
theorem ok_onReinviteConnected {ev : CCEvent} (hm : mro <:+ s.cls.mro)
    (hl : s.last = some (.event ev true)) (ht : s.cls.isA .testReinvite = true) :
    Ok (onReinviteConnected mro s) s := by
  fun_induction onReinviteConnected mro generalizing s with
  | case1 => exact .raise
  | case2 sup ih =>
      refine ATestReinvOnhold.ok_onReinviteConnected (isA_of_suffix hm) fun s' hcls hl' => ?_
      exact ih (hcls ▸ suffix_of_cons hm) (hl'.trans hl) (hcls ▸ ht)
  | case3 => exact .of_quiet unseen_sendACK
  | case4 sup ih =>
      -- The `super` method is that of `test_reinvite`, which does nothing.
      have hsup := (PyClass.eq_mro_a hm).2
      rw [mro_a_natedContact, List.cons.injEq] at hsup
      rw [hsup.2]
      exact .ite (fun _ => .move (.err hl (.inr (.inl ⟨rfl, ht⟩))) .ret) fun _ => .ret
  | case5 => exact .ret
  | case6 _ _ _ _ _ _ ih => exact ih (suffix_of_cons hm) hl ht

/-- A re-INVITE that fails is an error of every class that goes up to the mix-in. -/
theorem ok_onReinviteFailed {ev ev' : CCEvent} (hl : s.last = some (.event ev true))
    (ht : s.cls.isA .testReinvite = true) : Ok (onReinviteFailed ev' mro s) s := by
  fun_induction onReinviteFailed ev' mro generalizing s with
  | case1 => exact .raise
  | case2 sup ih =>
      unfold ATestReinvBadAck.onReinviteFailed
      cases ev' with
      | fail code reason =>
          refine .unseen unseen_sendACK fun _ s' hs' => ?_
          obtain ⟨_, _, _, _, -, -, rfl⟩ := hs'
          exact ih hl ht
      | _ => exact ih hl ht
  | case3 => exact .move (.err hl (.inr (.inl ⟨rfl, ht⟩))) .ret
  | case4 _ _ _ _ ih => exact ih hl ht

/-- The 200 to a re-INVITE has the object's own body, with other ports. -/
theorem TestReinvite.ok_answerReinvite (hc : s.ua.created = true) (ha : s.Asked) :
    Ok (TestReinvite.answerReinvite s) s := by
  unfold TestReinvite.answerReinvite
  refine .get (.ofSome fun lSDP hlsdp => ?_)
  refine .unseen (unseen_alterPorts _) fun sections s₁ hs₁ => ?_
  obtain ⟨_, _, _, _, -, -, rfl⟩ := hs₁
  exact .call hc (.single (.answer ha hlsdp rfl)) fun s' _ => .ret

/-- A re-INVITE is answered at once, or when a timer fires. -/
theorem ok_processReinvite (hc : s.ua.created = true) (ha : s.Asked) :
    Ok (processReinvite mro s) s := by
  fun_induction processReinvite mro with
  | case1 => exact .raise
  | case2 =>
      unfold TestReinvite.processReinvite
      exact .get (.ite (fun _ => .move (.timer (by simp)) .ret)
        fun _ => TestReinvite.ok_answerReinvite hc ha)
  | case3 _ _ _ ih => exact ih

/-- A re-INVITE that has come in is answered, and counted. -/
theorem TestReinvite.ok_recvUpdate {ev : CCEvent} {p : M Unit} (hc : s.ua.created = true)
    (ha : s.Asked) (he : ev.isUpdate = true) : Ok (TestReinvite.recvEvent ev p s) s := by
  unfold TestReinvite.recvEvent
  rw [if_pos he]
  refine .bind hc (p := M.self VoipTests.processReinvite) (ok_processReinvite hc ha) fun _ s' _ => ?_
  exact .move .updated .ret

/-- What `recvEvent` does with an event while a re-INVITE is in progress, once
it is settled. -/
theorem TestReinvite.ok_outcome {ev : CCEvent} {p : M Unit} (hl : s.last = some (.event ev true))
    (ht : s.cls.isA .testReinvite = true) (hw : ev.isConnect = true → s.cls.wants ev = true)
    (hsup : Local (p s) s) :
    Ok ((p >>= fun _ =>
      if ev.isConnect = true then do
        M.modify fun s => { s with reinviteDone := true }
        M.self onReinviteConnected
      else if ev.isFailure = true then M.self (onReinviteFailed ev)
      else pure ()) s) s := by
  refine hsup.ok_bind fun _ s' hs' hlog' => ?_
  have hcls : s'.cls = s.cls := hs'.sameLife.cls
  have hl' : s'.last = some (.event ev true) := by rw [Subtest.last, hlog']; exact hl
  have ht' : s'.cls.isA .testReinvite = true := by rw [hcls, ht]
  refine .ite (fun hcon => ?_) fun _ => .ite (fun _ => ok_onReinviteFailed hl' ht') fun _ => .ret
  refine .modify (.reinviteDone hl' ?_) (ok_onReinviteConnected (List.suffix_refl _) hl' ht')
  rw [hcls]
  exact hw hcon

/-- An event that is no re-INVITE, the mix-in being followed by `a_test1` or
`b_test1` (or nothing). -/
theorem TestReinvite.ok_recvEvent {ev : CCEvent} {inProgress : Bool} {p : M Unit}
    (he : ev.isUpdate = false)
    (hl : s.last = some (.event ev inProgress)) (hp : s.reinviteInProgress = inProgress)
    (ht : s.cls.isA .testReinvite = true)
    (hw : inProgress = true → ev.isConnect = true → s.cls.wants ev = true)
    (hsup : ∀ s', s'.cls = s.cls → s'.last = s.last → Local (p s') s') :
    Ok (TestReinvite.recvEvent ev p s) s := by
  unfold TestReinvite.recvEvent
  rw [if_neg (by simp [he])]
  refine .get (.ite (fun _ => (hsup s rfl rfl).ok) fun hin => ?_)
  have hin' : inProgress = true := by
    rw [← hp]
    simpa using hin
  subst hin'
  refine .ite (fun hcon => ?_) fun _ => .ite (fun hfail => ?_) fun _ => ?_
  · exact .modify (.settled hl (.inl hcon)) (TestReinvite.ok_outcome hl ht (hw rfl) (hsup _ rfl rfl))
  · exact .modify (.err hl (.inr (.inl ⟨rfl, ht⟩)))
      (TestReinvite.ok_outcome hl ht (hw rfl) (hsup _ rfl rfl))
  · exact TestReinvite.ok_outcome hl ht (hw rfl) (hsup s rfl rfl)

/-- Where a re-INVITE has to fail, its 200 is an error and its failure is the end of it. -/
theorem ATestReinvFail.ok_recvEvent {ev : CCEvent} {inProgress : Bool} {p : M Unit}
    (hl : s.last = some (.event ev inProgress)) (hin : s.reinviteInProgress = inProgress)
    (hw : s.cls.wantsFailure = true) (ht : s.cls.isA .testReinvite = true)
    (hp : inProgress = false ∨ ev.isRing = true → Ok (p s) s) :
    Ok (ATestReinvFail.recvEvent ev p s) s := by
  unfold ATestReinvFail.recvEvent
  refine .get (.ite (fun hc => ?_) fun hc => hp ?_)
  · have hin' : inProgress = true := by
      rw [Bool.and_eq_true] at hc
      exact hin ▸ hc.1
    subst hin'
    refine .ite (fun _ => ?_) fun hf => ?_
    · exact .modify (.err hl (.inr (.inl ⟨rfl, ht⟩))) .raise
    · have hfail : ev.isFailure = true := by simpa using hf
      refine .move (.settled hl (.inr hfail)) (.move (.reinviteDone hl ?_) .ret)
      simp [PyClass.wants, hw, hfail]
  · rw [Bool.and_eq_true, hin, not_and_or] at hc
    simpa using hc

/-- A re-INVITE as it comes in. -/
theorem asked_of_event {ev : CCEvent} {inProgress : Bool} (hl : s.last = some (.event ev inProgress))
    (hw : s.cls.wantsFailure = true → inProgress = false) (he : ev.isUpdate = true) : s.Asked := by
  cases ev with
  | update sdp => exact .inr (.inl ⟨sdp, inProgress, hl, hw⟩)
  | _ => cases he

/-- The 200 to a re-INVITE is sent with a body whose media have no `c=` headers. -/
theorem BTestReinvBrkn1.ok_recvEvent {ev : CCEvent} {inProgress : Bool} {p : M Unit}
    (hc : s.ua.created = true) (hl : s.last = some (.event ev inProgress))
    (hw : s.cls.wantsFailure = true → inProgress = false) (hp : Ok (p s) s) :
    Ok (BTestReinvBrkn1.recvEvent ev p s) s := by
  unfold BTestReinvBrkn1.recvEvent
  refine .ite (fun _ => hp) fun he => .get (.ofSome fun lSDP hlsdp => ?_)
  have ha := asked_of_event hl hw (by simpa using he)
  refine .unseen (unseen_dropMedia _) fun sections s₁ hs₁ => ?_
  obtain ⟨_, _, _, _, -, -, rfl⟩ := hs₁
  exact .call hc (.single (.answer ha hlsdp rfl)) fun s' _ => .move .updated .ret

/-- A re-INVITE is counted as an on-hold or an off-hold before it is answered. -/
theorem BTestReinvOnhold.ok_recvEvent {ev : CCEvent} {inProgress : Bool} {p : M Unit}
    (hl : s.last = some (.event ev inProgress))
    (hp : ev.isUpdate = false → Ok (p s) s)
    (hup : ∀ on s', s.SameLife s' → s'.last = some (.held on) → ev.isUpdate = true → Ok (p s') s') :
    Ok (BTestReinvOnhold.recvEvent ev p s) s := by
  unfold BTestReinvOnhold.recvEvent
  refine .ite (fun he => .get (.ofSome fun sdp _ => .ofSome fun onhold _ => ?_)) fun he => ?_
  · have hheld : s.cls.isAlice = true ∨
        ∃ sdp inProgress, s.last = some (.event (.update sdp) inProgress) := by
      cases ev with
      | update sdp => exact .inr ⟨sdp, inProgress, hl⟩
      | _ => cases he
    have hm : Move s ((s.hold onhold).note (.held onhold)) := .held onhold hheld
    exact .modify hm (hup onhold _ hm.sameLife List.getLast?_concat he)
  · exact hp (by simpa using he)

/-- An INVITE with a spoiled body that does not fail is an error. -/
theorem ATestInvBrkn1.ok_recvEvent {ev : CCEvent} {inProgress : Bool} {p : M Unit}
    (hl : s.last = some (.event ev inProgress)) (hi : s.cls.isA (.a .invBrkn1) = true)
    (hp : Ok (p s) s) : Ok (ATestInvBrkn1.recvEvent ev p s) s := by
  have hrest : Ok ((M.get >>= fun s =>
      if (s.connectDone || !ev.isFailure) = true then do
        M.addErr
        M.raise (.valueError "INVITE has NOT failed")
        p
      else p) s) s :=
    .get (.ite (fun _ => .modify (.err hl (.inr (.inr hi))) .raise) fun _ => hp)
  unfold ATestInvBrkn1.recvEvent
  split
  · exact hp
  · exact hp
  · exact hrest

theorem mro_a_reinvFail : (PyClass.a .reinvFail).mro =
    [.a .reinvFail, .a .reinvite, .testReinvite, .a .t1, .test] := by
  decide

theorem mro_b_reinvOnhold : (PyClass.b .reinvOnhold).mro =
    [.b .reinvOnhold, .b .reinvite, .testReinvite, .b .t1, .test] := by
  decide

/-- The method of every class; where a re-INVITE has to fail, `reinv_fail` is still to come, or
has let the event pass. -/
theorem ok_recvEvent {ev : CCEvent} {inProgress : Bool} (hm : mro <:+ s.cls.mro)
    (hc : s.ua.created = true) (hl : s.last = some (.event ev inProgress))
    (hin : s.reinviteInProgress = inProgress)
    (hw : s.cls.wantsFailure = true →
      .a .reinvFail ∈ mro ∨ inProgress = false ∨ ev.isRing = true) :
    Ok (recvEvent ev mro s) s := by
  fun_induction recvEvent ev mro with
  | case1 => exact .raise
  | case2 sup ih =>
      have ht : s.cls.isA .testReinvite = true := by
        have hmem : PyClass.testReinvite ∈ PyClass.a .reinvFail :: sup := by
          rw [(PyClass.eq_mro_a hm).2, mro_a_reinvFail]
          simp
        simpa [PyClass.isA] using hm.subset hmem
      exact ATestReinvFail.ok_recvEvent hl hin (isA_of_suffix hm) ht fun h =>
        ih (suffix_of_cons hm) fun _ => .inr h
  | case3 sup ih =>
      have ha := (PyClass.eq_mro_b hm).1
      refine .ite (fun _ => ih (suffix_of_cons hm) fun h => ?_) fun _ => ?_
      · simpa using hw h
      · exact .call hc (.single (.fail ha)) fun s' _ => .ret
  | case4 sup ih =>
      refine BTestReinvBrkn1.ok_recvEvent hc hl (fun h => ?_)
        (ih (suffix_of_cons hm) fun h => by simpa using hw h)
      have ha := (PyClass.eq_mro_b hm).1
      rw [PyClass.isAlice_of_isA h] at ha
      cases ha
  | case5 sup ih =>
      refine BTestReinvOnhold.ok_recvEvent hl
        (fun _ => ih (suffix_of_cons hm) fun h => by simpa using hw h) fun on s' hs' hl' he => ?_
      -- A re-INVITE goes straight on to the mix-in.
      obtain ⟨ha, hsup⟩ := PyClass.eq_mro_b hm
      rw [mro_b_reinvOnhold, List.cons.injEq] at hsup
      rw [hsup.2]
      have ha' : s'.cls.isAlice = false := by rw [hs'.cls, ha]
      exact TestReinvite.ok_recvUpdate (hs'.created.trans hc) (.inr (.inr ⟨ha', on, hl'⟩)) he
  | case6 sup ih =>
      exact ATestInvBrkn1.ok_recvEvent hl (isA_of_suffix hm)
        (ih (suffix_of_cons hm) fun h => by simpa using hw h)
  | case7 sup ih =>
      cases he : ev.isUpdate with
      | true =>
          refine TestReinvite.ok_recvUpdate hc (asked_of_event hl (fun hwf => ?_) he) he
          -- The class would have refused the re-INVITE before.
          rcases hw hwf with h | h | h
          · rcases PyClass.eq_mro_testReinvite hm with rfl | rfl | rfl <;> simp at h
          · exact h
          · cases ev <;> simp_all [CCEvent.isRing, CCEvent.isUpdate]
      | false =>
          have hsup := PyClass.eq_mro_testReinvite hm
          refine TestReinvite.ok_recvEvent he hl hin (isA_of_suffix hm) ?_ ?_
          · intro hin' hcon
            rw [PyClass.wants]
            split
            · next hwf =>
              -- The class would have caught the event before.
              rcases hw hwf with h | h | h
              · rcases hsup with rfl | rfl | rfl <;> simp at h
              · rw [hin'] at h
                cases h
              · cases ev <;> simp_all [CCEvent.isRing, CCEvent.isConnect]
            · exact hcon
          · intro s' hcls hl'
            rcases hsup with rfl | rfl | rfl
            · exact .raise
            · have ha : s'.cls.isAlice = true :=
                hcls ▸ (PyClass.eq_mro_a (suffix_of_cons hm)).1
              exact ATest1.local_recvEvent ha (hl'.trans hl)
            · exact .ret
  | case8 sup => exact (ATest1.local_recvEvent (PyClass.eq_mro_a hm).1 hl).ok
  | case9 => exact .ret
  | case10 c sup h _ _ _ _ _ _ _ ih =>
      refine ih (suffix_of_cons hm) fun hwf => ?_
      rcases hw hwf with hmem | h'
      · rcases List.mem_cons.mp hmem with rfl | hmem
        · exact (h rfl).elim
        · exact .inl hmem
      · exact .inr h'

/-! ## the machine -/

/-- Whatever `alldone` does is one move. -/
theorem ok_alldone (hl : s.last = some .dead) : Ok (alldone s.cls.mro s) s := by
  have hquiet : Quiet (Subtest.Ends true) (alldone s.cls.mro) := quiet_alldone fun _ => rfl
  have hq := hquiet s
  cases ho : alldone s.cls.mro s with
  | ret a s' => exact fun _ => .single (.dead hl (by rw [ho]; rfl))
  | raise e s' => exact fun _ => .single (.dead hl (by rw [ho]; rfl))
  | call c s' k =>
      rw [ho] at hq
      exact hq.elim
  | spin => exact trivial

/-- Each of the callbacks that timers are set for. -/
theorem ok_timer {cb : TimerCb} (hc : s.ua.created = true) (hl : s.last = some (.fired cb)) :
    Ok (cb.body s.cls.mro s) s := by
  cases cb with
  | ring => exact ok_ring (List.suffix_refl _) hc hl
  | connect => exact ok_connect (List.suffix_refl _) hc hl
  | disconnect => exact ok_disconnect (List.suffix_refl _) hc hl
  | cancel => exact ok_cancel hc
  | reinvite => exact ok_reinvite (List.suffix_refl _) hc hl (.inl rfl)
  | offHold => exact ok_offHold (List.suffix_refl _) hc hl
  | processReinvite => exact TestReinvite.ok_answerReinvite hc (.inl hl)

theorem created_of_entry {cb : Cb} {idle : Bool} {s₁ : Subtest} (h : s.entry cb idle = some s₁) :
    s.ua.created = true := by
  unfold Subtest.entry at h
  split at h
  · cases h
  · next hc => simpa using hc

/-- Whatever callback is entered, its code makes moves. -/
theorem ok_entry {cb : Cb} {env : Env} {idle : Bool} {s₁ : Subtest}
    (h : s.entry cb idle = some s₁) :
    s.SameLife s₁ ∧ Ok (M.self cb.body { s₁ with env := env }) { s₁ with env := env } := by
  have hc := created_of_entry h
  unfold Subtest.entry at h
  rw [hc, Bool.not_true, if_neg (by decide)] at h
  cases cb with
  | event ev =>
      cases h
      refine ⟨⟨rfl, rfl, rfl, rfl, rfl, rfl, rfl⟩, ?_⟩
      refine ok_recvEvent (List.suffix_refl _) hc List.getLast?_concat rfl fun hw => .inl ?_
      simpa [PyClass.wantsFailure, PyClass.isA] using hw
  | connected =>
      obtain ⟨-, h⟩ := Option.ite_none_right_eq_some.mp h
      cases h
      refine ⟨⟨rfl, rfl, rfl, rfl, rfl, rfl, rfl⟩, ?_⟩
      exact ok_connected (List.suffix_refl _) List.getLast?_concat
  | disconnected origin acct =>
      cases h
      refine ⟨⟨rfl, rfl, rfl, rfl, rfl, rfl, rfl⟩, ?_⟩
      exact ok_disconnected (List.suffix_refl _) List.getLast?_concat
  | dead =>
      cases h
      refine ⟨⟨rfl, rfl, rfl, rfl, rfl, rfl, rfl⟩, ?_⟩
      exact ok_alldone List.getLast?_concat
  | timer t =>
      obtain ⟨-, h⟩ := Option.ite_none_right_eq_some.mp h
      cases h
      refine ⟨⟨rfl, rfl, rfl, rfl, rfl, rfl, rfl⟩, ?_⟩
      exact ok_timer hc List.getLast?_concat
  | inDialogInvite ruri =>
      obtain ⟨-, h⟩ := Option.ite_none_right_eq_some.mp h
      cases h
      exact ⟨⟨rfl, rfl, rfl, rfl, rfl, rfl, rfl⟩, .ret⟩

/-- **The machine makes nothing but moves.** -/
theorem respects_inMoves : machine.Respects inMoves where
  enter i s idle s₁ h := by
    obtain ⟨s₂, h₂, rfl⟩ := Option.map_eq_some_iff.mp h
    obtain ⟨hl, hok⟩ : s.SameLife s₂ ∧ Ok (M.self i.cb.body { s₂ with env := i.env }) _ := ok_entry h₂
    exact ⟨fun _ => ⟨hl.cls, hl.tccfg, hl.named, hl.reinviteIval, hl.expectedContactUri, hl.created,
      hl.inited⟩, hok⟩
  resume _ _ _ := ⟨rfl, rfl, rfl, rfl, rfl, rfl, rfl⟩
  caught exc _ _ := .single (.raised exc)

end VoipTests
