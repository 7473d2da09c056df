import VoipTests.Subtest.Done

/-!
# VoipTests.Subtest.Verdict

What `alldone` reports, for every class.

`alldone` is overridden in many places and chains to its base in some of
them.  Two functions of the method resolution order say what comes out:
`passes`, the condition for a pass, and `honours`, whether `mightfail` is
looked at.  `reported_alldone` is the specification of `alldone` by them.
-/

namespace VoipTests

open Callback

/-- The class's own condition for a pass, on the object `alldone` finds. -/
def passes : List PyClass → Subtest → Bool
  | [], _ => false
  | .a .t3 :: _, s => s.disconnectDone && s.nerrs = 0
  | .a .t11 :: _, s => !s.connectDone && s.disconnectDone && s.nerrs = 0
  | .b .t11 :: _, s => s.ringDone && !s.connectDone && s.disconnectDone && s.nerrs = 0
  | .b .t12 :: _, s => !s.ringDone && !s.connectDone && s.disconnectDone && s.nerrs = 0
  | .b .t13 :: _, s => s.ringDone && !s.connectDone && s.disconnectDone && s.nerrs = 0
  | .a .invBrkn1 :: _, s => s.disconnectDone && s.nerrs = 0
  | .b .invBrkn1 :: _, s => s.ringDone && !s.connectDone && s.disconnectDone && s.nerrs = 0
  | .b .reinvOnhold :: sup, s => s.onholdCount = 3 && s.offholdCount = 2 && passes sup s
  | .testEarlyCancel :: sup, s =>
    s.disconnectDone && s.acct.any (TestEarlyCancel.cancelled s.cls.maxDelay) &&
      passes sup { s with ringDone := true, connectDone := true }
  | .testReinvite :: sup, s =>
    (s.reinviteIval.isNone || s.reinviteDone && s.disconnectDone) && passes sup s
  | .test :: _, s => s.ringDone && s.connectDone && s.disconnectDone && s.nerrs = 0
  | _ :: sup, s => passes sup s

/-- `alldone` gets to `test.alldone`, where `mightfail` is looked at. -/
def honours : List PyClass → Bool
  | [] => false
  | .a .t3 :: _ | .a .t11 :: _ | .b .t11 :: _ | .b .t12 :: _ | .b .t13 :: _ => false
  | .a .invBrkn1 :: _ | .b .invBrkn1 :: _ => false
  | .test :: _ => true
  | _ :: sup => honours sup

/-- `alldone` gets to `test_reinvite.alldone`. -/
def asksReinvite : List PyClass → Bool
  | [] => false
  | .a .t3 :: _ | .a .t11 :: _ | .b .t11 :: _ | .b .t12 :: _ | .b .t13 :: _ => false
  | .a .invBrkn1 :: _ | .b .invBrkn1 :: _ => false
  | .testReinvite :: _ => true
  | .test :: _ => false
  | _ :: sup => asksReinvite sup

/-- An object that is ready to be done. -/
structure Subtest.Open (s : Subtest) : Prop where
  inited : s.rtp.inited = true
  closing : s.rtp.closing = false
  doneCalled : s.doneCalled = false

/-! ## `done` -/

/-- The RTP attributes after `_rtp_shutdown_stats`. -/
def Rtp.shutdown (rtp : Rtp) (env : Env) : Rtp :=
  if !rtp.enabled then rtp
  else if rtp.ep.isNone then { rtp with closing := true }
  else if env.statsOk then
    { rtp with
      closing := true
      ep := none
      ops := rtp.ops ++ [.shutdown]
      error := rtp.error || !env.shutdownOk }
  else { rtp with closing := true, ep := none, error := true }

/-- The object after `done`. -/
def Subtest.finished (s : Subtest) : Subtest :=
  { s with
    doneCalled := true
    rtp := if s.tccfg.signallingOnly then s.rtp else s.rtp.shutdown s.env
    report := some ⟨s.rval, s.log⟩ }

theorem Test.reportRtp_eq {s : Subtest} (hi : s.rtp.inited = true) (hc : s.rtp.closing = false) :
    Test.reportRtp s = .ret () { s with rtp := s.rtp.shutdown s.env } := by
  unfold Test.reportRtp Test.rtpShutdownStats Test.modifyRtp M.assert Rtp.shutdown
  cases he : s.rtp.enabled
  · simp [hi, he]
  · cases hp : s.rtp.ep
    · simp [hi, hc, he, hp]
    · cases hs : s.env.statsOk <;> simp [hi, hc, he, hp, hs]

/-- `done` reports the verdict that stands in `rval`. -/
theorem Test.done_eq {s : Subtest} (h : s.Open) : Test.done s = .ret () s.finished := by
  obtain ⟨hi, hc, hd⟩ := h
  unfold Test.done M.assert Subtest.finished
  cases hso : s.tccfg.signallingOnly
  · simp [hi, hd, hso, Test.reportRtp_eq, hc]
  · simp [hi, hd, hso]

/-! ## `alldone` -/

/-- The RTP attributes without what `_rtp_shutdown_stats` may change. -/
def Rtp.kept (rtp : Rtp) : Rtp := { rtp with closing := false, ep := none, error := false, ops := [] }

/-- The object without what `alldone` may change. -/
def Subtest.kept (s : Subtest) : Subtest :=
  { s with
    rval := 0
    nerrs := 0
    ringDone := false
    connectDone := false
    finfoDisplayed := false
    doneCalled := false
    rtp := s.rtp.kept
    log := []
    report := none }

/-- What `alldone` may do to an object, whether it returns or raises; only
`test_early_cancel` (`early`) sets flags. -/
structure Subtest.Ends (early : Bool) (s s' : Subtest) : Prop where
  kept : s'.kept = s.kept
  nerrs : s.nerrs ≤ s'.nerrs
  log : ∃ n, s'.log = s.log ++ List.replicate n .connectDone
  /-- There is no second report. -/
  once : s.doneCalled = true → s'.doneCalled = true ∧ s'.report = s.report
  flags : early = false → s'.ringDone = s.ringDone ∧ s'.connectDone = s.connectDone
  ringDone : s.ringDone = true → s'.ringDone = true
  connectDone : s.connectDone = true → s'.connectDone = true

namespace Subtest.Ends

variable {early : Bool}

theorem refl (s : Subtest) : s.Ends early s :=
  ⟨rfl, le_rfl, ⟨0, by simp⟩, fun h => ⟨h, rfl⟩, fun _ => ⟨rfl, rfl⟩, id, id⟩

theorem trans {s₁ s₂ s₃ : Subtest} (h₁ : s₁.Ends early s₂) (h₂ : s₂.Ends early s₃) :
    s₁.Ends early s₃ := by
  obtain ⟨n₁, hl₁⟩ := h₁.log
  obtain ⟨n₂, hl₂⟩ := h₂.log
  refine ⟨h₂.kept.trans h₁.kept, h₁.nerrs.trans h₂.nerrs, ⟨n₁ + n₂, ?_⟩, fun h => ?_, fun h => ?_,
    fun h => h₂.ringDone (h₁.ringDone h), fun h => h₂.connectDone (h₁.connectDone h)⟩
  · rw [hl₂, hl₁, List.append_assoc, List.replicate_add]
  · have hd := h₁.once h
    have hd' := h₂.once hd.1
    exact ⟨hd'.1, hd'.2.trans hd.2⟩
  · have hf := h₁.flags h
    have hf' := h₂.flags h
    exact ⟨hf'.1.trans hf.1, hf'.2.trans hf.2⟩

/-- What `kept` keeps is the same before and after. -/
theorem field {s s' : Subtest} (h : s.Ends early s') {α : Type} (f : Subtest → α)
    (hf : ∀ s, f s.kept = f s) : f s' = f s := by
  rw [← hf s', h.kept, hf s]

end Subtest.Ends

section Quiet

variable {early : Bool} {α β : Type} {p : M α} {f : α → M β} {sup : M Unit}

theorem quiet_bind (hp : Quiet (Subtest.Ends early) p) (hf : ∀ a, Quiet (Subtest.Ends early) (f a)) :
    Quiet (Subtest.Ends early) (p >>= f) :=
  Quiet.bind (fun _ _ _ => .trans) hp hf

/-- An assignment to what no one but `alldone` looks at. -/
theorem quiet_modify {g : Subtest → Subtest} (hk : ∀ s, (g s).kept = s.kept)
    (hn : ∀ s, (g s).nerrs = s.nerrs) (hl : ∀ s, (g s).log = s.log)
    (ho : ∀ s, (g s).doneCalled = s.doneCalled ∧ (g s).report = s.report)
    (hf : ∀ s, (g s).ringDone = s.ringDone ∧ (g s).connectDone = s.connectDone) :
    Quiet (Subtest.Ends early) (M.modify g : M Unit) :=
  Quiet.modify fun s =>
    ⟨hk s, (hn s).ge, ⟨0, by simp [hl s]⟩, fun h => ⟨(ho s).1.trans h, (ho s).2⟩, fun _ => hf s,
      fun h => (hf s).1.trans h, fun h => (hf s).2.trans h⟩

theorem quiet_addErr : Quiet (Subtest.Ends early) M.addErr :=
  Quiet.modify fun _ =>
    ⟨rfl, Nat.le_succ _, ⟨0, by simp⟩, fun h => ⟨h, rfl⟩, fun _ => ⟨rfl, rfl⟩, id, id⟩

theorem quiet_setConnectDone : Quiet (Subtest.Ends true) M.setConnectDone :=
  Quiet.modify fun _ =>
    ⟨rfl, le_rfl, ⟨1, rfl⟩, fun h => ⟨h, rfl⟩, nofun, id, fun _ => rfl⟩

theorem quiet_assert (c : Bool) : Quiet (Subtest.Ends early) (M.assert c) := by
  unfold M.assert
  exact Quiet.ite (fun _ => Quiet.pure .refl _) fun _ => Quiet.raise .refl _

theorem quiet_modifyRtp {g : Rtp → Rtp} (h : ∀ rtp, (g rtp).kept = rtp.kept) :
    Quiet (Subtest.Ends early) (Test.modifyRtp g) :=
  quiet_modify (fun s => by simp only [Subtest.kept, h]) (fun _ => rfl) (fun _ => rfl)
    (fun _ => ⟨rfl, rfl⟩) fun _ => ⟨rfl, rfl⟩

theorem quiet_reportRtp : Quiet (Subtest.Ends early) Test.reportRtp := by
  unfold Test.reportRtp Test.rtpShutdownStats
  refine Quiet.get fun _ => quiet_bind (quiet_assert _) fun _ => Quiet.get fun _ =>
    quiet_bind (quiet_assert _) fun _ => Quiet.ite (fun _ => ?_) fun _ => Quiet.pure .refl _
  refine quiet_bind (quiet_assert _) fun _ => quiet_bind (quiet_modifyRtp fun _ => rfl) fun _ =>
    Quiet.ite (fun _ => ?_) fun _ => Quiet.pure .refl _
  exact Quiet.ite (fun _ => quiet_modifyRtp fun _ => rfl) fun _ => quiet_modifyRtp fun _ => rfl

theorem quiet_done : Quiet (Subtest.Ends early) Test.done := by
  intro s
  -- The report of an object that has already been done is never reached.
  have hreport {s' : Subtest} (hd : s.doneCalled = false) (h : { s with doneCalled := true }.Ends early s') :
      s.Ends early { s' with report := some ⟨s'.rval, s'.log⟩ } := by
    refine ⟨h.kept, h.nerrs, h.log, fun hd' => ?_, h.flags, h.ringDone, h.connectDone⟩
    rw [hd] at hd'
    cases hd'
  unfold Test.done M.assert
  cases hi : s.rtp.inited with
  | false => simpa [hi] using Subtest.Ends.refl s
  | true =>
      cases hd : s.doneCalled with
      | true => simpa [hi, hd] using Subtest.Ends.refl s
      | false =>
          cases hso : s.tccfg.signallingOnly with
          | true => simpa [hi, hd, hso] using hreport hd (.refl _)
          | false =>
              simp only [Prog.bind_apply, Prog.get_apply, Out.bind_ret, hi, hd, hso, if_true,
                Bool.not_false, Prog.pure_apply, Prog.modify_apply]
              refine (quiet_reportRtp _).bind (fun _ s' h => hreport hd h) (fun _ s' h => ?_)
                fun _ _ h => h
              refine ⟨h.kept, h.nerrs, h.log, fun hd' => ?_, h.flags, h.ringDone, h.connectDone⟩
              rw [hd] at hd'
              cases hd'

theorem quiet_passIf (cond : Subtest → Bool) : Quiet (Subtest.Ends early) (Test.passIf cond) := by
  unfold Test.passIf
  have hpass : Quiet (Subtest.Ends early) (M.modify fun s => { s with rval := 0 } : M Unit) :=
    quiet_modify (fun _ => rfl) (fun _ => rfl) (fun _ => rfl) (fun _ => ⟨rfl, rfl⟩) fun _ => ⟨rfl, rfl⟩
  exact Quiet.get fun _ => Quiet.ite (fun _ => quiet_bind hpass fun _ => quiet_done)
    fun _ => quiet_done

theorem Test.quiet_alldone : Quiet (Subtest.Ends early) Test.alldone := by
  unfold Test.alldone
  have hpass : Quiet (Subtest.Ends early) (M.modify fun s => { s with rval := 0 } : M Unit) :=
    quiet_modify (fun _ => rfl) (fun _ => rfl) (fun _ => rfl) (fun _ => ⟨rfl, rfl⟩) fun _ => ⟨rfl, rfl⟩
  have hshown : Quiet (Subtest.Ends early)
      (M.modify fun s => { s with finfoDisplayed := true } : M Unit) :=
    quiet_modify (fun _ => rfl) (fun _ => rfl) (fun _ => rfl) (fun _ => ⟨rfl, rfl⟩) fun _ => ⟨rfl, rfl⟩
  have hrest (s : Subtest) : Quiet (Subtest.Ends early)
      (if s.mightfail = true then do
        M.modify fun s => { s with rval := 0 }
        Test.done
      else Test.done) :=
    Quiet.ite (fun _ => quiet_bind hpass fun _ => quiet_done) fun _ => quiet_done
  refine Quiet.get fun s => Quiet.ite (fun _ => quiet_bind hpass fun _ => quiet_done) fun _ => ?_
  exact Quiet.ite (fun _ => quiet_bind hshown fun _ => hrest s) fun _ => hrest s

theorem TestEarlyCancel.quiet_alldone (hsup : Quiet (Subtest.Ends true) sup) :
    Quiet (Subtest.Ends true) (TestEarlyCancel.alldone sup) := by
  unfold TestEarlyCancel.alldone
  have hring : Quiet (Subtest.Ends true) (M.modify fun s => { s with ringDone := true } : M Unit) :=
    Quiet.modify fun _ =>
      ⟨rfl, le_rfl, ⟨0, by simp⟩, fun h => ⟨h, rfl⟩, nofun, fun _ => rfl, id⟩
  have herr : Quiet (Subtest.Ends true) (do M.addErr; sup) := quiet_bind quiet_addErr fun _ => hsup
  refine Quiet.get fun s => Quiet.ite (fun _ => ?_) fun _ => herr
  cases s.acct with
  | none => exact quiet_bind (Quiet.raise .refl _) fun _ => hsup
  | some acct =>
      refine Quiet.ite (fun _ => ?_) fun _ => herr
      exact quiet_bind hring fun _ => quiet_bind quiet_setConnectDone fun _ => hsup

theorem TestReinvite.quiet_alldone (hsup : Quiet (Subtest.Ends early) sup) :
    Quiet (Subtest.Ends early) (TestReinvite.alldone sup) := by
  unfold TestReinvite.alldone
  exact Quiet.get fun _ => Quiet.ite (fun _ => quiet_bind quiet_addErr fun _ => hsup)
    fun _ => hsup

theorem BTestReinvOnhold.quiet_alldone (hsup : Quiet (Subtest.Ends early) sup) :
    Quiet (Subtest.Ends early) (BTestReinvOnhold.alldone sup) := by
  unfold BTestReinvOnhold.alldone
  have hshown : Quiet (Subtest.Ends early)
      (M.modify fun s => { s with finfoDisplayed := true } : M Unit) :=
    quiet_modify (fun _ => rfl) (fun _ => rfl) (fun _ => rfl) (fun _ => ⟨rfl, rfl⟩) fun _ => ⟨rfl, rfl⟩
  exact Quiet.get fun _ => Quiet.ite
    (fun _ => quiet_bind hshown fun _ => quiet_bind quiet_addErr fun _ => hsup) fun _ => hsup

/-- **`alldone` never calls out**, and changes little. -/
theorem quiet_alldone {mro : List PyClass} (h : .testEarlyCancel ∈ mro → early = true) :
    Quiet (Subtest.Ends early) (alldone mro) := by
  fun_induction alldone mro with
  | case1 => exact Quiet.raise .refl _
  | case2 => exact quiet_passIf _
  | case3 => exact quiet_passIf _
  | case4 => exact quiet_passIf _
  | case5 => exact quiet_passIf _
  | case6 => exact quiet_passIf _
  | case7 => exact quiet_passIf _
  | case8 => exact quiet_passIf _
  | case9 _ ih =>
      exact BTestReinvOnhold.quiet_alldone (ih fun hm => h (List.mem_cons_of_mem _ hm))
  | case10 _ ih =>
      have he := h List.mem_cons_self
      subst he
      exact TestEarlyCancel.quiet_alldone (ih fun _ => rfl)
  | case11 _ ih => exact TestReinvite.quiet_alldone (ih fun hm => h (List.mem_cons_of_mem _ hm))
  | case12 => exact Test.quiet_alldone
  | case13 _ _ _ _ _ _ _ _ _ _ _ _ _ ih => exact ih fun hm => h (List.mem_cons_of_mem _ hm)

end Quiet

/-! ## the verdict -/

/-- An error counted before is fatal, whatever the class. -/
theorem passes_eq_false {mro : List PyClass} {s : Subtest} (h : s.nerrs ≠ 0) :
    passes mro s = false := by
  fun_induction passes mro s with
  | case1 => rfl
  | case9 _ _ ih => simp [ih h]
  | case10 _ _ ih => simp [ih h]
  | case11 _ _ ih => simp [ih h]
  | case13 _ _ _ _ _ _ _ _ _ _ _ _ _ _ ih => exact ih h
  | _ => simp [h]

/-- Whatever the class, the call has been torn down. -/
theorem disconnectDone_of_passes {mro : List PyClass} {s : Subtest} (h : passes mro s = true) :
    s.disconnectDone = true := by
  fun_induction passes mro s with
  | case1 => cases h
  | case9 _ _ ih =>
      rw [Bool.and_eq_true] at h
      exact ih h.2
  | case10 =>
      simp only [Bool.and_eq_true] at h
      exact h.1.1
  | case11 _ _ ih =>
      rw [Bool.and_eq_true] at h
      exact ih h.2
  | case13 _ _ _ _ _ _ _ _ _ _ _ _ _ _ ih => exact ih h
  | _ =>
      simp only [Bool.and_eq_true] at h
      simp [h]

/-- What `test_reinvite` adds to the condition. -/
theorem reinviteDone_of_passes {mro : List PyClass} {s : Subtest} (h : passes mro s = true)
    (ha : asksReinvite mro = true) (hi : s.reinviteIval.isSome = true) :
    s.reinviteDone = true := by
  fun_induction passes mro s with
  | case9 sup _ ih =>
      rw [Bool.and_eq_true] at h
      exact ih h.2 ha hi
  | case10 sup _ ih =>
      rw [Bool.and_eq_true] at h
      exact ih h.2 ha hi
  | case11 sup s =>
      rw [Bool.and_eq_true, Bool.or_eq_true, Bool.and_eq_true] at h
      rcases h.1 with hnone | hdone
      · rw [Option.isNone_iff_eq_none] at hnone
        rw [hnone] at hi
        cases hi
      · exact hdone.1
  | case13 c sup _ _ _ _ _ _ _ _ _ _ _ _ ih =>
      refine ih h ?_ hi
      rw [asksReinvite] at ha <;> assumption
  | _ => cases ha

/-- The condition looks neither at the chronicle nor outside. -/
theorem passes_outside {mro : List PyClass} {s : Subtest} (env : Env) (log : List Obs) :
    passes mro { s with env := env, log := log } = passes mro s := by
  fun_induction passes mro s with
  | case9 _ _ ih => simp only [passes, ih]
  | case10 _ s ih =>
      have ih' : passes _ { s with ringDone := true, connectDone := true, env := env, log := log } = _ := ih
      simp only [passes, ih']
  | case11 _ _ ih => simp only [passes, ih]
  | case13 c sup _ _ _ _ _ _ _ _ _ _ _ _ ih => rw [passes, ih] <;> simp_all
  | _ => rfl

/-- What `alldone` reports of an object that is open. -/
def judged (mro : List PyClass) (s : Subtest) : Int :=
  if honours mro && s.mightfail || passes mro s then 0 else s.rval

theorem judged_outside {mro : List PyClass} {s : Subtest} (env : Env) (log : List Obs) :
    judged mro { s with env := env, log := log } = judged mro s := by
  rw [judged, passes_outside, judged]

theorem judged_of_nerrs {mro : List PyClass} {s : Subtest} (h : s.nerrs ≠ 0) :
    judged mro s = if honours mro && s.mightfail then 0 else s.rval := by
  rw [judged, passes_eq_false h, Bool.or_false]

/-- `alldone` has reported `rval` for the object `s`, or raised before. -/
def Reported (s : Subtest) (rval : Int) : Stop Exc UaCall Unit → Subtest → Prop
  | .ret _, s' => s'.doneCalled = true ∧
      ∃ n, s'.report = some ⟨rval, s.log ++ List.replicate n .connectDone⟩
  | .raise _, s' => s'.report = s.report ∧ s'.rval = s.rval ∧ s'.Open
  | .call _, _ => False

theorem reported_done {s s₁ : Subtest} (h : s₁.Open) (hlog : s₁.log = s.log) :
    (Test.done s₁).Until (Reported s s₁.rval) := by
  rw [Test.done_eq h]
  exact ⟨rfl, 0, by simp [Subtest.finished, hlog]⟩

theorem Reported.of_log {s s₁ s' : Subtest} {rval : Int} {stop : Stop Exc UaCall Unit}
    (h : Reported s₁ rval stop s') (hreport : s₁.report = s.report) (hrval : s₁.rval = s.rval)
    {m : Nat} (hlog : s₁.log = s.log ++ List.replicate m .connectDone) :
    Reported s rval stop s' := by
  cases stop with
  | ret a =>
      obtain ⟨hd, n, hn⟩ := h
      refine ⟨hd, m + n, ?_⟩
      rw [hn, hlog, List.append_assoc, List.replicate_add]
  | raise e => exact ⟨h.1.trans hreport, h.2.1.trans hrval, h.2.2⟩
  | call c => exact h.elim

theorem reported_passIf {cond : Subtest → Bool} {s : Subtest} (h : s.Open) :
    (Test.passIf cond s).Until (Reported s (if cond s then 0 else s.rval)) := by
  unfold Test.passIf
  cases hc : cond s
  · simpa [hc] using reported_done h rfl
  · have hs : Subtest.Open { s with rval := 0 } := ⟨h.inited, h.closing, h.doneCalled⟩
    simpa [hc] using reported_done (s := s) hs rfl

theorem Test.reported_alldone {s : Subtest} (h : s.Open) :
    (Test.alldone s).Until (Reported s (if s.mightfail ||
      (s.ringDone && s.connectDone && s.disconnectDone && s.nerrs = 0) then 0 else s.rval)) := by
  unfold Test.alldone
  have hpass (b : Bool) : Subtest.Open { s with rval := 0, finfoDisplayed := b } :=
    ⟨h.inited, h.closing, h.doneCalled⟩
  have hfail (b : Bool) : Subtest.Open { s with finfoDisplayed := b } :=
    ⟨h.inited, h.closing, h.doneCalled⟩
  generalize hc : (s.ringDone && s.connectDone && s.disconnectDone && s.nerrs = 0) = c
  simp only [Prog.bind_apply, Prog.get_apply, Out.bind_ret, hc]
  cases c with
  | true => simpa using reported_done (s := s) (hpass s.finfoDisplayed) rfl
  | false =>
      cases hm : s.mightfail <;> cases hf : s.finfoDisplayed
      · simpa [hm, hf] using reported_done (s := s) (hfail true) rfl
      · simpa [hm, hf] using reported_done h rfl
      · simpa [hm, hf] using reported_done (s := s) (hpass true) rfl
      · simpa [hm, hf] using reported_done (s := s) (hpass s.finfoDisplayed) rfl

/-- The rest of `alldone` after an error has been added. -/
theorem reported_addErr {mro : List PyClass} {s : Subtest} (finfoDisplayed : Bool) (h : s.Open)
    (ih : ∀ {s : Subtest}, s.Open → (alldone mro s).Until (Reported s (judged mro s))) :
    (alldone mro { s with finfoDisplayed := finfoDisplayed, nerrs := s.nerrs + 1 }).Until
      (Reported s (if honours mro && s.mightfail then 0 else s.rval)) := by
  have hs : Subtest.Open { s with finfoDisplayed := finfoDisplayed, nerrs := s.nerrs + 1 } :=
    ⟨h.inited, h.closing, h.doneCalled⟩
  have hr := ih hs
  rw [judged_of_nerrs (Nat.succ_ne_zero s.nerrs)] at hr
  exact hr.mono fun stop s' hstop => hstop.of_log (m := 0) rfl rfl (by simp)

theorem BTestReinvOnhold.reported_alldone {sup : List PyClass} {s : Subtest} (h : s.Open)
    (ih : ∀ {s : Subtest}, s.Open → (VoipTests.alldone sup s).Until (Reported s (judged sup s))) :
    (BTestReinvOnhold.alldone (VoipTests.alldone sup) s).Until
      (Reported s (judged (.b .reinvOnhold :: sup) s)) := by
  unfold BTestReinvOnhold.alldone
  by_cases hc : s.onholdCount ≠ 3 ∨ s.offholdCount ≠ 2
  · have hj : judged (.b .reinvOnhold :: sup) s =
        if honours sup && s.mightfail then 0 else s.rval := by
      have hp : passes (.b .reinvOnhold :: sup) s = false := by
        rcases hc with hc | hc <;> simp [passes, hc]
      rw [judged, hp, Bool.or_false, honours]
      all_goals simp
    have hr := reported_addErr true h ih
    simpa [hj, hc, M.addErr] using hr
  · have hj : judged (.b .reinvOnhold :: sup) s = judged sup s := by
      rw [not_or, not_not, not_not] at hc
      simp [judged, honours, passes, hc]
    simpa [hj, hc] using ih h

theorem TestReinvite.reported_alldone {sup : List PyClass} {s : Subtest} (h : s.Open)
    (ih : ∀ {s : Subtest}, s.Open → (VoipTests.alldone sup s).Until (Reported s (judged sup s))) :
    (TestReinvite.alldone (VoipTests.alldone sup) s).Until
      (Reported s (judged (.testReinvite :: sup) s)) := by
  unfold TestReinvite.alldone
  generalize hc : (s.reinviteIval.isSome && (!s.reinviteDone || !s.disconnectDone)) = c
  simp only [Prog.bind_apply, Prog.get_apply, Out.bind_ret, hc]
  cases c with
  | true =>
      have hp : passes (.testReinvite :: sup) s = false := by
        cases hi : s.reinviteIval <;> cases hr : s.reinviteDone <;> cases hd : s.disconnectDone <;>
          simp_all [passes]
      have hj : judged (.testReinvite :: sup) s =
          if honours sup && s.mightfail then 0 else s.rval := by
        rw [judged, hp, Bool.or_false, honours]
        all_goals simp
      have hr := reported_addErr s.finfoDisplayed h ih
      simpa [hj, M.addErr] using hr
  | false =>
      have hj : judged (.testReinvite :: sup) s = judged sup s := by
        cases hi : s.reinviteIval <;> cases hr : s.reinviteDone <;> cases hd : s.disconnectDone <;>
          simp_all [judged, honours, passes]
      simpa [hj] using ih h

theorem TestEarlyCancel.reported_alldone {sup : List PyClass} {s : Subtest} (h : s.Open)
    (ih : ∀ {s : Subtest}, s.Open → (VoipTests.alldone sup s).Until (Reported s (judged sup s))) :
    (TestEarlyCancel.alldone (VoipTests.alldone sup) s).Until
      (Reported s (judged (.testEarlyCancel :: sup) s)) := by
  unfold TestEarlyCancel.alldone
  have herr (hp : passes (.testEarlyCancel :: sup) s = false) :
      (VoipTests.alldone sup { s with nerrs := s.nerrs + 1 }).Until
        (Reported s (judged (.testEarlyCancel :: sup) s)) := by
    have hj : judged (.testEarlyCancel :: sup) s =
        if honours sup && s.mightfail then 0 else s.rval := by
      rw [judged, hp, Bool.or_false, honours]
      all_goals simp
    rw [hj]
    exact reported_addErr s.finfoDisplayed h ih
  cases hd : s.disconnectDone with
  | false => simpa [hd, M.addErr] using herr (by simp [passes, hd])
  | true =>
      cases ha : s.acct with
      | none => simpa [hd, ha] using ⟨rfl, rfl, h⟩
      | some acct =>
          cases hc : cancelled s.cls.maxDelay acct with
          | false => simpa [hd, ha, hc, M.addErr] using herr (by simp [passes, hd, ha, hc])
          | true =>
              have hs : Subtest.Open
                  ({ s with ringDone := true, connectDone := true }.note .connectDone) :=
                ⟨h.inited, h.closing, h.doneCalled⟩
              have hj : judged sup ({ s with ringDone := true, connectDone := true }.note .connectDone) =
                  judged (.testEarlyCancel :: sup) s := by
                rw [Subtest.note, judged_outside s.env]
                simp [judged, passes, honours, hd, ha, hc]
              have hr := (ih hs).mono fun stop s' hstop =>
                hstop.of_log (s := s) (m := 1) rfl rfl rfl
              rw [hj] at hr
              simpa [hd, ha, hc, M.setConnectDone] using hr

/-- **What `alldone` reports**, for every class. -/
theorem reported_alldone {mro : List PyClass} {s : Subtest} (h : s.Open) :
    (alldone mro s).Until (Reported s (judged mro s)) := by
  fun_induction alldone mro generalizing s with
  | case1 => exact ⟨rfl, rfl, h⟩
  | case2 => exact reported_passIf h
  | case3 => exact reported_passIf h
  | case4 => exact reported_passIf h
  | case5 => exact reported_passIf h
  | case6 => exact reported_passIf h
  | case7 => exact reported_passIf h
  | case8 => exact reported_passIf h
  | case9 sup ih => exact BTestReinvOnhold.reported_alldone h ih
  | case10 sup ih => exact TestEarlyCancel.reported_alldone h ih
  | case11 sup ih => exact TestReinvite.reported_alldone h ih
  | case12 => simpa [judged, honours, passes] using Test.reported_alldone h
  | case13 c sup _ _ _ _ _ _ _ _ _ _ _ ih =>
      have hj : judged (c :: sup) s = judged sup s := by
        simp only [judged]
        rw [honours, passes] <;> simp_all
      rw [hj]
      exact ih h

theorem nerrs_done {s : Subtest} (h : s.Open) :
    (Test.done s).Until fun _ s' => s'.nerrs = s.nerrs := by
  rw [Test.done_eq h]
  rfl

theorem nerrs_passIf {cond : Subtest → Bool} {s : Subtest} (h : s.Open) (hn : s.nerrs = 0) :
    (Test.passIf cond s).Until fun _ s' => s'.nerrs = 0 := by
  unfold Test.passIf
  rw [Prog.bind_apply, Prog.get_apply, Out.bind_ret, Prog.ite_apply]
  split
  · have hs : Subtest.Open { s with rval := 0 } := ⟨h.inited, h.closing, h.doneCalled⟩
    exact (nerrs_done hs).mono fun _ _ he => he.trans hn
  · exact (nerrs_done h).mono fun _ _ he => he.trans hn

/-- A pass is reported without an error having been counted on the way. -/
theorem nerrs_alldone {mro : List PyClass} {s : Subtest} (h : s.Open)
    (hp : passes mro s = true) : (alldone mro s).Until fun _ s' => s'.nerrs = 0 := by
  have hn : s.nerrs = 0 := by
    by_contra hne
    rw [passes_eq_false hne] at hp
    cases hp
  fun_induction alldone mro generalizing s with
  | case1 => exact hn
  | case9 sup ih =>
      simp only [passes, Bool.and_eq_true, decide_eq_true_eq] at hp
      obtain ⟨⟨hon, hoff⟩, hp⟩ := hp
      unfold BTestReinvOnhold.alldone
      rw [Prog.bind_apply, Prog.get_apply, Out.bind_ret, if_neg (by omega)]
      exact ih h hp hn
  | case10 sup ih =>
      simp only [passes, Bool.and_eq_true] at hp
      obtain ⟨⟨hd, ha⟩, hp⟩ := hp
      obtain ⟨acct, hacct, hc⟩ := (Option.any_eq_true _ _).mp ha
      have hs : Subtest.Open ({ s with ringDone := true, connectDone := true }.note .connectDone) :=
        ⟨h.inited, h.closing, h.doneCalled⟩
      have hp' : passes sup ({ s with ringDone := true, connectDone := true }.note .connectDone) =
          true := by
        rw [Subtest.note, passes_outside s.env]
        exact hp
      simpa [TestEarlyCancel.alldone, hd, hacct, hc, M.setConnectDone] using ih hs hp' hn
  | case11 sup ih =>
      simp only [passes, Bool.and_eq_true, Bool.or_eq_true] at hp
      obtain ⟨hi, hp⟩ := hp
      have hok : (s.reinviteIval.isSome && (!s.reinviteDone || !s.disconnectDone)) = false := by
        cases hival : s.reinviteIval with
        | none => rfl
        | some ival =>
            rw [hival] at hi
            simpa using hi
      unfold TestReinvite.alldone
      rw [Prog.bind_apply, Prog.get_apply, Out.bind_ret, hok]
      exact ih h hp hn
  | case12 =>
      have hs : Subtest.Open { s with rval := 0 } := ⟨h.inited, h.closing, h.doneCalled⟩
      rw [passes] at hp
      unfold Test.alldone
      rw [Prog.bind_apply, Prog.get_apply, Out.bind_ret, hp]
      exact (nerrs_done hs).mono fun _ _ he => he.trans hn
  | case13 c sup _ _ _ _ _ _ _ _ _ _ _ ih =>
      rw [passes] at hp <;> first | assumption | exact ih h hp hn
  | _ => exact nerrs_passIf h hn

end VoipTests
