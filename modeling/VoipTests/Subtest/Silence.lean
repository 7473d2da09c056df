import VoipTests.Subtest.Opening

/-!
# VoipTests.Subtest.Silence

After the disconnect: what the timers of a subtest still send.

No timer is ever cancelled, so each callback has to look at `disconnect_done`
itself.  Two do not: `b_test3.connect`, which asks for `connect_done` twice,
and the delayed answer to a re-INVITE.  `silent_iff` says that these are all.
-/

namespace VoipTests

open Callback

variable {p : Setup} {s s' s₁ s₂ : Subtest} {t : Timer} {cb : Cb}

/-! ## what a step adds to the chronicle -/

/-- Nothing is handed to the UA between the two states. -/
def Subtest.Mute (s s' : Subtest) : Prop := ∃ l, s'.log = s.log ++ l ∧ ∀ ev, .inject ev ∉ l

theorem Subtest.Mute.trans (h : s.Mute s₁) (h' : s₁.Mute s₂) : s.Mute s₂ := by
  obtain ⟨l, hl, hn⟩ := h
  obtain ⟨l', hl', hn'⟩ := h'
  refine ⟨l ++ l', by rw [hl', hl, List.append_assoc], fun ev hmem => ?_⟩
  exact (List.mem_append.mp hmem).elim (hn ev) (hn' ev)

theorem Subtest.Mute.note {o : Obs} (h : s.Mute s') (ho : ∀ ev, o ≠ .inject ev) : s.Mute (s'.note o) :=
  h.trans ⟨[o], rfl, fun ev hmem => ho ev (List.mem_singleton.mp hmem).symm⟩

/-- An exception has left a callback. -/
theorem Subtest.Mute.caught (h : s.Mute s') (e : Exc) : s.Mute (machine.caught e s') :=
  h.note (o := .raised e) nofun

theorem Subtest.Stays.mute {ts : List Timer} (h : s.Stays s' ts) : s.Mute s' := by
  obtain ⟨l, hl, hmark⟩ := h.log
  refine ⟨l, hl, fun ev hmem => ?_⟩
  cases hmark _ hmem

theorem Subtest.mute_entered {env : Env} : s.Mute (s.entered cb env) :=
  ⟨[cb.obs s], rfl, fun ev hmem => by cases cb <;> cases List.mem_singleton.mp hmem⟩

/-- The state after a stretch that sent nothing. -/
theorem mute_land {stop : Stop Exc UaCall Unit} (h : s.Mute s') (hcall : ∀ c, stop ≠ .call c) :
    s.Mute (machine.land stop s') := by
  cases stop with
  | ret a => exact h
  | raise e => exact h.caught e
  | call c => exact (hcall c rfl).elim

/-! ## the two timers that do not look -/

/-- A timer that sends something after the disconnect: `connect` of `b_test3`
and the classes under it, before anything was sent as the final response, and
the delayed answer to a re-INVITE, which takes a body in `ua.lSDP`. -/
def Subtest.Blurts (s : Subtest) (t : Timer) : Prop :=
  (t.cb = .connect ∧ s.cls.isA (.b .t3) = true ∧ s.connectDone = false) ∨
    (t.cb = .processReinvite ∧ s.ua.lSDP.isSome = true)

instance (s : Subtest) (t : Timer) : Decidable (s.Blurts t) :=
  inferInstanceAs (Decidable (_ ∨ _))

/-- **What a timer sends** after the disconnect, it sends from one of the two
places. -/
theorem Sends.blurts {ev : CCEvent} (h : Sends s (.timer t) ev s') (hd : s.disconnectDone = true) :
    s.Blurts t := by
  cases h with
  | ring _ _ hopen => simp [hd] at hopen
  | failRing _ _ hopen => simp [hd] at hopen
  | connect _ _ hopen => simp [hd] at hopen
  | failConnect ht _ hopen =>
      cases hc : s.cls.isA (.b .t3) with
      | true => exact .inl ⟨ht, hc, hopen.1⟩
      | false =>
          rw [hopen.2 hc] at hd
          cases hd
  | hangUp _ hopen => simp [hd] at hopen
  | reinvite _ hopen => simp [hd] at hopen
  | answer hcb hl =>
      obtain ⟨t', ht, hcb⟩ | ⟨⟨body, hbody⟩, -⟩ := hcb
      · cases ht
        exact .inr ⟨hcb, hl⟩
      · cases hbody

theorem mro_b_t3 : (PyClass.b .t3).mro = [.b .t3, .b .t1, .test] := by decide

theorem mro_b_t8 : (PyClass.b .t8).mro = [.b .t8, .b .t3, .b .t1, .test] := by decide

theorem BTest3.connect_eq (hc : s.cls.isA (.b .t3) = true) :
    VoipTests.connect s.cls.mro = BTest3.connect := by
  have hcls : s.cls = .b .t3 ∨ s.cls = .b .t8 := by
    cases hcls : s.cls with
    | b scn =>
        rw [hcls] at hc
        cases scn <;> first | exact .inl rfl | exact .inr rfl | exact absurd hc (by decide +kernel)
    | a scn =>
        rw [hcls] at hc
        cases scn <;> exact absurd hc (by decide +kernel)
    | _ =>
        rw [hcls] at hc
        exact absurd hc (by decide +kernel)
  rcases hcls with hcls | hcls
  · rw [hcls, mro_b_t3]
    rfl
  · rw [hcls, mro_b_t8]
    rfl

/-- The program hands an event to the UA, if it comes to anything. -/
abbrev Speaks {α : Type} (o : Out Subtest Exc UaCall α) : Prop :=
  o.Until fun
    | .call (.recvEvent _), _ => True
    | _, _ => False

theorem BTest3.speaks_connect (hc : s.connectDone = false) : Speaks (BTest3.connect s) := by
  unfold BTest3.connect
  rw [Prog.bind_apply, Prog.get_apply, Out.bind_ret, if_pos (by simp [hc])]
  exact trivial

/-- The program returns, if it comes to an end. -/
abbrev Finishes {α : Type} (o : Out Subtest Exc UaCall α) : Prop :=
  o.Until fun
    | .ret _, _ => True
    | _, _ => False

/-- Where code after such a program stops. -/
theorem Finishes.bind {α β : Type} {p : M α} {f : α → M β} {P : Stop Exc UaCall β → Subtest → Prop}
    (hp : Finishes (p s)) (hf : ∀ a s, (f a s).Until P) : ((p >>= f) s).Until P :=
  Out.Until.bind hp (fun a s₁ _ => hf a s₁) (fun _ _ h => h.elim) fun _ _ h => h.elim

theorem Test.finishes_rtpPortAlloc : Finishes (Test.rtpPortAlloc s) := by
  unfold Test.rtpPortAlloc
  rw [Prog.bind_apply, Prog.get_apply, Out.bind_ret]
  cases s.tccfg.portrange.gennotinrange s.env.draws with
  | none => exact trivial
  | some r => exact trivial

/-- Ports can always be allocated. -/
theorem finishes_alterPorts (sects : List Section) : Finishes (alterPorts sects s) := by
  induction sects generalizing s with
  | nil => exact trivial
  | cons sect sects ih =>
      rw [alterPorts]
      refine until_ite (fun _ => Finishes.bind ih fun _ _ => trivial) fun _ => ?_
      exact Test.finishes_rtpPortAlloc.bind fun _ _ => Finishes.bind ih fun _ _ => trivial

theorem TestReinvite.speaks_answerReinvite (hl : s.ua.lSDP.isSome = true) :
    Speaks (TestReinvite.answerReinvite s) := by
  obtain ⟨lSDP, hl⟩ := Option.isSome_iff_exists.mp hl
  unfold TestReinvite.answerReinvite
  rw [Prog.bind_apply, Prog.get_apply, Out.bind_ret, hl]
  exact (finishes_alterPorts _).bind fun _ _ => trivial

theorem speaks_of_blurts {s₁ : Subtest} {env : Env} (h : s.Blurts t)
    (hs₁ : s₁ = s.entered (.timer t) env) : Speaks (t.cb.body s₁.cls.mro s₁) := by
  subst hs₁
  rcases h with ⟨ht, hc, hcon⟩ | ⟨ht, hl⟩
  · rw [ht]
    show Speaks (connect (s.entered (.timer t) env).cls.mro (s.entered (.timer t) env))
    rw [BTest3.connect_eq (s := s.entered (.timer t) env) hc]
    exact BTest3.speaks_connect hcon
  · rw [ht]
    exact TestReinvite.speaks_answerReinvite hl

/-! ## runs -/

/-- After the disconnect, a timer, or the code that goes on as the UA returns,
hands nothing to the UA. -/
def SilentOnceDisconnected (y : Sys) (a : Act) : Prop :=
  y.st.disconnectDone = true → (∀ i, a = .enter i → ∃ t, i.cb = .timer t) →
    ∀ y', machine.step y a = some y' → y.st.Mute y'.st

/-- No timer fires after the disconnect that does not look at the flag. -/
def LooksBefore (y : Sys) : Act → Prop
  | .enter ⟨.timer t, _⟩ => y.st.disconnectDone = true → ¬ y.st.Blurts t
  | _ => True

/-- **One step** after the disconnect. -/
theorem mute_of_staged {g g' : Stage Subtest UaCall} {a : Act} (h : Staged g a g')
    (hd : g.st.disconnectDone = true) (hlooks : LooksBefore ⟨g.st, []⟩ a)
    (htimer : ∀ i, a = .enter i → ∃ t, i.cb = .timer t) : g.st.Mute g'.st := by
  cases h with
  | @enter i s s₁ s₂ cs stop he hP =>
      obtain ⟨t, ht⟩ := htimer i rfl
      obtain ⟨cb, env⟩ := i
      subst ht
      obtain ⟨-, rfl⟩ := entry_eq_entered he
      have hsilent (h : Silent (.timer t) (s.entered (.timer t) env) s₂) : s.Mute s₂ := by
        obtain ⟨ts, hstays, -⟩ := h.stays
        exact Subtest.mute_entered.trans hstays.mute
      cases stop with
      | ret a => exact mute_land (hsilent hP) nofun
      | raise e => exact mute_land (hsilent hP) nofun
      | call c =>
          cases c with
          | recvRequest => exact hP.elim
          | recvEvent ev =>
              have hblurts : (s.entered (.timer t) env).Blurts t := Sends.blurts hP hd
              exact (hlooks hd hblurts).elim
  | ret hT =>
      obtain ⟨ts, hstays, -⟩ := hT.stays
      exact hstays.mute
  | retRaise hT =>
      obtain ⟨ts, hstays, -⟩ := hT.stays
      exact hstays.mute.caught _
  | throw => exact Subtest.Mute.caught ⟨[], by simp⟩ _

/-- **The two timers are heard**, whenever they fire after the disconnect. -/
theorem not_mute_of_blurts {y y' : Sys} {env : Env} (h : y.st.Blurts t)
    (hs : machine.step y (.enter ⟨.timer t, env⟩) = some y') : ¬ y.st.Mute y'.st := by
  obtain ⟨s₁, he, -⟩ := Option.bind_eq_some_iff.mp hs
  obtain ⟨-, heq⟩ := entry_eq_entered he
  obtain ⟨stop, s₂, hstop, hst⟩ := Machine.step_enter_until he
    ((speaks_of_blurts h heq).and (strides_body _ _ _ _ he).until) hs
  obtain ⟨hspeaks, hstride⟩ := hstop
  cases stop with
  | ret a => exact hspeaks.elim
  | raise e => exact hspeaks.elim
  | call c =>
      cases c with
      | recvRequest => exact hspeaks.elim
      | recvEvent ev =>
          obtain ⟨ts, hleads⟩ := Sends.leads hstride
          obtain ⟨l, hl, -⟩ := hleads.log
          rintro ⟨l', hl', hn⟩
          refine hn ev ?_
          have hlog : y.st.log ++ l' = y.st.log ++ ([.fired t.cb] ++ l ++ [.inject ev]) := by
            rw [← hl', hst]
            show s₂.log ++ _ = _
            rw [hl, heq]
            simp [Subtest.entered, Subtest.note, Cb.obs]
          rw [List.append_cancel_left hlog]
          simp

/-- **Silence after the disconnect.**  In any run the timers are silent after
the disconnect, if and only if neither of the two timers fires then that do not
look at the flag. -/
theorem silent_iff {acts : List Act} {y₀ y : Sys} (hstart : p.start = some y₀)
    (h : Run.exec machine.step y₀ acts = some y) :
    Run.Meets machine.step SilentOnceDisconnected y₀ acts ↔
      Run.Meets machine.step LooksBefore y₀ acts := by
  refine Run.meets_congr (P := fun y => ∃ cs, Pending y cs) (fun y a y' hy hs => ?_)
    (Setup.pending_of_start hstart) h
  obtain ⟨cs, hcs⟩ := hy
  obtain ⟨cs', hstaged, hcs'⟩ := staged_of_step hcs hs
  refine ⟨⟨fun hsilent => ?_, fun hlooks hd htimer y₂ hs₂ => ?_⟩, fun _ => ⟨cs', hcs'⟩⟩
  · unfold LooksBefore
    split
    · next t env => exact fun hd hb =>
        not_mute_of_blurts hb hs (hsilent hd (fun i hi => ⟨t, by cases hi; rfl⟩) y' hs)
    · trivial
  · rw [hs, Option.some.injEq] at hs₂
    subst hs₂
    exact mute_of_staged hstaged hd hlooks htimer

/-! ## a call that is cancelled while it rings -/

instance (y : Sys) : (a : Act) → Decidable (LooksBefore y a)
  | .enter ⟨.timer t, _⟩ =>
    inferInstanceAs (Decidable (y.st.disconnectDone = true → ¬ y.st.Blurts t))
  | .enter ⟨.event _, _⟩ => inferInstanceAs (Decidable True)
  | .enter ⟨.connected, _⟩ => inferInstanceAs (Decidable True)
  | .enter ⟨.disconnected _ _, _⟩ => inferInstanceAs (Decidable True)
  | .enter ⟨.dead, _⟩ => inferInstanceAs (Decidable True)
  | .enter ⟨.inDialogInvite _, _⟩ => inferInstanceAs (Decidable True)
  | .ret _ => inferInstanceAs (Decidable True)
  | .throw _ => inferInstanceAs (Decidable True)

/-- Bob rings, and Alice hangs up. -/
def Sample.cancelled : List Act :=
  [.ret env, enter (.timer ⟨.ring, 5⟩), .ret env, enter (.disconnected .caller ⟨0, 1, false, true⟩)]

/-- The timer for the answer, as the draw has it. -/
def Sample.answering : Act := enter (.timer ⟨.connect, 161 / 20⟩)

/-- Bob of `t3` goes on to answer with 501. -/
theorem not_silent_t3 : ¬ ∀ (p : Setup) (acts : List Act) (t : Timer) (env : Env) (y y' : Sys),
    p.Reaches acts y → y.st.disconnectDone = true →
      machine.step y (.enter ⟨.timer t, env⟩) = some y' → y.st.Mute y'.st := by
  intro hall
  have hrun : ((Sample.bob .t3 false).run Sample.cancelled).map (fun y : Sys =>
      decide (y.st.disconnectDone = true ∧ y.st.Blurts ⟨.connect, 161 / 20⟩ ∧
        (machine.step y Sample.answering).isSome = true)) = some true := by
    decide +kernel
  obtain ⟨y, hreach, hf⟩ := Setup.exists_of_run hrun
  obtain ⟨hd, hb, hsome⟩ := of_decide_eq_true hf
  obtain ⟨y', hs⟩ := Option.isSome_iff_exists.mp hsome
  exact not_mute_of_blurts hb hs (hall _ _ _ _ y y' hreach hd hs)

/-- Bob of `t1` says nothing more. -/
theorem silent_t1 : ∃ y₀, (Sample.bob .t1 false).start = some y₀ ∧
    Run.Meets machine.step SilentOnceDisconnected y₀ (Sample.cancelled ++ [Sample.answering]) := by
  have hrun : ((Sample.bob .t1 false).start.bind fun y₀ =>
      (Run.exec machine.step y₀ (Sample.cancelled ++ [Sample.answering])).map fun _ =>
        decide (Run.Meets machine.step LooksBefore y₀ (Sample.cancelled ++ [Sample.answering]))) =
          some true := by
    decide +kernel
  obtain ⟨y₀, hstart, hrun⟩ := Option.bind_eq_some_iff.mp hrun
  obtain ⟨y, hexec, hf⟩ := Option.map_eq_some_iff.mp hrun
  exact ⟨y₀, hstart, (silent_iff hstart hexec).mpr (of_decide_eq_true hf)⟩

end VoipTests
