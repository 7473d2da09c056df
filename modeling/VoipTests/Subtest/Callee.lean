import VoipTests.Subtest.Grammar
import VoipTests.Subtest.MustFail
import VoipTests.Subtest.Pair

/-!
# VoipTests.Subtest.Callee

What a pass of Bob's says about the call.

`connect_done` is set where the UA has been handed a final response, and the timer
for that one where it has been handed the 180 (`Responding`).  So a subtest that has
reported 0 has answered its INVITE as its class does (`Served`).
-/

namespace VoipTests

open Callback

variable {p : Setup} {s s' s₂ : Subtest} {cb : Cb} {env : Env} {ts : List Timer} {t : Timer}

/-! ## what has been sent -/

/-- The classes that answer an INVITE with a failure. -/
def PyClass.declines (cls : PyClass) : Bool :=
  cls.isA (.b .t3) || cls.isA (.b .t4) || cls.isA (.b .t5)

/-- The 180, or the 183, has been sent. -/
def Rung (handed : List (Option Obs × CCEvent)) : Prop :=
  ∃ ev ∈ responses handed, ev.isRing = true

/-- The INVITE has been given its final response, which comes after the 180 but
in `b_test4`. -/
structure Responded (cls : PyClass) (handed : List (Option Obs × CCEvent)) : Prop where
  final : ∃ ev ∈ responses handed, ev.isFinal = true ∧ (cls.declines = false → ev.isConnect = true)
  rung : cls.isA (.b .t4) = false → Rung handed

theorem mem_responses_concat {handed : List (Option Obs × CCEvent)} {ev : CCEvent}
    (h : ev ∈ responses handed) (x : Option Obs × CCEvent) : ev ∈ responses (handed ++ [x]) := by
  rw [responses_concat]
  exact List.mem_append_left _ h

theorem mem_responses_of_fromInvite {x : Option Obs × CCEvent} (h : fromInvite x = true)
    (handed : List (Option Obs × CCEvent)) : x.2 ∈ responses (handed ++ [x]) := by
  simp [responses_concat, h]

theorem Rung.concat {handed : List (Option Obs × CCEvent)} (h : Rung handed)
    (x : Option Obs × CCEvent) : Rung (handed ++ [x]) := by
  obtain ⟨ev, hmem, hring⟩ := h
  exact ⟨ev, mem_responses_concat hmem x, hring⟩

theorem Responded.concat {cls : PyClass} {handed : List (Option Obs × CCEvent)}
    (h : Responded cls handed) (x : Option Obs × CCEvent) : Responded cls (handed ++ [x]) := by
  obtain ⟨ev, hmem, hfinal⟩ := h.final
  exact ⟨⟨ev, mem_responses_concat hmem x, hfinal⟩, fun hcls => (h.rung hcls).concat x⟩

/-- No timer for the answer is set but as the 180 is sent. -/
theorem Cb.Sets.ne_connect (h : cb.Sets s t) : t.cb ≠ .connect := by
  unfold Cb.Sets at h
  split at h <;> grind

theorem UaCall.Sets.ne_connect {c : UaCall} (h : c.Sets s ts) (ht : t ∈ ts) : t.cb ≠ .connect := by
  unfold UaCall.Sets at h
  split at h <;> grind

theorem UaCall.Settles.isFinal {ev : CCEvent} (h : (recvEvent ev).Settles s) :
    ev.isConnect = true ∨ ev.isFailure = true := by
  obtain ⟨⟨ev', hev, hset⟩, -⟩ := h
  cases hev
  exact hset

/-- The invariant of the runs of Bob's that are not to be cancelled. -/
structure Responding (s : Subtest) (calls : List (UaCall × Subtest)) : Prop where
  bob : s.cls.isAlice = false
  kept : s.cls.isA .testEarlyCancel = false
  ringing : 0 < s.due .connect → Rung s.handed
  connectDone : s.connectDone = true → Responded s.cls s.handed
  /-- While the UA is handed a final response, `connect_done` is still to be set. -/
  settling : ∀ call ∈ calls, call.1.Settles call.2 → Responded s.cls s.handed

namespace Responding

variable {cs cs' : List (UaCall × Subtest)} {ev : CCEvent} {x : Option Obs × CCEvent}

/-- Nothing is sent. -/
theorem next (h : Responding s cs) (hcls : s'.cls = s.cls) (hsent : s'.handed = s.handed)
    (hdue : s'.due .connect ≤ s.due .connect)
    (hcon : s'.connectDone = true → s.connectDone = true ∨ ∃ call ∈ cs, call.1.Settles call.2)
    (hcalls : ∀ call ∈ cs', call ∈ cs) : Responding s' cs' := by
  refine ⟨hcls ▸ h.bob, hcls ▸ h.kept, fun hpos => hsent ▸ h.ringing (by omega), fun hc => ?_,
    fun call hmem => ?_⟩
  · rw [hcls, hsent]
    obtain hc | ⟨call, hmem, hset⟩ := hcon hc
    · exact h.connectDone hc
    · exact h.settling call hmem hset
  · rw [hcls, hsent]
    exact h.settling call (hcalls call hmem)

/-- One event is sent. -/
theorem push (h : Responding s cs) (hs : s.Adds s' x) (hring : 0 < s'.due .connect → Rung s'.handed)
    (hsettles : (UaCall.recvEvent ev).Settles s₂ → Responded s.cls s'.handed) :
    Responding s' ((.recvEvent ev, s₂) :: cs) := by
  refine ⟨hs.cls ▸ h.bob, hs.cls ▸ h.kept, hring, fun hc => ?_, fun call hmem hset => ?_⟩
  · rw [hs.cls, hs.handed]
    exact (h.connectDone (hs.connectDone ▸ hc)).concat x
  · rw [hs.cls]
    obtain rfl | hmem := List.mem_cons.mp hmem
    · exact hsettles hset
    · rw [hs.handed]
      exact (h.settling call hmem hset).concat x

theorem silent (h : Responding s cs) (hs : Silent cb (s.entered cb env) s₂) : Responding s₂ cs := by
  obtain ⟨ts, hstays, hts⟩ := hs.stays
  refine h.next hstays.cls (hstays.handed.trans Subtest.handed_entered) ?_ (fun hc => .inl ?_)
    fun _ hmem => hmem
  · have hnone : ts.countP (·.cb = .connect) = 0 :=
      List.countP_eq_zero.mpr fun t ht => by simpa using (hts t ht).ne_connect
    rw [hstays.due, hnone]
    exact Subtest.due_entered_le _
  · obtain hcon | ha | hearly := hs.connectDone
    · exact hcon.symm.trans hc
    · exact absurd (h.bob.symm.trans ha) (by simp)
    · exact absurd (h.kept.symm.trans hearly) (by simp)

theorem caught (h : Responding s cs) (e : Exc) : Responding (machine.caught e s) cs :=
  h.next rfl (Subtest.handed_caught e) le_rfl .inl fun _ hmem => hmem

theorem drop {call : UaCall × Subtest} (h : Responding s (call :: cs)) : Responding s cs :=
  h.next rfl rfl le_rfl .inl fun _ => List.mem_cons_of_mem _

theorem tail {c : UaCall} {s₀ : Subtest} (h : Responding s ((c, s₀) :: cs))
    (hT : Tail c s₀ (machine.resume env s) s₂) : Responding s₂ cs := by
  obtain ⟨ts, hstays, hts⟩ := hT.stays
  refine h.next hstays.cls hstays.handed ?_ (fun hc => ?_) fun _ => List.mem_cons_of_mem _
  · have hnone : ts.countP (·.cb = .connect) = 0 :=
      List.countP_eq_zero.mpr fun t ht => by simpa using hts.ne_connect ht
    rw [hstays.due, hnone]
    exact le_rfl
  · obtain hcon | hset := hT.connectDone
    · exact .inl (hcon.symm.trans hc)
    · exact .inr ⟨_, List.mem_cons_self, hset⟩

/-- What is sent does not settle the INVITE. -/
theorem other (h : Responding s cs) (hs : (s.entered cb env).Leads s₂ [])
    (hno : ¬ (UaCall.recvEvent ev).Settles s₂) :
    Responding (machine.sent (.recvEvent ev) s₂) ((.recvEvent ev, s₂) :: cs) := by
  have hadds : s.Adds (machine.sent (.recvEvent ev) s₂) (some (cb.obs s), ev) := adds_of_leads hs
  have hdue := due_of_leads ev hs .connect
  refine h.push hadds (fun hpos => ?_) fun hset => absurd hset hno
  rw [hadds.handed]
  exact (h.ringing (by simpa using hpos.trans_le hdue)).concat _

/-- The final response, by the timer for it or for the 180. -/
theorem final (h : Responding s cs) (hs : (s.entered (.timer t) env).Leads s₂ ts)
    (hts : ts.countP (·.cb = .connect) = 0) (htcb : t.cb = .ring ∨ t.cb = .connect)
    (hfinal : ev.isFinal = true) (hcls : s.cls.declines = false → ev.isConnect = true)
    (hrung : s.cls.isA (.b .t4) = false → Rung s.handed) :
    Responding (machine.sent (.recvEvent ev) s₂) ((.recvEvent ev, s₂) :: cs) := by
  have hadds : s.Adds (machine.sent (.recvEvent ev) s₂) (some (.fired t.cb), ev) :=
    adds_of_leads hs
  have hdue := due_of_leads ev hs .connect
  have hinvite : fromInvite (some (.fired t.cb), ev) = true := by
    have hreq := CCEvent.not_isRequest (.inr hfinal)
    obtain htcb | htcb := htcb <;> simp [fromInvite, fromReinvite, Obs.reasks, htcb, hreq]
  refine h.push hadds (fun hpos => ?_) fun _ => ⟨⟨ev, ?_, hfinal, hcls⟩, fun ht4 => ?_⟩
  · rw [hadds.handed]
    exact (h.ringing (by omega)).concat _
  · rw [hadds.handed]
    exact mem_responses_of_fromInvite hinvite _
  · rw [hadds.handed]
    exact (hrung ht4).concat _

/-- **A callback that sends an event.** -/
theorem sends (h : Responding s cs) (hen : cb.Enabled s)
    (hs : Sends (s.entered cb env) cb ev s₂) :
    Responding (machine.sent (.recvEvent ev) s₂) ((.recvEvent ev, s₂) :: cs) := by
  have hcls : (s.entered cb env).cls = s.cls := rfl
  -- Only the timers for the answer settle anything.
  have hnot (hl : (s.entered cb env).Leads s₂ []) (hring : cb.obs s ≠ .fired .ring)
      (hconnect : cb.obs s ≠ .fired .connect) : ¬ (UaCall.recvEvent ev).Settles s₂ := by
    rintro ⟨-, hlast⟩
    have hheard : s₂.heard = some (cb.obs s) := hl.heard.trans Subtest.heard_entered
    obtain hlast | hlast := hlast
    all_goals
      rw [Subtest.heard_of_last hlast rfl, Option.some.injEq] at hheard
      simp [← hheard] at hring hconnect
  cases hs with
  | @ring t code reason body ival _ htcb ha hd hl hbody =>
      have hadds : s.Adds (machine.sent (.recvEvent (.ring code reason body)) s₂)
          (some (.fired t.cb), .ring code reason body) := adds_of_leads hl
      refine h.push hadds (fun _ => ?_) fun hset => ?_
      · rw [hadds.handed]
        refine ⟨_, mem_responses_of_fromInvite ?_ _, rfl⟩
        simp [fromInvite, fromReinvite, Obs.reasks, htcb, CCEvent.isRequest]
      · simpa [CCEvent.isConnect, CCEvent.isFailure] using hset.isFinal
  | failRing htcb hc hd hl =>
      rw [hcls] at hc
      refine h.final hl rfl (.inl htcb) rfl (fun hno => ?_) fun hno => ?_
      · simp [PyClass.declines, hc] at hno
      · rw [hc] at hno
        cases hno
  | connect htcb ha hd hl hbody =>
      exact h.final hl (by simp) (.inr htcb) rfl (fun _ => rfl)
        fun _ => h.ringing (htcb ▸ Subtest.due_pos hen)
  | failConnect htcb hc hd hl =>
      rw [hcls] at hc
      refine h.final hl rfl (.inr htcb) rfl (fun hno => ?_)
        fun _ => h.ringing (htcb ▸ Subtest.due_pos hen)
      obtain hc | hc := hc <;> simp [PyClass.declines, hc] at hno
  | hangUp htcb hd hl =>
      refine h.other hl (hnot hl ?_ ?_) <;> obtain htcb | htcb := htcb <;> simp [Cb.obs, htcb]
  | reinvite htcb hd hl =>
      refine h.other hl (hnot hl ?_ ?_) <;> obtain htcb | htcb := htcb <;> simp [Cb.obs, htcb]
  | answer hcb _ hl =>
      refine h.other hl (hnot hl ?_ ?_) <;>
        obtain ⟨t, rfl, htcb⟩ | ⟨⟨body, rfl⟩, -⟩ := hcb <;> simp [Cb.obs, *]
  | refuse hc hl => exact h.other hl (hnot hl (by simp [Cb.obs]) (by simp [Cb.obs]))

/-- **One step.** -/
theorem step {g g' : Stage Subtest UaCall} {a : Act} (h : Responding g.st g.calls)
    (hs : Staged g a g') : Responding g'.st g'.calls := by
  cases hs with
  | @enter i s s₁ s₂ cs stop he hP =>
      obtain ⟨hen, rfl⟩ := entry_eq_entered he
      cases stop with
      | ret a => exact h.silent hP
      | raise e => exact (h.silent hP).caught e
      | call c =>
          cases c with
          | recvRequest => exact hP.elim
          | recvEvent ev => exact h.sends hen hP
  | ret hT => exact h.tail hT
  | retRaise hT => exact (h.tail hT).caught _
  | throw => exact h.drop.caught _

end Responding

/-- As the UA is first called. -/
theorem Setup.Opens.responding {c : UaCall} (h : p.Opens c s) (hb : p.cls.isAlice = false)
    (hkept : p.cls.isA .testEarlyCancel = false) : Responding (machine.sent c s) [(c, s)] := by
  have hcls := h.cls
  obtain ⟨rfl, body, ival, hlog, htimers⟩ := h.bob hb
  have hdue : (machine.sent .recvRequest s).due .connect = 0 := by
    show s.timers.countP _ = 0
    simp [htimers]
  refine ⟨hcls ▸ hb, hcls ▸ hkept, fun hpos => ?_, fun hc => ?_, fun call hmem hset => ?_⟩
  · omega
  · rw [h.begun.blank.connectDone] at hc
    cases hc
  · rw [List.mem_singleton.mp hmem] at hset
    simp [UaCall.Settles] at hset

/-! ## what a pass takes -/

/-- The scenarios in which Bob does not get to answer. -/
def unanswered : List Scenario :=
  [.t11, .t12, .t13, .invBrkn1, .earlyCancel, .earlyCancelLost100]

/-- What came of the re-INVITEs that this side has sent. -/
structure Reinvited (cls : PyClass) (log : List Obs) : Prop where
  settled : ∃ l ev, l ++ [.event ev true] <+: log ∧ Sent l ∧ cls.wants ev = true
  outcomes : ∀ ev, .event ev true ∈ log → ev.isConnect = true ∨ ev.isFailure = true →
    cls.wants ev = true

/-- A call of Bob's has gone as its scenario wants it: it was ended by the other
side or the switch; it was answered, or it was cancelled before; he has been put on hold
as often as he is to be; and a re-INVITE of his had the outcome it was to have. -/
structure Served (scn : Scenario) (log : List Obs) : Prop where
  ended : Ended (.b scn) log
  answered : scn ∉ unanswered → Responded (.b scn) (handedAfter none log)
  cancelled : scn ∈ [Scenario.earlyCancel, .earlyCancelLost100] →
    ∃ acct, (accts log).getLast? = some acct ∧
      TestEarlyCancel.cancelled (PyClass.b scn).maxDelay acct = true
  held : scn = .reinvOnhold → 5 ≤ received log
  reinvited : .b scn ∈ initiators → Reinvited (.b scn) log

theorem connectDone_of_passes {scn : Scenario} (h : scn ∉ unanswered)
    (hp : passes (PyClass.b scn).mro s = true) : s.connectDone = true := by
  have hand : ∃ b, (b && (s.ringDone && s.connectDone && s.disconnectDone &&
      decide (s.nerrs = 0))) = true := by
    cases scn <;> first
      | exact absurd (by decide) h
      | exact ⟨true, hp⟩
      | exact ⟨_, hp⟩
      | exact ⟨_, (Bool.and_assoc _ _ _).trans hp⟩
  obtain ⟨b, hand⟩ := hand
  simp only [Bool.and_eq_true] at hand
  exact hand.2.1.1.2

theorem kept_of_answered {scn : Scenario} (h : scn ∉ unanswered) :
    (PyClass.b scn).isA .testEarlyCancel = false := by
  cases scn <;> first | exact absurd (by decide) h | decide +kernel

theorem cancelled_of_passes {scn : Scenario} (h : scn ∈ [Scenario.earlyCancel, .earlyCancelLost100])
    (hp : passes (PyClass.b scn).mro s = true) :
    ∃ acct, s.acct = some acct ∧ TestEarlyCancel.cancelled s.cls.maxDelay acct = true := by
  have hand : ∃ b c, (b && s.acct.any (TestEarlyCancel.cancelled s.cls.maxDelay) && c) = true := by
    cases scn <;> first | exact absurd h (by decide) | exact ⟨_, _, hp⟩
  obtain ⟨b, c, hand⟩ := hand
  simp only [Bool.and_eq_true] at hand
  simpa [Option.any_eq_true] using hand.1.2

section Pass

variable {scn : Scenario} {acts : List Act} {y : Sys} {r : Report}

/-- **What a verdict of 0 takes** of the side that sends a re-INVITE. -/
theorem Setup.Lives.reinvited_of_passes (hl : p.Lives y.st) (hi : p.cls ∈ initiators)
    (h : p.Reaches acts y) (hpass : passes p.cls.mro y.st = true) :
    Reinvited p.cls y.st.log := by
  refine ⟨?_, fun ev hev he => ?_⟩
  · obtain ⟨l, ev, hev, hw⟩ := hl.settled_of_passes hi hpass
    exact ⟨l, ev, hev, (hl.orderly hi).outcome l ev hev, hw⟩
  · by_contra hw
    have hfaults : Faults p.cls.mro p.cls p.tccfg ev true :=
      faults_of_opposite hi he (by simpa using hw)
    rw [passes_eq_false (hl.nerrs_of_faults h hev hfaults)] at hpass
    cases hpass

theorem Setup.Reaches.responding (h : p.Reaches acts y) (hl : p.Lives y.st)
    (hb : p.cls.isAlice = false) (hkept : p.cls.isA .testEarlyCancel = false)
    (hc : y.st.connectDone = true) : Responded p.cls y.st.handed := by
  obtain ⟨cs, -, hresp⟩ := Setup.staged_of_reaches (I := fun g => Responding g.st g.calls)
    (fun c s ho => ho.responding hb hkept) (fun g a g' hg hs => hg.step hs) h hl
  exact hl.cls ▸ hresp.connectDone hc

theorem Setup.Lives.served_of_passes (hl : p.Lives y.st) (hp : p.cls = .b scn)
    (h : p.Reaches acts y) (hpass : passes p.cls.mro y.st = true) : Served scn y.st.log := by
  have hbob : p.cls.isAlice = false := by
    rw [hp]
    rfl
  refine ⟨?_, fun hans => ?_, fun hec => ?_, fun hon => ?_, fun hi => ?_⟩
  · obtain ⟨origin, acct, ho, ha⟩ := hl.recorded.accepted (disconnectDone_of_passes hpass)
    exact ⟨origin, acct, ho, by rw [← hp, ← hl.cls]; exact ha⟩
  · rw [hp] at hpass
    have hkept : p.cls.isA .testEarlyCancel = false := hp ▸ kept_of_answered hans
    exact hp ▸ h.responding hl hbob hkept (connectDone_of_passes hans hpass)
  · rw [hp] at hpass
    obtain ⟨acct, hacct, hcan⟩ := cancelled_of_passes hec hpass
    have hkeeps : y.st.acct = (accts y.st.log).getLast? := hl.keepsAcct h
    exact ⟨acct, hkeeps.symm.trans hacct, by rwa [hl.cls, hp] at hcan⟩
  · subst hon
    rw [hp] at hpass
    obtain ⟨hcount, hcount'⟩ := holds_of_passes hpass
    have hholds := hl.holds hbob
    unfold Subtest.holds at hholds
    omega
  · exact hp ▸ hl.reinvited_of_passes (hp ▸ hi) h hpass

theorem Reinvited.dead {cls : PyClass} {log : List Obs} (h : Reinvited cls log) (n : Nat) :
    Reinvited cls (log ++ .dead :: List.replicate n .connectDone) := by
  obtain ⟨l, ev, hev, hsent, hw⟩ := h.settled
  exact ⟨⟨l, ev, hev.trans (List.prefix_append _ _), hsent, hw⟩,
    fun ev hmem => h.outcomes ev (event_mem_iff.mp hmem)⟩

theorem handedAfter_dead (o : Option Obs) (log : List Obs) (n : Nat) :
    handedAfter o (log ++ .dead :: List.replicate n .connectDone) = handedAfter o log := by
  have hnil : handedAfter (some .dead) (List.replicate n .connectDone) = [] :=
    (after_of_marks _ fun o' ho' => by rw [List.eq_of_mem_replicate ho']; rfl).2
  rw [handedAfter_append]
  exact (congrArg _ hnil).trans (List.append_nil _)

/-- What comes after `alldone` makes no difference. -/
theorem Served.dead {log : List Obs} (h : Served scn log) (n : Nat) :
    Served scn (log ++ .dead :: List.replicate n .connectDone) := by
  refine ⟨?_, fun hans => ?_, fun hec => ?_, fun hon => ?_, fun hi => (h.reinvited hi).dead n⟩
  · simpa only [Ended, disconnected_mem_iff] using h.ended
  · rw [handedAfter_dead]
    exact h.answered hans
  · rw [accts_dead]
    exact h.cancelled hec
  · exact (h.held hon).trans (received_mono (List.prefix_append _ _))

/-- **A report of 0** is of a call that has gone as its scenario wants it, unless
the test may fail. -/
theorem Setup.served_of_report (hp : p.cls = .b scn) (hm : p.named = false)
    (h : p.Reaches acts y) (hr : y.st.report = some r) (hv : r.rval = 0) : Served scn r.log := by
  obtain ⟨acts₁, y₁, h₁, hl, hpass, ⟨n, hlog⟩, -⟩ := Setup.passes_of_rval h hr hm hv
  rw [hlog]
  exact (hl.served_of_passes hp h₁ hpass).dead n

end Pass

end VoipTests
