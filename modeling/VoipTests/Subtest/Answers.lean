import VoipTests.Subtest.Grammar
import VoipTests.Subtest.Pair
import VoipTests.Subtest.Silence

/-!
# VoipTests.Subtest.Answers

Bob's answers to the re-INVITEs he gets.

Each is answered once, at once or when a timer fires, unless the code raises
before it gets there: it takes a body in `ua.lSDP`, and `b_test_reinv_onhold`
looks into the body of the event first (`replies`).  `obeys_iff` is the whole of
what Bob's signalling has to obey.
-/

namespace VoipTests

open Callback

variable {p : Setup} {s s' s₁ s₂ : Subtest} {t : Timer} {cb : Cb} {env : Env} {mro : List PyClass}
variable {body : Option Sdp} {ts : List Timer}

/-! ## what is owed -/

namespace Subtest

/-- Each re-INVITE has been answered once, or is going to be when a timer fires. -/
def Answered (s : Subtest) : Prop :=
  received s.log = s.handed.countP fromReinvite + s.due .processReinvite

theorem Stays.received (h : s.Stays s' ts) : received s'.log = received s.log := by
  obtain ⟨l, hl, hmark⟩ := h.log
  have hzero : l.countP Obs.isUpdate = 0 := List.countP_eq_zero.mpr fun o ho ha => by
    have hmade := hmark o ho
    cases o with
    | event ev inProgress => cases hmade
    | _ => cases ha
  unfold VoipTests.received
  rw [hl, List.countP_append, hzero]
  rfl

theorem received_concat (o : Obs) (log : List Obs) :
    received (log ++ [o]) = received log + if o.isUpdate then 1 else 0 := by
  unfold received
  rw [List.countP_append, List.countP_singleton]

end Subtest

/-! ## getting as far as to answer -/

/-- Whether `recvEvent` gets as far as to answer a re-INVITE, or to set the
timer for the answer. -/
def replies (body : Option Sdp) (s : Subtest) : List PyClass → Bool
  | [] => false
  | .b .reinvFail :: _ => true
  | .b .reinvBrkn1 :: _ => s.ua.lSDP.isSome
  | .b .reinvOnhold :: sup =>
    (body.bind fun sdp => sdp.sections.foldlM (fun _ sect => s.env.isOnHold sect) false).isSome &&
      replies body s sup
  | .testReinvite :: _ => decide (0 < s.cls.reinvAnswDelay) || s.ua.lSDP.isSome
  | _ :: sup => replies body s sup

/-- A count does not matter. -/
theorem replies_held (on : Bool) : replies body ((s.hold on).note (.held on)) mro = replies body s mro := by
  have hs : ((s.hold on).note (.held on)).cls = s.cls ∧ ((s.hold on).note (.held on)).ua = s.ua ∧
      ((s.hold on).note (.held on)).env = s.env := by cases on <;> exact ⟨rfl, rfl, rfl⟩
  fun_induction replies body s mro with
  | case1 => rfl
  | case2 => rfl
  | case3 => rw [replies, hs.2.1]
  | case4 sup ih => rw [replies, hs.2.2, ih]
  | case5 => rw [replies, hs.1, hs.2.1]
  | case6 c sup h₁ h₂ h₃ h₄ ih => rwa [replies.eq_6 _ _ _ _ h₁ h₂ h₃ h₄]

/-- Where a callback stops that has to answer a re-INVITE: it answers, or it
sets the timer, or it raises. -/
def Replied (replies : Bool) (s : Subtest) : Stop Exc UaCall Unit → Subtest → Prop
  | .call _, _ => replies = true
  | .ret _, s' => replies = true ∧ s'.due .processReinvite = s.due .processReinvite + 1
  | .raise _, s' => replies = false ∧ s'.due .processReinvite = s.due .processReinvite

theorem TestReinvite.replied_answerReinvite :
    (TestReinvite.answerReinvite s).Until (Replied s.ua.lSDP.isSome s) := by
  cases hl : s.ua.lSDP with
  | none =>
      unfold TestReinvite.answerReinvite
      rw [Prog.bind_apply, Prog.get_apply, Out.bind_ret, hl]
      exact ⟨rfl, rfl⟩
  | some lSDP =>
      refine (TestReinvite.speaks_answerReinvite (by rw [hl]; rfl)).mono fun stop s' h => ?_
      cases stop with
      | call c => exact rfl
      | ret a => exact h.elim
      | raise e => exact h.elim

theorem TestReinvite.replied_processReinvite : (TestReinvite.processReinvite s).Until
    (Replied (decide (0 < s.cls.reinvAnswDelay) || s.ua.lSDP.isSome) s) := by
  unfold TestReinvite.processReinvite
  rw [Prog.bind_apply, Prog.get_apply, Out.bind_ret]
  refine until_ite (fun hd => ?_) fun hd => ?_
  · refine ⟨by simp [hd], ?_⟩
    show (s.timers ++ [Timer.mk .processReinvite s.cls.reinvAnswDelay]).countP _ = s.timers.countP _ + 1
    rw [List.countP_append]
    rfl
  · rw [decide_eq_false hd, Bool.false_or]
    exact TestReinvite.replied_answerReinvite

theorem processReinvite_eq (h : .testReinvite ∈ mro) : processReinvite mro = TestReinvite.processReinvite := by
  fun_induction processReinvite mro with
  | case1 => simp at h
  | case2 sup => rfl
  | case3 c sup hc ih => exact ih ((List.mem_cons.mp h).resolve_left fun heq => hc heq.symm)

/-- Code after an answer, or after the timer has been set. -/
theorem replied_bind {p : M Unit} {replies : Bool} {f : Subtest → Subtest}
    (hf : ∀ s, (f s).timers = s.timers) (h : (p s₁).Until (Replied replies s)) :
    ((p >>= fun _ => M.modify f) s₁).Until (Replied replies s) := by
  refine h.bind (fun _ s₂ h₂ => ⟨h₂.1, ?_⟩) (fun _ _ h => h) fun _ _ h => h
  unfold Subtest.due
  rw [hf]
  exact h₂.2

theorem TestReinvite.replied_recvEvent {sup : M Unit} (hr : s.cls.isA .testReinvite = true) :
    (TestReinvite.recvEvent (.update body) sup s).Until
      (Replied (decide (0 < s.cls.reinvAnswDelay) || s.ua.lSDP.isSome) s) := by
  have hself : M.self VoipTests.processReinvite s = TestReinvite.processReinvite s := by
    show VoipTests.processReinvite s.cls.mro s = _
    rw [processReinvite_eq (of_decide_eq_true hr)]
  refine replied_bind (fun _ => rfl) ?_
  rw [hself]
  exact TestReinvite.replied_processReinvite

theorem finishes_dropMedia (sects : List Section) : Finishes (dropMedia sects s) := by
  induction sects generalizing s with
  | nil => exact trivial
  | cons sect sects ih =>
      rw [dropMedia]
      refine until_ite (fun _ => Finishes.bind ih fun _ _ => trivial) fun _ => ?_
      exact Test.finishes_rtpPortAlloc.bind fun _ _ => Finishes.bind ih fun _ _ => trivial

theorem BTestReinvBrkn1.replied_recvEvent {sup : M Unit} :
    (BTestReinvBrkn1.recvEvent (.update body) sup s).Until (Replied s.ua.lSDP.isSome s) := by
  unfold BTestReinvBrkn1.recvEvent
  rw [Prog.ite_apply, if_neg (by simp [CCEvent.isUpdate]), Prog.bind_apply, Prog.get_apply, Out.bind_ret]
  cases hl : s.ua.lSDP with
  | none => exact ⟨rfl, rfl⟩
  | some lSDP =>
      exact (finishes_dropMedia lSDP.sections).bind fun _ _ => rfl

/-- The body of the event is looked into before the answer. -/
theorem BTestReinvOnhold.replied_recvEvent {sup : M Unit} {replies : Bool}
    (hsup : ∀ on, (sup ((s.hold on).note (.held on))).Until (Replied replies s)) :
    (BTestReinvOnhold.recvEvent (.update body) sup s).Until (Replied
      ((body.bind fun sdp => sdp.sections.foldlM (fun _ sect => s.env.isOnHold sect) false).isSome &&
        replies) s) := by
  show ((do
    let sdp ← M.ofSome body
    let onhold ← M.ofSome (sdp.sections.foldlM (fun _ sect => s.env.isOnHold sect) false)
    M.addHeld onhold
    sup : M Unit) s).Until _
  cases body with
  | none => exact ⟨rfl, rfl⟩
  | some sdp =>
      rw [Option.bind_some]
      show ((do
        let onhold ← M.ofSome (sdp.sections.foldlM (fun _ sect => s.env.isOnHold sect) false)
        M.addHeld onhold
        sup : M Unit) s).Until _
      cases sdp.sections.foldlM (fun _ sect => s.env.isOnHold sect) false with
      | none => exact ⟨rfl, rfl⟩
      | some onhold =>
          rw [Option.isSome_some, Bool.true_and]
          exact hsup onhold

/-- **A re-INVITE in `recvEvent`.** -/
theorem replied_recvEvent (hm : mro <:+ s.cls.mro) (hb : s.cls.isAlice = false)
    (hr : .testReinvite ∈ mro) :
    (recvEvent (.update body) mro s).Until (Replied (replies body s mro) s) := by
  have halice {scn : Scenario} {sup : List PyClass} (hm : .a scn :: sup <:+ s.cls.mro) {q : Prop} : q := by
    rw [(PyClass.eq_mro_a hm).1] at hb
    cases hb
  fun_induction recvEvent (.update body) mro generalizing s with
  | case1 => simp at hr
  | case2 sup ih => exact halice hm
  | case3 sup ih => exact rfl
  | case4 sup ih => exact BTestReinvBrkn1.replied_recvEvent
  | case5 sup ih =>
      refine BTestReinvOnhold.replied_recvEvent fun on => ?_
      have hs : ((s.hold on).note (.held on)).cls = s.cls ∧
          ((s.hold on).note (.held on)).timers = s.timers := by cases on <;> exact ⟨rfl, rfl⟩
      have hsup := ih (hs.1 ▸ suffix_of_cons hm) (hs.1 ▸ hb) (by simpa using hr) fun hm => halice (hs.1 ▸ hm)
      rw [replies_held] at hsup
      unfold Replied Subtest.due at hsup ⊢
      rwa [hs.2] at hsup
  | case6 sup ih => exact halice hm
  | case7 sup ih => exact TestReinvite.replied_recvEvent (isA_of_suffix hm)
  | case8 sup => exact halice hm
  | case9 sup =>
      have hmro := (PyClass.eq_mro_b hm).2
      rw [hmro, PyClass.mro_b_t1] at hr
      simp at hr
  | case10 c sup h₁ h₂ h₃ h₄ h₅ h₆ h₇ h₈ ih =>
      rw [replies.eq_6 _ _ _ _ h₂ h₃ h₄ h₆]
      exact ih (suffix_of_cons hm) hb ((List.mem_cons.mp hr).resolve_left fun heq => h₆ heq.symm) halice

/-! ## one step -/

/-- How many timers for this method are used up as the callback is entered. -/
def Cb.fires (x : TimerCb) : Cb → Nat
  | timer t => if t.cb = x then 1 else 0
  | _ => 0

namespace Subtest

theorem due_entered (env : Env) (hen : cb.Enabled s) (x : TimerCb) : (s.entered cb env).due x + cb.fires x = s.due x := by
  cases cb with
  | timer t =>
      by_cases hx : t.cb = x
      · subst hx
        rw [Cb.fires, if_pos rfl]
        exact due_entered_timer env hen
      · show (s.timers.erase t).countP _ + _ = s.timers.countP _
        rw [List.countP_erase, if_neg (by simp [hx]), Cb.fires, if_neg hx]
        rfl
  | _ => rfl

theorem received_entered :
    received (s.entered cb env).log = received s.log + if (cb.obs s).isUpdate then 1 else 0 :=
  received_concat (cb.obs s) s.log

/-- A re-INVITE is to be answered as it arrives, or when the timer fires. -/
theorem reasks_obs (s : Subtest) (cb : Cb) : (if (cb.obs s).reasks then 1 else 0) =
    (if (cb.obs s).isUpdate then 1 else 0) + cb.fires .processReinvite := by
  cases cb with
  | timer t => simp [Cb.obs, Obs.reasks, Obs.isUpdate, Cb.fires]
  | _ => rfl

theorem answered_caught (e : Exc) : (machine.caught e s).Answered ↔ s.Answered := by
  have hreceived : received (machine.caught e s).log = received s.log := received_concat (.raised e) s.log
  unfold Answered
  rw [hreceived, handed_caught]
  rfl

end Subtest

/-- The timers that are set as an event is sent. -/
theorem Sends.undelayed {ev : CCEvent} (h : Sends s cb ev s₁) :
    ∃ ts, s.Leads s₁ ts ∧ ts.countP (·.cb = .processReinvite) = 0 := by
  cases h with
  | ring _ _ _ hs => exact ⟨_, hs, rfl⟩
  | failRing _ _ _ hs => exact ⟨_, hs, rfl⟩
  | connect _ _ _ hs => exact ⟨_, hs, rfl⟩
  | failConnect _ _ _ hs => exact ⟨_, hs, rfl⟩
  | hangUp _ _ hs => exact ⟨_, hs, rfl⟩
  | reinvite _ _ hs => exact ⟨_, hs, rfl⟩
  | answer _ _ hs => exact ⟨_, hs, rfl⟩
  | refuse _ hs => exact ⟨_, hs, rfl⟩

section Step

variable {stop : Stop Exc UaCall Unit} {cs : List (UaCall × Subtest)} {y y' : Sys} {a : Act}

/-- An event that is sent settles what its callback has to answer. -/
theorem answered_sends {ev : CCEvent} (ha : s.Answered) (hen : cb.Enabled s)
    (h : Sends (s.entered cb env) cb ev s₂) : (machine.sent (.recvEvent ev) s₂).Answered := by
  obtain ⟨ts, hs, hts⟩ := h.undelayed
  have hreceived : received (machine.sent (.recvEvent ev) s₂).log = received (s.entered cb env).log :=
    (Subtest.received_concat (.inject ev) s₂.log).trans hs.received
  have hdue : (machine.sent (.recvEvent ev) s₂).due .processReinvite =
      (s.entered cb env).due .processReinvite := by
    have hdue := hs.due .processReinvite
    rwa [hts] at hdue
  have hfires := Subtest.due_entered env hen .processReinvite
  have hreasks := Subtest.reasks_obs s cb
  have hfrom : fromReinvite (some (cb.obs s), ev) = (cb.obs s).reasks := rfl
  unfold Subtest.Answered at ha ⊢
  rw [hreceived, hdue, (adds_of_leads hs).handed, List.countP_append, List.countP_singleton, hfrom,
    Subtest.received_entered]
  omega

/-- What a callback that sends nothing leaves to be answered. -/
theorem answered_silent (ha : s.Answered) (hen : cb.Enabled s) (h : Silent cb (s.entered cb env) s₂) :
    s₂.Answered ↔ s₂.due .processReinvite =
      (s.entered cb env).due .processReinvite + if (cb.obs s).reasks then 1 else 0 := by
  obtain ⟨ts, hs, -⟩ := h.stays
  have hfires := Subtest.due_entered env hen .processReinvite
  have hreasks := Subtest.reasks_obs s cb
  unfold Subtest.Answered at ha ⊢
  rw [hs.received, hs.handed, Subtest.handed_entered, Subtest.received_entered]
  omega

/-- **A callback that has to answer.** -/
theorem answered_replied {r : Bool} (ha : s.Answered) (hen : cb.Enabled s)
    (hcb : (cb.obs s).reasks = true) (h : Stretch cb (s.entered cb env) stop s₂)
    (hr : Replied r (s.entered cb env) stop s₂) : (machine.land stop s₂).Answered ↔ r = true := by
  cases stop with
  | ret u =>
      have hsilent : Silent cb (s.entered cb env) s₂ := h
      refine ⟨fun _ => hr.1, fun _ => (answered_silent ha hen hsilent).mpr ?_⟩
      rw [hr.2, if_pos hcb]
  | raise e =>
      have hsilent : Silent cb (s.entered cb env) s₂ := h
      rw [show machine.land (.raise e) s₂ = machine.caught e s₂ from rfl, Subtest.answered_caught,
        answered_silent ha hen hsilent, hr.1, hr.2, if_pos hcb]
      simp
  | call c =>
      cases c with
      | recvRequest => exact h.elim
      | recvEvent ev => exact ⟨fun _ => hr, fun _ => answered_sends ha hen h⟩

/-- A callback that has nothing to answer. -/
theorem answered_other (ha : s.Answered) (hen : cb.Enabled s) (hb : s.cls.isAlice = false)
    (hcb : (cb.obs s).reasks = false) (h : Stretch cb (s.entered cb env) stop s₂) :
    (machine.land stop s₂).Answered := by
  have hnone (h : Silent cb (s.entered cb env) s₂) : s₂.Answered := by
    refine (answered_silent ha hen h).mpr ?_
    obtain ⟨ts, hs, hts⟩ := h.stays
    have hzero : ts.countP (·.cb = .processReinvite) = 0 := by
      refine List.countP_eq_zero.mpr fun t ht htx => ?_
      have hset := hts t ht
      unfold Cb.Sets at hset
      split at hset
      · rcases hset with ⟨hup, -⟩ | ⟨ha, -⟩
        · simp [Cb.obs, Obs.reasks, hup] at hcb
        · rw [show (s.entered _ env).cls = s.cls from rfl, hb] at ha
          cases ha
      · rw [show (s.entered _ env).cls = s.cls from rfl, hb] at hset
        cases hset.1
      · rw [show (s.entered _ env).cls = s.cls from rfl, hb] at hset
        cases hset.1
      · exact hset
    rw [hs.due, hzero, hcb]
    rfl
  cases stop with
  | ret u => exact hnone h
  | raise e => exact (Subtest.answered_caught e).mpr (hnone h)
  | call c =>
      cases c with
      | recvRequest => exact h.elim
      | recvEvent ev => exact answered_sends ha hen h

/-- Whether the step gets as far as to answer, if it has to. -/
def Subtest.replies (s : Subtest) : Act → Bool
  | .enter ⟨.event (.update body), env⟩ =>
    VoipTests.replies body (s.entered (.event (.update body)) env) s.cls.mro
  | .enter ⟨.timer t, _⟩ => t.cb ≠ .processReinvite || s.ua.lSDP.isSome
  | _ => true

/-- No re-INVITE is left without an answer by this step. -/
def Answerable (y : Sys) (a : Act) : Prop := y.st.cls.isA .testReinvite = true → y.st.replies a = true

instance (y : Sys) (a : Act) : Decidable (Answerable y a) := inferInstanceAs (Decidable (_ → _))

/-- The UA returns. -/
theorem Subtest.Answered.tail {c : UaCall} {s₀ : Subtest} (ha : s.Answered)
    (ho : Ordered s ((c, s₀) :: cs)) (hT : Tail c s₀ (machine.resume env s) s₂) : s₂.Answered := by
  obtain ⟨ts, hstays, hts⟩ := hT.stays
  have hstays : s.Stays s₂ ts := ⟨hstays.cls, hstays.tccfg, hstays.log, hstays.timers⟩
  have hzero : ts.countP (·.cb = .processReinvite) = 0 := by
    refine List.countP_eq_zero.mpr fun t ht htx => ?_
    have htx : t.cb = .processReinvite := of_decide_eq_true htx
    unfold UaCall.Sets at hts
    split at hts
    · rw [(hts.2 t ht).1] at htx
      cases htx
    · rw [hts t ht] at htx
      cases htx
    · rw [(hts t ht).1] at htx
      cases htx
    · rw [hts] at ht
      cases ht
  unfold Subtest.Answered at ha ⊢
  rw [hstays.received, hstays.handed, hstays.due, hzero]
  exact ha

/-- The callbacks that have to answer. -/
theorem replied_body {i : Input} (hr : y.st.cls.isA .testReinvite = true)
    (hb : y.st.cls.isAlice = false) (hcb : (i.cb.obs y.st).reasks = true) :
    (machine.body i (y.st.entered i.cb i.env)).Until
      (Replied (y.st.replies (.enter i)) (y.st.entered i.cb i.env)) := by
  obtain ⟨cb, env⟩ := i
  cases cb with
  | event ev =>
      obtain ⟨body, rfl⟩ := CCEvent.exists_update hcb
      exact replied_recvEvent (s := y.st.entered (.event (.update body)) env) (List.suffix_refl _) hb
        (of_decide_eq_true hr)
  | timer t =>
      have ht : t.cb = .processReinvite := of_decide_eq_true hcb
      have hreplies : y.st.replies (.enter ⟨.timer t, env⟩) = y.st.ua.lSDP.isSome := by
        simp [Subtest.replies, ht]
      rw [hreplies]
      show (t.cb.body _ _).Until _
      rw [ht]
      exact TestReinvite.replied_answerReinvite
  | _ => cases hcb

/-- **One step** leaves every re-INVITE answered, if and only if it meets the
condition. -/
theorem answered_step (hy : Pending y cs) (ho : Ordered y.st cs)
    (hr : y.st.cls.isA .testReinvite = true) (ha : y.st.Answered) (h : machine.step y a = some y') :
    y'.st.Answered ↔ Answerable y a := by
  cases a with
  | enter i =>
      obtain ⟨cb, env⟩ := i
      obtain ⟨s₁, he, -⟩ := Option.bind_eq_some_iff.mp h
      obtain ⟨hen, heq⟩ := entry_eq_entered he
      have hstrides := (strides_body _ _ _ _ he).until
      by_cases hcb : (cb.obs y.st).reasks = true
      · have hrep := replied_body (i := ⟨cb, env⟩) hr ho.bob hcb
        subst heq
        obtain ⟨stop, s₂, ⟨hstop, hreplied⟩, hst⟩ := Machine.step_enter_until he (hstrides.and hrep) h
        rw [hst, answered_replied ha hen hcb hstop hreplied]
        exact ⟨fun h _ => h, fun h => h hr⟩
      · subst heq
        obtain ⟨stop, s₂, hstop, hst⟩ := Machine.step_enter_until he hstrides h
        rw [hst]
        refine iff_of_true (answered_other ha hen ho.bob (by simpa using hcb) hstop) fun _ => ?_
        unfold Subtest.replies
        split
        · next heq =>
          cases heq
          exact (hcb rfl).elim
        · next heq =>
          cases heq
          have ht : ¬ _ = TimerCb.processReinvite := fun ht => hcb (decide_eq_true ht)
          simp [ht]
        · rfl
  | ret r =>
      obtain ⟨cs', hstaged, -⟩ := staged_of_step hy h
      refine iff_of_true ?_ fun _ => rfl
      generalize y'.st = s' at hstaged
      generalize y.st = s at ha ho hstaged
      cases hstaged with
      | ret hT => exact ha.tail ho hT
      | retRaise hT => exact (Subtest.answered_caught _).mpr (ha.tail ho hT)
  | throw e =>
      obtain ⟨cs', hstaged, -⟩ := staged_of_step hy h
      refine iff_of_true ?_ fun _ => rfl
      generalize y'.st = s' at hstaged
      generalize y.st = s at ha hstaged
      cases hstaged with
      | throw => exact (Subtest.answered_caught _).mpr ha

end Step

/-! ## whole runs -/

/-- Bob's signalling is in order after the step. -/
def Obeys (y : Sys) (a : Act) : Prop :=
  ∀ y', machine.step y a = some y' →
    Grammar y'.st.handed ∧ (y'.st.cls.isA .testReinvite = true → y'.st.Answered)

theorem Setup.Opens.answered {c : UaCall} (h : p.Opens c s) (hb : p.cls.isAlice = false) :
    (machine.sent c s).Answered := by
  obtain ⟨rfl, body, ival, hlog, htimers⟩ := h.bob hb
  have htimers : (machine.sent .recvRequest s).timers = [⟨.ring, ival⟩] := htimers
  unfold Subtest.Answered received Subtest.handed Subtest.due
  rw [hlog, htimers]
  rfl

/-- **Bob's signalling** is in order throughout a run, if and only if every
re-INVITE that reaches one of the re-INVITE classes can be answered. -/
theorem obeys_iff {acts : List Act} {y₀ y : Sys} (hb : p.cls.isAlice = false)
    (hstart : p.start = some y₀) (h : Run.exec machine.step y₀ acts = some y) :
    Run.Meets machine.step Obeys y₀ acts ↔ Run.Meets machine.step Answerable y₀ acts := by
  rcases Setup.staged_of_start hstart with ⟨hun, hp⟩ | ⟨c, s, ho, hst, hpends⟩
  · cases acts with
    | nil => exact Iff.rfl
    | cons a acts =>
        rw [Run.exec_cons, step_eq_none hun.created hp] at h
        cases h
  · refine Run.meets_congr (P := fun y => ∃ cs, Pending y cs ∧ Ordered y.st cs ∧
      (y.st.cls.isA .testReinvite = true → y.st.Answered)) (fun y a y' hy hs => ?_)
      ⟨_, hpends, hst ▸ ho.ordered hb, fun _ => hst ▸ ho.answered hb⟩ h
    obtain ⟨cs, hcs, hordered, hanswered⟩ := hy
    obtain ⟨cs', hstaged, hcs'⟩ := staged_of_step hcs hs
    have hordered' : Ordered y'.st cs' := hordered.step hstaged
    have hcls : y'.st.cls = y.st.cls := Staged.cls hstaged
    have hiff : (y'.st.cls.isA .testReinvite = true → y'.st.Answered) ↔ Answerable y a := by
      rw [hcls]
      by_cases hr : y.st.cls.isA .testReinvite = true
      · exact (forall_prop_of_true hr).trans (answered_step hcs hordered hr (hanswered hr) hs)
      · exact iff_of_true (fun h => (hr h).elim) fun h => (hr h).elim
    refine ⟨⟨fun hobeys => hiff.mp (hobeys y' hs).2, fun ha y₂ hs₂ => ?_⟩,
      fun ha => ⟨cs', hcs', hordered', hiff.mpr ha⟩⟩
    rw [hs, Option.some.injEq] at hs₂
    subst hs₂
    exact ⟨hordered'.grammar, hiff.mpr ha⟩

/-! ## re-INVITEs in an established call -/

/-- A call is set up with Bob, whose timers are for these intervals. -/
def Sample.settled (ringIval answerIval : ℚ) : List Act :=
  [.ret Sample.env, enter (.timer ⟨.ring, ringIval⟩), .ret Sample.env,
    enter (.timer ⟨.connect, answerIval⟩), .ret Sample.env]

/-- Bob of `reinv_onhold` does not answer a re-INVITE without a body. -/
theorem not_obeys_onhold : ¬ ∀ (p : Setup) (acts : List Act) (y₀ y : Sys), p.cls.isAlice = false →
    (∀ e, .throw e ∉ acts) → p.start = some y₀ → Run.exec machine.step y₀ acts = some y →
      Run.Meets machine.step Obeys y₀ acts := by
  intro hall
  have hrun : ((Sample.bob .reinvOnhold false).start.bind fun y₀ =>
      (Run.exec machine.step y₀ (Sample.settled 1 5 ++ [Sample.enter (.event (.update none))])).map fun _ =>
        decide (Run.Meets machine.step Answerable y₀
          (Sample.settled 1 5 ++ [Sample.enter (.event (.update none))]))) = some false := by
    decide +kernel
  obtain ⟨y₀, hstart, hrun⟩ := Option.bind_eq_some_iff.mp hrun
  obtain ⟨y, hexec, hf⟩ := Option.map_eq_some_iff.mp hrun
  have hobeys := hall _ _ y₀ y rfl (by simp [Sample.settled, Sample.enter]) hstart hexec
  have hanswerable := (obeys_iff rfl hstart hexec).mp hobeys
  exact of_decide_eq_false hf hanswerable

/-- Bob of `reinv_adelay` answers one with a body, if late. -/
theorem obeys_adelay : ∃ y₀, (Sample.bob .reinvAdelay false).start = some y₀ ∧
    Run.Meets machine.step Obeys y₀ (Sample.settled 1 5 ++
      [Sample.enter (.event (.update (some Sample.proxied))),
        Sample.enter (.timer ⟨.processReinvite, 7 / 10⟩)]) := by
  have hrun : ((Sample.bob .reinvAdelay false).start.bind fun y₀ =>
      (Run.exec machine.step y₀ (Sample.settled 1 5 ++
        [Sample.enter (.event (.update (some Sample.proxied))),
          Sample.enter (.timer ⟨.processReinvite, 7 / 10⟩)])).map fun _ =>
        decide (Run.Meets machine.step Answerable y₀ (Sample.settled 1 5 ++
          [Sample.enter (.event (.update (some Sample.proxied))),
            Sample.enter (.timer ⟨.processReinvite, 7 / 10⟩)]))) = some true := by
    decide +kernel
  obtain ⟨y₀, hstart, hrun⟩ := Option.bind_eq_some_iff.mp hrun
  obtain ⟨y, hexec, hf⟩ := Option.map_eq_some_iff.mp hrun
  exact ⟨y₀, hstart, (obeys_iff rfl hstart hexec).mpr (of_decide_eq_true hf)⟩

end VoipTests
