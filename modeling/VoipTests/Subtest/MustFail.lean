import VoipTests.Subtest.Effects

/-!
# VoipTests.Subtest.MustFail

The scenarios whose call must not be set up.

Alice's classes of these scenarios have four ways to find out: that the call
is up, that the account says so, that a `CCEventConnect` came in, or none at
all.  `mustFail_iff` says for which of them a call that is set up all the same
can pass.
-/

namespace VoipTests

open Callback Relation

variable {p : Setup} {s s' : Subtest}

/-! ## the classes -/

/-- The scenarios in which the INVITE has to fail or to be cancelled. -/
def mustFail : List Scenario :=
  [.t3, .t4, .t5, .t8, .t9, .t10, .t11, .t12, .t13, .invBrkn1, .earlyCancel, .earlyCancelLost100]

/-- The scenarios whose Alice is an `a_test3`. -/
def test3Family : List Scenario := [.t3, .t4, .t5, .t8, .t9, .t10]

theorem passes_test3 {scn : Scenario} (h : scn ∈ test3Family) :
    passes (PyClass.a scn).mro s = (s.disconnectDone && s.nerrs = 0) := by
  cases scn <;> first | exact absurd h (by decide) | rfl

theorem passes_test11 {scn : Scenario} (h : scn ∈ [Scenario.t11, .t12, .t13]) :
    passes (PyClass.a scn).mro s = (!s.connectDone && s.disconnectDone && s.nerrs = 0) := by
  cases scn <;> first | exact absurd h (by decide) | rfl

theorem passes_earlyCancel {scn : Scenario}
    (h : scn ∈ [Scenario.earlyCancel, .earlyCancelLost100])
    (hp : passes (PyClass.a scn).mro s = true) :
    ∃ acct, s.acct = some acct ∧ acct.connected = false := by
  have hany : s.acct.any (TestEarlyCancel.cancelled s.cls.maxDelay) = true := by
    have hand : ∃ b c, (b && s.acct.any (TestEarlyCancel.cancelled s.cls.maxDelay) && c) = true := by
      cases scn <;> first | exact absurd h (by decide) | exact ⟨_, _, hp⟩
    obtain ⟨b, c, hand⟩ := hand
    rw [Bool.and_eq_true, Bool.and_eq_true] at hand
    exact hand.1.2
  obtain ⟨acct, hacct, hc⟩ := (Option.any_eq_true _ _).mp hany
  refine ⟨acct, hacct, ?_⟩
  simp only [TestEarlyCancel.cancelled, Bool.and_eq_true, Bool.not_eq_true'] at hc
  exact hc.1.1.2

/-- The classes of the kind find out in one of four ways. -/
theorem mustFail_cases {scn : Scenario} (h : scn ∈ mustFail) : scn ∈ test3Family ∨
    scn ∈ [Scenario.t11, .t12, .t13] ∨ scn = .invBrkn1 ∨
      scn ∈ [Scenario.earlyCancel, .earlyCancelLost100] := by
  cases scn <;> first | exact absurd h (by decide) | decide

/-- An error of an `a_test3` is a body that was rejected. -/
theorem Blames.test3 {scn : Scenario} {cfg : TcCfg} {o : Obs} (hs : scn ∈ test3Family)
    (h : Blames (.a scn) cfg o) :
    ∃ ev inProgress sdp, o = .event ev inProgress ∧ ev.checked = some sdp ∧ cfg.Rejects sdp := by
  have hno : (PyClass.a scn).isA (.a .invBrkn1) = false ∧
      (PyClass.a scn).isA (.a .reinvBadAck) = false ∧
      (PyClass.a scn).isA .testReinvite = false := by
    cases scn <;> first | exact absurd hs (by decide) | decide
  cases o with
  | event ev inProgress =>
      rcases h with ⟨-, sdp, hsdp, hr⟩ | ⟨-, h⟩ | h
      · exact ⟨ev, inProgress, sdp, rfl, hsdp, hr⟩
      · rw [hno.2.2] at h
        cases h
      · rw [hno.1] at h
        cases h
  | fired cb =>
      cases cb with
      | disconnect =>
          rw [Blames, hno.2.1] at h
          cases h
      | _ => exact h.elim
  | _ => exact h.elim

/-! ## the verdict -/

/-- The call has been set up: a `CCEventConnect` came in, `connected` was
called, and what `getAcct()` gave last says so. -/
structure Established (log : List Obs) : Prop where
  connect : ∃ ev inProgress, .event ev inProgress ∈ log ∧ ev.isConnect = true
  connected : .connected ∈ log
  acct : ∀ acct, (accts log).getLast? = some acct → acct.connected = true

/-- The callee or the switch has ended the call. -/
def Ended (cls : PyClass) (log : List Obs) : Prop :=
  ∃ origin acct, .disconnected origin acct ∈ log ∧ cls.accepts origin = true

/-- An event has come in whose body is rejected. -/
def HasRejected (cfg : TcCfg) (log : List Obs) : Prop :=
  ∃ ev inProgress sdp, .event ev inProgress ∈ log ∧ ev.checked = some sdp ∧ cfg.Rejects sdp

theorem accts_dead {log : List Obs} {n : Nat} :
    accts (log ++ .dead :: List.replicate n .connectDone) = accts log := by
  rw [accts_append, List.append_right_eq_self]
  refine List.filterMap_eq_nil_iff.mpr fun o ho => ?_
  rcases List.mem_cons.mp ho with rfl | ho
  · rfl
  · rw [List.eq_of_mem_replicate ho]

variable {acts : List Act} {y : Sys}

/-- An `a_test3` passes if and only if the call was ended and no body rejected. -/
theorem Setup.Lives.passes_test3_iff {scn : Scenario} (hl : p.Lives y.st) (hp : p.cls = .a scn)
    (hs : scn ∈ test3Family) (h : p.Reaches acts y) (hn : y.st.report = none) :
    passes p.cls.mro y.st = true ↔ Ended p.cls y.st.log ∧ ¬ HasRejected p.tccfg y.st.log := by
  have halice : p.cls.isAlice = true := by
    rw [hp]
    rfl
  rw [hp, passes_test3 hs, ← hp, Bool.and_eq_true, decide_eq_true_eq]
  constructor
  · rintro ⟨hd, he⟩
    constructor
    · obtain ⟨origin, acct, ho, ha⟩ := hl.recorded.accepted hd
      exact ⟨origin, acct, ho, hl.cls ▸ ha⟩
    · rintro ⟨ev, b, sdp, hev, hsdp, hr⟩
      exact hl.nerrs_of_faults h hev (.inl ⟨halice, sdp, hsdp, hr⟩) he
  · rintro ⟨⟨origin, acct, ho, ha⟩, hok⟩
    refine ⟨hl.disconnectDone_of_disconnected h ho ha, ?_⟩
    by_contra hne
    obtain ⟨o, ho, hb⟩ := hl.blamed hn hne
    rw [hp] at hb
    obtain ⟨ev, b, sdp, rfl, hsdp, hr⟩ := hb.test3 hs
    exact hok ⟨ev, b, sdp, ho, hsdp, hr⟩

/-- The other classes do not pass once the call has been set up. -/
theorem Setup.Lives.not_passes_of_established {scn : Scenario} (hl : p.Lives y.st)
    (hp : p.cls = .a scn) (hs : scn ∈ mustFail) (h3 : scn ∉ test3Family) (h : p.Reaches acts y)
    (he : Established y.st.log) : passes p.cls.mro y.st = false := by
  rw [← Bool.not_eq_true]
  intro hpass
  rcases mustFail_cases hs with h3' | h11 | rfl | hec
  · exact h3 h3'
  · rw [hp, passes_test11 h11, hl.connectDone_of_connected h he.connected] at hpass
    cases hpass
  · obtain ⟨ev, b, hev, hc⟩ := he.connect
    have hmem : .a .invBrkn1 ∈ p.cls.mro := by
      rw [hp]
      decide
    rw [passes_eq_false (hl.nerrs_of_faults h hev (.inr (.inr ⟨hmem, hc⟩)))] at hpass
    cases hpass
  · rw [hp] at hpass
    obtain ⟨acct, hacct, hno⟩ := passes_earlyCancel hec hpass
    have hkeeps : y.st.acct = (accts y.st.log).getLast? := hl.keepsAcct h
    rw [hacct] at hkeeps
    rw [he.acct acct hkeeps.symm] at hno
    cases hno

/-- **When a call that is set up fails a scenario in which it must not be.**
In every run in which the call has been set up, the verdict is not 0 if and
only if the class is no `a_test3`, or the call has not been ended by the callee
or the switch, or a body was rejected. -/
theorem mustFail_iff {scn : Scenario} {r : Report} (hp : p.cls = .a scn) (hs : scn ∈ mustFail)
    (hm : p.named = false) (h : p.Reaches acts y) (hr : y.st.report = some r)
    (he : Established r.log) :
    r.rval ≠ 0 ↔ (scn ∉ test3Family ∨ ¬ Ended p.cls r.log ∨ HasRejected p.tccfg r.log) := by
  obtain ⟨acts₁, y₁, hreach, hl, hn, hzero, ⟨n, hlog⟩, -⟩ := Setup.rval_iff h hr hm
  have hended : Ended p.cls r.log ↔ Ended p.cls y₁.st.log := by
    rw [hlog]
    simp only [Ended, disconnected_mem_iff]
  have hrejected : HasRejected p.tccfg r.log ↔ HasRejected p.tccfg y₁.st.log := by
    rw [hlog]
    simp only [HasRejected, event_mem_iff]
  rw [ne_eq, hzero, hended, hrejected]
  by_cases h3 : scn ∈ test3Family
  · rw [hl.passes_test3_iff hp h3 hreach hn]
    tauto
  · have he₁ : Established y₁.st.log := by
      obtain ⟨⟨ev, b, hev, hc⟩, hconn, hacct⟩ := he
      rw [hlog] at hev hconn hacct
      rw [accts_dead] at hacct
      exact ⟨⟨ev, b, event_mem_iff.mp hev, hc⟩, connected_mem_iff.mp hconn, hacct⟩
    rw [hl.not_passes_of_established hp hs h3 hreach he₁]
    simp [h3]

/-- A call that is set up and ended. -/
def Sample.setUp : List Act :=
  [.ret env, enter (.event (.ring 180 "Ringing" none)),
    enter (.event (.connect 200 "OK" (some proxied))), enter .connected,
    enter (.disconnected .callee ⟨10, 1, true, true⟩), enter .dead]

/-- The chronicle of that call says so. -/
theorem established_setUp {cli cld : String} {sdp : Option Sdp} : Established
    [.inject (.ccTry cli cld sdp), .event (.ring 180 "Ringing" none) false,
      .event (.connect 200 "OK" (some Sample.proxied)) false, .connected, .connectDone,
      .disconnected .callee ⟨10, 1, true, true⟩, .disconnectDone, .dead] where
  connect := ⟨.connect 200 "OK" (some Sample.proxied), false, by simp, rfl⟩
  connected := by simp
  acct := by simp [accts]

/-- `a_test3` lets a call pass that was set up. -/
theorem not_mustFail_t3 : ¬ ∀ (p : Setup) (scn : Scenario) (acts : List Act) (y : Sys) (r : Report),
    p.cls = .a scn → scn ∈ mustFail → p.named = false → p.Reaches acts y →
      y.st.report = some r → Established r.log → r.rval ≠ 0 := by
  intro hall
  have hrun : ((Sample.alice .t3 false).run Sample.setUp).map (fun y => y.st.report) =
      some (some ⟨0, [.inject (.ccTry "alice_3" "bob_3" (some Sample.body)),
        .event (.ring 180 "Ringing" none) false,
        .event (.connect 200 "OK" (some Sample.proxied)) false, .connected, .connectDone,
        .disconnected .callee ⟨10, 1, true, true⟩, .disconnectDone, .dead]⟩) := by
    decide +kernel
  obtain ⟨y, hy, hr⟩ := Setup.exists_of_run hrun
  exact hall _ .t3 _ y _ rfl (by decide) rfl hy hr established_setUp rfl

/-- The same call fails `a_test11`. -/
theorem mustFail_iff_t11 : ∃ r : Report, Established r.log ∧ r.rval ≠ 0 := by
  have hrun : ((Sample.alice .t11 false).run Sample.setUp).map (fun y => y.st.report) =
      some (some ⟨1, [.inject (.ccTry "alice_11" "bob_11" (some Sample.body)),
        .event (.ring 180 "Ringing" none) false,
        .event (.connect 200 "OK" (some Sample.proxied)) false, .connected, .connectDone,
        .disconnected .callee ⟨10, 1, true, true⟩, .disconnectDone, .dead]⟩) := by
    decide +kernel
  obtain ⟨y, hy, hr⟩ := Setup.exists_of_run hrun
  have hv := (mustFail_iff (p := Sample.alice .t11 false) rfl (by decide) rfl hy hr
    established_setUp).mpr (.inl (by decide))
  exact ⟨⟨1, _⟩, established_setUp, hv⟩

end VoipTests
