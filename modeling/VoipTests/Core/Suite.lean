import VoipTests.Core.Pairing
import VoipTests.Subtest.Callee

/-!
# VoipTests.Core.Suite

Alice's core with her subtests: `a_test` over the machines of the objects that
it creates, one for each subtest that has been scheduled.

The composite refines the accounting of `VoipTests.Core.Base`: every run of it is
a run of the books in which a subtest is pending, has passed or has failed as its
object has reported (`Suite.refines`).  With what a verdict of 0 takes in each
class (`Carried`), a green Alice says something about calls: `Suite.green_calls`.
-/

namespace VoipTests

open Callback Run

/-! ## the composite -/

/-- What `init_test` leaves, once the UA has returned to the constructor.  An object
cannot be done before it is on the list: `list.remove` would raise. -/
def Setup.build (p : Setup) (acts : List Act) : Option Sys := do
  let y ← p.run acts
  if y.pending.isEmpty && y.st.ua.created && y.st.report.isNone then some y else none

/-- The loop of `a_test.__init__` over the shuffled subtests. -/
def buildAll : List (Setup × List Act) → Option (List Sys)
  | [] => some []
  | (p, acts) :: ps => do
    let y ← p.build acts
    let ys ← buildAll ps
    some (y :: ys)

/-- Alice's core, and the subtests it has created. -/
structure Suite where
  core : Core
  subtests : List Sys

/-- What happens to Alice. -/
inductive SuiteAct where
  /-- A request that opens a dialog: `testcore_base.recvRequest` answers with 501. -/
  | refuse
  /-- Something happens to a subtest. -/
  | subtest (i : Nat) (a : Act)
  /-- The timer of `test_timeout` fires. -/
  | timeout

/-- The core as a subtest goes on: `done` calls `subtest_done`. -/
def Core.followA (core : Core) (i : Nat) (y y' : Sys) : Option Core :=
  match y.st.report, y'.st.report with
  | none, some r => core.subtestDone .aTest i r.rval
  | _, _ => some core

namespace Suite

/-- Alice as her loop is entered. -/
def start (ps : List (Setup × List Act)) : Option Suite :=
  (buildAll ps).map fun ys => ⟨.initA ys.length, ys⟩

/-- One step of Alice while her loop runs. -/
def step (s : Suite) (act : SuiteAct) : Option Suite :=
  if s.core.loop ≠ .looping then none
  else match act with
    | .refuse => some s
    | .subtest i a =>
      if !fromOutside a then none
      else do
        let y ← s.subtests[i]?
        let y' ← machine.step y a
        let core ← s.core.followA i y y'
        some ⟨core, s.subtests.set i y'⟩
    | .timeout => some { s with core := s.core.timeout .aTest }

/-- What a subtest has reported, if there is one. -/
def verdict (s : Suite) (i : Nat) : Option (Option Int) :=
  s.subtests[i]?.map fun y => y.st.report.map Report.rval

end Suite

/-! ## the refinement -/

theorem Setup.reaches_of_build {p : Setup} {acts : List Act} {y : Sys}
    (h : p.build acts = some y) : p.Reaches acts y ∧ y.st.report = none := by
  unfold Setup.build at h
  simp only [Option.bind_eq_bind, Option.bind_eq_some_iff] at h
  obtain ⟨y', hrun, h⟩ := h
  obtain ⟨hbuilt, h⟩ := Option.ite_none_right_eq_some.mp h
  cases h
  simp only [Bool.and_eq_true, Option.isNone_iff_eq_none] at hbuilt
  exact ⟨Setup.reaches_of_run hrun, hbuilt.2⟩

theorem forall₂_of_buildAll {ps : List (Setup × List Act)} {ys : List Sys}
    (h : buildAll ps = some ys) : List.Forall₂ (fun pa y => pa.1.build pa.2 = some y) ps ys := by
  induction ps generalizing ys with
  | nil =>
      cases h
      exact .nil
  | cons pa ps ih =>
      simp only [buildAll, Option.bind_eq_bind, Option.bind_eq_some_iff] at h
      obtain ⟨y, hy, ys', hys, h⟩ := h
      cases h
      exact .cons hy (ih hys)

/-- What is known of the objects as the loop is entered. -/
theorem of_buildAll {ps : List (Setup × List Act)} {ys : List Sys} (h : buildAll ps = some ys) :
    List.Forall₂ (fun pa y => pa.1.Reaches pa.2 y ∧ y.st.report = none) ps ys :=
  (forall₂_of_buildAll h).imp fun _ _ => Setup.reaches_of_build

/-- What an object has reported, as a pass or not. -/
def marked (v : Option (Option Int)) : Option (Option Bool) :=
  v.map (Option.map fun rval => decide (rval = 0))

section Marked

variable {v : Option (Option Int)}

@[simp] theorem marked_none : marked none = none := rfl

@[simp] theorem marked_some (v : Option Int) :
    marked (some v) = some (v.map fun rval => decide (rval = 0)) := rfl

@[simp] theorem marked_eq_none : marked v = none ↔ v = none := by
  simp [marked]

@[simp] theorem marked_eq_pending : marked v = some none ↔ v = some none := by
  simp [marked]

@[simp] theorem marked_eq_passed : marked v = some (some true) ↔ v = some (some 0) := by
  simp [marked]

@[simp] theorem marked_eq_failed :
    marked v = some (some false) ↔ ∃ n, n ≠ 0 ∧ v = some (some n) := by
  simp [marked, and_comm]

end Marked

/-- The books `b` are right about Alice: they have her core, and each subtest is
where its object has put it. -/
structure Mirrors (ps : List (Setup × List Act)) (s : Suite) (b : Books) : Prop where
  core : b.core = s.core
  length : s.subtests.length = ps.length
  reaches : ∀ (i : Nat) (y : Sys), s.subtests[i]? = some y →
    ∃ pa acts, ps[i]? = some pa ∧ pa.1.Reaches acts y
  pending : ∀ i, i ∈ b.ledger.pending ↔ s.verdict i = some none
  passed : ∀ i, i ∈ b.ledger.passed ↔ s.verdict i = some (some 0)
  failed : ∀ i, i ∈ b.ledger.failed ↔ ∃ v, v ≠ 0 ∧ s.verdict i = some (some v)

/-- A subtest that is on the list can be taken off. -/
theorem Core.exists_subtestDone {cls : CoreClass} {core : Core} {i : Nat}
    (h : i ∈ core.subtestsRunning) (rval : Int) :
    ∃ core', core.subtestDone cls i rval = some core' := by
  rw [← Option.ne_none_iff_exists', Core.subtestDone, if_neg (not_not.mpr h)]
  dsimp only
  split_ifs <;> exact Option.some_ne_none _

section Refinement

variable {ps : List (Setup × List Act)} {s s' : Suite} {b : Books} {i : Nat} {y y' : Sys} {a : Act}

theorem Mirrors.keeps (h : Mirrors ps s b) : b.ledger.Keeps fun i => marked (s.verdict i) :=
  ⟨by simp [h.pending], by simp [h.passed], by simp [h.failed]⟩

theorem mirrors_of_keeps (hcore : b.core = s.core) (hlength : s.subtests.length = ps.length)
    (hreaches : ∀ (i : Nat) (y : Sys), s.subtests[i]? = some y →
      ∃ pa acts, ps[i]? = some pa ∧ pa.1.Reaches acts y)
    (hkeeps : b.ledger.Keeps fun i => marked (s.verdict i)) : Mirrors ps s b :=
  ⟨hcore, hlength, hreaches, by simp [hkeeps.pending], by simp [hkeeps.passed],
    by simp [hkeeps.failed]⟩

theorem mirrors_start (h : Suite.start ps = some s) :
    Mirrors ps s (Books.start ps.length .aTest) := by
  obtain ⟨ys, hys, rfl⟩ := Option.map_eq_some_iff.mp h
  have hall := of_buildAll hys
  have hlen : ys.length = ps.length := hall.length_eq.symm
  have hopen (i : Nat) (hi : i < ys.length) :
      (Suite.mk (.initA ys.length) ys).verdict i = some none := by
    have hnone := (hall.get (hall.length_eq ▸ hi) hi).2
    simp only [List.get_eq_getElem] at hnone
    simp [Suite.verdict, hi, hnone]
  have hbeyond (i : Nat) (hi : ys.length ≤ i) :
      (Suite.mk (.initA ys.length) ys).verdict i = none := by
    simp [Suite.verdict, hi]
  refine mirrors_of_keeps (by rw [hlen]; rfl) hlen (fun i y hy => ?_) ?_
  · obtain ⟨hi, rfl⟩ := List.getElem?_eq_some_iff.mp hy
    have hi' : i < ps.length := hlen ▸ hi
    exact ⟨ps[i], _, List.getElem?_eq_getElem hi', (hall.get hi' hi).1⟩
  · constructor
    all_goals
      intro i
      obtain hi | hi := Nat.lt_or_ge i ys.length
      · simp [Books.start, Ledger.opening, hopen i hi, ← hlen, hi]
      · simp [Books.start, Ledger.opening, hbeyond i hi, ← hlen, hi]

theorem Suite.verdict_set (hi : s.subtests[i]? = some y) (core : Core) :
    (fun j => marked ((Suite.mk core (s.subtests.set i y')).verdict j)) =
      Function.update (fun j => marked (s.verdict j)) i
        (some (y'.st.report.map fun r => decide (r.rval = 0))) := by
  have hlt := (List.getElem?_eq_some_iff.mp hi).1
  funext j
  by_cases hj : j = i
  · subst hj
    simp [Suite.verdict, hlt, Function.comp_def]
  · simp [Suite.verdict, hj, List.getElem?_set_ne (Ne.symm hj)]

/-- A subtest has moved on to `y'`, which its object can get to. -/
theorem Mirrors.reaches_set (h : Mirrors ps s b) (hi : s.subtests[i]? = some y)
    (hs : machine.step y a = some y') (j : Nat) (z : Sys)
    (hj : (s.subtests.set i y')[j]? = some z) :
    ∃ pa acts, ps[j]? = some pa ∧ pa.1.Reaches acts z := by
  by_cases hji : j = i
  · subst hji
    obtain ⟨pa, acts, hpa, hreach⟩ := h.reaches j y hi
    rw [List.getElem?_set_self (List.getElem?_eq_some_iff.mp hi).1, Option.some.injEq] at hj
    have hone : exec machine.step y [a] = some y' := by rw [exec_cons, hs]; rfl
    exact ⟨pa, acts ++ [a], hpa, hj ▸ hreach.append hone⟩
  · rw [List.getElem?_set_ne (Ne.symm hji)] at hj
    exact h.reaches j z hj

/-- A step that reports nothing new leaves the books alone. -/
theorem Mirrors.silent (h : Mirrors ps s b) (hi : s.subtests[i]? = some y)
    (hs : machine.step y a = some y') (hrep : y'.st.report = y.st.report) :
    Mirrors ps ⟨s.core, s.subtests.set i y'⟩ b := by
  refine mirrors_of_keeps h.core (by simpa using h.length) (h.reaches_set hi hs) ?_
  have hsame : marked (s.verdict i) = some (y'.st.report.map fun r => decide (r.rval = 0)) := by
    simp [Suite.verdict, hi, hrep, Function.comp_def]
  rw [Suite.verdict_set hi, ← hsame, Function.update_eq_self]
  exact h.keeps

/-- **A report** is a completion. -/
theorem Mirrors.done (h : Mirrors ps s b) (hi : s.subtests[i]? = some y)
    (hs : machine.step y a = some y') (hn : y.st.report = none) {r : Report}
    (hr : y'.st.report = some r) (core : Core) :
    Mirrors ps ⟨core, s.subtests.set i y'⟩ ⟨core, b.ledger.complete i (r.rval = 0)⟩ := by
  refine mirrors_of_keeps rfl (by simpa using h.length) (h.reaches_set hi hs) ?_
  rw [Suite.verdict_set hi, hr]
  exact h.keeps.complete (by simp [Suite.verdict, hi, hn]) _

/-- **One step** of Alice is one of her books, or none. -/
theorem Mirrors.step {act : SuiteAct} (h : Mirrors ps s b) (hs : s.step act = some s') :
    ∃ acts b', exec (Books.step .aTest) b acts = some b' ∧ Mirrors ps s' b' := by
  unfold Suite.step at hs
  split at hs
  · cases hs
  · next hl =>
    rw [not_not] at hl
    have hl' : b.core.loop = .looping := h.core ▸ hl
    cases act with
    | refuse =>
        cases hs
        exact ⟨[], b, rfl, h⟩
    | timeout =>
        cases hs
        refine ⟨[.timeout], ⟨b.core.timeout .aTest, b.ledger⟩, ?_, ?_⟩
        · simp [Books.step, hl']
        · exact ⟨by rw [h.core], h.length, h.reaches, h.pending, h.passed, h.failed⟩
    | subtest i a =>
        obtain ⟨-, hs⟩ := Option.ite_none_left_eq_some.mp hs
        simp only [Option.bind_eq_bind, Option.bind_eq_some_iff, Option.some.injEq] at hs
        obtain ⟨y, hi, y', hstep, core, hcore, rfl⟩ := hs
        obtain ⟨pa, acts, -, hreach⟩ := h.reaches i y hi
        have hfound := Setup.found_of_reaches hreach
        have hlive := hfound.lives_of_step hstep
        cases hn : y.st.report with
        | some r =>
            have hrep := hlive.report hn (hfound.step hstep).2
            rw [Core.followA, hn] at hcore
            cases hcore
            exact ⟨[], b, rfl, h.silent hi hstep (hrep.trans hn.symm)⟩
        | none =>
            cases hr : y'.st.report with
            | none =>
                rw [Core.followA, hn, hr] at hcore
                cases hcore
                exact ⟨[], b, rfl, h.silent hi hstep (hr.trans hn.symm)⟩
            | some r =>
                rw [Core.followA, hn, hr] at hcore
                have hpend : i ∈ b.ledger.pending := by
                  rw [h.pending, Suite.verdict, hi]
                  simp [hn]
                refine ⟨[.done i r.rval], _, ?_, h.done hi hstep hn hr core⟩
                have hcore' : b.core.subtestDone .aTest i r.rval = some core := h.core ▸ hcore
                simp [Books.step, hl', hpend, hcore']

/-- A run of Alice is one of her books. -/
theorem Mirrors.exec {acts : List SuiteAct} (h : Mirrors ps s b)
    (hs : exec Suite.step s acts = some s') :
    ∃ bacts b', exec (Books.step .aTest) b bacts = some b' ∧ Mirrors ps s' b' := by
  induction acts generalizing s b with
  | nil =>
      cases hs
      exact ⟨[], b, rfl, h⟩
  | cons act acts ih =>
      rw [exec_cons, Option.bind_eq_some_iff] at hs
      obtain ⟨s₁, h₁, h₂⟩ := hs
      obtain ⟨bacts₁, b₁, hb₁, hm₁⟩ := h.step h₁
      obtain ⟨bacts₂, b', hb₂, hm₂⟩ := ih hm₁ h₂
      refine ⟨bacts₁ ++ bacts₂, b', ?_, hm₂⟩
      rw [exec_append, hb₁]
      exact hb₂

/-- The counter of Alice's books is what they owe, at any time. -/
theorem rval_of_exec {n : Nat} {acts : List CoreAct}
    (h : exec (Books.step .aTest) (Books.start n .aTest) acts = some b) :
    b.core.rval = b.ledger.owed := by
  by_cases hloop : b.core.loop = .looping
  · have hr := ((tracks_start .aTest n).exec h).rval (by simp [hloop])
    simpa [CoreClass.base] using hr
  · have hr := rval_of_ended h hloop
    simp only [CoreClass.base] at hr
    split at hr <;> omega

/-- Alice's counter is the number of subtests without a verdict of 0. -/
theorem Mirrors.owed (h : Mirrors ps s b) : b.ledger.owed =
    ((Finset.range ps.length).filter fun i => s.verdict i ≠ some (some 0)).card := by
  have hrange (i : Nat) : marked (s.verdict i) ≠ none ↔ i ∈ Finset.range ps.length := by
    simp [Suite.verdict, h.length]
  rw [h.keeps.owed_eq fun i hi => (hrange i).mp hi]
  refine congrArg Finset.card (Finset.filter_congr fun i hi => ?_)
  rw [and_iff_right ((hrange i).mpr hi), ne_eq, marked_eq_passed]

theorem Suite.mirrored {s₀ : Suite} {acts : List SuiteAct} (hstart : Suite.start ps = some s₀)
    (h : exec Suite.step s₀ acts = some s) :
    ∃ bacts b, exec (Books.step .aTest) (Books.start ps.length .aTest) bacts = some b ∧
      Mirrors ps s b :=
  (mirrors_start hstart).exec h

/-- **Alice with her subtests is her books.**  In every run, whatever happens to
the subtests and in whatever order: the run is one of the books, in which each
subtest is pending, passed or failed as its object has reported; `rval` is the
number of subtests that have not reported 0; and while the loop runs, nothing that
can happen to a subtest is refused by the core. -/
theorem Suite.refines {s₀ : Suite} {acts : List SuiteAct} (hstart : Suite.start ps = some s₀)
    (h : exec Suite.step s₀ acts = some s) :
    (∃ bacts b, exec (Books.step .aTest) (Books.start ps.length .aTest) bacts = some b ∧
      Mirrors ps s b) ∧
    s.core.rval = ((Finset.range ps.length).filter fun i => s.verdict i ≠ some (some 0)).card ∧
    ∀ i a y y', s.core.loop = .looping → s.subtests[i]? = some y → fromOutside a = true →
      machine.step y a = some y' → ∃ s', s.step (.subtest i a) = some s' := by
  obtain ⟨bacts, b, hb, hm⟩ := Suite.mirrored hstart h
  have T := (tracks_start .aTest ps.length).exec hb
  refine ⟨⟨bacts, b, hb, hm⟩, ?_, fun i a y y' hl hi ha hs => ?_⟩
  · rw [← hm.core, rval_of_exec hb, hm.owed]
  have hcore : ∃ core, s.core.followA i y y' = some core := by
    unfold Core.followA
    split
    · next hn hr =>
      refine Core.exists_subtestDone ?_ _
      rw [← hm.core, T.running, hm.pending, Suite.verdict, hi]
      simp [hn]
    · exact ⟨s.core, rfl⟩
  obtain ⟨core, hcore⟩ := hcore
  exact ⟨⟨core, s.subtests.set i y'⟩, by simp [Suite.step, hl, ha, hi, hs, hcore]⟩

end Refinement

namespace Sample

/-- A call of `a_test1` that is set up, and that the callee ends. -/
def carriedCall (i : Nat) : List SuiteAct :=
  [.subtest i (enter (.event (.ring 180 "Ringing" none))), .subtest i (enter .connected),
    .subtest i (enter (.disconnected .callee ⟨10, 1, true, true⟩)), .subtest i (enter .dead)]

end Sample

/-- Two calls, of which the second one is never ended. -/
theorem Suite.refines_two : ∃ s₀ s, Suite.start (List.replicate 2
      (Sample.alice .t1 false, [.ret Sample.env])) = some s₀ ∧
    exec Suite.step s₀ (Sample.carriedCall 0 ++ [.timeout]) = some s ∧
    s.core.rval = ((Finset.range 2).filter fun i => s.verdict i ≠ some (some 0)).card ∧
    s.core.rval = 1 := by
  have hrun : ((Suite.start (List.replicate 2 (Sample.alice .t1 false, [.ret Sample.env]))).map
      fun s₀ => (exec Suite.step s₀ (Sample.carriedCall 0 ++ [.timeout])).map
        fun s => s.core.rval) = some (some 1) := by
    decide +kernel
  obtain ⟨s₀, hstart, hrun⟩ := Option.map_eq_some_iff.mp hrun
  obtain ⟨s, hs, hrval⟩ := Option.map_eq_some_iff.mp hrun
  exact ⟨s₀, s, hstart, hs, (Suite.refines hstart hs).2.1, hrval⟩

/-! ## what a pass takes -/

/-- A call of Alice's has gone as its scenario wants it: it was ended by the other
side or the switch, no body was rejected, it was set up or it was not, and a
re-INVITE that was sent while it was up had the outcome it was to have. -/
structure Carried (scn : Scenario) (cfg : TcCfg) (log : List Obs) : Prop where
  ended : Ended (.a scn) log
  accepted : ¬ HasRejected cfg log
  setUp : scn ∉ mustFail →
    (∃ ev inProgress, .event ev inProgress ∈ log ∧ ev.isRing = true) ∧ .connected ∈ log
  notSetUp : scn ∈ mustFail → scn ∉ test3Family → ¬ Established log
  reinvited : .a scn ∈ initiators →
    ∃ l ev, l ++ [.event ev true] <+: log ∧ Sent l ∧ (PyClass.a scn).wants ev = true
  outcomes : .a scn ∈ initiators → ∀ ev, .event ev true ∈ log →
    ev.isConnect = true ∨ ev.isFailure = true → (PyClass.a scn).wants ev = true

/-- Wherever the call has to be set up, the flags for it are looked at. -/
theorem flags_of_passes {scn : Scenario} {s : Subtest} (h : scn ∉ mustFail)
    (hp : passes (PyClass.a scn).mro s = true) : s.ringDone = true ∧ s.connectDone = true := by
  have hand : ∃ b, (b && (s.ringDone && s.connectDone && s.disconnectDone &&
      decide (s.nerrs = 0))) = true := by
    cases scn <;> first | exact absurd (by decide) h | exact ⟨true, hp⟩ | exact ⟨_, hp⟩
  obtain ⟨b, hand⟩ := hand
  simp only [Bool.and_eq_true] at hand
  exact ⟨hand.2.1.1.1, hand.2.1.1.2⟩

theorem isA_of_setUp {scn : Scenario} (h : scn ∉ mustFail) :
    (PyClass.a scn).isA .testEarlyCancel = false := by
  cases scn <;> first | exact absurd (by decide) h | decide +kernel

section Pass

variable {p : Setup} {scn : Scenario} {acts : List Act} {y : Sys} {r : Report}

/-- **What a verdict of 0 takes**, of an object as `alldone` finds it. -/
theorem Setup.Lives.carried_of_passes (hl : p.Lives y.st) (hp : p.cls = .a scn)
    (h : p.Reaches acts y) (hpass : passes p.cls.mro y.st = true) :
    Carried scn p.tccfg y.st.log := by
  have halice : p.cls.isAlice = true := by
    rw [hp]
    rfl
  have hclean {ev : CCEvent} {b : Bool} (hev : .event ev b ∈ y.st.log) :
      ¬ Faults p.cls.mro p.cls p.tccfg ev b := fun hf => by
    rw [passes_eq_false (hl.nerrs_of_faults h hev hf)] at hpass
    cases hpass
  have hrec := hl.recorded
  refine ⟨?_, ?_, fun hset => ?_, fun hfail h3 he => ?_, fun hi => ?_, fun hi ev hev he => ?_⟩
  · obtain ⟨origin, acct, ho, ha⟩ := hrec.accepted (disconnectDone_of_passes hpass)
    exact ⟨origin, acct, ho, by rw [← hp, ← hl.cls]; exact ha⟩
  · rintro ⟨ev, b, sdp, hev, hsdp, hrej⟩
    exact hclean hev (.inl ⟨halice, sdp, hsdp, hrej⟩)
  · rw [hp] at hpass
    obtain ⟨hring, hconn⟩ := flags_of_passes hset hpass
    have hearly : y.st.cls.isA .testEarlyCancel = false := by
      rw [hl.cls, hp]
      exact isA_of_setUp hset
    exact ⟨hrec.rung hearly (hl.cls ▸ halice) hring, hrec.connected hearly (hl.cls ▸ halice) hconn⟩
  · rw [hl.not_passes_of_established hp hfail h3 h he] at hpass
    cases hpass
  · exact hp ▸ (hl.reinvited_of_passes (hp ▸ hi) h hpass).settled
  · exact hp ▸ (hl.reinvited_of_passes (hp ▸ hi) h hpass).outcomes ev hev he

/-- What comes after `alldone` makes no difference. -/
theorem Carried.dead {cfg : TcCfg} {log : List Obs} (h : Carried scn cfg log) (n : Nat) :
    Carried scn cfg (log ++ .dead :: List.replicate n .connectDone) := by
  refine ⟨?_, ?_, fun hset => ?_, fun hfail h3 => ?_, fun hi => ?_, fun hi ev hev => ?_⟩
  · simpa only [Ended, disconnected_mem_iff] using h.ended
  · simpa only [HasRejected, event_mem_iff] using h.accepted
  · simpa only [event_mem_iff, connected_mem_iff] using h.setUp hset
  · rintro ⟨hconnect, hconn, hacct⟩
    rw [accts_dead] at hacct
    refine h.notSetUp hfail h3 ⟨?_, connected_mem_iff.mp hconn, hacct⟩
    simpa only [event_mem_iff] using hconnect
  · obtain ⟨l, ev, hev, hsent, hw⟩ := h.reinvited hi
    exact ⟨l, ev, hev.trans (List.prefix_append _ _), hsent, hw⟩
  · exact h.outcomes hi ev (event_mem_iff.mp hev)

/-- **A report of 0** is of a call that has gone as its scenario wants it, unless
the test may fail. -/
theorem Setup.carried_of_report (hp : p.cls = .a scn) (hm : p.named = false)
    (h : p.Reaches acts y) (hr : y.st.report = some r) (hv : r.rval = 0) :
    Carried scn p.tccfg r.log := by
  obtain ⟨acts₁, y₁, h₁, hl, hpass, ⟨n, hlog⟩, -⟩ := Setup.passes_of_rval h hr hm hv
  rw [hlog]
  exact (hl.carried_of_passes hp h₁ hpass).dead n

end Pass

/-! ## a green Alice -/

/-- `a_test.__init__`: every subtest with what it finds outside, and with what
happens until its constructor returns; `mightfail` is set by the `cli` of its class. -/
def Suite.create (tcfg : TestConfig) (created : List (ACfg × Env × List Act)) : Option Suite :=
  Suite.start (created.map fun c =>
    (c.1.setup (decide (c.1.testClass.alice ∈ tcfg.testsMightfail)) c.2.1, c.2.2))

theorem alice_mem_testsMightfail {common : Common} {opts : List (String × String)} {scn : Scenario}
    {name : String} (hscn : scn.alice = "alice_" ++ name) :
    scn.alice ∈ (mainConfig common opts).testsMightfail ↔ name ∈ common.testsMightfail := by
  have hinj : Function.Injective ("alice_" ++ ·) := fun a b hab => by
    simpa [String.ext_iff] using hab
  rw [mainConfig_eq, hscn]
  exact List.mem_map_of_injective hinj

section Green

variable {common : Common} {opts : List (String × String)} {created : List (ACfg × Env × List Act)}
variable {s₀ s : Suite} {acts : List SuiteAct}

/-- A subtest that has been created has reported, if all is well. -/
theorem Suite.carried_of_verdict {i : Nat} {x : ACfg} {name : String}
    (hstart : Suite.create (mainConfig common opts) created = some s₀)
    (h : exec Suite.step s₀ acts = some s) (hx : (created.map Prod.fst)[i]? = some x)
    (halice : x.testClass.alice = "alice_" ++ name) (hverdict : s.verdict i = some (some 0)) :
    ∃ (y : Sys) (r : Report), s.subtests[i]? = some y ∧ y.st.report = some r ∧ r.rval = 0 ∧
      (name ∉ common.testsMightfail → Carried x.testClass x.tcfg r.log) := by
  obtain ⟨bacts, b, -, hm⟩ := Suite.mirrored hstart h
  simp only [Suite.verdict, Option.map_eq_some_iff] at hverdict
  obtain ⟨y, hy, r, hr, hrval⟩ := hverdict
  refine ⟨y, r, hy, hr, hrval, fun hnot => ?_⟩
  obtain ⟨pa, acts', hpa, hreach⟩ := hm.reaches i y hy
  have hi : i < created.length := by simpa using (List.getElem?_eq_some_iff.mp hx).1
  have hp : pa.1 =
      x.setup (decide (x.testClass.alice ∈ (mainConfig common opts).testsMightfail))
        created[i].2.1 := by
    rw [List.getElem?_map, List.getElem?_eq_getElem hi] at hpa hx
    cases hpa
    cases hx
    rfl
  rw [hp] at hreach
  exact Setup.carried_of_report rfl
    (by simpa [ACfg.setup, alice_mem_testsMightfail halice] using hnot) hreach hr hrval

/-- Alice exits with 0 if and only if every object has reported 0. -/
theorem Suite.rval_eq_zero_iff (hstart : Suite.create (mainConfig common opts) created = some s₀)
    (h : exec Suite.step s₀ acts = some s) (hend : s.core.loop ≠ .looping) :
    s.core.rval = 0 ↔ ∀ i < created.length, s.verdict i = some (some 0) := by
  obtain ⟨bacts, b, hb, hm⟩ := Suite.mirrored hstart h
  rw [← hm.core, VoipTests.rval_eq_zero_iff hb (hm.core ▸ hend), hm.keeps.green_iff_passed]
  have hlen : s.subtests.length = created.length := by simpa using hm.length
  refine forall_congr' fun i => ?_
  rw [marked_eq_none, marked_eq_passed, ← hlen]
  by_cases hi : i < s.subtests.length
  · simp [Suite.verdict, hi]
  · simp [Suite.verdict, hi]

/-- **What a green Alice says about the calls.**  For all options that ask for known
names, every order of the scheduled subtests, and whatever happens to them: if `rval`
is 0 when the loop ends, then for every name, family and mode that was asked for
there is a subtest whose object has reported 0; and unless the name is among those
that might fail, its call has gone as the scenario wants it. -/
theorem Suite.green_calls {origins : Nat → OHeader} {draws rest : List Draw} {atests : List ACfg}
    (hsched : (mainConfig common opts).atests origins draws = .ok (atests, rest))
    (hperm : (created.map Prod.fst).Perm atests)
    (hknown : ∀ name ∈ requested opts, Known name)
    (hstart : Suite.create (mainConfig common opts) created = some s₀)
    (h : exec Suite.step s₀ acts = some s) (hend : s.core.loop ≠ .looping) (hv : s.core.rval = 0) :
    ∀ name ∈ requested opts, ∀ atype ∈ familiesAsked opts, ∀ so ∈ modesAsked opts,
      ∃ (i : Nat) (x : ACfg) (y : Sys) (r : Report), (created.map Prod.fst)[i]? = some x ∧
        x.testClass.alice = "alice_" ++ name ∧ x.tcfg.atype = atype ∧ x.signallingOnly = so ∧
        s.subtests[i]? = some y ∧ y.st.report = some r ∧ r.rval = 0 ∧
        (name ∉ common.testsMightfail → Carried x.testClass x.tcfg r.log) := by
  intro name hname atype hatype so hso
  obtain ⟨i, x, hx, halice, hfam, hmode⟩ :=
    exists_shuffled hsched hperm hname (hknown name hname) hatype hso
  have hi : i < created.length := by simpa using (List.getElem?_eq_some_iff.mp hx).1
  have hverdict := (Suite.rval_eq_zero_iff hstart h hend).mp hv i hi
  obtain ⟨y, r, hy, hr, hrval, hcarried⟩ := Suite.carried_of_verdict hstart h hx halice hverdict
  exact ⟨i, x, y, r, hx, halice, hfam, hmode, hy, hr, hrval, hcarried⟩

end Green

/-- One name, one family and one mode: two calls, and both are set up and ended. -/
theorem Suite.green_calls_one : ∃ (x : ACfg) (r : Report), x.testClass.alice = "alice_1" ∧
    r.rval = 0 ∧ Carried x.testClass x.tcfg r.log := by
  let opts : List (String × String) := [("-t", "1"), ("-4", ""), ("-s", "")]
  have hrun : ((mainConfig Sample.common opts).atests (fun _ => ⟨0⟩)
      (List.replicate 10 .half)).toOption.map (fun p =>
        (Suite.create (mainConfig Sample.common opts) (p.1.map fun x =>
          (x, Sample.env, [.ret Sample.env]))).map fun s₀ =>
            (exec Suite.step s₀ (Sample.carriedCall 1 ++ Sample.carriedCall 0)).map fun s =>
              (s.core.loop, s.core.rval)) = some (some (some (.drained, 0))) := by
    decide +kernel
  obtain ⟨⟨atests, rest⟩, hsched, hrun⟩ := Option.map_eq_some_iff.mp hrun
  obtain ⟨s₀, hstart, hrun⟩ := Option.map_eq_some_iff.mp hrun
  obtain ⟨s, hs, hrun⟩ := Option.map_eq_some_iff.mp hrun
  rw [Prod.mk.injEq] at hrun
  have hknown : ∀ name ∈ requested opts, Known name := by
    intro name hname
    have hone : name = "1" := by
      revert hname
      simp [opts, requested, namesAsked, show splitComma "1" = ["1"] by decide]
    exact ⟨.t1, by decide, hone ▸ rfl⟩
  obtain ⟨i, x, y, r, -, halice, -, -, -, -, hv, hcarried⟩ :=
    Suite.green_calls (eq_ok_of_toOption hsched) (by simp [Function.comp_def]) hknown hstart hs
      (by simp [hrun.1]) hrun.2 "1" (by decide) .ip4 (by decide) true (by decide)
  exact ⟨x, r, halice, hv, hcarried (by decide)⟩

end VoipTests
