import VoipTests.Core.Base
import VoipTests.Subtest.Life

/-!
# VoipTests.Core.Bob

Bob's core with its subtests: `b_test` over the machines of the objects that
`recvRequest` creates, one for each INVITE that opens a dialog.

The composite refines the accounting of `VoipTests.Core.Base`: an INVITE ends
as the creation of its subtest does, and a report is a completion (`Link`).
`error_never_lost` follows for the errors that a subtest counts, and for the
one that is raised before it has a UA.
-/

namespace VoipTests

open Callback

/-! ## the composite -/

/-- How `answer` ends for the core.  Once it has called the UA it ends well,
or by an exception from outside. -/
def answered : Out Subtest Exc UaCall Unit → Answered
  | .raise (.authRequired _) _ => .authRequired
  | .raise .authFailed _ => .authFailed
  | .raise _ _ => .escaped
  | _ => .handed

/-- Bob's core, and the subtests it has created. -/
structure Bob where
  core : Core
  subtests : List Sys

/-- What happens to Bob. -/
inductive BobAct where
  /-- An INVITE that opens a new dialog, and what the subtest is created from. -/
  | invite (p : Setup)
  /-- A request refused before a subtest is counted. -/
  | refuse
  /-- Something happens to a subtest. -/
  | subtest (i : Nat) (a : Act)
  /-- The timer of `test_timeout` fires. -/
  | timeout

/-- The core as a subtest goes on: `done` calls `subtest_done`. -/
def Core.follow (core : Core) (i : Nat) (y y' : Sys) : Option Core :=
  match y.st.report, y'.st.report with
  | none, some r => core.subtestDone .bTest i r.rval
  | _, _ => some core

/-- Only the suite's own code raises the suite's own exceptions. -/
def fromOutside : Act → Bool
  | .throw e => e = .outside
  | _ => true

/-- One step of Bob while his loop runs. -/
def Bob.step (b : Bob) (act : BobAct) : Option Bob :=
  if b.core.loop ≠ .looping then none
  else match act with
    | .invite p => match p.side with
      | .alice => none
      | .bob _ _ => p.start.map fun y =>
        ⟨b.core.recvInvite (answered (create p.scn p.side p.fresh)), b.subtests ++ [y]⟩
    | .refuse => some b
    | .subtest i a =>
      if !fromOutside a then none
      else do
        let y ← b.subtests[i]?
        let y' ← machine.step y a
        let core ← b.core.follow i y y'
        some ⟨core, b.subtests.set i y'⟩
    | .timeout => some { b with core := b.core.timeout .bTest }

/-- Bob as his loop is entered. -/
def Bob.start : Bob := ⟨.initB, []⟩

/-! ## the refinement -/

/-- The ledger `L` is right about Bob: it is tracked by his core, and has
every subtest pending that can still report. -/
structure Link (b : Bob) (L : Ledger Nat) : Prop where
  tracks : Tracks .bTest ⟨b.core, L⟩
  created : b.core.created = b.subtests.length
  found : ∀ (i : Nat) (y : Sys), b.subtests[i]? = some y → ∃ p : Setup, p.Found y
  pending : ∀ (i : Nat) (y : Sys), b.subtests[i]? = some y → y.st.ua.created = true → y.st.report = none →
    i ∈ L.pending

theorem link_start : Link Bob.start (.opening ∅) :=
  ⟨tracks_start .bTest 0, rfl, fun _ _ h => by simp [Bob.start] at h,
    fun _ _ h => by simp [Bob.start] at h⟩

/-- A subtest that counts, but will never report. -/
def Stuck (b : Bob) (L : Ledger Nat) (i : Nat) : Prop :=
  i ∈ L.pending ∧ ∃ y, b.subtests[i]? = some y ∧ y.st.ua.created = false ∧ y.pending = []

/-- A subtest that has a UA has been handed to it. -/
theorem answered_of_created {p : Setup} {y : Sys} (h : p.start = some y)
    (hc : y.st.ua.created = true) : answered (create p.scn p.side p.fresh) = .handed := by
  have huntil := p.until_create
  unfold Setup.start at h
  cases ho : create p.scn p.side p.fresh with
  | ret a s => rfl
  | raise e s =>
      rw [ho] at huntil h
      cases h
      have hno : s.ua.created = false := huntil.created
      rw [show s.ua.created = true from hc] at hno
      cases hno
  | call c s k => rfl
  | spin => rfl

/-- An INVITE: the new subtest is pending, unless the 401 has taken it back. -/
theorem Link.invite {b : Bob} {L : Ledger Nat} {p : Setup} {y : Sys} (ans : Answered)
    (h : Link b L) (hl : b.core.loop = .looping) (hstart : p.start = some y)
    (hans : ans = answered (create p.scn p.side p.fresh)) :
    Link ⟨b.core.recvInvite ans, b.subtests ++ [y]⟩ (inviteEntry L b.core.created ans) ∧
      ∀ i ∈ L.pending, i ∈ (inviteEntry L b.core.created ans).pending := by
  have hcreated : (b.core.recvInvite ans).created = b.core.created + 1 := by
    cases ans <;> rfl
  have hfresh : L.Fresh b.core.created := h.tracks.created _ le_rfl
  have hold : ∀ i ∈ L.pending, i ∈ (inviteEntry L b.core.created ans).pending := by
    intro i hi
    cases ans with
    | authRequired =>
        rw [inviteEntry, Ledger.withdraw_takeOn hfresh]
        exact hi
    | _ => exact Finset.mem_insert_of_mem hi
  have hcases {i : Nat} {y' : Sys} (hi : (b.subtests ++ [y])[i]? = some y') :
      b.subtests[i]? = some y' ∨ i = b.subtests.length ∧ y' = y := by
    rcases Nat.lt_trichotomy i b.subtests.length with hlt | heq | hgt
    · rw [List.getElem?_append_left hlt] at hi
      exact .inl hi
    · rw [heq, List.getElem?_concat_length, Option.some.injEq] at hi
      exact .inr ⟨heq, hi.symm⟩
    · rw [List.getElem?_eq_none (by simp; omega)] at hi
      cases hi
  refine ⟨⟨h.tracks.recvInvite hl ans, ?_, fun i y' hi => ?_, fun i y' hi hc hn => ?_⟩, hold⟩
  · rw [hcreated, h.created, List.length_append, List.length_singleton]
  · rcases hcases hi with hi | ⟨-, rfl⟩
    · exact h.found i y' hi
    · have hreach : p.Reaches [] y' := ⟨y', hstart, rfl⟩
      exact ⟨p, Setup.found_of_reaches hreach⟩
  · rcases hcases hi with hi | ⟨hlen, rfl⟩
    · exact hold i (h.pending i y' hi hc hn)
    · rw [hans, answered_of_created hstart hc, hlen, ← h.created]
      exact Finset.mem_insert_self _ _

/-- One subtest has moved on to `y'`, and the books are now `core` and `L'`. -/
theorem Link.update {b : Bob} {L L' : Ledger Nat} {i : Nat} {y y' : Sys} {core : Core}
    (h : Link b L) (hi : b.subtests[i]? = some y) (hf : ∃ p : Setup, p.Found y')
    (ht : Tracks .bTest ⟨core, L'⟩) (hcreated : core.created = b.core.created)
    (hothers : ∀ j ∈ L.pending, j ≠ i → j ∈ L'.pending)
    (hown : y'.st.ua.created = true → y'.st.report = none → i ∈ L'.pending) :
    Link ⟨core, b.subtests.set i y'⟩ L' := by
  have hcases {j : Nat} {z : Sys} (hj : (b.subtests.set i y')[j]? = some z) :
      j ≠ i ∧ b.subtests[j]? = some z ∨ j = i ∧ z = y' := by
    by_cases hji : i = j
    · subst hji
      rw [List.getElem?_set_self (List.getElem?_eq_some_iff.mp hi).1, Option.some.injEq] at hj
      exact .inr ⟨rfl, hj.symm⟩
    · rw [List.getElem?_set_ne hji] at hj
      exact .inl ⟨fun h => hji h.symm, hj⟩
  refine ⟨ht, ?_, fun j z hj => ?_, fun j z hj hc hn => ?_⟩
  · rw [List.length_set, ← h.created]
    exact hcreated
  · rcases hcases hj with ⟨-, hj⟩ | ⟨-, rfl⟩
    · exact h.found j z hj
    · exact hf
  · rcases hcases hj with ⟨hji, hj⟩ | ⟨rfl, rfl⟩
    · exact hothers j (h.pending j z hj hc hn) hji
    · exact hown hc hn

/-- Something happens to a subtest: at most it completes. -/
theorem Link.subtest {b : Bob} {L : Ledger Nat} {i : Nat} {a : Act} {y y' : Sys} {core : Core}
    (h : Link b L) (hl : b.core.loop = .looping) (hi : b.subtests[i]? = some y)
    (hs : machine.step y a = some y') (hc : b.core.follow i y y' = some core) :
    ∃ L', Link ⟨core, b.subtests.set i y'⟩ L' ∧ ∀ j ∈ L.pending, j ≠ i → j ∈ L'.pending := by
  obtain ⟨p, hfound⟩ := h.found i y hi
  have hlive := hfound.lives_of_step hs
  obtain ⟨hfound', hch⟩ := hfound.step hs
  -- A step that reports nothing new leaves the books alone.
  have hquiet (hcore : core = b.core) (hrep : y'.st.report = none → y.st.report = none) :
      ∃ L', Link ⟨core, b.subtests.set i y'⟩ L' ∧ ∀ j ∈ L.pending, j ≠ i → j ∈ L'.pending := by
    subst hcore
    exact ⟨L, h.update hi ⟨p, hfound'⟩ h.tracks rfl (fun j hj _ => hj)
      fun _ hn => h.pending i y hi hlive.created (hrep hn), fun j hj _ => hj⟩
  cases hn : y.st.report with
  | some r =>
      rw [Core.follow, hn] at hc
      refine hquiet (Option.some.inj hc).symm fun hn' => ?_
      rw [hlive.report hn hch] at hn'
      cases hn'
  | none =>
      cases hr : y'.st.report with
      | none =>
          rw [Core.follow, hn, hr] at hc
          exact hquiet (Option.some.inj hc).symm fun _ => hn
      | some r =>
          rw [Core.follow, hn, hr] at hc
          have hpend := h.pending i y hi hlive.created hn
          have hothers : ∀ j ∈ L.pending, j ≠ i → j ∈ (L.complete i (r.rval = 0)).pending := by
            intro j hj hji
            rw [Ledger.pending_complete]
            exact Finset.mem_erase.mpr ⟨hji, hj⟩
          refine ⟨_, h.update hi ⟨p, hfound'⟩ (h.tracks.subtestDone hl hpend hc)
            (Core.subtestDone_some hc).2.2.1 hothers fun _ hn' => ?_, hothers⟩
          rw [hr] at hn'
          cases hn'

/-- The subtest at `i` counts, but it has no UA and nothing it waits for: it
will never report. -/
theorem Stuck.step_ne {b : Bob} {L : Ledger Nat} {i j : Nat} {a : Act} {y y' : Sys}
    (h : Stuck b L i) (hj : b.subtests[j]? = some y) (hs : machine.step y a = some y') : i ≠ j := by
  rintro rfl
  obtain ⟨-, z, hz, hc, hp⟩ := h
  rw [hz, Option.some.injEq] at hj
  subst hj
  rw [step_eq_none hc hp] at hs
  cases hs

/-- **The refinement.**  What Bob does, his books account for; and a subtest
that is stuck stays so. -/
theorem Link.step {b b' : Bob} {L : Ledger Nat} {act : BobAct} (h : Link b L)
    (hs : b.step act = some b') :
    ∃ L', Link b' L' ∧ ∀ i, Stuck b L i → Stuck b' L' i := by
  unfold Bob.step at hs
  split at hs
  · cases hs
  · next hl =>
    rw [not_not] at hl
    cases act with
    | invite p =>
        cases hside : p.side with
        | alice => simp only [hside, reduceCtorEq] at hs
        | bob body req =>
            simp only [hside] at hs
            obtain ⟨y, hstart, rfl⟩ := Option.map_eq_some_iff.mp hs
            obtain ⟨hlink, hmem⟩ := Link.invite (answered _) h hl hstart (by rw [hside])
            refine ⟨_, hlink, fun i ⟨hi, z, hz, hstuck⟩ => ⟨hmem i hi, z, ?_, hstuck⟩⟩
            rw [List.getElem?_append_left (List.getElem?_eq_some_iff.mp hz).1]
            exact hz
    | refuse =>
        cases hs
        exact ⟨L, h, fun i hi => hi⟩
    | subtest j a =>
        obtain ⟨-, hs⟩ := Option.ite_none_left_eq_some.mp hs
        simp only [Option.bind_eq_bind, Option.bind_eq_some_iff, Option.some.injEq] at hs
        obtain ⟨y, hj, y', hstep, core, hcore, rfl⟩ := hs
        obtain ⟨L', hlink, hmem⟩ := h.subtest hl hj hstep hcore
        refine ⟨L', hlink, fun i hi => ?_⟩
        have hij : i ≠ j := hi.step_ne hj hstep
        obtain ⟨hpend, z, hz, hstuck⟩ := hi
        refine ⟨hmem i hpend hij, z, ?_, hstuck⟩
        rw [List.getElem?_set_ne hij.symm]
        exact hz
    | timeout =>
        cases hs
        refine ⟨L, ⟨h.tracks.timeout hl, ?_, h.found, h.pending⟩, fun i hi => hi⟩
        rw [← h.created]
        unfold Core.timeout
        dsimp only
        split <;> rfl

/-- What is known of a run, from a state that is known. -/
theorem Link.exec {b b' : Bob} {L : Ledger Nat} {acts : List BobAct} (h : Link b L)
    (hs : Run.exec Bob.step b acts = some b') :
    ∃ L', Link b' L' ∧ ∀ i, Stuck b L i → Stuck b' L' i := by
  induction acts generalizing b L with
  | nil =>
      rw [Run.exec_nil, Option.some.injEq] at hs
      exact ⟨L, hs ▸ h, fun i hi => hs ▸ hi⟩
  | cons act acts ih =>
      rw [Run.exec_cons, Option.bind_eq_some_iff] at hs
      obtain ⟨b₁, h₁, h₂⟩ := hs
      obtain ⟨L₁, hlink₁, hstuck₁⟩ := h.step h₁
      obtain ⟨L', hlink, hstuck⟩ := ih hlink₁ h₂
      exact ⟨L', hlink, fun i hi => hstuck i (hstuck₁ i hi)⟩

/-! ## errors -/

/-- The INVITE that a setup of Bob answers is rejected. -/
def Setup.Rejected (p : Setup) : Prop :=
  match p.side with
  | .alice => False
  | .bob _ req => ∃ sdp, req.body = some sdp ∧ p.tccfg.Rejects sdp

/-- A rejected INVITE leaves a subtest that is stuck. -/
theorem Link.stuck_of_rejected {b b' : Bob} {L : Ledger Nat} {p : Setup} (h : Link b L)
    (hr : p.Rejected) (hs : b.step (.invite p) = some b') :
    ∃ L', Link b' L' ∧ Stuck b' L' b.core.created := by
  unfold Setup.Rejected at hr
  unfold Bob.step at hs
  split at hs
  · cases hs
  · next hl =>
    rw [not_not] at hl
    cases hside : p.side with
    | alice => simp only [hside] at hr
    | bob body req =>
        simp only [hside] at hs hr
        obtain ⟨sdp, hbody, hrej⟩ := hr
        obtain ⟨y, hstart, rfl⟩ := Option.map_eq_some_iff.mp hs
        have huntil := Setup.until_create_rejected hside hbody hrej
        rw [hside] at huntil
        have hstart' := hstart
        unfold Setup.start at hstart'
        rw [hside] at hstart'
        -- The exception has left `answer`, so the subtest is not withdrawn.
        cases ho : create p.scn (.bob body req) p.fresh with
        | raise e s =>
            have ho' : create p.scn (.bob body req) (.fresh p.cls p.tccfg p.named p.env) =
                .raise e s := ho
            rw [ho] at huntil
            rw [ho'] at hstart'
            obtain ⟨⟨why, rfl⟩, -, hc⟩ := huntil
            cases hstart'
            obtain ⟨hlink, -⟩ := Link.invite .escaped h hl hstart (by rw [hside, ho]; rfl)
            refine ⟨_, hlink, Finset.mem_insert_self _ _,
              ⟨machine.caught (.sdpValidationFailure why) s, []⟩, ?_, hc, rfl⟩
            rw [h.created]
            exact List.getElem?_concat_length
        | ret a s =>
            rw [ho] at huntil
            exact huntil.elim
        | call c s k =>
            rw [ho] at huntil
            exact huntil.elim
        | spin =>
            have ho' : create p.scn (.bob body req) (.fresh p.cls p.tccfg p.named p.env) =
                .spin := ho
            rw [ho'] at hstart'
            cases hstart'

/-- A subtest that is stuck keeps the value Bob exits with from being 0. -/
theorem Link.rval_of_stuck {b : Bob} {L : Ledger Nat} {i : Nat} (h : Link b L) (hi : Stuck b L i)
    (hl : b.core.loop ≠ .looping) : b.core.rval ≠ 0 := by
  cases hloop : b.core.loop with
  | looping => exact (hl hloop).elim
  | drained => cases (h.tracks.drained hloop).1
  | timedOut =>
      intro hv
      have hgreen : L.Green := (h.tracks.timedOut hloop).mp hv
      have hpend := hi.1
      rw [hgreen.1] at hpend
      exact Finset.notMem_empty i hpend

/-- A verdict of 0 is given with no error counted, on the way included. -/
theorem Setup.Lives.nerrs_of_pass {p : Setup} {y y' : Sys} {a : Act} {r : Report}
    (hfound : p.Found y) (hl : p.Lives y.st) (hw : y.Waits) (hm : p.named = false)
    (hn : y.st.report = none) (hs : machine.step y a = some y') (hr : y'.st.report = some r)
    (hv : r.rval = 0) : y'.st.nerrs = 0 := by
  obtain ⟨env, rfl⟩ := hfound.report_step hw hn hs hr
  rcases hl.dead_step hn hs with ⟨n, hrep⟩ | ⟨hrep, -⟩
  · rw [hr, Option.some.injEq] at hrep
    rw [hrep] at hv
    have hpass := (hl.judged_eq_zero_iff hn (hl.mightfail hm)).mp hv
    have hpass' : passes p.cls.mro (y.st.dying env) = true :=
      (passes_outside (s := y.st) env (y.st.note .dead).log).trans hpass
    obtain ⟨stop, s, hstop, hst⟩ := hl.dead_until hs (nerrs_alldone (hl.open_dying hn env) hpass')
    rw [hst]
    cases stop with
    | call c => cases c <;> exact hstop
    | _ => exact hstop
  · rw [hr] at hrep
    cases hrep

/-- **A detected error is never lost.**  In every run of a subtest that is not
on the list of tests that might fail, errors are never taken back, and neither
an error counted before a verdict nor one counted by the `alldone` that gives
it allows the verdict 0; and an INVITE that `answer` rejects keeps its subtest
running and the value Bob exits with from being 0, whatever he does next. -/
theorem error_never_lost :
    (∀ (p : Setup) (acts acts' : List Act) (y y' : Sys), p.named = false → p.Reaches acts y →
      Run.exec machine.step y acts' = some y' →
      y.st.nerrs ≤ y'.st.nerrs ∧
        (y.st.report = none → y.st.nerrs ≠ 0 → ∀ r, y'.st.report = some r → r.rval ≠ 0)) ∧
    (∀ (p : Setup) (acts : List Act) (a : Act) (y y' : Sys), p.named = false → p.Reaches acts y →
      y.st.report = none → machine.step y a = some y' → y'.st.nerrs ≠ 0 →
      ∀ r, y'.st.report = some r → r.rval ≠ 0) ∧
    (∀ (p : Setup) (acts acts' : List BobAct) (b b₁ b' : Bob), p.Rejected →
      Run.exec Bob.step Bob.start acts = some b → b.step (.invite p) = some b₁ →
      Run.exec Bob.step b₁ acts' = some b' →
      b.core.created ∈ b'.core.subtestsRunning ∧ (b'.core.loop ≠ .looping → b'.core.rval ≠ 0)) := by
  refine ⟨fun p acts acts' y y' hm hy h' => ⟨?_, fun hn he r hr hv => ?_⟩,
    fun p acts a y y' hm hy hn hs he r hr hv => ?_, fun p acts acts' b b₁ b' hr hb h₁ h' => ?_⟩
  · exact ((Setup.found_of_reaches hy).exec h').2.nerrs
  · obtain ⟨acts₁, env, acts₂, y₁, -, h₁, hl, hn₁, hj, -⟩ := Setup.judged_since hy hn h' hr
    have hmono := ((Setup.found_of_reaches hy).exec h₁).2.nerrs
    have hpass := (hl.judged_eq_zero_iff hn₁ (hl.mightfail hm)).mp (hj ▸ hv)
    rw [passes_eq_false (by omega)] at hpass
    cases hpass
  · obtain ⟨hfound, hwaits⟩ := Setup.waits_of_reaches hy
    have hl := hfound.lives_of_step hs
    exact he (Setup.Lives.nerrs_of_pass hfound hl (hwaits hl) hm hn hs hr hv)
  · obtain ⟨L, hlink, -⟩ := link_start.exec hb
    obtain ⟨L₁, hlink₁, hstuck₁⟩ := hlink.stuck_of_rejected hr h₁
    obtain ⟨L', hlink', hstuck'⟩ := hlink₁.exec h'
    have hstuck := hstuck' _ hstuck₁
    exact ⟨(hlink'.tracks.running _).mpr hstuck.1, hlink'.rval_of_stuck hstuck⟩

/-- A ring event with a body that bypasses the proxy; an on-hold scenario
without a hold; and an INVITE that bypasses the proxy. -/
theorem error_never_lost_samples :
    (∃ (y y' : Sys) (r : Report), y.st.nerrs = 1 ∧ y'.st.report = some r ∧ r.rval ≠ 0) ∧
    (∃ (y' : Sys) (r : Report), y'.st.nerrs = 1 ∧ y'.st.report = some r ∧ r.rval ≠ 0) ∧
    ∃ b : Bob, 0 ∈ b.core.subtestsRunning ∧ b.core.loop = .timedOut ∧ b.core.rval ≠ 0 := by
  refine ⟨?_, ?_, ?_⟩
  · have hrun : ((Sample.alice .t1 false).run [.ret Sample.env,
        Sample.enter (.event (.ring 183 "" (some Sample.direct)))]).map (fun y =>
          (y.st.nerrs, y.st.report, (Run.exec machine.step y [Sample.enter .dead]).map
            fun y' => y'.st.report.map Report.rval)) = some (1, none, some (some 1)) := by
      decide +kernel
    obtain ⟨y, hy, hf⟩ := Setup.exists_of_run hrun
    simp only [Prod.mk.injEq, Option.map_eq_some_iff] at hf
    obtain ⟨he, hn, y', h', r, hr, -⟩ := hf
    refine ⟨y, y', r, he, hr, ?_⟩
    exact (error_never_lost.1 (Sample.alice .t1 false) _ _ y y' rfl hy h').2 hn (by omega) r hr
  · have hrun : ((Sample.bob .reinvOnhold false).run [.ret Sample.env]).map (fun y =>
        (y.st.report, (machine.step y (Sample.enter .dead)).map fun y' =>
          (y'.st.nerrs, y'.st.report.map Report.rval))) = some (none, some (1, some 1)) := by
      decide +kernel
    obtain ⟨y, hy, hf⟩ := Setup.exists_of_run hrun
    simp only [Prod.mk.injEq, Option.map_eq_some_iff] at hf
    obtain ⟨hn, y', hs, he, r, hr, -⟩ := hf
    refine ⟨y', r, he, hr, ?_⟩
    exact error_never_lost.2.1 (Sample.bob .reinvOnhold false) _ _ y y' rfl hy hn hs (by omega) r hr
  · let p : Setup := { Sample.bob .t1 false with
      side := .bob Sample.body ⟨some Sample.direct, none, "127.0.0.1"⟩ }
    have hp : p.Rejected := ⟨Sample.direct, rfl, _, rfl⟩
    have hrun : ((Bob.start.step (.invite p)).map fun b => (Run.exec Bob.step b [.timeout]).map
        fun b' => b'.core.loop) = some (some .timedOut) := by
      decide +kernel
    obtain ⟨b, hb, hf⟩ := Option.map_eq_some_iff.mp hrun
    obtain ⟨b', h', hloop⟩ := Option.map_eq_some_iff.mp hf
    obtain ⟨hmem, hv⟩ := error_never_lost.2.2 p [] [.timeout] Bob.start b b' hp rfl hb h'
    exact ⟨b', hmem, hloop, hv (by rw [hloop]; decide)⟩

end VoipTests
