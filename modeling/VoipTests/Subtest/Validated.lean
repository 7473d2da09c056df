import VoipTests.Subtest.Effects

/-!
# VoipTests.Subtest.Validated

Which bodies are looked at.

Both sides hand a body to `checkhostport` before they go on with it: Bob that
of the INVITE, Alice those of the 18x and 200 events.  The mix-in
`test_reinvite` answers a re-INVITE without a look at its body, and Bob looks
at no event.  `validated_iff` says what a pass on both sides is worth.
-/

namespace VoipTests

open Callback Relation

variable {p : Setup} {s s' : Subtest}

/-- The body of a re-INVITE, a 18x or a 200. -/
def CCEvent.media : CCEvent → Option Sdp
  | .update sdp => sdp
  | ev => ev.checked

/-- The bodies a subtest has been given: that of the INVITE, and those of the
events. -/
def Delivered (log : List Obs) (sdp : Sdp) : Prop :=
  .invite (some sdp) ∈ log ∨ ∃ ev inProgress, .event ev inProgress ∈ log ∧ ev.media = some sdp

/-- What the code leaves to chance: the body of a re-INVITE, and of any event
on Bob's side, is acceptable; and Alice's check of the others does not raise. -/
structure Spared (cls : PyClass) (cfg : TcCfg) (log : List Obs) : Prop where
  unchecked : ∀ ev inProgress sdp, .event ev inProgress ∈ log → ev.media = some sdp →
    ev.isUpdate = true ∨ cls.isAlice = false → cfg.Accepts sdp
  total : cls.isAlice = true → ∀ ev inProgress sdp, .event ev inProgress ∈ log →
    ev.checked = some sdp → cfg.checkhostport sdp ≠ none

/-- The body of the INVITE has been checked by the time there is a UA. -/
theorem Setup.Lives.accepts_invite (h : p.Lives s) :
    ∀ sdp, .invite (some sdp) ∈ s.log → p.tccfg.Accepts sdp := by
  refine h.induction (P := fun s => ∀ sdp, .invite (some sdp) ∈ s.log → p.tccfg.Accepts sdp)
    (fun s hb sdp ho => ?_) fun s s' hl hs hc sdp ho => ?_
  · have hcalled := hb.called
    unfold Setup.Called at hcalled
    split at hcalled
    · obtain ⟨cli, cld, body, hlog, -⟩ := hcalled
      simp [hlog] at ho
    · obtain ⟨sdp', ival, -, haccepts, hlog, -⟩ := hcalled
      simp only [hlog, List.mem_cons, Obs.invite.injEq, Option.some.injEq, reduceCtorEq,
        List.not_mem_nil, or_false] at ho
      exact ho ▸ haccepts
  · cases hc with
    | enter h =>
        obtain ⟨-, rfl⟩ := eq_of_entry h
        rename_i cb _
        rcases List.mem_append.mp ho with ho | ho
        · exact hs sdp ho
        · cases cb <;> simp [Cb.obs] at ho
    | move h =>
        obtain ⟨l, hlog, hmade⟩ := h.log
        rw [hlog, List.mem_append] at ho
        rcases ho with ho | ho
        · exact hs sdp ho
        · cases hmade _ ho

theorem CCEvent.media_of_checked {ev : CCEvent} {sdp : Sdp} (h : ev.checked = some sdp) :
    ev.media = some sdp := by
  cases ev <;> first | exact h | cases h

/-- One side: everything that it has been given is acceptable, if and only if
what it has not looked at is. -/
theorem Setup.delivered_accepted_iff {acts : List Act} {y : Sys} {r : Report}
    (hm : p.named = false) (h : p.Reaches acts y) (hr : y.st.report = some r) (hv : r.rval = 0) :
    (∀ sdp, Delivered r.log sdp → p.tccfg.Accepts sdp) ↔ Spared p.cls p.tccfg r.log := by
  obtain ⟨acts₁, y₁, h₁, hl, hpass, ⟨n, hlog⟩, -⟩ := Setup.passes_of_rval h hr hm hv
  constructor
  · intro hall
    refine ⟨fun ev b sdp hev hsdp _ => hall sdp (.inr ⟨ev, b, hev, hsdp⟩),
      fun _ ev b sdp hev hsdp hnone => ?_⟩
    have hacc := hall sdp (.inr ⟨ev, b, hev, CCEvent.media_of_checked hsdp⟩)
    rw [TcCfg.Accepts, hnone] at hacc
    cases hacc
  · rintro ⟨hun, htot⟩ sdp (hinv | ⟨ev, b, hev, hsdp⟩)
    · refine hl.accepts_invite sdp ?_
      rw [hlog] at hinv
      simpa using hinv
    · by_cases hfree : ev.isUpdate = true ∨ p.cls.isAlice = false
      · exact hun ev b sdp hev hsdp hfree
      · rw [not_or, Bool.not_eq_true, Bool.not_eq_false] at hfree
        obtain ⟨hup, ha⟩ := hfree
        have hchecked : ev.checked = some sdp := by
          cases ev <;> first | exact hsdp | cases hup
        -- A body that was rejected would have been counted as an error.
        rcases p.tccfg.checkhostport_cases sdp with hacc | hrej | hnone
        · exact hacc
        · have hev₁ : .event ev b ∈ y₁.st.log := by
            rw [hlog] at hev
            exact event_mem_iff.mp hev
          have hne := hl.nerrs_of_faults h₁ hev₁ (.inl ⟨ha, sdp, hchecked, hrej⟩)
          rw [passes_eq_false hne] at hpass
          cases hpass
        · exact (htot ha ev b sdp hev hchecked hnone).elim

/-- **When every body that reaches a test agent is validated.**  In every two
runs, of the two sides of a scenario, in which both pass: all bodies that have
been delivered to either are accepted by `checkhostport`, if and only if those
of the re-INVITEs are, and those of Bob's events, and the check of the others
has not raised. -/
theorem validated_iff {pa pb : Setup} {actsa actsb : List Act} {ya yb : Sys} {ra rb : Report}
    (hma : pa.named = false) (hmb : pb.named = false) (hya : pa.Reaches actsa ya)
    (hyb : pb.Reaches actsb yb) (hra : ya.st.report = some ra) (hrb : yb.st.report = some rb)
    (hva : ra.rval = 0) (hvb : rb.rval = 0) :
    ((∀ sdp, Delivered ra.log sdp → pa.tccfg.Accepts sdp) ∧
        ∀ sdp, Delivered rb.log sdp → pb.tccfg.Accepts sdp) ↔
      Spared pa.cls pa.tccfg ra.log ∧ Spared pb.cls pb.tccfg rb.log := by
  rw [Setup.delivered_accepted_iff hma hya hra hva, Setup.delivered_accepted_iff hmb hyb hrb hvb]

/-! ## a re-INVITE that bypasses the proxy -/

/-- Alice's side of a call of the scenario `reinvite`. -/
def Sample.aliceReinvite : List Act :=
  [.ret env, enter (.event (.ring 180 "Ringing" none)), enter .connected,
    enter (.timer ⟨.reinvite, 7⟩), .ret env, enter (.event (.connect 200 "OK" (some proxied))),
    enter (.disconnected .callee ⟨10, 1, true, true⟩), enter .dead]

/-- Bob's side; the re-INVITE comes in with the body `sdp`. -/
def Sample.bobReinvite (sdp : Sdp) : List Act :=
  [.ret env, enter (.timer ⟨.ring, 1⟩), .ret env, enter (.timer ⟨.connect, 5⟩), .ret env,
    enter (.event (.update (some sdp))), .ret env,
    enter (.disconnected .caller ⟨10, 1, true, true⟩), enter .dead]

theorem exists_aliceReinvite : ∃ y r, (Sample.alice .reinvite false).Reaches Sample.aliceReinvite y ∧
    y.st.report = some r ∧ r.rval = 0 := by
  have hrun : ((Sample.alice .reinvite false).run Sample.aliceReinvite).map
      (fun y => y.st.report.map Report.rval) = some (some 0) := by
    decide +kernel
  obtain ⟨y, hy, hf⟩ := Setup.exists_of_run hrun
  obtain ⟨r, hr, hv⟩ := Option.map_eq_some_iff.mp hf
  exact ⟨y, r, hy, hr, hv⟩

/-- Both sides pass a call in which the re-INVITE reaches Bob with a body that
bypasses the proxy. -/
theorem not_validated_reinvite : ¬ ∀ (pa pb : Setup) (actsa actsb : List Act) (ya yb : Sys)
    (ra rb : Report), pa.cls = .a pa.scn → pb.cls = .b pa.scn → pa.named = false →
      pb.named = false → pa.Reaches actsa ya → pb.Reaches actsb yb → ya.st.report = some ra →
      yb.st.report = some rb → ra.rval = 0 → rb.rval = 0 →
      (∀ sdp, Delivered ra.log sdp → pa.tccfg.Accepts sdp) ∧
        ∀ sdp, Delivered rb.log sdp → pb.tccfg.Accepts sdp := by
  intro hall
  obtain ⟨ya, ra, hya, hra, hva⟩ := exists_aliceReinvite
  have hrun : ((Sample.bob .reinvite false).run (Sample.bobReinvite Sample.direct)).map
      (fun y => y.st.report.map fun r =>
        (r.rval, decide (.event (.update (some Sample.direct)) false ∈ r.log))) =
          some (some (0, true)) := by
    decide +kernel
  obtain ⟨yb, hyb, hf⟩ := Setup.exists_of_run hrun
  obtain ⟨rb, hrb, hf⟩ := Option.map_eq_some_iff.mp hf
  rw [Prod.mk.injEq, decide_eq_true_eq] at hf
  have hacc := (hall (Sample.alice .reinvite false) (Sample.bob .reinvite false) _ _ ya yb ra rb
    rfl rfl rfl rfl hya hyb hra hrb hva hf.1).2 Sample.direct (.inr ⟨_, _, hf.2, rfl⟩)
  revert hacc
  decide +kernel

/-- The same call, the re-INVITE having gone through the proxy. -/
theorem validated_iff_reinvite : ∃ ra rb : Report, ra.rval = 0 ∧ rb.rval = 0 ∧
    (((∀ sdp, Delivered ra.log sdp → Sample.cfg.Accepts sdp) ∧
        ∀ sdp, Delivered rb.log sdp → Sample.cfg.Accepts sdp) ↔
      Spared (.a .reinvite) Sample.cfg ra.log ∧ Spared (.b .reinvite) Sample.cfg rb.log) := by
  obtain ⟨ya, ra, hya, hra, hva⟩ := exists_aliceReinvite
  have hrun : ((Sample.bob .reinvite false).run (Sample.bobReinvite Sample.proxied)).map
      (fun y => y.st.report.map Report.rval) = some (some 0) := by
    decide +kernel
  obtain ⟨yb, hyb, hf⟩ := Setup.exists_of_run hrun
  obtain ⟨rb, hrb, hvb⟩ := Option.map_eq_some_iff.mp hf
  have hiff := validated_iff (by rfl) (by rfl) hya hyb hra hrb hva hvb
  exact ⟨ra, rb, hva, hvb, hiff⟩

end VoipTests
