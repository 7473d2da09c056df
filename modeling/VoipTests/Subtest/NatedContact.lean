import VoipTests.Subtest.Initiator

/-!
# VoipTests.Subtest.NatedContact

The scenario in which Alice's Contact is not hers.

`a_test_nated_contact` compares the R-URI of the last in-dialog INVITE with
the Contact it has installed, where a re-INVITE of its own is answered.  But
it sends none: Bob does.  `natedContact_iff` says what its verdict depends on
instead.
-/

namespace VoipTests

open Callback Relation

variable {p : Setup} {s s' : Subtest}

/-- The R-URIs of the in-dialog INVITEs a UA has received. -/
def ruris (log : List Obs) : List String :=
  log.filterMap fun
    | .inDialogInvite ruri => some ruri
    | _ => none

/-- An Alice's call has been set up and ended, and no body was rejected. -/
structure Completes (cls : PyClass) (cfg : TcCfg) (log : List Obs) : Prop where
  rung : ∃ ev inProgress, .event ev inProgress ∈ log ∧ ev.isRing = true
  connected : .connected ∈ log
  ended : ∃ origin acct, .disconnected origin acct ∈ log ∧ cls.accepts origin = true
  accepted : ∀ ev inProgress sdp, .event ev inProgress ∈ log → ev.checked = some sdp →
    ¬ cfg.Rejects sdp

theorem completes_iff {cls : PyClass} {cfg : TcCfg} {log : List Obs} {n : Nat} :
    Completes cls cfg (log ++ .dead :: List.replicate n .connectDone) ↔ Completes cls cfg log := by
  constructor
  · rintro ⟨hring, hconn, hend, hok⟩
    simp only [event_mem_iff, connected_mem_iff, disconnected_mem_iff] at hring hconn hend hok
    exact ⟨hring, hconn, hend, hok⟩
  · rintro ⟨hring, hconn, hend, hok⟩
    constructor <;> simp only [event_mem_iff, connected_mem_iff, disconnected_mem_iff]
    · exact hring
    · exact hconn
    · exact hend
    · exact hok

theorem passes_natedContact (hi : s.reinviteIval = none) : passes (PyClass.a .natedContact).mro s =
    (s.ringDone && s.connectDone && s.disconnectDone && s.nerrs = 0) := by
  rw [mro_a_natedContact]
  simp [passes, hi]

/-- An error of this class is a body that was rejected. -/
theorem Blames.natedContact {cfg : TcCfg} {o : Obs} (h : Blames (.a .natedContact) cfg o) :
    ∃ ev inProgress, o = .event ev inProgress ∧
      ((∃ sdp, ev.checked = some sdp ∧ cfg.Rejects sdp) ∨ inProgress = true) := by
  have hno : (PyClass.a .natedContact).isA (.a .invBrkn1) = false ∧
      (PyClass.a .natedContact).isA (.a .reinvBadAck) = false := by decide
  cases o with
  | event ev inProgress =>
      refine ⟨ev, inProgress, rfl, ?_⟩
      rcases h with ⟨-, h⟩ | ⟨h, -⟩ | h
      · exact .inl h
      · exact .inr h
      · rw [hno.1] at h
        cases h
  | fired cb =>
      cases cb with
      | disconnect =>
          rw [Blames, hno.2] at h
          cases h
      | _ => exact h.elim
  | _ => exact h.elim

/-- **What the verdict of `a_test_nated_contact` depends on.** -/
theorem Setup.Lives.passes_natedContact_iff {acts : List Act} {y : Sys} (hl : p.Lives y.st)
    (hp : p.cls = .a .natedContact) (h : p.Reaches acts y) (hn : y.st.report = none) :
    passes p.cls.mro y.st = true ↔ Completes p.cls p.tccfg y.st.log := by
  have hi : p.cls ∉ initiators := by
    rw [hp]
    decide
  have hno : p.cls.isA .testEarlyCancel = false ∧ p.cls.isA (.a .invBrkn1) = false ∧
      p.cls.isAlice = true := by
    rw [hp]
    decide
  obtain ⟨hearly, hbrkn, halice⟩ := hno
  have hival : y.st.reinviteIval = none := by
    have hsome := hl.reinviteIval
    rw [Bool.eq_false_iff.mpr (fun h => hi (p.initiates_iff.mp h))] at hsome
    simpa using hsome
  have hcls := hl.cls
  have hrec := hl.recorded
  rw [hp, passes_natedContact hival]
  simp only [Bool.and_eq_true, decide_eq_true_eq]
  constructor
  · rintro ⟨⟨⟨hring, hconn⟩, hdisc⟩, herr⟩
    refine ⟨hrec.rung (hcls ▸ hearly) (hcls ▸ halice) hring,
      hrec.connected (hcls ▸ hearly) (hcls ▸ halice) hconn, ?_, fun ev b sdp hev hsdp hrej => ?_⟩
    · obtain ⟨origin, acct, ho, ha⟩ := hrec.accepted hdisc
      exact ⟨origin, acct, ho, by rw [← hp, ← hcls]; exact ha⟩
    · exact hl.nerrs_of_faults h hev (.inl ⟨halice, sdp, hsdp, hrej⟩) herr
  · rintro ⟨⟨ev, b, hev, he⟩, hconn, ⟨origin, acct, hd, ha⟩, hok⟩
    refine ⟨⟨⟨hl.ringDone_of_ring h hev he halice hbrkn, hl.connectDone_of_connected h hconn⟩,
      hl.disconnectDone_of_disconnected h hd (hp ▸ ha)⟩, ?_⟩
    by_contra hne
    obtain ⟨o, ho, hb⟩ := hl.blamed hn hne
    rw [hp] at hb
    obtain ⟨ev, b, rfl, ⟨sdp, hsdp, hrej⟩ | rfl⟩ := hb.natedContact
    · exact hok ev b sdp ho hsdp hrej
    · exact (hl.passive hi).events ev ho

/-- **When `a_test_nated_contact` detects a wrong R-URI.**  It does where there
is none to detect, or the call has not gone through; the R-URI is never
looked at. -/
theorem natedContact_iff {acts : List Act} {y : Sys} {r : Report} (hp : p.cls = .a .natedContact)
    (hm : p.named = false) (h : p.Reaches acts y) (hr : y.st.report = some r) :
    ((ruris r.log).getLast? ≠ some p.env.contactUri → r.rval ≠ 0) ↔
      ((ruris r.log).getLast? = some p.env.contactUri ∨ ¬ Completes p.cls p.tccfg r.log) := by
  obtain ⟨acts₁, y₁, h₁, hl, hn, hzero, ⟨n, hlog⟩, -⟩ := Setup.rval_iff h hr hm
  have hiff : r.rval = 0 ↔ Completes p.cls p.tccfg r.log := by
    rw [hzero, hlog, completes_iff]
    exact hl.passes_natedContact_iff hp h₁ hn
  rw [← hiff, ← not_imp_comm]
  tauto

/-- A call of the scenario in which Bob sends an in-dialog INVITE to `ruri`. -/
def Sample.nated (ruri : String) : List Act :=
  [.ret env, enter (.event (.ring 180 "Ringing" none)), enter .connected,
    enter (.inDialogInvite ruri), enter (.event (.update (some proxied))), .ret env,
    enter (.disconnected .callee ⟨10, 1, true, true⟩), enter .dead]

/-- The in-dialog INVITE carries the address a NAT has put there, and the
subtest passes. -/
theorem not_natedContact_detects : ¬ ∀ (p : Setup) (acts : List Act) (y : Sys) (r : Report),
    p.cls = .a .natedContact → p.named = false → p.Reaches acts y → y.st.report = some r →
      (ruris r.log).getLast? ≠ some p.env.contactUri → r.rval ≠ 0 := by
  intro hall
  have hrun : ((Sample.alice .natedContact false).run (Sample.nated "sip:alice@203.0.113.9")).map
      (fun y => y.st.report.map fun r => (r.rval, (ruris r.log).getLast?)) =
        some (some (0, some "sip:alice@203.0.113.9")) := by
    decide +kernel
  obtain ⟨y, hy, hf⟩ := Setup.exists_of_run hrun
  obtain ⟨r, hr, hf⟩ := Option.map_eq_some_iff.mp hf
  rw [Prod.mk.injEq] at hf
  refine hall (Sample.alice .natedContact false) _ y r rfl rfl hy hr ?_ hf.1
  rw [hf.2]
  decide

/-- The same call, the in-dialog INVITE carrying Alice's own Contact. -/
theorem natedContact_iff_own_contact : ∃ r : Report, r.rval = 0 ∧
    (((ruris r.log).getLast? ≠ some "sip:alice@192.0.2.1" → r.rval ≠ 0) ↔
      ((ruris r.log).getLast? = some "sip:alice@192.0.2.1" ∨
        ¬ Completes (.a .natedContact) Sample.cfg r.log)) := by
  have hrun : ((Sample.alice .natedContact false).run (Sample.nated "sip:alice@192.0.2.1")).map
      (fun y => y.st.report.map Report.rval) = some (some 0) := by
    decide +kernel
  obtain ⟨y, hy, hf⟩ := Setup.exists_of_run hrun
  obtain ⟨r, hr, hv⟩ := Option.map_eq_some_iff.mp hf
  exact ⟨r, hv, natedContact_iff (p := Sample.alice .natedContact false) rfl rfl hy hr⟩

end VoipTests
