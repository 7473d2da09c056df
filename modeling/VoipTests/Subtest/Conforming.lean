import VoipTests.Subtest.Effects

/-!
# VoipTests.Subtest.Conforming

What an event has to carry, and what `a_test1.recvEvent` makes of one that
does not.

`TcCfg.conforms` says of a section, without looking at `checkhostport`, that
its port is in range and its address allowed.  The check comes to the same
verdict except where it stumbles: over a section in range that has no `c=`
header.  `nonconforming_counted` is the consequence for the error count.
-/

namespace VoipTests

open Callback

/-! ## conformance -/

/-- The media address of a `c=` header is allowed. -/
def TcCfg.fits (cfg : TcCfg) (c : CHeader) : Bool :=
  match cfg.atype with
  | .ip4 => "*" ∈ cfg.checkMediaIps || (c.atype = some .ip4 && c.addr ∈ cfg.checkMediaIps)
  | .ip6 => c.atype = some .ip6 && c.addr ∈ ["::1", "0:0:0:0:0:0:0:1"]

/-- A section has an in-range port and an allowed connection address. -/
def TcCfg.conforms (cfg : TcCfg) (sect : Section) : Bool :=
  cfg.portrange.isinrange sect.mHeader.port && sect.cHeader.any cfg.fits

/-- A section with a checked transport that does not conform. -/
def TcCfg.faulty (cfg : TcCfg) (sect : Section) : Bool := sect.relevant && !cfg.conforms sect

/-- `CCEventPreConnect` and `CCEventConnect` have to carry a body. -/
def CCEvent.needsBody : CCEvent → Bool
  | .preConnect .. | .connect .. => true
  | _ => false

/-- The body of the event is missing, or one of its sections does not
conform. -/
def CCEvent.Nonconforming (cfg : TcCfg) (ev : CCEvent) : Prop :=
  (ev.needsBody = true ∧ ev.checked = none) ∨
    ∃ sdp, ev.checked = some sdp ∧ ∃ sect ∈ sdp.sections, cfg.faulty sect = true

/-- The first section that does not conform is in range and has no `c=`
header. -/
def TcCfg.StumblesOver (cfg : TcCfg) (sects : List Section) : Prop :=
  ∃ sect, sects.find? cfg.faulty = some sect ∧
    cfg.portrange.isinrange sect.mHeader.port = true ∧ sect.cHeader = none

/-- The body of the event is missing, or the check stumbles over it. -/
def CCEvent.Stumbles (cfg : TcCfg) (ev : CCEvent) : Prop :=
  (ev.needsBody = true ∧ ev.checked = none) ∨
    ∃ sdp, ev.checked = some sdp ∧ cfg.StumblesOver sdp.sections

theorem CCEvent.Stumbles.nonconforming {cfg : TcCfg} {ev : CCEvent} (h : ev.Stumbles cfg) :
    ev.Nonconforming cfg := by
  obtain h | ⟨sdp, hsdp, sect, hfind, -⟩ := h
  · exact .inl h
  · have hmem : sect ∈ sdp.sections := List.mem_of_find?_eq_some hfind
    have hfaulty : cfg.faulty sect = true := by simpa using List.find?_some hfind
    exact .inr ⟨sdp, hsdp, sect, hmem, hfaulty⟩

/-! ## the check -/

/-- The loop body of `checkhostport` has nothing to say about a section that
conforms, and about no other. -/
theorem TcCfg.complaint_eq_allGood_iff (cfg : TcCfg) (sect : Section) :
    cfg.complaint sect = some .allGood ↔ cfg.conforms sect = true := by
  unfold complaint conforms
  by_cases hport : cfg.portrange.isinrange sect.mHeader.port = true
  · cases hc : sect.cHeader with
    | none => simp [hport]
    | some c =>
        cases hat : cfg.atype with
        | ip4 => simp [hport, hat, fits]; grind
        | ip6 => simp [hport, hat, fits]; grind
  · simp [hport]

/-- It raises when the port is in range and the `c=` header is missing. -/
theorem TcCfg.complaint_eq_none_iff (cfg : TcCfg) (sect : Section) :
    cfg.complaint sect = none ↔
      cfg.portrange.isinrange sect.mHeader.port = true ∧ sect.cHeader = none := by
  unfold complaint
  by_cases hport : cfg.portrange.isinrange sect.mHeader.port = true
  · cases hc : sect.cHeader with
    | none => simp [hport]
    | some c =>
        simp only [hport, Bool.not_true, Bool.false_eq_true, if_false, reduceCtorEq, and_false,
          iff_false]
        split_ifs <;> simp
  · simp [hport]

/-- The loop of `checkhostport` ends with its complaint about the first section
that does not conform. -/
theorem TcCfg.checkSections_eq (cfg : TcCfg) (sects : List Section) :
    cfg.checkSections sects =
      match sects.find? cfg.faulty with
      | none => some .allGood
      | some sect => cfg.complaint sect := by
  induction sects with
  | nil => rfl
  | cons sect sects ih =>
      rw [checkSections, List.find?_cons, faulty]
      have hiff := cfg.complaint_eq_allGood_iff sect
      by_cases hr : sect.relevant = true
      · by_cases hc : cfg.conforms sect = true
        · simp [hr, hc, hiff.mpr hc, ih]
        · have hne : cfg.complaint sect ≠ some .allGood := fun h => hc (hiff.mp h)
          have hf : (sect.relevant && !cfg.conforms sect) = true := by simp [hr, hc]
          rw [hf, if_neg (by simp [hr])]
          split
          · next h => exact (hne h).elim
          · rfl
      · simp [hr, ih]

/-- **Where `checkhostport` raises.** -/
theorem TcCfg.checkhostport_eq_none_iff (cfg : TcCfg) (sdp : Sdp) :
    cfg.checkhostport sdp = none ↔ cfg.StumblesOver sdp.sections := by
  rw [checkhostport, Option.map_eq_none_iff, checkSections_eq, StumblesOver]
  cases hfind : sdp.sections.find? cfg.faulty with
  | none => simp
  | some sect => simp [complaint_eq_none_iff]

/-- **What `checkhostport` rejects**: a body that does not conform, unless the
check stumbles. -/
theorem TcCfg.rejects_of_faulty {cfg : TcCfg} {sdp : Sdp} {sect : Section}
    (hmem : sect ∈ sdp.sections) (hf : cfg.faulty sect = true)
    (hs : ¬ cfg.StumblesOver sdp.sections) : cfg.Rejects sdp := by
  rcases cfg.checkhostport_cases sdp with hacc | hrej | hnone
  · simp only [faulty, Bool.and_eq_true, Bool.not_eq_true'] at hf
    have hgood := (cfg.accepts_iff sdp).mp hacc sect hmem hf.1
    rw [complaint_eq_allGood_iff, hf.2] at hgood
    cases hgood
  · exact hrej
  · exact (hs ((cfg.checkhostport_eq_none_iff sdp).mp hnone)).elim

/-- An event that does not conform, and over which nothing stumbles, carries
a body that is rejected. -/
theorem CCEvent.Nonconforming.rejects {cfg : TcCfg} {ev : CCEvent} (h : ev.Nonconforming cfg)
    (hs : ¬ ev.Stumbles cfg) : ∃ sdp, ev.checked = some sdp ∧ cfg.Rejects sdp := by
  obtain h | ⟨sdp, hsdp, sect, hmem, hf⟩ := h
  · exact (hs (.inl h)).elim
  · exact ⟨sdp, hsdp, TcCfg.rejects_of_faulty hmem hf fun hs' => hs (.inr ⟨sdp, hsdp, hs'⟩)⟩

/-! ## the event -/

/-- The call has ended, by a return or an exception, with more errors counted
than before. -/
def Counted (s : Subtest) : Out Subtest Exc UaCall Unit → Prop
  | .ret _ s' => s.nerrs < s'.nerrs
  | .raise _ s' => s.nerrs < s'.nerrs
  | .call .. => False
  | .spin => False

/-- An event over which the check stumbles is not counted: an `AttributeError`
leaves `recvEvent` before. -/
theorem ATest1.recvEvent_of_stumbles {ev : CCEvent} {s : Subtest} (h : ev.Stumbles s.tccfg) :
    ∃ ringDone, ATest1.recvEvent ev s = .raise .attributeError { s with ringDone := ringDone } := by
  obtain ⟨ringDone, heq⟩ := ATest1.recvEvent_eq ev s
  refine ⟨ringDone, ?_⟩
  rw [heq]
  obtain ⟨hneeds, hnone⟩ | ⟨sdp, hsdp, hs⟩ := h
  · cases ev with
    | preConnect code reason sdp =>
        cases hnone
        rfl
    | connect code reason sdp =>
        cases hnone
        rfl
    | _ => cases hneeds
  · have hcheck := (s.tccfg.checkhostport_eq_none_iff sdp).mpr hs
    rw [ATest1.recvMedia_of_checked hsdp, Prog.bind_apply, Test.checkMedia, Prog.bind_apply,
      Prog.get_apply, Out.bind_ret]
    simp only [hcheck]
    rfl

/-- **A body that does not conform is recorded as an error.**  For every Ring,
PreConnect or Connect event and every state of the object: an event that does
not conform makes `a_test1.recvEvent` count an error, exactly when no body is
missing where one is required and the first section that does not conform is
out of range or has a `c=` header.  And a subtest of Alice that was given such
an event before its verdict does not end with 0. -/
theorem nonconforming_counted (ev : CCEvent) (s : Subtest) :
    ((ev.Nonconforming s.tccfg → Counted s (ATest1.recvEvent ev s)) ↔ ¬ ev.Stumbles s.tccfg) ∧
    ∀ (p : Setup) (acts : List Act) (y : Sys) (r : Report) (inProgress : Bool),
      p.side = .alice → p.named = false → p.Reaches acts y → y.st.report = some r →
      .event ev inProgress ∈ r.log → ev.Nonconforming p.tccfg → ¬ ev.Stumbles p.tccfg →
      r.rval ≠ 0 := by
  refine ⟨⟨fun h hs => ?_, fun hs h => ?_⟩, fun p acts y r inProgress ha hm hy hr hev hno hs hv => ?_⟩
  · obtain ⟨ringDone, heq⟩ := ATest1.recvEvent_of_stumbles hs
    have hcounted := h hs.nonconforming
    rw [heq] at hcounted
    exact Nat.lt_irrefl _ hcounted
  · obtain ⟨sdp, hsdp, hrej⟩ := h.rejects hs
    obtain ⟨why, ringDone, heq⟩ := ATest1.recvEvent_of_rejects hsdp hrej
    rw [heq]
    exact Nat.lt_succ_self _
  · obtain ⟨acts₁, y₁, h₁, hl, hpass, ⟨n, hlog⟩, -⟩ := Setup.passes_of_rval hy hr hm hv
    have hev₁ : .event ev inProgress ∈ y₁.st.log := by
      rw [hlog] at hev
      exact event_mem_iff.mp hev
    obtain ⟨sdp, hsdp, hrej⟩ := hno.rejects hs
    have halice : p.cls.isAlice = true := by rw [Setup.cls, ha]; rfl
    have hne := hl.nerrs_of_faults h₁ hev₁ (.inl ⟨halice, sdp, hsdp, hrej⟩)
    rw [passes_eq_false hne] at hpass
    cases hpass

/-- A 200 without a body is no error for Alice. -/
theorem not_nonconforming_counted : ¬ ∀ (ev : CCEvent) (s : Subtest),
    ev.Nonconforming s.tccfg → Counted s (ATest1.recvEvent ev s) := by
  intro hall
  have hno : (CCEvent.connect 200 "OK" none).Nonconforming Sample.cfg := .inl ⟨rfl, rfl⟩
  exact Nat.lt_irrefl _ (hall (.connect 200 "OK" none) (Sample.alice .t1 false).fresh hno)

/-- An 18x with a body that bypasses the proxy, in a call that goes well
otherwise. -/
theorem nonconforming_counted_ring : ∃ r : Report,
    .event (.ring 183 "" (some Sample.direct)) false ∈ r.log ∧ r.rval ≠ 0 := by
  have hrun : ((Sample.alice .t1 false).run [.ret Sample.env,
      Sample.enter (.event (.ring 183 "" (some Sample.direct))), Sample.enter .connected,
      Sample.enter (.disconnected .callee ⟨10, 1, true, true⟩), Sample.enter .dead]).map
        (fun y => y.st.report.map fun r =>
          decide (.event (.ring 183 "" (some Sample.direct)) false ∈ r.log)) =
            some (some true) := by
    decide +kernel
  obtain ⟨y, hy, hf⟩ := Setup.exists_of_run hrun
  obtain ⟨r, hr, hev⟩ := Option.map_eq_some_iff.mp hf
  rw [decide_eq_true_eq] at hev
  have hno : (CCEvent.ring 183 "" (some Sample.direct)).Nonconforming Sample.cfg :=
    .inr ⟨_, rfl, _, List.mem_cons_self, by decide⟩
  have hs : ¬ (CCEvent.ring 183 "" (some Sample.direct)).Stumbles Sample.cfg := by
    rintro (⟨hneeds, -⟩ | ⟨sdp, hsdp, hover⟩)
    · cases hneeds
    · cases hsdp
      have hnone := (Sample.cfg.checkhostport_eq_none_iff Sample.direct).mpr hover
      revert hnone
      decide +kernel
  exact ⟨r, hev, (nonconforming_counted _ y.st).2 _ _ y r _ rfl rfl hy hr hev hno hs⟩

end VoipTests
