import VoipTests.Subtest.Life

/-!
# VoipTests.Subtest.Ports

The ports that the suite invents for the sections of a body.

A port is told from one of the RTP proxy if it is valid, outside the proxy's
range and not the control port (`PortRange.Distinguishable`).  All that comes
from `gennotinrange` is; `cripple_body` moves ports that came from there up and
down by ten, and `ports_crippleSections_iff` says which of them stay so.
-/

namespace Callback

variable {σ ε κ α β : Type}

/-- All that `o` ever calls is within `R`. -/
def Out.Sends (R : κ → Prop) : Out σ ε κ α → Prop
  | .call c _ k => R c ∧ ∀ s, (k s).Sends R
  | _ => True

/-- A program that does not call out, and one after it. -/
theorem Out.Until.sends_bind {R : κ → Prop} {p : Prog σ ε κ α} {f : α → Prog σ ε κ β} {s : σ}
    (h : (p s).Until fun
      | .ret a, s' => (f a s').Sends R
      | .raise _, _ => True
      | .call _, _ => False) : ((p >>= f) s).Sends R := by
  rw [Prog.bind_apply]
  cases ho : p s with
  | ret a s₁ =>
      rw [ho] at h
      exact h
  | raise e s₁ => exact trivial
  | call c s₁ k =>
      rw [ho] at h
      exact h.elim
  | spin => exact trivial

end Callback

namespace VoipTests

open Callback

/-! ## ports -/

namespace PortRange

variable (pr : PortRange)

/-- A port that cannot be one of the proxy's. -/
def Distinguishable (portn : Int) : Prop :=
  (1 ≤ portn ∧ portn ≤ 65535) ∧ pr.isinrange portn = false ∧ portn ≠ ctlPortn

/-- A port as `gennotinrange` returns it. -/
def Generates (portn : Int) : Prop := portn ≠ ctlPortn ∧ pr.accepts portn = true

/-- A generated port that can be told from the proxy's ten further down. -/
def SparesDown (portn : Int) : Prop :=
  portn ≠ 22232 ∧ ¬ (pr.maxp < portn ∧ pr.minp + 10 ≤ portn ∧ portn ≤ pr.maxp + 10)

/-- A generated port that can be told from the proxy's ten further up. -/
def SparesUp (portn : Int) : Prop :=
  portn ≠ 22212 ∧ portn ≤ 65525 ∧
    ¬ (portn < pr.minp ∧ pr.minp - 10 ≤ portn ∧ portn ≤ pr.maxp - 10)

instance (portn : Int) : Decidable (pr.SparesDown portn) := by
  unfold SparesDown
  infer_instance

instance (portn : Int) : Decidable (pr.SparesUp portn) := by
  unfold SparesUp
  infer_instance

variable {pr} {portn : Int}

theorem isinrange_eq_false_iff : pr.isinrange portn = false ↔ portn < pr.minp ∨ pr.maxp < portn := by
  rw [isinrange]
  split
  · next h => exact iff_of_true rfl h
  · next h => exact iff_of_false (by simp) h

theorem Generates.bounds (h : pr.Generates portn) :
    (1024 ≤ portn ∧ portn ≤ 65535) ∧ (portn < pr.minp ∨ pr.maxp < portn) ∧ portn ≠ 22222 := by
  obtain ⟨hctl, hacc⟩ := h
  simp only [accepts, Bool.and_eq_true, Bool.or_eq_true, decide_eq_true_eq] at hacc
  exact ⟨hacc.1, hacc.2, hctl⟩

/-- **A generated port can be told from the proxy's.** -/
theorem Generates.distinguishable (h : pr.Generates portn) : pr.Distinguishable portn := by
  obtain ⟨hvalid, hout, hctl⟩ := h.bounds
  exact ⟨⟨by omega, hvalid.2⟩, isinrange_eq_false_iff.mpr hout, hctl⟩

/-- Ten further down. -/
theorem Generates.down_iff (h : pr.Generates portn) :
    pr.Distinguishable (portn + -10) ↔ pr.SparesDown portn := by
  obtain ⟨hvalid, hout, -⟩ := h.bounds
  rw [Distinguishable, SparesDown, isinrange_eq_false_iff, ctlPortn]
  omega

/-- Ten further up. -/
theorem Generates.up_iff (h : pr.Generates portn) :
    pr.Distinguishable (portn + 10) ↔ pr.SparesUp portn := by
  obtain ⟨hvalid, hout, -⟩ := h.bounds
  rw [Distinguishable, SparesUp, isinrange_eq_false_iff, ctlPortn]
  omega

end PortRange

/-- `P` holds of the ports of the sections that are looked at. -/
def Ports (P : Int → Prop) (sects : List Section) : Prop :=
  ∀ sect ∈ sects, sect.relevant = true → P sect.mHeader.port

section ports

variable {P Q : Int → Prop} {sect : Section} {sects : List Section}

theorem ports_nil : Ports P [] := nofun

theorem ports_cons_iff : Ports P (sect :: sects) ↔
    (sect.relevant = true → P sect.mHeader.port) ∧ Ports P sects := List.forall_mem_cons

theorem Ports.mono (h : Ports P sects) (hPQ : ∀ portn, P portn → Q portn) : Ports Q sects :=
  fun sect hsect hr => hPQ _ (h sect hsect hr)

end ports

variable {pr : PortRange}

/-! ## ports that are drawn -/

theorem generates_of_fillSection {atype : AType} {sect sect' : Section} {draws rest : List Draw}
    (h : fillSection pr atype sect draws = .ok (sect', rest)) (hr : sect'.relevant = true) :
    pr.Generates sect'.mHeader.port := by
  rw [fillSection] at h
  split at h
  · next hn =>
    cases h
    simp [hr] at hn
  · split at h
    · contradiction
    · next hport =>
      split at h
      · contradiction
      · split at h
        · contradiction
        · cases h
          exact PortRange.accepts_of_gennotinrange hport

/-- **`fillhostport` plants generated ports.** -/
theorem ports_of_fillSections {atype : AType} {sects sects' : List Section}
    {draws rest : List Draw} (h : fillSections pr atype sects draws = .ok (sects', rest)) :
    Ports pr.Generates sects' := by
  induction sects generalizing sects' draws with
  | nil =>
      cases h
      exact ports_nil
  | cons sect sects ih =>
      rw [fillSections] at h
      split at h
      · contradiction
      · next hsect =>
        split at h
        · contradiction
        · next hsects =>
          cases h
          exact ports_cons_iff.mpr ⟨generates_of_fillSection hsect, ih hsects⟩

theorem ports_of_fillhostport {atype : AType} {so : Bool} {origin : OHeader} {sdp sdp' : Sdp}
    {draws rest : List Draw} (h : fillhostport sdp pr atype so origin draws = .ok (sdp', rest)) :
    Ports pr.Generates sdp'.sections := by
  rw [fillhostport] at h
  split at h
  · contradiction
  · next hsects =>
    cases h
    exact ports_of_fillSections hsects

/-- `o` does not call out, and what it returns satisfies `R`; the range is still
`pr`. -/
def Draws (pr : PortRange) {α : Type} (R : α → Prop) (o : Out Subtest Exc UaCall α) : Prop :=
  o.Until fun
    | .ret a, s => R a ∧ s.tccfg.portrange = pr
    | .raise _, _ => True
    | .call _, _ => False

theorem Draws.bind {α β : Type} {R : α → Prop} {R' : β → Prop} {p : M α} {f : α → M β}
    {s : Subtest} (h : Draws pr R (p s))
    (hf : ∀ a s', R a → s'.tccfg.portrange = pr → Draws pr R' (f a s')) :
    Draws pr R' ((p >>= f) s) :=
  Out.Until.bind h (fun a s' ha => hf a s' ha.1 ha.2) (fun _ _ _ => trivial) fun _ _ hc => hc

theorem draws_pure {α : Type} {R : α → Prop} {a : α} {s : Subtest} (hs : s.tccfg.portrange = pr)
    (ha : R a) : Draws pr R ((pure a : M α) s) := ⟨ha, hs⟩

theorem draws_rtpPortAlloc {s : Subtest} (hs : s.tccfg.portrange = pr) :
    Draws pr pr.Generates (Test.rtpPortAlloc s) := by
  unfold Test.rtpPortAlloc
  refine Draws.bind (R := (· = s)) ⟨rfl, hs⟩ fun s₁ s₂ h₁ hs₂ => ?_
  rw [h₁]
  cases hport : s.tccfg.portrange.gennotinrange s.env.draws with
  | none => exact trivial
  | some r => exact ⟨hs ▸ PortRange.accepts_of_gennotinrange hport, hs₂⟩

/-- A loop that draws a port for every section that is looked at. -/
theorem draws_sections {p : M (List Section)} {f : Int → Section} {sect : Section} {s : Subtest}
    (hs : s.tccfg.portrange = pr)
    (ih : ∀ s : Subtest, s.tccfg.portrange = pr → Draws pr (Ports pr.Generates) (p s))
    (hf : ∀ portn, (f portn).mHeader.port = portn) :
    Draws pr (Ports pr.Generates) ((if !sect.relevant then p >>= fun sects => pure (sect :: sects)
      else Test.rtpPortAlloc >>= fun portn => p >>= fun sects => pure (f portn :: sects)) s) := by
  refine until_ite (fun hn => ?_) fun _ => ?_
  · refine (ih s hs).bind fun sects s' hsects hs' => draws_pure hs' (ports_cons_iff.mpr ⟨?_, hsects⟩)
    intro hr
    simp [hr] at hn
  · refine (draws_rtpPortAlloc hs).bind fun portn s₁ hportn hs₁ => ?_
    refine (ih s₁ hs₁).bind fun sects s' hsects hs' => draws_pure hs' ?_
    exact ports_cons_iff.mpr ⟨fun _ => (hf portn).symm ▸ hportn, hsects⟩

theorem draws_alterPorts {s : Subtest} (hs : s.tccfg.portrange = pr) (sects : List Section) :
    Draws pr (Ports pr.Generates) (alterPorts sects s) := by
  induction sects generalizing s with
  | nil => exact draws_pure hs ports_nil
  | cons sect sects ih => exact draws_sections hs (fun s' hs' => ih hs') fun _ => rfl

theorem draws_dropMedia {s : Subtest} (hs : s.tccfg.portrange = pr) (sects : List Section) :
    Draws pr (Ports pr.Generates) (dropMedia sects s) := by
  induction sects generalizing s with
  | nil => exact draws_pure hs ports_nil
  | cons sect sects ih => exact draws_sections hs (fun s' hs' => ih hs') fun _ => rfl

/-! ## bodies that are sent -/

/-- The bodies in what is sent to the UA satisfy `R`. -/
def SendsBody (R : Sdp → Prop) (o : Out Subtest Exc UaCall Unit) : Prop :=
  o.Sends fun
    | .recvEvent ev => ∀ sdp, ev.body = some sdp → R sdp
    | .recvRequest => True

theorem SendsBody.mono {R R' : Sdp → Prop} {o : Out Subtest Exc UaCall Unit} (h : SendsBody R o)
    (hR : ∀ sdp, R sdp → R' sdp) : SendsBody R' o := by
  induction o with
  | call c s k ih =>
      refine ⟨?_, fun s' => ih s' (h.2 s')⟩
      cases c with
      | recvEvent ev => exact fun sdp hsdp => hR sdp (h.1 sdp hsdp)
      | recvRequest => exact trivial
  | _ => exact trivial

theorem sendsBody_ofSome {α : Type} {R : Sdp → Prop} {x : Option α} {f : α → M Unit} {s : Subtest}
    (h : ∀ a, x = some a → SendsBody R (f a s)) : SendsBody R ((M.ofSome x >>= f) s) := by
  cases x with
  | none => exact trivial
  | some a => exact h a rfl

theorem Draws.sendsBody {α : Type} {R : α → Prop} {R' : Sdp → Prop} {p : M α} {f : α → M Unit}
    {s : Subtest} (h : Draws pr R (p s)) (hf : ∀ a s', R a → SendsBody R' (f a s')) :
    SendsBody R' ((p >>= f) s) := by
  refine Out.Until.sends_bind (h.mono fun stop s' hstop => ?_)
  cases stop with
  | ret a => exact hf a s' hstop.1
  | raise e => exact trivial
  | call c => exact hstop

/-- **`test_reinvite.reinvite`** sends generated ports, or those there were. -/
theorem sendsBody_reinvite {s : Subtest} (hs : s.tccfg.portrange = pr) :
    SendsBody (fun sdp => Ports pr.Generates sdp.sections) (TestReinvite.reinvite true s) ∧
      SendsBody (fun sdp => ∃ lSDP, s.ua.lSDP = some lSDP ∧ sdp.sections = lSDP.sections)
        (TestReinvite.reinvite false s) := by
  unfold TestReinvite.reinvite
  constructor
  · change SendsBody _ ((if s.connectDone && !s.disconnectDone then _ else pure () : M Unit) s)
    rw [Prog.ite_apply]
    split
    · refine sendsBody_ofSome fun lSDP _ => ?_
      refine (draws_alterPorts hs lSDP.sections).sendsBody fun sects s' hsects => ?_
      refine ⟨fun sdp hsdp => ?_, fun _ => trivial⟩
      cases hsdp
      exact hsects
    · exact trivial
  · change SendsBody _ ((if s.connectDone && !s.disconnectDone then _ else pure () : M Unit) s)
    rw [Prog.ite_apply]
    split
    · refine sendsBody_ofSome fun lSDP hl => ⟨fun sdp hsdp => ?_, fun _ => trivial⟩
      cases hsdp
      exact ⟨lSDP, hl, rfl⟩
    · exact trivial

/-- **`test_reinvite._process_reinvite`** sends generated ports. -/
theorem sendsBody_answerReinvite {s : Subtest} (hs : s.tccfg.portrange = pr) :
    SendsBody (fun sdp => Ports pr.Generates sdp.sections) (TestReinvite.answerReinvite s) := by
  unfold TestReinvite.answerReinvite
  refine sendsBody_ofSome (s := s) fun lSDP _ => ?_
  refine (draws_alterPorts hs lSDP.sections).sendsBody fun sects s' hsects => ?_
  refine ⟨fun sdp hsdp => ?_, fun _ => trivial⟩
  cases hsdp
  exact hsects

/-- **`b_test_reinv_brkn1.recvEvent`** sends generated ports. -/
theorem sendsBody_recvUpdate {s : Subtest} (hs : s.tccfg.portrange = pr) {ev : CCEvent}
    (hev : ev.isUpdate = true) (sup : M Unit) :
    SendsBody (fun sdp => Ports pr.Generates sdp.sections) (BTestReinvBrkn1.recvEvent ev sup s) := by
  unfold BTestReinvBrkn1.recvEvent
  rw [hev, Bool.not_true, if_neg Bool.false_ne_true]
  refine sendsBody_ofSome (s := s) fun lSDP _ => ?_
  refine (draws_dropMedia hs lSDP.sections).sendsBody fun sects s' hsects => ?_
  refine ⟨fun sdp hsdp => ?_, fun _ => trivial⟩
  cases hsdp
  exact hsects

/-! ## `cripple_body` -/

/-- The ports that go down and up in turn stay out of the way. -/
def Spares (pr : PortRange) (down : Bool) : List Section → Prop
  | [] => True
  | sect :: sects =>
    if sect.relevant then
      (if down then pr.SparesDown sect.mHeader.port else pr.SparesUp sect.mHeader.port) ∧
        Spares pr (!down) sects
    else Spares pr down sects

instance decidableSpares (pr : PortRange) :
    (down : Bool) → (sects : List Section) → Decidable (Spares pr down sects)
  | _, [] => .isTrue trivial
  | down, sect :: sects => by
    have := decidableSpares pr (!down) sects
    have := decidableSpares pr down sects
    unfold Spares
    infer_instance

/-- **The ports of `cripple_body`**, of generated ones: the increment changes its
sign from section to section, and nothing else changes it. -/
theorem ports_crippleSections_iff {sects : List Section} (h : Ports pr.Generates sects)
    (down : Bool) :
    Ports pr.Distinguishable (crippleSections (if down then -10 else 10) sects).1 ↔
      Spares pr down sects := by
  induction sects generalizing down with
  | nil => exact iff_of_true ports_nil trivial
  | cons sect sects ih =>
      obtain ⟨hsect, hsects⟩ := ports_cons_iff.mp h
      rw [crippleSections, Spares]
      by_cases hr : sect.relevant = true
      · have hgen := hsect hr
        obtain ⟨hvalid, -⟩ := hgen.bounds
        have hsign : -(if down then -10 else 10 : Int) = if !down then -10 else 10 := by
          cases down <;> rfl
        have hkeep : ¬ sect.mHeader.port + (if down then -10 else 10 : Int) ≤ 0 := by
          split <;> omega
        have hport : pr.Distinguishable (sect.mHeader.port + if down then -10 else 10) ↔
            if down then pr.SparesDown sect.mHeader.port else pr.SparesUp sect.mHeader.port := by
          cases down with
          | true => exact hgen.down_iff
          | false => exact hgen.up_iff
        rw [if_neg (by simp [hr]), if_neg hkeep, if_pos hr]
        dsimp only
        rw [hsign, ports_cons_iff, ih hsects, ← hport]
        exact and_congr_left' ⟨fun hp => hp hr, fun hp _ => hp⟩
      · rw [if_pos (by simp [hr]), if_neg hr, ports_cons_iff, ih hsects]
        exact and_iff_right fun hr' => absurd hr' hr

/-- **Which invented ports can be told from the proxy's**: all that are drawn,
and those of `cripple_body` exactly if the ports it begins with are out of its
way. -/
theorem ports_distinguishable_iff (pr : PortRange) :
    (∀ sdp atype so origin draws B rest,
      fillhostport sdp pr atype so origin draws = .ok (B, rest) →
        Ports pr.Distinguishable B.sections ∧
          ∀ s : Subtest, s.pIncr = -10 →
            ((crippleBody B s).Yields (fun sdp => Ports pr.Distinguishable sdp.sections) ↔
              Spares pr true B.sections)) ∧
      ∀ s : Subtest, s.tccfg.portrange = pr →
        SendsBody (fun sdp => Ports pr.Distinguishable sdp.sections) (TestReinvite.reinvite true s) ∧
        SendsBody (fun sdp => ∃ lSDP, s.ua.lSDP = some lSDP ∧ sdp.sections = lSDP.sections)
          (TestReinvite.reinvite false s) ∧
        SendsBody (fun sdp => Ports pr.Distinguishable sdp.sections)
          (TestReinvite.answerReinvite s) ∧
        ∀ ev sup, ev.isUpdate = true →
          SendsBody (fun sdp => Ports pr.Distinguishable sdp.sections)
            (BTestReinvBrkn1.recvEvent ev sup s) := by
  have hdist {sects : List Section} (h : Ports pr.Generates sects) :
      Ports pr.Distinguishable sects := h.mono fun _ hport => hport.distinguishable
  refine ⟨fun sdp atype so origin draws B rest hfill => ?_, fun s hs => ?_⟩
  · have hgen := ports_of_fillhostport hfill
    refine ⟨hdist hgen, fun s hincr => ?_⟩
    have hcripple := ports_crippleSections_iff hgen true
    rw [if_pos rfl, ← hincr] at hcripple
    exact hcripple
  · have hmono {o : Out Subtest Exc UaCall Unit}
        (h : SendsBody (fun sdp => Ports pr.Generates sdp.sections) o) :
        SendsBody (fun sdp => Ports pr.Distinguishable sdp.sections) o := h.mono fun _ => hdist
    obtain ⟨halter, hkeep⟩ := sendsBody_reinvite hs
    exact ⟨hmono halter, hkeep, hmono (sendsBody_answerReinvite hs),
      fun ev sup hev => hmono (sendsBody_recvUpdate hs hev sup)⟩

/-- What is left of `Sample.proxied` when the port `portn` has been drawn. -/
private def drawnBody (portn : Int) : Sdp :=
  ⟨⟨0⟩, "-", [⟨⟨"audio", portn, "RTP/AVP", [.num 0]⟩, some ⟨some .ip4, "128.128.128.128"⟩, []⟩]⟩

theorem ports_distinguishable_drawn : Ports Sample.cfg.portrange.Distinguishable (drawnBody 32766).sections ∧
    (crippleBody (drawnBody 32766) (.fresh (.b .invBrkn1) Sample.cfg false Sample.env)).Yields
      (fun sdp => Ports Sample.cfg.portrange.Distinguishable sdp.sections) := by
  have hfill : fillhostport Sample.proxied Sample.cfg.portrange .ip4 true ⟨0⟩
      (List.replicate 5 .half) = .ok (drawnBody 32766, []) := by decide +kernel
  obtain ⟨hports, hcripple⟩ :=
    (ports_distinguishable_iff Sample.cfg.portrange).1 _ _ _ _ _ _ _ hfill
  exact ⟨hports, (hcripple _ rfl).mpr (by decide)⟩

/-- The port 15002 is drawn, and moved to 14992. -/
theorem not_ports_distinguishable : ¬ ∀ pr : PortRange, pr.minp ≤ pr.maxp →
    ∀ sdp atype so origin draws B rest,
      fillhostport sdp pr atype so origin draws = .ok (B, rest) →
        ∀ s : Subtest, s.pIncr = -10 →
          (crippleBody B s).Yields (fun sdp => Ports pr.Distinguishable sdp.sections) := by
  intro h
  have hfill : fillhostport Sample.proxied Sample.cfg.portrange .ip4 true ⟨0⟩
      (⟨7500 / 32765, by norm_num, by norm_num⟩ :: List.replicate 4 .half) =
        .ok (drawnBody 15002, []) := by decide +kernel
  have hports : Ports Sample.cfg.portrange.Distinguishable
      [⟨⟨"audio", 14992, "RTP/AVP", [.num 0]⟩, none, []⟩] :=
    h _ (by decide) _ _ _ _ _ _ _ hfill (.fresh (.b .invBrkn1) Sample.cfg false Sample.env) rfl
  have hrange := (hports _ List.mem_cons_self (by decide)).2.1
  exact absurd hrange (by decide)

end VoipTests
