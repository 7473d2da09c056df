import VoipTests.Subtest.Endpoint
import VoipTests.Subtest.Silence

/-!
# VoipTests.Subtest.Advertised

The port a subtest asks for media on, and the port its endpoint listens on.

Offers and answers are built around the endpoint.  A re-INVITE and the answer
to one are copies of `ua.lSDP`, most of them with ports drawn anew, which no
endpoint follows.  `Fits` is what keeps the copies right whose ports are the
old ones; `advertises_of_meets` is the result for whole runs.
-/

namespace VoipTests

open Callback

variable {p : Setup} {s s' s₀ s₁ s₂ : Subtest} {cb : Cb} {sdp : Option Sdp}

/-! ## bodies that fit the endpoint -/

/-- The port that a body asks for audio on, if there is a body. -/
abbrev bodyPort (sdp : Option Sdp) : Option (Option Int) := sdp.map Sdp.audioPort

/-- Until the subtest has reported: a body asks for media where the endpoint
listens, and there is no body before there is an endpoint. -/
structure Subtest.Fits (s : Subtest) (sdp : Option Sdp) : Prop where
  listens : s.report = none → ∀ e, s.rtp.ep = some e → ∀ n, bodyPort sdp = some (some n) → n = e.lport
  unset : s.report = none → s.rtp.enabled = true → s.rtp.ep = none → bodyPort sdp = none

namespace Subtest.Fits

/-- The endpoint is set up, and the subtest does not report. -/
theorem follows (h : s.Fits sdp) (hf : s.rtp.Follows s'.rtp) (hr : s'.report = s.report) :
    s'.Fits sdp := by
  refine ⟨fun hn e he n hp => ?_, fun hn hen hnone => ?_⟩
  · rw [hr] at hn
    obtain ⟨hnone, hen, -, -⟩ | ⟨hep, -⟩ := hf.ep
    · rw [h.unset hn hen hnone] at hp
      cases hp
    · rw [he, Option.map_some] at hep
      obtain ⟨e₀, he₀, hport⟩ := Option.map_eq_some_iff.mp hep.symm
      rw [h.listens hn e₀ he₀ n hp, hport]
  · rw [hr] at hn
    rw [hf.enabled] at hen
    obtain ⟨-, -, hsome, -⟩ | ⟨hep, -⟩ := hf.ep
    · rw [hnone] at hsome
      cases hsome
    · rw [hnone, Option.map_none] at hep
      exact h.unset hn hen (Option.map_eq_none_iff.mp hep.symm)

theorem same (h : s.Fits sdp) (hrtp : s'.rtp = s.rtp) (hr : s'.report = s.report) : s'.Fits sdp :=
  h.follows (hrtp ▸ .refl _) hr

/-- The same port. -/
theorem congr {sdp' : Option Sdp} (h : s.Fits sdp) (hp : bodyPort sdp' = bodyPort sdp) :
    s.Fits sdp' :=
  ⟨fun hn e he n hn' => h.listens hn e he n (hp ▸ hn'), fun hn hen hnone => hp.trans (h.unset hn hen hnone)⟩

end Subtest.Fits

/-- RTP is disabled. -/
theorem Subtest.Fits.disable (h : s.Fits sdp) (hrtp : s'.rtp = { s.rtp with enabled := false })
    (hr : s'.report = s.report) : s'.Fits sdp := by
  refine ⟨fun hn e he => ?_, fun _ hen => ?_⟩
  · rw [hr] at hn
    rw [hrtp] at he
    exact h.listens hn e he
  · rw [hrtp] at hen
    cases hen

/-- Nothing is asked once the subtest has reported. -/
theorem Subtest.Fits.of_report (hr : s.report ≠ none) : s.Fits sdp :=
  ⟨fun hn => (hr hn).elim, fun hn => (hr hn).elim⟩

/-- Nothing is asked while there is no endpoint and RTP is not enabled. -/
theorem Subtest.Fits.of_none (hep : s.rtp.ep = none) (hen : s.rtp.enabled = true → bodyPort sdp = none) :
    s.Fits sdp :=
  ⟨fun _ e he => (by rw [hep] at he; cases he), fun _ he _ => hen he⟩

/-- Bob has an endpoint only where RTP is enabled. -/
def Subtest.BobFits (s : Subtest) : Prop :=
  s.cls.isAlice = false → s.rtp.enabled = false → s.rtp.ep = none

theorem Subtest.BobFits.follows (h : s.BobFits) (hcls : s'.cls = s.cls) (hf : s.rtp.Follows s'.rtp) :
    s'.BobFits := by
  intro ha hen
  rw [hcls] at ha
  rw [hf.enabled] at hen
  obtain ⟨-, hen', -, -⟩ | ⟨hep, -⟩ := hf.ep
  · rw [hen] at hen'
    cases hen'
  · rw [h ha hen, Option.map_none] at hep
    exact Option.map_eq_none_iff.mp hep

/-- A body that is advertised fits. -/
theorem Subtest.Advertises.fits (h : s.Advertises sdp) (hoff : s.rtp.enabled = false → s.rtp.ep = none) :
    s.Fits sdp ∧ ∀ body e, sdp = some body → s.rtp.ep = some e → body.Advertises e.lport := by
  cases hen : s.rtp.enabled with
  | true =>
      obtain ⟨e, body, hep, rfl, hadv⟩ := h hen
      have hlistens (e' : Endpoint) (he' : s.rtp.ep = some e') : body.Advertises e'.lport := by
        rw [hep, Option.some.injEq] at he'
        exact he' ▸ hadv
      refine ⟨⟨fun _ e' he' n hn => hlistens e' he' n (by simpa using hn), fun _ _ hn => ?_⟩, ?_⟩
      · rw [hep] at hn
        cases hn
      · rintro _ e' ⟨⟩ he'
        exact hlistens e' he'
  | false =>
      have hep := hoff hen
      refine ⟨.of_none hep fun he => ?_, fun _ e _ he => ?_⟩
      · rw [hen] at he
        cases he
      · rw [hep] at he
        cases he

/-! ## the steps that keep the port -/

/-- While the subtest holds an endpoint, it sends no body with a port drawn
anew: no re-INVITE that alters the ports, and no answer to one; and no
re-INVITE at all once it has reported. -/
def KeepsPort (s : Subtest) : Act → Prop
  | .enter ⟨.timer t, _⟩ => s.rtp.ep.isSome = true →
    ((t.cb = .reinvite ∨ t.cb = .offHold) → s.connectDone = true → s.disconnectDone = false →
      ¬ s.Alters t ∧ s.report = none) ∧
    (t.cb = .processReinvite → s.ua.lSDP = none)
  | .enter ⟨.event ev, _⟩ => s.rtp.ep.isSome = true → ev.isUpdate = true → s.cls.answers = true →
    s.ua.lSDP = none
  | _ => True

/-- What a body that is handed to the UA has to do with the endpoint. -/
structure Apt (s s' : Subtest) (ev : CCEvent) : Prop where
  fits : ∀ sdp, ev.body = some sdp → s'.Fits (some sdp)
  advertises : ∀ sdp, ev.body = some sdp → ∀ e, s'.rtp.ep = some e → sdp.Advertises e.lport

theorem Apt.of_body {ev : CCEvent} (h : ev.body = none) : Apt s s' ev :=
  ⟨fun sdp hs => (by rw [h] at hs; cases hs), fun sdp hs => (by rw [h] at hs; cases hs)⟩

/-- What is sent without an endpoint, as a copy of a body. -/
theorem Apt.of_copy {ev : CCEvent} (hs : s.Fits s.ua.lSDP) (hl : s.ua.lSDP ≠ none)
    (hep : s.rtp.ep = none) (hrtp : s'.rtp = s.rtp) (hr : s'.report = s.report) : Apt s s' ev := by
  refine ⟨fun sdp _ => ⟨fun _ e he => ?_, fun hn hen _ => ?_⟩, fun sdp _ e he => ?_⟩
  · rw [hrtp, hep] at he
    cases he
  · rw [hr] at hn
    rw [hrtp] at hen
    exact (hl (Option.map_eq_none_iff.mp (hs.unset hn hen hep))).elim
  · rw [hrtp, hep] at he
    cases he

@[simp] theorem lSDP_entered {env : Env} : (s.entered cb env).ua.lSDP = s.ua.lSDP := by
  cases cb <;> rfl

/-- **What is sent** fits the endpoint. -/
theorem Sends.apt {ev : CCEvent} {env : Env} (h : Sends (s.entered cb env) cb ev s')
    (hs : s.Fits s.ua.lSDP) (hb : s.BobFits) (hq : KeepsPort s (.enter ⟨cb, env⟩)) : Apt s s' ev := by
  have hbob (ha : s.cls.isAlice = false) {ts : List Timer} (hleads : (s.entered cb env).Leads s' ts)
      {body : Option Sdp} (hbody : s'.Advertises body) (hev : ev.body = body) : Apt s s' ev := by
    have hb' : s'.BobFits := hb.follows hleads.cls hleads.rtp
    obtain ⟨hfits, hlistens⟩ := hbody.fits (hb' (by rw [hleads.cls]; exact ha))
    rw [← hev] at hfits hlistens
    exact ⟨fun sdp hsdp => hsdp ▸ hfits, fun sdp hsdp e he => hlistens sdp e hsdp he⟩
  cases h with
  | ring ht ha hd hleads hbody =>
      rcases hbody with rfl | ⟨-, hbody⟩
      · exact .of_body rfl
      · exact hbob ha hleads hbody rfl
  | connect ht ha hd hleads hbody => exact hbob ha hleads hbody rfl
  | @reinvite t lSDP sdp _ ht hd hleads hrtp hl hsdp =>
      have hl' : s.ua.lSDP = some lSDP := hl
      cases hep : s.rtp.ep with
      | none => exact .of_copy hs (by simp [hl']) hep hrtp hleads.report
      | some e₀ =>
          obtain ⟨hkeep, -⟩ := hq (by rw [hep]; rfl)
          obtain ⟨hno, hn⟩ := hkeep ht hd.1 hd.2
          have hport : sdp.audioPort = lSDP.audioPort := hsdp.resolve_left hno
          have hfits : s'.Fits (some sdp) :=
            (hs.same hrtp hleads.report).congr (by rw [hl', bodyPort, Option.map_some, hport]; rfl)
          refine ⟨fun sdp' hs' => ?_, fun sdp' hs' e he n hn' => ?_⟩
          · cases hs'
            exact hfits
          · cases hs'
            exact hfits.listens (hleads.report.trans hn) e he n (congrArg some hn')
  | answer hcb hl hleads hrtp =>
      rw [lSDP_entered] at hl
      cases hep : s.rtp.ep with
      | none => exact .of_copy hs (Option.isSome_iff_ne_none.mp hl) hep hrtp hleads.report
      | some e₀ =>
          -- The condition rules the answer out.
          have hsome : s.rtp.ep.isSome = true := by rw [hep]; rfl
          have hnone : s.ua.lSDP = none := by
            rcases hcb with ⟨t, rfl, ht⟩ | ⟨⟨body, rfl⟩, hanswers⟩
            · exact (hq hsome).2 ht
            · exact hq hsome rfl hanswers
          rw [hnone] at hl
          cases hl
  | _ => exact .of_body rfl

/-! ## one step -/

/-- What is known of the endpoint and of the bodies in `ua.lSDP` between two
steps: of the current one and of those that were found by the calls that are
pending, which may be put back. -/
structure Fitting (g : Stage Subtest UaCall) : Prop where
  lSDP : g.st.Fits g.st.ua.lSDP
  calls : ∀ call ∈ g.calls, g.st.Fits call.2.ua.lSDP ∧ call.2.cls = g.st.cls
  bob : g.st.BobFits

/-- What is handed to the UA in `l` asks for media where the endpoint
listens. -/
def Subtest.Honest (s : Subtest) (l : List Obs) : Prop :=
  ∀ ev sdp e, .inject ev ∈ l → ev.body = some sdp → s.rtp.ep = some e → sdp.Advertises e.lport

theorem Subtest.Honest.of_mute {l : List Obs} (h : s.Mute s') (hl : s'.log = s.log ++ l) :
    s₁.Honest l := by
  intro ev sdp e hmem
  obtain ⟨l', hl', hn⟩ := h
  rw [hl', List.append_cancel_left_eq] at hl
  exact (hn ev (hl ▸ hmem)).elim

/-- Calls that are pending, after a step that only sets up the endpoint. -/
theorem Fitting.calls_follows {g : Stage Subtest UaCall} (hg : Fitting g)
    (hrtp : g.st.rtp.Follows s'.rtp) (hr : s'.report = g.st.report) (hcls : s'.cls = g.st.cls) :
    ∀ call ∈ g.calls, s'.Fits call.2.ua.lSDP ∧ call.2.cls = s'.cls := fun call hmem => by
  obtain ⟨hfits, hc⟩ := hg.calls call hmem
  exact ⟨hfits.follows hrtp hr, hc.trans hcls.symm⟩

/-- A callback that sends nothing. -/
theorem Fitting.silent {cs : List (UaCall × Subtest)} {env : Env} (hg : Fitting ⟨s, cs⟩) (hcb : cb ≠ .dead)
    (h : Silent cb (s.entered cb env) s₂) : Fitting ⟨s₂, cs⟩ ∧ s.Mute s₂ := by
  obtain ⟨ts, hstays, -⟩ := h.stays
  have hrtp := h.rtp
  have hlSDP : bodyPort s₂.ua.lSDP = bodyPort s.ua.lSDP := by
    rw [bodyPort, h.lSDP, lSDP_entered]
  have hfollows : s.rtp.Follows s₂.rtp ∧ s₂.report = s.report := by
    cases cb with
    | dead => exact (hcb rfl).elim
    | _ => exact hrtp
  refine ⟨⟨(hg.lSDP.follows hfollows.1 hfollows.2).congr hlSDP, ?_, ?_⟩, ?_⟩
  · exact hg.calls_follows hfollows.1 hfollows.2 hstays.cls
  · exact hg.bob.follows hstays.cls hfollows.1
  · exact Subtest.mute_entered.trans hstays.mute

/-- A callback that sends an event. -/
theorem Fitting.sends {cs : List (UaCall × Subtest)} {env : Env} {ev : CCEvent} (hg : Fitting ⟨s, cs⟩)
    (h : Sends (s.entered cb env) cb ev s₂) (hq : KeepsPort s (.enter ⟨cb, env⟩)) :
    Fitting ⟨machine.sent (.recvEvent ev) s₂, (.recvEvent ev, s₂) :: cs⟩ ∧
      ∀ l, (machine.sent (.recvEvent ev) s₂).log = s.log ++ l →
        (machine.sent (.recvEvent ev) s₂).Honest l := by
  obtain ⟨ts, hleads⟩ := Sends.leads h
  have hapt := Sends.apt h hg.lSDP hg.bob hq
  have hport : bodyPort s₂.ua.lSDP = bodyPort s.ua.lSDP := by
    rw [bodyPort, hleads.lSDP, lSDP_entered]
  have hfits : s₂.Fits s₂.ua.lSDP := (hg.lSDP.follows hleads.rtp hleads.report).congr hport
  have hcalls := hg.calls_follows hleads.rtp hleads.report hleads.cls
  refine ⟨⟨?_, fun call hmem => ?_, hg.bob.follows hleads.cls hleads.rtp⟩, fun l hl => ?_⟩
  · show (machine.sent (.recvEvent ev) s₂).Fits (ev.body.or s₂.ua.lSDP)
    cases hbody : ev.body with
    | none => exact hfits.same rfl rfl
    | some sdp => exact (hapt.fits sdp hbody).same rfl rfl
  · rcases List.mem_cons.mp hmem with rfl | hmem
    · exact ⟨hfits.same rfl rfl, rfl⟩
    · exact ⟨(hcalls call hmem).1.same rfl rfl, (hcalls call hmem).2⟩
  · obtain ⟨l₂, hl₂, hn⟩ : s.Mute s₂ := Subtest.mute_entered.trans hleads.mute
    have hland : (machine.sent (.recvEvent ev) s₂).log = s₂.log ++ [.inject ev] := rfl
    rw [hland, hl₂, List.append_assoc, List.append_cancel_left_eq] at hl
    intro ev' sdp e hmem hbody he
    rw [← hl, List.mem_append, List.mem_singleton] at hmem
    obtain rfl : ev' = ev := by
      rcases hmem with hmem | hmem
      · exact (hn ev' hmem).elim
      · exact Obs.inject.inj hmem
    exact hapt.advertises sdp hbody e he

/-- **A callback** other than `alldone`. -/
theorem Fitting.enter {cs : List (UaCall × Subtest)} {env : Env} {stop : Stop Exc UaCall Unit}
    (hg : Fitting ⟨s, cs⟩) (hcb : cb ≠ .dead) (hP : Stretch cb (s.entered cb env) stop s₂)
    (hq : KeepsPort s (.enter ⟨cb, env⟩)) :
    Fitting ⟨machine.land stop s₂, stop.push s₂ cs⟩ ∧
      ∀ l, (machine.land stop s₂).log = s.log ++ l → (machine.land stop s₂).Honest l := by
  cases stop with
  | ret a =>
      obtain ⟨hf, hm⟩ := hg.silent hcb hP
      exact ⟨hf, fun l hl => .of_mute hm hl⟩
  | raise e =>
      obtain ⟨⟨h₁, h₂, h₃⟩, hm⟩ := hg.silent hcb hP
      refine ⟨⟨h₁.same rfl rfl, fun call hc => ⟨(h₂ call hc).1.same rfl rfl, (h₂ call hc).2⟩, h₃⟩, ?_⟩
      exact fun l hl => .of_mute (hm.caught e) hl
  | call c =>
      cases c with
      | recvRequest => exact hP.elim
      | recvEvent ev => exact hg.sends hP hq

/-- What is left to be done once a call returns. -/
theorem Fitting.ret {c : UaCall} {cs : List (UaCall × Subtest)} (hg : Fitting ⟨s, (c, s₀) :: cs⟩)
    (hT : Tail c s₀ s s') : Fitting ⟨s', cs⟩ ∧ s.Mute s' := by
  obtain ⟨ts, hstays, -⟩ := hT.stays
  obtain ⟨hfits₀, hcls₀⟩ := hg.calls (c, s₀) List.mem_cons_self
  have hkeep {sdp : Option Sdp} (h : s.Fits sdp) : s'.Fits sdp := by
    rcases hT.rtp with hrtp | ⟨hrtp, -⟩
    · exact h.same hrtp hT.report
    · exact h.disable hrtp hT.report
  refine ⟨⟨?_, fun call hmem => ?_, fun ha hen => ?_⟩, hstays.mute⟩
  · rcases hT.lSDP with hl | ⟨hl, -⟩
    · exact (hkeep hg.lSDP).congr hl
    · exact (hkeep hfits₀).congr hl
  · obtain ⟨hfits, hcls⟩ := hg.calls call (List.mem_cons_of_mem _ hmem)
    exact ⟨hkeep hfits, hcls.trans hstays.cls.symm⟩
  · have ha' : s.cls.isAlice = false := hstays.cls ▸ ha
    rcases hT.rtp with hrtp | ⟨hrtp, hc⟩
    · rw [hrtp] at hen ⊢
      exact hg.bob ha' hen
    · -- Only Alice's constructors disable RTP when there may be an endpoint.
      have halice : s.cls.isAlice = true := by
        rw [← hcls₀]
        exact hc.elim PyClass.isAlice_of_isA PyClass.isAlice_of_isA
      rw [ha'] at halice
      cases halice

/-- **One step** other than the callback `alldone`. -/
theorem fitting_of_staged {g g' : Stage Subtest UaCall} {a : Act} (h : Staged g a g')
    (ha : ∀ env, a ≠ .enter ⟨.dead, env⟩) (hg : Fitting g) (hq : KeepsPort g.st a) :
    Fitting g' ∧ ∀ l, g'.st.log = g.st.log ++ l → g'.st.Honest l := by
  have henv {s : Subtest} {cs : List (UaCall × Subtest)} (hg : Fitting ⟨s, cs⟩) (env : Env) :
      Fitting ⟨machine.resume env s, cs⟩ :=
    ⟨hg.lSDP.same rfl rfl, fun call hc => ⟨(hg.calls call hc).1.same rfl rfl, (hg.calls call hc).2⟩,
      hg.bob⟩
  have hcaught {s : Subtest} {cs : List (UaCall × Subtest)} (hg : Fitting ⟨s, cs⟩) (e : Exc) :
      Fitting ⟨machine.caught e s, cs⟩ :=
    ⟨hg.lSDP.same rfl rfl, fun call hc => ⟨(hg.calls call hc).1.same rfl rfl, (hg.calls call hc).2⟩,
      hg.bob⟩
  cases h with
  | @enter i s s₁ s₂ cs stop he hP =>
      obtain ⟨cb, env⟩ := i
      obtain ⟨-, rfl⟩ := entry_eq_entered he
      exact hg.enter (fun hcb => ha env (by rw [← hcb])) hP hq
  | ret hT =>
      obtain ⟨hf, hm⟩ := (henv hg _).ret hT
      exact ⟨hf, fun l hl => .of_mute hm hl⟩
  | retRaise hT =>
      obtain ⟨hf, hm⟩ := (henv hg _).ret hT
      exact ⟨hcaught hf _, fun l hl => .of_mute (hm.caught _) hl⟩
  | @throw e s call cs =>
      have hrest : Fitting ⟨s, cs⟩ := ⟨hg.lSDP, fun c hc => hg.calls c (List.mem_cons_of_mem _ hc), hg.bob⟩
      have hmute : s.Mute (machine.caught e s) := Subtest.Mute.caught ⟨[], by simp⟩ e
      exact ⟨hcaught hrest e, fun l hl => .of_mute hmute hl⟩

/-- A subtest has reported once `alldone` has been entered. -/
theorem Setup.Lives.reported_of_dead {y y' : Sys} {env : Env} (hl : p.Lives y.st) (hf : p.Found y)
    (hs : machine.step y (.enter ⟨.dead, env⟩) = some y') : y'.st.report ≠ none := by
  cases hn : y.st.report with
  | none => exact hl.reports_of_dead hn hs
  | some r =>
      rw [hl.report hn (hf.step hs).2]
      nofun

/-- **The callback `alldone`.** -/
theorem Setup.Lives.fitting_dead {y y' : Sys} {env : Env} {cs : List (UaCall × Subtest)}
    (hl : p.Lives y.st) (hf : p.Found y) (hy : Pending y cs) (hg : Fitting ⟨y.st, cs⟩)
    (hs : machine.step y (.enter ⟨.dead, env⟩) = some y') :
    ∃ cs', Pending y' cs' ∧ Fitting ⟨y'.st, cs'⟩ ∧
      ∀ l, y'.st.log = y.st.log ++ l → y'.st.Honest l := by
  obtain ⟨cs', hstaged, hy'⟩ := staged_of_step hy hs
  have hrep := hl.reported_of_dead hf hs
  obtain ⟨-, hrtp⟩ := hl.rtp_of_dead hy hs
  obtain ⟨hcalls, s₂, hsilent, hst⟩ := hstaged.dead
  obtain ⟨ts, hstays, -⟩ := hsilent.stays
  have hmute₂ : y.st.Mute s₂ := Subtest.mute_entered.trans hstays.mute
  have hsame : y'.st.cls = y.st.cls ∧ y.st.Mute y'.st := by
    have hst' : y'.st = s₂ ∨ ∃ e, y'.st = machine.caught e s₂ := hst
    rcases hst' with hst' | ⟨e, hst'⟩
    · rw [hst']
      exact ⟨hstays.cls, hmute₂⟩
    · rw [hst']
      exact ⟨hstays.cls, hmute₂.caught e⟩
  refine ⟨cs', hy', ⟨.of_report hrep, fun call hmem => ?_, fun ha hen => ?_⟩,
    fun l hl => .of_mute hsame.2 hl⟩
  · refine ⟨.of_report hrep, ?_⟩
    rw [hsame.1]
    exact (hg.calls call (hcalls ▸ hmem)).2
  · have hbob := hg.bob (hsame.1 ▸ ha)
    -- What is shut down is gone.
    unfold Rtp.shutdown at hrtp
    rw [hrtp] at hen ⊢
    grind

theorem Setup.Opens.fitting {c : UaCall} (h : p.Opens c s) : Fitting ⟨machine.sent c s, [(c, s)]⟩ ∧
    (machine.sent c s).Honest (machine.sent c s).log := by
  have hsame : (machine.sent c s).rtp = s.rtp ∧ (machine.sent c s).report = s.report ∧
      (machine.sent c s).cls = s.cls := by
    cases c <;> exact ⟨rfl, rfl, rfl⟩
  -- The stack has the one call, made with no body in `ua.lSDP`.
  have hcalls : ∀ call ∈ [(c, s)], (machine.sent c s).Fits call.2.ua.lSDP ∧
      call.2.cls = (machine.sent c s).cls := fun call hmem => by
    rw [List.mem_singleton.mp hmem, h.lSDP]
    exact ⟨⟨fun _ _ _ _ hn => (by cases hn), fun _ _ _ => rfl⟩, hsame.2.2.symm⟩
  cases ha : s.cls.isAlice with
  | true =>
      obtain ⟨cli, cld, body, rfl, hadv, hlog, hlSDP⟩ := h.alice ha
      obtain ⟨hfits, hlistens⟩ := hadv.fits fun hoff => h.ep_eq_none (.inl hoff)
      refine ⟨⟨?_, hcalls, fun hb => ?_⟩, fun ev sdp e hmem hev he => ?_⟩
      · rw [hlSDP]
        exact hfits.same rfl rfl
      · rw [hsame.2.2, ha] at hb
        cases hb
      · rw [hlog, List.mem_singleton, Obs.inject.injEq] at hmem
        subst hmem
        exact hlistens sdp e hev he
  | false =>
      obtain ⟨rfl, -⟩ := h.bob (h.cls ▸ ha)
      have hep : (machine.sent .recvRequest s).rtp.ep = none := h.ep_eq_none (.inr ha)
      have hlSDP : (machine.sent .recvRequest s).ua.lSDP = none := h.lSDP
      refine ⟨⟨.of_none hep fun _ => ?_, hcalls, fun _ _ => hep⟩, fun ev sdp e _ _ he => ?_⟩
      · rw [hlSDP]
        rfl
      · rw [hep] at he
        cases he

/-! ## runs -/

/-- What the step hands to the UA asks for media where the endpoint listens, if
the subtest holds one. -/
def AdvertisesEndpoint (y : Sys) (a : Act) : Prop :=
  ∀ y', machine.step y a = some y' → ∀ l, y'.st.log = y.st.log ++ l → y'.st.Honest l

/-- **The port that is advertised** is the one that is listened on, from the
INVITE on and in every step of a run whose steps all keep the port. -/
theorem advertises_of_meets {acts : List Act} {y₀ y : Sys} (hstart : p.start = some y₀)
    (h : Run.exec machine.step y₀ acts = some y)
    (hq : Run.Meets machine.step (fun y a => KeepsPort y.st a) y₀ acts) :
    y₀.st.Honest y₀.st.log ∧ Run.Meets machine.step AdvertisesEndpoint y₀ acts := by
  have hstep (y : Sys) (a : Act) (y' : Sys) (hy : p.Found y ∧ (p.Lives y.st → ∃ cs, Pending y cs ∧
      Fitting ⟨y.st, cs⟩)) (hqa : KeepsPort y.st a) (hs : machine.step y a = some y') :
      (p.Found y' ∧ (p.Lives y'.st → ∃ cs, Pending y' cs ∧ Fitting ⟨y'.st, cs⟩)) ∧
        AdvertisesEndpoint y a := by
    obtain ⟨hf, hfit⟩ := hy
    have hl := hf.lives_of_step hs
    obtain ⟨cs, hcs, hg⟩ := hfit hl
    have hnext : ∃ cs', Pending y' cs' ∧ Fitting ⟨y'.st, cs'⟩ ∧
        ∀ l, y'.st.log = y.st.log ++ l → y'.st.Honest l := by
      by_cases ha : ∃ env, a = .enter ⟨.dead, env⟩
      · obtain ⟨env, rfl⟩ := ha
        exact hl.fitting_dead hf hcs hg hs
      · rw [not_exists] at ha
        obtain ⟨cs', hstaged, hcs'⟩ := staged_of_step hcs hs
        obtain ⟨hg', hhonest⟩ := fitting_of_staged hstaged ha hg hqa
        exact ⟨cs', hcs', hg', hhonest⟩
    obtain ⟨cs', hcs', hg', hhonest⟩ := hnext
    refine ⟨⟨(hf.step hs).1, fun _ => ⟨cs', hcs', hg'⟩⟩, fun y₁ hs₁ => ?_⟩
    rw [hs, Option.some.injEq] at hs₁
    exact hs₁ ▸ hhonest
  have h₀ : p.Reaches [] y₀ := ⟨y₀, hstart, rfl⟩
  have hfound : p.Found y₀ := Setup.found_of_reaches h₀
  rcases Setup.staged_of_start hstart with ⟨hun, -⟩ | ⟨c, s, ho, hst, hcs⟩
  · refine ⟨fun ev sdp e hmem => (hun.log ev hmem).elim, hq.imp hstep ⟨hfound, fun hl => ?_⟩ h⟩
    have hc := hl.created
    rw [hun.created] at hc
    cases hc
  · obtain ⟨hg, hhonest⟩ := ho.fitting
    rw [← hst] at hg hhonest
    exact ⟨hhonest, hq.imp hstep ⟨hfound, fun _ => ⟨_, hcs, hg⟩⟩ h⟩

/-! ## a re-INVITE with another port -/

instance (s : Subtest) (t : Timer) : Decidable (s.Alters t) := inferInstanceAs (Decidable (_ ∧ _))

instance (s : Subtest) : (a : Act) → Decidable (KeepsPort s a)
  | .enter ⟨.timer t, _⟩ => inferInstanceAs (Decidable (s.rtp.ep.isSome = true →
      ((t.cb = .reinvite ∨ t.cb = .offHold) → s.connectDone = true → s.disconnectDone = false →
        ¬ s.Alters t ∧ s.report = none) ∧ (t.cb = .processReinvite → s.ua.lSDP = none)))
  | .enter ⟨.event ev, _⟩ => inferInstanceAs (Decidable (s.rtp.ep.isSome = true →
      ev.isUpdate = true → s.cls.answers = true → s.ua.lSDP = none))
  | .enter ⟨.connected, _⟩ => inferInstanceAs (Decidable True)
  | .enter ⟨.disconnected _ _, _⟩ => inferInstanceAs (Decidable True)
  | .enter ⟨.dead, _⟩ => inferInstanceAs (Decidable True)
  | .enter ⟨.inDialogInvite _, _⟩ => inferInstanceAs (Decidable True)
  | .ret _ => inferInstanceAs (Decidable True)
  | .throw _ => inferInstanceAs (Decidable True)

/-- The call is set up. -/
def Sample.talking : List Act :=
  [.ret env, enter (.event (.connect 200 "OK" (some proxied))), enter .connected]

/-- A timer fires, and the port that is drawn is 32766. -/
def Sample.redrawn (t : Timer) : Act := .enter ⟨.timer t, { env with draws := [.half] }⟩

/-- Alice of `reinvite` listens on port 20000, and asks for media on another
one. -/
theorem not_advertises_reinvite : ¬ ∀ (p : Setup) (acts : List Act) (a : Act) (y y' : Sys)
    (l : List Obs), p.scn ∉ [Scenario.reinvBrkn1, .reinvBrkn2, .invBrkn1] → p.Reaches acts y →
      machine.step y a = some y' → y'.st.log = y.st.log ++ l → y'.st.Honest l := by
  intro hall
  have hrun : ((Sample.listening .reinvite).run Sample.talking).bind (fun y : Sys =>
      (machine.step y (Sample.redrawn ⟨.reinvite, 7⟩)).map fun y' : Sys =>
        decide (y'.st.log = y.st.log ++ [.fired .reinvite, .inject (.update (some
            (({ Sample.proxied with sections := Sample.proxied.sections.map (·.setPort 32766) } :
              Sdp).bumpVersion)))] ∧
          y'.st.rtp.ep.map Endpoint.lport = some 20000)) = some true := by
    decide +kernel
  obtain ⟨y, hy, hrun⟩ := Option.bind_eq_some_iff.mp hrun
  obtain ⟨y', hs, hf⟩ := Option.map_eq_some_iff.mp hrun
  obtain ⟨hlog, hport⟩ := of_decide_eq_true hf
  obtain ⟨e, he, hport⟩ := Option.map_eq_some_iff.mp hport
  have hadv := hall _ _ _ y y' _ (by decide) (Setup.reaches_of_run hy) hs hlog _ _ e
    (List.mem_cons_of_mem _ List.mem_cons_self) rfl he 32766 (by decide)
  rw [hport] at hadv
  cases hadv

/-- Alice of `reinv_onhold` keeps to her port. -/
theorem advertises_onhold : ∃ y₀, (Sample.listening .reinvOnhold).start = some y₀ ∧
    y₀.st.Honest y₀.st.log ∧ Run.Meets machine.step AdvertisesEndpoint y₀
      (Sample.talking ++ [Sample.enter (.timer ⟨.reinvite, 7 / 2⟩)]) := by
  have hrun : ((Sample.listening .reinvOnhold).start.bind fun y₀ =>
      (Run.exec machine.step y₀ (Sample.talking ++ [Sample.enter (.timer ⟨.reinvite, 7 / 2⟩)])).map
        fun _ => decide (Run.Meets machine.step (fun y a => KeepsPort y.st a) y₀
          (Sample.talking ++ [Sample.enter (.timer ⟨.reinvite, 7 / 2⟩)]))) = some true := by
    decide +kernel
  obtain ⟨y₀, hstart, hrun⟩ := Option.bind_eq_some_iff.mp hrun
  obtain ⟨y, hexec, hf⟩ := Option.map_eq_some_iff.mp hrun
  exact ⟨y₀, hstart, advertises_of_meets hstart hexec (of_decide_eq_true hf)⟩

end VoipTests
