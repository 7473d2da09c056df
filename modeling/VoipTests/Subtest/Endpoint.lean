import VoipTests.Subtest.Opening

/-!
# VoipTests.Subtest.Endpoint

The RTP endpoints of a subtest: created by the first body that is handled, and
shut down by `done`.

`_rtp_shutdown_stats` forgets the endpoint whatever happens, but it gets to
`shutdown()` only if RTP is still enabled and the statistics can be read.
`releases_iff` says that nothing else can leave an endpoint behind.
-/

namespace VoipTests

open Callback

variable {p : Setup} {s s' s₁ s₂ : Subtest} {cb : Cb}

/-! ## what becomes of endpoints -/

/-- One thing more becomes of the endpoints; `live` is whether there is one
that has not been shut down. -/
def RtpOp.next (live : Bool) : RtpOp → Option Bool
  | created => if live then none else some true
  | shutdown => if live then some false else none

/-- Whether there is a live endpoint, or `none` if there have ever been two at
once, or one was shut down twice. -/
def live (ops : List RtpOp) : Option Bool := ops.foldlM RtpOp.next false

theorem live_concat {ops : List RtpOp} {op : RtpOp} : live (ops ++ [op]) =
    (live ops).bind fun b => op.next b := by
  rw [live, List.foldlM_append]
  congr 1
  funext b
  simp

/-- The object holds the endpoint that is live, if there is one. -/
def Rtp.Holds (rtp : Rtp) : Prop := live rtp.ops = some rtp.ep.isSome

theorem Rtp.Follows.holds {rtp rtp' : Rtp} (h : rtp.Follows rtp') (hh : rtp.Holds) : rtp'.Holds := by
  unfold Rtp.Holds at hh ⊢
  obtain ⟨hn, -, hs, hops⟩ | ⟨hep, hops⟩ := h.ep
  · rw [hops, live_concat, hh, hs, hn]
    rfl
  · have hsome := congrArg Option.isSome hep
    rw [Option.isSome_map, Option.isSome_map] at hsome
    rw [hops, hh, hsome]

/-- The endpoint can be shut down properly. -/
def Rtp.Closable (rtp : Rtp) (env : Env) : Prop :=
  rtp.ep.isSome = true → rtp.enabled = true ∧ env.statsOk = true

theorem Rtp.holds_shutdown {rtp : Rtp} {env : Env} (hc : rtp.Closable env) (hh : rtp.Holds) :
    (rtp.shutdown env).Holds ∧ live (rtp.shutdown env).ops = some false := by
  unfold Rtp.Holds at hh ⊢
  cases hep : rtp.ep with
  | none =>
      rw [hep] at hh
      have hops : (rtp.shutdown env).ops = rtp.ops ∧ (rtp.shutdown env).ep = none := by
        unfold Rtp.shutdown
        cases rtp.enabled <;> simp [hep]
      rw [hops.1, hops.2, hh]
      exact ⟨rfl, rfl⟩
  | some e =>
      obtain ⟨he, hstats⟩ := hc (by rw [hep]; rfl)
      have hops : (rtp.shutdown env).ops = rtp.ops ++ [.shutdown] ∧ (rtp.shutdown env).ep = none := by
        simp [Rtp.shutdown, he, hep, hstats]
      rw [hops.1, hops.2, live_concat, hh, hep]
      exact ⟨rfl, rfl⟩

/-- An endpoint that cannot be shut down properly is left behind. -/
theorem Rtp.live_shutdown {rtp : Rtp} {env : Env} (hc : ¬ rtp.Closable env) (hh : rtp.Holds) :
    live (rtp.shutdown env).ops = some true := by
  unfold Rtp.Closable at hc
  rw [Classical.not_imp] at hc
  obtain ⟨hsome, hc⟩ := hc
  unfold Rtp.Holds at hh
  have hops : (rtp.shutdown env).ops = rtp.ops := by
    obtain ⟨e, hep⟩ := Option.isSome_iff_exists.mp hsome
    unfold Rtp.shutdown
    cases he : rtp.enabled with
    | false => simp
    | true =>
        have hstats : env.statsOk = false := by simpa [he] using hc
        simp [hep, hstats]
  rw [hops, hh, hsome]

/-! ## steps -/

/-- What is known of the endpoint between two steps. -/
structure Subtest.Tidy (s : Subtest) : Prop where
  holds : s.rtp.Holds
  signallingOnly : s.rtp.enabled = true ∨ s.rtp.ep.isSome = true → s.tccfg.signallingOnly = false

theorem Subtest.Tidy.follows (h : s.Tidy) (hcfg : s'.tccfg = s.tccfg) (hf : s.rtp.Follows s'.rtp) :
    s'.Tidy := by
  refine ⟨hf.holds h.holds, fun he => ?_⟩
  rw [hcfg]
  refine h.signallingOnly ?_
  rw [hf.enabled] at he
  obtain ⟨-, hen, -⟩ | ⟨hep, -⟩ := hf.ep
  · exact .inl hen
  · have hsome := congrArg Option.isSome hep
    rw [Option.isSome_map, Option.isSome_map] at hsome
    rwa [hsome] at he

theorem Subtest.Tidy.same (h : s.Tidy) (hcfg : s'.tccfg = s.tccfg) (hrtp : s'.rtp = s.rtp) : s'.Tidy :=
  h.follows hcfg (hrtp ▸ .refl _)

@[simp] theorem rtp_land (stop : Stop Exc UaCall Unit) (s : Subtest) :
    (machine.land stop s).rtp = s.rtp := by
  cases stop with
  | call c => cases c <;> rfl
  | _ => rfl

@[simp] theorem tccfg_land (stop : Stop Exc UaCall Unit) (s : Subtest) :
    (machine.land stop s).tccfg = s.tccfg := by
  cases stop with
  | call c => cases c <;> rfl
  | _ => rfl

/-- A callback other than `alldone`. -/
theorem Stretch.follows {stop : Stop Exc UaCall Unit} (hcb : cb ≠ .dead) (h : Stretch cb s stop s') :
    s'.tccfg = s.tccfg ∧ s.rtp.Follows s'.rtp := by
  have hsilent (h : Silent cb s s') : s'.tccfg = s.tccfg ∧ s.rtp.Follows s'.rtp := by
    obtain ⟨ts, hstays, -⟩ := h.stays
    have hrtp := h.rtp
    cases cb with
    | dead => exact (hcb rfl).elim
    | _ => exact ⟨hstays.tccfg, hrtp.1⟩
  cases stop with
  | ret a => exact hsilent h
  | raise e => exact hsilent h
  | call c =>
      cases c with
      | recvRequest => exact h.elim
      | recvEvent ev =>
          obtain ⟨ts, hleads⟩ := Sends.leads h
          exact ⟨hleads.tccfg, hleads.rtp⟩

theorem Tail.tidy {c : UaCall} {s₀ : Subtest} (h : Tail c s₀ s s') (hs : s.Tidy) : s'.Tidy := by
  obtain ⟨ts, hstays, -⟩ := h.stays
  rcases h.rtp with hrtp | ⟨hrtp, -⟩
  · exact hs.same hstays.tccfg hrtp
  · refine ⟨?_, fun he => ?_⟩
    · rw [hrtp]
      exact hs.holds
    · rw [hrtp] at he
      rw [hstays.tccfg]
      exact hs.signallingOnly (.inr (he.resolve_left nofun))

/-- A step that is not the callback `alldone`. -/
theorem tidy_of_staged {g g' : Stage Subtest UaCall} {a : Act} (h : Staged g a g')
    (ha : ∀ env, a ≠ .enter ⟨.dead, env⟩) (hg : g.st.Tidy) : g'.st.Tidy := by
  cases h with
  | @enter i s s₁ s₂ cs stop he hP =>
      obtain ⟨cb, env⟩ := i
      obtain ⟨-, rfl⟩ := entry_eq_entered he
      obtain ⟨hcfg, hf⟩ := Stretch.follows (fun h => ha env (by rw [← h])) hP
      have hland : (machine.land stop s₂).tccfg = s.tccfg := by
        rw [tccfg_land, hcfg]
        rfl
      exact hg.follows hland (by rw [rtp_land]; exact hf)
  | ret hT => exact hT.tidy (hg.same rfl rfl)
  | retRaise hT => exact (hT.tidy (hg.same rfl rfl)).same rfl rfl
  | throw => exact hg.same rfl rfl

/-- **The callback `alldone`** closes the endpoint if it reports, and else
leaves it alone. -/
theorem Setup.Lives.rtp_of_dead {y y' : Sys} {env : Env} {cs : List (UaCall × Subtest)}
    (hl : p.Lives y.st) (hy : Pending y cs)
    (hs : machine.step y (.enter ⟨.dead, env⟩) = some y') : y'.st.tccfg = y.st.tccfg ∧
      y'.st.rtp = if y.st.report.isNone && !y.st.tccfg.signallingOnly then y.st.rtp.shutdown env
        else y.st.rtp := by
  obtain ⟨cs', hstaged, -⟩ := staged_of_step hy hs
  obtain ⟨-, s₂, hsilent, hst⟩ := hstaged.dead
  obtain ⟨ts, hstays, -⟩ := hsilent.stays
  have hsame : y'.st.tccfg = s₂.tccfg ∧ y'.st.rtp = s₂.rtp ∧ y'.st.report = s₂.report := by
    have hst' : y'.st = s₂ ∨ ∃ e, y'.st = machine.caught e s₂ := hst
    rcases hst' with hst' | ⟨e, hst'⟩
    · rw [hst']
      exact ⟨rfl, rfl, rfl⟩
    · rw [hst']
      exact ⟨rfl, rfl, rfl⟩
  rw [hsame.1, hsame.2.1]
  refine ⟨hstays.tccfg, ?_⟩
  rcases hsilent.rtp with ⟨hrtp, hrep⟩ | ⟨hopen, hrtp⟩
  · -- Nothing is reported, so `done` has been called before.
    have hsome : y.st.report.isNone = false := by
      cases hn : y.st.report with
      | some r => rfl
      | none =>
          refine absurd ?_ (hl.reports_of_dead hn hs)
          rw [hsame.2.2, hrep]
          exact hn
    rw [hsome]
    exact hrtp
  · have hnone : y.st.report = none := by
      by_contra hn
      have hd : y.st.doneCalled = false := hopen
      rw [hl.upright.reported hn] at hd
      cases hd
    have hrtp' : s₂.rtp = if y.st.tccfg.signallingOnly then y.st.rtp else y.st.rtp.shutdown env := hrtp
    rw [hrtp', hnone]
    cases y.st.tccfg.signallingOnly <;> rfl

/-! ## runs -/

/-- There have never been two live endpoints, and a step that reports has shut
down every endpoint there was. -/
def ReleasesEndpoint (y : Sys) (a : Act) : Prop :=
  (live y.st.rtp.ops).isSome = true ∧
    ∀ y', machine.step y a = some y' → (live y'.st.rtp.ops).isSome = true ∧
      (y.st.report = none → y'.st.report ≠ none → live y'.st.rtp.ops = some false)

/-- If `alldone` finds an endpoint as it reports, RTP is still enabled and the
statistics can be read. -/
def FindsClosable (y : Sys) : Act → Prop
  | .enter ⟨.dead, env⟩ => y.st.report = none → y.st.rtp.Closable env
  | _ => True

theorem Subtest.Tidy.isSome (h : s.Tidy) : (live s.rtp.ops).isSome = true := by
  rw [h.holds]
  rfl

theorem Setup.Opens.tidy {c : UaCall} (h : p.Opens c s) : (machine.sent c s).Tidy := by
  have hs : s.Tidy := by
    obtain ⟨hep, hops⟩ | ⟨-, hen, hep, hops⟩ := h.ep
    · refine ⟨by rw [Rtp.Holds, hep, hops]; rfl, fun he => ?_⟩
      rw [h.signallingOnly]
      exact h.enabled (he.resolve_right (by rw [hep]; nofun))
    · refine ⟨by rw [Rtp.Holds, hep, hops]; rfl, fun _ => ?_⟩
      rw [h.signallingOnly]
      exact h.enabled hen
  cases c with
  | recvRequest => exact hs.same rfl rfl
  | recvEvent ev => exact hs.same rfl rfl

/-- **The step that reports**: what it takes for the endpoint to be released. -/
theorem Setup.Lives.releases_dead {y y' : Sys} {env : Env} {cs : List (UaCall × Subtest)}
    (hl : p.Lives y.st) (hy : Pending y cs) (ht : y.st.Tidy) (hn : y.st.report = none)
    (hs : machine.step y (.enter ⟨.dead, env⟩) = some y') :
    (live y'.st.rtp.ops).isSome = true ∧
      (live y'.st.rtp.ops = some false ↔ y.st.rtp.Closable env) ∧
      (y.st.rtp.Closable env → y'.st.Tidy) := by
  obtain ⟨hcfg, hrtp⟩ := hl.rtp_of_dead hy hs
  rw [hn, Option.isNone_none, Bool.true_and] at hrtp
  cases hsig : y.st.tccfg.signallingOnly with
  | true =>
      rw [hsig] at hrtp
      have hsame : y'.st.Tidy := ht.same hcfg hrtp
      have hnone : y.st.rtp.ep.isSome = false := by
        by_contra hsome
        rw [Bool.not_eq_false] at hsome
        rw [ht.signallingOnly (.inr hsome)] at hsig
        cases hsig
      have hlive : live y'.st.rtp.ops = some false := by
        rw [hsame.holds]
        rw [hrtp]
        exact congrArg some hnone
      refine ⟨hsame.isSome, iff_of_true hlive fun hsome => ?_, fun _ => hsame⟩
      rw [hnone] at hsome
      cases hsome
  | false =>
      rw [hsig] at hrtp
      have hrtp' : y'.st.rtp = y.st.rtp.shutdown env := hrtp
      rw [hrtp']
      by_cases hc : y.st.rtp.Closable env
      · obtain ⟨hholds, hlive⟩ := Rtp.holds_shutdown hc ht.holds
        refine ⟨by rw [hlive]; rfl, iff_of_true hlive hc, fun _ => ⟨by rw [hrtp']; exact hholds, fun _ => ?_⟩⟩
        rw [hcfg, hsig]
      · have hlive := Rtp.live_shutdown hc ht.holds
        refine ⟨by rw [hlive]; rfl, iff_of_false ?_ hc, fun h => (hc h).elim⟩
        rw [hlive]
        decide

/-- **One step**: what it takes for the endpoint to be released. -/
theorem Setup.Lives.releases_step {y y' : Sys} {a : Act} {cs : List (UaCall × Subtest)}
    (hl : p.Lives y.st) (hf : p.Found y) (hw : y.Waits) (hy : Pending y cs) (ht : y.st.Tidy)
    (hs : machine.step y a = some y') :
    (ReleasesEndpoint y a ↔ FindsClosable y a) ∧ (FindsClosable y a → y'.st.Tidy) := by
  have hreleases : ReleasesEndpoint y a ↔ (live y'.st.rtp.ops).isSome = true ∧
      (y.st.report = none → y'.st.report ≠ none → live y'.st.rtp.ops = some false) := by
    simp only [ReleasesEndpoint, hs, Option.some.injEq, forall_eq', ht.isSome, true_and]
  rw [hreleases]
  by_cases ha : ∃ env, a = .enter ⟨.dead, env⟩
  · obtain ⟨env, rfl⟩ := ha
    cases hn : y.st.report with
    | none =>
        obtain ⟨hsome, hlive, htidy⟩ := hl.releases_dead hy ht hn hs
        have hrep := hl.reports_of_dead hn hs
        refine ⟨⟨fun h _ => hlive.mp (h.2 rfl hrep), fun h => ⟨hsome, fun _ _ => hlive.mpr (h hn)⟩⟩,
          fun h => htidy (h hn)⟩
    | some r =>
        obtain ⟨hcfg, hrtp⟩ := hl.rtp_of_dead hy hs
        rw [hn] at hrtp
        have htidy : y'.st.Tidy := ht.same hcfg hrtp
        have hfinds : FindsClosable y (.enter ⟨.dead, env⟩) := fun h => by
          rw [hn] at h
          cases h
        exact ⟨iff_of_true ⟨htidy.isSome, nofun⟩ hfinds, fun _ => htidy⟩
  · rw [not_exists] at ha
    obtain ⟨cs', hstaged, -⟩ := staged_of_step hy hs
    have htidy : y'.st.Tidy := tidy_of_staged hstaged ha ht
    have hfinds : FindsClosable y a := by
      unfold FindsClosable
      split
      · next env => exact (ha env rfl).elim
      · trivial
    refine ⟨iff_of_true ⟨htidy.isSome, fun hn hrep => ?_⟩ hfinds, fun _ => htidy⟩
    -- Only `alldone` reports.
    obtain ⟨r, hr⟩ := Option.ne_none_iff_exists'.mp hrep
    obtain ⟨env, henv⟩ := hf.report_step hw hn hs hr
    exact (ha env henv).elim

/-- **Endpoints are released.**  In any run there are never two live endpoints,
and as the verdict is reported every endpoint has been shut down, if and only
if `alldone`, as it reports, finds no endpoint or one that RTP has not been
disabled for and whose statistics can be read. -/
theorem releases_iff {acts : List Act} {y₀ y : Sys} (hstart : p.start = some y₀)
    (h : Run.exec machine.step y₀ acts = some y) :
    Run.Meets machine.step ReleasesEndpoint y₀ acts ↔
      Run.Meets machine.step FindsClosable y₀ acts := by
  refine Run.meets_congr (P := fun y => p.Found y ∧ (p.Lives y.st → y.Waits) ∧
    ∃ cs, Pending y cs ∧ (p.Lives y.st → y.st.Tidy)) (fun y a y' hy hs => ?_) ?_ h
  · obtain ⟨hf, hw, cs, hcs, ht⟩ := hy
    have hl := hf.lives_of_step hs
    obtain ⟨hiff, htidy⟩ := hl.releases_step hf (hw hl) hcs (ht hl) hs
    obtain ⟨cs', -, hcs'⟩ := staged_of_step hcs hs
    refine ⟨hiff, fun hq => ⟨(hf.step hs).1, fun _ => ?_, cs', hcs', fun _ => htidy hq⟩⟩
    exact Setup.waits_of_step hf.1 hl (hw hl) hs
  · have h₀ : p.Reaches [] y₀ := ⟨y₀, hstart, rfl⟩
    obtain ⟨hf, hw⟩ := Setup.waits_of_reaches h₀
    rcases Setup.staged_of_start hstart with ⟨hun, hp⟩ | ⟨c, s, ho, hst, hcs⟩
    · refine ⟨hf, hw, [], by simp [Pending, Machine.Pends, hp], fun hl => ?_⟩
      have hc := hl.created
      rw [hun.created] at hc
      cases hc
    · exact ⟨hf, hw, _, hcs, fun _ => hst ▸ ho.tidy⟩

/-! ## an endpoint that is left behind -/

instance (rtp : Rtp) (env : Env) : Decidable (rtp.Closable env) :=
  inferInstanceAs (Decidable (_ → _ ∧ _))

instance (y : Sys) : (a : Act) → Decidable (FindsClosable y a)
  | .enter ⟨.dead, env⟩ => inferInstanceAs (Decidable (y.st.report = none → y.st.rtp.Closable env))
  | .enter ⟨.event _, _⟩ => inferInstanceAs (Decidable True)
  | .enter ⟨.connected, _⟩ => inferInstanceAs (Decidable True)
  | .enter ⟨.disconnected _ _, _⟩ => inferInstanceAs (Decidable True)
  | .enter ⟨.timer _, _⟩ => inferInstanceAs (Decidable True)
  | .enter ⟨.inDialogInvite _, _⟩ => inferInstanceAs (Decidable True)
  | .ret _ => inferInstanceAs (Decidable True)
  | .throw _ => inferInstanceAs (Decidable True)

/-- Alice of a scenario, with RTP. -/
def Sample.listening (scn : Scenario) : Setup := { alice scn false with
  tccfg := { cfg with body := some proxied, signallingOnly := false }
  env := { env with endpoint := some (some "127.0.0.1", 20000) } }

/-- The call ends at once. -/
def Sample.ending : List Act := [.ret env, enter .dead]

/-- Alice of `t13` reports with the endpoint of her INVITE still live. -/
theorem not_releases_t13 : ¬ ∀ (p : Setup) (acts : List Act) (y₀ y : Sys),
    p.start = some y₀ → Run.exec machine.step y₀ acts = some y →
      Run.Meets machine.step ReleasesEndpoint y₀ acts := by
  intro hall
  have hrun : ((Sample.listening .t13).start.bind fun y₀ =>
      (machine.step y₀ (.ret Sample.env)).bind fun y₁ =>
        (machine.step y₁ (Sample.enter .dead)).map fun y => (y₁.st.report, y.st.report.isSome,
          live y.st.rtp.ops)) = some (none, true, some true) := by
    decide +kernel
  obtain ⟨y₀, hstart, hrun⟩ := Option.bind_eq_some_iff.mp hrun
  obtain ⟨y₁, hs₁, hrun⟩ := Option.bind_eq_some_iff.mp hrun
  obtain ⟨y, hs, hf⟩ := Option.map_eq_some_iff.mp hrun
  simp only [Prod.mk.injEq] at hf
  obtain ⟨hn, hsome, hlive⟩ := hf
  have hexec : Run.exec machine.step y₀ Sample.ending = some y := by simp [Sample.ending, hs₁, hs]
  have hlast := (((hall _ _ y₀ y hstart hexec).2 y₁ hs₁).1.2 y hs).2 hn fun hr => by simp [hr] at hsome
  rw [hlive] at hlast
  cases hlast

/-- Alice of `t1` shuts it down. -/
theorem releases_t1 : ∃ y₀ y, (Sample.listening .t1).start = some y₀ ∧
    Run.exec machine.step y₀ Sample.ending = some y ∧ y.st.rtp.ops = [.created, .shutdown] ∧
    Run.Meets machine.step ReleasesEndpoint y₀ Sample.ending := by
  have hrun : ((Sample.listening .t1).start.bind fun y₀ =>
      (Run.exec machine.step y₀ Sample.ending).map fun y => (y.st.rtp.ops,
        decide (Run.Meets machine.step FindsClosable y₀ Sample.ending))) =
          some ([.created, .shutdown], true) := by
    decide +kernel
  obtain ⟨y₀, hstart, hrun⟩ := Option.bind_eq_some_iff.mp hrun
  obtain ⟨y, hexec, hf⟩ := Option.map_eq_some_iff.mp hrun
  rw [Prod.mk.injEq] at hf
  exact ⟨y₀, y, hstart, hexec, hf.1, (releases_iff hstart hexec).mpr (of_decide_eq_true hf.2)⟩

end VoipTests
