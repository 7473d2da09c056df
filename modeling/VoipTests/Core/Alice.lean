import VoipTests.Core.Exit
import VoipTests.Subtest.Classes
import VoipTests.TestConfig
import Mathlib.Data.List.ProdSigma

/-!
# VoipTests.Core.Alice

What Alice runs: the options of `main_func`, the selection of the subtests in
`a_test.__init__`, and what a green exit says about them.

The three nested loops come to a list that is a product of what was selected
(`plan_eq`); `green_iff` says when nothing that was asked for is missing from
it.
-/

namespace VoipTests

/-! ## options -/

/-- What the common options and the environment have set. -/
structure Common where
  portrange : PortRange
  nhAddress4 : String × Int
  nhAddress6 : String × Int
  acfg : Option AuthCreds
  bcfg : Option AuthCreds
  testsMightfail : List String
  nhMediaIps : Option (List String)

/-- `test_config(global_config, opts)`: the rest are its class attributes. -/
def Common.testConfig (common : Common) : TestConfig where
  ttype := [.ip4, .ip6]
  body := none
  portrange := common.portrange
  tests := none
  nhAddress4 := common.nhAddress4
  nhAddress6 := common.nhAddress6
  acfg := common.acfg
  bcfg := common.bcfg
  testsMightfail := common.testsMightfail
  signallingOnly := false
  nhMediaIps := common.nhMediaIps

/-- `body_txt` of `alice_main`, parsed. -/
def aliceBody : Sdp where
  oHeader := ⟨380960⟩
  sHeader := "-"
  sections := [{
    mHeader := ⟨"audio", 16474, "RTP/AVP", [18, 0, 2, 4, 8, 96, 97, 98, 101].map Fmt.num⟩
    cHeader := some ⟨some .ip4, "192.168.22.95"⟩
    aHeaders := [⟨"rtpmap", some "18 G729a/8000"⟩, ⟨"rtpmap", some "0 PCMU/8000"⟩,
      ⟨"rtpmap", some "2 G726-32/8000"⟩, ⟨"rtpmap", some "4 G723/8000"⟩,
      ⟨"rtpmap", some "8 PCMA/8000"⟩, ⟨"rtpmap", some "96 G726-40/8000"⟩,
      ⟨"rtpmap", some "97 G726-24/8000"⟩, ⟨"rtpmap", some "98 G726-16/8000"⟩,
      ⟨"rtpmap", some "101 telephone-event/8000"⟩, ⟨"fmtp", some "101 0-15"⟩,
      ⟨"ptime", some "30"⟩, ⟨"sendrecv", none⟩] }]

/-- The loop of `main_func` over the options that are left, with `ttype`. -/
def mainLoop (tcfg : TestConfig) (ttype : List AType) : List (String × String) →
    TestConfig × List AType
  | [] => (tcfg, ttype)
  | (o, a) :: opts =>
    if o = "-t" then
      let tests := if a ≠ "*" then some ((splitComma a).map ("alice_" ++ ·)) else none
      mainLoop { tcfg with tests := tests } ttype opts
    else if o = "-4" then mainLoop tcfg (ttype ++ [.ip4]) opts
    else if o = "-6" then mainLoop tcfg (ttype ++ [.ip6]) opts
    else if o = "-s" then mainLoop { tcfg with signallingOnly := true } ttype opts
    else mainLoop tcfg ttype opts

/-- `tcfg` as `main_func` hands it to `a_test`. -/
def mainConfig (common : Common) (opts : List (String × String)) : TestConfig :=
  let tcfg := common.testConfig
  let tcfg := { tcfg with testsMightfail := tcfg.testsMightfail.map ("alice_" ++ ·) }
  let (tcfg, ttype) := mainLoop tcfg [] opts
  let tcfg := if ttype.length > 0 then { tcfg with ttype := ttype } else tcfg
  { tcfg with body := some aliceBody }

/-- `dry_run`: the loop is left out, and the status is 0. -/
def dryRun (opts : List (String × String)) : Bool := opts.any fun oa => oa.1 = "-D"

/-! ## the selection -/

/-- `a_cfg` -/
structure ACfg where
  testClass : Scenario
  disabled : Bool
  tcfg : TcCfg
  signallingOnly : Bool

namespace TestConfig

variable (tcfg : TestConfig)

/-- `ttype` of `a_test.__init__`. -/
def families : List AType := if tcfg.ttype.length = 1 then tcfg.ttype ++ tcfg.ttype else tcfg.ttype

/-- `smodes`: whether signalling-only. -/
def smodes : List Bool := if tcfg.signallingOnly then [true] else [false, true]

/-- `tcfg.tests == None or subtest_class.cli in tcfg.tests` -/
def selects (scn : Scenario) : Bool := tcfg.tests.all fun tests => scn.alice ∈ tests

/-- The last character of the family. -/
def digit : AType → String
  | .ip4 => "4"
  | .ip6 => "6"

/-- `f'{subtest_class.cli}_ipv{atype[-1]}'` -/
def cliOf (scn : Scenario) (atype : AType) : String := scn.alice ++ "_ipv" ++ digit atype

/-- The rounds of the three loops. -/
def plan : List (AType × Scenario × Bool) :=
  tcfg.families.flatMap fun atype =>
    (allTests.filter tcfg.selects).flatMap fun scn =>
      tcfg.smodes.map fun signallingOnly => (atype, scn, signallingOnly)

/-- The body of the loops, round after round; `origins n` is the `n`-th
`SdpOrigin()`. -/
def rounds (origins : Nat → OHeader) : Nat → List (AType × Scenario × Bool) → List Draw →
    Except Halt (List ACfg × List Draw)
  | _, [], draws => .ok ([], draws)
  | n, (atype, scn, signallingOnly) :: plan, draws =>
    match tcfg.genTccfg atype signallingOnly (some (cliOf scn atype)) (origins n) draws with
    | .error h => .error h
    | .ok (tccfg, draws) => match rounds origins (n + 1) plan draws with
      | .error h => .error h
      | .ok (atests, draws) => .ok (⟨scn, false, tccfg, signallingOnly⟩ :: atests, draws)

/-- `atests` of `a_test.__init__`, before it is shuffled. -/
def atests (origins : Nat → OHeader) (draws : List Draw) : Except Halt (List ACfg × List Draw) :=
  match tcfg.rounds origins 0 tcfg.plan draws with
  | .error h => .error h
  | .ok (atests, draws) => .ok (atests.filter fun x => !x.disabled, draws)

/-- The loops are a product. -/
theorem plan_eq : tcfg.plan = tcfg.families ×ˢ (allTests.filter tcfg.selects ×ˢ tcfg.smodes) := by
  simp only [plan, SProd.sprod, List.product, List.map_flatMap, List.map_map]
  rfl

/-- A subtest that was scheduled in a round. -/
structure Scheduled (k : AType × Scenario × Bool) (x : ACfg) : Prop where
  testClass : x.testClass = k.2.1
  signallingOnly : x.signallingOnly = k.2.2
  enabled : x.disabled = false
  tcfg : ∃ body, x.tcfg = tcfg.tccfg k.1 k.2.2 (some (cliOf k.2.1 k.1)) body ∧
    body.map Sdp.sHeader = tcfg.body.map fun body => if k.2.2 then body.sHeader else sippyRtpOuser

variable {tcfg}

theorem genTccfg_eq {atype : AType} {so : Bool} {cli : Option String} {origin : OHeader}
    {draws rest : List Draw} {tccfg : TcCfg}
    (h : tcfg.genTccfg atype so cli origin draws = .ok (tccfg, rest)) :
    ∃ body, tccfg = tcfg.tccfg atype so cli body ∧
      body.map Sdp.sHeader = tcfg.body.map fun body => if so then body.sHeader else sippyRtpOuser := by
  unfold genTccfg at h
  cases hb : tcfg.body with
  | none =>
      rw [hb] at h
      cases h
      exact ⟨none, rfl, rfl⟩
  | some body =>
      rw [hb] at h
      dsimp only at h
      split at h
      · cases h
      · next body' rest' hfill =>
        cases h
        refine ⟨some body', rfl, ?_⟩
        unfold fillhostport at hfill
        split at hfill
        · cases hfill
        · cases hfill
          rfl

theorem scheduled_of_rounds {origins : Nat → OHeader} {n : Nat}
    {plan : List (AType × Scenario × Bool)} {draws rest : List Draw} {atests : List ACfg}
    (h : tcfg.rounds origins n plan draws = .ok (atests, rest)) :
    List.Forall₂ tcfg.Scheduled plan atests := by
  induction plan generalizing n draws rest atests with
  | nil =>
      cases h
      exact .nil
  | cons k plan ih =>
      obtain ⟨atype, scn, so⟩ := k
      rw [rounds] at h
      split at h
      · cases h
      · next tccfg draws₁ hgen =>
        split at h
        · cases h
        · next atests₁ draws₂ hrounds =>
          cases h
          exact .cons ⟨rfl, rfl, rfl, genTccfg_eq hgen⟩ (ih hrounds)

/-- **What is scheduled**: one subtest for each round. -/
theorem scheduled_of_atests {origins : Nat → OHeader} {draws rest : List Draw}
    {atests : List ACfg} (h : tcfg.atests origins draws = .ok (atests, rest)) :
    List.Forall₂ tcfg.Scheduled tcfg.plan atests := by
  unfold TestConfig.atests at h
  split at h
  · cases h
  · next atests₁ draws₁ hrounds =>
    have hall := scheduled_of_rounds hrounds
    have henabled : atests₁.filter (fun x => !x.disabled) = atests₁ := by
      refine List.filter_eq_self.mpr fun x hx => ?_
      obtain ⟨i, hi, rfl⟩ := List.getElem_of_mem hx
      have hk := hall.get (hall.length_eq ▸ hi) hi
      simpa using hk.enabled
    cases h
    rw [henabled]
    exact hall

theorem fair_rounds (hpr : tcfg.portrange.Leaves)
    (hbody : ∀ body, tcfg.body = some body → body.Fillable) (origins : Nat → OHeader) (n : Nat)
    (plan : List (AType × Scenario × Bool)) :
    Supply.Fair fun draws => (tcfg.rounds origins n plan draws).toOption := by
  induction plan generalizing n with
  | nil => exact .pure []
  | cons k plan ih =>
      obtain ⟨atype, scn, so⟩ := k
      have hgen := fair_genTccfg hpr hbody atype so (some (cliOf scn atype)) (origins n)
      have hrest (tccfg : TcCfg) := (ih (n + 1)).map fun atests => ⟨scn, false, tccfg, so⟩ :: atests
      refine Supply.Fair.congr (fun draws => ?_) (hgen.bind hrest)
      rw [rounds]
      cases tcfg.genTccfg atype so (some (cliOf scn atype)) (origins n) draws with
      | error h => rfl
      | ok p =>
          dsimp only [Except.toOption, Option.bind_some]
          cases tcfg.rounds origins (n + 1) plan p.2 <;> rfl

/-- **The scheduling finishes**, as long as the range leaves a port. -/
theorem fair_atests (hpr : tcfg.portrange.Leaves)
    (hbody : ∀ body, tcfg.body = some body → body.Fillable) (origins : Nat → OHeader) :
    Supply.Fair fun draws => (tcfg.atests origins draws).toOption := by
  refine Supply.Fair.congr (fun draws => ?_)
    ((fair_rounds hpr hbody origins 0 tcfg.plan).map fun atests => atests.filter fun x => !x.disabled)
  rw [TestConfig.atests]
  cases tcfg.rounds origins 0 tcfg.plan draws <;> rfl

end TestConfig

/-! ## what was asked for -/

/-- The names after the last `-t`; `none` is `*`, or no `-t` at all. -/
def namesAsked (opts : List (String × String)) : Option (List String) :=
  match (opts.filter fun oa => oa.1 = "-t").getLast? with
  | none => none
  | some (_, a) => if a = "*" then none else some (splitComma a)

/-- The families of the flags `-4` and `-6`, in order; both when there is none. -/
def familiesAsked (opts : List (String × String)) : List AType :=
  match opts.filterMap fun oa =>
      if oa.1 = "-4" then some AType.ip4 else if oa.1 = "-6" then some AType.ip6 else none with
  | [] => [.ip4, .ip6]
  | families => families

/-- The modes: signalling-only alone with `-s`. -/
def modesAsked (opts : List (String × String)) : List Bool :=
  if opts.any fun oa => oa.1 = "-s" then [true] else [false, true]

/-- What the loop over the options comes to. -/
theorem mainLoop_eq (tcfg : TestConfig) (ttype : List AType) (opts : List (String × String)) :
    mainLoop tcfg ttype opts =
      ({ tcfg with
          tests := match (opts.filter fun oa => oa.1 = "-t").getLast? with
            | none => tcfg.tests
            | some (_, a) => if a = "*" then none else some ((splitComma a).map ("alice_" ++ ·))
          signallingOnly := tcfg.signallingOnly || opts.any fun oa => oa.1 = "-s" },
        ttype ++ opts.filterMap fun oa =>
          if oa.1 = "-4" then some AType.ip4 else if oa.1 = "-6" then some AType.ip6 else none) := by
  induction opts generalizing tcfg ttype with
  | nil => simp [mainLoop]
  | cons oa opts ih =>
      obtain ⟨o, a⟩ := oa
      rw [mainLoop]
      by_cases ht : o = "-t"
      · rw [if_pos ht, ih]
        subst ht
        cases hl : (opts.filter fun oa => oa.1 = "-t").getLast? with
        | none => simp [List.getLast?_cons, hl]
        | some last => simp [List.getLast?_cons, hl]
      · rw [if_neg ht]
        by_cases h4 : o = "-4"
        · rw [if_pos h4, ih]
          subst h4
          simp
        · rw [if_neg h4]
          by_cases h6 : o = "-6"
          · rw [if_pos h6, ih]
            subst h6
            simp
          · rw [if_neg h6]
            by_cases hs : o = "-s"
            · rw [if_pos hs, ih]
              subst hs
              simp
            · rw [if_neg hs, ih]
              simp [ht, h4, h6, hs]

/-- **What `main_func` hands to `a_test`.** -/
theorem mainConfig_eq (common : Common) (opts : List (String × String)) :
    mainConfig common opts =
      { common.testConfig with
        ttype := familiesAsked opts
        body := some aliceBody
        tests := (namesAsked opts).map fun names => names.map ("alice_" ++ ·)
        testsMightfail := common.testsMightfail.map ("alice_" ++ ·)
        signallingOnly := opts.any fun oa => oa.1 = "-s" } := by
  have htests : (match (opts.filter fun oa => oa.1 = "-t").getLast? with
      | none => none
      | some (_, a) => if a = "*" then none else some ((splitComma a).map ("alice_" ++ ·))) =
      (namesAsked opts).map fun names => names.map ("alice_" ++ ·) := by
    unfold namesAsked
    cases (opts.filter fun oa => oa.1 = "-t").getLast? with
    | none => rfl
    | some last => by_cases ha : last.2 = "*" <;> simp [ha]
  unfold mainConfig familiesAsked
  dsimp only
  rw [mainLoop_eq, ← htests]
  cases opts.filterMap fun oa : String × String =>
    if oa.1 = "-4" then some AType.ip4 else if oa.1 = "-6" then some AType.ip6 else none <;> rfl

theorem mainConfig_smodes (common : Common) (opts : List (String × String)) :
    (mainConfig common opts).smodes = modesAsked opts := by
  rw [mainConfig_eq]
  rfl

theorem exists_mem_familiesAsked (opts : List (String × String)) :
    ∃ atype, atype ∈ familiesAsked opts := by
  unfold familiesAsked
  split
  · exact ⟨.ip4, List.mem_cons_self⟩
  · next hne => exact List.exists_mem_of_ne_nil _ (fun h => hne h)

theorem exists_mem_modesAsked (opts : List (String × String)) : ∃ so, so ∈ modesAsked opts := by
  unfold modesAsked
  split
  · exact ⟨true, List.mem_cons_self⟩
  · exact ⟨false, List.mem_cons_self⟩

/-- The names to be run: those that were asked for, or all. -/
def requested (opts : List (String × String)) : List String :=
  (namesAsked opts).getD (allTests.map Scenario.suffix)

/-- Everything that was asked for has been run: for every name, family and mode a
subtest was scheduled, and has passed. -/
def Covers (opts : List (String × String)) (shuffled : List ACfg) (b : Books) : Prop :=
  ∀ name ∈ requested opts, ∀ atype ∈ familiesAsked opts, ∀ so ∈ modesAsked opts,
    ∃ (i : Nat) (x : ACfg), shuffled[i]? = some x ∧ x.testClass.alice = "alice_" ++ name ∧
      x.tcfg.atype = atype ∧
      x.signallingOnly = so ∧ i ∈ b.ledger.passed

/-- The name of a class. -/
def Known (name : String) : Prop := ∃ scn ∈ allTests, scn.alice = "alice_" ++ name

theorem mem_families {tcfg : TestConfig} {atype : AType} :
    atype ∈ tcfg.families ↔ atype ∈ tcfg.ttype := by
  unfold TestConfig.families
  split <;> simp

/-- A class that was asked for is selected. -/
theorem selects_of_requested {common : Common} {opts : List (String × String)} {name : String}
    {scn : Scenario} (hname : name ∈ requested opts) (hscn : scn.alice = "alice_" ++ name) :
    (mainConfig common opts).selects scn = true := by
  unfold TestConfig.selects
  rw [mainConfig_eq]
  unfold requested at hname
  cases hn : namesAsked opts with
  | none => rfl
  | some names =>
      rw [hn] at hname
      simp only [Option.map_some, Option.all_some, decide_eq_true_eq, hscn]
      exact List.mem_map_of_mem hname

/-- A subtest has been scheduled for every name that was asked for, in every
family and mode. -/
theorem exists_shuffled {common : Common} {opts : List (String × String)} {origins : Nat → OHeader}
    {draws rest : List Draw} {atests shuffled : List ACfg}
    (hsched : (mainConfig common opts).atests origins draws = .ok (atests, rest))
    (hperm : shuffled.Perm atests) {name : String} (hname : name ∈ requested opts)
    (hknown : Known name) {atype : AType} (hatype : atype ∈ familiesAsked opts) {so : Bool}
    (hso : so ∈ modesAsked opts) :
    ∃ (i : Nat) (x : ACfg), shuffled[i]? = some x ∧ x.testClass.alice = "alice_" ++ name ∧
      x.tcfg.atype = atype ∧ x.signallingOnly = so := by
  have hall := TestConfig.scheduled_of_atests hsched
  obtain ⟨scn, hscn, halice⟩ := hknown
  have hplan : (atype, scn, so) ∈ (mainConfig common opts).plan := by
    rw [TestConfig.plan_eq]
    simp only [List.mem_product, List.mem_filter, mem_families, mainConfig_smodes]
    refine ⟨?_, ⟨hscn, selects_of_requested hname halice⟩, hso⟩
    rw [mainConfig_eq]
    exact hatype
  obtain ⟨j, hj, hget⟩ := List.getElem_of_mem hplan
  have hj' : j < atests.length := hall.length_eq ▸ hj
  have hx := hall.get hj hj'
  simp only [List.get_eq_getElem, hget] at hx
  obtain ⟨i, hi, hxi⟩ := List.getElem_of_mem (hperm.mem_iff.mpr (List.getElem_mem hj'))
  obtain ⟨body, htcfg, -⟩ := hx.tcfg
  refine ⟨i, atests[j], by rw [List.getElem?_eq_getElem hi, hxi], ?_, ?_, hx.signallingOnly⟩
  · rw [hx.testClass, halice]
  · rw [htcfg]
    rfl

/-! ## the run -/

/-- No subtest of Alice's is ever dropped. -/
theorem held_of_exec {n : Nat} {acts : List CoreAct} {b : Books}
    (h : Run.exec (Books.step .aTest) (Books.start n .aTest) acts = some b) :
    ∀ i < n, i ∈ b.ledger.pending ∨ i ∈ b.ledger.passed ∨ i ∈ b.ledger.failed := by
  refine Run.exec_inv (P := fun b : Books => ∀ i < n, i ∈ b.ledger.pending ∨
    i ∈ b.ledger.passed ∨ i ∈ b.ledger.failed) (fun b act b' hb hs i hi => ?_) ?_ h
  · have hi' := hb i hi
    unfold Books.step at hs
    split at hs
    · cases hs
    · cases act with
      | invite ans => cases hs
      | refuse =>
          cases hs
          exact hi'
      | done subtest rval =>
          simp only [Option.ite_none_right_eq_some, Option.map_eq_some_iff] at hs
          obtain ⟨-, core, -, rfl⟩ := hs
          unfold Ledger.complete
          by_cases hsub : i = subtest
          · split <;> simp [hsub]
          · split <;> simpa [hsub] using hi'
      | timeout =>
          cases hs
          exact hi'
  · intro i hi
    exact .inl (Finset.mem_range.mpr hi)

/-- Everything may still turn out well: the subtests that are running can all
report 0. -/
theorem exists_green {b : Books} (T : Tracks .aTest b) (hl : b.core.loop = .looping)
    (hf : b.ledger.failed = ∅) : ∃ acts b', Run.exec (Books.step .aTest) b acts = some b' ∧
      b'.core.loop ≠ .looping ∧ b'.ledger.Green := by
  induction hn : b.core.subtestsRunning.length generalizing b with
  | zero =>
      have hlen := T.length_running
      have hpending : b.ledger.pending = ∅ := Finset.card_eq_zero.mp (by omega)
      refine ⟨[.timeout], ⟨b.core.timeout .aTest, b.ledger⟩, ?_, ?_, hpending, hf⟩
      · simp [Run.exec_cons, Books.step, hl]
      · simp [Core.timeout]
  | succ n ih =>
      obtain ⟨i, hi⟩ := List.exists_mem_of_length_pos (l := b.core.subtestsRunning) (by omega)
      have hp : i ∈ b.ledger.pending := (T.running i).mp hi
      obtain ⟨core, hcore⟩ : ∃ core, b.core.subtestDone .aTest i 0 = some core := by
        rw [← Option.ne_none_iff_exists', Core.subtestDone, if_neg (not_not.mpr hi)]
        dsimp only
        split_ifs <;> exact Option.some_ne_none _
      have hstep : b.step .aTest (.done i 0) = some ⟨core, b.ledger.complete i true⟩ := by
        simp [Books.step, hl, hp, hcore]
      have T' := T.step hstep
      have hlen : core.subtestsRunning.length = n := by
        have hcard := T'.length_running
        have hcard₀ := T.length_running
        simp only [Ledger.complete, if_true, Finset.card_erase_of_mem hp] at hcard
        omega
      have hf' : (b.ledger.complete i true).failed = ∅ := hf
      by_cases hloop : core.loop = .looping
      · obtain ⟨acts, b', hexec, hended, hgreen⟩ := ih T' hloop hf' hlen
        refine ⟨.done i 0 :: acts, b', ?_, hended, hgreen⟩
        rw [Run.exec_cons, hstep]
        exact hexec
      · refine ⟨[.done i 0], ⟨core, b.ledger.complete i true⟩, ?_, hloop, ?_, hf'⟩
        · rw [Run.exec_cons, hstep]
          rfl
        have hcard := T'.length_running
        have hended : core.subtestsRunning = [] := by
          have hdrained : core.loop = .drained := by
            have := Core.loop_subtestDone hl hcore
            cases hc : core.loop <;> simp_all
          exact (T'.drained hdrained).2
        rw [hended, List.length_nil] at hcard
        exact Finset.card_eq_zero.mp hcard.symm

/-- **What a green Alice means.**  For all options, every order of the scheduled
subtests and every outcome: if Alice's `rval` is 0 when the loop ends, then for
every requested name, every selected family and every selected mode a subtest
was scheduled and has passed, exactly when every requested name is the name of
a class. -/
theorem green_iff {common : Common} {opts : List (String × String)} {origins : Nat → OHeader}
    {draws rest : List Draw} {atests shuffled : List ACfg}
    (hsched : (mainConfig common opts).atests origins draws = .ok (atests, rest))
    (hperm : shuffled.Perm atests) :
    (∀ acts b, Run.exec (Books.step .aTest) (Books.start shuffled.length .aTest) acts = some b →
      b.core.loop ≠ .looping → b.core.rval = 0 → Covers opts shuffled b) ↔
    ∀ name ∈ requested opts, Known name := by
  have hall := TestConfig.scheduled_of_atests hsched
  constructor
  · intro hcovers name hname
    obtain ⟨acts, b, hexec, hended, hgreen⟩ := exists_green (tracks_start .aTest shuffled.length)
      rfl rfl
    have hcov := hcovers acts b hexec hended ((rval_eq_zero_iff hexec hended).mpr hgreen) name hname
    obtain ⟨atype, hatype⟩ := exists_mem_familiesAsked opts
    obtain ⟨so, hso⟩ := exists_mem_modesAsked opts
    obtain ⟨i, x, -, hx, -⟩ := hcov atype hatype so hso
    exact ⟨x.testClass, mem_allTests x.testClass, hx⟩
  · intro hknown acts b hexec hended hv name hname atype hatype so hso
    obtain ⟨scn, hscn, halice⟩ := hknown name hname
    -- The round of this class, in this family and mode.
    have hplan : (atype, scn, so) ∈ (mainConfig common opts).plan := by
      rw [TestConfig.plan_eq]
      simp only [List.mem_product, List.mem_filter, mem_families, mainConfig_smodes]
      refine ⟨?_, ⟨hscn, selects_of_requested hname halice⟩, hso⟩
      rw [mainConfig_eq]
      exact hatype
    obtain ⟨j, hj, hget⟩ := List.getElem_of_mem hplan
    have hj' : j < atests.length := hall.length_eq ▸ hj
    have hx := hall.get hj hj'
    simp only [List.get_eq_getElem, hget] at hx
    have hmem : atests[j] ∈ shuffled := hperm.mem_iff.mpr (List.getElem_mem hj')
    obtain ⟨i, hi, hxi⟩ := List.getElem_of_mem hmem
    refine ⟨i, atests[j], by rw [List.getElem?_eq_getElem hi, hxi], ?_, ?_, hx.signallingOnly, ?_⟩
    · rw [hx.testClass, halice]
    · obtain ⟨body, htcfg, -⟩ := hx.tcfg
      rw [htcfg]
      rfl
    · obtain ⟨hpending, hfailed⟩ := (rval_eq_zero_iff hexec hended).mp hv
      have hheld := held_of_exec hexec i hi
      simpa [hpending, hfailed] using hheld

theorem eq_ok_of_toOption {ε α : Type} {r : Except ε α} {a : α} (h : r.toOption = some a) :
    r = .ok a := by
  cases r with
  | error e => cases h
  | ok b =>
      cases h
      rfl

namespace Sample

/-- The defaults. -/
def common : Common where
  portrange := .default
  nhAddress4 := ("127.0.0.1", 5060)
  nhAddress6 := ("[::1]", 5060)
  acfg := none
  bcfg := none
  testsMightfail := []
  nhMediaIps := none

end Sample

/-- One name, one family and one mode: two subtests, and both pass. -/
theorem green_iff_one : ∃ (shuffled : List ACfg) (b : Books), b.core.rval = 0 ∧
    Covers [("-t", "1"), ("-4", ""), ("-s", "")] shuffled b := by
  have hlen : ((mainConfig Sample.common [("-t", "1"), ("-4", ""), ("-s", "")]).atests
      (fun _ => ⟨0⟩) (List.replicate 10 .half)).toOption.map (fun p => p.1.length) = some 2 := by
    decide +kernel
  obtain ⟨⟨atests, rest⟩, hsched, hn⟩ := Option.map_eq_some_iff.mp hlen
  have hsched' := eq_ok_of_toOption hsched
  have hrun : (Run.exec (Books.step .aTest) (Books.start 2 .aTest) [.done 1 0, .done 0 0]).map
      (fun b => (b.core.loop, b.core.rval)) = some (.drained, 0) := by
    decide
  obtain ⟨b, hb, hf⟩ := Option.map_eq_some_iff.mp hrun
  rw [Prod.mk.injEq] at hf
  have hknown : ∀ name ∈ requested [("-t", "1"), ("-4", ""), ("-s", "")], Known name := by
    intro name hname
    have hone : name = "1" := by
      revert hname
      simp [requested, namesAsked, show splitComma "1" = ["1"] by decide]
    exact ⟨.t1, by decide, hone ▸ rfl⟩
  exact ⟨atests, b, hf.2, (green_iff hsched' (.refl _)).mpr hknown _ b
    (by rw [show atests.length = 2 from hn]; exact hb) (by simp [hf.1]) hf.2⟩

/-- With a name no class has, nothing is scheduled, and Alice exits with 0. -/
theorem not_covers_unknown : ¬ ∀ (common : Common) (opts : List (String × String))
    (origins : Nat → OHeader) (draws rest : List Draw) (atests shuffled : List ACfg)
    (acts : List CoreAct) (b : Books),
    (mainConfig common opts).atests origins draws = .ok (atests, rest) → shuffled.Perm atests →
    Run.exec (Books.step .aTest) (Books.start shuffled.length .aTest) acts = some b →
    b.core.loop ≠ .looping → b.core.rval = 0 → Covers opts shuffled b := by
  intro hall
  have hplan : (mainConfig Sample.common [("-t", "nosuch")]).plan = [] := by decide
  have hsched : (mainConfig Sample.common [("-t", "nosuch")]).atests (fun _ => ⟨0⟩) [] =
      .ok ([], []) := by
    rw [TestConfig.atests, hplan]
    rfl
  have hcov := hall _ _ _ _ _ _ [] [.timeout]
    ⟨(Core.initA 0).timeout .aTest, .opening (Finset.range 0)⟩ hsched (.refl _) rfl
    (by simp [Core.timeout]) rfl
  have hname : "nosuch" ∈ requested [("-t", "nosuch")] := by decide
  obtain ⟨i, x, hx, -⟩ := hcov "nosuch" hname .ip4 (by decide) true (by decide)
  simp at hx

end VoipTests
