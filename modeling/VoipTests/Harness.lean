import VoipTests.Core.Alice

/-!
# VoipTests.Harness

`test_run.sh` and `functions`: which subtests a run consists of, and what the
status says that the script exits with.

The script waits for Alice, Bob, the switch and the RTPProxy, compares the
output of the RTPProxy with what is expected, and then reports one return code
after the other (`conclude`).  `TestRun` has both cores in it, so that the
status is about their subtests (`TestRun.exit_verdict`).
-/

namespace VoipTests.Harness

/-! ## the script -/

/-- The variables the script is started with, and their defaults. -/
structure Env where
  mmType : String
  mmBranch : String
  rtppcType : String
  /-- `[ -n "$CONTINUE" ]` -/
  goOn : Bool
  /-- `[ -n "$INTERACTIVE" ]` -/
  interactive : Bool
  deriving DecidableEq, Repr

/-- `TEST_SET` -/
def testSet (env : Env) : String :=
  "1,2,3,4,5,6,7,8,9,10,early_cancel,early_cancel_lost100" ++
  ",reinvite,reinv_fail,reinv_onhold,reinv_frombob" ++
  (if env.mmType = "b2bua" ∨ env.mmType = "go-b2bua" then
    ",11,12,13,14,reinv_brkn1,reinv_brkn2,reinv_bad_ack" else "") ++
  (if env.mmType = "opensips" then ",11,12,13,14" else "") ++
  (if env.mmType = "b2bua" then ",inv_brkn1" else "") ++
  (if env.mmType = "kamailio" ∨ env.mmType = "opensips" ∧ env.mmBranch = "master" then
    ",nated_contact" else "")

/-- `fail_rc`, with what there is to `read`: it returns, or the script exits. -/
def failRc (env : Env) (rc : Nat) (answers : List String) : Except Nat (List String) :=
  if env.goOn then .ok answers
  else if env.interactive then
    if answers.head? = some "y" then .ok answers.tail else .error rc
  else .error rc

/-- `report_rc` and `report_rc_log` -/
def reportRc (env : Env) (rc : Nat) (answers : List String) : Except Nat (List String) :=
  if rc = 0 then .ok answers else failRc env rc answers

/-- One report after the other: the status the script exits with. -/
def report (env : Env) : List Nat → List String → Nat
  | [], _ => 0
  | rc :: rcs, answers => match reportRc env rc answers with
    | .ok answers => report env rcs answers
    | .error rc => rc

/-- The return codes the script collects. -/
structure Codes where
  alice : Nat
  bob : Nat
  rtpp : Nat
  rtppCheck : Nat
  mm : Nat
  deriving DecidableEq, Repr

/-- The return codes in the order in which they are reported. -/
def Codes.reported (env : Env) (rcs : Codes) : List Nat :=
  [rcs.alice, rcs.bob] ++ (if env.rtppcType ≠ "rtp.io" then [rcs.rtpp] else []) ++
    [rcs.rtppCheck, rcs.mm]

/-- The end of the script. -/
def conclude (env : Env) (rcs : Codes) (answers : List String) : Nat :=
  report env (rcs.reported env) answers

/-- `RTPP_CHECK_RC`: `plain` is the return code of the one `diff`, and `diff nret`
that of the `diff` with the output for `nret`. -/
def rtppCheck (env : Env) (plain : Nat) (diff : Nat → Nat) : Nat :=
  if env.mmType ≠ "opensips" ∧ env.mmType ≠ "kamailio" ∧ env.mmType ≠ "siphon" then plain
  else if diff 0 = 0 then diff 0
  else if diff 1 = 0 then diff 1
  else diff 2

/-! ## the status -/

/-- How many failures are let through. -/
def lets (env : Env) (answers : List String) : Nat :=
  if env.interactive then (answers.takeWhile (· = "y")).length else 0

/-- A failure is let through, or it ends the script. -/
theorem failRc_cases {env : Env} (hgo : env.goOn = false) (rc : Nat) (answers : List String) :
    (failRc env rc answers = .ok answers.tail ∧ lets env answers = lets env answers.tail + 1) ∨
      (failRc env rc answers = .error rc ∧ lets env answers = 0) := by
  unfold failRc lets
  cases env.interactive with
  | false => exact .inr ⟨by simp [hgo], by simp⟩
  | true =>
      cases answers with
      | nil => exact .inr ⟨by simp [hgo], by simp⟩
      | cons a answers =>
          by_cases ha : a = "y"
          · exact .inl ⟨by simp [hgo, ha], by simp [ha]⟩
          · exact .inr ⟨by simp [hgo, ha], by simp [ha]⟩

/-- **The status** is the first return code that is not let through. -/
theorem report_eq {env : Env} (hgo : env.goOn = false) (rcs : List Nat) (answers : List String) :
    report env rcs answers = (rcs.filter (· ≠ 0))[lets env answers]?.getD 0 := by
  induction rcs generalizing answers with
  | nil => rfl
  | cons rc rcs ih =>
      rw [report]
      by_cases hrc : rc = 0
      · simp [reportRc, hrc, ih answers]
      · obtain ⟨hfail, hlets⟩ | ⟨hfail, hlets⟩ := failRc_cases hgo rc answers
        · simp [reportRc, hrc, hfail, hlets, ih answers.tail]
        · simp [reportRc, hrc, hfail, hlets]

/-- Nobody answers: the status is the first return code that is not 0. -/
theorem conclude_eq {env : Env} (hgo : env.goOn = false) (hint : env.interactive = false)
    (rcs : Codes) (answers : List String) :
    conclude env rcs answers = ((rcs.reported env).find? (· ≠ 0)).getD 0 := by
  have hlets : lets env answers = 0 := by simp [lets, hint]
  rw [conclude, report_eq hgo, hlets, ← List.head?_filter, List.head?_eq_getElem?]

/-- The script exits with 0 when nothing has failed. -/
theorem conclude_eq_zero_iff {env : Env} (hgo : env.goOn = false) (hint : env.interactive = false)
    (rcs : Codes) (answers : List String) :
    conclude env rcs answers = 0 ↔ ∀ rc ∈ rcs.reported env, rc = 0 := by
  rw [conclude_eq hgo hint]
  cases hfind : (rcs.reported env).find? (· ≠ 0) with
  | none => simpa using hfind
  | some rc =>
      have hrc : rc ≠ 0 := by simpa using List.find?_some hfind
      simp only [Option.getD_some, hrc, false_iff]
      exact fun hall => hrc (hall rc (List.mem_of_find?_eq_some hfind))

/-! ## the subtests of a run -/

instance (name : String) : Decidable (Known name) := by
  unfold Known
  infer_instance

/-- All names of a list are those of a class. -/
def AllKnown (names : String) : Prop := ∀ name ∈ splitComma names, Known name

theorem AllKnown.append {names more : String} {cs : List Char} (h : AllKnown names)
    (hmore : more.toList = ',' :: cs) (hcs : AllKnown (String.ofList cs)) :
    AllKnown (names ++ more) := by
  intro name hname
  rw [splitComma, String.toList_append, hmore, List.splitOn_append_cons_self, List.map_append,
    List.mem_append] at hname
  obtain hname | hname := hname
  · exact h name hname
  · exact hcs name (by rwa [splitComma, String.toList_ofList])

theorem AllKnown.append_ite {names more : String} {cs : List Char} {p : Prop} [Decidable p]
    (h : AllKnown names) (hmore : more.toList = ',' :: cs) (hcs : AllKnown (String.ofList cs)) :
    AllKnown (names ++ if p then more else "") := by
  split
  · exact h.append hmore hcs
  · rwa [String.append_empty]

/-- Every name in `TEST_SET` is that of a class. -/
theorem allKnown_testSet (env : Env) : AllKnown (testSet env) := by
  have hfirst : AllKnown "1,2,3,4,5,6,7,8,9,10,early_cancel,early_cancel_lost100" := by
    unfold AllKnown
    decide +kernel
  refine ((((hfirst.append rfl ?_).append_ite rfl ?_).append_ite rfl ?_).append_ite rfl ?_).append_ite
    rfl ?_
  all_goals
    unfold AllKnown
    decide +kernel

theorem head_testSet (env : Env) : (testSet env).toList.head? = some '1' := by
  unfold testSet
  simp only [String.toList_append, List.append_assoc]
  rfl

/-- The options that are left to `alice_main`: those of `ALICE_ARGS`, and `-t`. -/
def aliceOpts (env : Env) (flags : List (String × String)) : List (String × String) :=
  flags ++ [("-t", testSet env)]

theorem requested_aliceOpts (env : Env) (flags : List (String × String)) :
    requested (aliceOpts env flags) = splitComma (testSet env) := by
  have hstar : testSet env ≠ "*" := by
    intro h
    have hhead := head_testSet env
    rw [h] at hhead
    revert hhead
    decide
  simp [requested, namesAsked, aliceOpts, hstar]

theorem familiesAsked_aliceOpts (env : Env) (flags : List (String × String)) :
    familiesAsked (aliceOpts env flags) = familiesAsked flags := by
  simp [familiesAsked, aliceOpts]

/-- At most 208 subtests are scheduled, with at most four flags for a family. -/
theorem length_plan_le {common : Common} {opts : List (String × String)}
    (h : (familiesAsked opts).length ≤ 4) : (mainConfig common opts).plan.length ≤ 208 := by
  have hfam : (mainConfig common opts).families.length ≤ 4 := by
    have htype : (mainConfig common opts).ttype = familiesAsked opts := by rw [mainConfig_eq]
    unfold TestConfig.families
    split
    · rw [List.length_append]
      omega
    · rwa [htype]
  have hscn : (allTests.filter (mainConfig common opts).selects).length ≤ 26 :=
    List.length_filter_le _ _
  have hmode : (mainConfig common opts).smodes.length ≤ 2 := by
    unfold TestConfig.smodes
    split <;> simp
  rw [TestConfig.plan_eq, List.length_product, List.length_product]
  calc _ ≤ 4 * (26 * 2) := Nat.mul_le_mul hfam (Nat.mul_le_mul hscn hmode)
    _ = 208 := rfl

/-- Alice creates no subtest once her loop runs. -/
theorem created_of_exec {n : Nat} {acts : List CoreAct} {b : Books}
    (h : Run.exec (Books.step .aTest) (Books.start n .aTest) acts = some b) :
    b.core.created = n := by
  refine Run.exec_inv (P := fun b : Books => b.core.created = n) (fun b act b' hb hs => ?_) rfl h
  unfold Books.step at hs
  split at hs
  · cases hs
  · cases act with
    | invite ans => cases hs
    | refuse =>
        cases hs
        exact hb
    | done subtest rval =>
        simp only [Option.ite_none_right_eq_some, Option.map_eq_some_iff] at hs
        obtain ⟨-, core, hcore, rfl⟩ := hs
        exact (Core.subtestDone_some hcore).2.2.1.trans hb
    | timeout =>
        cases hs
        exact hb

/-- A run of the script as far as the two cores go, and what else it looks at. -/
structure TestRun (env : Env) where
  common : Common
  flags : List (String × String)
  origins : Nat → OHeader
  draws : List Draw
  rest : List Draw
  atests : List ACfg
  shuffled : List ACfg
  aliceActs : List CoreAct
  alice : Books
  bobActs : List CoreAct
  bob : Books
  rtppRc : Nat
  mmRc : Nat
  /-- The return codes of `diff -uB`. -/
  plain : Nat
  diff : Nat → Nat
  answers : List String
  scheduled : (mainConfig common (aliceOpts env flags)).atests origins draws = .ok (atests, rest)
  perm : shuffled.Perm atests
  aliceRun : Run.exec (Books.step .aTest) (Books.start shuffled.length .aTest) aliceActs = some alice
  /-- Nothing happens to the subtests of a dry run. -/
  aliceDry : dryRun flags = true → aliceActs = []
  aliceEnd : dryRun flags = false → alice.core.loop ≠ .looping
  bobRun : Run.exec (Books.step .bTest) (Books.start 0 .bTest) bobActs = some bob
  bobEnd : bob.core.loop ≠ .looping

namespace TestRun

variable {env : Env} (run : TestRun env)

/-- The return codes the script collects. -/
def codes : Codes where
  alice := if dryRun run.flags then 0 else exitStatus run.alice.core.rval
  bob := exitStatus run.bob.core.rval
  rtpp := run.rtppRc
  rtppCheck := rtppCheck env run.plain run.diff
  mm := run.mmRc

/-- The status the script exits with. -/
def exit : Nat := conclude env run.codes run.answers

/-- What else has to be right. -/
def RestRight : Prop :=
  (env.rtppcType ≠ "rtp.io" → run.rtppRc = 0) ∧
  (if env.mmType ≠ "opensips" ∧ env.mmType ≠ "kamailio" ∧ env.mmType ≠ "siphon" then run.plain = 0
    else ∃ nret < 3, run.diff nret = 0) ∧
  run.mmRc = 0

theorem length_shuffled (hfam : (familiesAsked run.flags).length ≤ 4) :
    run.shuffled.length ≤ 208 := by
  rw [run.perm.length_eq, ← (TestConfig.scheduled_of_atests run.scheduled).length_eq]
  exact length_plan_le (by rwa [familiesAsked_aliceOpts])

theorem created_alice : run.alice.core.created = run.shuffled.length :=
  created_of_exec run.aliceRun

/-- With at most four flags for a family no count of Alice's is lost. -/
theorem not_wraps_alice (hfam : (familiesAsked run.flags).length ≤ 4) :
    ¬ Wraps .aTest run.alice.ledger := by
  have hlen := run.length_shuffled hfam
  exact not_wraps_of_created run.aliceRun (by rw [run.created_alice, CoreClass.base]; omega)

theorem owed_lt (hfam : (familiesAsked run.flags).length ≤ 4) : run.alice.ledger.owed < 256 := by
  have hle := ((tracks_start .aTest _).exec run.aliceRun).owed_le_created
  have hlen := run.length_shuffled hfam
  rw [run.created_alice] at hle
  omega

/-- Nor is one of Bob's who gets fewer than 255 INVITEs. -/
theorem not_wraps_bob (hbob : run.bob.core.created < 255) : ¬ Wraps .bTest run.bob.ledger :=
  not_wraps_of_created run.bobRun (by rw [CoreClass.base]; omega)

/-- Unless it is a dry run, Alice's status is the number of subtests that have not passed. -/
theorem codes_alice (hdry : dryRun run.flags = false) :
    run.codes.alice = run.alice.ledger.owed % 256 := by
  have hr := rval_of_ended run.aliceRun (run.aliceEnd hdry)
  have hcode : run.codes.alice = exitStatus run.alice.core.rval := by simp [codes, hdry]
  rw [hcode, exitStatus, hr, CoreClass.base]
  split <;> omega

theorem codes_alice_eq_zero_iff : run.codes.alice = 0 ↔
    dryRun run.flags = true ∨ run.alice.ledger.Green ∨ Wraps .aTest run.alice.ledger := by
  cases hdry : dryRun run.flags with
  | true => simp [codes, hdry]
  | false =>
      simpa [codes, hdry] using exitStatus_eq_zero_of_ended run.aliceRun (run.aliceEnd hdry)

theorem codes_bob_eq_zero_iff :
    run.codes.bob = 0 ↔ run.bob.ledger.Green ∨ Wraps .bTest run.bob.ledger :=
  exitStatus_eq_zero_of_ended run.bobRun run.bobEnd

theorem rtppCheck_eq_zero_iff : rtppCheck env run.plain run.diff = 0 ↔
    if env.mmType ≠ "opensips" ∧ env.mmType ≠ "kamailio" ∧ env.mmType ≠ "siphon" then run.plain = 0
    else ∃ nret < 3, run.diff nret = 0 := by
  have hthree : (∃ nret < 3, run.diff nret = 0) ↔
      run.diff 0 = 0 ∨ run.diff 1 = 0 ∨ run.diff 2 = 0 := by
    constructor
    · rintro ⟨nret, hlt, h⟩
      obtain rfl | rfl | rfl : nret = 0 ∨ nret = 1 ∨ nret = 2 := by omega
      · exact .inl h
      · exact .inr (.inl h)
      · exact .inr (.inr h)
    · rintro (h | h | h)
      · exact ⟨0, by omega, h⟩
      · exact ⟨1, by omega, h⟩
      · exact ⟨2, by omega, h⟩
  unfold rtppCheck
  split
  · exact Iff.rfl
  · rw [hthree]
    split_ifs <;> omega

/-- A green Alice has run every name of `TEST_SET`. -/
theorem covers_of_green (hgreen : run.alice.ledger.Green) :
    Covers (aliceOpts env run.flags) run.shuffled run.alice := by
  intro name hname atype hatype so hso
  have hknown : Known name := by
    rw [requested_aliceOpts] at hname
    exact allKnown_testSet env name hname
  obtain ⟨i, x, hi, hx⟩ := exists_shuffled run.scheduled run.perm hname hknown hatype hso
  refine ⟨i, x, hi, hx.1, hx.2.1, hx.2.2, ?_⟩
  have hheld := held_of_exec run.aliceRun i (List.getElem?_eq_some_iff.mp hi).1
  simpa [hgreen.1, hgreen.2] using hheld

/-- The script exits with 0 if and only if it sees nothing wrong. -/
theorem exit_eq_zero_iff (hgo : env.goOn = false) (hint : env.interactive = false) :
    run.exit = 0 ↔
      (dryRun run.flags = true ∨ run.alice.ledger.Green ∨ Wraps .aTest run.alice.ledger) ∧
      (run.bob.ledger.Green ∨ Wraps .bTest run.bob.ledger) ∧ run.RestRight := by
  have hcheck : run.codes.rtppCheck = 0 ↔ _ := run.rtppCheck_eq_zero_iff
  rw [exit, conclude_eq_zero_iff hgo hint, ← codes_alice_eq_zero_iff, ← codes_bob_eq_zero_iff]
  simp only [Codes.reported, List.forall_mem_append, List.forall_mem_cons, List.not_mem_nil,
    false_imp_iff, implies_true, and_true, hcheck, RestRight]
  by_cases hrtp : env.rtppcType = "rtp.io"
  · simp [hrtp, codes, and_assoc]
  · simp [hrtp, codes, and_assoc]

/-- The first return code of all is Alice's. -/
theorem exit_of_alice (hgo : env.goOn = false) (hint : env.interactive = false)
    (hne : run.codes.alice ≠ 0) : run.exit = run.codes.alice := by
  rw [exit, conclude_eq hgo hint, Codes.reported, List.cons_append, List.cons_append,
    List.find?_cons_of_pos (by simpa using hne), Option.getD_some]

/-- **What the status of a run says.**  It is 0 when all the rest is right and each end is
green, or has lost its count to the 8 bits of a status, or is an Alice without a loop; and
only then.  With at most four flags for a family Alice's count is not lost, and with fewer
than 255 INVITEs Bob's is not.  Then, unless it is a dry run, a status of 0 says that each
name of `TEST_SET` has been run in each family and mode, and has passed at Alice's; and
when Alice is not green, the status is the number of her subtests that have not passed. -/
theorem exit_verdict (hgo : env.goOn = false) (hint : env.interactive = false) :
    (run.exit = 0 ↔
      (dryRun run.flags = true ∨ run.alice.ledger.Green ∨ Wraps .aTest run.alice.ledger) ∧
      (run.bob.ledger.Green ∨ Wraps .bTest run.bob.ledger) ∧ run.RestRight) ∧
    ((familiesAsked run.flags).length ≤ 4 → ¬ Wraps .aTest run.alice.ledger) ∧
    (run.bob.core.created < 255 → ¬ Wraps .bTest run.bob.ledger) ∧
    (dryRun run.flags = false → (familiesAsked run.flags).length ≤ 4 →
      (run.exit = 0 → Covers (aliceOpts env run.flags) run.shuffled run.alice) ∧
      (¬ run.alice.ledger.Green → run.exit = run.alice.ledger.owed)) := by
  refine ⟨run.exit_eq_zero_iff hgo hint, run.not_wraps_alice, run.not_wraps_bob,
    fun hdry hfam => ⟨fun h => ?_, fun hgreen => ?_⟩⟩
  · obtain ⟨hd | hgreen | hwraps, -⟩ := (run.exit_eq_zero_iff hgo hint).mp h
    · simp [hdry] at hd
    · exact run.covers_of_green hgreen
    · exact (run.not_wraps_alice hfam hwraps).elim
  · have hcode : run.codes.alice = run.alice.ledger.owed :=
      (run.codes_alice hdry).trans (Nat.mod_eq_of_lt (run.owed_lt hfam))
    rw [← hcode]
    refine run.exit_of_alice hgo hint ?_
    rwa [hcode, ne_eq, Ledger.owed_eq_zero_iff]

end TestRun

namespace Sample

/-- The proxy of a run without media, of one family. -/
def siphonEnv : Harness.Env := ⟨"siphon", "master", "udp", false, false⟩

def noMedia : List (String × String) := [("-4", ""), ("-s", "")]

/-- The subtests can be scheduled, and there are 32 of them. -/
theorem exists_atests : ∃ atests rest,
    (mainConfig VoipTests.Sample.common (aliceOpts siphonEnv noMedia)).atests (fun _ => ⟨0⟩)
      (List.replicate 200 .half) = .ok (atests, rest) ∧ atests.length = 32 := by
  have hlen : ((mainConfig VoipTests.Sample.common (aliceOpts siphonEnv noMedia)).atests
      (fun _ => ⟨0⟩) (List.replicate 200 .half)).toOption.map (fun p => p.1.length) = some 32 := by
    decide +kernel
  obtain ⟨⟨atests, rest⟩, hsched, hn⟩ := Option.map_eq_some_iff.mp hlen
  exact ⟨atests, rest, eq_ok_of_toOption hsched, hn⟩

variable {draws rest : List Draw} {atests : List ACfg} {aliceActs bobActs : List CoreAct}
variable {alice bob : Books}

/-- A run of the two ends in which all the rest is right. -/
def run (hsched : (mainConfig VoipTests.Sample.common (aliceOpts siphonEnv noMedia)).atests
      (fun _ => ⟨0⟩) draws = .ok (atests, rest))
    (halice : Run.exec (Books.step .aTest) (Books.start atests.length .aTest) aliceActs = some alice)
    (hend : alice.core.loop ≠ .looping)
    (hbob : Run.exec (Books.step .bTest) (Books.start 0 .bTest) bobActs = some bob)
    (hend' : bob.core.loop ≠ .looping) : TestRun siphonEnv where
  common := VoipTests.Sample.common
  flags := noMedia
  origins _ := ⟨0⟩
  draws := draws
  rest := rest
  atests := atests
  shuffled := atests
  aliceActs := aliceActs
  alice := alice
  bobActs := bobActs
  bob := bob
  rtppRc := 0
  mmRc := 0
  plain := 0
  diff _ := 0
  answers := []
  scheduled := hsched
  perm := .refl _
  aliceRun := halice
  aliceDry h := by cases h
  aliceEnd _ := hend
  bobRun := hbob
  bobEnd := hend'

/-- No INVITE gets to Bob. -/
theorem exec_idle : Run.exec (Books.step .bTest) (Books.start 0 .bTest) [.timeout] =
    some ⟨Core.initB.timeout .bTest, .opening ∅⟩ := rfl

end Sample

/-- Two runs of 32 subtests: all of them pass, or none is ever ended. -/
theorem exit_verdict_32 :
    (∃ run : TestRun Sample.siphonEnv, run.exit = 0 ∧
      Covers (aliceOpts Sample.siphonEnv run.flags) run.shuffled run.alice) ∧
    ∃ run : TestRun Sample.siphonEnv, run.exit = 32 := by
  obtain ⟨atests, rest, hsched, hlen⟩ := Sample.exists_atests
  have hfam : (familiesAsked Sample.noMedia).length ≤ 4 := by decide
  have hidle : (Core.initB.timeout .bTest).loop ≠ .looping := by simp [Core.timeout]
  constructor
  · have hdone : (Run.exec (Books.step .aTest) (Books.start 32 .aTest)
        ((List.range 32).map (.done · 0))).map
          (fun b => decide (b.core.loop ≠ .looping ∧ b.ledger.pending = ∅ ∧ b.ledger.failed = ∅)) =
            some true := by
      decide +kernel
    obtain ⟨alice, halice, hend⟩ := Option.map_eq_some_iff.mp hdone
    obtain ⟨hend, hgreen⟩ := of_decide_eq_true hend
    let run := Sample.run hsched (hlen ▸ halice) hend Sample.exec_idle hidle
    obtain ⟨hzero, -, -, hall⟩ := run.exit_verdict rfl rfl
    have hexit : run.exit = 0 := hzero.mpr
      ⟨.inr (.inl hgreen), .inl ⟨rfl, rfl⟩, fun _ => rfl, ⟨0, by decide, rfl⟩, rfl⟩
    exact ⟨run, hexit, (hall rfl hfam).1 hexit⟩
  · let run := Sample.run hsched (exec_timeout _) (by simp [Core.timeout]) Sample.exec_idle hidle
    have howed : run.alice.ledger.owed = 32 := by
      show (Ledger.opening (Finset.range atests.length)).owed = 32
      rw [Ledger.owed_opening, Finset.card_range, hlen]
    have hgreen : ¬ run.alice.ledger.Green := by
      rw [← Ledger.owed_eq_zero_iff, howed]
      decide
    obtain ⟨-, -, -, hall⟩ := run.exit_verdict rfl rfl
    exact ⟨run, ((hall rfl hfam).2 hgreen).trans howed⟩

end VoipTests.Harness
