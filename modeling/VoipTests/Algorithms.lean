import VoipTests.Core.Credentials
import VoipTests.Core.Suite
import VoipTests.Harness

/-!
# VoipTests.Algorithms

Which sets of algorithms a run of the script tries out.

A set that has been handed out need not be used: an early-cancel subtest throws its
credentials away.  `Suite.hasCreds` says what the UA of a subtest of Alice's has been
given, and `sets_presented` that with OpenSIPS every set gets to one of them.
-/

namespace VoipTests

open Callback Run

/-! ## what a subtest presents -/

/-- The classes whose constructor does without credentials. -/
def dropsCreds : List PyClass → Bool
  | [] => false
  | .a .earlyCancel :: _ => true
  | .a .t1 :: _ | .b .t1 :: _ => false
  | _ :: sup => dropsCreds sup

/-- `uac_creds` once the constructors are through. -/
def Setup.presented (p : Setup) : Option AuthCreds :=
  if dropsCreds p.cls.mro then none else p.tccfg.uacCreds

/-- The UA goes by these credentials, or by none. -/
structure Ua.HasCreds (ua : Ua) (creds : Option AuthCreds) : Prop where
  username : ua.username = creds.map AuthCreds.username
  password : ua.password = creds.map AuthCreds.password
  authEnalgs : ua.authEnalgs = creds.map AuthCreds.enalgs

/-- The credentials with which a constructor calls the UA. -/
def CredsStop (creds : Option AuthCreds) : Stop Exc UaCall Unit → Subtest → Prop
  | .call _, s => s.ua.HasCreds creds
  | _, _ => True

section Constructors

variable {s : Subtest} {scn : Scenario} {mro : List PyClass}

/-- **What `build_ua` gives the UA**: the credentials it finds. -/
theorem until_buildUa_creds : (buildUa mro s).Until fun
    | .ret _, s' => s'.ua.HasCreds s.tccfg.uacCreds
    | .raise _, _ => True
    | .call _, _ => False := by
  fun_induction buildUa mro with
  | case1 => exact trivial
  | case2 sup ih =>
      unfold ATestNatedContact.buildUa
      rw [Prog.bind_apply, Out.until_bind]
      refine ih.mono fun stop s' h => ?_
      cases stop <;> exact h
  | case3 sup => exact ⟨rfl, rfl, rfl⟩
  | case4 c sup _ _ ih => exact ih

/-- Alice's constructor passes the credentials on. -/
theorem ATest1.until_init_creds : (ATest1.init scn s).Until (CredsStop s.tccfg.uacCreds) := by
  unfold ATest1.init
  rw [Prog.bind_apply, Test.rtpInit_eq]
  split
  · exact trivial
  · refine ATest1.until_localBody.bind (fun body s₁ h₁ => ?_) (fun _ _ _ => trivial)
      fun _ _ h => h.elim
    have hbuild : (M.self VoipTests.buildUa s₁).Until _ := until_buildUa_creds
    refine hbuild.bind (fun _ s₂ h₂ => ?_) (fun _ _ _ => trivial) fun _ _ h => h.elim
    show s₂.ua.HasCreds s.tccfg.uacCreds
    rw [← h₁.1.tccfg]
    exact h₂

/-- Bob's does not get to the UA. -/
theorem BTest1.until_init_creds (creds : Option AuthCreds) :
    (BTest1.init s).Until (CredsStop creds) := by
  unfold BTest1.init
  rw [Prog.bind_apply, Test.rtpInit_eq]
  split
  · exact trivial
  · refine BTest1.until_drawIvals.mono fun stop s' h => ?_
    cases stop with
    | call c => exact h.elim
    | _ => exact trivial

theorem until_rtpOff_creds {p : M Unit} {creds : Option AuthCreds}
    (h : (p s).Until (CredsStop creds)) : (rtpOff p s).Until (CredsStop creds) := by
  unfold rtpOff
  rw [Prog.bind_apply, Out.until_bind]
  refine h.mono fun stop s₁ h₁ => ?_
  cases stop with
  | call c => exact h₁
  | _ => exact trivial

/-- **What the UA is called with**, for every class. -/
theorem until_init_creds : (init scn mro s).Until
    (CredsStop (if dropsCreds mro then none else s.tccfg.uacCreds)) := by
  fun_induction init scn mro generalizing s with
  | case1 => exact trivial
  | case2 sup ih => exact until_rtpOff_creds ih
  | case3 sup ih => exact until_rtpOff_creds ih
  | case4 sup ih => exact until_rtpOff_creds ih
  | case5 sup ih => exact until_rtpOff_creds ih
  | case6 sup ih =>
      refine ih.mono fun stop s' h => ?_
      cases stop with
      | call c =>
          have hcreds : s'.ua.HasCreds (if dropsCreds sup then none else none) := h
          have hnone : s'.ua.HasCreds none := by simpa using hcreds
          exact hnone
      | _ => exact trivial
  | case7 sup ih => exact ih
  | case8 sup ih => exact ih
  | case9 sup ih =>
      unfold ATestReinvOnhold.init
      rw [Prog.bind_apply, Prog.get_apply, Out.bind_ret]
      dsimp only
      generalize ATestReinvOnhold.drawSched _ _ = drawn
      cases drawn with
      | none => exact trivial
      | some r => exact ih
  | case10 sup ih => exact ih
  | case11 sup ih => exact ih
  | case12 sup => exact ATest1.until_init_creds
  | case13 sup => exact BTest1.until_init_creds _
  | case14 c sup _ _ _ _ _ _ _ _ _ _ _ _ ih =>
      have hi : dropsCreds sup = dropsCreds (c :: sup) := by
        rw [dropsCreds] <;> assumption
      rw [← hi]
      exact ih

end Constructors

section Life

variable {p : Setup} {acts : List Act} {y y' : Sys} {a : Act} {s s' : Subtest}
variable {creds : Option AuthCreds}

/-- No code takes credentials from the UA, or gives it others. -/
theorem Ua.HasCreds.move (h : s.ua.HasCreds creds) (hm : Move s s') : s'.ua.HasCreds creds := by
  cases hm with
  | unseen hu =>
      obtain ⟨_, _, _, _, -, -, rfl⟩ := hu
      exact h
  | held on => cases on <;> exact h
  | dead hl hs =>
      obtain ⟨s₁, he, hs'⟩ := ends_of_settle hs
      have hua : s₁.ua = s.ua := he.field Subtest.ua fun _ => rfl
      obtain rfl | ⟨exc, rfl⟩ := hs'
      · rwa [hua]
      · show s₁.ua.HasCreds creds
        rwa [hua]
  | _ => exact ⟨h.username, h.password, h.authEnalgs⟩

theorem Ua.HasCreds.changes (h : s.ua.HasCreds creds) (hc : Changes s s') :
    s'.ua.HasCreds creds := by
  induction hc with
  | refl => exact h
  | tail _ hc ih =>
      cases hc with
      | move hm => exact ih.move hm
      | @enter cb idle _ he =>
          obtain ⟨-, rfl⟩ := eq_of_entry he
          cases cb <;> exact ⟨ih.username, ih.password, ih.authEnalgs⟩

/-- A subtest of Alice's that has called its UA has given it its credentials. -/
structure Setup.Presents (p : Setup) (y : Sys) : Prop where
  found : p.Found y
  hasCreds : y.st.ua.created = true → y.st.ua.HasCreds p.presented

theorem Setup.Presents.step (h : p.Presents y) (hs : machine.step y a = some y') :
    p.Presents y' := by
  obtain ⟨hfound, hch⟩ := h.found.step hs
  exact ⟨hfound, fun _ => (h.hasCreds (h.found.lives_of_step hs).created).changes hch⟩

theorem Setup.presents_of_start (ha : p.side = .alice) (h : p.start = some y) : p.Presents y := by
  have hreach : p.Reaches [] y := ⟨y, h, rfl⟩
  refine ⟨Setup.found_of_reaches hreach, fun hc => ?_⟩
  have hinit : (init p.scn p.cls.mro p.fresh).Until _ := until_init_creds
  have hcreate : (create p.scn p.side p.fresh).Until (CredsStop p.presented) := by
    unfold create
    rw [ha]
    exact hinit.bind (fun _ _ _ => trivial) (fun _ _ _ => trivial) fun _ _ h => h
  have hstop := p.until_create
  unfold Setup.start at h
  cases ho : create p.scn p.side p.fresh with
  | ret _ s =>
      rw [ho] at hstop h
      cases h
      exact absurd (hc.symm.trans hstop.created) (by decide)
  | raise e s =>
      rw [ho] at hstop h
      cases h
      exact absurd (hc.symm.trans hstop.created) (by decide)
  | call c s k =>
      rw [ho] at hcreate h
      cases h
      have hcreds : s.ua.HasCreds p.presented := hcreate
      cases c <;> exact ⟨hcreds.username, hcreds.password, hcreds.authEnalgs⟩
  | spin =>
      rw [ho] at h
      cases h

theorem Setup.presents_of_reaches (ha : p.side = .alice) (h : p.Reaches acts y) :
    p.Presents y := by
  obtain ⟨y₀, hstart, hexec⟩ := h
  exact Run.exec_inv (fun y a y' hy hs => hy.step hs) (Setup.presents_of_start ha hstart) hexec

/-- A subtest is built with its UA. -/
theorem Setup.created_of_build (h : p.build acts = some y) : y.st.ua.created = true := by
  unfold Setup.build at h
  simp only [Option.bind_eq_bind, Option.bind_eq_some_iff] at h
  obtain ⟨y', -, h⟩ := h
  obtain ⟨hbuilt, h⟩ := Option.ite_none_right_eq_some.mp h
  cases h
  simp only [Bool.and_eq_true] at hbuilt
  exact hbuilt.1.2

end Life

/-! ## Alice's subtests -/

section Suite

variable {ps : List (Setup × List Act)} {s₀ s : Suite} {acts : List SuiteAct}

/-- What every step of an object keeps, a run of Alice keeps of all her objects. -/
theorem Suite.forall_of_exec {P : Nat → Sys → Prop}
    (hstep : ∀ i y a y', P i y → machine.step y a = some y' → P i y')
    (h₀ : ∀ (i : Nat) (y : Sys), s₀.subtests[i]? = some y → P i y)
    (h : exec Suite.step s₀ acts = some s) :
    ∀ (i : Nat) (y : Sys), s.subtests[i]? = some y → P i y := by
  refine Run.exec_inv (P := fun s : Suite => ∀ (i : Nat) (y : Sys), s.subtests[i]? = some y →
    P i y) (fun s act s' hs hact j z hz => ?_) h₀ h
  unfold Suite.step at hact
  split at hact
  · cases hact
  · cases act with
    | refuse =>
        cases hact
        exact hs j z hz
    | timeout =>
        cases hact
        exact hs j z hz
    | subtest i a =>
        obtain ⟨-, hact⟩ := Option.ite_none_left_eq_some.mp hact
        simp only [Option.bind_eq_bind, Option.bind_eq_some_iff, Option.some.injEq] at hact
        obtain ⟨y, hi, y', hy, core, -, rfl⟩ := hact
        by_cases hji : j = i
        · subst hji
          rw [List.getElem?_set_self (List.getElem?_eq_some_iff.mp hi).1] at hz
          cases hz
          exact hstep j y a _ (hs j y hi) hy
        · rw [List.getElem?_set_ne (Ne.symm hji)] at hz
          exact hs j z hz

/-- **What the UAs of Alice's subtests go by**, whatever has happened to them. -/
theorem Suite.hasCreds (ha : ∀ pa ∈ ps, pa.1.side = .alice) (hstart : Suite.start ps = some s₀)
    (h : exec Suite.step s₀ acts = some s) {i : Nat} {pa : Setup × List Act}
    (hi : ps[i]? = some pa) :
    ∃ y, s.subtests[i]? = some y ∧ y.st.ua.created = true ∧
      y.st.ua.HasCreds pa.1.presented := by
  obtain ⟨bacts, b, -, hm⟩ := Suite.mirrored hstart h
  obtain ⟨hlt, rfl⟩ := List.getElem?_eq_some_iff.mp hi
  have hlt' : i < s.subtests.length := hm.length ▸ hlt
  have hall : ∀ (i : Nat) (y : Sys), s.subtests[i]? = some y → ∃ pa, ps[i]? = some pa ∧
      pa.1.Presents y ∧ y.st.ua.created = true := by
    refine Suite.forall_of_exec (fun i y a y' hy hs => ?_) (fun i y hy => ?_) h
    · obtain ⟨pa, hpa, hpres, hc⟩ := hy
      have hch := (hpres.found.step hs).2
      exact ⟨pa, hpa, hpres.step hs, (Changes.sameLife hch).created.trans hc⟩
    · obtain ⟨ys, hys, rfl⟩ := Option.map_eq_some_iff.mp hstart
      have hbuilt := forall₂_of_buildAll hys
      obtain ⟨hj, rfl⟩ := List.getElem?_eq_some_iff.mp hy
      have hj' : i < ps.length := hbuilt.length_eq ▸ hj
      have hone := hbuilt.get hj' hj
      exact ⟨ps[i], List.getElem?_eq_getElem hj',
        Setup.presents_of_reaches (ha _ (List.getElem_mem hj')) (Setup.reaches_of_build hone).1,
        Setup.created_of_build hone⟩
  obtain ⟨pa', hpa', hpres, hc⟩ := hall i _ (List.getElem?_eq_getElem hlt')
  rw [hi] at hpa'
  cases hpa'
  exact ⟨_, List.getElem?_eq_getElem hlt', hc, hpres.hasCreds hc⟩

end Suite

/-! ## a run of the script -/

theorem countP_product_fst {α β : Type} (p : α → Bool) (l : List α) (l' : List β) :
    (l ×ˢ l').countP (fun k => p k.1) = l.countP p * l'.length := by
  induction l with
  | nil => simp
  | cons a l ih =>
      rw [List.product_cons, List.countP_append, ih, List.countP_map, List.countP_cons]
      cases h : p a <;> simp [Function.comp_def, h, Nat.add_mul, Nat.add_comm]

theorem countP_product_snd {α β : Type} (p : β → Bool) (l : List α) (l' : List β) :
    (l ×ˢ l').countP (fun k => p k.2) = l.length * l'.countP p := by
  induction l with
  | nil => simp
  | cons a l ih =>
      rw [List.product_cons, List.countP_append, ih, List.countP_map, List.length_cons,
        Nat.add_mul, Nat.one_mul, Nat.add_comm]
      rfl

/-- An Alice class that does without credentials. -/
def Scenario.early (scn : Scenario) : Bool := dropsCreds (PyClass.a scn).mro

/-- There are two of these. -/
theorem countP_early : allTests.countP Scenario.early = 2 := by
  decide +kernel

namespace TestConfig

variable {tcfg : TestConfig} {origins : Nat → OHeader} {allargs : List Enalgs}
variable {draws rest : List Draw} {plain shuffled : List ACfg}

theorem map_testClass (h : tcfg.atests origins draws = .ok (plain, rest)) :
    plain.map ACfg.testClass = tcfg.plan.map fun r => r.2.1 := by
  have hall := scheduled_of_atests h
  clear h
  generalize tcfg.plan = plan at hall
  induction hall with
  | nil => rfl
  | cons hx _ ih => rw [List.map_cons, List.map_cons, ih, hx.testClass]

/-- A set that comes round often enough is not thrown away every time. -/
theorem HandedOut.exists_not_early (hout : tcfg.HandedOut allargs plain shuffled)
    (hplain : tcfg.atests origins draws = .ok (plain, rest)) {enalgs : Enalgs}
    (henalgs : enalgs ∈ allargs)
    (hlt : tcfg.plan.countP (fun r => r.2.1.early) < tcfg.plan.length / allargs.length) :
    ∃ x ∈ shuffled, x.tcfg.uacCreds = some (AliceCfg.withEnalgs enalgs) ∧
      x.testClass.early = false := by
  by_contra hno
  have hthrown : ∀ x ∈ shuffled, (x.tcfg.uacCreds == some (AliceCfg.withEnalgs enalgs)) = true →
      x.testClass.early = true := fun x hx hcreds =>
    Bool.not_eq_false _ ▸ fun hearly => hno ⟨x, hx, beq_iff_eq.mp hcreds, hearly⟩
  have hclass : (shuffled.map ACfg.testClass).Perm (tcfg.plan.map fun r => r.2.1) := by
    rw [← map_testClass hplain]
    simpa [Function.comp_def, ACfg.withCreds] using hout.same.map ACfg.testClass
  have hcount := hout.count enalgs henalgs
  have hle : (shuffled.map fun x => x.tcfg.uacCreds).count (some (AliceCfg.withEnalgs enalgs)) ≤
      tcfg.plan.countP fun r => r.2.1.early :=
    calc _ = shuffled.countP fun x => x.tcfg.uacCreds == some (AliceCfg.withEnalgs enalgs) := by
          rw [List.count, List.countP_map]
          rfl
      _ ≤ shuffled.countP fun x => x.testClass.early := List.countP_mono_left hthrown
      _ = (shuffled.map ACfg.testClass).countP Scenario.early := by
          rw [List.countP_map]
          rfl
      _ = (tcfg.plan.map fun r => r.2.1).countP Scenario.early := hclass.countP_eq _
      _ = tcfg.plan.countP fun r => r.2.1.early := by
          rw [List.countP_map]
          rfl
  omega

end TestConfig

namespace Harness

variable {env : Env} {common : Common} {flags : List (String × String)}

/-- With OpenSIPS at least 20 classes are named. -/
theorem countP_testSet (henv : env.mmType = "opensips") :
    20 ≤ allTests.countP fun scn => scn.suffix ∈ splitComma (testSet env) := by
  unfold testSet
  rw [henv, if_neg (by decide), if_pos rfl, if_neg (by decide)]
  by_cases hm : env.mmBranch = "master"
  · rw [if_pos (.inr ⟨rfl, hm⟩)]
    decide +kernel
  · rw [if_neg (by simp [hm])]
    decide +kernel

theorem length_selected (henv : env.mmType = "opensips") :
    20 ≤ (allTests.filter (mainConfig common (aliceOpts env flags)).selects).length := by
  rw [← List.countP_eq_length_filter]
  refine (countP_testSet henv).trans (List.countP_mono_left fun scn _ h => ?_)
  exact selects_of_requested (requested_aliceOpts env flags ▸ of_decide_eq_true h) rfl

/-- A single family is run twice. -/
theorem two_le_families (opts : List (String × String)) :
    2 ≤ (mainConfig common opts).families.length := by
  obtain ⟨atype, hatype⟩ := exists_mem_familiesAsked opts
  have hpos := List.length_pos_of_mem hatype
  have htype : (mainConfig common opts).ttype = familiesAsked opts := by rw [mainConfig_eq]
  rw [← htype] at hpos
  unfold TestConfig.families
  split
  · rw [List.length_append]
    omega
  · omega

/-- The rounds of the early-cancel classes are fewer than the turns of a set. -/
theorem countP_early_plan (henv : env.mmType = "opensips") {k : Nat} (hk : 0 < k) (hk' : k ≤ 7) :
    (mainConfig common (aliceOpts env flags)).plan.countP (fun r => r.2.1.early) <
      (mainConfig common (aliceOpts env flags)).plan.length / k := by
  have hfam : 2 ≤ (mainConfig common (aliceOpts env flags)).families.length := two_le_families _
  have hsel : 20 ≤ (allTests.filter (mainConfig common (aliceOpts env flags)).selects).length :=
    length_selected henv
  have hmode : 1 ≤ (mainConfig common (aliceOpts env flags)).smodes.length := by
    unfold TestConfig.smodes
    split <;> simp
  generalize mainConfig common (aliceOpts env flags) = tcfg at hfam hsel hmode ⊢
  have hearly : (allTests.filter tcfg.selects).countP Scenario.early ≤ 2 := by
    rw [← countP_early]
    exact List.filter_sublist.countP_le
  have hcount : tcfg.plan.countP (fun r => r.2.1.early) = tcfg.families.length *
      ((allTests.filter tcfg.selects).countP Scenario.early * tcfg.smodes.length) := by
    rw [TestConfig.plan_eq, countP_product_snd (fun k : Scenario × Bool => k.1.early),
      countP_product_fst]
  rw [hcount, TestConfig.plan_eq, List.length_product, List.length_product, Nat.lt_iff_add_one_le,
    Nat.le_div_iff_mul_le hk]
  generalize (allTests.filter tcfg.selects).countP Scenario.early = c at hearly
  generalize (allTests.filter tcfg.selects).length = m at hsel
  generalize tcfg.families.length = f at hfam
  generalize tcfg.smodes.length = n at hmode
  have hrounds : 2 ≤ f * n := Nat.mul_le_mul hfam hmode
  calc (f * (c * n) + 1) * k ≤ (f * (2 * n) + 1) * 7 := by gcongr
    _ ≤ f * n * 20 := by grind
    _ ≤ f * n * m := Nat.mul_le_mul_left _ hsel
    _ = f * (m * n) := by grind

/-- **Every set of algorithms is presented.**  With OpenSIPS, where Alice has one of the
`alice_cfg` modules, whatever `ALICE_ARGS` selects, in whatever order the subtests are run
and whatever has happened to them: each set of `allargs` is what the UA of some subtest
has been given, with the name and the password. -/
theorem sets_presented (henv : env.mmType = "opensips") {allargs allargs' : List Enalgs}
    (hall : allargs = AliceCfg.allargs ∨ allargs = AliceCfg.allargsHa1)
    {origins : Nat → OHeader} {draws rest : List Draw} {atests : List ACfg}
    (hsched : (mainConfig common (aliceOpts env flags)).atestsAuth origins allargs draws =
      .ok (atests, allargs', rest))
    {created : List (ACfg × VoipTests.Env × List Act)}
    (hperm : (created.map Prod.fst).Perm atests) {s₀ s : Suite} {acts : List SuiteAct}
    (hstart : Suite.create (mainConfig common (aliceOpts env flags)) created = some s₀)
    (h : exec Suite.step s₀ acts = some s) :
    ∀ enalgs ∈ allargs, ∃ (i : Nat) (y : Sys), s.subtests[i]? = some y ∧
      y.st.ua.created = true ∧ y.st.ua.HasCreds (some (AliceCfg.withEnalgs enalgs)) := by
  intro enalgs henalgs
  have hnd : allargs.Nodup := by
    obtain rfl | rfl := hall
    · exact AliceCfg.nodup_allargs
    · exact AliceCfg.nodup_allargsHa1
  have hlen : allargs.length ≤ 7 := by
    obtain rfl | rfl := hall <;> decide
  obtain ⟨plain, hplain, hout⟩ :=
    TestConfig.handedOut_of_atestsAuth (List.ne_nil_of_mem henalgs) hnd hsched hperm
  obtain ⟨x, hx, hcreds, hearly⟩ := hout.exists_not_early hplain henalgs
    (countP_early_plan henv (List.length_pos_of_mem henalgs) hlen)
  obtain ⟨i, hi, hxi⟩ := List.getElem_of_mem hx
  have hside : ∀ pa ∈ created.map fun c => (c.1.setup (decide (c.1.testClass.alice ∈
      (mainConfig common (aliceOpts env flags)).testsMightfail)) c.2.1, c.2.2),
      pa.1.side = .alice := by
    intro pa hpa
    obtain ⟨c, -, rfl⟩ := List.mem_map.mp hpa
    rfl
  have hi' : i < created.length := by simpa using hi
  obtain ⟨y, hy, hc, hpresents⟩ := Suite.hasCreds hside hstart h (i := i)
    (by rw [List.getElem?_map, List.getElem?_eq_getElem hi', Option.map_some])
  have hx' : created[i].1 = x := by simpa using hxi
  have hkept : dropsCreds (PyClass.a created[i].1.testClass).mro = false := hx' ▸ hearly
  have hsame : (created[i].1.setup (decide (created[i].1.testClass.alice ∈
      (mainConfig common (aliceOpts env flags)).testsMightfail)) created[i].2.1).presented =
      some (AliceCfg.withEnalgs enalgs) := by
    rw [← hcreds, ← hx']
    exact if_neg (ne_true_of_eq_false hkept)
  exact ⟨i, y, hy, hc, hsame ▸ hpresents⟩

/-- Forty subtests, and Alice gives up on them all. -/
theorem sets_presented_timeout : ∃ s : Suite, s.core.loop = .timedOut ∧
    ∀ enalgs ∈ AliceCfg.allargs, ∃ (i : Nat) (y : Sys), s.subtests[i]? = some y ∧
      y.st.ua.created = true ∧ y.st.ua.HasCreds (some (AliceCfg.withEnalgs enalgs)) := by
  let env : Env := ⟨"opensips", "3.4", "udp", false, false⟩
  let opts := aliceOpts env [("-4", ""), ("-s", "")]
  have hsome : ((mainConfig Sample.common opts).atestsAuth (fun _ => ⟨0⟩) AliceCfg.allargs
      (List.replicate 240 .half)).toOption.map (fun p =>
        (Suite.create (mainConfig Sample.common opts) (p.1.map fun x =>
          (x, VoipTests.Sample.env, [.ret VoipTests.Sample.env]))).map fun s => s.core) =
      some (some (.initA 40)) := by
    decide +kernel
  obtain ⟨⟨atests, allargs', rest⟩, hsched, hcreate⟩ := Option.map_eq_some_iff.mp hsome
  obtain ⟨opening, hopened, hcore⟩ := Option.map_eq_some_iff.mp hcreate
  have hrun : exec Suite.step opening [.timeout] =
      some { opening with core := opening.core.timeout .aTest } := by
    simp [Suite.step, hcore, Core.initA]
  have hperm : ((atests.map fun x => (x, VoipTests.Sample.env,
      ([.ret VoipTests.Sample.env] : List Act))).map Prod.fst).Perm atests := by
    simp [Function.comp_def]
  have henv : env.mmType = "opensips" := rfl
  exact ⟨_, rfl, sets_presented henv (.inl rfl) (eq_ok_of_toOption hsched) hperm hopened hrun⟩

end Harness

end VoipTests
