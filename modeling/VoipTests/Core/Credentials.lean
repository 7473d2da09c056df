import VoipTests.Core.Alice
import VoipTests.Lib.Rotation

/-!
# VoipTests.Core.Credentials

The `alice_cfg` modules, in which the sets of algorithms take turns.

`gen_tccfg` makes an `AUTH_CREDS` for every subtest, and each one takes the last
of `allargs` and puts it in front.  `atestsAuth` is `a_test.__init__` with such
a module loaded.  It schedules what `atests` schedules, up to the credentials
(`atestsAuth_eq`), and hands out the sets evenly: `even_credentials`.
-/

namespace VoipTests

/-- `enalgs` -/
abbrev Enalgs : Type := List (Option String)

namespace AliceCfg

/-- `allargs` of `scenarios/UAS/alice_cfg.py`. -/
def allargs : List Enalgs :=
  [[none, some "MD5"], [some "MD5-sess"], [some "SHA-256"], [some "SHA-256-sess"],
    [some "SHA-512-256"], [some "SHA-512-256-sess"],
    [some "SHA-512-256", some "SHA-512-256-sess", some "SHA-256", some "SHA-256-sess",
      some "MD5-sess", none]]

/-- `allargs` of `scenarios/UAS/auth_db/ha1/alice_cfg.py`. -/
def allargsHa1 : List Enalgs :=
  [[none, some "MD5"], [some "MD5-sess"], [some "SHA-256"], [some "SHA-256-sess"],
    [some "SHA-256", some "SHA-256-sess", some "MD5-sess", none]]

/-- What `AUTH_CREDS.__init__` of both fills in. -/
def withEnalgs (enalgs : Enalgs) : AuthCreds where
  username := "mightyuser"
  password := "s3cr3tpAssw0Rd"
  enalgs := enalgs

/-- `AUTH_CREDS()`; `none` is the `IndexError` of `pop`. -/
def authCreds (allargs : List Enalgs) : Option (AuthCreds × List Enalgs) :=
  (Rotation.turn allargs).map fun p => (withEnalgs p.1, p.2)

theorem withEnalgs_inj {enalgs enalgs' : Enalgs} :
    withEnalgs enalgs = withEnalgs enalgs' ↔ enalgs = enalgs' := by
  simp [withEnalgs]

theorem nodup_allargs : allargs.Nodup := by
  decide

theorem nodup_allargsHa1 : allargsHa1.Nodup := by
  decide

end AliceCfg

open AliceCfg

/-! ## the schedule -/

/-- Why nothing is scheduled. -/
inductive Unscheduled where
  | indexError
  | halted (h : Halt)
  deriving DecidableEq, Repr

/-- The subtest with the credentials of a set. -/
def ACfg.withCreds (x : ACfg) (enalgs : Enalgs) : ACfg :=
  { x with tcfg := { x.tcfg with uacCreds := some (withEnalgs enalgs) } }

namespace TestConfig

variable (tcfg : TestConfig)

/-- `gen_tccfg` where `acfg` has an `AUTH_CREDS` of its own. -/
def genTccfgAuth (atype : AType) (signallingOnly : Bool) (cli : Option String)
    (origin : OHeader) (allargs : List Enalgs) (draws : List Draw) :
    Except Unscheduled (TcCfg × List Enalgs × List Draw) :=
  match authCreds allargs with
  | none => .error .indexError
  | some (creds, allargs) =>
    match { tcfg with acfg := some creds }.genTccfg atype signallingOnly cli origin draws with
    | .error h => .error (.halted h)
    | .ok (tccfg, draws) => .ok (tccfg, allargs, draws)

/-- The body of the loops, round after round. -/
def roundsAuth (origins : Nat → OHeader) : Nat → List (AType × Scenario × Bool) →
    List Enalgs → List Draw → Except Unscheduled (List ACfg × List Enalgs × List Draw)
  | _, [], allargs, draws => .ok ([], allargs, draws)
  | n, (atype, scn, signallingOnly) :: plan, allargs, draws =>
    match tcfg.genTccfgAuth atype signallingOnly (some (cliOf scn atype)) (origins n) allargs
      draws with
    | .error h => .error h
    | .ok (tccfg, allargs, draws) => match roundsAuth origins (n + 1) plan allargs draws with
      | .error h => .error h
      | .ok (atests, allargs, draws) =>
        .ok (⟨scn, false, tccfg, signallingOnly⟩ :: atests, allargs, draws)

/-- `atests` of `a_test.__init__`, before it is shuffled. -/
def atestsAuth (origins : Nat → OHeader) (allargs : List Enalgs) (draws : List Draw) :
    Except Unscheduled (List ACfg × List Enalgs × List Draw) :=
  match tcfg.roundsAuth origins 0 tcfg.plan allargs draws with
  | .error h => .error h
  | .ok (atests, allargs, draws) => .ok (atests.filter fun x => !x.disabled, allargs, draws)

variable {tcfg} {origins : Nat → OHeader} {n : Nat} {plan : List (AType × Scenario × Bool)}
variable {allargs allargs' used : List Enalgs} {draws rest : List Draw}
variable {atests shuffled : List ACfg}

/-- The credentials are all that `gen_tccfg` takes from `acfg`. -/
theorem genTccfg_acfg (creds : AuthCreds) (atype : AType) (so : Bool) (cli : Option String)
    (origin : OHeader) : { tcfg with acfg := some creds }.genTccfg atype so cli origin draws =
      (tcfg.genTccfg atype so cli origin draws).map fun p =>
        ({ p.1 with uacCreds := some creds }, p.2) := by
  unfold genTccfg
  cases tcfg.body with
  | none => rfl
  | some body =>
      dsimp only
      cases fillhostport body tcfg.portrange atype so origin draws <;> rfl

/-- **The rounds with credentials** are those without, and as many turns. -/
theorem roundsAuth_eq (h : Rotation.turns plan.length allargs = some (used, allargs')) :
    tcfg.roundsAuth origins n plan allargs draws =
      ((tcfg.rounds origins n plan draws).mapError .halted).map fun p =>
        (List.zipWith ACfg.withCreds p.1 used, allargs', p.2) := by
  induction plan generalizing n allargs draws used with
  | nil =>
      cases h
      rfl
  | cons k plan ih =>
      obtain ⟨atype, scn, so⟩ := k
      obtain ⟨enalgs, allargs₁, used, hturn, hturns, rfl⟩ := Rotation.turns_succ h
      rw [roundsAuth, genTccfgAuth, authCreds, hturn, rounds]
      simp only [Option.map_some, genTccfg_acfg]
      cases tcfg.genTccfg atype so (some (cliOf scn atype)) (origins n) draws with
      | error e => rfl
      | ok p =>
          obtain ⟨tccfg, draws₁⟩ := p
          dsimp only [Except.map]
          rw [ih hturns]
          cases tcfg.rounds origins (n + 1) plan draws₁ <;> rfl

theorem enabled_of_rounds {plain : List ACfg}
    (h : tcfg.rounds origins n plan draws = .ok (plain, rest)) :
    ∀ x ∈ plain, x.disabled = false := by
  have hall := scheduled_of_rounds h
  clear h
  induction hall with
  | nil => simp
  | cons hx _ ih => exact List.forall_mem_cons.mpr ⟨hx.enabled, ih⟩

theorem filter_enabled {l : List ACfg} (h : ∀ x ∈ l, x.disabled = false) :
    (l.filter fun x => !x.disabled) = l :=
  List.filter_eq_self.mpr fun x hx => by simp [h x hx]

theorem enabled_zipWith {plain : List ACfg} (h : ∀ x ∈ plain, x.disabled = false)
    (used : List Enalgs) : ∀ x ∈ List.zipWith ACfg.withCreds plain used, x.disabled = false := by
  intro x hx
  obtain ⟨i, hi, rfl⟩ := List.getElem_of_mem hx
  have hi' : i < plain.length := by simp at hi; omega
  rw [List.getElem_zipWith]
  exact h plain[i] (List.getElem_mem hi')

/-- **The schedule with credentials** is the one without, and as many turns. -/
theorem atestsAuth_eq (h : Rotation.turns tcfg.plan.length allargs = some (used, allargs')) :
    tcfg.atestsAuth origins allargs draws =
      ((tcfg.atests origins draws).mapError .halted).map fun p =>
        (List.zipWith ACfg.withCreds p.1 used, allargs', p.2) := by
  unfold atestsAuth TestConfig.atests
  rw [roundsAuth_eq h]
  cases hrounds : tcfg.rounds origins 0 tcfg.plan draws with
  | error e => rfl
  | ok p =>
      have hplain := enabled_of_rounds hrounds
      simp only [Except.mapError, Except.map, filter_enabled hplain,
        filter_enabled (enabled_zipWith hplain used)]

/-- The credentials of the subtests are the sets in the order of the turns. -/
theorem map_uacCreds {plain : List ACfg} (h : plain.length = used.length) :
    (List.zipWith ACfg.withCreds plain used).map (fun x => x.tcfg.uacCreds) =
      used.map fun enalgs => some (withEnalgs enalgs) := by
  induction plain generalizing used with
  | nil => cases used <;> simp_all
  | cons x plain ih => cases used <;> simp_all [ACfg.withCreds]

theorem map_withCreds {plain : List ACfg} (h : plain.length = used.length) :
    (List.zipWith ACfg.withCreds plain used).map (ACfg.withCreds · []) =
      plain.map (ACfg.withCreds · []) := by
  induction plain generalizing used with
  | nil => cases used <;> simp_all
  | cons x plain ih => cases used <;> simp_all [ACfg.withCreds]

/-- How the sets of `allargs` have been handed out. -/
structure HandedOut (tcfg : TestConfig) (allargs : List Enalgs) (plain shuffled : List ACfg) :
    Prop where
  /-- But for the credentials, these are the subtests that are scheduled anyway. -/
  same : (shuffled.map (ACfg.withCreds · [])).Perm (plain.map (ACfg.withCreds · []))
  given : ∀ x ∈ shuffled, ∃ enalgs ∈ allargs, x.tcfg.uacCreds = some (withEnalgs enalgs)
  count : ∀ enalgs ∈ allargs,
    (shuffled.map fun x => x.tcfg.uacCreds).count (some (withEnalgs enalgs)) =
      tcfg.plan.length / allargs.length +
        if allargs.reverse.idxOf enalgs < tcfg.plan.length % allargs.length then 1 else 0

theorem handedOut_of_atestsAuth (hne : allargs ≠ []) (hnd : allargs.Nodup)
    (h : tcfg.atestsAuth origins allargs draws = .ok (atests, allargs', rest))
    (hperm : shuffled.Perm atests) : ∃ plain, tcfg.atests origins draws = .ok (plain, rest) ∧
      HandedOut tcfg allargs plain shuffled := by
  obtain ⟨used, allargs'', hturns⟩ := Rotation.exists_turns hne tcfg.plan.length
  rw [atestsAuth_eq hturns] at h
  cases hplain : tcfg.atests origins draws with
  | error e =>
      rw [hplain] at h
      cases h
  | ok p =>
      obtain ⟨plain, rest'⟩ := p
      rw [hplain] at h
      cases h
      have hlen : plain.length = used.length := by
        rw [Rotation.length_turns hturns, (scheduled_of_atests hplain).length_eq]
      have hcreds := map_uacCreds hlen
      refine ⟨plain, rfl, ?_, fun x hx => ?_, fun enalgs henalgs => ?_⟩
      · rw [← map_withCreds hlen]
        exact hperm.map (ACfg.withCreds · [])
      · have hmem : x.tcfg.uacCreds ∈ used.map fun enalgs => some (withEnalgs enalgs) := by
          rw [← hcreds]
          exact List.mem_map_of_mem (hperm.mem_iff.mp hx)
        obtain ⟨enalgs, hused, he⟩ := List.mem_map.mp hmem
        exact ⟨enalgs, Rotation.mem_turns hturns enalgs hused, he.symm⟩
      · have hinj : Function.Injective fun enalgs => some (withEnalgs enalgs) := fun a b hab =>
          withEnalgs_inj.mp (Option.some.inj hab)
        rw [(hperm.map fun x => x.tcfg.uacCreds).count_eq, hcreds,
          List.count_map_of_injective used _ hinj, Rotation.count_turns hnd henalgs hturns]

/-- **The sets take turns.**  Whatever is selected, and in whatever order it is run: there
is a schedule whenever there is one without credentials, and of `n` subtests each of the
`k` sets has `n / k`, or one more if its turn has come again. -/
theorem even_credentials (hne : allargs ≠ []) (hnd : allargs.Nodup) :
    ((∃ r, tcfg.atestsAuth origins allargs draws = .ok r) ↔
      ∃ r, tcfg.atests origins draws = .ok r) ∧
    ∀ (atests : List ACfg) (allargs' : List Enalgs) (rest : List Draw) (shuffled : List ACfg),
      tcfg.atestsAuth origins allargs draws = .ok (atests, allargs', rest) →
      shuffled.Perm atests →
      ∃ plain, tcfg.atests origins draws = .ok (plain, rest) ∧
        HandedOut tcfg allargs plain shuffled := by
  obtain ⟨used, allargs'', hturns⟩ := Rotation.exists_turns hne tcfg.plan.length
  refine ⟨?_, fun atests allargs' rest shuffled => handedOut_of_atestsAuth hne hnd⟩
  rw [atestsAuth_eq hturns]
  cases tcfg.atests origins draws <;> simp [Except.map, Except.mapError]

/-- Six subtests and five sets: one comes round a second time. -/
theorem even_credentials_six : ∃ plain shuffled : List ACfg,
    HandedOut (mainConfig Sample.common [("-t", "1,2,3"), ("-4", ""), ("-s", "")]) allargsHa1
      plain shuffled ∧
    (shuffled.map fun x => x.tcfg.uacCreds).count (some (withEnalgs [none, some "MD5"])) = 1 ∧
    (shuffled.map fun x => x.tcfg.uacCreds).count (some (withEnalgs
      [some "SHA-256", some "SHA-256-sess", some "MD5-sess", none])) = 2 := by
  let tcfg := mainConfig Sample.common [("-t", "1,2,3"), ("-4", ""), ("-s", "")]
  have hplain : (tcfg.atests (fun _ => ⟨0⟩) (List.replicate 40 .half)).toOption.isSome = true := by
    decide +kernel
  obtain ⟨r, hr⟩ := Option.isSome_iff_exists.mp hplain
  obtain ⟨hiff, hall⟩ := @even_credentials tcfg (fun _ => ⟨0⟩) allargsHa1
    (List.replicate 40 .half) (List.cons_ne_nil _ _) nodup_allargsHa1
  obtain ⟨⟨atests, allargs', rest⟩, h⟩ := hiff.mpr ⟨r, eq_ok_of_toOption hr⟩
  obtain ⟨plain, -, hout⟩ := hall atests allargs' rest atests h (.refl _)
  have hlen : tcfg.plan.length = 6 := by decide +kernel
  refine ⟨plain, atests, hout, ?_, ?_⟩
  · rw [hout.count _ (by decide), hlen]
    decide
  · rw [hout.count _ (by decide), hlen]
    decide

end TestConfig

end VoipTests
