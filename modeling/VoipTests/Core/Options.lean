import VoipTests.Core.Alice
import VoipTests.Lib.Sieve

/-!
# VoipTests.Core.Options

The options both cores have in common: `_parse_common_opt`, and the loop of
`test_config.__init__` that takes them out of the list of options.

The loop deletes from the list it is indexing.  It is an instance of
`VoipTests.Lib.Sieve`, so that it is one pass in order; and what one option sets
another one overwrites or leaves alone (`Setting`), so that of the options with
the same letter the last one counts.
-/

namespace VoipTests

/-! ## one option -/

/-- What the common options set: attributes of `test_config`, and two keys of
`global_config`. -/
structure Options where
  portrange : PortRange
  sipAddress : Option String
  sipPort : Option Int
  testTimeout : Int
  nhAddress4 : String × Int
  nhAddress6 : String × Int
  preWait : Option ℚ
  testsMightfail : List String
  deriving DecidableEq

/-- The class attributes, and an empty `global_config`. -/
def Options.default : Options where
  portrange := .default
  sipAddress := none
  sipPort := none
  testTimeout := 60
  nhAddress4 := ("127.0.0.1", 5060)
  nhAddress6 := ("[::1]", 5060)
  preWait := none
  testsMightfail := []

/-- What is found outside: `SipConf.my_address`, and the clock in each round. -/
structure OptEnv where
  myAddress : String
  monotonic : Nat → ℚ

/-- A next hop: what `split` or `rsplit` has left of it, with the port a number. -/
def nextHop : String × Option String → Option (String × Int)
  | (_, none) => none
  | (host, some port) => (pyInt port).map fun portn => (host, portn)

/-- `_parse_common_opt`, in a round of the loop; `none` is an exception. -/
def parseCommonOpt (outside : OptEnv) (round : Nat) (cfg : Options) (o a : String) :
    Option (Bool × Options) :=
  if o = "-p" then
    (PortRange.ofString (strip a)).map fun pr => (true, { cfg with portrange := pr })
  else if o = "-l" then
    let saddr := strip a
    let saddr := if saddr = "*" then outside.myAddress else saddr
    some (true, { cfg with sipAddress := some saddr })
  else if o = "-P" then (pyInt a).map fun n => (true, { cfg with sipPort := some n })
  else if o = "-T" then (pyInt a).map fun n => (true, { cfg with testTimeout := n })
  else if o = "-n" then
    (nextHop (splitOnce ':' a)).map fun nh => (true, { cfg with nhAddress4 := nh })
  else if o = "-N" then
    (nextHop (rsplitOnce ':' a)).map fun nh => (true, { cfg with nhAddress6 := nh })
  else if o = "-w" then
    (pyFloat a).map fun x => (true, { cfg with preWait := some (outside.monotonic round + x) })
  else if o = "-m" then some (true, { cfg with testsMightfail := splitComma a })
  else some (false, cfg)

/-- The loop of `test_config.__init__`, with the rounds it has taken and the
options it has left. -/
def parseLoop (outside : OptEnv) (cfg : Options) (opts : List (String × String)) :
    Option (Nat × Options × List (String × String)) :=
  Sieve.loop (fun round cfg opt => parseCommonOpt outside round cfg opt.1 opt.2) 0 cfg opts 0

/-- What the rest of the suite uses of it. -/
def Options.common (cfg : Options) (acfg bcfg : Option AuthCreds)
    (nhMediaIps : Option (List String)) : Common where
  portrange := cfg.portrange
  nhAddress4 := cfg.nhAddress4
  nhAddress6 := cfg.nhAddress6
  acfg := acfg
  bcfg := bcfg
  testsMightfail := cfg.testsMightfail
  nhMediaIps := nhMediaIps

/-! ## what an option sets -/

/-- The value an option sets. -/
inductive Setting where
  | portrange (pr : PortRange)
  | sipAddress (saddr : String)
  | sipPort (n : Int)
  | testTimeout (n : Int)
  | nhAddress4 (nh : String × Int)
  | nhAddress6 (nh : String × Int)
  | preWait (deadline : ℚ)
  | testsMightfail (tests : List String)

namespace Setting

/-- The option that sets it. -/
def opt : Setting → String
  | portrange _ => "-p"
  | sipAddress _ => "-l"
  | sipPort _ => "-P"
  | testTimeout _ => "-T"
  | nhAddress4 _ => "-n"
  | nhAddress6 _ => "-N"
  | preWait _ => "-w"
  | testsMightfail _ => "-m"

/-- The configuration with the value set. -/
def set (cfg : Options) : Setting → Options
  | portrange pr => { cfg with portrange := pr }
  | sipAddress saddr => { cfg with sipAddress := some saddr }
  | sipPort n => { cfg with sipPort := some n }
  | testTimeout n => { cfg with testTimeout := n }
  | nhAddress4 nh => { cfg with nhAddress4 := nh }
  | nhAddress6 nh => { cfg with nhAddress6 := nh }
  | preWait deadline => { cfg with preWait := some deadline }
  | testsMightfail tests => { cfg with testsMightfail := tests }

/-- A later occurrence of an option overrides an earlier one. -/
theorem set_of_opt_eq {u v : Setting} (cfg : Options) (h : u.opt = v.opt) :
    set (set cfg u) v = set cfg v := by
  cases u <;> cases v <;> first | rfl | simp [opt] at h

/-- Different options do not touch each other's values. -/
theorem set_comm {u v : Setting} (cfg : Options) (h : u.opt ≠ v.opt) :
    set (set cfg u) v = set (set cfg v) u := by
  cases u <;> cases v <;> first | rfl | exact absurd rfl h

/-- Of the settings of one option, the last one counts. -/
theorem foldl_set_of_opt_eq {u v : Setting} (cfg : Options) (us vs : List Setting)
    (h : u.opt = v.opt) :
    (us ++ v :: vs).foldl set (set cfg u) = (us ++ v :: vs).foldl set cfg := by
  induction us generalizing cfg with
  | nil => rw [List.nil_append, List.foldl_cons, List.foldl_cons, set_of_opt_eq cfg h]
  | cons w us ih =>
      rw [List.cons_append, List.foldl_cons, List.foldl_cons]
      by_cases hw : u.opt = w.opt
      · rw [set_of_opt_eq cfg hw]
      · rw [set_comm cfg hw, ih]

end Setting

/-- The options `_parse_common_opt` recognises. -/
def recognised (opt : String × String) : Bool :=
  opt.1 ∈ ["-p", "-l", "-P", "-T", "-n", "-N", "-w", "-m"]

/-- What the argument of a recognised option is parsed to. -/
def setting (outside : OptEnv) (round : Nat) (opt : String × String) : Option Setting :=
  let a := opt.2
  if opt.1 = "-p" then (PortRange.ofString (strip a)).map .portrange
  else if opt.1 = "-l" then
    some (.sipAddress (if strip a = "*" then outside.myAddress else strip a))
  else if opt.1 = "-P" then (pyInt a).map .sipPort
  else if opt.1 = "-T" then (pyInt a).map .testTimeout
  else if opt.1 = "-n" then (nextHop (splitOnce ':' a)).map .nhAddress4
  else if opt.1 = "-N" then (nextHop (rsplitOnce ':' a)).map .nhAddress6
  else if opt.1 = "-w" then (pyFloat a).map fun x => .preWait (outside.monotonic round + x)
  else some (.testsMightfail (splitComma a))

/-- An option that is not recognised changes nothing, and one that is sets a
value that does not depend on the configuration. -/
theorem parseCommonOpt_eq (outside : OptEnv) (round : Nat) (cfg : Options) (opt : String × String) :
    parseCommonOpt outside round cfg opt.1 opt.2 =
      if recognised opt then (setting outside round opt).map fun u => (true, u.set cfg)
      else some (false, cfg) := by
  obtain ⟨o, a⟩ := opt
  simp only [parseCommonOpt, setting, recognised, List.mem_cons, List.not_mem_nil, or_false]
  split_ifs <;> simp_all [Setting.set, Function.comp_def]

/-- The option is the one that sets the value. -/
theorem opt_of_setting {outside : OptEnv} {round : Nat} {opt : String × String} {u : Setting}
    (hr : recognised opt = true) (h : setting outside round opt = some u) : u.opt = opt.1 := by
  obtain ⟨o, a⟩ := opt
  simp only [setting, recognised, List.mem_cons, List.not_mem_nil, or_false, decide_eq_true_eq] at h hr
  split_ifs at h
  all_goals first
    | (obtain ⟨_, -, rfl⟩ := Option.map_eq_some_iff.mp h)
    | cases h
  all_goals simp_all [Setting.opt]

/-! ## the loop -/

/-- The argument of an option can be parsed, whatever is found outside. -/
def Parses (outside : OptEnv) (opt : String × String) : Prop :=
  ∀ round cfg, (parseCommonOpt outside round cfg opt.1 opt.2).isSome = true

/-- The recognised options, applied one after the other, each in its round. -/
def applyOpts (outside : OptEnv) (cfg : Options) (opts : List ((String × String) × Nat)) :
    Option Options :=
  Sieve.applied (fun round cfg opt => parseCommonOpt outside round cfg opt.1 opt.2) cfg opts

/-- The values that options set, each in its round. -/
def settings (outside : OptEnv) (opts : List ((String × String) × Nat)) : List Setting :=
  opts.filterMap fun opt => setting outside opt.2 opt.1

theorem settings_append (outside : OptEnv) (opts opts' : List ((String × String) × Nat)) :
    settings outside (opts ++ opts') = settings outside opts ++ settings outside opts' :=
  List.filterMap_append

theorem settings_cons {outside : OptEnv} {opt : (String × String) × Nat} {u : Setting}
    (opts : List ((String × String) × Nat)) (hu : setting outside opt.2 opt.1 = some u) :
    settings outside (opt :: opts) = u :: settings outside opts := by
  rw [settings, List.filterMap_cons, hu]
  rfl

theorem sorts_parseCommonOpt (outside : OptEnv) :
    Sieve.Sorts (fun round cfg opt => parseCommonOpt outside round cfg opt.1 opt.2) recognised where
  leaves round cfg opt h := by rw [parseCommonOpt_eq, h, if_neg Bool.false_ne_true]
  takes round cfg opt r h hr := by
    rw [parseCommonOpt_eq, if_pos h, Option.map_eq_some_iff] at hr
    obtain ⟨u, -, rfl⟩ := hr
    rfl

theorem exists_setting {outside : OptEnv} {opt : String × String} (hr : recognised opt = true)
    (h : Parses outside opt) (round : Nat) : ∃ u, setting outside round opt = some u := by
  have hsome := h round .default
  rw [parseCommonOpt_eq, if_pos hr, Option.isSome_map] at hsome
  exact Option.isSome_iff_exists.mp hsome

/-- Options that parse are applied by setting their values. -/
theorem applyOpts_eq {outside : OptEnv} {cfg : Options} {opts : List ((String × String) × Nat)}
    (h : ∀ opt ∈ opts, recognised opt.1 = true ∧ Parses outside opt.1) :
    applyOpts outside cfg opts = some ((settings outside opts).foldl Setting.set cfg) := by
  induction opts generalizing cfg with
  | nil => rfl
  | cons opt opts ih =>
      rw [List.forall_mem_cons] at h
      obtain ⟨⟨hr, hp⟩, hrest⟩ := h
      obtain ⟨u, hu⟩ := exists_setting hr hp opt.2
      rw [settings_cons opts hu, applyOpts, Sieve.applied, List.foldlM_cons, parseCommonOpt_eq,
        if_pos hr, hu]
      exact ih hrest

/-- **The loop over the options is a stable partition**: it ends after one round
for each option, leaves the options that are not recognised in their order, and
the configuration is the one that the recognised options make of it from first
to last, where only the last occurrence of an option counts. -/
theorem parseLoop_partitions (outside : OptEnv) (cfg : Options) (opts : List (String × String))
    (h : ∀ opt ∈ opts, Parses outside opt) :
    ∃ cfg', parseLoop outside cfg opts =
        some (opts.length, cfg', opts.filter fun opt => !recognised opt) ∧
      applyOpts outside cfg (opts.zipIdx.filter fun opt => recognised opt.1) = some cfg' ∧
      ∀ l₁ l₂ l₃ x y, (opts.zipIdx.filter fun opt => recognised opt.1) = l₁ ++ x :: (l₂ ++ y :: l₃) →
        x.1.1 = y.1.1 → applyOpts outside cfg (l₁ ++ (l₂ ++ y :: l₃)) = some cfg' := by
  have htaken : ∀ opt ∈ opts.zipIdx.filter fun opt => recognised opt.1,
      recognised opt.1 = true ∧ Parses outside opt.1 := by
    intro opt hopt
    obtain ⟨hmem, hr⟩ := List.mem_filter.mp hopt
    exact ⟨hr, h _ (List.fst_mem_of_mem_zipIdx hmem)⟩
  refine ⟨_, ?_, applyOpts_eq htaken, fun l₁ l₂ l₃ x y heq hxy => ?_⟩
  · rw [parseLoop, Sieve.loop_eq (sorts_parseCommonOpt outside)]
    exact congrArg (Option.map _) (applyOpts_eq htaken)
  · rw [heq] at htaken ⊢
    obtain ⟨hrx, hpx⟩ := htaken x (by simp)
    obtain ⟨hry, hpy⟩ := htaken y (by simp)
    obtain ⟨u, hu⟩ := exists_setting hrx hpx x.2
    obtain ⟨v, hv⟩ := exists_setting hry hpy y.2
    have huv : u.opt = v.opt := by rw [opt_of_setting hrx hu, opt_of_setting hry hv, hxy]
    have hlast := Setting.foldl_set_of_opt_eq ((settings outside l₁).foldl Setting.set cfg)
      (settings outside l₂) (settings outside l₃) huv
    rw [applyOpts_eq fun opt hopt => htaken opt (by grind)]
    simp only [settings_append, settings_cons _ hu, settings_cons _ hv]
    rw [List.foldl_append, List.foldl_append (l := settings outside l₁)]
    exact congrArg some hlast.symm

/-- Options of both kinds, one of them twice. -/
theorem parseLoop_partitions_interleaved : ∃ cfg',
    parseLoop ⟨"", fun _ => 0⟩ .default [("-T", "5"), ("-t", "1"), ("-4", ""), ("-T", "7")] =
      some (4, cfg', [("-t", "1"), ("-4", "")]) := by
  have hparses : ∀ opt ∈ [("-T", "5"), ("-t", "1"), ("-4", ""), ("-T", "7")],
      Parses ⟨"", fun _ => 0⟩ opt := by
    simp only [List.forall_mem_cons, List.not_mem_nil, false_imp_iff, implies_true, and_true]
    exact ⟨fun _ _ => rfl, fun _ _ => rfl, fun _ _ => rfl, fun _ _ => rfl⟩
  obtain ⟨cfg', hloop, -⟩ := parseLoop_partitions ⟨"", fun _ => 0⟩ .default _ hparses
  exact ⟨cfg', hloop⟩

end VoipTests
