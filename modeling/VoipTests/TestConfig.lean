import VoipTests.PortRange

/-!
# VoipTests.TestConfig

The configuration of one test case: `fillhostport`, which plants random
media addresses and ports into an SDP body before it is sent, and
`checkhostport`, which tells whether a received body has been rewritten to
the RTP proxy's.

`fillhostport` and `checkhostport` are two loops over the sections with the
same transport filter, so each is described section by section:
`forall₂_filled_of_fillhostport` and `TcCfg.accepts_iff`.
-/

namespace VoipTests

/-! ## configuration data -/

/-- `AUTH_CREDS`: what a `MM_AUTH` scenario configures for one side. -/
structure AuthCreds where
  username : String
  password : String
  realm : Option String := none
  enalgs : List (Option String) :=
    [some "SHA-512-256-sess", some "SHA-256-sess", some "MD5-sess", none]
  deriving DecidableEq, Repr

/-- `test_case_config`: what one subtest is configured with. -/
structure TcCfg where
  atype : AType
  body : Option Sdp
  portrange : PortRange
  nhAddress : String × Int
  uasCreds : Option AuthCreds
  uacCreds : Option AuthCreds
  checkMediaIps : List String
  cli : Option String
  signallingOnly : Bool
  deriving DecidableEq

/-! ## planting random media addresses -/

/-- The media session name that marks an RTP-enabled call. -/
def sippyRtpOuser : String := "SippyRTP"

/-- Why a function that draws does not return: a loop still waits for a draw
it accepts, or a section has no `c=` header to write to. -/
inductive Halt where
  | looping
  | attributeError
  deriving DecidableEq, Repr

/-- The loop body of `fillhostport`. -/
def fillSection (pr : PortRange) (atype : AType) (sect : Section) (draws : List Draw) :
    Except Halt (Section × List Draw) :=
  if !sect.relevant then .ok (sect, draws)
  else match pr.gennotinrange draws with
    | none => .error .looping
    | some (portn, draws) => match genIP (some atype) draws with
      | none => .error .looping
      | some ((t, addr), rest) => match sect.cHeader with
        | none => .error .attributeError
        | some _ => .ok ({ sect.setPort portn with cHeader := some ⟨some t, addr⟩ }, rest)

/-- The loop of `fillhostport`. -/
def fillSections (pr : PortRange) (atype : AType) :
    List Section → List Draw → Except Halt (List Section × List Draw)
  | [], draws => .ok ([], draws)
  | sect :: sects, draws => match fillSection pr atype sect draws with
    | .error h => .error h
    | .ok (sect', draws') => match fillSections pr atype sects draws' with
      | .error h => .error h
      | .ok (sects', rest) => .ok (sect' :: sects', rest)

/-- `fillhostport`; `origin` is the fresh `SdpOrigin()`. -/
def fillhostport (sdp : Sdp) (pr : PortRange) (atype : AType) (signallingOnly : Bool)
    (origin : OHeader) (draws : List Draw) : Except Halt (Sdp × List Draw) :=
  match fillSections pr atype sdp.sections draws with
  | .error h => .error h
  | .ok (sections, rest) => .ok
      ({ oHeader := origin
         sHeader := if signallingOnly then sdp.sHeader else sippyRtpOuser
         sections := sections }, rest)

/-- What `fillhostport` does to one section: it leaves it alone, or plants
a port out of range and an address of the family asked for. -/
def Filled (pr : PortRange) (atype : AType) (sect sect' : Section) : Prop :=
  if sect.relevant then
    ∃ portn addr, pr.isinrange portn = false ∧
      sect' = { sect.setPort portn with cHeader := some ⟨some atype, addr⟩ }
  else sect' = sect

theorem filled_of_fillSection {pr : PortRange} {atype : AType} {sect sect' : Section}
    {draws rest : List Draw} (h : fillSection pr atype sect draws = .ok (sect', rest)) :
    Filled pr atype sect sect' := by
  rw [fillSection] at h
  by_cases hr : sect.relevant = true
  · rw [Filled, if_pos hr]
    simp only [hr, Bool.not_true, Bool.false_eq_true, if_false] at h
    split at h
    · contradiction
    · next portn draws₁ hport =>
      split at h
      · contradiction
      · next t addr draws₂ haddr =>
        split at h
        · contradiction
        · cases h
          rw [atype_of_genIP haddr]
          exact ⟨portn, addr, PortRange.not_isinrange_of_gennotinrange hport, rfl⟩
  · rw [Filled, if_neg hr]
    simp only [hr, Bool.not_false, if_true, Except.ok.injEq, Prod.mk.injEq] at h
    exact h.1.symm

theorem forall₂_filled_of_fillSections {pr : PortRange} {atype : AType}
    {sects sects' : List Section} {draws rest : List Draw}
    (h : fillSections pr atype sects draws = .ok (sects', rest)) :
    List.Forall₂ (Filled pr atype) sects sects' := by
  induction sects generalizing sects' draws with
  | nil =>
      cases h
      exact .nil
  | cons sect sects ih =>
      rw [fillSections] at h
      split at h
      · contradiction
      · next sect₁ draws₁ hsect =>
        split at h
        · contradiction
        · next sects₁ rest₁ hsects =>
          cases h
          exact .cons (filled_of_fillSection hsect) (ih hsects)

/-- **`fillhostport`, section by section**, whatever the draws. -/
theorem forall₂_filled_of_fillhostport {sdp sdp' : Sdp} {pr : PortRange} {atype : AType}
    {so : Bool} {origin : OHeader} {draws rest : List Draw}
    (h : fillhostport sdp pr atype so origin draws = .ok (sdp', rest)) :
    List.Forall₂ (Filled pr atype) sdp.sections sdp'.sections := by
  rw [fillhostport] at h
  split at h
  · contradiction
  · next hsects =>
    cases h
    exact forall₂_filled_of_fillSections hsects

/-! ## filling ends -/

/-- Every section with a checked transport has a `c=` header to write to. -/
def Sdp.Fillable (sdp : Sdp) : Prop :=
  ∀ sect ∈ sdp.sections, sect.relevant = true → sect.cHeader.isSome = true

theorem fair_fillSection {pr : PortRange} (hpr : pr.Leaves) (atype : AType) {sect : Section}
    (h : sect.relevant = true → sect.cHeader.isSome = true) :
    Supply.Fair fun draws => (fillSection pr atype sect draws).toOption := by
  by_cases hr : sect.relevant = true
  · obtain ⟨c, hc⟩ := Option.isSome_iff_exists.mp (h hr)
    have hfill (portn : Int) := (fair_genIP atype).map fun addr : AType × String =>
      { sect.setPort portn with cHeader := some ⟨some addr.1, addr.2⟩ }
    refine Supply.Fair.congr (fun draws => ?_) ((PortRange.fair_gennotinrange hpr).bind hfill)
    rw [fillSection, hr, hc]
    cases pr.gennotinrange draws with
    | none => rfl
    | some p =>
        dsimp only [Option.bind_some]
        cases genIP (some atype) p.2 <;> rfl
  · refine Supply.Fair.congr (fun draws => ?_) (Supply.Fair.pure sect)
    rw [fillSection, if_pos (by simp [hr])]
    rfl

theorem fair_fillSections {pr : PortRange} (hpr : pr.Leaves) (atype : AType)
    {sects : List Section}
    (h : ∀ sect ∈ sects, sect.relevant = true → sect.cHeader.isSome = true) :
    Supply.Fair fun draws => (fillSections pr atype sects draws).toOption := by
  induction sects with
  | nil => exact .pure []
  | cons sect sects ih =>
      rw [List.forall_mem_cons] at h
      have hrest (sect' : Section) := (ih h.2).map fun sects' => sect' :: sects'
      refine Supply.Fair.congr (fun draws => ?_) ((fair_fillSection hpr atype h.1).bind hrest)
      rw [fillSections]
      cases fillSection pr atype sect draws with
      | error e => rfl
      | ok p =>
          dsimp only [Except.toOption, Option.bind_some]
          cases fillSections pr atype sects p.2 <;> rfl

/-- **`fillhostport` finishes** on a body it can write to, as long as the range
leaves a port. -/
theorem fair_fillhostport {sdp : Sdp} {pr : PortRange} (hpr : pr.Leaves) (atype : AType)
    (so : Bool) (origin : OHeader) (h : sdp.Fillable) :
    Supply.Fair fun draws => (fillhostport sdp pr atype so origin draws).toOption := by
  refine Supply.Fair.congr (fun draws => ?_) ((fair_fillSections hpr atype h).map fun sects =>
    { oHeader := origin, sHeader := if so then sdp.sHeader else sippyRtpOuser, sections := sects })
  rw [fillhostport]
  cases fillSections pr atype sdp.sections draws <;> rfl

/-- A body with a section to fill has been filled only if there was a port. -/
theorem leaves_of_fillSections {pr : PortRange} {atype : AType} {sects sects' : List Section}
    {draws rest : List Draw} {sect : Section}
    (h : fillSections pr atype sects draws = .ok (sects', rest)) (hmem : sect ∈ sects)
    (hr : sect.relevant = true) : pr.Leaves := by
  induction sects generalizing sects' draws rest with
  | nil => cases hmem
  | cons sect₁ sects ih =>
      rw [fillSections] at h
      split at h
      · cases h
      · next sect₁' draws₁ hsect =>
        split at h
        · cases h
        · next sects₁ rest₁ hsects =>
          rcases List.mem_cons.mp hmem with rfl | hmem
          · rw [fillSection] at hsect
            simp only [hr, Bool.not_true, Bool.false_eq_true, if_false] at hsect
            split at hsect
            · cases hsect
            · next portn draws₂ hport => exact PortRange.leaves_of_gennotinrange hport
          · exact ih hsects hmem

/-! ## checking a received body -/

/-- The second component of the pair `checkhostport` returns: `'all good'`,
or one of its three complaints with the values it shows. -/
inductive Why where
  | allGood
  /-- `'not self.portrange.isinrange(%d)'` -/
  | notInRange (portn : Int)
  /-- `'expected IPv4 address (%s)'` -/
  | expectedIPv4 (checkMediaIps : List String)
  /-- `'expected IPv6 address %s or %s'` -/
  | expectedIPv6 (addr addrLong : String)
  deriving DecidableEq, Repr

/-- The pair returned by `checkhostport`. -/
def Why.result (w : Why) : Bool × Why := (decide (w = .allGood), w)

/-- The complaint of the loop body of `checkhostport` about a section with a
checked transport; `none` is the `AttributeError` of a missing `c=` header. -/
def TcCfg.complaint (cfg : TcCfg) (sect : Section) : Option Why :=
  if !cfg.portrange.isinrange sect.mHeader.port then some (.notInRange sect.mHeader.port)
  else match sect.cHeader with
    | none => none
    | some c =>
      if cfg.atype = .ip4 ∧ (c.atype ≠ some .ip4 ∨ c.addr ∉ cfg.checkMediaIps) ∧
          "*" ∉ cfg.checkMediaIps then
        some (.expectedIPv4 cfg.checkMediaIps)
      else if cfg.atype = .ip6 ∧
          (c.atype ≠ some .ip6 ∨ c.addr ∉ ["::1", "0:0:0:0:0:0:0:1"]) then
        some (.expectedIPv6 "::1" "0:0:0:0:0:0:0:1")
      else some .allGood

/-- The loop of `checkhostport`, which stops at the first complaint. -/
def TcCfg.checkSections (cfg : TcCfg) : List Section → Option Why
  | [] => some .allGood
  | sect :: sects =>
    if !sect.relevant then cfg.checkSections sects
    else match cfg.complaint sect with
      | some .allGood => cfg.checkSections sects
      | w => w

/-- `checkhostport`; `none` is an `AttributeError`. -/
def TcCfg.checkhostport (cfg : TcCfg) (sdp : Sdp) : Option (Bool × Why) :=
  (cfg.checkSections sdp.sections).map Why.result

/-- The body passes the check. -/
def TcCfg.Accepts (cfg : TcCfg) (sdp : Sdp) : Prop := cfg.checkhostport sdp = some (true, .allGood)

/-- The check returns a complaint. -/
def TcCfg.Rejects (cfg : TcCfg) (sdp : Sdp) : Prop := ∃ why, cfg.checkhostport sdp = some (false, why)

instance (cfg : TcCfg) (sdp : Sdp) : Decidable (cfg.Accepts sdp) :=
  inferInstanceAs (Decidable (cfg.checkhostport sdp = some (true, .allGood)))

theorem TcCfg.checkSections_eq_allGood_iff (cfg : TcCfg) (sects : List Section) :
    cfg.checkSections sects = some .allGood ↔
      ∀ sect ∈ sects, sect.relevant = true → cfg.complaint sect = some .allGood := by
  induction sects with
  | nil => simp [checkSections]
  | cons sect sects ih =>
      rw [checkSections, List.forall_mem_cons]
      by_cases hr : sect.relevant = true
      · simp only [hr, Bool.not_true, Bool.false_eq_true, if_false, true_imp_iff]
        split
        · next hw => simp [hw, ih]
        · next hw => exact ⟨fun h => (hw h).elim, And.left⟩
      · simp only [hr, Bool.not_false, if_true, ih]
        simp

/-- **`checkhostport`, section by section.** -/
theorem TcCfg.accepts_iff (cfg : TcCfg) (sdp : Sdp) :
    cfg.Accepts sdp ↔
      ∀ sect ∈ sdp.sections, sect.relevant = true → cfg.complaint sect = some .allGood := by
  rw [← checkSections_eq_allGood_iff, Accepts, checkhostport, Option.map_eq_some_iff]
  constructor
  · rintro ⟨w, hw, hres⟩
    simp only [Why.result, Prod.mk.injEq, decide_eq_true_eq] at hres
    rw [hw, hres.1]
  · intro h
    exact ⟨.allGood, h, rfl⟩

/-- The check accepts, rejects or raises. -/
theorem TcCfg.checkhostport_cases (cfg : TcCfg) (sdp : Sdp) :
    cfg.Accepts sdp ∨ cfg.Rejects sdp ∨ cfg.checkhostport sdp = none := by
  rcases hc : cfg.checkhostport sdp with _ | ⟨b, why⟩
  · exact .inr (.inr rfl)
  · cases b with
    | false => exact .inr (.inl ⟨why, hc⟩)
    | true =>
        simp only [checkhostport, Option.map_eq_some_iff, Why.result, Prod.mk.injEq] at hc
        obtain ⟨w, hw, hdec, rfl⟩ := hc
        rw [decide_eq_true_eq] at hdec
        left
        rw [Accepts, checkhostport, hw, hdec]
        rfl

/-! ## the configuration of a core -/

/-- `test_config`, as the command line and the environment leave it. -/
structure TestConfig where
  ttype : List AType
  body : Option Sdp
  portrange : PortRange
  tests : Option (List String)
  nhAddress4 : String × Int
  nhAddress6 : String × Int
  /-- `acfg.AUTH_CREDS()` -/
  acfg : Option AuthCreds
  /-- `bcfg.AUTH_CREDS()` -/
  bcfg : Option AuthCreds
  testsMightfail : List String
  signallingOnly : Bool
  /-- `os.environ['NH_MEDIA_IPS'].split(',')` -/
  nhMediaIps : Option (List String)

namespace TestConfig

/-- `nh_address` of a test case. -/
def nhAddress (tcfg : TestConfig) : AType → String × Int
  | .ip4 => tcfg.nhAddress4
  | .ip6 => tcfg.nhAddress6

/-- What `gen_tccfg` puts into a `test_case_config`. -/
def tccfg (tcfg : TestConfig) (atype : AType) (signallingOnly : Bool) (cli : Option String)
    (body : Option Sdp) : TcCfg where
  atype := atype
  body := body
  portrange := tcfg.portrange
  nhAddress := tcfg.nhAddress atype
  uasCreds := tcfg.bcfg
  uacCreds := tcfg.acfg
  checkMediaIps := tcfg.nhMediaIps.getD [(tcfg.nhAddress atype).1]
  cli := cli
  signallingOnly := signallingOnly

/-- `gen_tccfg`; `origin` is the fresh `SdpOrigin()`. -/
def genTccfg (tcfg : TestConfig) (atype : AType) (signallingOnly : Bool) (cli : Option String)
    (origin : OHeader) (draws : List Draw) : Except Halt (TcCfg × List Draw) :=
  match tcfg.body with
  | none => .ok (tcfg.tccfg atype signallingOnly cli none, draws)
  | some body => match fillhostport body tcfg.portrange atype signallingOnly origin draws with
    | .error h => .error h
    | .ok (body, rest) => .ok (tcfg.tccfg atype signallingOnly cli (some body), rest)

/-- **`gen_tccfg` finishes.** -/
theorem fair_genTccfg {tcfg : TestConfig} (hpr : tcfg.portrange.Leaves)
    (hbody : ∀ body, tcfg.body = some body → body.Fillable) (atype : AType) (so : Bool)
    (cli : Option String) (origin : OHeader) :
    Supply.Fair fun draws => (tcfg.genTccfg atype so cli origin draws).toOption := by
  cases hb : tcfg.body with
  | none =>
      refine Supply.Fair.congr (fun draws => ?_)
        (Supply.Fair.pure (tcfg.tccfg atype so cli none))
      rw [genTccfg, hb]
      rfl
  | some body =>
      refine Supply.Fair.congr (fun draws => ?_)
        ((fair_fillhostport hpr atype so origin (hbody body hb)).map fun sdp =>
          tcfg.tccfg atype so cli (some sdp))
      rw [genTccfg, hb]
      dsimp only
      cases fillhostport body tcfg.portrange atype so origin draws <;> rfl

end TestConfig

end VoipTests
