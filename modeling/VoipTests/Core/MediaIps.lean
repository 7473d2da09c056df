import VoipTests.Core.Options

/-!
# VoipTests.Core.MediaIps

Which media addresses are accepted: `NH_MEDIA_IPS`, or the next hop given with
`-n` and `-N`, against what `checkhostport` asks of a body.

The list is kept for both families, but only the branch for IPv4 looks at it:
the one for IPv6 asks for the loopback address.  `media_ips_honoured_iff` says
for which configurations that makes no difference.
-/

namespace VoipTests

/-- The addresses the IPv6 branch of `checkhostport` accepts. -/
def loopback6 : List String := ["::1", "0:0:0:0:0:0:0:1"]

/-- The host of a next hop without its brackets. -/
def hostOf (nh : String × Int) : String := if bracketed nh.1 then unbracket nh.1 else nh.1

/-- A host in brackets is not the host without them, nor the wildcard. -/
theorem unbracket_ne {host : String} (h : bracketed host = true) :
    unbracket host ≠ host ∧ host ≠ "*" := by
  simp only [bracketed, Bool.and_eq_true, decide_eq_true_eq] at h
  constructor
  · intro heq
    have hlen := congrArg (fun s => s.toList.length) heq
    have hne : host.toList ≠ [] := by
      intro hnil
      simp [hnil] at h
    have hpos := List.length_pos_iff.mpr hne
    simp only [unbracket, String.toList_ofList, List.length_dropLast, List.length_tail] at hlen
    omega
  · rintro rfl
    exact absurd h.1 (by decide)

namespace TestConfig

variable (tcfg : TestConfig)

/-- The address is one of those configured for a case of the family. -/
def Configured (atype : AType) (addr : String) : Prop :=
  match tcfg.nhMediaIps with
  | some ips => addr ∈ ips ∨ "*" ∈ ips
  | none => addr = hostOf (tcfg.nhAddress atype)

/-- The sections of the body that are checked ask for media of the family, at
a configured address and a port of the range. -/
def Proxied (atype : AType) (sdp : Sdp) : Prop :=
  ∀ sect ∈ sdp.sections, sect.relevant = true →
    tcfg.portrange.isinrange sect.mHeader.port = true ∧
      ∃ addr, sect.cHeader = some ⟨some atype, addr⟩ ∧ tcfg.Configured atype addr

/-- What has to be configured: for IPv4 no host in brackets stands for the
list, and for IPv6 there is nothing but the loopback address. -/
def Honours : AType → Prop
  | .ip4 => tcfg.nhMediaIps = none → bracketed tcfg.nhAddress4.1 = false
  | .ip6 => ∀ addr, tcfg.Configured .ip6 addr → addr ∈ loopback6

/-- What `checkhostport` asks of the address of a section. -/
def Allows : AType → String → Prop
  | .ip4, addr => addr ∈ tcfg.nhMediaIps.getD [tcfg.nhAddress4.1] ∨
      "*" ∈ tcfg.nhMediaIps.getD [tcfg.nhAddress4.1]
  | .ip6, addr => addr ∈ loopback6

variable {tcfg} {atype : AType} {so : Bool} {cli : Option String} {body : Option Sdp}

/-- A section whose port is in the range is judged by its address. -/
theorem complaint_eq_allGood_iff {sect : Section} {addr : String}
    (hport : tcfg.portrange.isinrange sect.mHeader.port = true)
    (hc : sect.cHeader = some ⟨some atype, addr⟩) :
    (tcfg.tccfg atype so cli body).complaint sect = some .allGood ↔ tcfg.Allows atype addr := by
  have hrange : (tcfg.tccfg atype so cli body).portrange = tcfg.portrange := rfl
  rw [TcCfg.complaint, hrange, hport, hc]
  cases atype with
  | ip4 =>
      have hips : (tcfg.tccfg .ip4 so cli body).checkMediaIps =
          tcfg.nhMediaIps.getD [tcfg.nhAddress4.1] := rfl
      have hfamily : (tcfg.tccfg .ip4 so cli body).atype = .ip4 := rfl
      simp only [hips, hfamily, Allows]
      by_cases haddr : addr ∈ tcfg.nhMediaIps.getD [tcfg.nhAddress4.1]
      · simp [haddr]
      · by_cases hstar : "*" ∈ tcfg.nhMediaIps.getD [tcfg.nhAddress4.1] <;> simp [haddr, hstar]
  | ip6 =>
      have hfamily : (tcfg.tccfg .ip6 so cli body).atype = .ip6 := rfl
      simp only [hfamily, Allows, loopback6]
      by_cases haddr : addr ∈ ["::1", "0:0:0:0:0:0:0:1"]
      · simp [haddr]
      · simp [haddr]

theorem relevant_audio {portn : Int} (c : Option CHeader) :
    (Section.mk ⟨"audio", portn, "RTP/AVP", []⟩ c []).relevant = true := by
  have hlower : lower "RTP/AVP" = "rtp/avp" := by decide
  simp [Section.relevant, hlower]

/-- A body with a single section, at an address of the family. -/
def bodyAt (portn : Int) (atype : AType) (addr : String) : Sdp where
  oHeader := ⟨0⟩
  sHeader := "-"
  sections := [⟨⟨"audio", portn, "RTP/AVP", []⟩, some ⟨some atype, addr⟩, []⟩]

/-- Every configured address is accepted if it is one that the code looks for;
and there is a port to send a body from unless the range is empty. -/
theorem accepts_of_proxied_iff : (∀ sdp, tcfg.Proxied atype sdp → (tcfg.tccfg atype so cli body).Accepts sdp) ↔
    (tcfg.portrange.minp ≤ tcfg.portrange.maxp →
      ∀ addr, tcfg.Configured atype addr → tcfg.Allows atype addr) := by
  constructor
  · intro h hle addr haddr
    have hport : tcfg.portrange.isinrange tcfg.portrange.minp = true := by
      rw [PortRange.isinrange, if_neg (by omega)]
    have hacc := h (bodyAt tcfg.portrange.minp atype addr) fun sect hsect _ => by
      rw [List.mem_singleton.mp hsect]
      exact ⟨hport, addr, rfl, haddr⟩
    rw [TcCfg.accepts_iff] at hacc
    exact (complaint_eq_allGood_iff hport rfl).mp (hacc _ (List.mem_singleton_self _) (relevant_audio _))
  · intro h sdp hsdp
    rw [TcCfg.accepts_iff]
    intro sect hsect hr
    obtain ⟨hport, addr, hc, haddr⟩ := hsdp sect hsect hr
    refine (complaint_eq_allGood_iff hport hc).mpr (h ?_ addr haddr)
    rw [PortRange.isinrange] at hport
    split at hport
    · cases hport
    · omega

theorem allows_of_configured_iff :
    (∀ addr, tcfg.Configured atype addr → tcfg.Allows atype addr) ↔ tcfg.Honours atype := by
  cases atype with
  | ip6 => exact Iff.rfl
  | ip4 =>
      unfold Configured Allows Honours
      cases hips : tcfg.nhMediaIps with
      | some ips => simp
      | none =>
          simp only [Option.getD_none, List.mem_singleton, true_imp_iff, nhAddress, hostOf]
          by_cases hb : bracketed tcfg.nhAddress4.1 = true
          · obtain ⟨hne, hstar⟩ := unbracket_ne hb
            simp [hb, hne, hstar.symm]
          · simp [hb]

/-- **When the configured media addresses are honoured**: whatever the bodies
and the order of their sections, exactly if for IPv4 the list is not a host in
brackets and for IPv6 it holds nothing but the loopback address (or no port is
in the range). -/
theorem media_ips_honoured_iff (tcfg : TestConfig) (atype : AType) (so : Bool) (cli : Option String)
    (body : Option Sdp) :
    (∀ sdp, tcfg.Proxied atype sdp → (tcfg.tccfg atype so cli body).Accepts sdp) ↔
      (tcfg.portrange.minp ≤ tcfg.portrange.maxp → tcfg.Honours atype) := by
  rw [accepts_of_proxied_iff, allows_of_configured_iff]

end TestConfig

/-- The next hop `[2001:db8::1]:5060`: a body from there is rejected. -/
theorem not_media_ips_honoured : ¬ ∀ (outside : OptEnv) (a : String) (cfg : Options),
    parseCommonOpt outside 0 .default "-N" a = some (true, cfg) →
      ∀ (nhMediaIps : Option (List String)) (so : Bool) (cli : Option String) (body : Option Sdp)
        (sdp : Sdp), (cfg.common none none nhMediaIps).testConfig.Proxied .ip6 sdp →
        ((cfg.common none none nhMediaIps).testConfig.tccfg .ip6 so cli body).Accepts sdp := by
  intro h
  have hparse : parseCommonOpt ⟨"", fun _ => 0⟩ 0 .default "-N" "[2001:db8::1]:5060" =
      some (true, { Options.default with nhAddress6 := ("[2001:db8::1]", 5060) }) := by
    decide +kernel
  have hallows := TestConfig.accepts_of_proxied_iff.mp (h _ _ _ hparse none false none none) (by decide)
  have hhost : hostOf ("[2001:db8::1]", 5060) = "2001:db8::1" := by decide
  have hmem : "2001:db8::1" ∈ loopback6 := hallows "2001:db8::1" hhost.symm
  exact absurd hmem (by decide)

end VoipTests
