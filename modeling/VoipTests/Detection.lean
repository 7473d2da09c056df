import VoipTests.TestConfig
import Mathlib.Data.Finset.Basic
import Mathlib.Order.Interval.Finset.Nat

/-!
# VoipTests.Detection

What the media check can tell: a body filled by `fillhostport` and then
rewritten in some of its sections passes `checkhostport` exactly when *all*
sections with a checked transport were rewritten.

An RTP proxy's rewriting of one section is a value of `ProxyMedia`, which
carries the proof that the port is in range and the address allowed;
`rewriteAt` applies such values at a set of section numbers.
-/

namespace VoipTests

/-! ## rewriting sections -/

/-- The addresses the check lets pass as the RTP proxy's. -/
def TcCfg.Allows (cfg : TcCfg) (addr : String) : Prop :=
  match cfg.atype with
  | .ip4 => "*" ∉ cfg.checkMediaIps ∧ addr ∈ cfg.checkMediaIps
  | .ip6 => addr ∈ ["::1", "0:0:0:0:0:0:0:1"]

/-- A port and an address as the RTP proxy would put them into a section. -/
structure ProxyMedia (cfg : TcCfg) where
  portn : Int
  addr : String
  inRange : cfg.portrange.isinrange portn = true
  allowed : cfg.Allows addr

/-- The section with the proxy's port and address. -/
def ProxyMedia.rewrite {cfg : TcCfg} (pm : ProxyMedia cfg) (sect : Section) : Section :=
  { sect.setPort pm.portn with cHeader := some ⟨some cfg.atype, pm.addr⟩ }

/-- The numbers of the sections whose transport is checked. -/
def Sdp.relevantIdx (sdp : Sdp) : Finset Nat :=
  (Finset.range sdp.sections.length).filter fun i => (sdp.sections[i]?.map Section.relevant) = some true

/-- The body with the sections of `S` rewritten, `media` telling how. -/
def Sdp.rewriteAt {cfg : TcCfg} (sdp : Sdp) (S : Finset Nat) (media : Nat → ProxyMedia cfg) : Sdp :=
  { sdp with sections := sdp.sections.mapIdx fun i sect => if i ∈ S then (media i).rewrite sect else sect }

theorem Sdp.mem_relevantIdx {sdp : Sdp} {i : Nat} :
    i ∈ sdp.relevantIdx ↔ ∃ sect, sdp.sections[i]? = some sect ∧ sect.relevant = true := by
  simp only [relevantIdx, Finset.mem_filter, Finset.mem_range, Option.map_eq_some_iff]
  constructor
  · exact And.right
  · rintro ⟨sect, hsect, hr⟩
    exact ⟨(List.getElem?_eq_some_iff.mp hsect).1, sect, hsect, hr⟩

/-- Rewriting keeps the transport, so it keeps which sections are checked. -/
@[simp] theorem ProxyMedia.relevant_rewrite {cfg : TcCfg} (pm : ProxyMedia cfg) (sect : Section) :
    (pm.rewrite sect).relevant = sect.relevant := rfl

/-- Nothing rewritten is the body itself. -/
@[simp] theorem Sdp.rewriteAt_empty {cfg : TcCfg} (sdp : Sdp) (media : Nat → ProxyMedia cfg) :
    sdp.rewriteAt ∅ media = sdp := by
  have h : sdp.sections.mapIdx (fun _ sect => sect) = sdp.sections :=
    List.ext_getElem? fun i => by simp
  simp [rewriteAt, h]

/-! ## one section -/

/-- The check has nothing to say about a rewritten section. -/
theorem ProxyMedia.complaint_rewrite {cfg : TcCfg} (pm : ProxyMedia cfg) (sect : Section) :
    cfg.complaint (pm.rewrite sect) = some .allGood := by
  obtain ⟨portn, addr, hport, haddr⟩ := pm
  cases hat : cfg.atype with
  | ip4 =>
      simp only [TcCfg.Allows, hat] at haddr
      simp [TcCfg.complaint, rewrite, Section.setPort, hport, hat, haddr.2]
  | ip6 =>
      simp only [TcCfg.Allows, hat] at haddr
      simp only [TcCfg.complaint, rewrite, Section.setPort, hport, hat, haddr]
      simp

/-- The check complains about the port of a section that was only filled. -/
theorem complaint_of_filled {cfg : TcCfg} {sect sect' : Section}
    (h : Filled cfg.portrange cfg.atype sect sect') (hr : sect.relevant = true) :
    cfg.complaint sect' = some (.notInRange sect'.mHeader.port) := by
  rw [Filled, if_pos hr] at h
  obtain ⟨portn, addr, hport, rfl⟩ := h
  simp [TcCfg.complaint, Section.setPort, hport]

/-- Filling keeps which sections are checked. -/
theorem relevant_of_filled {pr : PortRange} {atype : AType} {sect sect' : Section}
    (h : Filled pr atype sect sect') : sect'.relevant = sect.relevant := by
  rw [Filled] at h
  split at h
  · obtain ⟨portn, addr, -, rfl⟩ := h
    rfl
  · rw [h]

/-! ## whole bodies -/

/-- The check raises only over a missing `c=` header of a section with a
checked transport. -/
theorem TcCfg.checkhostport_ne_none {cfg : TcCfg} {sdp : Sdp}
    (h : ∀ sect ∈ sdp.sections, sect.relevant = true → cfg.complaint sect ≠ none) :
    cfg.checkhostport sdp ≠ none := by
  have hsects : ∀ sects : List Section, (∀ sect ∈ sects, sect.relevant = true →
      cfg.complaint sect ≠ none) → cfg.checkSections sects ≠ none := by
    intro sects
    induction sects with
    | nil => intro _; simp [checkSections]
    | cons sect sects ih =>
        intro hs
        rw [List.forall_mem_cons] at hs
        rw [checkSections]
        by_cases hr : sect.relevant = true
        · simp only [hr, Bool.not_true, Bool.false_eq_true, if_false]
          split
          · exact ih hs.2
          · exact hs.1 hr
        · simp only [hr, Bool.not_false, if_true]
          exact ih hs.2
  intro hnone
  rw [checkhostport, Option.map_eq_none_iff] at hnone
  exact hsects _ h hnone

section Filled

variable {cfg : TcCfg} {sdp sdp' : Sdp} {S : Finset Nat} {media : Nat → ProxyMedia cfg}

/-- A section of the rewritten body is a rewritten section, or one the check
complains about. -/
theorem complaint_rewriteAt
    (hfill : List.Forall₂ (Filled cfg.portrange cfg.atype) sdp.sections sdp'.sections)
    {i : Nat} {sect : Section} (hi : (sdp'.rewriteAt S media).sections[i]? = some sect)
    (hr : sect.relevant = true) :
    i ∈ sdp'.relevantIdx ∧ cfg.complaint sect =
      some (if i ∈ S then .allGood else .notInRange sect.mHeader.port) := by
  simp only [Sdp.rewriteAt, List.getElem?_mapIdx, Option.map_eq_some_iff] at hi
  obtain ⟨sect', hsect', rfl⟩ := hi
  have hr' : sect'.relevant = true := by
    split at hr
    · exact hr
    · exact hr
  refine ⟨Sdp.mem_relevantIdx.mpr ⟨sect', hsect', hr'⟩, ?_⟩
  by_cases hS : i ∈ S
  · rw [if_pos hS, if_pos hS, ProxyMedia.complaint_rewrite]
  · rw [if_neg hS, if_neg hS]
    obtain ⟨hlt, hget⟩ := List.getElem?_eq_some_iff.mp hsect'
    have hfilled := hfill.get (hfill.length_eq ▸ hlt) hlt
    simp only [List.get_eq_getElem, hget] at hfilled
    exact complaint_of_filled hfilled (relevant_of_filled hfilled ▸ hr')

/-- **Detection, as an equivalence.** -/
theorem accepts_rewriteAt_iff
    (hfill : List.Forall₂ (Filled cfg.portrange cfg.atype) sdp.sections sdp'.sections)
    (hS : S ⊆ sdp'.relevantIdx) :
    cfg.Accepts (sdp'.rewriteAt S media) ↔ S = sdp'.relevantIdx := by
  rw [TcCfg.accepts_iff]
  constructor
  · intro h
    refine Finset.Subset.antisymm hS fun i hi => ?_
    obtain ⟨sect, hsect, hr⟩ := Sdp.mem_relevantIdx.mp hi
    by_contra hnot
    have hi' : (sdp'.rewriteAt S media).sections[i]? = some sect := by
      simp [Sdp.rewriteAt, hsect, hnot]
    have hc := (complaint_rewriteAt hfill hi' hr).2
    rw [if_neg hnot, h sect (List.mem_of_getElem? hi') hr] at hc
    cases hc
  · intro hS' sect hsect hr
    obtain ⟨i, hi⟩ := List.getElem?_of_mem hsect
    obtain ⟨hmem, hc⟩ := complaint_rewriteAt hfill hi hr
    rw [hc, if_pos (hS' ▸ hmem)]

/-- A body that is not accepted is rejected, not stumbled over. -/
theorem rejects_rewriteAt
    (hfill : List.Forall₂ (Filled cfg.portrange cfg.atype) sdp.sections sdp'.sections)
    (hS : S ⊆ sdp'.relevantIdx) (hne : S ≠ sdp'.relevantIdx) :
    cfg.Rejects (sdp'.rewriteAt S media) := by
  rcases cfg.checkhostport_cases (sdp'.rewriteAt S media) with h | h | h
  · exact (hne ((accepts_rewriteAt_iff hfill hS).mp h)).elim
  · exact h
  · refine (TcCfg.checkhostport_ne_none (fun sect hsect hr => ?_) h).elim
    obtain ⟨i, hi⟩ := List.getElem?_of_mem hsect
    rw [(complaint_rewriteAt hfill hi hr).2]
    exact Option.some_ne_none _

end Filled

/-- **`checkhostport` detects a missing rewriting.**  Let `B` be a body
after `fillhostport`, whatever the draws, and `S` a set of its sections with
a checked transport.  With the sections of `S` rewritten, `B` is accepted if
and only if `S` is all of them; otherwise it is rejected.  In particular `B`
itself is rejected as soon as it has a section to check. -/
theorem checkhostport_detects {cfg : TcCfg} {sdp B : Sdp} {so : Bool} {origin : OHeader}
    {draws rest : List Draw} {S : Finset Nat} (media : Nat → ProxyMedia cfg)
    (hfill : fillhostport sdp cfg.portrange cfg.atype so origin draws = .ok (B, rest))
    (hS : S ⊆ B.relevantIdx) :
    (cfg.Accepts (B.rewriteAt S media) ↔ S = B.relevantIdx) ∧
    (S ≠ B.relevantIdx → cfg.Rejects (B.rewriteAt S media)) ∧
    ((∃ sect ∈ sdp.sections, sect.relevant = true) → cfg.Rejects B) := by
  have hf := forall₂_filled_of_fillhostport hfill
  refine ⟨accepts_rewriteAt_iff hf hS, rejects_rewriteAt hf hS, ?_⟩
  rintro ⟨sect, hsect, hr⟩
  obtain ⟨i, hi⟩ := List.getElem?_of_mem hsect
  have hne : B.relevantIdx ≠ ∅ := by
    obtain ⟨hlt, hget⟩ := List.getElem?_eq_some_iff.mp hi
    have hfilled := hf.get hlt (hf.length_eq ▸ hlt)
    simp only [List.get_eq_getElem, hget] at hfilled
    have hmem : i ∈ B.relevantIdx := Sdp.mem_relevantIdx.mpr
      ⟨_, List.getElem?_eq_getElem (hf.length_eq ▸ hlt), by rw [relevant_of_filled hfilled, hr]⟩
    exact Finset.ne_empty_of_mem hmem
  have h : cfg.Rejects (B.rewriteAt ∅ media) :=
    rejects_rewriteAt hf (Finset.empty_subset _) hne.symm
  rwa [Sdp.rewriteAt_empty] at h

/-- An IPv6 test case with the default port range. -/
private def audioCfg : TcCfg :=
  { atype := .ip6, body := none, portrange := .default
    nhAddress := ("[::1]", 5060), uasCreds := none, uacCreds := none, checkMediaIps := ["[::1]"]
    cli := none, signallingOnly := false }

/-- A body with one audio section. -/
private def audioBody (port : Int) (atype : AType) (addr : String) : Sdp :=
  ⟨⟨0⟩, "-", [⟨⟨"audio", port, "RTP/AVP", [.num 0]⟩, some ⟨some atype, addr⟩, []⟩]⟩

theorem checkhostport_detects_audio :
    ∃ B rest, fillhostport (audioBody 16474 .ip4 "192.168.22.95") audioCfg.portrange audioCfg.atype
        true ⟨0⟩ (List.replicate 15 .half) = .ok (B, rest) ∧ audioCfg.Rejects B := by
  have hfill : fillhostport (audioBody 16474 .ip4 "192.168.22.95") audioCfg.portrange audioCfg.atype
      true ⟨0⟩ (List.replicate 15 .half) =
      .ok (audioBody 32766 .ip6 "2001:8000:8000:8000:8000:8000:8000:8000", []) := by decide +kernel
  have hallow : audioCfg.Allows "::1" := List.mem_cons_self
  let media : Nat → ProxyMedia audioCfg := fun _ => ⟨12000, "::1", by decide, hallow⟩
  exact ⟨_, _, hfill, (checkhostport_detects media hfill (Finset.empty_subset _)).2.2
    ⟨_, List.mem_cons_self, by decide⟩⟩

end VoipTests
