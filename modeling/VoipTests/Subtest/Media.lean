import VoipTests.Subtest.Rtp

/-!
# VoipTests.Subtest.Media

The two scans of a body: `_rtp_pick_media`, which takes the peer's address and
the codec from a section, and `_rtp_apply_local_media`, which puts the local
address into one.

Both stop at the first section they accept, but only the first asks for a
codec.  They stop at the same section if the first audio section has one.
-/

namespace VoipTests

/-! ## where the scans stop -/

/-- What `_rtp_apply_local_media` makes of the section it stops at. -/
def Section.relocate (laddr : Option String) (lport : Int) (proto : Option AType)
    (sect : Section) : Section :=
  match laddr, sect.cHeader with
  | some laddr, some _ => { sect.setPort lport with cHeader := some ⟨proto, laddr⟩ }
  | _, _ => sect.setPort lport

/-- The same media, at the local address. -/
def Media.relocate (laddr : Option String) (lport : Int) (proto : Option AType) (m : Media) : Media :=
  match laddr with
  | some laddr => { m with target := (laddr, lport), proto := proto }
  | none => { m with target := (m.target.1, lport) }

variable {laddr : Option String} {lport : Int} {proto : Option AType} {sects pre post : List Section}
  {sect : Section} {m : Media}

theorem pickMedia_singleton : pickMedia [sect] = .ok (some m) ↔
    sect.isAudio = true ∧ ∃ codec c, sect.codec = some codec ∧ sect.cHeader = some c ∧
      m = ⟨(c.addr, sect.mHeader.port), codec, sect.ptime, c.atype⟩ := by
  by_cases ha : sect.isAudio = true
  · cases hc : sect.codec with
    | none => simp [pickMedia, ha, hc]
    | some codec => cases hh : sect.cHeader <;> simp [pickMedia, ha, hc, hh, eq_comm]
  · simp [pickMedia, ha]

theorem pickMedia_eq_none_iff : pickMedia sects = .ok none ↔
    ∀ sect ∈ sects, sect.isAudio = true → sect.codec = none := by
  induction sects with
  | nil => simp [pickMedia]
  | cons sect sects ih =>
      rw [pickMedia, List.forall_mem_cons]
      by_cases ha : sect.isAudio = true
      · cases hc : sect.codec with
        | none => simp [ha, ih]
        | some codec => cases sect.cHeader <;> simp [ha]
      · simp [ha, ih]

/-- What is passed over does not count. -/
theorem pickMedia_append (h : pickMedia pre = .ok none) :
    pickMedia (pre ++ post) = pickMedia post := by
  induction pre with
  | nil => rfl
  | cons sect pre ih =>
      rw [pickMedia_eq_none_iff, List.forall_mem_cons] at h
      have htail := ih (pickMedia_eq_none_iff.mpr h.2)
      rw [List.cons_append, pickMedia]
      by_cases ha : sect.isAudio = true
      · simp [h.1 ha, htail]
      · simp [ha, htail]

/-- What is behind the section that is picked does not count. -/
theorem pickMedia_cons (h : pickMedia [sect] = .ok (some m)) :
    pickMedia (sect :: post) = .ok (some m) := by
  obtain ⟨ha, codec, c, hc, hh, rfl⟩ := pickMedia_singleton.mp h
  simp [pickMedia, ha, hc, hh]

/-- **Where `_rtp_pick_media` stops.** -/
theorem pickMedia_eq_some_iff : pickMedia sects = .ok (some m) ↔
    ∃ pre sect post, sects = pre ++ sect :: post ∧ pickMedia pre = .ok none ∧
      pickMedia [sect] = .ok (some m) := by
  constructor
  · intro h
    induction sects with
    | nil => simp [pickMedia] at h
    | cons sect sects ih =>
        by_cases hp : sect.isAudio = true ∧ sect.codec.isSome = true
        · refine ⟨[], sect, sects, rfl, rfl, ?_⟩
          obtain ⟨codec, hc⟩ := Option.isSome_iff_exists.mp hp.2
          cases hh : sect.cHeader with
          | none => simp [pickMedia, hp.1, hc, hh] at h
          | some c => simpa [pickMedia, hp.1, hc, hh] using h
        · have hnone : pickMedia [sect] = .ok none := by
            rw [pickMedia_eq_none_iff]
            intro sect' hmem ha
            rw [List.mem_singleton.mp hmem] at ha ⊢
            simpa [ha] using hp
          rw [← List.singleton_append, pickMedia_append hnone] at h
          obtain ⟨pre, sect', post, rfl, hpre, hsect⟩ := ih h
          refine ⟨sect :: pre, sect', post, rfl, ?_, hsect⟩
          rw [← List.singleton_append, pickMedia_append hnone, hpre]
  · rintro ⟨pre, sect, post, rfl, hpre, hsect⟩
    rw [pickMedia_append hpre, pickMedia_cons hsect]

theorem applyLocalMedia_append (h : ∀ sect ∈ pre, sect.isAudio = false) :
    applyLocalMedia laddr lport proto (pre ++ post) =
      pre ++ applyLocalMedia laddr lport proto post := by
  induction pre with
  | nil => rfl
  | cons sect pre ih =>
      rw [List.forall_mem_cons] at h
      simp [applyLocalMedia, h.1, ih h.2]

theorem applyLocalMedia_cons (h : sect.isAudio = true) :
    applyLocalMedia laddr lport proto (sect :: post) =
      sect.relocate laddr lport proto :: post := by
  cases laddr <;> cases hh : sect.cHeader <;> simp [applyLocalMedia, Section.relocate, h, hh]

@[simp] theorem Section.port_relocate :
    (sect.relocate laddr lport proto).mHeader.port = lport := by
  cases laddr <;> cases hh : sect.cHeader <;> simp [Section.relocate, hh]

/-- A section that was picked is picked again, at the local address. -/
theorem pickMedia_relocate (h : pickMedia [sect] = .ok (some m)) :
    pickMedia [sect.relocate laddr lport proto] =
      .ok (some (m.relocate laddr lport proto)) := by
  obtain ⟨ha, codec, c, hc, hh, rfl⟩ := pickMedia_singleton.mp h
  have hsame (c' : Option CHeader) :
      ({ sect.setPort lport with cHeader := c' } : Section).isAudio = true ∧
        ({ sect.setPort lport with cHeader := c' } : Section).codec = some codec := ⟨ha, hc⟩
  rw [pickMedia_singleton]
  cases laddr with
  | none =>
      refine ⟨?_, codec, c, ?_, ?_, ?_⟩ <;> simp only [Section.relocate]
      · exact (hsame sect.cHeader).1
      · exact (hsame sect.cHeader).2
      · exact hh
      · rfl
  | some laddr =>
      refine ⟨?_, codec, ⟨proto, laddr⟩, ?_, ?_, ?_⟩ <;> simp only [Section.relocate, hh]
      · exact (hsame _).1
      · exact (hsame _).2
      · rfl

/-! ## agreement -/

/-- Media picked from a body come from the section that is rewritten: the
others stay as they are, and the same media are picked again. -/
def MediaAgrees (sdp : Sdp) (m : Media) : Prop :=
  ∃ pre sect post, sdp.sections = pre ++ sect :: post ∧ pickMedia pre = .ok none ∧
    pickMedia [sect] = .ok (some m) ∧ ∀ laddr lport proto,
      sdp.applyLocalMedia laddr lport proto =
          { sdp with sections := pre ++ sect.relocate laddr lport proto :: post } ∧
        pickMedia (sdp.applyLocalMedia laddr lport proto).sections =
          .ok (some (m.relocate laddr lport proto))

/-- The first audio section has a codec that is known. -/
def Sdp.FirstHasCodec (sdp : Sdp) : Prop :=
  ∀ sect ∈ sdp.sections.find? Section.isAudio, sect.codec.isSome = true

/-- The section that was picked is the first audio section, if that has a codec. -/
theorem not_isAudio_of_firstHasCodec {sdp : Sdp} (h : sdp.FirstHasCodec)
    (hs : sdp.sections = pre ++ sect :: post) (hpre : pickMedia pre = .ok none) :
    ∀ sect ∈ pre, sect.isAudio = false := by
  cases hf : pre.find? Section.isAudio with
  | none => simpa using List.find?_eq_none.mp hf
  | some sect' =>
      have hfirst : sdp.sections.find? Section.isAudio = some sect' := by
        rw [hs, List.find?_append, hf, Option.some_or]
      have hcodec := h sect' hfirst
      have hnone := pickMedia_eq_none_iff.mp hpre sect' (List.mem_of_find?_eq_some hf)
        (List.find?_some hf)
      simp [hnone] at hcodec

/-- **The two scans agree** on a body with media exactly if its first audio
section has a codec that is known. -/
theorem mediaAgrees_iff {sdp : Sdp} {m : Media} (h : pickMedia sdp.sections = .ok (some m)) :
    MediaAgrees sdp m ↔ sdp.FirstHasCodec := by
  constructor
  · rintro ⟨pre, sect, post, hs, hpre, hsect, hall⟩ first hfirst
    obtain ⟨haudio, l, l', hl, hskip⟩ := List.find?_eq_some_iff_append.mp hfirst
    by_contra hno
    have hnone : first.codec = none := by simpa using hno
    have hskip' : ∀ sect ∈ l, sect.isAudio = false := by simpa using hskip
    -- The first audio section stands before the one that was picked.
    have hlt : l.length < pre.length := by
      have hget : sdp.sections[pre.length]? = some sect := by simp [hs]
      obtain ⟨ha, codec, c, hc, -⟩ := pickMedia_singleton.mp hsect
      rw [hl] at hget
      by_contra hle
      rcases Nat.lt_or_eq_of_le (Nat.le_of_not_lt hle) with hlt | heq
      · rw [List.getElem?_append_left hlt] at hget
        have hskipped := hskip' sect (List.mem_of_getElem? hget)
        simp [ha] at hskipped
      · simp [heq] at hget
        simp [← hget, hnone] at hc
    -- It is left alone, and it gets a new port.
    have hkept : (sdp.applyLocalMedia none (first.mHeader.port + 1) none).sections[l.length]? =
        some first := by
      rw [(hall none _ none).1]
      rw [List.getElem?_append_left hlt]
      have hget : sdp.sections[l.length]? = some first := by simp [hl]
      rwa [hs, List.getElem?_append_left hlt] at hget
    have hmoved : (sdp.applyLocalMedia none (first.mHeader.port + 1) none).sections[l.length]? =
        some (first.relocate none (first.mHeader.port + 1) none) := by
      rw [Sdp.applyLocalMedia, hl, applyLocalMedia_append hskip', applyLocalMedia_cons haudio]
      simp
    rw [hmoved, Option.some.injEq] at hkept
    have hport := congrArg (fun sect : Section => sect.mHeader.port) hkept
    simp only [Section.port_relocate] at hport
    omega
  · intro hfirst
    obtain ⟨pre, sect, post, hs, hpre, hsect⟩ := pickMedia_eq_some_iff.mp h
    have hskip := not_isAudio_of_firstHasCodec hfirst hs hpre
    refine ⟨pre, sect, post, hs, hpre, hsect, fun laddr lport proto => ?_⟩
    have happly : sdp.applyLocalMedia laddr lport proto =
        { sdp with sections := pre ++ sect.relocate laddr lport proto :: post } := by
      rw [Sdp.applyLocalMedia, hs, applyLocalMedia_append hskip,
        applyLocalMedia_cons (pickMedia_singleton.mp hsect).1]
    refine ⟨happly, ?_⟩
    rw [happly, pickMedia_append hpre, pickMedia_cons (pickMedia_relocate hsect)]

namespace Sample

/-- An audio section with one payload. -/
def audio (port : Int) (payload : Nat) : Section :=
  ⟨⟨"audio", port, "RTP/AVP", [.num payload]⟩, some ⟨some .ip4, "192.0.2.1"⟩, []⟩

end Sample

/-- An audio section with another codec in front: its port is rewritten, and
the media are picked from the one behind it. -/
theorem not_mediaAgrees_unknown_first : ¬ ∀ (sdp : Sdp) (m : Media),
    pickMedia sdp.sections = .ok (some m) → MediaAgrees sdp m := by
  intro hall
  let sdp : Sdp := ⟨⟨0⟩, "-", [Sample.audio 4000 8, Sample.audio 4002 0]⟩
  obtain ⟨pre, sect, post, hs, hpre, hsect, happly⟩ := hall sdp
    ⟨("192.0.2.1", 4002), .g711, 20, some .ip4⟩ (by decide)
  obtain ⟨-, hpick⟩ := happly (some "127.0.0.1") 5000 (some .ip4)
  have hother : pickMedia (sdp.applyLocalMedia (some "127.0.0.1") 5000 (some .ip4)).sections =
      .ok (some ⟨("192.0.2.1", 4002), .g711, 20, some .ip4⟩) := by decide
  rw [hother] at hpick
  revert hpick
  decide

/-- A video section in front does not matter. -/
theorem mediaAgrees_video_first : MediaAgrees
    ⟨⟨0⟩, "-", [⟨⟨"video", 4000, "RTP/AVP", [.num 31]⟩, none, []⟩, Sample.audio 4002 0]⟩
    ⟨("192.0.2.1", 4002), .g711, 20, some .ip4⟩ := by
  refine (mediaAgrees_iff (by decide)).mpr ?_
  rintro sect ⟨⟩
  decide

end VoipTests
