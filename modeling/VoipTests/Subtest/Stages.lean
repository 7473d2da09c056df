import VoipTests.Lib.Stage
import VoipTests.Subtest.Life

/-!
# VoipTests.Subtest.Stages

What a subtest sends, one callback at a time.

Every callback calls its UA at most once (`VoipTests.Lib.Stage`).  `Sends` has
one constructor for each place in the code that hands an event to the UA, with
the guards it stands behind and what the event carries; a callback that sends
nothing is within `Silent`, and `Tail` is what is left to be done when the UA
returns.  This module has the judgement `Strides`, its rules and the programs
that handle media; `VoipTests.Subtest.Strides` has the callbacks of the classes.
-/

namespace VoipTests

open Callback

/-! ## media -/

/-- The port of the first audio section. -/
def Sdp.audioPort (sdp : Sdp) : Option Int :=
  (sdp.sections.find? Section.isAudio).map fun sect => sect.mHeader.port

/-- The body asks for audio on this port, if for any. -/
def Sdp.Advertises (sdp : Sdp) (port : Int) : Prop := ∀ p, sdp.audioPort = some p → p = port

@[simp] theorem isAudio_setPort (sect : Section) (port : Int) :
    (sect.setPort port).isAudio = sect.isAudio := rfl

theorem Sdp.advertises_applyLocalMedia (sdp : Sdp) (laddr : Option String) (lport : Int)
    (proto : Option AType) : (sdp.applyLocalMedia laddr lport proto).Advertises lport := by
  have hsects (sects : List Section) : ∀ p, ((VoipTests.applyLocalMedia laddr lport proto sects).find?
      Section.isAudio).map (fun sect => sect.mHeader.port) = some p → p = lport := by
    induction sects with
    | nil => simp [VoipTests.applyLocalMedia]
    | cons sect sects ih =>
        unfold VoipTests.applyLocalMedia
        by_cases ha : sect.isAudio = true
        · have hport (sect' : Section) (h' : sect'.isAudio = true) (hp : sect'.mHeader.port = lport) :
              ∀ p, ((sect' :: sects).find? Section.isAudio).map (fun sect => sect.mHeader.port) =
                some p → p = lport := by
            simp [h', hp]
          rw [if_neg (by simp [ha])]
          split
          · exact hport _ ha rfl
          · exact hport _ ha rfl
        · rw [if_pos (by simpa using ha), List.find?_cons_of_neg (by simpa using ha)]
          exact ih
  exact hsects sdp.sections

/-- What becomes of the endpoint as a body is handled: one is created if there
is none, and one that is there keeps its port. -/
structure Rtp.Follows (rtp rtp' : Rtp) : Prop where
  inited : rtp'.inited = rtp.inited
  enabled : rtp'.enabled = rtp.enabled
  closing : rtp'.closing = rtp.closing
  ep : (rtp.ep = none ∧ rtp.enabled = true ∧ rtp'.ep.isSome = true ∧
      rtp'.ops = rtp.ops ++ [.created]) ∨
    (rtp'.ep.map Endpoint.lport = rtp.ep.map Endpoint.lport ∧ rtp'.ops = rtp.ops)

namespace Rtp.Follows

variable {rtp₁ rtp₂ rtp₃ : Rtp}

theorem refl (rtp : Rtp) : rtp.Follows rtp := ⟨rfl, rfl, rfl, .inr ⟨rfl, rfl⟩⟩

theorem trans (h₁ : rtp₁.Follows rtp₂) (h₂ : rtp₂.Follows rtp₃) : rtp₁.Follows rtp₃ := by
  refine ⟨h₂.inited.trans h₁.inited, h₂.enabled.trans h₁.enabled, h₂.closing.trans h₁.closing, ?_⟩
  obtain ⟨hn, he, hs, hops⟩ | ⟨hep, hops⟩ := h₁.ep
  · obtain ⟨hn', -⟩ | ⟨hep', hops'⟩ := h₂.ep
    · rw [hn'] at hs
      cases hs
    · refine .inl ⟨hn, he, ?_, hops'.trans hops⟩
      have hsome := congrArg Option.isSome hep'
      rwa [Option.isSome_map, Option.isSome_map, hs] at hsome
  · obtain ⟨hn', he', hs', hops'⟩ | ⟨hep', hops'⟩ := h₂.ep
    · refine .inl ⟨?_, h₁.enabled ▸ he', hs', hops' ▸ hops ▸ rfl⟩
      rw [hn', Option.map_none] at hep
      exact Option.map_eq_none_iff.mp hep.symm
    · exact .inr ⟨hep'.trans hep, hops'.trans hops⟩

end Rtp.Follows

/-! ## stretches -/

/-- A flag or a count that a stretch enters in the chronicle. -/
def Obs.isMark : Obs → Bool
  | connectDone | disconnectDone | held _ | restored => true
  | _ => false

namespace Subtest

variable (s s' : Subtest)

/-- What every stretch leaves as it is, but for the timers `ts` it sets. -/
structure Stays (ts : List Timer) : Prop where
  cls : s'.cls = s.cls
  tccfg : s'.tccfg = s.tccfg
  log : ∃ l, s'.log = s.log ++ l ∧ ∀ o ∈ l, o.isMark = true
  timers : s'.timers = s.timers ++ ts

/-- What a stretch that goes on to send something leaves as it is: the media
may have been set up, and the ports in `ua.lSDP` are the same. -/
structure Leads (ts : List Timer) : Prop extends s.Stays s' ts where
  connectDone : s'.connectDone = s.connectDone
  disconnectDone : s'.disconnectDone = s.disconnectDone
  report : s'.report = s.report
  lSDP : s'.ua.lSDP.map Sdp.audioPort = s.ua.lSDP.map Sdp.audioPort
  rtp : s.rtp.Follows s'.rtp

/-- What `alldone` does to the endpoint: nothing when it raises before, and
else what `done` does. -/
def Closes : Prop :=
  s'.rtp = s.rtp ∧ s'.report = s.report ∨ s.doneCalled = false ∧
    s'.rtp = if s.tccfg.signallingOnly then s.rtp else s.rtp.shutdown s.env

/-- A body that is sent asks for media where the endpoint listens. -/
def Advertises (body : Option Sdp) : Prop :=
  s.rtp.enabled = true → ∃ e sdp, s.rtp.ep = some e ∧ body = some sdp ∧ sdp.Advertises e.lport

end Subtest

/-- The timers a callback may set, but for those that are set as an event is
sent. -/
def Cb.Sets (s : Subtest) : Cb → Timer → Prop
  | event ev, t => (ev.isUpdate = true ∧ t.cb = .processReinvite ∧ 0 < s.cls.reinvAnswDelay) ∨
      (s.cls.isAlice = true ∧ (t.cb = .reinvite ∨ t.cb = .offHold))
  | connected, t => s.cls.isAlice = true ∧ (t.cb = .disconnect ∨ t.cb = .reinvite)
  | timer _, t => s.cls.isAlice = true ∧ t.cb = .disconnect
  | _, _ => False

/-- A stretch of the callback `cb` that sends nothing. -/
structure Silent (cb : Cb) (s s' : Subtest) : Prop where
  stays : ∃ ts, s.Stays s' ts ∧ ∀ t ∈ ts, cb.Sets s t
  connectDone : s'.connectDone = s.connectDone ∨
    (s.cls.isAlice = true ∨ s.cls.isA .testEarlyCancel = true)
  disconnectDone : s.disconnectDone = true → s'.disconnectDone = true
  lSDP : s'.ua.lSDP.map Sdp.audioPort = s.ua.lSDP.map Sdp.audioPort
  rtp : match cb with
    | .dead => s.Closes s'
    | _ => s.rtp.Follows s'.rtp ∧ s'.report = s.report

/-- The class answers a re-INVITE, and at once. -/
def PyClass.answers (cls : PyClass) : Bool :=
  cls.isA .testReinvite && (cls.isA (.b .reinvBrkn1) ||
    !cls.isA (.b .reinvFail) && decide (cls.reinvAnswDelay ≤ 0))

/-- The ports of a re-INVITE that this timer sends are new. -/
def Subtest.Alters (s : Subtest) (t : Timer) : Prop :=
  t.cb = .reinvite ∧ s.cls.isA (.a .reinvOnhold) = false

/-- The stretch of the callback `cb` from `s` to `s'`, where it hands the event
`ev` to the UA. -/
inductive Sends (s : Subtest) : Cb → CCEvent → Subtest → Prop
  /-- `b_test1.ring`, `b_test2.ring` -/
  | ring {t : Timer} {code : Nat} {reason : String} {body : Option Sdp} {ival : ℚ} {s' : Subtest}
      (ht : t.cb = .ring) (ha : s.cls.isAlice = false)
      (hd : s.connectDone = false ∧ s.disconnectDone = false)
      (hs : s.Leads s' [⟨.connect, ival⟩])
      (hbody : body = none ∨ s.cls.isA (.b .t2) = true ∧ s'.Advertises body) :
      Sends s (.timer t) (.ring code reason body) s'
  /-- `b_test4.ring` -/
  | failRing {t : Timer} {code : Nat} {reason : String} {s' : Subtest} (ht : t.cb = .ring)
      (hc : s.cls.isA (.b .t4) = true) (hd : s.connectDone = false ∧ s.disconnectDone = false)
      (hs : s.Leads s' []) : Sends s (.timer t) (.fail code reason) s'
  /-- `b_test1.connect` -/
  | connect {t : Timer} {code : Nat} {reason : String} {body : Option Sdp} {ival : ℚ} {s' : Subtest}
      (ht : t.cb = .connect) (ha : s.cls.isAlice = false)
      (hd : s.connectDone = false ∧ s.disconnectDone = false)
      (hs : s.Leads s' [⟨.disconnect, ival⟩]) (hbody : s'.Advertises body) :
      Sends s (.timer t) (.connect code reason body) s'
  /-- `b_test3.connect`, `b_test5.connect` -/
  | failConnect {t : Timer} {code : Nat} {reason : String} {s' : Subtest} (ht : t.cb = .connect)
      (hc : s.cls.isA (.b .t3) = true ∨ s.cls.isA (.b .t5) = true)
      (hd : s.connectDone = false ∧ (s.cls.isA (.b .t3) = false → s.disconnectDone = false))
      (hs : s.Leads s' []) : Sends s (.timer t) (.fail code reason) s'
  /-- `disconnect` and `cancel` -/
  | hangUp {t : Timer} {s' : Subtest} (ht : t.cb = .disconnect ∨ t.cb = .cancel)
      (hd : s.disconnectDone = false) (hs : s.Leads s' []) : Sends s (.timer t) .disconnect s'
  /-- `reinvite` and `off_hold` -/
  | reinvite {t : Timer} {lSDP sdp : Sdp} {s' : Subtest} (ht : t.cb = .reinvite ∨ t.cb = .offHold)
      (hd : s.connectDone = true ∧ s.disconnectDone = false) (hs : s.Leads s' [])
      (hrtp : s'.rtp = s.rtp) (hl : s.ua.lSDP = some lSDP) (hsdp : s.Alters t ∨ sdp.audioPort = lSDP.audioPort) :
      Sends s (.timer t) (.update (some sdp)) s'
  /-- The answer to a re-INVITE. -/
  | answer {cb : Cb} {code : Nat} {reason : String} {sdp : Sdp} {s' : Subtest}
      (hcb : (∃ t, cb = .timer t ∧ t.cb = .processReinvite) ∨
        (∃ body, cb = .event (.update body)) ∧ s.cls.answers = true)
      (hl : s.ua.lSDP.isSome = true) (hs : s.Leads s' []) (hrtp : s'.rtp = s.rtp) :
      Sends s cb (.connect code reason (some sdp)) s'
  /-- `b_test_reinv_fail.recvEvent` -/
  | refuse {body : Option Sdp} {code : Nat} {reason : String} {s' : Subtest}
      (hc : s.cls.isA (.b .reinvFail) = true) (hs : s.Leads s' []) :
      Sends s (.event (.update body)) (.fail code reason) s'

/-- How the first stretch of a callback stops. -/
def Stretch (cb : Cb) (s : Subtest) : Stop Exc UaCall Unit → Subtest → Prop
  | .call (.recvEvent ev), s' => Sends s cb ev s'
  | .call .recvRequest, _ => False
  | _, s' => Silent cb s s'

namespace UaCall

/-- A call with an event that ends the attempt to set up a call, by one of the
two timers that do so. -/
def Settles (c : UaCall) (s₀ : Subtest) : Prop :=
  (∃ ev, c = recvEvent ev ∧ (ev.isConnect = true ∨ ev.isFailure = true)) ∧
    (s₀.last = some (.fired .ring) ∨ s₀.last = some (.fired .connect))

/-- The timers that are set when a call returns. -/
def Sets (s₀ : Subtest) : UaCall → List Timer → Prop
  | recvRequest, ts =>
    ts.length ≤ 1 ∧ ∀ t ∈ ts, t.cb = .reinvite ∧ s₀.cls.isA .testReinvite = true
  | recvEvent (.ccTry ..), ts => ∀ t ∈ ts, t.cb = .cancel
  | recvEvent (.update _), ts => ∀ t ∈ ts, t.cb = .disconnect ∧ s₀.cls.isAlice = true
  | _, ts => ts = []

end UaCall

/-- What is left to be done once the call `c` returns that was made in `s₀`. -/
structure Tail (c : UaCall) (s₀ s s' : Subtest) : Prop where
  stays : ∃ ts, s.Stays s' ts ∧ c.Sets s₀ ts
  connectDone : s'.connectDone = s.connectDone ∨ c.Settles s₀
  disconnectDone : s'.disconnectDone = s.disconnectDone
  report : s'.report = s.report
  lSDP : s'.ua.lSDP.map Sdp.audioPort = s.ua.lSDP.map Sdp.audioPort ∨
    s'.ua.lSDP.map Sdp.audioPort = s₀.ua.lSDP.map Sdp.audioPort ∧ s₀.ua.lSDP.isSome = true
  rtp : s'.rtp = s.rtp ∨ s'.rtp = { s.rtp with enabled := false } ∧
    (s₀.cls.isA (.a .t13) = true ∨ s₀.cls.isA (.a .t14) = true)

/-! ## rules -/

section Rules

variable {s s' s₁ s₂ s₃ : Subtest} {ts ts' : List Timer} {cb : Cb}

namespace Subtest

theorem Stays.refl (s : Subtest) : s.Stays s [] := ⟨rfl, rfl, ⟨[], by simp⟩, by simp⟩

theorem Stays.trans (h : s₁.Stays s₂ ts) (h' : s₂.Stays s₃ ts') : s₁.Stays s₃ (ts ++ ts') := by
  obtain ⟨l, hl, hmark⟩ := h.log
  obtain ⟨l', hl', hmark'⟩ := h'.log
  refine ⟨h'.cls.trans h.cls, h'.tccfg.trans h.tccfg, ⟨l ++ l', ?_, fun o ho => ?_⟩, ?_⟩
  · rw [hl', hl, List.append_assoc]
  · exact (List.mem_append.mp ho).elim (hmark o) (hmark' o)
  · rw [h'.timers, h.timers, List.append_assoc]

theorem Leads.refl (s : Subtest) : s.Leads s [] := ⟨.refl s, rfl, rfl, rfl, rfl, .refl _⟩

theorem Leads.trans (h : s₁.Leads s₂ ts) (h' : s₂.Leads s₃ ts') : s₁.Leads s₃ (ts ++ ts') :=
  ⟨h.toStays.trans h'.toStays, h'.connectDone.trans h.connectDone,
    h'.disconnectDone.trans h.disconnectDone, h'.report.trans h.report, h'.lSDP.trans h.lSDP,
    h.rtp.trans h'.rtp⟩

/-- Only attributes have changed that no stretch is judged by. -/
theorem Leads.same (hcls : s'.cls = s.cls) (htccfg : s'.tccfg = s.tccfg) (hlog : s'.log = s.log)
    (htimers : s'.timers = s.timers) (hcon : s'.connectDone = s.connectDone)
    (hdis : s'.disconnectDone = s.disconnectDone) (hrep : s'.report = s.report)
    (hl : s'.ua.lSDP = s.ua.lSDP) (hrtp : s'.rtp = s.rtp) : s.Leads s' [] :=
  ⟨⟨hcls, htccfg, ⟨[], by simp [hlog]⟩, by simp [htimers]⟩, hcon, hdis, hrep, congrArg _ hl,
    hrtp ▸ .refl _⟩

/-- A timer is set, and nothing else. -/
theorem Leads.timer (t : Timer) : s.Leads (s.withTimer t) [t] :=
  ⟨⟨rfl, rfl, ⟨[], by simp [withTimer]⟩, rfl⟩, rfl, rfl, rfl, rfl, .refl _⟩

/-- What is known of the body in `ua.lSDP` from what it was. -/
theorem Leads.exists_lSDP {lSDP : Sdp} (h : s₁.Leads s₂ ts) (hl : s₂.ua.lSDP = some lSDP) :
    ∃ lSDP₁, s₁.ua.lSDP = some lSDP₁ ∧ lSDP₁.audioPort = lSDP.audioPort := by
  have heq := h.lSDP
  rw [hl, Option.map_some] at heq
  exact Option.map_eq_some_iff.mp heq.symm

end Subtest

theorem Silent.of_leads (hcb : cb ≠ .dead) (h : s.Leads s₁ ts) (hts : ∀ t ∈ ts, cb.Sets s t) :
    Silent cb s s₁ where
  stays := ⟨ts, h.toStays, hts⟩
  connectDone := .inl h.connectDone
  disconnectDone hd := h.disconnectDone.trans hd
  lSDP := h.lSDP
  rtp := by
    cases cb with
    | dead => exact (hcb rfl).elim
    | _ => exact ⟨h.rtp, h.report⟩

theorem Silent.trans (hcb : cb ≠ .dead) (h : Silent cb s s₁) (h' : Silent cb s₁ s₂) :
    Silent cb s s₂ := by
  obtain ⟨ts, hts, hset⟩ := h.stays
  obtain ⟨ts', hts', hset'⟩ := h'.stays
  refine ⟨⟨ts ++ ts', hts.trans hts', fun t ht => ?_⟩, ?_,
    fun hd => h'.disconnectDone (h.disconnectDone hd), h'.lSDP.trans h.lSDP, ?_⟩
  · rcases List.mem_append.mp ht with ht | ht
    · exact hset t ht
    · have hset₁ := hset' t ht
      unfold Cb.Sets at hset₁ ⊢
      rwa [hts.cls] at hset₁
  · rcases h'.connectDone with hc | hc
    · rw [hc]
      exact h.connectDone
    · rw [hts.cls] at hc
      exact .inr hc
  · have hrtp := h.rtp
    have hrtp' := h'.rtp
    cases cb with
    | dead => exact (hcb rfl).elim
    | _ => exact ⟨hrtp.1.trans hrtp'.1, hrtp'.2.trans hrtp.2⟩

/-- What has been done so far can be put in front. -/
theorem Stretch.of_leads {stop : Stop Exc UaCall Unit} (hcb : cb ≠ .dead) (h : s.Leads s₁ [])
    (hrtp : s₁.rtp = s.rtp) (h' : Stretch cb s₁ stop s₂) : Stretch cb s stop s₂ := by
  have hsilent (h' : Silent cb s₁ s₂) : Silent cb s s₂ :=
    (Silent.of_leads hcb h (by simp)).trans hcb h'
  cases stop with
  | ret a => exact hsilent h'
  | raise e => exact hsilent h'
  | call c =>
      cases c with
      | recvRequest => exact h'.elim
      | recvEvent ev =>
          have hcon := h.connectDone
          have hdis := h.disconnectDone
          have hcls := h.cls
          cases h' with
          | ring ht ha hd hs hbody =>
              rw [hcls] at ha hbody
              exact .ring ht ha (by rwa [← hcon, ← hdis]) (h.trans hs) hbody
          | failRing ht hc hd hs =>
              rw [hcls] at hc
              exact .failRing ht hc (by rwa [← hcon, ← hdis]) (h.trans hs)
          | connect ht ha hd hs hbody =>
              rw [hcls] at ha
              exact .connect ht ha (by rwa [← hcon, ← hdis]) (h.trans hs) hbody
          | failConnect ht hc hd hs =>
              rw [hcls] at hc
              exact .failConnect ht hc (by rwa [← hcon, ← hdis, ← hcls]) (h.trans hs)
          | hangUp ht hd hs => exact .hangUp ht (hdis.symm.trans hd) (h.trans hs)
          | reinvite ht hd hs hr hl hsdp =>
              obtain ⟨lSDP₁, hl₁, hport⟩ := h.exists_lSDP hl
              refine .reinvite ht (by rwa [← hcon, ← hdis]) (h.trans hs) (hr.trans hrtp) hl₁ ?_
              rw [hport]
              unfold Subtest.Alters at hsdp ⊢
              rwa [← hcls]
          | answer hcb' hl hs hr =>
              rw [hcls] at hcb'
              refine .answer hcb' ?_ (h.trans hs) (hr.trans hrtp)
              have hsome := congrArg Option.isSome h.lSDP
              rwa [Option.isSome_map, Option.isSome_map, hl, eq_comm] at hsome
          | refuse hc hs =>
              rw [hcls] at hc
              exact .refuse hc (h.trans hs)

/-- A callback, or what is left of it in the middle of its first stretch, that
has begun in `s`. -/
abbrev Strides (cb : Cb) (s : Subtest) (o : Out Subtest Exc UaCall Unit) : Prop :=
  o.Once (Stretch cb s) Tail

theorem Strides.of_leads {o : Out Subtest Exc UaCall Unit} (hcb : cb ≠ .dead) (h : s.Leads s₁ [])
    (hrtp : s₁.rtp = s.rtp) (ho : Strides cb s₁ o) : Strides cb s o :=
  ho.mono fun _ _ => Stretch.of_leads hcb h hrtp

theorem Strides.ret (hcb : cb ≠ .dead) : Strides cb s (.ret () s) :=
  Silent.of_leads hcb (.refl s) (by simp)

theorem Strides.raise {e : Exc} (hcb : cb ≠ .dead) : Strides cb s (.raise e s) :=
  Silent.of_leads hcb (.refl s) (by simp)

/-- Code that does not call out. -/
theorem Strides.of_until {o : Out Subtest Exc UaCall Unit} (h : o.Until fun
      | .call _, _ => False
      | _, s' => Silent cb s s') : Strides cb s o := by
  cases o with
  | ret a s' => exact h
  | raise e s' => exact h
  | call c s' k => exact h.elim
  | spin => exact trivial

/-- Reading the object. -/
theorem Strides.get {f : Subtest → M Unit} (h : Strides cb s (f s₁ s₁)) :
    Strides cb s ((M.get >>= f) s₁) := h

theorem Strides.ite {c : Prop} [Decidable c] {p q : M Unit} (hp : c → Strides cb s (p s₁))
    (hq : ¬ c → Strides cb s (q s₁)) : Strides cb s ((if c then p else q) s₁) := by
  split
  · next h => exact hp h
  · next h => exact hq h

/-- An attribute of something that may be `None`. -/
theorem Strides.ofSome {α : Type} {o : Option α} {f : α → M Unit} (hcb : cb ≠ .dead)
    (h : ∀ a, o = some a → Strides cb s (f a s)) : Strides cb s ((M.ofSome o >>= f) s) := by
  cases o with
  | none => exact .raise hcb
  | some a => exact h a rfl

theorem Tail.refl {c : UaCall} {s₀ : Subtest} (hts : c.Sets s₀ []) : Tail c s₀ s s :=
  ⟨⟨[], .refl s, hts⟩, .inl rfl, rfl, rfl, .inl rfl, .inl rfl⟩

end Rules

/-! ## media programs -/

/-- The media may have been set up, and nothing is entered in the chronicle. -/
structure Subtest.Wired (s s' : Subtest) : Prop extends s.Leads s' [] where
  same : s'.log = s.log

/-- Only draws have been used up. -/
structure Subtest.Drawn (s s' : Subtest) : Prop extends s.Wired s' where
  rtpSame : s'.rtp = s.rtp

section Wired

variable {α β : Type} {p : M α} {f : α → M β} {s s₁ s₂ : Subtest}

theorem Subtest.Wired.refl (s : Subtest) : s.Wired s := ⟨.refl s, rfl⟩

theorem Subtest.Wired.trans (h : s.Wired s₁) (h' : s₁.Wired s₂) : s.Wired s₂ :=
  ⟨h.toLeads.trans h'.toLeads, h'.same.trans h.same⟩

theorem Subtest.Drawn.refl (s : Subtest) : s.Drawn s := ⟨.refl s, rfl⟩

theorem Subtest.Drawn.trans (h : s.Drawn s₁) (h' : s₁.Drawn s₂) : s.Drawn s₂ :=
  ⟨h.toWired.trans h'.toWired, h'.rtpSame.trans h.rtpSame⟩

/-- The RTP attributes are all that has changed. -/
theorem Subtest.Wired.of_rtp {rtp : Rtp} (h : s.rtp.Follows rtp) : s.Wired { s with rtp := rtp } :=
  ⟨⟨⟨rfl, rfl, ⟨[], by simp⟩, by simp⟩, rfl, rfl, rfl, rfl, h⟩, rfl⟩

theorem wired_pure (a : α) : Quiet Subtest.Wired (pure a : M α) := Quiet.pure .refl a

theorem wired_raise (e : Exc) : Quiet Subtest.Wired (M.raise e : M α) := Quiet.raise .refl e

/-- An endpoint is created where there is none. -/
theorem Test.until_rtpCreate (proto : Option AType) (hi : s.rtp.enabled = true)
    (hep : s.rtp.ep = none) : (Test.rtpCreate proto s).Until fun
      | .ret _, s' => s.Wired s' ∧ s'.rtp.ep.isSome = true
      | .raise _, s' => s' = s
      | .call _, _ => False := by
  unfold Test.rtpCreate
  rw [Prog.bind_apply, Prog.get_apply, Out.bind_ret]
  cases s.env.endpoint with
  | none => rfl
  | some ep => exact ⟨.of_rtp ⟨rfl, rfl, rfl, .inl ⟨hep, hi, rfl, rfl⟩⟩, rfl⟩

theorem Test.until_rtpUpdate {ep : Endpoint} (proto : Option AType) (hep : s.rtp.ep = some ep) :
    (Test.rtpUpdate ep proto s).Until fun
      | .ret _, s' => s.Wired s'
      | .raise _, s' => s' = s
      | .call _, _ => False := by
  unfold Test.rtpUpdate
  rw [Prog.bind_apply, Prog.get_apply, Out.bind_ret, Prog.ite_apply]
  split
  · refine .of_rtp ⟨rfl, rfl, rfl, .inr ⟨?_, rfl⟩⟩
    rw [hep]
    rfl
  · rfl

/-- An assertion, before another program. -/
theorem until_assert_bind {c : Bool} {f : Unit → M β} {P : Stop Exc UaCall β → Subtest → Prop}
    (hraise : P (.raise .assertionError) s) (h : c = true → (f () s).Until P) :
    ((M.assert c >>= f) s).Until P := by
  cases c with
  | true => exact h rfl
  | false => exact hraise

/-- An attribute of something that may be `None`, before another program. -/
theorem until_ofSome_bind {o : Option α} {P : Stop Exc UaCall β → Subtest → Prop}
    (hraise : P (.raise .attributeError) s) (h : ∀ a, o = some a → (f a s).Until P) :
    ((M.ofSome o >>= f) s).Until P := by
  cases o with
  | none => exact hraise
  | some a => exact h a rfl

theorem until_rtpPickMedia_bind {sdp : Sdp} {f : Option Media → M β}
    {P : Stop Exc UaCall β → Subtest → Prop} (hraise : ∀ e, P (.raise e) s)
    (h : ∀ mdata, (f mdata s).Until P) : ((Test.rtpPickMedia sdp >>= f) s).Until P := by
  unfold Test.rtpPickMedia
  cases pickMedia sdp.sections with
  | ok mdata => exact h mdata
  | error e => exact hraise e

theorem wired_rtpStartOrUpdate (sdp : Sdp) : Quiet Subtest.Wired (Test.rtpStartOrUpdate sdp) := by
  intro s
  unfold Test.rtpStartOrUpdate
  rw [Prog.bind_apply, Prog.get_apply, Out.bind_ret]
  refine until_assert_bind (.refl s) fun _ => ?_
  rw [Prog.ite_apply]
  split
  · next he =>
    refine until_rtpPickMedia_bind (fun _ => .refl s) fun mdata => ?_
    cases mdata with
    | none => exact .refl s
    | some mdata =>
        -- What is remembered of the stream does not matter.
        have hrest (s₁ : Subtest) (h₁ : s.Wired s₁) : s.Wired { s₁ with rtp := { s₁.rtp with
            target := some mdata.target
            codec := some mdata.codec
            ptime := some mdata.ptime } } :=
          h₁.trans (.of_rtp ⟨rfl, rfl, rfl, .inr ⟨rfl, rfl⟩⟩)
        cases hep : s.rtp.ep with
        | none =>
            refine (Test.until_rtpCreate _ he hep).bind (fun _ s₁ h₁ => hrest s₁ h₁.1)
              (fun _ _ h₁ => ?_) fun _ _ h₁ => h₁
            rw [h₁]
            exact .refl s
        | some ep =>
            refine (Test.until_rtpUpdate _ hep).bind (fun _ s₁ h₁ => hrest s₁ h₁)
              (fun _ _ h₁ => ?_) fun _ _ h₁ => h₁
            rw [h₁]
            exact .refl s
  · exact .refl s

/-- The body of an answer asks for media where the endpoint listens. -/
theorem BTest1.until_makeMediaAnswer (sdp : Option Sdp) : (BTest1.makeMediaAnswer sdp s).Until fun
    | .ret body, s' => s.Wired s' ∧ s'.Advertises body
    | .raise _, s' => s.Wired s'
    | .call _, _ => False := by
  unfold BTest1.makeMediaAnswer
  rw [Prog.bind_apply, Prog.get_apply, Out.bind_ret]
  refine until_assert_bind (.refl s) fun _ => until_ofSome_bind (.refl s) fun sdp _ => ?_
  rw [Prog.ite_apply]
  split
  · refine until_ofSome_bind (.refl s) fun body _ => ?_
    refine (wired_rtpStartOrUpdate sdp).until_bind (fun _ _ h => h) fun _ s₁ h₁ => ?_
    rw [Prog.bind_apply, Prog.get_apply, Out.bind_ret]
    refine until_ofSome_bind h₁ fun ep hep => ⟨h₁, fun _ => ⟨ep, _, hep, rfl, ?_⟩⟩
    exact body.advertises_applyLocalMedia _ _ _
  · next he => exact ⟨.refl s, fun h => (he h).elim⟩

/-- The body of Alice's INVITE asks for media where the endpoint listens. -/
theorem Test.until_rtpPrepareLocalSdp (sdp : Sdp) (laddr : String) (af : AType) :
    (Test.rtpPrepareLocalSdp sdp laddr af s).Until fun
      | .ret sdp', s' => s.Wired s' ∧ s'.Advertises (some sdp')
      | .raise _, s' => s.Wired s'
      | .call _, _ => False := by
  unfold Test.rtpPrepareLocalSdp
  rw [Prog.bind_apply, Prog.get_apply, Out.bind_ret]
  refine until_assert_bind (.refl s) fun _ => ?_
  rw [Prog.ite_apply]
  have hrest (s₁ : Subtest) (h₁ : s.Wired s₁) : ((do
      let s ← M.get
      let ep ← M.ofSome s.rtp.ep
      M.assert (!Test.badLaddr laddr)
      pure (sdp.applyLocalMedia (some laddr) ep.lport (some af)) : M Sdp) s₁).Until fun
        | .ret sdp', s' => s.Wired s' ∧ s'.Advertises (some sdp')
        | .raise _, s' => s.Wired s'
        | .call _, _ => False := by
    rw [Prog.bind_apply, Prog.get_apply, Out.bind_ret]
    refine until_ofSome_bind h₁ fun ep hep => until_assert_bind h₁ fun _ => ?_
    exact ⟨h₁, fun _ => ⟨ep, _, hep, rfl, sdp.advertises_applyLocalMedia _ _ _⟩⟩
  split
  · next he => exact ⟨.refl s, fun h => by simp [h] at he⟩
  · next he =>
    have hen : s.rtp.enabled = true := by simpa using he
    refine until_rtpPickMedia_bind (fun _ => .refl s) fun mdata => ?_
    refine until_assert_bind (.refl s) fun _ => ?_
    rw [Prog.ite_apply]
    split
    · next hep =>
      have hnone : s.rtp.ep = none := Option.isNone_iff_eq_none.mp hep
      refine (Test.until_rtpCreate _ hen hnone).bind (fun _ s₁ h₁ => hrest s₁ h₁.1)
        (fun _ _ h₁ => ?_) fun _ _ h₁ => h₁
      rw [h₁]
      exact .refl s
    · exact hrest s (.refl s)

theorem drawn_bind (hp : Quiet Subtest.Drawn p) (hf : ∀ a, Quiet Subtest.Drawn (f a)) :
    Quiet Subtest.Drawn (p >>= f) :=
  Quiet.bind (fun _ _ _ => .trans) hp hf

theorem drawn_pure (a : α) : Quiet Subtest.Drawn (pure a : M α) := Quiet.pure .refl a

theorem drawn_rtpPortAlloc : Quiet Subtest.Drawn Test.rtpPortAlloc := by
  unfold Test.rtpPortAlloc
  refine Quiet.get fun s => ?_
  cases s.tccfg.portrange.gennotinrange s.env.draws with
  | none => exact fun _ => trivial
  | some r =>
      have hdraws : Quiet Subtest.Drawn (M.modify fun s => { s with
          env := { s.env with draws := r.2 } } : M Unit) :=
        Quiet.modify fun _ => ⟨⟨.same rfl rfl rfl rfl rfl rfl rfl rfl rfl, rfl⟩, rfl⟩
      exact drawn_bind hdraws fun _ => drawn_pure _

theorem drawn_alterPorts (sects : List Section) : Quiet Subtest.Drawn (alterPorts sects) := by
  induction sects with
  | nil => exact drawn_pure _
  | cons sect sects ih =>
      rw [alterPorts]
      exact Quiet.ite (fun _ => drawn_bind ih fun _ => drawn_pure _) fun _ =>
        drawn_bind drawn_rtpPortAlloc fun _ => drawn_bind ih fun _ => drawn_pure _

theorem drawn_dropMedia (sects : List Section) : Quiet Subtest.Drawn (dropMedia sects) := by
  induction sects with
  | nil => exact drawn_pure _
  | cons sect sects ih =>
      rw [dropMedia]
      exact Quiet.ite (fun _ => drawn_bind ih fun _ => drawn_pure _) fun _ =>
        drawn_bind drawn_rtpPortAlloc fun _ => drawn_bind ih fun _ => drawn_pure _

theorem wired_sendACK : Quiet Subtest.Wired ATestReinvBadAck.sendACK := by
  unfold ATestReinvBadAck.sendACK
  exact Quiet.get fun _ => Quiet.ite (fun _ => wired_raise _) fun _ => wired_pure _

end Wired

end VoipTests
