import VoipTests.Subtest.Initiator
import Mathlib.Data.List.Nodup

/-!
# VoipTests.Subtest.Versions

The session versions of the bodies that a subtest sends in its dialog.

After the first body, every one is a copy of `ua.lSDP` with the version one
higher, and is `ua.lSDP` from then on: so the versions grow.  The `reinvite` of
two classes puts an older body back into `ua.lSDP`, and its version with it:
there they grow only as long as nothing is sent after that.
-/

namespace VoipTests

open Callback Relation

variable {p : Setup} {s s' : Subtest}

/-! ## what is sent -/

/-- The body that a call of the UA sends. -/
def Obs.sdp : Obs → Option Sdp
  | .inject ev => ev.body
  | _ => none

/-- The bodies a subtest has sent, in order. -/
def sdps (log : List Obs) : List Sdp := log.filterMap Obs.sdp

@[simp] theorem sdps_append (l l' : List Obs) : sdps (l ++ l') = sdps l ++ sdps l' :=
  List.filterMap_append

theorem sdps_eq_nil {l : List Obs} (h : ∀ o ∈ l, o.sdp = none) : sdps l = [] :=
  List.filterMap_eq_nil_iff.mpr h

@[simp] theorem sdps_inject (ev : CCEvent) : sdps [.inject ev] = ev.body.toList := by
  cases h : ev.body <;> simp [sdps, Obs.sdp, h]

/-- The versions grow within the dialog: each re-INVITE has a higher one than
every body before it, and no two bodies share one. -/
structure VersionsGrow (log : List Obs) : Prop where
  update : ∀ l sdp l', log = l ++ .inject (.update (some sdp)) :: l' →
    ∀ old ∈ sdps l, old.version < sdp.version
  unique : ∀ sdp ∈ sdps log, ∀ sdp' ∈ sdps log, sdp.version = sdp'.version → sdp = sdp'

theorem VersionsGrow.of_pairwise {log : List Obs}
    (h : (sdps log).Pairwise fun old sdp => old.version < sdp.version) : VersionsGrow log := by
  constructor
  · rintro l sdp l' rfl old hold
    have hsplit : sdps (l ++ .inject (.update (some sdp)) :: l') = sdps l ++ sdp :: sdps l' := by
      rw [sdps_append]
      rfl
    rw [hsplit, List.pairwise_append] at h
    exact h.2.2 old hold sdp List.mem_cons_self
  · have hnodup : ((sdps log).map Sdp.version).Nodup :=
      List.pairwise_map.mpr (h.imp fun hlt => hlt.ne)
    exact fun sdp hs sdp' hs' hv => List.inj_on_of_nodup_map hnodup hs hs' hv

/-! ## Bob's answer -/

/-- Bob's way to the answer. -/
def TimerCb.answers : TimerCb → Bool
  | ring => true
  | connect => true
  | _ => false

/-- Bob is on his way to the answer. -/
def Obs.answers : Obs → Bool
  | .fired cb => cb.answers
  | _ => false

/-- The steps of Bob's answer that are still to come, or being taken. -/
def Subtest.answers (s : Subtest) : Nat :=
  s.timers.countP (fun t => t.cb.answers) + (s.last.any Obs.answers).toNat

theorem answers_le {l : List Obs} {ts : List Timer} (hlog : s'.log = s.log ++ l)
    (hl : ∀ o ∈ l, o.made = true) (hts : s'.timers = s.timers ++ ts)
    (ht : ∀ t ∈ ts, t.cb.answers = false) : s'.answers ≤ s.answers := by
  have hlast := last_append_le s.log (f := Obs.answers) (l := l) fun o ho => by
    have hm := hl o ho
    cases o <;> first | rfl | cases hm
  have htimers : ts.countP (fun t => t.cb.answers) = 0 :=
    List.countP_eq_zero.mpr fun t hmem => by simp [ht t hmem]
  rw [Subtest.answers, Subtest.answers, Subtest.last, Subtest.last, hlog, hts, List.countP_append,
    htimers]
  omega

/-! ## what makes a subtest send a body -/

/-- A callback that makes the code send a copy of `ua.lSDP`. -/
def Cb.Sends (s : Subtest) : Cb → Prop
  | .timer t =>
    t.cb = .processReinvite ∨ (t.cb.starts ∧ s.connectDone = true ∧ s.disconnectDone = false)
  | .event ev => ev.isUpdate = true ∧ (s.cls.wantsFailure = true → s.reinviteInProgress = false)
  | _ => False

/-- Such a callback has just been entered. -/
def Subtest.Prompted (s : Subtest) : Prop :=
  s.Asked ∨ ∃ cb, s.last = some (.fired cb) ∧ cb.starts ∧ s.connectDone = true ∧
    s.disconnectDone = false

/-- Only Bob's count of a hold stands between a callback and what it sends. -/
theorem not_prompted {o : Obs} (hl : s.last = some o) (ho : o.made = true ∨ o = .dead)
    (ha : s.cls.isAlice = true) : ¬ s.Prompted := by
  have hno {o' : Obs} (h : s.last = some o') (hm : o'.made = false) (hd : o' ≠ .dead) : False := by
    rw [hl, Option.some.injEq] at h
    subst h
    rcases ho with ho | ho
    · rw [hm] at ho
      cases ho
    · exact hd ho
  rintro ((h | ⟨sdp, inProgress, h, -⟩ | ⟨hb, -⟩) | ⟨cb, h, -⟩)
  · exact hno h rfl (by simp)
  · exact hno h rfl (by simp)
  · rw [ha] at hb
    cases hb
  · exact hno h rfl (by simp)

theorem sends_of_prompted {cb : Cb} {timers : List Timer} {ua : Ua}
    (ha : s.cls.isAlice = true)
    (h : ({ s with timers := timers, ua := ua }.note (cb.obs s)).Prompted) : cb.Sends s := by
  have hl : ({ s with timers := timers, ua := ua }.note (cb.obs s)).last = some (cb.obs s) :=
    List.getLast?_concat
  rcases h with (h | ⟨sdp, inProgress, h, hw⟩ | ⟨hb, -⟩) | ⟨cb', h, hcb, hc, hd⟩
  · rw [hl, Option.some.injEq] at h
    cases cb with
    | timer t => exact .inl (Obs.fired.inj h)
    | _ => cases h
  · rw [hl, Option.some.injEq] at h
    cases cb with
    | event ev =>
        obtain ⟨rfl, rfl⟩ := Obs.event.inj h
        exact ⟨rfl, hw⟩
    | _ => cases h
  · rw [show s.cls.isAlice = false from hb] at ha
    cases ha
  · rw [hl, Option.some.injEq] at h
    cases cb with
    | timer t =>
        obtain rfl := Obs.fired.inj h
        exact .inr ⟨hcb, hc, hd⟩
    | _ => cases h

/-! ## one move -/

/-- What a move does to the session: nothing is sent; a copy of `ua.lSDP` is
sent, with the next version; Bob answers the call; or an older body is put
back. -/
inductive Session (s s' : Subtest) : Prop
  | quiet {l : List Obs} (hlog : s'.log = s.log ++ l)
      (hl : ∀ o ∈ l, o.sdp = none ∧ o ≠ .restored)
      (hsdp : s'.ua.lSDP.map Sdp.version = s.ua.lSDP.map Sdp.version)
      (hp : s.cls.isAlice = true → s'.Prompted → s.Prompted)
  | next {lSDP sdp : Sdp} {ev : CCEvent} (hp : s.Prompted) (hl : s.ua.lSDP = some lSDP)
      (hv : sdp.version = lSDP.version + 1) (hev : ev.body = some sdp)
      (hlog : s'.log = s.log ++ [.inject ev]) (hsdp : s'.ua.lSDP = some sdp)
  | first {ev : CCEvent} (hb : s.cls.isAlice = false) (ha : s'.answers < s.answers)
      (hlog : s'.log = s.log ++ [.inject ev]) (hsdp : s'.ua.lSDP = ev.body.or s.ua.lSDP)
  | restored (hr : s.cls.restores = true) (hlog : s'.log = s.log ++ [.restored])

/-- `alldone` has nothing to do with the session. -/
theorem quiet_of_settle (h : machine.settle [] (alldone s.cls.mro s) = some ⟨s', []⟩) :
    ∃ l, s'.log = s.log ++ l ∧
      (∀ o ∈ l, o.made = true ∧ o.sdp = none ∧ o ≠ .restored) ∧
      s'.timers = s.timers ∧ s'.ua = s.ua ∧ s'.cls = s.cls := by
  obtain ⟨s₁, he, hs'⟩ := ends_of_settle h
  obtain ⟨n, hn⟩ := he.log
  have hts : s₁.timers = s.timers := he.field Subtest.timers fun _ => rfl
  have hua : s₁.ua = s.ua := he.field Subtest.ua fun _ => rfl
  have hcls : s₁.cls = s.cls := he.field Subtest.cls fun _ => rfl
  have hdone : ∀ o ∈ List.replicate n Obs.connectDone,
      o.made = true ∧ o.sdp = none ∧ o ≠ .restored := fun o ho => by
    rw [List.eq_of_mem_replicate ho]
    exact ⟨rfl, rfl, by simp⟩
  rcases hs' with rfl | ⟨exc, rfl⟩
  · exact ⟨_, hn, hdone, hts, hua, hcls⟩
  · refine ⟨List.replicate n .connectDone ++ [.raised exc], ?_, fun o ho => ?_, hts, hua, hcls⟩
    · rw [Subtest.note, hn, List.append_assoc]
    · rcases List.mem_append.mp ho with ho | ho
      · exact hdone o ho
      · rw [List.mem_singleton.mp ho]
        exact ⟨rfl, rfl, by simp⟩

/-- A move that nothing is entered for: the flags and the version stay. -/
theorem session_of_unlogged {ts : List Timer} (hlog : s'.log = s.log)
    (hts : s'.timers = s.timers ++ ts) (hall : ∀ t ∈ ts, t.cb.answers = false)
    (hsdp : s'.ua.lSDP.map Sdp.version = s.ua.lSDP.map Sdp.version) (hcls : s'.cls = s.cls)
    (hc : s'.connectDone = s.connectDone) (hd : s'.disconnectDone = s.disconnectDone) :
    Session s s' ∧ s'.answers ≤ s.answers := by
  refine ⟨.quiet (l := []) (by simpa using hlog) (by simp) hsdp fun _ hp => ?_,
    answers_le (l := []) (by simpa using hlog) (by simp) hts hall⟩
  unfold Subtest.Prompted Subtest.Asked Subtest.last at hp
  rwa [hlog, hcls, hc, hd] at hp

/-- A move with an entry of its own, which sends no body: no callback is the last entry
any more. -/
theorem session_of_logged {ts : List Timer} {o : Obs} (hlog : s'.log = s.log ++ [o])
    (hts : s'.timers = s.timers ++ ts) (hall : ∀ t ∈ ts, t.cb.answers = false)
    (hsdp : s'.ua.lSDP = s.ua.lSDP) (hcls : s'.cls = s.cls) (hmade : o.made = true)
    (ho : o.sdp = none ∧ o ≠ .restored) : Session s s' ∧ s'.answers ≤ s.answers := by
  have hlast : s'.last = some o := by rw [Subtest.last, hlog, List.getLast?_concat]
  refine ⟨.quiet hlog (by simpa using ho) (by rw [hsdp]) fun ha hp => ?_,
    answers_le hlog (by simpa using hmade) hts hall⟩
  exact (not_prompted hlast (.inl hmade) (hcls ▸ ha) hp).elim

/-- A call of the UA as a timer of Bob's answer has fired: what has fired is no longer to
come, and a timer is set. -/
theorem answers_injected {cb : TimerCb} (t : Timer) (ev : CCEvent) (hcb : cb.answers = true)
    (hl : s.last = some (.fired cb)) :
    ((s.withTimer t).injected ev).answers + 1 = s.answers + t.cb.answers.toNat := by
  have hlast : ((s.withTimer t).injected ev).last = some (.inject ev) := List.getLast?_concat
  rw [Subtest.answers, Subtest.answers, hlast, hl]
  show (s.timers ++ [t]).countP _ + _ + 1 = _
  rw [List.countP_append]
  cases ht : t.cb.answers <;> simp [ht, hcb, Obs.answers]

/-- `alldone` makes nothing of the callback that has come before. -/
theorem session_of_dead (hl : s.last = some .dead)
    (h : machine.settle [] (alldone s.cls.mro s) = some ⟨s', []⟩) :
    Session s s' ∧ s'.answers ≤ s.answers := by
  obtain ⟨l, hlog, hall, hts, hua, hcls⟩ := quiet_of_settle h
  have hlast : ∃ o, s'.last = some o ∧ (o.made = true ∨ o = .dead) := by
    rw [Subtest.last, hlog, List.getLast?_append]
    cases hg : l.getLast? with
    | none => exact ⟨.dead, hl, .inr rfl⟩
    | some o => exact ⟨o, rfl, .inl (hall o (List.mem_of_getLast? hg)).1⟩
  obtain ⟨o, ho, hmade⟩ := hlast
  refine ⟨.quiet hlog (fun o ho => (hall o ho).2) (by rw [hua]) fun ha hp => ?_,
    answers_le hlog (fun o ho => (hall o ho).1) (hts.trans (List.append_nil _).symm) (by simp)⟩
  exact (not_prompted ho hmade (hcls ▸ ha) hp).elim

/-- What a move does to the session, and to Bob's answer. -/
theorem Move.session (h : Move s s') (ht : s.cls.isA .testReinvite = true) :
    Session s s' ∧ s'.answers ≤ s.answers := by
  have hnil : s.timers = s.timers ++ [] := (List.append_nil _).symm
  have hquiet {o : Obs} (hmade : o.made = true) (ho : o.sdp = none ∧ o ≠ .restored)
      {s' : Subtest} (hlog : s'.log = s.log ++ [o]) (hts : s'.timers = s.timers)
      (hsdp : s'.ua.lSDP = s.ua.lSDP) (hcls : s'.cls = s.cls) : Session s s' ∧ s'.answers ≤ s.answers :=
    session_of_logged hlog (hts.trans hnil) (by simp) hsdp hcls hmade ho
  cases h with
  | unseen h =>
      obtain ⟨_, _, _, _, -, -, rfl⟩ := h
      exact session_of_unlogged rfl hnil (by simp) rfl rfl rfl rfl
  | @timer t htimer =>
      refine session_of_unlogged rfl rfl (fun t' ht' => ?_) rfl rfl rfl rfl
      rw [List.mem_singleton.mp ht']
      simp only [List.mem_cons, List.not_mem_nil, or_false] at htimer
      rcases htimer with htimer | htimer | htimer <;> rw [htimer] <;> rfl
  | @connected ts hl hts hlen ival =>
      refine session_of_logged rfl (show _ = s.timers ++ (⟨.disconnect, ival⟩ :: ts) from ?_)
        (fun t ht' => ?_) rfl rfl rfl ⟨rfl, by simp⟩
      · simp [Subtest.withTimer, Subtest.note]
      · rcases List.mem_cons.mp ht' with rfl | ht'
        · rfl
        · rw [(hts t ht').1]
          rfl
  | @ring code reason sdp ival ha hl hd hsdp =>
      obtain rfl := hsdp ht
      have hanswers := answers_injected ⟨.connect, ival⟩ (.ring code reason none) rfl hl
      refine ⟨.quiet (l := [.inject (.ring code reason none)]) rfl (by simp [Obs.sdp, CCEvent.body])
        rfl (by simp [ha]), ?_⟩
      -- The timer of the answer takes the place of the one that has fired.
      simp only [TimerCb.answers, Bool.toNat_true] at hanswers
      omega
  | @connect code reason sdp ival ha hl hd =>
      have hanswers := answers_injected ⟨.disconnect, ival⟩ (.connect code reason sdp) rfl hl
      simp only [TimerCb.answers, Bool.toNat_false] at hanswers
      exact ⟨.first ha (by omega) rfl rfl, by omega⟩
  | raised exc => exact hquiet (o := .raised exc) rfl ⟨rfl, by simp⟩ rfl rfl rfl rfl
  | hangUp => exact hquiet (o := .inject .disconnect) rfl ⟨rfl, by simp⟩ rfl rfl rfl rfl
  | disconnected => exact hquiet (o := .disconnectDone) rfl ⟨rfl, by simp⟩ rfl rfl rfl rfl
  | @fail code reason =>
      exact hquiet (o := .inject (.fail code reason)) rfl ⟨rfl, by simp⟩ rfl rfl rfl rfl
  | connectDone => exact hquiet (o := .connectDone) rfl ⟨rfl, by simp⟩ rfl rfl rfl rfl
  | held on => cases on <;> exact hquiet (o := .held _) rfl ⟨rfl, by simp⟩ rfl rfl rfl rfl
  | reinviteTimer =>
      refine session_of_unlogged rfl rfl (fun t' ht' => ?_) rfl rfl rfl rfl
      rw [List.mem_singleton.mp ht']
      rfl
  | @reinvite lSDP sdp cb hl hcb hc hd hlsdp hv =>
      refine ⟨.next (.inr ⟨cb, hl, hcb, hc, hd⟩) hlsdp hv rfl rfl rfl, ?_⟩
      exact answers_le (l := [.inject (.update (some sdp))]) rfl (by simp [Obs.made]) hnil (by simp)
  | @swapped lSDP sdp hr hl hv =>
      refine session_of_unlogged rfl hnil (by simp) ?_ rfl rfl rfl
      rw [hl]
      exact congrArg some hv
  | restored hr sdp =>
      refine ⟨.restored hr rfl, ?_⟩
      exact answers_le (l := [.restored]) rfl (by simp [Obs.made]) hnil (by simp)
  | @scheduled cb ival hc hcb hs =>
      refine session_of_unlogged rfl rfl (fun t' ht' => ?_) rfl rfl rfl rfl
      rw [List.mem_singleton.mp ht']
      rcases hcb with rfl | rfl <;> rfl
  | @answer code reason lSDP sdp ha hl hv =>
      refine ⟨.next (.inl ha) hl hv rfl rfl rfl, ?_⟩
      exact answers_le (l := [.inject (.connect code reason (some sdp))]) rfl (by simp [Obs.made])
        hnil (by simp)
  | dead hl h => exact session_of_dead hl h
  | _ => exact session_of_unlogged rfl hnil (by simp) rfl rfl rfl rfl

/-! ## the session of a life -/

/-- What is known of the bodies a subtest has sent. -/
structure Subtest.Versioned (s : Subtest) : Prop where
  answers : s.answers ≤ 1
  silent : 0 < s.answers → s.cls.isAlice = false ∧ sdps s.log = [] ∧ s.ua.lSDP = none
  grow : (sdps s.log).Pairwise fun old sdp => old.version < sdp.version
  current : .restored ∉ s.log → ∀ lSDP, s.ua.lSDP = some lSDP →
    ∀ old ∈ sdps s.log, old.version ≤ lSDP.version
  restored : .restored ∈ s.log → s.cls.restores = true ∧ ¬ s.Prompted

/-- Only Alice's classes put a body back. -/
theorem isAlice_of_restores {cls : PyClass} (h : cls.restores = true) : cls.isAlice = true := by
  rw [PyClass.restores, Bool.or_eq_true] at h
  rcases h with h | h
  · exact PyClass.isAlice_of_isA h
  · exact PyClass.isAlice_of_isA h

theorem Move.versioned (h : Move s s') (ht : s.cls.isA .testReinvite = true) (hs : s.Versioned) :
    s'.Versioned := by
  obtain ⟨hsession, hanswers⟩ := h.session ht
  have hcls : s'.cls = s.cls := h.sameLife.cls
  have hone : s'.answers ≤ 1 := hanswers.trans hs.answers
  have hsilent (h : 0 < s'.answers) := hs.silent (h.trans_le hanswers)
  have hnone {lSDP : Sdp} (hl : s.ua.lSDP = some lSDP) : ¬ 0 < s'.answers := fun h => by
    rw [(hsilent h).2.2] at hl
    cases hl
  cases hsession with
  | @quiet l hlog hl hsdp hp =>
      have hsdps : sdps s'.log = sdps s.log := by
        rw [hlog, sdps_append, sdps_eq_nil fun o ho => (hl o ho).1, List.append_nil]
      have hback : .restored ∈ s'.log ↔ .restored ∈ s.log := by
        rw [hlog, List.mem_append]
        exact or_iff_left fun hmem => (hl _ hmem).2 rfl
      refine ⟨hone, fun h => ?_, hsdps ▸ hs.grow, fun hno lSDP' hl' => ?_, fun hmem => ?_⟩
      · obtain ⟨hb, hnil, hlsdp⟩ := hsilent h
        rw [hlsdp, Option.map_none, Option.map_eq_none_iff] at hsdp
        exact ⟨hcls ▸ hb, hsdps ▸ hnil, hsdp⟩
      · rw [hl', Option.map_some] at hsdp
        obtain ⟨lSDP, hlsdp, hv⟩ := Option.map_eq_some_iff.mp hsdp.symm
        rw [hsdps, ← hv]
        exact hs.current (fun h => hno (hback.mpr h)) lSDP hlsdp
      · obtain ⟨hr, hno⟩ := hs.restored (hback.mp hmem)
        exact ⟨hcls ▸ hr, fun h => hno (hp (isAlice_of_restores hr) h)⟩
  | @next lSDP sdp ev hp hl hv hev hlog hsdp =>
      -- A copy of a body that was put back is not sent: nothing prompts it any more.
      have hback : .restored ∉ s.log := fun h => (hs.restored h).2 hp
      have hold : ∀ old ∈ sdps s.log, old.version < sdp.version := fun old hmem => by
        have hle := hs.current hback lSDP hl old hmem
        omega
      have hsdps : sdps s'.log = sdps s.log ++ [sdp] := by
        rw [hlog, sdps_append, sdps_inject, hev, Option.toList_some]
      refine ⟨hone, fun h => (hnone hl h).elim, ?_, fun _ lSDP' hl' old hmem => ?_, fun hmem => ?_⟩
      · rw [hsdps, List.pairwise_append]
        refine ⟨hs.grow, List.pairwise_singleton _ _, fun old hmem sdp' hmem' => ?_⟩
        rw [List.mem_singleton.mp hmem']
        exact hold old hmem
      · rw [hsdp, Option.some.injEq] at hl'
        subst hl'
        rw [hsdps, List.mem_append, List.mem_singleton] at hmem
        rcases hmem with hmem | rfl
        · exact (hold old hmem).le
        · exact le_rfl
      · rw [hlog, List.mem_append, List.mem_singleton] at hmem
        rcases hmem with hmem | hmem
        · exact (hback hmem).elim
        · cases hmem
  | @first ev hb ha hlog hsdp =>
      obtain ⟨-, hnil, hlsdp⟩ := hs.silent (Nat.zero_lt_of_lt ha)
      have hsdps : sdps s'.log = ev.body.toList := by
        rw [hlog, sdps_append, hnil, List.nil_append, sdps_inject]
      have hzero : s'.answers = 0 := by
        have hle := hs.answers
        omega
      rw [hlsdp, Option.or_none] at hsdp
      refine ⟨hone, fun h => by omega, ?_, fun _ lSDP hl old hmem => ?_, fun hmem => ?_⟩
      · rw [hsdps]
        cases ev.body with
        | none => exact List.Pairwise.nil
        | some sdp => exact List.pairwise_singleton _ _
      · rw [hsdps, ← hsdp, hl, Option.toList_some, List.mem_singleton] at hmem
        rw [hmem]
      · rw [hlog, List.mem_append, List.mem_singleton] at hmem
        rcases hmem with hmem | hmem
        · rw [isAlice_of_restores (hs.restored hmem).1] at hb
          cases hb
        · cases hmem
  | restored hr hlog =>
      have hsdps : sdps s'.log = sdps s.log := by
        rw [hlog, sdps_append]
        exact List.append_nil _
      have ha := isAlice_of_restores hr
      have hlast : s'.last = some .restored := by rw [Subtest.last, hlog, List.getLast?_concat]
      refine ⟨hone, fun h => ?_, hsdps ▸ hs.grow, fun hno => ?_, fun _ => ?_⟩
      · rw [ha] at hsilent
        cases (hsilent h).1
      · exact (hno (hlog ▸ List.mem_append_right _ (List.mem_singleton_self _))).elim
      · exact ⟨hcls ▸ hr, not_prompted hlast (.inl rfl) (hcls ▸ ha)⟩

theorem Moves.versioned (h : Moves s s') (ht : s.cls.isA .testReinvite = true) (hs : s.Versioned) :
    s'.Versioned := by
  induction h with
  | refl => exact hs
  | tail h₁ hm ih => exact hm.versioned ((Moves.sameLife h₁).cls ▸ ht) ih

/-- A callback that does not make the subtest send what was put back. -/
theorem Subtest.Versioned.enter {cb : Cb} {idle : Bool} (hs : s.Versioned)
    (hq : .restored ∈ s.log → ¬ cb.Sends s) (h : s.entry cb idle = some s') : s'.Versioned := by
  obtain ⟨hen, rfl⟩ := eq_of_entry h
  have hentered : (cb.obs s).sdp = none ∧ cb.obs s ≠ .restored := by
    cases cb <;> exact ⟨rfl, fun h => by cases h⟩
  have hua : (cb.ua s).lSDP = s.ua.lSDP := by cases cb <;> rfl
  have hsdps : sdps (s.log ++ [cb.obs s]) = sdps s.log := by
    have hnil : sdps [cb.obs s] = [] := sdps_eq_nil fun o ho => by
      rw [List.mem_singleton.mp ho]
      exact hentered.1
    rw [sdps_append, hnil, List.append_nil]
  have hback : .restored ∈ s.log ++ [cb.obs s] ↔ .restored ∈ s.log := by
    rw [List.mem_append, List.mem_singleton]
    exact or_iff_left fun h => hentered.2 h.symm
  have hanswers : ({ s with timers := cb.timers s, ua := cb.ua s }.note (cb.obs s)).answers ≤
      s.answers := by
    rw [Subtest.answers, Subtest.answers]
    show (cb.timers s).countP _ + ((s.log ++ [cb.obs s]).getLast?.any Obs.answers).toNat ≤ _
    rw [List.getLast?_concat, Option.any_some]
    cases cb with
    | timer t =>
        have hmem : t ∈ s.timers := hen
        rw [(List.perm_cons_erase hmem).countP_eq, List.countP_cons]
        show (s.timers.erase t).countP _ + t.cb.answers.toNat ≤ _
        cases t.cb.answers <;> simp
    | _ => exact Nat.le_add_right _ _
  refine ⟨hanswers.trans hs.answers, fun h => ?_, ?_, fun hno => ?_, fun hmem => ?_⟩
  · obtain ⟨hb, hnil, hlsdp⟩ := hs.silent (h.trans_le hanswers)
    exact ⟨hb, hsdps.trans hnil, hua.trans hlsdp⟩
  · show (sdps (s.log ++ [cb.obs s])).Pairwise _
    rw [hsdps]
    exact hs.grow
  · show ∀ lSDP, (cb.ua s).lSDP = some lSDP → ∀ old ∈ sdps (s.log ++ [cb.obs s]), _
    rw [hua, hsdps]
    exact hs.current fun h => hno (hback.mpr h)
  · have hmem' := hback.mp hmem
    obtain ⟨hr, -⟩ := hs.restored hmem'
    exact ⟨hr, fun h => hq hmem' (sends_of_prompted (isAlice_of_restores hr) h)⟩

theorem Setup.Begun.versioned (hb : p.Begun s) : s.Versioned := by
  have hno : .restored ∉ s.log := by
    have hcalled := hb.called
    unfold Setup.Called at hcalled
    split at hcalled
    · obtain ⟨cli, cld, body, hlog, -⟩ := hcalled
      simp [hlog]
    · obtain ⟨sdp, ival, -, -, hlog, -⟩ := hcalled
      simp [hlog]
  have hcls := hb.cls
  have hcalled := hb.called
  unfold Setup.Called at hcalled
  unfold Setup.cls at hcls
  split at hcalled
  · obtain ⟨cli, cld, body, hlog, hsdp, hts⟩ := hcalled
    have hzero : s.answers = 0 := by simp [Subtest.answers, Subtest.last, hlog, hts, Obs.answers]
    have hsdps : sdps s.log = body.toList := by rw [hlog, sdps_inject, CCEvent.body]
    refine ⟨by omega, fun h => by omega, ?_, fun _ lSDP hl old hmem => ?_, fun h => (hno h).elim⟩
    · rw [hsdps]
      cases body with
      | none => exact List.Pairwise.nil
      | some sdp => exact List.pairwise_singleton _ _
    · rw [hsdps, ← hsdp, hl, Option.toList_some, List.mem_singleton] at hmem
      rw [hmem]
  · next hside =>
    obtain ⟨sdp, ival, -, -, hlog, hsdp, hts⟩ := hcalled
    have hone : s.answers = 1 := by
      simp [Subtest.answers, Subtest.last, hlog, hts, Obs.answers, TimerCb.answers]
    have hsdps : sdps s.log = [] := by
      rw [hlog]
      rfl
    rw [hside] at hcls
    refine ⟨hone.le, fun _ => ⟨by rw [hcls]; rfl, hsdps, hsdp⟩, ?_, fun _ lSDP hl => ?_,
      fun h => (hno h).elim⟩
    · rw [hsdps]
      exact List.Pairwise.nil
    · rw [hsdp] at hl
      cases hl

/-! ## the law -/

/-- Nothing makes the subtest send a copy of a body that was put back. -/
def SilentOnceRestored (y : Sys) : Act → Prop
  | .enter i => .restored ∈ y.st.log → ¬ i.cb.Sends y.st
  | _ => True

theorem Setup.Found.versioned_of_step {y y' : Sys} {a : Act} (hf : p.Found y)
    (ht : p.cls.isA .testReinvite = true) (hq : SilentOnceRestored y a)
    (h : machine.step y a = some y') (hs : y.st.Versioned) : y'.st.Versioned := by
  have hl := hf.lives_of_step h
  obtain ⟨-, s₀, hb, hch, hm⟩ := changes_of_step hf.1 hl.created h
  have hcls : s₀.cls = p.cls := (hl.changes hch).cls
  refine hm.versioned (by rw [hcls, ht]) ?_
  cases a with
  | enter i =>
      obtain ⟨s₁, h₁, rfl⟩ := Option.map_eq_some_iff.mp hb
      obtain ⟨h₂, h₃, h₄, h₅, h₆⟩ := hs.enter hq h₁
      exact ⟨h₂, h₃, h₄, h₅, h₆⟩
  | ret env =>
      cases hb
      obtain ⟨h₂, h₃, h₄, h₅, h₆⟩ := hs
      exact ⟨h₂, h₃, h₄, h₅, h₆⟩
  | throw e =>
      cases hb
      exact hs

/-- A subtest without a UA sends nothing, and nothing happens to it. -/
theorem versionsGrow_of_unborn {acts : List Act} {y₀ y : Sys} (hu : y₀.st.Unborn)
    (hp : y₀.pending = []) (h : Run.exec machine.step y₀ acts = some y) : VersionsGrow y.st.log := by
  cases acts with
  | nil =>
      rw [Run.exec_nil, Option.some.injEq] at h
      have hnil : sdps y.st.log = [] := sdps_eq_nil fun o ho => by
        rw [← h] at ho
        cases o with
        | inject ev => exact (hu.log ev ho).elim
        | _ => rfl
      exact .of_pairwise (hnil ▸ List.Pairwise.nil)
  | cons a as =>
      rw [Run.exec_cons, step_eq_none hu.created hp] at h
      cases h

/-- **The versions grow** in every run of a re-INVITE class in which nothing
makes the subtest send a copy of a body that was put back into `ua.lSDP`. -/
theorem versions_grow {acts : List Act} {y₀ y : Sys} (ht : p.cls.isA .testReinvite = true)
    (hstart : p.start = some y₀) (h : Run.exec machine.step y₀ acts = some y)
    (hq : Run.Meets machine.step SilentOnceRestored y₀ acts) : VersionsGrow y.st.log := by
  obtain ⟨hr, ⟨hunborn, hp⟩ | hbegun⟩ := Setup.start_cases hstart
  · exact versionsGrow_of_unborn hunborn hp h
  · have hfound : p.Found y₀ := ⟨hr, .inr ⟨_, hbegun, .refl⟩⟩
    have hversioned : p.Found y ∧ y.st.Versioned :=
      Run.exec_inv_of_meets (P := fun z => p.Found z ∧ z.st.Versioned)
        (fun z a z' hz ha hzz' => ⟨(hz.1.step hzz').1, hz.1.versioned_of_step ht ha hzz' hz.2⟩)
        ⟨hfound, hbegun.versioned⟩ hq h
    exact .of_pairwise hversioned.2.grow

theorem Setup.Lives.restores (h : p.Lives s) (ht : p.cls.isA .testReinvite = true) :
    .restored ∈ s.log → p.cls.restores = true := by
  refine h.induction (P := fun s => .restored ∈ s.log → p.cls.restores = true)
    (fun s hb hmem => ?_) fun s s' hl hs hc hmem => ?_
  · rw [← hb.cls]
    exact (hb.versioned.restored hmem).1
  · cases hc with
    | @enter cb _ _ h =>
        obtain ⟨-, rfl⟩ := eq_of_entry h
        rcases List.mem_append.mp hmem with hmem | hmem
        · exact hs hmem
        · cases cb <;> cases List.mem_singleton.mp hmem
    | move hm =>
        cases (hm.session (hl.cls ▸ ht)).1 with
        | quiet hlog hl' =>
            rw [hlog, List.mem_append] at hmem
            exact hmem.elim hs fun hmem => ((hl' _ hmem).2 rfl).elim
        | next _ _ _ _ hlog =>
            rw [hlog, List.mem_append, List.mem_singleton] at hmem
            exact hmem.elim hs (by simp)
        | first _ _ hlog =>
            rw [hlog, List.mem_append, List.mem_singleton] at hmem
            exact hmem.elim hs (by simp)
        | restored hr => exact hl.cls ▸ hr

/-- **The other classes** put nothing back: their versions grow in every run. -/
theorem versions_grow_of_not_restores {acts : List Act} {y : Sys}
    (ht : p.cls.isA .testReinvite = true) (hn : p.cls.restores = false) (h : p.Reaches acts y) :
    VersionsGrow y.st.log := by
  obtain ⟨y₀, hstart, hexec⟩ := h
  obtain ⟨hr, ⟨hunborn, hp⟩ | hbegun⟩ := Setup.start_cases hstart
  · exact versionsGrow_of_unborn hunborn hp hexec
  · have hfound : p.Found y₀ := ⟨hr, .inr ⟨_, hbegun, .refl⟩⟩
    have hstep (z : Sys) (a : Act) (z' : Sys) (hz : p.Found z ∧ z.st.Versioned)
        (hzz' : machine.step z a = some z') : p.Found z' ∧ z'.st.Versioned := by
      have hsilent : SilentOnceRestored z a := by
        cases a with
        | enter i =>
            intro hmem
            rw [(hz.1.lives_of_step hzz').restores ht hmem] at hn
            cases hn
        | _ => exact trivial
      exact ⟨(hz.1.step hzz').1, hz.1.versioned_of_step ht hsilent hzz' hz.2⟩
    exact .of_pairwise (Run.exec_inv hstep ⟨hfound, hbegun.versioned⟩ hexec).2.grow

/-! ## a body that is put back -/

instance (s : Subtest) : (cb : Cb) → Decidable (cb.Sends s)
  | .timer t => inferInstanceAs (Decidable (t.cb = .processReinvite ∨
      (t.cb.starts ∧ s.connectDone = true ∧ s.disconnectDone = false)))
  | .event ev => inferInstanceAs (Decidable (ev.isUpdate = true ∧
      (s.cls.wantsFailure = true → s.reinviteInProgress = false)))
  | .connected => inferInstanceAs (Decidable False)
  | .disconnected _ _ => inferInstanceAs (Decidable False)
  | .dead => inferInstanceAs (Decidable False)
  | .inDialogInvite _ => inferInstanceAs (Decidable False)

instance (y : Sys) : (a : Act) → Decidable (SilentOnceRestored y a)
  | .enter i => inferInstanceAs (Decidable (.restored ∈ y.st.log → ¬ i.cb.Sends y.st))
  | .ret _ => inferInstanceAs (Decidable True)
  | .throw _ => inferInstanceAs (Decidable True)

/-- Alice of the scenario `reinv_onhold`, with a body that has a section. -/
def Sample.onhold : Setup := { alice .reinvOnhold false with tccfg := { cfg with body := some proxied } }

/-- Alice puts Bob on hold. -/
def Sample.holdCall : List Act :=
  [.ret env, enter (.event (.connect 200 "OK" (some proxied))), enter .connected,
    enter (.timer ⟨.reinvite, 7 / 2⟩), .ret env]

/-- The body of the off-hold has the version of the on-hold before it. -/
theorem not_versions_grow_onhold : ¬ ∀ (p : Setup) (acts : List Act) (y₀ y : Sys),
    p.cls.isA .testReinvite = true → p.start = some y₀ → Run.exec machine.step y₀ acts = some y →
      VersionsGrow y.st.log := by
  intro hall
  have hrun : (Sample.onhold.run (Sample.holdCall ++
      [Sample.enter (.event (.connect 200 "OK" (some Sample.proxied))),
        Sample.enter (.timer ⟨.offHold, 21 / 200⟩)])).map (fun y : Sys => decide
          (∃ sdp ∈ sdps y.st.log, ∃ sdp' ∈ sdps y.st.log, sdp.version = sdp'.version ∧ sdp ≠ sdp')) =
        some true := by
    decide +kernel
  obtain ⟨y, ⟨y₀, hstart, hexec⟩, hf⟩ := Setup.exists_of_run hrun
  obtain ⟨sdp, hs, sdp', hs', hv, hne⟩ := of_decide_eq_true hf
  exact hne ((hall _ _ y₀ y (by decide) hstart hexec).unique sdp hs sdp' hs' hv)

/-- Up to the on-hold they grow. -/
theorem versions_grow_onhold : ∃ y, Sample.onhold.Reaches Sample.holdCall y ∧
    (sdps y.st.log).length = 2 ∧ VersionsGrow y.st.log := by
  have hrun : (Sample.onhold.start.bind fun y₀ => (Run.exec machine.step y₀ Sample.holdCall).map
      fun y => ((sdps y.st.log).length,
        decide (Run.Meets machine.step SilentOnceRestored y₀ Sample.holdCall))) =
          some (2, true) := by
    decide +kernel
  obtain ⟨y₀, hstart, hrun⟩ := Option.bind_eq_some_iff.mp hrun
  obtain ⟨y, hexec, hf⟩ := Option.map_eq_some_iff.mp hrun
  rw [Prod.mk.injEq, decide_eq_true_eq] at hf
  exact ⟨y, ⟨y₀, hstart, hexec⟩, hf.1, versions_grow (by decide) hstart hexec hf.2⟩

end VoipTests
