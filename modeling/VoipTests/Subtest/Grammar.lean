import VoipTests.Subtest.Opening
import Mathlib.Data.List.Count

/-!
# VoipTests.Subtest.Grammar

The order in which Bob sends things.

What he sends is read off the chronicle (`Subtest.handed`): every event with what
was received last before it, which is the callback that sends it.  Without the
answers to re-INVITEs it has to be a 180, if anything, and one final response,
and then at most one re-INVITE and one BYE (`Grammar`).

None of it is kept in one place.  Each timer sets the next one, so the proof
counts what has been sent together with the timers that are still due
(`Subtest.Tells`, `Ordered`).
-/

namespace VoipTests

open Callback

variable {p : Setup} {s s' s₁ s₂ : Subtest} {t : Timer} {cb : Cb} {env : Env} {ts : List Timer}

/-! ## what is sent -/

/-- What was received last, if these entries come after `o` was. -/
def receivedAfter (o : Option Obs) : List Obs → Option Obs
  | [] => o
  | o' :: l => receivedAfter (if o'.made then o else some o') l

/-- What is handed to the UA, each event with what was received last. -/
def handedAfter (o : Option Obs) : List Obs → List (Option Obs × CCEvent)
  | [] => []
  | .inject ev :: l => (o, ev) :: handedAfter o l
  | o' :: l => handedAfter (if o'.made then o else some o') l

theorem receivedAfter_append (o : Option Obs) (l l' : List Obs) :
    receivedAfter o (l ++ l') = receivedAfter (receivedAfter o l) l' := by
  induction l generalizing o with
  | nil => rfl
  | cons o' l ih => exact ih _

theorem handedAfter_append (o : Option Obs) (l l' : List Obs) :
    handedAfter o (l ++ l') = handedAfter o l ++ handedAfter (receivedAfter o l) l' := by
  induction l generalizing o with
  | nil => rfl
  | cons o' l ih =>
      cases o' with
      | inject ev => exact congrArg _ (ih o)
      | _ => exact ih _

theorem after_of_marks {l : List Obs} (o : Option Obs) (h : ∀ o' ∈ l, o'.isMark = true) :
    receivedAfter o l = o ∧ handedAfter o l = [] := by
  induction l with
  | nil => exact ⟨rfl, rfl⟩
  | cons o' l ih =>
      have hl := ih fun o'' ho'' => h o'' (List.mem_cons_of_mem _ ho'')
      have ho' := h o' List.mem_cons_self
      cases o' with
      | connectDone => exact hl
      | disconnectDone => exact hl
      | held on => exact hl
      | restored => exact hl
      | _ => cases ho'

namespace Subtest

/-- What the subtest has received last. -/
def heard (s : Subtest) : Option Obs := receivedAfter none s.log

/-- What it has handed to the UA. -/
def handed (s : Subtest) : List (Option Obs × CCEvent) := handedAfter none s.log

theorem Stays.heard (h : s.Stays s' ts) : s'.heard = s.heard := by
  obtain ⟨l, hl, hmark⟩ := h.log
  unfold Subtest.heard
  rw [hl, receivedAfter_append]
  exact (after_of_marks _ hmark).1

theorem Stays.handed (h : s.Stays s' ts) : s'.handed = s.handed := by
  obtain ⟨l, hl, hmark⟩ := h.log
  unfold Subtest.handed
  rw [hl, handedAfter_append, (after_of_marks _ hmark).2, List.append_nil]

/-- The last entry, if it was received. -/
theorem heard_of_last {o : Obs} (h : s.last = some o) (ho : o.made = false) : s.heard = some o := by
  obtain ⟨l, hl⟩ := List.getLast?_eq_some_iff.mp h
  unfold Subtest.heard
  rw [hl, receivedAfter_append]
  simp [receivedAfter, ho]

@[simp] theorem heard_entered : (s.entered cb env).heard = some (cb.obs s) := by
  have hobs : (cb.obs s).made = false := by cases cb <;> rfl
  show receivedAfter none (s.log ++ [cb.obs s]) = _
  rw [receivedAfter_append]
  simp [receivedAfter, hobs]

@[simp] theorem handed_entered : (s.entered cb env).handed = s.handed := by
  show handedAfter none (s.log ++ [cb.obs s]) = handedAfter none s.log
  rw [handedAfter_append]
  cases cb <;> exact List.append_nil _

/-- The event is sent from the callback that was entered last. -/
theorem handed_injected (ev : CCEvent) :
    (machine.sent (.recvEvent ev) s).handed = s.handed ++ [(s.heard, ev)] :=
  handedAfter_append none s.log [.inject ev]

@[simp] theorem handed_recvRequest : (machine.sent .recvRequest s).handed = s.handed :=
  (handedAfter_append none s.log [.recvRequest]).trans (List.append_nil _)

@[simp] theorem handed_caught (e : Exc) : (machine.caught e s).handed = s.handed :=
  (handedAfter_append none s.log [.raised e]).trans (List.append_nil _)

/-- How many timers for this method are pending. -/
def due (s : Subtest) (cb : TimerCb) : Nat := s.timers.countP (·.cb = cb)

theorem Stays.due (h : s.Stays s' ts) (cb : TimerCb) :
    s'.due cb = s.due cb + ts.countP (·.cb = cb) := by
  unfold Subtest.due
  rw [h.timers, List.countP_append]

theorem due_entered_le (x : TimerCb) : (s.entered cb env).due x ≤ s.due x := by
  cases cb with
  | timer t => exact (List.erase_sublist).countP_le
  | _ => exact le_rfl

theorem due_pos (h : t ∈ s.timers) : 0 < s.due t.cb := List.countP_pos_iff.mpr ⟨t, h, by simp⟩

/-- A timer that fires is no longer due. -/
theorem due_entered_timer (env : Env) (h : t ∈ s.timers) :
    (s.entered (.timer t) env).due t.cb + 1 = s.due t.cb := by
  have hpos : 0 < s.timers.countP (·.cb = t.cb) := due_pos h
  show (s.timers.erase t).countP _ + 1 = s.timers.countP _
  rw [List.countP_erase, if_pos ⟨h, by simp⟩]
  omega

end Subtest

/-! ## the grammar -/

/-- `isinstance(event, (CCEventConnect, CCEventFail))` -/
def CCEvent.isFinal : CCEvent → Bool
  | connect .. => true
  | fail .. => true
  | _ => false

/-- A request within the call. -/
def CCEvent.isRequest : CCEvent → Bool
  | update _ => true
  | disconnect => true
  | _ => false

/-- Responses are no requests. -/
theorem CCEvent.not_isRequest {ev : CCEvent} (h : ev.isRing = true ∨ ev.isFinal = true) :
    ev.isRequest = false := by
  cases ev with
  | update body => simp [isRing, isFinal] at h
  | disconnect => simp [isRing, isFinal] at h
  | _ => rfl

/-- A re-INVITE has been received, or is to be answered now. -/
def Obs.reasks : Obs → Bool
  | event ev _ => ev.isUpdate
  | fired cb => cb = .processReinvite
  | _ => false

/-- The event is sent on account of a re-INVITE that was received. -/
def fromReinvite (x : Option Obs × CCEvent) : Bool := x.1.any Obs.reasks

/-- The event is sent in response to the initial INVITE. -/
def fromInvite (x : Option Obs × CCEvent) : Bool := !fromReinvite x && !x.2.isRequest

/-- What is sent in response to the initial INVITE. -/
def responses (handed : List (Option Obs × CCEvent)) : List CCEvent :=
  (handed.filter fromInvite).map Prod.snd

/-- The INVITE has been answered with 200. -/
def Connected (handed : List (Option Obs × CCEvent)) : Prop :=
  ∃ x ∈ handed, fromInvite x = true ∧ x.2.isConnect = true

/-- What Bob has sent is in order. -/
structure Grammar (handed : List (Option Obs × CCEvent)) : Prop where
  /-- One 180 at most comes first, and one final response at most ends it. -/
  order : ∃ rings finals, responses handed = rings ++ finals ∧ rings.length ≤ 1 ∧ finals.length ≤ 1 ∧
    (∀ ev ∈ rings, ev.isRing = true) ∧ ∀ ev ∈ finals, ev.isFinal = true
  updates : handed.countP (fun x => x.2.isUpdate) ≤ 1
  disconnects : handed.countP (fun x => x.2 = .disconnect) ≤ 1
  /-- Whenever a request has been sent, the INVITE has been answered with 200. -/
  requests : ∀ l, l <+: handed → (∃ x ∈ l, x.2.isRequest = true) → Connected l
  /-- A re-INVITE is answered with 200 or a failure, and nothing else. -/
  answers : ∀ x ∈ handed, fromReinvite x = true → x.2.isFinal = true

theorem responses_concat (handed : List (Option Obs × CCEvent)) (x : Option Obs × CCEvent) :
    responses (handed ++ [x]) = responses handed ++ if fromInvite x then [x.2] else [] := by
  unfold responses
  rw [List.filter_append, List.map_append]
  cases h : fromInvite x with
  | true => rw [List.filter_cons_of_pos h]; rfl
  | false => rw [List.filter_cons_of_neg (by simp [h])]; rfl

theorem connected_of_responses {handed : List (Option Obs × CCEvent)} {ev : CCEvent}
    (h : ev ∈ responses handed) (hc : ev.isConnect = true) : Connected handed := by
  obtain ⟨x, hx, rfl⟩ := List.mem_map.mp h
  obtain ⟨hmem, hx⟩ := List.mem_filter.mp hx
  exact ⟨x, hmem, hx, hc⟩

theorem Connected.concat {handed : List (Option Obs × CCEvent)} (h : Connected handed)
    (x : Option Obs × CCEvent) : Connected (handed ++ [x]) := by
  obtain ⟨x', hmem, hx'⟩ := h
  exact ⟨x', List.mem_append_left _ hmem, hx'⟩

/-! ## what is sent and what is due -/

/-- The classes that send a final response of their own are no re-INVITE
classes, and neither are those that `disconnected` counts as connected. -/
theorem PyClass.plain_of_testReinvite {cls : PyClass} (h : cls.isA .testReinvite = true) :
    cls.isA (.b .t3) = false ∧ cls.isA (.b .t4) = false ∧ cls.isA (.b .t5) = false ∧
      cls.isA .testEarlyCancel = false := by
  cases cls with
  | a scn => cases scn <;> first | decide +kernel | exact absurd h (by decide +kernel)
  | b scn => cases scn <;> first | decide +kernel | exact absurd h (by decide +kernel)
  | _ => first | decide +kernel | exact absurd h (by decide +kernel)

/-- What Bob has sent in response to the INVITE, and what his timers still
allow. -/
structure Subtest.Tells (s : Subtest) (rings finals : List CCEvent) : Prop where
  order : responses s.handed = rings ++ finals
  isRing : ∀ ev ∈ rings, ev.isRing = true
  isFinal : ∀ ev ∈ finals, ev.isFinal = true
  ringing : rings.length + s.due .ring ≤ 1
  ending : finals.length + s.due .connect + s.due .ring ≤ 1
  hangingUp : s.handed.countP (fun x => x.2 = .disconnect) + s.due .disconnect ≤
    finals.countP CCEvent.isConnect
  connectDone : s.connectDone = true → s.cls.isA .testReinvite = true → finals ≠ []
  accepting : s.cls.isA .testReinvite = true → ∀ ev ∈ finals, ev.isConnect = true
  requests : ∀ l, l <+: s.handed → (∃ x ∈ l, x.2.isRequest = true) → Connected l
  answers : ∀ x ∈ s.handed, fromReinvite x = true → x.2.isFinal = true

/-- One event has been sent. -/
structure Subtest.Adds (s s' : Subtest) (x : Option Obs × CCEvent) : Prop where
  cls : s'.cls = s.cls
  handed : s'.handed = s.handed ++ [x]
  connectDone : s'.connectDone = s.connectDone

namespace Subtest.Tells

variable {rings finals : List CCEvent} {x : Option Obs × CCEvent}

/-- Nothing is sent, and no timer is set that counts. -/
theorem next (h : s.Tells rings finals) (hcls : s'.cls = s.cls) (hsent : s'.handed = s.handed)
    (hring : s'.due .ring ≤ s.due .ring) (hconnect : s'.due .connect ≤ s.due .connect)
    (hdisc : s'.due .disconnect ≤ s.due .disconnect)
    (hcon : s'.connectDone = true → s.cls.isA .testReinvite = true → finals ≠ []) :
    s'.Tells rings finals where
  order := hsent ▸ h.order
  isRing := h.isRing
  isFinal := h.isFinal
  ringing := (Nat.add_le_add_left hring _).trans h.ringing
  ending := by have := h.ending; omega
  hangingUp := by have := h.hangingUp; rw [hsent]; omega
  connectDone := hcls ▸ hcon
  accepting := hcls ▸ h.accepting
  requests := hsent ▸ h.requests
  answers := hsent ▸ h.answers

theorem requests_concat (h : s.Tells rings finals) (hs : s.Adds s' x)
    (hx : x.2.isRequest = true → Connected s.handed) :
    ∀ l, l <+: s'.handed → (∃ x ∈ l, x.2.isRequest = true) → Connected l := by
  rintro l hl ⟨x', hmem, hx'⟩
  rw [hs.handed] at hl
  rcases List.prefix_concat_iff.mp hl with rfl | hl
  · refine Connected.concat ?_ x
    rcases List.mem_append.mp hmem with hmem | hmem
    · exact h.requests _ List.prefix_rfl ⟨x', hmem, hx'⟩
    · exact hx (List.mem_singleton.mp hmem ▸ hx')
  · exact h.requests l hl ⟨x', hmem, hx'⟩

theorem answers_concat (h : s.Tells rings finals) (hs : s.Adds s' x)
    (hx : fromReinvite x = true → x.2.isFinal = true) :
    ∀ x ∈ s'.handed, fromReinvite x = true → x.2.isFinal = true := by
  intro x' hmem
  rw [hs.handed] at hmem
  rcases List.mem_append.mp hmem with hmem | hmem
  · exact h.answers x' hmem
  · rwa [List.mem_singleton.mp hmem]

/-- The 180 is sent. -/
theorem ring (h : s.Tells rings finals) (hs : s.Adds s' x) (hx : fromInvite x = true)
    (hring : x.2.isRing = true) (hr : s'.due .ring + 1 ≤ s.due .ring)
    (hc : s'.due .connect ≤ s.due .connect + 1) (hd : s'.due .disconnect ≤ s.due .disconnect)
    (hcon : s.connectDone = false) : s'.Tells [x.2] [] := by
  have hringing := h.ringing
  have hending := h.ending
  obtain rfl : rings = [] := List.length_eq_zero_iff.mp (by omega)
  obtain rfl : finals = [] := List.length_eq_zero_iff.mp (by omega)
  have hhang := h.hangingUp
  have hreq := CCEvent.not_isRequest (.inl hring)
  have hdisc : x.2 ≠ .disconnect := fun hev => by simp [hev, CCEvent.isRequest] at hreq
  exact {
    order := by rw [hs.handed, responses_concat, h.order, if_pos hx]; rfl
    isRing := by simpa using hring
    isFinal := by simp
    ringing := by simp only [List.length_singleton]; omega
    ending := by simp only [List.length_nil] at hending ⊢; omega
    hangingUp := by
      rw [hs.handed, List.countP_append, List.countP_singleton, if_neg (by simpa using hdisc)]
      omega
    connectDone := fun hc => by simp [hs.connectDone, hcon] at hc
    accepting := by simp
    requests := h.requests_concat hs (by simp [hreq])
    answers := h.answers_concat hs fun hfrom => by simp [fromInvite, hfrom] at hx }

/-- A final response is sent. -/
theorem final (h : s.Tells rings finals) (hs : s.Adds s' x) (hx : fromInvite x = true)
    (hfinal : x.2.isFinal = true)
    (hc : s'.due .connect + s'.due .ring + 1 ≤ s.due .connect + s.due .ring)
    (hr : s'.due .ring ≤ s.due .ring)
    (hd : s'.due .disconnect ≤ s.due .disconnect + if x.2.isConnect then 1 else 0)
    (hacc : s.cls.isA .testReinvite = true → x.2.isConnect = true) : s'.Tells rings [x.2] := by
  have hending := h.ending
  have hringing := h.ringing
  obtain rfl : finals = [] := List.length_eq_zero_iff.mp (by omega)
  have hhang := h.hangingUp
  have hreq := CCEvent.not_isRequest (.inr hfinal)
  have hdisc : x.2 ≠ .disconnect := fun hev => by simp [hev, CCEvent.isRequest] at hreq
  exact {
    order := by rw [hs.handed, responses_concat, h.order, if_pos hx, List.append_nil]
    isRing := h.isRing
    isFinal := by simpa using hfinal
    ringing := by omega
    ending := by simp only [List.length_nil, List.length_singleton] at hending ⊢; omega
    hangingUp := by
      rw [hs.handed, List.countP_append, List.countP_singleton, if_neg (by simpa using hdisc),
        List.countP_singleton]
      rw [List.countP_nil] at hhang
      omega
    connectDone := fun _ _ => by simp
    accepting := fun hr => by simpa using hacc (hs.cls ▸ hr)
    requests := h.requests_concat hs (by simp [hreq])
    answers := h.answers_concat hs fun _ => hfinal }

/-- Something else is sent. -/
theorem other (h : s.Tells rings finals) (hs : s.Adds s' x) (hx : fromInvite x = false)
    (hreq : x.2.isRequest = true → Connected s.handed) (hans : fromReinvite x = true → x.2.isFinal = true)
    (hr : s'.due .ring ≤ s.due .ring) (hc : s'.due .connect ≤ s.due .connect)
    (hd : (if x.2 = .disconnect then 1 else 0) + s'.due .disconnect ≤ s.due .disconnect) :
    s'.Tells rings finals where
  order := by rw [hs.handed, responses_concat, h.order, if_neg (by simp [hx]), List.append_nil]
  isRing := h.isRing
  isFinal := h.isFinal
  ringing := (Nat.add_le_add_left hr _).trans h.ringing
  ending := by have := h.ending; omega
  hangingUp := by
    have hhang := h.hangingUp
    rw [hs.handed, List.countP_append, List.countP_singleton]
    simp only [decide_eq_true_eq] at hd ⊢
    omega
  connectDone := by rw [hs.cls, hs.connectDone]; exact h.connectDone
  accepting := hs.cls ▸ h.accepting
  requests := h.requests_concat hs hreq
  answers := h.answers_concat hs hans

/-- A 200 among the final responses. -/
theorem connected (h : s.Tells rings finals) {ev : CCEvent} (hmem : ev ∈ finals)
    (hc : ev.isConnect = true) : Connected s.handed :=
  connected_of_responses (h.order ▸ List.mem_append_right _ hmem) hc

end Subtest.Tells

/-! ## an event that is sent -/

section Leads

variable {ev : CCEvent}

theorem adds_of_leads (h : (s.entered cb env).Leads s₂ ts) :
    s.Adds (machine.sent (.recvEvent ev) s₂) (some (cb.obs s), ev) := by
  refine ⟨h.cls, ?_, h.connectDone⟩
  rw [Subtest.handed_injected, h.handed, h.heard, Subtest.heard_entered, Subtest.handed_entered]

theorem due_of_leads (ev : CCEvent) (h : (s.entered cb env).Leads s₂ ts) (x : TimerCb) :
    (machine.sent (.recvEvent ev) s₂).due x ≤ s.due x + ts.countP (·.cb = x) :=
  (h.due x).trans_le (Nat.add_le_add_right (Subtest.due_entered_le x) _)

theorem due_of_timer (ev : CCEvent) (h : (s.entered (.timer t) env).Leads s₂ ts) (ht : t ∈ s.timers) :
    (machine.sent (.recvEvent ev) s₂).due t.cb + 1 = s.due t.cb + ts.countP (·.cb = t.cb) := by
  have hfire := Subtest.due_entered_timer env ht
  have heq := h.due t.cb
  show s₂.due t.cb + 1 = _
  omega

end Leads

/-! ## every run -/

/-- The invariant of Bob's runs. -/
structure Ordered (s : Subtest) (calls : List (UaCall × Subtest)) : Prop where
  bob : s.cls.isAlice = false
  began : ∀ call ∈ calls, call.2.cls = s.cls ∧
    ∀ cli cld body, call.1 ≠ .recvEvent (.ccTry cli cld body)
  /-- While the UA is handed a final response, `connect_done` is still to be set. -/
  tells : ∃ rings finals, s.Tells rings finals ∧ ∀ call ∈ calls, call.1.Settles call.2 → finals ≠ []
  /-- The timer for a re-INVITE is set as `recvRequest` returns. -/
  reinviting : s.handed.countP (fun x => x.2.isUpdate) + s.due .reinvite +
    calls.countP (fun call => call.1 = .recvRequest) ≤ 1
  never : s.due .cancel = 0 ∧ s.due .offHold = 0
  mixin : 0 < s.due .reinvite → s.cls.isA .testReinvite = true

theorem Ordered.grammar {cs : List (UaCall × Subtest)} (h : Ordered s cs) : Grammar s.handed := by
  obtain ⟨rings, finals, ht, -⟩ := h.tells
  have hending := ht.ending
  have hle : finals.countP CCEvent.isConnect ≤ finals.length := List.countP_le_length
  exact ⟨⟨rings, finals, ht.order, by have := ht.ringing; omega, by omega, ht.isRing, ht.isFinal⟩,
    by have := h.reinviting; omega, by have := ht.hangingUp; omega, ht.requests, ht.answers⟩

namespace Ordered

variable {cs cs' : List (UaCall × Subtest)} {ev : CCEvent} {rings finals : List CCEvent}

/-- Nothing is sent, and pending calls may have returned. -/
theorem next (hg : Ordered s cs) (hcls : s'.cls = s.cls) (hsent : s'.handed = s.handed)
    (hdue : ∀ x, x ≠ .reinvite → x ≠ .processReinvite → s'.due x ≤ s.due x)
    (hcon : s'.connectDone = true → s.cls.isA .testReinvite = true →
      s.connectDone = true ∨ ∃ call ∈ cs, call.1.Settles call.2)
    (hcalls : ∀ call ∈ cs', call ∈ cs)
    (hreinv : s'.due .reinvite + cs'.countP (fun call => call.1 = .recvRequest) ≤
      s.due .reinvite + cs.countP (fun call => call.1 = .recvRequest))
    (hmixin : 0 < s'.due .reinvite → s.cls.isA .testReinvite = true) : Ordered s' cs' := by
  obtain ⟨rings, finals, ht, hsettles⟩ := hg.tells
  have hnext : s'.Tells rings finals := by
    refine ht.next hcls hsent (hdue _ (by simp) (by simp)) (hdue _ (by simp) (by simp)) (hdue _ (by simp) (by simp))
      fun hc hr => ?_
    rcases hcon hc hr with hc | ⟨call, hmem, hs⟩
    · exact ht.connectDone hc hr
    · exact hsettles call hmem hs
  have hcancel := hdue .cancel (by simp) (by simp)
  have hoff := hdue .offHold (by simp) (by simp)
  have hnever := hg.never
  refine ⟨hcls ▸ hg.bob, fun call hmem => hcls ▸ hg.began call (hcalls call hmem),
    ⟨rings, finals, hnext, fun call hmem => hsettles call (hcalls call hmem)⟩, ?_,
    ⟨by omega, by omega⟩, fun h => hcls ▸ hmixin h⟩
  have hre := hg.reinviting
  rw [hsent]
  omega

/-- One event is sent. -/
theorem push {o : Option Obs} (hg : Ordered s cs) (hs : s.Adds s' (o, ev))
    (hcls : s₂.cls = s.cls) (htry : ∀ cli cld body, ev ≠ .ccTry cli cld body)
    (ht : s'.Tells rings finals)
    (hsettles : (∃ call ∈ cs, call.1.Settles call.2) ∨ (UaCall.recvEvent ev).Settles s₂ → finals ≠ [])
    (hdue : ∀ x, x ≠ .connect → x ≠ .disconnect → s'.due x ≤ s.due x)
    (hreinv : (if ev.isUpdate then 1 else 0) + s'.due .reinvite ≤ s.due .reinvite) :
    Ordered s' ((.recvEvent ev, s₂) :: cs) := by
  have hcancel := hdue .cancel (by simp) (by simp)
  have hoff := hdue .offHold (by simp) (by simp)
  have hnever := hg.never
  refine ⟨hs.cls ▸ hg.bob, fun call hmem => ?_, ⟨rings, finals, ht, fun call hmem hc => ?_⟩, ?_,
    ⟨by omega, by omega⟩, fun h => hs.cls ▸ hg.mixin (by omega)⟩
  · rcases List.mem_cons.mp hmem with rfl | hmem
    · exact ⟨hcls.trans hs.cls.symm, fun cli cld body h => htry cli cld body (by injection h)⟩
    · exact hs.cls ▸ hg.began call hmem
  · rcases List.mem_cons.mp hmem with rfl | hmem
    · exact hsettles (.inr hc)
    · exact hsettles (.inl ⟨call, hmem, hc⟩)
  · have hre := hg.reinviting
    rw [hs.handed, List.countP_append, List.countP_singleton, List.countP_cons_of_neg (by simp)]
    dsimp only
    omega

/-- **A callback that sends nothing.** -/
theorem silent (hg : Ordered s cs) (h : Silent cb (s.entered cb env) s₂) : Ordered s₂ cs := by
  obtain ⟨ts, hstays, hts⟩ := h.stays
  have hcls : (s.entered cb env).cls = s.cls := rfl
  have hbob := hg.bob
  have hnone (x : TimerCb) (hx : x ≠ .processReinvite) : s₂.due x ≤ s.due x := by
    rw [hstays.due]
    have hzero : ts.countP (·.cb = x) = 0 := by
      refine List.countP_eq_zero.mpr fun t ht htx => ?_
      have hset := hts t ht
      have htx : t.cb = x := by simpa using htx
      unfold Cb.Sets at hset
      split at hset
      · rcases hset with ⟨-, hcb, -⟩ | ⟨ha, -⟩
        · exact hx (htx.symm.trans hcb)
        · simp [hcls, hbob] at ha
      · simp [hcls, hbob] at hset
      · simp [hcls, hbob] at hset
      · exact hset
    rw [hzero]
    exact Subtest.due_entered_le x
  have hre := hnone .reinvite (by simp)
  refine hg.next hstays.cls (hstays.handed.trans Subtest.handed_entered) (fun x _ hx => hnone x hx)
    (fun hc hr => .inl ?_) (fun _ h => h) (by omega) fun h => hg.mixin (by omega)
  rcases h.connectDone with hcon | ha | hearly
  · exact hcon.symm.trans hc
  · simp [hcls, hbob] at ha
  · rw [hcls, (PyClass.plain_of_testReinvite hr).2.2.2] at hearly
    cases hearly

theorem caught (hg : Ordered s cs) (e : Exc) : Ordered (machine.caught e s) cs :=
  hg.next rfl (Subtest.handed_caught e) (fun _ _ _ => le_rfl) (fun hc _ => .inl hc) (fun _ h => h) le_rfl
    hg.mixin

/-- A call that has raised, or that leaves nothing to be done. -/
theorem drop {call : UaCall × Subtest} (hg : Ordered s (call :: cs)) : Ordered s cs :=
  hg.next rfl rfl (fun _ _ _ => le_rfl) (fun hc _ => .inl hc) (fun _ => List.mem_cons_of_mem _)
    (Nat.add_le_add_left (List.sublist_cons_self _ _).countP_le _) hg.mixin

/-- **The return of the UA.** -/
theorem tail {c : UaCall} {s₀ : Subtest} (hg : Ordered s ((c, s₀) :: cs))
    (hT : Tail c s₀ (machine.resume env s) s₂) : Ordered s₂ cs := by
  obtain ⟨ts, hstays, hts⟩ := hT.stays
  have hstays : s.Stays s₂ ts := ⟨hstays.cls, hstays.tccfg, hstays.log, hstays.timers⟩
  obtain ⟨hcls, htry⟩ := hg.began _ List.mem_cons_self
  have hcls : s₀.cls = s.cls := hcls
  have hcon : s₂.connectDone = true → s.cls.isA .testReinvite = true →
      s.connectDone = true ∨ ∃ call ∈ (c, s₀) :: cs, call.1.Settles call.2 := fun hc _ => by
    rcases hT.connectDone with hcon | hset
    · exact .inl (hcon.symm.trans hc)
    · exact .inr ⟨_, List.mem_cons_self, hset⟩
  cases c with
  | recvRequest =>
      obtain ⟨hlen, hall⟩ := hts
      have hle := List.countP_le_length (p := fun t : Timer => t.cb = .reinvite) (l := ts)
      refine hg.next hstays.cls hstays.handed (fun x hx _ => ?_) hcon (fun _ => List.mem_cons_of_mem _)
        ?_ fun hpos => ?_
      · rw [hstays.due, List.countP_eq_zero.mpr fun t ht htx => hx ?_]
        · exact le_rfl
        · exact (of_decide_eq_true htx).symm.trans (hall t ht).1
      · rw [hstays.due, List.countP_cons_of_pos (by simp)]
        omega
      · rw [hstays.due] at hpos
        by_cases hz : s.due .reinvite = 0
        · obtain ⟨t, ht, -⟩ := List.countP_pos_iff.mp (show 0 < ts.countP (·.cb = .reinvite) by omega)
          exact hcls ▸ (hall t ht).2
        · exact hg.mixin (Nat.pos_of_ne_zero hz)
  | recvEvent ev =>
      have hnil : ts = [] := by
        cases ev with
        | ccTry cli cld body => exact (htry cli cld body rfl).elim
        | update body =>
            refine List.eq_nil_iff_forall_not_mem.mpr fun t ht => ?_
            have ha := (hts t ht).2
            rw [hcls, hg.bob] at ha
            cases ha
        | _ => exact hts
      subst hnil
      have hdue (x : TimerCb) : s₂.due x = s.due x := hstays.due x
      refine hg.next hstays.cls hstays.handed (fun x _ _ => (hdue x).le) hcon
        (fun _ => List.mem_cons_of_mem _) ?_ fun hpos => hg.mixin (hdue _ ▸ hpos)
      rw [hdue, List.countP_cons_of_neg (by simp)]

/-- The 180. -/
theorem sends_ring {code : Nat} {reason : String} {body : Option Sdp} {ival : ℚ} (hg : Ordered s cs)
    (ht : t ∈ s.timers) (htcb : t.cb = .ring)
    (h : (s.entered (.timer t) env).Leads s₂ [⟨.connect, ival⟩]) (hcon : s.connectDone = false) :
    Ordered (machine.sent (.recvEvent (.ring code reason body)) s₂)
      ((.recvEvent (.ring code reason body), s₂) :: cs) := by
  obtain ⟨rings, finals, htells, hsettles⟩ := hg.tells
  have hring := due_of_timer (.ring code reason body) h ht
  have hdue := due_of_leads (.ring code reason body) h
  rw [htcb] at hring
  have hring : (machine.sent (.recvEvent (.ring code reason body)) s₂).due .ring + 1 = s.due .ring := hring
  have hfinals : finals = [] := List.length_eq_zero_iff.mp (by have := htells.ending; omega)
  refine hg.push (adds_of_leads h) h.cls (by simp)
    (htells.ring (adds_of_leads h) ?_ rfl hring.le (hdue .connect) (hdue .disconnect) hcon) ?_
    (fun x hne _ => ?_) ?_
  · simp [fromInvite, fromReinvite, Obs.reasks, Cb.obs, htcb, CCEvent.isRequest]
  · rintro (⟨call, hmem, hset⟩ | ⟨⟨ev, hev, hset⟩, -⟩)
    · exact (hsettles call hmem hset hfinals).elim
    · cases hev
      simp [CCEvent.isConnect, CCEvent.isFailure] at hset
  · simpa [hne.symm] using hdue x
  · simpa [CCEvent.isUpdate] using hdue .reinvite

/-- The final response. -/
theorem sends_final (hg : Ordered s cs) (ht : t ∈ s.timers) (htcb : t.cb = .ring ∨ t.cb = .connect)
    (h : (s.entered (.timer t) env).Leads s₂ ts) (hfinal : ev.isFinal = true)
    (hts : ∀ x, ts.countP (·.cb = x) ≤ if x = .disconnect ∧ ev.isConnect = true then 1 else 0)
    (hacc : s.cls.isA .testReinvite = true → ev.isConnect = true) :
    Ordered (machine.sent (.recvEvent ev) s₂) ((.recvEvent ev, s₂) :: cs) := by
  obtain ⟨rings, finals, htells, -⟩ := hg.tells
  have hfire := due_of_timer ev h ht
  have hdue (x : TimerCb) : (machine.sent (.recvEvent ev) s₂).due x ≤
      s.due x + if x = .disconnect ∧ ev.isConnect = true then 1 else 0 :=
    (due_of_leads ev h x).trans (Nat.add_le_add_left (hts x) _)
  have hother (x : TimerCb) (hx : x ≠ .disconnect) : (machine.sent (.recvEvent ev) s₂).due x ≤ s.due x := by
    simpa [hx] using hdue x
  have hone : (machine.sent (.recvEvent ev) s₂).due .connect +
      (machine.sent (.recvEvent ev) s₂).due .ring + 1 ≤ s.due .connect + s.due .ring := by
    have hring := hother .ring (by simp)
    have hconnect := hother .connect (by simp)
    have hzero := hts t.cb
    rcases htcb with htcb | htcb
    · rw [htcb] at hfire hzero
      simp only [reduceCtorEq, false_and, if_false] at hzero
      omega
    · rw [htcb] at hfire hzero
      simp only [reduceCtorEq, false_and, if_false] at hzero
      omega
  have hreq := CCEvent.not_isRequest (.inr hfinal)
  refine hg.push (adds_of_leads h) h.cls (fun _ _ _ hev => by simp [hev, CCEvent.isFinal] at hfinal)
    (htells.final (adds_of_leads h) ?_ hfinal hone (hother _ (by simp)) ?_ hacc) (fun _ => by simp)
    (fun x _ hx => hother x hx) ?_
  · have hcb : (Obs.fired t.cb).reasks = false := by rcases htcb with htcb | htcb <;> rw [htcb] <;> rfl
    simp [fromInvite, fromReinvite, Cb.obs, hcb, hreq]
  · simpa using hdue .disconnect
  · have hupdate : ev.isUpdate = false := by
      cases ev with
      | update body => cases hfinal
      | _ => rfl
    simpa [hupdate] using hother .reinvite (by simp)

/-- The INVITE has been answered with 200 where the timer for the BYE, or the
one for a re-INVITE, is due. -/
theorem connected_of_due (hg : Ordered s cs) (htells : s.Tells rings finals)
    (h : 0 < s.due .disconnect ∨ 0 < s.due .reinvite ∧ s.connectDone = true) :
    ∃ ev ∈ finals, ev.isConnect = true := by
  rcases h with hdisc | ⟨hre, hcon⟩
  · have hhang := htells.hangingUp
    exact List.countP_pos_iff.mp (by omega)
  · have hmixin := hg.mixin hre
    obtain ⟨ev, hmem⟩ := List.exists_mem_of_ne_nil _ (htells.connectDone hcon hmixin)
    exact ⟨ev, hmem, htells.accepting hmixin ev hmem⟩

/-- A request within the call. -/
theorem sends_request (hg : Ordered s cs) (ht : t ∈ s.timers)
    (h : (s.entered (.timer t) env).Leads s₂ [])
    (hev : t.cb = .disconnect ∧ ev = .disconnect ∨
      (t.cb = .reinvite ∧ s.connectDone = true) ∧ ev.isUpdate = true) :
    Ordered (machine.sent (.recvEvent ev) s₂) ((.recvEvent ev, s₂) :: cs) := by
  obtain ⟨rings, finals, htells, -⟩ := hg.tells
  have hfire := due_of_timer ev h ht
  have hdue := due_of_leads ev h
  simp only [List.countP_nil, Nat.add_zero] at hfire hdue
  obtain ⟨ev', hmem, hc⟩ : ∃ ev ∈ finals, ev.isConnect = true := by
    refine hg.connected_of_due htells ?_
    rcases hev with ⟨htcb, -⟩ | ⟨⟨htcb, hcon⟩, -⟩
    · exact .inl (by rw [← htcb]; omega)
    · exact .inr ⟨by rw [← htcb]; omega, hcon⟩
  have hreq : ev.isRequest = true ∧ ∀ cli cld body, ev ≠ .ccTry cli cld body := by
    rcases hev with ⟨-, rfl⟩ | ⟨-, hup⟩
    · exact ⟨rfl, by simp⟩
    · obtain ⟨body, rfl⟩ := CCEvent.exists_update hup
      exact ⟨rfl, by simp⟩
  have hfrom : fromReinvite (some (.fired t.cb), ev) = false := by
    rcases hev with ⟨htcb, -⟩ | ⟨⟨htcb, -⟩, -⟩ <;> simp [fromReinvite, Obs.reasks, htcb]
  refine hg.push (adds_of_leads h) h.cls hreq.2
    (htells.other (adds_of_leads h) ?_ (fun _ => htells.connected hmem hc) ?_ (hdue _) (hdue _) ?_)
    (fun _ => List.ne_nil_of_mem hmem) (fun x _ _ => hdue x) ?_
  · simp [fromInvite, hreq.1]
  · intro hx
    simp [Cb.obs, hfrom] at hx
  · rcases hev with ⟨htcb, rfl⟩ | ⟨-, hup⟩
    · rw [htcb] at hfire
      simp only [if_true]
      omega
    · obtain ⟨body, rfl⟩ := CCEvent.exists_update hup
      simpa using hdue .disconnect
  · rcases hev with ⟨-, rfl⟩ | ⟨⟨htcb, -⟩, hup⟩
    · simpa [CCEvent.isUpdate] using hdue .reinvite
    · rw [htcb] at hfire
      rw [if_pos hup]
      omega

/-- The answer to a re-INVITE. -/
theorem sends_answer (hg : Ordered s cs) (h : (s.entered cb env).Leads s₂ [])
    (hfinal : ev.isFinal = true) (hcb : (cb.obs s).reasks = true) :
    Ordered (machine.sent (.recvEvent ev) s₂) ((.recvEvent ev, s₂) :: cs) := by
  obtain ⟨rings, finals, htells, hsettles⟩ := hg.tells
  have hdue := due_of_leads ev h
  simp only [List.countP_nil, Nat.add_zero] at hdue
  have hfrom : fromReinvite (some (cb.obs s), ev) = true := hcb
  have hreq := CCEvent.not_isRequest (.inr hfinal)
  refine hg.push (adds_of_leads h) h.cls (fun _ _ _ hev => by simp [hev, CCEvent.isFinal] at hfinal)
    (htells.other (adds_of_leads h) (by simp [fromInvite, hfrom]) (by simp [hreq]) (fun _ => hfinal)
      (hdue _) (hdue _) ?_) ?_ (fun x _ _ => hdue x) ?_
  · have hdisc : ev ≠ .disconnect := by rintro rfl; cases hfinal
    simpa [hdisc] using hdue .disconnect
  · rintro (⟨call, hmem, hset⟩ | ⟨-, hlast⟩)
    · exact hsettles call hmem hset
    · have hheard : s₂.heard = some (cb.obs s) := h.heard.trans Subtest.heard_entered
      rcases hlast with hlast | hlast
      · rw [Subtest.heard_of_last hlast rfl, Option.some.injEq] at hheard
        simp [← hheard, Obs.reasks] at hcb
      · rw [Subtest.heard_of_last hlast rfl, Option.some.injEq] at hheard
        simp [← hheard, Obs.reasks] at hcb
  · have hupdate : ev.isUpdate = false := by
      cases ev with
      | update body => cases hfinal
      | _ => rfl
    simpa [hupdate] using hdue .reinvite

/-- **A callback that sends an event.** -/
theorem sends (hg : Ordered s cs) (hen : cb.Enabled s) (h : Sends (s.entered cb env) cb ev s₂) :
    Ordered (machine.sent (.recvEvent ev) s₂) ((.recvEvent ev, s₂) :: cs) := by
  have hcls : (s.entered cb env).cls = s.cls := rfl
  have hplain {c : PyClass} (hc : s.cls.isA c = true)
      (hn : s.cls.isA .testReinvite = true → s.cls.isA c = false) {q : Prop} :
      s.cls.isA .testReinvite = true → q := fun hr => by
    rw [hn hr] at hc
    cases hc
  cases h with
  | ring htcb ha hd hs hbody => exact hg.sends_ring hen htcb hs hd.1
  | failRing htcb hc hd hs =>
      exact hg.sends_final hen (.inl htcb) hs rfl (by simp)
        (hplain hc fun hr => (PyClass.plain_of_testReinvite hr).2.1)
  | connect htcb ha hd hs hbody =>
      refine hg.sends_final hen (.inr htcb) hs rfl (fun x => ?_) fun _ => rfl
      by_cases hx : x = .disconnect <;> simp [hx, CCEvent.isConnect, Ne.symm]
  | failConnect htcb hc hd hs =>
      refine hg.sends_final hen (.inr htcb) hs rfl (by simp) ?_
      rcases hc with hc | hc
      · exact hplain hc fun hr => (PyClass.plain_of_testReinvite hr).1
      · exact hplain hc fun hr => (PyClass.plain_of_testReinvite hr).2.2.1
  | hangUp htcb hd hs =>
      rcases htcb with htcb | htcb
      · exact hg.sends_request hen hs (.inl ⟨htcb, rfl⟩)
      · have hpos := Subtest.due_pos hen
        rw [htcb, hg.never.1] at hpos
        cases hpos
  | reinvite htcb hd hs hrtp hl hsdp =>
      rcases htcb with htcb | htcb
      · exact hg.sends_request hen hs (.inr ⟨⟨htcb, hd.1⟩, rfl⟩)
      · have hpos := Subtest.due_pos hen
        rw [htcb, hg.never.2] at hpos
        cases hpos
  | answer hcb hl hs hrtp =>
      refine hg.sends_answer hs rfl ?_
      rcases hcb with ⟨t, rfl, htcb⟩ | ⟨⟨body, rfl⟩, -⟩
      · simp [Cb.obs, Obs.reasks, htcb]
      · rfl
  | refuse hc hs => exact hg.sends_answer hs rfl rfl

/-- **One step.** -/
theorem step {g g' : Stage Subtest UaCall} {a : Act} (hg : Ordered g.st g.calls) (h : Staged g a g') :
    Ordered g'.st g'.calls := by
  cases h with
  | @enter i s s₁ s₂ cs stop he hP =>
      obtain ⟨hen, rfl⟩ := entry_eq_entered he
      cases stop with
      | ret a => exact hg.silent hP
      | raise e => exact (hg.silent hP).caught e
      | call c =>
          cases c with
          | recvRequest => exact hP.elim
          | recvEvent ev => exact hg.sends hen hP
  | ret hT => exact hg.tail hT
  | retRaise hT => exact (hg.tail hT).caught _
  | throw => exact hg.drop.caught _

end Ordered

/-- As the UA is first called. -/
theorem Setup.Opens.ordered {c : UaCall} (h : p.Opens c s) (hb : p.cls.isAlice = false) :
    Ordered (machine.sent c s) [(c, s)] := by
  have hcls := h.cls
  obtain ⟨rfl, body, ival, hlog, htimers⟩ := h.bob hb
  have hsent : (machine.sent .recvRequest s).handed = [] := by
    unfold Subtest.handed
    rw [hlog]
    rfl
  have hring : (machine.sent .recvRequest s).due .ring = 1 := by
    show s.timers.countP _ = 1
    rw [htimers]
    rfl
  have hdue (x : TimerCb) (hx : x ≠ .ring) : (machine.sent .recvRequest s).due x = 0 := by
    show s.timers.countP _ = 0
    rw [htimers]
    exact List.countP_eq_zero.mpr (by simpa using hx.symm)
  refine ⟨hcls ▸ hb, by simp [hcls, h.begun.cls], ⟨[], [], ?_, fun call hmem hset => ?_⟩, ?_,
    ⟨hdue _ (by simp), hdue _ (by simp)⟩, fun hpos => ?_⟩
  · exact {
      order := by rw [hsent]; rfl
      isRing := by simp
      isFinal := by simp
      ringing := by simp [hring]
      ending := by simp [hring, hdue]
      hangingUp := by simp [hsent, hdue]
      connectDone := fun hc => by rw [h.begun.blank.connectDone] at hc; cases hc
      accepting := by simp
      requests := by simp [hsent]
      answers := by simp [hsent] }
  · rw [List.mem_singleton.mp hmem] at hset
    simp [UaCall.Settles] at hset
  · simp [hsent, hdue]
  · exact absurd (hdue .reinvite (by simp)) hpos.ne'

/-- **Bob's responses and requests** are in order in every state of every run. -/
theorem Setup.Reaches.grammar {acts : List Act} {y : Sys} (h : p.Reaches acts y) (hl : p.Lives y.st)
    (hb : p.cls.isAlice = false) : Grammar y.st.handed := by
  obtain ⟨cs, -, hordered⟩ := Setup.staged_of_reaches (I := fun g => Ordered g.st g.calls)
    (fun c s ho => ho.ordered hb) (fun g a g' hg hs => hg.step hs) h hl
  exact hordered.grammar

end VoipTests
