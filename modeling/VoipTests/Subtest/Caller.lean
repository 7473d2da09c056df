import VoipTests.Subtest.Grammar
import VoipTests.Subtest.Pair
import VoipTests.Subtest.Validated

/-!
# VoipTests.Subtest.Caller

What Alice sends, in the order in which she sends it.

Her UA is handed the INVITE first, and no other one; then re-INVITEs when a timer
for one has fired, BYEs (or a CANCEL) when a timer for that has, and a 200 in
answer to every re-INVITE that she takes (`Calls`).  A request within the call is
sent as long as the call is up, on either side (`Timely`).
-/

namespace VoipTests

open Callback Relation

variable {p : Setup} {s s' s₂ : Subtest} {cb : Cb} {env : Env}

/-! ## when a request is sent -/

/-- What has happened before the event was handed to the UA. -/
def TimelyAt (before : List Obs) : CCEvent → Prop
  | .update _ => .connectDone ∈ before ∧ .disconnectDone ∉ before
  | .disconnect => .disconnectDone ∉ before
  | _ => True

/-- Every request within the call has been sent while the call was up. -/
def Timely (log : List Obs) : Prop := ∀ l ev l', log = l ++ .inject ev :: l' → TimelyAt l ev

theorem timely_nil : Timely [] := by simp [Timely]

theorem Timely.concat {log : List Obs} {o : Obs} (h : Timely log)
    (ho : ∀ ev, o = .inject ev → TimelyAt log ev) : Timely (log ++ [o]) := by
  intro l ev l' heq
  obtain rfl | ⟨l', o', rfl⟩ := List.eq_nil_or_concat' l'
  · obtain ⟨rfl, hlast⟩ := List.append_inj' heq rfl
    exact ho ev (List.singleton_inj.mp hlast)
  · rw [← List.cons_append, ← List.append_assoc] at heq
    obtain ⟨rfl, -⟩ := List.append_inj' heq rfl
    exact h l ev l' rfl

/-- Entries that send nothing. -/
theorem Timely.append {log l : List Obs} (h : Timely log) (hl : ∀ ev, .inject ev ∉ l) :
    Timely (log ++ l) := by
  induction l using List.reverseRecOn with
  | nil => simpa using h
  | append_singleton l o ih =>
      rw [← List.append_assoc]
      refine (ih fun ev hmem => hl ev (List.mem_append_left _ hmem)).concat fun ev ho => ?_
      exact (hl ev (by simp [ho])).elim

/-- The object from which an event is sent. -/
def Subtest.Warrants (s : Subtest) : CCEvent → Prop
  | .update _ => s.connectDone = true ∧ s.disconnectDone = false ∧
      ∃ cb, s.last = some (.fired cb) ∧ cb.starts
  | .disconnect => s.disconnectDone = false
  | _ => True

/-- A move sends nothing, or one event. -/
theorem Move.sends (h : Move s s') : (∃ l, s'.log = s.log ++ l ∧ ∀ ev, .inject ev ∉ l) ∨
    ∃ ev, s'.log = s.log ++ [.inject ev] ∧ s.Warrants ev := by
  have hnone {s' : Subtest} (h : s'.log = s.log) :
      (∃ l, s'.log = s.log ++ l ∧ ∀ ev, .inject ev ∉ l) ∨
        ∃ ev, s'.log = s.log ++ [.inject ev] ∧ s.Warrants ev := .inl ⟨[], by simpa using h, by simp⟩
  have hone {s' : Subtest} {o : Obs} (h : s'.log = s.log ++ [o]) (ho : ∀ ev, o ≠ .inject ev) :
      (∃ l, s'.log = s.log ++ l ∧ ∀ ev, .inject ev ∉ l) ∨
        ∃ ev, s'.log = s.log ++ [.inject ev] ∧ s.Warrants ev :=
    .inl ⟨[o], h, fun ev hmem => ho ev (List.mem_singleton.mp hmem).symm⟩
  cases h with
  | unseen h =>
      obtain ⟨_, _, _, _, -, -, rfl⟩ := h
      exact hnone rfl
  | raised exc => exact hone rfl (by simp)
  | hangUp h => exact .inr ⟨_, rfl, h⟩
  | connected => exact hone rfl (by simp)
  | disconnected => exact hone rfl (by simp)
  | ring => exact .inr ⟨_, rfl, trivial⟩
  | fail => exact .inr ⟨_, rfl, trivial⟩
  | connect => exact .inr ⟨_, rfl, trivial⟩
  | connectDone => exact hone rfl (by simp)
  | reinvite hl hcb hc hd => exact .inr ⟨_, rfl, hc, hd, _, hl, hcb⟩
  | restored => exact hone rfl (by simp)
  | held on => cases on <;> exact hone rfl (by simp)
  | answer => exact .inr ⟨_, rfl, trivial⟩
  | dead hl h =>
      obtain ⟨s₁, he, rfl | ⟨exc, rfl⟩⟩ := ends_of_settle h
      · obtain ⟨n, hn⟩ := he.log
        exact .inl ⟨_, hn, fun ev hmem => by cases List.eq_of_mem_replicate hmem⟩
      · obtain ⟨n, hn⟩ := he.log
        refine .inl ⟨List.replicate n .connectDone ++ [.raised exc], ?_, fun ev hmem => ?_⟩
        · rw [Subtest.note, hn, List.append_assoc]
        · simp at hmem
  | _ => exact hnone rfl

/-- **A request within the call is sent while the call is up**, on either side and
in every life. -/
theorem Setup.Lives.timely (h : p.Lives s) : Timely s.log := by
  refine h.induction (P := fun s => Timely s.log) (fun s hb => ?_) fun s s' hl hs hc => ?_
  · have hcalled := hb.called
    unfold Setup.Called at hcalled
    split at hcalled
    · obtain ⟨cli, cld, body, hlog, -⟩ := hcalled
      rw [hlog]
      refine timely_nil.concat fun ev hev => ?_
      cases hev
      exact trivial
    · obtain ⟨sdp, ival, -, -, hlog, -⟩ := hcalled
      rw [hlog]
      exact timely_nil.append (by simp)
  · cases hc with
    | enter h =>
        obtain ⟨-, rfl⟩ := eq_of_entry h
        rename_i cb _
        exact hs.concat fun ev hev => by cases cb <;> cases hev
    | move h =>
        rcases h.sends with ⟨l, hlog, hno⟩ | ⟨ev, hlog, hw⟩
        · rw [hlog]
          exact hs.append hno
        · rw [hlog]
          refine hs.concat fun ev' hev => ?_
          cases hev
          have hrec := hl.recorded
          have hdown (hd : s.disconnectDone = false) : .disconnectDone ∉ s.log := fun hmem => by
            rw [hrec.disconnectDone.mpr hmem] at hd
            cases hd
          cases ev with
          | update body =>
              obtain ⟨hc, hd, cb, hlast, hcb⟩ := hw
              refine ⟨?_, hdown hd⟩
              by_cases hi : p.cls ∈ initiators
              · exact hrec.connectDone (hl.cls ▸ (isA_of_initiator hi).2.1) hc
              · exact ((hl.passive hi).fired cb (mem_of_last hlast) hcb).elim
          | disconnect => exact hdown hw
          | _ => exact trivial

/-! ## what is sent on account of what -/

/-- What Alice sends once the INVITE is out, and what she has received then. -/
def Follows (x : Option Obs × CCEvent) : Prop :=
  match x.2 with
  | .update _ => ∃ cb, x.1 = some (.fired cb) ∧ cb.starts
  | .disconnect => x.1 = some (.fired .disconnect) ∨ x.1 = some (.fired .cancel)
  | .connect .. => fromReinvite x = true
  | _ => False

/-- The invariant of Alice's runs. -/
structure Calls (s : Subtest) : Prop where
  alice : s.cls.isAlice = true
  opens : ∃ cli cld body rest, s.handed = (none, .ccTry cli cld body) :: rest ∧
    ∀ x ∈ rest, Follows x

namespace Calls

variable {cs : List (UaCall × Subtest)} {ev : CCEvent}

/-- Nothing is sent. -/
theorem next (h : Calls s) (hcls : s'.cls = s.cls) (hsent : s'.handed = s.handed) : Calls s' := by
  refine ⟨hcls ▸ h.alice, ?_⟩
  rw [hsent]
  exact h.opens

theorem silent (h : Calls s) (hs : Silent cb (s.entered cb env) s₂) : Calls s₂ := by
  obtain ⟨ts, hstays, -⟩ := hs.stays
  exact h.next hstays.cls (hstays.handed.trans Subtest.handed_entered)

theorem caught (h : Calls s) (e : Exc) : Calls (machine.caught e s) :=
  h.next rfl (Subtest.handed_caught e)

theorem tail {c : UaCall} {s₀ : Subtest} (h : Calls s)
    (hT : Tail c s₀ (machine.resume env s) s₂) : Calls s₂ := by
  obtain ⟨ts, hstays, -⟩ := hT.stays
  exact h.next hstays.cls hstays.handed

/-- No class of Alice's is one of Bob's. -/
theorem isA_b (h : Calls s) (scn : Scenario) : s.cls.isA (.b scn) = false := by
  have hnone (c scn : Scenario) : (PyClass.a c).isA (.b scn) = false := by
    cases c <;> cases scn <;> decide +kernel
  have halice := h.alice
  cases hc : s.cls with
  | a c => exact hnone c scn
  | _ => rw [hc] at halice; cases halice

/-- **A callback that sends an event** sends what it may. -/
theorem sends (h : Calls s) (hs : Sends (s.entered cb env) cb ev s₂) :
    Calls (machine.sent (.recvEvent ev) s₂) := by
  obtain ⟨ts, hleads⟩ := hs.leads
  have hadds : s.Adds (machine.sent (.recvEvent ev) s₂) (some (cb.obs s), ev) :=
    adds_of_leads hleads
  have hbob {P : Prop} (hb : (s.entered cb env).cls.isAlice = false) : P := by
    rw [show (s.entered cb env).cls.isAlice = true from h.alice] at hb
    cases hb
  have hnot {P : Prop} {scn : Scenario} (hb : (s.entered cb env).cls.isA (.b scn) = true) : P := by
    rw [show (s.entered cb env).cls.isA (.b scn) = false from h.isA_b scn] at hb
    cases hb
  have hfollows : Follows (some (cb.obs s), ev) := by
    cases hs with
    | ring ht ha => exact hbob ha
    | failRing ht hc => exact hnot hc
    | connect ht ha => exact hbob ha
    | failConnect ht hc => exact hc.elim hnot hnot
    | hangUp ht => exact ht.imp (congrArg (some <| Obs.fired ·)) (congrArg (some <| Obs.fired ·))
    | reinvite ht => exact ⟨_, rfl, ht⟩
    | answer hcb =>
        obtain ⟨t, rfl, ht⟩ | ⟨⟨body, rfl⟩, -⟩ := hcb
        · simp [Follows, fromReinvite, Cb.obs, Obs.reasks, ht]
        · rfl
    | refuse hc => exact hnot hc
  obtain ⟨cli, cld, body, rest, hhanded, hrest⟩ := h.opens
  refine ⟨hadds.cls ▸ h.alice, cli, cld, body, rest ++ [(some (cb.obs s), ev)], ?_, fun x hx => ?_⟩
  · rw [hadds.handed, hhanded, List.cons_append]
  · rcases List.mem_append.mp hx with hx | hx
    · exact hrest x hx
    · exact List.mem_singleton.mp hx ▸ hfollows

/-- **One step.** -/
theorem step {g g' : Stage Subtest UaCall} {a : Act} (hg : Calls g.st) (h : Staged g a g') :
    Calls g'.st := by
  cases h with
  | @enter i s s₁ s₂ cs stop he hP =>
      obtain ⟨-, rfl⟩ := entry_eq_entered he
      cases stop with
      | ret a => exact hg.silent hP
      | raise e => exact (hg.silent hP).caught e
      | call c =>
          cases c with
          | recvRequest => exact hP.elim
          | recvEvent ev => exact hg.sends hP
  | ret hT => exact hg.tail hT
  | retRaise hT => exact (hg.tail hT).caught _
  | throw => exact hg.caught _

end Calls

/-- As the UA is first called. -/
theorem Setup.Opens.calls {c : UaCall} (h : p.Opens c s) (ha : p.cls.isAlice = true) :
    Calls (machine.sent c s) := by
  have halice : s.cls.isAlice = true := h.cls ▸ ha
  obtain ⟨cli, cld, body, rfl, -, hlog, -⟩ := h.alice halice
  refine ⟨halice, cli, cld, body, [], ?_, by simp⟩
  unfold Subtest.handed
  rw [hlog]
  rfl

/-- **What Alice sends is in order**, in every state of every run: the INVITE
comes first and is the only one; every other event is a re-INVITE, a BYE or an
answer to a re-INVITE, sent on account of what warrants it; requests are sent
while the call is up; and there is one re-INVITE for each `connected` at most,
besides the four of a sequence. -/
theorem Setup.Reaches.calls_in_order {acts : List Act} {y : Sys} (h : p.Reaches acts y)
    (hc : y.st.ua.created = true) (ha : p.cls.isAlice = true) :
    (∃ cli cld body rest, y.st.handed = (none, .ccTry cli cld body) :: rest ∧
      ∀ x ∈ rest, Follows x) ∧
    Timely y.st.log ∧ sent y.st.log ≤ 4 + y.st.log.count .connected := by
  have hl : p.Lives y.st := (Setup.found_of_reaches h).lives hc
  obtain ⟨cs, -, hcalls⟩ := Setup.staged_of_reaches (I := fun g => Calls g.st)
    (fun c s ho => ho.calls ha) (fun g a g' hg hs => hg.step hs) h hl
  refine ⟨hcalls.opens, hl.timely, ?_⟩
  have hbudget := hl.budget ha
  unfold budget at hbudget
  omega

/-- A call in which Alice sends a re-INVITE. -/
theorem Setup.Reaches.calls_in_order_reinvite : ∃ y, (Sample.alice .reinvite false).Reaches
      Sample.aliceReinvite y ∧ sent y.st.log = 1 ∧
    ∃ cli cld body rest, y.st.handed = (none, .ccTry cli cld body) :: rest ∧
      ∀ x ∈ rest, Follows x := by
  have hrun : ((Sample.alice .reinvite false).run Sample.aliceReinvite).map
      (fun y => (y.st.ua.created, sent y.st.log)) = some (true, 1) := by
    decide +kernel
  obtain ⟨y, hy, hf⟩ := Setup.exists_of_run hrun
  rw [Prod.mk.injEq] at hf
  exact ⟨y, hy, hf.2, (hy.calls_in_order hf.1 rfl).1⟩

end VoipTests
