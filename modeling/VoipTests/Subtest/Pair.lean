import VoipTests.Subtest.Initiator

/-!
# VoipTests.Subtest.Pair

The two sides of a re-INVITE scenario, and what is between them.

The switch may forward, answer or drop what it likes, so a run of the pair is
any interleaving of a run of each side.  Only the scenario `reinv_onhold`
counts the re-INVITEs on the side that receives them; in the others the pass
of the two sides says that the re-INVITE got through only if the switch does
not answer it itself.
-/

namespace VoipTests

open Callback Relation

variable {p : Setup} {s s' : Subtest}

/-! ## counting -/

/-- A `CCEventUpdate` that the UA delivers. -/
def Obs.isUpdate : Obs → Bool
  | .event ev _ => ev.isUpdate
  | _ => false

/-- A `CCEventUpdate` that the subtest injects. -/
def Obs.sendsUpdate : Obs → Bool
  | .inject ev => ev.isUpdate
  | _ => false

/-- The re-INVITEs a subtest has received. -/
def received (log : List Obs) : Nat := log.countP Obs.isUpdate

/-- The re-INVITEs a subtest has sent. -/
def sent (log : List Obs) : Nat := log.countP Obs.sendsUpdate

/-- What a re-INVITE can follow: the timer of one, or the callback `connected`,
which sets such a timer. -/
def Obs.prompts : Obs → Bool
  | .connected => true
  | .fired cb => cb.starts
  | _ => false

/-- The re-INVITEs sent, and those still to come without another `connected`. -/
def budget (log : List Obs) (timers : List Timer) (sched : List ℚ) : Nat :=
  sent log + timers.countP (fun t => t.cb.starts) + sched.length +
    (log.getLast?.any Obs.prompts).toNat

theorem budget_append {log l : List Obs} {timers : List Timer} {sched : List ℚ}
    (h : ∀ o ∈ l, o.sendsUpdate = false ∧ o.prompts = false) :
    budget (log ++ l) timers sched ≤ budget log timers sched := by
  have hzero : l.countP Obs.sendsUpdate = 0 :=
    List.countP_eq_zero.mpr fun o ho => by simp [(h o ho).1]
  have hsent : sent (log ++ l) = sent log := by rw [sent, List.countP_append, hzero, sent, add_zero]
  have hlast := last_append_le log (f := Obs.prompts) fun o ho => (h o ho).2
  rw [budget, budget, hsent]
  omega

theorem budget_timers {log : List Obs} {timers ts : List Timer} {sched : List ℚ} :
    budget log (timers ++ ts) sched =
      budget log timers sched + ts.countP (fun t => t.cb.starts) := by
  rw [budget, budget, List.countP_append]
  omega

/-- An entry that is followed up. -/
theorem budget_used {log : List Obs} {o : Obs} (o' : Obs) (timers : List Timer) (sched : List ℚ)
    (hl : log.getLast? = some o) (hp : o.prompts = true) (hp' : o'.prompts = false) :
    budget (log ++ [o']) timers sched + 1 = budget log timers sched + o'.sendsUpdate.toNat := by
  have hsent : sent (log ++ [o']) = sent log + o'.sendsUpdate.toNat := by
    rw [sent, List.countP_append, List.countP_singleton, sent]
    cases o'.sendsUpdate <;> rfl
  rw [budget, budget, hsent, hl, List.getLast?_concat, Option.any_some, Option.any_some, hp, hp']
  simp only [Bool.toNat_true, Bool.toNat_false]
  omega

/-- Any other entry. -/
theorem budget_concat (o : Obs) (log : List Obs) (timers : List Timer) (sched : List ℚ) :
    budget (log ++ [o]) timers sched ≤
      budget log timers sched + o.sendsUpdate.toNat + o.prompts.toNat := by
  have hsent : sent (log ++ [o]) = sent log + o.sendsUpdate.toNat := by
    rw [sent, List.countP_append, List.countP_singleton, sent]
    cases o.sendsUpdate <;> rfl
  rw [budget, budget, hsent, List.getLast?_concat, Option.any_some]
  omega

/-- No move of Alice exceeds the budget. -/
theorem Move.budget (h : Move s s') (ha : s.cls.isAlice = true) :
    budget s'.log s'.timers s'.sched ≤ budget s.log s.timers s.sched := by
  have hnote {s' : Subtest} {o : Obs} (hl : s'.log = s.log ++ [o]) (ht : s'.timers = s.timers)
      (hs : s'.sched = s.sched) (ho : o.sendsUpdate = false) (hp : o.prompts = false) :
      VoipTests.budget s'.log s'.timers s'.sched ≤ VoipTests.budget s.log s.timers s.sched := by
    rw [hl, ht, hs]
    exact budget_append (by simp [ho, hp])
  have hbob {P : Prop} (hb : s.cls.isAlice = false) : P := by
    rw [ha] at hb
    cases hb
  cases h with
  | unseen h =>
      obtain ⟨_, _, _, _, -, -, rfl⟩ := h
      exact le_rfl
  | held on => cases on <;> exact hnote rfl rfl rfl rfl rfl
  | raised exc => exact hnote rfl rfl rfl rfl rfl
  | hangUp => exact hnote rfl rfl rfl rfl rfl
  | disconnected => exact hnote rfl rfl rfl rfl rfl
  | restored => exact hnote rfl rfl rfl rfl rfl
  | answer => exact hnote rfl rfl rfl rfl rfl
  | @timer t ht =>
      show VoipTests.budget s.log (s.timers ++ [t]) s.sched ≤ _
      rw [budget_timers]
      simp only [List.mem_cons, List.not_mem_nil, or_false] at ht
      rcases ht with ht | ht | ht <;> simp [TimerCb.starts, ht]
  | @connected ts hl hts hlen ival =>
      show VoipTests.budget (s.log ++ [.connectDone]) (s.timers ++ [⟨.disconnect, ival⟩] ++ ts)
        s.sched ≤ _
      have hused := budget_used .connectDone s.timers s.sched hl rfl rfl
      have hts' := List.countP_le_length (p := fun t : Timer => decide t.cb.starts) (l := ts)
      rw [budget_timers, budget_timers]
      simp only [List.countP_singleton, TimerCb.starts, reduceCtorEq, or_self, decide_false,
        Bool.false_eq_true, if_false, Obs.sendsUpdate, Bool.toNat_false] at hused hts' ⊢
      omega
  | @reinvite lSDP sdp cb hl hcb hc hd hlsdp hv =>
      show VoipTests.budget (s.log ++ [.inject (.update (some sdp))]) s.timers s.sched ≤ _
      have hused := budget_used (.inject (.update (some sdp))) s.timers s.sched hl
        (decide_eq_true hcb) rfl
      simp only [Obs.sendsUpdate, CCEvent.isUpdate, Bool.toNat_true] at hused
      omega
  | @scheduled cb ival hc hcb hs =>
      show VoipTests.budget s.log (s.timers ++ [⟨cb, ival⟩]) s.sched.dropLast ≤ _
      have hpos : 0 < s.sched.length := by
        rw [List.length_pos_iff]
        rintro hnil
        rw [hnil] at hs
        cases hs
      rw [budget_timers, VoipTests.budget, VoipTests.budget, List.length_dropLast]
      have hone : [Timer.mk cb ival].countP (fun t => decide t.cb.starts) ≤ 1 :=
        List.countP_le_length
      omega
  | dead hl h =>
      obtain ⟨s₁, he, rfl | ⟨exc, rfl⟩⟩ := ends_of_settle h
      · obtain ⟨n, hn⟩ := he.log
        rw [hn, he.field Subtest.timers fun _ => rfl, he.field Subtest.sched fun _ => rfl]
        refine budget_append fun o ho => ?_
        rw [List.eq_of_mem_replicate ho]
        exact ⟨rfl, rfl⟩
      · obtain ⟨n, hn⟩ := he.log
        show VoipTests.budget (s₁.log ++ [.raised exc]) s₁.timers s₁.sched ≤ _
        rw [hn, he.field Subtest.timers fun _ => rfl, he.field Subtest.sched fun _ => rfl,
          List.append_assoc]
        refine budget_append fun o ho => ?_
        rcases List.mem_append.mp ho with ho | ho
        · rw [List.eq_of_mem_replicate ho]
          exact ⟨rfl, rfl⟩
        · rw [List.mem_singleton.mp ho]
          exact ⟨rfl, rfl⟩
  | connectDone hb => exact hbob hb
  | ring hb => exact hbob hb
  | fail hb => exact hbob hb
  | connect hb => exact hbob hb
  | reinviteTimer hb => exact hbob hb
  | _ => exact le_rfl

/-- As the UA is first called. -/
theorem Setup.Begun.budget (hb : p.Begun s) (ha : p.cls.isAlice = true) :
    budget s.log s.timers s.sched ≤ 4 := by
  have hcalled := hb.called
  unfold Setup.Called at hcalled
  split at hcalled
  · obtain ⟨cli, cld, body, hlog, -, hts⟩ := hcalled
    have hsched := hb.sched
    simp [hlog, hts, VoipTests.budget, sent, Obs.sendsUpdate, CCEvent.isUpdate, Obs.prompts]
    omega
  · next hside =>
    rw [Setup.cls, hside] at ha
    cases ha

/-- A timer that fires takes its share of the budget along. -/
theorem budget_fired {t : Timer} (ht : t ∈ s.timers) :
    budget (s.log ++ [.fired t.cb]) (s.timers.erase t) s.sched ≤ budget s.log s.timers s.sched := by
  have herase : budget s.log (s.timers.erase t) s.sched + (decide t.cb.starts).toNat =
      budget s.log s.timers s.sched := by
    rw [budget, budget, (List.perm_cons_erase ht).countP_eq, List.countP_cons]
    cases decide t.cb.starts <;> simp only [Bool.toNat_true, Bool.toNat_false, if_true,
      Bool.false_eq_true, if_false] <;> omega
  have hmore : budget (s.log ++ [.fired t.cb]) (s.timers.erase t) s.sched ≤
      budget s.log (s.timers.erase t) s.sched + 0 + (decide t.cb.starts).toNat := budget_concat _ _ _ _
  exact hmore.trans herase.le

/-- **A callback that is entered** takes nothing from the budget, but for
`connected`. -/
theorem budget_entry {cb : Cb} {idle : Bool} (h : s.entry cb idle = some s') :
    budget s'.log s'.timers s'.sched + s.log.count .connected ≤
      budget s.log s.timers s.sched + s'.log.count .connected := by
  obtain ⟨hen, rfl⟩ := eq_of_entry h
  have hcount (o : Obs) : (s.log ++ [o]).count .connected =
      s.log.count .connected + if o = .connected then 1 else 0 := by
    rw [List.count_append, List.count_singleton]
    simp
  have hquiet (o : Obs) (ho : o.sendsUpdate = false) (hp : o.prompts = false) :
      budget (s.log ++ [o]) s.timers s.sched + s.log.count .connected ≤
        budget s.log s.timers s.sched + (s.log ++ [o]).count .connected := by
    have happ : budget (s.log ++ [o]) s.timers s.sched ≤ _ := budget_append (l := [o]) (by simp [ho, hp])
    rw [hcount]
    omega
  cases cb with
  | connected =>
      have hmore : budget (s.log ++ [.connected]) s.timers s.sched ≤
          budget s.log s.timers s.sched + 0 + 1 := budget_concat _ _ _ _
      have hone := hcount .connected
      rw [if_pos rfl] at hone
      show budget (s.log ++ [.connected]) s.timers s.sched + _ ≤ _ + (s.log ++ [Obs.connected]).count _
      omega
  | timer t =>
      have hfired := budget_fired (s := s) hen
      have hnone := hcount (.fired t.cb)
      rw [if_neg (by simp)] at hnone
      show budget (s.log ++ [.fired t.cb]) (s.timers.erase t) s.sched + _ ≤
        _ + (s.log ++ [Obs.fired t.cb]).count _
      omega
  | event ev => exact hquiet _ rfl rfl
  | disconnected origin acct => exact hquiet _ rfl rfl
  | dead => exact hquiet _ rfl rfl
  | inDialogInvite ruri => exact hquiet _ rfl rfl

/-- **How many re-INVITEs Alice sends**: one for each `connected`, and four
that are scheduled in advance. -/
theorem Setup.Lives.budget (h : p.Lives s) (ha : p.cls.isAlice = true) :
    budget s.log s.timers s.sched ≤ 4 + s.log.count .connected := by
  refine h.induction (P := fun s => VoipTests.budget s.log s.timers s.sched ≤
    4 + s.log.count .connected) (fun s hb => ?_) fun s s' hl hs hc => ?_
  · exact (hb.budget ha).trans (Nat.le_add_right _ _)
  · cases hc with
    | enter h =>
        have hentry := budget_entry h
        omega
    | move h =>
        obtain ⟨l, hlog, hmade⟩ := h.log
        have hno : l.count .connected = 0 := by
          rw [List.count_eq_zero]
          exact fun hmem => by cases hmade _ hmem
        have hmove := h.budget (hl.cls ▸ ha)
        have hcount : s'.log.count .connected = s.log.count .connected := by
          rw [hlog, List.count_append, hno, add_zero]
        omega

/-- The holds Bob has counted, and one still to come for the re-INVITE that
has just come in. -/
def Subtest.holds (s : Subtest) : Nat :=
  s.onholdCount + s.offholdCount + (s.last.any Obs.isUpdate).toNat

theorem Move.holds (h : Move s s') (hb : s.cls.isAlice = false) : s'.holds ≤ s.holds := by
  have hsame {s' : Subtest} {l : List Obs} (hon : s'.onholdCount = s.onholdCount)
      (hoff : s'.offholdCount = s.offholdCount) (hlog : s'.log = s.log ++ l)
      (hl : ∀ o ∈ l, o.made = true) : s'.holds ≤ s.holds := by
    have hlast := last_append_le s.log (f := Obs.isUpdate) (l := l) fun o ho => by
      have hm := hl o ho
      cases o <;> first | rfl | cases hm
    rw [Subtest.holds, Subtest.holds, hon, hoff, Subtest.last, Subtest.last, hlog]
    omega
  obtain ⟨l, hlog, hmade⟩ := h.log
  cases h with
  | unseen h =>
      obtain ⟨_, _, _, _, -, -, rfl⟩ := h
      exact le_rfl
  | held on hev =>
      obtain ha | ⟨sdp, inProgress, hl⟩ := hev
      · rw [hb] at ha
        cases ha
      · have hone : s.holds = s.onholdCount + s.offholdCount + 1 := by rw [Subtest.holds, hl]; rfl
        have hafter : ((s.hold on).note (.held on)).holds = s.onholdCount + s.offholdCount + 1 := by
          have hlast : ((s.hold on).note (.held on)).last = some (.held on) := List.getLast?_concat
          rw [Subtest.holds, hlast]
          cases on with
          | true =>
              show s.onholdCount + 1 + s.offholdCount + 0 = _
              omega
          | false =>
              show s.onholdCount + (s.offholdCount + 1) + 0 = _
              omega
        omega
  | dead hl h =>
      obtain ⟨s₁, he, rfl | ⟨exc, rfl⟩⟩ := ends_of_settle h
      · exact hsame (he.field Subtest.onholdCount fun _ => rfl)
          (he.field Subtest.offholdCount fun _ => rfl) hlog hmade
      · exact hsame (he.field Subtest.onholdCount fun _ => rfl)
          (he.field Subtest.offholdCount fun _ => rfl) hlog hmade
  | _ => exact hsame rfl rfl hlog hmade

theorem received_append {l l' : List Obs} : received (l ++ l') = received l + received l' :=
  List.countP_append

/-- **Bob counts no hold without a re-INVITE.** -/
theorem Setup.Lives.holds (h : p.Lives s) (hb : p.cls.isAlice = false) :
    s.holds ≤ received s.log := by
  refine h.induction (P := fun s => s.holds ≤ received s.log) (fun s hbegun => ?_) fun s s' hl hs hc => ?_
  · have hlast : s.last.any Obs.isUpdate = false := by
      cases hlst : s.last with
      | none => rfl
      | some o =>
          have hno := hbegun.not_entered (mem_of_last hlst)
          cases o <;> first | rfl | cases hno
    rw [Subtest.holds, hbegun.blank.onholdCount, hbegun.blank.offholdCount, hlast]
    exact Nat.zero_le _
  · cases hc with
    | enter h =>
        obtain ⟨-, rfl⟩ := eq_of_entry h
        rename_i cb _
        have hold : s.onholdCount + s.offholdCount ≤ s.holds := Nat.le_add_right _ _
        show s.onholdCount + s.offholdCount + ((s.log ++ [cb.obs s]).getLast?.any Obs.isUpdate).toNat ≤
          received (s.log ++ [cb.obs s])
        rw [received_append, List.getLast?_concat, Option.any_some, received, received,
          List.countP_singleton]
        rw [received] at hs
        cases (cb.obs s).isUpdate <;> simp <;> omega
    | move h =>
        obtain ⟨l, hlog, -⟩ := h.log
        have hmove := h.holds (hl.cls ▸ hb)
        rw [hlog, received_append]
        omega

/-! ## the scenarios -/

/-- The scenarios in which one side starts a well-formed re-INVITE. -/
def reinviteScenarios : List Scenario :=
  [.reinvite, .reinvFail, .reinvBrkn1, .reinvOnhold, .reinvBadAck, .reinvFrombob, .natedContact]

/-- The side that starts it. -/
def Scenario.starter : Scenario → PyClass
  | .reinvFrombob => .b .reinvFrombob
  | .natedContact => .b .natedContact
  | scn => .a scn

/-- The side that has to answer it. -/
def Scenario.responder : Scenario → PyClass
  | .reinvFrombob => .a .reinvFrombob
  | .natedContact => .a .natedContact
  | scn => .b scn

theorem starter_mem_initiators {scn : Scenario} (h : scn ∈ reinviteScenarios) :
    scn.starter ∈ initiators := by
  cases scn <;> first | exact absurd h (by decide) | decide

/-! ## the pair -/

/-- The side that starts the re-INVITE, and the other one. -/
abbrev Pair : Type := Sys × Sys

/-- One thing that happens to either. -/
abbrev PairAct : Type := Act ⊕ Act

/-- What is between the two may deliver anything at any time. -/
def Pair.step : Pair → PairAct → Option Pair := Run.interleave machine.step machine.step

/-- The outcome of a re-INVITE is let through only when the other side has
received one. -/
def LetsThrough (y : Pair) : PairAct → Prop
  | .inl (.enter ⟨.event ev, _⟩) =>
    y.1.st.reinviteInProgress = true ∧ (ev.isConnect = true ∨ ev.isFailure = true) →
      0 < received y.2.st.log
  | _ => True

/-- `connected` is called once. -/
def ConnectsOnce (y : Pair) : PairAct → Prop
  | .inl (.enter ⟨.connected, _⟩) => .connected ∉ y.1.st.log
  | _ => True

/-- What a scenario asks of the switch, or of the UA. -/
def Scenario.Asks (scn : Scenario) (y : Pair) (a : PairAct) : Prop :=
  if scn = .reinvOnhold then ConnectsOnce y a else LetsThrough y a

theorem received_mono {l l' : List Obs} (h : l <+: l') : received l ≤ received l' :=
  h.sublist.countP_le

/-- An outcome that came in while a re-INVITE was in progress. -/
def HasOutcome (log : List Obs) : Prop :=
  ∃ ev, .event ev true ∈ log ∧ (ev.isConnect = true ∨ ev.isFailure = true)

variable {pi pr : Setup} {acts : List PairAct} {y₀ y y' : Pair}

/-- The two halves of a state of the pair. -/
structure Pair.Found (pi pr : Setup) (y : Pair) : Prop where
  starter : pi.Found y.1
  responder : pr.Found y.2

/-- One step of the pair: a step of one side, the other being untouched. -/
theorem Pair.step_cases {a : PairAct} (h : Pair.step y a = some y') :
    (∃ b s, a = .inl b ∧ machine.step y.1 b = some s ∧ y' = (s, y.2)) ∨
      ∃ b s, a = .inr b ∧ machine.step y.2 b = some s ∧ y' = (y.1, s) := by
  cases a with
  | inl b =>
      obtain ⟨s, hs, rfl⟩ := Option.map_eq_some_iff.mp h
      exact .inl ⟨b, s, rfl, hs, rfl⟩
  | inr b =>
      obtain ⟨s, hs, rfl⟩ := Option.map_eq_some_iff.mp h
      exact .inr ⟨b, s, rfl, hs, rfl⟩

/-- What is entered by a step of the machine is what its callback enters. -/
theorem Setup.Found.entered_of_step {p : Setup} {y y' : Sys} {a : Act} (hf : p.Found y)
    (h : machine.step y a = some y') :
    ∃ l, y'.st.log = y.st.log ++ actObs y.st a ++ l ∧ ∀ o ∈ l, o.made = true := by
  have hl := hf.lives_of_step h
  obtain ⟨-, s₀, hb, -, hm⟩ := changes_of_step hf.1 hl.created h
  obtain ⟨l, hlog, hmade⟩ := hm.log
  exact ⟨l, by rw [hlog, log_of_begins hb], hmade⟩

/-- A switch that lets outcomes through only after the re-INVITE. -/
theorem received_of_outcome {a : PairAct} (hf : Pair.Found pi pr y) (hq : LetsThrough y a)
    (h : Pair.step y a = some y') (hy : HasOutcome y.1.st.log → 0 < received y.2.st.log) :
    HasOutcome y'.1.st.log → 0 < received y'.2.st.log := by
  rintro ⟨ev, hev, ho⟩
  rcases Pair.step_cases h with ⟨b, s, rfl, hs, rfl⟩ | ⟨b, s, rfl, hs, rfl⟩
  · obtain ⟨l, hlog, hmade⟩ := hf.starter.entered_of_step hs
    rw [hlog, List.mem_append, List.mem_append] at hev
    rcases hev with (hev | hev) | hev
    · exact hy ⟨ev, hev, ho⟩
    · cases b with
      | enter i =>
          obtain ⟨cb, env⟩ := i
          rw [actObs, List.mem_singleton] at hev
          cases cb with
          | event ev' =>
              rw [Cb.obs, Obs.event.injEq] at hev
              obtain ⟨rfl, hin⟩ := hev
              exact hq ⟨hin.symm, ho⟩
          | _ => cases hev
      | ret env => cases hev
      | throw e => cases hev
    · cases hmade _ hev
  · have hgrow := (hf.responder.step hs).2.log
    exact (hy ⟨ev, hev, ho⟩).trans_le (received_mono hgrow)

/-- A UA that calls `connected` once. -/
theorem count_connected {a : PairAct} (hf : Pair.Found pi pr y) (hq : ConnectsOnce y a)
    (h : Pair.step y a = some y') (hy : y.1.st.log.count .connected ≤ 1) :
    y'.1.st.log.count .connected ≤ 1 := by
  rcases Pair.step_cases h with ⟨b, s, rfl, hs, rfl⟩ | ⟨b, s, rfl, hs, rfl⟩
  · obtain ⟨l, hlog, hmade⟩ := hf.starter.entered_of_step hs
    have hno : l.count .connected = 0 := by
      rw [List.count_eq_zero]
      exact fun hmem => by cases hmade _ hmem
    rw [hlog, List.count_append, List.count_append, hno]
    by_cases hb : .connected ∈ actObs y.1.st b
    · cases b with
      | enter i =>
          obtain ⟨cb, env⟩ := i
          rw [actObs, List.mem_singleton] at hb
          cases cb with
          | connected =>
              have hfirst : .connected ∉ y.1.st.log := hq
              rw [List.count_eq_zero.mpr hfirst]
              simp [actObs, Cb.obs]
          | _ => cases hb
      | ret env => cases hb
      | throw e => cases hb
    · rw [List.count_eq_zero.mpr hb]
      omega
  · exact hy

/-! ## the verdict of both -/

/-- A subtest that has reported has called its UA at the start. -/
theorem Setup.begun_of_reported {p : Setup} {acts : List Act} {y₀ y : Sys} {r : Report}
    (hstart : p.start = some y₀) (h : Run.exec machine.step y₀ acts = some y)
    (hr : y.st.report = some r) : p.Begun y₀.st := by
  obtain ⟨-, ⟨⟨hc, hn⟩, hp⟩ | hb⟩ := Setup.start_cases hstart
  · cases acts with
    | nil =>
        rw [Run.exec_nil, Option.some.injEq] at h
        rw [← h, hn] at hr
        cases hr
    | cons a as =>
        rw [Run.exec_cons, step_eq_none hc hp] at h
        cases h
  · exact hb

/-- The condition of `b_test_reinv_onhold`. -/
theorem holds_of_passes (h : passes (PyClass.b .reinvOnhold).mro s = true) :
    s.onholdCount = 3 ∧ s.offholdCount = 2 := by
  rw [mro_b_reinvOnhold, passes, Bool.and_eq_true, Bool.and_eq_true, decide_eq_true_eq,
    decide_eq_true_eq] at h
  exact h.1

/-- Two subtests, as they have been created. -/
theorem Pair.found_of_start (hsi : pi.start = some y₀.1) (hsr : pr.start = some y₀.2) :
    Pair.Found pi pr y₀ := by
  have h₁ : pi.Reaches [] y₀.1 := ⟨y₀.1, hsi, rfl⟩
  have h₂ : pr.Reaches [] y₀.2 := ⟨y₀.2, hsr, rfl⟩
  exact ⟨Setup.found_of_reaches h₁, Setup.found_of_reaches h₂⟩

theorem Pair.Found.step {a : PairAct} (hf : Pair.Found pi pr y) (h : Pair.step y a = some y') :
    Pair.Found pi pr y' := by
  rcases Pair.step_cases h with ⟨b, s, -, hb, rfl⟩ | ⟨b, s, -, hb, rfl⟩
  · exact ⟨(hf.starter.step hb).1, hf.responder⟩
  · exact ⟨hf.starter, (hf.responder.step hb).1⟩

/-- **Holds that are counted** have been received, all that were sent: Bob has
counted five, and Alice sends no more. -/
theorem received_of_holds {ri rr : Report} (hi : pi.cls = .a .reinvOnhold) (hr : pr.cls = .b .reinvOnhold)
    (hmr : pr.named = false) (hsi : pi.start = some y₀.1) (hsr : pr.start = some y₀.2)
    (h : Run.exec Pair.step y₀ acts = some y) (hq : Run.Meets Pair.step ConnectsOnce y₀ acts)
    (hri : y.1.st.report = some ri) (hrr : y.2.st.report = some rr) (hvr : rr.rval = 0) :
    0 < received y.2.st.log ∧ sent y.1.st.log ≤ received y.2.st.log := by
  obtain ⟨hexi, hexr⟩ := Run.exec_interleave h
  have hbegun := Setup.begun_of_reported hsi hexi hri
  have hcount : Pair.Found pi pr y ∧ y.1.st.log.count .connected ≤ 1 := by
    refine Run.exec_inv_of_meets (P := fun z => Pair.Found pi pr z ∧
      z.1.st.log.count .connected ≤ 1)
      (fun z a z' hz ha hzz' => ⟨hz.1.step hzz', count_connected hz.1 ha hzz' hz.2⟩)
      ⟨Pair.found_of_start hsi hsr, ?_⟩ hq h
    rw [List.count_eq_zero.mpr fun hmem => by cases hbegun.not_entered hmem]
    exact Nat.zero_le _
  obtain ⟨acts₁, y₁, -, hl₁, hpass, -, hch⟩ := Setup.passes_of_rval ⟨y₀.2, hsr, hexr⟩ hrr hmr hvr
  rw [hr] at hpass
  obtain ⟨hon, hoff⟩ := holds_of_passes hpass
  have hholds := hl₁.holds (by rw [hr]; rfl)
  have hreceived := received_mono (Changes.log hch)
  have hli := Setup.lives_of_reported ⟨y₀.1, hsi, hexi⟩ hri
  have hbudget := hli.budget (by rw [hi]; rfl)
  have hfive : 5 ≤ y₁.st.holds := by
    rw [Subtest.holds, hon, hoff]
    omega
  have hsent : sent y.1.st.log ≤ budget y.1.st.log y.1.st.timers y.1.st.sched := by
    rw [budget]
    omega
  have hconn := hcount.2
  omega

/-- **A re-INVITE with an outcome** has been received. -/
theorem received_of_settled {ri : Report} (hi : pi.cls ∈ initiators) (hmi : pi.named = false)
    (hsi : pi.start = some y₀.1) (hsr : pr.start = some y₀.2)
    (h : Run.exec Pair.step y₀ acts = some y) (hq : Run.Meets Pair.step LetsThrough y₀ acts)
    (hri : y.1.st.report = some ri) (hvi : ri.rval = 0) : 0 < received y.2.st.log := by
  obtain ⟨hexi, -⟩ := Run.exec_interleave h
  have hbegun := Setup.begun_of_reported hsi hexi hri
  have hlets : Pair.Found pi pr y ∧ (HasOutcome y.1.st.log → 0 < received y.2.st.log) := by
    refine Run.exec_inv_of_meets (P := fun z => Pair.Found pi pr z ∧
      (HasOutcome z.1.st.log → 0 < received z.2.st.log))
      (fun z a z' hz ha hzz' => ⟨hz.1.step hzz', received_of_outcome hz.1 ha hzz' hz.2⟩)
      ⟨Pair.found_of_start hsi hsr, ?_⟩ hq h
    rintro ⟨ev, hev, -⟩
    cases hbegun.not_entered hev
  obtain ⟨acts₁, y₁, -, hl₁, hpass, -, hch⟩ := Setup.passes_of_rval ⟨y₀.1, hsi, hexi⟩ hri hmi hvi
  obtain ⟨l, ev, hev, hw⟩ := hl₁.settled_of_passes hi hpass
  refine hlets.2 ⟨ev, ?_, ?_⟩
  · exact (hev.trans (Changes.log hch)).subset (List.mem_append_right l (List.mem_singleton_self _))
  · rw [PyClass.wants] at hw
    split at hw
    · exact .inr hw
    · exact .inl hw

/-- **When a re-INVITE that both sides pass with has got through.**  In every
run of the pair in which the switch lets an outcome through only after the
re-INVITE (or, where re-INVITEs are counted, the UA calls `connected` once):
if both sides pass, the side that does not start has received a re-INVITE, and
as many as were sent where they are counted. -/
theorem reinvite_got_through {scn : Scenario} {acts : List PairAct} {y₀ y : Pair} {ri rr : Report}
    (hs : scn ∈ reinviteScenarios) (hi : pi.cls = scn.starter) (hr : pr.cls = scn.responder)
    (hmi : pi.named = false) (hmr : pr.named = false) (hsi : pi.start = some y₀.1)
    (hsr : pr.start = some y₀.2) (h : Run.exec Pair.step y₀ acts = some y)
    (hq : Run.Meets Pair.step scn.Asks y₀ acts) (hri : y.1.st.report = some ri)
    (hrr : y.2.st.report = some rr) (hvi : ri.rval = 0) (hvr : rr.rval = 0) :
    0 < received y.2.st.log ∧ (scn = .reinvOnhold → sent y.1.st.log ≤ received y.2.st.log) := by
  by_cases hon : scn = .reinvOnhold
  · subst hon
    obtain ⟨hpos, hall⟩ := received_of_holds hi hr hmr hsi hsr h hq hri hrr hvr
    exact ⟨hpos, fun _ => hall⟩
  · have hasks : scn.Asks = LetsThrough := funext fun z => funext fun a => if_neg hon
    exact ⟨received_of_settled (hi ▸ starter_mem_initiators hs) hmi hsi hsr h (hasks ▸ hq) hri hvi,
      fun h => (hon h).elim⟩

/-! ## a switch that answers itself -/

/-- The run of a pair, from the creation of both. -/
def Pair.run (pi pr : Setup) (acts : List PairAct) : Option (Pair × Pair) :=
  pi.start.bind fun y => pr.start.bind fun z =>
    (Run.exec Pair.step (y, z) acts).map fun w => ((y, z), w)

theorem Pair.exists_of_run {α : Type} {f : Pair × Pair → α} {a : α}
    (h : (Pair.run pi pr acts).map f = some a) : ∃ y₀ y, pi.start = some y₀.1 ∧
      pr.start = some y₀.2 ∧ Run.exec Pair.step y₀ acts = some y ∧ f (y₀, y) = a := by
  obtain ⟨w, hw, hf⟩ := Option.map_eq_some_iff.mp h
  obtain ⟨y, hy, hw⟩ := Option.bind_eq_some_iff.mp hw
  obtain ⟨z, hz, hw⟩ := Option.bind_eq_some_iff.mp hw
  obtain ⟨y', hexec, rfl⟩ := Option.map_eq_some_iff.mp hw
  exact ⟨(y, z), y', hy, hz, hexec, hf⟩

instance (y : Pair) (a : PairAct) : Decidable (LetsThrough y a) := by
  unfold LetsThrough
  split <;> infer_instance

instance (y : Pair) (a : PairAct) : Decidable (ConnectsOnce y a) := by
  unfold ConnectsOnce
  split <;> infer_instance

instance (scn : Scenario) (y : Pair) (a : PairAct) : Decidable (scn.Asks y a) :=
  inferInstanceAs (Decidable (if scn = .reinvOnhold then ConnectsOnce y a else LetsThrough y a))

/-- A call of the scenario `reinvite`; `between` is what the switch does about
the re-INVITE before Alice gets a 200. -/
def Sample.reinviteCall (between : List PairAct) : List PairAct :=
  [.inl (.ret env), .inr (.ret env), .inr (enter (.timer ⟨.ring, 1⟩)), .inr (.ret env),
    .inl (enter (.event (.ring 180 "Ringing" none))), .inr (enter (.timer ⟨.connect, 5⟩)),
    .inr (.ret env), .inl (enter (.event (.connect 200 "OK" (some proxied)))),
    .inl (enter .connected), .inl (enter (.timer ⟨.reinvite, 7⟩)), .inl (.ret env)] ++ between ++
  [.inl (enter (.event (.connect 200 "OK" (some proxied)))),
    .inl (enter (.disconnected .callee ⟨10, 1, true, true⟩)),
    .inr (enter (.disconnected .caller ⟨10, 1, true, true⟩)), .inl (enter .dead),
    .inr (enter .dead)]

/-- The switch answers the re-INVITE itself, and both sides pass. -/
theorem not_got_through_reinvite : ¬ ∀ (scn : Scenario) (pi pr : Setup) (acts : List PairAct)
    (y₀ y : Pair) (ri rr : Report), scn ∈ reinviteScenarios → pi.cls = scn.starter →
      pr.cls = scn.responder → pi.named = false → pr.named = false → pi.start = some y₀.1 →
      pr.start = some y₀.2 → Run.exec Pair.step y₀ acts = some y → y.1.st.report = some ri →
      y.2.st.report = some rr → ri.rval = 0 → rr.rval = 0 →
      0 < received y.2.st.log ∧ (scn = .reinvOnhold → sent y.1.st.log ≤ received y.2.st.log) := by
  intro hall
  have hrun : (Pair.run (Sample.alice .reinvite false) (Sample.bob .reinvite false)
      (Sample.reinviteCall [])).map (fun w => (w.2.1.st.report.map Report.rval,
        w.2.2.st.report.map Report.rval, received w.2.2.st.log)) = some (some 0, some 0, 0) := by
    decide +kernel
  obtain ⟨y₀, y, hsi, hsr, h, hf⟩ := Pair.exists_of_run hrun
  simp only [Prod.mk.injEq, Option.map_eq_some_iff] at hf
  obtain ⟨⟨ri, hri, hvi⟩, ⟨rr, hrr, hvr⟩, hno⟩ := hf
  have hgot := (hall .reinvite _ _ _ y₀ y ri rr (by decide) rfl rfl rfl rfl hsi hsr h hri hrr hvi
    hvr).1
  omega

/-- The switch forwards it, and answers it once it has. -/
theorem reinvite_got_through_forwarded : ∃ y : Pair, 0 < received y.2.st.log := by
  have hrun : (Pair.run (Sample.alice .reinvite false) (Sample.bob .reinvite false)
      (Sample.reinviteCall [.inr (Sample.enter (.event (.update (some Sample.proxied)))),
        .inr (.ret Sample.env)])).map (fun w => (w.2.1.st.report.map Report.rval,
          w.2.2.st.report.map Report.rval, decide (Run.Meets Pair.step (Scenario.Asks .reinvite) w.1
            (Sample.reinviteCall [.inr (Sample.enter (.event (.update (some Sample.proxied)))),
              .inr (.ret Sample.env)])))) = some (some 0, some 0, true) := by
    decide +kernel
  obtain ⟨y₀, y, hsi, hsr, h, hf⟩ := Pair.exists_of_run hrun
  simp only [Prod.mk.injEq, Option.map_eq_some_iff, decide_eq_true_eq] at hf
  obtain ⟨⟨ri, hri, hvi⟩, ⟨rr, hrr, hvr⟩, hq⟩ := hf
  exact ⟨y, (@reinvite_got_through _ _ .reinvite _ _ _ _ _ (by decide) rfl rfl rfl rfl hsi hsr h hq hri hrr
    hvi hvr).1⟩

end VoipTests
