import VoipTests.Subtest.Chain
import VoipTests.Subtest.OnHold
import VoipTests.Subtest.Versions

/-!
# VoipTests.Subtest.HoldRuns

The scenario `reinv_onhold`, seen from Alice: every run of hers in which the UA
behaves is a chain of holds (`VoipTests.Subtest.Chain`).
-/

namespace VoipTests

open Callback

variable {p : Setup} {s s' s₁ s₂ s₀ : Subtest} {cs : List (UaCall × Subtest)} {y y' : Sys} {a : Act}

/-! ## the chain of a subtest -/

/-- The call sends a re-INVITE. -/
def UaCall.isUpdate : UaCall → Bool
  | recvEvent ev => ev.isUpdate
  | recvRequest => false

/-- The pending calls by which an on-hold, or an off-hold, is being sent. -/
def holds (on : Bool) (cs : List (UaCall × Subtest)) : Nat :=
  cs.countP fun call => call.1.isUpdate && (call.2.last ≠ some (.fired .offHold)) == on

/-- What is of interest, as a chain. -/
def Holding.chain (v : Holding) (cs : List (UaCall × Subtest)) : Chain where
  on := v.onholdCount
  off := v.offholdCount
  lateOn := holds true cs
  lateOff := holds false cs
  reinvites := v.timers.countP fun t => t.cb = .reinvite
  offHolds := v.timers.countP fun t => t.cb = .offHold
  left := v.sched.length
  going := v.reinviteInProgress.toNat
  up := v.connectDone
  down := v.disconnectDone
  sent := v.sent
  answers := v.concluded

/-! ## what a step may be -/

/-- The UA behaves: it calls `connected` once, raises nothing, and passes on no
answer to a re-INVITE while it is being called itself. -/
def Behaves (y : Sys) : Act → Prop
  | .enter ⟨.connected, _⟩ => y.st.connectDone = false
  | .enter ⟨.event ev, _⟩ => y.st.reinviteInProgress = true → ev.isConnect = true → y.pending = []
  | .throw _ => False
  | _ => True

/-- No timer of an off-hold fires after the disconnect. -/
def Steady (y : Sys) : Act → Prop
  | .enter ⟨.timer t, _⟩ => t.cb = .offHold → y.st.disconnectDone = false
  | _ => True

/-- A re-INVITE is answered by a `CCEventConnect` that is welcome.  Of the last one
that has been sent any outcome will do. -/
def Prompt (y : Sys) : Act → Prop
  | .enter ⟨.event ev, env⟩ => y.st.reinviteInProgress = true →
      (ev.isFailure = true → y.st.sched = [] ∧ y.pending = []) ∧
      (ev.isConnect = true → y.st.sched = [] ∨ Subtest.Welcomes { y.st with env := env } ev)
  | _ => True

/-! ## entering and leaving -/

theorem holding_entered (cb : Cb) (env : Env) : (s.entered cb env).holding = { s.holding with
    timers := cb.timers s
    concluded := s.holding.concluded + (cb.obs s).concludes.toNat } := by
  have hsent : (cb.obs s).sendsUpdate = false := by cases cb <;> rfl
  have hsents : sent (s.log ++ [cb.obs s]) = sent s.log := by simp [sent, hsent]
  have hconcluded : concluded (s.log ++ [cb.obs s]) = concluded s.log + (cb.obs s).concludes.toNat := by
    rw [concluded, List.countP_append, List.countP_singleton, concluded]
    cases (cb.obs s).concludes <;> rfl
  simp [Subtest.holding, Subtest.entered, Subtest.note, hsents, hconcluded]

/-- The callback stops by sending a re-INVITE. -/
def sends : Stop Exc UaCall Unit → Bool
  | .call c => c.isUpdate
  | _ => false

theorem holding_land (stop : Stop Exc UaCall Unit) : (machine.land stop s).holding =
    { s.holding with sent := s.holding.sent + (sends stop).toNat } := by
  cases stop with
  | ret a => rfl
  | raise e => simp [Machine.land, machine, Subtest.holding, Subtest.note, sent, concluded, sends,
      Obs.sendsUpdate, Obs.concludes]
  | call c =>
      cases c with
      | recvRequest => simp [Machine.land, machine, Subtest.holding, Subtest.note, sent, concluded, sends,
          Obs.sendsUpdate, Obs.concludes, UaCall.isUpdate]
      | recvEvent ev =>
          cases hev : ev.isUpdate <;>
            simp [Machine.land, machine, Subtest.holding, Subtest.note, Subtest.storeSDP, sent, concluded,
              sends, Obs.sendsUpdate, Obs.concludes, UaCall.isUpdate, hev]

theorem holds_push (on : Bool) (stop : Stop Exc UaCall Unit) : holds on (stop.push s cs) =
    holds on cs + (sends stop && (s.last ≠ some (.fired .offHold)) == on).toNat := by
  cases stop with
  | call c =>
      rw [Stop.push, holds, List.countP_cons, holds, sends]
      cases c.isUpdate && (s.last ≠ some (.fired .offHold)) == on <;> rfl
  | _ => simp [Stop.push, sends]

theorem ready_land {stop : Stop Exc UaCall Unit} (hr : s.Ready)
    (hsdp : ∀ ev sdp, stop = .call (.recvEvent ev) → ev.body = some sdp → Headed sdp.sections) :
    (machine.land stop s).Ready := by
  cases stop with
  | ret a => exact hr
  | raise e => exact hr
  | call c =>
      cases c with
      | recvRequest => exact hr
      | recvEvent ev =>
          obtain ⟨lSDP, hl, hh⟩ := hr
          show ∃ l, ev.body.or s.ua.lSDP = some l ∧ Headed l.sections
          cases hb : ev.body with
          | none => exact ⟨lSDP, hl, hh⟩
          | some sdp => exact ⟨sdp, rfl, hsdp ev sdp rfl hb⟩

theorem sends_eq_false {stop : Stop Exc UaCall Unit} (h : ∀ c, stop ≠ .call c) : sends stop = false := by
  cases stop with
  | call c => exact (h c rfl).elim
  | _ => rfl

/-! ## what stays -/

theorem Holding.Sound.entered {cb : Cb} {env : Env} (h : s.holding.Sound) :
    (s.entered cb env).holding.Sound := by
  refine ⟨h.cls, h.inited, h.reinviteIval, fun t ht => h.timers t ?_⟩
  cases cb with
  | timer t' => exact List.mem_of_mem_erase ht
  | _ => exact ht

theorem Holding.Sound.with_timers {v : Holding} {ts : List Timer} (h : v.Sound)
    (hts : ∀ t ∈ ts, t.cb = .disconnect ∨ t.cb.starts) :
    ∀ t ∈ v.timers ++ ts, t.cb = .disconnect ∨ t.cb.starts := fun t ht =>
  (List.mem_append.mp ht).elim (h.timers t) (hts t)

/-- A turn keeps what stays. -/
theorem Turn.sound {cb : Cb} {stop : Stop Exc UaCall Unit} (h : Turn s cb stop s')
    (hs : s.holding.Sound) : s'.holding.Sound := by
  cases h with
  | event _ h => exact h.holding ▸ hs
  | answer h => exact h.holding ▸ hs
  | last _ _ _ h => exact h.holding ▸ ⟨hs.cls, hs.inited, hs.reinviteIval, hs.timers⟩
  | @next ev ival s' _ _ _ h =>
      refine h.holding ▸ ⟨hs.cls, hs.inited, hs.reinviteIval, hs.with_timers fun t ht => .inr ?_⟩
      rw [List.mem_singleton.mp ht]
      by_cases hc : s.onholdCount > s.offholdCount
      · exact .inr (if_pos hc)
      · exact .inl (if_neg hc)
  | connected h =>
      refine h.holding ▸ ⟨hs.cls, hs.inited, hs.reinviteIval, hs.with_timers ?_⟩
      simp [TimerCb.starts]
  | disconnected h =>
      rcases h with h | h
      · exact h.holding ▸ ⟨hs.cls, hs.inited, hs.reinviteIval, hs.timers⟩
      · exact h.holding ▸ hs
  | dead h => exact h.holding ▸ hs
  | poll _ hts _ h =>
      exact h.holding ▸ ⟨hs.cls, hs.inited, hs.reinviteIval, hs.with_timers fun t ht => .inl (hts t ht)⟩
  | hangUp => exact hs
  | hold _ _ _ h => exact h.holding ▸ ⟨hs.cls, hs.inited, hs.reinviteIval, hs.timers⟩
  | noHold _ _ h => exact h.holding ▸ hs
  | stray _ _ h => exact h.holding ▸ ⟨hs.cls, hs.inited, hs.reinviteIval, hs.timers⟩

/-- A body that could be put on hold still can be. -/
theorem Turn.ready {cb : Cb} {stop : Stop Exc UaCall Unit} (h : Turn s cb stop s') (hr : s.Ready) :
    (machine.land stop s').Ready := by
  have hquiet {v : Holding} (h : s.Becomes v s') (hstop : ∀ c, stop ≠ .call c) :
      (machine.land stop s').Ready :=
    ready_land (h.ready hr) fun ev sdp hcall => (hstop _ hcall).elim
  have hret {v : Holding} (h : s.Becomes v s') : (machine.land (.ret ()) s').Ready := h.ready hr
  cases h with
  | event _ h hstop => exact hquiet h hstop
  | answer h hsdp =>
      refine ready_land (h.ready hr) fun ev sdp hcall hb => ?_
      cases hcall
      cases hb
      exact hsdp hr
  | last _ _ _ h hstop => exact hquiet h hstop
  | next _ _ _ h => exact hret h
  | connected h => exact hret h
  | disconnected h => exact h.elim hret hret
  | dead h hstop => exact hquiet h hstop
  | poll _ _ _ h => exact hret h
  | hangUp =>
      refine ready_land hr fun ev sdp hcall hb => ?_
      cases hcall
      cases hb
  | hold _ _ _ h hsdp =>
      refine ready_land (h.ready hr) fun ev sdp hcall hb => ?_
      cases hcall
      cases hb
      exact hsdp hr
  | noHold _ _ h hstop => exact hquiet h hstop
  | stray _ _ h => exact hret h

/-! ## the simulation -/

theorem chain_land (stop : Stop Exc UaCall Unit) : (machine.land stop s).holding.chain (stop.push s cs) =
    { s.holding.chain cs with
      lateOn := holds true cs + (sends stop && (s.last ≠ some (.fired .offHold)) == true).toNat
      lateOff := holds false cs + (sends stop && (s.last ≠ some (.fired .offHold)) == false).toNat
      sent := s.holding.sent + (sends stop).toNat } := by
  rw [holding_land]
  simp only [Holding.chain, holds_push]

/-- A stretch that sends no re-INVITE. -/
theorem chain_of_silent {stop : Stop Exc UaCall Unit} (h : sends stop = false) :
    (machine.land stop s).holding.chain (stop.push s cs) = s.holding.chain cs := by
  rw [chain_land, h]
  simp [Holding.chain]

/-- A chain as a callback is entered. -/
theorem chain_entered (s : Subtest) (cs : List (UaCall × Subtest)) (cb : Cb) (env : Env) :
    (s.entered cb env).holding.chain cs = { s.holding.chain cs with
      reinvites := (cb.timers s).countP fun t => t.cb = .reinvite
      offHolds := (cb.timers s).countP fun t => t.cb = .offHold
      answers := s.holding.concluded + (cb.obs s).concludes.toNat } := by
  rw [holding_entered]
  rfl

/-- A timer that fires is no longer counted. -/
theorem chain_fired {t : Timer} (cs : List (UaCall × Subtest)) (env : Env) (ht : t ∈ s.timers) :
    s.holding.chain cs = { (s.entered (.timer t) env).holding.chain cs with
      reinvites := ((s.entered (.timer t) env).holding.chain cs).reinvites +
        (decide (t.cb = .reinvite)).toNat
      offHolds := ((s.entered (.timer t) env).holding.chain cs).offHolds +
        (decide (t.cb = .offHold)).toNat } := by
  have hcount (f : Timer → Bool) : s.timers.countP f = (s.timers.erase t).countP f + (f t).toNat := by
    rw [(List.perm_cons_erase ht).countP_eq, List.countP_cons]
    cases f t <;> rfl
  rw [chain_entered]
  simp only [Holding.chain, Subtest.holding, Cb.timers, Cb.obs, Obs.concludes, Bool.toNat_false,
    Nat.add_zero, ← hcount]

/-- The timer of the poll is not counted at all. -/
theorem chain_polled {ts : List Timer} (hts : ∀ t ∈ ts, t.cb = .disconnect) :
    { s.holding with timers := s.timers ++ ts }.chain cs = s.holding.chain cs := by
  have hnone {cb : TimerCb} (hcb : cb ≠ .disconnect) : ts.countP (fun t => t.cb = cb) = 0 :=
    List.countP_eq_zero.mpr fun t ht => by simp [hts t ht, hcb.symm]
  simp [Holding.chain, Subtest.holding, hnone]

theorem idle_of_entry {t : Timer} {idle : Bool} (h : s.entry (.timer t) idle = some s₁) :
    idle = true := by
  unfold Subtest.entry at h
  split at h
  · cases h
  · dsimp only at h
    split at h
    · next hi => exact hi.1
    · cases h

/-- **What a timer does** is a step of the chain. -/
theorem Turn.chain_timer {t : Timer} {env : Env} {stop : Stop Exc UaCall Unit}
    {whole prompt steady : Prop} (h : Turn (s.entered (.timer t) env) (.timer t) stop s')
    (ho : (s.holding.chain []).Orderly 5) (hen : t ∈ s.timers) (hready : whole → s.Ready)
    (hq : steady → t.cb = .offHold → s.disconnectDone = false) :
    Chain.Step whole prompt steady (s.holding.chain [])
      ((machine.land stop s').holding.chain (stop.push s' [])) := by
  have hstep {c c' c₀ : Chain} (h : Chain.Step whole prompt steady c₀ c) (he : c' = c) :
      Chain.Step whole prompt steady c₀ c' := he ▸ h
  have hfired := chain_fired [] env hen
  cases h with
  | poll ht hts _ h =>
      rw [chain_of_silent rfl, h.holding, chain_polled hts, hfired, ht]
      exact .stay
  | hangUp ht =>
      rw [chain_of_silent rfl, hfired, ht]
      exact .stay
  | hold ht hd hlast h =>
      have hl : s'.last = some (.fired t.cb) := hlast.trans List.getLast?_concat
      rw [chain_land, h.holding, hl, hfired]
      rcases ht with ht | ht <;> rw [ht]
      · exact hstep (.hold rfl rfl hd.1 hd.2) rfl
      · exact hstep (.offHold rfl rfl hd.1 hd.2) rfl
  | noHold ht hlost h hstop =>
      rw [chain_of_silent (sends_eq_false hstop), h.holding, hfired]
      rcases ht with ht | ht <;> rw [ht] at hlost ⊢
      · refine hstep (.noHold rfl ?_) rfl
        rcases hlost with ⟨-, hcon | hdis⟩ | ⟨-, -, hno⟩
        · exact .inl hcon
        · exact .inr (.inl hdis)
        · exact .inr (.inr fun hw => hno (hready hw))
      · refine hstep (.noOffHold rfl fun hw => ?_) rfl
        rcases hlost with ⟨hre, -⟩ | ⟨-, -, hno⟩
        · cases hre
        · exact hno (hready hw)
  | stray ht hgone h =>
      have hoff : 0 < (s.holding.chain []).offHolds := by
        rw [hfired, ht]
        exact Nat.succ_pos _
      rw [chain_of_silent rfl, h.holding, hfired, ht]
      refine hstep (.stray rfl rfl hgone fun hsteady => ?_) rfl
      rcases hgone with hcon | hdis
      · -- There are no timers before the call.
        obtain ⟨-, hlinks, -⟩ := ho.before hcon
        unfold Chain.links at hlinks
        omega
      · cases (hq hsteady ht).symm.trans hdis

/-- **What an event does** is a step of the chain. -/
theorem Turn.chain_event {ev : CCEvent} {env : Env} {stop : Stop Exc UaCall Unit}
    {whole prompt steady : Prop} (h : Turn (s.entered (.event ev) env) (.event ev) stop s')
    (hcs : s.reinviteInProgress = true → ev.isConnect = true → cs = [])
    (hq : prompt → s.reinviteInProgress = true → ev.isConnect = true →
      s.sched = [] ∨ Subtest.Welcomes { s with env := env } ev) :
    Chain.Step whole prompt steady (s.holding.chain cs)
      ((machine.land stop s').holding.chain (stop.push s' cs)) := by
  have hstep {c c' c₀ : Chain} (h : Chain.Step whole prompt steady c₀ c) (he : c' = c) :
      Chain.Step whole prompt steady c₀ c' := he ▸ h
  have hentered (hev : (s.reinviteInProgress && ev.isConnect) = false) :
      (s.entered (.event ev) env).holding.chain cs = s.holding.chain cs := by
    rw [chain_entered, Cb.obs, Obs.concludes, hev]
    rfl
  have hanswered (hp : s.reinviteInProgress = true) (hev : ev.isConnect = true) :
      (s.entered (.event ev) env).holding.chain cs =
        { s.holding.chain cs with answers := s.holding.concluded + 1 } := by
    rw [chain_entered, Cb.obs, Obs.concludes, hp, hev]
    rfl
  cases h with
  | event hev h hstop =>
      rw [chain_of_silent (sends_eq_false hstop), h.holding, hentered hev]
      exact .stay
  | answer h =>
      rw [chain_of_silent rfl, h.holding, hentered (Bool.and_false _)]
      exact .stay
  | last hev hp hleft h hstop =>
      have hp' : s.reinviteInProgress = true := hp
      obtain rfl := hcs hp' hev
      have hgoing : (s.holding.chain []).going = 1 := congrArg Bool.toNat hp'
      have hnil (hnil : s.sched = []) : (s.holding.chain []).left = 0 := List.length_eq_zero_iff.mpr hnil
      rw [chain_of_silent (sends_eq_false hstop), h.holding]
      refine hstep (.last hgoing rfl ?_) ?_
      · rcases hleft with hleft | hno
        · exact .inl (hnil hleft)
        · refine or_iff_not_imp_left.mpr fun hleft hprompt => ?_
          exact (hq hprompt hp' hev).elim (fun h => hleft (hnil h)) hno
      · show { (s.entered (.event ev) env).holding.chain [] with going := 0 } = _
        rw [hanswered hp' hev]
        rfl
  | @next ev ival s' hev hp hsched h =>
      have hp' : s.reinviteInProgress = true := hp
      obtain rfl := hcs hp' hev
      have hgoing : (s.holding.chain []).going = 1 := congrArg Bool.toNat hp'
      have hpos : 0 < s.sched.length := List.length_pos_iff.mpr hsched
      have hleft : (s.holding.chain []).left = s.sched.length - 1 + 1 := (Nat.sub_add_cancel hpos).symm
      rw [chain_of_silent rfl, h.holding]
      refine hstep (.next hgoing rfl hleft) ?_
      let t : Timer := ⟨if s.onholdCount > s.offholdCount then .offHold else .reinvite, ival⟩
      show { (s.entered (.event ev) env).holding.chain [] with
        going := 0
        left := s.sched.dropLast.length
        reinvites := List.countP (fun t : Timer => t.cb = TimerCb.reinvite) (s.timers ++ [t])
        offHolds := List.countP (fun t : Timer => t.cb = TimerCb.offHold) (s.timers ++ [t]) } = _
      rw [hanswered hp' hev]
      by_cases hc : s.offholdCount < s.onholdCount <;> simp [Holding.chain, Subtest.holding, t, hc]

/-- **A turn is a step of the chain.** -/
theorem Turn.chain {cb : Cb} {env : Env} {stop : Stop Exc UaCall Unit} {whole : Prop}
    (h : Turn (y.st.entered cb env) cb stop s') (ho : (y.st.holding.chain cs).Orderly 5)
    (hen : cb.Enabled y.st) (hidle : ∀ t, cb = .timer t → cs = []) (hks : y.pending = [] → cs = [])
    (hready : whole → y.st.Ready) (hq : Behaves y (.enter ⟨cb, env⟩)) :
    Chain.Step whole (Prompt y (.enter ⟨cb, env⟩)) (Steady y (.enter ⟨cb, env⟩))
      (y.st.holding.chain cs) ((machine.land stop s').holding.chain (stop.push s' cs)) := by
  have hstep {c c' : Chain} (h : Chain.Step whole (Prompt y (.enter ⟨cb, env⟩))
      (Steady y (.enter ⟨cb, env⟩)) (y.st.holding.chain cs) c) (he : c' = c) :
      Chain.Step whole (Prompt y (.enter ⟨cb, env⟩)) (Steady y (.enter ⟨cb, env⟩))
        (y.st.holding.chain cs) c' := he ▸ h
  have hentered := chain_entered y.st cs cb env
  cases cb with
  | event ev => exact h.chain_event (fun hp hev => hks (hq hp hev)) fun hprompt hp => (hprompt hp).2
  | timer t =>
      obtain rfl := hidle t rfl
      exact h.chain_timer ho hen hready id
  | connected =>
      cases h with
      | @connected ival ival' s' h =>
          rw [chain_of_silent rfl, h.holding]
          refine hstep (.connected hq) ?_
          let ts : List Timer := [⟨.disconnect, ival⟩, ⟨.reinvite, ival'⟩]
          show { (y.st.entered .connected env).holding.chain cs with
            up := true
            reinvites := List.countP (fun t : Timer => t.cb = TimerCb.reinvite) (y.st.timers ++ ts)
            offHolds := List.countP (fun t : Timer => t.cb = TimerCb.offHold) (y.st.timers ++ ts) } = _
          rw [hentered]
          simp [Holding.chain, Subtest.holding, ts, Cb.obs, Obs.concludes]
  | disconnected origin acct =>
      cases h with
      | disconnected h =>
          rcases h with h | h <;> rw [chain_of_silent rfl, h.holding]
          · exact hstep .disconnected (congrArg (fun c : Chain => { c with down := true }) hentered)
          · exact hstep .stay hentered
  | dead =>
      cases h with
      | dead h hstop =>
          rw [chain_of_silent (sends_eq_false hstop), h.holding]
          exact hstep .stay hentered
  | inDialogInvite ruri => cases h

theorem holds_cons (on : Bool) (c : UaCall) : holds on ((c, s₀) :: cs) =
    holds on cs + (c.isUpdate && (s₀.last ≠ some (.fired .offHold)) == on).toNat := by
  rw [holds, List.countP_cons, holds]
  dsimp only
  cases c.isUpdate && (s₀.last ≠ some (.fired .offHold)) == on <;> rfl

/-- What is left to be done when the UA returns. -/
theorem Rest.cases {c : UaCall} (h : Rest c s₀ s s') (hc : s.cls = .a .reinvOnhold) :
    (c.isUpdate = false ∧ s.Still s') ∨
      (c.isUpdate = true ∧ s₀.last = some (.fired .offHold) ∧
        s.Becomes { s.holding with offholdCount := s.offholdCount + 1 } s') ∨
      (c.isUpdate = true ∧ s₀.last ≠ some (.fired .offHold) ∧
        s.Becomes { s.holding with onholdCount := s.onholdCount + 1 } s') := by
  cases c with
  | recvRequest => exact .inl ⟨rfl, h hc⟩
  | recvEvent ev =>
      cases ev with
      | update body =>
          rw [Rest] at h
          split at h
          · next hl => exact .inr (.inl ⟨rfl, hl, h⟩)
          · next hl => exact .inr (.inr ⟨rfl, hl, h.1, fun _ => h.2⟩)
      | _ => exact .inl ⟨rfl, h hc⟩

theorem Rest.sound {c : UaCall} (h : Rest c s₀ s s') (hs : s.holding.Sound) : s'.holding.Sound := by
  obtain ⟨-, h⟩ | ⟨-, -, h⟩ | ⟨-, -, h⟩ := h.cases hs.cls
  · exact h.holding ▸ hs
  · exact h.holding ▸ ⟨hs.cls, hs.inited, hs.reinviteIval, hs.timers⟩
  · exact h.holding ▸ ⟨hs.cls, hs.inited, hs.reinviteIval, hs.timers⟩

theorem Rest.ready {c : UaCall} (h : Rest c s₀ s s') (hs : s.holding.Sound) (hr : s.Ready) :
    s'.Ready := by
  obtain ⟨-, h⟩ | ⟨-, -, h⟩ | ⟨-, -, h⟩ := h.cases hs.cls <;> exact h.ready hr

/-- **The rest is a step of the chain.** -/
theorem Rest.chain {c : UaCall} {whole prompt steady : Prop} (h : Rest c s₀ s s')
    (hs : s.holding.Sound) :
    Chain.Step whole prompt steady (s.holding.chain ((c, s₀) :: cs)) (s'.holding.chain cs) := by
  have hstep {c c' c'' : Chain} (h : Chain.Step whole prompt steady c c') (he : c'' = c') :
      Chain.Step whole prompt steady c c'' := he ▸ h
  obtain ⟨hno, h⟩ | ⟨hup, hl, h⟩ | ⟨hup, hl, h⟩ := h.cases hs.cls
  · rw [h.holding]
    refine hstep .stay ?_
    simp [Holding.chain, holds_cons, hno]
  · rw [h.holding]
    refine hstep (.unheld (n := holds false cs) ?_) ?_
    · simp [Holding.chain, holds_cons, hup, hl]
    · simp [Holding.chain, holds_cons, hup, hl, Subtest.holding]
  · rw [h.holding]
    refine hstep (.held (n := holds true cs) ?_) ?_
    · simp [Holding.chain, holds_cons, hup, hl]
    · simp [Holding.chain, holds_cons, hup, hl, Subtest.holding]

/-! ## runs -/

/-- What holds in every run in which the UA behaves. -/
structure Chained (whole : Prop) (y : Sys) (cs : List (UaCall × Subtest)) : Prop where
  pends : Machine.Pends Rest y.pending cs
  sound : y.st.holding.Sound
  ready : whole → y.st.Ready
  orderly : (y.st.holding.chain cs).Orderly 5

/-- **One step** of the subtest is one of its chain. -/
theorem Chained.step {whole : Prop} (h : Chained whole y cs) (hq : Behaves y a)
    (hs : machine.step y a = some y') : ∃ cs', Chained whole y' cs' ∧
      Chain.Step whole (Prompt y a) (Steady y a) (y.st.holding.chain cs) (y'.st.holding.chain cs') := by
  obtain ⟨cs', hstaged, hpends⟩ := Machine.staged_step (P := fun i s => Turn s i.cb)
    (fun i s₁ he => turns_body h.sound he) h.pends hs
  have hempty := h.pends.isEmpty
  suffices hmain : y'.st.holding.Sound ∧ (y.st.Ready → y'.st.Ready) ∧
      Chain.Step whole (Prompt y a) (Steady y a) (y.st.holding.chain cs) (y'.st.holding.chain cs') from
    ⟨cs', ⟨hpends, hmain.1, fun hw => hmain.2.1 (h.ready hw), h.orderly.step hmain.2.2⟩, hmain.2.2⟩
  obtain ⟨s, ks⟩ := y
  obtain ⟨s', ks'⟩ := y'
  cases hstaged with
  | @enter i _ s₁ s₂ _ stop he hP =>
      obtain ⟨cb, env⟩ := i
      obtain ⟨hen, rfl⟩ := entry_eq_entered he
      have hidle (t : Timer) (ht : cb = .timer t) : cs = [] := by
        obtain ⟨s₁, he, -⟩ := Option.map_eq_some_iff.mp he
        subst ht
        exact List.isEmpty_iff.mp (idle_of_entry he)
      have hks (hnil : ks = []) : cs = [] := by
        rw [hnil] at hempty
        exact List.isEmpty_iff.mp hempty.symm
      have hentered (hr : s.Ready) : (s.entered cb env).Ready := by cases cb <;> exact hr
      have hsound : s₂.holding.Sound := Turn.sound hP h.sound.entered
      refine ⟨?_, fun hr => Turn.ready hP (hentered hr),
        Turn.chain hP h.orderly hen hidle hks h.ready hq⟩
      show (machine.land stop s₂).holding.Sound
      rw [holding_land]
      exact ⟨hsound.cls, hsound.inited, hsound.reinviteIval, hsound.timers⟩
  | ret hT => exact ⟨hT.sound h.sound, hT.ready h.sound, hT.chain h.sound⟩
  | @retRaise r c e _ s₀ s₂ _ hT =>
      have hnote : s₂.Still (s₂.note (.raised e)) := Subtest.Becomes.note ⟨rfl, id⟩ rfl rfl
      refine ⟨hnote.holding ▸ hT.sound h.sound, fun hr => hnote.ready (hT.ready h.sound hr), ?_⟩
      show Chain.Step whole _ _ _ ((s₂.note (.raised e)).holding.chain cs')
      rw [hnote.holding]
      exact hT.chain h.sound
  | throw => exact hq.elim

/-! ## the beginning -/

/-- The body of the INVITE can be put on hold. -/
def Setup.Whole (p : Setup) : Prop := ∃ body ∈ p.tccfg.body, Headed body.sections

theorem headed_applyLocalMedia {laddr : Option String} {lport : Int} {proto : Option AType}
    {sects : List Section} (h : Headed sects) : Headed (applyLocalMedia laddr lport proto sects) := by
  induction sects with
  | nil => exact h
  | cons sect sects ih =>
      obtain ⟨h₁, h₂⟩ := List.forall_mem_cons.mp h
      unfold applyLocalMedia
      split
      · exact List.forall_mem_cons.mpr ⟨h₁, ih h₂⟩
      · split
        · exact List.forall_mem_cons.mpr ⟨rfl, h₂⟩
        · exact List.forall_mem_cons.mpr ⟨h₁, h₂⟩

theorem yields_rtpPrepareLocalSdp (sdp : Sdp) (laddr : String) (af : AType) :
    (Test.rtpPrepareLocalSdp sdp laddr af s).Yields fun sdp' =>
      Headed sdp.sections → Headed sdp'.sections := by
  unfold Test.rtpPrepareLocalSdp
  have hrest (s : Subtest) : ((do
      let s ← M.get
      let ep ← M.ofSome s.rtp.ep
      M.assert (!Test.badLaddr laddr)
      pure (sdp.applyLocalMedia (some laddr) ep.lport (some af)) : M Sdp) s).Yields fun sdp' =>
        Headed sdp.sections → Headed sdp'.sections := by
    refine Out.Yields.bind (fun s' s => ?_) _
    refine Out.Yields.bind (fun ep s => ?_) _
    refine Out.Yields.bind (fun _ s => ?_) _
    exact headed_applyLocalMedia
  refine Out.Yields.bind (fun s' s => ?_) _
  refine Out.Yields.bind (fun _ s => ?_) _
  refine until_ite (fun _ h => h) fun _ => ?_
  refine Out.Yields.bind (fun mdata s => ?_) _
  refine Out.Yields.bind (fun _ s => ?_) _
  exact until_ite (fun _ => Out.Yields.bind (fun _ s => hrest s) _) fun _ => hrest s

theorem Subtest.Prep.still (h : s.Prep s') (hi : s.rtp.inited = true) : s.Still s' := by
  have hcore := Subtest.field_of_core h.core
    (fun s => { s with
      reinviteIval := none
      sched := []
      rtp := { s.rtp with inited := false } }.holding) fun _ => rfl
  have hl := Subtest.field_of_core h.core (fun s => s.ua.lSDP) fun _ => rfl
  refine ⟨?_, fun ⟨lSDP, hl', hh⟩ => ⟨lSDP, hl.trans hl', hh⟩⟩
  simp only [Subtest.holding, Holding.mk.injEq] at hcore ⊢
  simp only [hcore, h.reinviteIval, h.sched, h.inited hi, hi, and_self]

theorem ATest1.yields_localBody (s : Subtest) : (ATest1.localBody s).Yields fun body =>
    (∃ sdp ∈ s.tccfg.body, Headed sdp.sections) → ∃ sdp ∈ body, Headed sdp.sections := by
  have hprepare (sdp : Sdp) (laddr : String) (af : AType) (hl : s.tccfg.body = some sdp) : ((do
      let body ← Test.rtpPrepareLocalSdp sdp laddr af
      pure (some body) : M (Option Sdp)) s).Yields fun body =>
        (∃ sdp ∈ s.tccfg.body, Headed sdp.sections) → ∃ sdp ∈ body, Headed sdp.sections := by
    refine Out.Until.bind (yields_rtpPrepareLocalSdp sdp laddr af) (fun sdp' s' h hbody => ?_)
      (fun _ _ h => h) fun _ _ h => h
    obtain ⟨sdp₁, h₁, hh⟩ := hbody
    rw [hl, Option.mem_some_iff] at h₁
    exact ⟨sdp', rfl, h (h₁ ▸ hh)⟩
  unfold ATest1.localBody
  rw [Prog.bind_apply, Prog.get_apply, Out.bind_ret]
  refine until_ite (fun _ => ?_) fun _ h => h
  cases hl : s.tccfg.body with
  | none => exact trivial
  | some sdp => exact until_ite (fun _ => hl ▸ hprepare sdp _ _ hl) fun _ => hl ▸ hprepare sdp _ _ hl

theorem Setup.eq_of_cls (hc : p.cls = .a .reinvOnhold) : p.side = .alice ∧ p.scn = .reinvOnhold := by
  unfold Setup.cls at hc
  cases hs : p.side with
  | alice =>
      rw [hs] at hc
      exact ⟨rfl, PyClass.a.inj hc⟩
  | bob body req =>
      rw [hs] at hc
      cases hc

/-- How the creation first stops: with the INVITE, or without a UA. -/
def HoldStop (s : Subtest) (stop : Stop Exc UaCall Unit) (s' : Subtest) : Prop :=
  s'.holding = { s.holding with inited := true } ∧ match stop with
    | .call c => s'.ua.created = true ∧ ∃ cli cld body, c = .recvEvent (.ccTry cli cld body) ∧
        ((∃ sdp ∈ s.tccfg.body, Headed sdp.sections) → ∃ sdp ∈ body, Headed sdp.sections)
    | _ => s'.ua.created = false

theorem cancelIval_onhold : (PyClass.a .reinvOnhold).cancelIval = none := by decide +kernel

/-- **`a_test1.__init__`** of an object of the scenario. -/
theorem ATest1.hold_init {scn : Scenario} (hc : s.cls = .a .reinvOnhold) (hi : s.rtp.inited = false)
    (hu : s.ua.created = false) : (ATest1.init scn s).Once (HoldStop s) Rest := by
  unfold ATest1.init
  rw [Prog.bind_apply, Test.rtpInit_eq, hi, if_neg Bool.false_ne_true, Out.bind_ret]
  let s₁ : Subtest := { s with rtp := { s.rtp with inited := true, enabled := !s.tccfg.signallingOnly } }
  show ((ATest1.localBody >>= _) s₁).Once _ _
  refine ((prep_localBody s₁).and (ATest1.yields_localBody s₁)).once_bind (fun c s' h => h.1)
    (fun e s₂ h => ⟨(h.1.still rfl).holding, h.1.created.trans hu⟩) fun body s₂ h => ?_
  have hstill := h.1.still rfl
  have hcls : s₂.cls = .a .reinvOnhold := (congrArg Holding.cls hstill.holding).trans hc
  have hbuild : M.self VoipTests.buildUa s₂ = ATest1.buildUa s₂ := by
    show VoipTests.buildUa s₂.cls.mro s₂ = _
    rw [mro_of_onhold hcls]
    rfl
  rw [Prog.bind_apply, hbuild, ATest1.buildUa, Prog.modify_apply, Out.bind_ret]
  refine ⟨⟨hstill.holding, rfl, _, _, _, rfl, h.2⟩, fun s₃ => ?_⟩
  show (M.timeoutIf .cancel s₃.cls.cancelIval s₃).Until _
  cases hival : s₃.cls.cancelIval with
  | none => exact fun _ => .refl s₃
  | some ival =>
      intro hc₃
      rw [hc₃, cancelIval_onhold] at hival
      cases hival

/-- How the creation of the subtest first stops. -/
def Setup.HoldStop (p : Setup) (stop : Stop Exc UaCall Unit) (s : Subtest) : Prop :=
  (∃ sched ival, sched.length = 4 ∧ s.holding =
    { p.fresh.holding with inited := true, reinviteIval := some ival, sched := sched }) ∧
  match stop with
  | .call c => s.ua.created = true ∧ ∃ cli cld body, c = .recvEvent (.ccTry cli cld body) ∧
      (p.Whole → ∃ sdp ∈ body, Headed sdp.sections)
  | _ => s.ua.created = false

theorem Setup.hold_create (hc : p.cls = .a .reinvOnhold) :
    (create p.scn p.side p.fresh).Once p.HoldStop Rest := by
  obtain ⟨hside, hscn⟩ := Setup.eq_of_cls hc
  have hinit : (M.self (init p.scn) p.fresh).Once p.HoldStop Rest := by
    show (init p.scn p.fresh.cls.mro p.fresh).Once _ _
    rw [mro_of_onhold (s := p.fresh) hc]
    show (ATestReinvOnhold.init (ATestReinvite.init (ATest1.init p.scn)) p.fresh).Once _ _
    unfold ATestReinvOnhold.init
    rw [Prog.bind_apply, Prog.get_apply, Out.bind_ret]
    dsimp only
    generalize hd : ATestReinvOnhold.drawSched _ _ = drawn
    cases drawn with
    | none => exact trivial
    | some r =>
        have hlen := ATestReinvOnhold.length_drawSched hd
        refine Out.Once.mono (ATest1.hold_init (s := { p.fresh with
          sched := r.1
          env := { p.env with draws := r.2 }
          reinviteIval := some _ }) hc rfl rfl) fun stop s h => ?_
        exact ⟨⟨r.1, _, hlen, h.1⟩, h.2⟩
  have hnamed (s : Subtest) : s.Still { s with mightfail := s.named } := ⟨rfl, id⟩
  unfold create
  rw [hside]
  refine hinit.bind (fun a s h => ?_) (fun _ _ h => h) (fun _ _ h => h) fun c s₀ s₁ s₂ h hT => ?_
  · exact h
  · refine ⟨hT, fun _ => ?_⟩
    obtain ⟨-, -, cli, cld, body, rfl, -⟩ := h
    exact fun hc => (hT hc).trans (hnamed s₂)

/-- **How a run begins.** -/
theorem Setup.chained_of_start (hc : p.cls = .a .reinvOnhold) (h : p.start = some y) :
    ∃ cs, y.st.holding.chain cs = .start 4 ∧ y.st.holding.Sound ∧ Machine.Pends Rest y.pending cs ∧
      (y.st.ua.created = false ∧ y.pending = [] ∨ (p.Whole → y.st.Ready)) := by
  have honce := Setup.hold_create hc
  unfold Setup.start at h
  have hfresh (cs : List (UaCall × Subtest)) (hcs : ∀ on, holds on cs = 0) {s : Subtest}
      (hs : ∃ sched ival, sched.length = 4 ∧ s.holding =
        { p.fresh.holding with inited := true, reinviteIval := some ival, sched := sched }) :
      s.holding.chain cs = .start 4 ∧ s.holding.Sound := by
    obtain ⟨sched, ival, hlen, hs⟩ := hs
    rw [hs]
    refine ⟨?_, hc, rfl, rfl, List.forall_mem_nil _⟩
    simp [Holding.chain, Chain.start, hcs, hlen, Subtest.holding, Subtest.fresh, sent, concluded]
  cases ho : create p.scn p.side p.fresh with
  | ret a s =>
      rw [ho] at h honce
      cases h
      obtain ⟨hchain, hsound⟩ := hfresh [] (fun _ => rfl) honce.1
      exact ⟨[], hchain, hsound, .nil, .inl ⟨honce.2, rfl⟩⟩
  | raise e s =>
      rw [ho] at h honce
      cases h
      have hnote : s.Still (s.note (.raised e)) := Subtest.Becomes.note ⟨rfl, id⟩ rfl rfl
      obtain ⟨hchain, hsound⟩ := hfresh [] (fun _ => rfl) (s := s.note (.raised e)) (hnote.holding ▸ honce.1)
      exact ⟨[], hchain, hsound, .nil, .inl ⟨honce.2, rfl⟩⟩
  | call c s k =>
      rw [ho] at h honce
      cases h
      obtain ⟨hhold, -, cli, cld, body, rfl, hbody⟩ := honce.1
      have hland : (machine.sent (.recvEvent (.ccTry cli cld body)) s).holding = s.holding :=
        holding_land (.call (.recvEvent (.ccTry cli cld body)))
      obtain ⟨hchain, hsound⟩ := hfresh [(.recvEvent (.ccTry cli cld body), s)] (fun _ => rfl)
        (s := machine.sent (.recvEvent (.ccTry cli cld body)) s) (hland ▸ hhold)
      refine ⟨_, hchain, hsound, .cons honce.2 .nil, .inr fun hw => ?_⟩
      obtain ⟨sdp, hsdp, hh⟩ := hbody hw
      rw [Option.mem_def] at hsdp
      subst hsdp
      exact ⟨sdp, rfl, hh⟩
  | spin =>
      rw [ho] at h
      cases h

/-- **Runs of a call that has begun.**  What holds at the beginning, and is kept
by every step that meets `Q`, holds throughout a run in which the UA behaves and
whose steps meet it. -/
theorem Setup.Begun.chained_of_run {I : Sys → List (UaCall × Subtest) → Prop} {Q : Sys → Act → Prop}
    {acts : List Act} {y₀ : Sys} (hbegun : p.Begun y₀.st) (hc : p.cls = .a .reinvOnhold)
    (hI : ∀ cs, y₀.st.holding.chain cs = .start 4 → I y₀ cs)
    (hstep : ∀ {y a y' cs cs'}, Chained p.Whole y cs → I y cs → Q y a → machine.step y a = some y' →
      Chain.Step p.Whole (Prompt y a) (Steady y a) (y.st.holding.chain cs) (y'.st.holding.chain cs') →
        I y' cs')
    (hstart : p.start = some y₀) (h : Run.exec machine.step y₀ acts = some y)
    (hb : Run.Meets machine.step Behaves y₀ acts) (hq : Run.Meets machine.step Q y₀ acts) :
    ∃ cs, Chained p.Whole y cs ∧ I y cs := by
  obtain ⟨cs, hchain, hsound, hpends, ⟨hu, -⟩ | hready⟩ := Setup.chained_of_start hc hstart
  · cases hbegun.created.symm.trans hu
  · refine Run.exec_inv_of_meets (P := fun y => ∃ cs, Chained p.Whole y cs ∧ I y cs)
      (fun y a y' hy hqa hs => ?_)
      ⟨cs, ⟨hpends, hsound, hready, hchain ▸ Chain.orderly_start 4⟩, hI cs hchain⟩ (hb.and hq) h
    obtain ⟨cs, hy, hI⟩ := hy
    obtain ⟨cs', hy', hchain'⟩ := hy.step hqa.1 hs
    exact ⟨cs', hy', hstep hy hI hqa.2 hs hchain'⟩

/-- **Whole runs**, and what is known of their chains. -/
theorem Setup.chain_of_run {I : Chain → Prop} {Q : Sys → Act → Prop} {acts : List Act} {y₀ : Sys}
    (hc : p.cls = .a .reinvOnhold) (hI : I (.start 4))
    (hstep : ∀ {y a c c'}, Q y a → c.Orderly 5 → I c →
      Chain.Step p.Whole (Prompt y a) (Steady y a) c c' → I c')
    (hstart : p.start = some y₀) (h : Run.exec machine.step y₀ acts = some y)
    (hb : Run.Meets machine.step Behaves y₀ acts) (hq : Run.Meets machine.step Q y₀ acts) :
    ∃ cs, Machine.Pends Rest y.pending cs ∧ y.st.holding.Sound ∧
      (y.st.holding.chain cs).Orderly 5 ∧ I (y.st.holding.chain cs) := by
  obtain ⟨-, ⟨hun, hp⟩ | hbegun⟩ := Setup.start_cases hstart
  · -- Nothing happens to a subtest without a UA.
    cases acts with
    | nil =>
        rw [Run.exec_nil, Option.some.injEq] at h
        subst h
        obtain ⟨cs, hchain, hsound, hpends, -⟩ := Setup.chained_of_start hc hstart
        exact ⟨cs, hpends, hsound, hchain ▸ Chain.orderly_start 4, hchain ▸ hI⟩
    | cons a as =>
        rw [Run.exec_cons, step_eq_none hun.created hp] at h
        cases h
  · obtain ⟨cs, hy, hIy⟩ := hbegun.chained_of_run (I := fun y cs => I (y.st.holding.chain cs)) hc
      (fun cs hcs => hcs ▸ hI) (fun hy hI hq _ => hstep hq hy.orderly hI) hstart h hb hq
    exact ⟨cs, hy.pends, hy.sound, hy.orderly, hIy⟩

/-! ## the order of the holds -/

/-- No call is pending: no hold is being sent. -/
theorem holds_of_idle (hp : Machine.Pends Rest y.pending cs) (hy : y.pending = []) (on : Bool) :
    holds on cs = 0 := by
  rw [hy] at hp
  cases hp
  rfl

/-- The timers of on-holds and off-holds. -/
theorem countP_starts (ts : List Timer) : ts.countP (fun t => t.cb.starts) =
    ts.countP (fun t => t.cb = .reinvite) + ts.countP fun t => t.cb = .offHold := by
  induction ts with
  | nil => rfl
  | cons t ts ih =>
      rw [List.countP_cons, List.countP_cons, List.countP_cons, ih]
      cases t.cb <;> simp [TimerCb.starts] <;> omega

/-- The holds of a subtest are in order: they take turns, on-hold first; there
are as many as re-INVITEs have been sent; and as long as the call is up, those
that are still to come make five with them. -/
structure HoldsInOrder (whole : Prop) (y : Sys) : Prop where
  turn : y.st.offholdCount ≤ y.st.onholdCount ∧ y.st.onholdCount ≤ y.st.offholdCount + 1
  most : y.st.onholdCount + y.st.offholdCount ≤ 5
  sending : y.st.onholdCount + y.st.offholdCount ≤ sent y.st.log ∧
    sent y.st.log ≤ y.st.onholdCount + y.st.offholdCount + 1
  sent : y.pending = [] → y.st.onholdCount + y.st.offholdCount = sent y.st.log
  toCome : whole → y.st.connectDone = true → y.st.disconnectDone = false → y.pending = [] →
    y.st.onholdCount + y.st.offholdCount + y.st.timers.countP (fun t => t.cb.starts) +
      y.st.sched.length = 5
  stops : whole → y.st.connectDone = true → y.st.disconnectDone = false → y.pending = [] →
    y.st.timers.countP (fun t => t.cb.starts) = 0 → y.st.sched = [] →
      y.st.onholdCount = 3 ∧ y.st.offholdCount = 2

/-- **The holds are in order** in every run in which the UA behaves and no timer
of an off-hold fires after the disconnect. -/
theorem holds_in_order {acts : List Act} {y₀ y : Sys} (hc : p.cls = .a .reinvOnhold)
    (hstart : p.start = some y₀) (h : Run.exec machine.step y₀ acts = some y)
    (hb : Run.Meets machine.step Behaves y₀ acts) (hs : Run.Meets machine.step Steady y₀ acts) :
    HoldsInOrder p.Whole y := by
  obtain ⟨cs, hpends, -, horder, hcounted, hcomplete⟩ := Setup.chain_of_run (Q := Steady)
    (I := fun c => c.Counted ∧ (p.Whole → c.Complete 5)) hc
    ⟨Chain.counted_start 4, fun _ => Chain.complete_start 4⟩
    (fun hq ho hI hstep => ⟨hI.1.step hq hstep, fun hw => (hI.2 hw).step ho hw hstep⟩) hstart h hb hs
  obtain ⟨hturn, hmost⟩ := horder.counts
  have hlate : holds true cs + holds false cs ≤ y.st.reinviteInProgress.toNat := horder.late
  have hone : y.st.reinviteInProgress.toNat ≤ 1 := Bool.toNat_le _
  have hsent : sent y.st.log = y.st.onholdCount + holds true cs + (y.st.offholdCount + holds false cs) :=
    hcounted
  have htoCome (hw : p.Whole) (hup : y.st.connectDone = true) (hdown : y.st.disconnectDone = false)
      (hidle : y.pending = []) : y.st.onholdCount + y.st.offholdCount +
        y.st.timers.countP (fun t => t.cb.starts) + y.st.sched.length = 5 := by
    have hlinks := (hcomplete hw).2 hup hdown
    have hon := holds_of_idle hpends hidle true
    have hoff := holds_of_idle hpends hidle false
    simp only [Holding.chain, Chain.links, Chain.ons, Chain.offs, Subtest.holding] at hlinks
    rw [countP_starts]
    omega
  refine ⟨hturn, hmost, by omega, fun hidle => ?_, htoCome, fun hw hup hdown hidle hnone hnil => ?_⟩
  · have hon := holds_of_idle hpends hidle true
    have hoff := holds_of_idle hpends hidle false
    omega
  · have hfive := htoCome hw hup hdown hidle
    have hturn' : y.st.offholdCount ≤ y.st.onholdCount ∧
        y.st.onholdCount ≤ y.st.offholdCount + 1 := hturn
    rw [hnone, hnil, List.length_nil] at hfive
    omega

instance (y : Sys) : (a : Act) → Decidable (Behaves y a)
  | .enter ⟨.connected, _⟩ => inferInstanceAs (Decidable (y.st.connectDone = false))
  | .enter ⟨.event ev, _⟩ =>
    decidable_of_iff (y.st.reinviteInProgress = true → ev.isConnect = true → y.pending.isEmpty = true)
      (by rw [List.isEmpty_iff]; exact Iff.rfl)
  | .enter ⟨.disconnected _ _, _⟩ => inferInstanceAs (Decidable True)
  | .enter ⟨.dead, _⟩ => inferInstanceAs (Decidable True)
  | .enter ⟨.timer _, _⟩ => inferInstanceAs (Decidable True)
  | .enter ⟨.inDialogInvite _, _⟩ => inferInstanceAs (Decidable True)
  | .ret _ => inferInstanceAs (Decidable True)
  | .throw _ => inferInstanceAs (Decidable False)

instance (y : Sys) : (a : Act) → Decidable (Steady y a)
  | .enter ⟨.timer t, _⟩ => inferInstanceAs (Decidable (t.cb = .offHold → y.st.disconnectDone = false))
  | .enter ⟨.connected, _⟩ => inferInstanceAs (Decidable True)
  | .enter ⟨.event _, _⟩ => inferInstanceAs (Decidable True)
  | .enter ⟨.disconnected _ _, _⟩ => inferInstanceAs (Decidable True)
  | .enter ⟨.dead, _⟩ => inferInstanceAs (Decidable True)
  | .enter ⟨.inDialogInvite _, _⟩ => inferInstanceAs (Decidable True)
  | .ret _ => inferInstanceAs (Decidable True)
  | .throw _ => inferInstanceAs (Decidable True)

/-- The next hold: the answer to the one before, its timer and the return of the
UA. -/
def Sample.nextHold (cb : TimerCb) : List Act :=
  [enter (.event (.connect 200 "OK" (some proxied))), enter (.timer ⟨cb, 21 / 200⟩), .ret env]

/-- All five of them. -/
def Sample.fiveHolds : List Act :=
  holdCall ++ nextHold .offHold ++ nextHold .reinvite ++ nextHold .offHold ++ nextHold .reinvite

/-- Bob hangs up while the timer of the off-hold is pending. -/
def Sample.lostOffHold : List Act :=
  holdCall ++ [enter (.event (.connect 200 "OK" (some proxied))),
    enter (.disconnected .callee ⟨10, 1, true, true⟩), enter (.timer ⟨.offHold, 21 / 200⟩)]

/-- An off-hold is counted that is not sent. -/
theorem not_holds_in_order : ¬ ∀ (p : Setup) (acts : List Act) (y₀ y : Sys),
    p.cls = .a .reinvOnhold → p.start = some y₀ → Run.exec machine.step y₀ acts = some y →
      Run.Meets machine.step Behaves y₀ acts → HoldsInOrder p.Whole y := by
  intro hall
  have hrun : (Sample.onhold.start.bind fun y₀ => (Run.exec machine.step y₀ Sample.lostOffHold).map
      fun y => (y.pending.isEmpty, y.st.onholdCount + y.st.offholdCount, sent y.st.log,
        decide (Run.Meets machine.step Behaves y₀ Sample.lostOffHold))) = some (true, 2, 1, true) := by
    decide +kernel
  obtain ⟨y₀, hstart, hrun⟩ := Option.bind_eq_some_iff.mp hrun
  obtain ⟨y, hexec, hf⟩ := Option.map_eq_some_iff.mp hrun
  simp only [Prod.mk.injEq, List.isEmpty_iff, decide_eq_true_eq] at hf
  obtain ⟨hidle, hcount, hsent, hb⟩ := hf
  have hsame := (hall _ _ y₀ y rfl hstart hexec hb).sent hidle
  omega

theorem holds_in_order_five : ∃ y, Sample.onhold.Reaches Sample.fiveHolds y ∧ sent y.st.log = 5 ∧
    HoldsInOrder Sample.onhold.Whole y := by
  have hrun : (Sample.onhold.start.bind fun y₀ => (Run.exec machine.step y₀ Sample.fiveHolds).map
      fun y => (sent y.st.log, decide (Run.Meets machine.step Behaves y₀ Sample.fiveHolds),
        decide (Run.Meets machine.step Steady y₀ Sample.fiveHolds))) = some (5, true, true) := by
    decide +kernel
  obtain ⟨y₀, hstart, hrun⟩ := Option.bind_eq_some_iff.mp hrun
  obtain ⟨y, hexec, hf⟩ := Option.map_eq_some_iff.mp hrun
  simp only [Prod.mk.injEq, decide_eq_true_eq] at hf
  obtain ⟨hsent, hb, hs⟩ := hf
  exact ⟨y, ⟨y₀, hstart, hexec⟩, hsent, holds_in_order rfl hstart hexec hb hs⟩

/-! ## hanging up -/

/-- All the re-INVITEs of the sequence have been sent, and answered. -/
structure Concluded (s : Subtest) : Prop where
  counts : s.onholdCount = 3 ∧ s.offholdCount = 2
  sent : sent s.log = 5
  concluded : concluded s.log = 5
  inProgress : s.reinviteInProgress = false

/-- **The poll, as it hangs up**: the counts are 3 and 2, and nothing else is looked
at. -/
theorem hung_up {t : Timer} {env : Env} (hsound : y.st.holding.Sound) (ht : t.cb = .disconnect)
    (hs : machine.step y (.enter ⟨.timer t, env⟩) = some y')
    (hbye : y'.st.log.getLast? = some (.inject .disconnect)) :
    y.pending = [] ∧ y.st.disconnectDone = false ∧ (y.st.onholdCount = 3 ∧ y.st.offholdCount = 2) ∧
      y'.st.holding = { y.st.holding with timers := y.st.timers.erase t } := by
  obtain ⟨s₁, he, -⟩ := Option.bind_eq_some_iff.mp hs
  obtain ⟨-, heq⟩ := entry_eq_entered he
  obtain ⟨stop, s₂, hturn, hst⟩ := Machine.step_enter_until he (turns_body hsound he).until hs
  have hidle : y.pending = [] := by
    obtain ⟨s₁, he, -⟩ := Option.map_eq_some_iff.mp he
    exact List.isEmpty_iff.mp (idle_of_entry he)
  subst heq
  cases hturn with
  | poll _ _ hlog =>
      -- It has not hung up.
      rw [hst] at hbye
      have hlast : s₂.log.getLast? = some (.fired t.cb) := by
        rw [hlog]
        exact List.getLast?_concat
      cases hbye.symm.trans hlast
  | hangUp _ hd hcounts =>
      refine ⟨hidle, hd, hcounts, ?_⟩
      rw [hst, holding_land, holding_entered]
      rfl
  | hold hcb => rcases hcb with hcb | hcb <;> cases ht.symm.trans hcb
  | noHold hcb => rcases hcb with hcb | hcb <;> cases ht.symm.trans hcb
  | stray hcb => cases ht.symm.trans hcb

/-- **When the poll hangs up after the last answer**: if that has come in.  It
looks at the counts, which are those of the re-INVITEs that have been sent. -/
theorem hangs_up_concluded_iff {acts : List Act} {y₀ y y' : Sys} {t : Timer} {env : Env}
    (hc : p.cls = .a .reinvOnhold) (hstart : p.start = some y₀)
    (h : Run.exec machine.step y₀ acts = some y) (hb : Run.Meets machine.step Behaves y₀ acts)
    (ht : t.cb = .disconnect) (hs : machine.step y (.enter ⟨.timer t, env⟩) = some y')
    (hbye : y'.st.log.getLast? = some (.inject .disconnect)) :
    Concluded y'.st ↔ concluded y.st.log = sent y.st.log := by
  obtain ⟨cs, hpends, hsound, horder, -⟩ := Setup.chain_of_run (Q := fun _ _ => True)
    (I := fun _ => True) hc trivial (fun _ _ _ _ => trivial) hstart h hb
    (Run.meets_of_forall fun _ _ => trivial)
  obtain ⟨hidle, hd, hcounts, hholding⟩ := hung_up hsound ht hs hbye
  simp only [Subtest.holding, Holding.mk.injEq] at hholding
  obtain ⟨-, -, -, hin, -, -, -, hon, hoff, -, hsent, hconcluded⟩ := hholding
  have hfive : sent y.st.log = 5 := by
    have hcount := horder.sent.2 hd
    have hlateOn := holds_of_idle hpends hidle true
    have hlateOff := holds_of_idle hpends hidle false
    simp only [Holding.chain, Chain.ons, Chain.offs, Subtest.holding] at hcount
    omega
  have hgoing : sent y.st.log = concluded y.st.log + y.st.reinviteInProgress.toNat := horder.answers
  constructor
  · intro hdone
    rw [hfive, ← hconcluded]
    exact hdone.concluded
  · intro hall
    refine ⟨⟨hon.trans hcounts.1, hoff.trans hcounts.2⟩, hsent.trans hfive,
      hconcluded.trans (hall.trans hfive), ?_⟩
    rw [hin]
    cases hp : y.st.reinviteInProgress with
    | false => rfl
    | true =>
        rw [hp, Bool.toNat_true] at hgoing
        omega

/-- Alice's poll. -/
def Sample.poll : Act := enter (.timer ⟨.disconnect, 9⟩)

/-- The poll finds the fifth re-INVITE on its way, and hangs up. -/
theorem not_hangs_up_concluded : ¬ ∀ (p : Setup) (acts : List Act) (y₀ y y' : Sys) (t : Timer)
    (env : Env), p.cls = .a .reinvOnhold → p.start = some y₀ →
      Run.exec machine.step y₀ acts = some y → Run.Meets machine.step Behaves y₀ acts →
      t.cb = .disconnect → machine.step y (.enter ⟨.timer t, env⟩) = some y' →
      y'.st.log.getLast? = some (.inject .disconnect) → Concluded y'.st := by
  intro hall
  have hrun : (Sample.onhold.start.bind fun y₀ => (Run.exec machine.step y₀ Sample.fiveHolds).bind
      fun y => (machine.step y Sample.poll).map fun y' => (y'.st.log.getLast?, y'.st.reinviteInProgress,
        decide (Run.Meets machine.step Behaves y₀ Sample.fiveHolds))) =
          some (some (.inject .disconnect), true, true) := by
    decide +kernel
  obtain ⟨y₀, hstart, hrun⟩ := Option.bind_eq_some_iff.mp hrun
  obtain ⟨y, hexec, hrun⟩ := Option.bind_eq_some_iff.mp hrun
  obtain ⟨y', hs, hf⟩ := Option.map_eq_some_iff.mp hrun
  simp only [Prod.mk.injEq, decide_eq_true_eq] at hf
  obtain ⟨hbye, hin, hb⟩ := hf
  have hno := (hall _ _ y₀ y y' _ _ rfl hstart hexec hb rfl hs hbye).inProgress
  rw [hin] at hno
  cases hno

/-- The last answer, before the poll. -/
def Sample.lastAnswer : List Act :=
  fiveHolds ++ [enter (.event (.connect 200 "OK" (some proxied)))]

theorem hangs_up_concluded_answered : ∃ y', Concluded y'.st ∧ ∃ y,
    Sample.onhold.Reaches Sample.lastAnswer y ∧ machine.step y Sample.poll = some y' := by
  have hrun : (Sample.onhold.start.bind fun y₀ => (Run.exec machine.step y₀ Sample.lastAnswer).bind
      fun y => (machine.step y Sample.poll).map fun y' => (y'.st.log.getLast?,
        decide (concluded y.st.log = sent y.st.log),
        decide (Run.Meets machine.step Behaves y₀ Sample.lastAnswer))) =
          some (some (.inject .disconnect), true, true) := by
    decide +kernel
  obtain ⟨y₀, hstart, hrun⟩ := Option.bind_eq_some_iff.mp hrun
  obtain ⟨y, hexec, hrun⟩ := Option.bind_eq_some_iff.mp hrun
  obtain ⟨y', hs, hf⟩ := Option.map_eq_some_iff.mp hrun
  simp only [Prod.mk.injEq, decide_eq_true_eq] at hf
  obtain ⟨hbye, hall, hb⟩ := hf
  exact ⟨y', (hangs_up_concluded_iff rfl hstart hexec hb rfl hs hbye).mpr hall, y, ⟨y₀, hstart, hexec⟩, hs⟩

/-! ## going on -/

/-- The outcome of a re-INVITE. -/
def Obs.isOutcome : Obs → Bool
  | .event ev inProgress => inProgress && (ev.isConnect || ev.isFailure)
  | _ => false

/-- The outcomes of re-INVITEs that have come in. -/
def outcomes (log : List Obs) : Nat := log.countP Obs.isOutcome

/-- Something is still to come: the outcome of a re-INVITE, or the timer of the
next one. -/
def Subtest.GoesOn (s : Subtest) : Prop :=
  outcomes s.log < sent s.log ∨ ∃ t ∈ s.timers, t.cb.starts

/-- Every outcome is an answer, but for failures. -/
theorem outcomes_of_step (hf : p.Found y) (h : machine.step y a = some y')
    (hno : ∀ ev env, a = .enter ⟨.event ev, env⟩ → y.st.reinviteInProgress = true → ev.isFailure = false)
    (hy : outcomes y.st.log = concluded y.st.log) : outcomes y'.st.log = concluded y'.st.log := by
  obtain ⟨l, hlog, hmade⟩ := hf.entered_of_step h
  have hnone {f : Obs → Bool} (hf : ∀ o, o.made = true → f o = false) : l.countP f = 0 :=
    List.countP_eq_zero.mpr fun o ho => by simp [hf o (hmade o ho)]
  have hout : l.countP Obs.isOutcome = 0 := hnone fun o ho => by
    cases o <;> first | rfl | cases ho
  have hcon : l.countP Obs.concludes = 0 := hnone fun o ho => by
    cases o <;> first | rfl | cases ho
  have hentered : (actObs y.st a).countP Obs.isOutcome = (actObs y.st a).countP Obs.concludes := by
    cases a with
    | enter i =>
        obtain ⟨cb, env⟩ := i
        cases cb with
        | event ev =>
            have hsame : (Obs.event ev y.st.reinviteInProgress).isOutcome =
                (Obs.event ev y.st.reinviteInProgress).concludes := by
              cases hp : y.st.reinviteInProgress with
              | false => rfl
              | true => simp [Obs.isOutcome, Obs.concludes, hno ev env rfl hp]
            simp only [actObs, Cb.obs, List.countP_singleton, hsame]
        | _ => rfl
    | ret env => rfl
    | throw e => rfl
  rw [outcomes] at hy ⊢
  rw [concluded] at hy ⊢
  rw [hlog, List.countP_append, List.countP_append, List.countP_append, List.countP_append, hy, hout, hcon,
    hentered]

theorem outcomes_of_begun (hb : p.Begun s) : outcomes s.log = concluded s.log := by
  have hnone {f : Obs → Bool} (hf : ∀ o, o.entered = false → f o = false) : s.log.countP f = 0 :=
    List.countP_eq_zero.mpr fun o ho => by simp [hf o (hb.not_entered ho)]
  rw [outcomes, concluded, hnone, hnone]
  all_goals
    intro o ho
    cases o <;> first | rfl | cases ho

/-- What is known of a call all of whose steps are prompt. -/
structure Going (p : Setup) (y : Sys) (cs : List (UaCall × Subtest)) : Prop where
  found : p.Found y
  alive : (y.st.holding.chain cs).Alive
  complete : (y.st.holding.chain cs).Complete 5
  outcomes : (y.st.holding.chain cs).Over 5 ∨ outcomes y.st.log = concluded y.st.log

/-- **One step.** -/
theorem Going.step {cs' : List (UaCall × Subtest)} (h : Going p y cs) (hy : Chained p.Whole y cs)
    (hw : p.Whole) (hq : Prompt y a) (hs : machine.step y a = some y')
    (hstep : Chain.Step p.Whole (Prompt y a) (Steady y a) (y.st.holding.chain cs)
      (y'.st.holding.chain cs')) : Going p y' cs' := by
  refine ⟨(h.found.step hs).1, h.alive.step hy.orderly hw hq hstep, h.complete.step hy.orderly hw hstep, ?_⟩
  by_cases hover : (y.st.holding.chain cs).Over 5
  · exact .inl (hover.step hy.orderly hstep)
  · refine .inr (outcomes_of_step h.found hs ?_ (h.outcomes.resolve_left hover))
    rintro ev env rfl hp
    by_contra hfails
    rw [Bool.not_eq_false] at hfails
    -- Only the last one may fail.
    obtain ⟨hsched, hidle⟩ := (hq hp).1 hfails
    have hleft : (y.st.holding.chain cs).left = 0 := List.length_eq_zero_iff.mpr hsched
    have hgoing : (y.st.holding.chain cs).going = 1 := congrArg Bool.toNat hp
    have hlate : (y.st.holding.chain cs).lateOn + (y.st.holding.chain cs).lateOff = 0 := by
      have hon := holds_of_idle hy.pends hidle true
      have hoff := holds_of_idle hy.pends hidle false
      exact Nat.add_eq_zero_iff.mpr ⟨hon, hoff⟩
    exact hover (hy.orderly.over h.complete hleft hlate hgoing)

/-- A call that is connected has begun. -/
theorem begun_of_connected {acts : List Act} {y₀ : Sys} (hc : p.cls = .a .reinvOnhold)
    (hstart : p.start = some y₀) (h : Run.exec machine.step y₀ acts = some y)
    (hup : y.st.connectDone = true) : p.Begun y₀.st := by
  obtain ⟨-, ⟨hun, hp⟩ | hbegun⟩ := Setup.start_cases hstart
  · cases acts with
    | nil =>
        rw [Run.exec_nil, Option.some.injEq] at h
        subst h
        obtain ⟨cs, hchain, -⟩ := Setup.chained_of_start hc hstart
        have hdown : y₀.st.connectDone = false := congrArg Chain.up hchain
        rw [hup] at hdown
        cases hdown
    | cons a as =>
        rw [Run.exec_cons, step_eq_none hun.created hp] at h
        cases h
  · exact hbegun

/-- **The chain goes on** in every run in which the UA behaves, every re-INVITE
but the last is answered by a `CCEventConnect` that is welcome, and the body can
be put on hold: as long as the poll goes on there is something still to come. -/
theorem chain_goes_on {acts : List Act} {y₀ y : Sys} (hc : p.cls = .a .reinvOnhold) (hw : p.Whole)
    (hstart : p.start = some y₀) (h : Run.exec machine.step y₀ acts = some y)
    (hb : Run.Meets machine.step Behaves y₀ acts) (hq : Run.Meets machine.step Prompt y₀ acts)
    (hup : y.st.connectDone = true) (hdown : y.st.disconnectDone = false)
    (hpoll : y.st.onholdCount ≠ 3 ∨ y.st.offholdCount ≠ 2) : y.st.GoesOn := by
  have hbegun : p.Begun y₀.st := begun_of_connected hc hstart h hup
  have h₀ : p.Reaches [] y₀ := ⟨y₀, hstart, rfl⟩
  obtain ⟨cs, hy, -, halive, hcomplete, houtcomes⟩ := hbegun.chained_of_run (I := Going p) hc
    (fun cs hcs => ⟨Setup.found_of_reaches h₀, hcs ▸ Chain.alive_start 4, hcs ▸ Chain.complete_start 4,
      .inr (outcomes_of_begun hbegun)⟩)
    (fun hy hgoing hq hs hstep => hgoing.step hy hw hq hs hstep) hstart h hb hq
  have horder := hy.orderly
  obtain ⟨⟨hturn, hturn'⟩, -⟩ := horder.counts
  by_contra hno
  rw [Subtest.GoesOn, not_or, not_lt, not_exists] at hno
  obtain ⟨hout, htimers⟩ := hno
  have hnone : y.st.timers.countP (fun t => t.cb.starts) = 0 :=
    List.countP_eq_zero.mpr fun t ht hstarts => htimers t ⟨ht, of_decide_eq_true hstarts⟩
  rw [countP_starts] at hnone
  have hfive : y.st.onholdCount + y.st.offholdCount = 5 := by
    rcases houtcomes with (hdis | hover) | houtcomes
    · cases hdown.symm.trans hdis
    · exact hover
    · have hgoing : sent y.st.log = concluded y.st.log + y.st.reinviteInProgress.toNat := horder.answers
      have hleft := halive hup hdown
      have hlinks := hcomplete.2 hup hdown
      have hlate := horder.late
      simp only [Holding.chain, Chain.links, Chain.ons, Chain.offs, Subtest.holding] at hleft hlinks hlate
      omega
  have hturns : y.st.offholdCount ≤ y.st.onholdCount ∧ y.st.onholdCount ≤ y.st.offholdCount + 1 :=
    ⟨hturn, hturn'⟩
  omega

instance (y : Sys) : (a : Act) → Decidable (Prompt y a)
  | .enter ⟨.event ev, env⟩ =>
    decidable_of_iff (y.st.reinviteInProgress = true →
        (ev.isFailure = true → y.st.sched = [] ∧ y.pending.isEmpty = true) ∧
        (ev.isConnect = true → y.st.sched = [] ∨ Subtest.Welcomes { y.st with env := env } ev))
      (by rw [List.isEmpty_iff]; exact Iff.rfl)
  | .enter ⟨.connected, _⟩ => inferInstanceAs (Decidable True)
  | .enter ⟨.disconnected _ _, _⟩ => inferInstanceAs (Decidable True)
  | .enter ⟨.dead, _⟩ => inferInstanceAs (Decidable True)
  | .enter ⟨.timer _, _⟩ => inferInstanceAs (Decidable True)
  | .enter ⟨.inDialogInvite _, _⟩ => inferInstanceAs (Decidable True)
  | .ret _ => inferInstanceAs (Decidable True)
  | .throw _ => inferInstanceAs (Decidable True)

/-- The first re-INVITE fails. -/
def Sample.failedHold : List Act := holdCall ++ [enter (.event (.fail 488 "Not Acceptable Here"))]

/-- After a re-INVITE that fails the poll goes on, and nothing else does. -/
theorem not_chain_goes_on : ¬ ∀ (p : Setup) (acts : List Act) (y₀ y : Sys),
    p.cls = .a .reinvOnhold → p.start = some y₀ → Run.exec machine.step y₀ acts = some y →
      Run.Meets machine.step Behaves y₀ acts → y.st.connectDone = true → y.st.disconnectDone = false →
        (y.st.onholdCount ≠ 3 ∨ y.st.offholdCount ≠ 2) → y.st.GoesOn := by
  intro hall
  have hrun : (Sample.onhold.start.bind fun y₀ => (Run.exec machine.step y₀ Sample.failedHold).map
      fun y => (y.st.connectDone, y.st.disconnectDone, (y.st.onholdCount, outcomes y.st.log, sent y.st.log),
        y.st.timers.any fun t => t.cb.starts,
        decide (Run.Meets machine.step Behaves y₀ Sample.failedHold))) =
          some (true, false, (1, 1, 1), false, true) := by
    decide +kernel
  obtain ⟨y₀, hstart, hrun⟩ := Option.bind_eq_some_iff.mp hrun
  obtain ⟨y, hexec, hf⟩ := Option.map_eq_some_iff.mp hrun
  simp only [Prod.mk.injEq, decide_eq_true_eq, List.any_eq_false] at hf
  obtain ⟨hup, hdown, ⟨hon, hout, hsent⟩, htimers, hb⟩ := hf
  rcases hall _ _ y₀ y rfl hstart hexec hb hup hdown (.inl (by omega)) with hout' | ⟨t, ht, hstarts⟩
  · omega
  · exact htimers t ht hstarts

theorem chain_goes_on_after_answer : ∃ y, y.st.GoesOn ∧ ∃ acts, Sample.onhold.Reaches acts y := by
  have hrun : (Sample.onhold.start.bind fun y₀ =>
      (Run.exec machine.step y₀ (Sample.holdCall ++ Sample.nextHold .offHold)).map
        fun y => (y.st.connectDone, y.st.disconnectDone, y.st.onholdCount,
          decide (Run.Meets machine.step Behaves y₀ (Sample.holdCall ++ Sample.nextHold .offHold)),
          decide (Run.Meets machine.step Prompt y₀ (Sample.holdCall ++ Sample.nextHold .offHold)))) =
            some (true, false, 1, true, true) := by
    decide +kernel
  obtain ⟨y₀, hstart, hrun⟩ := Option.bind_eq_some_iff.mp hrun
  obtain ⟨y, hexec, hf⟩ := Option.map_eq_some_iff.mp hrun
  simp only [Prod.mk.injEq, decide_eq_true_eq] at hf
  obtain ⟨hup, hdown, hon, hb, hq⟩ := hf
  have hw : Sample.onhold.Whole := ⟨Sample.proxied, rfl, by decide +kernel⟩
  exact ⟨y, chain_goes_on rfl hw hstart hexec hb hq hup hdown (.inl (by omega)), _, y₀, hstart, hexec⟩

end VoipTests
