import VoipTests.Subtest.Life

/-!
# VoipTests.Subtest.Chronicle

The flags of a subtest and its chronicle.

A verdict is made of flags, and a call of what has happened in it.
`Recorded` takes a flag back to the entry that explains it, in every state of
every life.  The other way round, `Setup.Lives.of_entered` says that a
callback has had its effect by the time the subtest is left alone again.
-/

namespace VoipTests

open Callback Relation

variable {p : Setup} {s s' : Subtest}

/-! ## from a flag to its entries -/

/-- Every flag has its entries in the chronicle.  `test_early_cancel` sets two
flags in `alldone`, with nothing behind them. -/
structure Subtest.Recorded (s : Subtest) : Prop where
  disconnectDone : s.disconnectDone = true ↔ .disconnectDone ∈ s.log
  accepted : s.disconnectDone = true →
    ∃ origin acct, .disconnected origin acct ∈ s.log ∧ s.cls.accepts origin = true
  connectDone : s.cls.isA .testEarlyCancel = false → s.connectDone = true → .connectDone ∈ s.log
  connected : s.cls.isA .testEarlyCancel = false → s.cls.isAlice = true → s.connectDone = true →
    .connected ∈ s.log
  rung : s.cls.isA .testEarlyCancel = false → s.cls.isAlice = true → s.ringDone = true →
    ∃ ev inProgress, .event ev inProgress ∈ s.log ∧ ev.isRing = true

/-- New entries take nothing away, as long as the flags stay. -/
theorem Subtest.Recorded.append (h : s.Recorded) {l : List Obs} (hcls : s'.cls = s.cls)
    (hd : s'.disconnectDone = s.disconnectDone)
    (hc : s.cls.isA .testEarlyCancel = false → s'.connectDone = s.connectDone)
    (hr : s.cls.isA .testEarlyCancel = false → s'.ringDone = s.ringDone)
    (hlog : s'.log = s.log ++ l) (hl : .disconnectDone ∉ l) : s'.Recorded := by
  have hmem {o : Obs} (ho : o ∈ s.log) : o ∈ s'.log := by
    rw [hlog]
    exact List.mem_append_left l ho
  constructor
  · rw [hd, h.disconnectDone, hlog, List.mem_append]
    simp [hl]
  · rw [hd, hcls]
    intro hd
    obtain ⟨origin, acct, ho, ha⟩ := h.accepted hd
    exact ⟨origin, acct, hmem ho, ha⟩
  · rw [hcls]
    intro hn
    rw [hc hn]
    exact fun hc => hmem (h.connectDone hn hc)
  · rw [hcls]
    intro hn
    rw [hc hn]
    exact fun ha hc => hmem (h.connected hn ha hc)
  · rw [hcls]
    intro hn
    rw [hr hn]
    intro ha hr
    obtain ⟨ev, inProgress, ho, he⟩ := h.rung hn ha hr
    exact ⟨ev, inProgress, hmem ho, he⟩

theorem mem_of_last {o : Obs} (h : s.last = some o) : o ∈ s.log := List.mem_of_getLast? h

/-- What is said of no new entry is said of the last one only if it was before. -/
theorem last_append_le (log : List Obs) {l : List Obs} {f : Obs → Bool} (h : ∀ o ∈ l, f o = false) :
    ((log ++ l).getLast?.any f).toNat ≤ (log.getLast?.any f).toNat := by
  rw [List.getLast?_append]
  cases hl : l.getLast? with
  | none => simp
  | some o => simp [h o (List.mem_of_getLast? hl)]

theorem Move.recorded (h : Move s s') (hs : s.Recorded) : s'.Recorded := by
  have hnone {s' : Subtest} (hcls : s'.cls = s.cls) (hd : s'.disconnectDone = s.disconnectDone)
      (hc : s'.connectDone = s.connectDone) (hr : s'.ringDone = s.ringDone)
      (hlog : s'.log = s.log) : s'.Recorded :=
    hs.append (l := []) hcls hd (fun _ => hc) (fun _ => hr) (by simpa using hlog) (by simp)
  have hone {s' : Subtest} {o : Obs} (hcls : s'.cls = s.cls)
      (hd : s'.disconnectDone = s.disconnectDone) (hc : s'.connectDone = s.connectDone)
      (hr : s'.ringDone = s.ringDone) (hlog : s'.log = s.log ++ [o]) (ho : o ≠ .disconnectDone) :
      s'.Recorded :=
    hs.append hcls hd (fun _ => hc) (fun _ => hr) hlog (by simpa using ho.symm)
  have hmem {o o' : Obs} (ho : o ∈ s.log) : o ∈ s.log ++ [o'] := List.mem_append_left _ ho
  cases h with
  | unseen h =>
      obtain ⟨_, _, _, _, -, -, rfl⟩ := h
      exact hnone rfl rfl rfl rfl rfl
  | connected hl =>
      refine ⟨?_, fun hd => ?_, fun _ _ => ?_, fun _ _ _ => hmem (mem_of_last hl), fun hn ha hr => ?_⟩
      · show s.disconnectDone = true ↔ _ ∈ s.log ++ [_]
        rw [hs.disconnectDone]
        simp
      · obtain ⟨origin, acct, ho, ha⟩ := hs.accepted hd
        exact ⟨origin, acct, hmem ho, ha⟩
      · exact List.mem_append_right _ (List.mem_singleton_self _)
      · obtain ⟨ev, inProgress, ho, he⟩ := hs.rung hn ha hr
        exact ⟨ev, inProgress, hmem ho, he⟩
  | disconnected hl ha =>
      refine ⟨?_, fun _ => ?_, fun hn hc => ?_, fun hn ha hc => ?_, fun hn ha hr => ?_⟩
      · show true = true ↔ _ ∈ s.log ++ [_]
        simp
      · exact ⟨_, _, hmem (mem_of_last hl), ha⟩
      · exact hmem (hs.connectDone hn hc)
      · exact hmem (hs.connected hn ha hc)
      · obtain ⟨ev, inProgress, ho, he⟩ := hs.rung hn ha hr
        exact ⟨ev, inProgress, hmem ho, he⟩
  | ringDone h =>
      refine ⟨hs.disconnectDone, hs.accepted, hs.connectDone, hs.connected, fun _ ha _ => ?_⟩
      obtain ⟨ev, inProgress, hl, he⟩ := h ha
      exact ⟨ev, inProgress, mem_of_last hl, he⟩
  | connectDone ha =>
      refine ⟨?_, fun hd => ?_, fun _ _ => ?_, fun _ ha' _ => ?_, fun hn ha hr => ?_⟩
      · show s.disconnectDone = true ↔ _ ∈ s.log ++ [_]
        rw [hs.disconnectDone]
        simp
      · obtain ⟨origin, acct, ho, ha⟩ := hs.accepted hd
        exact ⟨origin, acct, hmem ho, ha⟩
      · exact List.mem_append_right _ (List.mem_singleton_self _)
      · rw [show s.cls.isAlice = true from ha'] at ha
        cases ha
      · obtain ⟨ev, inProgress, ho, he⟩ := hs.rung hn ha hr
        exact ⟨ev, inProgress, hmem ho, he⟩
  | held on =>
      cases on with
      | true => exact hone rfl rfl rfl rfl rfl nofun
      | false => exact hone rfl rfl rfl rfl rfl nofun
  | dead hl h =>
      obtain ⟨s₁, he, hs'⟩ := ends_of_settle h
      obtain ⟨n, hn⟩ := he.log
      have hcls : s₁.cls = s.cls := he.sameLife.cls
      have hd : s₁.disconnectDone = s.disconnectDone := he.field Subtest.disconnectDone fun _ => rfl
      have h₁ : s₁.Recorded := by
        refine hs.append hcls hd (fun h => (he.flags h).2) (fun h => (he.flags h).1) hn fun ho => ?_
        cases List.eq_of_mem_replicate ho
      rcases hs' with rfl | ⟨exc, rfl⟩
      · exact h₁
      · exact h₁.append (l := [.raised exc]) rfl rfl (fun _ => rfl) (fun _ => rfl) rfl (by simp)
  | raised exc => exact hone rfl rfl rfl rfl rfl nofun
  | hangUp => exact hone rfl rfl rfl rfl rfl nofun
  | ring => exact hone rfl rfl rfl rfl rfl nofun
  | fail => exact hone rfl rfl rfl rfl rfl nofun
  | connect => exact hone rfl rfl rfl rfl rfl nofun
  | reinvite => exact hone rfl rfl rfl rfl rfl nofun
  | restored => exact hone rfl rfl rfl rfl rfl nofun
  | answer => exact hone rfl rfl rfl rfl rfl nofun
  | _ => exact hnone rfl rfl rfl rfl rfl

/-- **Every flag is accounted for**, in every life. -/
theorem Setup.Lives.recorded (h : p.Lives s) : s.Recorded := by
  refine h.induction (fun s hb => ?_) fun s s' _ hs hc => ?_
  · have hno : .disconnectDone ∉ s.log := by
      have hcalled := hb.called
      unfold Setup.Called at hcalled
      split at hcalled
      · obtain ⟨cli, cld, body, hlog, -⟩ := hcalled
        simp [hlog]
      · obtain ⟨sdp, ival, -, -, hlog, -⟩ := hcalled
        simp [hlog]
    constructor
    · simp [hb.blank.disconnectDone, hno]
    · simp [hb.blank.disconnectDone]
    · simp [hb.blank.connectDone]
    · simp [hb.blank.connectDone]
    · simp [hb.blank.ringDone]
  · cases hc with
    | enter h =>
        obtain ⟨-, rfl⟩ := eq_of_entry h
        refine hs.append rfl rfl (fun _ => rfl) (fun _ => rfl) rfl ?_
        rename_i cb _
        cases cb <;> simp [Cb.obs]
    | move h => exact h.recorded hs

end VoipTests
