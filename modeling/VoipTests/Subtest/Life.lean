import VoipTests.Subtest.Start

/-!
# VoipTests.Subtest.Life

The life of a subtest: whole runs of the machine, seen through moves.

`Setup.Lives p s` says that a subtest created from `p` can be found in the
state `s`, possibly in the middle of a stretch of code; by
`Setup.found_of_reaches` and `Setup.Found.lives` every state that a run reaches
is among these, once there is a UA.  What holds of every life is an induction
on single changes.  `Setup.judged_since` takes a report back to the callback
that made it.
-/

namespace VoipTests

open Callback Relation

variable {p : Setup} {s s' : Subtest}

/-! ## changes -/

/-- One change: a callback is entered, or the code makes a move. -/
inductive Change (s : Subtest) : Subtest → Prop
  | enter {cb : Cb} {idle : Bool} {s' : Subtest} (h : s.entry cb idle = some s') : Change s s'
  | move {s' : Subtest} (h : Move s s') : Change s s'

/-- Any number of changes. -/
abbrev Changes : Subtest → Subtest → Prop := ReflTransGen Change

/-- A state of a subtest created from `p`, its UA having been called. -/
def Setup.Lives (p : Setup) (s : Subtest) : Prop := ∃ s₀, p.Begun s₀ ∧ Changes s₀ s

theorem Setup.Lives.changes (h : p.Lives s) (hc : Changes s s') : p.Lives s' := by
  obtain ⟨s₀, hb, h₀⟩ := h
  exact ⟨s₀, hb, h₀.trans hc⟩

/-- What holds at first and is kept by every change holds for life. -/
theorem Setup.Lives.induction {P : Subtest → Prop} (hbegun : ∀ s, p.Begun s → P s)
    (hchange : ∀ s s', p.Lives s → P s → Change s s' → P s') (h : p.Lives s) : P s := by
  obtain ⟨s₀, hb, h₀⟩ := h
  induction h₀ with
  | refl => exact hbegun s₀ hb
  | tail hs hc ih => exact hchange _ _ ⟨s₀, hb, hs⟩ ih hc

theorem Moves.changes (h : Moves s s') : Changes s s' := by
  induction h with
  | refl => exact .refl
  | tail _ hm ih => exact ih.tail (.move hm)

/-- Entering a callback leaves the subtest what it is. -/
theorem sameLife_of_entry {cb : Cb} {idle : Bool} (h : s.entry cb idle = some s') :
    s.SameLife s' := by
  have henv : s.SameLife s' ∧ Ok (M.self cb.body { s' with env := s'.env }) _ := ok_entry h
  exact henv.1

theorem Change.sameLife (h : Change s s') : s.SameLife s' := by
  cases h with
  | enter h => exact sameLife_of_entry h
  | move h => exact h.sameLife

theorem Changes.sameLife (h : Changes s s') : s.SameLife s' := by
  induction h with
  | refl => exact .refl _
  | tail _ hc ih => exact ih.trans hc.sameLife

/-! ## what is settled at the start -/

namespace Setup.Lives

theorem cls (h : p.Lives s) : s.cls = p.cls := by
  obtain ⟨s₀, hb, h₀⟩ := h
  exact (Changes.sameLife h₀).cls.trans hb.cls

theorem named (h : p.Lives s) : s.named = p.named := by
  obtain ⟨s₀, hb, h₀⟩ := h
  exact (Changes.sameLife h₀).named.trans hb.named

theorem created (h : p.Lives s) : s.ua.created = true := by
  obtain ⟨s₀, hb, h₀⟩ := h
  exact (Changes.sameLife h₀).created.trans hb.created

theorem inited (h : p.Lives s) : s.rtp.inited = true := by
  obtain ⟨s₀, hb, h₀⟩ := h
  exact (Changes.sameLife h₀).inited.trans hb.inited

theorem check (h : p.Lives s) : s.tccfg.checkhostport = p.tccfg.checkhostport := by
  obtain ⟨s₀, hb, h₀⟩ := h
  rw [(Changes.sameLife h₀).tccfg, hb.check]

theorem reinviteIval (h : p.Lives s) : s.reinviteIval.isSome = initiates p.cls.mro := by
  obtain ⟨s₀, hb, h₀⟩ := h
  rw [(Changes.sameLife h₀).reinviteIval, hb.reinviteIval]

theorem expectedContactUri (h : p.Lives s) (hn : p.cls = .a .natedContact) :
    s.expectedContactUri = some p.env.contactUri := by
  obtain ⟨s₀, hb, h₀⟩ := h
  rw [(Changes.sameLife h₀).expectedContactUri, hb.expectedContactUri hn]

end Setup.Lives

/-! ## runs are lives -/

/-- The state in which a step begins is one change away from the last one,
but for what is found outside. -/
theorem changes_of_begins {y : Sys} {a : Act} {s : Subtest} (h : machine.begins y a = some s) :
    Changes y.st s := by
  have henv (s : Subtest) (env : Env) : Move s { s with env := env } :=
    .unseen ⟨s.rtp, env, s.body, s.pIncr, rfl, rfl, rfl⟩
  cases a with
  | enter i =>
      obtain ⟨s₁, h₁, rfl⟩ := Option.map_eq_some_iff.mp h
      exact .tail (.single (.enter h₁)) (.move (henv s₁ i.env))
  | ret env =>
      cases h
      exact .single (.move (henv y.st env))
  | throw e =>
      cases h
      exact .refl

/-- A step of the machine is a sequence of changes. -/
theorem changes_of_step {y y' : Sys} {a : Act} (hr : machine.Ready inMoves y)
    (hc : y.st.ua.created = true) (h : machine.step y a = some y') :
    machine.Ready inMoves y' ∧ ∃ s, machine.begins y a = some s ∧ Changes y.st s ∧
      Moves s y'.st := by
  obtain ⟨hr', s, hb, hg⟩ := Machine.step_within respects_inMoves hr h
  have hbegin := changes_of_begins hb
  exact ⟨hr', s, hb, hbegin, hg (hbegin.sameLife.created.trans hc)⟩

/-- Nothing can happen to an object without a UA. -/
theorem step_eq_none {y : Sys} {a : Act} (hc : y.st.ua.created = false) (hp : y.pending = []) :
    machine.step y a = none := by
  obtain ⟨s, ks⟩ := y
  subst hp
  cases a with
  | enter i =>
      have he : s.entry i.cb true = none := by
        unfold Subtest.entry
        rw [if_pos (by simpa using hc)]
      show ((s.entry i.cb true).map _).bind _ = none
      rw [he]
      rfl
  | ret env => rfl
  | throw e => rfl

/-- What is known of a state that a run reaches. -/
def Setup.Found (p : Setup) (y : Sys) : Prop :=
  machine.Ready inMoves y ∧ (y.st.Unborn ∧ y.pending = [] ∨ p.Lives y.st)

theorem Setup.Found.step {y y' : Sys} {a : Act} (h : p.Found y) (hs : machine.step y a = some y') :
    p.Found y' ∧ Changes y.st y'.st := by
  obtain ⟨hr, ⟨⟨hc, -⟩, hp⟩ | hl⟩ := h
  · rw [step_eq_none hc hp] at hs
    cases hs
  · obtain ⟨hr', s, -, hb, hm⟩ := changes_of_step hr hl.created hs
    have hch := hb.trans hm.changes
    exact ⟨⟨hr', .inr (hl.changes hch)⟩, hch⟩

theorem Setup.Found.lives {y : Sys} (h : p.Found y) (hc : y.st.ua.created = true) :
    p.Lives y.st := by
  obtain ⟨-, ⟨⟨hn, -⟩, -⟩ | hl⟩ := h
  · rw [hc] at hn
    cases hn
  · exact hl

/-- What a step takes a UA for. -/
theorem Setup.Found.lives_of_step {y y' : Sys} {a : Act} (h : p.Found y)
    (hs : machine.step y a = some y') : p.Lives y.st := by
  obtain ⟨-, ⟨⟨hc, -⟩, hp⟩ | hl⟩ := h
  · rw [step_eq_none hc hp] at hs
    cases hs
  · exact hl

theorem Setup.found_of_reaches {acts : List Act} {y : Sys} (h : p.Reaches acts y) : p.Found y := by
  obtain ⟨y₀, hstart, hexec⟩ := h
  refine Run.exec_inv (fun y a y' hy hs => (hy.step hs).1) ?_ hexec
  obtain ⟨hr, h₀ | hb⟩ := Setup.start_cases hstart
  · exact ⟨hr, .inl h₀⟩
  · exact ⟨hr, .inr ⟨_, hb, .refl⟩⟩

/-- **Runs are lives.**  A subtest that has reported has a UA. -/
theorem Setup.lives_of_reported {acts : List Act} {y : Sys} {r : Report} (h : p.Reaches acts y)
    (hr : y.st.report = some r) : p.Lives y.st := by
  obtain ⟨-, ⟨⟨-, hn⟩, -⟩ | hl⟩ := Setup.found_of_reaches h
  · rw [hr] at hn
    cases hn
  · exact hl

/-- What holds as the UA is first called and is kept by every step holds of
every run. -/
theorem Setup.Lives.of_run {P : Sys → Prop} {acts : List Act} {y : Sys} (hl : p.Lives y.st)
    (h : p.Reaches acts y) (hbegun : ∀ y, p.Begun y.st → P y)
    (hstep : ∀ y a y', p.Found y → p.Lives y.st → P y → machine.step y a = some y' → P y') : P y := by
  obtain ⟨y₀, hstart, hexec⟩ := h
  have h₀ : p.Reaches [] y₀ := ⟨y₀, hstart, rfl⟩
  refine (Run.exec_inv (P := fun y => p.Found y ∧ (p.Lives y.st → P y)) (fun y a y' hy hs => ?_)
    ⟨Setup.found_of_reaches h₀, fun hl₀ => ?_⟩ hexec).2 hl
  · have hl := hy.1.lives_of_step hs
    exact ⟨(hy.1.step hs).1, fun _ => hstep y a y' hy.1 hl (hy.2 hl) hs⟩
  · obtain ⟨-, ⟨⟨hc, -⟩, -⟩ | hb⟩ := Setup.start_cases hstart
    · rw [hl₀.created] at hc
      cases hc
    · exact hbegun y₀ hb

/-! ## what a change can do -/

/-- The entry a callback makes in the chronicle. -/
def Cb.obs (s : Subtest) : Cb → Obs
  | event ev => .event ev s.reinviteInProgress
  | connected => .connected
  | disconnected origin acct => .disconnected origin acct
  | dead => .dead
  | timer t => .fired t.cb
  | inDialogInvite ruri => .inDialogInvite ruri

/-- The timers that are still pending once it is entered. -/
def Cb.timers (s : Subtest) : Cb → List Timer
  | timer t => s.timers.erase t
  | _ => s.timers

/-- The UA as it is entered. -/
def Cb.ua (s : Subtest) : Cb → Ua
  | inDialogInvite ruri => { s.ua with lastInDialogInviteRuri := some ruri }
  | _ => s.ua

/-- What has to hold for a callback to be entered. -/
def Cb.Enabled (s : Subtest) : Cb → Prop
  | connected => s.cls.isAlice = true
  | timer t => t ∈ s.timers
  | inDialogInvite _ => s.cls = .a .natedContact
  | _ => True

/-- **Entering a callback.** -/
theorem eq_of_entry {cb : Cb} {idle : Bool} (h : s.entry cb idle = some s') :
    cb.Enabled s ∧ s' = { s with timers := cb.timers s, ua := cb.ua s }.note (cb.obs s) := by
  have hc := created_of_entry h
  unfold Subtest.entry at h
  rw [hc, Bool.not_true, if_neg (by decide)] at h
  cases cb with
  | event ev =>
      cases h
      exact ⟨trivial, rfl⟩
  | disconnected origin acct =>
      cases h
      exact ⟨trivial, rfl⟩
  | dead =>
      cases h
      exact ⟨trivial, rfl⟩
  | connected =>
      obtain ⟨ha, h⟩ := Option.ite_none_right_eq_some.mp h
      cases h
      exact ⟨ha, rfl⟩
  | timer t =>
      obtain ⟨ht, h⟩ := Option.ite_none_right_eq_some.mp h
      cases h
      exact ⟨ht.2, rfl⟩
  | inDialogInvite ruri =>
      obtain ⟨hn, h⟩ := Option.ite_none_right_eq_some.mp h
      cases h
      exact ⟨hn, rfl⟩

/-- What the code itself enters in the chronicle. -/
def Obs.made : Obs → Bool
  | inject _ => true
  | recvRequest => true
  | connectDone => true
  | disconnectDone => true
  | held _ => true
  | restored => true
  | raised _ => true
  | _ => false

theorem Move.log (h : Move s s') : ∃ l, s'.log = s.log ++ l ∧ ∀ o ∈ l, o.made = true := by
  have hnone {s' : Subtest} (h : s'.log = s.log) :
      ∃ l, s'.log = s.log ++ l ∧ ∀ o ∈ l, o.made = true := ⟨[], by simpa using h, by simp⟩
  have hone {s' : Subtest} {o : Obs} (h : s'.log = s.log ++ [o]) (ho : o.made = true) :
      ∃ l, s'.log = s.log ++ l ∧ ∀ o ∈ l, o.made = true := ⟨[o], h, by simpa using ho⟩
  cases h with
  | unseen h =>
      obtain ⟨_, _, _, _, -, -, rfl⟩ := h
      exact hnone rfl
  | named => exact hnone rfl
  | raised exc => exact hone rfl rfl
  | err => exact hnone rfl
  | timer => exact hnone rfl
  | hangUp => exact hone rfl rfl
  | connected => exact hone rfl rfl
  | disconnected => exact hone rfl rfl
  | otherDisconnected => exact hnone rfl
  | ringDone => exact hnone rfl
  | ring => exact hone rfl rfl
  | fail => exact hone rfl rfl
  | connect => exact hone rfl rfl
  | connectDone => exact hone rfl rfl
  | reinviteTimer => exact hnone rfl
  | reinvite => exact hone rfl rfl
  | swapped => exact hnone rfl
  | restored => exact hone rfl rfl
  | held on =>
      cases on with
      | true => exact hone rfl rfl
      | false => exact hone rfl rfl
  | scheduled => exact hnone rfl
  | answer => exact hone rfl rfl
  | updated => exact hnone rfl
  | settled => exact hnone rfl
  | reinviteDone => exact hnone rfl
  | dead hl h =>
      obtain ⟨s₁, he, rfl | ⟨exc, rfl⟩⟩ := ends_of_settle h
      · obtain ⟨n, hn⟩ := he.log
        refine ⟨List.replicate n .connectDone, hn, fun o ho => ?_⟩
        rw [List.eq_of_mem_replicate ho]
        rfl
      · obtain ⟨n, hn⟩ := he.log
        refine ⟨List.replicate n .connectDone ++ [.raised exc], ?_, fun o ho => ?_⟩
        · rw [Subtest.note, hn, List.append_assoc]
        · rcases List.mem_append.mp ho with ho | ho
          · rw [List.eq_of_mem_replicate ho]
            rfl
          · rw [List.mem_singleton.mp ho]
            rfl

theorem Moves.log (h : Moves s s') : ∃ l, s'.log = s.log ++ l ∧ ∀ o ∈ l, o.made = true := by
  induction h with
  | refl => exact ⟨[], by simp, by simp⟩
  | tail _ hm ih =>
      obtain ⟨l₁, h₁, hl₁⟩ := ih
      obtain ⟨l₂, h₂, hl₂⟩ := hm.log
      refine ⟨l₁ ++ l₂, by rw [h₂, h₁, List.append_assoc], fun o ho => ?_⟩
      exact (List.mem_append.mp ho).elim (hl₁ o) (hl₂ o)

theorem Change.log (h : Change s s') : ∃ l, s'.log = s.log ++ l := by
  cases h with
  | enter h =>
      obtain ⟨-, rfl⟩ := eq_of_entry h
      exact ⟨[_], rfl⟩
  | move h =>
      obtain ⟨l, hl, -⟩ := h.log
      exact ⟨l, hl⟩

/-- The chronicle is only ever added to. -/
theorem Changes.log (h : Changes s s') : s.log <+: s'.log := by
  induction h with
  | refl => exact List.prefix_refl _
  | tail _ hc ih =>
      obtain ⟨l, hl⟩ := hc.log
      exact ih.trans ⟨l, hl.symm⟩

theorem Move.nerrs (h : Move s s') : s.nerrs ≤ s'.nerrs := by
  cases h with
  | unseen h =>
      obtain ⟨_, _, _, _, -, -, rfl⟩ := h
      exact le_rfl
  | err => exact Nat.le_succ _
  | held on => cases on <;> exact le_rfl
  | dead hl h =>
      obtain ⟨s₁, he, rfl | ⟨exc, rfl⟩⟩ := ends_of_settle h
      · exact he.nerrs
      · exact he.nerrs
  | _ => exact le_rfl

theorem Change.nerrs (h : Change s s') : s.nerrs ≤ s'.nerrs := by
  cases h with
  | enter h =>
      obtain ⟨-, rfl⟩ := eq_of_entry h
      exact le_rfl
  | move h => exact h.nerrs

/-- **Errors are never taken back.** -/
theorem Changes.nerrs (h : Changes s s') : s.nerrs ≤ s'.nerrs := by
  induction h with
  | refl => exact le_rfl
  | tail _ hc ih => exact ih.trans hc.nerrs

/-! ## reports -/

/-- How the move of `alldone` ends on an object that is open. -/
theorem reported_of_settle (ho : s.Open)
    (h : machine.settle [] (alldone s.cls.mro s) = some ⟨s', []⟩) :
    (s'.doneCalled = true ∧
        ∃ n, s'.report = some ⟨judged s.cls.mro s, s.log ++ List.replicate n .connectDone⟩) ∨
      (s'.report = s.report ∧ s'.rval = s.rval ∧ s'.Open) := by
  have hu : (alldone s.cls.mro s).Until _ := reported_alldone ho
  cases hout : alldone s.cls.mro s with
  | ret a s₁ =>
      rw [hout] at h hu
      cases h
      exact .inl hu
  | raise exc s₁ =>
      rw [hout] at h hu
      cases h
      exact .inr ⟨hu.1, hu.2.1, ⟨hu.2.2.inited, hu.2.2.closing, hu.2.2.doneCalled⟩⟩
  | call c s₁ k =>
      rw [hout] at hu
      exact hu.elim
  | spin =>
      rw [hout] at h
      cases h

/-- Only `alldone` reports. -/
theorem Move.report (h : Move s s') :
    (s'.report = s.report ∧ s'.doneCalled = s.doneCalled ∧ s'.rtp.closing = s.rtp.closing ∧
        s'.rval = s.rval) ∨
      (s.last = some .dead ∧ machine.settle [] (alldone s.cls.mro s) = some ⟨s', []⟩) := by
  cases h with
  | unseen h =>
      obtain ⟨_, _, _, _, -, hc, rfl⟩ := h
      exact .inl ⟨rfl, rfl, hc, rfl⟩
  | held on => cases on <;> exact .inl ⟨rfl, rfl, rfl, rfl⟩
  | dead hl h => exact .inr ⟨hl, h⟩
  | _ => exact .inl ⟨rfl, rfl, rfl, rfl⟩

/-- The object is open until it has reported, and closed from then on. -/
structure Subtest.Upright (s : Subtest) : Prop where
  unreported : s.report = none → s.rtp.closing = false ∧ s.doneCalled = false ∧ s.rval = 1
  reported : s.report ≠ none → s.doneCalled = true

namespace Setup.Lives

theorem upright (h : p.Lives s) : s.Upright := by
  refine h.induction (fun s hb => ?_) fun s s' hl hu hc => ?_
  · exact ⟨fun _ => ⟨hb.closing, hb.blank.doneCalled, hb.blank.rval⟩,
      fun hn => (hn hb.blank.report).elim⟩
  · cases hc with
    | enter h =>
        obtain ⟨-, rfl⟩ := eq_of_entry h
        exact ⟨hu.unreported, hu.reported⟩
    | move h =>
        rcases h.report with ⟨hr, hd, hcl, hv⟩ | ⟨-, hset⟩
        · constructor
          · rw [hr, hd, hcl, hv]
            exact hu.unreported
          · rw [hr, hd]
            exact hu.reported
        · cases hrep : s.report with
          | none =>
              obtain ⟨hcl, hd, hv⟩ := hu.unreported hrep
              rcases reported_of_settle ⟨hl.inited, hcl, hd⟩ hset with ⟨hd', n, hr⟩ | ⟨hr, hv', ho⟩
              · exact ⟨fun hn => absurd (hr.symm.trans hn) (by simp), fun _ => hd'⟩
              · exact ⟨fun _ => ⟨ho.closing, ho.doneCalled, hv'.trans hv⟩,
                  fun hn => (hn (hr.trans hrep)).elim⟩
          | some r =>
              have hd := hu.reported (by simp [hrep])
              obtain ⟨s₁, he, hs'⟩ := ends_of_settle hset
              obtain ⟨hd₁, hr₁⟩ := he.once hd
              have hs : s'.doneCalled = true ∧ s'.report = s.report := by
                rcases hs' with rfl | ⟨exc, rfl⟩
                · exact ⟨hd₁, hr₁⟩
                · exact ⟨hd₁, hr₁⟩
              refine ⟨fun hn => ?_, fun _ => hs.1⟩
              rw [hs.2, hrep] at hn
              cases hn

theorem open_of_unreported (h : p.Lives s) (hr : s.report = none) : s.Open := by
  obtain ⟨hc, hd, -⟩ := h.upright.unreported hr
  exact ⟨h.inited, hc, hd⟩

end Setup.Lives

/-- There is one report at most. -/
theorem Setup.Lives.report (h : p.Lives s) {r : Report} (hr : s.report = some r)
    (hc : Changes s s') : s'.report = some r := by
  induction hc with
  | refl => exact hr
  | @tail s₁ s₂ h₁ hc ih =>
      have hl := h.changes h₁
      cases hc with
      | enter h =>
          obtain ⟨-, rfl⟩ := eq_of_entry h
          exact ih
      | move h =>
          rcases h.report with ⟨hs, -⟩ | ⟨-, hset⟩
          · rw [hs, ih]
          · obtain ⟨s₃, he, hs'⟩ := ends_of_settle hset
            have honce := (he.once (hl.upright.reported (by simp [ih]))).2
            rcases hs' with rfl | ⟨exc, rfl⟩
            · exact honce.trans ih
            · exact honce.trans ih

theorem Move.mightfail (h : Move s s') : s'.mightfail = s.mightfail ∨ s'.mightfail = s.named := by
  cases h with
  | unseen h =>
      obtain ⟨_, _, _, _, -, -, rfl⟩ := h
      exact .inl rfl
  | named => exact .inr rfl
  | held on => cases on <;> exact .inl rfl
  | dead hl h =>
      obtain ⟨s₁, he, rfl | ⟨exc, rfl⟩⟩ := ends_of_settle h
      · exact .inl (he.field Subtest.mightfail fun _ => rfl)
      · exact .inl (he.field Subtest.mightfail fun _ => rfl)
  | _ => exact .inl rfl

/-- The flag `mightfail` is set for the tests that are named only. -/
theorem Setup.Lives.named_of_mightfail (h : p.Lives s) : s.mightfail = true → p.named = true := by
  refine h.induction (fun s hb => hb.mightfail) fun s s' hl ih hc => ?_
  cases hc with
  | enter h =>
      obtain ⟨-, rfl⟩ := eq_of_entry h
      exact ih
  | move h =>
      rcases h.mightfail with hm | hm
      · rw [hm]
        exact ih
      · rw [hm, hl.named]
        exact id

theorem Setup.Lives.mightfail (h : p.Lives s) (hn : p.named = false) : s.mightfail = false := by
  cases hf : s.mightfail with
  | false => rfl
  | true =>
      rw [h.named_of_mightfail hf] at hn
      cases hn

/-- The flag is never taken back. -/
theorem Setup.Lives.mightfail_changes (h : p.Lives s) (hm : s.mightfail = true)
    (hc : Changes s s') : s'.mightfail = true := by
  induction hc with
  | refl => exact hm
  | @tail s₁ s₂ h₁ hc ih =>
      have hl := h.changes h₁
      cases hc with
      | enter h =>
          obtain ⟨-, rfl⟩ := eq_of_entry h
          exact ih
      | move h =>
          rcases h.mightfail with hm | hm
          · rw [hm, ih]
          · rw [hm, hl.named, hl.named_of_mightfail ih]

/-! ## the step that reports -/

/-- The entries a step makes before any code runs. -/
def actObs (s : Subtest) : Act → List Obs
  | .enter i => [i.cb.obs s]
  | .ret _ => []
  | .throw _ => []

theorem log_of_begins {y : Sys} {a : Act} (h : machine.begins y a = some s) :
    s.log = y.st.log ++ actObs y.st a := by
  cases a with
  | enter i =>
      obtain ⟨s₁, h₁, rfl⟩ := Option.map_eq_some_iff.mp h
      obtain ⟨-, rfl⟩ := eq_of_entry h₁
      rfl
  | ret env =>
      cases h
      exact (List.append_nil _).symm
  | throw e =>
      cases h
      exact (List.append_nil _).symm

theorem report_of_begins {y : Sys} {a : Act} (h : machine.begins y a = some s) :
    s.report = y.st.report := by
  cases a with
  | enter i =>
      obtain ⟨s₁, h₁, rfl⟩ := Option.map_eq_some_iff.mp h
      obtain ⟨-, rfl⟩ := eq_of_entry h₁
      rfl
  | ret env =>
      cases h
      rfl
  | throw e =>
      cases h
      rfl

/-- A stretch that reports has met `alldone` on its way. -/
theorem Moves.dead_of_report (h : Moves s s') (hn : s.report = none) {r : Report}
    (hr : s'.report = some r) : ∃ s₁, Moves s s₁ ∧ s₁.last = some .dead := by
  induction h with
  | refl =>
      rw [hn] at hr
      cases hr
  | tail hs hm ih =>
      rcases hm.report with ⟨hrep, -⟩ | ⟨hdead, -⟩
      · exact ih (hrep ▸ hr)
      · exact ⟨_, hs, hdead⟩

/-- The object as the code of `alldone` begins. -/
def Subtest.dying (s : Subtest) (env : Env) : Subtest := { s.note .dead with env := env }

/-- What the callback `alldone` does, from what is known of its code. -/
theorem Setup.Lives.dead_until {y y' : Sys} {env : Env} {P : Stop Exc UaCall Unit → Subtest → Prop}
    (hl : p.Lives y.st) (hs : machine.step y (.enter ⟨.dead, env⟩) = some y')
    (hu : (alldone p.cls.mro (y.st.dying env)).Until P) :
    ∃ stop s, P stop s ∧ y'.st = machine.land stop s := by
  have he : machine.entry ⟨.dead, env⟩ y.st y.pending.isEmpty = some (y.st.dying env) := by
    show (Subtest.entry .dead y.st _).map _ = _
    unfold Subtest.entry
    rw [if_neg (by simp [hl.created])]
    rfl
  refine Machine.step_enter_until he ?_ hs
  show (alldone (y.st.dying env).cls.mro (y.st.dying env)).Until P
  rw [show (y.st.dying env).cls = p.cls from hl.cls]
  exact hu

theorem Setup.Lives.open_dying (hl : p.Lives s) (hn : s.report = none) (env : Env) :
    (s.dying env).Open := by
  obtain ⟨hi, hcl, hd⟩ := hl.open_of_unreported hn
  exact ⟨hi, hcl, hd⟩

/-- **`alldone` is entered**, on an object that has not reported: it reports
the verdict on this object, or raises. -/
theorem Setup.Lives.dead_step {y y' : Sys} {env : Env} (hl : p.Lives y.st)
    (hn : y.st.report = none) (hs : machine.step y (.enter ⟨.dead, env⟩) = some y') :
    (∃ n, y'.st.report = some ⟨judged p.cls.mro y.st,
        y.st.log ++ .dead :: List.replicate n .connectDone⟩) ∨
      (y'.st.report = none ∧ ∃ exc l, y'.st.log = l ++ [.raised exc]) := by
  obtain ⟨stop, s, hstop, hst⟩ := hl.dead_until hs (reported_alldone (hl.open_dying hn env))
  have hj : judged p.cls.mro (y.st.dying env) = judged p.cls.mro y.st :=
    judged_outside (s := y.st) env (y.st.note .dead).log
  rw [hj] at hstop
  rw [hst]
  cases stop with
  | ret a =>
      obtain ⟨-, n, hr⟩ := hstop
      refine .inl ⟨n, hr.trans ?_⟩
      simp [Subtest.dying, Subtest.note]
  | raise exc => exact .inr ⟨hstop.1.trans hn, exc, s.log, rfl⟩
  | call c => exact hstop.elim

/-- The account is there once the call is over. -/
theorem Setup.Lives.acct (h : p.Lives s) : s.disconnectDone = true → s.acct.isSome = true := by
  refine h.induction (P := fun s => s.disconnectDone = true → s.acct.isSome = true)
    (fun s hb hd => ?_) fun s s' hl ih hc => ?_
  · rw [hb.blank.disconnectDone] at hd
    cases hd
  · cases hc with
    | enter h =>
        obtain ⟨-, rfl⟩ := eq_of_entry h
        exact ih
    | move h =>
        cases h with
        | unseen h =>
            obtain ⟨_, _, _, _, -, -, rfl⟩ := h
            exact ih
        | disconnected hlast ha => exact fun _ => rfl
        | otherDisconnected hlast ha => exact fun _ => rfl
        | held on => cases on <;> exact ih
        | dead hlast h =>
            obtain ⟨s₁, he, hs'⟩ := ends_of_settle h
            have hd := he.field Subtest.disconnectDone fun _ => rfl
            have ha := he.field Subtest.acct fun _ => rfl
            rcases hs' with rfl | ⟨exc, rfl⟩
            · rwa [hd, ha]
            · show s₁.disconnectDone = true → s₁.acct.isSome = true
              rwa [hd, ha]
        | _ => exact ih

theorem test_mem_mro (p : Setup) : .test ∈ p.cls.mro := by
  have ha (scn : Scenario) : .test ∈ (PyClass.a scn).mro := by cases scn <;> decide +kernel
  have hb (scn : Scenario) : .test ∈ (PyClass.b scn).mro := by cases scn <;> decide +kernel
  unfold Setup.cls
  cases p.side with
  | alice => exact ha p.scn
  | bob body req => exact hb p.scn

/-- `o` returns. -/
def Returns (o : Out Subtest Exc UaCall Unit) : Prop :=
  o.Until fun
    | .ret _, _ => True
    | _, _ => False

theorem Test.returns_done (ho : s.Open) : Returns (Test.done s) := by
  rw [Test.done_eq ho]
  exact trivial

theorem Test.returns_passIf {cond : Subtest → Bool} (ho : s.Open) : Returns (Test.passIf cond s) := by
  unfold Test.passIf
  rw [Prog.bind_apply, Prog.get_apply, Out.bind_ret]
  refine until_ite (fun _ => ?_) fun _ => Test.returns_done ho
  exact Test.returns_done (s := { s with rval := 0 }) ⟨ho.inited, ho.closing, ho.doneCalled⟩

/-- **`alldone` gets to its end**, on an object that is open. -/
theorem returns_alldone {mro : List PyClass} (ho : s.Open) (hm : .test ∈ mro)
    (ha : s.disconnectDone = true → s.acct.isSome = true) : Returns (alldone mro s) := by
  have herr {s : Subtest} (ho : s.Open) : Subtest.Open { s with nerrs := s.nerrs + 1 } :=
    ⟨ho.inited, ho.closing, ho.doneCalled⟩
  fun_induction alldone mro generalizing s with
  | case1 => simp at hm
  | case9 sup ih =>
      unfold BTestReinvOnhold.alldone
      rw [Prog.bind_apply, Prog.get_apply, Out.bind_ret]
      refine until_ite (fun _ => ?_) fun _ => ih ho (by simpa using hm) ha
      exact ih (s := { s with finfoDisplayed := true, nerrs := s.nerrs + 1 })
        ⟨ho.inited, ho.closing, ho.doneCalled⟩ (by simpa using hm) ha
  | case10 sup ih =>
      unfold TestEarlyCancel.alldone
      rw [Prog.bind_apply, Prog.get_apply, Out.bind_ret]
      refine until_ite (fun hd => ?_) fun _ => ih (herr ho) (by simpa using hm) ha
      obtain ⟨acct, hacct⟩ := Option.isSome_iff_exists.mp (ha hd)
      rw [hacct]
      refine until_ite (fun _ => ?_) fun _ => ih (herr ho) (by simpa using hm) ha
      exact ih (s := { s with ringDone := true, connectDone := true }.note .connectDone)
        ⟨ho.inited, ho.closing, ho.doneCalled⟩ (by simpa using hm) ha
  | case11 sup ih =>
      unfold TestReinvite.alldone
      rw [Prog.bind_apply, Prog.get_apply, Out.bind_ret]
      exact until_ite (fun _ => ih (herr ho) (by simpa using hm) ha) fun _ =>
        ih ho (by simpa using hm) ha
  | case12 =>
      have hpass {s : Subtest} (ho : s.Open) : Returns (Test.done { s with rval := 0 }) :=
        Test.returns_done ⟨ho.inited, ho.closing, ho.doneCalled⟩
      unfold Test.alldone
      rw [Prog.bind_apply, Prog.get_apply, Out.bind_ret]
      refine until_ite (fun _ => hpass ho) fun _ => until_ite (fun _ => ?_) fun _ => ?_
      · have hshown : Subtest.Open { s with finfoDisplayed := true } :=
          ⟨ho.inited, ho.closing, ho.doneCalled⟩
        exact until_ite (fun _ => hpass hshown) fun _ => Test.returns_done hshown
      · exact until_ite (fun _ => hpass ho) fun _ => Test.returns_done ho
  | case13 _ _ _ _ _ _ _ _ _ _ _ _ hn ih =>
      exact ih ho ((List.mem_cons.mp hm).resolve_left fun h => hn h.symm) ha
  | _ => exact Test.returns_passIf ho

/-- **`alldone` reports**, if it has not reported before. -/
theorem Setup.Lives.reports_of_dead {y y' : Sys} {env : Env} (hl : p.Lives y.st)
    (hn : y.st.report = none) (hs : machine.step y (.enter ⟨.dead, env⟩) = some y') :
    y'.st.report ≠ none := by
  have ho := hl.open_dying hn env
  have hreturns : Returns (alldone p.cls.mro (y.st.dying env)) :=
    returns_alldone ho (test_mem_mro p) hl.acct
  obtain ⟨stop, s, ⟨hret, hrep⟩, hst⟩ := hl.dead_until hs (hreturns.and (reported_alldone ho))
  rw [hst]
  cases stop with
  | ret a =>
      obtain ⟨-, n, hr⟩ := hrep
      simp [Machine.land, hr]
  | raise e => exact hret.elim
  | call c => exact hret.elim

/-- A subtest that has not reported has not just entered `alldone`. -/
def Sys.Waits (y : Sys) : Prop := y.st.report = none → y.st.last ≠ some .dead

/-- The last entry after a step, where the step is not the callback `alldone`. -/
theorem last_ne_dead_of_moves {y : Sys} {a : Act} {s₀ : Subtest} (hb : machine.begins y a = some s₀)
    (hm : Moves s₀ s) (ha : ∀ env, a ≠ .enter ⟨.dead, env⟩) (hy : y.st.last ≠ some .dead) :
    s.last ≠ some .dead := by
  obtain ⟨l, hl, hmade⟩ := hm.log
  intro hlast
  rw [Subtest.last, hl, log_of_begins hb] at hlast
  cases hlst : l.getLast? with
  | some o =>
      rw [List.getLast?_append, hlst, Option.some_or, Option.some.injEq] at hlast
      have ho := hmade o (List.mem_of_getLast? hlst)
      rw [hlast] at ho
      cases ho
  | none =>
      rw [List.getLast?_eq_none_iff] at hlst
      subst hlst
      rw [List.append_nil] at hlast
      cases a with
      | enter i =>
          rw [actObs, List.getLast?_concat, Option.some.injEq] at hlast
          obtain ⟨cb, env⟩ := i
          cases cb with
          | dead => exact ha env rfl
          | _ => cases hlast
      | ret env =>
          rw [actObs, List.append_nil] at hlast
          exact hy hlast
      | throw e =>
          rw [actObs, List.append_nil] at hlast
          exact hy hlast

/-- **Only the callback `alldone` reports.** -/
theorem Setup.Found.report_step {y y' : Sys} {a : Act} (h : p.Found y) (hw : y.Waits)
    (hn : y.st.report = none) (hs : machine.step y a = some y') {r : Report}
    (hr : y'.st.report = some r) : ∃ env, a = .enter ⟨.dead, env⟩ := by
  obtain ⟨hready, ⟨⟨hc, -⟩, hp⟩ | hl⟩ := h
  · rw [step_eq_none hc hp] at hs
    cases hs
  · by_contra hno
    rw [not_exists] at hno
    obtain ⟨-, s₀, hb, hch, hm⟩ := changes_of_step hready hl.created hs
    obtain ⟨s₁, hm₁, hdead⟩ := hm.dead_of_report ((report_of_begins hb).trans hn) hr
    exact last_ne_dead_of_moves hb hm₁ hno (hw hn) hdead

theorem Setup.waits_of_begun (hb : p.Begun s) : s.last ≠ some .dead := by
  intro hlast
  have hcalled := hb.called
  unfold Setup.Called at hcalled
  split at hcalled
  · obtain ⟨cli, cld, body, hlog, -⟩ := hcalled
    rw [Subtest.last, hlog] at hlast
    cases hlast
  · obtain ⟨sdp, ival, -, -, hlog, -⟩ := hcalled
    rw [Subtest.last, hlog] at hlast
    cases hlast

theorem Setup.waits_of_step {y y' : Sys} {a : Act} (hready : machine.Ready inMoves y)
    (hl : p.Lives y.st) (hw : y.Waits) (hs : machine.step y a = some y') : y'.Waits := by
  intro hn'
  obtain ⟨-, s₀, hb, hch, hm⟩ := changes_of_step hready hl.created hs
  have hn : y.st.report = none := by
    cases hrep : y.st.report with
    | none => rfl
    | some r =>
        rw [hl.report hrep (hch.trans hm.changes)] at hn'
        cases hn'
  by_cases ha : ∃ env, a = .enter ⟨.dead, env⟩
  · obtain ⟨env, rfl⟩ := ha
    rcases hl.dead_step hn hs with ⟨n, hr⟩ | ⟨-, exc, l, hlog⟩
    · rw [hn'] at hr
      cases hr
    · rw [Subtest.last, hlog, List.getLast?_concat]
      simp
  · rw [not_exists] at ha
    exact last_ne_dead_of_moves hb hm ha (hw hn)

theorem Setup.waits_of_reaches {acts : List Act} {y : Sys} (h : p.Reaches acts y) :
    p.Found y ∧ (p.Lives y.st → y.Waits) := by
  refine ⟨Setup.found_of_reaches h, fun hl => hl.of_run h (fun y hb _ => Setup.waits_of_begun hb) ?_⟩
  exact fun y a y' hfound hl hw hs => Setup.waits_of_step hfound.1 hl hw hs

theorem Setup.Reaches.append {acts acts' : List Act} {y y' : Sys} (h : p.Reaches acts y)
    (h' : Run.exec machine.step y acts' = some y') : p.Reaches (acts ++ acts') y' := by
  obtain ⟨y₀, hstart, hexec⟩ := h
  refine ⟨y₀, hstart, ?_⟩
  rw [Run.exec_append, hexec]
  exact h'

/-- A run is a sequence of changes. -/
theorem Setup.Found.exec {acts : List Act} {y y' : Sys} (h : p.Found y)
    (h' : Run.exec machine.step y acts = some y') : p.Found y' ∧ Changes y.st y'.st := by
  refine ⟨Run.exec_inv (fun y a y' hy hs => (hy.step hs).1) h h', ?_⟩
  exact Run.exec_rel (P := p.Found) (R := fun y y' => Changes y.st y'.st) (fun _ => .refl)
    (fun _ _ _ => .trans) (fun y a y' hy hs => hy.step hs) h h'

/-- **Every report is the verdict of one `alldone`**, entered on an object that
had not reported. -/
theorem Setup.judged_since {acts acts' : List Act} {y y' : Sys} {r : Report} (h : p.Reaches acts y)
    (hn : y.st.report = none) (h' : Run.exec machine.step y acts' = some y')
    (hr : y'.st.report = some r) :
    ∃ acts₁ env acts₂ y₁, acts' = acts₁ ++ .enter ⟨.dead, env⟩ :: acts₂ ∧
      Run.exec machine.step y acts₁ = some y₁ ∧ p.Lives y₁.st ∧ y₁.st.report = none ∧
      r.rval = judged p.cls.mro y₁.st ∧
      (∃ n, r.log = y₁.st.log ++ .dead :: List.replicate n .connectDone) ∧
      Changes y₁.st y'.st := by
  obtain ⟨acts₁, a, acts₂, y₁, y₂, rfl, h₁, hn₁, hs, hr₂, h₂⟩ :=
    Run.exec_first (P := fun y => y.st.report ≠ none) (by simpa using hn) (by simp [hr]) h'
  rw [not_not] at hn₁
  obtain ⟨hfound, hwaits⟩ := Setup.waits_of_reaches (h.append h₁)
  obtain ⟨hready, ⟨⟨hc, -⟩, hp⟩ | hl⟩ := hfound
  · rw [step_eq_none hc hp] at hs
    cases hs
  · obtain ⟨r₂, hr₂⟩ := Option.ne_none_iff_exists'.mp hr₂
    obtain ⟨env, rfl⟩ := Setup.Found.report_step ⟨hready, .inr hl⟩ (hwaits hl) hn₁ hs hr₂
    obtain ⟨hfound₂, hch₁⟩ := Setup.Found.step ⟨hready, .inr hl⟩ hs
    have hch₂ := (hfound₂.exec h₂).2
    -- Later steps leave the report as it is.
    have hlater : y'.st.report = some r₂ := (hl.changes hch₁).report hr₂ hch₂
    rw [hr, Option.some.injEq] at hlater
    subst hlater
    rcases hl.dead_step hn₁ hs with ⟨n, hrep⟩ | ⟨hrep, -⟩
    · rw [hr₂, Option.some.injEq] at hrep
      subst hrep
      exact ⟨acts₁, env, acts₂, y₁, rfl, h₁, hl, hn₁, rfl, ⟨n, rfl⟩, hch₁.trans hch₂⟩
    · rw [hr₂] at hrep
      cases hrep

/-- Nothing is reported before the UA is called. -/
theorem Setup.unreported_of_start {y : Sys} (h : p.start = some y) : y.st.report = none := by
  obtain ⟨-, ⟨⟨-, hn⟩, -⟩ | hb⟩ := Setup.start_cases h
  · exact hn
  · exact hb.blank.report

/-- The verdict on an object whose flag `mightfail` is not set. -/
theorem Setup.Lives.judged_eq_zero_iff (h : p.Lives s) (hn : s.report = none)
    (hm : s.mightfail = false) : judged p.cls.mro s = 0 ↔ passes p.cls.mro s = true := by
  have hv := (h.upright.unreported hn).2.2
  rw [VoipTests.judged, hm, hv, Bool.and_false, Bool.false_or]
  cases passes p.cls.mro s <;> simp

/-- **A verdict** of a subtest that is not on the list of tests that might
fail is that of its class, on the object `alldone` found. -/
theorem Setup.rval_iff {acts : List Act} {y : Sys} {r : Report} (h : p.Reaches acts y)
    (hr : y.st.report = some r) (hm : p.named = false) :
    ∃ acts₁ y₁, p.Reaches acts₁ y₁ ∧ p.Lives y₁.st ∧ y₁.st.report = none ∧
      (r.rval = 0 ↔ passes p.cls.mro y₁.st = true) ∧
      (∃ n, r.log = y₁.st.log ++ .dead :: List.replicate n .connectDone) ∧
      Changes y₁.st y.st := by
  obtain ⟨y₀, hstart, hexec⟩ := h
  have h₀ : p.Reaches [] y₀ := ⟨y₀, hstart, rfl⟩
  obtain ⟨acts₁, env, acts₂, y₁, -, h₁, hl, hn, hj, hlog, hch⟩ :=
    Setup.judged_since h₀ (Setup.unreported_of_start hstart) hexec hr
  refine ⟨acts₁, y₁, ⟨y₀, hstart, h₁⟩, hl, hn, ?_, hlog, hch⟩
  rw [hj]
  exact hl.judged_eq_zero_iff hn (hl.mightfail hm)

/-- **A subtest that is reported to have passed** met the condition of its
class as `alldone` was entered. -/
theorem Setup.passes_of_rval {acts : List Act} {y : Sys} {r : Report} (h : p.Reaches acts y)
    (hr : y.st.report = some r) (hm : p.named = false) (hv : r.rval = 0) :
    ∃ acts₁ y₁, p.Reaches acts₁ y₁ ∧ p.Lives y₁.st ∧ passes p.cls.mro y₁.st = true ∧
      (∃ n, r.log = y₁.st.log ++ .dead :: List.replicate n .connectDone) ∧
      Changes y₁.st y.st := by
  obtain ⟨acts₁, y₁, h₁, hl, -, hiff, hlog, hch⟩ := Setup.rval_iff h hr hm
  exact ⟨acts₁, y₁, h₁, hl, hiff.mp hv, hlog, hch⟩

/-! ## concrete runs -/

/-- The run of `acts` on a subtest that has just been created. -/
def Setup.run (p : Setup) (acts : List Act) : Option Sys :=
  p.start.bind fun y => Run.exec machine.step y acts

theorem Setup.reaches_of_run {acts : List Act} {y : Sys} (h : p.run acts = some y) :
    p.Reaches acts y :=
  Option.bind_eq_some_iff.mp h

/-- What a run comes to, as far as `f` tells. -/
theorem Setup.exists_of_run {α : Type} {f : Sys → α} {acts : List Act} {a : α}
    (h : (p.run acts).map f = some a) : ∃ y, p.Reaches acts y ∧ f y = a := by
  obtain ⟨y, hy, hf⟩ := Option.map_eq_some_iff.mp h
  exact ⟨y, Setup.reaches_of_run hy, hf⟩

namespace Sample

/-- A body without media. -/
def body : Sdp := ⟨⟨0⟩, "-", []⟩

/-- A body whose media go through the RTP proxy. -/
def proxied : Sdp :=
  ⟨⟨0⟩, "-", [⟨⟨"audio", 12000, "RTP/AVP", [.num 0]⟩, some ⟨some .ip4, "127.0.0.1"⟩, []⟩]⟩

/-- A body whose media bypass the RTP proxy. -/
def direct : Sdp :=
  ⟨⟨0⟩, "-", [⟨⟨"audio", 40000, "RTP/AVP", [.num 0]⟩, some ⟨some .ip4, "192.0.2.1"⟩, []⟩]⟩

def cfg : TcCfg where
  atype := .ip4
  body := some body
  portrange := .default
  nhAddress := ("127.0.0.1", 5060)
  uasCreds := none
  uacCreds := none
  checkMediaIps := ["127.0.0.1"]
  cli := none
  signallingOnly := true

/-- The draws are enough for the intervals of one object. -/
def env : Env where
  draws := List.replicate 4 ⟨1 / 100, by norm_num, by norm_num⟩
  rSDP := some proxied
  laddr := "127.0.0.1"
  endpoint := none
  updateOk := true
  statsOk := true
  shutdownOk := true
  trOk := true
  isOnHold _ := some false
  contactUri := "sip:alice@192.0.2.1"

def alice (scn : Scenario) (named : Bool) : Setup := ⟨scn, .alice, cfg, named, env⟩

def bob (scn : Scenario) (named : Bool) : Setup :=
  ⟨scn, .bob body ⟨some proxied, none, "127.0.0.1"⟩, cfg, named, env⟩

/-- A callback is entered. -/
def enter (cb : Cb) : Act := .enter ⟨cb, env⟩

end Sample

end VoipTests
