import VoipTests.Core.Suite

/-!
# VoipTests.Core.Invited

Bob's core, told by the INVITEs that he has taken.

Every run of `Bob` is a run of the books in which a subtest is pending, has
passed or has failed as its object has reported, and in which one that was challenged
is not entered (`Bob.keeps_books`).  With what a verdict of 0 takes in each class
(`Served`), a green Bob says something about the calls that he was sent:
`Bob.green_served`.
-/

namespace VoipTests

open Callback Run

/-! ## the INVITEs -/

/-- `answer` asks for credentials. -/
def Setup.challenged (p : Setup) : Bool := answered (create p.scn p.side p.fresh) = .authRequired

/-- The INVITE that comes in. -/
def BobAct.invited : BobAct → Option Setup
  | .invite p => some p
  | _ => none

/-- The INVITEs of a run. -/
def invitesOf (acts : List BobAct) : List Setup := acts.filterMap BobAct.invited

namespace Bob

/-- What the subtest of an INVITE has reported, if it counts. -/
def verdict (b : Bob) (ps : List Setup) (i : Nat) : Option (Option Int) := do
  let p ← ps[i]?
  let y ← b.subtests[i]?
  if p.challenged then none else some (y.st.report.map Report.rval)

/-- The subtest counts, and has not reported 0. -/
def Owes (b : Bob) (ps : List Setup) (i : Nat) : Prop :=
  b.verdict ps i ≠ none ∧ b.verdict ps i ≠ some (some 0)

instance (b : Bob) (ps : List Setup) (i : Nat) : Decidable (b.Owes ps i) :=
  inferInstanceAs (Decidable (_ ∧ _))

/-- How many do. -/
def owed (b : Bob) (ps : List Setup) : Nat := ((Finset.range ps.length).filter (b.Owes ps)).card

/-- The books `bk` are right about Bob after the INVITEs `ps`. -/
structure Tallies (ps : List Setup) (b : Bob) (bk : Books) : Prop where
  core : bk.core = b.core
  created : b.core.created = ps.length
  length : b.subtests.length = ps.length
  bob : ∀ p ∈ ps, p.side ≠ .alice
  reaches : ∀ (i : Nat) (p : Setup) (y : Sys), ps[i]? = some p → b.subtests[i]? = some y →
    ∃ acts, p.Reaches acts y
  keeps : bk.ledger.Keeps fun i => marked (b.verdict ps i)

end Bob

/-! ## one step -/

section Step

variable {ps : List Setup} {b b' : Bob} {bk : Books} {i : Nat} {p : Setup} {y y' : Sys} {a : Act}

theorem Bob.verdict_eq (hp : ps[i]? = some p) (hy : b.subtests[i]? = some y) :
    b.verdict ps i = if p.challenged then none else some (y.st.report.map Report.rval) := by
  simp [Bob.verdict, hp, hy]

theorem Bob.verdict_of_length_le (h : ps.length ≤ i) : b.verdict ps i = none := by
  simp [Bob.verdict, List.getElem?_eq_none h]

/-- A subtest that has been asked for credentials does nothing. -/
theorem Setup.not_challenged_of_step {acts : List Act} (h : p.Reaches acts y)
    (hs : machine.step y a = some y') : p.challenged = false := by
  obtain ⟨y₀, hstart, hexec⟩ := h
  obtain ⟨-, ⟨hunborn, hp⟩ | hbegun⟩ := Setup.start_cases hstart
  · cases acts with
    | nil =>
        cases hexec
        rw [step_eq_none hunborn.created hp] at hs
        cases hs
    | cons a acts =>
        rw [exec_cons, step_eq_none hunborn.created hp] at hexec
        cases hexec
  · simp [Setup.challenged, answered_of_created hstart hbegun.created]

namespace Bob.Tallies

theorem start : Bob.Tallies [] Bob.start (Books.start 0 .bTest) := by
  refine ⟨rfl, rfl, rfl, by simp, by simp, ?_⟩
  constructor <;> simp [Books.start, Ledger.opening, Bob.verdict]

/-- What the new subtest of an INVITE adds. -/
theorem verdict_concat (h : Bob.Tallies ps b bk) (hstart : p.start = some y) (core : Core) :
    (fun i => marked ((Bob.mk core (b.subtests ++ [y])).verdict (ps ++ [p]) i)) =
      if p.challenged then fun i => marked (b.verdict ps i)
      else Function.update (fun i => marked (b.verdict ps i)) ps.length (some none) := by
  have hlen := h.length
  have hrep := Setup.unreported_of_start hstart
  funext i
  obtain hlt | rfl | hgt := Nat.lt_trichotomy i ps.length
  · have hsame : (Bob.mk core (b.subtests ++ [y])).verdict (ps ++ [p]) i = b.verdict ps i := by
      simp only [Bob.verdict]
      rw [List.getElem?_append_left hlt, List.getElem?_append_left (hlen ▸ hlt)]
    rw [hsame]
    split <;> simp [hlt.ne]
  · have hnew : (b.subtests ++ [y])[ps.length]? = some y := by simp [← hlen]
    rw [Bob.verdict_eq List.getElem?_concat_length hnew, hrep]
    split <;> simp [Bob.verdict_of_length_le]
  · rw [Bob.verdict_of_length_le (by simp; omega)]
    split <;> simp [Bob.verdict_of_length_le hgt.le, hgt.ne']

/-- **An INVITE** is one of the books, with the answer it has got. -/
theorem invite (h : Bob.Tallies ps b bk) (hside : p.side ≠ .alice) (hstart : p.start = some y) :
    Bob.Tallies (ps ++ [p])
      ⟨b.core.recvInvite (answered (create p.scn p.side p.fresh)), b.subtests ++ [y]⟩
      ⟨b.core.recvInvite (answered (create p.scn p.side p.fresh)),
        inviteEntry bk.ledger bk.core.created (answered (create p.scn p.side p.fresh))⟩ := by
  have hfree : marked (b.verdict ps ps.length) = none := by
    rw [Bob.verdict_of_length_le le_rfl, marked_none]
  refine ⟨rfl, ?_, by simp [h.length], ?_, fun i q z hq hz => ?_, ?_⟩
  · have hcreated := h.created
    cases answered (create p.scn p.side p.fresh) <;> simp [Core.recvInvite, hcreated]
  · simpa [or_imp, forall_and] using ⟨h.bob, hside⟩
  · obtain hlt | hge := Nat.lt_or_ge i ps.length
    · rw [List.getElem?_append_left hlt] at hq
      rw [List.getElem?_append_left (h.length ▸ hlt)] at hz
      exact h.reaches i q z hq hz
    · obtain rfl : i = ps.length := by
        have := (List.getElem?_eq_some_iff.mp hq).1
        simp at this
        omega
      rw [List.getElem?_concat_length, Option.some.injEq] at hq
      rw [← h.length, List.getElem?_concat_length, Option.some.injEq] at hz
      exact ⟨[], y, hq ▸ hstart, hz ▸ rfl⟩
  · rw [h.verdict_concat hstart, h.core, h.created]
    cases hans : answered (create p.scn p.side p.fresh) with
    | authRequired =>
        rw [inviteEntry, Ledger.withdraw_takeOn (h.keeps.fresh hfree)]
        simpa [Setup.challenged, hans] using h.keeps
    | _ => simpa [Setup.challenged, hans, inviteEntry] using h.keeps.takeOn hfree

/-- One subtest has moved on to `y'`. -/
theorem verdict_set (hp : ps[i]? = some p) (hi : b.subtests[i]? = some y)
    (hno : p.challenged = false) (core : Core) :
    (fun j => marked ((Bob.mk core (b.subtests.set i y')).verdict ps j)) =
      Function.update (fun j => marked (b.verdict ps j)) i
        (some (y'.st.report.map fun r => decide (r.rval = 0))) := by
  funext j
  by_cases hj : j = i
  · subst hj
    have hset : (Bob.mk core (b.subtests.set j y')).subtests[j]? = some y' :=
      List.getElem?_set_self (List.getElem?_eq_some_iff.mp hi).1
    simp [Bob.verdict_eq hp hset, hno, Function.comp_def]
  · simp [Bob.verdict, hj, List.getElem?_set_ne (Ne.symm hj)]

/-- The subtest gets to `y'`, and the ledger has what that says. -/
theorem update (h : Bob.Tallies ps b bk) (hp : ps[i]? = some p) (hi : b.subtests[i]? = some y)
    (hs : machine.step y a = some y') {core : Core} (hcreated : core.created = b.core.created)
    {L : Ledger Nat} (hL : L.Keeps (Function.update (fun j => marked (b.verdict ps j)) i
      (some (y'.st.report.map fun r => decide (r.rval = 0))))) :
    Bob.Tallies ps ⟨core, b.subtests.set i y'⟩ ⟨core, L⟩ := by
  obtain ⟨acts, hreach⟩ := h.reaches i p y hp hi
  refine ⟨rfl, hcreated.trans h.created, by simpa using h.length, h.bob, fun j q z hq hz => ?_, ?_⟩
  · by_cases hj : j = i
    · subst hj
      rw [List.getElem?_set_self (List.getElem?_eq_some_iff.mp hi).1, Option.some.injEq] at hz
      rw [hp, Option.some.injEq] at hq
      have hone : exec machine.step y [a] = some y' := by rw [exec_cons, hs]; rfl
      exact ⟨acts ++ [a], hz ▸ hq ▸ hreach.append hone⟩
    · rw [List.getElem?_set_ne (Ne.symm hj)] at hz
      exact h.reaches j q z hq hz
  · rw [verdict_set hp hi (Setup.not_challenged_of_step hreach hs)]
    exact hL

/-- **A step of a subtest** is a completion in the books, or nothing. -/
theorem subtest (h : Bob.Tallies ps b bk) (hl : b.core.loop = .looping)
    (hi : b.subtests[i]? = some y) (hs : machine.step y a = some y') {core : Core}
    (hcore : b.core.follow i y y' = some core) :
    ∃ acts bk', exec (Books.step .bTest) bk acts = some bk' ∧
      Bob.Tallies ps ⟨core, b.subtests.set i y'⟩ bk' := by
  have hlt : i < ps.length := h.length ▸ (List.getElem?_eq_some_iff.mp hi).1
  have hp : ps[i]? = some ps[i] := List.getElem?_eq_getElem hlt
  obtain ⟨acts, hreach⟩ := h.reaches i _ y hp hi
  have hno := Setup.not_challenged_of_step hreach hs
  have hfound := Setup.found_of_reaches hreach
  have hv : b.verdict ps i = some (y.st.report.map Report.rval) := by
    rw [Bob.verdict_eq hp hi, if_neg (by simp [hno])]
  -- A step that reports nothing new leaves the books alone.
  have hquiet (hcore : core = b.core) (hrep : y'.st.report = y.st.report) :
      ∃ acts bk', exec (Books.step .bTest) bk acts = some bk' ∧
        Bob.Tallies ps ⟨core, b.subtests.set i y'⟩ bk' := by
    subst hcore
    refine ⟨[], bk, rfl, h.core ▸ h.update hp hi hs rfl ?_⟩
    have hsame : marked (b.verdict ps i) =
        some (y'.st.report.map fun r => decide (r.rval = 0)) := by
      rw [hv, hrep, marked_some, Option.map_map]
      rfl
    rw [← hsame, Function.update_eq_self]
    exact h.keeps
  cases hn : y.st.report with
  | some r =>
      rw [Core.follow, hn] at hcore
      have hrep := (hfound.lives_of_step hs).report hn (hfound.step hs).2
      exact hquiet (Option.some.inj hcore).symm (hrep.trans hn.symm)
  | none =>
      cases hr : y'.st.report with
      | none =>
          rw [Core.follow, hn, hr] at hcore
          exact hquiet (Option.some.inj hcore).symm (hr.trans hn.symm)
      | some r =>
          rw [Core.follow, hn, hr] at hcore
          have hopen : marked (b.verdict ps i) = some none := by rw [hv, hn]; rfl
          have hpend : i ∈ bk.ledger.pending := (h.keeps.pending i).mpr hopen
          have hkeeps := h.keeps.complete hopen (decide (r.rval = 0))
          refine ⟨[.done i r.rval], ⟨core, bk.ledger.complete i (r.rval = 0)⟩, ?_,
            h.update hp hi hs (Core.subtestDone_some hcore).2.2.1 (by simpa [hr] using hkeeps)⟩
          simp [Books.step, h.core, hl, hpend, hcore]

/-- **One step** of Bob is one of his books, or none. -/
theorem step {act : BobAct} (h : Bob.Tallies ps b bk) (hs : b.step act = some b') :
    ∃ acts bk', exec (Books.step .bTest) bk acts = some bk' ∧
      Bob.Tallies (ps ++ act.invited.toList) b' bk' := by
  unfold Bob.step at hs
  split at hs
  · cases hs
  · next hl =>
    rw [not_not] at hl
    cases act with
    | invite p =>
        cases hside : p.side with
        | alice => simp only [hside, reduceCtorEq] at hs
        | bob body req =>
            simp only [hside] at hs
            obtain ⟨y, hstart, rfl⟩ := Option.map_eq_some_iff.mp hs
            rw [← hside]
            refine ⟨[.invite (answered (create p.scn p.side p.fresh))], _, ?_,
              h.invite (by simp [hside]) hstart⟩
            simp [Books.step, hl, h.core]
    | refuse =>
        cases hs
        exact ⟨[], bk, rfl, by simpa [BobAct.invited] using h⟩
    | subtest i a =>
        obtain ⟨-, hs⟩ := Option.ite_none_left_eq_some.mp hs
        simp only [Option.bind_eq_bind, Option.bind_eq_some_iff, Option.some.injEq] at hs
        obtain ⟨y, hi, y', hstep, core, hcore, rfl⟩ := hs
        simpa [BobAct.invited] using h.subtest hl hi hstep hcore
    | timeout =>
        cases hs
        refine ⟨[.timeout], ⟨b.core.timeout .bTest, bk.ledger⟩, ?_, ?_⟩
        · simp [Books.step, hl, h.core]
        · have hcreated : (b.core.timeout .bTest).created = ps.length := by
            rw [← h.created]
            unfold Core.timeout
            dsimp only
            split <;> rfl
          simpa [BobAct.invited] using
            (⟨rfl, hcreated, h.length, h.bob, h.reaches, h.keeps⟩ :
              Bob.Tallies ps { b with core := b.core.timeout .bTest } ⟨_, _⟩)

/-- A run of Bob is one of his books. -/
theorem exec {acts : List BobAct} (h : Bob.Tallies ps b bk)
    (hs : Run.exec Bob.step b acts = some b') :
    ∃ bacts bk', Run.exec (Books.step .bTest) bk bacts = some bk' ∧
      Bob.Tallies (ps ++ invitesOf acts) b' bk' := by
  induction acts generalizing ps b bk with
  | nil =>
      cases hs
      exact ⟨[], bk, rfl, by simpa [invitesOf] using h⟩
  | cons act acts ih =>
      rw [exec_cons, Option.bind_eq_some_iff] at hs
      obtain ⟨b₁, h₁, h₂⟩ := hs
      obtain ⟨bacts₁, bk₁, hb₁, ht₁⟩ := h.step h₁
      obtain ⟨bacts₂, bk', hb₂, ht₂⟩ := ih ht₁ h₂
      refine ⟨bacts₁ ++ bacts₂, bk', ?_, ?_⟩
      · rw [exec_append, hb₁]
        exact hb₂
      · have hinvites : invitesOf (act :: acts) = act.invited.toList ++ invitesOf acts := by
          cases act <;> rfl
        rwa [hinvites, ← List.append_assoc]

/-- What the ledger owes. -/
theorem owed_eq (h : Bob.Tallies ps b bk) : bk.ledger.owed = b.owed ps := by
  have hrange : ∀ i, marked (b.verdict ps i) ≠ none → i ∈ Finset.range ps.length := by
    intro i hi
    by_contra hge
    exact hi (by simp [Bob.verdict_of_length_le (by simpa using hge)])
  rw [h.keeps.owed_eq hrange]
  exact congrArg Finset.card (Finset.filter_congr fun i _ => by simp [Bob.Owes])

end Bob.Tallies

end Step

/-! ## every run -/

section Run

variable {acts : List BobAct} {b : Bob}

theorem Bob.tallies_of_exec (h : exec Bob.step .start acts = some b) :
    ∃ bacts bk, exec (Books.step .bTest) (Books.start 0 .bTest) bacts = some bk ∧
      Bob.Tallies (invitesOf acts) b bk := by
  simpa using Bob.Tallies.start.exec h

/-- **Bob with his subtests is his books.**  In every run, whatever comes in and
whatever happens to the subtests: the run is one of the books, in which the subtest of
an INVITE is pending, passed or failed as its object has reported, and that of a
challenged one is not entered; `rval` is one more than the number of those that have not
reported 0, and 0 at the end when there is none; and while the loop runs,
nothing that can happen to a subtest is refused by the core. -/
theorem Bob.keeps_books (h : exec Bob.step .start acts = some b) :
    (∃ bacts bk, exec (Books.step .bTest) (Books.start 0 .bTest) bacts = some bk ∧
      Bob.Tallies (invitesOf acts) b bk) ∧
    b.core.rval = (if b.core.loop ≠ .looping ∧ b.owed (invitesOf acts) = 0 then 0
      else 1 + b.owed (invitesOf acts) : Int) ∧
    ∀ i a y y', b.core.loop = .looping → b.subtests[i]? = some y → fromOutside a = true →
      machine.step y a = some y' → ∃ b', b.step (.subtest i a) = some b' := by
  obtain ⟨bacts, bk, hb, ht⟩ := Bob.tallies_of_exec h
  refine ⟨⟨bacts, bk, hb, ht⟩, ?_, fun i a y y' hl hi ha hs => ?_⟩
  · rw [← ht.owed_eq, ← ht.core]
    by_cases hloop : bk.core.loop = .looping
    · have hr := ((tracks_start .bTest 0).exec hb).rval (by simp [hloop])
      simpa [hloop, CoreClass.base] using hr
    · simpa [hloop, CoreClass.base] using rval_of_ended hb hloop
  have hcore : ∃ core, b.core.follow i y y' = some core := by
    unfold Core.follow
    split
    · next hn hr =>
      have hlt : i < (invitesOf acts).length := ht.length ▸ (List.getElem?_eq_some_iff.mp hi).1
      have hp := List.getElem?_eq_getElem hlt
      obtain ⟨acts', hreach⟩ := ht.reaches i _ y hp hi
      refine Core.exists_subtestDone ?_ _
      rw [← ht.core, ((tracks_start .bTest 0).exec hb).running, ht.keeps.pending]
      simp [Bob.verdict_eq hp hi, Setup.not_challenged_of_step hreach hs, hn]
    · exact ⟨b.core, rfl⟩
  obtain ⟨core, hcore⟩ := hcore
  exact ⟨⟨core, b.subtests.set i y'⟩, by simp [Bob.step, hl, ha, hi, hs, hcore]⟩

namespace Sample

/-- Bob wants Alice to authenticate, and she has not. -/
def challengedInvite : Setup :=
  { bob .t1 false with tccfg := { cfg with uasCreds := some { username := "u", password := "p" } } }

/-- A call of `b_test1` that Bob answers, and that Alice ends. -/
def servedCall (i : Nat) : List BobAct :=
  ([.ret env, enter (.timer ⟨.ring, 5⟩), .ret env, enter (.timer ⟨.connect, 161 / 20⟩), .ret env,
    enter (.disconnected .caller ⟨10, 1, true, true⟩), enter .dead] : List Act).map (.subtest i)

/-- An INVITE that is challenged, one that is answered, and one that Bob does not get
to answer. -/
def threeInvites : List BobAct :=
  [.invite challengedInvite, .invite (bob .t1 false), .invite (bob .t1 false)] ++ servedCall 1 ++
    [.timeout]

end Sample

theorem Bob.keeps_books_three : ∃ b, exec Bob.step .start Sample.threeInvites = some b ∧
    b.core.rval = 1 + b.owed (invitesOf Sample.threeInvites) ∧ b.core.rval = 2 := by
  have hrun : (exec Bob.step .start Sample.threeInvites).map
      (fun b => (b.core.loop, b.core.rval)) = some (.timedOut, 2) := by
    decide +kernel
  obtain ⟨b, hb, hf⟩ := Option.map_eq_some_iff.mp hrun
  rw [Prod.mk.injEq] at hf
  have hrval := (Bob.keeps_books hb).2.1
  split at hrval
  · omega
  · exact ⟨b, hb, hrval, hf.2⟩

/-- A subtest of Bob's that has reported took an INVITE that was fine. -/
theorem Setup.accepted_of_reported {p : Setup} {acts : List Act} {y : Sys} {r : Report}
    (h : p.Reaches acts y) (hside : p.side ≠ .alice) (hr : y.st.report = some r) :
    ∃ body req sdp, p.side = .bob body req ∧ req.body = some sdp ∧ p.tccfg.Accepts sdp := by
  obtain ⟨y₀, hstart, hexec⟩ := h
  have hcalled := (Setup.begun_of_reported hstart hexec hr).called
  unfold Setup.Called at hcalled
  cases hs : p.side with
  | alice => exact (hside hs).elim
  | bob body req =>
      rw [hs] at hcalled
      obtain ⟨sdp, ival, hbody, haccepts, -⟩ := hcalled
      exact ⟨body, req, sdp, rfl, hbody, haccepts⟩

/-- The subtest of an INVITE has reported, if all is well. -/
theorem Bob.served_of_not_owes (h : exec Bob.step .start acts = some b) {i : Nat} {p : Setup}
    (hp : (invitesOf acts)[i]? = some p) (hc : p.challenged = false)
    (hno : ¬ b.Owes (invitesOf acts) i) :
    ∃ body req sdp y r, p.side = .bob body req ∧ req.body = some sdp ∧ p.tccfg.Accepts sdp ∧
      b.subtests[i]? = some y ∧ y.st.report = some r ∧ r.rval = 0 ∧
      (p.named = false → Served p.scn r.log) := by
  obtain ⟨bacts, bk, -, ht⟩ := Bob.tallies_of_exec h
  have hlt : i < b.subtests.length := ht.length ▸ (List.getElem?_eq_some_iff.mp hp).1
  have hy := List.getElem?_eq_getElem hlt
  obtain ⟨acts', hreach⟩ := ht.reaches i p _ hp hy
  have hverdict := Bob.verdict_eq hp hy
  simp only [hc, Bool.false_eq_true, if_false] at hverdict
  simp only [Bob.Owes, hverdict, ne_eq, reduceCtorEq, not_false_eq_true, true_and, not_not,
    Option.some.injEq, Option.map_eq_some_iff] at hno
  obtain ⟨r, hr, hrval⟩ := hno
  obtain ⟨body, req, sdp, hbob, hbody, haccepts⟩ :=
    Setup.accepted_of_reported hreach (ht.bob p (List.mem_of_getElem? hp)) hr
  have hcls : p.cls = .b p.scn := by
    unfold Setup.cls
    rw [hbob]
    rfl
  exact ⟨body, req, sdp, _, r, hbob, hbody, haccepts, hy, hr, hrval, fun hnot =>
    Setup.served_of_report hcls hnot hreach hr hrval⟩

/-- Bob exits with 0 if and only if every object that counts has reported 0. -/
theorem Bob.rval_eq_zero_iff (h : exec Bob.step .start acts = some b)
    (hend : b.core.loop ≠ .looping) :
    b.core.rval = 0 ↔ ∀ i, ¬ b.Owes (invitesOf acts) i := by
  obtain ⟨bacts, bk, hb, ht⟩ := Bob.tallies_of_exec h
  rw [← ht.core, VoipTests.rval_eq_zero_iff hb (ht.core ▸ hend), ht.keeps.green_iff_passed]
  refine forall_congr' fun i => ?_
  rw [marked_eq_none, marked_eq_passed, Bob.Owes, ne_eq, ne_eq]
  tauto

end Run

end VoipTests
