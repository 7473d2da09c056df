import VoipTests.Subtest.Moves
import Mathlib.Data.List.Infix

/-!
# VoipTests.Subtest.Rules

The rules by which `VoipTests.Subtest.Refine` shows that the code makes
nothing but moves: what is needed of the class hierarchy, the judgement `Ok`
with a rule for each kind of statement, and the programs that do nothing to be
seen (`Subtest.Unseen`), which are most of the RTP and SDP handling.
-/

namespace VoipTests

open Callback

/-! ## the class hierarchy -/

namespace PyClass

theorem mro_a_t1 : (PyClass.a .t1).mro = [.a .t1, .test] := by decide

theorem mro_b_t1 : (PyClass.b .t1).mro = [.b .t1, .test] := by decide

/-- What is checked of one tail of the order of `cls`. -/
def tailOk (cls : PyClass) : List PyClass → Bool
  | .a scn :: sup => cls.isAlice && .a scn :: sup = (PyClass.a scn).mro
  | .b scn :: sup => !cls.isAlice && .b scn :: sup = (PyClass.b scn).mro
  | .testReinvite :: sup => sup = [] || sup = (PyClass.a .t1).mro || sup = (PyClass.b .t1).mro
  | _ => true

theorem tailOk_of_suffix {cls : PyClass} {mro : List PyClass} (h : mro <:+ cls.mro) :
    cls.tailOk mro = true := by
  have hall : cls.mro.tails.all cls.tailOk = true := by
    cases cls with
    | a scn => cases scn <;> decide +kernel
    | b scn => cases scn <;> decide +kernel
    | _ => decide +kernel
  exact List.all_eq_true.mp hall _ ((List.mem_tails _ _).mpr h)

/-- The order of an object's class ends in the order of each of its Alice classes. -/
theorem eq_mro_a {cls : PyClass} {scn : Scenario} {sup : List PyClass}
    (h : .a scn :: sup <:+ cls.mro) :
    cls.isAlice = true ∧ PyClass.a scn :: sup = (PyClass.a scn).mro := by
  simpa [tailOk] using tailOk_of_suffix h

/-- Only Alice's classes are derived from Alice's. -/
theorem isAlice_of_isA {cls : PyClass} {scn : Scenario} (h : cls.isA (.a scn) = true) :
    cls.isAlice = true := by
  obtain ⟨l, sup, hl⟩ := List.append_of_mem (of_decide_eq_true h)
  exact (eq_mro_a ⟨l, hl.symm⟩).1

/-- The order of an object's class ends in the order of each of its Bob classes. -/
theorem eq_mro_b {cls : PyClass} {scn : Scenario} {sup : List PyClass}
    (h : .b scn :: sup <:+ cls.mro) :
    cls.isAlice = false ∧ PyClass.b scn :: sup = (PyClass.b scn).mro := by
  simpa [tailOk] using tailOk_of_suffix h

/-- What stands behind the mix-in `test_reinvite`. -/
theorem eq_mro_testReinvite {cls : PyClass} {sup : List PyClass}
    (h : .testReinvite :: sup <:+ cls.mro) :
    sup = [] ∨ sup = [.a .t1, .test] ∨ sup = [.b .t1, .test] := by
  simpa [tailOk, or_assoc, mro_a_t1, mro_b_t1] using tailOk_of_suffix h

/-- The classes that send media before they answer are no re-INVITE classes. -/
theorem not_testReinvite {cls : PyClass} (h : cls.isA (.b .t2) = true) :
    cls.isA .testReinvite = false := by
  cases cls with
  | a scn => cases scn <;> first | decide +kernel | exact absurd h (by decide +kernel)
  | b scn => cases scn <;> first | decide +kernel | exact absurd h (by decide +kernel)
  | _ => first | decide +kernel | exact absurd h (by decide +kernel)

end PyClass

/-- A class in the end of an order is in the order. -/
theorem isA_of_suffix {cls c : PyClass} {sup : List PyClass} (h : c :: sup <:+ cls.mro) :
    cls.isA c = true := by
  simpa [PyClass.isA] using h.subset List.mem_cons_self

theorem suffix_of_cons {c : PyClass} {sup mro : List PyClass} (h : c :: sup <:+ mro) :
    sup <:+ mro :=
  (List.suffix_cons c sup).trans h

/-! ## rules -/

section Rules

variable {α β : Type} {s s' : Subtest} {p : M α} {f : α → M β}

/-- Every stretch of `o` is a sequence of moves, the current one from `s`. -/
abbrev Ok (o : Out Subtest Exc UaCall α) (s : Subtest) : Prop := o.Safe machine inMoves s

theorem Ok.ret {a : α} : Ok (.ret a s) s := inMoves.guar_refl s

theorem Ok.move {o : Out Subtest Exc UaCall α} (hm : Move s s') (h : Ok o s') : Ok o s :=
  h.of_guar fun _ => .single hm

/-- An exception. -/
theorem Ok.raise {e : Exc} : Ok (.raise e s : Out Subtest Exc UaCall α) s :=
  fun _ => .single (.raised e)

/-- A call of the UA.  What is known afterwards is that the object is the same. -/
theorem Ok.call {c : UaCall} {k : Subtest → Out Subtest Exc UaCall α} (hc : s.ua.created = true)
    (hm : Moves s (machine.sent c s')) (hk : ∀ s', s.SameLife s' → Ok (k s') s') :
    Ok (.call c s' k) s := by
  refine ⟨fun _ => hm, fun s₂ hr => hk s₂ ?_⟩
  have hl := hm.sameLife
  exact hl.trans (hr (hl.created.trans hc))

/-- One program after another. -/
theorem Ok.bind (hc : s.ua.created = true) (hp : Ok (p s) s)
    (hf : ∀ a s', s.SameLife s' → Ok (f a s') s') : Ok ((p >>= f) s) s :=
  Out.Safe.bind hp (inMoves.rely_refl s) fun a s' hr => hf a s' (hr hc)

/-- Reading the object. -/
theorem Ok.get {f : Subtest → M α} (h : Ok (f s s) s) : Ok ((M.get >>= f) s) s := h

/-- An assignment that is a move. -/
theorem Ok.modify {g : Subtest → Subtest} {f : Unit → M α} (hm : Move s (g s))
    (h : Ok (f () (g s)) (g s)) : Ok ((M.modify g >>= f) s) s := .move hm h

theorem Ok.ite {c : Prop} [Decidable c] {q : M α} (hp : c → Ok (p s) s) (hq : ¬ c → Ok (q s) s) :
    Ok ((if c then p else q) s) s := by
  split
  · next h => exact hp h
  · next h => exact hq h

/-- An attribute of something that may be `None`. -/
theorem Ok.ofSome {o : Option α} {f : α → M β} (h : ∀ a, o = some a → Ok (f a s) s) :
    Ok ((M.ofSome o >>= f) s) s := by
  cases o with
  | none => exact .raise
  | some a => exact h a rfl

/-- A program that does nothing to be seen, before another. -/
theorem Ok.unseen (hp : Quiet Subtest.Unseen p)
    (hf : ∀ a s', s.Unseen s' → Ok (f a s') s') : Ok ((p >>= f) s) s :=
  hp.safe_bind (fun _ _ h _ => .tail (.single (.unseen h)) (.raised _))
    fun a s' h => (hf a s' h).of_guar fun _ => .single (.unseen h)

/-- A program that does nothing to be seen. -/
theorem Ok.of_quiet (hp : Quiet Subtest.Unseen p) : Ok (p s) s := by
  have h := hp s
  cases ho : p s with
  | ret a s' =>
      rw [ho] at h
      exact fun _ => .single (.unseen h)
  | raise e s' =>
      rw [ho] at h
      exact fun _ => .tail (.single (.unseen h)) (.raised e)
  | call c s' k =>
      rw [ho] at h
      exact h.elim
  | spin => exact trivial

end Rules

/-- `Timeout(self.cb, ival, 1, ua)`, if there is an interval. -/
def M.timeoutIf (cb : TimerCb) : Option ℚ → M Unit
  | some ival => M.timeout cb ival
  | _ => pure ()

/-! ## programs that do nothing to be seen -/

section Unseen

variable {α β : Type} {p : M α} {f : α → M β}

theorem unseen_bind (hp : Quiet Subtest.Unseen p) (hf : ∀ a, Quiet Subtest.Unseen (f a)) :
    Quiet Subtest.Unseen (p >>= f) :=
  Quiet.bind (fun _ _ _ => .trans) hp hf

theorem unseen_pure (a : α) : Quiet Subtest.Unseen (pure a : M α) := Quiet.pure .refl a

theorem unseen_raise (e : Exc) : Quiet Subtest.Unseen (M.raise e : M α) := Quiet.raise .refl e

theorem unseen_spin : Quiet Subtest.Unseen (fun _ => .spin : M α) := fun _ => trivial

theorem unseen_assert (c : Bool) : Quiet Subtest.Unseen (M.assert c) :=
  Quiet.ite (fun _ => unseen_pure _) fun _ => unseen_raise _

theorem unseen_ofSome (o : Option α) : Quiet Subtest.Unseen (M.ofSome o) := by
  cases o with
  | none => exact unseen_raise _
  | some a => exact unseen_pure a

theorem unseen_modify {g : Subtest → Subtest} (h : ∀ s, Subtest.Unseen s (g s)) :
    Quiet Subtest.Unseen (M.modify g : M Unit) := Quiet.modify h

theorem unseen_draws (draws : List Draw) :
    Quiet Subtest.Unseen (M.modify fun s => { s with env := { s.env with draws := draws } } : M Unit) :=
  unseen_modify fun s => ⟨s.rtp, { s.env with draws := draws }, s.body, s.pIncr, rfl, rfl, rfl⟩

theorem unseen_modifyRtp {g : Rtp → Rtp} (hi : ∀ rtp, (g rtp).inited = rtp.inited)
    (hc : ∀ rtp, (g rtp).closing = rtp.closing) : Quiet Subtest.Unseen (Test.modifyRtp g) :=
  unseen_modify fun s => ⟨g s.rtp, s.env, s.body, s.pIncr, hi _, hc _, rfl⟩

theorem unseen_rtpPortAlloc : Quiet Subtest.Unseen Test.rtpPortAlloc := by
  unfold Test.rtpPortAlloc
  refine Quiet.get fun s => ?_
  cases s.tccfg.portrange.gennotinrange s.env.draws with
  | none => exact unseen_spin
  | some r => exact unseen_bind (unseen_draws r.2) fun _ => unseen_pure _

theorem unseen_rtpPickMedia (sdp : Sdp) : Quiet Subtest.Unseen (Test.rtpPickMedia sdp) := by
  unfold Test.rtpPickMedia
  cases pickMedia sdp.sections with
  | ok mdata => exact unseen_pure _
  | error e => exact unseen_raise _

theorem unseen_rtpCreate (proto : Option AType) : Quiet Subtest.Unseen (Test.rtpCreate proto) := by
  unfold Test.rtpCreate
  refine Quiet.get fun s => ?_
  cases s.env.endpoint with
  | none => exact unseen_raise _
  | some ep => exact unseen_modifyRtp (fun _ => rfl) fun _ => rfl

theorem unseen_rtpUpdate (ep : Endpoint) (proto : Option AType) :
    Quiet Subtest.Unseen (Test.rtpUpdate ep proto) := by
  unfold Test.rtpUpdate
  exact Quiet.get fun s => Quiet.ite (fun _ => unseen_modifyRtp (fun _ => rfl) fun _ => rfl)
    fun _ => unseen_raise _

theorem unseen_rtpStartOrUpdate (sdp : Sdp) :
    Quiet Subtest.Unseen (Test.rtpStartOrUpdate sdp) := by
  unfold Test.rtpStartOrUpdate
  refine Quiet.get fun s => unseen_bind (unseen_assert _) fun _ =>
    Quiet.ite (fun _ => unseen_bind (unseen_rtpPickMedia sdp) fun mdata => ?_)
      fun _ => unseen_pure _
  cases mdata with
  | none => exact unseen_pure _
  | some mdata =>
      have hrest (_ : Unit) : Quiet Subtest.Unseen (Test.modifyRtp fun rtp => { rtp with
          target := some mdata.target
          codec := some mdata.codec
          ptime := some mdata.ptime }) :=
        unseen_modifyRtp (fun _ => rfl) fun _ => rfl
      cases s.rtp.ep with
      | none => exact unseen_bind (unseen_rtpCreate _) hrest
      | some ep => exact unseen_bind (unseen_rtpUpdate ep _) hrest

theorem unseen_makeMediaAnswer (sdp : Option Sdp) :
    Quiet Subtest.Unseen (BTest1.makeMediaAnswer sdp) := by
  unfold BTest1.makeMediaAnswer
  refine Quiet.get fun s => unseen_bind (unseen_assert _) fun _ =>
    unseen_bind (unseen_ofSome _) fun sdp => Quiet.ite (fun _ => ?_) fun _ => unseen_pure _
  refine unseen_bind (unseen_ofSome _) fun body => unseen_bind (unseen_rtpStartOrUpdate sdp)
    fun _ => Quiet.get fun s' => unseen_bind (unseen_ofSome _) fun _ => unseen_pure _

theorem unseen_sendACK : Quiet Subtest.Unseen ATestReinvBadAck.sendACK := by
  unfold ATestReinvBadAck.sendACK
  exact Quiet.get fun _ => Quiet.ite (fun _ => unseen_raise _) fun _ => unseen_pure _

theorem unseen_crippleBody (sdp : Sdp) : Quiet Subtest.Unseen (crippleBody sdp) := by
  unfold crippleBody
  exact Quiet.get fun s => unseen_bind
    (unseen_modify fun s' => ⟨s'.rtp, s'.env, s'.body, _, rfl, rfl, rfl⟩) fun _ => unseen_pure _

theorem unseen_alterPorts (sects : List Section) : Quiet Subtest.Unseen (alterPorts sects) := by
  induction sects with
  | nil => exact unseen_pure _
  | cons sect sects ih =>
      rw [alterPorts]
      exact Quiet.ite (fun _ => unseen_bind ih fun _ => unseen_pure _) fun _ =>
        unseen_bind unseen_rtpPortAlloc fun _ => unseen_bind ih fun _ => unseen_pure _

theorem unseen_dropMedia (sects : List Section) : Quiet Subtest.Unseen (dropMedia sects) := by
  induction sects with
  | nil => exact unseen_pure _
  | cons sect sects ih =>
      rw [dropMedia]
      exact Quiet.ite (fun _ => unseen_bind ih fun _ => unseen_pure _) fun _ =>
        unseen_bind unseen_rtpPortAlloc fun _ => unseen_bind ih fun _ => unseen_pure _

end Unseen

end VoipTests
