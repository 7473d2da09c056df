import VoipTests.Switch.Opensips
import Mathlib.Tactic.MkIffOfInductiveProp

/-!
# VoipTests.Switch.Route

What the main route of OpenSIPS makes of a request.

The route either refuses a request or passes it on.  Its blocks are taken one
by one: each leaves the state it is entered in with what it adds, or ends
the script with the request refused (`Ends`).
-/

namespace VoipTests.Switch

open Script (exit test act Wp)
open Seen (see start)

variable {α β : Type} {cfg : Cfg} {req : Msg} {held : Bool} {s s' : Seen} {r : Option α}

/-- What has been done for a request before it is relayed: nothing, or all that there is
to do for its session.  The routes for what comes back are armed after that. -/
@[mk_iff]
structure Dealt (cfg : Cfg) (req : Msg) (held : Bool) (s : Seen) : Prop where
  acts : s.acts = [] ∨ s.acts = sessionActs req
  held : s.held = heldAfter held s.acts
  onReply : s.onReply = none ∨ .offer ∈ s.acts ∧ s.onReply = some "1"
  onFailure : s.onFailure = none ∨ s.onReply = some "1" ∧
    s.onFailure = if req.hasTotag then cfg.onReInvite else some cfg.onInvite

/-- The fields that matter are the same. -/
theorem Dealt.congr (h : Dealt cfg req held s) (hacts : s'.acts = s.acts) (hheld : s'.held = s.held)
    (hreply : s'.onReply = s.onReply) (hfailure : s'.onFailure = s.onFailure) :
    Dealt cfg req held s' where
  acts := hacts ▸ h.acts
  held := by rw [hheld, h.held, hacts]
  onReply := by rw [hreply, hacts]; exact h.onReply
  onFailure := by rw [hfailure, hreply]; exact h.onFailure

/-- Before anything has been done. -/
@[simp] theorem dealt_of_idle (hacts : s.acts = []) (hheld : s.held = held)
    (hreply : s.onReply = none) (hfailure : s.onFailure = none) : Dealt cfg req held s where
  acts := .inl hacts
  held := by rw [hheld, hacts]; rfl
  onReply := .inl hreply
  onFailure := .inl hfailure

/-- Once an INVITE has been offered. -/
theorem dealt_of_offered (hinv : req.method = "INVITE") (hacts : s.acts = [.offer])
    (hheld : s.held = true) (hreply : s.onReply = some "1") (hfailure : s.onFailure = none ∨
      s.onFailure = if req.hasTotag then cfg.onReInvite else some cfg.onInvite) :
    Dealt cfg req held s where
  acts := .inr (by simp [hacts, sessionActs, hinv])
  held := by simp [hheld, hacts, heldAfter]
  onReply := .inr (by simp [hacts, hreply])
  onFailure := hfailure.imp_right fun h => ⟨hreply, h⟩

/-- Once the session of a BYE has been freed. -/
theorem dealt_of_freed (hbye : req.method = "BYE") (hacts : s.acts = [.free])
    (hheld : s.held = false) (hreply : s.onReply = none) (hfailure : s.onFailure = none) :
    Dealt cfg req held s where
  acts := .inr (by simp [hacts, sessionActs, hbye])
  held := by simp [hheld, hacts, heldAfter]
  onReply := .inl hreply
  onFailure := .inl hfailure

/-- The script is over and nothing has been relayed.  The request has been
answered, or a function has ended the script. -/
@[mk_iff]
structure Refused (cfg : Cfg) (req : Msg) (held : Bool) (s : Seen) : Prop where
  relays : s.relays = 0
  late : s.late = 0
  once : s.replies ≤ 1
  answered : s.stopped = false → s.replies = 1
  idle : s.replies = 1 → s.acts = [] ∧ s.held = held
  dealt : Dealt cfg req held s

/-- A block goes on in `s'`, or it refuses the request. -/
def Ends (cfg : Cfg) (req : Msg) (held : Bool) (s' : Seen) (s : Seen) : Option α → Prop
  | some _ => s = s'
  | none => Refused cfg req held s

@[simp] theorem ends_some {a : α} : Ends cfg req held s' s (some a) ↔ s = s' := Iff.rfl

@[simp] theorem ends_none :
    Ends (α := α) cfg req held s' s none ↔ Refused cfg req held s := Iff.rfl

/-- Nothing has been said of the request yet. -/
structure Fresh (cfg : Cfg) (req : Msg) (held : Bool) (s : Seen) : Prop where
  replies : s.replies = 0
  relays : s.relays = 0
  late : s.late = 0
  stopped : s.stopped = false
  dealt : Dealt cfg req held s

/-- A block and what follows it. -/
theorem Ends.bind {p : Script Cmd α} {f : α → Script Cmd β} {Q : Seen → Option β → Prop}
    (hp : p.Wp see (Ends cfg req held s') s) (hf : ∀ a, (f a).Wp see Q s')
    (hq : ∀ s, Refused cfg req held s → Q s none) : (p >>= f).Wp see Q s := by
  refine Script.wp_bind.mpr (hp.mono fun t r h => ?_)
  cases r with
  | none => exact hq t h
  | some a =>
      obtain rfl := ends_some.mp h
      exact hf a

/-! ## calls that only ask -/

/-- The call adds nothing of its own. -/
def Cmd.Quiet (c : Cmd) : Prop := ∀ (s : Seen) (n : Int), s.effect n c = s

/-- A call that only asks, and does not end the script, leaves all as it was. -/
theorem Fresh.see_eq {c : Cmd} {n : Int} (hs : Fresh cfg req held s) (hc : c.Quiet) (hn : n ≠ 0) :
    see s (c, n) = s := by
  obtain ⟨hreplies, hrelays, -, hstop, -⟩ := hs
  rw [Seen.see, hc]
  cases s
  simp_all

/-- A function has ended the script. -/
theorem Fresh.refused_of_stopped (hs : Fresh cfg req held s) (hreplies : s'.replies = s.replies)
    (hrelays : s'.relays = s.relays) (hlate : s'.late = 0) (hstopped : s'.stopped = true)
    (hdealt : Dealt cfg req held s') : Refused cfg req held s' where
  relays := hrelays.trans hs.relays
  late := hlate
  once := by simp [hreplies, hs.replies]
  answered h := by simp [hstopped] at h
  idle h := by simp [hreplies, hs.replies] at h
  dealt := hdealt

/-- One that ends the script drops the request. -/
theorem Fresh.refused {c : Cmd} (hs : Fresh cfg req held s) (hc : c.Quiet) :
    Refused cfg req held (see s (c, 0)) := by
  rw [Seen.see, hc]
  exact hs.refused_of_stopped rfl rfl (by simp [hs.replies, hs.relays, hs.late]) rfl
    (hs.dealt.congr rfl rfl rfl rfl)

theorem Fresh.act_wp {c : Cmd} (hs : Fresh cfg req held s) (hc : c.Quiet) :
    (act c).Wp see (Ends cfg req held s) s :=
  Script.wp_act.mpr ⟨hs.refused hc, fun _ hn => hs.see_eq hc hn⟩

theorem Fresh.test_wp {c : Cmd} (hs : Fresh cfg req held s) (hc : c.Quiet) :
    (test c).Wp see (Ends cfg req held s) s :=
  Script.wp_test.mpr ⟨hs.refused hc, fun _ hn => hs.see_eq hc (by omega),
    fun _ hn => hs.see_eq hc (by omega)⟩

/-! ## the request goes on -/

/-- The request has gone on, and nothing is done to it afterwards. -/
structure Relayed (req : Msg) (before s : Seen) : Prop where
  replies : s.replies = 0
  relays : s.relays = 1
  late : s.late = 0
  acts : s.acts = before.acts ++ [.relay (if s.routed then none else some (otherSide req))]
  held : s.held = before.held
  onReply : s.onReply = before.onReply
  onFailure : s.onFailure = before.onFailure

/-- How a route comes to its end. -/
def Over (cfg : Cfg) (req : Msg) (held : Bool) (before : Seen) (s : Seen) (r : Option α) : Prop :=
  r = none ∧ (Refused cfg req held s ∨ Relayed req before s)

/-- The request goes on to where the R-URI or the `Route` points. -/
theorem relay_wp (before : Seen) (hs : Fresh cfg req held s)
    (hport : s.routed = false → s.port = some (otherSide req)) (hacts : s.acts = before.acts)
    (hheld : s.held = before.held) (hreply : s.onReply = before.onReply)
    (hfailure : s.onFailure = before.onFailure) :
    (act .tRelay >>= fun _ => exit : Script Cmd Unit).Wp see (Over cfg req held before) s := by
  have hrel (n : Int) : Relayed req before (see s (.tRelay, n)) := by
    obtain ⟨hreplies, hrelays, hlate, -, -⟩ := hs
    refine ⟨hreplies, ?_, ?_, ?_, hheld, hreply, hfailure⟩
    · simp [Seen.see, Seen.effect, hrelays]
    · simp [Seen.see, Seen.effect, hreplies, hrelays, hlate]
    · cases hr : s.routed <;> simp [Seen.see, Seen.effect, hr, hport, hacts]
  simp [Over, hrel]

/-- `loose_route` says where the request goes next, and nothing of the request itself. -/
theorem Fresh.looseRoute (hs : Fresh cfg req held s) {n : Int} (hn : n ≠ 0) :
    Fresh cfg req held (see s (.looseRoute, n)) where
  replies := hs.replies
  relays := hs.relays
  late := by simp [Seen.see, Seen.effect, hs.replies, hs.relays, hs.late]
  stopped := decide_eq_false hn
  dealt := hs.dealt.congr rfl rfl rfl rfl

/-- An assignment cannot end the script. -/
theorem Fresh.rewritePort (hs : Fresh cfg req held s) (port : Nat) (n : Int) :
    Fresh cfg req held (see s (.rewritePort port, n)) where
  replies := hs.replies
  relays := hs.relays
  late := by simp [Seen.see, Seen.effect, hs.replies, hs.relays, hs.late]
  stopped := rfl
  dealt := hs.dealt.congr rfl rfl rfl rfl

/-! ## the blocks -/

namespace Opensips

/-- A request that hops too often, is too big or gets no transaction is refused. -/
theorem checks_wp : (checks cfg req).Wp see (Ends cfg req held (start held)) (start held) := by
  unfold checks
  cases cfg.maxLen with
  | none =>
      simp [Seen.see, Seen.effect, start, refused_iff, Ends]
      omega
  | some maxLen =>
      by_cases h : cfg.ver.before24 && maxLen ≤ req.len
      · simp [h, Seen.see, Seen.effect, start, refused_iff, Ends]
      · simp [h, Seen.see, Seen.effect, start, refused_iff, Ends]
        omega

theorem forM_setAvp_wp (avps : List (String × String)) :
    (avps.forM fun avp => Script.tell (.setAvp avp.1 avp.2)).Wp see (Ends cfg req held (start held))
      (start held) := by
  induction avps with
  | nil => exact rfl
  | cons avp avps ih =>
      refine Script.wp_bind.mpr fun n => ?_
      exact ih

/-- An INVITE with the wrong credentials, or none, is challenged. -/
theorem authorize_wp (auth : Authorize) :
    (authorize auth).Wp see (Ends cfg req held (start held)) (start held) := by
  unfold authorize
  refine Ends.bind (forM_setAvp_wp _) (fun _ => ?_) fun _ h => h
  unfold check
  cases auth.table <;> simp +contextual [Seen.see, Seen.effect, start, refused_iff, Ends]

/-- Once the session is made. -/
def invited (cfg : Cfg) (req : Msg) (held : Bool) : Seen :=
  { start held with
    acts := [.offer]
    held := true
    onReply := some "1"
    onFailure := if req.hasTotag then cfg.onReInvite else some cfg.onInvite }

/-- An INVITE whose dialog cannot be made or found is refused. -/
theorem dialog_wp : (dialog req).Wp see (Ends cfg req held (start held)) (start held) := by
  unfold dialog
  cases req.hasTotag with
  | false => simp +contextual [Seen.see, Seen.effect, start, refused_iff, Ends]
  | true =>
      simp +contextual [Seen.see, Seen.effect, start, refused_iff, Ends]
      omega

/-- An INVITE whose offer fails is refused; the routes are armed for any other. -/
theorem offer_wp (hinv : req.method = "INVITE") :
    (offer cfg req).Wp see (Ends cfg req held (invited cfg req held)) (start held) := by
  unfold offer
  refine Script.wp_bind.mpr (Script.wp_test.mpr ⟨?_, fun n hn => ?_, fun n hn => ?_⟩)
  · simp [Seen.see, Seen.effect, start, refused_iff]
  · have hno : ¬ 0 < n := by omega
    simp [hno, Seen.see, Seen.effect, start, refused_iff]
  · have hn' : n ≠ 0 := by omega
    have hn'' : 0 ≤ n := by omega
    have hoffered {s : Seen} := @dealt_of_offered cfg req held s hinv
    cases h : req.hasTotag with
    | false =>
        simp +contextual [hn, hn', hn'', h, hoffered, Seen.see, Seen.effect, start, refused_iff,
          invited]
    | true =>
        cases hr : cfg.onReInvite <;>
          simp +contextual [hn, hn', hn'', h, hr, hoffered, Seen.see, Seen.effect, start,
            refused_iff, invited]

/-- The blocks of an INVITE, with the credentials before the dialog. -/
theorem onInvite_wp (hinv : req.method = "INVITE") :
    (onInvite cfg req).Wp see (Ends cfg req held (invited cfg req held)) (start held) := by
  have hlast : (dialog req >>= fun _ => offer cfg req).Wp see
      (Ends cfg req held (invited cfg req held)) (start held) :=
    Ends.bind dialog_wp (fun _ => offer_wp hinv) fun _ h => h
  unfold onInvite
  cases hauth : cfg.authorize with
  | none => simpa using hlast
  | some auth =>
      cases h : req.hasTotag with
      | false => exact Ends.bind (authorize_wp auth) (fun _ => hlast) fun _ h => h
      | true => simpa using hlast

/-- Before a BYE goes on its session is given up, whatever comes of it. -/
theorem unforce_wp (hbye : req.method = "BYE") : (act .rtpproxyUnforce).Wp see
    (Ends cfg req held { start held with acts := [.free], held := false }) (start held) := by
  simp +contextual [dealt_of_freed hbye, Seen.see, Seen.effect, start, refused_iff, Ends]

/-- Whether the Contact is mended or not, the request is where it was. -/
theorem natContact_wp (hs : Fresh cfg req held s) :
    (natContact cfg req).Wp see (Ends cfg req held s) s := by
  unfold natContact
  split
  · refine Ends.bind (hs.test_wp fun _ _ => rfl) (fun nat => ?_) fun _ h => h
    split
    · split
      · exact hs.act_wp fun _ _ => rfl
      · exact rfl
    · exact rfl
  · exact rfl

/-- The request goes on, by its `Route` or to the other side, or a function drops it. -/
theorem onward_wp (hs : Fresh cfg req held s) : (onward cfg req).Wp see (Over cfg req held s) s := by
  unfold onward
  refine Script.wp_bind.mpr (Script.wp_test.mpr ⟨?_, fun n hn => ?_, fun n hn => ?_⟩)
  · have hstop : Refused cfg req held (see s (.looseRoute, 0)) :=
      hs.refused_of_stopped rfl rfl (by simp [Seen.see, Seen.effect, hs.replies, hs.relays, hs.late])
        rfl (hs.dealt.congr rfl rfl rfl rfl)
    exact ⟨rfl, .inl hstop⟩
  · -- no `Route`: the R-URI gets the port of the other side
    have hf := hs.looseRoute (n := n) (by omega)
    have hrel (n' : Int) := relay_wp s
      (hf.rewritePort (otherSide req) n') (fun _ => rfl) rfl rfl rfl rfl
    unfold otherSide at hrel
    by_cases hsrc : req.srcPort = 5061
    · rw [if_pos hsrc] at hrel
      simp only [hsrc, Bool.false_eq_true, if_false, if_true]
      exact Script.wp_bind.mpr hrel
    · rw [if_neg hsrc] at hrel
      simp only [hsrc, Bool.false_eq_true, if_false]
      exact Script.wp_bind.mpr hrel
  · -- the next hop is in the `Route`
    have hf := hs.looseRoute (n := n) (by omega)
    have hrel := relay_wp s hf
      (by simp [Seen.see, Seen.effect, hn]) rfl rfl rfl rfl
    simp only [if_true]
    split
    · exact Ends.bind (hf.act_wp fun _ _ => rfl) (fun _ => hrel) fun t ht => ⟨rfl, .inl ht⟩
    · exact hrel

/-! ## the route -/

/-- The state in which the request goes on. -/
def passed (cfg : Cfg) (req : Msg) (held : Bool) : Seen :=
  if req.method = "INVITE" then invited cfg req held
  else if req.method = "BYE" then { start held with acts := [.free], held := false }
  else start held

/-- Nothing has been said of a request that goes on. -/
theorem fresh_passed : Fresh cfg req held (passed cfg req held) := by
  unfold passed
  split_ifs with hinv hbye
  · exact ⟨rfl, rfl, rfl, rfl, dealt_of_offered hinv rfl rfl rfl (.inr rfl)⟩
  · exact ⟨rfl, rfl, rfl, rfl, dealt_of_freed hbye rfl rfl rfl rfl⟩
  · exact ⟨rfl, rfl, rfl, rfl, dealt_of_idle rfl rfl rfl rfl⟩

/-- **The route**: it has the request refused, or passes it on. -/
theorem route_wp : (route cfg req).Wp see (Over cfg req held (passed cfg req held)) (start held) := by
  have hlast : (natContact cfg req >>= fun _ => onward cfg req).Wp see
      (Over cfg req held (passed cfg req held)) (passed cfg req held) :=
    Ends.bind (natContact_wp fresh_passed) (fun _ => onward_wp fresh_passed)
      fun t ht => ⟨rfl, .inl ht⟩
  unfold route
  refine Ends.bind checks_wp (fun _ => ?_) fun t ht => ⟨rfl, .inl ht⟩
  by_cases hinv : req.method = "INVITE"
  · have hbye : req.method ≠ "BYE" := by simp [hinv]
    have hp : passed cfg req held = invited cfg req held := if_pos hinv
    rw [if_pos hinv, if_neg hbye]
    refine Ends.bind (onInvite_wp hinv) (fun _ => ?_) fun t ht => ⟨rfl, .inl ht⟩
    rw [← hp]
    exact hlast
  · rw [if_neg hinv]
    by_cases hbye : req.method = "BYE"
    · have hp : passed cfg req held = { start held with acts := [.free], held := false } := by
        rw [passed, if_neg hinv, if_pos hbye]
      rw [if_pos hbye]
      refine Ends.bind (unforce_wp hbye) (fun _ => ?_) fun t ht => ⟨rfl, .inl ht⟩
      rw [← hp]
      exact hlast
    · have hp : passed cfg req held = start held := by rw [passed, if_neg hinv, if_neg hbye]
      rw [hp] at hlast ⊢
      rw [if_neg hbye]
      exact hlast

/-- What the route makes of a request. -/
structure Disposed (cfg : Cfg) (req : Msg) (held : Bool) (s : Seen) : Prop where
  /-- It is answered or relayed once, at most, and nothing is called after that. -/
  once : s.replies + s.relays ≤ 1
  late : s.late = 0
  /-- Only a function can keep it from being either. -/
  disposed : s.stopped = false → s.replies + s.relays = 1
  /-- A request that is answered changes nothing. -/
  refused : s.replies = 1 →
    s.acts = [] ∧ s.held = held ∧ s.onReply = none ∧ s.onFailure = none
  /-- For a request that is dropped nothing is done but for its session. -/
  dropped : s.replies = 0 → s.relays = 0 → Dealt cfg req held s
  relayed : s.relays = 1 → s.acts = passOn req s.routed
  /-- An INVITE is not relayed without a session, and a BYE not with one. -/
  invite : s.relays = 1 → req.method = "INVITE" →
    s.held = true ∧ s.onReply = some "1" ∧
      s.onFailure = if req.hasTotag then cfg.onReInvite else some cfg.onInvite
  bye : s.relays = 1 → req.method = "BYE" → s.held = false
  other : s.relays = 1 → req.method ≠ "INVITE" → s.onReply = none ∧ s.onFailure = none

theorem Disposed.of_refused {s : Seen} (h : Refused cfg req held s) : Disposed cfg req held s where
  once := by have := h.once; have := h.relays; omega
  late := h.late
  disposed hs := by have := h.answered hs; have := h.relays; omega
  refused hr := by
    obtain ⟨hacts, hheld⟩ := h.idle hr
    have hreply : s.onReply = none := h.dealt.onReply.resolve_right (by simp [hacts])
    exact ⟨hacts, hheld, hreply, h.dealt.onFailure.resolve_right (by simp [hreply])⟩
  dropped _ _ := h.dealt
  relayed hr := absurd hr (by simp [h.relays])
  invite hr := absurd hr (by simp [h.relays])
  bye hr := absurd hr (by simp [h.relays])
  other hr := absurd hr (by simp [h.relays])

theorem Disposed.of_relayed {s : Seen} (h : Relayed req (passed cfg req held) s) :
    Disposed cfg req held s where
  once := by have := h.replies; have := h.relays; omega
  late := h.late
  disposed _ := by have := h.replies; have := h.relays; omega
  refused hr := absurd hr (by simp [h.replies])
  dropped _ hr := absurd hr (by simp [h.relays])
  relayed _ := by
    rw [h.acts]
    unfold passed passOn sessionActs
    by_cases hinv : req.method = "INVITE"
    · simp [hinv, invited]
    · by_cases hbye : req.method = "BYE" <;> simp [hinv, hbye, start]
  invite _ hinv := by
    rw [h.held, h.onReply, h.onFailure, passed, if_pos hinv]
    exact ⟨rfl, rfl, rfl⟩
  bye _ hbye := by
    have hinv : req.method ≠ "INVITE" := by simp [hbye]
    rw [h.held, passed, if_neg hinv, if_pos hbye]
  other _ hinv := by
    rw [h.onReply, h.onFailure, passed, if_neg hinv]
    split_ifs <;> exact ⟨rfl, rfl⟩

section Run

variable {codes : List Int} {calls : List (Cmd × Int)} {r : Option Unit}

theorem Disposed.of_run (h : (route cfg req).run codes = some (calls, r)) :
    Disposed cfg req held (Seen.of held calls) := by
  obtain ⟨-, hs | hs⟩ := route_wp.run h
  · exact .of_refused hs
  · exact .of_relayed hs

/-- **Every request is disposed of once**, whatever the functions return. -/
theorem route_disposes (h : (route cfg req).run codes = some (calls, r)) :
    r = none ∧ Disposed cfg req held (Seen.of held calls) := by
  have hover : Over cfg req held (passed cfg req held) (Seen.of held calls) r := route_wp.run h
  exact ⟨hover.1, .of_run h⟩

end Run

/-- An INVITE of Alice's, which has no session yet. -/
def aliceInvite : Msg := ⟨"INVITE", false, 5061, 512⟩

theorem route_disposes_invite : ∃ calls, (route (simple (.num 34) 4096) aliceInvite).run
      [1, 1, 1, 1, 1, 1, 1, 1, -1, -1, 1, 1] = some (calls, none) ∧
    Disposed (simple (.num 34) 4096) aliceInvite false (Seen.of false calls) := by
  have h : (route (simple (.num 34) 4096) aliceInvite).run
      [1, 1, 1, 1, 1, 1, 1, 1, -1, -1, 1, 1] = some (_, none) := rfl
  exact ⟨_, h, (route_disposes h).2⟩

end Opensips

end VoipTests.Switch
