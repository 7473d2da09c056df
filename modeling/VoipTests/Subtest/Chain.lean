import Mathlib.Data.Nat.Notation

/-!
# VoipTests.Subtest.Chain

What the scenario `reinv_onhold` is for: a chain of re-INVITEs that put the
other side on hold and off hold in turn, each sent by a timer that the answer to
the one before has set.

A chain is nothing but counts.  Its steps know nothing of bodies or programs;
three propositions say which of the ways to lose a link are out: `whole` that a
re-INVITE can be built, `prompt` that an answer is followed up, `steady` that no
off-hold is counted which has not been sent.
-/

namespace VoipTests

/-- The counts of a chain. -/
structure Chain where
  /-- On-holds and off-holds that have been counted. -/
  on : Nat
  off : Nat
  /-- Those that are being sent, and are counted when that is over. -/
  lateOn : Nat
  lateOff : Nat
  /-- The timers of the next ones. -/
  reinvites : Nat
  offHolds : Nat
  /-- What is left of the schedule. -/
  left : Nat
  /-- One, if the last one has not been answered. -/
  going : Nat
  up : Bool
  down : Bool
  sent : Nat
  answers : Nat

namespace Chain

/-- The on-holds, with the one that is being sent. -/
def ons (c : Chain) : Nat := c.on + c.lateOn

/-- The off-holds, with the one that is being sent. -/
def offs (c : Chain) : Nat := c.off + c.lateOff

/-- The links: those there are, and those to come. -/
def links (c : Chain) : Nat := c.ons + c.offs + c.reinvites + c.offHolds + c.left

/-- The steps of a chain. -/
inductive Step (whole prompt steady : Prop) (c : Chain) : Chain → Prop
  | stay : Step whole prompt steady c c
  | connected (hup : c.up = false) :
      Step whole prompt steady c { c with up := true, reinvites := c.reinvites + 1 }
  | disconnected : Step whole prompt steady c { c with down := true }
  /-- An answer, and the timer of the next link. -/
  | next {n : Nat} (hgoing : c.going = 1) (hlate : c.lateOn + c.lateOff = 0) (hleft : c.left = n + 1) :
      Step whole prompt steady c { c with
        going := 0
        answers := c.answers + 1
        left := n
        reinvites := c.reinvites + if c.off < c.on then 0 else 1
        offHolds := c.offHolds + if c.off < c.on then 1 else 0 }
  /-- An answer that nothing follows. -/
  | last (hgoing : c.going = 1) (hlate : c.lateOn + c.lateOff = 0)
      (hleft : c.left = 0 ∨ ¬ prompt) :
      Step whole prompt steady c { c with going := 0, answers := c.answers + 1 }
  /-- The timer of an on-hold, which is sent. -/
  | hold {n : Nat} (htimer : c.reinvites = n + 1) (hlate : c.lateOn + c.lateOff = 0)
      (hup : c.up = true) (hdown : c.down = false) :
      Step whole prompt steady c { c with
        reinvites := n, lateOn := c.lateOn + 1, going := 1, sent := c.sent + 1 }
  | noHold {n : Nat} (htimer : c.reinvites = n + 1)
      (hlost : c.up = false ∨ c.down = true ∨ ¬ whole) :
      Step whole prompt steady c { c with reinvites := n }
  /-- The timer of an off-hold, which is sent. -/
  | offHold {n : Nat} (htimer : c.offHolds = n + 1) (hlate : c.lateOn + c.lateOff = 0)
      (hup : c.up = true) (hdown : c.down = false) :
      Step whole prompt steady c { c with
        offHolds := n, lateOff := c.lateOff + 1, going := 1, sent := c.sent + 1 }
  /-- The timer of an off-hold, which is counted all the same. -/
  | stray {n : Nat} (htimer : c.offHolds = n + 1) (hlate : c.lateOn + c.lateOff = 0)
      (hgone : c.up = false ∨ c.down = true) (hsteady : ¬ steady) :
      Step whole prompt steady c { c with offHolds := n, off := c.off + 1 }
  | noOffHold {n : Nat} (htimer : c.offHolds = n + 1) (hlost : ¬ whole) :
      Step whole prompt steady c { c with offHolds := n }
  | held {n : Nat} (hlate : c.lateOn = n + 1) :
      Step whole prompt steady c { c with lateOn := n, on := c.on + 1 }
  | unheld {n : Nat} (hlate : c.lateOff = n + 1) :
      Step whole prompt steady c { c with lateOff := n, off := c.off + 1 }

/-- What holds of every chain of at most `total` links. -/
structure Orderly (total : Nat) (c : Chain) : Prop where
  turn : c.offs ≤ c.ons ∧ c.ons ≤ c.offs + 1
  reinvites : 0 < c.reinvites → c.ons = c.offs
  offHolds : 0 < c.offHolds → c.ons = c.offs + 1
  one : c.reinvites + c.offHolds + c.going ≤ 1
  late : c.lateOn + c.lateOff ≤ c.going
  lateOn : 0 < c.lateOn → c.ons = c.offs + 1
  lateOff : 0 < c.lateOff → c.ons = c.offs
  sent : c.sent ≤ c.ons + c.offs ∧ (c.down = false → c.sent = c.ons + c.offs)
  answers : c.sent = c.answers + c.going
  links : c.links ≤ total
  before : c.up = false → c.links + 1 ≤ total ∧ c.links = c.left ∧ c.going = 0

/-- Every link there is has been sent. -/
def Counted (c : Chain) : Prop := c.sent = c.ons + c.offs

/-- No link has been lost as long as the call is up. -/
def Complete (total : Nat) (c : Chain) : Prop :=
  (c.up = false → c.links + 1 = total) ∧
    (c.up = true → c.down = false → c.links = total)

/-- The chain goes on as long as the call is up: there is a link being answered,
or a timer, or the schedule has come to its end. -/
def Alive (c : Chain) : Prop :=
  c.up = true → c.down = false → c.reinvites + c.offHolds + c.going = 1 ∨ c.left = 0

/-- Nothing more is to come: the call is down, or every link has been counted. -/
def Over (total : Nat) (c : Chain) : Prop := c.down = true ∨ c.on + c.off = total

/-- A chain before the call, with a schedule of `n`. -/
def start (n : Nat) : Chain := ⟨0, 0, 0, 0, 0, 0, n, 0, false, false, 0, 0⟩

theorem orderly_start (n : Nat) : (start n).Orderly (n + 1) := by
  constructor <;> simp [start, ons, offs, Chain.links]

theorem counted_start (n : Nat) : (start n).Counted := rfl

theorem complete_start (n : Nat) : (start n).Complete (n + 1) := by
  simp [start, Complete, Chain.links, ons, offs]

theorem alive_start (n : Nat) : (start n).Alive := nofun

variable {whole prompt steady : Prop} {total : Nat} {c c' : Chain}

/-- The counts take turns, whatever is being sent. -/
theorem Orderly.counts (h : c.Orderly total) :
    (c.off ≤ c.on ∧ c.on ≤ c.off + 1) ∧ c.on + c.off ≤ total := by
  obtain ⟨hturn, -, -, hone, hlate, hlateOn, hlateOff, -, -, hlinks, -⟩ := h
  simp only [Chain.links, ons, offs] at hturn hlateOn hlateOff hlinks
  omega

/-- The last link is the one being answered. -/
theorem Orderly.over (h : c.Orderly total) (hc : c.Complete total) (hleft : c.left = 0)
    (hlate : c.lateOn + c.lateOff = 0) (hgoing : c.going = 1) : c.Over total := by
  obtain ⟨-, -, -, hone, -, -, -, -, -, -, hbefore⟩ := h
  cases hup : c.up with
  | false =>
      obtain ⟨-, -, hnone⟩ := hbefore hup
      omega
  | true =>
      cases hdown : c.down with
      | true => exact .inl hdown
      | false =>
          have hlinks := hc.2 hup hdown
          simp only [Chain.links, ons, offs] at hlinks
          exact .inr (by omega)

/-- The order of what is being sent and what is to come. -/
theorem Orderly.step_turn (h : c.Orderly total) (hstep : Step whole prompt steady c c') :
    (c'.offs ≤ c'.ons ∧ c'.ons ≤ c'.offs + 1) ∧ (0 < c'.reinvites → c'.ons = c'.offs) ∧
      (0 < c'.offHolds → c'.ons = c'.offs + 1) ∧ (0 < c'.lateOn → c'.ons = c'.offs + 1) ∧
        (0 < c'.lateOff → c'.ons = c'.offs) := by
  obtain ⟨hturn, hre, hoff, hone, hlate, hlateOn, hlateOff, -, -, hlinks, hbefore⟩ := h
  simp only [Chain.links, ons, offs] at hturn hre hoff hlateOn hlateOff hlinks hbefore ⊢
  cases hstep with
  | connected hup =>
      have hnone := hbefore hup
      dsimp only
      omega
  | next => dsimp only; split <;> omega
  | stay => omega
  | _ => dsimp only; omega

/-- What is being answered, and what has been. -/
theorem Orderly.step_going (h : c.Orderly total) (hstep : Step whole prompt steady c c') :
    c'.reinvites + c'.offHolds + c'.going ≤ 1 ∧ c'.lateOn + c'.lateOff ≤ c'.going ∧
      c'.sent = c'.answers + c'.going := by
  obtain ⟨-, -, -, hone, hlate, -, -, -, hans, hlinks, hbefore⟩ := h
  simp only [Chain.links, ons, offs] at hlinks hbefore
  cases hstep with
  | connected hup =>
      have hnone := hbefore hup
      dsimp only
      omega
  | next => dsimp only; split <;> omega
  | stay => omega
  | _ => dsimp only; omega

/-- What is counted, and what is to come. -/
theorem Orderly.step_links (h : c.Orderly total) (hstep : Step whole prompt steady c c') :
    (c'.sent ≤ c'.ons + c'.offs ∧ (c'.down = false → c'.sent = c'.ons + c'.offs)) ∧ c'.links ≤ total ∧
      (c'.up = false → c'.links + 1 ≤ total ∧ c'.links = c'.left ∧ c'.going = 0) := by
  obtain ⟨-, -, -, hone, hlate, -, -, hsent, -, hlinks, hbefore⟩ := h
  simp only [Chain.links, ons, offs] at hsent hlinks hbefore ⊢
  cases hstep <;> grind

/-- **A step keeps the order.** -/
theorem Orderly.step (h : c.Orderly total) (hstep : Step whole prompt steady c c') :
    c'.Orderly total := by
  obtain ⟨hturn, hre, hoff, hlateOn, hlateOff⟩ := h.step_turn hstep
  obtain ⟨hone, hlate, hans⟩ := h.step_going hstep
  obtain ⟨hsent, hlinks, hbefore⟩ := h.step_links hstep
  exact ⟨hturn, hre, hoff, hone, hlate, hlateOn, hlateOff, hsent, hans, hlinks, hbefore⟩

/-- **A steady step counts what is sent.** -/
theorem Counted.step (h : c.Counted) (hsteady : steady) (hstep : Step whole prompt steady c c') :
    c'.Counted := by
  unfold Counted ons offs at h ⊢
  cases hstep <;> grind

/-- **A whole chain loses no link.** -/
theorem Complete.step (h : c.Complete total) (ho : c.Orderly total) (hwhole : whole)
    (hstep : Step whole prompt steady c c') : c'.Complete total := by
  obtain ⟨hturn, hre, hoff, hone, hlate, hlateOn, hlateOff, hsent, hans, hlinks, hbefore⟩ := ho
  unfold Complete at h ⊢
  simp only [Chain.links, ons, offs] at h hturn hre hoff hsent hlinks hbefore ⊢
  cases hstep <;> constructor <;> grind

/-- **A prompt chain goes on.** -/
theorem Alive.step (h : c.Alive) (ho : c.Orderly total) (hwhole : whole) (hprompt : prompt)
    (hstep : Step whole prompt steady c c') : c'.Alive := by
  obtain ⟨hturn, hre, hoff, hone, hlate, hlateOn, hlateOff, hsent, hans, hlinks, hbefore⟩ := ho
  unfold Alive at h ⊢
  simp only [Chain.links, ons, offs] at hturn hre hoff hsent hlinks hbefore
  cases hstep <;> grind

/-- **What is over stays over.** -/
theorem Over.step (h : c.Over total) (ho : c.Orderly total) (hstep : Step whole prompt steady c c') :
    c'.Over total := by
  have hmost := (ho.step hstep).counts.2
  have hmore : (c.down = true → c'.down = true) ∧ c.on ≤ c'.on ∧ c.off ≤ c'.off := by
    cases hstep <;> simp
  exact h.imp hmore.1 fun hall => by omega

end Chain

end VoipTests
