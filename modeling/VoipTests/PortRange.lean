import VoipTests.Sdp
import VoipTests.Lib.Supply
import Mathlib.Data.Rat.Floor
import Mathlib.Tactic.Linarith

/-!
# VoipTests.PortRange

The random material of the suite: `PortRange` (ports outside the range the
RTP proxy allocates from) and `genIP` (random addresses).

`random()` is a rational in `[0, 1)` (`Draw`).  A function that draws takes
the list of the draws still to come and returns the rest of it, so "for all
random draws" is "for every list of draws"; a rejection loop that has used
up the list has not finished.
-/

namespace VoipTests

/-! ## draws -/

/-- A value of `random()`. -/
structure Draw where
  val : ℚ
  nonneg : 0 ≤ val
  lt_one : val < 1
  deriving DecidableEq

/-- The draw `0.5`, under which `gennotinrange` looks at port 32766. -/
def Draw.half : Draw := ⟨1 / 2, by norm_num, by norm_num⟩

/-- `int(k * random())`. -/
def Draw.scale (r : Draw) (k : Nat) : Int := ⌊(k : ℚ) * r.val⌋

/-- `random() > 0.5`. -/
def Draw.gtHalf (r : Draw) : Bool := 1 / 2 < r.val

/-! ## port ranges -/

/-- A range accepted by the constructor of `PortRange`: it raises
`ValueError` unless both bounds lie within the absolute limits. -/
structure PortRange where
  minp : Int
  maxp : Int
  absMinp_le : 1024 ≤ minp
  le_absMaxp : maxp ≤ 65535
  deriving DecidableEq

namespace PortRange

def absMinp : Int := 1024
def absMaxp : Int := 65535
def ctlPortn : Int := 22222

/-- `PortRange('12000-15000')`, the class attribute `portrange` of `test_config`. -/
def default : PortRange := ⟨12000, 15000, by decide, by decide⟩

/-- The bounds check of `PortRange.__init__`. -/
def mk? (minp maxp : Int) : Option PortRange :=
  if h : absMinp ≤ minp ∧ maxp ≤ absMaxp then some ⟨minp, maxp, h.1, h.2⟩ else none

/-- `PortRange(s)`; `none` is an exception: a part is missing or is no number,
or a bound is beyond the limits. -/
def ofString (s : String) : Option PortRange :=
  match splitOnce '-' s with
  | (_, none) => none
  | (lo, some hi) => match pyInt lo, pyInt hi with
    | some minp, some maxp => mk? minp maxp
    | _, _ => none

/-- The port one iteration of `gennotinrange` looks at. -/
def candidate (r : Draw) : Int := 2 * (1 + r.scale 32765)

/-- What `gennotinrange` asks of a port before returning it. -/
def accepts (pr : PortRange) (portn : Int) : Bool :=
  (absMinp ≤ portn && portn ≤ absMaxp) && (portn < pr.minp || pr.maxp < portn)

/-- `gennotinrange`, over the draws to come. -/
def gennotinrange (pr : PortRange) : List Draw → Option (Int × List Draw)
  | [] => none
  | r :: rs =>
    if candidate r = ctlPortn then gennotinrange pr rs
    else if pr.accepts (candidate r) then some (candidate r, rs)
    else gennotinrange pr rs

/-- `isinrange`. -/
def isinrange (pr : PortRange) (portn : Int) : Bool :=
  if portn < pr.minp ∨ pr.maxp < portn then false else true

/-- Whatever the draws, a generated port passed the loop's tests. -/
theorem accepts_of_gennotinrange {pr : PortRange} {draws rest : List Draw} {portn : Int}
    (h : pr.gennotinrange draws = some (portn, rest)) :
    portn ≠ ctlPortn ∧ pr.accepts portn = true := by
  induction draws with
  | nil => contradiction
  | cons r rs ih =>
      rw [gennotinrange] at h
      split at h
      · exact ih h
      · next hctl =>
        split at h
        · next hacc =>
          cases h
          exact ⟨hctl, hacc⟩
        · exact ih h

/-- **A generated port is never in range.** -/
theorem not_isinrange_of_gennotinrange {pr : PortRange} {draws rest : List Draw} {portn : Int}
    (h : pr.gennotinrange draws = some (portn, rest)) : pr.isinrange portn = false := by
  have hacc := (accepts_of_gennotinrange h).2
  simp only [accepts, Bool.and_eq_true, Bool.or_eq_true, decide_eq_true_eq] at hacc
  rw [isinrange, if_pos hacc.2]

/-- One iteration of `gennotinrange`. -/
def use (pr : PortRange) (r : Draw) : Option Int :=
  if candidate r ≠ ctlPortn ∧ pr.accepts (candidate r) = true then some (candidate r) else none

theorem gennotinrange_eq (pr : PortRange) (draws : List Draw) :
    pr.gennotinrange draws = Supply.retry pr.use draws := by
  induction draws with
  | nil => rfl
  | cons r rs ih =>
      rw [gennotinrange, Supply.retry, use, ← ih]
      by_cases hctl : candidate r = ctlPortn
      · simp [hctl]
      · by_cases hacc : pr.accepts (candidate r) = true <;> simp [hctl, hacc]

/-- The range leaves a port that `gennotinrange` can come upon. -/
def Leaves (pr : PortRange) : Prop := ∃ r portn, pr.use r = some portn

/-- `gennotinrange` finishes. -/
theorem fair_gennotinrange {pr : PortRange} (h : pr.Leaves) : Supply.Fair pr.gennotinrange := by
  obtain ⟨r, portn, hr⟩ := h
  rw [show pr.gennotinrange = Supply.retry pr.use from funext pr.gennotinrange_eq]
  exact .retry hr

/-- When it has come upon a port, there was one. -/
theorem leaves_of_gennotinrange {pr : PortRange} {draws rest : List Draw} {portn : Int}
    (h : pr.gennotinrange draws = some (portn, rest)) : pr.Leaves := by
  rw [gennotinrange_eq] at h
  obtain ⟨r, -, hr⟩ := Supply.exists_of_retry h
  exact ⟨r, portn, hr⟩

/-! ## which ranges leave a port -/

/-- The ports `gennotinrange` looks at: the even ones from 2 to 65530. -/
theorem exists_candidate_iff (portn : Int) :
    (∃ r, candidate r = portn) ↔ Even portn ∧ 2 ≤ portn ∧ portn ≤ 65530 := by
  constructor
  · rintro ⟨r, rfl⟩
    have hlo : 0 ≤ r.scale 32765 := Int.floor_nonneg.mpr (mul_nonneg (by norm_num) r.nonneg)
    have hhi : r.scale 32765 < 32765 := by
      refine Int.floor_lt.mpr ?_
      have hlt := r.lt_one
      push_cast
      linarith
    rw [candidate]
    exact ⟨even_two_mul _, by omega, by omega⟩
  · rintro ⟨⟨k, rfl⟩, hlo, hhi⟩
    -- The draw that comes to the `k`-th even port.
    have hk₁ : (1 : ℚ) ≤ k := by exact_mod_cast (by omega : (1 : Int) ≤ k)
    have hk₂ : (k : ℚ) ≤ 32765 := by exact_mod_cast (by omega : k ≤ (32765 : Int))
    refine ⟨⟨(k - 1) / 32765, by linarith, by linarith⟩, ?_⟩
    have hscale : ((32765 : Nat) : ℚ) * ((k - 1) / 32765) = ((k - 1 : Int) : ℚ) := by
      push_cast
      ring
    rw [candidate, Draw.scale, hscale, Int.floor_intCast]
    ring

/-- The ports `gennotinrange` can return. -/
theorem exists_use_iff (pr : PortRange) (portn : Int) : (∃ r, pr.use r = some portn) ↔
    (Even portn ∧ 2 ≤ portn ∧ portn ≤ 65530) ∧ absMinp ≤ portn ∧
      (portn < pr.minp ∨ pr.maxp < portn) ∧ portn ≠ ctlPortn := by
  rw [← exists_candidate_iff]
  constructor
  · rintro ⟨r, hr⟩
    rw [use, Option.ite_none_right_eq_some] at hr
    obtain ⟨⟨hctl, hacc⟩, hport⟩ := hr
    rw [Option.some.injEq] at hport
    subst hport
    simp only [accepts, Bool.and_eq_true, Bool.or_eq_true, decide_eq_true_eq] at hacc
    exact ⟨⟨r, rfl⟩, hacc.1.1, hacc.2, hctl⟩
  · rintro ⟨⟨r, rfl⟩, hmin, hout, hctl⟩
    have hmax : candidate r ≤ absMaxp := by
      have hle := ((exists_candidate_iff (candidate r)).mp ⟨r, rfl⟩).2.2
      exact hle.trans (by decide)
    refine ⟨r, if_pos ⟨hctl, ?_⟩⟩
    simp only [accepts, Bool.and_eq_true, Bool.or_eq_true, decide_eq_true_eq]
    exact ⟨⟨hmin, hmax⟩, hout⟩

/-- The range has to leave the first or the last port there is. -/
theorem leaves_iff (pr : PortRange) : pr.Leaves ↔ absMinp < pr.minp ∨ pr.maxp < 65530 := by
  have hleaves : pr.Leaves ↔ ∃ portn, ∃ r, pr.use r = some portn := exists_comm
  simp only [hleaves, exists_use_iff]
  constructor
  · rintro ⟨portn, ⟨-, -, hhi⟩, hmin, hout | hout, -⟩
    · exact .inl (by omega)
    · exact .inr (by omega)
  · rintro (h | h)
    · exact ⟨absMinp, by decide, le_rfl, .inl h, by decide⟩
    · exact ⟨65530, by decide, by decide, .inr h, by decide⟩

/-- **When the port generator can finish**: for every range the constructor
accepts, some draw makes an iteration of `gennotinrange` return, some port fits
every test of the loop, and the loop ends on some sequence of draws, exactly if
the range does not reach from the first port to the last one. -/
theorem gennotinrange_returns_iff (s : String) : ∀ pr ∈ ofString s,
    ((∃ r portn, pr.use r = some portn) ∧
      (∃ portn, Even portn ∧ 2 ≤ portn ∧ portn ≤ 65530 ∧ absMinp ≤ portn ∧
        (portn < pr.minp ∨ pr.maxp < portn) ∧ portn ≠ ctlPortn) ∧
      ∃ draws portn rest, pr.gennotinrange draws = some (portn, rest)) ↔
    absMinp < pr.minp ∨ pr.maxp < 65530 := by
  intro pr _
  rw [← leaves_iff]
  constructor
  · exact fun h => h.1
  · intro h
    obtain ⟨r, portn, hr⟩ := h
    obtain ⟨⟨heven, hlo, hhi⟩, hrest⟩ := (pr.exists_use_iff portn).mp ⟨r, hr⟩
    obtain ⟨more, portn', rest, hgen⟩ := (fair_gennotinrange ⟨r, portn, hr⟩).suffice []
    exact ⟨⟨r, portn, hr⟩, ⟨portn, heven, hlo, hhi, hrest⟩, more, portn', rest, hgen⟩

/-- A range that leaves nothing is accepted. -/
theorem not_gennotinrange_returns : ¬ ∀ s : String, ∀ pr ∈ ofString s, ∃ r portn, pr.use r = some portn := by
  intro h
  have hacc : (⟨1024, 65535, by decide, by decide⟩ : PortRange) ∈ ofString "1024-65535" := by decide
  have hleaves := (leaves_iff _).mp (h _ _ hacc)
  exact absurd hleaves (by decide)

/-- The default range. -/
theorem gennotinrange_returns_default : ∃ draws portn rest,
    default.gennotinrange draws = some (portn, rest) :=
  ((gennotinrange_returns_iff "12000-15000" _ (by decide)).mpr (.inl (by decide))).2.2

end PortRange

/-! ## random addresses -/

/-- `'%x' % n`. -/
def hex (n : Nat) : String := String.ofList (Nat.toDigits 16 n)

/-- The dotted quad of `genIP`; `none` when the draws have run out. -/
def genIP4 : List Draw → Option (String × List Draw)
  | ra :: rb :: rc :: rd :: rest =>
    let a := 1 + ra.scale 255
    let b := rb.scale 256
    let c := rc.scale 256
    let d := 1 + rd.scale 255
    some (s!"{a}.{b}.{c}.{d}", rest)
  | _ => none

/-- `n` rounds of the loop of `genIP` that builds an IPv6 address. -/
def genIP6 (raddr : String) : Nat → List Draw → Option (String × List Draw)
  | 0, rest => some (raddr, rest)
  | _ + 1, [] => none
  | n + 1, b :: rest =>
    if b.gtHalf then genIP6 (raddr ++ ":" ++ hex 0) n rest
    else match rest with
      | [] => none
      | r :: rest => genIP6 (raddr ++ ":" ++ hex (r.scale 65536).toNat) n rest

/-- `genIP`; `none` is the default argument, which picks the family by a draw. -/
def genIP (atype : Option AType) (draws : List Draw) : Option ((AType × String) × List Draw) :=
  match atype with
  | some .ip4 => (genIP4 draws).map fun (addr, rest) => ((.ip4, addr), rest)
  | some .ip6 => (genIP6 "2001" 7 draws).map fun (addr, rest) => ((.ip6, addr), rest)
  | none => match draws with
    | [] => none
    | r :: rest =>
      if r.gtHalf then (genIP4 rest).map fun (addr, rest) => ((.ip4, addr), rest)
      else (genIP6 "2001" 7 rest).map fun (addr, rest) => ((.ip6, addr), rest)

/-- `genIP` takes no more draws than it needs, and finishes. -/
theorem fair_genIP4 : Supply.Fair genIP4 := by
  have hnext : Supply.Fair (Supply.next : List Draw → Option (Draw × List Draw)) := .next .half
  refine Supply.Fair.congr (fun draws => ?_) <| hnext.bind fun ra => hnext.bind fun rb =>
    hnext.bind fun rc => hnext.bind fun rd =>
      .pure s!"{1 + ra.scale 255}.{rb.scale 256}.{rc.scale 256}.{1 + rd.scale 255}"
  match draws with
  | [] => rfl
  | [_] => rfl
  | [_, _] => rfl
  | [_, _, _] => rfl
  | _ :: _ :: _ :: _ :: _ => rfl

theorem fair_genIP6 (raddr : String) (n : Nat) : Supply.Fair (genIP6 raddr n) := by
  have hnext : Supply.Fair (Supply.next : List Draw → Option (Draw × List Draw)) := .next .half
  induction n generalizing raddr with
  | zero => exact .pure raddr
  | succ n ih =>
      have hword (b : Draw) : Supply.Fair fun draws : List Draw =>
          if b.gtHalf then genIP6 (raddr ++ ":" ++ hex 0) n draws
          else (Supply.next draws).bind fun p =>
            genIP6 (raddr ++ ":" ++ hex (p.1.scale 65536).toNat) n p.2 := by
        by_cases hb : b.gtHalf = true
        · simpa only [hb, if_true] using ih _
        · simp only [if_neg hb]
          exact hnext.bind fun r => ih (raddr ++ ":" ++ hex (r.scale 65536).toNat)
      refine Supply.Fair.congr (fun draws => ?_) (hnext.bind hword)
      cases draws with
      | nil => rfl
      | cons b rest =>
          by_cases hb : b.gtHalf = true
          · simp [genIP6, Supply.next, hb]
          · cases rest <;> simp [genIP6, Supply.next, hb]

theorem fair_genIP (atype : AType) : Supply.Fair (genIP (some atype)) := by
  cases atype with
  | ip4 => exact fair_genIP4.map fun addr => (AType.ip4, addr)
  | ip6 => exact (fair_genIP6 "2001" 7).map fun addr => (AType.ip6, addr)

/-- An address asked for in a family is generated in that family. -/
theorem atype_of_genIP {atype t : AType} {addr : String} {draws rest : List Draw}
    (h : genIP (some atype) draws = some ((t, addr), rest)) : t = atype := by
  cases atype <;>
    · simp only [genIP, Option.map_eq_some_iff, Prod.mk.injEq] at h
      obtain ⟨-, -, ⟨ht, -⟩, -⟩ := h
      exact ht.symm

end VoipTests
