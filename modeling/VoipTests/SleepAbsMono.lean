import Mathlib.Algebra.Order.Floor.Ring
import Mathlib.Data.Rat.Floor
import Mathlib.Tactic.FieldSimp
import Mathlib.Tactic.Linarith

/-!
# VoipTests.SleepAbsMono

`sleep_abs_mono`: waiting for an instant of the monotonic clock, by
`clock_nanosleep` where there is one and by `time.sleep` elsewhere.

Floats are rationals.  Time passes only while a call waits, and a call waits as
long as it is asked to unless a signal comes in time.  `sleeps_until_iff` says
for which deadlines the two paths do the same.
-/

namespace VoipTests

/-! ## the timespec -/

/-- `int(x)` of a float. -/
def pyTrunc (x : ℚ) : Int := if 0 ≤ x then ⌊x⌋ else ⌈x⌉

/-- What is left of an `int` in a `c_long` of 64 bits. -/
def cLong (n : Int) : Int := Int.bmod n (2 ^ 64)

/-- `_timespec` -/
structure Timespec where
  tvSec : Int
  tvNsec : Int
  deriving DecidableEq, Repr

namespace Timespec

/-- `_timespec(sec, nsec)` -/
def ofInt (sec nsec : Int) : Timespec := ⟨cLong sec, cLong nsec⟩

/-- The nanoseconds are less than a second. -/
def Normalised (t : Timespec) : Prop := 0 ≤ t.tvNsec ∧ t.tvNsec < 1000000000

/-- `clock_nanosleep` takes it. -/
def Valid (t : Timespec) : Prop := 0 ≤ t.tvSec ∧ t.Normalised

/-- The instant, in nanoseconds. -/
def nanos (t : Timespec) : Int := t.tvSec * 1000000000 + t.tvNsec

/-- The instant, in seconds. -/
def time (t : Timespec) : ℚ := t.nanos / 1000000000

instance (t : Timespec) : Decidable t.Normalised :=
  inferInstanceAs (Decidable (0 ≤ t.tvNsec ∧ t.tvNsec < 1000000000))

instance (t : Timespec) : Decidable t.Valid :=
  inferInstanceAs (Decidable (0 ≤ t.tvSec ∧ t.Normalised))

end Timespec

/-- The timespec of a deadline. -/
def rqtp (deadline : ℚ) : Timespec :=
  let sec := pyTrunc deadline
  let nsec := pyTrunc ((deadline - sec) * 1000000000)
  if 1000000000 ≤ nsec then .ofInt (sec + 1) (nsec - 1000000000) else .ofInt sec nsec

/-! ## waiting -/

/-- What `clock_nanosleep` returns. -/
inductive Errno where
  | success
  | eintr
  | einval
  deriving DecidableEq, Repr

/-- How a wait ends, and when. -/
inductive Waited where
  | returned (now : ℚ)
  | osError (err : Errno)
  | valueError
  | overflowError
  deriving DecidableEq

/-- `clock_nanosleep(CLOCK_MONOTONIC, TIMER_ABSTIME, ...)` at the time `now`, and
the time afterwards.  The signal interrupts it that comes while it waits. -/
def clockNanosleep (t : Timespec) (now : ℚ) (signal : Option ℚ) : Errno × ℚ :=
  if ¬ t.Valid then (.einval, now)
  else if t.time ≤ now then (.success, now)
  else match signal with
    | none => (.success, t.time)
    | some s => if now ≤ s ∧ s < t.time then (.eintr, s) else (.success, t.time)

/-- What follows a call that has not been interrupted. -/
def waited : Errno × ℚ → Waited
  | (.success, now) => .returned now
  | (err, _) => .osError err

/-- The loop around `clock_nanosleep`; each call meets the next of the signals. -/
def sleepLoop (t : Timespec) (now : ℚ) : List ℚ → Waited
  | [] => waited (clockNanosleep t now none)
  | s :: signals => match clockNanosleep t now (some s) with
    | (.eintr, now) => sleepLoop t now signals
    | r => waited r

/-- `time.sleep(secs)`: it goes on after a signal, and takes what fits into 64
bits of nanoseconds. -/
def pySleep (secs now : ℚ) : Waited :=
  if secs < 0 then .valueError
  else if 2 ^ 63 - 1 < secs * 1000000000 then .overflowError
  else .returned (now + secs)

/-- `sleep_abs_mono`, at the time `now`; `nanosleep` says whether there is a
`clock_nanosleep`. -/
def sleepAbsMono (nanosleep : Bool) (deadline now : ℚ) (signals : List ℚ) : Waited :=
  if nanosleep then sleepLoop (rqtp deadline) now signals
  else
    let rem := deadline - now
    if rem ≤ 0 then .returned now else pySleep rem now

/-! ## the deadline in nanoseconds -/

theorem pyTrunc_of_nonneg {x : ℚ} (h : 0 ≤ x) : pyTrunc x = ⌊x⌋ := if_pos h

theorem cLong_eq_iff {n : Int} (h : 0 ≤ n) : cLong n = n ↔ n < 2 ^ 63 := by
  rw [cLong, Int.bmod_eq_iff (by decide)]
  omega

/-- The nanoseconds of a deadline that is not negative, after the whole seconds. -/
theorem nsec_bounds (deadline : ℚ) : 0 ≤ (deadline - ⌊deadline⌋) * 1000000000 ∧
    (deadline - ⌊deadline⌋) * 1000000000 < 1000000000 := by
  have hlo := Int.floor_le deadline
  have hhi := Int.lt_floor_add_one deadline
  constructor
  · nlinarith
  · nlinarith

/-- No carry is ever needed. -/
theorem rqtp_of_nonneg {deadline : ℚ} (h : 0 ≤ deadline) :
    rqtp deadline = ⟨cLong ⌊deadline⌋, ⌊(deadline - ⌊deadline⌋) * 1000000000⌋⟩ := by
  obtain ⟨hlo, hhi⟩ := nsec_bounds deadline
  have hn₁ : 0 ≤ ⌊(deadline - ⌊deadline⌋) * 1000000000⌋ := Int.floor_nonneg.mpr hlo
  have hn₂ : ⌊(deadline - ⌊deadline⌋) * 1000000000⌋ < 1000000000 := Int.floor_lt.mpr (by exact_mod_cast hhi)
  rw [rqtp, pyTrunc_of_nonneg h, pyTrunc_of_nonneg hlo, if_neg (by omega), Timespec.ofInt,
    (cLong_eq_iff hn₁).mpr (by omega)]

/-- **The timespec is the deadline, rounded down to a nanosecond.** -/
theorem nanos_rqtp {deadline : ℚ} (h : 0 ≤ deadline) :
    (rqtp deadline).Normalised ∧
      ((rqtp deadline).nanos = ⌊deadline * 1000000000⌋ ↔ deadline < 2 ^ 63) := by
  obtain ⟨hlo, hhi⟩ := nsec_bounds deadline
  rw [rqtp_of_nonneg h]
  have hfloor : ⌊deadline * 1000000000⌋ =
      ⌊deadline⌋ * 1000000000 + ⌊(deadline - ⌊deadline⌋) * 1000000000⌋ := by
    rw [← Int.floor_intCast_add]
    congr 1
    push_cast
    ring
  refine ⟨⟨Int.floor_nonneg.mpr hlo, Int.floor_lt.mpr (by exact_mod_cast hhi)⟩, ?_⟩
  have hsec : deadline < 2 ^ 63 ↔ ⌊deadline⌋ < 2 ^ 63 := by
    rw [Int.floor_lt]
    norm_num
  rw [hsec, ← cLong_eq_iff (Int.floor_nonneg.mpr h), hfloor, Timespec.nanos]
  constructor
  · intro heq
    dsimp only at heq
    omega
  · intro heq
    rw [heq]

/-! ## both paths -/

/-- **The loop ends** when the instant has come, however often it is interrupted. -/
theorem sleepLoop_of_valid {t : Timespec} (h : t.Valid) (now : ℚ) (signals : List ℚ) :
    sleepLoop t now signals = .returned (max now t.time) := by
  have hcall (now : ℚ) : waited (clockNanosleep t now none) = .returned (max now t.time) := by
    rw [clockNanosleep, if_neg (not_not.mpr h)]
    split
    · next hle => rw [max_eq_left hle, waited]
    · next hlt => rw [max_eq_right (le_of_not_ge hlt), waited]
  induction signals generalizing now with
  | nil => exact hcall now
  | cons s signals ih =>
      rw [← hcall now, sleepLoop, clockNanosleep, clockNanosleep, if_neg (not_not.mpr h),
        if_neg (not_not.mpr h)]
      by_cases hle : t.time ≤ now
      · rw [if_pos hle, if_pos hle]
      · rw [if_neg hle, if_neg hle]
        split
        · next hs heq =>
          -- The signal comes in time: the next call waits for the same instant.
          split at heq
          · next hin =>
            cases heq
            rw [ih, max_eq_right hin.2.le, waited]
          · cases heq
        · next hne =>
          split at hne
          · next hin => exact (hne s rfl).elim
          · next hin => rw [if_neg hin]

theorem sleepLoop_of_not_valid {t : Timespec} (h : ¬ t.Valid) (now : ℚ) (signals : List ℚ) :
    sleepLoop t now signals = .osError .einval := by
  cases signals <;> rw [sleepLoop, clockNanosleep, if_pos h] <;> rfl

/-- The path without `clock_nanosleep`. -/
theorem sleepAbsMono_fallback_iff (deadline now : ℚ) (signals : List ℚ) :
    sleepAbsMono false deadline now signals = .returned (max now deadline) ↔
      (deadline - now) * 1000000000 ≤ 2 ^ 63 - 1 := by
  rw [sleepAbsMono, if_neg Bool.false_ne_true]
  dsimp only
  by_cases hpast : deadline - now ≤ 0
  · rw [if_pos hpast, max_eq_left (by linarith)]
    simp only [true_iff]
    linarith
  · rw [if_neg hpast, pySleep, if_neg (by linarith), max_eq_right (by linarith)]
    by_cases hlong : 2 ^ 63 - 1 < (deadline - now) * 1000000000
    · rw [if_pos hlong]
      simpa using hlong
    · rw [if_neg hlong]
      simpa using hlong

/-- The wait is the same on both paths: the timespec is normalised and is the
deadline rounded down, neither path raises, the wait ends at the deadline
however often it is interrupted, and at once if it has passed. -/
structure SleepsUntil (deadline now : ℚ) : Prop where
  normalised : (rqtp deadline).Normalised
  nanos : (rqtp deadline).nanos = ⌊deadline * 1000000000⌋
  loop : ∀ signals, sleepAbsMono true deadline now signals =
    .returned (max now (⌊deadline * 1000000000⌋ / 1000000000))
  sleep : ∀ signals, sleepAbsMono false deadline now signals = .returned (max now deadline)
  past : deadline ≤ now → ∀ nanosleep signals,
    sleepAbsMono nanosleep deadline now signals = .returned now

/-- **When the two paths do the same**: exactly if the deadline is not negative,
its seconds fit into a `c_long`, and the time to wait into what `time.sleep`
takes. -/
theorem sleeps_until_iff (deadline now : ℚ) : SleepsUntil deadline now ↔
    0 ≤ deadline ∧ deadline < 2 ^ 63 ∧ (deadline - now) * 1000000000 ≤ 2 ^ 63 - 1 := by
  constructor
  · rintro ⟨hnorm, hnanos, hloop, hsleep, -⟩
    have hvalid : (rqtp deadline).Valid := by
      by_contra hn
      have hraise := hloop []
      rw [sleepAbsMono, if_pos rfl, sleepLoop_of_not_valid hn] at hraise
      cases hraise
    have hpos : 0 ≤ ⌊deadline * 1000000000⌋ := by
      rw [← hnanos, Timespec.nanos]
      have hsec := hvalid.1
      have hnsec := hnorm.1
      omega
    have hdeadline : 0 ≤ deadline := by
      have hle := Int.floor_nonneg.mp hpos
      linarith
    exact ⟨hdeadline, (nanos_rqtp hdeadline).2.mp hnanos,
      (sleepAbsMono_fallback_iff deadline now []).mp (hsleep [])⟩
  · rintro ⟨hdeadline, hlong, hwait⟩
    obtain ⟨hnorm, hiff⟩ := nanos_rqtp hdeadline
    have hnanos := hiff.mpr hlong
    have hsec : 0 ≤ (rqtp deadline).tvSec := by
      have hfloor : ⌊deadline⌋ < 2 ^ 63 := Int.floor_lt.mpr (by exact_mod_cast hlong)
      rw [rqtp_of_nonneg hdeadline, (cLong_eq_iff (Int.floor_nonneg.mpr hdeadline)).mpr hfloor]
      exact Int.floor_nonneg.mpr hdeadline
    have hloop (signals : List ℚ) : sleepAbsMono true deadline now signals =
        .returned (max now (⌊deadline * 1000000000⌋ / 1000000000)) := by
      rw [sleepAbsMono, if_pos rfl, sleepLoop_of_valid ⟨hsec, hnorm⟩, Timespec.time, hnanos]
    have hsleep (signals : List ℚ) := (sleepAbsMono_fallback_iff deadline now signals).mpr hwait
    refine ⟨hnorm, hnanos, hloop, hsleep, fun hpast nanosleep signals => ?_⟩
    cases nanosleep with
    | false => rw [hsleep, max_eq_left hpast]
    | true =>
        have hround : (⌊deadline * 1000000000⌋ / 1000000000 : ℚ) ≤ deadline := by
          have hle := Int.floor_le (deadline * 1000000000)
          rw [div_le_iff₀ (by norm_num)]
          exact hle
        rw [hloop, max_eq_left (hround.trans hpast)]

/-- Half a second before the clock's zero: the nanoseconds are negative, and
`clock_nanosleep` refuses them. -/
theorem not_sleeps_until : ¬ ∀ deadline now : ℚ, SleepsUntil deadline now := by
  intro h
  have hnsec : (rqtp (-1 / 2)).tvNsec = -500000000 := by decide +kernel
  have hlo := (h (-1 / 2) 100).normalised.1
  omega

end VoipTests
