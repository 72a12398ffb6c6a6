import Uavcan.Time
import Mathlib

/-!
# The clock driver for Linux

`adjustUtc` of `uavcan_linux/clock.hpp`. A large adjustment of the system clock reads the time of day, adds the
quotient and the remainder of the adjustment to its two parts, and sets the clock to that. The parts are added
separately, without a carry: only if the remainder leaves the microseconds within a second is the time that is
set a valid one.
-/

namespace Uavcan

inductive ClockAdjustmentMode
  | systemWide
  | perDriverPrivate
  deriving DecidableEq

structure Timeval where
  sec : Int64
  usec : Int64
  deriving DecidableEq

namespace Timeval

/-- The microseconds that a `timeval` denotes. -/
def toUSec (tv : Timeval) : ℤ := tv.sec.toInt * 1000000 + tv.usec.toInt

/-- The microseconds are a part of a second. -/
def WellFormed (tv : Timeval) : Prop := 0 ≤ tv.usec.toInt ∧ tv.usec.toInt < 1000000

end Timeval

/-- The calls that change the clock of the system. -/
inductive ClockCall
  | settimeofday (tv : Timeval)
  | adjtime (tv : Timeval)
  deriving DecidableEq

/-- What the system answers during one adjustment. -/
structure ClockOs where
  gettimeofday : Option Timeval
  succeeds : ClockCall → Bool

structure SystemClock where
  privateAdj : Int64
  gradualAdjLimit : Int64
  adjMode : ClockAdjustmentMode
  stepAdjCnt : UInt64
  gradualAdjCnt : UInt64

namespace SystemClock

/-- The constructor. -/
def init (adjMode : ClockAdjustmentMode) : SystemClock := ⟨0, 4000 * 1000, adjMode, 0, 0⟩

variable (os : ClockOs) (adjustment : Int64) (clock : SystemClock)

/-- What `performStepAdjustment` makes of the time of day. -/
def stepped (tv : Timeval) : Timeval := ⟨tv.sec + adjustment / 1000000, tv.usec + adjustment % 1000000⟩

def performStepAdjustment : Bool × List ClockCall × SystemClock :=
  let clock := { clock with stepAdjCnt := clock.stepAdjCnt + 1 }
  match os.gettimeofday with
  | none => (false, [], clock)
  | some tv =>
    let call := .settimeofday (stepped adjustment tv)
    (os.succeeds call, [call], clock)

def performGradualAdjustment : Bool × List ClockCall × SystemClock :=
  let call := .adjtime ⟨adjustment / 1000000, adjustment % 1000000⟩
  (os.succeeds call, [call], { clock with gradualAdjCnt := clock.gradualAdjCnt + 1 })

/-- The result says whether the adjustment returns; otherwise it throws "Clock adjustment failed". -/
def adjustUtc : Bool × List ClockCall × SystemClock :=
  match clock.adjMode with
  | .perDriverPrivate => (true, [], { clock with privateAdj := clock.privateAdj + adjustment })
  | .systemWide =>
    if DurationBase.getAbs adjustment < clock.gradualAdjLimit then performGradualAdjustment os adjustment clock
    else performStepAdjustment os adjustment clock

/-- The adjustment sets the clock, to a valid time that is the time of day plus the adjustment. -/
def SetsExactly (tv : Timeval) : Prop :=
  ∃ new, (adjustUtc os adjustment clock).2.1 = [.settimeofday new] ∧ new.WellFormed ∧
    new.toUSec = tv.toUSec + adjustment.toInt

/-- No carry is needed, and the seconds stay in their range. -/
def NoCarry (tv : Timeval) : Prop :=
  (0 ≤ tv.usec.toInt + adjustment.toInt.tmod 1000000 ∧ tv.usec.toInt + adjustment.toInt.tmod 1000000 < 1000000) ∧
    -2 ^ 63 ≤ tv.sec.toInt + adjustment.toInt.tdiv 1000000 ∧ tv.sec.toInt + adjustment.toInt.tdiv 1000000 < 2 ^ 63

/-- Quotient and remainder, for `omega`. -/
theorem tmod_bounds (a : ℤ) :
    a.tmod 1000000 + a.tdiv 1000000 * 1000000 = a ∧ -1000000 < a.tmod 1000000 ∧ a.tmod 1000000 < 1000000 :=
  ⟨Int.tmod_add_tdiv_mul a 1000000, Int.lt_tmod_of_pos a (by decide), Int.tmod_lt_of_pos a (by decide)⟩

theorem toInt_div_million : (adjustment / 1000000).toInt = adjustment.toInt.tdiv 1000000 := by
  have low := adjustment.le_toInt
  have high := adjustment.toInt_lt
  have parts := tmod_bounds adjustment.toInt
  rw [Int64.toInt_div, show (1000000 : Int64).toInt = 1000000 from rfl]
  exact Int.bmod_eq_of_le (by omega) (by omega)

theorem toInt_mod_million : (adjustment % 1000000).toInt = adjustment.toInt.tmod 1000000 :=
  Int64.toInt_mod adjustment 1000000

/-- The microseconds are added without a wrap. -/
theorem usec_stepped {tv : Timeval} (valid : tv.WellFormed) :
    (stepped adjustment tv).usec.toInt = tv.usec.toInt + adjustment.toInt.tmod 1000000 := by
  obtain ⟨low, high⟩ := valid
  have parts := tmod_bounds adjustment.toInt
  rw [stepped, Int64.toInt_add, toInt_mod_million]
  exact Int.bmod_eq_of_le (by omega) (by omega)

variable {os adjustment clock}

theorem calls_adjustUtc {tv : Timeval} (mode : clock.adjMode = .systemWide)
    (step : ¬DurationBase.getAbs adjustment < clock.gradualAdjLimit) (now : os.gettimeofday = some tv) :
    (adjustUtc os adjustment clock).2.1 = [.settimeofday (stepped adjustment tv)] := by
  simp only [adjustUtc, mode, if_neg step, performStepAdjustment, now]

/-- A step sets the clock exactly if and only if the parts can be added without a carry. -/
theorem step_exact_iff {tv : Timeval} (mode : clock.adjMode = .systemWide)
    (step : ¬DurationBase.getAbs adjustment < clock.gradualAdjLimit) (now : os.gettimeofday = some tv)
    (valid : tv.WellFormed) :
    SetsExactly os adjustment clock tv ↔ NoCarry adjustment tv := by
  have usec := usec_stepped adjustment valid
  have parts := tmod_bounds adjustment.toInt
  have sec : (stepped adjustment tv).sec.toInt =
      (tv.sec.toInt + adjustment.toInt.tdiv 1000000).bmod (2 ^ 64) := by
    rw [stepped, Int64.toInt_add, toInt_div_million]
  rw [SetsExactly, calls_adjustUtc mode step now, NoCarry]
  constructor
  · rintro ⟨new, called, ⟨low, high⟩, exact⟩
    cases called
    rw [usec] at low high
    refine ⟨⟨low, high⟩, ?_⟩
    have range := (stepped adjustment tv).sec.le_toInt
    have range' := (stepped adjustment tv).sec.toInt_lt
    simp only [Timeval.toUSec, usec] at exact
    omega
  · rintro ⟨inside, low, high⟩
    refine ⟨_, rfl, by rwa [Timeval.WellFormed, usec], ?_⟩
    rw [Int.bmod_eq_of_le (by omega) (by omega)] at sec
    simp only [Timeval.toUSec, usec, sec]
    omega

/-- Half a second before the end of a second, and an adjustment by four and a half seconds. -/
def lateInSecond : ClockOs := ⟨some ⟨100, 900000⟩, fun _ => true⟩

/-- The microseconds passed to `settimeofday` are 1400000. -/
theorem step_not_well_formed :
    (adjustUtc lateInSecond 4500000 (init .systemWide)).2.1 = [.settimeofday ⟨104, 1400000⟩] ∧
      ¬(⟨104, 1400000⟩ : Timeval).WellFormed := by
  refine ⟨by decide, fun valid => ?_⟩
  exact absurd valid.2 (by decide)

theorem step_exact_ten_seconds :
    SetsExactly lateInSecond 10000000 (init .systemWide) ⟨100, 900000⟩ ↔ NoCarry 10000000 ⟨100, 900000⟩ :=
  step_exact_iff rfl (by decide) rfl ⟨by decide, by decide⟩

end SystemClock

end Uavcan
