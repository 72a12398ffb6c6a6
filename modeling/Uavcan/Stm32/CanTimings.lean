import Mathlib.Order.Bounds.Basic
import Mathlib.Tactic.IntervalCases

/-!
# The bit timing of the STM32 driver

`CanIface::computeTimings` looks for the largest number of quanta per bit that divides the clock periods per bit,
and splits it into two segments. The clock periods per bit are rounded down before: if they still divide the
clock into another bit rate, the final check ends in the internal error. With three or four quanta per bit the
first of the two splits leaves no second segment, which an assertion forbids.
-/

namespace Uavcan

namespace CanIface

structure Timings where
  prescaler : ℕ
  sjw : ℕ
  bs1 : ℕ
  bs2 : ℕ
  deriving DecidableEq

inductive TimingsResult
  | ok (timings : Timings)
  | errInvalidBitRate
  | errLogic
  deriving DecidableEq

def maxBS1 : ℕ := 16

def maxBS2 : ℕ := 8

def maxSamplePointLocation : ℕ := 900

def maxQuantaPerBit (targetBitrate : ℕ) : ℕ := if targetBitrate ≥ 1000000 then 10 else 17

/-- The search for the number of quanta per bit, less one; it counts down. -/
def searchSum (prescalerBs : ℕ) : ℕ → Option ℕ
  | 0 => none
  | sum + 1 =>
    if prescalerBs % (1 + (sum + 1)) = 0 then some (sum + 1)
    else if sum + 1 ≤ 2 then none
    else searchSum prescalerBs sum

structure BsPair where
  bs1 : ℕ
  bs2 : ℕ
  samplePointPermill : ℕ
  deriving DecidableEq

namespace BsPair

/-- The constructor; its assertion is that `bs1` is below the sum. -/
def init (sum bs1 : ℕ) : BsPair := ⟨bs1, sum - bs1, 1000 * (1 + bs1) / (1 + bs1 + (sum - bs1))⟩

def isValid (s : BsPair) : Bool := s.bs1 ≥ 1 && s.bs1 ≤ maxBS1 && s.bs2 ≥ 1 && s.bs2 ≤ maxBS2

end BsPair

/-- The solution, and whether the assertions of the constructors hold. -/
def solve (sum : ℕ) : BsPair × Bool :=
  let nearest := (7 * sum - 1 + 4) / 8
  let solution := BsPair.init sum nearest
  if solution.samplePointPermill > maxSamplePointLocation then
    let down := (7 * sum - 1) / 8
    (BsPair.init sum down, sum > nearest && sum > down)
  else (solution, sum > nearest)

/-- The result, and whether the assertions hold on the way to it. -/
def computeTimings (pclk targetBitrate : ℕ) : TimingsResult × Bool :=
  if targetBitrate < 1 then (.errInvalidBitRate, true)
  else
    let prescalerBs := pclk / targetBitrate
    match searchSum prescalerBs (maxQuantaPerBit targetBitrate - 1) with
    | none => (.errInvalidBitRate, true)
    | some sum =>
      let prescaler := prescalerBs / (1 + sum)
      if prescaler < 1 ∨ prescaler > 1024 then (.errInvalidBitRate, true)
      else
        let (solution, asserted) := solve sum
        if targetBitrate ≠ pclk / (prescaler * (1 + solution.bs1 + solution.bs2)) ∨ !solution.isValid then
          (.errLogic, false)
        else (.ok ⟨prescaler - 1, 0, solution.bs1 - 1, solution.bs2 - 1⟩, asserted)

/-- The registers are within their fields, give the bit rate, and sample at ninety percent at the latest. -/
def Timings.Correct (t : Timings) (pclk targetBitrate : ℕ) : Prop :=
  t.prescaler ≤ 1023 ∧ t.bs1 ≤ 15 ∧ t.bs2 ≤ 7 ∧
    pclk / ((t.prescaler + 1) * (3 + t.bs1 + t.bs2)) = targetBitrate ∧
    1000 * (2 + t.bs1) ≤ 900 * (3 + t.bs1 + t.bs2)

/-- The bit rate is refused, or the timings are right; no assertion fails. -/
def Computes (pclk targetBitrate : ℕ) : Prop :=
  (computeTimings pclk targetBitrate).2 = true ∧
    ((computeTimings pclk targetBitrate).1 = .errInvalidBitRate ∨
      ∃ t, (computeTimings pclk targetBitrate).1 = .ok t ∧ t.Correct pclk targetBitrate)

/-- The numbers of quanta, from three to the limit, that divide the clock periods of a bit. -/
def Divisors (limit prescalerBs : ℕ) : Set ℕ := {quanta | 3 ≤ quanta ∧ quanta ≤ limit ∧ quanta ∣ prescalerBs}

/-- The largest number of quanta that divides the clock periods of a bit, if it leaves a prescaler in range. -/
def QuantaPerBit (pclk targetBitrate quanta : ℕ) : Prop :=
  IsGreatest (Divisors (maxQuantaPerBit targetBitrate) (pclk / targetBitrate)) quanta ∧
    1 ≤ pclk / targetBitrate / quanta ∧ pclk / targetBitrate / quanta ≤ 1024

/-- The search gives the largest divisor, and nothing only if there is none. -/
theorem searchSum_spec (prescalerBs : ℕ) {start : ℕ} (enough : 2 ≤ start) :
    match searchSum prescalerBs start with
    | none => ∀ quanta, quanta ∉ Divisors (1 + start) prescalerBs
    | some sum => IsGreatest (Divisors (1 + start) prescalerBs) (1 + sum) := by
  induction start with
  | zero => omega
  | succ start ih =>
    unfold searchSum
    by_cases divides : prescalerBs % (1 + (start + 1)) = 0
    · rw [if_pos divides]
      exact ⟨⟨by omega, Nat.le_refl _, Nat.dvd_of_mod_eq_zero divides⟩, fun _ inside => inside.2.1⟩
    · -- the first candidate does not divide, so that the divisors are those below it
      have below : Divisors (1 + (start + 1)) prescalerBs = Divisors (1 + start) prescalerBs := by
        refine Set.ext fun quanta => and_congr_right fun _ => and_congr_left fun dvd => ?_
        have : quanta ≠ 1 + (start + 1) := fun same => divides (Nat.mod_eq_zero_of_dvd (same ▸ dvd))
        omega
      rw [if_neg divides, below]
      by_cases least : start + 1 ≤ 2
      · rw [if_pos least]
        rintro quanta ⟨low, high, -⟩
        omega
      · rw [if_neg least]
        exact ih (by omega)

/-- The chosen pair: its parts add up, it is valid, and the assertion holds from five quanta on. -/
theorem solve_spec {sum : ℕ} (low : 2 ≤ sum) (high : sum ≤ 16) :
    (solve sum).1.isValid = true ∧ (solve sum).1.bs1 + (solve sum).1.bs2 = sum ∧
      1000 * (1 + (solve sum).1.bs1) ≤ 900 * (1 + sum) ∧ ((solve sum).2 = true ↔ 4 ≤ sum) := by
  interval_cases sum <;> decide

theorem maxQuantaPerBit_bounds (targetBitrate : ℕ) :
    2 ≤ maxQuantaPerBit targetBitrate - 1 ∧ 1 + (maxQuantaPerBit targetBitrate - 1) = maxQuantaPerBit targetBitrate ∧
      maxQuantaPerBit targetBitrate ≤ 17 := by
  unfold maxQuantaPerBit
  split <;> decide

/-- The bit rate is refused if there is no number of quanta; otherwise the last check decides. -/
theorem computeTimings_cases {pclk targetBitrate : ℕ} (positive : 1 ≤ targetBitrate) :
    (∀ quanta, ¬QuantaPerBit pclk targetBitrate quanta) ∧
        computeTimings pclk targetBitrate = (.errInvalidBitRate, true) ∨
      ∃ sum, QuantaPerBit pclk targetBitrate (1 + sum) ∧ computeTimings pclk targetBitrate =
        if targetBitrate = pclk / (pclk / targetBitrate) then
          (.ok ⟨pclk / targetBitrate / (1 + sum) - 1, 0, (solve sum).1.bs1 - 1, (solve sum).1.bs2 - 1⟩, (solve sum).2)
        else (.errLogic, false) := by
  obtain ⟨enough, top, limit⟩ := maxQuantaPerBit_bounds targetBitrate
  have search := searchSum_spec (pclk / targetBitrate) enough
  rw [top] at search
  simp only [computeTimings, if_neg (Nat.not_lt.mpr positive)]
  cases found : searchSum (pclk / targetBitrate) (maxQuantaPerBit targetBitrate - 1) with
  | none =>
    rw [found] at search
    exact .inl ⟨fun quanta greatest => search quanta greatest.1.1, rfl⟩
  | some sum =>
    rw [found] at search
    obtain ⟨low, high, divides⟩ := search.1
    obtain ⟨valid, parts, -, -⟩ := solve_spec (show 2 ≤ sum by omega) (by omega)
    by_cases inside : 1 ≤ pclk / targetBitrate / (1 + sum) ∧ pclk / targetBitrate / (1 + sum) ≤ 1024
    · refine .inr ⟨sum, ⟨search, inside⟩, ?_⟩
      dsimp only
      rw [if_neg (by omega), Nat.add_assoc, parts, Nat.div_mul_cancel divides, valid]
      by_cases exact : targetBitrate = pclk / (pclk / targetBitrate)
      · rw [if_pos exact, if_neg (by simpa using exact)]
      · rw [if_neg exact, if_pos (.inl exact)]
    · refine .inl ⟨fun quanta chosen => inside ?_, if_pos (by omega)⟩
      exact search.unique chosen.1 ▸ chosen.2

/-- The timings are right unless the clock periods of a bit were rounded, or three or four is their largest divisor
up to the limit; the limit is ten from 1 Mbit/s on, seventeen below. -/
theorem computes_iff {pclk targetBitrate : ℕ} (positive : 1 ≤ targetBitrate) :
    Computes pclk targetBitrate ↔ ∀ quanta, QuantaPerBit pclk targetBitrate quanta →
      5 ≤ quanta ∧ pclk / (pclk / targetBitrate) = targetBitrate := by
  unfold Computes
  obtain ⟨missing, result⟩ | ⟨sum, found, result⟩ := @computeTimings_cases pclk _ positive
  · simp [result, missing]
  · have unique : ∀ quanta, QuantaPerBit pclk targetBitrate quanta → 1 + sum = quanta := fun _ chosen =>
      found.1.unique chosen.1
    obtain ⟨⟨⟨low, high, divides⟩, -⟩, low', high'⟩ := id found
    obtain ⟨-, -, limit⟩ := maxQuantaPerBit_bounds targetBitrate
    obtain ⟨valid, parts, sample, asserted⟩ := solve_spec (show 2 ≤ sum by omega) (by omega)
    simp only [BsPair.isValid, Bool.and_eq_true, decide_eq_true_eq] at valid
    obtain ⟨⟨⟨first, -⟩, second⟩, bound⟩ := valid
    have bound : (solve sum).1.bs2 ≤ 8 := bound
    rw [result]
    by_cases exact : targetBitrate = pclk / (pclk / targetBitrate)
    · rw [if_pos exact]
      constructor
      · rintro ⟨held, -⟩ quanta chosen
        exact ⟨unique quanta chosen ▸ by have := asserted.mp held; omega, exact.symm⟩
      · intro sound
        refine ⟨asserted.mpr (by have := (sound _ found).1; omega), .inr ⟨_, rfl, ?_⟩⟩
        have period : (pclk / targetBitrate / (1 + sum) - 1 + 1) *
            (3 + ((solve sum).1.bs1 - 1) + ((solve sum).1.bs2 - 1)) = pclk / targetBitrate := by
          rw [Nat.sub_add_cancel low',
            show 3 + ((solve sum).1.bs1 - 1) + ((solve sum).1.bs2 - 1) = 1 + sum by omega,
            Nat.div_mul_cancel divides]
        refine ⟨?_, ?_, ?_, ?_, ?_⟩
        · simp only
          omega
        · simp only
          omega
        · simp only
          omega
        · simp only [period]
          exact exact.symm
        · simp only
          omega
    · rw [if_neg exact]
      constructor
      · rintro ⟨⟨⟩, -⟩
      · intro sound
        exact absurd (sound _ found).2.symm exact

/-- A clock of 36 MHz: for 99999 bit/s the internal error is reached, for 12 Mbit/s the assertion fails. -/
theorem not_computes_stm32 : ¬Computes 36000000 99999 ∧ ¬Computes 36000000 12000000 := by
  constructor
  · rintro ⟨asserted, -⟩
    exact absurd asserted (by decide +kernel)
  · rintro ⟨asserted, -⟩
    exact absurd asserted (by decide +kernel)

theorem computes_one_megabit : Computes 36000000 1000000 := by
  rw [computes_iff (by decide)]
  intro quanta chosen
  have nine : 9 ≤ quanta := chosen.1.2 ⟨by decide, by decide, by decide⟩
  exact ⟨by omega, by decide⟩

end CanIface

end Uavcan
