import Mathlib.Algebra.BigOperators.Fin
import Mathlib.Algebra.Order.BigOperators.Group.Finset
import RecoverAI.Simulation.Strategies

/-!
# The experiment

`run_experiment` plays both strategies over a population, each with a generator of its own from the
same seed. Every payment takes one draw from either generator, so the two stay in step.
-/
namespace RecoverAI

structure StrategyResult where
  strategyName : String
  totalCases : Nat := 0
  recoveredCases : Nat := 0
  totalAmountAtRiskMinor : Int := 0
  recoveredAmountMinor : Int := 0
  totalContacts : Nat := 0
  totalTimeToRecoveryHours : Rat := 0
  actionCounts : List (String × Nat) := []

/-- `counts[key] = counts.get(key, 0) + 1`. -/
def increment (key : String) : List (String × Nat) → List (String × Nat)
  | [] => [(key, 1)]
  | (k, n) :: counts => if k = key then (k, n + 1) :: counts else (k, n) :: increment key counts

/-- One strategy's part of the loop body. -/
def StrategyResult.play (result : StrategyResult) (payment : SimulatedPayment)
    (action : RecoveryActionType) (rng : Rng) : StrategyResult × Rng :=
  let (recovered, rng) := simulateOutcome payment.failureCategory action.value rng
  let result := { result with
    totalCases := result.totalCases + 1
    totalAmountAtRiskMinor := result.totalAmountAtRiskMinor + payment.amountMinor
    actionCounts := increment action.value result.actionCounts
    totalContacts := result.totalContacts + getContactCount action.value }
  if recovered then
    ({ result with
      recoveredCases := result.recoveredCases + 1
      recoveredAmountMinor := result.recoveredAmountMinor + payment.amountMinor
      totalTimeToRecoveryHours :=
        result.totalTimeToRecoveryHours + getTimeToRecoveryHours action.value }, rng)
  else (result, rng)

section

variable [PyText]

/-- The loop of `run_experiment`. -/
def runExperimentLoop : List SimulatedPayment → Rng → Rng → StrategyResult → StrategyResult →
    StrategyResult × StrategyResult
  | [], _, _, baseline, recoverai => (baseline, recoverai)
  | payment :: population, rngBaseline, rngRecoverai, baseline, recoverai =>
    let (baseline, rngBaseline) := baseline.play payment (baselineDecide payment) rngBaseline
    let (recoverai, rngRecoverai) :=
      recoverai.play payment (recoveraiDecide payment none) rngRecoverai
    runExperimentLoop population rngBaseline rngRecoverai baseline recoverai

def runExperiment (population : List SimulatedPayment) (seed : Rng) :
    StrategyResult × StrategyResult :=
  runExperimentLoop population seed seed { strategyName := "Baseline" }
    { strategyName := "RecoverAI" }

end

def calculateIncrementalRecoveredRevenue (baseline recoverai : StrategyResult) : Int :=
  recoverai.recoveredAmountMinor - baseline.recoveredAmountMinor

/-! ## One strategy -/

/-- A strategy played alone. -/
def StrategyResult.playAll (decide : SimulatedPayment → RecoveryActionType) :
    List SimulatedPayment → Rng → StrategyResult → StrategyResult
  | [], _, result => result
  | payment :: population, rng, result =>
    let (result, rng) := result.play payment (decide payment) rng
    playAll decide population rng result

/-- The strategies do not see each other. -/
theorem runExperimentLoop_eq [PyText] (population : List SimulatedPayment)
    (rngBaseline rngRecoverai : Rng) (baseline recoverai : StrategyResult) :
    runExperimentLoop population rngBaseline rngRecoverai baseline recoverai =
      (StrategyResult.playAll baselineDecide population rngBaseline baseline,
        StrategyResult.playAll (recoveraiDecide · none) population rngRecoverai recoverai) := by
  induction population generalizing rngBaseline rngRecoverai baseline recoverai with
  | nil => rfl
  | cons payment population ih => exact ih _ _ _ _

/-- Whether a payment judged with the draw `u` is recovered by an action, as a number. -/
def recovers (payment : SimulatedPayment) (action : RecoveryActionType) (u : Rat) : Int :=
  if u < getRecoveryProbability payment.failureCategory action.value then 1 else 0

section

variable {result : StrategyResult} {payment : SimulatedPayment} {action : RecoveryActionType}
  {rng : Rng}

theorem play_rng : (result.play payment action rng).2 = fun n => rng (n + 1) := by
  unfold StrategyResult.play simulateOutcome
  dsimp only
  split <;> rfl

theorem play_totals : (result.play payment action rng).1.totalCases = result.totalCases + 1 ∧
    (result.play payment action rng).1.totalAmountAtRiskMinor =
      result.totalAmountAtRiskMinor + payment.amountMinor ∧
    (result.play payment action rng).1.actionCounts =
      increment action.value result.actionCounts := by
  unfold StrategyResult.play
  dsimp only
  split <;> exact ⟨rfl, rfl, rfl⟩

theorem play_recovered :
    ((result.play payment action rng).1.recoveredCases : Int) =
      result.recoveredCases + recovers payment action (rng 0) ∧
    (result.play payment action rng).1.recoveredAmountMinor =
      result.recoveredAmountMinor + payment.amountMinor * recovers payment action (rng 0) := by
  unfold StrategyResult.play simulateOutcome recovers
  dsimp only
  by_cases h : rng 0 < getRecoveryProbability payment.failureCategory action.value <;>
    simp [Rng.random, h]

theorem recovers_le_one (u : Rat) :
    0 ≤ recovers payment action u ∧ recovers payment action u ≤ 1 := by
  unfold recovers
  split <;> decide

end

theorem sum_increment (key : String) (counts : List (String × Nat)) :
    ((increment key counts).map Prod.snd).sum = (counts.map Prod.snd).sum + 1 := by
  induction counts with
  | nil => rfl
  | cons entry counts ih =>
    obtain ⟨k, n⟩ := entry
    by_cases same : k = key
    · simp [increment, same]
      omega
    · simp [increment, same, ih]
      omega

/-- What a strategy adds up over a population. -/
structure Tally (decide : SimulatedPayment → RecoveryActionType)
    (population : List SimulatedPayment) (rng : Rng) (before after : StrategyResult) : Prop where
  cases : after.totalCases = before.totalCases + population.length
  atRisk : after.totalAmountAtRiskMinor = before.totalAmountAtRiskMinor +
    ∑ i : Fin population.length, population[i].amountMinor
  actions : (after.actionCounts.map Prod.snd).sum =
    (before.actionCounts.map Prod.snd).sum + population.length
  recoveredCases : (after.recoveredCases : Int) = before.recoveredCases +
    ∑ i : Fin population.length, recovers population[i] (decide population[i]) (rng i)
  recoveredAmount : after.recoveredAmountMinor =
    before.recoveredAmountMinor + ∑ i : Fin population.length,
    population[i].amountMinor * recovers population[i] (decide population[i]) (rng i)

theorem playAll_tally (decide : SimulatedPayment → RecoveryActionType)
    (population : List SimulatedPayment) (rng : Rng) (result : StrategyResult) :
    Tally decide population rng result (StrategyResult.playAll decide population rng result) := by
  induction population generalizing rng result with
  | nil => constructor <;> simp [StrategyResult.playAll]
  | cons payment population ih =>
    obtain ⟨cases, atRisk, counts⟩ := @play_totals result payment (decide payment) rng
    obtain ⟨recovered, amount⟩ := @play_recovered result payment (decide payment) rng
    have rest := ih (result.play payment (decide payment) rng).2
      (result.play payment (decide payment) rng).1
    rw [play_rng] at rest
    have step : StrategyResult.playAll decide (payment :: population) rng result =
        StrategyResult.playAll decide
        population (fun n => rng (n + 1)) (result.play payment (decide payment) rng).1 := by
      rw [← @play_rng result payment (decide payment)]
      rfl
    rw [step]
    refine { cases := ?_, atRisk := ?_, actions := ?_, recoveredCases := ?_, recoveredAmount := ?_ }
    · rw [rest.cases, cases, List.length_cons]
      omega
    · rw [rest.atRisk, atRisk]
      simp only [List.length_cons, Fin.sum_univ_succ]
      simp [add_assoc]
    · rw [rest.actions, counts, sum_increment, List.length_cons]
      omega
    · rw [rest.recoveredCases, recovered]
      simp only [List.length_cons, Fin.sum_univ_succ]
      simp [add_assoc]
    · rw [rest.recoveredAmount, amount]
      simp only [List.length_cons, Fin.sum_univ_succ]
      simp [add_assoc]

/-! ## The comparison -/

/-- The comparison is paired and its figures are consistent: both strategies meet each payment with
the same draw, a payment they treat alike adds nothing to the difference, and every payment is
counted once by either. -/
structure FairComparison [PyText] (population : List SimulatedPayment) (seed : Rng) : Prop where
  incremental :
    calculateIncrementalRecoveredRevenue (runExperiment population seed).1
        (runExperiment population seed).2 =
      ∑ i : Fin population.length, population[i].amountMinor *
        (recovers population[i] (recoveraiDecide population[i] none) (seed i) -
          recovers population[i] (baselineDecide population[i]) (seed i))
  alike : ∀ i : Fin population.length,
    recoveraiDecide population[i] none = baselineDecide population[i] →
      population[i].amountMinor *
        (recovers population[i] (recoveraiDecide population[i] none) (seed i) -
          recovers population[i] (baselineDecide population[i]) (seed i)) = 0
  actions : ∀ r ∈ [(runExperiment population seed).1, (runExperiment population seed).2],
    (r.actionCounts.map Prod.snd).sum = population.length
  recovered : ∀ r ∈ [(runExperiment population seed).1, (runExperiment population seed).2],
    r.recoveredCases ≤ r.totalCases
  totals : (runExperiment population seed).1.totalCases =
    (runExperiment population seed).2.totalCases ∧
    (runExperiment population seed).1.totalAmountAtRiskMinor =
      (runExperiment population seed).2.totalAmountAtRiskMinor

section

variable {decide : SimulatedPayment → RecoveryActionType} {population : List SimulatedPayment}
  {rng : Rng} {name : String} {after : StrategyResult}

theorem Tally.recovered_le (h : Tally decide population rng { strategyName := name } after) :
    after.recoveredCases ≤ after.totalCases := by
  have each : ∑ i : Fin population.length, recovers population[i] (decide population[i]) (rng i) ≤
      ∑ _i : Fin population.length, 1 := Finset.sum_le_sum fun i _ => (recovers_le_one _).2
  have cases := h.cases
  have recovered := h.recoveredCases
  simp only [Finset.sum_const, Finset.card_univ, Fintype.card_fin, nsmul_eq_mul, mul_one] at each
  simp only at cases recovered
  omega

/-- What is not negative is recovered at most once. -/
theorem Tally.amount_le (h : Tally decide population rng { strategyName := name } after)
    (nonneg : ∀ p ∈ population, 0 ≤ p.amountMinor) :
    after.recoveredAmountMinor ≤ after.totalAmountAtRiskMinor := by
  have each : ∑ i : Fin population.length, population[i].amountMinor *
      recovers population[i] (decide population[i]) (rng i) ≤ ∑ i : Fin population.length,
        population[i].amountMinor :=
    Finset.sum_le_sum fun i _ => by
      have amount := nonneg population[i] (List.getElem_mem _)
      calc population[i].amountMinor * recovers population[i] (decide population[i]) (rng i)
          ≤ population[i].amountMinor * 1 :=
            Int.mul_le_mul_of_nonneg_left (recovers_le_one _).2 amount
        _ = population[i].amountMinor := Int.mul_one _
  have atRisk := h.atRisk
  have recovered := h.recoveredAmount
  simp only at atRisk recovered
  omega

end

theorem experiment_fair [PyText] (population : List SimulatedPayment) (seed : Rng) :
    FairComparison population seed ∧ ((∀ p ∈ population, 0 ≤ p.amountMinor) →
      ∀ r ∈ [(runExperiment population seed).1, (runExperiment population seed).2],
        r.recoveredAmountMinor ≤ r.totalAmountAtRiskMinor) := by
  have both : ∀ {P : StrategyResult → Prop} {r₁ r₂ : StrategyResult}, P r₁ → P r₂ →
      ∀ r ∈ [r₁, r₂], P r := by
    intro P r₁ r₂ h₁ h₂ r hr
    rcases List.mem_pair.1 hr with rfl | rfl
    · exact h₁
    · exact h₂
  have played : runExperiment population seed =
      (StrategyResult.playAll baselineDecide population seed { strategyName := "Baseline" },
        StrategyResult.playAll (recoveraiDecide · none) population seed
          { strategyName := "RecoverAI" }) :=
    runExperimentLoop_eq ..
  have baseline : Tally baselineDecide population seed { strategyName := "Baseline" }
      (runExperiment population seed).1 := played ▸ playAll_tally ..
  have recoverai : Tally (recoveraiDecide · none) population seed { strategyName := "RecoverAI" }
      (runExperiment population seed).2 := played ▸ playAll_tally ..
  refine ⟨?_, fun nonneg => both (baseline.amount_le nonneg) (recoverai.amount_le nonneg)⟩
  refine {
    incremental := ?_, alike := fun i same => ?_, actions := ?_, recovered := ?_, totals := ?_ }
  · have amount := baseline.recoveredAmount
    have amount' := recoverai.recoveredAmount
    simp only [zero_add] at amount amount'
    simp only [calculateIncrementalRecoveredRevenue, amount, amount', mul_sub,
      Finset.sum_sub_distrib]
  · rw [same, sub_self, mul_zero]
  · exact both (baseline.actions.trans (by simp)) (recoverai.actions.trans (by simp))
  · exact both baseline.recovered_le recoverai.recovered_le
  · exact ⟨baseline.cases.trans recoverai.cases.symm, baseline.atRisk.trans recoverai.atRisk.symm⟩

/-- A payment of a negative amount that is not recovered: nothing is more than the total. -/
theorem negative_at_risk : ¬ ∀ (population : List SimulatedPayment) (seed : Rng),
    (∀ n, 0 ≤ seed n ∧ seed n < 1) →
      (@runExperiment .ascii population seed).1.recoveredAmountMinor ≤
      (@runExperiment .ascii population seed).1.totalAmountAtRiskMinor := by
  intro bounded
  have := bounded [⟨"p", "m", -5, "INR", "unknown"⟩] (fun _ => 1 / 2) fun _ => by decide +kernel
  revert this
  decide +kernel

end RecoverAI
