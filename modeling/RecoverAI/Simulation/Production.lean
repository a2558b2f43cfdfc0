import RecoverAI.Serial.Agreement
import RecoverAI.Simulation.Strategies

/-!
# The simulated strategy and the worker

The simulation asks the same engine and the same policy as the worker, with limits of its own: its
threshold for a review is ten times that of a policy row with the model's defaults.
-/
namespace RecoverAI

open Store

/-- No action of the case was recorded yet, and its version has room for a decision. -/
structure FreshCase (d : Db) (case : RecoveryCase) : Prop where
  room : integer (case.version + 3)
  unacted : ∀ a ∈ d.actions, a.recoveryCaseId ≠ case.id ∧
    ∀ type, a.idempotencyKey ≠ recoveryActionIdempotencyKey case.id type 1

/-- The amounts that the worker has reviewed and the simulation does not. -/
def BetweenThresholds (amountMinor : Int) : Prop :=
  (defaultPolicy default default).highValueThresholdMinor ≤ amountMinor ∧
    amountMinor < defaultSimulationPolicy.highValueThresholdMinor

/-- On a case without actions only the threshold matters. -/
theorem evaluatePolicy_uncounted {limits : PolicyLimits}
    (enabled : limits.highValueEscalationEnabled) (actions : 0 < limits.maxActionsPerCase)
    (reminders : 0 < limits.maxRemindersPerCase) (amount : Int) (candidate : RecoveryActionType)
    (delay : Option Rat) :
    (evaluatePolicy limits ⟨.analysing, amount, candidate, 0, 0, 0⟩ delay).finalAction =
      if limits.highValueThresholdMinor ≤ amount ∧
        candidate ∉ [RecoveryActionType.escalate, .stop] then .escalate
      else candidate := by
  have active : RecoveryCaseStatus.analysing.isTerminal = false := rfl
  unfold evaluatePolicy
  simp only [active, enabled]
  grind

/-! ## Counts of a fresh case -/

theorem countedAction_case {caseId : Uuid} {exclude : Option Uuid} {a : RecoveryAction}
    (h : countedAction caseId exclude a) : a.recoveryCaseId = caseId := by
  simp only [countedAction, Bool.and_eq_true, decide_eq_true_eq] at h
  exact h.1.1

theorem activeLink_case {caseId : Uuid} {exclude : Option Uuid} {a : RecoveryAction}
    (h : activeLink caseId exclude a) : a.recoveryCaseId = caseId := by
  simp only [activeLink, Bool.and_eq_true, decide_eq_true_eq] at h
  exact h.1.1.1

section

variable {d : Db} {env : Draws} {case : RecoveryCase}

theorem policyInput_fresh (fresh : FreshCase d case) (candidate : RecoveryActionType)
    (status : RecoveryCaseStatus) :
    policyInput d case candidate status none = ⟨status, case.amountMinor, candidate, 0, 0, 0⟩ := by
  have uncounted : ∀ p : RecoveryAction → Bool, (∀ a, p a = true → a.recoveryCaseId = case.id) →
      d.actions.count p = 0 := fun p own =>
    List.countP_eq_zero.2 fun a ha hp => (fresh.unacted a ha).1 (own a hp)
  have total := uncounted (countedAction case.id none) fun a => countedAction_case
  have reminders :=
    uncounted (fun a => countedAction case.id none a && a.actionType = .sendReminder)
    fun a h => countedAction_case (Bool.and_eq_true_iff.1 h).1
  have links := uncounted (activeLink case.id none) fun a => activeLink_case
  simp only [policyInput, total, reminders, links, Nat.cast_zero]

variable [PyLib] {settings : Settings} {llm : Llm} {outboxEventId : String}

/-- The worker's choice for a fresh case of a merchant with the default policy. -/
theorem chosenType_fresh (disabled : settings.llmEnabled = false) (fresh : FreshCase d case)
    {policyId merchantId : Uuid}
    (limits : limitsOf d case.merchantId = policyLimitsFrom (defaultPolicy policyId merchantId)) :
    chosenType settings llm d case =
      let engine := evaluateRecovery case.amountMinor case.failureCategory
      if (defaultPolicy default default).highValueThresholdMinor ≤ case.amountMinor ∧
        engine.action ∉ [RecoveryActionType.escalate, .stop] then .escalate else engine.action := by
  have failed : modelOutput settings llm (requestOf d case .analysing) = .error .expected := by
    simp [modelOutput, disabled]
  unfold chosenType
  rw [failed]
  simp only [deterministicDecision, limits, policyInput_fresh fresh]
  exact evaluatePolicy_uncounted rfl (show (0 : Int) < 3 by decide)
    (show (0 : Int) < 2 by decide) _ _ _

end

theorem recoveraiDecide_eq [PyText] (payment : SimulatedPayment) : recoveraiDecide payment none =
    let engine := evaluateRecovery payment.amountMinor (some payment.failureCategory)
    if defaultSimulationPolicy.highValueThresholdMinor ≤ payment.amountMinor ∧
      engine.action ∉ [RecoveryActionType.escalate, .stop] then .escalate else engine.action :=
  evaluatePolicy_uncounted rfl (by decide) (by decide) _ _ _

/-! ## Agreement -/

section

variable [PyLib] {settings : Settings} {llm : Llm} {d : Db} {env : Draws} {case : RecoveryCase}
  {outboxEventId : String} {payment : SimulatedPayment} {policyId merchantId : Uuid}

/-- The thresholds are all the two choices differ in. -/
theorem chosenType_eq_recoveraiDecide_iff (disabled : settings.llmEnabled = false)
    (fresh : FreshCase d case)
    (limits : limitsOf d case.merchantId = policyLimitsFrom (defaultPolicy policyId merchantId))
    (amount : payment.amountMinor = case.amountMinor)
    (category : some payment.failureCategory = case.failureCategory) :
    chosenType settings llm d case = recoveraiDecide payment none ↔
      ¬ (BetweenThresholds payment.amountMinor ∧ (evaluateRecovery payment.amountMinor
        (some payment.failureCategory)).action ∉ [RecoveryActionType.escalate, .stop]) := by
  rw [chosenType_fresh disabled fresh limits, recoveraiDecide_eq, ← amount, ← category]
  have raised : (defaultPolicy default default).highValueThresholdMinor ≤
      defaultSimulationPolicy.highValueThresholdMinor := by
    decide
  simp only [BetweenThresholds]
  generalize (evaluateRecovery payment.amountMinor (some payment.failureCategory)).action = wanted
  generalize (defaultPolicy default default).highValueThresholdMinor = low at *
  generalize defaultSimulationPolicy.highValueThresholdMinor = high at *
  by_cases contacts : wanted ∉ [RecoveryActionType.escalate, .stop]
  · have other : RecoveryActionType.escalate ≠ wanted :=
      fun h => contacts (h ▸ List.mem_cons_self ..)
    by_cases below : payment.amountMinor < low
    · have calm : ¬ high ≤ payment.amountMinor := by omega
      simp [contacts, Int.not_le.2 below, calm]
    · by_cases above : high ≤ payment.amountMinor
      · simp [contacts, Int.not_lt.1 below, above, Int.not_lt.2 above]
      · simp [contacts, Int.not_lt.1 below, above, Int.not_le.1 above, other]
  · rw [if_neg fun h => contacts h.2, if_neg fun h => contacts h.2]
    simp only [contacts, and_false, not_false_eq_true]

/-- Between the thresholds the worker asks for a review, and the simulation follows the engine. -/
theorem chosenType_between (disabled : settings.llmEnabled = false) (fresh : FreshCase d case)
    (limits : limitsOf d case.merchantId = policyLimitsFrom (defaultPolicy policyId merchantId))
    (amount : payment.amountMinor = case.amountMinor)
    (category : some payment.failureCategory = case.failureCategory)
    (between : BetweenThresholds payment.amountMinor)
    (contacts : (evaluateRecovery payment.amountMinor (some payment.failureCategory)).action ∉
      [RecoveryActionType.escalate, .stop]) :
    chosenType settings llm d case = .escalate ∧ recoveraiDecide payment none =
      (evaluateRecovery payment.amountMinor (some payment.failureCategory)).action := by
  rw [chosenType_fresh disabled fresh limits, recoveraiDecide_eq, ← amount, ← category]
  exact ⟨if_pos ⟨between.1, contacts⟩, if_neg fun high => absurd high.1 (Int.not_le.2 between.2)⟩

/-- The task records one action for the case; that is the simulated one unless the amount lies
between the thresholds and the engine wants to contact the customer. Then the worker asks for a
review, and the simulation follows the engine. -/
theorem simulated_iff (valid : d.Valid) (drawn : env.Fresh d)
    (calls : CallsFor d outboxEventId case) (fresh : FreshCase d case)
    (disabled : settings.llmEnabled = false)
    (limits : limitsOf d case.merchantId = policyLimitsFrom (defaultPolicy policyId merchantId))
    (amount : payment.amountMinor = case.amountMinor)
    (category : some payment.failureCategory = case.failureCategory) :
    ∃ action, (∀ a,
      a ∈ (committed d ((processEligibleEvent settings llm env outboxEventId).run d)).actions ∧
        a ∉ d.actions ↔ a = action) ∧ action.recoveryCaseId = case.id ∧
      (action.actionType = recoveraiDecide payment none ↔
        ¬ (BetweenThresholds payment.amountMinor ∧ (evaluateRecovery payment.amountMinor
          (some payment.failureCategory)).action ∉ [RecoveryActionType.escalate, .stop])) ∧
      (BetweenThresholds payment.amountMinor → (evaluateRecovery payment.amountMinor
          (some payment.failureCategory)).action ∉ [RecoveryActionType.escalate, .stop] →
        action.actionType = .escalate ∧ recoveraiDecide payment none =
          (evaluateRecovery payment.amountMinor (some payment.failureCategory)).action) := by
  obtain ⟨source, -, parsed, -⟩ := id calls
  have failed : modelOutput settings llm (requestOf d case .analysing) = .error .expected := by
    simp [modelOutput, disabled]
  have recordable : Recordable d env case (selection settings llm d case .analysing).finalAction :=
    ⟨fresh.room, fun a ha same => by
      obtain ⟨foreign, unkeyed⟩ := fresh.unacted a ha
      rcases same with key | attempt
      · exact unkeyed _ key
      · exact foreign attempt.1⟩
  have clean : hasNul (selection settings llm d case .analysing).agent.reason = false := by
    rw [selection_of_failure failed]
    simp only [unreviewed, fallbackReason, disabled]
    rfl
  have after := (committed_eligible settings llm valid drawn parsed calls).1 recordable
  rw [clean, if_neg Bool.false_ne_true] at after
  have actions :=
    (@decided_tables d env case source.str (selection settings llm d case .analysing)).2
  rw [selection_finalAction] at actions
  refine ⟨newAction env case (chosenType settings llm d case), fun a => ?_, rfl,
    chosenType_eq_recoveraiDecide_iff disabled fresh limits amount category,
    chosenType_between disabled fresh limits amount category⟩
  rw [after, actions]
  have absent : newAction env case (chosenType settings llm d case) ∉ d.actions :=
    fun old => Table.get_eq_none.1 drawn.action _ old rfl
  constructor
  · rintro ⟨written, new⟩
    exact (Table.mem_put.1 written).resolve_right fun h => new h.1
  · rintro rfl
    exact ⟨Table.mem_put.2 (.inl rfl), absent⟩

end

/-- The state of `eligibleDb` for a failed payment of another amount. -/
def eligibleDbOf (amountMinor : Int) : Db :=
  { eligibleDb with
    payments := .put .empty { samplePayment with amountMinor }
    cases := .put .empty { sampleCase with amountMinor } }

/-- Its payment in a simulation. -/
def simulatedOf (amountMinor : Int) : SimulatedPayment where
  paymentId := "p1"
  merchantId := "m1"
  amountMinor
  currency := "INR"
  failureCategory := "expired_instrument"

theorem eligibleDbOf_fresh (amountMinor : Int) :
    FreshCase (eligibleDbOf amountMinor) { sampleCase with amountMinor } where
  room := rfl
  unacted _ ha := absurd ha (Table.not_mem_empty _)

theorem eligibleDbOf_callsFor [PyText] (amountMinor : Int) :
    CallsFor (eligibleDbOf amountMinor) (Uuid.ofNat 14).str { sampleCase with amountMinor } := by
  obtain ⟨source, event, parsed, found, named, -⟩ := eligibleDb_callsFor
  exact ⟨source, event, parsed, found, named, Table.get_put_self .empty _, rfl⟩

theorem simulated_iff_sample :
    let _ : PyLib := .recorded []
    ∃ action, (∀ a,
      a ∈ (committed (eligibleDbOf 5000) ((processEligibleEvent { llmEnabled := false }
        (fun _ => .error .expected) (Env.numbered 2).draws (Uuid.ofNat 14).str).run
          (eligibleDbOf 5000))).actions ∧
        a ∉ (eligibleDbOf 5000).actions ↔ a = action) ∧ action.recoveryCaseId = .ofNat 12 ∧
      (action.actionType = recoveraiDecide (simulatedOf 5000) none ↔
        ¬ (BetweenThresholds 5000 ∧ (evaluateRecovery 5000 (some "expired_instrument")).action ∉
          [RecoveryActionType.escalate, .stop])) ∧
      (BetweenThresholds 5000 → (evaluateRecovery 5000 (some "expired_instrument")).action ∉
          [RecoveryActionType.escalate, .stop] →
        action.actionType = .escalate ∧ recoveraiDecide (simulatedOf 5000) none =
          (evaluateRecovery 5000 (some "expired_instrument")).action) := by
  intro _
  exact @simulated_iff _ _ _ _ _ _ _ (simulatedOf 5000) (.ofNat 20) (.ofNat 1)
    (by decide +kernel) (by decide +kernel) (eligibleDbOf_callsFor 5000)
      (eligibleDbOf_fresh 5000) rfl
    (by decide +kernel) rfl rfl

/-- For a payment of 6000 rupees the worker asks for a review, and the simulation sends a link. -/
theorem simulation_unreviewed :
    let _ : PyLib := .recorded []
    (eligibleDbOf 600000).Valid ∧ (Env.numbered 2).draws.Fresh (eligibleDbOf 600000) ∧
      CallsFor (eligibleDbOf 600000) (Uuid.ofNat 14).str { sampleCase with amountMinor := 600000 } ∧
      FreshCase (eligibleDbOf 600000) { sampleCase with amountMinor := 600000 } ∧
      (eligibleDbOf 600000).policies = .empty ∧
      (committed (eligibleDbOf 600000)
        ((processEligibleEvent { llmEnabled := false } (fun _ => .error .expected)
        (Env.numbered 2).draws (Uuid.ofNat 14).str).run (eligibleDbOf 600000))).actions.rows.map
          RecoveryAction.actionType = [.escalate] ∧
      recoveraiDecide (simulatedOf 600000) none = .createPaymentLink := by
  intro _
  exact ⟨by decide +kernel, by decide +kernel, eligibleDbOf_callsFor 600000,
    eligibleDbOf_fresh 600000, rfl, by decide +kernel, by decide +kernel⟩

end RecoverAI
