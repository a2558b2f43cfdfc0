import RecoverAI.Domain.RecoveryState

/-!
# Policy

The limits of a merchant, and the decision whether a candidate action is permitted.
-/
namespace RecoverAI

structure PolicyLimits where
  maxActionsPerCase : Int
  maxRemindersPerCase : Int
  oneActivePaymentLink : Bool
  highValueEscalationEnabled : Bool
  highValueThresholdMinor : Int
deriving DecidableEq

structure PolicyInput where
  caseStatus : RecoveryCaseStatus
  amountMinor : Int
  candidateAction : RecoveryActionType
  totalActionCount : Int
  reminderCount : Int
  activePaymentLinkCount : Int
deriving DecidableEq

structure PolicyDecision where
  approved : Bool
  finalAction : RecoveryActionType
  reason : String
  delayHours : Option Rat
deriving DecidableEq

def evaluatePolicy (limits : PolicyLimits) (input : PolicyInput)
    (candidateDelayHours : Option Rat) : PolicyDecision :=
  let candidate := input.candidateAction
  if input.caseStatus.isTerminal then
    ⟨false, .stop, "terminal_state_protected", none⟩
  else if limits.highValueEscalationEnabled ∧ input.amountMinor ≥ limits.highValueThresholdMinor ∧
      candidate ∉ [.escalate, .stop] then
    ⟨false, .escalate, "high_value_requires_escalation", none⟩
  else if input.totalActionCount ≥ limits.maxActionsPerCase then
    ⟨false, .stop, "max_actions_per_case_reached", none⟩
  else if candidate = .sendReminder ∧ input.reminderCount ≥ limits.maxRemindersPerCase then
    ⟨false, .stop, "max_reminders_reached", none⟩
  else if candidate = .createPaymentLink ∧ limits.oneActivePaymentLink ∧
      input.activePaymentLinkCount > 0 then
    ⟨false, .wait, "active_payment_link_exists", some 1⟩
  else if candidate = .wait then
    ⟨true, .wait, "policy_approved_wait", candidateDelayHours⟩
  else ⟨true, candidate, "policy_approved", none⟩

/-- An approval keeps the candidate. -/
theorem evaluatePolicy_approved {limits : PolicyLimits} {input : PolicyInput} {delay : Option Rat}
    (h : (evaluatePolicy limits input delay).approved) :
    (evaluatePolicy limits input delay).finalAction = input.candidateAction := by
  unfold evaluatePolicy at h ⊢
  grind

/-- An approved `WAIT` has the delay that was asked for. -/
theorem evaluatePolicy_delayHours {limits : PolicyLimits} {input : PolicyInput} {delay : Option Rat}
    (h : (evaluatePolicy limits input delay).approved) :
    (evaluatePolicy limits input delay).delayHours = if input.candidateAction = .wait then delay
      else none := by
  unfold evaluatePolicy at h ⊢
  grind

/-- The policy answers `WAIT` to the candidate `WAIT`, or to a payment link beside an active one. -/
theorem evaluatePolicy_wait {limits : PolicyLimits} {input : PolicyInput} {delay : Option Rat}
    (h : (evaluatePolicy limits input delay).finalAction = .wait) :
    input.candidateAction = .wait ∧ (evaluatePolicy limits input delay).delayHours = delay ∨
      input.candidateAction = .createPaymentLink ∧
        (evaluatePolicy limits input delay).delayHours = some 1 := by
  unfold evaluatePolicy at h ⊢
  grind

/-- The policy approves its own fallback where that is an action to carry out. -/
theorem evaluatePolicy_executable {limits : PolicyLimits} {input : PolicyInput} {delay : Option Rat}
    (h : (evaluatePolicy limits input delay).finalAction.executable) :
    (evaluatePolicy limits
      { input with candidateAction := (evaluatePolicy limits input delay).finalAction }
        none).approved := by
  unfold evaluatePolicy at h ⊢
  grind [RecoveryActionType.executable]

/-- Of the case's status the policy asks only whether it is terminal. -/
theorem evaluatePolicy_status {limits : PolicyLimits} {input : PolicyInput} {delay : Option Rat}
    {status : RecoveryCaseStatus} (same : status.isTerminal = input.caseStatus.isTerminal) :
    evaluatePolicy limits { input with caseStatus := status } delay =
      evaluatePolicy limits input delay := by
  unfold evaluatePolicy
  simp only [same]

/-- The delay asked for plays no part in the decision. -/
theorem evaluatePolicy_delay (limits : PolicyLimits) (input : PolicyInput) (delay : Option Rat) :
    (evaluatePolicy limits input delay).approved = (evaluatePolicy limits input none).approved ∧
    (evaluatePolicy limits input delay).finalAction =
      (evaluatePolicy limits input none).finalAction ∧
    (evaluatePolicy limits input delay).reason = (evaluatePolicy limits input none).reason := by
  unfold evaluatePolicy
  grind

end RecoverAI
