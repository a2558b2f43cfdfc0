import RecoverAI.Domain.Policy
import RecoverAI.Models.Statements

/-!
# Policy service

The merchant's policy row, created with the defaults when it is missing, and the counts a policy
decision rests on.
-/
namespace RecoverAI

/-- A policy row with the model's defaults. -/
def defaultPolicy (id merchantId : Uuid) : MerchantPolicy where
  id := id
  merchantId := merchantId
  maxActionsPerCase := 3
  maxRemindersPerCase := 2
  oneActivePaymentLink := true
  highValueEscalationEnabled := true
  highValueThresholdMinor := 500000

def getOrCreateDefaultPolicy (newId merchantId : Uuid) : Tx MerchantPolicy := do
  let existing := Stmt.selectPolicy (·.merchantId = merchantId)
  match ← query existing with
  | some policy => return policy
  | none =>
    match ← attempt (.insert (.policy (defaultPolicy newId merchantId))) with
    | .ok () => return defaultPolicy newId merchantId
    | .error .integrity =>
      match ← query existing with
      | some policy => return policy
      | none => throw .noResultFound
    | .error e => throw (.db e)

def policyLimitsFrom (policy : MerchantPolicy) : PolicyLimits where
  maxActionsPerCase := policy.maxActionsPerCase
  maxRemindersPerCase := policy.maxRemindersPerCase
  oneActivePaymentLink := policy.oneActivePaymentLink
  highValueEscalationEnabled := policy.highValueEscalationEnabled
  highValueThresholdMinor := policy.highValueThresholdMinor

/-- `EXCLUDED_ACTION_COUNT_STATUSES`. -/
def excludedActionCountStatuses : List RecoveryActionStatus := [.denied, .cancelled]

/-- `ACTIVE_PAYMENT_LINK_STATUSES`. -/
def activePaymentLinkStatuses : List RecoveryActionStatus := [.pending, .approved, .executing]

/-- `base_filters`. -/
def countedAction (caseId : Uuid) (exclude : Option Uuid) (a : RecoveryAction) : Bool :=
  a.recoveryCaseId = caseId && a.status ∉ excludedActionCountStatuses && some a.id ≠ exclude

/-- `active_link_filters`. -/
def activeLink (caseId : Uuid) (exclude : Option Uuid) (a : RecoveryAction) : Bool :=
  a.recoveryCaseId = caseId && a.actionType = .createPaymentLink &&
    a.status ∈ activePaymentLinkStatuses && some a.id ≠ exclude

def buildPolicyInput (case : RecoveryCase) (candidateAction : RecoveryActionType)
    (currentStatus : RecoveryCaseStatus) (exclude : Option Uuid) : Tx PolicyInput := do
  let totalActionCount : Nat ← query (.countActions (countedAction case.id exclude))
  let reminderCount : Nat ← query (.countActions fun a =>
    countedAction case.id exclude a && a.actionType = .sendReminder)
  let activePaymentLinkCount : Nat ← query (.countActions (activeLink case.id exclude))
  return {
    caseStatus := currentStatus
    amountMinor := case.amountMinor
    candidateAction := candidateAction
    totalActionCount := totalActionCount
    reminderCount := reminderCount
    activePaymentLinkCount := activePaymentLinkCount }

end RecoverAI
