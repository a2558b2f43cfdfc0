import RecoverAI.Models.Enums
import RecoverAI.Text.Python

/-!
# Recovery engine

The deterministic strategy: which action an amount and a failure category call for.
-/
namespace RecoverAI

structure RecoveryDecision where
  action : RecoveryActionType
  reason : String
  delayHours : Option Rat
deriving DecidableEq

def minRecoverableAmountMinor : Int := 1000

/-- `(failure_category or "unknown").strip().lower()`. -/
def normalizedCategory [PyText] (failureCategory : Option String) : String :=
  PyText.lower (Text.strip (Text.orDefault failureCategory "unknown"))

def evaluateRecovery [PyText] (amountMinor : Int) (failureCategory : Option String) :
    RecoveryDecision :=
  if amountMinor < minRecoverableAmountMinor then ⟨.stop, "low_value_not_worth_recovery", none⟩
  else
    let category := normalizedCategory failureCategory
    if category = "expired_instrument" then
      ⟨.createPaymentLink, "expired_instrument_requires_new_link", none⟩
    else if category = "insufficient_funds" then
      ⟨.wait, "insufficient_funds_wait_for_funds", some 24⟩
    else if category = "temporary_network" then
      ⟨.sendReminder, "temporary_network_send_reminder", none⟩
    else if category = "issuer_failure" then
      ⟨.escalate, "issuer_failure_requires_manual_review", none⟩
    else ⟨.stop, "unknown_or_unrecoverable_failure", none⟩

/-- The engine asks for a delay exactly when it recommends to wait. -/
theorem evaluateRecovery_delay [PyText] (amount : Int) (category : Option String) :
    (evaluateRecovery amount category).delayHours =
      if (evaluateRecovery amount category).action = .wait then some 24 else none := by
  unfold evaluateRecovery
  grind

end RecoverAI
