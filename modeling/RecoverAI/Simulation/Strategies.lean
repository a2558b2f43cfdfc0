import RecoverAI.Domain.Policy
import RecoverAI.Domain.RecoveryEngine

/-!
# Simulated strategies

The two strategies the benchmark compares, and how the outcome of an action is drawn. A seed stands
for the stream of draws its generator makes.
-/
namespace RecoverAI

structure SimulatedPayment where
  paymentId : String
  merchantId : String
  amountMinor : Int
  currency : String
  failureCategory : String

/-! ## Decisions -/

def baselineDecide (_payment : SimulatedPayment) : RecoveryActionType := .sendReminder

/-- `DEFAULT_SIMULATION_POLICY`. -/
def defaultSimulationPolicy : PolicyLimits where
  maxActionsPerCase := 3
  maxRemindersPerCase := 2
  oneActivePaymentLink := true
  highValueEscalationEnabled := true
  highValueThresholdMinor := 5000000

def recoveraiDecide [PyText] (payment : SimulatedPayment) (policyLimits : Option PolicyLimits) :
    RecoveryActionType :=
  let limits := policyLimits.getD defaultSimulationPolicy
  let engine := evaluateRecovery payment.amountMinor (some payment.failureCategory)
  let input : PolicyInput := {
    caseStatus := .analysing
    amountMinor := payment.amountMinor
    candidateAction := engine.action
    totalActionCount := 0
    reminderCount := 0
    activePaymentLinkCount := 0 }
  (evaluatePolicy limits input engine.delayHours).finalAction

/-! ## Outcomes -/

/-- `SIMULATED_RECOVERY_PROBABILITIES`. -/
def simulatedRecoveryProbabilities : List (String × List (String × Rat)) :=
  [("expired_instrument",
    [("CREATE_PAYMENT_LINK", 45 / 100), ("SEND_REMINDER", 25 / 100), ("WAIT", 15 / 100),
    ("ESCALATE", 50 / 100), ("STOP", 0)]), ("insufficient_funds", [("WAIT", 35 / 100),
    ("SEND_REMINDER", 20 / 100), ("CREATE_PAYMENT_LINK", 15 / 100), ("ESCALATE", 45 / 100),
    ("STOP", 0)]), ("temporary_network", [("SEND_REMINDER", 40 / 100), ("WAIT", 30 / 100),
    ("CREATE_PAYMENT_LINK", 20 / 100), ("ESCALATE", 40 / 100), ("STOP", 0)]), ("issuer_failure",
    [("ESCALATE", 55 / 100), ("WAIT", 10 / 100), ("SEND_REMINDER", 5 / 100),
    ("CREATE_PAYMENT_LINK", 5 / 100), ("STOP", 0)]), ("unknown", [("WAIT", 10 / 100),
    ("SEND_REMINDER", 8 / 100), ("CREATE_PAYMENT_LINK", 5 / 100), ("ESCALATE", 35 / 100),
    ("STOP", 0)])]

/-- `SIMULATED_TIME_TO_RECOVERY_HOURS`. -/
def simulatedTimeToRecoveryHours : List (String × Rat) :=
  [("SEND_REMINDER", 1), ("CREATE_PAYMENT_LINK", 2), ("WAIT", 24), ("ESCALATE", 48), ("STOP", 0)]

/-- `SIMULATED_CONTACT_COUNT`. -/
def simulatedContactCount : List (String × Nat) :=
  [("SEND_REMINDER", 1), ("CREATE_PAYMENT_LINK", 1), ("WAIT", 0), ("ESCALATE", 0), ("STOP", 0)]

/-- A generator: the draws it makes from now on. -/
abbrev Rng := Nat → Rat

/-- `rng.random()`, and the generator afterwards. -/
def Rng.random (rng : Rng) : Rat × Rng := (rng 0, fun n => rng (n + 1))

def getRecoveryProbability (failureCategory actionType : String) : Rat :=
  match simulatedRecoveryProbabilities.lookup failureCategory with
  | none => 0
  | some categoryProbs => (categoryProbs.lookup actionType).getD 0

def simulateOutcome (failureCategory actionType : String) (rng : Rng) : Bool × Rng :=
  let probability := getRecoveryProbability failureCategory actionType
  let (draw, rng) := rng.random
  (draw < probability, rng)

def getTimeToRecoveryHours (actionType : String) : Rat :=
  (simulatedTimeToRecoveryHours.lookup actionType).getD 0

def getContactCount (actionType : String) : Nat := (simulatedContactCount.lookup actionType).getD 0

end RecoverAI
