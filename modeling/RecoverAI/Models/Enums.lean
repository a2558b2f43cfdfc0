import Mathlib.Tactic.Common

/-!
# Enumerations

The status and type columns, with the texts they are stored and reported as.
-/
namespace RecoverAI

inductive PaymentStatus where
  | created | failed | captured
deriving DecidableEq, Repr

inductive RecoveryCaseStatus where
  | failed | eligible | analysing | actionSelected | actionScheduled | waiting
  | recovered | stopped | escalated
deriving DecidableEq, Repr

def RecoveryCaseStatus.value : RecoveryCaseStatus → String
  | failed => "FAILED"
  | eligible => "ELIGIBLE"
  | analysing => "ANALYSING"
  | actionSelected => "ACTION_SELECTED"
  | actionScheduled => "ACTION_SCHEDULED"
  | waiting => "WAITING"
  | recovered => "RECOVERED"
  | stopped => "STOPPED"
  | escalated => "ESCALATED"

inductive RecoveryActionType where
  | wait | createPaymentLink | sendReminder | stop | escalate
deriving DecidableEq, Repr

namespace RecoveryActionType

def value : RecoveryActionType → String
  | wait => "WAIT"
  | createPaymentLink => "CREATE_PAYMENT_LINK"
  | sendReminder => "SEND_REMINDER"
  | stop => "STOP"
  | escalate => "ESCALATE"

def all : List RecoveryActionType := [wait, createPaymentLink, sendReminder, stop, escalate]

/-- `RecoveryActionType(s)`; `none` where it raises `ValueError`. -/
def ofValue (s : String) : Option RecoveryActionType := all.find? (·.value = s)

@[simp] theorem ofValue_value (t : RecoveryActionType) : ofValue t.value = some t := by
  cases t <;> decide

theorem value_injective : Function.Injective value := fun s t h => by
  have := ofValue_value s
  rw [h, ofValue_value] at this
  exact (Option.some.inj this).symm

/-- The types the executor carries out; the others end the case. -/
def executable : RecoveryActionType → Bool
  | wait | createPaymentLink | sendReminder => true
  | stop | escalate => false

end RecoveryActionType

inductive RecoveryActionStatus where
  | pending | approved | denied | executing | executed | failed | cancelled
deriving DecidableEq, Repr

def RecoveryActionStatus.value : RecoveryActionStatus → String
  | pending => "PENDING"
  | approved => "APPROVED"
  | denied => "DENIED"
  | executing => "EXECUTING"
  | executed => "EXECUTED"
  | failed => "FAILED"
  | cancelled => "CANCELLED"

inductive WebhookEventStatus where
  | received | processed | ignored | failed
deriving DecidableEq, Repr

inductive OutboxEventStatus where
  | pending | published | failed
deriving DecidableEq, Repr

end RecoverAI
