import RecoverAI.Models.Enums
import Mathlib.Logic.Relation

/-!
# Recovery case states

The terminal states, the allowed transitions and their validation.
-/
namespace RecoverAI

namespace RecoveryCaseStatus

/-- `ALLOWED_TRANSITIONS`. -/
def allowedTransitions : RecoveryCaseStatus → List RecoveryCaseStatus
  | failed => [eligible, stopped, recovered]
  | eligible => [analysing, stopped, recovered]
  | analysing => [actionSelected, waiting, stopped, escalated, recovered]
  | actionSelected => [actionScheduled, stopped, escalated, recovered]
  | actionScheduled => [waiting, stopped, escalated, recovered]
  | waiting => [actionSelected, analysing, recovered, stopped, escalated]
  | recovered | stopped | escalated => []

/-- `TERMINAL_STATES`. -/
def terminalStates : List RecoveryCaseStatus := [recovered, stopped, escalated]

def isTerminal (s : RecoveryCaseStatus) : Bool := s ∈ terminalStates

def canTransition (current new : RecoveryCaseStatus) : Bool := new ∈ current.allowedTransitions

/-- The message of `InvalidStateTransition`, where `validate_transition` raises it. -/
def validateTransition (current new : RecoveryCaseStatus) : Except String Unit :=
  if current = new then .ok ()
  else if current.isTerminal then
    .error s!"Cannot transition from terminal state {current.value} to {new.value}"
  else if !canTransition current new then
    .error s!"Invalid recovery case transition: {current.value} -> {new.value}"
  else .ok ()

/-- A sequence of allowed transitions. -/
def Path : RecoveryCaseStatus → RecoveryCaseStatus → Prop :=
  Relation.ReflTransGen fun s t => canTransition s t

theorem not_isTerminal_of_canTransition {s t : RecoveryCaseStatus} (h : canTransition s t) :
    s.isTerminal = false := by
  revert h
  cases s <;> cases t <;> decide

/-- Every state that is not terminal can be recovered. -/
theorem validateTransition_recovered {s : RecoveryCaseStatus} (h : s.isTerminal = false) :
    validateTransition s .recovered = .ok () := by
  revert h
  cases s <;> decide

theorem canTransition_recovered {s : RecoveryCaseStatus} (h : s.isTerminal = false) :
    canTransition s .recovered := by
  revert h
  cases s <;> decide

end RecoveryCaseStatus

end RecoverAI
