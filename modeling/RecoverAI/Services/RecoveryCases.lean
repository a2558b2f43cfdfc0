import RecoverAI.Domain.RecoveryState
import RecoverAI.Models.Statements

/-!
# Guarded case transitions
-/
namespace RecoverAI

open RecoveryCaseStatus (validateTransition)

/-- `validate_transition` inside a transaction. -/
def requireTransition (current new : RecoveryCaseStatus) : Tx Unit :=
  match validateTransition current new with
  | .ok () => pure ()
  | .error message => throw (.invalidStateTransition message)

/-- Compare-and-set on status and version; answers with the row count. -/
def atomicTransitionRecoveryCase (caseId : Uuid) (expectedStatus : RecoveryCaseStatus)
    (expectedVersion : Int) (newStatus : RecoveryCaseStatus) : Tx Nat := do
  requireTransition expectedStatus newStatus
  query (.updateCase caseId expectedStatus expectedVersion newStatus none)

/-- `_atomic_transition_with_next_action_at`. -/
def atomicTransitionWithNextActionAt (caseId : Uuid) (expectedStatus : RecoveryCaseStatus)
    (expectedVersion : Int) (newStatus : RecoveryCaseStatus) (nextActionAt : Time) : Tx Nat := do
  requireTransition expectedStatus newStatus
  query (.updateCase caseId expectedStatus expectedVersion newStatus (some nextActionAt))

/-- `except InvalidStateTransition`: `none` where the transition is not allowed. -/
def catchingInvalidTransition (t : Tx Nat) : Tx (Option Nat) :=
  tryCatch (t >>= fun rowcount => pure (some rowcount)) fun
    | .invalidStateTransition _ => pure none
    | e => throw e

end RecoverAI
