import RecoverAI.Domain.RecoveryState
import RecoverAI.Models.Tables

/-!
# Case transitions in memory
-/
namespace RecoverAI

/-- `transition_recovery_case` on the loaded object. -/
def transitionRecoveryCase (case : RecoveryCase) (newStatus : RecoveryCaseStatus) :
    Except String RecoveryCase :=
  match RecoveryCaseStatus.validateTransition case.status newStatus with
  | .error message => .error message
  | .ok () =>
    if case.status ≠ newStatus then
      .ok { case with status := newStatus, version := case.version + 1 }
    else .ok case

/-- A case after a change of its status. -/
def RecoveryCase.become (c : RecoveryCase) (new : RecoveryCaseStatus) : RecoveryCase :=
  { c with status := new, version := c.version + 1 }

theorem transitionRecoveryCase_eligible {case : RecoveryCase} (h : case.status = .failed) :
    transitionRecoveryCase case .eligible = .ok (case.become .eligible) := by
  simp [transitionRecoveryCase, h, RecoveryCase.become,
    show RecoveryCaseStatus.validateTransition .failed .eligible = .ok () by decide]

theorem transitionRecoveryCase_recovered {case : RecoveryCase}
    (h : case.status.isTerminal = false) :
    transitionRecoveryCase case .recovered = .ok (case.become .recovered) := by
  have : case.status ≠ .recovered := by rintro e; rw [e] at h; cases h
  simp [transitionRecoveryCase, RecoveryCaseStatus.validateTransition_recovered h, this,
    RecoveryCase.become]

end RecoverAI
