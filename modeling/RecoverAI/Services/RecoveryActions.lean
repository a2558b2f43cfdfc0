import RecoverAI.Models.Statements

/-!
# Idempotent action creation
-/
namespace RecoverAI

def recoveryActionIdempotencyKey (recoveryCaseId : Uuid) (actionType : RecoveryActionType)
    (attemptNumber : Int) : String :=
  "recovery_action:" ++ recoveryCaseId.str ++ ":" ++ actionType.value ++ ":" ++
    toString attemptNumber

theorem colon_not_mem_value (type : RecoveryActionType) : ':' ∉ type.value.toList := by
  cases type <;> decide

/-- The id has a fixed length and the type has no colon. -/
theorem recoveryActionIdempotencyKey_inj {c c' : Uuid} {type type' : RecoveryActionType}
    {n n' : Int}
    (same : recoveryActionIdempotencyKey c type n = recoveryActionIdempotencyKey c' type' n') :
    c = c' ∧ type = type' ∧ n = n' := by
  unfold recoveryActionIdempotencyKey at same
  have texts := congrArg String.toList same
  simp only [String.append_assoc, String.toList_append] at texts
  have lengths : c.str.toList.length = c'.str.toList.length := by
    rw [String.length_toList, String.length_toList, Uuid.length_str, Uuid.length_str]
  obtain ⟨ids, rest⟩ := List.append_inj (List.append_cancel_left texts) lengths
  obtain ⟨types, numbers⟩ :=
    Text.append_cons_inj (colon_not_mem_value type) (colon_not_mem_value type')
    (List.append_cancel_left rest)
  exact ⟨Uuid.str_injective (String.toList_inj.1 ids),
    RecoveryActionType.value_injective (String.toList_inj.1 types),
    Text.toString_int_inj (String.toList_inj.1 numbers)⟩

/-- Insert `action`, or find the row with its key or its attempt; also answers
whether it was created. -/
def createRecoveryActionIdempotent (action : RecoveryAction) : Tx (RecoveryAction × Bool) := do
  let byKey := Stmt.selectAction fun a => a.idempotencyKey = action.idempotencyKey
  match ← query byKey with
  | some existing => return (existing, false)
  | none =>
    match ← attempt (.insert (.action action)) with
    | .ok () => return (action, true)
    | .error .integrity =>
      match ← query byKey with
      | some existing => return (existing, false)
      | none =>
        match ← query (.selectAction fun a => a.recoveryCaseId = action.recoveryCaseId &&
            a.actionType = action.actionType && a.attemptNumber = action.attemptNumber) with
        | some existing => return (existing, false)
        | none => throw (.db .integrity)
    | .error e => throw (.db e)

end RecoverAI
