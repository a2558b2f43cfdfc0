import RecoverAI.Integrations
import RecoverAI.Services.PolicyService
import RecoverAI.Services.RecoveryCases

/-!
# Action executor

A scheduled action is claimed in one transaction, carried out outside of any, and finalized in
another.
-/
namespace RecoverAI

/-- What a claimed action carries to its external call. -/
structure Claim where
  actionId : Uuid
  caseId : Uuid
  merchantId : Uuid
  actionType : RecoveryActionType
  idempotencyKey : String
  amountMinor : Int
  currency : String
  originalProviderPaymentId : Option String

inductive ClaimResult where
  | claimed (claim : Claim)
  | refused (result : Fields)

variable (env : Draws)

/-- The audit event of an executor step. -/
def actionAudit (case : RecoveryCase) (action : RecoveryAction) (eventType : String)
    (payload : Fields) : AuditEvent where
  id := env.auditId
  merchantId := case.merchantId
  entityType := "recovery_action"
  entityId := action.id.str
  eventType := eventType
  actor := "action_executor"
  correlationId := none
  payload := ("recovery_case_id", .str case.id.str) :: ("action_type", .str action.actionType.value)
    :: payload
  createdAt := env.began

/-- `_audit`. -/
def auditAction (case : RecoveryCase) (action : RecoveryAction) (eventType : String)
    (payload : Fields) : Tx Unit :=
  query (.insert (.audit (actionAudit env case action eventType payload)))

def atomicActionTransition (actionId : Uuid) (expectedStatus newStatus : RecoveryActionStatus) :
    Tx Nat :=
  query (.updateAction actionId expectedStatus newStatus)

/-! ## Claim -/

/-- The branch of an action the final policy check does not allow. -/
def cancelClaim (case : RecoveryCase) (action : RecoveryAction) (decision : PolicyDecision) :
    Tx ClaimResult := do
  let rowcount ← atomicActionTransition action.id .approved .cancelled
  if rowcount = 1 then
    auditAction env case action "recovery_action.cancelled"
      [("reason", .str decision.reason), ("case_status", .str case.status.value)]
    if !case.status.isTerminal && case.status = .actionScheduled then
      let _ ← catchingInvalidTransition
        (atomicTransitionRecoveryCase case.id case.status case.version .stopped)
  return .refused [("status", .str "cancelled"), ("reason", .str decision.reason)]

/-- The branch of an allowed action. -/
def takeClaim (case : RecoveryCase) (action : RecoveryAction) (payment : Option Payment) :
    Tx ClaimResult := do
  if action.status ≠ .approved then
    return .refused [("status", .str "ignored"),
      ("reason", .str ("action_status_is_" ++ action.status.value))]
  else
    let rowcount ← atomicActionTransition action.id .approved .executing
    if rowcount = 0 then
      return .refused [("status", .str "ignored"), ("reason", .str "action_not_claimable")]
    else
      auditAction env case action "recovery_action.claimed"
        [("case_status", .str case.status.value)]
      return .claimed {
        actionId := action.id
        caseId := case.id
        merchantId := case.merchantId
        actionType := action.actionType
        idempotencyKey := action.idempotencyKey
        amountMinor := case.amountMinor
        currency := case.currency
        originalProviderPaymentId := payment.map (·.providerPaymentId) }

def claimAction (actionId : Uuid) : Tx ClaimResult := do
  match ← query (.selectAction (·.id = actionId)) with
  | none => return .refused [("status", .str "missing_action")]
  | some action =>
    match ← query (.selectCase (·.id = action.recoveryCaseId)) with
    | none => return .refused [("status", .str "missing_case")]
    | some case =>
      let payment ← query (.selectPayment (·.id = case.paymentId))
      let policy ← getOrCreateDefaultPolicy env.policyId case.merchantId
      let input ← buildPolicyInput case action.actionType case.status (some action.id)
      let decision := evaluatePolicy (policyLimitsFrom policy) input none
      if !case.status.isTerminal && decision.approved &&
        decision.finalAction = action.actionType then
        takeClaim env case action payment
      else cancelClaim env case action decision

/-! ## External call -/

def Claim.description (claim : Claim) : String :=
  match claim.originalProviderPaymentId with
  | some id => if id = "" then "RecoverAI payment link" else "Recovery payment for " ++ id
  | none => "RecoverAI payment link"

def Claim.notes (claim : Claim) : Fields :=
  [("recoverai_merchant_id", .str claim.merchantId.str),
    ("recoverai_recovery_case_id", .str claim.caseId.str),
    ("recoverai_recovery_action_id", .str claim.actionId.str),
    ("recoverai_original_payment_reference", claim.originalProviderPaymentId.elim .null .str)]

def Claim.linkRequest (claim : Claim) : PaymentLinkRequest where
  amountMinor := claim.amountMinor
  currency := claim.currency
  description := claim.description
  referenceId := claim.idempotencyKey
  notes := claim.notes

/-- The provider reference and the details, as `_execute_external` returns them. -/
def executeExternal (settings : Settings) (claim : Claim) (reply : ExternalReply) :
    Except ExternalError (Json × Fields) :=
  match claim.actionType with
  | .createPaymentLink => (createPaymentLink settings claim.linkRequest reply).map fun result =>
    ((Json.item result "short_url").orElse (Json.item result "id"), result)
  | .sendReminder =>
    .ok (.str ("reminder:" ++ claim.actionId.str), [("reminder", .str "simulated_reminder_sent")])
  | .wait => .ok (.null, [("wait", .str "completed")])
  | .stop | .escalate =>
    .error ⟨true, "unsupported executable action: " ++ claim.actionType.value⟩

/-! ## Finalization -/

/-- The column value of a provider reference; a value that is not a text has none. -/
def referenceColumn : Json → Except DbError (Option String)
  | .null => .ok none
  | .str s => .ok (some (assigned 128 s))
  | _ => .error .data

def finalizeSuccess (claim : Claim) (reference : Json) (details : Fields) : Tx Unit := do
  let action ← query (.selectAction (·.id = claim.actionId))
  let case ← query (.selectCase (·.id = claim.caseId))
  match action, case with
  | some action, some case =>
    if action.status = .executing then
      if case.status = .actionScheduled then
        let _ ← catchingInvalidTransition
          (atomicTransitionRecoveryCase case.id case.status case.version .waiting)
      match referenceColumn reference with
      | .error e => throw (.db e)
      | .ok column =>
        query (.flushAction action { action with
          status := .executed
          executedAt := some env.now
          providerReference := column
          failureReason := none })
        auditAction env case action "recovery_action.executed"
          [("provider_reference", reference), ("details", .obj details)]
  | _, _ => return ()

def finalizeFailure (claim : Claim) (error : ExternalError) : Tx Unit := do
  let action ← query (.selectAction (·.id = claim.actionId))
  let case ← query (.selectCase (·.id = claim.caseId))
  match action, case with
  | some action, some case =>
    if action.status = .executing then
      query (.flushAction action { action with
        status := .failed
        failureReason := some (Text.slice error.message 512) })
    auditAction env case action "recovery_action.failed" [("error", .str error.message)]
  | _, _ => return ()

end RecoverAI
