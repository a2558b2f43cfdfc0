import RecoverAI.Agents.RecoveryAgent
import RecoverAI.Domain.RecoveryEngine
import RecoverAI.Services.PolicyService
import RecoverAI.Services.RecoveryActions
import RecoverAI.Services.RecoveryCases

/-!
# The eligible task

One transaction takes an `ELIGIBLE` case through `ANALYSING` and `ACTION_SELECTED`, decides, records
the action, and leaves the case scheduled, stopped or escalated.
-/
namespace RecoverAI

/-- The result of a task that left its event alone. -/
def ignored (reason : String) : Fields := [("status", .str "ignored"), ("reason", .str reason)]

/-- Everything the task decides before it records an action. -/
structure Selection where
  engine : RecoveryDecision
  deterministic : PolicyDecision
  agent : AgentDecision
  finalAction : RecoveryActionType
  finalPolicyApproved : Bool
  finalPolicyReason : String
  active : PolicyDecision

/-- The agent fell back on the policy's own decision. -/
def unreviewed (engine : RecoveryDecision) (deterministic : PolicyDecision)
    (agent : AgentDecision) : Selection where
  engine := engine
  deterministic := deterministic
  agent := agent
  finalAction := agent.selectedAction
  finalPolicyApproved := deterministic.approved
  finalPolicyReason := deterministic.reason
  active := deterministic

/-- The delay the policy is asked about for the agent's action. -/
def candidateDelay (engine : RecoveryDecision) (agent : AgentDecision) : Option Rat :=
  if agent.selectedAction = .wait then engine.delayHours else none

/-- The policy's decision `final` on the agent's action. -/
def reviewed (engine : RecoveryDecision) (deterministic : PolicyDecision) (agent : AgentDecision)
    (final : PolicyDecision) : Selection :=
  let accepted := final.approved && final.finalAction = agent.selectedAction
  { engine := engine
    deterministic := deterministic
    agent := agent
    finalAction := if accepted then agent.selectedAction else deterministic.finalAction
    finalPolicyApproved := accepted
    finalPolicyReason := final.reason
    active := if accepted then final else deterministic }

section

variable [PyLib] (settings : Settings) (llm : Llm) (env : Draws)

def agentRequest (case : RecoveryCase) (engine : RecoveryDecision) (deterministic : PolicyDecision)
    (input : PolicyInput) : AgentDecisionRequest where
  merchantId := case.merchantId.str
  recoveryCaseId := case.id.str
  amountMinor := case.amountMinor
  currency := case.currency
  failureCategory := case.failureCategory
  engineCandidateAction := engine.action
  deterministicFinalAction := deterministic.finalAction
  totalActionCount := input.totalActionCount
  reminderCount := input.reminderCount
  activePaymentLinkCount := input.activePaymentLinkCount

/-- Engine, policy, agent, and the policy once more on what the agent selected. -/
def selectAction (case : RecoveryCase) (currentStatus : RecoveryCaseStatus) : Tx Selection := do
  let engine := evaluateRecovery case.amountMinor case.failureCategory
  let policy ← getOrCreateDefaultPolicy env.policyId case.merchantId
  let input ← buildPolicyInput case engine.action currentStatus none
  let deterministic := evaluatePolicy (policyLimitsFrom policy) input engine.delayHours
  let agent := runRecoveryAgent settings llm (agentRequest case engine deterministic input)
  if agent.selectedAction = deterministic.finalAction ∧ agent.source ≠ .llm then
    return unreviewed engine deterministic agent
  else
    let finalInput ← buildPolicyInput case agent.selectedAction currentStatus none
    return reviewed engine deterministic agent
      (evaluatePolicy (policyLimitsFrom policy) finalInput (candidateDelay engine agent))

end

/-- The delay of a `WAIT` action. -/
def Selection.delayHours (s : Selection) : Rat :=
  match s.active.delayHours with
  | some delay => delay
  | none => (if s.engine.action = .wait then s.engine.delayHours else none).getD 1

/-- `next_action_at` of a scheduled action. -/
def Selection.nextActionAt (s : Selection) (now : Time) : Time :=
  if s.finalAction = .wait then now + s.delayHours else now

/-- Where the case ends up. -/
def Selection.finalStatus (s : Selection) : RecoveryCaseStatus :=
  match s.finalAction with
  | .stop => .stopped
  | .escalate => .escalated
  | _ => .actionScheduled

section

variable (env : Draws)

/-- The event that schedules an action. -/
def actionScheduledOutbox (case : RecoveryCase) (action : RecoveryAction) (deliverAt : Time) :
    OutboxEvent where
  id := env.outboxId
  merchantId := case.merchantId
  aggregateType := "recovery_case"
  aggregateId := case.id.str
  eventType := "recovery_case.action_scheduled"
  payload := [("recovery_case_id", .str case.id.str), ("recovery_action_id", .str action.id.str)]
  idempotencyKey := "recovery_case.action_scheduled:" ++ case.id.str ++ ":" ++ action.id.str
  status := .pending
  attempts := 0
  lastError := none
  createdAt := env.began
  publishedAt := none
  deliverAt := some deliverAt

def insertActionScheduledOutbox (case : RecoveryCase) (action : RecoveryAction) (deliverAt : Time) :
    Tx Unit :=
  query (.insert (.outbox (actionScheduledOutbox env case action deliverAt)))

/-- The audit event of a decision. -/
def decisionAudit (case : RecoveryCase) (outboxEventId : String) (s : Selection) : AuditEvent where
  id := env.auditId
  merchantId := case.merchantId
  entityType := "recovery_case"
  entityId := case.id.str
  eventType := "recovery_case.decision"
  actor := "policy_agent_worker"
  correlationId := none
  payload := [("outbox_event_id", .str outboxEventId),
    ("engine_action", .str s.engine.action.value),
    ("deterministic_action", .str s.deterministic.finalAction.value),
    ("agent_action", .str s.agent.selectedAction.value),
    ("agent_source", .str s.agent.source.value), ("agent_reason", .str s.agent.reason),
    ("final_action", .str s.finalAction.value),
    ("final_policy_approved", .bool s.finalPolicyApproved),
    ("final_policy_reason", .str s.finalPolicyReason), ("final_status", .str s.finalStatus.value)]
  createdAt := env.began

def insertDecisionAudit (case : RecoveryCase) (outboxEventId : String) (s : Selection) : Tx Unit :=
  query (.insert (.audit (decisionAudit env case outboxEventId s)))

/-- The result of a task that decided. -/
def processedResult (case : RecoveryCase) (s : Selection) : Fields :=
  [("status", .str "processed"), ("recovery_case_id", .str case.id.str),
    ("engine_action", .str s.engine.action.value),
    ("deterministic_action", .str s.deterministic.finalAction.value),
    ("agent_action", .str s.agent.selectedAction.value),
    ("agent_source", .str s.agent.source.value), ("agent_reason", .str s.agent.reason),
    ("final_action", .str s.finalAction.value),
    ("final_policy_approved", .bool s.finalPolicyApproved),
    ("final_policy_reason", .str s.finalPolicyReason), ("final_status", .str s.finalStatus.value)]

/-- The row of the selected action. -/
def newAction (case : RecoveryCase) (actionType : RecoveryActionType) : RecoveryAction where
  id := env.actionId
  merchantId := case.merchantId
  recoveryCaseId := case.id
  actionType := actionType
  status := .approved
  idempotencyKey := recoveryActionIdempotencyKey case.id actionType 1
  attemptNumber := 1
  providerReference := none
  scheduledAt := none
  executedAt := none
  failureReason := none

/-- The last transition of the case; answers with the row count. -/
def finalTransition (case : RecoveryCase) (version : Int) (s : Selection) : Tx Nat :=
  match s.finalAction with
  | .stop => atomicTransitionRecoveryCase case.id .actionSelected version .stopped
  | .escalate => atomicTransitionRecoveryCase case.id .actionSelected version .escalated
  | _ => atomicTransitionWithNextActionAt case.id .actionSelected version .actionScheduled
      (s.nextActionAt env.now)

/-- Record the selected action and move the case on. -/
def recordAction (case : RecoveryCase) (outboxEventId : String) (version : Int) (s : Selection) :
    Tx Fields := do
  let (action, created) ← createRecoveryActionIdempotent (newAction env case s.finalAction)
  if !created then return ignored "action_already_exists"
  else
    let rowcount ← atomicTransitionRecoveryCase case.id .analysing version .actionSelected
    if rowcount = 0 then return ignored "state_conflict_during_selection"
    else
      let rowcount ← finalTransition env case (version + 1) s
      if rowcount = 0 then return ignored "state_conflict_during_final_transition"
      else
        if s.finalStatus = .actionScheduled then
          insertActionScheduledOutbox env case action (s.nextActionAt env.now)
        insertDecisionAudit env case outboxEventId s
        return processedResult case s

end

section

variable [PyLib] (settings : Settings) (llm : Llm) (env : Draws)

/-- `_handle_recovery_case_eligible`. -/
def handleRecoveryCaseEligible (outbox : OutboxEvent) : Tx Fields := do
  match (Json.item outbox.payload "recovery_case_id").uuid with
  | none => return [("status", .str "invalid_payload")]
  | some caseId =>
    match ← query (.selectCase (·.id = caseId)) with
    | none => return [("status", .str "missing_recovery_case")]
    | some case =>
      if case.status ≠ .eligible then return ignored ("case_status_is_" ++ case.status.value)
      else
        match ← catchingInvalidTransition
            (atomicTransitionRecoveryCase case.id case.status case.version .analysing) with
        | none => return ignored "invalid_state_transition"
        | some 0 => return ignored "state_conflict_or_stale_job"
        | some _ =>
          let s ← selectAction settings llm env case .analysing
          recordAction env case outbox.id.str (case.version + 1) s

/-- `_process_eligible_event`. -/
def processEligibleEvent (outboxEventId : String) : Tx Fields := do
  match Uuid.parse outboxEventId with
  | none => return [("status", .str "invalid_outbox_id")]
  | some id =>
    match ← query (.selectOutbox (·.id = id)) with
    | none => return [("status", .str "missing_outbox_event")]
    | some outbox => handleRecoveryCaseEligible settings llm env outbox

end

end RecoverAI
