import RecoverAI.Config

/-!
# Recovery agent

The two nodes of the agent's graph and the parsing of the model's output. The graph runs `decide`
and then `validate`, each of which returns the keys of the state it sets.
-/
namespace RecoverAI

/-- How a call of the language model fails: with an error the node expects (`LLMError`,
`ValueError`, `TypeError`) or with another one. -/
inductive LlmFailure where
  | expected
  | unexpected
deriving DecidableEq

inductive DecisionSource where
  | llm
  | deterministicFallback
deriving DecidableEq

def DecisionSource.value : DecisionSource → String
  | llm => "llm"
  | deterministicFallback => "deterministic_fallback"

structure AgentDecisionRequest where
  merchantId : String
  recoveryCaseId : String
  amountMinor : Int
  currency : String
  failureCategory : Option String
  engineCandidateAction : RecoveryActionType
  deterministicFinalAction : RecoveryActionType
  totalActionCount : Int
  reminderCount : Int
  activePaymentLinkCount : Int

structure AgentDecisionOutput where
  action : RecoveryActionType
  reason : String
  confidence : Option Rat
deriving DecidableEq

structure AgentDecision where
  selectedAction : RecoveryActionType
  reason : String
  source : DecisionSource
deriving DecidableEq

structure RecoveryAgentState where
  merchantId : String
  recoveryCaseId : String
  amountMinor : Int
  currency : String
  failureCategory : Option String
  engineCandidateAction : String
  deterministicFinalAction : String
  totalActionCount : Int
  reminderCount : Int
  activePaymentLinkCount : Int
  selectedAction : Option String := none
  decisionReason : Option String := none
  decisionSource : Option DecisionSource := none

/-- What `call_recovery_llm` returns or raises. -/
abbrev Llm := RecoveryAgentState → Except LlmFailure String

def fallbackState (state : RecoveryAgentState) (reason : String) : RecoveryAgentState :=
  { state with
    selectedAction := some state.deterministicFinalAction
    decisionReason := some reason
    decisionSource := some .deterministicFallback }

section

variable [PyLib]

/-- `Field(default=None, ge=0.0, le=1.0)`; `none` is a validation error. -/
def validateConfidence : Json → Option (Option Rat)
  | .null => some none
  | j => match PyLib.laxFloat j with
    | some q => if 0 ≤ q ∧ q ≤ 1 then some (some q) else none
    | none => none

/-- `AgentDecisionOutput.model_validate`. -/
def validateAgentDecisionOutput : Json → Option AgentDecisionOutput
  | .obj fields =>
    match Json.item fields "action", Json.item fields "reason" with
    | .str action, .str reason =>
      match RecoveryActionType.ofValue action,
        validateConfidence (Json.item fields "confidence") with
      | some action, some confidence =>
        if reason.length ≤ 512 then some ⟨action, reason, confidence⟩ else none
      | _, _ => none
    | _, _ => none
  | _ => none

/-- `data["reason"] = reason[:512]`. -/
def shortenReason (fields : Fields) : Fields :=
  fields.map fun f => match f with
    | ("reason", .str reason) => ("reason", .str (Text.slice reason 512))
    | f => f

def parseLlmOutput (raw : String) : Except LlmFailure AgentDecisionOutput :=
  match PyLib.loads raw with
  | .error .valueError => .error .expected
  | .error .other => .error .unexpected
  | .ok data =>
    let data := match data with
      | .obj fields => .obj (shortenReason fields)
      | data => data
    match validateAgentDecisionOutput data with
    | some output => .ok output
    | none => .error .expected

def decideNode (settings : Settings) (llm : Llm) (state : RecoveryAgentState) :
    RecoveryAgentState :=
  if !settings.llmEnabled then fallbackState state "llm_disabled"
  else match (llm state).bind parseLlmOutput with
    | .ok parsed =>
      { state with
        selectedAction := some parsed.action.value
        decisionReason := some parsed.reason
        decisionSource := some .llm }
    | .error .expected => fallbackState state "llm_failed"
    | .error .unexpected => fallbackState state "llm_unexpected_failure"

def validateNode (state : RecoveryAgentState) : RecoveryAgentState :=
  match state.selectedAction.bind RecoveryActionType.ofValue with
  | some selected => { state with selectedAction := some selected.value }
  | none => fallbackState state "invalid_agent_action"

def AgentDecisionRequest.state (request : AgentDecisionRequest) : RecoveryAgentState where
  merchantId := request.merchantId
  recoveryCaseId := request.recoveryCaseId
  amountMinor := request.amountMinor
  currency := request.currency
  failureCategory := request.failureCategory
  engineCandidateAction := request.engineCandidateAction.value
  deterministicFinalAction := request.deterministicFinalAction.value
  totalActionCount := request.totalActionCount
  reminderCount := request.reminderCount
  activePaymentLinkCount := request.activePaymentLinkCount

def runRecoveryAgent (settings : Settings) (llm : Llm) (request : AgentDecisionRequest) :
    AgentDecision :=
  let result := validateNode (decideNode settings llm request.state)
  match result.selectedAction.bind RecoveryActionType.ofValue with
  | some selected =>
    ⟨selected, Text.orDefault result.decisionReason "agent_decision",
      result.decisionSource.getD .deterministicFallback⟩
  | none => ⟨request.deterministicFinalAction, "agent_unavailable", .deterministicFallback⟩

/-- The reason recorded for a decision that is not the model's own. -/
def fallbackReason (settings : Settings) (failure : LlmFailure) : String :=
  if !settings.llmEnabled then "llm_disabled"
  else match failure with
    | .expected => "llm_failed"
    | .unexpected => "llm_unexpected_failure"

/-- The agent decides as the model does where its output validates, and else as the policy did. -/
theorem runRecoveryAgent_eq (settings : Settings) (llm : Llm) (request : AgentDecisionRequest) :
    runRecoveryAgent settings llm request =
      match if settings.llmEnabled then (llm request.state).bind parseLlmOutput
        else .error .expected with
      | .ok parsed => ⟨parsed.action, Text.orDefault (some parsed.reason) "agent_decision", .llm⟩
      | .error failure =>
        ⟨request.deterministicFinalAction, fallbackReason settings failure,
          .deterministicFallback⟩ := by
  have final : request.state.deterministicFinalAction =
      request.deterministicFinalAction.value := rfl
  cases enabled : settings.llmEnabled with
  | false =>
    simp [runRecoveryAgent, decideNode, validateNode, fallbackState, fallbackReason, enabled, final,
      Text.orDefault]
  | true =>
    rcases reply : (llm request.state).bind parseLlmOutput with (_ | _) | parsed <;>
      simp [runRecoveryAgent, decideNode, validateNode, fallbackState, fallbackReason,
        enabled, reply, final, Text.orDefault]

end

end RecoverAI
