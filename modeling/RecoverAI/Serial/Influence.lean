import RecoverAI.Serial.Decision
import RecoverAI.System.Processes

/-!
# The influence of the language model

The eligible task with the model compared to the same task without it. The model's output counts
where it validates and names an action that the policy approves; else the task decides as
without the model. What the model can spoil is the audit event: a reason that the database does
not store aborts the task.
-/
namespace RecoverAI

open Store

section

variable [PyLib] (settings : Settings) (llm : Llm)

/-- The model's output, where the model is enabled and its output validates. -/
def modelOutput (request : AgentDecisionRequest) : Except LlmFailure AgentDecisionOutput :=
  if settings.llmEnabled then (llm request.state).bind parseLlmOutput else .error .expected

/-- The policy's decision on what the engine recommends. -/
def deterministicDecision (d : Db) (case : RecoveryCase) (status : RecoveryCaseStatus) :
    PolicyDecision :=
  let engine := evaluateRecovery case.amountMinor case.failureCategory
  evaluatePolicy (limitsOf d case.merchantId)
    (policyInput d case engine.action status none) engine.delayHours

/-- What the agent is asked. -/
def requestOf (d : Db) (case : RecoveryCase) (status : RecoveryCaseStatus) : AgentDecisionRequest :=
  let engine := evaluateRecovery case.amountMinor case.failureCategory
  agentRequest case engine (deterministicDecision d case status)
    (policyInput d case engine.action status none)

/-- Whether the policy approves an action of that type now. -/
def approves (d : Db) (case : RecoveryCase) (status : RecoveryCaseStatus)
    (type : RecoveryActionType) : Bool :=
  (evaluatePolicy (limitsOf d case.merchantId) (policyInput d case type status none) none).approved

/-- The type of the action the task records: the model's where the policy approves
it, else the policy's own. -/
def chosenType (d : Db) (case : RecoveryCase) : RecoveryActionType :=
  match modelOutput settings llm (requestOf d case .analysing) with
  | .ok output =>
    if approves d case .analysing output.action then output.action
    else (deterministicDecision d case .analysing).finalAction
  | .error _ => (deterministicDecision d case .analysing).finalAction

/-- The task without the model. -/
def Settings.withoutModel (settings : Settings) : Settings := { settings with llmEnabled := false }

variable {settings llm} {d : Db} {case : RecoveryCase} {status : RecoveryCaseStatus}

theorem selection_of_failure {failure : LlmFailure}
    (failed : modelOutput settings llm (requestOf d case status) = .error failure) :
    selection settings llm d case status =
      unreviewed (evaluateRecovery case.amountMinor case.failureCategory)
        (deterministicDecision d case status)
        ⟨(deterministicDecision d case status).finalAction, fallbackReason settings failure,
          .deterministicFallback⟩ := by
  have agent : runRecoveryAgent settings llm (requestOf d case status) =
      ⟨(deterministicDecision d case status).finalAction, fallbackReason settings failure,
        .deterministicFallback⟩ := by
    have eq := runRecoveryAgent_eq settings llm (requestOf d case status)
    rw [show (if settings.llmEnabled then (llm (requestOf d case status).state).bind parseLlmOutput
      else .error .expected) = .error failure from failed] at eq
    exact eq
  have picked : (runRecoveryAgent settings llm (requestOf d case status)).selectedAction =
      (deterministicDecision d case status).finalAction ∧
      (runRecoveryAgent settings llm (requestOf d case status)).source ≠ .llm := by
    rw [agent]
    exact ⟨rfl, nofun⟩
  unfold selection
  rw [← agent]
  exact if_pos picked

/-- The agent decides as the model does. -/
def agentOf (output : AgentDecisionOutput) : AgentDecision :=
  ⟨output.action, Text.orDefault (some output.reason) "agent_decision", .llm⟩

theorem selection_of_output {output : AgentDecisionOutput}
    (validated : modelOutput settings llm (requestOf d case status) = .ok output) :
    selection settings llm d case status =
      reviewed (evaluateRecovery case.amountMinor case.failureCategory)
        (deterministicDecision d case status)
        (agentOf output) (evaluatePolicy (limitsOf d case.merchantId)
          (policyInput d case output.action status none)
          (candidateDelay (evaluateRecovery case.amountMinor case.failureCategory)
            (agentOf output))) := by
  have agent : runRecoveryAgent settings llm (requestOf d case status) = agentOf output := by
    have eq := runRecoveryAgent_eq settings llm (requestOf d case status)
    rw [show (if settings.llmEnabled then (llm (requestOf d case status).state).bind parseLlmOutput
      else .error .expected) = .ok output from validated] at eq
    exact eq
  have reviews : ¬ ((runRecoveryAgent settings llm (requestOf d case status)).selectedAction =
      (deterministicDecision d case status).finalAction ∧
      (runRecoveryAgent settings llm (requestOf d case status)).source ≠ .llm) := by
    rw [agent]
    exact fun h => h.2 rfl
  have picked : output.action = (agentOf output).selectedAction := rfl
  unfold selection
  rw [picked, ← agent]
  exact if_neg reviews

/-- The reason a policy decision gives can be stored, whichever selection records it. -/
theorem selection_reason_clean :
    hasNul (selection settings llm d case status).finalPolicyReason = false := by
  unfold selection
  dsimp only
  split
  · exact evaluatePolicy_reason_clean ..
  · exact evaluatePolicy_reason_clean ..

/-- A selection with the model: its action where the policy approves it, else that of the policy. -/
theorem selection_cases {output : AgentDecisionOutput}
    (validated : modelOutput settings llm (requestOf d case status) = .ok output) :
    (selection settings llm d case status).engine =
      evaluateRecovery case.amountMinor case.failureCategory ∧
    if approves d case status output.action then
      (selection settings llm d case status).finalAction = output.action ∧
      (selection settings llm d case status).active.delayHours =
        if output.action = .wait then
          (evaluateRecovery case.amountMinor case.failureCategory).delayHours else none
    else
      (selection settings llm d case status).finalAction =
        (deterministicDecision d case status).finalAction ∧
      (selection settings llm d case status).active = deterministicDecision d case status := by
  rw [selection_of_output validated]
  refine ⟨rfl, ?_⟩
  generalize hdelay : candidateDelay (evaluateRecovery case.amountMinor case.failureCategory)
    (agentOf output) = delay
  generalize hfinal : evaluatePolicy (limitsOf d case.merchantId)
    (policyInput d case output.action status none)
    delay = final
  have same : final.approved = approves d case status output.action :=
    hfinal ▸ (evaluatePolicy_delay ..).1
  have keeps : final.approved → final.finalAction = output.action := by
    rw [← hfinal]
    exact evaluatePolicy_approved
  have delays : final.approved →
      final.delayHours = if output.action = .wait then delay else none := by
    rw [← hfinal]
    exact evaluatePolicy_delayHours
  cases approved : approves d case status output.action with
  | false => simp [reviewed, same, approved]
  | true =>
    have accepted := same.trans approved
    have action : (agentOf output).selectedAction = output.action := rfl
    simp only [if_true, reviewed, accepted, keeps accepted, delays accepted, action, decide_true,
      Bool.and_self, true_and]
    split <;> simp_all [candidateDelay]

theorem selection_finalAction :
    (selection settings llm d case .analysing).finalAction = chosenType settings llm d case := by
  unfold chosenType
  cases out : modelOutput settings llm (requestOf d case .analysing) with
  | error failure =>
    rw [selection_of_failure out]
    rfl
  | ok output =>
    have cases := (selection_cases out).2
    cases approved : approves d case .analysing output.action with
    | true =>
      simp only [approved, if_true] at cases ⊢
      exact cases.1
    | false =>
      simp only [approved, Bool.false_eq_true, if_false] at cases ⊢
      exact cases.1

/-- An action that is scheduled has the approval of the policy, a fallback included. -/
theorem approves_chosenType (executable : (chosenType settings llm d case).executable) :
    approves d case .analysing (chosenType settings llm d case) := by
  have fallback : (deterministicDecision d case .analysing).finalAction.executable →
      approves d case .analysing (deterministicDecision d case .analysing).finalAction :=
        evaluatePolicy_executable
  unfold chosenType at executable ⊢
  cases out : modelOutput settings llm (requestOf d case .analysing) with
  | error failure =>
    rw [out] at executable
    exact fallback executable
  | ok output =>
    simp only [out] at executable ⊢
    cases approved : approves d case .analysing output.action with
    | true => simpa using approved
    | false =>
      simp only [approved, Bool.false_eq_true, if_false] at executable ⊢
      exact fallback executable

theorem selection_finalAction_withoutModel :
    (selection settings.withoutModel llm d case status).finalAction =
      (deterministicDecision d case status).finalAction := by
  have failed : modelOutput settings.withoutModel llm (requestOf d case status) =
      .error .expected := rfl
  rw [selection_of_failure failed]
  rfl

theorem selection_withoutModel : (selection settings.withoutModel llm d case status).engine =
      evaluateRecovery case.amountMinor case.failureCategory ∧
    (selection settings.withoutModel llm d case status).active =
      deterministicDecision d case status ∧
    (selection settings.withoutModel llm d case status).agent.reason = "llm_disabled" := by
  have failed : modelOutput settings.withoutModel llm (requestOf d case status) =
      .error .expected := rfl
  rw [selection_of_failure failed]
  exact ⟨rfl, rfl, rfl⟩

/-- The model's action is to be recorded in place of the policy's own. -/
def Overrides (d : Db) (case : RecoveryCase) (output : AgentDecisionOutput) : Prop :=
  approves d case .analysing output.action ∧
    output.action ≠ (deterministicDecision d case .analysing).finalAction

instance (d  : Db) (case : RecoveryCase) (output : AgentDecisionOutput) :
    Decidable (Overrides d case output) :=
  inferInstanceAs (Decidable (_ ∧ _))

/-- A model that overrides nothing changes neither the action nor its time. -/
theorem selection_agrees
    (follows : ∀ output, modelOutput settings llm (requestOf d case .analysing) = .ok output →
      ¬ Overrides d case output) (now : Time) :
    (selection settings llm d case .analysing).finalAction =
        (selection settings.withoutModel llm d case .analysing).finalAction ∧
      (selection settings llm d case .analysing).nextActionAt now =
        (selection settings.withoutModel llm d case .analysing).nextActionAt now := by
  obtain ⟨engine₀, active₀, -⟩ := @selection_withoutModel _ settings llm d case .analysing
  have final₀ := @selection_finalAction_withoutModel _ settings llm d case .analysing
  cases out : modelOutput settings llm (requestOf d case .analysing) with
  | error failure =>
    have final : (selection settings llm d case .analysing).finalAction =
        (deterministicDecision d case .analysing).finalAction := by
      rw [selection_of_failure out]
      rfl
    refine ⟨final.trans final₀.symm, ?_⟩
    unfold Selection.nextActionAt Selection.delayHours
    rw [final, final₀, active₀, engine₀, selection_of_failure out]
    rfl
  | ok output =>
    obtain ⟨engine, cases⟩ := selection_cases out
    cases approved : approves d case .analysing output.action with
    | false =>
      simp only [approved, Bool.false_eq_true, if_false] at cases
      refine ⟨cases.1.trans final₀.symm, ?_⟩
      unfold Selection.nextActionAt Selection.delayHours
      rw [cases.1, cases.2, final₀, active₀, engine₀, engine]
    | true =>
      simp only [approved, if_true] at cases
      have same : output.action = (deterministicDecision d case .analysing).finalAction := by
        by_contra other
        exact follows output out ⟨approved, other⟩
      have final := cases.1.trans same
      refine ⟨final.trans final₀.symm, ?_⟩
      unfold Selection.nextActionAt Selection.delayHours
      rw [final, final₀, active₀, engine₀, engine, cases.2, same]
      split
      next waits =>
        -- The delay of a `WAIT`: the engine's, or the one hour of the policy's fallback.
        have asked := evaluateRecovery_delay case.amountMinor case.failureCategory
        rcases evaluatePolicy_wait waits with ⟨candidate, delay⟩ | ⟨candidate, delay⟩ <;>
          change (deterministicDecision d case .analysing).delayHours = _ at delay <;>
          simp only [policyInput] at candidate <;> simp [delay, asked, candidate]
      next => rfl

end

/-! ## What is committed -/

/-- The database after a transaction; one that raises leaves no trace. -/
def committed {α : Type} (d : Db) : Except Err (α × Db) → Db
  | .ok (_, d') => d'
  | .error _ => d

/-- The databases agree on everything but audit events. -/
def Db.AgreeButAudits (d d' : Db) : Prop := { d with audits := d'.audits } = d'

instance (action existing : RecoveryAction) : Decidable (SameAttempt action existing) :=
  inferInstanceAs (Decidable (_ ∨ _))

/-- The task can record an action of that type: nothing has its key, and the version has room. -/
def Recordable (d : Db) (env : Draws) (case : RecoveryCase) (type : RecoveryActionType) : Prop :=
  integer (case.version + 3) ∧ ∀ a ∈ d.actions, ¬ SameAttempt (newAction env case type) a

/-- What a task commits that records nothing. -/
def unrecorded (d : Db) (env : Draws) (case : RecoveryCase) (type : RecoveryActionType) : Db :=
  if integer (case.version + 1) ∧ ∃ a ∈ d.actions.rows, SameAttempt (newAction env case type) a then
    view d (openedRows d env case)
  else d

section

variable [PyLib] {settings : Settings} {llm : Llm} {env : Draws} {d : Db} {case : RecoveryCase}
  {outboxEventId : String} {source : Uuid}

variable (settings llm) in
theorem committed_eligible (valid : d.Valid) (fresh : env.Fresh d)
    (parsed : Uuid.parse outboxEventId = some source) (calls : CallsFor d outboxEventId case) :
    let s := selection settings llm d case .analysing
    let after := committed d ((processEligibleEvent settings llm env outboxEventId).run d)
    (Recordable d env case s.finalAction → after = if hasNul s.agent.reason then d else
      view d (decisionRows env case case source.str s
        (newPolicies d env.policyId case.merchantId))) ∧
    (¬ Recordable d env case s.finalAction → after = unrecorded d env case s.finalAction) := by
  intro s after
  have run : (processEligibleEvent settings llm env outboxEventId).run d = _ :=
    run_eligible valid fresh parsed calls
  obtain ⟨id, outbox, -, -, -, hc, -⟩ := calls
  obtain ⟨stored, -⟩ := valid.caseRow hc
  have positive : 0 < case.version := by
    simpa using (by simpa [Row.checks] using stored.2 : _ ∧ _).2
  have storable : (Json.obj (decisionAudit env case source.str s).payload).storable =
      !hasNul s.agent.reason :=
    storable_decisionAudit selection_reason_clean
  have noActions : actionsOf (openedRows d env case) = [] := by
    simp [openedRows, newPolicies_tables, List.filterMap_cons, Row.action?]
  cases room : integer (case.version + 1) with
  | false =>
    have full : integer (case.version + 3) = false := by
      by_contra room₃
      rw [Bool.not_eq_false] at room₃
      rw [integer_of_le (by omega) (by omega) room₃] at room
      cases room
    rw [room] at run
    have untouched : after = d := by simp [after, run, committed]
    refine ⟨fun h => absurd (full.symm.trans h.1) Bool.false_ne_true, fun _ => ?_⟩
    simp [untouched, unrecorded, room]
  | true =>
    rw [room, if_pos rfl] at run
    by_cases existing : ∃ a ∈ d.actions, SameAttempt (newAction env case s.finalAction) a
    · rw [run_recordAction_blocked noActions existing] at run
      obtain ⟨a, ha, same⟩ := existing
      refine ⟨fun h => absurd same (h.2 a ha), fun _ => ?_⟩
      simp only [after, run, committed]
      exact (if_pos ⟨room, a, ha, same⟩).symm
    · have free : ∀ a ∈ d.actions, ¬ SameAttempt (newAction env case s.finalAction) a :=
        fun a ha same => existing ⟨a, ha, same⟩
      rw [run_recordAction valid fresh hc room free, storable] at run
      refine ⟨fun h => ?_, fun h => ?_⟩
      · simp only [after, run, h.1, Bool.true_and]
        cases hasNul s.agent.reason <;> rfl
      · have full : integer (case.version + 3) = false := by
          by_contra room₃
          rw [Bool.not_eq_false] at room₃
          exact h ⟨room₃, free⟩
        have untouched : after = d := by simp [after, run, full, committed]
        rw [untouched]
        refine (if_neg ?_).symm
        rintro ⟨-, a, ha, same⟩
        exact free a ha same

omit [PyLib] in
/-- Selections of one action for one time write the same rows. -/
theorem agree_of_selection {s s' : Selection} (action : s'.finalAction = s.finalAction)
    (time : s'.nextActionAt env.now = s.nextActionAt env.now) (source : String) (ps : List Row) :
    (view d (decisionRows env case case source s ps)).AgreeButAudits
      (view d (decisionRows env case case source s' ps)) := by
  have status : s'.finalStatus = s.finalStatus := by
    unfold Selection.finalStatus
    rw [action]
  have decided : case.decided s' env.now = case.decided s env.now := by
    unfold RecoveryCase.decided
    rw [action, time, status]
  have scheduled : scheduledRows env case s' = scheduledRows env case s := by
    unfold scheduledRows
    rw [action, time]
  unfold decisionRows
  rw [action, decided, scheduled]
  simp only [Db.AgreeButAudits, view_append]
  rfl

omit [PyLib] in
/-- The case a task has decided. -/
theorem get_decided (s : Selection) (source : String) (newId : Uuid) :
    (view d (decisionRows env case case source s (newPolicies d newId case.merchantId))).cases.get
      case.id =
      some (case.decided s env.now) := by
  have id : case.id = (case.decided s env.now).id := rfl
  rw [id]
  refine view_case_of_getLast? ?_
  simp [decisionRows, List.filterMap_cons, Row.case?, scheduledRows_tables, newPolicies_tables]

omit [PyLib] in
theorem unrecorded_actions (type : RecoveryActionType) :
    (unrecorded d env case type).actions = d.actions := by
  unfold unrecorded
  split
  · simp [openedRows, newPolicies_tables, List.filterMap_cons, Row.action?]
  · rfl

/-- The model decides among what the policy approves, and else has no influence. -/
def ModelBounded (settings : Settings) (llm : Llm) (env : Draws) (d : Db) (case : RecoveryCase)
    (outboxEventId : String) : Prop :=
  let without :=
    committed d ((processEligibleEvent settings.withoutModel llm env outboxEventId).run d)
  let after := committed d ((processEligibleEvent settings llm env outboxEventId).run d)
  match modelOutput settings llm (requestOf d case .analysing) with
  | .ok output =>
    if Overrides d case output then ∃ a ∈ after.actions, a.id = env.actionId ∧
      a.recoveryCaseId = case.id ∧
      a.actionType = output.action
    else without.AgreeButAudits after
  | .error _ => without.AgreeButAudits after

/-- A validated output can be recorded: its reason has no NUL character, and its action, where it
counts, can be written. -/
def ModelStorable (settings : Settings) (llm : Llm) (env : Draws) (d : Db) (case : RecoveryCase) :
    Prop :=
  ∀ output, modelOutput settings llm (requestOf d case .analysing) = .ok output →
    if Overrides d case output then hasNul output.reason = false ∧
      Recordable d env case output.action
    else hasNul output.reason = false ∨
      ¬ Recordable d env case (deterministicDecision d case .analysing).finalAction

theorem not_modelBounded {output : AgentDecisionOutput}
    (out : modelOutput settings llm (requestOf d case .analysing) = .ok output)
    (overrides : Overrides d case output)
    (missing : ∀ a ∈
      (committed d ((processEligibleEvent settings llm env outboxEventId).run d)).actions,
      a.id ≠ env.actionId) : ¬ ModelBounded settings llm env d case outboxEventId := by
  unfold ModelBounded
  simp only [out, if_pos overrides]
  rintro ⟨a, ha, id, -⟩
  exact missing a ha id

omit [PyLib] in
theorem hasNul_agentOf (output : AgentDecisionOutput) :
    hasNul (agentOf output).reason = hasNul output.reason := by
  by_cases empty : output.reason = ""
  · simp only [agentOf, Text.orDefault, empty, if_true]
    rfl
  · simp [agentOf, Text.orDefault, empty]

theorem model_bounded_iff (valid : d.Valid) (fresh : env.Fresh d)
    (calls : CallsFor d outboxEventId case) :
    ModelBounded settings llm env d case outboxEventId ↔ ModelStorable settings llm env d case := by
  obtain ⟨source, outbox, parsed, -, -, hc, eligible⟩ := id calls
  obtain ⟨recorded, missed⟩ := committed_eligible settings llm valid fresh parsed calls
  obtain ⟨recorded₀, missed₀⟩ :=
    committed_eligible settings.withoutModel llm valid fresh parsed calls
  have final₀ := @selection_finalAction_withoutModel _ settings llm d case .analysing
  have clean₀ :
      hasNul (selection settings.withoutModel llm d case .analysing).agent.reason = false := by
    rw [selection_withoutModel.2.2]
    rfl
  -- Where nothing is overridden, the two runs differ only by the reason that is recorded.
  have follows : (∀ output, modelOutput settings llm (requestOf d case .analysing) = .ok output →
        ¬ Overrides d case output) →
      ((committed d
        ((processEligibleEvent settings.withoutModel llm env outboxEventId).run d)).AgreeButAudits
        (committed d ((processEligibleEvent settings llm env outboxEventId).run d)) ↔
      (hasNul (selection settings llm d case .analysing).agent.reason = false ∨
        ¬ Recordable d env case (deterministicDecision d case .analysing).finalAction)) := by
    intro follows
    obtain ⟨action, time⟩ := selection_agrees follows env.now
    rw [action, final₀] at recorded missed
    rw [final₀] at recorded₀ missed₀
    by_cases h : Recordable d env case (deterministicDecision d case .analysing).finalAction
    · rw [recorded h, recorded₀ h, clean₀]
      cases reason : hasNul (selection settings llm d case .analysing).agent.reason with
      | false => simpa [h] using agree_of_selection action time source.str _
      | true =>
        simp only [if_true, Bool.true_eq_false, h, not_true, or_self, iff_false,
          Bool.false_eq_true, if_false]
        intro agree
        have cases := congrArg (fun d : Db => d.cases.get case.id) agree
        simp only [get_decided, hc, Option.some.injEq] at cases
        exact (finalStatus_ne _).1 ((congrArg RecoveryCase.status cases).trans eligible)
    · rw [missed h, missed₀ h]
      simp [h, Db.AgreeButAudits]
  unfold ModelBounded ModelStorable
  cases out : modelOutput settings llm (requestOf d case .analysing) with
  | error failure =>
    have clean : hasNul (selection settings llm d case .analysing).agent.reason = false := by
      rw [selection_of_failure out]
      change hasNul (fallbackReason settings failure) = false
      unfold fallbackReason
      split
      · rfl
      · cases failure <;> rfl
    simpa using (follows fun output h => by rw [out] at h; cases h).2 (.inl clean)
  | ok output =>
    have reason : hasNul (selection settings llm d case .analysing).agent.reason =
        hasNul output.reason := by
      rw [selection_of_output out]
      exact hasNul_agentOf output
    simp only [Except.ok.injEq, forall_eq']
    by_cases overrides : Overrides d case output
    · simp only [if_pos overrides]
      have final : (selection settings llm d case .analysing).finalAction = output.action := by
        have cases := (selection_cases out).2
        rw [if_pos overrides.1] at cases
        exact cases.1
      rw [final] at recorded missed
      rw [reason] at recorded
      have absent : ∀ a ∈ d.actions, a.id ≠ env.actionId := Table.get_eq_none.1 fresh.action
      by_cases h : Recordable d env case output.action
      · rw [recorded h]
        cases hasNul output.reason with
        | false =>
          have written : newAction env case output.action ∈
              (view d (decisionRows env case case source.str
              (selection settings llm d case .analysing)
                (newPolicies d env.policyId case.merchantId))).actions := by
            simp [decisionRows, List.filterMap_cons, Row.action?, scheduledRows_tables,
              newPolicies_tables, final]
          simp only [Bool.false_eq_true, if_false]
          exact iff_of_true ⟨_, written, rfl, rfl, rfl⟩ ⟨trivial, h⟩
        | true =>
          simp only [if_true, Bool.true_eq_false, false_and, iff_false, not_exists, not_and]
          exact fun a ha id => absurd id (absent a ha)
      · rw [missed h, unrecorded_actions]
        simp only [h, and_false, iff_false, not_exists, not_and]
        exact fun a ha id => absurd id (absent a ha)
    · simp only [if_neg overrides]
      rw [← reason]
      exact follows fun output' h => Except.ok.inj (out.symm.trans h) ▸ overrides

end

/-- `{"action":"STOP","reason":"\\u0000"}` -/
def nulOutput : String := "\x7b\"action\":\"STOP\",\"reason\":\"\\u0000\"\x7d"

/-- `{"action":"STOP","reason":"paid"}` -/
def stopOutput : String := "\x7b\"action\":\"STOP\",\"reason\":\"paid\"\x7d"

/-- The library on these two answers of the model. -/
@[reducible] def stopLib : PyLib :=
  { PyLib.recorded [] with
    loads := fun s =>
      if s = nulOutput then .ok (.obj [("action", .str "STOP"), ("reason", .str "\x00")])
      else if s = stopOutput then .ok (.obj [("action", .str "STOP"), ("reason", .str "paid")])
      else .error .valueError }

theorem eligibleDb_callsFor [PyText] : CallsFor eligibleDb (Uuid.ofNat 14).str sampleCase := by
  have item : Json.item
      (eligibleOutbox (Env.numbered 1).draws ⟨.ofNat 1, true⟩ samplePayment sampleCase).payload
      "recovery_case_id" = .str sampleCase.id.str := by
    simp [eligibleOutbox, caseOutbox, Json.item, List.lookup_cons]
  refine ⟨.ofNat 14, _, Uuid.parse_str _, Table.get_put_self .empty _, ?_,
    Table.get_put_self .empty _, rfl⟩
  rw [item, Json.uuid_str]

theorem model_bounded_iff_sample :
    let _ : PyLib := stopLib
    modelOutput { llmEnabled := true } (fun _ => .ok stopOutput)
      (requestOf eligibleDb sampleCase .analysing) =
        .ok ⟨.stop, "paid", none⟩ ∧
      (ModelBounded { llmEnabled := true } (fun _ => .ok stopOutput) (Env.numbered 2).draws
          eligibleDb sampleCase (Uuid.ofNat 14).str ↔
        ModelStorable { llmEnabled := true } (fun _ => .ok stopOutput) (Env.numbered 2).draws
          eligibleDb sampleCase) := by
  intro _
  exact ⟨by decide +kernel,
    model_bounded_iff (by decide +kernel) (by decide +kernel) eligibleDb_callsFor⟩

/-- The policy approves the model's action, but its reason has a NUL
character: nothing is recorded. -/
theorem model_unbounded : ¬ @ModelBounded stopLib { llmEnabled := true } (fun _ => .ok nulOutput)
    (Env.numbered 2).draws eligibleDb sampleCase (Uuid.ofNat 14).str := by
  let _ : PyLib := stopLib
  have output : modelOutput { llmEnabled := true } (fun _ => .ok nulOutput)
      (requestOf eligibleDb sampleCase .analysing) = .ok ⟨.stop, "\x00", none⟩ := by decide +kernel
  have overrides : Overrides eligibleDb sampleCase ⟨.stop, "\x00", none⟩ := by decide +kernel
  have nothing :
      (committed eligibleDb ((processEligibleEvent { llmEnabled := true } (fun _ => .ok nulOutput)
      (Env.numbered 2).draws (Uuid.ofNat 14).str).run eligibleDb)).actions.rows = [] := by
    decide +kernel
  refine not_modelBounded output overrides fun a ha => ?_
  rw [← Table.mem_rows, nothing] at ha
  exact absurd ha List.not_mem_nil

end RecoverAI
