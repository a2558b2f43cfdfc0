import RecoverAI.Effects.Eligible
import RecoverAI.Serial.Statements

/-!
# The eligible task alone

The result of the eligible task as a function of the database: the selection that the policy and the
agent make of its counts, and the rows that are written. The task stops on an action of the same
attempt, and fails where a version or a text leaves its column.
-/
namespace RecoverAI

open Store

variable {d : Db}

/-! ## Guarded transitions -/

theorem atomicTransition_eq {id : Uuid} {old new : RecoveryCaseStatus} {version : Int}
    (valid : RecoveryCaseStatus.validateTransition old new = .ok ()) :
    atomicTransitionRecoveryCase id old version new =
      query (.updateCase id old version new none) := by
  simp [atomicTransitionRecoveryCase, requireTransition, valid]

theorem atomicTransitionWithNextActionAt_eq {id : Uuid} {old new : RecoveryCaseStatus}
    {version : Int} {next : Time} (valid : RecoveryCaseStatus.validateTransition old new = .ok ()) :
    atomicTransitionWithNextActionAt id old version new next =
      query (.updateCase id old version new (some next)) := by
  simp [atomicTransitionWithNextActionAt, requireTransition, valid]

/-- A handler that passes database errors on does nothing to a query. -/
theorem run_tryCatch_query {α : Type} {st : Stmt} {f : st.Result → α} {handler : Err → Tx α}
    (passes : ∀ e, handler (.db e) = .throw (.db e)) :
    ((query st >>= fun r => .pure (f r)).tryCatch handler).run d =
      ((query st).run d).map fun r => (f r.1, r.2) := by
  simp only [query, Txn.sql_bind, Txn.tryCatch, Txn.run, exec]
  cases (Db.exec st d).1 with
  | ok r => rfl
  | error e => simp [Txn.tryCatch, passes, Except.map]

theorem run_catchingTransition {id : Uuid} {old new : RecoveryCaseStatus} {version : Int}
    (valid : RecoveryCaseStatus.validateTransition old new = .ok ()) :
    (catchingInvalidTransition (atomicTransitionRecoveryCase id old version new)).run d =
      ((query (.updateCase id old version new none)).run d).map fun r => (some r.1, r.2) := by
  rw [atomicTransition_eq valid]
  exact run_tryCatch_query fun _ => rfl

/-! ## The selection -/

theorem policyInput_congr {d d' : Db} (h : d'.actions = d.actions) :
    policyInput d' = policyInput d := by
  unfold policyInput
  rw [h]

theorem newPolicies_tables (d : Db) (newId merchantId : Uuid) :
    casesOf (newPolicies d newId merchantId) = [] ∧
      actionsOf (newPolicies d newId merchantId) = [] ∧
      outboxOf (newPolicies d newId merchantId) = [] ∧
        auditsOf (newPolicies d newId merchantId) = [] := by
  unfold newPolicies
  split <;> simp [Row.case?, Row.action?, Row.outbox?, Row.audit?]

section

variable [PyLib] (settings : Settings) (llm : Llm)

/-- What `selectAction` selects, from the policy and the counts in `d`. -/
def selection (d : Db) (case : RecoveryCase) (status : RecoveryCaseStatus) : Selection :=
  let engine := evaluateRecovery case.amountMinor case.failureCategory
  let limits := limitsOf d case.merchantId
  let input := policyInput d case engine.action status none
  let deterministic := evaluatePolicy limits input engine.delayHours
  let agent := runRecoveryAgent settings llm (agentRequest case engine deterministic input)
  if agent.selectedAction = deterministic.finalAction ∧ agent.source ≠ .llm then
    unreviewed engine deterministic agent
  else
    reviewed engine deterministic agent
      (evaluatePolicy limits (policyInput d case agent.selectedAction status none)
        (candidateDelay engine agent))

theorem selection_congr {d d' : Db} (policies : d'.policies = d.policies)
    (actions : d'.actions = d.actions) : selection settings llm d' = selection settings llm d := by
  unfold selection limitsOf
  rw [policyInput_congr actions, policies]

variable {settings llm}

theorem run_selection {env : Draws} {case : RecoveryCase} {status : RecoveryCaseStatus}
    (fresh : d.lacks (.policy env.policyId)) (known : (d.merchants.get case.merchantId).isSome) :
    (selectAction settings llm env case status).run d = .ok (selection settings llm d case status,
      view d (newPolicies d env.policyId case.merchantId)) := by
  obtain ⟨policy, run, limits⟩ := run_getOrCreateDefaultPolicy fresh known
  have counts : policyInput (view d (newPolicies d env.policyId case.merchantId)) = policyInput d :=
    policyInput_congr (by simp [newPolicies_tables])
  unfold selectAction
  rw [run_bind_ok run, run_bind_ok (run_buildPolicyInput ..), limits, counts]
  unfold selection
  dsimp only
  split
  · rfl
  · rw [run_bind_ok (run_buildPolicyInput ..), counts]
    rfl

end

/-! ## Rows that fit -/

theorem fits_newAction (env : Draws) (case : RecoveryCase) (type : RecoveryActionType) :
    (Row.action (newAction env case type)).Stored := by
  have key := varchar_recoveryActionIdempotencyKey case.id type (n := 1) rfl
  refine ⟨?_, rfl⟩
  simp only [Row.fits, newAction, key]
  rfl

theorem fits_actionScheduledOutbox (env : Draws) (case : RecoveryCase) (a : RecoveryAction)
    (at_ : Time) : (Row.outbox (actionScheduledOutbox env case a at_)).Stored := by
  have names : varchar 64 "recovery_case" ∧
      varchar 128 "recovery_case.action_scheduled" := ⟨rfl, rfl⟩
  have entity : varchar 64 case.id.str := by simp [varchar]
  have key : varchar 128 ("recovery_case.action_scheduled:" ++ case.id.str ++ ":" ++ a.id.str) := by
    have text : "recovery_case.action_scheduled:".length = 31 ∧ ":".length = 1 := ⟨rfl, rfl⟩
    have clean : hasNul "recovery_case.action_scheduled:" = false ∧ hasNul ":" = false := ⟨rfl, rfl⟩
    simp [varchar, text, clean]
  have payload : (Json.obj (actionScheduledOutbox env case a at_).payload).storable := by
    have clean : hasNul "recovery_case_id" = false ∧
        hasNul "recovery_action_id" = false := ⟨rfl, rfl⟩
    simp [actionScheduledOutbox, Json.storable, Json.storableFields, clean]
  refine ⟨?_, rfl⟩
  simp only [Row.fits, payload]
  simp [actionScheduledOutbox, names, entity, key]
  rfl

/-- The audit event of a decision fits its columns where its payload does. -/
theorem fits_decisionAudit (env : Draws) (case : RecoveryCase) (source : String) (s : Selection) :
    (Row.audit (decisionAudit env case source s)).fits =
      (Json.obj (decisionAudit env case source s).payload).storable := by
  have names : varchar 64 "recovery_case" ∧ varchar 128 "recovery_case.decision" ∧
      varchar 64 "policy_agent_worker" := ⟨rfl, rfl, rfl⟩
  have entity : varchar 64 case.id.str := by simp [varchar]
  simp [Row.fits, decisionAudit, names, entity]

@[simp] theorem hasNul_actionType (type : RecoveryActionType) : hasNul type.value = false := by
  cases type <;> rfl

@[simp] theorem hasNul_caseStatus (status : RecoveryCaseStatus) : hasNul status.value = false := by
  cases status <;> rfl

@[simp] theorem hasNul_decisionSource (source : DecisionSource) : hasNul source.value = false := by
  cases source <;> rfl

theorem evaluatePolicy_reason_clean (limits : PolicyLimits) (input : PolicyInput)
    (delay : Option Rat) : hasNul (evaluatePolicy limits input delay).reason = false := by
  unfold evaluatePolicy
  dsimp only
  split_ifs <;> dsimp only <;> rfl

/-- Of the texts of a decision only the agent's reason may not be stored. -/
theorem storable_decisionAudit {env : Draws} {case : RecoveryCase} {source : Uuid} {s : Selection}
    (reason : hasNul s.finalPolicyReason = false) :
    (Json.obj (decisionAudit env case source.str s).payload).storable = !hasNul s.agent.reason := by
  have names : hasNul "outbox_event_id" = false ∧ hasNul "engine_action" = false ∧
      hasNul "deterministic_action" = false ∧ hasNul "agent_action" = false ∧
        hasNul "agent_source" = false ∧
      hasNul "agent_reason" = false ∧ hasNul "final_action" = false ∧
        hasNul "final_policy_approved" = false ∧
      hasNul "final_policy_reason" = false ∧ hasNul "final_status" = false :=
    ⟨rfl, rfl, rfl, rfl, rfl, rfl, rfl, rfl, rfl, rfl⟩
  simp [decisionAudit, Json.storable, Json.storableFields, names, reason]

/-! ## The task -/

/-- The rows before the action: the case in analysis, and the merchant's policy if it had none. -/
def openedRows (d : Db) (env : Draws) (case : RecoveryCase) : List Row :=
  .recoveryCase case.analysing :: newPolicies d env.policyId case.merchantId

/-- Keys that are absent from a table stay so where nothing is written to it. -/
theorem Db.Absent.lacks_view {r : Row} {ws : List Row} (h : d.Absent r)
    (same : (view d ws).rowsLike r = d.rowsLike r) : ∀ k ∈ r.keys, (view d ws).lacks k :=
  fun k hk =>
  (lacks_iff hk).2 (same ▸ (lacks_iff hk).1 (h k hk))

section

variable {env : Draws} {case : RecoveryCase}

theorem Db.Valid.caseRow (valid : d.Valid) {id : Uuid} (hc : d.cases.get id = some case) :
    (Row.recoveryCase case).Stored ∧ (d.merchants.get case.merchantId).isSome := by
  have mem := Db.mem_rows_case.2 (Table.get_eq_some.1 hc).1
  have refs := valid.references _ mem
  simp only [Db.references, Row.merchantId, Bool.and_eq_true] at refs
  exact ⟨valid.stored _ mem, refs.1⟩

theorem absent_newAction (fresh : env.Fresh d) {type : RecoveryActionType}
    (free : ∀ a ∈ d.actions, ¬ SameAttempt (newAction env case type) a) :
    d.Absent (.action (newAction env case type)) := by
  intro k hk
  simp only [Row.keys, List.mem_cons, List.not_mem_nil, or_false] at hk
  rcases hk with rfl | rfl | rfl
  · exact fresh.action
  · exact fun a ha same => free a ha (.inl same)
  · exact fun a ha same => free a ha (.inr same)

theorem absent_scheduled (fresh : env.Fresh d) {id : Uuid} (hc : d.cases.get id = some case)
    (type : RecoveryActionType) (at_ : Time) :
    d.Absent (.outbox (actionScheduledOutbox env case (newAction env case type) at_)) := by
  intro k hk
  simp only [Row.keys, List.mem_cons, List.not_mem_nil, or_false] at hk
  rcases hk with rfl | rfl
  · exact fresh.outbox
  · exact fresh.scheduled case (Table.get_eq_some.1 hc).1

theorem absent_decisionAudit (fresh : env.Fresh d) (source : String) (s : Selection) :
    d.Absent (.audit (decisionAudit env case source s)) := by
  intro k hk
  obtain rfl := List.mem_singleton.1 hk
  exact fresh.audit

/-- Where the version has room for two more, it has room for one. -/
theorem integer_of_le {m n : Int} (positive : 0 < m) (le : m ≤ n) (room : integer n) :
    integer m := by
  simp only [integer, Bool.and_eq_true, decide_eq_true_eq] at room ⊢
  omega

theorem run_recordAction_blocked {source : String} {version : Int} {s : Selection} {ws : List Row}
    (none : actionsOf ws = [])
    (existing : ∃ a ∈ d.actions, SameAttempt (newAction env case s.finalAction) a) :
    (recordAction env case source version s).run (view d ws) =
      .ok (ignored "action_already_exists", view d ws) := by
  have existing' : ∃ a ∈ (view d ws).actions, SameAttempt (newAction env case s.finalAction) a := by
    simpa [none] using existing
  obtain ⟨a, run⟩ :=
    run_createRecoveryActionIdempotent_existing (fits_newAction env case s.finalAction).1 existing'
  unfold recordAction
  rw [run_bind_ok run]
  rfl

/-- The last transition of the case, seen as one statement. -/
theorem finalTransition_eq (s : Selection) (version : Int) : finalTransition env case version s =
    query (.updateCase case.id .actionSelected version s.finalStatus
      (if s.finalAction.executable then some (s.nextActionAt env.now) else none)) := by
  unfold finalTransition Selection.finalStatus
  cases s.finalAction
  case stop | escalate => exact atomicTransition_eq (by decide)
  all_goals exact atomicTransitionWithNextActionAt_eq (by decide)

theorem transition_selected (c : RecoveryCase) :
    Db.transition .actionSelected (c.version + 1 + 1) none c.analysing = c.selected := by
  simp [Db.transition, RecoveryCase.analysing, RecoveryCase.selected, add_assoc]

theorem transition_decided (c : RecoveryCase) (s : Selection) (now : Time) :
    Db.transition s.finalStatus (c.version + 2 + 1)
      (if s.finalAction.executable then some (s.nextActionAt now)
      else none) c.selected = c.decided s now := by
  cases h : s.finalAction.executable <;>
    simp [Db.transition, RecoveryCase.selected, RecoveryCase.decided, add_assoc, h]

theorem run_insertDecisionAudit {source : String} {s : Selection} {d : Db}
    (absent : d.Absent (.audit (decisionAudit env case source s)))
    (known : (d.merchants.get case.merchantId).isSome) :
    (insertDecisionAudit env case source s).run d =
      if (Json.obj (decisionAudit env case source s).payload).storable then
        .ok ((), d.put (.audit (decisionAudit env case source s)))
      else .error (.db .data) := by
  have fits := fits_decisionAudit env case source s
  unfold insertDecisionAudit
  cases storable : (Json.obj (decisionAudit env case source s).payload).storable with
  | true =>
    have refs : d.references (.audit (decisionAudit env case source s)) := by
      simpa [Db.references, Row.merchantId, decisionAudit] using known
    exact run_insert ⟨fits.trans storable, rfl, absent, refs⟩
  | false => exact run_insert_error (by simp [Db.insertError, fits, storable])

/-- The end of the task: the event of a scheduled action and the audit event. -/
theorem run_announce {source : String} {s : Selection} {d : Db} (r : Fields)
    (outbox : d.Absent (.outbox (actionScheduledOutbox env case (newAction env case s.finalAction)
      (s.nextActionAt env.now))))
    (audit : d.Absent (.audit (decisionAudit env case source s)))
    (known : (d.merchants.get case.merchantId).isSome) :
    (if s.finalStatus = .actionScheduled then do
        insertActionScheduledOutbox env case (newAction env case s.finalAction)
          (s.nextActionAt env.now)
        insertDecisionAudit env case source s
        pure r
      else do
        insertDecisionAudit env case source s
        pure r : Tx Fields).run d =
      if (Json.obj (decisionAudit env case source s).payload).storable then
        .ok (r, view d (scheduledRows env case s ++ [.audit (decisionAudit env case source s)]))
      else .error (.db .data) := by
  have finish : ∀ d' : Db, d'.Absent (.audit (decisionAudit env case source s)) →
      (d'.merchants.get case.merchantId).isSome →
      (insertDecisionAudit env case source s >>= fun _ => (pure r : Tx Fields)).run d' =
        if (Json.obj (decisionAudit env case source s).payload).storable then
          .ok (r, d'.put (.audit (decisionAudit env case source s)))
        else .error (.db .data) := by
    intro d' absent known
    rw [Txn.run_bind, run_insertDecisionAudit absent known]
    split <;> rfl
  cases executable : s.finalAction.executable with
  | false =>
    rw [if_neg fun h =>
      by simp [s.finalStatus_eq_actionScheduled.1 h] at executable, finish d audit known]
    simp [scheduledRows, executable, view, apply]
  | true =>
    obtain ⟨fits, checks⟩ := fits_actionScheduledOutbox env case (newAction env case s.finalAction)
      (s.nextActionAt env.now)
    have insertable : Insertable d
        (.outbox (actionScheduledOutbox env case (newAction env case s.finalAction)
        (s.nextActionAt env.now))) :=
      ⟨fits, checks, outbox,
        by simpa [Db.references, Row.merchantId, actionScheduledOutbox] using known⟩
    have inserted : (insertActionScheduledOutbox env case (newAction env case s.finalAction)
        (s.nextActionAt env.now)).run d = .ok ((), view d [.outbox (actionScheduledOutbox env case
          (newAction env case s.finalAction) (s.nextActionAt env.now))]) := run_insert insertable
    have absent :
        (view d [.outbox (actionScheduledOutbox env case (newAction env case s.finalAction)
        (s.nextActionAt env.now))]).Absent (.audit (decisionAudit env case source s)) :=
          audit.lacks_view rfl
    rw [if_pos (s.finalStatus_eq_actionScheduled.2 executable), run_bind_ok inserted,
      finish _ absent known]
    simp [scheduledRows, executable, view, apply]

/-- The task without an action of the same attempt: the version and the audit event decide. -/
theorem run_recordAction (valid : d.Valid) (fresh : env.Fresh d)
    (hc : d.cases.get case.id = some case) (room : integer (case.version + 1)) {source : String}
    {s : Selection} (free : ∀ a ∈ d.actions, ¬ SameAttempt (newAction env case s.finalAction) a) :
    (recordAction env case source (case.version + 1) s).run (view d (openedRows d env case)) =
      if integer (case.version + 3) &&
        (Json.obj (decisionAudit env case source s).payload).storable then
        .ok (processedResult case s, view d (decisionRows env case case source s
          (newPolicies d env.policyId case.merchantId)))
      else .error (.db .data) := by
  obtain ⟨stored, known⟩ := valid.caseRow hc
  obtain ⟨noCases, noActions, noOutbox, noAudits⟩ :=
    newPolicies_tables d env.policyId case.merchantId
  have positive : 0 < case.version := by
    simpa using (by simpa [Row.checks] using stored.2 : _ ∧ _).2
  have cases₁ : (view d (openedRows d env case)).cases.get case.id = some case.analysing := by
    have written : case.analysing.id = case.id := rfl
    rw [← written]
    exact view_case_of_getLast? (by simp [openedRows, noCases, Row.case?])
  have known' : ((view d (openedRows d env case)).merchants.get case.merchantId).isSome := by
    simpa using known
  have action : Insertable (view d (openedRows d env case))
      (.action (newAction env case s.finalAction)) := by
    refine ⟨(fits_newAction ..).1, (fits_newAction ..).2,
      (absent_newAction fresh free).lacks_view ?_, ?_⟩
    · simp [Db.rowsLike, openedRows, noActions, List.filterMap_cons, Row.action?]
    · simp only [Db.references, Row.merchantId, newAction, known', cases₁, Option.isSome_some,
        Bool.and_self]
  unfold recordAction
  rw [run_bind_ok (run_createRecoveryActionIdempotent action), atomicTransition_eq (by decide),
    finalTransition_eq]
  simp only [Bool.not_true, Bool.false_eq_true, if_false]
  have stored₁ : (Row.recoveryCase case.analysing).Stored :=
    @stored_transition case .analysing none stored room
  have stored₂ : integer (case.version + 1 + 1) →
      (Row.recoveryCase case.selected).Stored := fun room =>
    transition_selected case ▸ @stored_transition case.analysing .actionSelected none stored₁ room
  generalize hd₃ : (view d (openedRows d env case)).put
    (.action (newAction env case s.finalAction)) = d₃
  have cases₃ : d₃.cases.get case.id = some case.analysing := hd₃ ▸ cases₁
  have step₁ :
      (query (.updateCase case.id .analysing (case.version + 1) .actionSelected none)).run d₃ =
      if integer (case.version + 1 + 1) then .ok (1, d₃.put (.recoveryCase case.selected))
      else .error (.db .data) :=
    transition_selected case ▸ run_updateCase (c := case.analysing) cases₃ stored₁
  have cases₄ : (d₃.put (.recoveryCase case.selected)).cases.get case.id = some case.selected :=
    Table.get_put_self d₃.cases case.selected
  have step₂ : integer (case.version + 1 + 1) →
      (query (.updateCase case.id .actionSelected (case.version + 2)
      s.finalStatus (if s.finalAction.executable then some (s.nextActionAt env.now) else none))).run
      (d₃.put (.recoveryCase case.selected)) = if integer (case.version + 2 + 1) then
        .ok (1, (d₃.put (.recoveryCase case.selected)).put (.recoveryCase (case.decided s env.now)))
      else .error (.db .data) := fun room =>
    transition_decided case s env.now ▸ run_updateCase (c := case.selected) cases₄ (stored₂ room)
  rw [Txn.run_bind, step₁]
  cases room₂ : integer (case.version + 1 + 1) with
  | false =>
    have full : integer (case.version + 3) = false := by
      by_contra room₃
      rw [Bool.not_eq_false] at room₃
      rw [integer_of_le (by omega) (by omega) room₃] at room₂
      cases room₂
    simp [full, Except.bind]
  | true =>
    simp only [if_true, Except.bind, one_ne_zero, if_false]
    rw [Txn.run_bind, show case.version + 1 + 1 = case.version + 2 by omega, step₂ room₂,
      show case.version + 2 + 1 = case.version + 3 by omega]
    cases room₃ : integer (case.version + 3) with
    | false => simp [Except.bind]
    | true =>
      -- The rows written so far are of other tables.
      have written : (d₃.put (.recoveryCase case.selected)).put
          (.recoveryCase (case.decided s env.now)) =
          view d (openedRows d env case ++ [.action (newAction env case s.finalAction)] ++
            [.recoveryCase case.selected] ++ [.recoveryCase (case.decided s env.now)]) := by
        simp [← hd₃, view, apply]
      simp only [if_true, Except.bind, one_ne_zero, if_false, Bool.true_and]
      rw [written, run_announce]
      · rw [← view_append]
        simp [decisionRows, openedRows]
      · exact (absent_scheduled fresh hc s.finalAction _).lacks_view (by
          simp [Db.rowsLike, openedRows, noOutbox, List.filterMap_cons, Row.outbox?])
      · exact (absent_decisionAudit fresh source s).lacks_view (by
          simp [Db.rowsLike, openedRows, noAudits, List.filterMap_cons, Row.audit?])
      · simpa using known

section

variable [PyLib] {settings : Settings} {llm : Llm} {outboxEventId : String}

variable (settings llm env) in
/-- An event that calls for no decision is left alone. -/
theorem run_eligible_idle (missed : ∀ case, ¬ CallsFor d outboxEventId case) : ∃ result,
    (processEligibleEvent settings llm env outboxEventId).run d = .ok (result, d) ∧
      Json.item result "status" ≠ .str "processed" := by
  unfold processEligibleEvent
  split
  next => exact ⟨_, rfl, by simp [Json.item]⟩
  next id parsed =>
    rw [run_bind_ok (run_selectOutbox _)]
    have lookup : d.outbox.find (·.id = id) = d.outbox.get id := rfl
    rw [lookup]
    cases found : d.outbox.get id with
    | none => exact ⟨_, rfl, by simp [Json.item]⟩
    | some outbox =>
      simp only
      unfold handleRecoveryCaseEligible
      split
      next => exact ⟨_, rfl, by simp [Json.item]⟩
      next caseId named =>
        rw [run_bind_ok (run_selectCase _)]
        have lookup : d.cases.find (·.id = caseId) = d.cases.get caseId := rfl
        rw [lookup]
        cases hc : d.cases.get caseId with
        | none => exact ⟨_, rfl, by simp [Json.item]⟩
        | some case =>
          have id' : case.id = caseId := (Table.get_eq_some.1 hc).2
          have other : case.status ≠ .eligible := fun eligible =>
            missed case ⟨id, outbox, parsed, found, id'.symm ▸ named, id'.symm ▸ hc, eligible⟩
          simp only [if_pos other]
          exact ⟨_, rfl, by simp [Json.item, ignored]⟩

/-- An event that calls for a decision: the case is taken, and the selected action recorded. -/
theorem run_eligible (valid : d.Valid) (fresh : env.Fresh d) {source : Uuid}
    (parsed : Uuid.parse outboxEventId = some source) (calls : CallsFor d outboxEventId case) :
    (processEligibleEvent settings llm env outboxEventId).run d =
      if integer (case.version + 1) then
        (recordAction env case source.str (case.version + 1)
          (selection settings llm d case .analysing)).run
          (view d (openedRows d env case))
      else .error (.db .data) := by
  obtain ⟨id, outbox, parsed', found, named, hc, eligible⟩ := calls
  obtain rfl := Option.some.inj (parsed.symm.trans parsed')
  obtain ⟨stored, known⟩ := valid.caseRow hc
  have id' : outbox.id = source := (Table.get_eq_some.1 found).2
  have takes :
      (catchingInvalidTransition (atomicTransitionRecoveryCase case.id case.status case.version
      .analysing)).run d = if integer (case.version + 1) then .ok (some 1,
        d.put (.recoveryCase case.analysing))
        else .error (.db .data) := by
    rw [run_catchingTransition (eligible ▸ (by decide)), run_updateCase hc stored]
    split <;> simp [Except.map, Db.transition, RecoveryCase.analysing]
  unfold processEligibleEvent
  simp only [parsed]
  rw [run_bind_ok (run_selectOutbox _), show d.outbox.find (·.id = source) = some outbox from found]
  simp only
  unfold handleRecoveryCaseEligible
  simp only [named]
  rw [run_bind_ok (run_selectCase _), show d.cases.find (·.id = case.id) = some case from hc]
  simp only [eligible, ne_eq, not_true, if_false]
  rw [Txn.run_bind, ← eligible, takes]
  cases room : integer (case.version + 1) with
  | false => rfl
  | true =>
    simp only [if_true, Except.bind]
    have selected : (selectAction settings llm env case .analysing).run
        (d.put (.recoveryCase case.analysing)) =
        .ok (selection settings llm d case .analysing, view d (openedRows d env case)) := by
      rw [run_selection (d := d.put (.recoveryCase case.analysing)) fresh.policy known]
      rfl
    rw [run_bind_ok selected, id']

end

end

end RecoverAI
