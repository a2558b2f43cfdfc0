import RecoverAI.Effects.Executor
import RecoverAI.Serial.Decision

/-!
# The claim alone

The result of a claim of an `APPROVED` action as a function of the database: the action is claimed
where the policy, asked once more, still approves it, and else cancelled together with its case.
-/
namespace RecoverAI

open Store

variable {d : Db} {env : Draws} {case : RecoveryCase} {action : RecoveryAction}

/-- The final check of the policy. -/
def claimDecision (d : Db) (case : RecoveryCase) (action : RecoveryAction) : PolicyDecision :=
  evaluatePolicy (limitsOf d case.merchantId)
    (policyInput d case action.actionType case.status (some action.id)) none

theorem fits_actionAudit {eventType : String} {payload : Fields} (type : varchar 128 eventType)
    (storable : Json.storableFields payload) :
    (Row.audit (actionAudit env case action eventType payload)).Stored := by
  have names : varchar 64 "recovery_action" ∧ varchar 64 "action_executor" := ⟨rfl, rfl⟩
  have entity : varchar 64 action.id.str := by simp [varchar]
  have clean : hasNul "recovery_case_id" = false ∧ hasNul "action_type" = false := ⟨rfl, rfl⟩
  refine ⟨?_, rfl⟩
  simp [Row.fits, actionAudit, names, entity, type, Json.storable, Json.storableFields,
    clean, storable]

theorem run_auditAction {d : Db} {eventType : String} {payload : Fields}
    (type : varchar 128 eventType) (storable : Json.storableFields payload)
    (fresh : d.lacks (.audit env.auditId)) (known : (d.merchants.get case.merchantId).isSome) :
    (auditAction env case action eventType payload).run d =
      .ok ((), d.put (.audit (actionAudit env case action eventType payload))) := by
  obtain ⟨fits, checks⟩ := @fits_actionAudit env case action _ _ type storable
  refine run_insert ⟨fits, checks, fun k hk => ?_,
    by simpa [Db.references, Row.merchantId, actionAudit] using known⟩
  obtain rfl := List.mem_singleton.1 hk
  exact fresh

theorem run_takeClaim {payment : Option Payment} {d : Db}
    (ha : d.actions.get action.id = some action) (stored : (Row.action action).Stored)
    (approved : action.status = .approved) (fresh : d.lacks (.audit env.auditId))
    (known : (d.merchants.get case.merchantId).isSome) :
    ∃ claim d', (takeClaim env case action payment).run d = .ok (.claimed claim, d') := by
  have details : Json.storableFields [("case_status", .str case.status.value)] := by
    simp [Json.storable, Json.storableFields, show hasNul "case_status" = false from rfl]
  have taken : (query (.updateAction action.id action.status .executing)).run d = _ :=
    run_updateAction ha stored
  rw [approved] at taken
  unfold takeClaim
  rw [if_neg (by simp [approved]), atomicActionTransition, run_bind_ok taken, if_neg one_ne_zero,
    run_bind_ok (run_auditAction rfl details (by exact fresh) (by exact known))]
  exact ⟨_, _, rfl⟩

/-- The claim asks the policy, and then takes the action or cancels it. -/
theorem run_claimAction (fresh : d.lacks (.policy env.policyId))
    (known : (d.merchants.get case.merchantId).isSome) {actionId : Uuid}
    (ha : d.actions.get actionId = some action)
    (hc : d.cases.get action.recoveryCaseId = some case) :
    (claimAction env actionId).run d =
      (if !case.status.isTerminal && (claimDecision d case action).approved &&
          (claimDecision d case action).finalAction = action.actionType then
        takeClaim env case action (d.payments.find (·.id = case.paymentId))
      else cancelClaim env case action (claimDecision d case action)).run
        (view d (newPolicies d env.policyId case.merchantId)) := by
  obtain ⟨policy, run, limits⟩ := run_getOrCreateDefaultPolicy fresh known
  have counts : policyInput (view d (newPolicies d env.policyId case.merchantId)) = policyInput d :=
    policyInput_congr (by simp [newPolicies_tables])
  unfold claimAction
  rw [run_bind_ok (run_selectAction _), show d.actions.find (·.id = actionId) = some action from ha]
  simp only
  rw [run_bind_ok (run_selectCase _),
    show d.cases.find (·.id = action.recoveryCaseId) = some case from hc]
  simp only
  rw [run_bind_ok (run_selectPayment _), run_bind_ok run, run_bind_ok (run_buildPolicyInput ..),
    limits, counts]
  rfl

/-- The details of a cancellation. -/
def cancelDetails (case : RecoveryCase) (decision : PolicyDecision) : Fields :=
  [("reason", .str decision.reason), ("case_status", .str case.status.value)]

theorem run_cancelClaim {decision : PolicyDecision} {d : Db}
    (ha : d.actions.get action.id = some action) (stored : (Row.action action).Stored)
    (approved : action.status = .approved) (hc : d.cases.get case.id = some case)
    (storedCase : (Row.recoveryCase case).Stored) (scheduled : case.status = .actionScheduled)
    (reason : hasNul decision.reason = false) (fresh : d.lacks (.audit env.auditId))
    (known : (d.merchants.get case.merchantId).isSome) :
    (cancelClaim env case action decision).run d = if integer (case.version + 1) then
        .ok (.refused [("status", .str "cancelled"), ("reason", .str decision.reason)],
          view d [.action { action with status := .cancelled },
            .audit (actionAudit env case action "recovery_action.cancelled"
              (cancelDetails case decision)),
            .recoveryCase (case.become .stopped)])
      else .error (.db .data) := by
  have details : Json.storableFields (cancelDetails case decision) := by
    simp [cancelDetails, Json.storable, Json.storableFields,
      show hasNul "case_status" = false from rfl, show hasNul "reason" = false from rfl, reason]
  have taken : (query (.updateAction action.id action.status .cancelled)).run d = _ :=
    run_updateAction ha stored
  rw [approved] at taken
  have audited :
      (auditAction env case action "recovery_action.cancelled" (cancelDetails case decision)).run
      (d.put (.action { action with status := .cancelled })) = _ :=
        run_auditAction rfl details fresh known
  have stops : ∀ d' : Db, d'.cases.get case.id = some case →
      (catchingInvalidTransition
        (atomicTransitionRecoveryCase case.id case.status case.version .stopped)).run d' =
        if integer (case.version + 1)
          then .ok (some 1, d'.put (.recoveryCase (case.become .stopped)))
        else .error (.db .data) := by
    intro d' hc
    rw [run_catchingTransition (scheduled ▸ (by decide)), run_updateCase hc storedCase]
    split <;> simp [Except.map, Db.transition, RecoveryCase.become]
  unfold cancelDetails at audited
  unfold cancelClaim
  rw [atomicActionTransition, run_bind_ok taken]
  simp only [if_true]
  rw [run_bind_ok audited]
  have open_ : (!case.status.isTerminal && case.status = .actionScheduled) = true := by
    rw [scheduled]
    decide
  have hc' :
      ((d.put (.action { action with status := .cancelled })).put
        (.audit (actionAudit env case action
      "recovery_action.cancelled" [("reason", .str decision.reason),
        ("case_status", .str case.status.value)]))).cases.get
      case.id = some case := hc
  rw [if_pos open_, Txn.run_bind, stops _ hc']
  split <;> rfl

end RecoverAI
