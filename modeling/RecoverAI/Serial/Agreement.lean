import RecoverAI.Serial.Claim
import RecoverAI.Serial.Influence

/-!
# Decision and claim

The policy is asked twice about an action: by the task that schedules it and by the claim that takes
it. With nothing changed in between the claim approves what the decision scheduled. Where the claim
denies, it stops the case whatever the policy falls back on.
-/
namespace RecoverAI

open Store

variable {d : Db} {env env' : Draws} {case : RecoveryCase} {action : RecoveryAction}

/-! ## Agreement -/

theorem limitsOf_newPolicies (newId merchantId : Uuid) :
    limitsOf (view d (newPolicies d newId merchantId)) merchantId = limitsOf d merchantId := by
  unfold limitsOf newPolicies
  cases found : d.policies.find (·.merchantId = merchantId) with
  | some policy => simp [found]
  | none =>
    have created : (d.policies.put (defaultPolicy newId merchantId)).find
        (·.merchantId = merchantId) =
        some (defaultPolicy newId merchantId) := by
      refine Table.find_eq_some_of_unique (Table.mem_put.2 (.inl rfl)) (by simp [defaultPolicy])
        fun p hp same => ?_
      refine (Table.mem_put.1 hp).resolve_right fun kept => ?_
      rw [Table.find_eq_none.1 found p kept.1] at same
      cases same
    simp [created, Row.policy?]
    rfl

theorem limitsOf_congr {d' : Db} (policies : d'.policies = d.policies) :
    limitsOf d' = limitsOf d := by
  unfold limitsOf
  rw [policies]

/-- The rows of the policy and the actions after a decision. -/
theorem decided_tables (case : RecoveryCase) (source : String) (s : Selection) :
    let d' := view d
      (decisionRows env case case source s (newPolicies d env.policyId case.merchantId))
    limitsOf d' case.merchantId = limitsOf d case.merchantId ∧
      d'.actions = d.actions.put (newAction env case s.finalAction) := by
  have none : policiesOf (scheduledRows env case s) = [] := by
    unfold scheduledRows
    split <;> simp [Row.policy?]
  refine ⟨?_, ?_⟩
  · rw [← limitsOf_newPolicies (d := d) env.policyId case.merchantId]
    exact congrFun
      (limitsOf_congr (by simp [decisionRows, List.filterMap_cons, Row.policy?, none])) _
  · simp [decisionRows, List.filterMap_cons, Row.action?, scheduledRows_tables, newPolicies_tables]

/-- The action that was scheduled is left out when its case is counted again. -/
theorem policyInput_decided (absent : ∀ a ∈ d.actions, a.id ≠ env.actionId) {d' : Db}
    {type : RecoveryActionType} (actions : d'.actions = d.actions.put (newAction env case type))
    (s : Selection) (now : Time) (candidate : RecoveryActionType) (status : RecoveryCaseStatus) :
    policyInput d' (case.decided s now) candidate status (some env.actionId) =
      policyInput d case candidate status none := by
  have counted : ∀ p q : RecoveryAction → Bool, (∀ a ∈ d.actions, q a = p a) →
      q (newAction env case type) = false → d'.actions.count q = d.actions.count p := by
    intro p q same excluded
    rw [actions, Table.count_put_of_free absent, excluded, Table.count_congr same]
    rfl
  have totals := counted (countedAction case.id none) (countedAction case.id (some env.actionId))
    (fun a ha => by simp [countedAction, absent a ha]) (by simp [countedAction, newAction])
  have reminders := counted (fun a => countedAction case.id none a && a.actionType = .sendReminder)
    (fun a => countedAction case.id (some env.actionId) a && a.actionType = .sendReminder)
    (fun a ha => by simp [countedAction, absent a ha]) (by simp [countedAction, newAction])
  have links := counted (activeLink case.id none) (activeLink case.id (some env.actionId))
    (fun a ha => by simp [activeLink, absent a ha]) (by simp [activeLink, newAction])
  simp only [policyInput, RecoveryCase.decided, totals, reminders, links]

section

variable [PyLib] {settings : Settings} {llm : Llm} {outboxEventId : String}

/-- What a task records beside the rows that were there. -/
theorem recorded_of_new (valid : d.Valid) (fresh : env.Fresh d)
    (written : action ∈
      (committed d ((processEligibleEvent settings llm env outboxEventId).run d)).actions)
    (new : action ∉ d.actions) : ∃ case source, CallsFor d outboxEventId case ∧
      action = newAction env case (chosenType settings llm d case) ∧
      committed d ((processEligibleEvent settings llm env outboxEventId).run d) =
        view d (decisionRows env case case source (selection settings llm d case .analysing)
          (newPolicies d env.policyId case.merchantId)) := by
  by_cases called : ∃ case, CallsFor d outboxEventId case
  · obtain ⟨case, calls⟩ := called
    obtain ⟨source, outbox, parsed, -⟩ := id calls
    obtain ⟨recorded, missed⟩ := committed_eligible settings llm valid fresh parsed calls
    refine ⟨case, source.str, calls, ?_⟩
    by_cases h : Recordable d env case (selection settings llm d case .analysing).finalAction
    · cases nul : hasNul (selection settings llm d case .analysing).agent.reason with
      | true =>
        rw [recorded h, nul, if_pos rfl] at written
        exact absurd written new
      | false =>
        rw [recorded h, nul, if_neg Bool.false_ne_true] at written ⊢
        refine ⟨?_, rfl⟩
        have put : action ∈ d.actions.put
            (newAction env case (selection settings llm d case .analysing).finalAction) := by
          simpa [decisionRows, List.filterMap_cons, Row.action?, scheduledRows_tables,
            newPolicies_tables] using written
        rw [← selection_finalAction]
        exact (Table.mem_put.1 put).resolve_right fun h => new h.1
    · rw [missed h, unrecorded_actions] at written
      exact absurd written new
  · obtain ⟨result, idle, -⟩ := run_eligible_idle env settings llm
      fun case calls => called ⟨case, calls⟩
    rw [idle] at written
    exact absurd written new

/-- The claim approves what the decision scheduled, a fallback of the policy included. -/
theorem decision_claimed (valid : d.Valid) (fresh : env.Fresh d) {d' : Db}
    (after : committed d ((processEligibleEvent settings llm env outboxEventId).run d) = d')
    (written : action ∈ d'.actions) (new : action ∉ d.actions)
    (executable : action.actionType.executable) (fresh' : env'.Fresh d') :
    ∃ claim d'', (claimAction env' action.id).run d' = .ok (.claimed claim, d'') := by
  subst after
  obtain ⟨case, source, calls, rfl, after⟩ := recorded_of_new valid fresh written new
  obtain ⟨-, -, -, -, -, hc, -⟩ := calls
  obtain ⟨stored, known⟩ := valid.caseRow hc
  rw [after] at fresh' ⊢
  have hc' := @get_decided env d case (selection settings llm d case .analysing) source env.policyId
  obtain ⟨limits, actions⟩ := @decided_tables d env case source
    (selection settings llm d case .analysing)
  generalize hd :
    view d (decisionRows env case case source (selection settings llm d case .analysing)
    (newPolicies d env.policyId case.merchantId)) = d' at *
  generalize decided : case.decided
    (selection settings llm d case .analysing) env.now = case' at hc'
  have scheduled : case'.status = .actionScheduled := by
    rw [← decided]
    exact (Selection.finalStatus_eq_actionScheduled _).2
      (@selection_finalAction _ settings llm d case ▸ executable)
  have merchant : case'.merchantId = case.merchantId := by rw [← decided]; rfl
  have known' : (d'.merchants.get case'.merchantId).isSome := by
    rw [← hd, merchant, view_merchants]
    exact known
  have ha : d'.actions.get env.actionId =
      some (newAction env case (chosenType settings llm d case)) := by
    rw [actions, selection_finalAction]
    exact Table.get_put_self ..
  -- The claim's input is that of the decision but for the case's status.
  have asks : claimDecision d' case' (newAction env case (chosenType settings llm d case)) =
      evaluatePolicy (limitsOf d case.merchantId)
        (policyInput d case (chosenType settings llm d case) .analysing none) none := by
    rw [← @evaluatePolicy_status _ _ _ .actionScheduled rfl, claimDecision, scheduled,
      merchant, limits, ← decided]
    exact congrArg (evaluatePolicy (limitsOf d case.merchantId) · none)
      (policyInput_decided (Table.get_eq_none.1 fresh.action) actions _ _ _ _)
  have approved := approves_chosenType executable
  have final := evaluatePolicy_approved approved
  have takes : (claimAction env' env.actionId).run d' = _ :=
    run_claimAction fresh'.policy known' ha hc'
  have kept :
      (claimDecision d' case' (newAction env case (chosenType settings llm d case))).finalAction =
      chosenType settings llm d case := by
    rw [asks, final]
    rfl
  have taken : (!case'.status.isTerminal &&
      (claimDecision d' case' (newAction env case (chosenType settings llm d case))).approved &&
      (claimDecision d' case' (newAction env case (chosenType settings llm d case))).finalAction =
        (newAction env case (chosenType settings llm d case)).actionType) = true := by
    rw [kept, asks, scheduled, show (evaluatePolicy ..).approved = true from approved]
    exact decide_eq_true rfl
  rw [if_pos taken] at takes
  rw [show (newAction env case (chosenType settings llm d case)).id = env.actionId from rfl, takes]
  refine run_takeClaim ?_ (fits_newAction ..) rfl ?_ ?_
  · rw [view_actions, (newPolicies_tables ..).2.1]
    exact ha
  · simpa [Db.lacks, newPolicies_tables] using fresh'.audit
  · simpa using known'

end

/-- `eligibleDb` after the eligible task. -/
def scheduledDb : Db :=
  committed eligibleDb
    ((@processEligibleEvent (.recorded []) {} (fun _ => .error .expected) (Env.numbered 2).draws
    (Uuid.ofNat 14).str).run eligibleDb)

theorem decision_claimed_sample :
    ∃ claim d', (claimAction (Env.numbered 3).draws (newAction (Env.numbered 2).draws sampleCase
      .createPaymentLink).id).run scheduledDb = .ok (.claimed claim, d') := by
  have state : newAction (Env.numbered 2).draws sampleCase .createPaymentLink ∈
      scheduledDb.actions.rows ∧
      (Env.numbered 3).draws.Fresh scheduledDb := by decide +kernel
  let _ : PyLib := .recorded []
  exact decision_claimed (d := eligibleDb) (by decide +kernel) (by decide +kernel)
    (show _ = scheduledDb from rfl)
    (Table.mem_rows.1 state.1) (Table.not_mem_empty _) rfl state.2

/-! ## Denial -/

/-- The status the decision step gives to a case for the policy's answer. -/
def Honours (type : RecoveryActionType) (status : RecoveryCaseStatus) : Prop :=
  match type with
  | .escalate => status = .escalated
  | .stop => status = .stopped
  | _ => status.isTerminal = false

/-- A claim that the policy denies leaves the case in the status its decision stands for. -/
def DenialHonoured (env : Draws) (d : Db) (case : RecoveryCase) (action : RecoveryAction) : Prop :=
  ∀ result d', (claimAction env action.id).run d = .ok (result, d') →
    ∃ c, d'.cases.get case.id = some c ∧ Honours (claimDecision d case action).finalAction c.status

/-- Neither does the amount call for a review, nor is the action a payment link that has
to wait for another one. -/
def DeniedForGood (d : Db) (case : RecoveryCase) (action : RecoveryAction) : Prop :=
  let limits := limitsOf d case.merchantId
  ¬ (limits.highValueEscalationEnabled ∧ limits.highValueThresholdMinor ≤ case.amountMinor) ∧
    (action.actionType = .createPaymentLink →
      limits.maxActionsPerCase ≤ d.actions.count (countedAction case.id (some action.id)))

theorem denial_stops_iff (scheduled : case.status = .actionScheduled)
    (executable : action.actionType.executable)
    (denied : (claimDecision d case action).approved = false) :
    (claimDecision d case action).finalAction = .stop ↔ DeniedForGood d case action := by
  have active : case.status.isTerminal = false := by
    rw [scheduled]
    rfl
  have candidate : action.actionType ∉ [RecoveryActionType.escalate, .stop] := by
    cases h : action.actionType <;> simp_all [RecoveryActionType.executable]
  unfold DeniedForGood
  unfold claimDecision evaluatePolicy at denied ⊢
  simp only [policyInput, active, candidate, not_false_eq_true, and_true] at denied ⊢
  grind

theorem honours_stopped (type : RecoveryActionType) : Honours type .stopped ↔ type = .stop := by
  cases type <;> simp [Honours, show RecoveryCaseStatus.stopped.isTerminal = true from rfl]

/-- A denied claim stops the case. -/
theorem denialHonoured_iff_stop (valid : d.Valid) (fresh : env.Fresh d)
    (ha : d.actions.get action.id = some action) (approved : action.status = .approved)
    (hc : d.cases.get action.recoveryCaseId = some case)
    (scheduled : case.status = .actionScheduled)
    (denied : (claimDecision d case action).approved = false) :
    DenialHonoured env d case action ↔
      (integer (case.version + 1) → (claimDecision d case action).finalAction = .stop) := by
  obtain ⟨stored, known⟩ := valid.caseRow hc
  obtain ⟨noCases, noActions, -, noAudits⟩ := newPolicies_tables d env.policyId case.merchantId
  have id : action.recoveryCaseId = case.id := (Table.get_eq_some.1 hc).2.symm
  generalize hd : view d (newPolicies d env.policyId case.merchantId) = opened
  have cancels : (cancelClaim env case action (claimDecision d case action)).run opened = _ :=
    run_cancelClaim (by simpa [← hd, noActions] using ha)
      (valid.stored _ (Db.mem_rows_action.2 (Table.get_eq_some.1 ha).1)) approved
      (by simpa [← hd, noCases] using id ▸ hc) stored scheduled (evaluatePolicy_reason_clean ..)
      (by simpa [← hd, Db.lacks, noAudits] using fresh.audit) (by simpa [← hd] using known)
  have run : (claimAction env action.id).run d = _ := run_claimAction fresh.policy known ha hc
  rw [denied, Bool.and_false, Bool.false_and, if_neg Bool.false_ne_true, hd, cancels] at run
  unfold DenialHonoured
  rw [run]
  cases room : integer (case.version + 1) with
  | false => simp
  | true =>
    have written : (view opened [.action { action with status := .cancelled },
        .audit (actionAudit env case action "recovery_action.cancelled"
          (cancelDetails case (claimDecision d case action))),
        .recoveryCase (case.become .stopped)]).cases.get case.id = some (case.become .stopped) :=
      Table.get_put_self opened.cases (case.become .stopped)
    simp only [if_true, Except.ok.injEq, Prod.mk.injEq, forall_true_left]
    constructor
    · intro honoured
      obtain ⟨c, found, honours⟩ := honoured _ _ ⟨rfl, rfl⟩
      obtain rfl := Option.some.inj (written.symm.trans found)
      exact (honours_stopped _).1 honours
    · rintro stop result d' ⟨-, rfl⟩
      exact ⟨_, written, (honours_stopped _).2 stop⟩

theorem denial_honoured_iff (valid : d.Valid) (fresh : env.Fresh d)
    (ha : d.actions.get action.id = some action) (approved : action.status = .approved)
    (hc : d.cases.get action.recoveryCaseId = some case)
    (scheduled : case.status = .actionScheduled) (executable : action.actionType.executable)
    (denied : (claimDecision d case action).approved = false) :
    DenialHonoured env d case action ↔
      (integer (case.version + 1) → DeniedForGood d case action) := by
  rw [denialHonoured_iff_stop valid fresh ha approved hc scheduled denied,
    denial_stops_iff scheduled executable denied]

/-- The state after a failed payment and its eligible task, where the merchant now wants
cases of 50 rupees reviewed. -/
def reviewDb : Db :=
  let _ : PyLib := .recorded [expiredInstrument]
  let failed := committed sampleDb
    ((razorpayWebhook {} (Env.numbered 1).draws expiredInstrument.request).run sampleDb)
  (committed failed ((processEligibleEvent {} (fun _ => .error .expected) (Env.numbered 2).draws
    (Uuid.ofNat 14).str).run failed)).put
      (.policy { defaultPolicy (.ofNat 20) (.ofNat 1) with highValueThresholdMinor := 5000 })

def reviewCase : RecoveryCase :=
  { sampleCase with status := .actionScheduled, version := 5, nextActionAt := some 2 }

def reviewAction : RecoveryAction := newAction (Env.numbered 2).draws sampleCase .createPaymentLink

theorem reviewDb_rows : reviewDb.Valid ∧ (Env.numbered 3).draws.Fresh reviewDb ∧
    reviewDb.actions.get reviewAction.id = some reviewAction ∧
    reviewDb.cases.get reviewAction.recoveryCaseId = some reviewCase ∧
    (claimDecision reviewDb reviewCase reviewAction).approved = false ∧
    (claimDecision reviewDb reviewCase reviewAction).finalAction = .escalate := by decide +kernel

theorem denial_honoured_iff_sample :
    DenialHonoured (Env.numbered 3).draws reviewDb reviewCase reviewAction ↔
    (integer 6 → DeniedForGood reviewDb reviewCase reviewAction) := by
  obtain ⟨valid, fresh, action, case, denied, -⟩ := reviewDb_rows
  exact denial_honoured_iff valid fresh action rfl case rfl rfl denied

/-- The policy asks for a review, and the claim stops the case. -/
theorem review_stopped : (claimDecision reviewDb reviewCase reviewAction).approved = false ∧
    ¬ DenialHonoured (Env.numbered 3).draws reviewDb reviewCase reviewAction := by
  obtain ⟨valid, fresh, action, case, denied, final⟩ := reviewDb_rows
  refine ⟨denied, fun honoured => ?_⟩
  have stop := (denialHonoured_iff_stop valid fresh action rfl case rfl denied).1 honoured rfl
  rw [final] at stop
  cases stop

end RecoverAI
