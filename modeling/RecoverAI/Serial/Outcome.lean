import RecoverAI.Serial.Claim

/-!
# What a committed task has done

The task and the claim read backwards: from the result of a run that commits to the branch it
took. No assumption is made on the database or on the drawn ids; where one of them is in the way,
the run does not commit.
-/
namespace RecoverAI

open Store

variable {α β : Type} {d d' : Db} {env : Draws} {case : RecoveryCase}

/-- A run that commits is a run of its first part and a run of the rest. -/
theorem run_bind_eq_ok {t : Tx α} {f : α → Tx β} {b : β} :
    (t >>= f).run d = .ok (b, d') ↔ ∃ a d₁, t.run d = .ok (a, d₁) ∧ (f a).run d₁ = .ok (b, d') := by
  rw [Txn.run_bind]
  cases t.run d with
  | error e => exact ⟨nofun, fun ⟨_, _, h, _⟩ => nomatch h⟩
  | ok r => exact ⟨fun h => ⟨r.1, r.2, rfl, h⟩, fun ⟨_, _, h, h'⟩ => by cases h; exact h'⟩

theorem policyLimitsFrom_default (newId newId' merchantId : Uuid) :
    policyLimitsFrom (defaultPolicy newId merchantId) =
      policyLimitsFrom (defaultPolicy newId' merchantId) := rfl

/-- An insertion that was tried: the row is there, or the error is known. -/
theorem run_attempt_insert_eq_ok {r : Row} {result : Except DbError Unit}
    (run : (attempt (.insert r)).run d = .ok (result, d')) :
    result = .ok () ∧ Insertable d r ∧ d' = d.put r ∨ ∃ e, result = .error e ∧ d' = d := by
  cases error : d.insertError r with
  | none =>
    have insertable := insertError_eq_none.1 error
    rw [run_attempt_insert insertable] at run
    cases run
    exact .inl ⟨rfl, insertable, rfl⟩
  | some e =>
    rw [run_attempt_insert_error error] at run
    cases run
    exact .inr ⟨e, rfl, rfl⟩

theorem newPolicies_of_some {policy : MerchantPolicy} {newId merchantId : Uuid}
    (found : d.policies.find (·.merchantId = merchantId) = some policy) :
    newPolicies d newId merchantId = [] := by
  simp [newPolicies, found]

/-- What `get_or_create_default_policy` leaves behind. -/
theorem getOrCreateDefaultPolicy_ok {newId merchantId : Uuid} {policy : MerchantPolicy}
    (run : (getOrCreateDefaultPolicy newId merchantId).run d = .ok (policy, d')) :
    d' = view d (newPolicies d newId merchantId) ∧
      PolicyRows d newId merchantId (newPolicies d newId merchantId) ∧
      policyLimitsFrom policy = limitsOf d merchantId ∧
        ∃ p ∈ d'.policies, p.merchantId = merchantId := by
  unfold getOrCreateDefaultPolicy at run
  rw [run_bind_ok (run_selectPolicy _)] at run
  cases found : d.policies.find (·.merchantId = merchantId) with
  | some old =>
    simp only [found, Txn.monad_pure, run_pure, Except.ok.injEq, Prod.mk.injEq] at run
    obtain ⟨rfl, rfl⟩ := run
    obtain ⟨mem, own⟩ := Table.mem_of_find found
    rw [newPolicies_of_some found]
    exact ⟨rfl, .inl rfl, by simp [limitsOf, found], old, mem, of_decide_eq_true own⟩
  | none =>
    simp only [found] at run
    obtain ⟨result, d₁, tried, run⟩ := run_bind_eq_ok.1 run
    rcases run_attempt_insert_eq_ok tried with ⟨rfl, insertable, rfl⟩ | ⟨e, rfl, rfl⟩
    · simp only [Txn.monad_pure, run_pure, Except.ok.injEq, Prod.mk.injEq] at run
      obtain ⟨rfl, rfl⟩ := run
      have rows : newPolicies d newId merchantId = [.policy (defaultPolicy newId merchantId)] := by
        simp [newPolicies, found]
      rw [rows]
      exact ⟨rfl, .inr ⟨rfl, insertable.lacks⟩,
        by simp [limitsOf, found,
        policyLimitsFrom_default newId default], _, Table.mem_put.2 (.inl rfl), rfl⟩
    · cases e with
      | integrity =>
        -- The row that is in the way is not the merchant's: the second look finds none either.
        simp only at run
        rw [run_bind_ok (run_selectPolicy _), found] at run
        cases run
      | _ => cases run

section

variable [PyLib] {settings : Settings} {llm : Llm}

theorem selectAction_ok {status : RecoveryCaseStatus} {s : Selection}
    (run : (selectAction settings llm env case status).run d = .ok (s, d')) :
    s = selection settings llm d case status ∧
      d' = view d (newPolicies d env.policyId case.merchantId) ∧
      PolicyRows d env.policyId case.merchantId (newPolicies d env.policyId case.merchantId) ∧
      ∃ p ∈ d'.policies, p.merchantId = case.merchantId := by
  unfold selectAction at run
  obtain ⟨policy, d₁, asked, run⟩ := run_bind_eq_ok.1 run
  obtain ⟨rfl, rows, limits, known⟩ := getOrCreateDefaultPolicy_ok asked
  have counts : policyInput (view d (newPolicies d env.policyId case.merchantId)) = policyInput d :=
    policyInput_congr (by simp [newPolicies_tables])
  rw [run_bind_ok (run_buildPolicyInput ..), limits, counts] at run
  unfold selection
  dsimp only at run ⊢
  split at run
  next agrees =>
    cases run
    exact ⟨(if_pos agrees).symm, rfl, rows, known⟩
  next differs =>
    rw [run_bind_ok (run_buildPolicyInput ..), counts] at run
    cases run
    exact ⟨(if_neg differs).symm, rfl, rows, known⟩

/-- Recording the action ends in one of two ways. -/
inductive Records (d : Db) (env : Draws) (case : RecoveryCase) (source : String) (s : Selection) :
    Fields → Db → Prop
  | blocked {a} (mem : a ∈ d.actions) (same : SameAttempt (newAction env case s.finalAction) a) :
      Records d env case source s (ignored "action_already_exists") (view d (openedRows d env case))
  | decided (action : d.Absent (.action (newAction env case s.finalAction)))
      (outbox : ∀ r ∈ scheduledRows env case s, d.Absent r) :
      Records d env case source s (processedResult case s)
        (view d (decisionRows env case case source s
        (newPolicies d env.policyId case.merchantId)))

omit [PyLib] in
theorem recordAction_ok {source : String} {s : Selection} {result : Fields}
    (rows : PolicyRows d env.policyId case.merchantId (newPolicies d env.policyId case.merchantId))
    (run : (recordAction env case source (case.version + 1) s).run
      (view d (openedRows d env case)) = .ok (result, d')) :
    Records d env case source s result d' := by
  have ends : (Setting.serial Stmt Db Row).wp (recordAction env case source (case.version + 1) s)
      (fun result us t => Records t env case source s result (view t us)) (fun _ _ _ => True)
      (openedRows d env case) d := by
    refine wp_recordAction (c := case) rows rfl rfl ?_ ?_ fun _ _ _ => trivial
    · rintro _ a rfl ha same
      exact .blocked ha same
    · rintro _ rfl action outbox -
      exact .decided action outbox
  have := Txn.run_of_wp _ ends
  rw [run] at this
  obtain ⟨us, rfl, records⟩ := this
  exact records

omit [PyLib] in
/-- A guarded transition of the row that was read. -/
theorem catchingTransition_ok {new : RecoveryCaseStatus} {n : Option Nat}
    (valid : RecoveryCaseStatus.validateTransition case.status new = .ok ())
    (hc : d.cases.get case.id = some case)
    (run : (catchingInvalidTransition
      (atomicTransitionRecoveryCase case.id case.status case.version new)).run d = .ok (n, d')) :
    n = some 1 ∧ d' = d.put (.recoveryCase (Db.transition new (case.version + 1) none case)) := by
  have moves : (Setting.serial Stmt Db Row).wp
      (catchingInvalidTransition
        (atomicTransitionRecoveryCase case.id case.status case.version new))
      (fun n us t => t = d → n = some 1 ∧
        us = [.recoveryCase (Db.transition new (case.version + 1) none case)])
      (fun _ _ _ => True) [] d := by
    refine wp_catchingTransition valid ?_ ?_ fun _ _ _ => trivial
    · rintro _ c rfl found - - -
      obtain rfl := Option.some.inj (hc.symm.trans found)
      exact ⟨rfl, rfl⟩
    · rintro _ rfl miss -
      exact absurd ⟨rfl, rfl⟩ (miss case hc)
  obtain ⟨us, rfl, row⟩ := Txn.run_ok moves run
  obtain ⟨rfl, rfl⟩ := row rfl
  exact ⟨rfl, rfl⟩

/-- What a committed eligible task has done: nothing, or the decision on the
case that the event names. -/
inductive EligibleOutcome (settings : Settings) (llm : Llm) (env : Draws) (d : Db)
    (outboxEventId : String) :
    Fields → Db → Prop
  | idle {result} (missed : ∀ case, ¬ CallsFor d outboxEventId case) :
      EligibleOutcome settings llm env d outboxEventId result d
  | acted {case result d'} (source : Uuid) (calls : CallsFor d outboxEventId case)
      (known : ∃ p ∈ d'.policies, p.merchantId = case.merchantId)
      (records : Records d env case source.str (selection settings llm d case .analysing) result
      d') :
      EligibleOutcome settings llm env d outboxEventId result d'

omit [PyLib] in
theorem scheduledRows_policies (env : Draws) (case : RecoveryCase) (s : Selection) :
    policiesOf (scheduledRows env case s) = [] := by
  unfold scheduledRows
  split <;> simp [Row.policy?]

omit [PyLib] in
theorem Records.policies {source : String} {s : Selection} {result : Fields}
    (records : Records d env case source s result d') :
    d'.policies = (view d (newPolicies d env.policyId case.merchantId)).policies := by
  cases records with
  | blocked => simp [openedRows, List.filterMap_cons, Row.policy?]
  | decided => simp [decisionRows, List.filterMap_cons, Row.policy?, scheduledRows_policies]

theorem processEligibleEvent_ok {outboxEventId : String} {result : Fields}
    (run : (processEligibleEvent settings llm env outboxEventId).run d = .ok (result, d')) :
    EligibleOutcome settings llm env d outboxEventId result d' := by
  by_cases calls : ∃ case, CallsFor d outboxEventId case
  · obtain ⟨case, calls⟩ := calls
    obtain ⟨id, outbox, parsed, found, named, hc, eligible⟩ := id calls
    have own : outbox.id = id := (Table.get_eq_some.1 found).2
    unfold processEligibleEvent at run
    simp only [parsed] at run
    rw [run_bind_ok (run_selectOutbox _),
      show d.outbox.find (·.id = id) = some outbox from found] at run
    simp only at run
    unfold handleRecoveryCaseEligible at run
    simp only [named] at run
    rw [run_bind_ok (run_selectCase _),
      show d.cases.find (·.id = case.id) = some case from hc] at run
    simp only [eligible, ne_eq, not_true, if_false] at run
    obtain ⟨n, d₁, taken, run⟩ := run_bind_eq_ok.1 run
    rw [← eligible] at taken
    obtain ⟨rfl, rfl⟩ := catchingTransition_ok (eligible ▸ by decide) hc taken
    obtain ⟨s, d₂, selected, run⟩ := run_bind_eq_ok.1 run
    obtain ⟨rfl, rfl, rows, known⟩ := selectAction_ok selected
    have analysing : Db.transition .analysing (case.version + 1) none case = case.analysing := rfl
    have same : selection settings llm (d.put (.recoveryCase case.analysing)) =
        selection settings llm d :=
      selection_congr settings llm rfl rfl
    rw [analysing, same] at run
    have rows : PolicyRows d env.policyId case.merchantId
        (newPolicies d env.policyId case.merchantId) :=
      rows.imp_right fun ⟨new, absent⟩ => ⟨new, fun k hk => by
        have lacks := absent k hk
        simp only [Row.keys, List.mem_cons, List.not_mem_nil, or_false] at hk
        rcases hk with rfl | rfl <;> exact lacks⟩
    have records := recordAction_ok rows run
    refine .acted _ calls ?_ (own ▸ records)
    rw [records.policies, view_policies]
    rw [view_policies] at known
    exact known
  · obtain ⟨result', idle, -⟩ := run_eligible_idle env settings llm (not_exists.1 calls)
    cases idle.symm.trans run
    exact .idle (not_exists.1 calls)

end

theorem newPolicies_of_mem {policy : MerchantPolicy} {newId merchantId : Uuid}
    (mem : policy ∈ d.policies) (own : policy.merchantId = merchantId) :
    newPolicies d newId merchantId = [] := by
  cases found : d.policies.find (·.merchantId = merchantId) with
  | some other => exact newPolicies_of_some found
  | none =>
    have := Table.find_eq_none.1 found policy mem
    simp [own] at this

/-- A claim of an action that has left `APPROVED`, for a merchant with a policy. -/
theorem claimAction_spent {actionId : Uuid} {result : ClaimResult}
    (spent : ∀ a, d.actions.get actionId = some a → a.status ≠ .approved)
    (known : ∀ a c, d.actions.get actionId = some a → d.cases.get a.recoveryCaseId = some c →
      ∃ p ∈ d.policies, p.merchantId = c.merchantId)
    (run : (claimAction env actionId).run d = .ok (result, d')) :
    d' = d ∧ ∃ fields, result = .refused fields := by
  unfold claimAction at run
  rw [run_bind_ok (run_selectAction _),
    show d.actions.find (·.id = actionId) = d.actions.get actionId from rfl] at run
  cases ha : d.actions.get actionId with
  | none =>
    simp only [ha] at run
    cases run
    exact ⟨rfl, _, rfl⟩
  | some action =>
    simp only [ha] at run
    rw [run_bind_ok (run_selectCase _), show d.cases.find (·.id = action.recoveryCaseId) =
      d.cases.get action.recoveryCaseId from rfl] at run
    cases hc : d.cases.get action.recoveryCaseId with
    | none =>
      simp only [hc] at run
      cases run
      exact ⟨rfl, _, rfl⟩
    | some case =>
      simp only [hc] at run
      rw [run_bind_ok (run_selectPayment _)] at run
      obtain ⟨policy, d₁, asked, run⟩ := run_bind_eq_ok.1 run
      obtain ⟨p, hp, own⟩ := known action case ha hc
      obtain ⟨rfl, -⟩ := getOrCreateDefaultPolicy_ok asked
      rw [newPolicies_of_mem hp own, view_nil, run_bind_ok (run_buildPolicyInput ..)] at run
      have id : action.id = actionId := (Table.get_eq_some.1 ha).2
      split at run
      next =>
        unfold takeClaim at run
        rw [if_pos (spent action ha)] at run
        cases run
        exact ⟨rfl, _, rfl⟩
      next =>
        have missed : (query (.updateAction action.id .approved .cancelled)).run d = .ok (0, d) :=
          run_updateAction_miss fun a found => spent a (id ▸ found)
        unfold cancelClaim atomicActionTransition at run
        rw [run_bind_ok missed, if_neg zero_ne_one] at run
        cases run
        exact ⟨rfl, _, rfl⟩

end RecoverAI
