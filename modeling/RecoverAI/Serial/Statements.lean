import RecoverAI.Config
import RecoverAI.Effects.Services

/-!
# Transactions that run alone

What `Txn.run` makes of the statements and the service functions, as equations. `Db.Valid`
is what the schema guarantees of the rows, and `Draws.Fresh` what `uuid4` promises of the
ids a transaction draws.
-/
namespace RecoverAI

open Store

variable {α β : Type} {d d' : Db} {t : Tx α} {f : α → Tx β}

theorem run_bind_ok {a : α} (h : t.run d = .ok (a, d')) : (t >>= f).run d = (f a).run d' := by
  rw [Txn.run_bind, h]
  rfl

theorem run_bind_error {e : Err} (h : t.run d = .error e) : (t >>= f).run d = .error e := by
  rw [Txn.run_bind, h]
  rfl

/-- A transaction that runs alone sees no other state. -/
theorem weakens_serial : (Setting.serial Stmt Db Row).Weakens fun _ s t => s = t where
  of_rely h := h
  trans := Eq.trans
  anti _ h := h

@[simp] theorem run_pure (a : α) : (Txn.pure a : Tx α).run d = .ok (a, d) := rfl
@[simp] theorem run_throw (e : Err) : (Txn.throw e : Tx α).run d = .error e := rfl

/-! ## Statements -/

theorem run_selectMerchant (p : Merchant → Bool) :
    (query (.selectMerchant p)).run d = .ok (d.merchants.find p, d) := rfl

theorem run_selectPolicy (p : MerchantPolicy → Bool) :
    (query (.selectPolicy p)).run d = .ok (d.policies.find p, d) := rfl

theorem run_selectPayment (p : Payment → Bool) :
    (query (.selectPayment p)).run d = .ok (d.payments.find p, d) := rfl

theorem run_selectCase (p : RecoveryCase → Bool) :
    (query (.selectCase p)).run d = .ok (d.cases.find p, d) := rfl

theorem run_selectAction (p : RecoveryAction → Bool) :
    (query (.selectAction p)).run d = .ok (d.actions.find p, d) := rfl

theorem run_selectOutbox (p : OutboxEvent → Bool) :
    (query (.selectOutbox p)).run d = .ok (d.outbox.find p, d) := rfl

theorem run_insert {r : Row} (h : Insertable d r) :
    (query (.insert r)).run d = .ok ((), d.put r) := by
  simp [query, Txn.run, exec, Db.exec, insertError_eq_none.2 h, Db.write, view, apply]

theorem run_insert_error {r : Row} {e : DbError} (h : d.insertError r = some e) :
    (query (.insert r)).run d = .error (.db e) := by
  simp [query, Txn.run, exec, Db.exec, h, Db.write]

theorem run_attempt_insert {r : Row} (h : Insertable d r) :
    (attempt (.insert r)).run d = .ok (.ok (), d.put r) := by
  simp [attempt, Txn.run, exec, Db.exec, insertError_eq_none.2 h, Db.write, view, apply]

theorem run_attempt_insert_error {r : Row} {e : DbError} (h : d.insertError r = some e) :
    (attempt (.insert r)).run d = .ok (.error e, d) := by
  simp [attempt, Txn.run, exec, Db.exec, h, Db.write]

theorem insertError_of_hasKey {r : Row} (fits : r.fits) (taken : ¬ ∀ k ∈ r.keys, d.lacks k) :
    d.insertError r = some .integrity := by
  have : d.hasKeyOf r = true := by
    rw [← hasKeyOf_eq_false, Bool.not_eq_false] at taken
    exact taken
  simp [Db.insertError, fits, this]

/-- A row as the column types and the checks admit it. -/
def Row.Stored (r : Row) : Prop := r.fits ∧ r.checks

/-- A guarded transition that hits its row fails only where the version leaves its column. -/
theorem run_updateCase {c : RecoveryCase} {id : Uuid} {newStatus : RecoveryCaseStatus}
    {next : Option Time} (hc : d.cases.get id = some c) (stored : (Row.recoveryCase c).Stored) :
    (query (.updateCase id c.status c.version newStatus next)).run d =
      if integer (c.version + 1) then
        .ok (1, d.put (.recoveryCase (Db.transition newStatus (c.version + 1) next c)))
      else .error (.db .data) := by
  obtain ⟨fits, checks⟩ := stored
  have positive : 0 < c.version + 1 := by
    simp only [Row.checks, Bool.and_eq_true, decide_eq_true_eq] at checks
    omega
  have error : Db.updateError (.recoveryCase (Db.transition newStatus (c.version + 1) next c)) =
      if integer (c.version + 1) then none else some .data := by
    simp only [Row.fits, Row.checks, Bool.and_eq_true] at fits checks
    cases room : integer (c.version + 1) <;>
      simp [Db.updateError, Row.fits, Row.checks, Db.transition, fits, checks, room, positive]
  cases room : integer (c.version + 1) <;>
    simp [query, Txn.run, exec, Db.exec, hc, Db.updateWhere, Option.filter, error, room,
      Db.write, view, apply]

theorem stored_transition {c : RecoveryCase} {newStatus : RecoveryCaseStatus} {next : Option Time}
    (stored : (Row.recoveryCase c).Stored) (room : integer (c.version + 1)) :
    (Row.recoveryCase (Db.transition newStatus (c.version + 1) next c)).Stored := by
  simp only [Row.Stored, Row.fits, Row.checks, Db.transition, Bool.and_eq_true,
    decide_eq_true_eq] at stored ⊢
  obtain ⟨⟨fits, -⟩, checks, positive⟩ := stored
  have later : 0 < c.version + 1 := by omega
  exact ⟨⟨fits, room⟩, ⟨decide_eq_true checks.1, checks.2⟩, decide_eq_true later⟩

theorem run_updateAction {a : RecoveryAction} {id : Uuid} {newStatus : RecoveryActionStatus}
    (ha : d.actions.get id = some a) (stored : (Row.action a).Stored) :
    (query (.updateAction id a.status newStatus)).run d =
      .ok (1, d.put (.action { a with status := newStatus })) := by
  have error : Db.updateError (.action { a with status := newStatus }) = none := by
    have fits : (Row.action { a with status := newStatus }).fits := stored.1
    have checks : (Row.action { a with status := newStatus }).checks := stored.2
    simp [Db.updateError, fits, checks]
  simp [query, Txn.run, exec, Db.exec, ha, Db.updateWhere, Option.filter, error,
    Db.write, view, apply]

theorem run_updateAction_miss {id : Uuid} {status newStatus : RecoveryActionStatus}
    (miss : ∀ a, d.actions.get id = some a → a.status ≠ status) :
    (query (.updateAction id status newStatus)).run d = .ok (0, d) := by
  have none : (d.actions.get id).filter (fun a => a.status = status) = none := by
    simpa [Option.filter_eq_none_iff] using miss
  simp [query, Txn.run, exec, Db.exec, Db.updateWhere, none]

/-! ## Valid databases and fresh ids -/

/-- The rows the constraints of the schema are about. -/
def Db.rows (d : Db) : List Row :=
  d.policies.rows.map .policy ++ d.payments.rows.map .payment ++ d.cases.rows.map .recoveryCase ++
    d.actions.rows.map .action ++ d.outbox.rows.map .outbox ++
      d.webhookEvents.rows.map .webhookEvent ++
    d.audits.rows.map .audit

/-- The constraints of the schema: column types and checks, unique keys and foreign keys. -/
structure Db.Valid (d : Db) : Prop where
  stored : ∀ r ∈ d.rows, r.Stored
  unique : d.rows.Pairwise fun r s => ∀ k ∈ r.keys, k ∉ s.keys
  references : ∀ r ∈ d.rows, d.references r

instance (r  : Row) : Decidable r.Stored :=
  inferInstanceAs (Decidable (r.fits = true ∧ r.checks = true))

instance (d : Db) : Decidable d.Valid :=
  decidable_of_iff ((∀ r ∈ d.rows, r.Stored) ∧
    (d.rows.Pairwise fun r s => ∀ k ∈ r.keys, k ∉ s.keys) ∧
    ∀ r ∈ d.rows, d.references r) ⟨fun ⟨a, b, c⟩ => ⟨a, b, c⟩,
      fun h => ⟨h.stored, h.unique, h.references⟩⟩

theorem Db.mem_rows_policy {r : MerchantPolicy} : .policy r ∈ d.rows ↔ r ∈ d.policies := by
  simp [Db.rows, Table.mem_rows]
theorem Db.mem_rows_case {r : RecoveryCase} : .recoveryCase r ∈ d.rows ↔ r ∈ d.cases := by
  simp [Db.rows, Table.mem_rows]
theorem Db.mem_rows_action {r : RecoveryAction} : .action r ∈ d.rows ↔ r ∈ d.actions := by
  simp [Db.rows, Table.mem_rows]
theorem Db.mem_rows_payment {r : Payment} : .payment r ∈ d.rows ↔ r ∈ d.payments := by
  simp [Db.rows, Table.mem_rows]

theorem Db.mem_rows_outbox {r : OutboxEvent} : .outbox r ∈ d.rows ↔ r ∈ d.outbox := by
  simp [Db.rows, Table.mem_rows]
theorem Db.mem_rows_webhookEvent {r : WebhookEvent} :
    .webhookEvent r ∈ d.rows ↔ r ∈ d.webhookEvents := by
  simp [Db.rows, Table.mem_rows]
theorem Db.mem_rows_audit {r : AuditEvent} : .audit r ∈ d.rows ↔ r ∈ d.audits := by
  simp [Db.rows, Table.mem_rows]

theorem Db.mem_rows_put {r s : Row} (h : s ∈ (d.put r).rows) : s = r ∨ s ∈ d.rows := by
  cases r <;> simp only [Db.rows, Db.put, List.mem_append, List.mem_map, Table.mem_rows,
    Table.mem_put] at h ⊢ <;> grind

theorem Db.mem_rows_view {us : List Row} {r : Row} (h : r ∈ (view d us).rows) :
    r ∈ us ∨ r ∈ d.rows := by
  induction us generalizing d with
  | nil => exact .inr h
  | cons u us ih =>
    rcases ih h with new | old
    · exact .inl (List.mem_cons_of_mem u new)
    · rcases Db.mem_rows_put old with rfl | old
      · exact .inl (List.mem_cons_self ..)
      · exact .inr old

/-- The key of the event that schedules an action. -/
def scheduledKey (caseId actionId : Uuid) : String :=
  "recovery_case.action_scheduled:" ++ caseId.str ++ ":" ++ actionId.str

/-- What `uuid4` promises: no row has a drawn id yet, and no event is about a drawn action. -/
structure Draws.Fresh (env : Draws) (d : Db) : Prop where
  policy : d.lacks (.policy env.policyId)
  payment : d.lacks (.payment env.paymentId)
  case : d.lacks (.recoveryCase env.caseId)
  action : d.lacks (.action env.actionId)
  outbox : d.lacks (.outbox env.outboxId)
  webhookEvent : d.lacks (.webhookEvent env.webhookEventId)
  audit : d.lacks (.audit env.auditId)
  scheduled : ∀ c ∈ d.cases, d.lacks (.outboxKey (scheduledKey c.id env.actionId))

instance (d : Db) : DecidablePred d.lacks
  | .policy id => inferInstanceAs (Decidable (d.policies.get id = none))
  | .policyOf m => inferInstanceAs (Decidable (∀ r ∈ d.policies, r.merchantId ≠ m))
  | .payment id => inferInstanceAs (Decidable (d.payments.get id = none))
  | .paymentOf m provider id => inferInstanceAs (Decidable (∀ r ∈ d.payments,
      ¬ (r.merchantId = m ∧ r.provider = provider ∧ r.providerPaymentId = id)))
  | .recoveryCase id => inferInstanceAs (Decidable (d.cases.get id = none))
  | .caseOf paymentId => inferInstanceAs (Decidable (∀ r ∈ d.cases, r.paymentId ≠ paymentId))
  | .action id => inferInstanceAs (Decidable (d.actions.get id = none))
  | .actionKey key => inferInstanceAs (Decidable (∀ r ∈ d.actions, r.idempotencyKey ≠ key))
  | .attempt caseId actionType number => inferInstanceAs (Decidable (∀ r ∈ d.actions,
      ¬ (r.recoveryCaseId = caseId ∧ r.actionType = actionType ∧ r.attemptNumber = number)))
  | .outbox id => inferInstanceAs (Decidable (d.outbox.get id = none))
  | .outboxKey key => inferInstanceAs (Decidable (∀ r ∈ d.outbox, r.idempotencyKey ≠ key))
  | .webhookEvent id => inferInstanceAs (Decidable (d.webhookEvents.get id = none))
  | .inbox provider id => inferInstanceAs (Decidable (∀ r ∈ d.webhookEvents,
      ¬ (r.provider = provider ∧ r.providerEventId = id)))
  | .audit id => inferInstanceAs (Decidable (d.audits.get id = none))

instance (env : Draws) (d : Db) : Decidable (env.Fresh d) :=
  decidable_of_iff (d.lacks (.policy env.policyId) ∧ d.lacks (.payment env.paymentId) ∧
    d.lacks (.recoveryCase env.caseId) ∧ d.lacks (.action env.actionId) ∧
      d.lacks (.outbox env.outboxId) ∧
    d.lacks (.webhookEvent env.webhookEventId) ∧ d.lacks (.audit env.auditId) ∧
    ∀ c ∈ d.cases, d.lacks (.outboxKey (scheduledKey c.id env.actionId)))
    ⟨fun ⟨a, b, c, d, e, f, g, h⟩ => ⟨a, b, c, d, e, f, g, h⟩, fun h =>
      ⟨h.policy, h.payment, h.case, h.action, h.outbox, h.webhookEvent, h.audit, h.scheduled⟩⟩

/-! ## Policies and counts -/

/-- The merchant's limits, or the defaults where it has none. -/
def limitsOf (d : Db) (merchantId : Uuid) : PolicyLimits :=
  policyLimitsFrom
    ((d.policies.find (·.merchantId = merchantId)).getD (defaultPolicy default merchantId))

/-- The row `get_or_create_default_policy` adds. -/
def newPolicies (d : Db) (newId merchantId : Uuid) : List Row :=
  if (d.policies.find (·.merchantId = merchantId)).isSome then []
    else [.policy (defaultPolicy newId merchantId)]

theorem run_getOrCreateDefaultPolicy {newId merchantId : Uuid} (fresh : d.lacks (.policy newId))
    (known : (d.merchants.get merchantId).isSome) : ∃ policy,
    (getOrCreateDefaultPolicy newId merchantId).run d =
      .ok (policy, view d (newPolicies d newId merchantId)) ∧
      policyLimitsFrom policy = limitsOf d merchantId := by
  unfold getOrCreateDefaultPolicy
  rw [run_bind_ok (run_selectPolicy _)]
  cases found : d.policies.find (·.merchantId = merchantId) with
  | some policy => exact ⟨policy, by simp [newPolicies, found], by simp [limitsOf, found]⟩
  | none =>
    have insertable : Insertable d (.policy (defaultPolicy newId merchantId)) := by
      refine ⟨rfl, rfl, fun k hk => ?_,
        by simpa [Db.references, Row.merchantId, defaultPolicy] using known⟩
      simp only [Row.keys, List.mem_cons, List.not_mem_nil, or_false] at hk
      rcases hk with rfl | rfl
      · exact fresh
      · intro r hr
        have other : r.merchantId ≠ merchantId := by simpa using Table.find_eq_none.1 found r hr
        exact other
    refine ⟨defaultPolicy newId merchantId, ?_,
      by simp [limitsOf, found, policyLimitsFrom, defaultPolicy]⟩
    simp only
    rw [run_bind_ok (run_attempt_insert insertable)]
    simp [newPolicies, found, view, apply]

/-- The input of the policy, counted in `d`. -/
def policyInput (d : Db) (case : RecoveryCase) (candidate : RecoveryActionType)
    (status : RecoveryCaseStatus) (exclude : Option Uuid) : PolicyInput where
  caseStatus := status
  amountMinor := case.amountMinor
  candidateAction := candidate
  totalActionCount := d.actions.count (countedAction case.id exclude)
  reminderCount := d.actions.count fun a => countedAction case.id exclude a &&
    a.actionType = .sendReminder
  activePaymentLinkCount := d.actions.count (activeLink case.id exclude)

theorem run_buildPolicyInput (case : RecoveryCase) (candidate : RecoveryActionType)
    (status : RecoveryCaseStatus) (exclude : Option Uuid) :
    (buildPolicyInput case candidate status exclude).run d =
      .ok (policyInput d case candidate status exclude, d) := rfl

/-! ## Actions -/

theorem hasNul_repr (n : Nat) : hasNul n.repr = false := by
  rw [hasNul, List.contains_eq_mem, decide_eq_false_iff_not, Nat.toList_repr]
  exact fun nul => absurd (Nat.isDigit_of_mem_toDigits (by decide) (by decide) nul) (by decide)

theorem text_integer {n : Int} (fits : integer n) :
    (toString n).length ≤ 11 ∧ hasNul (toString n) = false := by
  have short : ∀ m : Nat, m < 10 ^ 10 →
      m.repr.length ≤ 10 := fun m => (Nat.length_repr_le_iff (by decide)).2
  simp only [integer, Bool.and_eq_true, decide_eq_true_eq] at fits
  cases n with
  | ofNat m =>
    have small : (m : Int) < 2 ^ 31 := fits.2
    exact ⟨Nat.le_succ_of_le (short m (by omega)), hasNul_repr m⟩
  | negSucc m =>
    have text : toString (Int.negSucc m) = "-" ++ (m + 1).repr := rfl
    rw [text, String.length_append, hasNul_append, hasNul_repr]
    exact ⟨Nat.add_le_add_left (short (m + 1) (by omega)) 1, rfl⟩

/-- The canonical key of an attempt whose number the column stores. -/
theorem varchar_recoveryActionIdempotencyKey (caseId : Uuid) (type : RecoveryActionType) {n : Int}
    (fits : integer n) : varchar 128 (recoveryActionIdempotencyKey caseId type n) := by
  have length : type.value.length ≤ 19 ∧ hasNul type.value = false := by
    cases type <;> exact ⟨by decide, rfl⟩
  have number := text_integer fits
  have text : "recovery_action:".length = 16 ∧ ":".length = 1 := ⟨rfl, rfl⟩
  have clean : hasNul "recovery_action:" = false ∧ hasNul ":" = false := ⟨rfl, rfl⟩
  unfold recoveryActionIdempotencyKey varchar
  simp only [String.length_append, hasNul_append, text, clean, length, number,
    Uuid.length_str, hasNul_uuid, Bool.or_false, Bool.not_false, Bool.and_true, decide_eq_true_eq]
  omega

theorem run_createRecoveryActionIdempotent {a : RecoveryAction} (h : Insertable d (.action a)) :
    (createRecoveryActionIdempotent a).run d = .ok ((a, true), d.put (.action a)) := by
  have missing : d.actions.find (fun x => x.idempotencyKey = a.idempotencyKey) = none := by
    refine Table.find_eq_none.2 fun x hx => ?_
    simpa using h.lacks (.actionKey a.idempotencyKey) (by simp [Row.keys]) x hx
  unfold createRecoveryActionIdempotent
  rw [run_bind_ok (run_selectAction _)]
  simp only [missing]
  rw [run_bind_ok (run_attempt_insert h)]
  rfl

/-- An action of the same attempt is answered with instead. -/
theorem run_createRecoveryActionIdempotent_existing {a : RecoveryAction}
    (fits : (Row.action a).fits) (existing : ∃ x ∈ d.actions, SameAttempt a x) :
    ∃ x, (createRecoveryActionIdempotent a).run d = .ok ((x, false), d) := by
  unfold createRecoveryActionIdempotent
  rw [run_bind_ok (run_selectAction _)]
  cases byKey : d.actions.find (fun x => x.idempotencyKey = a.idempotencyKey) with
  | some x => exact ⟨x, rfl⟩
  | none =>
    obtain ⟨x, hx, same⟩ := existing
    have other := Table.find_eq_none.1 byKey
    have attempted := same.resolve_left (by simpa using other x hx)
    have taken : d.insertError (.action a) = some .integrity :=
      insertError_of_hasKey fits fun lacks =>
        lacks (.attempt a.recoveryCaseId a.actionType a.attemptNumber)
          (by simp [Row.keys]) x hx attempted
    simp only
    rw [run_bind_ok (run_attempt_insert_error taken)]
    simp only
    rw [run_bind_ok (run_selectAction _)]
    simp only [byKey]
    rw [run_bind_ok (run_selectAction _)]
    cases found : d.actions.find
      (fun x => x.recoveryCaseId = a.recoveryCaseId && x.actionType = a.actionType &&
        x.attemptNumber = a.attemptNumber) with
    | some x => exact ⟨x, rfl⟩
    | none =>
      have := Table.find_eq_none.1 found x hx
      simp [attempted] at this

end RecoverAI
