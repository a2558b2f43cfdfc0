import RecoverAI.Serial.Gates
import RecoverAI.Store.Total

/-!
# Writes and their columns

When the statements and the shared parts of the handlers go through: a row is written if and only
if its columns take it, its checks hold and its keys are new. What an event brings is cut to its
column, while a case and a payment that are stored already keep to theirs.
-/
namespace RecoverAI

open Store Txn

/-! ## Statements -/

section

variable {d : Db}

theorem succeeds_insert {r : Row} {Q : Unit → Db → Prop} :
    (query (.insert r)).Succeeds Q d ↔ Insertable d r ∧ Q () (d.put r) := by
  cases error : d.insertError r with
  | none =>
    have insertable := insertError_eq_none.1 error
    rw [succeeds_of_run_ok (run_insert insertable)]
    simp [insertable]
  | some e =>
    have refused : ¬ Insertable d r := fun insertable => by
      rw [insertError_eq_none.2 insertable] at error
      cases error
    simp [not_succeeds_of_run_error (run_insert_error error), refused]

theorem updateError_eq_none {r : Row} : Db.updateError r = none ↔ r.Stored := by
  unfold Db.updateError Row.Stored
  cases r.fits <;> cases r.checks <;> simp

/-- A flush that finds its row succeeds where the columns take the new values. -/
theorem succeeds_flushCase {old new r : RecoveryCase} {Q : Unit → Db → Prop}
    (base : d.cases.get old.id = some r) :
    (query (.flushCase old new)).Succeeds Q d ↔ (Row.recoveryCase (Db.patchCase old new r)).Stored ∧
      Q () (d.put (.recoveryCase (Db.patchCase old new r))) := by
  rw [← updateError_eq_none]
  cases error : Db.updateError (.recoveryCase (Db.patchCase old new r)) <;>
    simp [query, succeeds_sql, exec, Db.exec, base, Db.flush, error, Db.write, view, apply]

theorem run_flushPayment_idle (p : Payment) : (query (.flushPayment p p)).run d = .ok ((), d) := by
  simp [query, Txn.run, exec, Db.exec]

theorem succeeds_flushPayment {old new r : Payment} {Q : Unit → Db → Prop}
    (base : d.payments.get old.id = some r) (other : old ≠ new) :
    (query (.flushPayment old new)).Succeeds Q d ↔
      (Row.payment (Db.patchPayment old new r)).Stored ∧
        Q () (d.put (.payment (Db.patchPayment old new r))) := by
  rw [← updateError_eq_none]
  cases error : Db.updateError (.payment (Db.patchPayment old new r)) <;>
    simp [query, succeeds_sql, exec, Db.exec, base, other, Db.flush, error, Db.write, view, apply]

theorem succeeds_flushWebhookEvent {e : WebhookEvent} {status : WebhookEventStatus}
    {at_ : Option Time} (base : d.webhookEvents.get e.id = some e)
    (fits : (Row.webhookEvent e).fits) :
    (query (.flushWebhookEvent e { e with status := status, processedAt := at_ })).Succeeds
      (fun _ _ => True) d := by
  have patched : Db.patchWebhookEvent e { e with status := status, processedAt := at_ } e =
      { e with status := status, processedAt := at_ } := by
    simp [Db.patchWebhookEvent]
  have stored : Db.updateError
      (.webhookEvent { e with status := status, processedAt := at_ }) = none :=
    updateError_eq_none.2 ⟨fits, rfl⟩
  simp [query, succeeds_sql, exec, Db.exec, base, Db.flush, patched, stored, Db.write]

end

/-! ## Handlers -/

theorem hasNul_of_varchar {n : Nat} {s : String} (h : varchar n s) : hasNul s = false := by
  simp only [varchar, Bool.and_eq_true, Bool.not_eq_true'] at h
  exact h.2

theorem all_map_assigned (n : Nat) (s : Option String) :
    (s.map (assigned n)).all (varchar n) = s.all (assignable n) := by
  cases s <;> rfl

theorem map_assigned {n : Nat} {s : Option String} (h : s.all (varchar n)) :
    s.map (assigned n) = s := by
  cases s with
  | none => rfl
  | some s => exact congrArg some (assigned_of_varchar h)

theorem changedText_self {n : Nat} {old : Option String} (h : old.all (varchar n))
    (new : Option String) : Db.changedText n old new old = new.map (assigned n) := by
  unfold Db.changedText
  split
  next same => exact same ▸ (map_assigned h).symm
  next => rfl

/-- What a handler ends with: its merchant is there, and the ids it draws for its event and
its audit event are new. -/
structure Ready (env : Draws) (merchant : Merchant) (d : Db) : Prop where
  merchant : (d.merchants.get merchant.id).isSome
  outbox : d.lacks (.outbox env.outboxId)
  audit : d.lacks (.audit env.auditId)

section

variable {env : Draws} {merchant : Merchant} {d : Db} {case : RecoveryCase} {eventType : String}
  {payload payload' : Fields} {correlationId : Option String}

theorem succeeds_insertOutboxIfMissing (known : (d.merchants.get merchant.id).isSome)
    (absent : d.lacks (.outbox env.outboxId)) (type : varchar 128 eventType)
    (key : varchar 128 (eventType ++ ":" ++ case.id.str)) (stored : (Json.obj payload).storable) :
    (insertOutboxIfMissing (caseOutbox env merchant case eventType payload)).Succeeds
      (fun _ _ => True) d := by
  rw [insertOutboxIfMissing, succeeds_bind, succeeds_of_run_ok (run_selectOutbox _)]
  cases found : d.outbox.find
    (·.idempotencyKey = (caseOutbox env merchant case eventType payload).idempotencyKey) with
  | some e => simp
  | none =>
    have names : varchar 64 "recovery_case" := rfl
    have entity : varchar 64 case.id.str := by simp [varchar]
    refine succeeds_insert.2 ⟨⟨?_, rfl, fun k hk => ?_, ?_⟩, trivial⟩
    · simp [Row.fits, caseOutbox, names, entity, type, key, stored]
      decide
    · simp only [Row.keys, List.mem_cons, List.not_mem_nil, or_false] at hk
      rcases hk with rfl | rfl
      · exact absent
      · exact fun e he same => by simpa [same] using Table.find_eq_none.1 found e he
    · simpa [Db.references, Row.merchantId, caseOutbox] using known

/-- A handler ends where the request id fits its column. -/
theorem succeeds_conclude (ready : Ready env merchant d) (type : varchar 128 eventType)
    (key : varchar 128 (eventType ++ ":" ++ case.id.str)) (stored : (Json.obj payload).storable)
    (stored' : (Json.obj payload').storable) (result : Fields) :
    (do
      insertAudit env merchant case eventType correlationId payload
      insertOutboxIfMissing (caseOutbox env merchant case eventType payload')
      return result : Tx Fields).Succeeds (fun _ _ => True) d ↔
        correlationId.all (assignable 64) := by
  have names : varchar 64 "recovery_case" ∧ varchar 64 "webhook" := ⟨rfl, rfl⟩
  have entity : varchar 64 case.id.str := by simp [varchar]
  have fits : (Row.audit (caseAudit env merchant case eventType correlationId payload)).fits =
      correlationId.all (assignable 64) := by
    simp [Row.fits, caseAudit, names, entity, type, stored, all_map_assigned]
  rw [succeeds_bind, insertAudit, succeeds_insert]
  constructor
  · rintro ⟨insertable, -⟩
    exact fits.symm.trans insertable.fits
  · intro room
    refine ⟨⟨fits.trans room, rfl, fun k hk => ?_, ?_⟩, ?_⟩
    · simp only [Row.keys, List.mem_singleton] at hk
      exact hk ▸ ready.audit
    · simpa [Db.references, Row.merchantId, caseAudit] using ready.merchant
    · rw [succeeds_bind]
      have known :
          ((d.put (.audit
            (caseAudit env merchant case eventType correlationId payload))).merchants.get
        merchant.id).isSome := ready.merchant
      exact (succeeds_insertOutboxIfMissing known ready.outbox type key stored').mono fun _ _ _ =>
        (succeeds_pure _).2 trivial

theorem stored_become (stored : (Row.recoveryCase case).Stored) (new : RecoveryCaseStatus) :
    (Row.recoveryCase (case.become new)).Stored ↔ integer (case.version + 1) := by
  simp only [Row.Stored, Row.fits, Row.checks, RecoveryCase.become, Bool.and_eq_true,
    decide_eq_true_eq] at stored ⊢
  have later : 0 < case.version + 1 := by omega
  simp [stored, later]

/-- An `UPDATE` of a case the transaction has read. -/
theorem succeeds_flushCase_become (base : d.cases.get case.id = some case)
    (stored : (Row.recoveryCase case).Stored) (new : RecoveryCaseStatus) {Q : Unit → Db → Prop} :
    (query (.flushCase case (case.become new))).Succeeds Q d ↔
      integer (case.version + 1) ∧ Q () (d.put (.recoveryCase (case.become new))) := by
  rw [succeeds_flushCase base, patchCase_become, stored_become stored]

theorem varchar_caseKey (short : eventType.length ≤ 91) (clean : hasNul eventType = false) :
    varchar 128 eventType ∧ varchar 128 (eventType ++ ":" ++ case.id.str) := by
  have text : ":".length = 1 ∧ hasNul ":" = false := ⟨rfl, rfl⟩
  simp [varchar, text, clean]
  omega

theorem succeeds_activateCase (base : d.cases.get case.id = some case)
    (stored : (Row.recoveryCase case).Stored) (status : case.status = .failed)
    {Q : Unit → Db → Prop} : (activateCase case).Succeeds Q d ↔
      integer (case.version + 1) ∧ Q () (d.put (.recoveryCase (case.become .eligible))) := by
  rw [activateCase, transitionRecoveryCase_eligible status]
  exact succeeds_flushCase_become base stored _

variable {payment : Payment}

/-- The texts of an event about a case. -/
theorem storable_eligible (stored : (Row.recoveryCase case).Stored) :
    (Json.obj (eligibleOutbox env merchant payment case).payload).storable := by
  simp only [Row.Stored, Row.fits, Bool.and_eq_true] at stored
  have clean : hasNul "merchant_id" = false ∧ hasNul "payment_id" = false ∧
      hasNul "recovery_case_id" = false ∧
    hasNul "amount_minor" = false ∧ hasNul "currency" = false := ⟨rfl, rfl, rfl, rfl, rfl⟩
  simp [eligibleOutbox, caseOutbox, Json.storable, Json.storableFields, clean,
    hasNul_of_varchar stored.1.1.1.2]

/-- A case that has failed needs room for its version and the request id. -/
theorem succeeds_activate (ready : Ready env merchant d) (base : d.cases.get case.id = some case)
    (stored : (Row.recoveryCase case).Stored) (status : case.status = .failed) (result : Fields) :
    (do
      activateCase case
      insertAudit env merchant case "recovery_case.eligible" correlationId
        [("payment_id", .str payment.id.str), ("from_status", .str RecoveryCaseStatus.failed.value),
          ("to_status", .str RecoveryCaseStatus.eligible.value)]
      insertOutboxIfMissing (eligibleOutbox env merchant payment case)
      return result : Tx Fields).Succeeds (fun _ _ => True) d ↔
      integer (case.version + 1) ∧ correlationId.all (assignable 64) := by
  have keys := @varchar_caseKey case "recovery_case.eligible" (by decide) rfl
  have texts : hasNul "payment_id" = false ∧ hasNul "from_status" = false ∧
      hasNul "to_status" = false := ⟨rfl, rfl, rfl⟩
  have audit :
      (Json.obj [("payment_id", .str payment.id.str),
        ("from_status", .str RecoveryCaseStatus.failed.value),
      ("to_status", .str RecoveryCaseStatus.eligible.value)]).storable := by
    simp [Json.storable, Json.storableFields, texts]
  have ready' : Ready env merchant (d.put (.recoveryCase (case.become .eligible))) :=
    ⟨ready.merchant, ready.outbox, ready.audit⟩
  rw [succeeds_bind, succeeds_activateCase base stored status]
  exact and_congr_right fun _ => @succeeds_conclude env merchant _ case "recovery_case.eligible" _
    (eligibleOutbox env merchant payment case).payload _ ready' keys.1 keys.2 audit
      (storable_eligible stored) _

/-- Cancelling actions leaves the other tables alone. -/
theorem Ready.cancelled (ready : Ready env merchant d) (as : List RecoveryAction) :
    Ready env merchant (view d (as.map fun a => .action (Db.cancelled a))) := by
  refine ⟨by simpa using ready.merchant, ?_, ?_⟩
  · rw [Db.lacks, view_outbox, outboxOf, filterMap_map_action fun _ => rfl]
    exact ready.outbox
  · rw [Db.lacks, view_audits, auditsOf, filterMap_map_action fun _ => rfl]
    exact ready.audit

theorem succeeds_markCaseRecovered (ready : Ready env merchant d)
    (base : d.cases.get case.id = some case) (stored : (Row.recoveryCase case).Stored)
    (clean : hasNul payment.providerPaymentId = false) :
    (markCaseRecovered env merchant correlationId payment case).Succeeds (fun _ _ => True) d ↔
      (case.status.isTerminal = false → integer (case.version + 1) ∧
        correlationId.all (assignable 64)) := by
  cases terminal : case.status.isTerminal with
  | true => simp [markCaseRecovered, terminal]
  | false =>
    have keys := @varchar_caseKey case "recovery_case.recovered" (by decide) rfl
    have texts : hasNul "payment_id" = false ∧ hasNul "provider_payment_id" = false ∧
        hasNul "to_status" = false ∧
      hasNul "merchant_id" = false ∧ hasNul "recovery_case_id" = false := ⟨rfl, rfl, rfl, rfl, rfl⟩
    have audit :
        (Json.obj [("payment_id", .str payment.id.str),
          ("provider_payment_id", .str payment.providerPaymentId),
        ("to_status", .str RecoveryCaseStatus.recovered.value)]).storable := by
      simp [Json.storable, Json.storableFields, texts, clean]
    have event : (Json.obj (recoveredOutbox env merchant payment case).payload).storable := by
      simp [recoveredOutbox, caseOutbox, Json.storable, Json.storableFields, texts]
    simp only [markCaseRecovered, terminal, transitionRecoveryCase_recovered terminal,
      Bool.false_eq_true, if_false, forall_const]
    generalize hd : view d ((d.openActions case.id).map fun a => .action (Db.cancelled a)) = d₁
    have cancels : (query (.cancelActions case.id)).run d = .ok ((), d₁) := hd ▸ rfl
    have base₁ : d₁.cases.get case.id = some case := by
      rw [← hd, view_cases, casesOf, filterMap_map_action fun _ => rfl]
      exact base
    have ready₁ : Ready env merchant (d₁.put (.recoveryCase (case.become .recovered))) := by
      have ready' := ready.cancelled (d.openActions case.id)
      rw [hd] at ready'
      exact ⟨ready'.merchant, ready'.outbox, ready'.audit⟩
    rw [succeeds_bind, succeeds_of_run_ok cancels, succeeds_bind,
      succeeds_flushCase_become base₁ stored]
    exact and_congr_right fun _ =>
      @succeeds_conclude env merchant _ case "recovery_case.recovered" _
      (recoveredOutbox env merchant payment case).payload _ ready₁ keys.1 keys.2 audit event _

section

variable [PyText] {entity : RazorpayPaymentEntity}

theorem varchar_classifyFailure (errorCode : Option String) :
    varchar 128 (classifyFailure errorCode) := by
  unfold classifyFailure
  split
  · rfl
  · dsimp only
    split_ifs <;> rfl

theorem stored_newCase (stored : (Row.payment payment.assigned).Stored) :
    (Row.recoveryCase (newCase env merchant entity payment)).Stored := by
  simp only [Row.Stored, Row.fits, Row.checks, Payment.assigned, Bool.and_eq_true] at stored
  simp only [Row.Stored, Row.fits, Row.checks, newCase, Option.all_some, varchar_classifyFailure,
    stored, Bool.and_true, Bool.true_and]
  exact ⟨rfl, (Bool.and_eq_true _ _).mpr ⟨stored.2.1, rfl⟩⟩

/-- A new case needs room for the request id only. -/
theorem succeeds_createCase (ready : Ready env merchant d)
    (fresh : d.lacks (.recoveryCase env.caseId)) (stored : (Row.payment payment.assigned).Stored)
    (known : (d.payments.get payment.id).isSome) (none : d.caseOf payment.id = none) :
    (createCase env merchant entity correlationId payment).Succeeds (fun _ _ => True) d ↔
      correlationId.all (assignable 64) := by
  have new := @stored_newCase env merchant payment _ entity stored
  have keys := @varchar_caseKey (newCase env merchant entity payment) "recovery_case.eligible"
    (by decide) rfl
  have insertable : Insertable d (.recoveryCase (newCase env merchant entity payment)) := by
    refine ⟨new.1, new.2, fun k hk => ?_, ?_⟩
    · simp only [Row.keys, List.mem_cons, List.not_mem_nil, or_false] at hk
      rcases hk with rfl | rfl
      · exact fresh
      · exact fun c hc same => by simpa [newCase, same] using Table.find_eq_none.1 none c hc
    · simp [Db.references, Row.merchantId, newCase, ready.merchant, known]
  have base : (d.put (.recoveryCase (newCase env merchant entity payment))).cases.get
      (newCase env merchant entity payment).id = some (newCase env merchant entity payment) :=
    Table.get_put_self d.cases _
  have room : integer ((newCase env merchant entity payment).version + 1) := rfl
  have texts : hasNul "payment_id" = false ∧ hasNul "provider_payment_id" = false ∧
      hasNul "from_status" = false ∧
    hasNul "to_status" = false ∧ hasNul "amount_minor" = false ∧
      hasNul "currency" = false := ⟨rfl, rfl, rfl, rfl, rfl, rfl⟩
  have ready' : Ready env merchant
      ((d.put (.recoveryCase (newCase env merchant entity payment))).put
    (.recoveryCase ((newCase env merchant entity payment).become .eligible))) :=
    ⟨ready.merchant, ready.outbox, ready.audit⟩
  rw [createCase, succeeds_bind, succeeds_insert, succeeds_bind, succeeds_activateCase base new rfl]
  simp only [insertable, room, true_and]
  have audit :
      (Json.obj [("payment_id", .str payment.id.str),
        ("provider_payment_id", .str payment.providerPaymentId),
      ("from_status", .str RecoveryCaseStatus.failed.value),
        ("to_status", .str RecoveryCaseStatus.eligible.value),
      ("amount_minor", .int (newCase env merchant entity payment).amountMinor),
      ("currency", .str (newCase env merchant entity payment).currency)]).storable := by
    simp only [Row.Stored, Row.fits, Payment.assigned, Bool.and_eq_true] at stored
    have clean : hasNul payment.providerPaymentId = false :=
      (hasNul_assigned 128 _).symm.trans (hasNul_of_varchar stored.1.1.1.1.1.2)
    have clean' := hasNul_of_varchar stored.1.1.1.2
    simp [Json.storable, Json.storableFields, texts, newCase, clean, clean']
  exact @succeeds_conclude env merchant _
    (newCase env merchant entity payment) "recovery_case.eligible" _
    (eligibleOutbox env merchant payment (newCase env merchant entity payment)).payload _ ready'
      keys.1 keys.2 audit
    (storable_eligible new) _

end

end

/-! ## Payments -/

theorem varchar_currency {currency : String} (h : currencyCheck currency) : varchar 3 currency := by
  simp only [currencyCheck, Bool.and_eq_true, decide_eq_true_eq, List.all_eq_true] at h
  obtain ⟨three, letters⟩ := h
  have clean : hasNul currency = false := by
    rw [hasNul, List.contains_eq_mem, decide_eq_false_iff_not]
    exact fun nul => absurd (letters _ nul).1 (by decide)
  have length : currency.length = 3 := String.length_toList.symm.trans three
  simp [varchar, clean, length]

/-- The columns of a payment take what the entity says of it. -/
structure EntityFits (entity : RazorpayPaymentEntity) (amountMinor : Int) (currency : String) :
    Prop where
  id : assignable 128 entity.id
  amountMinor : bigint amountMinor
  currency : currencyCheck currency

/-- The columns of a payment take what the entity says of its failure. -/
structure FailureFits (entity : RazorpayPaymentEntity) : Prop where
  failureCode : entity.errorCode.all (assignable 128)
  failureReason : entity.errorDescription.all (assignable 512)

section

variable {env : Draws} {merchant : Merchant} {d : Db} {entity : RazorpayPaymentEntity}
  {amountMinor : Int} {currency : String} {old : Payment}

theorem stored_newFailedPayment (nonneg : 0 ≤ amountMinor) :
    (Row.payment (newFailedPayment env merchant entity amountMinor currency).assigned).Stored ↔
      EntityFits entity amountMinor currency ∧ FailureFits entity := by
  have provider : varchar 32 "razorpay" := rfl
  simp only [Row.Stored, Row.fits, Row.checks, newFailedPayment, Payment.assigned, all_map_assigned,
    provider, nonneg, Bool.and_eq_true, decide_true, true_and]
  constructor
  · rintro ⟨⟨⟨⟨⟨id, amount⟩, -⟩, code⟩, reason⟩, currency⟩
    exact ⟨⟨id, amount, currency⟩, code, reason⟩
  · rintro ⟨⟨id, amount, currency⟩, code, reason⟩
    exact ⟨⟨⟨⟨⟨id, amount⟩, varchar_currency currency⟩, code⟩, reason⟩, currency⟩

theorem stored_newCapturedPayment (nonneg : 0 ≤ amountMinor) :
    (Row.payment (newCapturedPayment env merchant entity amountMinor currency).assigned).Stored ↔
      EntityFits entity amountMinor currency := by
  have provider : varchar 32 "razorpay" := rfl
  simp only [Row.Stored, Row.fits, Row.checks, newCapturedPayment, Payment.assigned,
    provider, nonneg, Bool.and_eq_true, decide_true, true_and, Option.map_none,
    Option.all_none, and_true]
  constructor
  · rintro ⟨⟨⟨id, amount⟩, -⟩, currency⟩
    exact ⟨id, amount, currency⟩
  · rintro ⟨id, amount, currency⟩
    exact ⟨⟨⟨id, amount⟩, varchar_currency currency⟩, currency⟩

/-- A stored payment has the texts its columns hold. -/
theorem assigned_of_stored (stored : (Row.payment old).Stored) : old.assigned = old := by
  simp only [Row.Stored, Row.fits, Bool.and_eq_true] at stored
  obtain ⟨⟨⟨⟨⟨⟨-, id⟩, -⟩, -⟩, code⟩, reason⟩, -⟩ := stored
  simp [Payment.assigned, assigned_of_varchar id, map_assigned code, map_assigned reason]

theorem patchPayment_refailed (stored : (Row.payment old).Stored) :
    Db.patchPayment old (refailedPayment env entity amountMinor currency old) old =
      (refailedPayment env entity amountMinor currency old).assigned := by
  simp only [Row.Stored, Row.fits, Bool.and_eq_true] at stored
  obtain ⟨⟨⟨⟨⟨⟨-, id⟩, -⟩, -⟩, code⟩, reason⟩, -⟩ := stored
  simp [Db.patchPayment, Payment.assigned, refailedPayment, changedText_self code,
    changedText_self reason, assigned_of_varchar id]

theorem stored_refailedPayment (stored : (Row.payment old).Stored)
    (id : old.providerPaymentId = entity.id) (nonneg : 0 ≤ amountMinor) :
    (Row.payment (refailedPayment env entity amountMinor currency old).assigned).Stored ↔
      EntityFits entity amountMinor currency ∧ FailureFits entity := by
  have kept := assigned_of_stored stored
  simp only [Row.Stored, Row.fits, Row.checks, Bool.and_eq_true] at stored
  have known : assignable 128 entity.id := by
    have same : assigned 128 old.providerPaymentId = old.providerPaymentId :=
      congrArg Payment.providerPaymentId kept
    rw [assignable, ← id, same]
    exact stored.1.1.1.1.1.2
  have column : varchar 128 (assigned 128 entity.id) := known
  simp only [Row.Stored, Row.fits, Row.checks, refailedPayment, Payment.assigned, all_map_assigned,
    stored, id, column, nonneg, Bool.and_eq_true, decide_true, true_and]
  constructor
  · rintro ⟨⟨⟨⟨amount, -⟩, code⟩, reason⟩, currency⟩
    exact ⟨⟨known, amount, currency⟩, code, reason⟩
  · rintro ⟨⟨-, amount, currency⟩, code, reason⟩
    exact ⟨⟨⟨⟨amount, varchar_currency currency⟩, code⟩, reason⟩, currency⟩

theorem stored_capturedPayment (stored : (Row.payment old).Stored) :
    (Row.payment (capturedPayment env old)).Stored :=
  stored

/-- What is known of the tables when a handler starts. -/
structure Ground (env : Draws) (merchant : Merchant) (d : Db) : Prop
    extends Ready env merchant d where
  payment : d.lacks (.payment env.paymentId)
  case : d.lacks (.recoveryCase env.caseId)
  payments : ∀ p ∈ d.payments, (Row.payment p).Stored
  cases : ∀ c ∈ d.cases, (Row.recoveryCase c).Stored ∧ (d.payments.get c.paymentId).isSome

theorem Db.paymentOf_spec {merchantId : Uuid} {id : String} {p : Payment}
    (h : d.paymentOf merchantId id = some p) :
    d.payments.get p.id = some p ∧ p.providerPaymentId = id := by
  obtain ⟨hp, found⟩ := Table.mem_of_find h
  simp only [Bool.and_eq_true, decide_eq_true_eq] at found
  exact ⟨Table.get_of_mem hp, found.2⟩

theorem Ground.insertable (ground : Ground env merchant d) {new : Payment}
    (id : new.id = env.paymentId) (owner : new.merchantId = merchant.id)
    (provider : new.provider = "razorpay") :
    Insertable d (.payment new) ↔
      (Row.payment new).Stored ∧ d.paymentOf merchant.id new.providerPaymentId = none := by
  constructor
  · refine fun h => ⟨⟨h.fits, h.checks⟩, Table.find_eq_none.2 fun p hp => ?_⟩
    have free := h.lacks (.paymentOf new.merchantId new.provider new.providerPaymentId)
      (by simp [Row.keys]) p hp
    simpa [owner, provider, and_assoc] using free
  rintro ⟨stored, unknown⟩
  refine ⟨stored.1, stored.2, fun k hk => ?_, ?_⟩
  · simp only [Row.keys, List.mem_cons, List.not_mem_nil, or_false] at hk
    rcases hk with rfl | rfl
    · exact id ▸ ground.payment
    · rintro p hp ⟨merchantId, razorpay, same⟩
      have missed := Table.find_eq_none.1 unknown p hp
      simp [merchantId, razorpay, same, owner, provider] at missed
  · simpa [Db.references, Row.merchantId, owner] using ground.merchant

theorem ground_of_valid {request : Request} (valid : d.Valid) (fresh : env.Fresh d)
    (served : ServedBy request d merchant) (e : WebhookEvent) :
    Ground env merchant (d.put (.webhookEvent e)) where
  merchant := by
    have id : merchant.id = request.merchantId := (Table.get_eq_some.1 served.1).2
    rw [id, show (d.put (.webhookEvent e)).merchants.get request.merchantId =
      some merchant from served.1]
    rfl
  outbox := fresh.outbox
  audit := fresh.audit
  payment := fresh.payment
  case := fresh.case
  payments p hp := valid.stored _ (Db.mem_rows_payment.2 hp)
  cases c hc := by
    have mem : .recoveryCase c ∈ d.rows := Db.mem_rows_case.2 hc
    have refs := valid.references _ mem
    simp only [Db.references, Bool.and_eq_true] at refs
    exact ⟨valid.stored _ mem, refs.2⟩

/-- A payment with a new id has no case. -/
theorem Ground.caseOf_new (ground : Ground env merchant d) : d.caseOf env.paymentId = none := by
  refine Table.find_eq_none.2 fun c hc => ?_
  rw [decide_eq_false_iff_not]
  intro same
  have known := (ground.cases c hc).2
  rw [same, ground.payment] at known
  cases known

end

end RecoverAI
