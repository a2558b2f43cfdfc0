import RecoverAI.Effects.Services
import RecoverAI.Webhooks.Razorpay

/-!
# What a webhook does

The writes of an accepted event, described at the moment of the commit as in
`RecoverAI.Effects.Eligible`. `allows` is what the setting grants of the statements, kept for the
`UPDATE` of a recovered case.
-/
namespace RecoverAI

open Store

/-- `get_payment_by_provider`. -/
def Db.paymentOf (d : Db) (merchantId : Uuid) (providerPaymentId : String) : Option Payment :=
  d.payments.find fun p => p.merchantId = merchantId && p.provider = "razorpay" &&
    p.providerPaymentId = providerPaymentId

/-- `get_recovery_case_by_payment`. -/
def Db.caseOf (d : Db) (paymentId : Uuid) : Option RecoveryCase :=
  d.cases.find (·.paymentId = paymentId)

/-- The actions a recovery cancels. -/
def Db.openActions (d : Db) (caseId : Uuid) : List RecoveryAction :=
  d.actions.filter fun a => a.recoveryCaseId = caseId && Db.cancellable a

section

variable {T : Type} (db : T → Db) (R : List Row → T → T → Prop)

/-- The rows of `insert_outbox_if_missing`. -/
inductive Ensures (event : OutboxEvent) : List Row → T → Prop where
  | present {e t} (found : ∃ t₀, R [] t₀ t ∧ e ∈ (db t₀).outbox)
      (same : e.idempotencyKey = event.idempotencyKey) : Ensures event [] t
  | inserted {t} (absent : (db t).Absent (.outbox event)) : Ensures event [.outbox event] t

/-- The payment a handler goes on with, and the rows it wrote for it: `new` where the payment is
unknown, and else `update` applied to the object it read. -/
inductive WritesPayment (merchantId : Uuid) (id : String) (new : Payment)
    (update : Payment → Payment) : Payment → List Row → T → Prop where
  | inserted {t} (unknown : ∃ t₀, R [] t₀ t ∧ (db t₀).paymentOf merchantId id = none)
      (absent : (db t).Absent (.payment new.assigned)) :
      WritesPayment merchantId id new update new [.payment new.assigned] t
  | kept {old t} (read : ∃ t₀, R [] t₀ t ∧ (db t₀).paymentOf merchantId id = some old)
      (same : update old = old) : WritesPayment merchantId id new update old [] t
  | updated {old r t} (read : ∃ t₀, R [] t₀ t ∧ (db t₀).paymentOf merchantId id = some old)
      (base : (db t).payments.get old.id = some r) : WritesPayment merchantId id new update
        (update old) [.payment (Db.patchPayment old (update old) r)] t

variable (env : Draws)

section

variable [PyText] (merchant : Merchant) (entity : RazorpayPaymentEntity) (amountMinor : Int)
  (currency : String)

abbrev WritesFailed : Payment → List Row → T → Prop :=
  WritesPayment db R merchant.id entity.id
    (newFailedPayment env merchant entity amountMinor currency)
    (refailedPayment env entity amountMinor currency)

/-- The payment was not captured when the handler read it. -/
abbrev Uncaptured (t : T) : Prop :=
  ∃ t₀, R [] t₀ t ∧ ∀ p, (db t₀).paymentOf merchant.id entity.id = some p → p.status ≠ .captured

inductive FailedEffect : List Row → T → Prop where
  | captured {p t} (read : ∃ t₀, R [] t₀ t ∧ (db t₀).paymentOf merchant.id entity.id = some p)
      (status : p.status = .captured) : FailedEffect [] t
  | known {payment case prs t}
      (pay : WritesFailed db R env merchant entity amountMinor currency payment prs t)
      (found : ∃ t₀, R [] t₀ t ∧ (db t₀).caseOf payment.id = some case)
      (status : case.status ≠ .failed) (uncaptured : Uncaptured db R merchant entity t) :
      FailedEffect prs t
  | created {payment prs audit ors correlationId t}
      (pay : WritesFailed db R env merchant entity amountMinor currency payment prs t)
      (absent : (db t).Absent (.recoveryCase (newCase env merchant entity payment)))
      (audited : (db t).Absent
        (.audit (caseAudit env merchant
          (newCase env merchant entity payment) "recovery_case.eligible" correlationId audit)))
      (event : Ensures db R
        (eligibleOutbox env merchant payment (newCase env merchant entity payment)) ors t)
      (uncaptured : Uncaptured db R merchant entity t) :
      FailedEffect (prs ++ [.recoveryCase (newCase env merchant entity payment)] ++
        [.recoveryCase ((newCase env merchant entity payment).become .eligible)] ++
        [.audit (caseAudit env merchant (newCase env merchant entity payment)
          "recovery_case.eligible" correlationId audit)] ++ ors) t
  | activated {payment case r prs audit ors correlationId t}
      (pay : WritesFailed db R env merchant entity amountMinor currency payment prs t)
      (found : ∃ t₀, R [] t₀ t ∧ (db t₀).caseOf payment.id = some case)
      (status : case.status = .failed) (base : (db t).cases.get case.id = some r)
      (audited : (db t).Absent (.audit (caseAudit env merchant case "recovery_case.eligible"
        correlationId audit)))
      (event : Ensures db R (eligibleOutbox env merchant payment case) ors t)
      (uncaptured : Uncaptured db R merchant entity t) :
      FailedEffect (prs ++ [.recoveryCase (Db.patchCase case (case.become .eligible) r)] ++
        [.audit (caseAudit env merchant case "recovery_case.eligible" correlationId audit)] ++
          ors) t

/-- What a captured event makes of a known payment. -/
def recaptured (old : Payment) : Payment :=
  if old.status = .captured then old else capturedPayment env old

abbrev WritesCaptured : Payment → List Row → T → Prop :=
  WritesPayment db R merchant.id entity.id
    (newCapturedPayment env merchant entity amountMinor currency)
    (recaptured env)

/-- The notes name no case of the merchant. -/
abbrev Unnoted (t : T) : Prop :=
  ∀ id, notedCaseId entity = some id → ∃ t₀, R [] t₀ t ∧
    ∀ c, (db t₀).cases.get id = some c → c.merchantId ≠ merchant.id

/-- How a captured event arrives at a case: by the notes, or by the payment. -/
inductive Chosen (payment : Payment) (case : RecoveryCase) (t : T) : Prop where
  | noted (id : notedCaseId entity = some case.id) (merchantId : case.merchantId = merchant.id)
      (read : ∃ t₀, R [] t₀ t ∧ (db t₀).cases.get case.id = some case)
  | own (unnoted : Unnoted db R merchant entity t)
      (read : ∃ t₀, R [] t₀ t ∧ (db t₀).cases.get case.id = some case)
      (found : ∃ t₀ c, R [] t₀ t ∧ (db t₀).caseOf payment.id = some c ∧ c.id = case.id)

variable (allows : Db → Stmt → Prop) (inbox : WebhookEvent)

/-- The rows of a recovery: the cancelled actions first, then the case. -/
structure Recovers (prs : List Row) (case r : RecoveryCase) (cancels : List RecoveryAction)
    (t : T) : Prop where
  nonterminal : case.status.isTerminal = false
  read : ∃ t₀ t₁, R prs t₀ t₁ ∧ cancels = (db t₀).openActions case.id ∧
    allows (view (db t₁)
      (.webhookEvent inbox :: prs ++ cancels.map fun a => .action (Db.cancelled a)))
      (.flushCase case (case.become .recovered)) ∧ (db t₁).cases.get case.id = some r ∧
    R (prs ++ cancels.map (fun a => .action (Db.cancelled a)) ++
      [.recoveryCase (Db.patchCase case (case.become .recovered) r)]) t₁ t
  base : (db t).cases.get case.id = some r
  actions : ∀ a ∈ cancels, (db t).actions.get a.id = some a

inductive CapturedEffect : List Row → T → Prop where
  | noCase {payment prs t}
      (pay : WritesCaptured db R env merchant entity amountMinor currency payment prs t)
      (none : ∃ t₀, R [] t₀ t ∧ (db t₀).caseOf payment.id = none)
      (unnoted : Unnoted db R merchant entity t) : CapturedEffect prs t
  | terminal {payment case prs t}
      (pay : WritesCaptured db R env merchant entity amountMinor currency payment prs t)
      (chosen : Chosen db R merchant entity payment case t) (terminal : case.status.isTerminal) :
      CapturedEffect prs t
  | recovered {payment case r prs cancels audit ors correlationId t}
      (pay : WritesCaptured db R env merchant entity amountMinor currency payment prs t)
      (chosen : Chosen db R merchant entity payment case t)
      (recovers : Recovers db R allows inbox prs case r cancels t)
      (audited : (db t).Absent (.audit (caseAudit env merchant case "recovery_case.recovered"
        correlationId audit)))
      (event : Ensures db R (recoveredOutbox env merchant payment case) ors t) :
      CapturedEffect (prs ++ cancels.map (fun a => .action (Db.cancelled a)) ++
        [.recoveryCase (Db.patchCase case (case.become .recovered) r)] ++
        [.audit (caseAudit env merchant case "recovery_case.recovered" correlationId audit)] ++
          ors) t

/-- The row is refused although the setting grants its insertion. -/
def Refused (r : Row) (us : List Row) (t : T) : Prop :=
  allows (view (db t) us) (.insert r) ∧ (view (db t) us).insertError r = some .integrity

/-- Where a constraint can break while an event is processed; `us` are the rows written before. -/
inductive Breaks : List Row → T → Prop where
  | insertPayment {new t}
      (unknown : ∃ t₀, R [] t₀ t ∧ (db t₀).paymentOf merchant.id entity.id = none)
      (refused : Refused db allows (.payment new) [.webhookEvent inbox] t) :
      Breaks [.webhookEvent inbox] t
  | updatePayment {old new r us t} (base : (db t).payments.get old.id = some r)
      (granted : allows (view (db t) us) (.flushPayment old new))
      (error : Db.updateError (.payment (Db.patchPayment old new r)) = some .integrity) :
      Breaks us t
  | insertCase {payment prs t}
      (pay : WritesFailed db R env merchant entity amountMinor currency payment prs t)
      (none : ∃ t₀, R [] t₀ t ∧ (db t₀).caseOf payment.id = none)
      (refused : Refused db allows (.recoveryCase (newCase env merchant entity payment))
        (.webhookEvent inbox :: prs) t) : Breaks (.webhookEvent inbox :: prs) t
  | failedCase {case us t} (found : ∃ t₀, R [] t₀ t ∧ case ∈ (db t₀).cases)
      (status : case.status = .failed) : Breaks us t
  | updateCase {case r us t} (base : (db t).cases.get case.id = some r)
      (read : ∃ t₀, R [] t₀ t ∧ case ∈ (db t₀).cases)
      (error : Db.updateError (.recoveryCase (Db.patchCase case (case.become .recovered) r)) =
        some .integrity) : Breaks us t
  | insertAudit {a us t} (merchantId : a.merchantId = merchant.id)
      (refused : Refused db allows (.audit a) us t) : Breaks us t
  | insertOutbox {event us t} {c : RecoveryCase} (held : .recoveryCase c ∈ us)
      (merchantId : event.merchantId = merchant.id)
      (key : event.idempotencyKey = event.eventType ++ ":" ++ c.id.str)
      (none : ∃ t₀, R us t₀ t ∧ ∀ e ∈ (db t₀).outbox, e.idempotencyKey ≠ event.idempotencyKey)
      (refused : Refused db allows (.outbox event) us t) : Breaks us t

/-- What is known when the processing of an event raises. -/
structure Excused (e : Err) (us : List Row) (t : T) : Prop where
  held : .webhookEvent inbox ∈ us
  other : e ≠ .duplicateWebhook
  integrity : e = .db .integrity →
    Breaks db R env merchant entity amountMinor currency allows inbox us t

end

end

section

variable [PyLib]

section

variable {T : Type} (db : T → Db) (R : List Row → T → T → Prop) (env : Draws)
  (allows : Db → Stmt → Prop) (inbox : WebhookEvent) (merchant : Merchant)

/-- The payment entity, amount and currency of an event that passes validation. -/
structure Validated (event : RazorpayWebhook) (entity : RazorpayPaymentEntity) (amountMinor : Int)
    (currency : String) : Prop where
  extracted : extractPaymentEntity event = .ok entity
  priced : validateAmountMinor entity.amount = .ok amountMinor
  normalized : normalizeCurrency entity.currency = .ok currency

inductive ProcessEffect (event : RazorpayWebhook) : List Row → T → Prop where
  | ignored {t} (unsupported : event.event ∉ supportedEvents) : ProcessEffect event [] t
  | failed {entity amountMinor currency us t} (type : event.event = "payment.failed")
      (valid : Validated event entity amountMinor currency)
      (effect : FailedEffect db R env merchant entity amountMinor currency us t) :
      ProcessEffect event us t
  | captured {entity amountMinor currency us t} (type : event.event = "payment.captured")
      (valid : Validated event entity amountMinor currency)
      (effect : CapturedEffect db R env merchant entity amountMinor currency allows inbox us t) :
      ProcessEffect event us t

variable (settings : Settings) (request : Request)

inductive WebhookEffect : Response → List Row → T → Prop where
  | rejected {response t} (reason : admitRequest settings request = .error response) :
      WebhookEffect response [] t
  | recorded {webhook merchant status result us t}
      (admitted : admitRequest settings request = .ok webhook)
      (found : ∃ t₀, R [] t₀ t ∧ (db t₀).merchants.get request.merchantId = some merchant)
      (active : merchant.isActive)
      (absent : (db t).Absent (.webhookEvent (receivedEvent env merchant request webhook)))
      (effect : ProcessEffect db R env allows
        (receivedEvent env merchant request webhook) merchant webhook us t) :
      WebhookEffect ⟨200, result⟩
        (.webhookEvent (receivedEvent env merchant request webhook) :: us ++
        [.webhookEvent { receivedEvent env merchant request webhook with
          status := status, processedAt := some env.handled }]) t

/-- What is known when the endpoint's transaction raises. -/
inductive WebhookRaises : Err → List Row → T → Prop where
  | merchantNotFound {t} (none : ∃ t₀, R [] t₀ t ∧ ∀ merchant,
      (db t₀).merchants.get request.merchantId = some merchant → merchant.isActive = false) :
      WebhookRaises .merchantNotFound [] t
  | inbox {webhook merchant e t} (admitted : admitRequest settings request = .ok webhook)
      (found : ∃ t₀, R [] t₀ t ∧ (db t₀).merchants.get request.merchantId = some merchant)
      (granted : allows (db t)
        (.insert (.webhookEvent (receivedEvent env merchant request webhook))))
      (error : (db t).insertError
        (.webhookEvent (receivedEvent env merchant request webhook)) = some e) :
      WebhookRaises (if e = .integrity then .duplicateWebhook else .db e) [] t
  | processing {webhook merchant e us t} (admitted : admitRequest settings request = .ok webhook)
      (found : ∃ t₀, R [] t₀ t ∧ (db t₀).merchants.get request.merchantId = some merchant)
      (held : .webhookEvent (receivedEvent env merchant request webhook) ∈ us)
      (absent : (db t).Absent (.webhookEvent (receivedEvent env merchant request webhook)))
      (other : e ≠ .duplicateWebhook)
      (integrity : e = .db .integrity → ∃ entity amountMinor currency,
        Validated webhook entity amountMinor currency ∧ Breaks db R env merchant entity amountMinor
          currency allows (receivedEvent env merchant request webhook) us t) :
      WebhookRaises e us t

end

end

variable {C : Setting Stmt Db Row} {X : Err → List Row → C.State → Prop} {ws us : List Row}
  {s t u : C.State} {R : List Row → C.State → C.State → Prop}

theorem Ensures.later (hR : C.Weakens R) {event : OutboxEvent} {ors : List Row}
    (h : Ensures C.db R event ors s) (sub : ors ⊆ ws) (ht : C.rely ws s t) :
    Ensures C.db R event ors t := by
  cases h with
  | present found same => exact .present (hR.later found ht) same
  | inserted absent => exact .inserted (absent.later (sub (List.mem_singleton.2 rfl)) ht)

theorem Ensures.tables {T : Type} {db : T → Db} {R : List Row → T → T → Prop} {t : T}
    {event : OutboxEvent} {ors : List Row} (h : Ensures db R event ors t) :
    paymentsOf ors = [] ∧ casesOf ors = [] ∧ actionsOf ors = [] ∧ webhookEventsOf ors = [] ∧
      auditsOf ors = [] := by
  cases h <;> simp [Row.payment?, Row.case?, Row.action?, Row.webhookEvent?, Row.audit?]

theorem wp_insertOutboxIfMissing {event : OutboxEvent} {Q : Unit → List Row → C.State → Prop}
    (hR : C.Weakens R) (none : outboxOf ws = [])
    (hQ : ∀ ors t, C.rely ws s t → Ensures C.db R event ors t → Q () (ws ++ ors) t)
    (hX : ∀ e t, C.rely ws s t → (e = .integrity → (∃ t₀, R ws t₀ t ∧
      ∀ e ∈ (C.db t₀).outbox, e.idempotencyKey ≠ event.idempotencyKey) ∧
      Refused C.db C.allows (.outbox event) ws t) → X (.db e) ws t) :
    C.wp (insertOutboxIfMissing event) Q X ws s := by
  rw [insertOutboxIfMissing, Setting.wp_bind]
  refine wp_selectOutbox fun t₁ h₁ => ?_
  split
  next e found =>
    obtain ⟨mem, same⟩ := Table.mem_of_find found
    have mem : e ∈ (C.db t₁).outbox := by simpa [Setting.sees, none] using mem
    simpa using hQ [] t₁ h₁ (.present ⟨t₁, hR.refl, mem⟩ (by simpa using same))
  next missing =>
    have absent := Table.find_eq_none.1 missing
    refine wp_insert (fun t₂ h₂ _ ok => ?_) fun e t₂ h₂ granted error => ?_
    · exact hQ _ _ (C.rely_trans h₁ h₂)
        (.inserted (.of_view ok.lacks (by simp [Db.rowsLike, none])))
    · refine hX e t₂ (C.rely_trans h₁ h₂) fun he => ⟨⟨t₁, hR.of_rely h₂, fun e he => ?_⟩, granted,
        he ▸ error⟩
      have view : (C.sees ws t₁).outbox = (C.db t₁).outbox := by simp [Setting.sees, none]
      simpa using absent e (view ▸ he)

theorem WritesPayment.later (hR : C.Weakens R) {merchantId : Uuid} {id : String}
    {new payment : Payment} {update : Payment → Payment} {prs : List Row}
    (h : WritesPayment C.db R merchantId id new update payment prs s) (sub : prs ⊆ ws)
    (ht : C.rely ws s t) : WritesPayment C.db R merchantId id new update payment prs t := by
  cases h with
  | inserted unknown absent =>
    exact .inserted (hR.later unknown ht) (absent.later (sub (List.mem_singleton.2 rfl)) ht)
  | kept read same => exact .kept (hR.later read ht) same
  | @updated old r _ read base =>
    have id : r.id = old.id := (Table.get_eq_some.1 base).2
    refine .updated (hR.later read ht) (id ▸ ?_)
    exact C.payment_stays (r := Db.patchPayment old (update old) r) ht
      (sub (List.mem_singleton.2 rfl)) (id ▸ base)

theorem WritesPayment.tables {T : Type} {db : T → Db} {R : List Row → T → T → Prop} {t : T}
    {merchantId : Uuid} {id : String} {new payment : Payment} {update : Payment → Payment}
    {prs : List Row} (h : WritesPayment db R merchantId id new update payment prs t) :
    casesOf prs = [] ∧ actionsOf prs = [] ∧ outboxOf prs = [] ∧ webhookEventsOf prs = [] ∧
      auditsOf prs = [] := by
  cases h <;> simp [Row.case?, Row.action?, Row.outbox?, Row.webhookEvent?, Row.audit?]

theorem checks_become {c : RecoveryCase} (new : RecoveryCaseStatus)
    (h : (Row.recoveryCase c).checks) : (Row.recoveryCase (c.become new)).checks := by
  change (0 ≤ c.amountMinor && currencyCheck c.currency && 0 < c.version + 1) = true
  simp only [Row.checks, Bool.and_eq_true, decide_eq_true_eq] at h ⊢
  exact ⟨h.1, by omega⟩

theorem patchCase_become (c : RecoveryCase) (new : RecoveryCaseStatus) :
    Db.patchCase c (c.become new) c = c.become new := by
  simp [Db.patchCase, RecoveryCase.become]

section

variable [PyText] {env : Draws} {inbox : WebhookEvent} {merchant : Merchant}
  {entity : RazorpayPaymentEntity} {amountMinor : Int} {currency : String}

theorem wp_insertPayment (hR : C.Weakens R) {new : Payment} {update : Payment → Payment}
    {Q : Payment → List Row → C.State → Prop} {t₀ : C.State}
    (h₀ : C.rely [.webhookEvent inbox] t₀ s)
    (unknown : (C.db t₀).paymentOf merchant.id entity.id = none)
    (hQ : ∀ payment prs t,
      C.rely [.webhookEvent inbox] s t → WritesPayment C.db R merchant.id entity.id new update
      payment prs t → Q payment (.webhookEvent inbox :: prs) t)
    (hX : ∀ e us t,
      Excused C.db R env merchant entity amountMinor currency C.allows inbox e us t → X e us t) :
    C.wp (query (.insert (.payment new.assigned)) >>= fun _ => pure new) Q X
      [.webhookEvent inbox] s := by
  have read : ∀ t, C.rely [.webhookEvent inbox] s t →
      ∃ t₀, R [] t₀ t ∧ (C.db t₀).paymentOf merchant.id entity.id = none := fun t ht =>
    ⟨t₀, hR.anti (List.nil_subset _) (hR.of_rely (C.rely_trans h₀ ht)), unknown⟩
  rw [Setting.wp_bind]
  refine wp_insert (fun t ht _ ok => ?_) fun e t ht granted error => ?_
  · exact hQ _ _ t ht (.inserted (read t ht) (.of_view ok.lacks rfl))
  · exact hX _ _ _ ⟨List.mem_singleton.2 rfl, Err.noConfusion, fun he => .insertPayment (read t ht)
      ⟨granted, by cases he; exact error⟩⟩

theorem wp_updatePayment (hR : C.Weakens R) {new old : Payment} {update : Payment → Payment}
    {Q : Payment → List Row → C.State → Prop} {t₀ : C.State}
    (h₀ : C.rely [.webhookEvent inbox] t₀ s)
    (known : (C.db t₀).paymentOf merchant.id entity.id = some old)
    (hQ : ∀ payment prs t,
      C.rely [.webhookEvent inbox] s t → WritesPayment C.db R merchant.id entity.id new update
      payment prs t → Q payment (.webhookEvent inbox :: prs) t)
    (hX : ∀ e us t,
      Excused C.db R env merchant entity amountMinor currency C.allows inbox e us t → X e us t) :
    C.wp (query (.flushPayment old (update old)) >>= fun _ => pure (update old)) Q X
      [.webhookEvent inbox] s := by
  have read : ∀ t, C.rely [.webhookEvent inbox] s t →
      ∃ t₀, R [] t₀ t ∧ (C.db t₀).paymentOf merchant.id entity.id = some old := fun t ht =>
    ⟨t₀, hR.anti (List.nil_subset _) (hR.of_rely (C.rely_trans h₀ ht)), known⟩
  rw [Setting.wp_bind]
  refine wp_flushPayment (fun t ht same => ?_) (fun t r ht _ _ base => ?_)
    fun e t ht granted fails => ?_
  · exact same ▸ hQ _ _ t ht (.kept (read t ht) same.symm)
  · exact hQ _ _ t ht (.updated (read t ht) base)
  · refine hX _ _ _ ⟨List.mem_singleton.2 rfl, Err.noConfusion, fun he => ?_⟩
    cases he
    rcases fails with ⟨-, stale⟩ | ⟨r, base, error⟩
    · cases stale
    · exact .updatePayment base granted error

theorem wp_writeFailedPayment (hR : C.Weakens R) {found : Option Payment}
    {Q : Payment → List Row → C.State → Prop} {t₀ : C.State}
    (h₀ : C.rely [.webhookEvent inbox] t₀ s)
    (read : (C.db t₀).paymentOf merchant.id entity.id = found)
    (hQ : ∀ payment prs t,
      C.rely [.webhookEvent inbox] s t → WritesFailed C.db R env merchant entity amountMinor
      currency payment prs t → Q payment (.webhookEvent inbox :: prs) t)
    (hX : ∀ e us t,
      Excused C.db R env merchant entity amountMinor currency C.allows inbox e us t → X e us t) :
    C.wp (writeFailedPayment env merchant entity amountMinor currency found) Q X
      [.webhookEvent inbox] s := by
  cases found with
  | none => exact wp_insertPayment hR h₀ read hQ hX
  | some old => exact wp_updatePayment hR h₀ read hQ hX

theorem wp_writeCapturedPayment (hR : C.Weakens R) {found : Option Payment}
    {Q : Payment → List Row → C.State → Prop} {t₀ : C.State}
    (h₀ : C.rely [.webhookEvent inbox] t₀ s)
    (read : (C.db t₀).paymentOf merchant.id entity.id = found)
    (hQ : ∀ payment prs t,
      C.rely [.webhookEvent inbox] s t → WritesCaptured C.db R env merchant entity amountMinor
      currency payment prs t → Q payment (.webhookEvent inbox :: prs) t)
    (hX : ∀ e us t,
      Excused C.db R env merchant entity amountMinor currency C.allows inbox e us t → X e us t) :
    C.wp (writeCapturedPayment env merchant entity amountMinor currency found) Q X
      [.webhookEvent inbox] s := by
  cases found with
  | none => exact wp_insertPayment hR h₀ read hQ hX
  | some old =>
    by_cases status : old.status = .captured
    · rw [writeCapturedPayment, if_neg (not_not.2 status)]
      exact hQ _ _ s (C.rely_refl _ _)
        (.kept ⟨t₀, hR.anti (List.nil_subset _) (hR.of_rely h₀), read⟩ (if_pos status))
    · have new : recaptured env old = capturedPayment env old := if_neg status
      rw [writeCapturedPayment, if_pos status]
      exact new ▸ wp_updatePayment hR h₀ read hQ hX

/-- The audit event and the outbox event that follow a write of the case. -/
theorem wp_conclude (hR : C.Weakens R) {case c : RecoveryCase} {eventType : String}
    {correlationId : Option String} {payload result : Fields} {event : OutboxEvent}
    {Q : Fields → List Row → C.State → Prop} (noOutbox : outboxOf ws = [])
    (noAudits : auditsOf ws = []) (held : .webhookEvent inbox ∈ ws)
    (heldCase : .recoveryCase c ∈ ws) (merchantId : event.merchantId = merchant.id)
    (key : event.idempotencyKey = event.eventType ++ ":" ++ c.id.str)
    (hQ : ∀ ors t, C.rely ws s t →
      (C.db t).Absent (.audit (caseAudit env merchant case eventType correlationId payload)) →
      Ensures C.db R event ors t → Q result
      (ws ++ [.audit (caseAudit env merchant case eventType correlationId payload)] ++ ors) t)
    (hX : ∀ e us t,
      Excused C.db R env merchant entity amountMinor currency C.allows inbox e us t → X e us t) :
    C.wp (insertAudit env merchant case eventType correlationId payload >>= fun _ =>
      insertOutboxIfMissing event >>= fun _ => pure result) Q X ws s := by
  rw [insertAudit, Setting.wp_bind]
  refine wp_insert (fun t₁ h₁ _ ok => ?_) fun e t ht granted error => ?_
  · rw [Setting.wp_bind]
    refine wp_insertOutboxIfMissing hR (by simpa [Row.outbox?] using noOutbox)
      (fun ors t₂ h₂ ensures => ?_) fun e t ht integrity => ?_
    · exact hQ ors t₂ (C.rely_append h₁ h₂)
        (Db.Absent.later (.of_view ok.lacks (by simp [Db.rowsLike, noAudits])) (by simp) h₂) ensures
    · refine hX _ _ _ ⟨by simp [held], Err.noConfusion, fun he => ?_⟩
      obtain ⟨none, refused⟩ := integrity (by cases he; rfl)
      exact .insertOutbox (List.mem_append_left _ heldCase) merchantId key none refused
  · refine hX _ _ _ ⟨held, Err.noConfusion, fun he => ?_⟩
    exact .insertAudit rfl ⟨granted, by cases he; exact error⟩

theorem wp_createCase (hR : C.Weakens R) {correlationId : Option String} {payment : Payment}
    {prs : List Row} {Q : Fields → List Row → C.State → Prop}
    (pay : WritesFailed C.db R env merchant entity amountMinor currency payment prs s)
    (unknown : ∃ t₀, R [] t₀ s ∧ (C.db t₀).caseOf payment.id = none)
    (uncaptured : Uncaptured C.db R merchant entity s)
    (hQ : ∀ result us t, FailedEffect C.db R env merchant entity amountMinor currency us t →
      Q result (.webhookEvent inbox :: us) t)
    (hX : ∀ e us t, Excused C.db R env merchant entity amountMinor currency C.allows inbox e us t →
      X e us t) :
    C.wp (createCase env merchant entity correlationId payment) Q X
      (.webhookEvent inbox :: prs) s := by
  obtain ⟨noCases, -, noOutbox, -, noAudits⟩ := pay.tables
  have eligible : transitionRecoveryCase (newCase env merchant entity payment) .eligible =
    .ok ((newCase env merchant entity payment).become .eligible) :=
      transitionRecoveryCase_eligible rfl
  rw [createCase, Setting.wp_bind]
  refine wp_insert (fun t₁ h₁ _ ok => ?_) fun e t ht granted error => ?_
  · have own : ∀ t,
        (C.sees (.webhookEvent inbox :: prs ++ [.recoveryCase (newCase env merchant entity
        payment)]) t).cases.get (newCase env merchant entity payment).id =
          some (newCase env merchant entity payment) := fun t =>
      view_case_of_getLast? (by simp [List.filterMap_cons, Row.case?, noCases])
    rw [activateCase, eligible, Setting.wp_bind]
    refine wp_flushCase (fun t₂ r h₂ _ hr => ?_) fun e t ht _ fails => ?_
    · obtain rfl := Option.some.inj ((own t₂).symm.trans hr)
      rw [patchCase_become]
      refine wp_conclude hR (c := (newCase env merchant entity payment).become .eligible)
        ?_ ?_ (by simp)
        (by simp) rfl rfl (fun ors t₃ h₃ audited ensures => ?_) hX
      · simp [List.filterMap_cons, Row.outbox?, noOutbox]
      · simp [List.filterMap_cons, Row.audit?, noAudits]
      · have h₁₃ := C.rely_append h₂ h₃
        have absent : (C.db t₃).Absent (.recoveryCase (newCase env merchant entity payment)) :=
          Db.Absent.later
            (.of_view ok.lacks (by simp [Db.rowsLike, List.filterMap_cons, Row.case?, noCases]))
            (by simp) h₁₃
        exact hQ _ _ _
          (.created (pay.later hR (by simp) (C.rely_append h₁ h₁₃)) absent audited ensures
          (hR.later uncaptured (C.rely_append h₁ h₁₃)))
    · refine hX _ _ _ ⟨by simp, Err.noConfusion, fun he => ?_⟩
      rcases fails with ⟨none, -⟩ | ⟨r, hr, error⟩
      · rw [own t] at none
        cases none
      · obtain rfl := Option.some.inj ((own t).symm.trans hr)
        cases he
        have broken := checks_of_updateError error
        dsimp only at broken
        rw [patchCase_become] at broken
        rw [checks_become _ ok.checks] at broken
        cases broken
  · refine hX _ _ _ ⟨by simp, Err.noConfusion, fun he => ?_⟩
    exact .insertCase (pay.later hR (by simp) ht) (hR.later unknown ht) ⟨granted,
      by cases he; exact error⟩

theorem wp_activate (hR : C.Weakens R) {correlationId : Option String} {payment : Payment}
    {case : RecoveryCase} {prs : List Row} {payload result : Fields}
    {Q : Fields → List Row → C.State → Prop}
    (pay : WritesFailed C.db R env merchant entity amountMinor currency payment prs s)
    (found : ∃ t₀, R [] t₀ s ∧ (C.db t₀).caseOf payment.id = some case)
    (status : case.status = .failed) (uncaptured : Uncaptured C.db R merchant entity s)
    (hQ : ∀ result us t, FailedEffect C.db R env merchant entity amountMinor currency us t →
      Q result (.webhookEvent inbox :: us) t)
    (hX : ∀ e us t,
      Excused C.db R env merchant entity amountMinor currency C.allows inbox e us t → X e us t) :
    C.wp (activateCase case >>= fun _ =>
      insertAudit env merchant case "recovery_case.eligible" correlationId payload >>= fun _ =>
      insertOutboxIfMissing (eligibleOutbox env merchant payment case) >>= fun _ => pure result) Q X
      (.webhookEvent inbox :: prs) s := by
  obtain ⟨noCases, -, noOutbox, -, noAudits⟩ := pay.tables
  rw [activateCase, transitionRecoveryCase_eligible status, Setting.wp_bind]
  refine wp_flushCase (fun t₁ r h₁ _ hr => ?_) fun e t ht _ fails => ?_
  · have base : (C.db t₁).cases.get case.id = some r := by
      simpa [Setting.sees, List.filterMap_cons, Row.case?, noCases] using hr
    have id : r.id = case.id := (Table.get_eq_some.1 base).2
    refine wp_conclude hR (c := Db.patchCase case (case.become .eligible) r) ?_ ?_
      (by simp) (by simp)
      rfl (id ▸ rfl) (fun ors t₂ h₂ audited ensures => ?_) hX
    · simp [List.filterMap_cons, Row.outbox?, noOutbox]
    · simp [List.filterMap_cons, Row.audit?, noAudits]
    · have h₁₂ := C.rely_append h₁ h₂
      have base : (C.db t₂).cases.get case.id = some r :=
        id ▸ C.case_stays (r := Db.patchCase case (case.become .eligible) r) h₂
          (by simp) (id ▸ base)
      exact hQ _ _ _
        (.activated (pay.later hR (by simp) h₁₂) (hR.later found h₁₂) status base audited
        ensures (hR.later uncaptured h₁₂))
  · refine hX _ _ _ ⟨by simp, Err.noConfusion, fun _ => .failedCase (hR.later ?_ ht) status⟩
    obtain ⟨t₀, h₀, hc⟩ := found
    exact ⟨t₀, h₀, (Table.mem_of_find hc).1⟩

theorem wp_handlePaymentFailed (hR : C.Weakens R) {correlationId : Option String}
    {Q : Fields → List Row → C.State → Prop}
    (hQ : ∀ result us t, FailedEffect C.db R env merchant entity amountMinor currency us t →
      Q result (.webhookEvent inbox :: us) t)
    (hX : ∀ e us t, Excused C.db R env merchant entity amountMinor currency C.allows inbox e us t →
      X e us t) :
    C.wp (handlePaymentFailed env merchant entity amountMinor currency correlationId) Q X
      [.webhookEvent inbox] s := by
  rw [handlePaymentFailed, getPaymentByProvider, Setting.wp_bind]
  refine wp_selectPayment fun t₁ h₁ => ?_
  have lookup : (C.sees [.webhookEvent inbox] t₁).payments.find
      (fun p => p.merchantId = merchant.id &&
      p.provider = "razorpay" && p.providerPaymentId = entity.id) =
    (C.db t₁).paymentOf merchant.id entity.id := rfl
  rw [lookup]
  split
  next p captured =>
    obtain ⟨found, status⟩ := Option.filter_eq_some_iff.1 captured
    exact hQ _ _ _ (.captured ⟨t₁, hR.refl, found⟩ (by simpa using status))
  next other =>
    have uncaptured : Uncaptured C.db R merchant entity t₁ :=
      ⟨t₁, hR.refl,
        fun p found captured => Option.filter_eq_none_iff.1 other p found (by simpa using captured)⟩
    rw [Setting.wp_bind]
    refine wp_writeFailedPayment hR (C.rely_refl _ _) rfl (fun payment prs t₂ h₂ pay => ?_) hX
    have uncaptured := hR.later uncaptured h₂
    obtain ⟨noCases, -⟩ := pay.tables
    rw [getRecoveryCaseByPayment, Setting.wp_bind]
    refine wp_selectCase fun t₃ h₃ => ?_
    have lookup : (C.sees (.webhookEvent inbox :: prs) t₃).cases.find (·.paymentId = payment.id) =
        (C.db t₃).caseOf payment.id := by
      simp [Setting.sees, List.filterMap_cons, Row.case?, noCases, Db.caseOf]
    rw [lookup]
    have pay := pay.later hR (List.subset_cons_self _ _) h₃
    have uncaptured := hR.later uncaptured h₃
    split
    next none => exact wp_createCase hR pay ⟨t₃, hR.refl, none⟩ uncaptured hQ hX
    next case found =>
      split
      next status => exact wp_activate hR pay ⟨t₃, hR.refl, found⟩ status uncaptured hQ hX
      next status => exact hQ _ _ _ (.known pay ⟨t₃, hR.refl, found⟩ status uncaptured)

theorem Chosen.later (hR : C.Weakens R) {payment : Payment} {case : RecoveryCase}
    (h : Chosen C.db R merchant entity payment case s) (ht : C.rely ws s t) :
    Chosen C.db R merchant entity payment case t := by
  cases h with
  | noted id merchantId read => exact .noted id merchantId (hR.later read ht)
  | own unnoted read found =>
    refine .own (fun id hid => hR.later (unnoted id hid) ht) (hR.later read ht) ?_
    obtain ⟨t₀, c, h₀, found⟩ := found
    exact ⟨t₀, c, hR.trans h₀ (hR.anti (List.nil_subset ws) (hR.of_rely ht)), found⟩

theorem Chosen.read {T : Type} {db : T → Db} {R : List Row → T → T → Prop} {t : T}
    {payment : Payment} {case : RecoveryCase} (h : Chosen db R merchant entity payment case t) :
    ∃ t₀, R [] t₀ t ∧ (db t₀).cases.get case.id = some case := by
  cases h with
  | noted _ _ read => exact read
  | own _ read _ => exact read

theorem wp_recover (hR : C.Weakens R) {correlationId : Option String} {payment : Payment}
    {case : RecoveryCase} {prs : List Row} {payload result : Fields}
    {Q : Fields → List Row → C.State → Prop}
    (pay : WritesCaptured C.db R env merchant entity amountMinor currency payment prs s)
    (chosen : Chosen C.db R merchant entity payment case s)
    (nonterminal : case.status.isTerminal = false)
    (hQ : ∀ result us t,
      CapturedEffect C.db R env merchant entity amountMinor currency C.allows inbox us t →
      Q result (.webhookEvent inbox :: us) t)
    (hX : ∀ e us t,
      Excused C.db R env merchant entity amountMinor currency C.allows inbox e us t → X e us t) :
    C.wp (query (.cancelActions case.id) >>= fun _ =>
      query (.flushCase case (case.become .recovered)) >>= fun _ =>
      insertAudit env merchant case "recovery_case.recovered" correlationId payload >>= fun _ =>
      insertOutboxIfMissing (recoveredOutbox env merchant payment case) >>= fun _ =>
        pure result) Q X
      (.webhookEvent inbox :: prs) s := by
  obtain ⟨noCases, noActions, noOutbox, -, noAudits⟩ := pay.tables
  rw [Setting.wp_bind]
  refine wp_cancelActions fun t₁ h₁ => ?_
  have cancels : ((C.sees (.webhookEvent inbox :: prs) t₁).actions.filter fun a =>
      a.recoveryCaseId = case.id && Db.cancellable a) = (C.db t₁).openActions case.id := by
    simp [Setting.sees, List.filterMap_cons, Row.action?, noActions, Db.openActions]
  rw [cancels]
  generalize hcs : (C.db t₁).openActions case.id = cs
  have noCases' : casesOf (cs.map fun a => .action (Db.cancelled a)) = [] :=
    filterMap_map_action (fun _ => rfl) _ _
  have noOutbox' : outboxOf (cs.map fun a => .action (Db.cancelled a)) = [] :=
    filterMap_map_action (fun _ => rfl) _ _
  have noAudits' : auditsOf (cs.map fun a => .action (Db.cancelled a)) = [] :=
    filterMap_map_action (fun _ => rfl) _ _
  rw [Setting.wp_bind]
  refine wp_flushCase (fun t₂ r h₂ granted hr => ?_) fun e t ht _ fails => ?_
  · have base : (C.db t₂).cases.get case.id = some r := by
      simpa [Setting.sees, List.filterMap_cons, Row.case?, noCases, noCases'] using hr
    have id : r.id = case.id := (Table.get_eq_some.1 base).2
    refine wp_conclude hR (c := Db.patchCase case (case.become .recovered) r) ?_ ?_
      (by simp) (by simp)
      rfl (id ▸ rfl) (fun ors t₃ h₃ audited ensures => ?_) hX
    · simp [List.filterMap_cons, Row.outbox?, noOutbox, noOutbox']
    · simp [List.filterMap_cons, Row.audit?, noAudits, noAudits']
    · have h₁₃ := C.rely_append h₂ h₃
      have kept : ∀ a ∈ cs, (C.db t₃).actions.get a.id = some a := by
        intro a ha
        have mem : a ∈ (C.db t₁).actions := by
          rw [← hcs] at ha
          exact (Table.mem_filter.1 ha).1
        refine C.action_stays (r := Db.cancelled a) h₁₃ ?_ (Table.get_of_mem mem)
        exact List.mem_append_right _ (List.mem_map.2 ⟨a, ha, rfl⟩)
      have recovers : Recovers C.db R C.allows inbox prs case r cs t₃ := {
        nonterminal := nonterminal
        read := ⟨t₁, t₂, hR.anti (by simp) (hR.of_rely h₂), hcs.symm, granted, base,
          hR.anti (by simp) (hR.of_rely h₃)⟩
        base := id ▸ C.case_stays (r := Db.patchCase case (case.become .recovered) r) h₃ (by simp)
          (id ▸ base)
        actions := kept }
      have h := C.rely_append h₁ h₁₃
      simpa using hQ result _ _ (.recovered (pay.later hR (by simp) h) (chosen.later hR h) recovers
        audited ensures)
  · refine hX _ _ _ ⟨by simp, Err.noConfusion, fun he => ?_⟩
    cases he
    rcases fails with ⟨-, stale⟩ | ⟨r, hr, error⟩
    · cases stale
    · have base : (C.db t).cases.get case.id = some r := by
        simpa [Setting.sees, List.filterMap_cons, Row.case?, noCases, noCases'] using hr
      obtain ⟨t₀, h₀, found⟩ := (chosen.later hR (C.rely_append h₁ ht)).read
      exact .updateCase base ⟨t₀, h₀, (Table.get_eq_some.1 found).1⟩ error

theorem wp_markCaseRecovered (hR : C.Weakens R) {correlationId : Option String} {payment : Payment}
    {case : RecoveryCase} {prs : List Row} {Q : Fields → List Row → C.State → Prop}
    (pay : WritesCaptured C.db R env merchant entity amountMinor currency payment prs s)
    (chosen : Chosen C.db R merchant entity payment case s)
    (hQ : ∀ result us t,
      CapturedEffect C.db R env merchant entity amountMinor currency C.allows inbox us t →
      Q result (.webhookEvent inbox :: us) t)
    (hX : ∀ e us t,
      Excused C.db R env merchant entity amountMinor currency C.allows inbox e us t → X e us t) :
    C.wp (markCaseRecovered env merchant correlationId payment case) Q X
      (.webhookEvent inbox :: prs)
      s := by
  unfold markCaseRecovered
  split
  next terminal => exact hQ _ _ _ (.terminal pay chosen terminal)
  next open_ =>
    rw [Bool.not_eq_true] at open_
    rw [transitionRecoveryCase_recovered open_]
    exact wp_recover hR pay chosen open_ hQ hX

theorem wp_recoverOwnCase (hR : C.Weakens R) {correlationId : Option String} {payment : Payment}
    {loaded : Option RecoveryCase} {prs : List Row} {Q : Fields → List Row → C.State → Prop}
    (pay : WritesCaptured C.db R env merchant entity amountMinor currency payment prs s)
    (read : ∀ c, loaded = some c → ∃ t₀, R [] t₀ s ∧ (C.db t₀).cases.get c.id = some c)
    (unnoted : Unnoted C.db R merchant entity s)
    (hQ : ∀ result us t,
      CapturedEffect C.db R env merchant entity amountMinor currency C.allows inbox us t →
      Q result (.webhookEvent inbox :: us) t)
    (hX : ∀ e us t,
      Excused C.db R env merchant entity amountMinor currency C.allows inbox e us t → X e us t) :
    C.wp (recoverOwnCase env merchant correlationId payment loaded) Q X (.webhookEvent inbox :: prs)
      s := by
  obtain ⟨noCases, -⟩ := pay.tables
  rw [recoverOwnCase, getRecoveryCaseByPayment, Setting.wp_bind]
  refine wp_selectCase fun t₁ h₁ => ?_
  have lookup : (C.sees (.webhookEvent inbox :: prs) t₁).cases.find (·.paymentId = payment.id) =
      (C.db t₁).caseOf payment.id := by
    simp [Setting.sees, List.filterMap_cons, Row.case?, noCases, Db.caseOf]
  rw [lookup]
  have pay := pay.later hR (List.subset_cons_self _ _) h₁
  split
  next none =>
    exact hQ _ _ _ (.noCase pay ⟨t₁, hR.refl, none⟩ fun id hid => hR.later (unnoted id hid) h₁)
  next found hfound =>
    refine wp_markCaseRecovered hR pay
      (.own (fun id hid => hR.later (unnoted id hid) h₁) ?_ ?_) hQ hX
    · unfold identify
      cases same : loaded.filter (·.id = found.id) with
      | none =>
        exact ⟨t₁, hR.refl, Table.get_of_mem (Table.mem_of_find hfound).1⟩
      | some c => exact hR.later (read c (Option.filter_eq_some_iff.1 same).1) h₁
    · refine ⟨t₁, found, hR.refl, hfound, ?_⟩
      unfold identify
      cases same : loaded.filter (·.id = found.id) with
      | none => rfl
      | some c => simpa [eq_comm] using (Option.filter_eq_some_iff.1 same).2

theorem wp_handlePaymentCaptured (hR : C.Weakens R) {correlationId : Option String}
    {Q : Fields → List Row → C.State → Prop}
    (hQ : ∀ result us t,
      CapturedEffect C.db R env merchant entity amountMinor currency C.allows inbox us t →
      Q result (.webhookEvent inbox :: us) t)
    (hX : ∀ e us t,
      Excused C.db R env merchant entity amountMinor currency C.allows inbox e us t → X e us t) :
    C.wp (handlePaymentCaptured env merchant correlationId entity amountMinor currency) Q X
      [.webhookEvent inbox] s := by
  rw [handlePaymentCaptured, getPaymentByProvider, Setting.wp_bind]
  refine wp_selectPayment fun t₁ h₁ => ?_
  rw [Setting.wp_bind]
  refine wp_writeCapturedPayment hR (C.rely_refl _ _) rfl (fun payment prs t₂ h₂ pay => ?_) hX
  obtain ⟨noCases, -⟩ := pay.tables
  split
  next unnoted =>
    exact wp_recoverOwnCase hR pay (fun c h => by cases h)
      (fun id hid => by simp [unnoted] at hid) hQ hX
  next id noted =>
    rw [Setting.wp_bind]
    refine wp_selectCase fun t₃ h₃ => ?_
    have lookup : (C.sees (.webhookEvent inbox :: prs) t₃).cases.find (·.id = id) =
        (C.db t₃).cases.get id := by
      simp only [Setting.sees, view_cases, List.filterMap_cons, Row.case?, noCases,
        Table.putAll_nil]
      rfl
    rw [lookup]
    have pay := pay.later hR (List.subset_cons_self _ _) h₃
    split
    next case loaded =>
      obtain ⟨found, merchantId⟩ := Option.filter_eq_some_iff.1 loaded
      obtain rfl : case.id = id := (Table.get_eq_some.1 found).2
      exact wp_markCaseRecovered hR pay
        (.noted noted (by simpa using merchantId) ⟨t₃, hR.refl, found⟩) hQ hX
    next other =>
      refine wp_recoverOwnCase hR pay (fun c hc => ?_) (fun id' hid => ?_) hQ hX
      · obtain rfl : c.id = id := (Table.get_eq_some.1 hc).2
        exact ⟨t₃, hR.refl, hc⟩
      · obtain rfl := Option.some.inj (noted.symm.trans hid)
        refine ⟨t₃, hR.refl, fun c hc merchantId => ?_⟩
        rw [hc] at other
        simp [merchantId] at other

/-! ## Effects last until the commit -/

theorem FailedEffect.later (hR : C.Weakens R)
    (h : FailedEffect C.db R env merchant entity amountMinor currency us s) (sub : us ⊆ ws)
    (ht : C.rely ws s t) : FailedEffect C.db R env merchant entity amountMinor currency us t := by
  cases h with
  | captured read status => exact .captured (hR.later read ht) status
  | known pay found status uncaptured =>
    exact .known (pay.later hR sub ht) (hR.later found ht) status (hR.later uncaptured ht)
  | created pay absent audited event uncaptured =>
    refine .created (pay.later hR ?_ ht) (absent.later ?_ ht) (audited.later ?_ ht)
      (event.later hR ?_ ht) (hR.later uncaptured ht)
    all_goals first | exact sub (by simp) | exact fun r hr => sub (by simp [hr])
  | @activated payment case r prs audit ors correlationId _ pay found status base audited
    event uncaptured =>
    have id : r.id = case.id := (Table.get_eq_some.1 base).2
    have base : (C.db t).cases.get case.id = some r :=
      id ▸ C.case_stays (r := Db.patchCase case (case.become .eligible) r) ht
        (sub (by simp)) (id ▸ base)
    refine .activated (pay.later hR ?_ ht) (hR.later found ht) status base (audited.later ?_ ht)
      (event.later hR ?_ ht) (hR.later uncaptured ht)
    all_goals first | exact sub (by simp) | exact fun r hr => sub (by simp [hr])

omit [PyText] in
theorem Recovers.later (hR : C.Weakens R) {prs : List Row} {case r : RecoveryCase}
    {cancels : List RecoveryAction} (h : Recovers C.db R C.allows inbox prs case r cancels s)
    (sub : prs ++ cancels.map (fun a => .action (Db.cancelled a)) ++
      [.recoveryCase (Db.patchCase case (case.become .recovered) r)] ⊆ ws) (ht : C.rely ws s t) :
    Recovers C.db R C.allows inbox prs case r cancels t := by
  have id : r.id = case.id := (Table.get_eq_some.1 h.base).2
  obtain ⟨t₀, t₁, h₀, hcs, granted, base, h₁⟩ := h.read
  exact {
    nonterminal := h.nonterminal
    read := ⟨t₀, t₁, h₀, hcs, granted, base, hR.trans h₁ (hR.anti sub (hR.of_rely ht))⟩
    base := id ▸ C.case_stays (r := Db.patchCase case (case.become .recovered) r) ht (sub (by simp))
      (id ▸ h.base)
    actions := fun a ha => C.action_stays (r := Db.cancelled a) ht
      (sub (List.mem_append_left _ (List.mem_append_right _ (List.mem_map.2 ⟨a, ha, rfl⟩))))
      (h.actions a ha) }

theorem CapturedEffect.later (hR : C.Weakens R)
    (h : CapturedEffect C.db R env merchant entity amountMinor currency C.allows inbox us s)
    (sub : us ⊆ ws) (ht : C.rely ws s t) :
    CapturedEffect C.db R env merchant entity amountMinor currency C.allows inbox us t := by
  cases h with
  | noCase pay none unnoted =>
    exact .noCase (pay.later hR sub ht) (hR.later none ht) fun id hid =>
      hR.later (unnoted id hid) ht
  | terminal pay chosen terminal =>
    exact .terminal (pay.later hR sub ht) (chosen.later hR ht) terminal
  | recovered pay chosen recovers audited event =>
    refine .recovered (pay.later hR ?_ ht) (chosen.later hR ht) (recovers.later hR ?_ ht)
      (audited.later ?_ ht) (event.later hR ?_ ht)
    all_goals first
      | exact sub (by simp)
      | exact fun r hr => sub (by simp only [List.mem_append] at hr ⊢; tauto)

end

/-! ## The endpoint -/

section

variable {env : Draws} {inbox : WebhookEvent} {merchant : Merchant}

theorem wp_orValueError {α : Type} {x : Except String α} {Q : α → List Row → C.State → Prop}
    (ok : ∀ a, x = .ok a → Q a ws s) (error : ∀ message, X (.valueError message) ws s) :
    C.wp (orValueError x) Q X ws s := by
  cases x with
  | ok a => exact ok a rfl
  | error message => exact error message

variable [PyLib]

theorem wp_processRazorpayEvent (hR : C.Weakens R) {event : RazorpayWebhook}
    {correlationId : Option String} {Q : WebhookEventStatus × Fields → List Row → C.State → Prop}
    (hQ : ∀ status result us t, ProcessEffect C.db R env C.allows inbox merchant event us t →
      Q (status, result) (.webhookEvent inbox :: us) t)
    (invalid : ∀ message, X (.valueError message) [.webhookEvent inbox] s)
    (hX : ∀ e us t entity amountMinor currency, Validated event entity amountMinor currency →
      Excused C.db R env merchant entity amountMinor currency C.allows inbox e us t → X e us t) :
    C.wp (processRazorpayEvent env merchant event correlationId) Q X [.webhookEvent inbox] s := by
  unfold processRazorpayEvent
  split
  next unsupported => exact hQ _ _ _ _ (.ignored unsupported)
  next supported =>
    rw [Setting.wp_bind]
    refine wp_orValueError (fun entity hentity => ?_) invalid
    rw [Setting.wp_bind]
    refine wp_orValueError (fun amountMinor hamount => ?_) invalid
    rw [Setting.wp_bind]
    refine wp_orValueError (fun currency hcurrency => ?_) invalid
    have valid : Validated event entity amountMinor currency := ⟨hentity, hamount, hcurrency⟩
    dsimp only
    split
    next failed =>
      rw [Setting.wp_bind]
      exact wp_handlePaymentFailed hR
        (fun result us t effect => hQ _ _ _ _ (.failed failed valid effect))
        fun e us t => hX e us t _ _ _ valid
    next other =>
      have captured : event.event = "payment.captured" := by
        simpa [supportedEvents, other] using supported
      rw [Setting.wp_bind]
      exact wp_handlePaymentCaptured hR
        (fun result us t effect => hQ _ _ _ _ (.captured captured valid effect))
        fun e us t => hX e us t _ _ _ valid

theorem ProcessEffect.tables {T : Type} {db : T → Db} {R : List Row → T → T → Prop} {t : T}
    {allows : Db → Stmt → Prop} {event : RazorpayWebhook}
    (h : ProcessEffect db R env allows inbox merchant event us t) : webhookEventsOf us = [] := by
  cases h with
  | ignored => rfl
  | failed _ _ effect =>
    cases effect with
    | captured => rfl
    | known pay => exact pay.tables.2.2.2.1
    | created pay _ _ event | activated pay _ _ _ _ event =>
      simp [List.filterMap_cons, Row.webhookEvent?, pay.tables, event.tables]
  | captured _ _ effect =>
    cases effect with
    | noCase pay | terminal pay => exact pay.tables.2.2.2.1
    | recovered pay _ _ _ event =>
      have none := filterMap_map_action (g := Row.webhookEvent?) (fun _ => rfl) Db.cancelled
      simp [List.filterMap_cons, Row.webhookEvent?, pay.tables, event.tables, none]

theorem ProcessEffect.later (hR : C.Weakens R) {event : RazorpayWebhook}
    (h : ProcessEffect C.db R env C.allows inbox merchant event us s) (sub : us ⊆ ws)
    (ht : C.rely ws s t) : ProcessEffect C.db R env C.allows inbox merchant event us t := by
  cases h with
  | ignored unsupported => exact .ignored unsupported
  | failed type valid effect => exact .failed type valid (effect.later hR sub ht)
  | captured type valid effect => exact .captured type valid (effect.later hR sub ht)

theorem wp_recordAndProcess (hR : C.Weakens R) {settings : Settings} {request : Request}
    {webhook : RazorpayWebhook} {Q : Response → List Row → C.State → Prop}
    (admitted : admitRequest settings request = .ok webhook)
    (hQ : ∀ response us t, WebhookEffect C.db R env C.allows settings request response us t →
      Q response us t)
    (hX : ∀ e us t, WebhookRaises C.db R env C.allows settings request e us t → X e us t) :
    C.wp (recordAndProcess env request webhook) Q X [] s := by
  rw [recordAndProcess, Setting.wp_bind]
  refine wp_selectMerchant fun t₁ h₁ => ?_
  have lookup : (C.sees [] t₁).merchants.find (·.id = request.merchantId) =
    (C.db t₁).merchants.get request.merchantId := rfl
  rw [lookup]
  split
  next none =>
    refine hX _ _ _ (.merchantNotFound ⟨t₁, hR.refl, fun merchant found => ?_⟩)
    simpa [found] using none
  next merchant filtered =>
    obtain ⟨found, active⟩ := Option.filter_eq_some_iff.1 filtered
    have read : ∀ t us, C.rely us t₁ t →
        ∃ t₀, R [] t₀ t ∧ (C.db t₀).merchants.get request.merchantId = some merchant :=
      fun t us ht => hR.later ⟨t₁, hR.refl, found⟩ ht
    rw [Setting.wp_bind]
    refine wp_attempt_insert (fun t₂ h₂ _ ok => ?_) fun e t₂ h₂ granted error => ?_
    · have inboxRow : ∀ us t, webhookEventsOf us = [] →
          (C.sees (.webhookEvent (receivedEvent env merchant request webhook) :: us)
            t).webhookEvents.get
            (receivedEvent env merchant request webhook).id =
          some (receivedEvent env merchant request webhook) := fun us t none =>
        view_webhookEvent_of_getLast? (by simp [Row.webhookEvent?, none])
      rw [Setting.wp_bind]
      refine Setting.wp_since
        (wp_processRazorpayEvent hR (fun status result us t effect sub ht => ?_)
        (fun message sub ht => ?_) fun e us t entity amount currency valid excused sub ht => ?_)
      · have absent : ∀ t₃,
            C.rely (.webhookEvent (receivedEvent env merchant request webhook) :: us)
            t t₃ → (C.db t₃).Absent (.webhookEvent (receivedEvent env merchant request webhook)) :=
          fun t₃ h₃ =>
          (Db.Absent.later (.of_view ok.lacks rfl) (List.mem_singleton.2 rfl) ht).later
            (List.mem_cons_self ..) h₃
        have found := hR.later (read t₂ [] h₂) ht
        rw [Setting.wp_bind]
        refine wp_flushWebhookEvent (fun t₃ r h₃ hr => ?_) fun e t₃ h₃ fails => ?_
        · obtain rfl := Option.some.inj ((inboxRow us t₃ effect.tables).symm.trans hr)
          have recorded : WebhookEffect C.db R env C.allows settings request ⟨200, result⟩
              (.webhookEvent (receivedEvent env merchant request webhook) :: us ++
                [.webhookEvent { receivedEvent env merchant request webhook with
                  status := status, processedAt := some env.handled }]) t₃ :=
            .recorded admitted (hR.later found h₃) (by simpa using active) (absent t₃ h₃)
              (effect.later hR (List.subset_cons_self _ _) h₃)
          simpa [Db.patchWebhookEvent] using hQ _ _ _ recorded
        · refine hX _ _ _ (.processing admitted (hR.later found h₃) (List.mem_cons_self ..)
            (absent t₃ h₃) Err.noConfusion fun he => ?_)
          cases he
          rcases fails with ⟨-, stale⟩ | ⟨r, -, error⟩
          · cases stale
          · exact absurd (checks_of_updateError error) (by simp [Row.checks])
      · exact hX _ _ _ (.processing admitted (read _ _ h₂) (List.mem_singleton.2 rfl)
          (.of_view ok.lacks rfl) Err.noConfusion (by simp))
      · have absent := Db.Absent.later (.of_view ok.lacks rfl) (List.mem_singleton.2 rfl) ht
        exact hX _ _ _
          (.processing admitted (hR.later (read _ _ h₂) ht) excused.held absent excused.other
          fun he => ⟨entity, amount, currency, valid, excused.integrity he⟩)
    · have raises := hX _ _ _ (.inbox admitted (read t₂ [] h₂) granted error)
      cases e <;> exact raises

theorem wp_razorpayWebhook (hR : C.Weakens R) {settings : Settings} {request : Request}
    {Q : Response → List Row → C.State → Prop}
    (hQ : ∀ response us t, WebhookEffect C.db R env C.allows settings request response us t →
      Q response us t)
    (hX : ∀ e us t, WebhookRaises C.db R env C.allows settings request e us t → X e us t) :
    C.wp (razorpayWebhook settings env request) Q X [] s := by
  unfold razorpayWebhook
  split
  next response reason => exact hQ _ _ _ (.rejected reason)
  next webhook admitted => exact wp_recordAndProcess hR admitted hQ hX

theorem WebhookEffect.later (hR : C.Weakens R) {settings : Settings} {request : Request}
    {response : Response} (h : WebhookEffect C.db R env C.allows settings request response us s)
    (ht : C.rely us s t) : WebhookEffect C.db R env C.allows settings request response us t := by
  cases h with
  | rejected reason => exact .rejected reason
  | recorded admitted found active absent effect =>
    exact .recorded admitted (hR.later found ht) active (absent.later (by simp) ht)
      (effect.later hR (by simp) ht)

end

end RecoverAI
