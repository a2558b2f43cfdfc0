import RecoverAI.Domain.Money
import RecoverAI.Domain.Recovery
import RecoverAI.Webhooks.Schemas

/-!
# Webhook handlers

What a `payment.failed` and a `payment.captured` event do to the tables. The session does not
autoflush, so an object's changes are written at the next explicit flush: `_mark_case_recovered`
cancels the actions first and writes the case with the audit event.
-/
namespace RecoverAI

/-- `SUPPORTED_EVENTS`. -/
def supportedEvents : List String := ["payment.failed", "payment.captured"]

def classifyFailure [PyText] (errorCode : Option String) : String :=
  match errorCode with
  | none => "unknown"
  | some errorCode =>
    if errorCode = "" then "unknown"
    else
      let code := PyText.upper errorCode
      if Text.contains "EXPIRED" code then "expired_instrument"
      else if Text.contains "INSUFFICIENT" code then "insufficient_funds"
      else if Text.contains "NETWORK" code || Text.contains "TIMEOUT" code then "temporary_network"
      else "issuer_failure"

variable (env : Draws)

/-- An audit event of the webhook about a recovery case. -/
def caseAudit (merchant : Merchant) (case : RecoveryCase) (eventType : String)
    (correlationId : Option String) (payload : Fields) : AuditEvent where
  id := env.auditId
  merchantId := merchant.id
  entityType := "recovery_case"
  entityId := case.id.str
  eventType := eventType
  actor := "webhook"
  correlationId := correlationId.map (assigned 64)
  payload := payload
  createdAt := env.began

def insertAudit (merchant : Merchant) (case : RecoveryCase) (eventType : String)
    (correlationId : Option String) (payload : Fields) : Tx Unit :=
  query (.insert (.audit (caseAudit env merchant case eventType correlationId payload)))

/-- An event of the webhook about a recovery case; its key is the event type and the case id. -/
def caseOutbox (merchant : Merchant) (case : RecoveryCase) (eventType : String)
    (payload : Fields) : OutboxEvent where
  id := env.outboxId
  merchantId := merchant.id
  aggregateType := "recovery_case"
  aggregateId := case.id.str
  eventType := eventType
  payload := payload
  idempotencyKey := eventType ++ ":" ++ case.id.str
  status := .pending
  attempts := 0
  lastError := none
  createdAt := env.began
  publishedAt := none
  deliverAt := none

def insertOutboxIfMissing (event : OutboxEvent) : Tx Unit := do
  match ← query (.selectOutbox (·.idempotencyKey = event.idempotencyKey)) with
  | some _ => return ()
  | none => query (.insert (.outbox event))

def getPaymentByProvider (merchantId : Uuid) (providerPaymentId : String) : Tx (Option Payment) :=
  query (.selectPayment fun p => p.merchantId = merchantId && p.provider = "razorpay" &&
    p.providerPaymentId = providerPaymentId)

def getRecoveryCaseByPayment (paymentId : Uuid) : Tx (Option RecoveryCase) :=
  query (.selectCase (·.paymentId = paymentId))

/-- `transition_recovery_case` and the flush that follows it. -/
def activateCase (case : RecoveryCase) : Tx Unit :=
  match transitionRecoveryCase case .eligible with
  | .error message => throw (.invalidStateTransition message)
  | .ok new => query (.flushCase case new)

/-- The `recovery_case.eligible` event of a case. -/
def eligibleOutbox (merchant : Merchant) (payment : Payment) (case : RecoveryCase) : OutboxEvent :=
  caseOutbox env merchant case "recovery_case.eligible"
    [("merchant_id", .str merchant.id.str), ("payment_id", .str payment.id.str),
      ("recovery_case_id", .str case.id.str), ("amount_minor", .int case.amountMinor),
      ("currency", .str case.currency)]

/-- The `recovery_case.recovered` event of a case. -/
def recoveredOutbox (merchant : Merchant) (payment : Payment) (case : RecoveryCase) : OutboxEvent :=
  caseOutbox env merchant case "recovery_case.recovered"
    [("merchant_id", .str merchant.id.str), ("payment_id", .str payment.id.str),
      ("recovery_case_id", .str case.id.str)]

section Failed

variable [PyText] (merchant : Merchant) (entity : RazorpayPaymentEntity) (amountMinor : Int)
  (currency : String) (correlationId : Option String)

/-- The payment of a failed event for an unknown payment. The handler goes on with this object,
whose texts are as they were received. -/
def newFailedPayment : Payment where
  id := env.paymentId
  merchantId := merchant.id
  provider := "razorpay"
  providerPaymentId := entity.id
  status := .failed
  amountMinor := amountMinor
  currency := currency
  failureCode := entity.errorCode
  failureReason := entity.errorDescription
  failedAt := some env.now
  capturedAt := none

/-- A known payment after a failed event. -/
def refailedPayment (old : Payment) : Payment :=
  { old with
    status := .failed
    amountMinor := amountMinor
    currency := currency
    failureCode := entity.errorCode
    failureReason := entity.errorDescription
    failedAt := some env.now }

def writeFailedPayment : Option Payment → Tx Payment
  | none => do
    let payment := newFailedPayment env merchant entity amountMinor currency
    query (.insert (.payment payment.assigned))
    return payment
  | some old => do
    let payment := refailedPayment env entity amountMinor currency old
    query (.flushPayment old payment)
    return payment

/-- The case of a payment as it is inserted. -/
def newCase (payment : Payment) : RecoveryCase where
  id := env.caseId
  merchantId := merchant.id
  paymentId := payment.id
  status := .failed
  amountMinor := payment.amountMinor
  currency := payment.currency
  failureCategory := some (classifyFailure entity.errorCode)
  nextActionAt := none
  version := 1
  createdAt := env.began

def createCase (payment : Payment) : Tx Fields := do
  let case := newCase env merchant entity payment
  query (.insert (.recoveryCase case))
  activateCase case
  insertAudit env merchant case "recovery_case.eligible" correlationId
    [("payment_id", .str payment.id.str), ("provider_payment_id", .str payment.providerPaymentId),
      ("from_status", .str RecoveryCaseStatus.failed.value),
      ("to_status", .str RecoveryCaseStatus.eligible.value),
      ("amount_minor", .int case.amountMinor), ("currency", .str case.currency)]
  insertOutboxIfMissing (eligibleOutbox env merchant payment case)
  return [("outcome", .str "recovery_case_created"), ("recovery_case_id", .str case.id.str)]

def handlePaymentFailed : Tx Fields := do
  let payment ← getPaymentByProvider merchant.id entity.id
  match payment.filter (·.status = .captured) with
  | some payment =>
    return [("outcome", .str "ignored_already_captured"), ("payment_id", .str payment.id.str)]
  | none =>
    let payment ← writeFailedPayment env merchant entity amountMinor currency payment
    match ← getRecoveryCaseByPayment payment.id with
    | none => createCase env merchant entity correlationId payment
    | some case =>
      if case.status = .failed then
        activateCase case
        insertAudit env merchant case "recovery_case.eligible" correlationId
          [("payment_id", .str payment.id.str),
            ("from_status", .str RecoveryCaseStatus.failed.value),
            ("to_status", .str RecoveryCaseStatus.eligible.value)]
        insertOutboxIfMissing (eligibleOutbox env merchant payment case)
        return [("outcome", .str "recovery_case_activated"), ("recovery_case_id", .str case.id.str)]
      else
        return [("outcome", .str "recovery_case_already_exists"),
          ("recovery_case_id", .str case.id.str)]

end Failed

section Captured

variable (merchant : Merchant) (correlationId : Option String)

def markCaseRecovered (payment : Payment) (case : RecoveryCase) : Tx Fields := do
  if case.status.isTerminal then
    return [("outcome", .str "case_already_terminal"), ("recovery_case_id", .str case.id.str)]
  else match transitionRecoveryCase case .recovered with
    | .error _ =>
      return [("outcome", .str "transition_not_allowed"), ("recovery_case_id", .str case.id.str)]
    | .ok recovered =>
      query (.cancelActions case.id)
      query (.flushCase case recovered)
      insertAudit env merchant case "recovery_case.recovered" correlationId
        [("payment_id", .str payment.id.str),
          ("provider_payment_id", .str payment.providerPaymentId),
          ("to_status", .str RecoveryCaseStatus.recovered.value)]
      insertOutboxIfMissing (recoveredOutbox env merchant payment case)
      return [("outcome", .str "recovery_case_recovered"), ("recovery_case_id", .str case.id.str)]

variable (entity : RazorpayPaymentEntity) (amountMinor : Int) (currency : String)

/-- The payment of a captured event for an unknown payment. -/
def newCapturedPayment : Payment where
  id := env.paymentId
  merchantId := merchant.id
  provider := "razorpay"
  providerPaymentId := entity.id
  status := .captured
  amountMinor := amountMinor
  currency := currency
  failureCode := none
  failureReason := none
  failedAt := none
  capturedAt := some env.now

/-- A known payment after a captured event. -/
def capturedPayment (old : Payment) : Payment :=
  { old with status := .captured, capturedAt := some env.now }

def writeCapturedPayment : Option Payment → Tx Payment
  | none => do
    let payment := newCapturedPayment env merchant entity amountMinor currency
    query (.insert (.payment payment.assigned))
    return payment
  | some old => do
    if old.status ≠ .captured then
      let payment := capturedPayment env old
      query (.flushPayment old payment)
      return payment
    else return old

/-- The case id a payment link's notes carry. -/
def notedCaseId [PyText] : Option Uuid :=
  let raw := Json.item (entity.notes.getD []) "recoverai_recovery_case_id"
  if raw.truthy then raw.uuid else none

/-- The session hands out the object it has already loaded for a row. -/
def identify (loaded : Option RecoveryCase) (found : RecoveryCase) : RecoveryCase :=
  (loaded.filter (·.id = found.id)).getD found

/-- The case of the payment itself. -/
def recoverOwnCase (payment : Payment) (loaded : Option RecoveryCase) : Tx Fields := do
  match ← getRecoveryCaseByPayment payment.id with
  | none =>
    return [("outcome", .str "payment_captured_no_recovery_case"),
      ("payment_id", .str payment.id.str)]
  | some found => markCaseRecovered env merchant correlationId payment (identify loaded found)

def handlePaymentCaptured [PyText] : Tx Fields := do
  let payment ← getPaymentByProvider merchant.id entity.id
  let payment ← writeCapturedPayment env merchant entity amountMinor currency payment
  match notedCaseId entity with
  | none => recoverOwnCase env merchant correlationId payment none
  | some id =>
    let loaded ← query (.selectCase (·.id = id))
    match loaded.filter (·.merchantId = merchant.id) with
    | some case => markCaseRecovered env merchant correlationId payment case
    | none => recoverOwnCase env merchant correlationId payment loaded

end Captured

/-- `process_razorpay_event`: the status it leaves on the inbox row, and the result. -/
def processRazorpayEvent [PyLib] (merchant : Merchant) (event : RazorpayWebhook)
    (correlationId : Option String) : Tx (WebhookEventStatus × Fields) := do
  if event.event ∉ supportedEvents then
    return (.ignored, [("status", .str "ignored"), ("reason", .str "unsupported_event")])
  else
    let entity ← orValueError (extractPaymentEntity event)
    let amountMinor ← orValueError (validateAmountMinor entity.amount)
    let currency ← orValueError (normalizeCurrency entity.currency)
    let result ←
      if event.event = "payment.failed" then
        handlePaymentFailed env merchant entity amountMinor currency correlationId
      else handlePaymentCaptured env merchant correlationId entity amountMinor currency
    return (.processed, ("status", .str "accepted") :: result)

end RecoverAI
