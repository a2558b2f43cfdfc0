import RecoverAI.Webhooks.Handlers

/-!
# The webhook endpoint

Signature and body are checked first; then one transaction records the event in the inbox and
processes it. `IntegrityError` is answered as a duplicate wherever it was raised.
-/
namespace RecoverAI

structure Request where
  merchantId : Uuid
  rawBody : List UInt8
  signatureHeader : Option String
  requestId : String

structure Response where
  statusCode : Nat
  content : Fields

namespace Response

def invalidSignature : Response :=
  ⟨401, [("status", .str "rejected"), ("reason", .str "invalid_signature")]⟩

def invalidPayload : Response :=
  ⟨400, [("status", .str "rejected"), ("reason", .str "invalid_payload")]⟩

def merchantNotFound : Response :=
  ⟨404, [("status", .str "rejected"), ("reason", .str "merchant_not_found")]⟩

def duplicate : Response := ⟨200, [("status", .str "duplicate")]⟩

def error : Response := ⟨500, [("status", .str "error")]⟩

/-- The framework's answer to an exception the endpoint does not catch. -/
def uncaught : Response := ⟨500, []⟩

end Response

section

variable [PyLib]

/-- `verify_razorpay_signature`: whether the signature is valid, or the `TypeError` that
`compare_digest` raises on text that is not ASCII. -/
def verifyRazorpaySignature (settings : Settings) (rawBody : List UInt8)
    (signatureHeader : Option String) : Except PyError Bool :=
  if settings.razorpayWebhookSecret = "" then .ok false
  else match signatureHeader with
    | none => .ok false
    | some header =>
      if header = "" then .ok false
      else
        let given := Text.strip header
        if given.toList.all (·.toNat < 128) then
          .ok (PyLib.hmacSha256 settings.razorpayWebhookSecret rawBody = given)
        else .error .other

def extractProviderEventId (webhook : RazorpayWebhook) (rawBody : List UInt8) : String :=
  Text.orDefault webhook.id ("sha256:" ++ PyLib.sha256 rawBody)

/-- The checks before the transaction. -/
def admitRequest (settings : Settings) (request : Request) : Except Response RazorpayWebhook :=
  match verifyRazorpaySignature settings request.rawBody request.signatureHeader with
  | .error _ => .error .uncaught
  | .ok false => .error .invalidSignature
  | .ok true => match parseRazorpayWebhook request.rawBody with
    | .error .valueError => .error .invalidPayload
    | .error .other => .error .uncaught
    | .ok webhook => .ok webhook

/-- The inbox row of an event, as it is stored. -/
def receivedEvent (env : Draws) (merchant : Merchant) (request : Request)
    (webhook : RazorpayWebhook) : WebhookEvent where
  id := env.webhookEventId
  merchantId := merchant.id
  provider := "razorpay"
  providerEventId := assigned 128 (extractProviderEventId webhook request.rawBody)
  eventType := assigned 128 webhook.event
  payload := webhook.dump
  status := .received
  processedAt := none

/-- The transaction of an accepted request. -/
def recordAndProcess (env : Draws) (request : Request) (webhook : RazorpayWebhook) :
    Tx Response := do
  let merchant ← query (.selectMerchant (·.id = request.merchantId))
  match merchant.filter (·.isActive) with
  | none => throw .merchantNotFound
  | some merchant =>
    let row := receivedEvent env merchant request webhook
    match ← attempt (.insert (.webhookEvent row)) with
    | .error .integrity => throw .duplicateWebhook
    | .error e => throw (.db e)
    | .ok () =>
      let (status, result) ← processRazorpayEvent env merchant webhook (some request.requestId)
      query (.flushWebhookEvent row { row with status := status, processedAt := some env.handled })
      return ⟨200, result⟩

def razorpayWebhook (settings : Settings) (env : Draws) (request : Request) : Tx Response :=
  match admitRequest settings request with
  | .error response => pure response
  | .ok webhook => recordAndProcess env request webhook

end

/-- The answer to an exception of the transaction. -/
def webhookError : Err → Response
  | .merchantNotFound => .merchantNotFound
  | .duplicateWebhook | .db .integrity => .duplicate
  | .valueError _ | .invalidStateTransition _ => .invalidPayload
  | _ => .error

end RecoverAI
