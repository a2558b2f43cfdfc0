import RecoverAI.Config

/-!
# Webhook bodies

What pydantic accepts as a Razorpay webhook and as its payment entity.
-/
namespace RecoverAI

structure RazorpayPaymentEntity where
  id : String
  amount : Int
  currency : String
  status : Option String
  errorCode : Option String
  errorDescription : Option String
  notes : Option Fields

structure RazorpayWebhook where
  id : Option String
  event : String
  payload : Fields

/-- A field of type `Optional[str]` with default `None`; `none` is a validation error. -/
def optionalStr : Json → Option (Option String)
  | .null => some none
  | .str s => some (some s)
  | _ => none

/-- A field of type `Optional[Dict[str, Any]]` with default `None`. -/
def optionalDict : Json → Option (Option Fields)
  | .null => some none
  | .obj fields => some (some fields)
  | _ => none

def validateRazorpayWebhook : Json → Option RazorpayWebhook
  | .obj fields =>
    match optionalStr (Json.item fields "id"), Json.item fields "event",
        Json.item fields "payload" with
    | some id, .str event, .obj payload => some ⟨id, event, payload⟩
    | _, _, _ => none
  | _ => none

/-- `model_dump()`. -/
def RazorpayWebhook.dump (webhook : RazorpayWebhook) : Fields :=
  [("id", webhook.id.elim .null .str), ("event", .str webhook.event),
    ("payload", .obj webhook.payload)]

section

variable [PyLib]

def parseRazorpayWebhook (rawBody : List UInt8) : Except PyError RazorpayWebhook :=
  match PyLib.loadsBytes rawBody with
  | .error e => .error e
  | .ok data => match validateRazorpayWebhook data with
    | some webhook => .ok webhook
    | none => .error .valueError

def validateRazorpayPaymentEntity (fields : Fields) : Option RazorpayPaymentEntity :=
  match Json.item fields "id", Json.item fields "currency" with
  | .str id, .str currency => do
    let amount ← PyLib.laxInt (Json.item fields "amount")
    let status ← optionalStr (Json.item fields "status")
    let errorCode ← optionalStr (Json.item fields "error_code")
    let errorDescription ← optionalStr (Json.item fields "error_description")
    let notes ← optionalDict (Json.item fields "notes")
    if 0 ≤ amount then some ⟨id, amount, currency, status, errorCode, errorDescription, notes⟩
    else none
  | _, _ => none

/-- An error is the message of the `ValueError`. -/
def extractPaymentEntity (webhook : RazorpayWebhook) : Except String RazorpayPaymentEntity :=
  match Json.item webhook.payload "payment" with
  | .obj payment =>
    match Json.item payment "entity" with
    | .obj entity => match validateRazorpayPaymentEntity entity with
      | some e => .ok e
      | none => .error "validation error for RazorpayPaymentEntity"
    | _ => .error "payload.payment.entity is missing or invalid"
  | _ => .error "payload.payment is missing or invalid"

end

end RecoverAI
