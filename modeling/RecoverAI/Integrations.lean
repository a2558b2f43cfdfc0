import RecoverAI.Config

/-!
# Payment links

The call of the payment provider and everything it can come back with.
-/
namespace RecoverAI

structure PaymentLinkRequest where
  amountMinor : Int
  currency : String
  description : String
  referenceId : String
  notes : Fields

/-- How the HTTP request ends; `body` is `none` where `response.json()` fails. -/
inductive ProviderReply where
  | response (statusCode : Nat) (text : String) (body : Option Json)
  | timeout
  | httpError (message : String)

/-- What an external call draws: how the provider replies, and the ids of the mock. -/
structure ExternalReply where
  provider : PaymentLinkRequest → ProviderReply
  linkId : Uuid
  urlId : Uuid

/-- An exception of the external call, and whether it is a `RazorpayError`. -/
structure ExternalError where
  razorpay : Bool
  message : String

/-- `u.hex[:n]`. -/
def Uuid.hexPrefix (u : Uuid) (n : Nat) : String :=
  String.ofList ((Uuid.hex 32 u.bits.toNat).take n)

def createPaymentLink (settings : Settings) (request : PaymentLinkRequest) (reply : ExternalReply) :
    Except ExternalError Fields :=
  if settings.razorpayUseMock then
    .ok [("id", .str ("link_mock_" ++ reply.linkId.hexPrefix 14)),
      ("short_url", .str ("https://rzp.io/l/mock_" ++ reply.urlId.hexPrefix 8)),
      ("status", .str "created"), ("mock", .bool true)]
  else if settings.razorpayKeyId = "" || settings.razorpayKeySecret = "" then
    .error ⟨true, "Razorpay credentials are not configured"⟩
  else match reply.provider request with
    | .timeout => .error ⟨true, "Razorpay request timed out"⟩
    | .httpError message => .error ⟨true, "Razorpay HTTP error: " ++ message⟩
    | .response statusCode text body =>
      if statusCode ≥ 400 then
        .error ⟨true, "Razorpay error " ++ toString statusCode ++ ": " ++ Text.slice text 300⟩
      else match body with
        | some (.obj data) =>
          .ok [("id", Json.item data "id"), ("short_url", Json.item data "short_url"),
            ("status", Json.item data "status")]
        | _ => .error ⟨false, "invalid provider response"⟩

end RecoverAI
