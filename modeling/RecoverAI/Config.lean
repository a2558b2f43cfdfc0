import RecoverAI.Models.Statements

/-!
# Configuration and environment

The settings the modelled code reads, the standard-library and third-party functions it calls, and
what one transaction draws from its environment.
-/
namespace RecoverAI

structure Settings where
  outboxDispatchBatchSize : Int := 10
  outboxMaxDispatchAttempts : Int := 10
  razorpayKeyId : String := ""
  razorpayKeySecret : String := ""
  razorpayWebhookSecret : String := "local_webhook_secret_change_me"
  razorpayUseMock : Bool := true
  llmEnabled : Bool := false

/-- How a library call raises: with a `ValueError` (as `json.JSONDecodeError` and pydantic's
`ValidationError` are) or with an exception of another kind. -/
inductive PyError where
  | valueError
  | other
deriving DecidableEq

/-- Functions of the standard library, and pydantic's lax conversions. -/
class PyLib extends PyText where
  /-- `json.loads` of a text. -/
  loads : String → Except PyError Json
  /-- `json.loads` of a request body. -/
  loadsBytes : List UInt8 → Except PyError Json
  /-- The value a field of type `int` takes. -/
  laxInt : Json → Option Int
  /-- The value a field of type `float` takes, where it is finite. -/
  laxFloat : Json → Option Rat
  /-- `hashlib.sha256(body).hexdigest()`. -/
  sha256 : List UInt8 → String
  /-- `hmac.new(secret, body, sha256).hexdigest()`. -/
  hmacSha256 : String → List UInt8 → String
  laxInt_int : ∀ n, laxInt (.int n) = some n
  laxFloat_float : ∀ q, laxFloat (.float q) = some q

/-- A request body with its signature under the local secret, and the value it reads as. -/
structure Recorded where
  body : List UInt8
  signature : String
  value : Json

/-- The library on ASCII texts, for runs that read no other bodies than the recorded ones. -/
@[reducible] def PyLib.recorded (bodies : List Recorded) : PyLib where
  toPyText := .ascii
  loads _ := .error .valueError
  loadsBytes body := (bodies.find? (·.body = body)).elim (.error .valueError) fun r => .ok r.value
  laxInt
    | .int n => some n
    | _ => none
  laxFloat
    | .float q => some q
    | _ => none
  sha256 _ := ""
  hmacSha256 _ body := (bodies.find? (·.body = body)).elim "" Recorded.signature
  laxInt_int _ := rfl
  laxFloat_float _ := rfl

/-- What a transaction draws: its readings of the clock, and one `uuid4` for
each row it may insert. -/
structure Draws where
  /-- The server's `now()`, fixed when the transaction starts; the default of each `created_at`. -/
  began : Time
  /-- `utcnow()` in the worker and the handlers. -/
  now : Time
  /-- `datetime.now` once a handler has returned. -/
  handled : Time
  policyId : Uuid
  paymentId : Uuid
  caseId : Uuid
  actionId : Uuid
  outboxId : Uuid
  webhookEventId : Uuid
  auditId : Uuid

/-- The clock, at `t` or later when the transaction starts, does not go back while it runs. -/
structure Draws.After (env : Draws) (t : Time) : Prop where
  started : t ≤ env.began
  began : env.began ≤ env.now
  handled : env.now ≤ env.handled

instance (env : Draws) (t : Time) : Decidable (env.After t) :=
  decidable_of_iff (t ≤ env.began ∧ env.began ≤ env.now ∧ env.now ≤ env.handled)
    ⟨fun h => ⟨h.1, h.2.1, h.2.2⟩, fun h => ⟨h.started, h.began, h.handled⟩⟩

theorem Draws.After.le {env : Draws} {t : Time} (h : env.After t) : t ≤ env.handled :=
  (h.started.trans h.began).trans h.handled

end RecoverAI
