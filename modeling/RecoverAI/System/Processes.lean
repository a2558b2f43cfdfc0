import RecoverAI.Services.ActionExecutor
import RecoverAI.Store.Schedule
import RecoverAI.Tasks.Recovery
import RecoverAI.Webhooks.Razorpay

/-!
# Processes

The control states of a webhook request and of a Celery task between their transactions, and what
each does next.
-/
namespace RecoverAI

open Store

/-- A message of `recovery.process_outbox_event`. -/
structure Job where
  outboxEventId : String
  retries : Nat
deriving DecidableEq

inductive Process where
  | webhook (request : Request)
  | answered (response : Response)
  | task (job : Job)
  | eligible (job : Job)
  | claim (job : Job) (payload : Fields)
  | external (job : Job) (claim : Claim)
  | success (job : Job) (claim : Claim) (reference : Json) (details : Fields)
  | failure (job : Job) (claim : Claim) (error : ExternalError)
  | returned (job : Job) (result : Fields)
  | raised (job : Job) (databaseError : Bool)

/-- The claim a control state carries. -/
def Process.claim? : Process → Option Claim
  | .external _ c | .success _ c _ _ | .failure _ c _ => some c
  | _ => none

/-- What one transaction draws, the language model included. -/
structure Env where
  draws : Draws
  llm : Llm

/-- Only a `DBAPIError` is retried. -/
def taskError (job : Job) : Err → Process
  | .db .stale => .raised job false
  | .db _ => .raised job true
  | _ => .raised job false

/-- `_process_outbox_event`: read the event, then go on by its type. -/
def processOutboxEvent [PyText] (job : Job) : Tx Process := do
  match Uuid.parse job.outboxEventId with
  | none => return .returned job [("status", .str "invalid_outbox_id")]
  | some id =>
    match ← query (.selectOutbox (·.id = id)) with
    | none => return .returned job [("status", .str "missing_outbox_event")]
    | some outbox =>
      if outbox.eventType = "recovery_case.eligible" then return .eligible job
      else if outbox.eventType = "recovery_case.action_scheduled" then
        return .claim job outbox.payload
      else return .returned job [("status", .str "ignored"),
        ("reason", .str "unsupported_event_type"), ("event_type", .str outbox.eventType)]

/-- The claim of `execute_scheduled_action_from_outbox`. -/
def claimFromPayload [PyText] (env : Draws) (job : Job) (payload : Fields) : Tx Process := do
  match (Json.item payload "recovery_action_id").uuid with
  | none => return .returned job [("status", .str "invalid_payload")]
  | some actionId =>
    match ← claimAction env actionId with
    | .claimed claim => return .external job claim
    | .refused result => return .returned job result

/-- The control state after the external call. -/
def afterExternal (settings : Settings) (job : Job) (claim : Claim) (reply : ExternalReply) :
    Process :=
  match executeExternal settings claim reply with
  | .ok (reference, details) => .success job claim reference details
  | .error error => .failure job claim error

/-- The control state after a failed action was finalized. -/
def afterFailure (job : Job) (error : ExternalError) : Process :=
  if error.razorpay then
    .returned job [("status", .str "failed"), ("reason", .str error.message)]
  else .raised job false

def executedResult (claim : Claim) (reference : Json) : Fields :=
  [("status", .str "executed"), ("action_type", .str claim.actionType.value),
    ("provider_reference", reference)]

def Process.act [PyLib] (settings : Settings) :
    Process → Act Stmt Stmt.Ans Err Process Env Claim ExternalReply
  | .webhook request =>
    .txn (fun env => do return .answered (← razorpayWebhook settings env.draws request))
      fun e => .answered (webhookError e)
  | .task job => .txn (fun _ => processOutboxEvent job) (taskError job)
  | .eligible job =>
    .txn (fun env => do
      return .returned job (← processEligibleEvent settings env.llm env.draws job.outboxEventId))
      (taskError job)
  | .claim job payload => .txn (fun env => claimFromPayload env.draws job payload) (taskError job)
  | .external job c => .call c (afterExternal settings job c)
  | .success job c reference details =>
    .txn (fun env => do
      finalizeSuccess env.draws c reference details
      return .returned job (executedResult c reference)) (taskError job)
  | .failure job c error =>
    .txn (fun env => do
      finalizeFailure env.draws c error
      return afterFailure job error) (taskError job)
  | .answered _ | .returned .. | .raised .. => .stop

/-- A process starts as a request or as the delivery of a message. -/
def Process.starts : Process → Bool
  | .webhook _ | .task _ => true
  | _ => false

/-- The service, with its statements interleaved in any way and faults at any of them. -/
def service [PyLib] (settings : Settings) :
    Program Stmt Stmt.Ans Db Err Process Env Claim ExternalReply where
  act := Process.act settings
  starts := Process.starts
  faults e := e = .db .operational
  allows _ _ := true

/-! ## Sample runs -/

def Recorded.request (r : Recorded) : Request := ⟨.ofNat 1, r.body, some r.signature, "request"⟩

/-- A database with one active merchant. -/
def sampleDb : Db := .initial (.put .empty ⟨.ofNat 1, true⟩) .empty

def samplePayment : Payment where
  id := .ofNat 11
  merchantId := .ofNat 1
  provider := "razorpay"
  providerPaymentId := "p1"
  status := .failed
  amountMinor := 5000
  currency := "INR"
  failureCode := some "expired_instrument"
  failureReason := none
  failedAt := some 1
  capturedAt := none

def sampleCase : RecoveryCase where
  id := .ofNat 12
  merchantId := .ofNat 1
  paymentId := .ofNat 11
  status := .eligible
  amountMinor := 5000
  currency := "INR"
  failureCategory := some "expired_instrument"
  nextActionAt := none
  version := 2
  createdAt := 1

/-- The `n`-th hour, with ids of its own. -/
def Env.numbered (n : Nat) : Env where
  draws := ⟨n, n, n, .ofNat (10 * n), .ofNat (10 * n + 1), .ofNat (10 * n + 2), .ofNat (10 * n + 3),
    .ofNat (10 * n + 4), .ofNat (10 * n + 5), .ofNat (10 * n + 6)⟩
  llm _ := .error .expected

/-- A database with one `ELIGIBLE` case and its event. -/
def eligibleDb : Db :=
  { sampleDb with
    payments := .put .empty samplePayment
    cases := .put .empty sampleCase
    outbox := .put .empty
      (eligibleOutbox (Env.numbered 1).draws ⟨.ofNat 1, true⟩ samplePayment sampleCase) }

/-- The moves of a transaction of `n` statements. -/
def transaction (pid : Nat) (env : Env) (n : Nat) :
    List (Nat × Move Err Process Env ExternalReply) :=
  (pid, .enter env) :: List.replicate n (pid, .exec) ++ [(pid, .finish)]

/-- `{"id":"e1","event":"payment.failed","payload":{"payment":{"entity":{"id":"p1",
"amount":5000,"currency":"INR","error_code":"expired_instrument"}}}}` -/
def expiredInstrument : Recorded where
  body :=
    [123, 34, 105, 100, 34, 58, 34, 101, 49, 34, 44, 34, 101, 118, 101, 110, 116, 34, 58, 34,
    112, 97, 121, 109, 101, 110, 116, 46, 102, 97, 105, 108, 101, 100, 34, 44, 34, 112, 97, 121,
    108, 111, 97, 100, 34, 58, 123, 34, 112, 97, 121, 109, 101, 110, 116, 34, 58, 123, 34, 101,
    110, 116, 105, 116, 121, 34, 58, 123, 34, 105, 100, 34, 58, 34, 112, 49, 34, 44, 34, 97,
    109, 111, 117, 110, 116, 34, 58, 53, 48, 48, 48, 44, 34, 99, 117, 114, 114, 101, 110, 99,
    121, 34, 58, 34, 73, 78, 82, 34, 44, 34, 101, 114, 114, 111, 114, 95, 99, 111, 100, 101, 34,
    58, 34, 101, 120, 112, 105, 114, 101, 100, 95, 105, 110, 115, 116, 114, 117, 109, 101, 110,
    116, 34, 125, 125, 125, 125]
  signature := "774f70d273ec921f02dbb1e5a24bd27f317e1726a7602c2bea122641c4816d88"
  value := .obj [("id", .str "e1"), ("event", .str "payment.failed"), ("payload", .obj [("payment",
    .obj [("entity", .obj [("id", .str "p1"), ("amount", .int 5000), ("currency", .str "INR"),
      ("error_code", .str "expired_instrument")])])])]

/-- `{"id":"e2","event":"payment.captured","payload":{"payment":{"entity":{"id":"p1",
"amount":5000,"currency":"INR"}}}}` -/
def captured : Recorded where
  body :=
    [123, 34, 105, 100, 34, 58, 34, 101, 50, 34, 44, 34, 101, 118, 101, 110, 116, 34, 58, 34,
    112, 97, 121, 109, 101, 110, 116, 46, 99, 97, 112, 116, 117, 114, 101, 100, 34, 44, 34, 112,
    97, 121, 108, 111, 97, 100, 34, 58, 123, 34, 112, 97, 121, 109, 101, 110, 116, 34, 58, 123,
    34, 101, 110, 116, 105, 116, 121, 34, 58, 123, 34, 105, 100, 34, 58, 34, 112, 49, 34, 44,
    34, 97, 109, 111, 117, 110, 116, 34, 58, 53, 48, 48, 48, 44, 34, 99, 117, 114, 114, 101,
    110, 99, 121, 34, 58, 34, 73, 78, 82, 34, 125, 125, 125, 125]
  signature := "5195a4e13a9b6f9c309a22cccd706d9b0e02d660dabd6fae75ea865197b626af"
  value := .obj [("id", .str "e2"), ("event", .str "payment.captured"),
    ("payload",
    .obj [("payment",
      .obj [("entity",
        .obj [("id", .str "p1"), ("amount", .int 5000), ("currency", .str "INR")])])])]

/-- `{"id":"e3","event":"payment.captured","payload":{"payment":{"entity":{"id":"p2",
"amount":5000,"currency":"INR",
"notes":{"recoverai_recovery_case_id":"00000000-0000-0000-0000-00000000000c"}}}}}` -/
def capturedWithNotes : Recorded where
  body :=
    [123, 34, 105, 100, 34, 58, 34, 101, 51, 34, 44, 34, 101, 118, 101, 110, 116, 34, 58, 34,
    112, 97, 121, 109, 101, 110, 116, 46, 99, 97, 112, 116, 117, 114, 101, 100, 34, 44, 34, 112,
    97, 121, 108, 111, 97, 100, 34, 58, 123, 34, 112, 97, 121, 109, 101, 110, 116, 34, 58, 123,
    34, 101, 110, 116, 105, 116, 121, 34, 58, 123, 34, 105, 100, 34, 58, 34, 112, 50, 34, 44,
    34, 97, 109, 111, 117, 110, 116, 34, 58, 53, 48, 48, 48, 44, 34, 99, 117, 114, 114, 101,
    110, 99, 121, 34, 58, 34, 73, 78, 82, 34, 44, 34, 110, 111, 116, 101, 115, 34, 58, 123, 34,
    114, 101, 99, 111, 118, 101, 114, 97, 105, 95, 114, 101, 99, 111, 118, 101, 114, 121, 95,
    99, 97, 115, 101, 95, 105, 100, 34, 58, 34, 48, 48, 48, 48, 48, 48, 48, 48, 45, 48, 48, 48,
    48, 45, 48, 48, 48, 48, 45, 48, 48, 48, 48, 45, 48, 48, 48, 48, 48, 48, 48, 48, 48, 48, 48,
    99, 34, 125, 125, 125, 125, 125]
  signature := "544569c732ff38a7b9b9f5d2f574fb0ac5e051272b2ed94089a96abce23c5dd6"
  value := .obj [("id", .str "e3"), ("event", .str "payment.captured"),
    ("payload",
    .obj [("payment",
      .obj [("entity",
      .obj [("id", .str "p2"), ("amount", .int 5000), ("currency", .str "INR"),
        ("notes", .obj
          [("recoverai_recovery_case_id", .str "00000000-0000-0000-0000-00000000000c")])])])])]

end RecoverAI
