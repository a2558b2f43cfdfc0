import RecoverAI.Models.Enums
import RecoverAI.Store.Table
import RecoverAI.Store.Wp
import RecoverAI.Text.Json

/-!
# Tables

The rows of the schema with the columns the service reads or writes, the columns' types and
`CHECK` constraints, the unique keys, and the database as one table for each row type.
-/
namespace RecoverAI

open Store

/-- An instant, in hours. -/
abbrev Time := Rat

structure Merchant where
  id : Uuid
  isActive : Bool

structure MerchantPolicy where
  id : Uuid
  merchantId : Uuid
  maxActionsPerCase : Int
  maxRemindersPerCase : Int
  oneActivePaymentLink : Bool
  highValueEscalationEnabled : Bool
  highValueThresholdMinor : Int

structure Payment where
  id : Uuid
  merchantId : Uuid
  provider : String
  providerPaymentId : String
  status : PaymentStatus
  amountMinor : Int
  currency : String
  failureCode : Option String
  failureReason : Option String
  failedAt : Option Time
  capturedAt : Option Time
deriving DecidableEq

structure RecoveryCase where
  id : Uuid
  merchantId : Uuid
  paymentId : Uuid
  status : RecoveryCaseStatus
  amountMinor : Int
  currency : String
  failureCategory : Option String
  nextActionAt : Option Time
  version : Int
  createdAt : Time
deriving DecidableEq

structure RecoveryAction where
  id : Uuid
  merchantId : Uuid
  recoveryCaseId : Uuid
  actionType : RecoveryActionType
  status : RecoveryActionStatus
  idempotencyKey : String
  attemptNumber : Int
  providerReference : Option String
  scheduledAt : Option Time
  executedAt : Option Time
  failureReason : Option String
deriving DecidableEq

structure OutboxEvent where
  id : Uuid
  merchantId : Uuid
  aggregateType : String
  aggregateId : String
  eventType : String
  payload : Fields
  idempotencyKey : String
  status : OutboxEventStatus
  attempts : Int
  lastError : Option String
  createdAt : Time
  publishedAt : Option Time
  deliverAt : Option Time

structure WebhookEvent where
  id : Uuid
  merchantId : Uuid
  provider : String
  providerEventId : String
  eventType : String
  payload : Fields
  status : WebhookEventStatus
  processedAt : Option Time

structure AuditEvent where
  id : Uuid
  merchantId : Uuid
  entityType : String
  entityId : String
  eventType : String
  actor : String
  correlationId : Option String
  payload : Fields
  createdAt : Time

instance : Keyed Merchant Uuid := ⟨Merchant.id⟩
instance : Keyed MerchantPolicy Uuid := ⟨MerchantPolicy.id⟩
instance : Keyed Payment Uuid := ⟨Payment.id⟩
instance : Keyed RecoveryCase Uuid := ⟨RecoveryCase.id⟩
instance : Keyed RecoveryAction Uuid := ⟨RecoveryAction.id⟩
instance : Keyed OutboxEvent Uuid := ⟨OutboxEvent.id⟩
instance : Keyed WebhookEvent Uuid := ⟨WebhookEvent.id⟩
instance : Keyed AuditEvent Uuid := ⟨AuditEvent.id⟩

structure Db where
  merchants : Table Merchant
  policies : Table MerchantPolicy
  payments : Table Payment
  cases : Table RecoveryCase
  actions : Table RecoveryAction
  outbox : Table OutboxEvent
  webhookEvents : Table WebhookEvent
  audits : Table AuditEvent

/-- A row of one of the tables the service writes. -/
inductive Row where
  | policy (r : MerchantPolicy)
  | payment (r : Payment)
  | recoveryCase (r : RecoveryCase)
  | action (r : RecoveryAction)
  | outbox (r : OutboxEvent)
  | webhookEvent (r : WebhookEvent)
  | audit (r : AuditEvent)

namespace Row

def id : Row → Uuid
  | policy r => r.id
  | payment r => r.id
  | recoveryCase r => r.id
  | action r => r.id
  | outbox r => r.id
  | webhookEvent r => r.id
  | audit r => r.id

def merchantId : Row → Uuid
  | policy r => r.merchantId
  | payment r => r.merchantId
  | recoveryCase r => r.merchantId
  | action r => r.merchantId
  | outbox r => r.merchantId
  | webhookEvent r => r.merchantId
  | audit r => r.merchantId

end Row

/-! ## Column types and checks -/

/-- The texts of a `VARCHAR(n)` column. -/
def varchar (n : Nat) (s : String) : Bool := s.length ≤ n && !hasNul s

/-- A text on its way into a `VARCHAR(n)` column: what is past its end is cut if it is blank. -/
def assigned (n : Nat) (s : String) : String :=
  if (s.toList.drop n).all (· = ' ') then String.ofList (s.toList.take n) else s

/-- Whether a `VARCHAR(n)` column takes the text. -/
def assignable (n : Nat) (s : String) : Bool := varchar n (assigned n s)

theorem assigned_of_length_le {n : Nat} {s : String} (h : s.length ≤ n) : assigned n s = s := by
  have all : s.toList.length ≤ n := String.length_toList ▸ h
  rw [assigned, List.take_of_length_le all, String.ofList_toList, ite_self]

theorem assigned_of_varchar {n : Nat} {s : String} (h : varchar n s) : assigned n s = s :=
  assigned_of_length_le (by simp_all [varchar])

@[simp] theorem assigned_assigned (n : Nat) (s : String) :
    assigned n (assigned n s) = assigned n s := by
  by_cases blank : (s.toList.drop n).all (· = ' ')
  · refine assigned_of_length_le ?_
    rw [assigned, if_pos blank, String.length_ofList]
    exact List.length_take_le n _
  · rw [assigned.eq_def n s, if_neg blank, assigned, if_neg blank]

/-- Only blanks are cut. -/
@[simp] theorem hasNul_assigned (n : Nat) (s : String) : hasNul (assigned n s) = hasNul s := by
  unfold assigned
  split
  next blank =>
    have cut : '\x00' ∉ s.toList.drop n := fun mem => by
      have := List.all_eq_true.1 blank _ mem
      simp at this
    have parts : '\x00' ∈ s.toList ↔ '\x00' ∈ s.toList.take n ∨ '\x00' ∈ s.toList.drop n := by
      rw [← List.mem_append, List.take_append_drop]
    simp [hasNul, parts, cut]
  next => rfl

/-- A payment on its way into its table. -/
def Payment.assigned (p : Payment) : Payment :=
  { p with
    providerPaymentId := RecoverAI.assigned 128 p.providerPaymentId
    failureCode := p.failureCode.map (RecoverAI.assigned 128)
    failureReason := p.failureReason.map (RecoverAI.assigned 512) }

def integer (n : Int) : Bool := -2 ^ 31 ≤ n && n < 2 ^ 31

def bigint (n : Int) : Bool := -2 ^ 63 ≤ n && n < 2 ^ 63

/-- `currency ~ '^[A-Z]{3}$'`. -/
def currencyCheck (s : String) : Bool :=
  s.toList.length = 3 && s.toList.all fun c => 'A' ≤ c && c ≤ 'Z'

namespace Row

/-- Whether every column's type stores its value. -/
def fits : Row → Bool
  | policy r => integer r.maxActionsPerCase && integer r.maxRemindersPerCase &&
      bigint r.highValueThresholdMinor
  | payment r => varchar 32 r.provider && varchar 128 r.providerPaymentId && bigint r.amountMinor &&
      varchar 3 r.currency && r.failureCode.all (varchar 128) && r.failureReason.all (varchar 512)
  | recoveryCase r => bigint r.amountMinor && varchar 3 r.currency &&
      r.failureCategory.all (varchar 128) && integer r.version
  | action r => varchar 128 r.idempotencyKey && integer r.attemptNumber &&
      r.providerReference.all (varchar 128) && r.failureReason.all (varchar 512)
  | outbox r => varchar 64 r.aggregateType && varchar 64 r.aggregateId && varchar 128 r.eventType &&
      (Json.obj r.payload).storable && varchar 128 r.idempotencyKey && integer r.attempts &&
      r.lastError.all (varchar 512)
  | webhookEvent r => varchar 32 r.provider && varchar 128 r.providerEventId &&
      varchar 128 r.eventType && (Json.obj r.payload).storable
  | audit r => varchar 64 r.entityType && varchar 64 r.entityId && varchar 128 r.eventType &&
      varchar 64 r.actor && r.correlationId.all (varchar 64) && (Json.obj r.payload).storable

/-- The `CHECK` constraints. -/
def checks : Row → Bool
  | policy r => 0 ≤ r.maxActionsPerCase && 0 ≤ r.maxRemindersPerCase &&
      0 ≤ r.highValueThresholdMinor
  | payment r => 0 ≤ r.amountMinor && currencyCheck r.currency
  | recoveryCase r => 0 ≤ r.amountMinor && currencyCheck r.currency && 0 < r.version
  | action r => 0 < r.attemptNumber
  | outbox r => 0 ≤ r.attempts
  | webhookEvent _ | audit _ => true

end Row

/-! ## Keys and references -/

/-- Primary keys and unique keys. Writing a row locks its keys until the transaction ends: nobody
else writes the row or inserts a row with one of them before. -/
inductive Key where
  | policy (id : Uuid) | policyOf (merchantId : Uuid)
  | payment (id : Uuid) | paymentOf (merchantId : Uuid) (provider providerPaymentId : String)
  | recoveryCase (id : Uuid) | caseOf (paymentId : Uuid)
  | action (id : Uuid) | actionKey (key : String)
  | attempt (caseId : Uuid) (actionType : RecoveryActionType) (number : Int)
  | outbox (id : Uuid) | outboxKey (key : String)
  | webhookEvent (id : Uuid) | inbox (provider providerEventId : String)
  | audit (id : Uuid)
deriving DecidableEq

def Row.keys : Row → List Key
  | policy r => [.policy r.id, .policyOf r.merchantId]
  | payment r => [.payment r.id, .paymentOf r.merchantId r.provider r.providerPaymentId]
  | recoveryCase r => [.recoveryCase r.id, .caseOf r.paymentId]
  | action r => [.action r.id, .actionKey r.idempotencyKey,
      .attempt r.recoveryCaseId r.actionType r.attemptNumber]
  | outbox r => [.outbox r.id, .outboxKey r.idempotencyKey]
  | webhookEvent r => [.webhookEvent r.id, .inbox r.provider r.providerEventId]
  | audit r => [.audit r.id]

instance : Lockable Row Key := ⟨Row.keys⟩

namespace Db

/-- A database before the first request: merchants and policies only. -/
def initial (merchants : Table Merchant) (policies : Table MerchantPolicy) : Db :=
  { merchants, policies, payments := .empty, cases := .empty, actions := .empty, outbox := .empty,
    webhookEvents := .empty, audits := .empty }

/-- Insert a row or replace the row with its primary key. -/
def put (d : Db) : Row → Db
  | .policy r => { d with policies := d.policies.put r }
  | .payment r => { d with payments := d.payments.put r }
  | .recoveryCase r => { d with cases := d.cases.put r }
  | .action r => { d with actions := d.actions.put r }
  | .outbox r => { d with outbox := d.outbox.put r }
  | .webhookEvent r => { d with webhookEvents := d.webhookEvents.put r }
  | .audit r => { d with audits := d.audits.put r }

/-- The rows of the table `r` belongs to. -/
def rowsLike (d : Db) : Row → List Row
  | .policy _ => d.policies.rows.map .policy
  | .payment _ => d.payments.rows.map .payment
  | .recoveryCase _ => d.cases.rows.map .recoveryCase
  | .action _ => d.actions.rows.map .action
  | .outbox _ => d.outbox.rows.map .outbox
  | .webhookEvent _ => d.webhookEvents.rows.map .webhookEvent
  | .audit _ => d.audits.rows.map .audit

/-- Whether a row with one of `r`'s keys is there already. -/
def hasKeyOf (d : Db) (r : Row) : Bool := (d.rowsLike r).any fun s => r.keys.any (· ∈ s.keys)

/-- Whether the rows that `r`'s foreign keys name are there. -/
def references (d : Db) (r : Row) : Bool :=
  (d.merchants.get r.merchantId).isSome && match r with
    | .recoveryCase c => (d.payments.get c.paymentId).isSome
    | .action a => (d.cases.get a.recoveryCaseId).isSome
    | _ => true

end Db

instance : Overlay Db Row := ⟨Db.put⟩

end RecoverAI
