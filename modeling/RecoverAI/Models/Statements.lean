import RecoverAI.Models.Tables

/-!
# Statements

The SQL the service sends. A `select` answers with the row `scalar_one_or_none` returns. An
`UPDATE ... WHERE` names the row by its primary key and answers with the row count; a `flush` is the
unit of work's `UPDATE`, which writes the changed columns to the row with the object's primary key,
whatever else that row holds by then (and is not sent where nothing changed).
-/
namespace RecoverAI

open Store

/-- What the database driver raises. -/
inductive DbError where
  | integrity | data | operational | stale
deriving DecidableEq, Repr

inductive Err where
  | db (e : DbError)
  | invalidStateTransition (message : String)
  | valueError (message : String)
  | merchantNotFound
  | duplicateWebhook
  | noResultFound
deriving DecidableEq

inductive Stmt where
  | selectMerchant (p : Merchant → Bool)
  | selectPolicy (p : MerchantPolicy → Bool)
  | selectPayment (p : Payment → Bool)
  | selectCase (p : RecoveryCase → Bool)
  | selectAction (p : RecoveryAction → Bool)
  | selectOutbox (p : OutboxEvent → Bool)
  | countActions (p : RecoveryAction → Bool)
  | insert (r : Row)
  | updateCase (id : Uuid) (expectedStatus : RecoveryCaseStatus) (expectedVersion : Int)
      (newStatus : RecoveryCaseStatus) (nextActionAt : Option Time)
  | updateAction (id : Uuid) (expectedStatus newStatus : RecoveryActionStatus)
  | cancelActions (caseId : Uuid)
  | flushPayment (old new : Payment)
  | flushCase (old new : RecoveryCase)
  | flushAction (old new : RecoveryAction)
  | flushWebhookEvent (old new : WebhookEvent)

namespace Stmt

/-- What a statement answers with when it succeeds. -/
@[reducible] def Result : Stmt → Type
  | selectMerchant _ => Option Merchant
  | selectPolicy _ => Option MerchantPolicy
  | selectPayment _ => Option Payment
  | selectCase _ => Option RecoveryCase
  | selectAction _ => Option RecoveryAction
  | selectOutbox _ => Option OutboxEvent
  | countActions _ | updateCase .. | updateAction .. => Nat
  | insert _ | cancelActions _ => Unit
  | flushPayment .. | flushCase .. | flushAction .. | flushWebhookEvent .. => Unit

abbrev Ans (s : Stmt) : Type := Except DbError s.Result

end Stmt

abbrev Tx := Txn Stmt Stmt.Ans Err

namespace Db

/-- The error of an `INSERT`. -/
def insertError (d : Db) (r : Row) : Option DbError :=
  if !r.fits then some .data
  else if !r.checks || d.hasKeyOf r || !d.references r then some .integrity
  else none

/-- The error of an `UPDATE` that leaves the keys as they are. -/
def updateError (r : Row) : Option DbError :=
  if !r.fits then some .data else if !r.checks then some .integrity else none

/-- Write `r` unless the check reports an error. -/
def write {α : Type} (error : Option DbError) (r : Row) (a : α) : Except DbError α × List Row :=
  match error with
  | some e => (.error e, [])
  | none => (.ok a, [r])

/-- An attribute's new value where the object changed it, else the value the row has. -/
def changed {α : Type} [DecidableEq α] (old new current : α) : α :=
  if old = new then current else new

/-- The same for a text of a `VARCHAR(n)` column, which cuts the new value. -/
def changedText (n : Nat) (old new current : Option String) : Option String :=
  if old = new then current else new.map (assigned n)

@[simp] theorem changed_self {α : Type} [DecidableEq α] (old new : α) :
    changed old new old = new := by
  unfold changed
  split <;> simp_all

def patchPayment (old new row : Payment) : Payment :=
  { row with
    status := changed old.status new.status row.status
    amountMinor := changed old.amountMinor new.amountMinor row.amountMinor
    currency := changed old.currency new.currency row.currency
    failureCode := changedText 128 old.failureCode new.failureCode row.failureCode
    failureReason := changedText 512 old.failureReason new.failureReason row.failureReason
    failedAt := changed old.failedAt new.failedAt row.failedAt
    capturedAt := changed old.capturedAt new.capturedAt row.capturedAt }

def patchCase (old new row : RecoveryCase) : RecoveryCase :=
  { row with
    status := changed old.status new.status row.status
    version := changed old.version new.version row.version }

def patchAction (old new row : RecoveryAction) : RecoveryAction :=
  { row with
    status := changed old.status new.status row.status
    executedAt := changed old.executedAt new.executedAt row.executedAt
    providerReference := changed old.providerReference new.providerReference row.providerReference
    failureReason := changed old.failureReason new.failureReason row.failureReason }

def patchWebhookEvent (old new row : WebhookEvent) : WebhookEvent :=
  { row with
    status := changed old.status new.status row.status
    processedAt := changed old.processedAt new.processedAt row.processedAt }

/-- The unit of work raises `StaleDataError` where its `UPDATE` finds no row. -/
def flush {α : Type} (found : Option α) (patch : α → Row) : Except DbError Unit × List Row :=
  match found with
  | none => (.error .stale, [])
  | some a => write (updateError (patch a)) (patch a) ()

/-- An `UPDATE ... WHERE` on the row with a given primary key. -/
def updateWhere {α : Type} (found : Option α) (p : α → Bool) (set : α → Row) :
    Except DbError Nat × List Row :=
  match found.filter p with
  | none => (.ok 0, [])
  | some a => write (updateError (set a)) (set a) 1

def transition (newStatus : RecoveryCaseStatus) (newVersion : Int) (nextActionAt : Option Time)
    (c : RecoveryCase) : RecoveryCase :=
  { c with
    status := newStatus
    version := newVersion
    nextActionAt := nextActionAt <|> c.nextActionAt }

/-- The statuses `_mark_case_recovered` cancels. -/
def cancellable (a : RecoveryAction) : Bool := a.status = .pending || a.status = .approved

def cancelled (a : RecoveryAction) : RecoveryAction := { a with status := .cancelled }

def exec : (s : Stmt) → Db → s.Ans × List Row
  | .selectMerchant p, d => (.ok (d.merchants.find p), [])
  | .selectPolicy p, d => (.ok (d.policies.find p), [])
  | .selectPayment p, d => (.ok (d.payments.find p), [])
  | .selectCase p, d => (.ok (d.cases.find p), [])
  | .selectAction p, d => (.ok (d.actions.find p), [])
  | .selectOutbox p, d => (.ok (d.outbox.find p), [])
  | .countActions p, d => (.ok (d.actions.count p), [])
  | .insert r, d => write (d.insertError r) r ()
  | .updateCase id status version newStatus next, d =>
    updateWhere (d.cases.get id) (fun c => c.status = status && c.version = version) fun c =>
      .recoveryCase (transition newStatus (version + 1) next c)
  | .updateAction id status newStatus, d =>
    updateWhere (d.actions.get id) (fun a => a.status = status) fun a =>
      .action { a with status := newStatus }
  | .cancelActions caseId, d =>
    (.ok (), (d.actions.filter fun a => a.recoveryCaseId = caseId && cancellable a).map fun a =>
      .action (cancelled a))
  | .flushPayment old new, d =>
    if old = new then (.ok (), [])
    else flush (d.payments.get old.id) fun r => .payment (patchPayment old new r)
  | .flushCase old new, d => flush (d.cases.get old.id) fun r => .recoveryCase (patchCase old new r)
  | .flushAction old new, d => flush (d.actions.get old.id) fun r => .action (patchAction old new r)
  | .flushWebhookEvent old new, d =>
    flush (d.webhookEvents.get old.id) fun r => .webhookEvent (patchWebhookEvent old new r)

end Db

instance : Engine Stmt Stmt.Ans Db Row := ⟨Db.exec⟩

/-- Send a statement; a database error is raised. -/
def query (s : Stmt) : Tx s.Result :=
  .sql s fun
    | .ok r => .pure r
    | .error e => .throw (.db e)

/-- Raise a validation message as `ValueError`. -/
def orValueError {α : Type} : Except String α → Tx α
  | .ok a => pure a
  | .error message => throw (.valueError message)

/-- Send a statement inside a savepoint and catch its database error. -/
def attempt (s : Stmt) : Tx s.Ans := .sql s .pure

end RecoverAI
