import RecoverAI.Models.Tables

/-!
# Writes, table by table

What a list of writes puts into each table, and the facts that a key lock protects: the row with a
primary key, and the absence of a row with a key.
-/
namespace RecoverAI

open Store

namespace Row

def policy? : Row → Option MerchantPolicy
  | policy r => some r
  | _ => none

def payment? : Row → Option Payment
  | payment r => some r
  | _ => none

def case? : Row → Option RecoveryCase
  | recoveryCase r => some r
  | _ => none

def action? : Row → Option RecoveryAction
  | action r => some r
  | _ => none

def outbox? : Row → Option OutboxEvent
  | outbox r => some r
  | _ => none

def webhookEvent? : Row → Option WebhookEvent
  | webhookEvent r => some r
  | _ => none

def audit? : Row → Option AuditEvent
  | audit r => some r
  | _ => none

end Row

abbrev policiesOf (ws : List Row) : List MerchantPolicy := ws.filterMap Row.policy?
abbrev paymentsOf (ws : List Row) : List Payment := ws.filterMap Row.payment?
abbrev casesOf (ws : List Row) : List RecoveryCase := ws.filterMap Row.case?
abbrev actionsOf (ws : List Row) : List RecoveryAction := ws.filterMap Row.action?
abbrev outboxOf (ws : List Row) : List OutboxEvent := ws.filterMap Row.outbox?
abbrev webhookEventsOf (ws : List Row) : List WebhookEvent := ws.filterMap Row.webhookEvent?
abbrev auditsOf (ws : List Row) : List AuditEvent := ws.filterMap Row.audit?

/-- How the tables of a database change under a list of writes. -/
theorem view_tables (d : Db) (ws : List Row) : view d ws = {
    merchants := d.merchants
    policies := d.policies.putAll (policiesOf ws)
    payments := d.payments.putAll (paymentsOf ws)
    cases := d.cases.putAll (casesOf ws)
    actions := d.actions.putAll (actionsOf ws)
    outbox := d.outbox.putAll (outboxOf ws)
    webhookEvents := d.webhookEvents.putAll (webhookEventsOf ws)
    audits := d.audits.putAll (auditsOf ws) } := by
  induction ws generalizing d with
  | nil => rfl
  | cons w ws ih => cases w <;> exact ih _

section

variable (d : Db) (ws : List Row)

@[simp] theorem view_merchants : (view d ws).merchants = d.merchants := by rw [view_tables]
@[simp] theorem view_policies : (view d ws).policies = d.policies.putAll (policiesOf ws) := by
  rw [view_tables]
@[simp] theorem view_payments : (view d ws).payments = d.payments.putAll (paymentsOf ws) := by
  rw [view_tables]
@[simp] theorem view_cases : (view d ws).cases = d.cases.putAll (casesOf ws) := by
  rw [view_tables]
@[simp] theorem view_actions : (view d ws).actions = d.actions.putAll (actionsOf ws) := by
  rw [view_tables]
@[simp] theorem view_outbox : (view d ws).outbox = d.outbox.putAll (outboxOf ws) := by
  rw [view_tables]
@[simp] theorem view_webhookEvents :
    (view d ws).webhookEvents = d.webhookEvents.putAll (webhookEventsOf ws) := by
  rw [view_tables]
@[simp] theorem view_audits : (view d ws).audits = d.audits.putAll (auditsOf ws) := by
  rw [view_tables]

end

/-- Writes of actions leave the other tables alone. -/
@[simp] theorem filterMap_map_action {α β : Type} {g : Row → Option β}
    (h : ∀ a, g (.action a) = none) (f : α → RecoveryAction) (as : List α) :
    (as.map fun a => .action (f a)).filterMap g = [] := by
  simp [List.filterMap_map, h]

/-- A transaction sees the case it wrote last. -/
theorem view_case_of_getLast? {d : Db} {ws : List Row} {c : RecoveryCase}
    (h : (casesOf ws).getLast? = some c) : (view d ws).cases.get c.id = some c := by
  rw [view_cases]
  exact Table.get_putAll_of_getLast? h

theorem view_webhookEvent_of_getLast? {d : Db} {ws : List Row} {e : WebhookEvent}
    (h : (webhookEventsOf ws).getLast? = some e) : (view d ws).webhookEvents.get e.id = some e := by
  rw [view_webhookEvents]
  exact Table.get_putAll_of_getLast? h

/-! ## Absent keys -/

/-- No row has the key. -/
def Db.lacks (d : Db) : Key → Prop
  | .policy id => d.policies.get id = none
  | .policyOf m => ∀ r ∈ d.policies, r.merchantId ≠ m
  | .payment id => d.payments.get id = none
  | .paymentOf m provider id => ∀ r ∈ d.payments,
      ¬ (r.merchantId = m ∧ r.provider = provider ∧ r.providerPaymentId = id)
  | .recoveryCase id => d.cases.get id = none
  | .caseOf paymentId => ∀ r ∈ d.cases, r.paymentId ≠ paymentId
  | .action id => d.actions.get id = none
  | .actionKey key => ∀ r ∈ d.actions, r.idempotencyKey ≠ key
  | .attempt caseId actionType number => ∀ r ∈ d.actions,
      ¬ (r.recoveryCaseId = caseId ∧ r.actionType = actionType ∧ r.attemptNumber = number)
  | .outbox id => d.outbox.get id = none
  | .outboxKey key => ∀ r ∈ d.outbox, r.idempotencyKey ≠ key
  | .webhookEvent id => d.webhookEvents.get id = none
  | .inbox provider id => ∀ r ∈ d.webhookEvents,
      ¬ (r.provider = provider ∧ r.providerEventId = id)
  | .audit id => d.audits.get id = none

theorem lacks_iff {d : Db} {r : Row} {k : Key} (h : k ∈ r.keys) :
    d.lacks k ↔ ∀ s ∈ d.rowsLike r, k ∉ s.keys := by
  cases r <;> simp only [Row.keys, List.mem_cons, List.not_mem_nil, or_false] at h <;>
    rcases h with rfl | h | h <;> subst_vars <;>
    simp only [Db.lacks, Db.rowsLike, Row.keys, Table.get_eq_none, List.forall_mem_map,
      Table.mem_rows, Store.key, List.mem_cons, List.not_mem_nil, or_false, Key.policy.injEq,
      reduceCtorEq, false_or, ne_eq] <;>
    grind

theorem hasKeyOf_eq_false {d : Db} {r : Row} :
    d.hasKeyOf r = false ↔ ∀ k ∈ r.keys, d.lacks k := by
  simp only [Db.hasKeyOf, List.any_eq_false, Bool.not_eq_true, decide_eq_false_iff_not]
  exact ⟨fun h k hk => (lacks_iff hk).2 fun s hs => h s hs k hk,
    fun h s hs k hk => (lacks_iff hk).1 (h k hk) s hs⟩

theorem protects_lacks (k : Key) : Protects k (fun d : Db => d.lacks k) := by
  intro d w free lacks
  cases w <;> cases k <;>
    simp_all [apply, Db.put, Db.lacks, locks, Row.keys, Table.get_put, Store.key] <;>
    grind

/-! ## Locked rows -/

theorem protects_payment (id : Uuid) (x : Option Payment) :
    Protects (.payment id) (fun d : Db => d.payments.get id = x) := by
  intro d w free h
  cases w <;> simp_all [apply, Db.put, locks, Row.keys, Table.get_put, Store.key]

theorem protects_case (id : Uuid) (x : Option RecoveryCase) :
    Protects (.recoveryCase id) (fun d : Db => d.cases.get id = x) := by
  intro d w free h
  cases w <;> simp_all [apply, Db.put, locks, Row.keys, Table.get_put, Store.key]

theorem protects_action (id : Uuid) (x : Option RecoveryAction) :
    Protects (.action id) (fun d : Db => d.actions.get id = x) := by
  intro d w free h
  cases w <;> simp_all [apply, Db.put, locks, Row.keys, Table.get_put, Store.key]

end RecoverAI
