import RecoverAI.Effects.Work

/-!
# What stays

No row is ever deleted, and the columns that name a row's identity and place never change. `Grows`
says this of two databases; every commit makes the database grow.
-/
namespace RecoverAI

open Store

structure Payment.Same (p p' : Payment) : Prop where
  id : p'.id = p.id
  merchantId : p'.merchantId = p.merchantId
  provider : p'.provider = p.provider
  providerPaymentId : p'.providerPaymentId = p.providerPaymentId

structure RecoveryCase.Same (c c' : RecoveryCase) : Prop where
  id : c'.id = c.id
  merchantId : c'.merchantId = c.merchantId
  paymentId : c'.paymentId = c.paymentId
  amountMinor : c'.amountMinor = c.amountMinor
  currency : c'.currency = c.currency

structure RecoveryAction.Same (a a' : RecoveryAction) : Prop where
  id : a'.id = a.id
  merchantId : a'.merchantId = a.merchantId
  recoveryCaseId : a'.recoveryCaseId = a.recoveryCaseId
  actionType : a'.actionType = a.actionType
  attemptNumber : a'.attemptNumber = a.attemptNumber
  idempotencyKey : a'.idempotencyKey = a.idempotencyKey

structure OutboxEvent.Same (o o' : OutboxEvent) : Prop where
  id : o'.id = o.id
  merchantId : o'.merchantId = o.merchantId
  aggregateId : o'.aggregateId = o.aggregateId
  eventType : o'.eventType = o.eventType
  payload : o'.payload = o.payload
  idempotencyKey : o'.idempotencyKey = o.idempotencyKey

structure WebhookEvent.Same (e e' : WebhookEvent) : Prop where
  id : e'.id = e.id
  merchantId : e'.merchantId = e.merchantId
  provider : e'.provider = e.provider
  providerEventId : e'.providerEventId = e.providerEventId

namespace Payment.Same
@[simp] protected theorem refl (p : Payment) : p.Same p := ⟨rfl, rfl, rfl, rfl⟩
protected theorem trans {p q r : Payment} (h : p.Same q) (h' : q.Same r) : p.Same r := by
  cases h; cases h'; constructor <;> simp_all
end Payment.Same

namespace RecoveryCase.Same
@[simp] protected theorem refl (c : RecoveryCase) : c.Same c := ⟨rfl, rfl, rfl, rfl, rfl⟩
protected theorem trans {c d e : RecoveryCase} (h : c.Same d) (h' : d.Same e) : c.Same e := by
  cases h; cases h'; constructor <;> simp_all
end RecoveryCase.Same

namespace RecoveryAction.Same
@[simp] protected theorem refl (a : RecoveryAction) : a.Same a := ⟨rfl, rfl, rfl, rfl, rfl, rfl⟩
protected theorem trans {a b c : RecoveryAction} (h : a.Same b) (h' : b.Same c) : a.Same c := by
  cases h; cases h'; constructor <;> simp_all
end RecoveryAction.Same

namespace OutboxEvent.Same
@[simp] protected theorem refl (o : OutboxEvent) : o.Same o := ⟨rfl, rfl, rfl, rfl, rfl, rfl⟩
protected theorem trans {o p q : OutboxEvent} (h : o.Same p) (h' : p.Same q) : o.Same q := by
  cases h; cases h'; constructor <;> simp_all
end OutboxEvent.Same

namespace WebhookEvent.Same
@[simp] protected theorem refl (e : WebhookEvent) : e.Same e := ⟨rfl, rfl, rfl, rfl⟩
protected theorem trans {e f g : WebhookEvent} (h : e.Same f) (h' : f.Same g) : e.Same g := by
  cases h; cases h'; constructor <;> simp_all
end WebhookEvent.Same

structure Db.Grows (d d' : Db) : Prop where
  merchants : d'.merchants = d.merchants
  payments : d.payments.Extends Payment.Same d'.payments
  cases : d.cases.Extends RecoveryCase.Same d'.cases
  actions : d.actions.Extends RecoveryAction.Same d'.actions
  outbox : d.outbox.Extends OutboxEvent.Same d'.outbox
  webhookEvents : d.webhookEvents.Extends WebhookEvent.Same d'.webhookEvents
  audits : ∀ x ∈ d.audits, x ∈ d'.audits

namespace Db.Grows

theorem refl (d : Db) : d.Grows d where
  merchants := rfl
  payments r hr := ⟨r, hr, .refl r⟩
  cases r hr := ⟨r, hr, .refl r⟩
  actions r hr := ⟨r, hr, .refl r⟩
  outbox r hr := ⟨r, hr, .refl r⟩
  webhookEvents r hr := ⟨r, hr, .refl r⟩
  audits _ h := h

theorem trans {d d' d'' : Db} (h : d.Grows d') (h' : d'.Grows d'') : d.Grows d'' where
  merchants := h'.merchants.trans h.merchants
  payments := h.payments.trans (fun x y => x.trans y) h'.payments
  cases := h.cases.trans (fun x y => x.trans y) h'.cases
  actions := h.actions.trans (fun x y => x.trans y) h'.actions
  outbox := h.outbox.trans (fun x y => x.trans y) h'.outbox
  webhookEvents := h.webhookEvents.trans (fun x y => x.trans y) h'.webhookEvents
  audits x hx := h'.audits x (h.audits x hx)

end Db.Grows

/-! ## Rows that replace others -/

variable {d : Db}

theorem Db.Absent.payment {r : Payment} (h : d.Absent (.payment r)) : d.payments.get r.id = none :=
  h (.payment r.id) (by simp [Row.keys])

theorem Db.Absent.case {r : RecoveryCase} (h : d.Absent (.recoveryCase r)) :
    d.cases.get r.id = none :=
  h (.recoveryCase r.id) (by simp [Row.keys])

theorem Db.Absent.action {r : RecoveryAction} (h : d.Absent (.action r)) :
    d.actions.get r.id = none :=
  h (.action r.id) (by simp [Row.keys])

theorem Db.Absent.outbox {r : OutboxEvent} (h : d.Absent (.outbox r)) : d.outbox.get r.id = none :=
  h (.outbox r.id) (by simp [Row.keys])

theorem Db.Absent.webhookEvent {r : WebhookEvent} (h : d.Absent (.webhookEvent r)) :
    d.webhookEvents.get r.id = none :=
  h (.webhookEvent r.id) (by simp [Row.keys])

theorem Db.Absent.audit {r : AuditEvent} (h : d.Absent (.audit r)) : d.audits.get r.id = none :=
  h (.audit r.id) (by simp [Row.keys])

variable {T : Type} {db : T → Db} {R : List Row → T → T → Prop} {allows : Db → Stmt → Prop}
  {us : List Row} {t : T}

theorem Ensures.agrees {event : OutboxEvent} {ors : List Row} (h : Ensures db R event ors t) :
    (db t).outbox.Agrees OutboxEvent.Same (outboxOf ors) := by
  cases h with
  | present => exact Table.agrees_nil _ _
  | inserted absent =>
    exact Table.agrees_of_absent fun r hr => List.mem_singleton.1 hr ▸ absent.outbox

theorem Moves.agrees {new : RecoveryCaseStatus} {case : RecoveryCase} {rows : List Row}
    (h : Moves db R new case rows t) : (db t).cases.Agrees RecoveryCase.Same (casesOf rows) := by
  cases h with
  | skipped => exact Table.agrees_nil _ _
  | moved base =>
    exact Table.agrees_single (Table.get_eq_some.1 base).1 rfl ⟨rfl, rfl, rfl, rfl, rfl⟩

/-- The writes of the work agree with the rows they replace. -/
structure Db.Changes.Agrees (d : Db) (cs : List RecoveryCase) (as : List RecoveryAction)
    (os : List OutboxEvent) (xs : List AuditEvent) : Prop where
  cases : d.cases.Agrees RecoveryCase.Same cs
  actions : d.actions.Agrees RecoveryAction.Same as
  outbox : d.outbox.Agrees OutboxEvent.Same os
  audits : d.audits.Agrees (fun x y => y = x) xs

variable [PyLib]

theorem Work.agrees {d' : Db} {carried : Option Claim} (h : Work db R allows carried d' t) :
    ∃ cs as os xs, (db t).Changes d' cs as os xs ∧ Db.Changes.Agrees (db t) cs as os xs := by
  have audited : ∀ x, (db t).Absent (.audit x) → (db t).audits.Agrees (fun x y => y = x) [x] :=
    fun x absent => Table.agrees_of_absent fun r hr => List.mem_singleton.1 hr ▸ absent.audit
  cases h with
  | quiet changes => exact ⟨_, _, _, _, changes, by simp, by simp, by simp, by simp⟩
  | noted _ found _ audit changes =>
    exact ⟨_, _, _, _, changes, by simp, by simp, by simp, audited _ audit⟩
  | blocked taken existing changes =>
    refine ⟨_, _, _, _, changes, ?_, by simp, by simp, by simp⟩
    exact Table.agrees_single (Table.get_eq_some.1 taken.base).1 rfl ⟨rfl, rfl, rfl, rfl, rfl⟩
  | decided taken action outbox audit changes =>
    refine ⟨_, _, _, _, changes, ?_, ?_, ?_, audited _ audit⟩
    · exact Table.agrees_single (Table.get_eq_some.1 taken.base).1 rfl ⟨rfl, rfl, rfl, rfl, rfl⟩
    · exact Table.agrees_of_absent fun r hr => List.mem_singleton.1 hr ▸ action.action
    · refine Table.agrees_of_absent fun r hr => ?_
      obtain ⟨row, hrow, hr⟩ := List.mem_filterMap.1 hr
      cases row <;> cases hr
      exact (outbox _ hrow).outbox
  | cancelled held stop audit changes =>
    refine ⟨_, _, _, _, changes, stop.agrees, ?_, by simp, audited _ audit⟩
    exact Table.agrees_single (Table.get_eq_some.1 held.base).1 rfl ⟨rfl, rfl, rfl, rfl, rfl, rfl⟩
  | claimed held open_ audit changes =>
    refine ⟨_, _, _, _, changes, by simp, ?_, by simp, audited _ audit⟩
    exact Table.agrees_single (Table.get_eq_some.1 held.base).1 rfl ⟨rfl, rfl, rfl, rfl, rfl, rfl⟩
  | executed _ found executing moves base audit changes =>
    refine ⟨_, _, _, _, changes, moves.agrees, ?_, by simp, audited _ audit⟩
    exact Table.agrees_single (Table.get_eq_some.1 base).1 rfl ⟨rfl, rfl, rfl, rfl, rfl, rfl⟩
  | failed _ found executing base audit changes =>
    refine ⟨_, _, _, _, changes, by simp, ?_, by simp, audited _ audit⟩
    exact Table.agrees_single (Table.get_eq_some.1 base).1 rfl ⟨rfl, rfl, rfl, rfl, rfl, rfl⟩
  | created pay absent audited' event changes payments =>
    refine ⟨_, _, _, _, changes, ?_, by simp, event.agrees, audited _ audited'⟩
    exact Table.agrees_of_absent fun r hr => List.mem_singleton.1 hr ▸ absent.case
  | activated found status base audited' event changes =>
    refine ⟨_, _, _, _, changes, ?_, by simp, event.agrees, audited _ audited'⟩
    exact Table.agrees_single (Table.get_eq_some.1 base).1 rfl ⟨rfl, rfl, rfl, rfl, rfl⟩
  | recovered pay chosen recovers audited' event changes =>
    refine ⟨_, _, _, _, changes, ?_, ?_, event.agrees, audited _ audited'⟩
    · exact Table.agrees_single (Table.get_eq_some.1 recovers.base).1 rfl ⟨rfl, rfl, rfl, rfl, rfl⟩
    · intro r' hr' r hr
      obtain ⟨a, ha, rfl⟩ := List.mem_map.1 hr'
      cases (recovers.actions a ha).symm.trans hr
      exact ⟨rfl, rfl, rfl, rfl, rfl, rfl⟩

/-! ## Payments and inbox rows -/

/-- The payment rows are those of one payment, the inbox rows those of one event. -/
def Ingests (db : T → Db) (R : List Row → T → T → Prop) (us : List Row) (t : T) : Prop :=
  (paymentsOf us = [] ∨ ∃ merchantId id new update payment prs,
    WritesPayment db R merchantId id new update payment prs t ∧ paymentsOf us = paymentsOf prs) ∧
  (webhookEventsOf us = [] ∨ ∃ e e', (db t).Absent (.webhookEvent e) ∧ e.Same e' ∧
    webhookEventsOf us = [e, e'])

/-- The payment rows of a webhook are those of a failed or of a captured event. -/
theorem WebhookEffect.pays {env : Draws} {settings : Settings} {request : Request}
    {response : Response} (h : WebhookEffect db R env allows settings request response us t) :
    paymentsOf us = [] ∨
      ∃ merchant entity amountMinor currency payment prs, paymentsOf us = paymentsOf prs ∧
        (WritesFailed db R env merchant entity amountMinor currency payment prs t ∧
            Uncaptured db R merchant entity t ∨
          WritesCaptured db R env merchant entity amountMinor currency payment prs t) := by
  cases h with
  | rejected reason => exact .inl rfl
  | recorded admitted found active absent effect =>
    cases effect with
    | ignored => exact .inl rfl
    | failed _ _ effect =>
      cases effect with
      | captured => exact .inl rfl
      | known pay _ _ uncaptured =>
        exact .inr ⟨_, _, _, _, _, _,
          by simp [List.filterMap_cons, Row.payment?], .inl ⟨pay, uncaptured⟩⟩
      | created pay _ _ event uncaptured | activated pay _ _ _ _ event uncaptured =>
        exact .inr ⟨_, _, _, _, _, _, by simp [List.filterMap_cons, Row.payment?, event.tables],
          .inl ⟨pay, uncaptured⟩⟩
    | captured _ _ effect =>
      cases effect with
      | noCase pay | terminal pay =>
        exact .inr ⟨_, _, _, _, _, _, by simp [List.filterMap_cons, Row.payment?], .inr pay⟩
      | recovered pay _ _ _ event =>
        exact .inr ⟨_, _, _, _, _, _, by
          simp [List.filterMap_cons, Row.payment?, event.tables, Function.comp_def], .inr pay⟩

theorem WebhookEffect.ingests {env : Draws} {settings : Settings} {request : Request}
    {response : Response} (h : WebhookEffect db R env allows settings request response us t) :
    Ingests db R us t := by
  constructor
  · rcases h.pays with none | ⟨_, _, _, _, _, _, rows, ⟨pay, -⟩ | pay⟩
    · exact .inl none
    · exact .inr ⟨_, _, _, _, _, _, pay, rows⟩
    · exact .inr ⟨_, _, _, _, _, _, pay, rows⟩
  · cases h with
    | rejected reason => exact .inl rfl
    | @recorded webhook merchant status result us _ admitted found active absent effect =>
      refine .inr ⟨_, _, absent, ?_, by simp [Row.webhookEvent?, effect.tables]; rfl⟩
      exact ⟨rfl, rfl, rfl, rfl⟩

/-- Only a webhook writes payments and inbox rows. -/
theorem Commits.webhook_or {settings : Settings} {p q : Process}
    (h : Commits db R settings allows p us q t) :
    (∃ request response env, p = .webhook request ∧ q = .answered response ∧
      WebhookEffect db R env allows settings request response us t) ∨
      paymentsOf us = [] ∧ webhookEventsOf us = [] := by
  cases h with
  | webhook effect => exact .inl ⟨_, _, _, rfl, rfl, effect⟩
  | task effect | unnamed => exact .inr ⟨rfl, rfl⟩
  | eligible effect =>
    cases effect with
    | idle => exact .inr ⟨rfl, rfl⟩
    | blocked taken =>
      simp [List.filterMap_cons, Row.payment?, Row.webhookEvent?, taken.policy.tables]
    | processed taken =>
      simp [decisionRows, List.filterMap_cons, Row.payment?, Row.webhookEvent?, taken.policy.tables,
        scheduledRows_tables]
  | claim id effect =>
    cases effect with
    | refused policy => exact .inr ⟨policy.tables.1, policy.tables.2.2.2.2.1⟩
    | cancelled held stop =>
      simp [List.filterMap_cons, Row.payment?, Row.webhookEvent?, held.policy.tables, stop.tables]
    | claimed held =>
      simp [List.filterMap_cons, Row.payment?, Row.webhookEvent?, held.policy.tables]
  | success effect =>
    cases effect with
    | idle => exact .inr ⟨rfl, rfl⟩
    | executed _ _ moves =>
      simp [List.filterMap_cons, Row.payment?, Row.webhookEvent?, moves.tables]
  | failure effect => cases effect <;> exact .inr ⟨rfl, rfl⟩

theorem Commits.ingests {settings : Settings} {p q : Process}
    (h : Commits db R settings allows p us q t) : Ingests db R us t := by
  rcases h.webhook_or with ⟨_, _, _, -, -, effect⟩ | ⟨payments, inbox⟩
  · exact effect.ingests
  · exact ⟨.inl payments, .inl inbox⟩

theorem Commits.grows {settings : Settings} {p q : Process}
    (h : Commits db R settings allows p us q t) : (db t).Grows (view (db t) us) := by
  obtain ⟨cs, as, os, xs, changes, agrees⟩ := h.work.agrees
  obtain ⟨payments, inbox⟩ := h.ingests
  have agreesPayments : (db t).payments.Agrees Payment.Same (paymentsOf us) := by
    rcases payments with none | ⟨_, _, new, update, payment, prs, pay, eq⟩
    · exact none ▸ Table.agrees_nil _ _
    · rw [eq]
      cases pay with
      | inserted unknown absent =>
        exact Table.agrees_of_absent fun r hr => List.mem_singleton.1 hr ▸ absent.payment
      | kept => exact Table.agrees_nil _ _
      | updated read base =>
        exact Table.agrees_single (Table.get_eq_some.1 base).1 rfl ⟨rfl, rfl, rfl, rfl⟩
  have agreesInbox : (db t).webhookEvents.Agrees WebhookEvent.Same (webhookEventsOf us) := by
    rcases inbox with none | ⟨e, e', absent, same, eq⟩
    · exact none ▸ Table.agrees_nil _ _
    · rw [eq]
      refine Table.agrees_of_absent fun r hr => ?_
      rcases List.mem_pair.1 hr with rfl | rfl
      · exact absent.webhookEvent
      · exact (congrArg _ same.id).trans absent.webhookEvent
  exact {
    merchants := view_merchants _ _
    payments := view_payments (db t) us ▸ agreesPayments.extends .refl
    cases := changes.cases ▸ agrees.cases.extends .refl
    actions := changes.actions ▸ agrees.actions.extends .refl
    outbox := changes.outbox ▸ agrees.outbox.extends .refl
    webhookEvents := view_webhookEvents (db t) us ▸ agreesInbox.extends .refl
    audits := fun x hx => by
      rw [changes.audits]
      obtain ⟨y, hy, same⟩ :=
        Table.Agrees.extends (S := fun x y => y = x) (fun _ => rfl) agrees.audits x hx
      exact same ▸ hy }

end RecoverAI
