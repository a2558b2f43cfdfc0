import RecoverAI.Invariants.Growth

/-!
# Coherence and single decisions

`Coherent` ties the merchants of the tables together, which no constraint of the schema does. `Once`
says that a case is decided at most once. Both are kept by every commit, whatever was read before
other commits: `Past` is what a commit may rely on.
-/
namespace RecoverAI

open Store

/-- The audit event is about a case or an action of its merchant. -/
def Db.Tells (d : Db) (x : AuditEvent) : Prop :=
  (x.entityType = "recovery_case" ∧
    ∃ c ∈ d.cases, c.id.str = x.entityId ∧ c.merchantId = x.merchantId) ∨
  (x.entityType = "recovery_action" ∧
    ∃ a ∈ d.actions, a.id.str = x.entityId ∧ a.merchantId = x.merchantId)

structure Db.Coherent (d : Db) : Prop where
  case : ∀ c ∈ d.cases, ∃ p ∈ d.payments, p.id = c.paymentId ∧ p.merchantId = c.merchantId
  action : ∀ a ∈ d.actions, ∃ c ∈ d.cases, c.id = a.recoveryCaseId ∧ c.merchantId = a.merchantId
  outbox : ∀ o ∈ d.outbox, ∃ c ∈ d.cases, c.id.str = o.aggregateId ∧ c.merchantId = o.merchantId
  audit : ∀ x ∈ d.audits, d.Tells x

def decisionEvent : String := "recovery_case.decision"

def scheduledEvent : String := "recovery_case.action_scheduled"

structure Db.Once (d : Db) : Prop where
  notFailed : ∀ c ∈ d.cases, c.status ≠ .failed
  acted : ∀ a ∈ d.actions, ∀ c ∈ d.cases, c.id = a.recoveryCaseId → c.status ≠ .eligible
  decisionEntity : ∀ x ∈ d.audits, x.eventType = decisionEvent → x.entityType = "recovery_case"
  decided : ∀ x ∈ d.audits, x.eventType = decisionEvent →
    ∀ c ∈ d.cases, c.id.str = x.entityId → c.status ≠ .eligible
  scheduled : ∀ o ∈ d.outbox, o.eventType = scheduledEvent →
    ∀ c ∈ d.cases, c.id.str = o.aggregateId → c.status ≠ .eligible
  oneAction : ∀ a ∈ d.actions, ∀ b ∈ d.actions, a.recoveryCaseId = b.recoveryCaseId → a = b
  oneDecision : ∀ x ∈ d.audits, ∀ y ∈ d.audits, x.eventType = decisionEvent →
    y.eventType = decisionEvent → x.entityId = y.entityId → x = y
  oneScheduled : ∀ o ∈ d.outbox, ∀ o' ∈ d.outbox, o.eventType = scheduledEvent →
    o'.eventType = scheduledEvent → o.aggregateId = o'.aggregateId → o = o'

structure Db.Sound (d : Db) : Prop extends d.Coherent, d.Once

theorem Db.sound_initial (merchants : Table Merchant) (policies : Table MerchantPolicy) :
    (Db.initial merchants policies).Sound := by
  constructor <;> constructor <;> intro r hr <;> exact absurd hr List.not_mem_nil

section

variable {T : Type} (db : T → Db) (R : List Row → T → T → Prop)

/-- What a commit at `t` knows of the moments before: they were sound, and the
database has grown since. -/
structure Past (t : T) : Prop where
  now : R [] t t
  trans : ∀ {t₀ t₁}, R [] t₀ t₁ → R [] t₁ t → R [] t₀ t
  sound : ∀ {t₀}, R [] t₀ t → (db t₀).Sound
  grows : ∀ {t₀ t₁}, R [] t₀ t₁ → R [] t₁ t → (db t₀).Grows (db t₁)

/-- The claim that is carried was made on an action of its case. -/
def Backed (carried : Option Claim) (t : T) : Prop :=
  ∀ claim, carried = some claim → ∀ t₀ action, R [] t₀ t →
    (db t₀).actions.get claim.actionId = some action → action.recoveryCaseId = claim.caseId

end

variable {T : Type} {db : T → Db} {R : List Row → T → T → Prop} {allows : Db → Stmt → Prop}
  {carried : Option Claim} {us : List Row} {t t₀ : T} {d' : Db}

namespace Past

theorem case (past : Past db R t) (h : R [] t₀ t) {c : RecoveryCase} {id : Uuid}
    (hc : (db t₀).cases.get id = some c) : ∃ c' ∈ (db t).cases, c.Same c' :=
  (past.grows h past.now).cases c (Table.get_eq_some.1 hc).1

/-- A row that is read and later replaced agrees with the row it replaces. -/
theorem same_case (past : Past db R t) (h : R [] t₀ t) {c r : RecoveryCase} {id : Uuid}
    (hc : (db t₀).cases.get id = some c) (hr : (db t).cases.get id = some r) : c.Same r := by
  obtain ⟨c', hc', same⟩ := past.case h hc
  obtain ⟨mem, rfl⟩ := Table.get_eq_some.1 hr
  have : c' = r := Table.eq_of_key hc' mem (same.id.trans (Table.get_eq_some.1 hc).2)
  exact this ▸ same

theorem action (past : Past db R t) (h : R [] t₀ t) {a : RecoveryAction} {id : Uuid}
    (ha : (db t₀).actions.get id = some a) : ∃ a' ∈ (db t).actions, a.Same a' :=
  (past.grows h past.now).actions a (Table.get_eq_some.1 ha).1

theorem same_action (past : Past db R t) (h : R [] t₀ t) {a r : RecoveryAction} {id : Uuid}
    (ha : (db t₀).actions.get id = some a) (hr : (db t).actions.get id = some r) : a.Same r := by
  obtain ⟨a', ha', same⟩ := past.action h ha
  obtain ⟨mem, rfl⟩ := Table.get_eq_some.1 hr
  have : a' = r := Table.eq_of_key ha' mem (same.id.trans (Table.get_eq_some.1 ha).2)
  exact this ▸ same

/-- An action and a case that were read as belonging together have one merchant. -/
theorem coherent_reads (past : Past db R t) {t₁ : T} (h₀ : R [] t₀ t₁) (h₁ : R [] t₁ t)
    {a : RecoveryAction} {c : RecoveryCase} {actionId caseId : Uuid}
    (ha : (db t₀).actions.get actionId = some a) (hc : (db t₁).cases.get caseId = some c)
    (link : a.recoveryCaseId = caseId) : c.merchantId = a.merchantId := by
  obtain ⟨a', ha', same⟩ := (past.grows h₀ h₁).actions a (Table.get_eq_some.1 ha).1
  obtain ⟨c', hc', id, merchantId⟩ := (past.sound h₁).action a' ha'
  obtain ⟨mem, rfl⟩ := Table.get_eq_some.1 hc
  have : c' = c := Table.eq_of_key hc' mem (id.trans (same.recoveryCaseId.trans link))
  rw [← this, merchantId, same.merchantId]

end Past

/-! ## Coherence -/

/-- Where the written rows of a commit belong. -/
structure Belongs (d d' : Db) (cs : List RecoveryCase) (as : List RecoveryAction)
    (os : List OutboxEvent) (xs : List AuditEvent) : Prop where
  cases : ∀ c ∈ cs, (∃ c₀ ∈ d.cases, c₀.Same c) ∨
    ∃ p ∈ d'.payments, p.id = c.paymentId ∧ p.merchantId = c.merchantId
  actions : ∀ a ∈ as, (∃ a₀ ∈ d.actions, a₀.Same a) ∨
    ∃ c ∈ d'.cases, c.id = a.recoveryCaseId ∧ c.merchantId = a.merchantId
  outbox : ∀ o ∈ os, ∃ c ∈ d'.cases, c.id.str = o.aggregateId ∧ c.merchantId = o.merchantId
  audits : ∀ x ∈ xs, d'.Tells x

theorem Belongs.coherent {d d' : Db} {cs : List RecoveryCase} {as : List RecoveryAction}
    {os : List OutboxEvent} {xs : List AuditEvent} (h : Belongs d d' cs as os xs)
    (changes : d.Changes d' cs as os xs) (grows : d.Grows d') (coherent : d.Coherent) :
    d'.Coherent := by
  have old : ∀ c₀ ∈ d.cases, ∀ c, c₀.Same c →
      ∃ p ∈ d'.payments, p.id = c.paymentId ∧ p.merchantId = c.merchantId := by
    intro c₀ hc₀ c same
    obtain ⟨p, hp, id, merchantId⟩ := coherent.case c₀ hc₀
    obtain ⟨p', hp', same'⟩ := grows.payments p hp
    exact ⟨p', hp', by rw [same'.id, id, same.paymentId], by rw [same'.merchantId, merchantId,
      same.merchantId]⟩
  have oldAction : ∀ a₀ ∈ d.actions, ∀ a, a₀.Same a →
      ∃ c ∈ d'.cases, c.id = a.recoveryCaseId ∧ c.merchantId = a.merchantId := by
    intro a₀ ha₀ a same
    obtain ⟨c, hc, id, merchantId⟩ := coherent.action a₀ ha₀
    obtain ⟨c', hc', same'⟩ := grows.cases c hc
    exact ⟨c', hc', by rw [same'.id, id, same.recoveryCaseId], by rw [same'.merchantId, merchantId,
      same.merchantId]⟩
  constructor
  · intro c hc
    rw [changes.cases] at hc
    rcases Table.mem_or_of_mem_putAll hc with hc | hc
    · rcases h.cases c hc with ⟨c₀, hc₀, same⟩ | new
      · exact old c₀ hc₀ c same
      · exact new
    · exact old c hc c (.refl c)
  · intro a ha
    rw [changes.actions] at ha
    rcases Table.mem_or_of_mem_putAll ha with ha | ha
    · rcases h.actions a ha with ⟨a₀, ha₀, same⟩ | new
      · exact oldAction a₀ ha₀ a same
      · exact new
    · exact oldAction a ha a (.refl a)
  · intro o ho
    rw [changes.outbox] at ho
    rcases Table.mem_or_of_mem_putAll ho with ho | ho
    · exact h.outbox o ho
    · obtain ⟨c, hc, id, merchantId⟩ := coherent.outbox o ho
      obtain ⟨c', hc', same⟩ := grows.cases c hc
      exact ⟨c', hc', same.id ▸ id, same.merchantId ▸ merchantId⟩
  · intro x hx
    rw [changes.audits] at hx
    rcases Table.mem_or_of_mem_putAll hx with hx | hx
    · exact h.audits x hx
    · rcases coherent.audit x hx with ⟨type, c, hc, id, merchantId⟩ | ⟨type, a, ha, id, merchantId⟩
      · obtain ⟨c', hc', same⟩ := grows.cases c hc
        exact .inl ⟨type, c', hc', same.id ▸ id, same.merchantId ▸ merchantId⟩
      · obtain ⟨a', ha', same⟩ := grows.actions a ha
        exact .inr ⟨type, a', ha', same.id ▸ id, same.merchantId ▸ merchantId⟩

theorem Db.paymentOf_eq_some {d : Db} {merchantId : Uuid} {id : String} {p : Payment}
    (h : d.paymentOf merchantId id = some p) : p ∈ d.payments ∧ p.merchantId = merchantId ∧
      p.provider = "razorpay" ∧ p.providerPaymentId = id := by
  obtain ⟨mem, hp⟩ := Table.mem_of_find h
  simpa [and_assoc, mem] using hp

/-- The payment a handler goes on with is in the table afterwards, and is its merchant's. -/
theorem WritesPayment.present (past : Past db R t) {merchantId : Uuid} {id : String}
    {new payment : Payment} {update : Payment → Payment} {prs : List Row}
    (h : WritesPayment db R merchantId id new update payment prs t)
    (own : new.merchantId = merchantId) (keeps : ∀ p, (update p).id = p.id) :
    ∃ p ∈ (db t).payments.putAll (paymentsOf prs), p.id = payment.id ∧
      p.merchantId = merchantId := by
  cases h with
  | inserted unknown absent => exact ⟨_, Table.mem_put.2 (.inl rfl), rfl, own⟩
  | kept read same =>
    obtain ⟨t₀, h₀, found⟩ := read
    obtain ⟨mem, merchant, -⟩ := Db.paymentOf_eq_some found
    obtain ⟨p', hp', same⟩ := (past.grows h₀ past.now).payments _ mem
    exact ⟨p', hp', same.id, same.merchantId.trans merchant⟩
  | @updated old r _ read base =>
    obtain ⟨t₀, h₀, found⟩ := read
    obtain ⟨mem, merchant, -⟩ := Db.paymentOf_eq_some found
    obtain ⟨p', hp', same⟩ := (past.grows h₀ past.now).payments _ mem
    obtain ⟨hr, hid⟩ := Table.get_eq_some.1 base
    obtain rfl : p' = r := Table.eq_of_key hp' hr (same.id.trans hid.symm)
    exact ⟨_, Table.mem_put.2 (.inl rfl), same.id.trans (keeps old).symm,
      same.merchantId.trans merchant⟩

/-- No row of another merchant has the id of the payment a handler goes on with. -/
theorem WritesPayment.merchant (past : Past db R t) {merchantId : Uuid} {id : String}
    {new payment : Payment} {update : Payment → Payment} {prs : List Row}
    (keeps : ∀ p, (update p).id = p.id)
    (h : WritesPayment db R merchantId id new update payment prs t) (h₀ : R [] t₀ t) {p : Payment}
    (hp : p ∈ (db t₀).payments) (same : p.id = payment.id) : p.merchantId = merchantId := by
  obtain ⟨p', hp', grown⟩ := (past.grows h₀ past.now).payments p hp
  have other : ∀ old, (∃ t₁, R [] t₁ t ∧ (db t₁).paymentOf merchantId id = some old) →
      p.id = old.id → p.merchantId = merchantId := by
    rintro old ⟨t₁, h₁, found⟩ same
    obtain ⟨mem, merchant, -⟩ := Db.paymentOf_eq_some found
    obtain ⟨o', ho', grown'⟩ := (past.grows h₁ past.now).payments old mem
    have : p' = o' := Table.eq_of_key hp' ho' (grown.id.trans (same.trans grown'.id.symm))
    rw [← merchant, ← grown'.merchantId, ← this, grown.merchantId]
  cases h with
  | inserted unknown absent =>
    have none := Table.get_eq_none.1 absent.payment p' hp'
    exact absurd (grown.id.trans same) none
  | kept read => exact other _ read same
  | updated read => exact other _ read (same.trans (keeps _))

theorem Db.Changes.case_mem {d d' : Db} {c : RecoveryCase} {as : List RecoveryAction}
    {os : List OutboxEvent} {xs : List AuditEvent} (h : d.Changes d' [c] as os xs) : c ∈ d'.cases :=
  h.cases ▸ Table.mem_put.2 (.inl rfl)

theorem Db.Changes.action_mem {d d' : Db} {a : RecoveryAction} {cs : List RecoveryCase}
    {os : List OutboxEvent} {xs : List AuditEvent} (h : d.Changes d' cs [a] os xs) :
    a ∈ d'.actions :=
  h.actions ▸ Table.mem_put.2 (.inl rfl)

theorem Moves.same {new : RecoveryCaseStatus} {case : RecoveryCase} {rows : List Row}
    (h : Moves db R new case rows t) : ∀ c ∈ casesOf rows, ∃ c₀ ∈ (db t).cases, c₀.Same c := by
  cases h with
  | skipped => simp
  | @moved c _ base =>
    intro c' hc'
    obtain rfl := List.mem_singleton.1 hc'
    exact ⟨c, (Table.get_eq_some.1 base).1, rfl, rfl, rfl, rfl, rfl⟩

theorem Ensures.belongs {event : OutboxEvent} {ors : List Row} {d' : Db}
    (h : Ensures db R event ors t)
    (case : ∃ c ∈ d'.cases, c.id.str = event.aggregateId ∧ c.merchantId = event.merchantId) :
    ∀ o ∈ outboxOf ors, ∃ c ∈ d'.cases, c.id.str = o.aggregateId ∧ c.merchantId = o.merchantId := by
  cases h with
  | present => simp
  | inserted => exact fun o ho => List.mem_singleton.1 ho ▸ case

/-- An executor's audit event is about the action that was read together with its case. -/
theorem Past.tellsAction (past : Past db R t) (grows : (db t).Grows d') {t₁ : T} (h₀ : R [] t₀ t₁)
    (h₁ : R [] t₁ t) {env : Draws} {action : RecoveryAction} {case : RecoveryCase}
    {actionId caseId : Uuid} (ha : (db t₀).actions.get actionId = some action)
    (hc : (db t₁).cases.get caseId = some case) (link : action.recoveryCaseId = caseId)
    (eventType : String) (payload : Fields) :
    d'.Tells (actionAudit env case action eventType payload) := by
  obtain ⟨a, ha', same⟩ := past.action (past.trans h₀ h₁) ha
  obtain ⟨a', ha'', same'⟩ := grows.actions a ha'
  have merchantId := past.coherent_reads h₀ h₁ ha hc link
  exact .inr ⟨rfl, a', ha'', by rw [same'.id, same.id]; rfl,
    by rw [same'.merchantId, same.merchantId, ← merchantId]; rfl⟩

theorem Past.tellsFound (past : Past db R t) (grows : (db t).Grows d')
    (backed : Backed db R carried t) {env : Draws} {claim : Claim} {action : RecoveryAction}
    {case : RecoveryCase} (carries : carried = some claim) (found : Found db R claim action case t)
    (eventType : String) (payload : Fields) :
    d'.Tells (actionAudit env case action eventType payload) := by
  obtain ⟨t₀, t₁, h₀, h₁, ha, hc⟩ := found
  exact past.tellsAction grows h₀ h₁ ha hc
    (backed claim carries t₀ action (past.trans h₀ h₁) ha) _ _

theorem Held.tells (past : Past db R t) (grows : (db t).Grows d') {env : Draws} {actionId : Uuid}
    {action a : RecoveryAction} {case : RecoveryCase} {ps : List Row}
    (held : Held db R env actionId action a case ps t) (eventType : String) (payload : Fields) :
    d'.Tells (actionAudit env case action eventType payload) := by
  obtain ⟨t₀, t₁, h₀, h₁, ha, hc⟩ := held.seen
  exact past.tellsAction grows h₀ h₁ ha hc rfl _ _

theorem Held.same (past : Past db R t) {env : Draws} {actionId : Uuid} {action a : RecoveryAction}
    {case : RecoveryCase} {ps : List Row} (held : Held db R env actionId action a case ps t) :
    action.Same a := by
  obtain ⟨t₀, t₁, h₀, h₁, ha, -⟩ := held.seen
  exact past.same_action (past.trans h₀ h₁) ha held.base

theorem Taken.same (past : Past db R t) {env : Draws} {case c : RecoveryCase} {ps : List Row}
    (taken : Taken db R env case c ps t) : case.Same c := by
  obtain ⟨t₀, h₀, hc⟩ := taken.seen
  exact past.same_case h₀ hc taken.base

/-- The case a captured event recovers is its merchant's. -/
theorem Chosen.merchant [PyLib] (past : Past db R t) {env : Draws} {merchant : Merchant}
    {entity : RazorpayPaymentEntity} {amountMinor : Int} {currency : String} {payment : Payment}
    {case : RecoveryCase} {prs : List Row}
    (pay : WritesCaptured db R env merchant entity amountMinor currency payment prs t)
    (chosen : Chosen db R merchant entity payment case t) : case.merchantId = merchant.id := by
  cases chosen with
  | noted _ merchantId => exact merchantId
  | own _ read found =>
    obtain ⟨t₀, h₀, hc⟩ := read
    obtain ⟨t₁, c, h₁, hown, id⟩ := found
    obtain ⟨mem, own⟩ := Table.mem_of_find hown
    obtain ⟨p, hp, pid, merchantId⟩ := (past.sound h₁).case c mem
    have keeps : ∀ p, (recaptured env p).id = p.id := fun p => by
      unfold recaptured; split <;> rfl
    have owner := pay.merchant past keeps h₁ hp (pid.trans (by simpa using own))
    obtain ⟨c', hc', same⟩ := past.case h₁ (Table.get_of_mem mem)
    obtain ⟨c'', hc'', same'⟩ := past.case h₀ hc
    have : c' = c'' := Table.eq_of_key hc' hc'' (same.id.trans (id.trans same'.id.symm))
    rw [← same'.merchantId, ← this, same.merchantId, ← merchantId, owner]

theorem Work.belongs [PyLib] (h : Work db R allows carried d' t) (past : Past db R t)
    (grows : (db t).Grows d') (backed : Backed db R carried t) : ∃ cs as os xs,
      (db t).Changes d' cs as os xs ∧ Belongs (db t) d' cs as os xs := by
  have single : ∀ x, d'.Tells x → ∀ y ∈ [x], d'.Tells y := fun x hx y hy =>
    List.mem_singleton.1 hy ▸ hx
  have sameCase : ∀ {c₀ c : RecoveryCase}, c₀ ∈ (db t).cases → c₀.Same c → ∀ c' ∈ [c],
      (∃ c₀ ∈ (db t).cases, c₀.Same c') ∨
        ∃ p ∈ d'.payments, p.id = c'.paymentId ∧ p.merchantId = c'.merchantId :=
    fun hc same c' hc' => .inl (List.mem_singleton.1 hc' ▸ ⟨_, hc, same⟩)
  have sameAction : ∀ {a₀ a : RecoveryAction}, a₀ ∈ (db t).actions → a₀.Same a → ∀ a' ∈ [a],
      (∃ a₀ ∈ (db t).actions, a₀.Same a') ∨
        ∃ c ∈ d'.cases, c.id = a'.recoveryCaseId ∧ c.merchantId = a'.merchantId :=
    fun ha same a' ha' => .inl (List.mem_singleton.1 ha' ▸ ⟨_, ha, same⟩)
  cases h with
  | quiet changes => exact ⟨_, _, _, _, changes, by simp, by simp, by simp, by simp⟩
  | noted carries found _ audit changes =>
    exact ⟨_, _, _, _, changes, by simp, by simp, by simp,
      single _ (past.tellsFound grows backed carries found _ _)⟩
  | blocked taken existing changes =>
    refine ⟨_, _, _, _, changes, ?_, by simp, by simp, by simp⟩
    exact sameCase (Table.get_eq_some.1 taken.base).1 ⟨rfl, rfl, rfl, rfl, rfl⟩
  | @decided env case c ps source s _ _ taken action outbox audit changes =>
    have same := taken.same past
    have here : ∃ c' ∈ d'.cases, c'.id = case.id ∧ c'.merchantId = case.merchantId :=
      ⟨_, changes.case_mem, same.id, same.merchantId⟩
    have here' : ∃ c' ∈ d'.cases, c'.id.str = case.id.str ∧ c'.merchantId = case.merchantId :=
      here.imp fun c' h => ⟨h.1, congrArg Uuid.str h.2.1, h.2.2⟩
    refine ⟨_, _, _, _, changes, ?_, fun a ha => .inr ?_, fun o ho => ?_,
      single _ (.inl ⟨rfl, here'⟩)⟩
    · exact sameCase (Table.get_eq_some.1 taken.base).1 ⟨rfl, rfl, rfl, rfl, rfl⟩
    · exact List.mem_singleton.1 ha ▸ here
    · obtain ⟨row, hrow, ho⟩ := List.mem_filterMap.1 ho
      unfold scheduledRows at hrow
      split at hrow
      · obtain rfl := List.mem_singleton.1 hrow
        cases ho
        exact here'
      · cases hrow
  | cancelled held stop audit changes =>
    exact ⟨_, _, _, _, changes, fun c hc => .inl (stop.same c hc),
      sameAction (Table.get_eq_some.1 held.base).1 ⟨rfl, rfl, rfl, rfl, rfl, rfl⟩, by simp,
      single _ (held.tells past grows _ _)⟩
  | claimed held open_ audit changes =>
    exact ⟨_, _, _, _, changes, by simp,
      sameAction (Table.get_eq_some.1 held.base).1 ⟨rfl, rfl, rfl, rfl, rfl, rfl⟩, by simp,
      single _ (held.tells past grows _ _)⟩
  | executed carries found executing moves base audit changes =>
    exact ⟨_, _, _, _, changes, fun c hc => .inl (moves.same c hc),
      sameAction (Table.get_eq_some.1 base).1 ⟨rfl, rfl, rfl, rfl, rfl, rfl⟩, by simp,
      single _ (past.tellsFound grows backed carries found _ _)⟩
  | failed carries found executing base audit changes =>
    exact ⟨_, _, _, _, changes, by simp,
      sameAction (Table.get_eq_some.1 base).1 ⟨rfl, rfl, rfl, rfl, rfl, rfl⟩, by simp,
      single _ (past.tellsFound grows backed carries found _ _)⟩
  | @created env merchant entity amountMinor currency payment prs payload ors correlationId
    _ _ pay absent
      audited event changes payments =>
    have here : ∃ c ∈ d'.cases, c.id.str = (newCase env merchant entity payment).id.str ∧
        c.merchantId = merchant.id := ⟨_, changes.case_mem, rfl, rfl⟩
    refine ⟨_, _, _, _, changes, fun c hc => .inr ?_, by simp, event.belongs here,
      single _ (.inl ⟨rfl, here⟩)⟩
    obtain rfl := List.mem_singleton.1 hc
    have present := WritesPayment.present past pay rfl fun _ => rfl
    rwa [← payments] at present
  | activated found status base audited event changes =>
    obtain ⟨t₀, h₀, hc⟩ := found
    exact absurd status ((past.sound h₀).notFailed _ (Table.mem_of_find hc).1)
  | @recovered env merchant entity amountMinor currency inbox payment case r prs cancels payload ors
      correlationId _ _ pay chosen recovers audited event changes =>
    have owner := chosen.merchant past pay
    obtain ⟨t₀, h₀, hc⟩ := chosen.read
    have same := past.same_case h₀ hc recovers.base
    have here : ∃ c ∈ d'.cases, c.id.str = case.id.str ∧ c.merchantId = merchant.id :=
      ⟨_, changes.case_mem, congrArg Uuid.str same.id, same.merchantId.trans owner⟩
    refine ⟨_, _, _, _, changes, ?_, fun a ha => .inl ?_, event.belongs here,
      single _ (.inl ⟨rfl, here⟩)⟩
    · exact sameCase (Table.get_eq_some.1 recovers.base).1 ⟨rfl, rfl, rfl, rfl, rfl⟩
    · obtain ⟨a₀, ha₀, rfl⟩ := List.mem_map.1 ha
      exact ⟨a₀, (Table.get_eq_some.1 (recovers.actions a₀ ha₀)).1, rfl, rfl, rfl, rfl, rfl, rfl⟩

/-! ## Single decisions -/

/-- No action, decision or scheduled event was added between `d` and `d'`. -/
structure Undecided (d d' : Db) : Prop where
  actions : ∀ a ∈ d'.actions, ∃ a₀ ∈ d.actions, a₀.Same a
  decisions : ∀ x ∈ d'.audits, x.eventType = decisionEvent → x ∈ d.audits
  scheduled : ∀ o ∈ d'.outbox, o.eventType = scheduledEvent → o ∈ d.outbox

theorem Db.Changes.undecided {d d' : Db} {cs : List RecoveryCase} {as : List RecoveryAction}
    {os : List OutboxEvent} {xs : List AuditEvent} (changes : d.Changes d' cs as os xs)
    (actions : ∀ a ∈ as, ∃ a₀ ∈ d.actions, a₀.Same a)
    (scheduled : ∀ o ∈ os, o.eventType ≠ scheduledEvent)
    (decisions : ∀ x ∈ xs, x.eventType ≠ decisionEvent) : Undecided d d' where
  actions a ha := by
    rcases Table.mem_or_of_mem_putAll (changes.actions ▸ ha) with written | old
    · exact actions a written
    · exact ⟨a, old, .refl a⟩
  decisions x hx type :=
    (Table.mem_or_of_mem_putAll (changes.audits ▸ hx)).resolve_left fun written =>
      decisions x written type
  scheduled o ho type :=
    (Table.mem_or_of_mem_putAll (changes.outbox ▸ ho)).resolve_left fun written =>
      scheduled o written type

theorem Ensures.type {event : OutboxEvent} {ors : List Row} (h : Ensures db R event ors t) :
    ∀ o ∈ outboxOf ors, o.eventType = event.eventType := by
  cases h with
  | present => simp
  | inserted => exact fun o ho => List.mem_singleton.1 ho ▸ rfl

theorem Moves.status {new : RecoveryCaseStatus} {case : RecoveryCase} {rows : List Row}
    (h : Moves db R new case rows t) : ∀ c ∈ casesOf rows, c.status = new := by
  cases h with
  | skipped => simp
  | moved => exact fun c hc => List.mem_singleton.1 hc ▸ rfl

theorem patchCase_recovered_status {case : RecoveryCase} (h : case.status.isTerminal = false)
    (r : RecoveryCase) : (Db.patchCase case (case.become .recovered) r).status = .recovered := by
  have : case.status ≠ .recovered := by rintro e; rw [e] at h; cases h
  simp [Db.patchCase, Db.changed, RecoveryCase.become, this]

/-- The case rows of a commit: none is `FAILED`, and only a new one is `ELIGIBLE`. -/
def Settled (d : Db) (cs : List RecoveryCase) : Prop :=
  ∀ c ∈ cs, c.status ≠ .failed ∧ (c.status = .eligible → d.cases.get c.id = none)

theorem settled_of_status {d : Db} {cs : List RecoveryCase} (status : RecoveryCaseStatus)
    (h : ∀ c ∈ cs, c.status = status) (ne : status ≠ .eligible ∧ status ≠ .failed) : Settled d cs :=
  fun c hc => ⟨h c hc ▸ ne.2, fun e => absurd (h c hc ▸ e) ne.1⟩

/-- A commit either decides nothing, or is the commit that decides. -/
theorem Work.decides [PyLib] (h : Work db R allows carried d' t) (past : Past db R t) :
    ∃ cs as os xs, (db t).Changes d' cs as os xs ∧ Settled (db t) cs ∧ (Undecided (db t) d' ∨
      ∃ env case c ps source s, Taken db R env case c ps t ∧ cs = [c.decided s env.now] ∧
        as = [newAction env case s.finalAction] ∧ os = outboxOf (scheduledRows env case s) ∧
        xs = [decisionAudit env case source s]) := by
  have audit : ∀ {env action case eventType payload}, eventType ≠ decisionEvent →
      ∀ x ∈ [actionAudit env case action eventType payload], x.eventType ≠ decisionEvent :=
    fun ne x hx => List.mem_singleton.1 hx ▸ ne
  have event : ∀ {event : OutboxEvent} {ors}, Ensures db R event ors t →
      event.eventType ≠ scheduledEvent →
      ∀ o ∈ outboxOf ors, o.eventType ≠ scheduledEvent :=
    fun ensures ne o ho => ensures.type o ho ▸ ne
  have same : ∀ {a₀ a : RecoveryAction}, a₀ ∈ (db t).actions → a₀.Same a →
      ∀ a' ∈ [a], ∃ a₀ ∈ (db t).actions, a₀.Same a' :=
    fun ha h a' ha' => List.mem_singleton.1 ha' ▸ ⟨_, ha, h⟩
  have none : ∀ {α : Type} {P : α → Prop}, ∀ a ∈ ([] : List α), P a := fun a ha => nomatch ha
  cases h with
  | quiet changes => exact ⟨_, _, _, _, changes, none, .inl (changes.undecided none none none)⟩
  | noted carries found _ absent changes =>
    exact ⟨_, _, _, _, changes, none, .inl (changes.undecided none none
      (audit (by simp [decisionEvent])))⟩
  | blocked taken existing changes =>
    exact ⟨_, _, _, _, changes, settled_of_status _ (fun c hc => List.mem_singleton.1 hc ▸ rfl)
      (by decide : RecoveryCaseStatus.analysing ≠ .eligible ∧ _),
      .inl (changes.undecided none none none)⟩
  | @decided env case c ps source s _ _ taken action outbox absent changes =>
    exact ⟨_, _, _, _, changes, settled_of_status s.finalStatus
      (fun c hc => congrArg RecoveryCase.status (List.mem_singleton.1 hc)) (finalStatus_ne s),
        .inr ⟨_, _, _, _, _, _, taken, rfl, rfl, rfl, rfl⟩⟩
  | cancelled held stop absent changes =>
    exact ⟨_, _, _, _, changes, settled_of_status _ stop.status (by decide), .inl (changes.undecided
      (same (Table.get_eq_some.1 held.base).1 ⟨rfl, rfl, rfl, rfl, rfl, rfl⟩) none
      (audit (by simp [decisionEvent])))⟩
  | claimed held open_ absent changes =>
    exact ⟨_, _, _, _, changes, none, .inl (changes.undecided
      (same (Table.get_eq_some.1 held.base).1 ⟨rfl, rfl, rfl, rfl, rfl, rfl⟩) none
      (audit (by simp [decisionEvent])))⟩
  | executed carries found executing moves base absent changes =>
    exact ⟨_, _, _, _, changes, settled_of_status _ moves.status (by decide),
      .inl (changes.undecided
      (same (Table.get_eq_some.1 base).1 ⟨rfl, rfl, rfl, rfl, rfl, rfl⟩) none
      (audit (by simp [decisionEvent])))⟩
  | failed carries found executing base absent changes =>
    exact ⟨_, _, _, _, changes, none, .inl (changes.undecided
      (same (Table.get_eq_some.1 base).1 ⟨rfl, rfl, rfl, rfl, rfl, rfl⟩) none
      (audit (by simp [decisionEvent])))⟩
  | created pay absent audited ensures changes payments =>
    refine ⟨_, _, _, _, changes, fun c hc => ?_, .inl (changes.undecided none
      (event ensures (by simp [eligibleOutbox, caseOutbox, scheduledEvent])) fun x hx => ?_)⟩
    · obtain rfl := List.mem_singleton.1 hc
      exact ⟨by simp [RecoveryCase.become], fun _ => absent.case⟩
    · obtain rfl := List.mem_singleton.1 hx
      simp [caseAudit, decisionEvent]
  | activated found status base audited ensures changes =>
    obtain ⟨t₀, h₀, hc⟩ := found
    exact absurd status ((past.sound h₀).notFailed _ (Table.mem_of_find hc).1)
  | recovered pay chosen recovers audited ensures changes =>
    refine ⟨_, _, _, _, changes, settled_of_status _ (fun c hc => List.mem_singleton.1 hc ▸
      patchCase_recovered_status recovers.nonterminal _) (by decide), .inl (changes.undecided
      (fun a ha => ?_) (event ensures (by simp [recoveredOutbox, caseOutbox, scheduledEvent]))
      fun x hx => ?_)⟩
    · obtain ⟨a₀, ha₀, rfl⟩ := List.mem_map.1 ha
      exact ⟨a₀, (Table.get_eq_some.1 (recovers.actions a₀ ha₀)).1, rfl, rfl, rfl, rfl, rfl, rfl⟩
    · obtain rfl := List.mem_singleton.1 hx
      simp [caseAudit, decisionEvent]

/-- A case that is not in the table has no action, event or decision. -/
theorem Db.Sound.none_of_absent {d : Db} (sound : d.Sound) {id : Uuid}
    (absent : d.cases.get id = none) :
    (∀ a ∈ d.actions, a.recoveryCaseId ≠ id) ∧ (∀ o ∈ d.outbox, o.aggregateId ≠ id.str) ∧
      ∀ x ∈ d.audits, x.eventType = decisionEvent → x.entityId ≠ id.str := by
  rw [Table.get_eq_none] at absent
  refine ⟨fun a ha h => ?_, fun o ho h => ?_, fun x hx type h => ?_⟩
  · obtain ⟨c, hc, hid, -⟩ := sound.action a ha
    exact absent c hc (hid.trans h)
  · obtain ⟨c, hc, hid, -⟩ := sound.outbox o ho
    exact absent c hc (Uuid.str_injective (hid.trans h))
  · have entity := sound.decisionEntity x hx type
    rcases sound.audit x hx with ⟨-, c, hc, hid, -⟩ | ⟨other, -⟩
    · exact absent c hc (Uuid.str_injective (hid.trans h))
    · rw [entity] at other
      simp at other

/-- An eligible case has no action, scheduled event or decision. -/
theorem Db.Sound.none_of_eligible {d : Db} (sound : d.Sound) {c : RecoveryCase} (hc : c ∈ d.cases)
    (status : c.status = .eligible) : (∀ a ∈ d.actions, a.recoveryCaseId ≠ c.id) ∧
      (∀ o ∈ d.outbox, o.eventType = scheduledEvent → o.aggregateId ≠ c.id.str) ∧
      ∀ x ∈ d.audits, x.eventType = decisionEvent → x.entityId ≠ c.id.str :=
  ⟨fun a ha h => sound.acted a ha c hc h.symm status,
    fun o ho type h => sound.scheduled o ho type c hc h.symm status,
    fun x hx type h => sound.decided x hx type c hc h.symm status⟩

/-- What an eligible case of `d'` had in `d`. -/
theorem Db.Changes.none_of_eligible {d : Db} {cs : List RecoveryCase} {as : List RecoveryAction}
    {os : List OutboxEvent} {xs : List AuditEvent} (changes : d.Changes d' cs as os xs)
    (settled : Settled d cs) (sound : d.Sound) {c : RecoveryCase} (hc : c ∈ d'.cases)
    (status : c.status = .eligible) : (∀ a ∈ d.actions, a.recoveryCaseId ≠ c.id) ∧
      (∀ o ∈ d.outbox, o.eventType = scheduledEvent → o.aggregateId ≠ c.id.str) ∧
      ∀ x ∈ d.audits, x.eventType = decisionEvent → x.entityId ≠ c.id.str := by
  rcases Table.mem_or_of_mem_putAll (changes.cases ▸ hc) with written | old
  · obtain ⟨actions, outbox, audits⟩ := sound.none_of_absent ((settled c written).2 status)
    exact ⟨actions, fun o ho _ => outbox o ho, audits⟩
  · exact sound.none_of_eligible old status

theorem Db.Changes.notFailed {d : Db} {cs : List RecoveryCase} {as : List RecoveryAction}
    {os : List OutboxEvent} {xs : List AuditEvent} (changes : d.Changes d' cs as os xs)
    (settled : Settled d cs) (sound : d.Sound) : ∀ c ∈ d'.cases, c.status ≠ .failed := fun c hc =>
  (Table.mem_or_of_mem_putAll (changes.cases ▸ hc)).elim (fun written => (settled c written).1)
    (sound.notFailed c)

/-- Where nothing is decided, the old rows account for everything. -/
theorem Undecided.once {d : Db} {cs : List RecoveryCase} {as : List RecoveryAction}
    {os : List OutboxEvent} {xs : List AuditEvent} (h : Undecided d d') (sound : d.Sound)
    (changes : d.Changes d' cs as os xs) (settled : Settled d cs) : d'.Once where
  notFailed := changes.notFailed settled sound
  acted a ha c hc id status := by
    obtain ⟨a₀, ha₀, same⟩ := h.actions a ha
    exact (changes.none_of_eligible settled sound hc status).1 a₀ ha₀
      (same.recoveryCaseId.symm.trans id.symm)
  decisionEntity x hx type := sound.decisionEntity x (h.decisions x hx type) type
  decided x hx type c hc id status :=
    (changes.none_of_eligible settled sound hc status).2.2 x (h.decisions x hx type) type id.symm
  scheduled o ho type c hc id status :=
    (changes.none_of_eligible settled sound hc status).2.1 o (h.scheduled o ho type) type id.symm
  oneAction a ha b hb same := by
    obtain ⟨a₀, ha₀, hsa⟩ := h.actions a ha
    obtain ⟨b₀, hb₀, hsb⟩ := h.actions b hb
    have : a₀ = b₀ := sound.oneAction a₀ ha₀ b₀ hb₀
      (hsa.recoveryCaseId.symm.trans (same.trans hsb.recoveryCaseId))
    exact Table.eq_of_key ha hb (hsa.id.trans (this ▸ hsb.id.symm))
  oneDecision x hx y hy tx ty same :=
    sound.oneDecision x (h.decisions x hx tx) y (h.decisions y hy ty) tx ty same
  oneScheduled o ho p hp type type' same :=
    sound.oneScheduled o (h.scheduled o ho type) p (h.scheduled p hp type') type type' same

theorem mem_scheduledRows {env : Draws} {case : RecoveryCase} {s : Selection} {o : OutboxEvent}
    (h : o ∈ outboxOf (scheduledRows env case s)) : o = actionScheduledOutbox env case
      (newAction env case s.finalAction) (s.nextActionAt env.now) := by
  obtain ⟨row, hrow, ho⟩ := List.mem_filterMap.1 h
  unfold scheduledRows at hrow
  split at hrow
  · obtain rfl := List.mem_singleton.1 hrow
    exact (Option.some.inj ho).symm
  · cases hrow

/-- The commit that decides finds nothing decided. -/
theorem Taken.once {env : Draws} {case c : RecoveryCase} {ps : List Row} {source : String}
    {s : Selection} (taken : Taken db R env case c ps t) (sound : (db t).Sound)
    (changes : (db t).Changes d' [c.decided s env.now] [newAction env case s.finalAction]
      (outboxOf (scheduledRows env case s)) [decisionAudit env case source s])
    (settled : Settled (db t) [c.decided s env.now]) : d'.Once := by
  obtain ⟨hc, id⟩ := Table.get_eq_some.1 taken.base
  have id : c.id = case.id := id
  obtain ⟨noActions, noEvents, noDecisions⟩ := sound.none_of_eligible hc taken.status
  have actions : ∀ a ∈ d'.actions, a = newAction env case s.finalAction ∨ a ∈ (db t).actions :=
    fun a ha => (Table.mem_or_of_mem_putAll (changes.actions ▸ ha)).imp_left List.mem_singleton.1
  have audits : ∀ x ∈ d'.audits, x = decisionAudit env case source s ∨ x ∈ (db t).audits :=
    fun x hx => (Table.mem_or_of_mem_putAll (changes.audits ▸ hx)).imp_left List.mem_singleton.1
  have outbox : ∀ o ∈ d'.outbox, o =
      actionScheduledOutbox env case (newAction env case s.finalAction)
      (s.nextActionAt env.now) ∨ o ∈ (db t).outbox :=
    fun o ho => (Table.mem_or_of_mem_putAll (changes.outbox ▸ ho)).imp_left mem_scheduledRows
  -- The decided case itself is not eligible any more.
  have moved : ∀ c' ∈ d'.cases, c'.status = .eligible → c'.id ≠ case.id := by
    intro c' hc' status same
    have : c' = c.decided s env.now := Table.eq_of_key hc' changes.case_mem (same.trans id.symm)
    rw [this] at status
    exact (finalStatus_ne s).1 status
  have before := fun {c'} => changes.none_of_eligible settled sound (c := c')
  constructor
  · exact changes.notFailed settled sound
  · intro a ha c' hc' same status
    rcases actions a ha with rfl | old
    · exact moved c' hc' status same
    · exact (before hc' status).1 a old same.symm
  · intro x hx type
    rcases audits x hx with rfl | old
    · rfl
    · exact sound.decisionEntity x old type
  · intro x hx type c' hc' same status
    rcases audits x hx with rfl | old
    · exact moved c' hc' status (Uuid.str_injective same)
    · exact (before hc' status).2.2 x old type same.symm
  · intro o ho type c' hc' same status
    rcases outbox o ho with rfl | old
    · exact moved c' hc' status (Uuid.str_injective same)
    · exact (before hc' status).2.1 o old type same.symm
  · intro a ha b hb same
    rcases actions a ha with rfl | oldA <;> rcases actions b hb with rfl | oldB
    · rfl
    · exact absurd (id ▸ same.symm) (noActions b oldB)
    · exact absurd (id ▸ same) (noActions a oldA)
    · exact sound.oneAction a oldA b oldB same
  · intro x hx y hy tx ty same
    rcases audits x hx with rfl | oldX <;> rcases audits y hy with rfl | oldY
    · rfl
    · exact absurd (id ▸ same.symm) (noDecisions y oldY ty)
    · exact absurd (id ▸ same) (noDecisions x oldX tx)
    · exact sound.oneDecision x oldX y oldY tx ty same
  · intro o ho p hp type type' same
    rcases outbox o ho with rfl | oldO <;> rcases outbox p hp with rfl | oldP
    · rfl
    · exact absurd (id ▸ same.symm) (noEvents p oldP type')
    · exact absurd (id ▸ same) (noEvents o oldO type)
    · exact sound.oneScheduled o oldO p oldP type type' same

/-- A sound database stays sound. -/
theorem Work.sound [PyLib] (h : Work db R allows carried d' t) (past : Past db R t)
    (grows : (db t).Grows d') (backed : Backed db R carried t) : d'.Sound := by
  obtain ⟨_, _, _, _, changes, belongs⟩ := h.belongs past grows backed
  have coherent := belongs.coherent changes grows (past.sound past.now).toCoherent
  obtain ⟨_, _, _, _, changes, settled,
    undecided | ⟨_, _, _, _, _, _, taken, rfl, rfl, rfl, rfl⟩⟩ :=
    h.decides past
  · exact ⟨coherent, undecided.once (past.sound past.now) changes settled⟩
  · exact ⟨coherent, taken.once (past.sound past.now) changes settled⟩

end RecoverAI
