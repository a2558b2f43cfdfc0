import RecoverAI.Concurrency.StaleClaims
import RecoverAI.Runs.Lifecycle

/-!
# Captured events

What an accepted `payment.captured` event leaves for the rest of a run when transactions are atomic.
A captured payment and a terminal case are never touched again, and no case is opened for a captured
payment. The event reaches one case: the one its notes name, and only without one the payment's own.
-/
namespace RecoverAI

open Store

/-- What no turn undoes. -/
structure Db.Keeps (d d' : Db) : Prop where
  captured : ∀ p ∈ d.payments, p.status = .captured → p ∈ d'.payments
  terminal : ∀ c ∈ d.cases, c.status.isTerminal → ∃ c' ∈ d'.cases, c'.id = c.id ∧
    (c'.status = .recovered ∨ c' = c)
  unopened : ∀ p ∈ d.payments, p.status = .captured → ∀ c' ∈ d'.cases, c'.paymentId = p.id →
    ∃ c ∈ d.cases, c.Same c'

/-- A payment has one row, under its id as the table stores it, and one case. -/
structure Db.Single (d : Db) : Prop where
  texts : ∀ p ∈ d.payments, assigned 128 p.providerPaymentId = p.providerPaymentId
  payments : ∀ p ∈ d.payments, ∀ q ∈ d.payments, p.merchantId = q.merchantId →
    p.provider = q.provider →
    p.providerPaymentId = q.providerPaymentId → p = q
  cases : ∀ c ∈ d.cases, ∀ c' ∈ d.cases, c.paymentId = c'.paymentId → c = c'

/-- The payment is captured and its case, if there is one, terminal. -/
def Db.Final (d : Db) (merchantId : Uuid) (id : String) : Prop :=
  ∃ p, d.paymentOf merchantId id = some p ∧ p.status = .captured ∧
    ∀ c ∈ d.cases, c.paymentId = p.id → c.status.isTerminal

/-- The notes name a case of the merchant, but not the payment's own one, which is open. -/
def Db.Diverts [PyText] (d : Db) (merchantId : Uuid) (entity : RazorpayPaymentEntity) : Prop :=
  ∃ p own key c, d.paymentOf merchantId entity.id = some p ∧ d.caseOf p.id = some own ∧
    own.status.isTerminal = false ∧ notedCaseId entity = some key ∧ key ≠ own.id ∧
      d.cases.get key = some c ∧
    c.merchantId = merchantId

section

variable {d d' d'' : Db}

theorem Db.Keeps.refl (d : Db) : d.Keeps d where
  captured _ hp _ := hp
  terminal c hc _ := ⟨c, hc, rfl, .inr rfl⟩
  unopened _ _ _ c hc _ := ⟨c, hc, .refl c⟩

theorem Db.Keeps.trans (h : d.Keeps d') (h' : d'.Keeps d'') : d.Keeps d'' where
  captured p hp captured := h'.captured p (h.captured p hp captured) captured
  terminal c hc terminal := by
    obtain ⟨c', hc', id, next⟩ := h.terminal c hc terminal
    have terminal' : c'.status.isTerminal := by
      rcases next with recovered | rfl
      · rw [recovered]
        rfl
      · exact terminal
    obtain ⟨c'', hc'', id', next'⟩ := h'.terminal c' hc' terminal'
    refine ⟨c'', hc'', id'.trans id, ?_⟩
    rcases next' with recovered | rfl
    · exact .inl recovered
    · exact next
  unopened p hp captured c'' hc'' own := by
    obtain ⟨c', hc', same'⟩ := h'.unopened p (h.captured p hp captured) captured c'' hc'' own
    obtain ⟨c, hc, same⟩ := h.unopened p hp captured c' hc' (same'.paymentId.symm.trans own)
    exact ⟨c, hc, same.trans same'⟩

theorem Db.paymentOf_of_mem (single : d.Single) {p : Payment} (hp : p ∈ d.payments)
    (provider : p.provider = "razorpay") :
    d.paymentOf p.merchantId p.providerPaymentId = some p := by
  refine Table.find_eq_some_of_unique hp (by simp [provider]) fun q hq same => ?_
  simp only [Bool.and_eq_true, decide_eq_true_eq] at same
  exact single.payments q hq p hp same.1.1 (same.1.2.trans provider.symm) same.2

theorem Db.caseOf_of_mem (single : d.Single) {c : RecoveryCase} (hc : c ∈ d.cases) :
    d.caseOf c.paymentId = some c :=
  Table.find_eq_some_of_unique hc (by simp) fun c' hc' same =>
    single.cases c' hc' c hc (of_decide_eq_true same)

end

/-! ## Steps -/

section

variable {d : Db} {env : Draws} {merchantId : Uuid} {key : String} {new payment : Payment}
  {update : Payment → Payment} {prs : List Row}

theorem recaptured_id (env : Draws) (p : Payment) : (recaptured env p).id = p.id := by
  unfold recaptured
  split <;> rfl

theorem recaptured_status (env : Draws) (p : Payment) : (recaptured env p).status = .captured := by
  unfold recaptured
  split
  next captured => exact captured
  next => rfl

/-- The writes of a payment leave the other payments alone. -/
theorem WritesPayment.frame
    (pay : WritesPayment id World.Alone merchantId key new update payment prs d)
    (keeps : ∀ p, (update p).id = p.id) {p : Payment} (hp : p ∈ d.payments)
    (other : p.id ≠ payment.id) : p ∈ d.payments.putAll (paymentsOf prs) := by
  refine Table.mem_putAll_of_free hp fun r hr same => ?_
  cases pay with
  | inserted =>
    obtain rfl : r = new.assigned := List.mem_singleton.1 hr
    exact other same.symm
  | kept => cases hr
  | @updated old r' _ read base =>
    obtain rfl := List.mem_singleton.1 hr
    have id : r'.id = old.id := (Table.get_eq_some.1 base).2
    exact other (same.symm.trans (id.trans (keeps old).symm))

/-- The payment a handler goes on with is new, or the row it read. -/
theorem WritesPayment.source
    (pay : WritesPayment id World.Alone merchantId key new update payment prs d) :
    (payment = new ∧ prs = [.payment new.assigned] ∧ d.Absent (.payment new.assigned) ∧
        d.paymentOf merchantId key = none) ∨
      ∃ old, d.paymentOf merchantId key = some old ∧ payment = update old ∧
        (prs = [] ∧ update old = old ∨
          prs = [.payment (Db.patchPayment old (update old) old)]) := by
  cases pay with
  | inserted unknown absent =>
    obtain ⟨_, rfl, unknown⟩ := unknown
    exact .inl ⟨rfl, rfl, absent, unknown⟩
  | kept read same =>
    obtain ⟨_, rfl, read⟩ := read
    exact .inr ⟨_, read, same.symm, .inl ⟨rfl, same⟩⟩
  | updated read base =>
    obtain ⟨_, rfl, read⟩ := read
    obtain rfl := Option.some.inj ((Table.get_of_mem (Table.mem_of_find read).1).symm.trans base)
    exact .inr ⟨_, read, rfl, .inr rfl⟩

end

section

variable {d d' : Db} {allows : Db → Stmt → Prop} {settings : Settings} {env : Draws}
  {merchant : Merchant} {entity : RazorpayPaymentEntity} {amountMinor : Int} {currency : String}
  {payment : Payment} {prs us : List Row}

theorem Db.Final.keeps {merchantId : Uuid} {id : String} (h : d.Final merchantId id)
    (keeps : d.Keeps d') (single : d'.Single) : d'.Final merchantId id := by
  obtain ⟨p, found, captured, closed⟩ := h
  obtain ⟨hp, merchant, provider, key⟩ := Db.paymentOf_eq_some found
  have hp' := keeps.captured p hp captured
  refine ⟨p, ?_, captured, fun c' hc' own => ?_⟩
  · rw [← merchant, ← key]
    exact Db.paymentOf_of_mem single hp' provider
  · obtain ⟨c, hc, same⟩ := keeps.unopened p hp captured c' hc' own
    have terminal := closed c hc (same.paymentId.symm.trans own)
    obtain ⟨c'', hc'', id, next⟩ := keeps.terminal c hc terminal
    obtain rfl : c' = c'' := Table.eq_of_key hc' hc'' (same.id.trans id.symm)
    rcases next with recovered | rfl
    · rw [recovered]
      rfl
    · exact terminal

/-- A failed event does not go on with a captured payment. -/
theorem Uncaptured.other (uncaptured : Uncaptured id World.Alone merchant entity d)
    (pay : WritesFailed id World.Alone env merchant entity amountMinor currency payment prs d)
    {p : Payment} (hp : p ∈ d.payments) (captured : p.status = .captured) : p.id ≠ payment.id := by
  obtain ⟨_, rfl, uncaptured⟩ := uncaptured
  intro same
  rcases pay.source with ⟨rfl, -, absent, -⟩ | ⟨old, read, rfl, -⟩
  · exact Table.get_eq_none.1 absent.payment p hp same
  · obtain rfl : p = old := Table.eq_of_key hp (Table.mem_of_find read).1 same
    exact uncaptured p read captured

/-- A captured event leaves a captured payment as it is. -/
theorem WritesCaptured.keeps
    (pay : WritesCaptured id World.Alone env merchant entity amountMinor currency payment prs d)
    {p : Payment} (hp : p ∈ d.payments) (captured : p.status = .captured) :
    p ∈ d.payments.putAll (paymentsOf prs) := by
  by_cases same : p.id = payment.id
  · rcases pay.source with ⟨rfl, -, absent, -⟩ | ⟨old, read, rfl, rows⟩
    · exact absurd same (Table.get_eq_none.1 absent.payment p hp)
    · obtain rfl : p = old :=
        Table.eq_of_key hp (Table.mem_of_find read).1 (same.trans (recaptured_id env old))
      have kept : recaptured env p = p := if_pos captured
      rcases rows with ⟨rfl, -⟩ | rfl
      · exact hp
      · refine Table.mem_put.2 (.inl ?_)
        rw [kept]
        simp [Db.patchPayment, Db.changedText]
  · exact pay.frame (recaptured_id env) hp same

/-- What a captured event makes of its payment. -/
theorem WritesCaptured.captures
    (pay : WritesCaptured id World.Alone env merchant entity amountMinor currency payment prs d)
    (single : d.Single) :
    ∃ p ∈ d.payments.putAll (paymentsOf prs), p.id = payment.id ∧ p.merchantId = merchant.id ∧
      p.provider = "razorpay" ∧ p.providerPaymentId = assigned 128 entity.id ∧
        p.status = .captured := by
  rcases pay.source with ⟨rfl, rfl, -, -⟩ | ⟨old, read, rfl, rows⟩
  · exact ⟨_, Table.mem_put.2 (.inl rfl), rfl, rfl, rfl, rfl, rfl⟩
  · obtain ⟨hp, own, provider, key⟩ := Db.paymentOf_eq_some read
    have key : old.providerPaymentId = assigned 128 entity.id :=
      (single.texts old hp).symm.trans (congrArg _ key)
    rcases rows with ⟨rfl, same⟩ | rfl
    · exact ⟨old, hp, by rw [same], own, provider, key, same ▸ recaptured_status env old⟩
    · refine ⟨_, Table.mem_put.2 (.inl rfl), (recaptured_id env old).symm, own, provider, key, ?_⟩
      simp [Db.patchPayment, recaptured_status]

/-- The payment a captured event goes on with is the merchant's row of that payment. -/
theorem WritesCaptured.known
    (pay : WritesCaptured id World.Alone env merchant entity amountMinor currency payment prs d)
    {p : Payment} (hp : p ∈ d.payments) :
    d.paymentOf merchant.id entity.id = some p ↔ p.id = payment.id := by
  rcases pay.source with ⟨rfl, -, absent, unknown⟩ | ⟨old, read, rfl, -⟩
  · constructor
    · intro read
      rw [unknown] at read
      cases read
    · exact fun same => absurd same (Table.get_eq_none.1 absent.payment p hp)
  · rw [recaptured_id, read, Option.some.injEq]
    constructor
    · exact fun same => same ▸ rfl
    · exact fun same => (Table.eq_of_key hp (Table.mem_of_find read).1 same).symm

variable [PyLib]

theorem Commits.captured {p q : Process} (h : Commits id World.Alone settings allows p us q d)
    {x : Payment} (hx : x ∈ d.payments) (captured : x.status = .captured) :
    x ∈ (view d us).payments := by
  rw [view_payments]
  rcases h.webhook_or with ⟨_, _, _, -, -, effect⟩ | ⟨none, -⟩
  · rcases effect.pays with none | ⟨_, _, _, _, _, _, rows, ⟨pay, uncaptured⟩ | pay⟩
    · exact none ▸ hx
    · exact rows ▸ pay.frame (fun _ => rfl) hx (Uncaptured.other uncaptured pay hx captured)
    · exact rows ▸ WritesCaptured.keeps pay hx captured
  · exact none ▸ hx

/-- A case that is opened belongs to no captured payment. -/
theorem Work.opening {carried : Option Claim} (h : Work id World.Alone allows carried d' d)
    (sound : d.Sound) :
    (∀ c' ∈ d'.cases, ∃ c ∈ d.cases, c.Same c') ∨ ∃ new, d'.cases = d.cases.put new ∧
      (∀ c ∈ d.cases, c.paymentId ≠ new.paymentId) ∧
      ∀ p ∈ d.payments, p.status = .captured → new.paymentId ≠ p.id := by
  have old : ∀ {cs as os xs}, d.Changes d' cs as os xs → (∀ c' ∈ cs, ∃ c ∈ d.cases, c.Same c') →
      ∀ c' ∈ d'.cases, ∃ c ∈ d.cases, c.Same c' := by
    intro cs as os xs changes written c' hc'
    rcases Table.mem_or_of_mem_putAll (changes.cases ▸ hc') with new | kept
    · exact written c' new
    · exact ⟨c', kept, .refl c'⟩
  have single : ∀ {c c' : RecoveryCase} {key : Uuid}, d.cases.get key = some c → c.Same c' →
      ∀ x ∈ [c'], ∃ c ∈ d.cases, c.Same x := by
    intro c c' key base same x hx
    obtain rfl := List.mem_singleton.1 hx
    exact ⟨c, (Table.get_eq_some.1 base).1, same⟩
  cases h with
  | quiet changes | noted _ _ _ _ changes | claimed _ _ _ changes | failed _ _ _ _ _ changes =>
    exact .inl (old changes (by simp))
  | blocked taken _ changes | decided taken _ _ _ changes =>
    exact .inl (old changes (single taken.base ⟨rfl, rfl, rfl, rfl, rfl⟩))
  | cancelled _ stop _ changes => exact .inl (old changes stop.same)
  | executed _ _ _ waiting _ _ changes => exact .inl (old changes waiting.same)
  | @created env merchant entity _ _ payment _ _ _ _ _ _ pay absent _ _ changes _ uncaptured =>
    have free := absent (.caseOf (newCase env merchant entity payment).paymentId)
      (by simp [Row.keys])
    exact .inr ⟨_, changes.cases, free, fun p hp captured same =>
      Uncaptured.other uncaptured pay hp captured same.symm⟩
  | activated found status =>
    obtain ⟨_, rfl, found⟩ := found
    exact absurd status (sound.notFailed _ (Table.mem_of_find found).1)
  | recovered _ _ recovers _ _ changes =>
    exact .inl (old changes (single recovers.base ⟨rfl, rfl, rfl, rfl, rfl⟩))

theorem Commits.keeps {p q : Process} (h : Commits id World.Alone settings allows p us q d)
    (sound : d.Sound) : d.Keeps (view d us) where
  captured _ hp captured := h.captured hp captured
  terminal c hc terminal := by
    obtain ⟨c', hc', same⟩ := h.grows.cases c hc
    exact ⟨c', hc', same.id, h.work.terminal_next (World.past_alone sound) hc terminal hc' same.id⟩
  unopened p hp captured c' hc' own := by
    rcases h.work.opening sound with old | ⟨new, cases, -, uncaptured⟩
    · exact old c' hc'
    · have hc' : c' ∈ d.cases.put new := cases ▸ hc'
      rcases Table.mem_put.1 hc' with rfl | ⟨kept, -⟩
      · exact absurd own (uncaptured p hp captured)
      · exact ⟨c', kept, .refl c'⟩

/-- A new payment has a new key. -/
theorem Commits.paying {p q : Process} (h : Commits id World.Alone settings allows p us q d) :
    (∀ x ∈ (view d us).payments, ∃ x' ∈ d.payments, x'.Same x) ∨ ∃ new : Payment,
      (view d us).payments = d.payments.put new.assigned ∧ d.Absent (.payment new.assigned) := by
  have kept : ∀ {x}, x ∈ d.payments → ∃ x' ∈ d.payments, x'.Same x := fun {x} hx => ⟨x, hx, .refl x⟩
  rw [view_payments]
  rcases h.ingests.1 with none | ⟨_, _, _, _, _, _, pay, rows⟩
  · rw [none]
    exact .inl fun x hx => kept hx
  · rw [rows]
    rcases pay.source with ⟨-, rfl, absent, -⟩ | ⟨old, read, -, ⟨rfl, -⟩ | rfl⟩
    · exact .inr ⟨_, rfl, absent⟩
    · exact .inl fun x hx => kept hx
    · refine .inl fun x hx => ?_
      rcases Table.mem_put.1 hx with rfl | ⟨hx, -⟩
      · exact ⟨old, (Table.mem_of_find read).1, rfl, rfl, rfl, rfl⟩
      · exact kept hx

theorem Commits.single {p q : Process} (h : Commits id World.Alone settings allows p us q d)
    (sound : d.Sound) (single : d.Single) : (view d us).Single where
  texts := by
    intro x hx
    rcases h.paying with old | ⟨new, rows, -⟩
    · obtain ⟨x', hx', same⟩ := old x hx
      rw [same.providerPaymentId]
      exact single.texts x' hx'
    · rcases Table.mem_put.1 (rows ▸ hx) with rfl | ⟨oldX, -⟩
      · exact assigned_assigned 128 new.providerPaymentId
      · exact single.texts x oldX
  payments := by
    intro x hx y hy merchant provider key
    rcases h.paying with old | ⟨new, rows, absent⟩
    · obtain ⟨x', hx', sameX⟩ := old x hx
      obtain ⟨y', hy', sameY⟩ := old y hy
      have : x' = y' :=
        single.payments x' hx' y' hy' (by rw [← sameX.merchantId, merchant, sameY.merchantId])
        (by rw [← sameX.provider, provider, sameY.provider])
        (by rw [← sameX.providerPaymentId, key, sameY.providerPaymentId])
      exact Table.eq_of_key hx hy (sameX.id.trans (this ▸ sameY.id.symm))
    · have free := absent (.paymentOf new.merchantId new.provider new.assigned.providerPaymentId)
        (by simp [Row.keys, Payment.assigned])
      rcases Table.mem_put.1 (rows ▸ hx) with rfl | ⟨oldX, -⟩ <;>
        rcases Table.mem_put.1 (rows ▸ hy) with rfl | ⟨oldY, -⟩
      · rfl
      · exact absurd ⟨merchant.symm, provider.symm, key.symm⟩ (free y oldY)
      · exact absurd ⟨merchant, provider, key⟩ (free x oldX)
      · exact single.payments x oldX y oldY merchant provider key
  cases := by
    intro x hx y hy own
    rcases h.work.opening sound with old | ⟨new, rows, free, -⟩
    · obtain ⟨x', hx', sameX⟩ := old x hx
      obtain ⟨y', hy', sameY⟩ := old y hy
      have : x' = y' := single.cases x' hx' y' hy' (by rw [← sameX.paymentId, own, sameY.paymentId])
      exact Table.eq_of_key hx hy (sameX.id.trans (this ▸ sameY.id.symm))
    · have written : ∀ {z}, z ∈ (view d us).cases → z = new ∨ z ∈ d.cases := fun hz =>
        (Table.mem_put.1 (rows ▸ hz)).imp_right And.left
      rcases written hx with rfl | oldX <;> rcases written hy with rfl | oldY
      · rfl
      · exact absurd own.symm (free y oldY)
      · exact absurd own (free x oldX)
      · exact single.cases x oldX y oldY own

end

/-! ## The case of a captured event -/

/-- A case after a captured event that arrived at it. -/
def RecoveryCase.capture (c : RecoveryCase) : RecoveryCase :=
  if c.status.isTerminal then c else c.become .recovered

theorem RecoveryCase.capture_terminal (c : RecoveryCase) : c.capture.status.isTerminal := by
  unfold RecoveryCase.capture
  split
  next terminal => exact terminal
  next => rfl

section

variable [PyLib] {d : Db} {env : Draws} {merchant : Merchant} {entity : RazorpayPaymentEntity}
  {amountMinor : Int} {currency : String} {inbox : WebhookEvent} {payment : Payment}
  {case : RecoveryCase} {us : List Row}

/-- What a captured event does to the payments and cases. -/
theorem CapturedEffect.outcome
    (effect : CapturedEffect id World.Alone env merchant entity amountMinor currency
      (fun _ _ => True) inbox us d) (e e' : WebhookEvent) : ∃ payment prs,
      WritesCaptured id World.Alone env merchant entity amountMinor currency payment prs d ∧
      (view d (.webhookEvent e :: us ++ [.webhookEvent e'])).payments =
        d.payments.putAll (paymentsOf prs) ∧
      (Unnoted id World.Alone merchant entity d ∧ d.caseOf payment.id = none ∧
          (view d (.webhookEvent e :: us ++ [.webhookEvent e'])).cases = d.cases ∨
        ∃ case, Chosen id World.Alone merchant entity payment case d ∧
          ∀ key, (view d (.webhookEvent e :: us ++ [.webhookEvent e'])).cases.get key =
            if key = case.id then some case.capture else d.cases.get key) := by
  cases effect with
  | @noCase payment _ _ pay none unnoted =>
    obtain ⟨_, rfl, none⟩ := none
    refine ⟨payment, us, pay, ?_, .inl ⟨unnoted, none, ?_⟩⟩
    · simp [view_payments, List.filterMap_cons, Row.payment?]
    · simp [view_cases, List.filterMap_cons, Row.case?, pay.tables]
  | @terminal payment case _ _ pay chosen terminal =>
    obtain ⟨_, rfl, found⟩ := chosen.read
    refine ⟨payment, us, pay, ?_, .inr ⟨case, chosen, fun key => ?_⟩⟩
    · simp [view_payments, List.filterMap_cons, Row.payment?]
    · have same : case.capture = case := if_pos terminal
      simp only [view_cases, List.filterMap_cons, List.filterMap_append, Row.case?,
        pay.tables, same]
      split
      next own => exact own ▸ found
      next => rfl
  | @recovered payment case r prs cancels audit ors correlationId _ pay chosen recovers
    audited event =>
    obtain ⟨rfl, -, found⟩ := recovers.alone chosen
    refine ⟨payment, prs, pay, ?_, .inr ⟨r, chosen, fun key => ?_⟩⟩
    · simp [view_payments, List.filterMap_cons, Row.payment?, event.tables, Function.comp_def]
    · have same : r.capture = r.become .recovered := if_neg (by simp [recovers.nonterminal])
      have rows :
          (view d (.webhookEvent e :: (prs ++ cancels.map (fun a => .action (Db.cancelled a)) ++
          [.recoveryCase (Db.patchCase r (r.become .recovered) r)] ++
          [.audit (caseAudit env merchant r "recovery_case.recovered" correlationId audit)] ++
            ors) ++
          [.webhookEvent e'])).cases = d.cases.put (r.become .recovered) := by
        simp [view_cases, List.filterMap_cons, Row.case?, pay.tables, event.tables,
          Function.comp_def, patchCase_become]
      rw [rows, Table.get_put, same]
      rfl

/-- The notes of a captured event come first. -/
theorem Chosen.of_noted (chosen : Chosen id World.Alone merchant entity payment case d) {key : Uuid}
    {c : RecoveryCase} (noted : notedCaseId entity = some key) (found : d.cases.get key = some c)
    (own : c.merchantId = merchant.id) : case = c := by
  cases chosen with
  | noted named merchantId read =>
    obtain ⟨_, rfl, read⟩ := read
    obtain rfl := Option.some.inj (noted.symm.trans named)
    exact Option.some.inj (read.symm.trans found)
  | own unnoted =>
    obtain ⟨_, rfl, other⟩ := unnoted key noted
    exact absurd own (other c found)

end

/-! ## Runs -/

namespace World

variable [PyLib] {settings : Settings} {u v w : World} {turn : Turn} {request : Request}
  {entity : RazorpayPaymentEntity}

theorem Does.keeps (does : Does settings w turn v) (sound : w.Sound) : w.db.Keeps v.db := by
  cases does with
  | commit at_ code clock run =>
    obtain ⟨us, rfl, commits⟩ := commits_of_run code run
    exact commits.keeps sound.db
  | limits | dispatched => exact { Db.Keeps.refl w.db with }
  | _ => exact .refl w.db

theorem Does.single (does : Does settings w turn v) (sound : w.Sound) (single : w.db.Single) :
    v.db.Single := by
  cases does with
  | commit at_ code clock run =>
    obtain ⟨us, rfl, commits⟩ := commits_of_run code run
    exact commits.single sound.db single
  | limits | dispatched => exact { single with }
  | _ => exact single

theorem Reaches.grows (h : u.Reaches settings w) : u.db.Grows w.db := by
  induction h with
  | refl => exact .refl _
  | step turn _ move ih => exact ih.trans (next_does move).grows

theorem Reaches.keeps (h : u.Reaches settings w) (sound : u.Sound) : u.db.Keeps w.db := by
  induction h with
  | refl => exact .refl _
  | step turn before move ih => exact ih.trans ((next_does move).keeps (before.sound sound))

theorem Reaches.single (h : u.Reaches settings w) (sound : u.Sound) (single : u.db.Single) :
    w.db.Single := by
  induction h with
  | refl => exact single
  | step turn before move ih => exact (next_does move).single (before.sound sound) ih

omit [PyLib] in
theorem single_start (now : Time) (merchants : Table Merchant) (policies : Table MerchantPolicy) :
    (start now merchants policies).db.Single := by
  constructor <;> intro r hr <;> exact absurd hr List.not_mem_nil

/-- A turn accepts a `payment.captured` event about the entity. -/
structure Accepts (settings : Settings) (request : Request) (entity : RazorpayPaymentEntity)
    (u v : World) : Prop where
  event : ∃ webhook, admitRequest settings request = .ok webhook ∧
    webhook.event = "payment.captured" ∧
    extractPaymentEntity webhook = .ok entity
  turn : ∃ pid env response, u.processes[pid]? = some (some (.webhook request)) ∧
    u.next settings (.transact pid env) = some v ∧
      v.processes[pid]? = some (some (.answered response)) ∧
    Json.item response.content "status" = .str "accepted"

omit [PyLib] in
theorem webhookError_refused (e : Err) :
    Json.item (webhookError e).content "status" ≠ .str "accepted" := by
  cases e with
  | db e => cases e <;> simp [webhookError, Response.duplicate, Response.error, Json.item]
  | _ =>
    simp [webhookError, Response.merchantNotFound, Response.duplicate, Response.invalidPayload,
      Response.error, Json.item]

/-- The commit of an accepted event. -/
theorem Accepts.effect (accepts : Accepts settings request entity u v) :
    ∃ env merchant amountMinor currency inbox us, u.db.merchants.get request.merchantId =
      some merchant ∧
      CapturedEffect id Alone env merchant entity amountMinor currency
        (fun _ _ => True) inbox us u.db ∧
      ∃ e e', v.db = view u.db (.webhookEvent e :: us ++ [.webhookEvent e']) := by
  obtain ⟨⟨webhook, admitted, type, extracted⟩, pid, env, response, at_, move, answer,
    accepted⟩ := accepts
  have same : ∀ {p : Process}, u.processes[pid]? = some (some p) → p = .webhook request := fun h =>
    Option.some.inj (Option.some.inj (h.symm.trans at_))
  cases next_does move with
  | commit at' code clock run =>
    obtain rfl := same at'
    obtain ⟨us, rfl, commits⟩ := commits_of_run code run
    cases commits with
    | @webhook _ response env us _ effect =>
      cases effect with
      | rejected reason => exact absurd (admitted.symm.trans reason) nofun
      | recorded admitted' found active absent effect =>
        obtain rfl := Except.ok.inj (admitted.symm.trans admitted')
        obtain ⟨_, rfl, found⟩ := found
        cases effect with
        | ignored unsupported =>
          exact absurd type (by rintro h; simp [h, supportedEvents] at unsupported)
        | failed type' => exact absurd (type.symm.trans type') (by simp)
        | captured _ valid effect =>
          obtain rfl := Except.ok.inj (extracted.symm.trans valid.extracted)
          exact ⟨env, _, _, _, _, _, found, effect, _, _, rfl⟩
  | @abort _ env _ _ _ e at' code run =>
    obtain rfl := same at'
    cases code
    have answered : some (some (.answered (webhookError e))) =
        some (some (Process.answered response)) := by
      have bound : pid < u.processes.length := (List.getElem?_eq_some_iff.1 at_).1
      rw [← answer, World.set, List.getElem?_set_self bound]
    cases answered
    exact absurd accepted (webhookError_refused e)

/-- An accepted event is final at once exactly where it is not led away from
the payment's own case. -/
theorem Accepts.final_iff (accepts : Accepts settings request entity u v) (sound : u.Sound)
    (single : u.db.Single) (single' : v.db.Single) :
    v.db.Final request.merchantId (assigned 128 entity.id) ↔
      ¬ u.db.Diverts request.merchantId entity := by
  obtain ⟨env, merchant, amountMinor, currency, inbox, us, known, effect, e, e', db⟩ :=
    accepts.effect
  have owner : merchant.id = request.merchantId := (Table.get_eq_some.1 known).2
  obtain ⟨payment, prs, pay, payments, reached⟩ := effect.outcome e e'
  rw [← db] at payments reached
  rw [← owner]
  obtain ⟨p, hp, id, own, provider, key, captured⟩ := WritesCaptured.captures pay single
  rw [← payments] at hp
  have after : v.db.paymentOf merchant.id (assigned 128 entity.id) = some p :=
    own ▸ key ▸ Db.paymentOf_of_mem single' hp provider
  constructor
  · rintro ⟨p', read', -, closed⟩ ⟨p₀, c₀, key, c, read, opened, open_, noted, other, found, mine⟩
    obtain rfl := Option.some.inj (after.symm.trans read')
    obtain ⟨hc₀, of⟩ := Table.mem_of_find opened
    have id₀ : p₀.id = payment.id := (WritesCaptured.known pay (Table.mem_of_find read).1).1 read
    have kept : v.db.cases.get c₀.id = some c₀ := by
      rcases reached with ⟨-, -, cases⟩ | ⟨case, chosen, cases⟩
      · rw [cases]
        exact Table.get_of_mem hc₀
      · obtain rfl := chosen.of_noted noted found mine
        have named : case.id = key := (Table.get_eq_some.1 found).2
        rw [cases, if_neg (named ▸ other.symm)]
        exact Table.get_of_mem hc₀
    have terminal :=
      closed c₀ (Table.get_eq_some.1 kept).1 ((of_decide_eq_true of).trans (id₀.trans id.symm))
    rw [open_] at terminal
    cases terminal
  · refine fun straight => ⟨p, after, captured, fun c' hc' of => ?_⟩
    rw [id] at of
    rcases reached with ⟨-, none, cases⟩ | ⟨case, chosen, cases⟩
    · have := Table.find_eq_none.1 none c' (cases ▸ hc')
      simp [of] at this
    · have now : v.db.cases.get c'.id = some c' := Table.get_of_mem hc'
      rw [cases] at now
      split at now
      next => exact Option.some.inj now ▸ case.capture_terminal
      next other =>
        have hc := (Table.get_eq_some.1 now).1
        have opened : u.db.caseOf payment.id = some c' := of ▸ Db.caseOf_of_mem single hc
        by_contra open_
        cases chosen with
        | noted named mine found =>
          obtain ⟨_, rfl, found⟩ := found
          obtain ⟨p₀, hp₀, id₀, -⟩ := sound.db.case c' hc
          have same : p₀.id = payment.id := id₀.trans of
          exact straight ⟨p₀, c', case.id, case, (WritesCaptured.known pay hp₀).2 same,
            same ▸ opened, by simpa using open_, named, Ne.symm other, found, mine⟩
        | own unnoted read found =>
          obtain ⟨_, c₁, rfl, opened', id₁⟩ := found
          obtain rfl := Option.some.inj (opened.symm.trans opened')
          exact other id₁

end World

section

variable [PyLib] {settings : Settings} {now : Time} {merchants : Table Merchant}
  {policies : Table MerchantPolicy} {u v w : World} {request : Request}
  {entity : RazorpayPaymentEntity}

/-- Once a captured event is accepted, its payment, which is found under the id the
table stores, stays captured and the payment's case terminal, unless the notes lead the
event away from that case. -/
theorem capture_final_iff (run : (World.start now merchants policies).Reaches settings u)
    (accepts : World.Accepts settings request entity u v) :
    (∀ w, v.Reaches settings w → w.db.Final request.merchantId (assigned 128 entity.id)) ↔
      ¬ u.db.Diverts request.merchantId entity := by
  have sound := World.Sound.start now merchants policies
  have single := World.single_start now merchants policies
  obtain ⟨pid, env, -, -, move, -⟩ := accepts.turn
  have runV := World.Reaches.step (.transact pid env) run move
  have iff := accepts.final_iff (run.sound sound) (run.single sound single)
    (runV.single sound single)
  constructor
  · exact fun final => iff.1 (final v .refl)
  · intro straight w later
    exact (iff.2 straight).keeps (later.keeps (runV.sound sound))
      ((runV.trans later).single sound single)

theorem notedCaseId_notes (claim : Claim) (noted : entity.notes = some claim.notes) :
    notedCaseId entity = some claim.caseId := by
  have item : Json.item claim.notes "recoverai_recovery_case_id" = .str claim.caseId.str := by
    simp [Json.item, Claim.notes, List.lookup_cons]
  have text : claim.caseId.str ≠ "" := by
    intro empty
    have := congrArg String.toList empty
    simp [Uuid.str, Uuid.chars] at this
  simp [notedCaseId, noted, item, Json.truthy, text]

/-- The notes of an issued link lead its captured event back to the case, whenever it comes. -/
theorem payment_link_round_trip {job : Job} {claim : Claim}
    (run : (World.start now merchants policies).Reaches settings w)
    (issued : some (.external job claim) ∈ w.processes) (later : w.Reaches settings u)
    (accepts : World.Accepts settings request entity u v)
    (noted : entity.notes = some claim.notes) :
    ∃ c, u.db.cases.get claim.caseId = some c ∧ (request.merchantId = c.merchantId →
      (∀ id, v.db.cases.get id = if id = claim.caseId then some c.capture else u.db.cases.get id) ∧
        (c.capture.status = .recovered → ∀ x, v.Reaches settings x →
          ∃ c', x.db.cases.get claim.caseId = some c' ∧ c'.status = .recovered)) := by
  have sound := run.sound (.start now merchants policies)
  have soundU := later.sound sound
  obtain ⟨a, ha, -, link⟩ := sound.claims _ issued claim rfl
  obtain ⟨c₀, hc₀, own, -⟩ := sound.db.action a ha
  obtain ⟨c, hc, same⟩ := later.grows.cases c₀ hc₀
  have id : c.id = claim.caseId := same.id.trans (own.trans link)
  have found : u.db.cases.get claim.caseId = some c := id ▸ Table.get_of_mem hc
  refine ⟨c, found, fun addressed => ?_⟩
  obtain ⟨env, merchant, amountMinor, currency, inbox, us, known, effect, e, e', db⟩ :=
    accepts.effect
  have owner : merchant.id = request.merchantId := (Table.get_eq_some.1 known).2
  have mine : c.merchantId = merchant.id := addressed.symm.trans owner.symm
  have named := notedCaseId_notes claim noted
  obtain ⟨payment, prs, pay, -, reached⟩ := effect.outcome e e'
  rw [← db] at reached
  have cases : ∀ id, v.db.cases.get id = if id = claim.caseId then some c.capture
      else u.db.cases.get id := by
    rcases reached with ⟨unnoted, -⟩ | ⟨case, chosen, cases⟩
    · obtain ⟨_, rfl, other⟩ := unnoted _ named
      exact absurd mine (other c found)
    · obtain rfl := chosen.of_noted named found mine
      exact id ▸ cases
  refine ⟨cases, fun recovered x reach => ?_⟩
  obtain ⟨pid, env, -, -, move, -⟩ := accepts.turn
  have here : v.db.cases.get claim.caseId = some c.capture := by rw [cases, if_pos rfl]
  obtain ⟨hv, idV⟩ := Table.get_eq_some.1 here
  have keeps := reach.keeps ((World.next_does move).sound soundU)
  obtain ⟨c', hc', same', next⟩ := keeps.terminal _ hv c.capture_terminal
  refine ⟨c', Table.get_eq_some.2 ⟨hc', same'.trans idV⟩, ?_⟩
  rcases next with status | rfl
  · exact status
  · exact recovered

end

/-- A failed payment, and the event that it is captured after all. -/
def captureTurns : List Turn :=
  [.request expiredInstrument.request, .transact 0 (.numbered 1),
    .request captured.request, .tick 2]

/-- The endpoint reads a captured event. -/
def readsCaptured [PyLib] (request : Request) : Bool :=
  (admitRequest {} request).toOption.any fun webhook =>
    webhook.event = "payment.captured" && (extractPaymentEntity webhook).toOption.isSome

/-- The answer of a process to an accepted event. -/
def accepted (pid : Nat) (w : World) : Bool :=
  match w.processes[pid]? with
  | some (some (.answered response)) => match Json.item response.content "status" with
    | .str status => status = "accepted"
    | _ => false
  | _ => false

deriving instance DecidableEq for Request, Claim

def asks (pid : Nat) (w : World) : Option Request :=
  match w.processes[pid]? with
  | some (some (.webhook request)) => some request
  | _ => none

theorem readsCaptured_spec [PyLib] {request : Request} (h : readsCaptured request) :
    ∃ entity webhook,
    admitRequest {} request = .ok webhook ∧ webhook.event = "payment.captured" ∧
      extractPaymentEntity webhook = .ok entity := by
  have toOption : ∀ {ε α : Type} {x : Except ε α} {a : α}, x.toOption = some a → x = .ok a := by
    intro ε α x a h
    cases x <;> cases h
    rfl
  obtain ⟨webhook, admitted, h⟩ := Option.any_eq_true _ _ |>.1 h
  simp only [Bool.and_eq_true, decide_eq_true_eq, Option.isSome_iff_exists] at h
  obtain ⟨type, entity, extracted⟩ := h
  exact ⟨entity, webhook, toOption admitted, type, toOption extracted⟩

theorem World.Accepts.of_answer [PyLib] {settings : Settings} {u v : World} {pid : Nat} {env : Env}
    {request : Request} {entity : RazorpayPaymentEntity}
    (event : ∃ webhook, admitRequest settings request = .ok webhook ∧
      webhook.event = "payment.captured" ∧ extractPaymentEntity webhook = .ok entity)
    (asked : asks pid u = some request) (move : u.next settings (.transact pid env) = some v)
    (answered : accepted pid v) : World.Accepts settings request entity u v where
  event := event
  turn := by
    unfold asks at asked
    unfold accepted at answered
    split at asked
    next at_ =>
      cases asked
      split at answered
      next response answer =>
        split at answered
        next status item =>
          exact ⟨pid, env, response, at_, move, answer, by rw [item, of_decide_eq_true answered]⟩
        next => cases answered
      next => cases answered
    next => cases asked

theorem capture_final_iff_sample :
    ∃ u v entity, @World.run (.recorded [expiredInstrument, captured]) {} sampleWorld
      captureTurns = some u ∧
    @World.Accepts (.recorded [expiredInstrument, captured]) {} captured.request entity u v ∧
    ((∀ w, @World.Reaches (.recorded [expiredInstrument, captured]) {} v w →
      w.db.Final (.ofNat 1) (assigned 128 entity.id)) ↔
      ¬ @Db.Diverts .ascii u.db (.ofNat 1) entity) := by
  let _ : PyLib := .recorded [expiredInstrument, captured]
  have runs : ((sampleWorld.run {} captureTurns).bind fun u =>
      (u.next {} (.transact 1 (.numbered 2))).map fun v =>
      decide (asks 1 u = some captured.request) && accepted 1 v) = some true := by decide +kernel
  obtain ⟨u, run, runs⟩ := Option.bind_eq_some_iff.1 runs
  obtain ⟨v, move, answered⟩ := Option.map_eq_some_iff.1 runs
  simp only [Bool.and_eq_true, decide_eq_true_eq] at answered
  obtain ⟨entity, event⟩ :=
    readsCaptured_spec (show readsCaptured captured.request by decide +kernel)
  have accepts := World.Accepts.of_answer event answered.1 move answered.2
  exact ⟨u, v, entity, run, accepts, capture_final_iff (.run .refl run) accepts⟩

/-- The claim of `linkTurns`. -/
def linkClaim : Claim where
  actionId := .ofNat 33
  caseId := .ofNat 12
  merchantId := .ofNat 1
  actionType := .createPaymentLink
  idempotencyKey := recoveryActionIdempotencyKey (.ofNat 12) .createPaymentLink 1
  amountMinor := 5000
  currency := "INR"
  originalProviderPaymentId := some "p1"

/-- `{"id":"e5","event":"payment.captured","payload":{"payment":{"entity":{"id":"p2",
"amount":5000,"currency":"INR",
"notes":{"recoverai_merchant_id":"00000000-0000-0000-0000-000000000001",
"recoverai_recovery_case_id":"00000000-0000-0000-0000-00000000000c",
"recoverai_recovery_action_id":"00000000-0000-0000-0000-000000000021",
"recoverai_original_payment_reference":"p1"}}}}}` -/
def linkPaid : Recorded where
  body :=
    [123, 34, 105, 100, 34, 58, 34, 101, 53, 34, 44, 34, 101, 118, 101, 110, 116, 34, 58, 34, 112,
    97, 121, 109, 101, 110, 116, 46, 99, 97, 112, 116, 117, 114, 101, 100, 34, 44, 34, 112, 97,
    121, 108, 111, 97, 100, 34, 58, 123, 34, 112, 97, 121, 109, 101, 110, 116, 34, 58, 123, 34,
    101, 110, 116, 105, 116, 121, 34, 58, 123, 34, 105, 100, 34, 58, 34, 112, 50, 34, 44, 34, 97,
    109, 111, 117, 110, 116, 34, 58, 53, 48, 48, 48, 44, 34, 99, 117, 114, 114, 101, 110, 99, 121,
    34, 58, 34, 73, 78, 82, 34, 44, 34, 110, 111, 116, 101, 115, 34, 58, 123, 34, 114, 101, 99,
    111, 118, 101, 114, 97, 105, 95, 109, 101, 114, 99, 104, 97, 110, 116, 95, 105, 100, 34, 58,
    34, 48, 48, 48, 48, 48, 48, 48, 48, 45, 48, 48, 48, 48, 45, 48, 48, 48, 48, 45, 48, 48, 48, 48,
    45, 48, 48, 48, 48, 48, 48, 48, 48, 48, 48, 48, 49, 34, 44, 34, 114, 101, 99, 111, 118, 101,
    114, 97, 105, 95, 114, 101, 99, 111, 118, 101, 114, 121, 95, 99, 97, 115, 101, 95, 105, 100,
    34, 58, 34, 48, 48, 48, 48, 48, 48, 48, 48, 45, 48, 48, 48, 48, 45, 48, 48, 48, 48, 45, 48, 48,
    48, 48, 45, 48, 48, 48, 48, 48, 48, 48, 48, 48, 48, 48, 99, 34, 44, 34, 114, 101, 99, 111, 118,
    101, 114, 97, 105, 95, 114, 101, 99, 111, 118, 101, 114, 121, 95, 97, 99, 116, 105, 111, 110,
    95, 105, 100, 34, 58, 34, 48, 48, 48, 48, 48, 48, 48, 48, 45, 48, 48, 48, 48, 45, 48, 48, 48,
    48, 45, 48, 48, 48, 48, 45, 48, 48, 48, 48, 48, 48, 48, 48, 48, 48, 50, 49, 34, 44, 34, 114,
    101, 99, 111, 118, 101, 114, 97, 105, 95, 111, 114, 105, 103, 105, 110, 97, 108, 95, 112, 97,
    121, 109, 101, 110, 116, 95, 114, 101, 102, 101, 114, 101, 110, 99, 101, 34, 58, 34, 112, 49,
    34, 125, 125, 125, 125, 125]
  signature := "d18c9ec3041b605a7e44f4e68ef59a7094801ed15dbf932c0df3c18b56b858a6"
  value := .obj [("id", .str "e5"), ("event", .str "payment.captured"),
    ("payload",
    .obj [("payment",
      .obj [("entity", .obj [("id", .str "p2"), ("amount", .int 5000), ("currency", .str "INR"),
      ("notes", .obj linkClaim.notes)])])])]

/-- The payment of the link. -/
def linkEntity : RazorpayPaymentEntity :=
  ⟨"p2", 5000, "INR", none, none, none, some linkClaim.notes⟩

theorem loadsBytes_recorded {bodies : List Recorded} {r : Recorded}
    (found : bodies.find? (·.body = r.body) = some r) :
    (PyLib.recorded bodies).loadsBytes r.body = .ok r.value := by
  change (bodies.find? (·.body = r.body)).elim _ _ = _
  rw [found]
  rfl

theorem linkPaid_event :
    ∃ webhook, @admitRequest (.recorded [expiredInstrument, linkPaid]) {} linkPaid.request =
    .ok webhook ∧ webhook.event = "payment.captured" ∧
      @extractPaymentEntity (.recorded [expiredInstrument, linkPaid]) webhook = .ok linkEntity := by
  let _ : PyLib := .recorded [expiredInstrument, linkPaid]
  have other : expiredInstrument.body ≠ linkPaid.body := by decide +kernel
  have signed : verifyRazorpaySignature
      {} linkPaid.request.rawBody linkPaid.request.signatureHeader = .ok true := by
    decide +kernel
  have loaded : PyLib.loadsBytes linkPaid.request.rawBody = .ok linkPaid.value :=
    loadsBytes_recorded (by simp [other])
  refine ⟨⟨some "e5", "payment.captured", [("payment",
      .obj [("entity", .obj [("id", .str "p2"), ("amount", .int 5000), ("currency", .str "INR"),
        ("notes", .obj linkClaim.notes)])])]⟩, ?_, rfl, rfl⟩
  unfold admitRequest parseRazorpayWebhook
  rw [signed, loaded]
  rfl

/-- The claim that a process executes. -/
def executes (pid : Nat) (w : World) : Option Claim :=
  match w.processes[pid]? with
  | some (some (.external _ claim)) => some claim
  | _ => none

theorem executes_spec {pid : Nat} {w : World} {claim : Claim} (h : executes pid w = some claim) :
    ∃ job, some (.external job claim) ∈ w.processes := by
  unfold executes at h
  split at h
  next job claim' at_ =>
    cases h
    exact ⟨job, List.mem_of_getElem? at_⟩
  next => cases h

theorem payment_link_round_trip_sample : ∃ w u v job c,
    @World.run (.recorded [expiredInstrument, linkPaid]) {} sampleWorld
      (decideTurns ++ linkTurns.take 6) = some w ∧
    some (.external job linkClaim) ∈ w.processes ∧
      @World.Reaches (.recorded [expiredInstrument, linkPaid]) {} w u ∧
    @World.Accepts (.recorded [expiredInstrument, linkPaid]) {} linkPaid.request linkEntity u v ∧
    u.db.cases.get linkClaim.caseId = some c ∧
    (∀ id, v.db.cases.get id = if id = linkClaim.caseId then some c.capture
      else u.db.cases.get id) ∧
    ∀ x, @World.Reaches (.recorded [expiredInstrument, linkPaid]) {} v x →
      ∃ c', x.db.cases.get linkClaim.caseId = some c' ∧ c'.status = .recovered := by
  let _ : PyLib := .recorded [expiredInstrument, linkPaid]
  have runs : ((sampleWorld.run {} (decideTurns ++ linkTurns.take 6)).bind fun w =>
      (w.run {} [.request linkPaid.request, .tick 6]).bind fun u =>
        (u.next {} (.transact 3 (.numbered 6))).map fun v =>
          decide (executes 2 w = some linkClaim) && decide (asks 3 u = some linkPaid.request) &&
            accepted 3 v && u.db.cases.rows.all fun c => c.merchantId = .ofNat 1 &&
              c.capture.status = .recovered) =
      some true := by decide +kernel
  obtain ⟨w, run, runs⟩ := Option.bind_eq_some_iff.1 runs
  obtain ⟨u, more, runs⟩ := Option.bind_eq_some_iff.1 runs
  obtain ⟨v, move, facts⟩ := Option.map_eq_some_iff.1 runs
  simp only [Bool.and_eq_true, decide_eq_true_eq, List.all_eq_true] at facts
  obtain ⟨⟨⟨issued, asked⟩, answered⟩, rows⟩ := facts
  obtain ⟨job, issued⟩ := executes_spec issued
  have later : w.Reaches {} u := .run .refl more
  have accepts := World.Accepts.of_answer linkPaid_event asked move answered
  obtain ⟨c, found, outcome⟩ := payment_link_round_trip (.run .refl run) issued later accepts rfl
  obtain ⟨own, open_⟩ := rows c (Table.get_eq_some.1 found).1
  obtain ⟨cases, stays⟩ := outcome own.symm
  exact ⟨w, u, v, job, c, run, issued, later, accepts, found, cases, stays open_⟩

end RecoverAI
