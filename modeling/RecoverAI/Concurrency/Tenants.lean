import RecoverAI.Concurrency.Once
import RecoverAI.Serial.Statements

/-!
# Tenants

The merchants of the tables agree in every reachable database, although no constraint says
so, and a webhook writes rows of its own merchant only: an id in the notes leads to a case of
the merchant or to none.
-/
namespace RecoverAI

open Store

/-- A row of the merchant in a table that webhooks write. -/
def Row.OwnedBy (merchantId : Uuid) (r : Row) : Prop := r.merchantId = merchantId ∧ r.policy? = none

section

variable {T : Type} {db : T → Db} {R : List Row → T → T → Prop} {allows : Db → Stmt → Prop}
  {settings : Settings} {env : Draws} {t t₀ : T} {us prs ors : List Row} {merchant : Merchant}
  {merchantId : Uuid} {entity : RazorpayPaymentEntity} {amountMinor : Int} {currency : String}

theorem Db.paymentOf_merchantId {d : Db} {id : String} {p : Payment}
    (h : d.paymentOf merchantId id = some p) : p ∈ d.payments ∧ p.merchantId = merchantId := by
  obtain ⟨hp, found⟩ := Table.mem_of_find h
  simp only [Bool.and_eq_true, decide_eq_true_eq] at found
  exact ⟨hp, found.1.1⟩

/-- The payment a handler goes on with is the merchant's, and so is the row it writes. -/
theorem WritesPayment.owned {id : String} {new payment : Payment} {update : Payment → Payment}
    (pay : WritesPayment db R merchantId id new update payment prs t) (past : Past db R t)
    (owner : new.merchantId = merchantId) (keeps : ∀ p, (update p).id = p.id) :
    (∀ r ∈ prs, r.OwnedBy merchantId) ∧
      ∀ {t₀ p}, R [] t₀ t → p ∈ (db t₀).payments → p.id = payment.id →
        p.merchantId = merchantId := by
  have known : ∀ {t₀ old}, R [] t₀ t → (db t₀).paymentOf merchantId id = some old →
      ∃ p ∈ (db t).payments, old.Same p ∧ p.merchantId = merchantId := by
    intro t₀ old h₀ read
    obtain ⟨mem, own⟩ := Db.paymentOf_merchantId read
    obtain ⟨p, hp, same⟩ := (past.grows h₀ past.now).payments old mem
    exact ⟨p, hp, same, same.merchantId.trans own⟩
  have later : ∀ {t₁ p q}, R [] t₁ t → p ∈ (db t₁).payments → q ∈ (db t).payments → q.id = p.id →
      q.merchantId = merchantId → p.merchantId = merchantId := by
    intro t₁ p q h₁ hp hq id own
    obtain ⟨p', hp', same⟩ := (past.grows h₁ past.now).payments p hp
    obtain rfl : q = p' := Table.eq_of_key hq hp' (id.trans same.id.symm)
    exact same.merchantId.symm.trans own
  cases pay with
  | inserted unknown absent =>
    refine ⟨fun r hr => List.mem_singleton.1 hr ▸ ⟨owner, rfl⟩, fun {t₁ p} h₁ hp same => ?_⟩
    obtain ⟨p', hp', kept⟩ := (past.grows h₁ past.now).payments p hp
    exact absurd (kept.id.trans same) (Table.get_eq_none.1 absent.payment p' hp')
  | kept read same =>
    obtain ⟨t₀, h₀, read⟩ := read
    obtain ⟨q, hq, kept, own⟩ := known h₀ read
    exact ⟨fun r hr => absurd hr List.not_mem_nil,
      fun h₁ hp id => later h₁ hp hq (kept.id.trans id.symm) own⟩
  | @updated old r _ read base =>
    obtain ⟨t₀, h₀, read⟩ := read
    obtain ⟨q, hq, kept, own⟩ := known h₀ read
    obtain ⟨hr, id⟩ := Table.get_eq_some.1 base
    obtain rfl : q = r := Table.eq_of_key hq hr (kept.id.trans id.symm)
    refine ⟨fun s hs => ?_, fun h₁ hp same => later h₁ hp hq ?_ own⟩
    · obtain rfl := List.mem_singleton.1 hs
      exact ⟨own, rfl⟩
    · exact id.trans ((keeps old).symm.trans same.symm)

theorem Ensures.owned {event : OutboxEvent} (h : Ensures db R event ors t) :
    ∀ r ∈ ors, r.OwnedBy event.merchantId := by
  cases h with
  | present => exact fun r hr => absurd hr List.not_mem_nil
  | inserted => exact fun r hr => List.mem_singleton.1 hr ▸ ⟨rfl, rfl⟩

variable [PyLib]

theorem FailedEffect.owned
    (effect : FailedEffect db R env merchant entity amountMinor currency us t)
    (past : Past db R t) : ∀ r ∈ us, r.OwnedBy merchant.id := by
  cases effect with
  | captured => exact fun r hr => absurd hr List.not_mem_nil
  | known pay => exact (pay.owned past rfl fun _ => rfl).1
  | created pay absent audited event =>
    have own := (pay.owned past rfl fun _ => rfl).1
    have own' := event.owned
    intro r hr
    simp only [List.mem_append, List.mem_singleton] at hr
    rcases hr with (((hr | rfl) | rfl) | rfl) | hr
    · exact own r hr
    · exact ⟨rfl, rfl⟩
    · exact ⟨rfl, rfl⟩
    · exact ⟨rfl, rfl⟩
    · exact own' r hr
  | activated pay found status =>
    obtain ⟨t₀, h₀, found⟩ := found
    exact absurd status ((past.sound h₀).notFailed _ (Table.mem_of_find found).1)

/-- The case a captured event arrives at is the merchant's. -/
theorem Chosen.owned {payment case} (chosen : Chosen db R merchant entity payment case t)
    (past : Past db R t)
    (own : ∀ {t₀ p}, R [] t₀ t → p ∈ (db t₀).payments → p.id = payment.id →
      p.merchantId = merchant.id) :
    case.merchantId = merchant.id := by
  cases chosen with
  | noted id merchantId read => exact merchantId
  | own unnoted read found =>
    obtain ⟨t₀, h₀, read⟩ := read
    obtain ⟨t₁, c, h₁, found, id⟩ := found
    obtain ⟨hc, link⟩ := Table.mem_of_find found
    obtain ⟨p, hp, key, same⟩ := (past.sound h₁).case c hc
    have caseSame : ∀ {t₂ : T} {x : RecoveryCase}, R [] t₂ t → x ∈ (db t₂).cases →
        ∃ y ∈ (db t).cases, x.Same y :=
      fun h hx => (past.grows h past.now).cases _ hx
    obtain ⟨y, hy, sameC⟩ := caseSame h₁ hc
    obtain ⟨z, hz, sameCase⟩ := caseSame h₀ (Table.get_eq_some.1 read).1
    obtain rfl : y = z := Table.eq_of_key hy hz (sameC.id.trans (id.trans sameCase.id.symm))
    rw [← sameCase.merchantId, sameC.merchantId, ← same]
    exact own h₁ hp (key.trans (of_decide_eq_true link))

theorem CapturedEffect.owned {inbox : WebhookEvent}
    (effect : CapturedEffect db R env merchant entity amountMinor currency allows inbox us t)
    (past : Past db R t) : ∀ r ∈ us, r.OwnedBy merchant.id := by
  have keeps : ∀ p, (recaptured env p).id = p.id := by
    intro p
    unfold recaptured
    split <;> rfl
  cases effect with
  | noCase pay | terminal pay => exact (pay.owned past rfl keeps).1
  | @recovered payment case row prs cancels audit ors correlationId _ pay chosen recovers
    audited event =>
    obtain ⟨own, known⟩ := pay.owned past rfl keeps
    have caseOwn := chosen.owned past known
    have own' := event.owned
    have rowOwn : row.merchantId = merchant.id := by
      have read : ∃ t₀, R [] t₀ t ∧ (db t₀).cases.get case.id = some case := by
        cases chosen with
        | noted _ _ read | own _ read => exact read
      obtain ⟨t₀, h₀, read⟩ := read
      exact (past.same_case h₀ read recovers.base).merchantId.trans caseOwn
    intro r hr
    simp only [List.mem_append, List.mem_singleton, List.mem_map] at hr
    rcases hr with (((hr | ⟨a, ha, rfl⟩) | rfl) | rfl) | hr
    · exact own r hr
    · -- A cancelled action belongs to the case, and so to its merchant.
      obtain ⟨t₁, t₂, -, rfl, -⟩ := recovers.read
      have owner : a.recoveryCaseId = case.id := by
        have picked := (Table.mem_filter.1 ha).2
        simp only [Bool.and_eq_true, decide_eq_true_eq] at picked
        exact picked.1
      obtain ⟨c, hc, id, same⟩ :=
        (past.sound past.now).action a (Table.get_eq_some.1 (recovers.actions a ha)).1
      obtain ⟨hrow, rowId⟩ := Table.get_eq_some.1 recovers.base
      obtain rfl : c = row := Table.eq_of_key hc hrow (id.trans (owner.trans rowId.symm))
      exact ⟨same.symm.trans rowOwn, rfl⟩
    · exact ⟨rowOwn, rfl⟩
    · exact ⟨rfl, rfl⟩
    · exact own' r hr

theorem WebhookEffect.owned {request : Request} {response : Response}
    (effect : WebhookEffect db R env allows settings request response us t) (past : Past db R t) :
    ∀ r ∈ us, r.OwnedBy request.merchantId := by
  cases effect with
  | rejected => exact fun r hr => absurd hr List.not_mem_nil
  | @recorded webhook merchant status result us _ admitted found active absent effect =>
    obtain ⟨t₀, -, found⟩ := found
    have id : merchant.id = request.merchantId := (Table.get_eq_some.1 found).2
    have own : ∀ r ∈ us, r.OwnedBy merchant.id := by
      cases effect with
      | ignored => exact fun r hr => absurd hr List.not_mem_nil
      | failed _ _ effect => exact effect.owned past
      | captured _ _ effect => exact effect.owned past
    intro r hr
    simp only [List.mem_append, List.mem_cons, List.not_mem_nil, or_false] at hr
    rcases hr with (rfl | hr) | rfl
    · exact ⟨id, rfl⟩
    · exact ⟨(own r hr).1.trans id, (own r hr).2⟩
    · exact ⟨id, rfl⟩

end

/-! ## Runs -/

section

variable [PyLib] {settings : Settings} {d : Db} {allows : Db → Stmt → Bool} {log : Ledger}
  {pid : Nat} {request : Request} {us : List Row} {q : Process}

theorem owned_of_commit (sound : d.Sound)
    (legal : Legal (Good settings d allows) (.commit pid (.webhook request) us q :: log)) :
    ∀ r ∈ us, r.OwnedBy request.merchantId := by
  obtain ⟨-, commits⟩ := legal.2
  cases commits with
  | webhook effect => exact effect.owned (legal.1.past sound)

/-- The rows of other merchants are the same after a webhook. -/
theorem frame_of_commit (sound : d.Sound)
    (legal : Legal (Good settings d allows) (.commit pid (.webhook request) us q :: log)) {r : Row}
    (other : r.merchantId ≠ request.merchantId) :
    r ∈ (view (dbOf d log) us).rows ↔ r ∈ (dbOf d log).rows := by
  have owned := owned_of_commit sound legal
  have grows : (dbOf d log).Grows (view (dbOf d log) us) := legal.grows
  refine ⟨fun after => (Db.mem_rows_view after).resolve_left fun new => other (owned r new).1,
    fun before => ?_⟩
  -- What has become of the row is of its merchant, so it was not written.
  cases r with
  | policy p =>
    have none : policiesOf us = [] := List.filterMap_eq_nil_iff.2 fun r hr => (owned r hr).2
    have hp : .policy p ∈ (dbOf d log).rows := before
    rw [Db.mem_rows_policy] at hp ⊢
    rwa [view_policies, none, Table.putAll_nil]
  | payment p =>
    obtain ⟨p', hp', same⟩ := grows.payments p (Db.mem_rows_payment.1 before)
    have unwritten : .payment p' ∉ us :=
      fun new => other (same.merchantId.symm.trans (owned _ new).1)
    have old := (Db.mem_rows_view (Db.mem_rows_payment.2 hp')).resolve_left unwritten
    obtain rfl : p' = p :=
      Table.eq_of_key (Db.mem_rows_payment.1 old) (Db.mem_rows_payment.1 before) same.id
    exact Db.mem_rows_payment.2 hp'
  | recoveryCase c =>
    obtain ⟨c', hc', same⟩ := grows.cases c (Db.mem_rows_case.1 before)
    have unwritten : .recoveryCase c' ∉ us :=
      fun new => other (same.merchantId.symm.trans (owned _ new).1)
    have old := (Db.mem_rows_view (Db.mem_rows_case.2 hc')).resolve_left unwritten
    obtain rfl : c' = c :=
      Table.eq_of_key (Db.mem_rows_case.1 old) (Db.mem_rows_case.1 before) same.id
    exact Db.mem_rows_case.2 hc'
  | action a =>
    obtain ⟨a', ha', same⟩ := grows.actions a (Db.mem_rows_action.1 before)
    have unwritten : .action a' ∉ us :=
      fun new => other (same.merchantId.symm.trans (owned _ new).1)
    have old := (Db.mem_rows_view (Db.mem_rows_action.2 ha')).resolve_left unwritten
    obtain rfl : a' = a :=
      Table.eq_of_key (Db.mem_rows_action.1 old) (Db.mem_rows_action.1 before) same.id
    exact Db.mem_rows_action.2 ha'
  | outbox o =>
    obtain ⟨o', ho', same⟩ := grows.outbox o (Db.mem_rows_outbox.1 before)
    have unwritten : .outbox o' ∉ us :=
      fun new => other (same.merchantId.symm.trans (owned _ new).1)
    have old := (Db.mem_rows_view (Db.mem_rows_outbox.2 ho')).resolve_left unwritten
    obtain rfl : o' = o :=
      Table.eq_of_key (Db.mem_rows_outbox.1 old) (Db.mem_rows_outbox.1 before) same.id
    exact Db.mem_rows_outbox.2 ho'
  | webhookEvent e =>
    obtain ⟨e', he', same⟩ := grows.webhookEvents e (Db.mem_rows_webhookEvent.1 before)
    have unwritten : .webhookEvent e' ∉ us :=
      fun new => other (same.merchantId.symm.trans (owned _ new).1)
    have old := (Db.mem_rows_view (Db.mem_rows_webhookEvent.2 he')).resolve_left unwritten
    obtain rfl : e' = e :=
      Table.eq_of_key (Db.mem_rows_webhookEvent.1 old) (Db.mem_rows_webhookEvent.1 before) same.id
    exact Db.mem_rows_webhookEvent.2 he'
  | audit x => exact Db.mem_rows_audit.2 (grows.audits x (Db.mem_rows_audit.1 before))

end

/-- The merchants of the tables agree, and every webhook so far has left the rows
of other merchants alone. -/
structure TenantsApart (d : Db) (s : Run Stmt Stmt.Ans Db Err Process Claim Row) : Prop where
  coherent : s.db.Coherent
  own : ∀ log pid request us q,
    (Event.commit pid (.webhook request) us q :: log : Ledger) <:+ s.log →
    ∀ r ∈ us, r.merchantId = request.merchantId
  frame : ∀ log pid request us q,
    (Event.commit pid (.webhook request) us q :: log : Ledger) <:+ s.log →
    ∀ r : Row, r.merchantId ≠ request.merchantId →
      (r ∈ (view (dbOf d log) us).rows ↔ r ∈ (dbOf d log).rows)

theorem tenants_apart [PyLib] {settings : Settings} {merchants : Table Merchant}
    {policies : Table MerchantPolicy} {s : Run Stmt Stmt.Ans Db Err Process Claim Row}
    (run : (service settings).Reaches (.initial merchants policies) s) :
    TenantsApart (.initial merchants policies) s := by
  obtain ⟨legal, db⟩ := run.legal rfl fun _ h => h
  have sound := Db.sound_initial merchants policies
  refine ⟨?_, fun log pid request us q past r hr => ?_, fun log pid request us q past r other => ?_⟩
  · rw [db]
    exact (sound_of_legal sound legal s.log (List.suffix_refl _)).toCoherent
  · exact (owned_of_commit sound (legal.suffix past) r hr).1
  · exact frame_of_commit sound (legal.suffix past) other

/-- A database with two active merchants. -/
def twoMerchants : Db := .initial (.put (.put .empty ⟨.ofNat 1, true⟩) ⟨.ofNat 2, true⟩) .empty

/-- A payment of the first merchant fails; then the second one captures a payment, with
notes that name the case. -/
def foreignNotes : List (Nat × Move Err Process Env ExternalReply) :=
  (0, .spawn (.webhook expiredInstrument.request)) :: transaction 0 (.numbered 1) 11 ++
  (1, .spawn (.webhook { capturedWithNotes.request with merchantId := .ofNat 2 })) ::
    transaction 1 (.numbered 2) 7

theorem tenants_apart_sample :
    ∃ s, (@service (.recorded [expiredInstrument, capturedWithNotes]) {}).moves
      (.initial twoMerchants) foreignNotes = some s ∧
    s.db.cases.rows.map (fun c => (c.merchantId, c.status)) = [(.ofNat 1, .eligible)] ∧
    s.db.payments.rows.map (fun p => (p.merchantId, p.status)) =
      [(.ofNat 1, .failed), (.ofNat 2, .captured)] ∧ TenantsApart twoMerchants s := by
  let _ : PyLib := .recorded [expiredInstrument, capturedWithNotes]
  have rows : ((service {}).moves (.initial twoMerchants) foreignNotes).map (fun s =>
      (s.db.cases.rows.map (fun c => (c.merchantId, c.status)),
        s.db.payments.rows.map (fun p => (p.merchantId, p.status)))) =
      some ([(.ofNat 1, .eligible)], [(.ofNat 1, .failed), (.ofNat 2, .captured)]) := by
    decide +kernel
  obtain ⟨s, run, rows⟩ := Option.map_eq_some_iff.1 rows
  obtain ⟨cases, payments⟩ := Prod.mk.inj rows
  exact ⟨s, run, cases, payments, tenants_apart (.moves .refl run)⟩

end RecoverAI
