import RecoverAI.Concurrency.History
import RecoverAI.Store.Writes

/-!
# Amounts of cases and payments

A case copies amount and currency of its payment when it is created. A later failed event writes its
own amount and currency to the payment and leaves the case alone, so the two agree as long as such
events repeat what they find.
-/
namespace RecoverAI

open Store

/-- Amount and currency have stayed. -/
structure Payment.SamePrice (p p' : Payment) : Prop where
  id : p'.id = p.id
  amountMinor : p'.amountMinor = p.amountMinor
  currency : p'.currency = p.currency

namespace Payment.SamePrice

protected theorem refl (p : Payment) : p.SamePrice p := ⟨rfl, rfl, rfl⟩

protected theorem trans {p q r : Payment} (h : p.SamePrice q) (h' : q.SamePrice r) :
  p.SamePrice r :=
  ⟨h'.id.trans h.id, h'.amountMinor.trans h.amountMinor, h'.currency.trans h.currency⟩

end Payment.SamePrice

/-- The payment rows that are written keep the amounts and currencies that are there. -/
def KeepsPrices (d : Db) (ws : List Row) : Prop :=
  d.payments.Agrees Payment.SamePrice (paymentsOf ws)

/-- An `UPDATE` of a payment repeats the amount and the currency that were read. -/
def repeatsPrice (_v : Db) : Stmt → Bool
  | .flushPayment old new => new.amountMinor = old.amountMinor && new.currency = old.currency
  | _ => true

/-! ## Statements -/

section

variable {d v : Db} {ws us : List Row}

theorem payments_of_write {α : Type} {error : Option DbError} {r : Row} {a : α}
    (other : r.payment? = none) : paymentsOf (Db.write error r a).2 = [] := by
  cases error <;> simp [Db.write, other]

theorem payments_of_updateWhere {α : Type} {found : Option α} {p : α → Bool} {set : α → Row}
    (other : ∀ a, (set a).payment? = none) : paymentsOf (Db.updateWhere found p set).2 = [] := by
  unfold Db.updateWhere
  split
  · rfl
  · exact payments_of_write (other _)

theorem payments_of_flush {α : Type} {found : Option α} {patch : α → Row}
    (other : ∀ a, (patch a).payment? = none) : paymentsOf (Db.flush found patch).2 = [] := by
  cases found with
  | none => rfl
  | some a => exact payments_of_write (other a)

/-- A statement writes a new payment, or the row it has found with its amount and currency. -/
theorem payments_of_exec (st : Stmt) (granted : repeatsPrice v st) {p : Payment}
    (hp : p ∈ paymentsOf (exec st v).2) :
    v.payments.get p.id = none ∨ ∃ r, v.payments.get p.id = some r ∧ r.SamePrice p := by
  have none : ∀ {l : List Payment}, l = [] → ¬ p ∈ l := fun h hp => absurd (h ▸ hp) List.not_mem_nil
  cases st with
  | insert r =>
    cases error : v.insertError r with
    | some e => exact absurd hp (none (by simp [exec, Db.exec, error, Db.write]))
    | none =>
      have written : p ∈ paymentsOf [r] := by simpa [exec, Db.exec, error, Db.write] using hp
      cases r with
      | payment q =>
        obtain rfl := List.mem_singleton.1 (show p ∈ [q] from written)
        exact .inl ((insertError_eq_none.1 error).lacks (.payment p.id) (by simp [Row.keys]))
      | _ => exact absurd written (none rfl)
  | flushPayment old new =>
    simp only [repeatsPrice, Bool.and_eq_true, decide_eq_true_eq] at granted
    by_cases same : old = new
    · exact absurd hp (none (by simp [exec, Db.exec, same]))
    · cases found : v.payments.get old.id with
      | none => exact absurd hp (none (by simp [exec, Db.exec, same, found, Db.flush]))
      | some r =>
        cases error : Db.updateError (.payment (Db.patchPayment old new r)) with
        | some e =>
          exact absurd hp (none (by simp [exec, Db.exec, same, found, Db.flush, error, Db.write]))
        | none =>
          have written : p ∈ [Db.patchPayment old new r] := by
            simpa [exec, Db.exec, same, found, Db.flush, error, Db.write, Row.payment?,
              List.filterMap_cons] using hp
          obtain rfl := List.mem_singleton.1 written
          have id : (Db.patchPayment old new r).id = old.id := (Table.get_eq_some.1 found).2
          exact .inr ⟨r, id ▸ found, rfl, by simp [Db.patchPayment, Db.changed, granted.1],
            by simp [Db.patchPayment, Db.changed, granted.2]⟩
  | updateCase => exact absurd hp (none (payments_of_updateWhere fun _ => rfl))
  | updateAction => exact absurd hp (none (payments_of_updateWhere fun _ => rfl))
  | flushCase => exact absurd hp (none (payments_of_flush fun _ => rfl))
  | flushAction => exact absurd hp (none (payments_of_flush fun _ => rfl))
  | flushWebhookEvent => exact absurd hp (none (payments_of_flush fun _ => rfl))
  | cancelActions =>
    exact absurd hp (none (filterMap_map_action (g := Row.payment?) (fun _ => rfl) Db.cancelled _))
  | _ => exact absurd hp List.not_mem_nil

theorem tracks_prices {pr : Program Stmt Stmt.Ans Db Err Process Env Claim ExternalReply}
    (only : ∀ v st, pr.allows v st → repeatsPrice v st) : pr.Tracks KeepsPrices where
  nil d := Table.agrees_nil _ _
  exec {d ws st} kept granted p hp r₀ found := by
    have split : p ∈ paymentsOf ws ∨ p ∈ paymentsOf (exec st (view d ws)).2 := by
      simpa only [paymentsOf, List.filterMap_append, List.mem_append] using hp
    rcases split with old | new
    · exact kept p old r₀ found
    · obtain ⟨mem₀, id₀⟩ := Table.get_eq_some.1 found
      rcases payments_of_exec st (only _ _ granted) new with none | ⟨r, seen, same⟩
      · obtain ⟨y, hy, key⟩ := Table.exists_mem_putAll mem₀ (paymentsOf ws)
        rw [view_payments, Table.get_eq_none] at none
        exact absurd (key.trans id₀) (none y hy)
      · rw [view_payments] at seen
        obtain ⟨mem, id⟩ := Table.get_eq_some.1 seen
        rcases Table.mem_or_of_mem_putAll mem with own | before
        · exact (kept r own r₀ ((congrArg _ id).trans found)).trans same
        · exact Table.eq_of_key before mem₀ (id.trans id₀.symm) ▸ same
  others {d ws us} kept _ free p hp r found := by
    obtain ⟨row, hrow, eq⟩ := List.mem_filterMap.1 hp
    have written : .payment p ∈ ws := by
      cases row <;> cases eq
      exact hrow
    have lock : Key.payment p.id ∈ locksOf ws :=
      mem_locksOf.2 ⟨_, written, by simp [locks, Row.keys]⟩
    have stays : (view d us).payments.get p.id = d.payments.get p.id :=
      (protects_payment p.id _).view (free _ lock) rfl
    exact kept p hp r (stays.symm.trans found)

end

/-! ## Cases -/

/-- Every case has the amount and the currency of its payment. -/
def Db.Priced (d : Db) : Prop :=
  ∀ c ∈ d.cases, ∀ p ∈ d.payments, p.id = c.paymentId → c.amountMinor = p.amountMinor ∧
    c.currency = p.currency

section

variable {T : Type} {db : T → Db} {R : List Row → T → T → Prop} {allows : Db → Stmt → Prop}
  {carried : Option Claim} {t : T} {d' : Db}

/-- The row of the payment a failed event goes on with has the amount and the
currency of the object. -/
theorem WritesFailed.row {env : Draws} {merchant : Merchant} {entity : RazorpayPaymentEntity}
    {amountMinor : Int} {currency : String} {payment : Payment} {prs : List Row}
    (pay : WritesFailed db R env merchant entity amountMinor currency payment prs t)
    (kept : ∀ {t₀}, R [] t₀ t → (db t₀).payments.Extends Payment.SamePrice (db t).payments) :
    ∃ p ∈ (db t).payments.putAll (paymentsOf prs), payment.SamePrice p := by
  cases pay with
  | inserted unknown absent => exact ⟨_, Table.mem_put.2 (.inl rfl), rfl, rfl, rfl⟩
  | kept read same =>
    obtain ⟨t₀, h₀, found⟩ := read
    exact kept h₀ _ (Db.paymentOf_eq_some found).1
  | @updated old r _ read base =>
    obtain ⟨t₀, h₀, found⟩ := read
    obtain ⟨p, hp, same⟩ := kept h₀ _ (Db.paymentOf_eq_some found).1
    obtain ⟨hr, id⟩ := Table.get_eq_some.1 base
    obtain rfl : p = r := Table.eq_of_key hp hr (same.id.trans id.symm)
    refine ⟨_, Table.mem_put.2 (.inl rfl), same.id, ?_, ?_⟩
    · simp [Db.patchPayment, Db.changed, refailedPayment, same.amountMinor, eq_comm]
    · simp [Db.patchPayment, Db.changed, refailedPayment, same.currency, eq_comm]

/-- A case is there before, or it is new and has the price of a payment that is there. -/
theorem Work.opens [PyLib] (h : Work db R allows carried d' t)
    (kept : ∀ {t₀}, R [] t₀ t → (db t₀).payments.Extends Payment.SamePrice (db t).payments) :
    ∀ c' ∈ d'.cases, (∃ c ∈ (db t).cases, c.id = c'.id) ∨ ∃ p ∈ d'.payments, p.id = c'.paymentId ∧
      p.amountMinor = c'.amountMinor ∧ p.currency = c'.currency := by
  have known : ∀ {cs as os xs}, (db t).Changes d' cs as os xs →
      (∀ c ∈ cs, ∃ c₀ ∈ (db t).cases, c₀.id = c.id) →
      ∀ c' ∈ d'.cases, ∃ c ∈ (db t).cases, c.id = c'.id := by
    intro cs as os xs changes written c' hc'
    rcases Table.mem_or_of_mem_putAll (changes.cases ▸ hc') with new | old
    · exact written c' new
    · exact ⟨c', old, rfl⟩
  have single : ∀ {c r : RecoveryCase} {id : Uuid}, (db t).cases.get id = some r → c.id = r.id →
      ∀ c' ∈ [c], ∃ c₀ ∈ (db t).cases, c₀.id = c'.id := by
    intro c r id base same c' hc'
    obtain rfl := List.mem_singleton.1 hc'
    exact ⟨r, (Table.get_eq_some.1 base).1, same.symm⟩
  have moves : ∀ {new : RecoveryCaseStatus} {case : RecoveryCase} {rows : List Row},
      Moves db R new case rows t →
      ∀ c' ∈ casesOf rows, ∃ c₀ ∈ (db t).cases, c₀.id = c'.id := by
    intro new case rows h c' hc'
    obtain ⟨c₀, hc₀, same⟩ := h.same c' hc'
    exact ⟨c₀, hc₀, same.id.symm⟩
  intro c' hc'
  cases h with
  | quiet changes | noted _ _ _ _ changes | claimed _ _ _ changes | failed _ _ _ _ _ changes =>
    exact .inl (known changes (by simp) c' hc')
  | blocked taken _ changes | decided taken _ _ _ changes =>
    exact .inl (known changes (single taken.base rfl) c' hc')
  | cancelled _ stop _ changes => exact .inl (known changes (moves stop) c' hc')
  | executed _ _ _ waiting _ _ changes => exact .inl (known changes (moves waiting) c' hc')
  | activated _ _ base _ _ changes => exact .inl (known changes (single base rfl) c' hc')
  | recovered _ _ recovers _ _ changes =>
    exact .inl (known changes (single recovers.base rfl) c' hc')
  | created pay _ _ _ changes payments =>
    rcases Table.mem_or_of_mem_putAll (changes.cases ▸ hc') with new | old
    · obtain rfl := List.mem_singleton.1 new
      obtain ⟨p, hp, same⟩ := pay.row kept
      exact .inr ⟨p, payments ▸ hp, same.id, same.amountMinor, same.currency⟩
    · exact .inl ⟨c', old, rfl⟩

end

section

variable {settings : Settings} {d : Db} {allows : Db → Stmt → Bool} {log log' : Ledger}

/-- Along a ledger payments keep their amounts and currencies. -/
theorem prices_of_suffix
    (tracked :
      Legal (fun log (e : Event Process Claim Row) => KeepsPrices (dbOf d log) e.writes) log')
    (h : log <:+ log') :
    (dbOf d log).payments.Extends Payment.SamePrice (dbOf d log').payments := by
  obtain ⟨before, rfl⟩ := h
  induction before with
  | nil => exact fun p hp => ⟨p, hp, .refl p⟩
  | cons e before ih =>
    refine Table.Extends.trans (fun h h' => h.trans h') (ih tracked.1) ?_
    rw [List.cons_append, dbOf, view_payments]
    exact Table.Agrees.extends .refl tracked.2

variable [PyLib]

theorem priced_of_legal (sound : d.Sound) (priced : d.Priced)
    (legal : Legal (Good settings d allows) log)
    (tracked :
      Legal (fun log (e : Event Process Claim Row) => KeepsPrices (dbOf d log) e.writes) log) :
    (dbOf d log).Priced := by
  induction log with
  | nil => exact priced
  | cons e log ih =>
    cases e with
    | call => exact ih legal.1 tracked.1
    | commit pid p us q =>
      intro c' hc' p' hp' link
      have prices := prices_of_suffix tracked (List.suffix_cons _ _)
      have keeps : ∀ {log₀}, Since pid [] log₀ log →
          (dbOf d log₀).payments.Extends Payment.SamePrice (dbOf d log).payments := fun since =>
        prices_of_suffix tracked.1 since.suffix
      rcases legal.2.2.work.opens keeps c' hc' with ⟨c, hc, id⟩ | ⟨p₀, hp₀, own, amount, currency⟩
      · -- The case was there, and so was its payment.
        obtain ⟨c'', hc'', same⟩ := legal.grows.cases c hc
        obtain rfl : c'' = c' := Table.eq_of_key hc'' hc' (same.id.trans id)
        have now := sound_of_legal sound legal.1 log (List.suffix_refl _)
        obtain ⟨p, hp, pid, -⟩ := now.case c hc
        obtain ⟨p'', hp'', samePrice⟩ := prices p hp
        obtain rfl : p'' = p' := Table.eq_of_key hp'' hp'
          (samePrice.id.trans (pid.trans (same.paymentId.symm.trans link.symm)))
        obtain ⟨amount, currency⟩ := ih legal.1 tracked.1 c hc p hp pid
        exact ⟨same.amountMinor.trans (amount.trans samePrice.amountMinor.symm),
          same.currency.trans (currency.trans samePrice.currency.symm)⟩
      · obtain rfl : p₀ = p' := Table.eq_of_key hp₀ hp' (own.trans link.symm)
        exact ⟨amount.symm, currency.symm⟩

/-- Runs in which failed events repeat amount and currency of the payment they find. -/
def repeatingService (settings : Settings) :
    Program Stmt Stmt.Ans Db Err Process Env Claim ExternalReply :=
  { service settings with allows := repeatsPrice }

theorem cases_priced {merchants : Table Merchant} {policies : Table MerchantPolicy}
    {s : Run Stmt Stmt.Ans Db Err Process Claim Row}
    (run : (repeatingService settings).Reaches (.initial merchants policies) s) : s.db.Priced := by
  have code : (repeatingService settings).act = Process.act settings := rfl
  obtain ⟨legal, db⟩ := run.legal code fun _ h => h
  have tracked := (outline (d := .initial merchants policies) code fun _ h => h).tracked
    (tracks_prices fun _ _ h => h) run
  rw [db]
  exact priced_of_legal (Db.sound_initial merchants policies)
    (fun _ h => absurd h List.not_mem_nil) legal tracked.log

end

/-- Amounts of the cases and of the payments. -/
def amounts (d : Db) : List Int × List Int :=
  (d.cases.rows.map RecoveryCase.amountMinor, d.payments.rows.map Payment.amountMinor)

/-- The payment of `expiredInstrument` fails again, as a second event tells. -/
def failedTwice (second : Recorded) : List (Nat × Move Err Process Env ExternalReply) :=
  (0, .spawn (.webhook expiredInstrument.request)) :: transaction 0 (.numbered 1) 11 ++
  (1, .spawn (.webhook second.request)) :: transaction 1 (.numbered 2) 6

/-- `{"id":"e6","event":"payment.failed","payload":{"payment":{"entity":{"id":"p1",
"amount":5000,"currency":"INR","error_code":"expired_instrument"}}}}` -/
def failedAgain : Recorded where
  body :=
    [123, 34, 105, 100, 34, 58, 34, 101, 54, 34, 44, 34, 101, 118, 101, 110, 116, 34, 58, 34, 112,
    97, 121, 109, 101, 110, 116, 46, 102, 97, 105, 108, 101, 100, 34, 44, 34, 112, 97, 121, 108,
    111, 97, 100, 34, 58, 123, 34, 112, 97, 121, 109, 101, 110, 116, 34, 58, 123, 34, 101, 110,
    116, 105, 116, 121, 34, 58, 123, 34, 105, 100, 34, 58, 34, 112, 49, 34, 44, 34, 97, 109, 111,
    117, 110, 116, 34, 58, 53, 48, 48, 48, 44, 34, 99, 117, 114, 114, 101, 110, 99, 121, 34, 58,
    34, 73, 78, 82, 34, 44, 34, 101, 114, 114, 111, 114, 95, 99, 111, 100, 101, 34, 58, 34, 101,
    120, 112, 105, 114, 101, 100, 95, 105, 110, 115, 116, 114, 117, 109, 101, 110, 116, 34, 125,
    125, 125, 125]
  signature := "aa9f38e8500296e2231c3093288dffe14f173bb00ab0c9a49bbe2acea0aef09b"
  value := .obj [("id", .str "e6"), ("event", .str "payment.failed"), ("payload", .obj [("payment",
    .obj [("entity", .obj [("id", .str "p1"), ("amount", .int 5000), ("currency", .str "INR"),
      ("error_code", .str "expired_instrument")])])])]

theorem cases_priced_sample :
    ∃ s, (@repeatingService (.recorded [expiredInstrument, failedAgain]) {}).moves
      (.initial sampleDb) (failedTwice failedAgain) = some s ∧
    s.db.payments.rows.map (·.failedAt) = [some 2] ∧ amounts s.db = ([5000], [5000]) ∧
      s.db.Priced := by
  let _ : PyLib := .recorded [expiredInstrument, failedAgain]
  have same :
      ((repeatingService {}).moves (.initial sampleDb) (failedTwice failedAgain)).map (fun s =>
      (s.db.payments.rows.map (·.failedAt), amounts s.db)) = some ([some 2], [5000], [5000]) := by
    decide +kernel
  obtain ⟨s, run, same⟩ := Option.map_eq_some_iff.1 same
  obtain ⟨again, same⟩ := Prod.mk.inj same
  exact ⟨s, run, again, same, cases_priced (.moves .refl run)⟩

/-- `{"id":"e3","event":"payment.failed","payload":{"payment":{"entity":{"id":"p1",
"amount":7000,"currency":"INR","error_code":"expired_instrument"}}}}` -/
def refailed : Recorded where
  body :=
    [123, 34, 105, 100, 34, 58, 34, 101, 51, 34, 44, 34, 101, 118, 101, 110, 116, 34, 58, 34,
    112, 97, 121, 109, 101, 110, 116, 46, 102, 97, 105, 108, 101, 100, 34, 44, 34, 112, 97, 121,
    108, 111, 97, 100, 34, 58, 123, 34, 112, 97, 121, 109, 101, 110, 116, 34, 58, 123, 34, 101,
    110, 116, 105, 116, 121, 34, 58, 123, 34, 105, 100, 34, 58, 34, 112, 49, 34, 44, 34, 97,
    109, 111, 117, 110, 116, 34, 58, 55, 48, 48, 48, 44, 34, 99, 117, 114, 114, 101, 110, 99,
    121, 34, 58, 34, 73, 78, 82, 34, 44, 34, 101, 114, 114, 111, 114, 95, 99, 111, 100, 101, 34,
    58, 34, 101, 120, 112, 105, 114, 101, 100, 95, 105, 110, 115, 116, 114, 117, 109, 101, 110,
    116, 34, 125, 125, 125, 125]
  signature := "16ef920e16ebcd556e3def8c4e61622a600a10281c8c2f4e1641fe3f134ec8b2"
  value := .obj [("id", .str "e3"), ("event", .str "payment.failed"), ("payload", .obj [("payment",
    .obj [("entity", .obj [("id", .str "p1"), ("amount", .int 7000), ("currency", .str "INR"),
      ("error_code", .str "expired_instrument")])])])]

/-- The payment has the second amount, the case the first one. -/
theorem case_underpriced : ∃ s,
    (@service (.recorded [expiredInstrument, refailed]) {}).Reaches sampleDb s ∧ ¬ s.db.Priced := by
  let _ : PyLib := .recorded [expiredInstrument, refailed]
  have two : ((service {}).moves (.initial sampleDb) (failedTwice refailed)).map (fun s =>
      s.db.cases.rows.any fun c => s.db.payments.rows.any fun p => p.id = c.paymentId &&
        c.amountMinor ≠ p.amountMinor) =
      some true := by decide +kernel
  obtain ⟨s, run, two⟩ := Option.map_eq_some_iff.1 two
  refine ⟨s, .moves .refl run, fun priced => ?_⟩
  simp only [List.any_eq_true, Bool.and_eq_true, decide_eq_true_eq] at two
  obtain ⟨c, hc, p, hp, own, other⟩ := two
  exact other (priced c hc p hp own).1

end RecoverAI
