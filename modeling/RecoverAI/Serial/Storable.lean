import RecoverAI.Serial.Columns

/-!
# Events and their columns

A validated event may hold values its columns do not take: pydantic and the money checks bound
neither the amount nor the lengths of the texts, and letters are not only `A` to `Z`. The
columns are met where the fields of the event, the request id and the version of the case to be
advanced are in their range.
-/
namespace RecoverAI

open Store Txn

/-! ## Events -/

/-- The merchant has no payment of that id, but one whose id the new row would get. -/
def Clashes (d : Db) (merchantId : Uuid) (id : String) : Prop :=
  d.paymentOf merchantId id = none ∧ d.paymentOf merchantId (assigned 128 id) ≠ none

theorem Clashes.free {d : Db} {merchantId : Uuid} {id : String} (free : ¬ Clashes d merchantId id)
    (unknown : d.paymentOf merchantId id = none) :
    d.paymentOf merchantId (assigned 128 id) = none := by
  by_contra taken
  exact free ⟨unknown, taken⟩

/-- A row that clashes is refused; for its key alone where its columns take it. -/
theorem insertError_clashes {d : Db} {new : Payment} {id : String}
    (clash : Clashes d new.merchantId id) (provider : new.provider = "razorpay")
    (key : new.providerPaymentId = assigned 128 id) (nonneg : 0 ≤ new.amountMinor) :
    ∃ e, d.insertError (.payment new) = some e ∧
      (e = .integrity ∧ currencyCheck new.currency ↔ (Row.payment new).Stored) := by
  cases fits : (Row.payment new).fits with
  | false => exact ⟨.data, by simp [Db.insertError, fits], by simp [Row.Stored, fits]⟩
  | true =>
    obtain ⟨p, read⟩ := Option.ne_none_iff_exists'.1 clash.2
    obtain ⟨hp, known⟩ := Table.mem_of_find read
    simp only [Bool.and_eq_true, decide_eq_true_eq, and_assoc] at known
    have taken : ¬ ∀ k ∈ (Row.payment new).keys, d.lacks k := fun lacks =>
      lacks (.paymentOf new.merchantId "razorpay" (assigned 128 id))
        (by simp [Row.keys, provider, key]) p hp known
    exact ⟨.integrity, insertError_of_hasKey fits taken,
      by simp [Row.Stored, Row.checks, fits, nonneg]⟩

/-- What a failed event needs of the columns: room for the payment unless it is captured already,
and for the case that is created or activated. -/
def FailedFits (d : Db) (merchant : Merchant) (entity : RazorpayPaymentEntity) (amountMinor : Int)
    (currency : String) (correlationId : Option String) : Prop :=
  match d.paymentOf merchant.id entity.id with
  | none => (EntityFits entity amountMinor currency ∧ FailureFits entity) ∧
    (¬ Clashes d merchant.id entity.id → correlationId.all (assignable 64))
  | some payment => payment.status ≠ .captured →
    (EntityFits entity amountMinor currency ∧ FailureFits entity) ∧
    match d.caseOf payment.id with
    | none => correlationId.all (assignable 64)
    | some case => case.status = .failed → integer (case.version + 1) ∧
      correlationId.all (assignable 64)

/-- The case a captured event arrives at. -/
def reachedCase [PyText] (d : Db) (merchant : Merchant) (entity : RazorpayPaymentEntity) :
    Option RecoveryCase :=
  match (notedCaseId entity).bind fun id =>
    (d.cases.get id).filter (·.merchantId = merchant.id) with
  | some case => some case
  | none => (d.paymentOf merchant.id entity.id).bind fun payment => d.caseOf payment.id

/-- What a captured event needs of the columns: room for an unknown payment, and for the
case that is recovered. -/
def CapturedFits [PyText] (d : Db) (merchant : Merchant) (entity : RazorpayPaymentEntity)
    (amountMinor : Int) (currency : String) (correlationId : Option String) : Prop :=
  (d.paymentOf merchant.id entity.id = none → EntityFits entity amountMinor currency) ∧
    (¬ Clashes d merchant.id entity.id → ∀ case,
      reachedCase d merchant entity = some case → case.status.isTerminal = false →
      integer (case.version + 1) ∧ correlationId.all (assignable 64))

section

variable [PyText] {env : Draws} {merchant : Merchant} {d : Db} {entity : RazorpayPaymentEntity}
  {amountMinor : Int} {currency : String} {correlationId : Option String}

/-- The rest of a failed event, once its payment is written. -/
theorem succeeds_failedCase {payment : Payment} (ready : Ready env merchant d)
    (fresh : d.lacks (.recoveryCase env.caseId))
    (cases : ∀ c ∈ d.cases, (Row.recoveryCase c).Stored)
    (stored : (Row.payment payment.assigned).Stored) (known : (d.payments.get payment.id).isSome) :
    (do
      match ← getRecoveryCaseByPayment payment.id with
      | none => createCase env merchant entity correlationId payment
      | some case =>
        if case.status = .failed then
          activateCase case
          insertAudit env merchant case "recovery_case.eligible" correlationId
            [("payment_id", .str payment.id.str),
              ("from_status", .str RecoveryCaseStatus.failed.value),
              ("to_status", .str RecoveryCaseStatus.eligible.value)]
          insertOutboxIfMissing (eligibleOutbox env merchant payment case)
          return [("outcome", .str "recovery_case_activated"),
            ("recovery_case_id", .str case.id.str)]
        else
          return [("outcome", .str "recovery_case_already_exists"),
            ("recovery_case_id", .str case.id.str)] :
      Tx Fields).Succeeds (fun _ _ => True) d ↔
      match d.caseOf payment.id with
      | none => correlationId.all (assignable 64)
      | some case => case.status = .failed → integer (case.version + 1) ∧
        correlationId.all (assignable 64) := by
  have run : (getRecoveryCaseByPayment payment.id).run d = .ok (d.caseOf payment.id, d) := rfl
  rw [succeeds_bind, succeeds_of_run_ok run]
  cases found : d.caseOf payment.id with
  | none => exact succeeds_createCase ready fresh stored known found
  | some case =>
    have hc := (Table.mem_of_find found).1
    by_cases failed : case.status = .failed
    · simp only [failed, if_true, forall_const]
      exact succeeds_activate ready (Table.get_of_mem hc) (cases case hc) failed _
    · simp [failed]

/-- A clash leaves the rest of the handler out. -/
theorem run_handlePaymentFailed_clash (clash : Clashes d merchant.id entity.id)
    (nonneg : 0 ≤ amountMinor) : ∃ e,
    (handlePaymentFailed env merchant entity amountMinor currency correlationId).run d =
      .error (.db e) ∧
      (e = .integrity ∧ currencyCheck currency ↔
        FailedFits d merchant entity amountMinor currency correlationId) := by
  have run : (getPaymentByProvider merchant.id entity.id).run d =
      .ok (d.paymentOf merchant.id entity.id, d) := rfl
  obtain ⟨e, error, stored⟩ := @insertError_clashes d
    (newFailedPayment env merchant entity amountMinor currency).assigned entity.id clash
      rfl rfl nonneg
  refine ⟨e, ?_, ?_⟩
  · unfold handlePaymentFailed
    rw [run_bind_ok run, clash.1]
    exact run_bind_error (run_bind_error (run_insert_error error))
  · rw [FailedFits, clash.1]
    simp only [clash, not_true_eq_false, false_implies, and_true]
    exact stored.trans (stored_newFailedPayment nonneg)

theorem succeeds_handlePaymentFailed (ground : Ground env merchant d) (nonneg : 0 ≤ amountMinor)
    (free : ¬ Clashes d merchant.id entity.id) :
    (handlePaymentFailed env merchant entity amountMinor currency correlationId).Succeeds
      (fun _ _ => True) d ↔
      FailedFits d merchant entity amountMinor currency correlationId := by
  have run : (getPaymentByProvider merchant.id entity.id).run d =
      .ok (d.paymentOf merchant.id entity.id, d) := rfl
  have cases : ∀ c ∈ d.cases, (Row.recoveryCase c).Stored := fun c hc => (ground.cases c hc).1
  unfold handlePaymentFailed FailedFits
  rw [succeeds_bind, succeeds_of_run_ok run]
  cases found : d.paymentOf merchant.id entity.id with
  | none =>
    simp only [Option.filter_none, writeFailedPayment, free, not_false_eq_true, forall_const]
    generalize hnew : newFailedPayment env merchant entity amountMinor currency = new
    have insertable :=
      @Ground.insertable env merchant d ground new.assigned (hnew ▸ rfl) (hnew ▸ rfl) (hnew ▸ rfl)
    have unknown : d.paymentOf merchant.id new.assigned.providerPaymentId = none :=
      hnew ▸ Clashes.free free found
    have stored : (Row.payment new.assigned).Stored ↔ _ := hnew ▸ stored_newFailedPayment nonneg
    rw [succeeds_bind, succeeds_bind, succeeds_insert, insertable, and_iff_left unknown, stored]
    refine and_congr_right fun fits => ?_
    have known : ((d.put (.payment new.assigned)).payments.get new.id).isSome := by
      rw [show (d.put (.payment new.assigned)).payments.get new.id =
        some _ from Table.get_put_self d.payments _]
      rfl
    have ready : Ready env merchant (d.put (.payment new.assigned)) :=
      ⟨ground.merchant, ground.outbox, ground.audit⟩
    have none : (d.put (.payment new.assigned)).caseOf new.id = none := hnew ▸ ground.caseOf_new
    have rest := @succeeds_failedCase _ env merchant _ entity correlationId new ready
      ground.case cases
      (stored.2 fits) known
    rw [none] at rest
    exact (succeeds_pure _).trans rest
  | some old =>
    obtain ⟨base, id⟩ := Db.paymentOf_spec found
    have storedOld := ground.payments old (Table.get_eq_some.1 base).1
    by_cases captured : old.status = .captured
    · simp [Option.filter, captured]
    · simp only [Option.filter_some, captured, decide_false, Bool.false_eq_true, if_false,
        not_false_eq_true, forall_const, ne_eq, writeFailedPayment]
      rw [succeeds_bind, succeeds_bind]
      have stored := @stored_refailedPayment env entity amountMinor currency old storedOld id nonneg
      by_cases same : old = refailedPayment env entity amountMinor currency old
      · have idle :
            (query (.flushPayment old (refailedPayment env entity amountMinor currency old))).run
            d =
            .ok ((), d) := by
          rw [← same]
          exact run_flushPayment_idle old
        have fits := stored.1 (by rw [← same, assigned_of_stored storedOld]; exact storedOld)
        rw [succeeds_of_run_ok idle]
        refine ((succeeds_pure _).trans ?_).trans (and_iff_right fits).symm
        exact succeeds_failedCase ground.toReady ground.case cases (stored.2 fits) (base ▸ rfl)
      · rw [succeeds_flushPayment base same, patchPayment_refailed storedOld, stored]
        refine and_congr_right fun fits => (succeeds_pure _).trans ?_
        generalize hnew : refailedPayment env entity amountMinor currency old = new at stored ⊢
        have ready : Ready env merchant (d.put (.payment new.assigned)) :=
          ⟨ground.merchant, ground.outbox, ground.audit⟩
        have known : ((d.put (.payment new.assigned)).payments.get new.id).isSome := by
          rw [show (d.put (.payment new.assigned)).payments.get new.id =
            some _ from Table.get_put_self d.payments _]
          rfl
        rw [show old.id = new.id from hnew ▸ rfl]
        exact @succeeds_failedCase _ env merchant _ entity correlationId new ready ground.case
          cases (stored.2 fits) known

/-- A captured event ends at the case that the notes or the payment lead to. -/
theorem succeeds_capturedCase {payment : Payment} (ready : Ready env merchant d)
    (cases : ∀ c ∈ d.cases, (Row.recoveryCase c).Stored)
    (clean : hasNul payment.providerPaymentId = false) :
    (do
      match notedCaseId entity with
      | none => recoverOwnCase env merchant correlationId payment none
      | some id =>
        let loaded ← query (.selectCase (·.id = id))
        match loaded.filter (·.merchantId = merchant.id) with
        | some case => markCaseRecovered env merchant correlationId payment case
        | none => recoverOwnCase env merchant correlationId payment loaded :
          Tx Fields).Succeeds (fun _ _ => True) d ↔
      ∀ case, (match (notedCaseId entity).bind fun id =>
        (d.cases.get id).filter (·.merchantId = merchant.id) with
        | some case => some case
        | none => d.caseOf payment.id) = some case → case.status.isTerminal = false →
        integer (case.version + 1) ∧ correlationId.all (assignable 64) := by
  have marked : ∀ case ∈ d.cases,
      (markCaseRecovered env merchant correlationId payment case).Succeeds (fun _ _ => True) d ↔
      ∀ c, some case = some c → c.status.isTerminal = false → integer (c.version + 1) ∧
        correlationId.all (assignable 64) := by
    intro case hc
    simpa using succeeds_markCaseRecovered ready (Table.get_of_mem hc) (cases case hc) clean
  have own : ∀ loaded : Option RecoveryCase, (∀ c, loaded = some c → c ∈ d.cases) →
      ((recoverOwnCase env merchant correlationId payment loaded).Succeeds (fun _ _ => True) d ↔
        ∀ c, d.caseOf payment.id = some c → c.status.isTerminal = false →
          integer (c.version + 1) ∧ correlationId.all (assignable 64)) := by
    intro loaded there
    have run : (getRecoveryCaseByPayment payment.id).run d = .ok (d.caseOf payment.id, d) := rfl
    rw [recoverOwnCase, succeeds_bind, succeeds_of_run_ok run]
    cases found : d.caseOf payment.id with
    | none => simp
    | some case =>
      have hc := (Table.mem_of_find found).1
      have same : identify loaded case = case := by
        cases kept : loaded.filter (·.id = case.id) with
        | none => simp [identify, kept]
        | some c =>
          obtain ⟨hl, id⟩ := Option.filter_eq_some_iff.1 kept
          simp [identify, kept, Table.eq_of_key (there c hl) hc (of_decide_eq_true id)]
      simp only [same]
      exact marked case hc
  cases noted : notedCaseId entity with
  | none => exact own none fun c h => by cases h
  | some id =>
    have run : (query (.selectCase (·.id = id))).run d = .ok (d.cases.get id, d) := rfl
    simp only [Option.bind_some]
    rw [succeeds_bind, succeeds_of_run_ok run]
    cases found : (d.cases.get id).filter (·.merchantId = merchant.id) with
    | none => exact own _ fun c hc => (Table.get_eq_some.1 hc).1
    | some case => exact marked case (Table.get_eq_some.1 (Option.filter_eq_some_iff.1 found).1).1

theorem run_handlePaymentCaptured_clash (clash : Clashes d merchant.id entity.id)
    (nonneg : 0 ≤ amountMinor) : ∃ e,
    (handlePaymentCaptured env merchant correlationId entity amountMinor currency).run d =
      .error (.db e) ∧
      (e = .integrity ∧ currencyCheck currency ↔
        CapturedFits d merchant entity amountMinor currency correlationId) := by
  have run : (getPaymentByProvider merchant.id entity.id).run d =
      .ok (d.paymentOf merchant.id entity.id, d) := rfl
  obtain ⟨e, error, stored⟩ := @insertError_clashes d
    (newCapturedPayment env merchant entity amountMinor currency).assigned entity.id clash
      rfl rfl nonneg
  refine ⟨e, ?_, ?_⟩
  · unfold handlePaymentCaptured
    rw [run_bind_ok run, clash.1]
    exact run_bind_error (run_bind_error (run_insert_error error))
  · rw [CapturedFits]
    simp only [clash, clash.1, not_true_eq_false, false_implies, and_true, forall_const]
    exact stored.trans (stored_newCapturedPayment nonneg)

theorem succeeds_handlePaymentCaptured (ground : Ground env merchant d) (nonneg : 0 ≤ amountMinor)
    (free : ¬ Clashes d merchant.id entity.id) :
    (handlePaymentCaptured env merchant correlationId entity amountMinor currency).Succeeds
      (fun _ _ => True) d ↔
      CapturedFits d merchant entity amountMinor currency correlationId := by
  have run : (getPaymentByProvider merchant.id entity.id).run d =
      .ok (d.paymentOf merchant.id entity.id, d) := rfl
  have cases : ∀ c ∈ d.cases, (Row.recoveryCase c).Stored := fun c hc => (ground.cases c hc).1
  unfold handlePaymentCaptured CapturedFits reachedCase
  rw [succeeds_bind, succeeds_of_run_ok run]
  cases found : d.paymentOf merchant.id entity.id with
  | none =>
    simp only [writeCapturedPayment, free, not_false_eq_true, forall_const, Option.bind_none]
    generalize hnew : newCapturedPayment env merchant entity amountMinor currency = new
    have insertable :=
      @Ground.insertable env merchant d ground new.assigned (hnew ▸ rfl) (hnew ▸ rfl) (hnew ▸ rfl)
    have unknown : d.paymentOf merchant.id new.assigned.providerPaymentId = none :=
      hnew ▸ Clashes.free free found
    have stored : (Row.payment new.assigned).Stored ↔ _ := hnew ▸ stored_newCapturedPayment nonneg
    rw [succeeds_bind, succeeds_bind, succeeds_insert, insertable, and_iff_left unknown, stored]
    refine and_congr_right fun fits => (succeeds_pure _).trans ?_
    have ready : Ready env merchant (d.put (.payment new.assigned)) :=
      ⟨ground.merchant, ground.outbox, ground.audit⟩
    have clean : hasNul new.providerPaymentId = false :=
      hnew ▸ (hasNul_assigned 128 entity.id).symm.trans (hasNul_of_varchar fits.id)
    have rest := @succeeds_capturedCase _ env merchant _ entity correlationId new ready cases clean
    have none : (d.put (.payment new.assigned)).caseOf new.id = none := hnew ▸ ground.caseOf_new
    rw [none] at rest
    exact rest
  | some old =>
    obtain ⟨base, id⟩ := Db.paymentOf_spec found
    have storedOld := ground.payments old (Table.get_eq_some.1 base).1
    have clean : hasNul old.providerPaymentId = false := by
      have fits := storedOld.1
      simp only [Row.fits, Bool.and_eq_true] at fits
      exact hasNul_of_varchar fits.1.1.1.1.2
    simp only [reduceCtorEq, false_implies, true_and, free, not_false_eq_true, forall_const,
      Option.bind_some, writeCapturedPayment]
    by_cases captured : old.status = .captured
    · simp only [captured, ne_eq, not_true_eq_false, if_false]
      exact (succeeds_bind _ _).trans
        ((succeeds_pure _).trans (succeeds_capturedCase ground.toReady cases clean))
    · have other : old ≠ capturedPayment env old := fun same => captured (by rw [same]; rfl)
      have patched : Db.patchPayment old (capturedPayment env old) old =
          capturedPayment env old := by
        simp [Db.patchPayment, Db.changedText, capturedPayment]
      simp only [captured, ne_eq, not_false_eq_true, if_true]
      rw [succeeds_bind, succeeds_bind, succeeds_flushPayment base other, patched,
        and_iff_right (stored_capturedPayment storedOld)]
      have ready : Ready env merchant (d.put (.payment (capturedPayment env old))) :=
        ⟨ground.merchant, ground.outbox, ground.audit⟩
      exact (succeeds_pure _).trans (@succeeds_capturedCase _ env merchant _ entity correlationId
        (capturedPayment env old) ready cases clean)

end

/-! ## Rows -/

section

variable {d d' : Db}

theorem stored_view {ws : List Row} (stored : ∀ r ∈ d.rows, r.Stored)
    (written : ∀ r ∈ ws, r.Stored) : ∀ r ∈ (view d ws).rows, r.Stored := by
  induction ws generalizing d with
  | nil => exact stored
  | cons w ws ih =>
    refine ih (fun r hr => ?_) fun r hr => written r (List.mem_cons_of_mem w hr)
    rcases Db.mem_rows_put hr with rfl | old
    · exact written r (List.mem_cons_self ..)
    · exact stored r old

theorem stored_write {α : Type} {error : Option DbError} {r : Row} {a : α}
    (ok : error = none → r.Stored) : ∀ s ∈ (Db.write error r a).2, s.Stored := by
  cases error with
  | none => simpa [Db.write] using ok rfl
  | some e => simp [Db.write]

/-- A statement writes rows that their columns take. -/
theorem stored_exec (st : Stmt) (stored : ∀ r ∈ d.rows, r.Stored) :
    ∀ r ∈ (exec st d).2, r.Stored := by
  have flush : ∀ {α : Type} {found : Option α} {patch : α → Row}, ∀ r ∈ (Db.flush found patch).2,
      r.Stored := by
    intro α found patch
    cases found with
    | none => simp [Db.flush]
    | some a => exact stored_write updateError_eq_none.1
  have updateWhere : ∀ {α : Type} {found : Option α} {p : α → Bool} {set : α → Row},
      ∀ r ∈ (Db.updateWhere found p set).2, r.Stored := by
    intro α found p set
    unfold Db.updateWhere
    split
    · simp
    · exact stored_write updateError_eq_none.1
  cases st with
  | insert r =>
    exact stored_write fun ok =>
      ⟨(insertError_eq_none.1 ok).fits, (insertError_eq_none.1 ok).checks⟩
  | updateCase | updateAction => exact updateWhere
  | flushCase | flushAction | flushWebhookEvent => exact flush
  | flushPayment old new =>
    intro r hr
    by_cases same : old = new
    · simp [exec, Db.exec, same] at hr
    · exact flush r (by simpa [exec, Db.exec, same] using hr)
  | cancelActions =>
    intro r hr
    obtain ⟨a, ha, rfl⟩ := List.mem_map.1 hr
    exact stored (.action a) (Db.mem_rows_action.2 (Table.mem_filter.1 ha).1)
  | _ => simp [exec, Db.exec]

theorem stored_run {α : Type} {t : Tx α} {a : α} (stored : ∀ r ∈ d.rows, r.Stored)
    (run : t.run d = .ok (a, d')) : ∃ ws, d' = view d ws ∧ ∀ r ∈ ws, r.Stored := by
  induction t generalizing d with
  | pure b =>
    cases run
    exact ⟨[], rfl, fun r hr => absurd hr List.not_mem_nil⟩
  | throw e => cases run
  | sql st next ih =>
    have written := stored_exec st stored
    obtain ⟨ws, rfl, rest⟩ := ih _ (stored_view stored written) run
    refine ⟨(exec st d).2 ++ ws, (view_append ..).symm, fun r hr => ?_⟩
    exact (List.mem_append.1 hr).elim (written r) (rest r)

end

/-! ## Requests -/

section

variable [PyLib] (settings : Settings) (env : Draws) (request : Request) (d : Db)
  (webhook : RazorpayWebhook)

/-- An event is processed with rows that their columns take, or a row is refused for a key that is
taken: the inbox row of an event that was recorded before, or the payment. -/
def StoresAll : Prop :=
  (∃ response ws, (razorpayWebhook settings env request).run d = .ok (response, view d ws) ∧
    ∀ r ∈ ws, r.Stored) ∨
  RecordedBefore request d webhook ∧
    (razorpayWebhook settings env request).run d = .error .duplicateWebhook ∨
  (webhook.event ∈ supportedEvents ∧ ∃ entity amountMinor currency,
    Validated webhook entity amountMinor currency ∧
      currencyCheck currency ∧ Clashes d request.merchantId entity.id) ∧
    (razorpayWebhook settings env request).run d = .error (.db .integrity)

/-- The columns take the fields of the event, of the inbox row and, unless it is a
duplicate, of the other rows. -/
structure ColumnsFit (merchant : Merchant) : Prop where
  providerEventId : assignable 128 (extractProviderEventId webhook request.rawBody)
  eventType : assignable 128 webhook.event
  payload : (Json.obj webhook.dump).storable
  failed : ¬ RecordedBefore request d webhook → webhook.event = "payment.failed" →
    ∀ entity amountMinor currency, Validated webhook entity amountMinor currency →
      FailedFits d merchant entity amountMinor currency (some request.requestId)
  captured : ¬ RecordedBefore request d webhook → webhook.event = "payment.captured" →
    ∀ entity amountMinor currency, Validated webhook entity amountMinor currency →
      CapturedFits d merchant entity amountMinor currency (some request.requestId)

variable {settings env request d webhook} {merchant : Merchant}

theorem Validated.nonneg {entity : RazorpayPaymentEntity} {amountMinor : Int} {currency : String}
    (valid : Validated webhook entity amountMinor currency) : 0 ≤ amountMinor := by
  have priced := valid.priced
  unfold validateAmountMinor at priced
  split at priced
  · cases priced
  · cases priced
    omega

/-- What the processing of an event needs of the columns. -/
def ProcessFits (d : Db) (merchant : Merchant) (webhook : RazorpayWebhook)
    (correlationId : Option String) : Prop :=
  ∀ entity amountMinor currency, Validated webhook entity amountMinor currency →
    (webhook.event = "payment.failed" →
      FailedFits d merchant entity amountMinor currency correlationId) ∧
    (webhook.event = "payment.captured" →
      CapturedFits d merchant entity amountMinor currency correlationId)

section

variable {entity : RazorpayPaymentEntity} {amountMinor : Int} {currency : String}
  {correlationId : Option String}

theorem Validated.unique {entity' : RazorpayPaymentEntity} {amountMinor' : Int} {currency' : String}
    (valid : Validated webhook entity amountMinor currency)
    (valid' : Validated webhook entity' amountMinor' currency') :
    entity = entity' ∧ amountMinor = amountMinor' ∧ currency = currency' := by
  cases valid.extracted.symm.trans valid'.extracted
  cases valid.priced.symm.trans valid'.priced
  cases valid.normalized.symm.trans valid'.normalized
  exact ⟨rfl, rfl, rfl⟩

theorem Validated.fits_iff (valid : Validated webhook entity amountMinor currency) :
    ProcessFits d merchant webhook correlationId ↔
      (webhook.event = "payment.failed" →
        FailedFits d merchant entity amountMinor currency correlationId) ∧
      (webhook.event = "payment.captured" →
        CapturedFits d merchant entity amountMinor currency correlationId) := by
  refine ⟨fun h => h _ _ _ valid, fun h e a c valid' => ?_⟩
  obtain ⟨rfl, rfl, rfl⟩ := valid.unique valid'
  exact h

/-- A valid event goes to its handler. -/
theorem Validated.process (valid : Validated webhook entity amountMinor currency)
    (supported : webhook.event ∈ supportedEvents) :
    webhook.event = "payment.failed" ∧ processRazorpayEvent env merchant webhook correlationId =
        (do
          let result ← handlePaymentFailed env merchant entity amountMinor currency correlationId
          return (WebhookEventStatus.processed, ("status", .str "accepted") :: result)) ∨
      webhook.event = "payment.captured" ∧ processRazorpayEvent env merchant webhook correlationId =
        (do
          let result ← handlePaymentCaptured env merchant correlationId entity amountMinor currency
          return (WebhookEventStatus.processed, ("status", .str "accepted") :: result)) := by
  have extracted : orValueError (extractPaymentEntity webhook) = .pure entity := by
    rw [valid.extracted]; rfl
  have priced : orValueError (validateAmountMinor entity.amount) = .pure amountMinor := by
    rw [valid.priced]; rfl
  have normalized : orValueError (normalizeCurrency entity.currency) = .pure currency := by
    rw [valid.normalized]; rfl
  rw [processRazorpayEvent, if_neg (not_not.2 supported), extracted, pure_bind, priced, pure_bind,
    normalized, pure_bind]
  rcases (by simpa [supportedEvents] using supported :
    webhook.event = "payment.failed" ∨ webhook.event = "payment.captured") with failed | captured
  · rw [if_pos failed]
    exact .inl ⟨failed, rfl⟩
  · rw [if_neg (by simp [captured])]
    exact .inr ⟨captured, rfl⟩

theorem Validated.succeeds_iff (ground : Ground env merchant d)
    (valid : Validated webhook entity amountMinor currency)
    (supported : webhook.event ∈ supportedEvents) (free : ¬ Clashes d merchant.id entity.id) :
    (processRazorpayEvent env merchant webhook correlationId).Succeeds (fun _ _ => True) d ↔
      ProcessFits d merchant webhook correlationId := by
  rw [valid.fits_iff]
  rcases valid.process supported with ⟨failed, code⟩ | ⟨captured, code⟩
  · rw [code]
    refine (succeeds_map _ _).trans
      ((succeeds_handlePaymentFailed ground valid.nonneg free).trans ?_)
    simp [failed]
  · rw [code]
    refine (succeeds_map _ _).trans
      ((succeeds_handlePaymentCaptured ground valid.nonneg free).trans ?_)
    simp [captured]

theorem succeeds_processRazorpayEvent (ground : Ground env merchant d)
    (wellFormed : ¬ Malformed webhook)
    (free : webhook.event ∈ supportedEvents → ∀ entity amountMinor currency,
      Validated webhook entity amountMinor currency → ¬ Clashes d merchant.id entity.id) :
    (processRazorpayEvent env merchant webhook correlationId).Succeeds (fun _ _ => True) d ↔
      ProcessFits d merchant webhook correlationId := by
  by_cases supported : webhook.event ∈ supportedEvents
  · have valid : ∃ entity amountMinor currency, Validated webhook entity amountMinor currency := by
      by_contra invalid
      push Not at invalid
      exact wellFormed ⟨supported, invalid⟩
    obtain ⟨entity, amountMinor, currency, valid⟩ := valid
    exact valid.succeeds_iff ground supported (free supported _ _ _ valid)
  · have other : webhook.event ≠ "payment.failed" ∧ webhook.event ≠ "payment.captured" := by
      simpa [supportedEvents] using supported
    rw [processRazorpayEvent, if_pos supported]
    exact iff_of_true ((succeeds_pure _).2 trivial) fun _ _ _ _ =>
      ⟨fun failed => absurd failed other.1, fun captured => absurd captured other.2⟩

theorem run_processRazorpayEvent_clash (valid : Validated webhook entity amountMinor currency)
    (supported : webhook.event ∈ supportedEvents) (clash : Clashes d merchant.id entity.id) : ∃ e,
    (processRazorpayEvent env merchant webhook correlationId).run d = .error (.db e) ∧
      (e = .integrity ∧ currencyCheck currency ↔ ProcessFits d merchant webhook correlationId) := by
  rw [valid.fits_iff]
  rcases valid.process supported with ⟨failed, code⟩ | ⟨captured, code⟩
  · obtain ⟨e, run, fits⟩ := run_handlePaymentFailed_clash clash valid.nonneg
    exact ⟨e, code ▸ run_bind_error run, by simp [failed, ← fits]⟩
  · obtain ⟨e, run, fits⟩ := run_handlePaymentCaptured_clash clash valid.nonneg
    exact ⟨e, code ▸ run_bind_error run, by simp [captured, ← fits]⟩

end

/-- Processing an event leaves its inbox row alone. -/
theorem inbox_of_processed {inbox : WebhookEvent} {correlationId : Option String}
    {r : WebhookEventStatus × Fields} {d' : Db}
    (run : (processRazorpayEvent env merchant webhook correlationId).run
      (d.put (.webhookEvent inbox)) = .ok (r, d')) :
    d'.webhookEvents.get inbox.id = some inbox := by
  have written : (Setting.serial Stmt Db Row).wp
      (processRazorpayEvent env merchant webhook correlationId)
      (fun _ us _ => (webhookEventsOf us).getLast? = some inbox) (fun _ _ _ => True)
        [.webhookEvent inbox] d :=
    wp_processRazorpayEvent weakens_serial
      (fun _ _ _ _ effect => by simp [Row.webhookEvent?, effect.tables]) (fun _ => trivial)
      fun _ _ _ _ _ _ _ _ => trivial
  have left := run_of_wp _ written
  rw [show view d [.webhookEvent inbox] = d.put (.webhookEvent inbox) from rfl, run] at left
  obtain ⟨us, rfl, last⟩ := left
  exact view_webhookEvent_of_getLast? last

/-- Once the inbox row is written, the processing decides. -/
theorem succeeds_finish
    (fits : (Row.webhookEvent (receivedEvent env merchant request webhook)).fits) :
    (processRazorpayEvent env merchant webhook (some request.requestId) >>= fun r => do
      query (.flushWebhookEvent (receivedEvent env merchant request webhook)
        { receivedEvent env merchant request webhook with
          status := r.1, processedAt := some env.handled })
      return ⟨200, r.2⟩ : Tx Response).Succeeds (fun _ _ => True)
        (d.put (.webhookEvent (receivedEvent env merchant request webhook))) ↔
    (processRazorpayEvent env merchant webhook (some request.requestId)).Succeeds (fun _ _ => True)
      (d.put (.webhookEvent (receivedEvent env merchant request webhook))) := by
  rw [succeeds_bind]
  refine ⟨fun h => h.mono fun _ _ _ => trivial, fun ⟨r, d', run, _⟩ => ⟨r, d', run, ?_⟩⟩
  exact (succeeds_map _ _).2 (succeeds_flushWebhookEvent (inbox_of_processed run) fits)

theorem ColumnsFit.iff (new : ¬ RecordedBefore request d webhook) :
    ColumnsFit request d webhook merchant ↔
    (assignable 128 (extractProviderEventId webhook request.rawBody) ∧
      assignable 128 webhook.event ∧
      (Json.obj webhook.dump).storable) ∧
        ProcessFits d merchant webhook (some request.requestId) := by
  constructor
  · exact fun h => ⟨⟨h.providerEventId, h.eventType, h.payload⟩, fun e a c valid =>
      ⟨fun failed => h.failed new failed e a c valid,
        fun captured => h.captured new captured e a c valid⟩⟩
  · exact fun h => ⟨h.1.1, h.1.2.1, h.1.2.2, fun _ failed e a c valid => (h.2 e a c valid).1 failed,
      fun _ captured e a c valid => (h.2 e a c valid).2 captured⟩

theorem fits_received : (Row.webhookEvent (receivedEvent env merchant request webhook)).fits ↔
    assignable 128 (extractProviderEventId webhook request.rawBody) ∧ assignable 128 webhook.event ∧
      (Json.obj webhook.dump).storable := by
  have provider : varchar 32 "razorpay" := rfl
  simp [Row.fits, receivedEvent, provider, assignable, and_assoc]

variable (settings env request d webhook) in
theorem stores_all_iff (admitted : admitRequest settings request = .ok webhook)
    (wellFormed : ¬ Malformed webhook) (served : ServedBy request d merchant) (valid : d.Valid)
    (fresh : env.Fresh d) :
    StoresAll settings env request d webhook ↔ ColumnsFit request d webhook merchant := by
  have code : razorpayWebhook settings env request = recordAndProcess env request webhook := by
    simp [razorpayWebhook, admitted]
  have owner : merchant.id = request.merchantId := (Table.get_eq_some.1 served.1).2
  have ground := ground_of_valid valid fresh served (receivedEvent env merchant request webhook)
  rw [StoresAll, code, run_recordAndProcess_inbox served]
  by_cases inbox : (Row.webhookEvent (receivedEvent env merchant request webhook)).fits
  · have received := insertError_received served fresh.webhookEvent inbox
    have columns := fits_received.1 inbox
    by_cases known : RecordedBefore request d webhook
    · rw [received.1 known]
      exact iff_of_true (.inr (.inl ⟨known, rfl⟩)) ⟨columns.1, columns.2.1, columns.2.2,
        fun new => absurd known new, fun new => absurd known new⟩
    · rw [received.2 known, ColumnsFit.iff known, and_iff_right columns]
      by_cases clash : webhook.event ∈ supportedEvents ∧ ∃ entity amountMinor currency,
          Validated webhook entity amountMinor currency ∧ Clashes d merchant.id entity.id
      · -- The insert of the payment is refused, for its key alone where the columns take it.
        obtain ⟨supported, entity, amountMinor, currency, validated, clash⟩ := clash
        obtain ⟨e, run, fits⟩ := @run_processRazorpayEvent_clash _ env
          (d.put (.webhookEvent (receivedEvent env merchant request webhook))) webhook merchant
            entity amountMinor currency
          (some request.requestId) validated supported clash
        have fits : _ ↔ ProcessFits d merchant webhook (some request.requestId) := fits
        simp only [run_bind_error run]
        constructor
        · rintro (⟨_, _, refused, -⟩ | ⟨-, refused⟩ |
            ⟨⟨-, _, _, _, validated', checked, -⟩, refused⟩)
          · cases refused
          · cases refused
          · cases refused
            obtain ⟨rfl, rfl, rfl⟩ := validated.unique validated'
            exact fits.1 ⟨rfl, checked⟩
        · intro room
          obtain ⟨rfl, checked⟩ := fits.2 room
          exact .inr
            (.inr ⟨⟨supported, entity, amountMinor, currency, validated, checked, owner ▸ clash⟩,
              rfl⟩)
      · have free : webhook.event ∈ supportedEvents → ∀ entity amountMinor currency,
            Validated webhook entity amountMinor currency → ¬ Clashes d merchant.id entity.id :=
          fun supported entity amountMinor currency validated clash' =>
            clash ⟨supported, entity, amountMinor, currency, validated, clash'⟩
        have finish : _ ↔ ProcessFits d merchant webhook (some request.requestId) :=
          (@succeeds_finish _ env request d webhook merchant inbox).trans
            (succeeds_processRazorpayEvent ground wellFormed free)
        constructor
        · rintro (⟨response, ws, run, -⟩ | ⟨before, -⟩ |
            ⟨⟨supported, entity, _, _, validated, -, clash'⟩, -⟩)
          · exact finish.1 ⟨_, _, run, trivial⟩
          · exact absurd before known
          · exact absurd (owner ▸ clash') (free supported _ _ _ validated)
        · intro room
          obtain ⟨response, d', run, -⟩ := finish.2 room
          obtain ⟨ws, rfl, stored⟩ := stored_run
            (stored_view valid.stored fun r hr => List.mem_singleton.1 hr ▸ ⟨inbox, rfl⟩) run
          refine .inl ⟨response, .webhookEvent (receivedEvent env merchant request webhook) :: ws,
            run, fun r hr => ?_⟩
          rcases List.mem_cons.1 hr with rfl | hr
          · exact ⟨inbox, rfl⟩
          · exact stored r hr
  · have error : d.insertError (.webhookEvent (receivedEvent env merchant request webhook)) =
        some .data := by
      simp [Db.insertError, inbox]
    rw [error]
    refine iff_of_false ?_ fun columns =>
      inbox (fits_received.2 ⟨columns.providerEventId, columns.eventType, columns.payload⟩)
    rintro (⟨_, _, run, -⟩ | ⟨-, run⟩ | ⟨-, run⟩) <;> cases run

end

/-- The event that a request carries, and whether it is valid. -/
def readsValid [PyLib] (request : Request) : Bool :=
  (admitRequest {} request).toOption.any fun webhook =>
    (extractPaymentEntity webhook).toOption.any fun entity =>
    (validateAmountMinor entity.amount).toOption.isSome &&
      (normalizeCurrency entity.currency).toOption.isSome

theorem readsValid_spec [PyLib] {request : Request} (h : readsValid request) : ∃ webhook,
    admitRequest {} request = .ok webhook ∧
      ∃ entity amountMinor currency, Validated webhook entity amountMinor currency := by
  have toOption : ∀ {ε α : Type} {x : Except ε α} {a : α}, x.toOption = some a → x = .ok a := by
    intro ε α x a h
    cases x <;> cases h
    rfl
  obtain ⟨webhook, admitted, h⟩ := Option.any_eq_true _ _ |>.1 h
  obtain ⟨entity, extracted, h⟩ := Option.any_eq_true _ _ |>.1 h
  simp only [Bool.and_eq_true, Option.isSome_iff_exists] at h
  obtain ⟨⟨amountMinor, priced⟩, currency, normalized⟩ := h
  exact ⟨webhook, toOption admitted, entity, amountMinor, currency, toOption extracted,
    toOption priced, toOption normalized⟩

/-- The transaction ends in a value that a column does not take. -/
def raisesData [PyLib] (settings : Settings) (env : Draws) (request : Request) (d : Db) : Bool :=
  match (razorpayWebhook settings env request).run d with
  | .error (.db .data) => true
  | _ => false

theorem not_storesAll_of_raises [PyLib] {settings : Settings} {env : Draws} {request : Request}
    {d : Db} (raises : raisesData settings env request d) (webhook : RazorpayWebhook) :
    ¬ StoresAll settings env request d webhook := by
  unfold raisesData at raises
  rintro (⟨response, ws, run, -⟩ | ⟨-, run⟩ | ⟨-, run⟩) <;> rw [run] at raises <;> cases raises

theorem stores_all_iff_sample : ∃ webhook,
    @admitRequest (.recorded [expiredInstrument]) {} expiredInstrument.request = .ok webhook ∧
    (@StoresAll (.recorded [expiredInstrument]) {}
      (Env.numbered 1).draws expiredInstrument.request sampleDb webhook ↔
      @ColumnsFit (.recorded [expiredInstrument]) expiredInstrument.request sampleDb webhook
        ⟨.ofNat 1, true⟩) := by
  let _ : PyLib := .recorded [expiredInstrument]
  obtain ⟨webhook, admitted, entity, amountMinor, currency, valid⟩ :=
    readsValid_spec
      (show @readsValid (.recorded [expiredInstrument]) expiredInstrument.request by decide +kernel)
  exact ⟨webhook, admitted,
    stores_all_iff {} _ _ _ webhook admitted (fun malformed => malformed.2 _ _ _ valid) ⟨rfl, rfl⟩
    (by decide +kernel) (by decide +kernel)⟩

/-- `{"id":"e4","event":"payment.failed","payload":{"payment":{"entity":{"id":"p1",
"amount":9223372036854775808,"currency":"INR"}}}}` -/
def immense : Recorded where
  body :=
    [123, 34, 105, 100, 34, 58, 34, 101, 52, 34, 44, 34, 101, 118, 101, 110, 116, 34, 58, 34, 112,
    97, 121, 109, 101, 110, 116, 46, 102, 97, 105, 108, 101, 100, 34, 44, 34, 112, 97, 121, 108,
    111, 97, 100, 34, 58, 123, 34, 112, 97, 121, 109, 101, 110, 116, 34, 58, 123, 34, 101, 110, 116,
    105, 116, 121, 34, 58, 123, 34, 105, 100, 34, 58, 34, 112, 49, 34, 44, 34, 97, 109, 111, 117,
    110, 116, 34, 58, 57, 50, 50, 51, 51, 55, 50, 48, 51, 54, 56, 53, 52, 55, 55, 53, 56, 48, 56,
    44, 34, 99, 117, 114, 114, 101, 110, 99, 121, 34, 58, 34, 73, 78, 82, 34, 125, 125, 125, 125]
  signature := "0f7b363f0977698d3aa55742ce95f34bec4c0291ddd226bb3bc76e512304b45f"
  value := .obj [("id", .str "e4"), ("event", .str "payment.failed"), ("payload", .obj [("payment",
    .obj [("entity",
      .obj [("id", .str "p1"), ("amount", .int 9223372036854775808), ("currency", .str "INR")])])])]


/-- The amount leaves the range of its column, and the transaction raises. -/
theorem immense_amount_fails : sampleDb.Valid ∧ (Env.numbered 1).draws.Fresh sampleDb ∧ ∃ webhook,
    @admitRequest (.recorded [immense]) {} immense.request = .ok webhook ∧
    (∃ entity amountMinor currency,
      @Validated (.recorded [immense]) webhook entity amountMinor currency) ∧
    ¬ @StoresAll (.recorded [immense]) {}
      (Env.numbered 1).draws immense.request sampleDb webhook := by
  let _ : PyLib := .recorded [immense]
  obtain ⟨webhook, admitted, valid⟩ :=
    readsValid_spec (show @readsValid (.recorded [immense]) immense.request by decide +kernel)
  exact ⟨by decide +kernel, by decide +kernel, webhook, admitted, valid,
    not_storesAll_of_raises (by decide +kernel) webhook⟩

end RecoverAI
