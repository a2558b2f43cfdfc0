import RecoverAI.Models.Statements
import RecoverAI.Models.Views

/-!
# Rules for the statements

The weakest precondition of each statement, in the form the symbolic executions use. A rule is
stated for one moment `t` after whatever the others did since the last statement.
-/
namespace RecoverAI

open Store

variable {C : Setting Stmt Db Row} {X : Err → List Row → C.State → Prop} {ws us : List Row}
  {s t u : C.State}

/-! ## Time -/

theorem Store.Setting.rely_append (h : C.rely ws s t) (h' : C.rely (ws ++ us) t u) :
    C.rely ws s u :=
  C.rely_trans h (C.rely_anti (List.subset_append_left ws us) h')

theorem Store.Setting.protect_of_mem {r : Row} {k : Key} {F : Db → Prop} (h : C.rely ws s t)
    (hF : Protects k F) (hr : r ∈ ws) (hk : k ∈ r.keys) (holds : F (C.db s)) : F (C.db t) :=
  C.protect h hF (mem_locksOf.2 ⟨r, hr, hk⟩) holds

/-- `R` also accounts for the interference. -/
structure Store.Setting.Weakens (C : Setting Stmt Db Row)
    (R : List Row → C.State → C.State → Prop) : Prop where
  of_rely : ∀ {ws s t}, C.rely ws s t → R ws s t
  trans : ∀ {ws s t u}, R ws s t → R ws t u → R ws s u
  anti : ∀ {ws us s t}, ws ⊆ us → R us s t → R ws s t

theorem Store.Setting.Weakens.refl {R : List Row → C.State → C.State → Prop} (h : C.Weakens R) :
    R ws s s := h.of_rely (C.rely_refl _ _)

/-- What was read stays read. -/
theorem Store.Setting.Weakens.later {R : List Row → C.State → C.State → Prop} (h : C.Weakens R)
    {F : C.State → Prop} (read : ∃ t₀, R [] t₀ s ∧ F t₀) (ht : C.rely ws s t) :
    ∃ t₀, R [] t₀ t ∧ F t₀ := by
  obtain ⟨t₀, h₀, holds⟩ := read
  exact ⟨t₀, h.trans h₀ (h.anti (List.nil_subset ws) (h.of_rely ht)), holds⟩

/-- A transaction that has written a row keeps the committed row as it is until it ends. -/
theorem Store.Setting.payment_stays (h : C.rely ws s t) {r : Payment} {x : Option Payment}
    (hr : .payment r ∈ ws) (holds : (C.db s).payments.get r.id = x) :
    (C.db t).payments.get r.id = x :=
  C.protect_of_mem h (protects_payment r.id x) hr (by simp [Row.keys]) holds

theorem Store.Setting.case_stays (h : C.rely ws s t) {r : RecoveryCase} {x : Option RecoveryCase}
    (hr : .recoveryCase r ∈ ws) (holds : (C.db s).cases.get r.id = x) :
    (C.db t).cases.get r.id = x :=
  C.protect_of_mem h (protects_case r.id x) hr (by simp [Row.keys]) holds

theorem Store.Setting.action_stays (h : C.rely ws s t) {r : RecoveryAction}
    {x : Option RecoveryAction} (hr : .action r ∈ ws) (holds : (C.db s).actions.get r.id = x) :
    (C.db t).actions.get r.id = x :=
  C.protect_of_mem h (protects_action r.id x) hr (by simp [Row.keys]) holds

/-! ## Statements -/

/-- Why a flush fails: its row is gone, or the new values break a constraint. -/
def FlushFails {β : Type} (found : Option β) (patch : β → Row) (e : DbError) : Prop :=
  (found = none ∧ e = .stale) ∨ ∃ b, found = some b ∧ Db.updateError (patch b) = some e

/-- The postcondition of a statement that was executed at `t`. -/
def Answer {β : Type} (Q : β → List Row → C.State → Prop) (X : Err → List Row → C.State → Prop)
    (ws : List Row) (t : C.State) (out : Except DbError β × List Row) : Prop :=
  match out.1 with
  | .ok a => Q a (ws ++ out.2) t
  | .error e => X (.db e) (ws ++ out.2) t

section

variable {β : Type} {Q : β → List Row → C.State → Prop} {a : β} {e : DbError}

@[simp] theorem answer_ok : Answer Q X ws t (.ok a, us) ↔ Q a (ws ++ us) t := Iff.rfl

@[simp] theorem answer_error : Answer Q X ws t (.error e, []) ↔ X (.db e) ws t := by
  simp [Answer]

theorem answer_write {error : Option DbError} {r : Row} (hQ : error = none → Q a (ws ++ [r]) t)
    (hX : ∀ e, error = some e → X (.db e) ws t) : Answer Q X ws t (Db.write error r a) := by
  cases error with
  | none => exact hQ rfl
  | some e => exact answer_error.2 (hX e rfl)

theorem answer_updateWhere {β : Type} {found : Option β} {p : β → Bool} {set : β → Row}
    {Q : Nat → List Row → C.State → Prop}
    (hit : ∀ b, found = some b → p b → Q 1 (ws ++ [set b]) t)
    (miss : (∀ b, found = some b → p b = false) → Q 0 ws t) (hX : ∀ e, X (.db e) ws t) :
    Answer Q X ws t (Db.updateWhere found p set) := by
  unfold Db.updateWhere
  split
  next none =>
    have stays := miss fun b hb => by simpa [hb, Option.filter_eq_none_iff] using none
    simpa using stays
  next b some =>
    obtain ⟨hb, guard⟩ := Option.filter_eq_some_iff.1 some
    exact answer_write (fun _ => hit b hb guard) fun e _ => hX e

theorem answer_flush {β : Type} {found : Option β} {patch : β → Row}
    {Q : Unit → List Row → C.State → Prop} (hit : ∀ b, found = some b → Q () (ws ++ [patch b]) t)
    (hX : ∀ e, FlushFails found patch e → X (.db e) ws t) :
    Answer Q X ws t (Db.flush found patch) := by
  cases found with
  | none => exact answer_error.2 (hX .stale (.inl ⟨rfl, rfl⟩))
  | some b => exact answer_write (fun _ => hit b rfl) fun e he => hX e (.inr ⟨b, rfl, he⟩)

end

theorem wp_query {st : Stmt} {Q : st.Result → List Row → C.State → Prop} :
    C.wp (query st) Q X ws s ↔ ∀ t, C.rely ws s t → C.allows (C.sees ws t) st →
      Answer Q X ws t (Db.exec st (C.sees ws t)) := by
  rw [query, Setting.wp_sql]
  refine forall_congr' fun t => forall_congr' fun _ => forall_congr' fun _ => ?_
  change _ ↔ Answer Q X ws t (Engine.exec st (C.sees ws t))
  unfold Answer
  cases (Engine.exec st (C.sees ws t)).1 <;> rfl

theorem wp_attempt {st : Stmt} {Q : st.Ans → List Row → C.State → Prop} :
    C.wp (attempt st) Q X ws s ↔ ∀ t, C.rely ws s t → C.allows (C.sees ws t) st →
      Q (Db.exec st (C.sees ws t)).1 (ws ++ (Db.exec st (C.sees ws t)).2) t := Iff.rfl

theorem wp_selectMerchant {p : Merchant → Bool} {Q : Option Merchant → List Row → C.State → Prop}
    (h : ∀ t, C.rely ws s t → Q ((C.sees ws t).merchants.find p) ws t) :
    C.wp (query (.selectMerchant p)) Q X ws s :=
  wp_query.2 fun t ht _ => by simpa [Db.exec] using h t ht

theorem wp_selectPolicy {p : MerchantPolicy → Bool}
    {Q : Option MerchantPolicy → List Row → C.State → Prop}
    (h : ∀ t, C.rely ws s t → Q ((C.sees ws t).policies.find p) ws t) :
    C.wp (query (.selectPolicy p)) Q X ws s :=
  wp_query.2 fun t ht _ => by simpa [Db.exec] using h t ht

theorem wp_selectPayment {p : Payment → Bool} {Q : Option Payment → List Row → C.State → Prop}
    (h : ∀ t, C.rely ws s t → Q ((C.sees ws t).payments.find p) ws t) :
    C.wp (query (.selectPayment p)) Q X ws s :=
  wp_query.2 fun t ht _ => by simpa [Db.exec] using h t ht

theorem wp_selectCase {p : RecoveryCase → Bool}
    {Q : Option RecoveryCase → List Row → C.State → Prop}
    (h : ∀ t, C.rely ws s t → Q ((C.sees ws t).cases.find p) ws t) :
    C.wp (query (.selectCase p)) Q X ws s :=
  wp_query.2 fun t ht _ => by simpa [Db.exec] using h t ht

theorem wp_selectAction {p : RecoveryAction → Bool}
    {Q : Option RecoveryAction → List Row → C.State → Prop}
    (h : ∀ t, C.rely ws s t → Q ((C.sees ws t).actions.find p) ws t) :
    C.wp (query (.selectAction p)) Q X ws s :=
  wp_query.2 fun t ht _ => by simpa [Db.exec] using h t ht

theorem wp_selectOutbox {p : OutboxEvent → Bool}
    {Q : Option OutboxEvent → List Row → C.State → Prop}
    (h : ∀ t, C.rely ws s t → Q ((C.sees ws t).outbox.find p) ws t) :
    C.wp (query (.selectOutbox p)) Q X ws s :=
  wp_query.2 fun t ht _ => by simpa [Db.exec] using h t ht

theorem wp_countActions {p : RecoveryAction → Bool} {Q : Nat → List Row → C.State → Prop}
    (h : ∀ t, C.rely ws s t → Q ((C.sees ws t).actions.count p) ws t) :
    C.wp (query (.countActions p)) Q X ws s :=
  wp_query.2 fun t ht _ => by simpa [Db.exec] using h t ht

/-- What a successful insert shows of the view it was executed on. -/
structure Insertable (d : Db) (r : Row) : Prop where
  fits : r.fits
  checks : r.checks
  lacks : ∀ k ∈ r.keys, d.lacks k
  references : d.references r

theorem insertError_eq_none {d : Db} {r : Row} : d.insertError r = none ↔ Insertable d r := by
  have keys := hasKeyOf_eq_false (d := d) (r := r)
  rw [Db.insertError]
  constructor
  · intro h
    refine ⟨?_, ?_, keys.1 ?_, ?_⟩ <;> grind
  · rintro ⟨fits, checks, lacks, references⟩
    simp [fits, checks, keys.2 lacks, references]

theorem checks_of_updateError {r : Row} (h : Db.updateError r = some .integrity) :
    r.checks = false := by
  unfold Db.updateError at h
  grind

theorem wp_insert {r : Row} {Q : Unit → List Row → C.State → Prop}
    (hQ : ∀ t, C.rely ws s t → C.allows (C.sees ws t) (.insert r) →
      Insertable (C.sees ws t) r → Q () (ws ++ [r]) t)
    (hX : ∀ e t, C.rely ws s t → C.allows (C.sees ws t) (.insert r) →
      (C.sees ws t).insertError r = some e → X (.db e) ws t) :
    C.wp (query (.insert r)) Q X ws s :=
  wp_query.2 fun t ht ha =>
    answer_write (fun h => hQ t ht ha (insertError_eq_none.1 h)) fun e => hX e t ht ha

theorem wp_attempt_insert {r : Row} {Q : Except DbError Unit → List Row → C.State → Prop}
    (ok : ∀ t, C.rely ws s t → C.allows (C.sees ws t) (.insert r) →
      Insertable (C.sees ws t) r → Q (.ok ()) (ws ++ [r]) t)
    (failed : ∀ e t, C.rely ws s t → C.allows (C.sees ws t) (.insert r) →
      (C.sees ws t).insertError r = some e → Q (.error e) ws t) :
    C.wp (attempt (.insert r)) Q X ws s := by
  refine wp_attempt.2 fun t ht ha => ?_
  cases h : (C.sees ws t).insertError r with
  | none => simpa [Db.exec, Db.write, h] using ok t ht ha (insertError_eq_none.1 h)
  | some e => simpa [Db.exec, Db.write, h] using failed e t ht ha h

/-- A guarded `UPDATE` of a case finds the row as expected and writes it, or leaves it alone. -/
theorem wp_updateCase {id : Uuid} {status newStatus : RecoveryCaseStatus} {version : Int}
    {next : Option Time} {Q : Nat → List Row → C.State → Prop}
    (hit : ∀ t c, C.rely ws s t → (C.sees ws t).cases.get id = some c → c.status = status →
      c.version = version →
      Q 1 (ws ++ [.recoveryCase (Db.transition newStatus (version + 1) next c)]) t)
    (miss : ∀ t, C.rely ws s t → (∀ c, (C.sees ws t).cases.get id = some c →
      ¬ (c.status = status ∧ c.version = version)) → Q 0 ws t)
    (hX : ∀ e t, C.rely ws s t → X (.db e) ws t) :
    C.wp (query (.updateCase id status version newStatus next)) Q X ws s := by
  refine wp_query.2 fun t ht _ => answer_updateWhere (fun c hc guard => ?_) (fun none => ?_)
    fun e => hX e t ht
  · simp only [Bool.and_eq_true, decide_eq_true_eq] at guard
    exact hit t c ht hc guard.1 guard.2
  · exact miss t ht fun c hc h => by simpa [h.1, h.2] using none c hc

theorem wp_updateAction {id : Uuid} {status newStatus : RecoveryActionStatus}
    {Q : Nat → List Row → C.State → Prop}
    (hit : ∀ t a, C.rely ws s t → (C.sees ws t).actions.get id = some a → a.status = status →
      Q 1 (ws ++ [.action { a with status := newStatus }]) t)
    (miss : ∀ t, C.rely ws s t →
      (∀ a, (C.sees ws t).actions.get id = some a → a.status ≠ status) → Q 0 ws t)
    (hX : ∀ e t, C.rely ws s t → X (.db e) ws t) :
    C.wp (query (.updateAction id status newStatus)) Q X ws s := by
  refine wp_query.2 fun t ht _ => answer_updateWhere (fun a ha guard => ?_) (fun none => ?_)
    fun e => hX e t ht
  · exact hit t a ht ha (by simpa using guard)
  · exact miss t ht fun a ha h => by simpa [h] using none a ha

theorem wp_cancelActions {caseId : Uuid} {Q : Unit → List Row → C.State → Prop}
    (h : ∀ t, C.rely ws s t → Q () (ws ++ ((C.sees ws t).actions.filter fun a =>
      a.recoveryCaseId = caseId && Db.cancellable a).map fun a => .action (Db.cancelled a)) t) :
    C.wp (query (.cancelActions caseId)) Q X ws s :=
  wp_query.2 fun t ht _ => h t ht

/-! ## Flushes -/

theorem wp_flushPayment {old new : Payment} {Q : Unit → List Row → C.State → Prop}
    (same : ∀ t, C.rely ws s t → old = new → Q () ws t)
    (hit : ∀ t r, C.rely ws s t → C.allows (C.sees ws t) (.flushPayment old new) → old ≠ new →
      (C.sees ws t).payments.get old.id = some r →
      Q () (ws ++ [.payment (Db.patchPayment old new r)]) t)
    (hX : ∀ e t, C.rely ws s t → C.allows (C.sees ws t) (.flushPayment old new) → FlushFails
      ((C.sees ws t).payments.get old.id) (fun r => .payment (Db.patchPayment old new r)) e →
      X (.db e) ws t) :
    C.wp (query (.flushPayment old new)) Q X ws s := by
  refine wp_query.2 fun t ht ha => ?_
  by_cases h : old = new
  · simpa [Db.exec, h] using same t ht h
  · simp only [Db.exec, if_neg h]
    exact answer_flush (fun r hr => hit t r ht ha h hr) fun e => hX e t ht ha

theorem wp_flushCase {old new : RecoveryCase} {Q : Unit → List Row → C.State → Prop}
    (hit : ∀ t r, C.rely ws s t → C.allows (C.sees ws t) (.flushCase old new) →
      (C.sees ws t).cases.get old.id = some r →
      Q () (ws ++ [.recoveryCase (Db.patchCase old new r)]) t)
    (hX : ∀ e t, C.rely ws s t → C.allows (C.sees ws t) (.flushCase old new) → FlushFails
      ((C.sees ws t).cases.get old.id) (fun r => .recoveryCase (Db.patchCase old new r)) e →
      X (.db e) ws t) :
    C.wp (query (.flushCase old new)) Q X ws s :=
  wp_query.2 fun t ht ha => answer_flush (fun r hr => hit t r ht ha hr) fun e => hX e t ht ha

theorem wp_flushAction {old new : RecoveryAction} {Q : Unit → List Row → C.State → Prop}
    (hit : ∀ t r, C.rely ws s t → (C.sees ws t).actions.get old.id = some r →
      Q () (ws ++ [.action (Db.patchAction old new r)]) t)
    (hX : ∀ e t, C.rely ws s t → X (.db e) ws t) : C.wp (query (.flushAction old new)) Q X ws s :=
  wp_query.2 fun t ht _ => answer_flush (fun r hr => hit t r ht hr) fun e _ => hX e t ht

theorem wp_flushWebhookEvent {old new : WebhookEvent} {Q : Unit → List Row → C.State → Prop}
    (hit : ∀ t r, C.rely ws s t → (C.sees ws t).webhookEvents.get old.id = some r →
      Q () (ws ++ [.webhookEvent (Db.patchWebhookEvent old new r)]) t)
    (hX : ∀ e t, C.rely ws s t → FlushFails ((C.sees ws t).webhookEvents.get old.id)
      (fun r => .webhookEvent (Db.patchWebhookEvent old new r)) e → X (.db e) ws t) :
    C.wp (query (.flushWebhookEvent old new)) Q X ws s :=
  wp_query.2 fun t ht _ => answer_flush (fun r hr => hit t r ht hr) fun e => hX e t ht

end RecoverAI
