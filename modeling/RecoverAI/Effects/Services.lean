import RecoverAI.Models.Rules
import RecoverAI.Services.PolicyService
import RecoverAI.Services.RecoveryActions
import RecoverAI.Services.RecoveryCases

/-!
# What the services do

Rules for the service functions, in the style of the statement rules. Errors are left open: `hX`
allows every exception.
-/
namespace RecoverAI

open Store

/-- No committed row has a key of `r`. -/
def Db.Absent (d : Db) (r : Row) : Prop := ∀ k ∈ r.keys, d.lacks k

variable {C : Setting Stmt Db Row} {X : Err → List Row → C.State → Prop} {ws us : List Row}
  {s t u : C.State}

theorem Db.Absent.of_view {d : Db} {r : Row} (h : ∀ k ∈ r.keys, (view d ws).lacks k)
    (same : (view d ws).rowsLike r = d.rowsLike r) : d.Absent r := fun k hk =>
  (lacks_iff hk).2 (same ▸ (lacks_iff hk).1 (h k hk))

/-- The keys of an inserted row stay absent from the committed rows. -/
theorem Db.Absent.later {r : Row} (h : (C.db s).Absent r) (hr : r ∈ ws) (later : C.rely ws s t) :
    (C.db t).Absent r := fun k hk =>
  C.protect_of_mem later (protects_lacks k) hr hk (h k hk)

/-! ## Transitions -/

theorem wp_atomicTransition {id : Uuid} {old new : RecoveryCaseStatus} {version : Int}
    {Q : Nat → List Row → C.State → Prop}
    (valid : RecoveryCaseStatus.validateTransition old new = .ok ()) :
    C.wp (atomicTransitionRecoveryCase id old version new) Q X ws s ↔
      C.wp (query (.updateCase id old version new none)) Q X ws s := by
  simp [atomicTransitionRecoveryCase, requireTransition, valid]

theorem wp_atomicTransitionWithNextActionAt {id : Uuid} {old new : RecoveryCaseStatus}
    {version : Int} {next : Time} {Q : Nat → List Row → C.State → Prop}
    (valid : RecoveryCaseStatus.validateTransition old new = .ok ()) :
    C.wp (atomicTransitionWithNextActionAt id old version new next) Q X ws s ↔
      C.wp (query (.updateCase id old version new (some next))) Q X ws s := by
  simp [atomicTransitionWithNextActionAt, requireTransition, valid]

theorem wp_catchingTransition {id : Uuid} {old new : RecoveryCaseStatus} {version : Int}
    {Q : Option Nat → List Row → C.State → Prop}
    (valid : RecoveryCaseStatus.validateTransition old new = .ok ())
    (hit : ∀ t c, C.rely ws s t → (C.sees ws t).cases.get id = some c → c.status = old →
      c.version = version →
      Q (some 1) (ws ++ [.recoveryCase (Db.transition new (version + 1) none c)]) t)
    (miss : ∀ t, C.rely ws s t → (∀ c, (C.sees ws t).cases.get id = some c →
      ¬ (c.status = old ∧ c.version = version)) → Q (some 0) ws t) (hX : ∀ e us t, X e us t) :
    C.wp (catchingInvalidTransition (atomicTransitionRecoveryCase id old version new))
      Q X ws s := by
  rw [catchingInvalidTransition, Txn.monad_tryCatch, Setting.wp_tryCatch, Setting.wp_bind,
    wp_atomicTransition valid]
  exact wp_updateCase hit miss fun e t _ => hX _ _ _

/-! ## Policies and counts -/

/-- The rows `get_or_create_default_policy` writes. -/
def PolicyRows (d : Db) (newId merchantId : Uuid) (ps : List Row) : Prop :=
  ps = [] ∨ ps = [.policy (defaultPolicy newId merchantId)] ∧
    d.Absent (.policy (defaultPolicy newId merchantId))

theorem PolicyRows.none {d : Db} {newId : Uuid} (merchantId : Uuid) :
    PolicyRows d newId merchantId [] := .inl rfl

theorem PolicyRows.tables {d : Db} {newId merchantId : Uuid} {ps : List Row}
    (h : PolicyRows d newId merchantId ps) : paymentsOf ps = [] ∧ casesOf ps = [] ∧
      actionsOf ps = [] ∧ outboxOf ps = [] ∧ webhookEventsOf ps = [] ∧ auditsOf ps = [] := by
  rcases h with rfl | ⟨rfl, -⟩ <;> simp [Row.payment?, Row.case?, Row.action?, Row.outbox?,
    Row.webhookEvent?, Row.audit?]

theorem PolicyRows.later {newId merchantId : Uuid} {ps : List Row}
    (h : PolicyRows (C.db s) newId merchantId ps) (sub : ps ⊆ ws) (ht : C.rely ws s t) :
    PolicyRows (C.db t) newId merchantId ps :=
  h.imp_right fun ⟨eq, absent⟩ => ⟨eq, absent.later (sub (by simp [eq])) ht⟩

theorem wp_getOrCreateDefaultPolicy {newId merchantId : Uuid}
    {Q : MerchantPolicy → List Row → C.State → Prop} (none : policiesOf ws = [])
    (hQ : ∀ policy ps t, C.rely ws s t → PolicyRows (C.db t) newId merchantId ps →
      Q policy (ws ++ ps) t) (hX : ∀ e us t, X e us t) :
    C.wp (getOrCreateDefaultPolicy newId merchantId) Q X ws s := by
  have found : ∀ policy t, C.rely ws s t → Q policy ws t := fun policy t ht => by
    simpa using hQ policy [] t ht (.inl rfl)
  rw [getOrCreateDefaultPolicy, Setting.wp_bind]
  refine wp_selectPolicy fun t₁ h₁ => ?_
  split
  next policy => exact found _ t₁ h₁
  next =>
    rw [Setting.wp_bind]
    refine wp_attempt_insert (fun t₂ h₂ _ ok => ?_) fun e t₂ h₂ _ _ => ?_
    · exact hQ _ _ t₂ (C.rely_trans h₁ h₂)
        (.inr ⟨rfl, .of_view ok.lacks (by simp [Db.rowsLike, none])⟩)
    · cases e <;> try exact hX _ _ _
      rw [Setting.wp_bind]
      refine wp_selectPolicy fun t₃ h₃ => ?_
      split
      · exact found _ t₃ (C.rely_trans h₁ (C.rely_trans h₂ h₃))
      · exact hX _ _ _

theorem wp_buildPolicyInput {case : RecoveryCase} {candidate : RecoveryActionType}
    {status : RecoveryCaseStatus} {exclude : Option Uuid}
    {Q : PolicyInput → List Row → C.State → Prop} (hQ : ∀ input t, C.rely ws s t → Q input ws t) :
    C.wp (buildPolicyInput case candidate status exclude) Q X ws s := by
  rw [buildPolicyInput, Setting.wp_bind]
  refine wp_countActions fun t₁ h₁ => ?_
  rw [Setting.wp_bind]
  refine wp_countActions fun t₂ h₂ => ?_
  rw [Setting.wp_bind]
  exact wp_countActions fun t₃ h₃ => hQ _ t₃ (C.rely_trans h₁ (C.rely_trans h₂ h₃))

/-! ## Actions -/

/-- A row that makes `create_recovery_action_idempotent` stop. -/
def SameAttempt (action existing : RecoveryAction) : Prop :=
  existing.idempotencyKey = action.idempotencyKey ∨
    existing.recoveryCaseId = action.recoveryCaseId ∧ existing.actionType = action.actionType ∧
      existing.attemptNumber = action.attemptNumber

theorem wp_createRecoveryActionIdempotent {action : RecoveryAction}
    {Q : RecoveryAction × Bool → List Row → C.State → Prop} (none : actionsOf ws = [])
    (created : ∀ t, C.rely ws s t → (C.db t).Absent (.action action) →
      Q (action, true) (ws ++ [.action action]) t)
    (existing : ∀ t a, C.rely ws s t → a ∈ (C.db t).actions → SameAttempt action a →
      Q (a, false) ws t)
    (hX : ∀ e us t, X e us t) : C.wp (createRecoveryActionIdempotent action) Q X ws s := by
  have byKey : ∀ t a, C.rely ws s t →
      (C.sees ws t).actions.find (fun a => a.idempotencyKey = action.idempotencyKey) = some a →
      Q (a, false) ws t := by
    intro t a ht ha
    have found := Table.mem_of_find ha
    refine existing t a ht (by simpa [Setting.sees, none] using found.1)
      (.inl (by simpa using found.2))
  rw [createRecoveryActionIdempotent, Setting.wp_bind]
  refine wp_selectAction fun t₁ h₁ => ?_
  split
  next a ha => exact byKey t₁ a h₁ ha
  next =>
    rw [Setting.wp_bind]
    refine wp_attempt_insert (fun t₂ h₂ _ ok => ?_) fun e t₂ h₂ _ _ => ?_
    · exact created t₂ (C.rely_trans h₁ h₂) (.of_view ok.lacks (by simp [Db.rowsLike, none]))
    · cases e <;> try exact hX _ _ _
      have h₁₂ := C.rely_trans h₁ h₂
      rw [Setting.wp_bind]
      refine wp_selectAction fun t₃ h₃ => ?_
      split
      next a ha => exact byKey t₃ a (C.rely_trans h₁₂ h₃) ha
      next =>
        rw [Setting.wp_bind]
        refine wp_selectAction fun t₄ h₄ => ?_
        split
        next a ha =>
          have found := Table.mem_of_find ha
          refine existing t₄ a (C.rely_trans h₁₂ (C.rely_trans h₃ h₄))
            (by simpa [Setting.sees, none] using found.1)
              (.inr (by simpa [and_assoc] using found.2))
        next => exact hX _ _ _

end RecoverAI
