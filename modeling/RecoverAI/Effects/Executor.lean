import RecoverAI.Domain.Recovery
import RecoverAI.Effects.Services
import RecoverAI.Services.ActionExecutor

/-!
# What the executor does

The writes of a claim and of the two finalizations, described at the moment of the commit as in
`RecoverAI.Effects.Eligible`.
-/
namespace RecoverAI

open Store

/-- The action with that id can be claimed. -/
def Claimable (d : Db) (actionId : Uuid) (action : RecoveryAction) (case : RecoveryCase) : Prop :=
  d.actions.get actionId = some action ∧ action.status = .approved ∧
    d.cases.get action.recoveryCaseId = some case

section

variable {T : Type} (db : T → Db) (R : List Row → T → T → Prop) (env : Draws) (actionId : Uuid)

/-- The executor read `action` and then `case`, and made sure of the policy. -/
structure Reads (action : RecoveryAction) (case : RecoveryCase) (ps : List Row) (t : T) : Prop where
  seen : ∃ t₀ t₁, R [] t₀ t₁ ∧ R [] t₁ t ∧ (db t₀).actions.get actionId = some action ∧
    (db t₁).cases.get action.recoveryCaseId = some case
  policy : PolicyRows (db t) env.policyId case.merchantId ps

/-- The guarded update hit the row `a`. -/
structure Held (action a : RecoveryAction) (case : RecoveryCase) (ps : List Row) (t : T) : Prop
    extends Reads db R env actionId action case ps t where
  base : (db t).actions.get actionId = some a
  approved : a.status = .approved

/-- The rows of a guarded transition out of `ACTION_SCHEDULED`, tried where `case` was read so. -/
inductive Moves (new : RecoveryCaseStatus) (case : RecoveryCase) : List Row → T → Prop where
  | skipped {t} (missed : case.status = .actionScheduled → ∃ t₀, R [] t₀ t ∧
      ∀ c, (db t₀).cases.get case.id = some c →
        ¬ (c.status = .actionScheduled ∧ c.version = case.version)) : Moves new case [] t
  | moved {c t} (base : (db t).cases.get case.id = some c) (status : c.status = .actionScheduled)
      (read : case.status = .actionScheduled) (version : c.version = case.version) :
      Moves new case [.recoveryCase (c.become new)] t

/-- What a claim carries away from the rows it read. -/
structure Claim.From (claim : Claim) (action : RecoveryAction) (case : RecoveryCase) : Prop where
  actionId : claim.actionId = action.id
  caseId : claim.caseId = case.id
  merchantId : claim.merchantId = case.merchantId
  actionType : claim.actionType = action.actionType
  idempotencyKey : claim.idempotencyKey = action.idempotencyKey
  amountMinor : claim.amountMinor = case.amountMinor
  currency : claim.currency = case.currency

inductive ClaimEffect : ClaimResult → List Row → T → Prop where
  | refused {result merchantId ps t} (policy : PolicyRows (db t) env.policyId merchantId ps)
      (missed : ∀ action case, ∃ t₀, R [] t₀ t ∧ ¬ Claimable (db t₀) actionId action case) :
      ClaimEffect (.refused result) ps t
  | cancelled {result action a case ps stops reason t}
      (held : Held db R env actionId action a case ps t) (stop : Moves db R .stopped case stops t)
      (audit : (db t).Absent
        (.audit (actionAudit env case action "recovery_action.cancelled" reason))) :
      ClaimEffect (.refused result) (ps ++ [.action { a with status := .cancelled }] ++
        [.audit (actionAudit env case action "recovery_action.cancelled" reason)] ++ stops) t
  | claimed {claim action a case ps details t} (held : Held db R env actionId action a case ps t)
      (open_ : case.status.isTerminal = false) (from_ : claim.From action case)
      (audit : (db t).Absent
        (.audit (actionAudit env case action "recovery_action.claimed" details))) :
      ClaimEffect (.claimed claim) (ps ++ [.action { a with status := .executing }] ++
        [.audit (actionAudit env case action "recovery_action.claimed" details)]) t

/-- The rows a finalization finds. -/
def Finds (d : Db) (claim : Claim) (action : RecoveryAction) (case : RecoveryCase) : Prop :=
  d.actions.get claim.actionId = some action ∧ d.cases.get claim.caseId = some case

/-- The finalization read `action` and then `case`. -/
def Found (claim : Claim) (action : RecoveryAction) (case : RecoveryCase) (t : T) : Prop :=
  ∃ t₀ t₁, R [] t₀ t₁ ∧ R [] t₁ t ∧ (db t₀).actions.get claim.actionId = some action ∧
    (db t₁).cases.get claim.caseId = some case

def RecoveryAction.succeeded (a : RecoveryAction) (now : Time) (column : Option String) :
    RecoveryAction :=
  { a with status := .executed, executedAt := some now, providerReference := column,
           failureReason := none }

def RecoveryAction.unsuccessful (a : RecoveryAction) (message : String) : RecoveryAction :=
  { a with status := .failed, failureReason := some (Text.slice message 512) }

inductive SuccessEffect (claim : Claim) : List Row → T → Prop where
  | idle {t} (missed : ∀ action case, ∃ t₀, R [] t₀ t ∧
      ¬ (Finds (db t₀) claim action case ∧ action.status = .executing)) : SuccessEffect claim [] t
  | executed {action r case rows column payload t} (found : Found db R claim action case t)
      (executing : action.status = .executing) (moves : Moves db R .waiting case rows t)
      (base : (db t).actions.get claim.actionId = some r)
      (audit : (db t).Absent
        (.audit (actionAudit env case action "recovery_action.executed" payload))) :
      SuccessEffect claim
        (rows ++ [.action (Db.patchAction action (action.succeeded env.now column) r)] ++
        [.audit (actionAudit env case action "recovery_action.executed" payload)]) t

inductive FailureEffect (claim : Claim) : List Row → T → Prop where
  | idle {t} (missed : ∀ action case, ∃ t₀, R [] t₀ t ∧ ¬ Finds (db t₀) claim action case) :
      FailureEffect claim [] t
  | failed {action r case message payload t} (found : Found db R claim action case t)
      (executing : action.status = .executing) (base : (db t).actions.get claim.actionId = some r)
      (audit : (db t).Absent
        (.audit (actionAudit env case action "recovery_action.failed" payload))) :
      FailureEffect claim ([.action (Db.patchAction action (action.unsuccessful message) r)] ++
        [.audit (actionAudit env case action "recovery_action.failed" payload)]) t
  | noted {action case payload t} (found : Found db R claim action case t)
      (other : action.status ≠ .executing)
      (audit : (db t).Absent
        (.audit (actionAudit env case action "recovery_action.failed" payload))) :
      FailureEffect claim [.audit (actionAudit env case action "recovery_action.failed" payload)] t

end

variable {C : Setting Stmt Db Row} {X : Err → List Row → C.State → Prop} {ws us : List Row}
  {s t u : C.State} {env : Draws} {R : List Row → C.State → C.State → Prop}
  {action : RecoveryAction} {case : RecoveryCase} {ps : List Row}
  {Q : ClaimResult → List Row → C.State → Prop}

theorem Reads.later (hR : C.Weakens R) {actionId : Uuid}
    (h : Reads C.db R env actionId action case ps s) (sub : ps ⊆ ws) (ht : C.rely ws s t) :
    Reads C.db R env actionId action case ps t := by
  obtain ⟨⟨t₀, t₁, h₀₁, h₁, found, foundCase⟩, policy⟩ := h
  exact ⟨⟨t₀, t₁, h₀₁, hR.trans h₁ (hR.anti (List.nil_subset ws) (hR.of_rely ht)),
    found, foundCase⟩, policy.later sub ht⟩

theorem Held.later (hR : C.Weakens R) {actionId : Uuid} {a : RecoveryAction}
    (new : RecoveryActionStatus) (h : Held C.db R env actionId action a case ps s)
    (sub : ps ++ [.action { a with status := new }] ⊆ ws) (ht : C.rely ws s t) :
    Held C.db R env actionId action a case ps t := by
  have id : a.id = actionId := (Table.get_eq_some.1 h.base).2
  refine { h.toReads.later hR (fun r hr => sub (List.mem_append_left _ hr)) ht with
    base := id ▸ ?_, approved := h.approved }
  exact C.action_stays (r := { a with status := new }) ht (sub (by simp)) (id ▸ h.base)

theorem Moves.later (hR : C.Weakens R) {new : RecoveryCaseStatus} {rows : List Row}
    (h : Moves C.db R new case rows s) (sub : rows ⊆ ws) (ht : C.rely ws s t) :
    Moves C.db R new case rows t := by
  cases h with
  | skipped missed => exact .skipped fun read => hR.later (missed read) ht
  | @moved c _ base status read version =>
    have id : c.id = case.id := (Table.get_eq_some.1 base).2
    refine .moved ?_ status read version
    exact id ▸ C.case_stays (r := c.become new) ht (sub (List.mem_singleton.2 rfl)) (id ▸ base)

theorem Moves.tables {T : Type} {db : T → Db} {R : List Row → T → T → Prop} {t : T}
    {new : RecoveryCaseStatus} {rows : List Row} (h : Moves db R new case rows t) :
    paymentsOf rows = [] ∧ actionsOf rows = [] ∧ outboxOf rows = [] ∧ webhookEventsOf rows = [] ∧
      auditsOf rows = [] := by
  cases h <;> simp [Row.payment?, Row.action?, Row.outbox?, Row.webhookEvent?, Row.audit?]

theorem wp_move (hR : C.Weakens R) {α : Type} {new : RecoveryCaseStatus} {rest : Tx α}
    {Q : α → List Row → C.State → Prop}
    (valid : RecoveryCaseStatus.validateTransition .actionScheduled new = .ok ())
    (read : case.status = .actionScheduled) (none : casesOf ws = [])
    (h : ∀ rows t, C.rely ws s t → Moves C.db R new case rows t → C.wp rest Q X (ws ++ rows) t)
    (hX : ∀ e us t, X e us t) :
    C.wp (catchingInvalidTransition (atomicTransitionRecoveryCase case.id case.status case.version
      new) >>= fun _ => rest) Q X ws s := by
  rw [Setting.wp_bind]
  refine wp_catchingTransition (read ▸ valid) (fun t c ht hc status version => ?_)
    (fun t ht miss => ?_) hX
  · have moved : Db.transition new (case.version + 1) Option.none c = c.become new := by
      simp [Db.transition, RecoveryCase.become, version]
    rw [moved]
    have base : (C.db t).cases.get case.id = some c := by simpa [Setting.sees, none] using hc
    exact h _ t ht (.moved base (status.trans read) read version)
  · have skipped : Moves C.db R new case [] t := .skipped fun _ => ⟨t, hR.refl,
      fun c hc h => miss c (by simpa [Setting.sees, none] using hc) ⟨h.1.trans read.symm, h.2⟩⟩
    simpa using h [] t ht skipped

theorem wp_takeClaim (hR : C.Weakens R) {payment : Option Payment}
    (reads : Reads C.db R env action.id action case ps s) (open_ : case.status.isTerminal = false)
    (hQ : ∀ result us t, ClaimEffect C.db R env action.id result us t → Q result us t)
    (hX : ∀ e us t, X e us t) : C.wp (takeClaim env case action payment) Q X ps s := by
  obtain ⟨-, -, noActions, -, -, noAudits⟩ := reads.policy.tables
  unfold takeClaim
  split
  next other =>
    refine hQ _ _ _ (.refused reads.policy fun action' case' => ?_)
    obtain ⟨t₀, t₁, h₀₁, h₁, found, -⟩ := reads.seen
    refine ⟨t₀, hR.trans h₀₁ h₁, fun claimable => other ?_⟩
    exact Option.some.inj (found.symm.trans claimable.1) ▸ claimable.2.1
  next =>
    rw [atomicActionTransition, Setting.wp_bind]
    refine wp_updateAction (fun t₁ a h₁ ha approved => ?_) (fun t₁ h₁ miss => ?_)
      fun e t _ => hX _ _ _
    · have held : Held C.db R env action.id action a case ps t₁ := {
        reads.later hR (List.Subset.refl _) h₁ with
        base := by simpa [Setting.sees, noActions] using ha
        approved := approved }
      rw [if_neg one_ne_zero, auditAction, Setting.wp_bind]
      refine wp_insert (fun t₂ h₂ _ ok => ?_) fun e t _ _ _ => hX _ _ _
      refine hQ _ _ _ (.claimed (held.later hR .executing (List.Subset.refl _) h₂) open_
        ⟨rfl, rfl, rfl, rfl, rfl, rfl, rfl⟩ (.of_view ok.lacks ?_))
      simp [Db.rowsLike, List.filterMap_cons, Row.audit?, noAudits]
    · rw [if_pos rfl]
      refine hQ _ _ _
        (.refused (reads.later hR (List.Subset.refl _) h₁).policy fun action' case' => ?_)
      refine ⟨t₁, hR.refl, fun claimable => miss action' ?_ claimable.2.1⟩
      simpa [Setting.sees, noActions] using claimable.1

theorem wp_cancelClaim (hR : C.Weakens R) {decision : PolicyDecision}
    (reads : Reads C.db R env action.id action case ps s)
    (hQ : ∀ result us t, ClaimEffect C.db R env action.id result us t → Q result us t)
    (hX : ∀ e us t, X e us t) : C.wp (cancelClaim env case action decision) Q X ps s := by
  obtain ⟨-, noCases, noActions, -, -, noAudits⟩ := reads.policy.tables
  rw [cancelClaim, atomicActionTransition, Setting.wp_bind]
  refine wp_updateAction (fun t₁ a h₁ ha approved => ?_) (fun t₁ h₁ miss => ?_)
    fun e t _ => hX _ _ _
  · have held : Held C.db R env action.id action a case ps t₁ := {
      reads.later hR (List.Subset.refl _) h₁ with
      base := by simpa [Setting.sees, noActions] using ha
      approved := approved }
    rw [if_pos rfl, auditAction, Setting.wp_bind]
    refine wp_insert (fun t₂ h₂ _ ok => ?_) fun e t _ _ _ => hX _ _ _
    generalize details : [("reason", Json.str decision.reason), ("case_status",
      .str case.status.value)] = reason at ok ⊢
    -- What is known from here on, whatever the others do.
    have later : ∀ t, C.rely (ps ++ [.action { a with status := .cancelled }] ++
          [.audit (actionAudit env case action "recovery_action.cancelled" reason)]) t₂ t →
        Held C.db R env action.id action a case ps t ∧ (C.db t).Absent (.audit (actionAudit env case
          action "recovery_action.cancelled" reason)) := by
      intro t h
      refine ⟨held.later hR .cancelled (List.Subset.refl _) (C.rely_append h₂ h),
        Db.Absent.later (.of_view ok.lacks ?_) (by simp) h⟩
      simp [Db.rowsLike, List.filterMap_cons, Row.audit?, noAudits]
    split
    next scheduled =>
      have read : case.status = .actionScheduled := by
        simpa using (Bool.and_eq_true_iff.1 scheduled).2
      refine wp_move hR (by decide) read (by simp [List.filterMap_cons, Row.case?, noCases])
        (fun rows t₃ h₃ moves => ?_) hX
      exact hQ _ _ _ (.cancelled (later t₃ h₃).1 moves (later t₃ h₃).2)
    next other =>
      have skipped : Moves C.db R .stopped case [] t₂ :=
        .skipped fun read => absurd (by rw [read]; decide) other
      have kept := later t₂ (C.rely_refl _ _)
      simpa using hQ _ _ _ (.cancelled kept.1 skipped kept.2)
  · rw [if_neg zero_ne_one]
    refine hQ _ _ _
      (.refused (reads.later hR (List.Subset.refl _) h₁).policy fun action' case' => ?_)
    refine ⟨t₁, hR.refl, fun claimable => miss action' ?_ claimable.2.1⟩
    simpa [Setting.sees, noActions] using claimable.1

theorem wp_claimAction (hR : C.Weakens R) {actionId : Uuid}
    (hQ : ∀ result us t, ClaimEffect C.db R env actionId result us t → Q result us t)
    (hX : ∀ e us t, X e us t) : C.wp (claimAction env actionId) Q X [] s := by
  rw [claimAction, Setting.wp_bind]
  refine wp_selectAction fun t₁ h₁ => ?_
  have lookup : (C.sees [] t₁).actions.find (·.id = actionId) =
      (C.db t₁).actions.get actionId := rfl
  rw [lookup]
  split
  next none =>
    refine hQ _ _ _ (.refused (PolicyRows.none actionId) fun action case => ?_)
    refine ⟨t₁, hR.refl, fun ⟨found, _⟩ => ?_⟩
    rw [none] at found
    cases found
  next action found =>
    obtain rfl : action.id = actionId := (Table.get_eq_some.1 found).2
    rw [Setting.wp_bind]
    refine wp_selectCase fun t₂ h₂ => ?_
    have lookup : (C.sees [] t₂).cases.find (·.id = action.recoveryCaseId) =
      (C.db t₂).cases.get action.recoveryCaseId := rfl
    rw [lookup]
    split
    next none =>
      refine hQ _ _ _ (.refused (PolicyRows.none action.id) fun action' case => ?_)
      by_cases claimable : Claimable (C.db t₁) action.id action' case
      · refine ⟨t₂, hR.refl, fun ⟨_, _, foundCase⟩ => ?_⟩
        obtain rfl := Option.some.inj (found.symm.trans claimable.1)
        rw [none] at foundCase
        cases foundCase
      · exact ⟨t₁, hR.of_rely h₂, claimable⟩
    next case foundCase =>
      rw [Setting.wp_bind]
      refine wp_selectPayment fun t₃ h₃ => ?_
      rw [Setting.wp_bind]
      refine wp_getOrCreateDefaultPolicy (by simp) (fun policy ps t₄ h₄ hps => ?_) hX
      rw [List.nil_append, Setting.wp_bind]
      refine wp_buildPolicyInput fun input t₅ h₅ => ?_
      have reads : Reads C.db R env action.id action case ps t₅ :=
        ⟨⟨t₁, t₂, hR.of_rely h₂, hR.of_rely (C.rely_trans h₃ (C.rely_append h₄ h₅)),
          found, foundCase⟩, hps.later (List.Subset.refl _) h₅⟩
      dsimp only
      split
      next allowed =>
        refine wp_takeClaim hR reads ?_ hQ hX
        simp only [Bool.and_eq_true, Bool.not_eq_true'] at allowed
        exact allowed.1.1
      next => exact wp_cancelClaim hR reads hQ hX

/-! ## Finalization -/

theorem Found.later (hR : C.Weakens R) {claim : Claim} (h : Found C.db R claim action case s)
    (ht : C.rely ws s t) : Found C.db R claim action case t := by
  obtain ⟨t₀, t₁, h₀₁, h₁, found, foundCase⟩ := h
  exact ⟨t₀, t₁, h₀₁, hR.trans h₁ (hR.anti (List.nil_subset ws) (hR.of_rely ht)), found, foundCase⟩

theorem Found.action_id {T : Type} {db : T → Db} {R : List Row → T → T → Prop} {t : T}
    {claim : Claim} (h : Found db R claim action case t) : action.id = claim.actionId := by
  obtain ⟨t₀, -, -, -, found, -⟩ := h
  exact (Table.get_eq_some.1 found).2

/-- Both finalizations start with the same two lookups. -/
theorem wp_finds (hR : C.Weakens R) {α : Type} {claim : Claim}
    {next : Option RecoveryAction → Option RecoveryCase → Tx α} {Q : α → List Row → C.State → Prop}
    (found : ∀ action case t, Found C.db R claim action case t →
      C.wp (next (some action) (some case)) Q X [] t)
    (missed : ∀ action case t, (action = none ∨ case = none) → (∀ action' case', ∃ t₀, R [] t₀ t ∧
      ¬ Finds (C.db t₀) claim action' case') → C.wp (next action case) Q X [] t) :
    C.wp (query (.selectAction (·.id = claim.actionId)) >>= fun action =>
      query (.selectCase (·.id = claim.caseId)) >>= fun case => next action case) Q X [] s := by
  rw [Setting.wp_bind]
  refine wp_selectAction fun t₁ h₁ => ?_
  rw [Setting.wp_bind]
  refine wp_selectCase fun t₂ h₂ => ?_
  have action : (C.sees [] t₁).actions.find (·.id = claim.actionId) =
    (C.db t₁).actions.get claim.actionId := rfl
  have case : (C.sees [] t₂).cases.find (·.id = claim.caseId) =
      (C.db t₂).cases.get claim.caseId := rfl
  rw [action, case]
  cases ha : (C.db t₁).actions.get claim.actionId with
  | none => exact missed _ _ t₂ (.inl rfl) fun _ _ => ⟨t₁, hR.of_rely h₂,
    fun h => by simpa [ha] using h.1⟩
  | some a =>
    cases hc : (C.db t₂).cases.get claim.caseId with
    | none =>
      exact missed _ _ t₂ (.inr rfl) fun _ _ => ⟨t₂, hR.refl, fun h => by simpa [hc] using h.2⟩
    | some c => exact found a c t₂ ⟨t₁, t₂, hR.of_rely h₂, hR.refl, ha, hc⟩

theorem wp_finalizeSuccess (hR : C.Weakens R) {claim : Claim}
    {reference : Json} {details : Fields} {Q : Unit → List Row → C.State → Prop}
    (hQ : ∀ us t, SuccessEffect C.db R env claim us t → Q () us t) (hX : ∀ e us t, X e us t) :
    C.wp (finalizeSuccess env claim reference details) Q X [] s := by
  refine wp_finds hR (fun action case t₁ found => ?_) (fun action case t₁ none missed => ?_)
  · have id := found.action_id
    -- The rest of the body, after the transition to `WAITING` and the rows it wrote.
    have record : ∀ rows t₂ column, action.status = .executing → C.rely [] t₁ t₂ →
        Moves C.db R .waiting case rows t₂ →
        C.wp (query (.flushAction action (action.succeeded env.now column)) >>= fun _ =>
          auditAction env case action "recovery_action.executed"
            [("provider_reference", reference), ("details", .obj details)]) Q X rows t₂ := by
      intro rows t₂ column executing h₂ moves
      obtain ⟨-, noActions, -, -, noAudits⟩ := moves.tables
      rw [Setting.wp_bind]
      refine wp_flushAction (fun t₃ r h₃ hr => ?_) fun e t _ => hX _ _ _
      have base : (C.db t₃).actions.get claim.actionId = some r := by
        simpa [Setting.sees, noActions, id] using hr
      have idr : r.id = claim.actionId := (Table.get_eq_some.1 base).2
      refine wp_insert (fun t₄ h₄ _ ok => ?_) fun e t _ _ _ => hX _ _ _
      have h₂₄ : C.rely ([] ++ rows) t₂ t₄ := C.rely_append h₃ h₄
      have h₁₄ := C.rely_append h₂ h₂₄
      have base : (C.db t₄).actions.get claim.actionId = some r :=
        idr ▸ C.action_stays (r := Db.patchAction action (action.succeeded env.now column) r) h₄
          (by simp) (idr ▸ base)
      refine hQ _ _ (.executed (found.later hR h₁₄) executing
        ((moves.later hR (List.Subset.refl _) h₃).later hR (by simp) h₄) base
          (.of_view ok.lacks ?_))
      simp [Db.rowsLike, List.filterMap_cons, Row.audit?, noAudits]
    dsimp only
    split
    next executing =>
      split
      next scheduled =>
        refine wp_move hR (by decide) scheduled rfl (fun rows t₂ h₂ moves => ?_) hX
        split
        · exact hX _ _ _
        · exact record rows t₂ _ executing h₂ moves
      next other =>
        split
        · exact hX _ _ _
        · exact record [] t₁ _ executing (C.rely_refl _ _) (.skipped fun h => absurd h other)
    next other =>
      obtain ⟨t₀, t, h₀, ht, ha, -⟩ := found
      refine hQ _ _ (.idle fun action' case' => ⟨t₀, hR.trans h₀ ht, fun h => other ?_⟩)
      exact Option.some.inj (ha.symm.trans h.1.1) ▸ h.2
  · have : Q () [] t₁ := hQ _ _ (.idle fun action case => (missed action case).imp fun t₀ h =>
      ⟨h.1, fun h' => h.2 h'.1⟩)
    rcases action with - | action <;> rcases case with - | case <;> simp_all

theorem wp_finalizeFailure (hR : C.Weakens R) {claim : Claim}
    {error : ExternalError} {Q : Unit → List Row → C.State → Prop}
    (hQ : ∀ us t, FailureEffect C.db R env claim us t → Q () us t) (hX : ∀ e us t, X e us t) :
    C.wp (finalizeFailure env claim error) Q X [] s := by
  refine wp_finds hR (fun action case t₁ found => ?_) (fun action case t₁ none missed => ?_)
  · dsimp only
    split
    next executing =>
      rw [Setting.wp_bind]
      refine wp_flushAction (fun t₂ r h₂ hr => ?_) fun e t _ => hX _ _ _
      have base : (C.db t₂).actions.get claim.actionId = some r := found.action_id ▸ hr
      have idr : r.id = claim.actionId := (Table.get_eq_some.1 base).2
      refine wp_insert (fun t₃ h₃ _ ok => ?_) fun e t _ _ _ => hX _ _ _
      have base : (C.db t₃).actions.get claim.actionId = some r :=
        idr ▸ C.action_stays (r := Db.patchAction action (action.unsuccessful error.message) r) h₃
          (List.mem_singleton.2 rfl) (idr ▸ base)
      refine hQ _ _
        (.failed (found.later hR (C.rely_append h₂ h₃)) executing base (.of_view ok.lacks rfl))
    next other =>
      refine wp_insert (fun t₂ h₂ _ ok => ?_) fun e t _ _ _ => hX _ _ _
      exact hQ _ _ (.noted (found.later hR h₂) other (.of_view ok.lacks rfl))
  · have : Q () [] t₁ := hQ _ _ (.idle missed)
    rcases action with - | action <;> rcases case with - | case <;> simp_all

/-! ## Effects last until the commit -/

theorem ClaimEffect.later (hR : C.Weakens R) {actionId : Uuid} {result : ClaimResult}
    (h : ClaimEffect C.db R env actionId result us s) (ht : C.rely us s t) :
    ClaimEffect C.db R env actionId result us t := by
  cases h with
  | refused policy missed =>
    exact .refused (policy.later (List.Subset.refl _) ht) fun action case =>
      hR.later (missed action case) ht
  | cancelled held stop audit =>
    exact .cancelled (held.later hR .cancelled (by simp) ht)
      (stop.later hR (List.subset_append_right _ _) ht) (audit.later (by simp) ht)
  | claimed held open_ from_ audit =>
    exact .claimed (held.later hR .executing (by simp) ht) open_ from_ (audit.later (by simp) ht)

theorem SuccessEffect.later (hR : C.Weakens R) {claim : Claim}
    (h : SuccessEffect C.db R env claim us s) (ht : C.rely us s t) :
    SuccessEffect C.db R env claim us t := by
  cases h with
  | idle missed => exact .idle fun action case => hR.later (missed action case) ht
  | @executed action r case rows column payload _ found executing moves base audit =>
    have id : r.id = claim.actionId := (Table.get_eq_some.1 base).2
    refine .executed (found.later hR ht) executing (moves.later hR (by simp) ht) (id ▸ ?_)
      (audit.later (by simp) ht)
    exact C.action_stays
      (r := Db.patchAction action (action.succeeded env.now column) r) ht (by simp)
      (id ▸ base)

theorem FailureEffect.later (hR : C.Weakens R) {claim : Claim}
    (h : FailureEffect C.db R env claim us s) (ht : C.rely us s t) :
    FailureEffect C.db R env claim us t := by
  cases h with
  | idle missed => exact .idle fun action case => hR.later (missed action case) ht
  | @failed action r case message payload _ found executing base audit =>
    have id : r.id = claim.actionId := (Table.get_eq_some.1 base).2
    refine .failed (found.later hR ht) executing (id ▸ ?_) (audit.later (by simp) ht)
    exact C.action_stays (r := Db.patchAction action (action.unsuccessful message) r) ht (by simp)
      (id ▸ base)
  | noted found other audit => exact .noted (found.later hR ht) other (audit.later (by simp) ht)

end RecoverAI
