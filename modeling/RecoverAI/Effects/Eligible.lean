import RecoverAI.Effects.Services
import RecoverAI.Tasks.Recovery

/-!
# What the eligible task does

The writes of the eligible task's transaction, described at the moment of its commit. `R ws s t`
says that `t` comes after `s` with the locks of `ws` held; a transaction that runs alone has `s =
t`.
-/
namespace RecoverAI

open Store

/-- The case after the guarded transition out of `ELIGIBLE`. -/
def RecoveryCase.analysing (c : RecoveryCase) : RecoveryCase :=
  { c with status := .analysing, version := c.version + 1 }

def RecoveryCase.selected (c : RecoveryCase) : RecoveryCase :=
  { c with status := .actionSelected, version := c.version + 2 }

/-- The case after the task. -/
def RecoveryCase.decided (c : RecoveryCase) (s : Selection) (now : Time) : RecoveryCase :=
  { c with
    status := s.finalStatus
    version := c.version + 3
    nextActionAt := if s.finalAction.executable then some (s.nextActionAt now) else c.nextActionAt }

section

variable [PyText] {T : Type} (db : T → Db) (R : List Row → T → T → Prop) (env : Draws)
  (outboxEventId : String)

/-- The event with that id calls for a decision on `case`. -/
def CallsFor (d : Db) (outboxEventId : String) (case : RecoveryCase) : Prop :=
  ∃ id outbox, Uuid.parse outboxEventId = some id ∧ d.outbox.get id = some outbox ∧
    (Json.item outbox.payload "recovery_case_id").uuid = some case.id ∧
    d.cases.get case.id = some case ∧ case.status = .eligible

/-- The task found `case` `ELIGIBLE` and the guarded transition hit the row `c`. -/
structure Taken (case c : RecoveryCase) (ps : List Row) (t : T) : Prop where
  seen : ∃ t₀, R [] t₀ t ∧ (db t₀).cases.get case.id = some case
  eligible : case.status = .eligible
  base : (db t).cases.get case.id = some c
  status : c.status = .eligible
  version : c.version = case.version
  policy : PolicyRows (db t) env.policyId case.merchantId ps

/-- The event that schedules the action, where the action is executable. -/
def scheduledRows (case : RecoveryCase) (s : Selection) : List Row :=
  if s.finalAction.executable then
    [.outbox (actionScheduledOutbox env case (newAction env case s.finalAction)
      (s.nextActionAt env.now))]
  else []

/-- The rows of a task that processed its event. -/
def decisionRows (case c : RecoveryCase) (outboxEventId : String) (s : Selection) (ps : List Row) :
    List Row :=
  .recoveryCase c.analysing :: ps ++ [.action (newAction env case s.finalAction)] ++
    [.recoveryCase c.selected] ++ [.recoveryCase (c.decided s env.now)] ++
    scheduledRows env case s ++ [.audit (decisionAudit env case outboxEventId s)]

inductive EligibleEffect : Fields → List Row → T → Prop where
  | idle {result t} (missed : ∀ case, ∃ t₀, R [] t₀ t ∧ ¬ CallsFor (db t₀) outboxEventId case) :
      EligibleEffect result [] t
  | blocked {case c ps t} (taken : Taken db R env case c ps t)
      (existing : ∃ t₁ finalAction a, R [] t₁ t ∧ a ∈ (db t₁).actions ∧
        SameAttempt (newAction env case finalAction) a) :
      EligibleEffect (ignored "action_already_exists") (.recoveryCase c.analysing :: ps) t
  | processed {case c ps t} (taken : Taken db R env case c ps t) (source : Uuid) (s : Selection)
      (action : (db t).Absent (.action (newAction env case s.finalAction)))
      (outbox : ∀ r ∈ scheduledRows env case s, (db t).Absent r)
      (audit : (db t).Absent (.audit (decisionAudit env case source.str s))) :
      EligibleEffect (processedResult case s) (decisionRows env case c source.str s ps) t

end

theorem scheduledRows_tables (env : Draws) (case : RecoveryCase) (s : Selection) :
    paymentsOf (scheduledRows env case s) = [] ∧ casesOf (scheduledRows env case s) = [] ∧
      actionsOf (scheduledRows env case s) = [] ∧ webhookEventsOf (scheduledRows env case s) = [] ∧
      auditsOf (scheduledRows env case s) = [] := by
  unfold scheduledRows
  split <;> simp [Row.payment?, Row.case?, Row.action?, Row.webhookEvent?, Row.audit?]

theorem Selection.finalStatus_cases (s : Selection) :
    s.finalAction.executable ∧ s.finalStatus = .actionScheduled ∨
      s.finalAction = .stop ∧ s.finalStatus = .stopped ∨
      s.finalAction = .escalate ∧ s.finalStatus = .escalated := by
  unfold Selection.finalStatus
  cases s.finalAction <;> simp [RecoveryActionType.executable]

theorem Selection.finalStatus_eq_actionScheduled (s : Selection) :
    s.finalStatus = .actionScheduled ↔ s.finalAction.executable := by
  unfold Selection.finalStatus
  cases s.finalAction <;> simp [RecoveryActionType.executable]

theorem finalStatus_ne (s : Selection) : s.finalStatus ≠ .eligible ∧ s.finalStatus ≠ .failed := by
  rcases s.finalStatus_cases with ⟨-, h⟩ | ⟨-, h⟩ | ⟨-, h⟩ <;> rw [h] <;> decide

variable {C : Setting Stmt Db Row} {X : Err → List Row → C.State → Prop} {ws us : List Row}
  {s t u : C.State} {settings : Settings} {llm : Llm} {env : Draws}

theorem Taken.later {R : List Row → C.State → C.State → Prop} (hR : C.Weakens R)
    {case c : RecoveryCase} {ps : List Row} (h : Taken C.db R env case c ps s)
    (sub : .recoveryCase c.analysing :: ps ⊆ ws) (ht : C.rely ws s t) :
    Taken C.db R env case c ps t := by
  have id : c.id = case.id := (Table.get_eq_some.1 h.base).2
  refine { h with seen := hR.later h.seen ht, base := id ▸ ?_, policy := h.policy.later ?_ ht }
  · exact C.case_stays (r := c.analysing) ht (sub (by simp)) (id ▸ h.base)
  · exact fun r hr => sub (List.mem_cons_of_mem _ hr)

variable [PyLib]

theorem EligibleEffect.later {R : List Row → C.State → C.State → Prop} (hR : C.Weakens R)
    {outboxEventId : String} {result : Fields}
    (h : EligibleEffect C.db R env outboxEventId result us s) (ht : C.rely us s t) :
    EligibleEffect C.db R env outboxEventId result us t := by
  cases h with
  | idle missed => exact .idle fun case => hR.later (missed case) ht
  | blocked taken existing =>
    refine .blocked (taken.later hR (List.Subset.refl _) ht) ?_
    obtain ⟨t₁, finalAction, a, h₁, ha⟩ := existing
    exact ⟨t₁, finalAction, a, hR.trans h₁ (hR.anti (List.nil_subset _) (hR.of_rely ht)), ha⟩
  | processed taken source s action outbox audit =>
    refine .processed (taken.later hR (fun r hr => ?_) ht) source s (action.later ?_ ht)
      (fun r hr => (outbox r hr).later ?_ ht) (audit.later ?_ ht) <;>
      simp_all [decisionRows]
    tauto

theorem wp_selection {case : RecoveryCase} {status : RecoveryCaseStatus}
    {Q : Selection → List Row → C.State → Prop} (none : policiesOf ws = [])
    (hQ : ∀ sel ps t, C.rely ws s t → PolicyRows (C.db t) env.policyId case.merchantId ps →
      Q sel (ws ++ ps) t) (hX : ∀ e us t, X e us t) :
    C.wp (selectAction settings llm env case status) Q X ws s := by
  rw [selectAction, Setting.wp_bind]
  refine wp_getOrCreateDefaultPolicy none (fun policy ps t₁ h₁ hps => ?_) hX
  have later : ∀ t, C.rely (ws ++ ps) t₁ t → C.rely ws s t ∧
      PolicyRows (C.db t) env.policyId case.merchantId ps := by
    intro t ht
    refine ⟨C.rely_append h₁ ht, hps.imp_right fun h => ⟨h.1, ?_⟩⟩
    exact h.2.later (by simp [h.1]) ht
  rw [Setting.wp_bind]
  refine wp_buildPolicyInput fun input t₂ h₂ => ?_
  dsimp only
  split
  · exact hQ _ _ t₂ (later t₂ h₂).1 (later t₂ h₂).2
  · rw [Setting.wp_bind]
    refine wp_buildPolicyInput fun input' t₃ h₃ => ?_
    have h₂₃ := later t₃ (C.rely_trans h₂ h₃)
    exact hQ _ _ t₃ h₂₃.1 h₂₃.2

omit [PyLib] in
theorem wp_finalTransition {case : RecoveryCase} {version : Int} {sel : Selection}
    {Q : Nat → List Row → C.State → Prop}
    (hit : ∀ t c, C.rely ws s t → (C.sees ws t).cases.get case.id = some c →
      Q 1 (ws ++ [.recoveryCase { c with
        status := sel.finalStatus
        version := version + 1
        nextActionAt := if sel.finalAction.executable then some (sel.nextActionAt env.now)
          else c.nextActionAt }]) t)
    (miss : ∀ t, C.rely ws s t → (∀ c, (C.sees ws t).cases.get case.id = some c →
      ¬ (c.status = .actionSelected ∧ c.version = version)) → Q 0 ws t)
    (hX : ∀ e us t, X e us t) : C.wp (finalTransition env case version sel) Q X ws s := by
  have goal : ∀ next newStatus, sel.finalStatus = newStatus →
      (if sel.finalAction.executable then some (sel.nextActionAt env.now) else none) = next →
      C.wp (query (.updateCase case.id .actionSelected version newStatus next)) Q X ws s := by
    rintro next newStatus rfl rfl
    refine wp_updateCase (fun t c ht hc _ _ => ?_) miss fun e t _ => hX _ _ _
    have := hit t c ht hc
    cases h : sel.finalAction.executable <;> simpa [Db.transition, h] using this
  unfold finalTransition
  split
  next h => exact (wp_atomicTransition (by decide)).2 (goal _ _ (by simp [Selection.finalStatus, h])
      (by simp [h, RecoveryActionType.executable]))
  next h => exact (wp_atomicTransition (by decide)).2 (goal _ _ (by simp [Selection.finalStatus, h])
      (by simp [h, RecoveryActionType.executable]))
  next h h' =>
    refine (wp_atomicTransitionWithNextActionAt (by decide)).2 (goal _ _ ?_ ?_) <;>
      cases e : sel.finalAction <;> simp_all [Selection.finalStatus, RecoveryActionType.executable]

omit [PyLib] in
theorem wp_schedule {case : RecoveryCase} {sel : Selection} {rest : Tx Fields}
    {Q : Fields → List Row → C.State → Prop} (none : outboxOf ws = [])
    (hQ : ∀ t, C.rely ws s t → (∀ r ∈ scheduledRows env case sel, (C.db t).Absent r) →
      C.wp rest Q X (ws ++ scheduledRows env case sel) t) (hX : ∀ e us t, X e us t) :
    C.wp (if sel.finalStatus = .actionScheduled then
        insertActionScheduledOutbox env case (newAction env case sel.finalAction)
          (sel.nextActionAt env.now) >>= fun _ => rest
      else rest) Q X ws s := by
  have scheduled := sel.finalStatus_eq_actionScheduled
  split
  next h =>
    rw [scheduledRows, if_pos (scheduled.1 h)] at hQ
    rw [Setting.wp_bind]
    refine wp_insert (fun t ht _ ok => hQ t ht fun r hr => ?_) fun e t _ _ _ => hX _ _ _
    rw [List.mem_singleton] at hr
    subst hr
    exact .of_view ok.lacks (by simp [Db.rowsLike, none])
  next h =>
    rw [scheduledRows, if_neg (mt scheduled.2 h)] at hQ
    simpa using hQ s (C.rely_refl _ _) (by simp)

omit [PyLib] in
/-- After its first guarded transition the task holds the case's row, so the later ones hit. -/
theorem wp_recordAction {case c : RecoveryCase} {ps : List Row} {outboxEventId : String}
    {sel : Selection} {Q : Fields → List Row → C.State → Prop}
    (hps : PolicyRows (C.db s) env.policyId case.merchantId ps) (id : c.id = case.id)
    (version : c.version = case.version)
    (blocked : ∀ t a, C.rely (.recoveryCase c.analysing :: ps) s t → a ∈ (C.db t).actions →
      SameAttempt (newAction env case sel.finalAction) a →
      Q (ignored "action_already_exists") (.recoveryCase c.analysing :: ps) t)
    (processed : ∀ t, C.rely (.recoveryCase c.analysing :: ps) s t →
      (C.db t).Absent (.action (newAction env case sel.finalAction)) →
      (∀ r ∈ scheduledRows env case sel, (C.db t).Absent r) →
      (C.db t).Absent (.audit (decisionAudit env case outboxEventId sel)) →
      Q (processedResult case sel) (decisionRows env case c outboxEventId sel ps) t)
    (hX : ∀ e us t, X e us t) :
    C.wp (recordAction env case outboxEventId (case.version + 1) sel) Q X
      (.recoveryCase c.analysing :: ps) s := by
  obtain ⟨-, noCases, noActions, noOutbox, -, noAudits⟩ := hps.tables
  rw [recordAction, Setting.wp_bind]
  refine wp_createRecoveryActionIdempotent (by simpa [Row.action?] using noActions)
    (fun t₁ h₁ absent => ?_) (fun t₁ a h₁ ha same => blocked t₁ a h₁ ha same) hX
  dsimp only
  rw [Bool.not_true, if_neg Bool.false_ne_true, Setting.wp_bind, wp_atomicTransition (by decide)]
  have seen : ∀ t, (C.sees (.recoveryCase c.analysing :: ps ++
      [.action (newAction env case sel.finalAction)]) t).cases.get case.id = some c.analysing :=
    fun t => id ▸ view_case_of_getLast? (c := c.analysing)
      (by simp [List.filterMap_cons, Row.case?, noCases])
  refine wp_updateCase (fun t₂ c₂ h₂ hc₂ _ _ => ?_)
    (fun t₂ _ miss => absurd ⟨rfl, congrArg (· + 1) version⟩ (miss _ (seen t₂)))
    fun e t _ => hX _ _ _
  obtain rfl : c.analysing = c₂ := Option.some.inj ((seen t₂).symm.trans hc₂)
  have selected : Db.transition .actionSelected (case.version + 1 + 1) none c.analysing =
      c.selected := by
    simp [Db.transition, RecoveryCase.selected, RecoveryCase.analysing, ← version, add_assoc]
  rw [if_neg (by decide), Setting.wp_bind, selected]
  have seen' : ∀ t, (C.sees (.recoveryCase c.analysing :: ps ++
      [.action (newAction env case sel.finalAction)] ++ [.recoveryCase c.selected]) t).cases.get
        case.id = some c.selected :=
    fun t => id ▸ view_case_of_getLast? (c := c.selected)
      (by simp [List.filterMap_cons, Row.case?, noCases])
  refine wp_finalTransition (fun t₃ c₃ h₃ hc₃ => ?_) (fun t₃ _ miss => ?_) hX
  · obtain rfl : c.selected = c₃ := Option.some.inj ((seen' t₃).symm.trans hc₃)
    have decided : ({ c.selected with
        status := sel.finalStatus
        version := case.version + 1 + 1 + 1
        nextActionAt := if sel.finalAction.executable then some (sel.nextActionAt env.now)
          else c.selected.nextActionAt } : RecoveryCase) = c.decided sel env.now := by
      simp [RecoveryCase.decided, RecoveryCase.selected, ← version, add_assoc]
    rw [if_neg (by decide), decided]
    refine wp_schedule (by simp [List.filterMap_cons, Row.outbox?, noOutbox])
      (fun t₄ h₄ outbox => ?_) hX
    rw [Setting.wp_bind]
    refine wp_insert (fun t₅ h₅ _ ok => ?_) fun e t _ _ _ => hX _ _ _
    have h₁₅ := C.rely_append h₂ (C.rely_append h₃ (C.rely_append h₄ h₅))
    refine processed t₅ (C.rely_append h₁ h₁₅) (absent.later (by simp) h₁₅)
      (fun r hr => (outbox r hr).later (by simp [hr]) h₅) (.of_view ok.lacks ?_)
    simp [Db.rowsLike, List.filterMap_cons, Row.audit?, noAudits,
      (scheduledRows_tables env case sel).2.2.2.2]
  · refine absurd ⟨rfl, ?_⟩ (miss _ (seen' t₃))
    simp [RecoveryCase.selected, version, add_assoc]

theorem wp_decide {R : List Row → C.State → C.State → Prop}
    (hR : C.Weakens R) {outboxEventId : String} {case c : RecoveryCase}
    {source : Uuid} (seen : ∃ t₀, C.rely [] t₀ s ∧ (C.db t₀).cases.get case.id = some case)
    (eligible : case.status = .eligible) (hit : (C.db s).cases.get case.id = some c)
    (status : c.status = case.status) (version : c.version = case.version)
    {Q : Fields → List Row → C.State → Prop}
    (hQ : ∀ result us t, EligibleEffect C.db R env outboxEventId result us t → Q result us t)
    (hX : ∀ e us t, X e us t) :
    C.wp (selectAction settings llm env case .analysing >>=
      recordAction env case source.str (case.version + 1)) Q X [.recoveryCase c.analysing] s := by
  have id : c.id = case.id := (Table.get_eq_some.1 hit).2
  rw [Setting.wp_bind]
  refine wp_selection (by simp [Row.policy?]) (fun sel ps t₁ h₁ hps => ?_) hX
  rw [List.singleton_append]
  have taken : ∀ t, C.rely (.recoveryCase c.analysing :: ps) t₁ t →
      Taken C.db R env case c ps t := by
    intro t h
    have hst := C.rely_append h₁ h
    obtain ⟨t₀, h₀, found⟩ := seen
    refine ⟨⟨t₀, hR.of_rely (C.rely_append h₀ hst), found⟩, eligible, ?_,
      status.trans eligible, version, hps.later (List.subset_cons_self _ _) h⟩
    exact id ▸ C.case_stays (r := c.analysing) hst (List.mem_singleton.2 rfl) (id ▸ hit)
  refine wp_recordAction hps id version (fun t a h ha same => ?_)
    (fun t h action outbox audit => ?_) hX
  · exact hQ _ _ _ (.blocked (taken t h) ⟨t, _, a, hR.refl, ha, same⟩)
  · exact hQ _ _ _ (.processed (taken t h) source sel action outbox audit)

theorem wp_handleRecoveryCaseEligible {outbox : OutboxEvent}
    {R : List Row → C.State → C.State → Prop} (hR : C.Weakens R) {outboxEventId : String}
    {t₀ : C.State} (h₀ : C.rely [] t₀ s)
    (read : ∀ case, CallsFor (C.db t₀) outboxEventId case →
      (Json.item outbox.payload "recovery_case_id").uuid = some case.id)
    {Q : Fields → List Row → C.State → Prop}
    (hQ : ∀ result us t, EligibleEffect C.db R env outboxEventId result us t → Q result us t)
    (hX : ∀ e us t, X e us t) :
    C.wp (handleRecoveryCaseEligible settings llm env outbox) Q X [] s := by
  have idle : ∀ result t, (∀ case, CallsFor (C.db t₀) outboxEventId case →
      ∃ t₁, C.rely [] t₁ t ∧ ¬ CallsFor (C.db t₁) outboxEventId case) → C.rely [] s t →
      Q result [] t := by
    intro result t missed h
    refine hQ _ _ _ (.idle fun case => ?_)
    by_cases calls : CallsFor (C.db t₀) outboxEventId case
    · obtain ⟨t₁, h₁, miss⟩ := missed case calls
      exact ⟨t₁, hR.of_rely h₁, miss⟩
    · exact ⟨t₀, hR.of_rely (C.rely_trans h₀ h), calls⟩
  unfold handleRecoveryCaseEligible
  split
  next noId =>
    exact idle _ s (fun case calls => by simpa [noId] using read case calls) (C.rely_refl _ _)
  next caseId hid =>
    have named : ∀ case, CallsFor (C.db t₀) outboxEventId case → caseId = case.id :=
      fun case calls => Option.some.inj (hid.symm.trans (read case calls))
    rw [Setting.wp_bind]
    refine wp_selectCase fun t₁ h₁ => ?_
    have lookup : (C.sees [] t₁).cases.find (·.id = caseId) = (C.db t₁).cases.get caseId := rfl
    rw [lookup]
    split
    next none =>
      refine idle _ t₁ (fun case calls => ⟨t₁, C.rely_refl _ _, fun calls' => ?_⟩) h₁
      obtain ⟨-, -, -, -, -, found, -⟩ := calls'
      rw [← named case calls, none] at found
      cases found
    next case found =>
      split
      next other =>
        refine idle _ t₁ (fun case' calls => ⟨t₁, C.rely_refl _ _, fun calls' => ?_⟩) h₁
        obtain ⟨-, -, -, -, -, found', eligible⟩ := calls'
        rw [← named case' calls, found] at found'
        exact other (Option.some.inj found' ▸ eligible)
      next eligible =>
        rw [not_not] at eligible
        have id : case.id = caseId := (Table.get_eq_some.1 found).2
        rw [Setting.wp_bind]
        refine wp_catchingTransition (by rw [eligible]; decide)
          (fun t₂ c h₂ hc status version => ?_) (fun t₂ h₂ miss => ?_) hX
        · have moved : Db.transition .analysing (case.version + 1) none c = c.analysing := by
            simp [Db.transition, RecoveryCase.analysing, version]
          rw [moved, List.nil_append]
          exact wp_decide hR ⟨t₁, h₂, id ▸ found⟩ eligible hc status version hQ hX
        · refine idle _ t₂ (fun case' calls => ?_) (C.rely_trans h₁ h₂)
          by_cases calls' : CallsFor (C.db t₁) outboxEventId case'
          · refine ⟨t₂, C.rely_refl _ _, fun calls'' => ?_⟩
            obtain ⟨-, -, -, -, -, found', -⟩ := calls'
            obtain ⟨-, -, -, -, -, found'', -⟩ := calls''
            rw [← named case' calls, found] at found'
            cases found'
            exact miss case found'' ⟨rfl, rfl⟩
          · exact ⟨t₁, h₂, calls'⟩

theorem wp_processEligibleEvent {R : List Row → C.State → C.State → Prop}
    (hR : C.Weakens R) {outboxEventId : String}
    {Q : Fields → List Row → C.State → Prop}
    (hQ : ∀ result us t, EligibleEffect C.db R env outboxEventId result us t → Q result us t)
    (hX : ∀ e us t, X e us t) :
    C.wp (processEligibleEvent settings llm env outboxEventId) Q X [] s := by
  have idle : ∀ result t, (∀ case, ¬ CallsFor (C.db t) outboxEventId case) → Q result [] t :=
    fun result t none => hQ _ _ _ (.idle fun case => ⟨t, hR.refl, none case⟩)
  unfold processEligibleEvent
  split
  next invalid =>
    refine idle _ s fun case ⟨id, _, parsed, _⟩ => ?_
    rw [invalid] at parsed
    cases parsed
  next id hid =>
    have named : ∀ id', Uuid.parse outboxEventId = some id' → id = id' :=
      fun id' h => Option.some.inj (hid.symm.trans h)
    rw [Setting.wp_bind]
    refine wp_selectOutbox fun t₁ h₁ => ?_
    have lookup : (C.sees [] t₁).outbox.find (·.id = id) = (C.db t₁).outbox.get id := rfl
    rw [lookup]
    split
    next none =>
      refine idle _ t₁ fun case ⟨id', outbox, parsed, found, _⟩ => ?_
      rw [← named id' parsed, none] at found
      cases found
    next outbox found =>
      refine wp_handleRecoveryCaseEligible hR (C.rely_refl _ _)
        (fun case ⟨id', outbox', parsed, found', payload, _⟩ => ?_) hQ hX
      rw [← named id' parsed, found] at found'
      cases found'
      exact payload

end RecoverAI
