import RecoverAI.Effects.Commits

/-!
# The work on cases

The commits seen through the four tables that carry the recovery work: cases, actions, outbox events
and audit events. A commit leaves them alone or does one of eleven things to one case.
-/
namespace RecoverAI

open Store

/-- What was written to the four tables between `d` and `d'`. -/
structure Db.Changes (d d' : Db) (cases : List RecoveryCase) (actions : List RecoveryAction)
    (outbox : List OutboxEvent) (audits : List AuditEvent) : Prop where
  cases : d'.cases = d.cases.putAll cases
  actions : d'.actions = d.actions.putAll actions
  outbox : d'.outbox = d.outbox.putAll outbox
  audits : d'.audits = d.audits.putAll audits

section

variable [PyLib] {T : Type} (db : T → Db) (R : List Row → T → T → Prop) (allows : Db → Stmt → Prop)
  (carried : Option Claim)

inductive Work : Db → T → Prop where
  | quiet {d t} (changes : (db t).Changes d [] [] [] []) : Work d t
  | noted {env claim action case payload d t} (carries : carried = some claim)
      (found : Found db R claim action case t) (other : action.status ≠ .executing)
      (audit : (db t).Absent
        (.audit (actionAudit env case action "recovery_action.failed" payload)))
      (changes : (db t).Changes d [] [] []
        [actionAudit env case action "recovery_action.failed" payload]) : Work d t
  | blocked {env case c ps d t} (taken : Taken db R env case c ps t)
      (existing : ∃ t₁ finalAction a, R [] t₁ t ∧ a ∈ (db t₁).actions ∧
        SameAttempt (newAction env case finalAction) a)
      (changes : (db t).Changes d [c.analysing] [] [] []) : Work d t
  | decided {env case c ps source s d t} (taken : Taken db R env case c ps t)
      (action : (db t).Absent (.action (newAction env case s.finalAction)))
      (outbox : ∀ r ∈ scheduledRows env case s, (db t).Absent r)
      (audit : (db t).Absent (.audit (decisionAudit env case source s)))
      (changes : (db t).Changes d [c.decided s env.now] [newAction env case s.finalAction]
        (outboxOf (scheduledRows env case s)) [decisionAudit env case source s]) : Work d t
  | cancelled {env actionId action a case ps stops payload d t}
      (held : Held db R env actionId action a case ps t) (stop : Moves db R .stopped case stops t)
      (audit : (db t).Absent
        (.audit (actionAudit env case action "recovery_action.cancelled" payload)))
      (changes : (db t).Changes d (casesOf stops) [{ a with status := .cancelled }] []
        [actionAudit env case action "recovery_action.cancelled" payload]) : Work d t
  | claimed {env actionId action a case ps payload d t}
      (held : Held db R env actionId action a case ps t) (open_ : case.status.isTerminal = false)
      (audit : (db t).Absent
        (.audit (actionAudit env case action "recovery_action.claimed" payload)))
      (changes : (db t).Changes d [] [{ a with status := .executing }] []
        [actionAudit env case action "recovery_action.claimed" payload]) : Work d t
  | executed {env claim action r case rows column payload d t} (carries : carried = some claim)
      (found : Found db R claim action case t) (executing : action.status = .executing)
      (moves : Moves db R .waiting case rows t) (base : (db t).actions.get claim.actionId = some r)
      (audit : (db t).Absent
        (.audit (actionAudit env case action "recovery_action.executed" payload)))
      (changes : (db t).Changes d (casesOf rows)
        [Db.patchAction action (action.succeeded env.now column) r] []
        [actionAudit env case action "recovery_action.executed" payload]) : Work d t
  | failed {env claim action r case message payload d t} (carries : carried = some claim)
      (found : Found db R claim action case t) (executing : action.status = .executing)
      (base : (db t).actions.get claim.actionId = some r)
      (audit : (db t).Absent
        (.audit (actionAudit env case action "recovery_action.failed" payload)))
      (changes : (db t).Changes d [] [Db.patchAction action (action.unsuccessful message) r] []
        [actionAudit env case action "recovery_action.failed" payload]) : Work d t
  | created {env merchant entity amountMinor currency payment prs payload ors correlationId d t}
      (pay : WritesFailed db R env merchant entity amountMinor currency payment prs t)
      (absent : (db t).Absent (.recoveryCase (newCase env merchant entity payment)))
      (audited : (db t).Absent
        (.audit (caseAudit env merchant
          (newCase env merchant entity payment) "recovery_case.eligible" correlationId payload)))
      (event : Ensures db R
        (eligibleOutbox env merchant payment (newCase env merchant entity payment)) ors t)
      (changes : (db t).Changes d [(newCase env merchant entity payment).become .eligible] []
        (outboxOf ors) [caseAudit env merchant
          (newCase env merchant entity payment) "recovery_case.eligible" correlationId payload])
      (payments : d.payments = (db t).payments.putAll (paymentsOf prs))
      (uncaptured : Uncaptured db R merchant entity t) : Work d t
  | activated {env merchant payment case r payload ors correlationId d t}
      (found : ∃ t₀, R [] t₀ t ∧ (db t₀).caseOf payment.id = some case)
      (status : case.status = .failed) (base : (db t).cases.get case.id = some r)
      (audited : (db t).Absent (.audit (caseAudit env merchant case "recovery_case.eligible"
        correlationId payload)))
      (event : Ensures db R (eligibleOutbox env merchant payment case) ors t)
      (changes : (db t).Changes d [Db.patchCase case (case.become .eligible) r] [] (outboxOf ors)
        [caseAudit env merchant case "recovery_case.eligible" correlationId payload]) : Work d t
  | recovered {env merchant entity amountMinor currency inbox payment case r prs cancels payload ors
        correlationId d t}
      (pay : WritesCaptured db R env merchant entity amountMinor currency payment prs t)
      (chosen : Chosen db R merchant entity payment case t)
      (recovers : Recovers db R allows inbox prs case r cancels t)
      (audited : (db t).Absent (.audit (caseAudit env merchant case "recovery_case.recovered"
        correlationId payload)))
      (event : Ensures db R (recoveredOutbox env merchant payment case) ors t)
      (changes : (db t).Changes d [Db.patchCase case (case.become .recovered) r]
        (cancels.map Db.cancelled) (outboxOf ors)
        [caseAudit env merchant case "recovery_case.recovered" correlationId payload]) : Work d t

end

theorem view_changes {d : Db} {us : List Row} {cs : List RecoveryCase} {as : List RecoveryAction}
    {os : List OutboxEvent} {xs : List AuditEvent} (cases : casesOf us = cs)
    (actions : actionsOf us = as) (outbox : outboxOf us = os) (audits : auditsOf us = xs) :
    d.Changes (view d us) cs as os xs := by
  subst cases actions outbox audits
  exact ⟨view_cases d us, view_actions d us, view_outbox d us, view_audits d us⟩

/-- The last row written for a case is the one that counts. -/
theorem Db.Changes.skip {d d' : Db} {c c' : RecoveryCase} {cs : List RecoveryCase}
    {as : List RecoveryAction} {os : List OutboxEvent} {xs : List AuditEvent}
    (h : d.Changes d' (c :: c' :: cs) as os xs) (id : c.id = c'.id) :
    d.Changes d' (c' :: cs) as os xs :=
  { h with cases := by rw [h.cases, Table.putAll_cons, Table.putAll_cons, Table.put_put _ id]; rfl }

variable [PyLib] {T : Type} {db : T → Db} {R : List Row → T → T → Prop} {allows : Db → Stmt → Prop}
  {carried : Option Claim} {env : Draws} {us : List Row} {t : T}

theorem quiet_of_tables (cases : casesOf us = []) (actions : actionsOf us = [])
    (outbox : outboxOf us = []) (audits : auditsOf us = []) :
    Work db R allows carried (view (db t) us) t :=
  .quiet (view_changes cases actions outbox audits)

theorem EligibleEffect.work {outboxEventId : String} {result : Fields}
    (h : EligibleEffect db R env outboxEventId result us t) :
    Work db R allows carried (view (db t) us) t := by
  cases h with
  | idle missed => exact quiet_of_tables rfl rfl rfl rfl
  | blocked taken existing =>
    refine .blocked taken existing (view_changes ?_ ?_ ?_ ?_) <;>
      simp [List.filterMap_cons, Row.case?, Row.action?, Row.outbox?, Row.audit?,
        taken.policy.tables]
  | @processed case c ps _ taken source s action outbox audit =>
    have changes : (db t).Changes (view (db t) (decisionRows env case c source.str s ps))
        [c.analysing, c.selected, c.decided s env.now] [newAction env case s.finalAction]
        (outboxOf (scheduledRows env case s)) [decisionAudit env case source.str s] := by
      apply view_changes <;>
        simp [decisionRows, List.filterMap_cons, Row.case?, Row.action?, Row.outbox?, Row.audit?,
          taken.policy.tables, scheduledRows_tables]
    exact .decided taken action outbox audit ((changes.skip rfl).skip rfl)

theorem ClaimEffect.work {actionId : Uuid} {result : ClaimResult}
    (h : ClaimEffect db R env actionId result us t) :
    Work db R allows carried (view (db t) us) t := by
  cases h with
  | refused policy missed =>
    obtain ⟨-, noCases, noActions, noOutbox, -, noAudits⟩ := policy.tables
    exact quiet_of_tables noCases noActions noOutbox noAudits
  | cancelled held stop audit =>
    refine .cancelled held stop audit (view_changes ?_ ?_ ?_ ?_) <;>
      simp [List.filterMap_cons, Row.case?, Row.action?, Row.outbox?, Row.audit?,
        held.policy.tables, stop.tables]
  | claimed held open_ from_ audit =>
    refine .claimed held open_ audit (view_changes ?_ ?_ ?_ ?_) <;>
      simp [List.filterMap_cons, Row.case?, Row.action?, Row.outbox?, Row.audit?,
        held.policy.tables]

theorem SuccessEffect.work {claim : Claim} (h : SuccessEffect db R env claim us t) :
    Work db R allows (some claim) (view (db t) us) t := by
  cases h with
  | idle missed => exact quiet_of_tables rfl rfl rfl rfl
  | @executed action r case rows column payload _ found executing moves base audit =>
    have changes : (db t).Changes (view (db t) (rows ++
          [.action (Db.patchAction action (action.succeeded env.now column) r)] ++
          [.audit (actionAudit env case action "recovery_action.executed" payload)])) (casesOf rows)
        [Db.patchAction action (action.succeeded env.now column) r] []
        [actionAudit env case action "recovery_action.executed" payload] := by
      apply view_changes <;>
        simp [List.filterMap_cons, Row.case?, Row.action?, Row.outbox?, Row.audit?, moves.tables]
    exact .executed rfl found executing moves base audit changes

theorem FailureEffect.work {claim : Claim} (h : FailureEffect db R env claim us t) :
    Work db R allows (some claim) (view (db t) us) t := by
  cases h with
  | idle missed => exact quiet_of_tables rfl rfl rfl rfl
  | failed found executing base audit =>
    exact .failed rfl found executing base audit (view_changes rfl rfl rfl rfl)
  | noted found other audit => exact .noted rfl found other audit (view_changes rfl rfl rfl rfl)

theorem FailedEffect.work {merchant : Merchant} {entity : RazorpayPaymentEntity} {amountMinor : Int}
    {currency : String} {row row' : WebhookEvent}
    (h : FailedEffect db R env merchant entity amountMinor currency us t) :
    Work db R allows carried (view (db t) (.webhookEvent row :: us ++ [.webhookEvent row'])) t := by
  cases h with
  | captured read status => exact quiet_of_tables rfl rfl rfl rfl
  | known pay found status =>
    apply quiet_of_tables <;>
      simp [List.filterMap_cons, Row.case?, Row.action?, Row.outbox?, Row.audit?, pay.tables]
  | @created payment prs payload ors correlationId _ pay absent audited event uncaptured =>
    have changes : (db t).Changes (view (db t) (.webhookEvent row :: (prs ++
          [.recoveryCase (newCase env merchant entity payment)] ++
          [.recoveryCase ((newCase env merchant entity payment).become .eligible)] ++
          [.audit (caseAudit env merchant (newCase env merchant entity payment)
            "recovery_case.eligible" correlationId payload)] ++ ors) ++ [.webhookEvent row']))
        [newCase env merchant entity payment,
          (newCase env merchant entity payment).become .eligible] []
        (outboxOf ors) [caseAudit env merchant (newCase env merchant entity payment)
          "recovery_case.eligible" correlationId payload] := by
      apply view_changes <;>
        simp [List.filterMap_cons, Row.case?, Row.action?, Row.outbox?, Row.audit?, pay.tables,
          event.tables]
    refine .created pay absent audited event (changes.skip rfl) ?_ uncaptured
    simp [List.filterMap_cons, Row.payment?, event.tables]
  | activated pay found status base audited event =>
    refine .activated found status base audited event (view_changes ?_ ?_ ?_ ?_) <;>
      simp [List.filterMap_cons, Row.case?, Row.action?, Row.outbox?, Row.audit?, pay.tables,
        event.tables]

theorem CapturedEffect.work {merchant : Merchant} {entity : RazorpayPaymentEntity}
    {amountMinor : Int} {currency : String} {inbox row row' : WebhookEvent}
    (h : CapturedEffect db R env merchant entity amountMinor currency allows inbox us t) :
    Work db R allows carried (view (db t) (.webhookEvent row :: us ++ [.webhookEvent row'])) t := by
  cases h with
  | noCase pay none | terminal pay chosen terminal =>
    apply quiet_of_tables <;>
      simp [List.filterMap_cons, Row.case?, Row.action?, Row.outbox?, Row.audit?, pay.tables]
  | recovered pay chosen recovers audited event =>
    refine .recovered pay chosen recovers audited event (view_changes ?_ ?_ ?_ ?_) <;>
      simp [List.filterMap_cons, Row.case?, Row.action?, Row.outbox?, Row.audit?, pay.tables,
        event.tables, Function.comp_def]

theorem ProcessEffect.work {merchant : Merchant} {event : RazorpayWebhook}
    {inbox row row' : WebhookEvent} (h : ProcessEffect db R env allows inbox merchant event us t) :
    Work db R allows carried (view (db t) (.webhookEvent row :: us ++ [.webhookEvent row'])) t := by
  cases h with
  | ignored unsupported => exact quiet_of_tables rfl rfl rfl rfl
  | failed type valid effect => exact effect.work
  | captured type valid effect => exact effect.work

theorem Commits.work {settings : Settings} {p q : Process}
    (h : Commits db R settings allows p us q t) : Work db R allows p.claim? (view (db t) us) t := by
  cases h with
  | webhook effect =>
    cases effect with
    | rejected reason => exact quiet_of_tables rfl rfl rfl rfl
    | recorded admitted found active absent effect => exact effect.work
  | task effect | unnamed none => exact quiet_of_tables rfl rfl rfl rfl
  | eligible effect => exact effect.work
  | claim id effect => exact effect.work
  | success effect => exact effect.work
  | failure effect => exact effect.work

end RecoverAI
