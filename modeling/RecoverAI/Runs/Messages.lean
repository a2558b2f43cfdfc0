import RecoverAI.Concurrency.StaleClaims
import RecoverAI.Runs.Lifecycle
import RecoverAI.Serial.Outcome

/-!
# Messages and what they are about

An outbox event leads to a case or to an action, and its message carries it there any number
of times. The rows that an event names move in one direction: a case leaves `ELIGIBLE` once
and an action `APPROVED` once. So the first task that gets to the end of an event has done
all there is to do for it.
-/
namespace RecoverAI

open Store

/-- What no turn takes back of the rows that events name. -/
structure Db.Advances (d d' : Db) : Prop extends d.Grows d' where
  kept : ∀ o ∈ d.outbox, ∃ o' ∈ d'.outbox, o.Same o' ∧ o'.deliverAt = o.deliverAt
  taken : ∀ c ∈ d.cases, c.status ≠ .eligible → ∀ c' ∈ d'.cases, c'.id = c.id →
    c'.status ≠ .eligible ∧ c'.nextActionAt = c.nextActionAt
  left : ∀ a ∈ d.actions, a.status ≠ .approved → ∀ a' ∈ d'.actions, a'.id = a.id →
    a'.status ≠ .approved
  policies : ∀ p ∈ d.policies, ∃ p' ∈ d'.policies, p'.merchantId = p.merchantId

section

variable {d d' d'' : Db}

theorem Db.Advances.refl (d : Db) : d.Advances d where
  toGrows := .refl d
  kept o ho := ⟨o, ho, .refl o, rfl⟩
  taken c hc other c' hc' same := by
    obtain rfl := Table.eq_of_key hc' hc same
    exact ⟨other, rfl⟩
  left a ha other a' ha' same := by
    obtain rfl := Table.eq_of_key ha' ha same
    exact other
  policies p hp := ⟨p, hp, rfl⟩

theorem Db.Advances.trans (h : d.Advances d') (h' : d'.Advances d'') : d.Advances d'' where
  toGrows := h.toGrows.trans h'.toGrows
  kept o ho := by
    obtain ⟨o', ho', same, at_⟩ := h.kept o ho
    obtain ⟨o'', ho'', same', at_'⟩ := h'.kept o' ho'
    exact ⟨o'', ho'', same.trans same', at_'.trans at_⟩
  taken c hc other c'' hc'' same := by
    obtain ⟨c', hc', same'⟩ := h.cases c hc
    obtain ⟨other', at_⟩ := h.taken c hc other c' hc' same'.id
    obtain ⟨other'', at_'⟩ := h'.taken c' hc' other' c'' hc'' (same.trans same'.id.symm)
    exact ⟨other'', at_'.trans at_⟩
  left a ha other a'' ha'' same := by
    obtain ⟨a', ha', same'⟩ := h.actions a ha
    exact h'.left a' ha' (h.left a ha other a' ha' same'.id) a'' ha'' (same.trans same'.id.symm)
  policies p hp := by
    obtain ⟨p', hp', own⟩ := h.policies p hp
    obtain ⟨p'', hp'', own'⟩ := h'.policies p' hp'
    exact ⟨p'', hp'', own'.trans own⟩

end

/-! ## Steps -/

/-- No statement replaces a policy. -/
theorem exec_policies (st : Stmt) (d : Db) :
    ∀ p ∈ d.policies, p ∈ (view d (exec st d).2).policies := by
  intro p hp
  have none : ∀ {rs : List Row}, policiesOf rs = [] → p ∈ (view d rs).policies := by
    intro rs none
    rw [view_policies, none]
    exact hp
  have flushes : ∀ {α : Type} (found : Option α) (patch : α → Row),
      (∀ a, (patch a).policy? = .none) →
      policiesOf (Db.flush found patch).2 = [] := by
    intro α found patch other
    unfold Db.flush Db.write
    split
    · rfl
    · split <;> simp [other]
  have updates : ∀ {α : Type} (found : Option α) (guard : α → Bool) (set : α → Row),
      (∀ a, (set a).policy? = .none) →
      policiesOf (Db.updateWhere found guard set).2 = [] := by
    intro α found guard set other
    unfold Db.updateWhere Db.write
    split
    · rfl
    · split <;> simp [other]
  cases st with
  | insert r =>
    cases error : d.insertError r with
    | some e => exact none (by simp [exec, Db.exec, Db.write, error])
    | none =>
      have insertable := insertError_eq_none.1 error
      simp only [exec, Db.exec, Db.write, error, view_policies]
      cases r with
      | policy new =>
        refine Table.mem_put.2 (.inr ⟨hp, fun same => ?_⟩)
        exact Table.get_eq_none.1 (insertable.lacks (.policy new.id) (by simp [Row.keys])) p hp same
      | _ => exact hp
  | updateCase | updateAction => exact none (updates _ _ _ fun _ => rfl)
  | flushCase | flushAction | flushWebhookEvent => exact none (flushes _ _ fun _ => rfl)
  | flushPayment old new =>
    simp only [exec, Db.exec]
    split
    · exact hp
    · exact none (flushes _ _ fun _ => rfl)
  | cancelActions =>
    exact none (by simp [exec, Db.exec, List.filterMap_map, Function.comp_def, Row.policy?])
  | _ => exact hp

theorem run_policies {α : Type} {t : Tx α} {d d' : Db} {a : α} (run : t.run d = .ok (a, d')) :
    ∀ p ∈ d.policies, p ∈ d'.policies := by
  induction t generalizing d with
  | pure =>
    cases run
    exact fun p hp => hp
  | throw => cases run
  | sql st next ih => exact fun p hp => ih _ run p (exec_policies st d p hp)

section

variable {settings : Settings} {allows : Db → Stmt → Prop} {carried : Option Claim} {d d' : Db}
  {us : List Row}

theorem Adds.absent {event : OutboxEvent} {os : List OutboxEvent} (h : Adds d event os) :
    ∀ o ∈ os, d.outbox.get o.id = none := by
  rcases h with rfl | ⟨rfl, absent⟩
  · exact fun o ho => absurd ho List.not_mem_nil
  · exact fun o ho => List.mem_singleton.1 ho ▸ absent.outbox

variable [PyLib]

/-- A commit only adds events. -/
theorem Work.announces (h : Work id World.Alone allows carried d' d) :
    ∃ cs as os xs, d.Changes d' cs as os xs ∧
    ∀ o ∈ os, d.outbox.get o.id = none := by
  cases h with
  | quiet changes | noted _ _ _ _ changes | blocked _ _ changes | cancelled _ _ _ changes
  | claimed _ _ _ changes
  | executed _ _ _ _ _ _ changes | failed _ _ _ _ _ changes => exact ⟨_, _, _, _, changes, by simp⟩
  | decided _ _ outbox _ changes => exact ⟨_, _, _, _, changes, (adds_scheduled outbox).1.absent⟩
  | created _ _ _ event changes | activated _ _ _ _ event changes
  | recovered _ _ _ _ event changes =>
    exact ⟨_, _, _, _, changes, (adds_ensured event).absent⟩

/-- A case that has left `ELIGIBLE` stays away, and keeps the time of its action. -/
theorem Work.taken (h : Work id World.Alone allows carried d' d) (sound : d.Sound) : ∀ c ∈ d.cases,
    c.status ≠ .eligible → ∀ c' ∈ d'.cases, c'.id = c.id →
      c'.status ≠ .eligible ∧ c'.nextActionAt = c.nextActionAt := by
  have written : ∀ {cs as os xs}, d.Changes d' cs as os xs →
      (∀ r ∈ cs, ∀ c, d.cases.get r.id = some c →
      c.status = .eligible ∨ r.status ≠ .eligible ∧ r.nextActionAt = c.nextActionAt) →
        ∀ c ∈ d.cases,
      c.status ≠ .eligible → ∀ c' ∈ d'.cases, c'.id = c.id →
        c'.status ≠ .eligible ∧ c'.nextActionAt = c.nextActionAt := by
    intro cs as os xs changes moves c hc left c' hc' same
    rcases Table.mem_or_of_mem_putAll (changes.cases ▸ hc') with new | old
    · exact (moves c' new c (same ▸ Table.get_of_mem hc)).resolve_left left
    · obtain rfl := Table.eq_of_key old hc same
      exact ⟨left, rfl⟩
  have single : ∀ {r b : RecoveryCase}, d.cases.get r.id = some b →
      (b.status = .eligible ∨ r.status ≠ .eligible ∧
      r.nextActionAt = b.nextActionAt) → ∀ r' ∈ [r], ∀ c, d.cases.get r'.id = some c →
        c.status = .eligible ∨ r'.status ≠ .eligible ∧ r'.nextActionAt = c.nextActionAt := by
    intro r b base moved r' hr' c hc
    obtain rfl := List.mem_singleton.1 hr'
    obtain rfl := Option.some.inj (base.symm.trans hc)
    exact moved
  have moves : ∀ {new : RecoveryCaseStatus} {case : RecoveryCase} {rows : List Row},
      new ≠ .eligible →
      Moves id World.Alone new case rows d → ∀ r ∈ casesOf rows, ∀ c, d.cases.get r.id = some c →
        c.status = .eligible ∨ r.status ≠ .eligible ∧ r.nextActionAt = c.nextActionAt := by
    intro new case rows other h
    cases h with
    | skipped => simp
    | moved base =>
      have base := Table.get_of_mem (Table.get_eq_some.1 base).1
      exact single base (.inr ⟨other, rfl⟩)
  cases h with
  | quiet changes | noted _ _ _ _ changes | claimed _ _ _ changes | failed _ _ _ _ _ changes =>
    exact written changes (by simp)
  | blocked taken _ changes | decided taken _ _ _ changes =>
    have base := Table.get_of_mem (Table.get_eq_some.1 taken.base).1
    exact written changes (single base (.inl taken.status))
  | cancelled _ stop _ changes => exact written changes (moves (by decide) stop)
  | executed _ _ _ waiting _ _ changes => exact written changes (moves (by decide) waiting)
  | created _ absent _ _ changes =>
    refine written changes fun r hr c hc => ?_
    obtain rfl := List.mem_singleton.1 hr
    cases absent.case.symm.trans hc
  | activated found status =>
    obtain ⟨_, rfl, found⟩ := found
    exact absurd status (sound.notFailed _ (Table.mem_of_find found).1)
  | recovered _ chosen recovers _ _ changes =>
    obtain ⟨rfl, -, found⟩ := recovers.alone chosen
    rw [patchCase_become] at changes
    exact written changes (single found (.inr ⟨(fun eligible => by cases eligible), rfl⟩))

theorem Commits.advances {p q : Process} (h : Commits id World.Alone settings allows p us q d)
    (sound : d.Sound) (policies : ∀ p ∈ d.policies, p ∈ (view d us).policies) :
    d.Advances (view d us) where
  toGrows := h.grows
  kept o ho := by
    obtain ⟨_, _, _, _, changes, absent⟩ := h.work.announces
    refine ⟨o, changes.outbox ▸ Table.mem_putAll_of_free ho fun r hr => ?_, .refl o, rfl⟩
    exact fun same => Table.get_eq_none.1 (absent r hr) o ho same.symm
  taken := h.work.taken sound
  left a ha left a' ha' same := by
    obtain ⟨_, _, _, _, changes, fresh⟩ := h.work.unapproves
    rcases Table.mem_or_of_mem_putAll (changes.actions ▸ ha') with new | old
    · exact fun approved => Table.get_eq_none.1 (fresh a' new approved) a ha same.symm
    · exact Table.eq_of_key old ha same ▸ left
  policies p hp := ⟨p, policies p hp, rfl⟩

/-- How the commit of a process moves an action. -/
inductive Acts (p q : Process) (a a' : RecoveryAction) : Prop
  | kept (same : a' = a)
  | cancelled (before : a.status ≠ .executing) (after : a'.status = .cancelled)
  | claimed {job : Job} {payload : Fields} (at_ : p = .claim job payload)
      (named : (Json.item payload "recovery_action_id").uuid = some a.id)
      (before : a.status = .approved) (after : a'.status = .executing)
      (carried : ∃ claim, q.claim? = some claim ∧ claim.actionId = a.id)
  | finalized {claim : Claim} (carries : p.claim? = some claim) (named : claim.actionId = a.id)
      (before : a.status = .executing) (after : a'.status = .executed ∨ a'.status = .failed)

/-- Only the eligible task adds an action. -/
theorem Commits.acts {p q : Process} (h : Commits id World.Alone settings allows p us q d) :
    ∀ a' ∈ (view d us).actions, (∃ a ∈ d.actions, a.Same a' ∧ Acts p q a a') ∨
      (∃ job, p = .eligible job) ∧ a'.status = .approved ∧ d.actions.get a'.id = none := by
  have quiet : actionsOf us = [] →
      ∀ a' ∈ (view d us).actions, (∃ a ∈ d.actions, a.Same a' ∧ Acts p q a a') ∨
      (∃ job, p = .eligible job) ∧ a'.status = .approved ∧ d.actions.get a'.id = none := by
    intro rows a' ha'
    rw [view_actions, rows] at ha'
    exact .inl ⟨a', ha', .refl a', .kept rfl⟩
  have written : ∀ as : List RecoveryAction, actionsOf us = as →
      (∀ a' ∈ as, ∃ a ∈ d.actions, a.Same a' ∧ Acts p q a a') →
      ∀ a' ∈ (view d us).actions, (∃ a ∈ d.actions, a.Same a' ∧ Acts p q a a') ∨
        (∃ job, p = .eligible job) ∧ a'.status = .approved ∧ d.actions.get a'.id = none := by
    intro as rows moves a' ha'
    rw [view_actions, rows] at ha'
    rcases Table.mem_or_of_mem_putAll ha' with new | old
    · exact .inl (moves a' new)
    · exact .inl ⟨a', old, .refl a', .kept rfl⟩
  have single : ∀ (a' : RecoveryAction) {a : RecoveryAction} {key : Uuid}, actionsOf us = [a'] →
      d.actions.get key = some a → a.Same a' → Acts p q a a' → ∀ a' ∈ (view d us).actions,
        (∃ a ∈ d.actions, a.Same a' ∧ Acts p q a a') ∨
          (∃ job, p = .eligible job) ∧ a'.status = .approved ∧ d.actions.get a'.id = none := by
    intro a' a key rows base same acts
    refine written [a'] rows fun b hb => ?_
    obtain rfl := List.mem_singleton.1 hb
    exact ⟨a, (Table.get_eq_some.1 base).1, same, acts⟩
  cases h with
  | task | unnamed => exact quiet rfl
  | eligible effect =>
    cases effect with
    | idle => exact quiet rfl
    | blocked taken => exact quiet (by simp [List.filterMap_cons, Row.action?, taken.policy.tables])
    | processed taken source s action =>
      intro a' ha'
      simp only [decisionRows, view_actions, List.filterMap_append, List.filterMap_cons,
        List.filterMap_nil, Row.action?, taken.policy.tables, scheduledRows_tables, List.append_nil,
        List.nil_append] at ha'
      rcases Table.mem_or_of_mem_putAll ha' with new | old
      · obtain rfl := List.mem_singleton.1 new
        exact .inr ⟨⟨_, rfl⟩, rfl, action.action⟩
      · exact .inl ⟨a', old, .refl a', .kept rfl⟩
  | webhook effect =>
    cases effect with
    | rejected => exact quiet rfl
    | recorded _ _ _ _ effect =>
      cases effect with
      | ignored => exact quiet rfl
      | failed _ _ effect =>
        refine quiet ?_
        cases effect with
        | captured => rfl
        | known pay => simp [List.filterMap_cons, Row.action?, pay.tables]
        | created pay _ _ event | activated pay _ _ _ _ event =>
          simp [List.filterMap_cons, Row.action?, pay.tables, event.tables]
      | captured _ _ effect =>
        cases effect with
        | noCase pay | terminal pay =>
          exact quiet (by simp [List.filterMap_cons, Row.action?, pay.tables])
        | @recovered _ _ _ _ cancels _ _ _ _ pay chosen recovers _ event =>
          refine written (cancels.map Db.cancelled) ?_ fun a' ha' => ?_
          · simp [List.filterMap_cons, Row.action?, pay.tables, event.tables, Function.comp_def]
          · obtain ⟨a, ha, rfl⟩ := List.mem_map.1 ha'
            refine ⟨a, (Table.get_eq_some.1 (recovers.actions a ha)).1,
              ⟨rfl, rfl, rfl, rfl, rfl, rfl⟩, .cancelled (fun executing => ?_) rfl⟩
            rw [(recovers.alone chosen).2.1] at ha
            have open_ := (Table.mem_filter.1 ha).2
            simp [Db.cancellable, executing] at open_
  | @claim job payload actionId _ _ _ _ named effect =>
    cases effect with
    | refused policy => exact quiet policy.tables.2.2.1
    | @cancelled _ _ a _ _ _ _ _ held stop =>
      refine single { a with status := .cancelled } ?_ held.base ⟨rfl, rfl, rfl, rfl, rfl, rfl⟩
        (.cancelled (fun executing => ?_) rfl)
      · simp [List.filterMap_cons, Row.action?, held.policy.tables, stop.tables]
      · cases held.approved.symm.trans executing
    | @claimed claim _ a _ _ _ _ held _ from_ =>
      have id : a.id = actionId := (Table.get_eq_some.1 held.base).2
      refine single { a with status := .executing } ?_ held.base ⟨rfl, rfl, rfl, rfl, rfl, rfl⟩
        (.claimed rfl (id ▸ named) held.approved rfl ⟨claim, rfl, held.alone.1 ▸ from_.actionId⟩)
      simp [List.filterMap_cons, Row.action?, held.policy.tables]
  | @success _ claim _ _ env _ _ effect =>
    cases effect with
    | idle => exact quiet rfl
    | @executed action r _ _ column _ _ found executing moves base =>
      obtain ⟨_, _, rfl, rfl, read, -⟩ := found
      obtain rfl := Option.some.inj (read.symm.trans base)
      refine single (Db.patchAction action (action.succeeded env.now column) action) ?_ base
        ⟨rfl, rfl, rfl, rfl, rfl, rfl⟩
          (.finalized rfl (Table.get_eq_some.1 base).2.symm executing (.inl ?_))
      · simp [List.filterMap_cons, Row.action?, moves.tables]
      · rw [patchAction_succeeded]
        rfl
  | @failure _ claim _ env _ _ effect =>
    cases effect with
    | idle | noted => exact quiet rfl
    | @failed action r _ message _ _ found executing base =>
      obtain ⟨_, _, rfl, rfl, read, -⟩ := found
      obtain rfl := Option.some.inj (read.symm.trans base)
      refine single (Db.patchAction action (action.unsuccessful message) action) rfl base
        ⟨rfl, rfl, rfl, rfl, rfl, rfl⟩
          (.finalized rfl (Table.get_eq_some.1 base).2.symm executing (.inr ?_))
      rw [patchAction_unsuccessful]
      rfl

end

/-! ## What an event names -/

/-- The hours that a decision puts its action off. -/
def RecoveryActionType.delay (type engine : RecoveryActionType) : Rat :=
  if type = .wait then if engine = .wait then 24 else 1 else 0

section

variable [PyText]

def OutboxEvent.caseId? (o : OutboxEvent) : Option Uuid :=
  (Json.item o.payload "recovery_case_id").uuid

def OutboxEvent.actionId? (o : OutboxEvent) : Option Uuid :=
  (Json.item o.payload "recovery_action_id").uuid

/-- An event leads to its case, or to the action that it schedules. -/
structure Addressed (d : Db) (o : OutboxEvent) : Prop where
  eligible : o.eventType = eligibleEvent → o.deliverAt = none ∧
    ∃ c ∈ d.cases, o.caseId? = some c.id ∧ o.aggregateId = c.id.str
  scheduled : o.eventType = scheduledEvent → ∃ a ∈ d.actions, o.actionId? = some a.id ∧
    a.actionType.executable ∧
    ∃ c ∈ d.cases, c.id = a.recoveryCaseId ∧ o.aggregateId = c.id.str ∧ c.nextActionAt = o.deliverAt

/-- Nothing is left to do about the event. -/
structure Spent (d : Db) (o : OutboxEvent) : Prop where
  eligible : o.eventType = eligibleEvent → ∃ c ∈ d.cases, o.caseId? = some c.id ∧
    c.status ≠ .eligible
  scheduled : o.eventType = scheduledEvent → ∃ a ∈ d.actions, o.actionId? = some a.id ∧
    a.status ≠ .approved

/-- The decision that created an action: its merchant has a policy, and its case the time of the
action, counted from when the worker decided. -/
structure Decreed (d : Db) (a : RecoveryAction) : Prop where
  policy : ∃ p ∈ d.policies, p.merchantId = a.merchantId
  timed : a.actionType.executable → ∃ c ∈ d.cases, c.id = a.recoveryCaseId ∧ ∃ x ∈ d.audits,
    x.eventType = decisionEvent ∧ x.entityId = c.id.str ∧ ∃ engine : RecoveryActionType,
      Json.item x.payload "engine_action" = .str engine.value ∧
        ∃ decided, x.createdAt ≤ decided ∧
          c.nextActionAt = some (decided + a.actionType.delay engine)

structure Db.Led (d : Db) : Prop where
  addressed : ∀ o ∈ d.outbox, Addressed d o
  decreed : ∀ a ∈ d.actions, Decreed d a

variable {d d' : Db} {o o' : OutboxEvent}

theorem Addressed.advances (h : Addressed d o) (sound : d.Sound) (advances : d.Advances d')
    (same : o.Same o') (at_ : o'.deliverAt = o.deliverAt) : Addressed d' o' where
  eligible type := by
    obtain ⟨none, c, hc, named, own⟩ := h.eligible (same.eventType ▸ type)
    obtain ⟨c', hc', sameCase⟩ := advances.cases c hc
    refine ⟨at_.trans none, c', hc', ?_, ?_⟩
    · rw [OutboxEvent.caseId?, same.payload, sameCase.id]
      exact named
    · rw [same.aggregateId, sameCase.id, own]
  scheduled type := by
    obtain ⟨a, ha, named, executable, c, hc, own, aggregate, due⟩ :=
      h.scheduled (same.eventType ▸ type)
    obtain ⟨a', ha', sameAction⟩ := advances.actions a ha
    obtain ⟨c', hc', sameCase⟩ := advances.cases c hc
    refine ⟨a', ha', ?_, sameAction.actionType ▸ executable, c', hc', ?_, ?_, ?_⟩
    · rw [OutboxEvent.actionId?, same.payload, sameAction.id]
      exact named
    · rw [sameCase.id, own, sameAction.recoveryCaseId]
    · rw [same.aggregateId, sameCase.id, aggregate]
    · rw [(advances.taken c hc (sound.acted a ha c hc own) c' hc' sameCase.id).2, at_, due]

theorem Spent.advances (h : Spent d o) (advances : d.Advances d') (same : o.Same o') :
    Spent d' o' where
  eligible type := by
    obtain ⟨c, hc, named, left⟩ := h.eligible (same.eventType ▸ type)
    obtain ⟨c', hc', sameCase⟩ := advances.cases c hc
    refine ⟨c', hc', ?_, (advances.taken c hc left c' hc' sameCase.id).1⟩
    rw [OutboxEvent.caseId?, same.payload, sameCase.id]
    exact named
  scheduled type := by
    obtain ⟨a, ha, named, left⟩ := h.scheduled (same.eventType ▸ type)
    obtain ⟨a', ha', sameAction⟩ := advances.actions a ha
    refine ⟨a', ha', ?_, advances.left a ha left a' ha' sameAction.id⟩
    rw [OutboxEvent.actionId?, same.payload, sameAction.id]
    exact named

omit [PyText] in
theorem Decreed.advances {a a' : RecoveryAction} (h : Decreed d a) (sound : d.Sound)
    (ha : a ∈ d.actions) (advances : d.Advances d') (same : a.Same a') : Decreed d' a' where
  policy := by
    obtain ⟨p, hp, own⟩ := h.policy
    obtain ⟨p', hp', own'⟩ := advances.policies p hp
    exact ⟨p', hp', own'.trans (own.trans same.merchantId.symm)⟩
  timed executable := by
    obtain ⟨c, hc, own, x, hx, type, entity, engine, asked, decided, since, due⟩ :=
      h.timed (same.actionType ▸ executable)
    obtain ⟨c', hc', sameCase⟩ := advances.cases c hc
    refine ⟨c', hc', ?_, x, advances.audits x hx, type, ?_, engine, asked, decided, since, ?_⟩
    · rw [sameCase.id, own, same.recoveryCaseId]
    · rw [entity, sameCase.id]
    · rw [(advances.taken c hc (sound.acted a ha c hc own) c' hc' sameCase.id).2, due,
        same.actionType]

/-- New rows have to be led; the old ones stay so. -/
theorem Db.Led.step (h : d.Led) (sound : d.Sound) (advances : d.Advances d')
    (events : ∀ o' ∈ d'.outbox,
      (∃ o ∈ d.outbox, o.Same o' ∧ o'.deliverAt = o.deliverAt) ∨ Addressed d' o')
    (actions : ∀ a' ∈ d'.actions, (∃ a ∈ d.actions, a.Same a') ∨ Decreed d' a') : d'.Led where
  addressed o' ho' := by
    rcases events o' ho' with ⟨o, ho, same, at_⟩ | new
    · exact (h.addressed o ho).advances sound advances same at_
    · exact new
  decreed a' ha' := by
    rcases actions a' ha' with ⟨a, ha, same⟩ | new
    · exact (h.decreed a ha).advances sound ha advances same
    · exact new

end

/-! ## What a decision announces -/

theorem decisionRows_changes (d : Db) (env : Draws) (case : RecoveryCase) (source : String)
    (s : Selection) :
    d.Changes (view d
      (decisionRows env case case source s (newPolicies d env.policyId case.merchantId)))
      [case.analysing, case.selected, case.decided s env.now] [newAction env case s.finalAction]
      (outboxOf (scheduledRows env case s)) [decisionAudit env case source s] := by
  obtain ⟨noCases, noActions, noOutbox, noAudits⟩ :=
    newPolicies_tables d env.policyId case.merchantId
  apply view_changes <;>
    simp [decisionRows, List.filterMap_cons, Row.case?, Row.action?, Row.outbox?, Row.audit?,
      noCases, noActions, noOutbox, noAudits, scheduledRows_tables]

section

variable {settings : Settings} {llm : Llm} {d d' : Db} {env : Draws} {case : RecoveryCase}

theorem Selection.delayHours_of_some {s : Selection} {hours : Rat}
    (delay : s.active.delayHours = some hours) : s.delayHours = hours := by
  simp [Selection.delayHours, delay]

theorem Selection.delayHours_of_none {s : Selection} (delay : s.active.delayHours = none)
    (other : s.engine.action ≠ .wait) : s.delayHours = 1 := by
  simp [Selection.delayHours, delay, other]

variable [PyLib]

/-- A `WAIT` lasts as long as the engine asked for, and an hour where the
engine did not ask for it. -/
theorem selection_delay {status : RecoveryCaseStatus}
    (waits : (selection settings llm d case status).finalAction = .wait) :
    (selection settings llm d case status).delayHours =
      if (selection settings llm d case status).engine.action = .wait then 24 else 1 := by
  have asked := evaluateRecovery_delay case.amountMinor case.failureCategory
  unfold selection at waits ⊢
  generalize evaluateRecovery case.amountMinor case.failureCategory = engine at asked waits ⊢
  -- Where the policy's first answer counts, it kept the engine's action or found another link.
  have first : ∀ {limits input}, input.candidateAction = engine.action →
      (evaluatePolicy limits input engine.delayHours).finalAction = .wait →
      (evaluatePolicy limits input engine.delayHours).delayHours =
        some (if engine.action = .wait then 24 else 1) := by
    intro limits input candidate final
    rcases evaluatePolicy_wait final with ⟨wait, delay⟩ | ⟨link, delay⟩
    · rw [delay, asked, if_pos (candidate ▸ wait), if_pos (candidate ▸ wait)]
    · rw [delay, if_neg]
      rw [← candidate, link]
      exact nofun
  dsimp only at waits ⊢
  split at waits
  next agrees =>
    rw [if_pos agrees]
    exact Selection.delayHours_of_some (first rfl (agrees.1 ▸ waits))
  next differs =>
    rw [if_neg differs]
    generalize runRecoveryAgent settings llm _ = agent at waits
    generalize hfinal : evaluatePolicy (limitsOf d case.merchantId)
      (policyInput d case agent.selectedAction status none) (candidateDelay engine agent) =
        final at waits ⊢
    simp only [reviewed] at waits ⊢
    split at waits
    next accepted =>
      have approved : final.approved := (Bool.and_eq_true_iff.1 accepted).1
      have delay : final.delayHours = engine.delayHours := by
        rw [← hfinal] at approved ⊢
        rw [evaluatePolicy_delayHours approved]
        simp [policyInput, candidateDelay, waits]
      by_cases wait : engine.action = .wait
      · rw [if_pos wait] at asked
        exact (Selection.delayHours_of_some (by simp [accepted, delay, asked])).trans
          (if_pos wait).symm
      · rw [if_neg wait] at asked
        exact (Selection.delayHours_of_none (by simp [accepted, delay, asked]) wait).trans
          (if_neg wait).symm
    next rejected =>
      refine Selection.delayHours_of_some ?_
      simp only [if_neg rejected]
      exact first rfl waits

theorem Work.addressed {allows : Db → Stmt → Prop} {carried : Option Claim}
    (h : Work id World.Alone allows carried d' d) (sound : d.Sound) :
    ∀ o' ∈ d'.outbox, o' ∈ d.outbox ∨ Addressed d' o' := by
  have written : ∀ {cs as os xs}, d.Changes d' cs as os xs → (∀ o ∈ os, Addressed d' o) →
      ∀ o' ∈ d'.outbox, o' ∈ d.outbox ∨ Addressed d' o' := fun changes new o' ho' =>
    (Table.mem_or_of_mem_putAll (changes.outbox ▸ ho')).symm.imp_right (new o')
  cases h with
  | quiet changes | noted _ _ _ _ changes | blocked _ _ changes | cancelled _ _ _ changes
  | claimed _ _ _ changes
  | executed _ _ _ _ _ _ changes | failed _ _ _ _ _ changes => exact written changes (by simp)
  | @decided env case c ps source s _ _ taken _ outbox _ changes =>
    obtain ⟨adds, executable⟩ := adds_scheduled outbox
    refine written changes fun o ho => ?_
    have acts := executable.1 ⟨o, ho⟩
    obtain rfl := adds.eq o ho
    refine ⟨fun type => absurd type (by simp [actionScheduledOutbox, eligibleEvent]), fun _ => ?_⟩
    refine ⟨_, changes.action_mem,
      by simp [OutboxEvent.actionId?, actionScheduledOutbox, Json.item,
      List.lookup_cons], acts, _, changes.case_mem, (Table.get_eq_some.1 taken.base).2,
      ?_, if_pos acts⟩
    exact congrArg Uuid.str (Table.get_eq_some.1 taken.base).2.symm
  | @created env merchant entity _ _ payment _ _ _ _ _ _ _ _ _ event changes =>
    refine written changes fun o ho => ?_
    obtain rfl := (adds_ensured event).eq o ho
    refine ⟨fun _ => ⟨rfl, _, changes.case_mem, ?_, rfl⟩, fun type => absurd type (by
      simp [eligibleOutbox, caseOutbox, scheduledEvent])⟩
    simp [OutboxEvent.caseId?, eligibleOutbox, caseOutbox, Json.item, List.lookup_cons,
      RecoveryCase.become]
  | activated found status =>
    obtain ⟨_, rfl, found⟩ := found
    exact absurd status (sound.notFailed _ (Table.mem_of_find found).1)
  | recovered _ _ _ _ event changes =>
    refine written changes fun o ho => ?_
    obtain rfl := (adds_ensured event).eq o ho
    exact ⟨fun type => absurd type (by simp [recoveredOutbox, caseOutbox, eligibleEvent]),
      fun type => absurd type (by simp [recoveredOutbox, caseOutbox, scheduledEvent])⟩

/-- The action of a decision comes with a policy and a time. -/
theorem Records.decreed {source : String} {result : Fields} (began : env.began ≤ env.now)
    (records : Records d env case source (selection settings llm d case .analysing) result d')
    (known : ∃ p ∈ d'.policies, p.merchantId = case.merchantId) :
    ∀ a' ∈ d'.actions, a' ∈ d.actions ∨ Decreed d' a' := by
  intro a' ha'
  cases records with
  | blocked =>
    obtain ⟨-, noActions, -, -⟩ := newPolicies_tables d env.policyId case.merchantId
    have none : actionsOf (openedRows d env case) = [] := by
      simp [openedRows, List.filterMap_cons, Row.action?, noActions]
    rw [view_actions, none] at ha'
    exact .inl ha'
  | decided =>
    have changes := decisionRows_changes d env case source
      (selection settings llm d case .analysing)
    generalize view d (decisionRows env case case source _ _) = d₁ at changes known ha' ⊢
    rcases Table.mem_or_of_mem_putAll (changes.actions ▸ ha') with new | old
    · obtain rfl := List.mem_singleton.1 new
      refine .inr ⟨known, fun executable => ?_⟩
      have here : case.decided (selection settings llm d case .analysing) env.now ∈ d₁.cases := by
        rw [changes.cases]
        exact Table.mem_put.2 (.inl rfl)
      have told : decisionAudit env case source (selection settings llm d case .analysing) ∈
          d₁.audits := by
        rw [changes.audits]
        exact Table.mem_put.2 (.inl rfl)
      refine ⟨_, here, rfl, _, told, rfl, rfl,
        (selection settings llm d case .analysing).engine.action,
        by simp [decisionAudit, Json.item, List.lookup_cons], ?_⟩
      have time : (selection settings llm d case .analysing).nextActionAt env.now =
          env.now + (selection settings llm d case .analysing).finalAction.delay
            (selection settings llm d case .analysing).engine.action := by
        unfold Selection.nextActionAt RecoveryActionType.delay
        split
        next waits => rw [selection_delay waits]
        next => simp
      exact ⟨env.now, began, (if_pos executable).trans (congrArg some time)⟩
    · exact .inl old

end

/-! ## Runs -/

namespace World

variable [PyLib] {settings : Settings} {u v w : World} {turn : Turn}

theorem advances_of_run {p q : Process} {body : Env → Tx Process} {abort : Err → Process}
    {env : Env} {d d' : Db} (code : p.act settings = .txn body abort)
    (run : (body env).run d = .ok (q, d')) (sound : d.Sound) : d.Advances d' := by
  have policies := run_policies run
  obtain ⟨us, rfl, commits⟩ := commits_of_run code run
  exact commits.advances sound policies

theorem acts_of_run {p q : Process} {body : Env → Tx Process} {abort : Err → Process} {env : Env}
    {d d' : Db} (code : p.act settings = .txn body abort) (run : (body env).run d = .ok (q, d')) :
    ∀ a' ∈ d'.actions,
    (∃ a ∈ d.actions, a.Same a' ∧ Acts p q a a') ∨
      (∃ job, p = .eligible job) ∧ a'.status = .approved ∧ d.actions.get a'.id = none := by
  obtain ⟨us, rfl, commits⟩ := commits_of_run code run
  exact commits.acts

theorem led_of_run {p q : Process} {body : Env → Tx Process} {abort : Err → Process} {env : Env}
    {d d' : Db} (code : p.act settings = .txn body abort) (began : env.draws.began ≤ env.draws.now)
    (run : (body env).run d = .ok (q, d')) (sound : d.Sound) (led : d.Led) : d'.Led := by
  have advances := advances_of_run code run sound
  refine led.step sound advances (fun o' ho' => ?_) ?_
  · rcases (work_of_run code run).addressed sound o' ho' with old | new
    · exact .inl ⟨o', old, .refl o', rfl⟩
    · exact .inr new
  · intro a' ha'
    rcases acts_of_run code run a' ha' with ⟨a, ha, same, -⟩ | ⟨⟨job, rfl⟩, -⟩
    · exact .inl ⟨a, ha, same⟩
    · cases code
      obtain ⟨result, d₁, decided, done⟩ := run_bind_eq_ok.1 run
      cases done
      cases processEligibleEvent_ok decided with
      | idle => exact .inl ⟨a', ha', .refl a'⟩
      | acted source calls known records =>
        exact (records.decreed began known a' ha').imp_left fun old => ⟨a', old, .refl a'⟩

end World

/-! ## What a process knows of its event -/

/-- The message that a process works on. -/
def Process.job? : Process → Option Job
  | .webhook _ | .answered _ => none
  | .task job | .eligible job | .claim job _ | .external job _ | .success job _ _ _
  | .failure job _ _
  | .returned job _ | .raised job _ => some job

section

variable [PyText] {d d' : Db} {o o' : OutboxEvent} {p : Process}

def Process.Knows (d : Db) (o : OutboxEvent) : Process → Prop
  | .eligible _ => o.eventType = eligibleEvent
  | .claim _ payload => o.eventType = scheduledEvent ∧ payload = o.payload
  | .external _ c | .success _ c _ _ | .failure _ c _ =>
    o.eventType = scheduledEvent ∧ o.actionId? = some c.actionId ∧ Spent d o
  | .returned .. => Spent d o
  | .webhook _ | .answered _ | .task _ | .raised .. => True

theorem Process.Knows.advances (h : p.Knows d o) (advances : d.Advances d') (same : o.Same o') :
    p.Knows d' o' := by
  have carried : ∀ {claim : Claim},
      (o.eventType = scheduledEvent ∧ o.actionId? = some claim.actionId ∧ Spent d o) →
      o'.eventType = scheduledEvent ∧ o'.actionId? = some claim.actionId ∧ Spent d' o' := by
    rintro claim ⟨type, named, spent⟩
    refine ⟨same.eventType.trans type, ?_, spent.advances advances same⟩
    rw [OutboxEvent.actionId?, same.payload]
    exact named
  cases p with
  | eligible => exact same.eventType.trans h
  | claim => exact ⟨same.eventType.trans h.1, h.2.trans same.payload.symm⟩
  | external | success | failure => exact carried h
  | returned => exact Spent.advances h advances same
  | _ => trivial

end

theorem Records.leaves {d d' : Db} {env : Draws} {case : RecoveryCase} {source : String}
    {s : Selection} {result : Fields} (records : Records d env case source s result d') :
    ∃ c ∈ d'.cases, c.id = case.id ∧ c.status ≠ .eligible := by
  cases records with
  | blocked =>
    obtain ⟨noCases, -, -, -⟩ := newPolicies_tables d env.policyId case.merchantId
    have rows : casesOf (openedRows d env case) = [case.analysing] := by
      simp [openedRows, Row.case?, noCases]
    refine ⟨case.analysing, ?_, rfl, fun eligible => by cases eligible⟩
    rw [view_cases, rows]
    exact Table.mem_put.2 (.inl rfl)
  | decided =>
    refine ⟨case.decided s env.now, ?_, rfl, (finalStatus_ne s).1⟩
    rw [(decisionRows_changes d env case source s).cases]
    exact Table.mem_put.2 (.inl rfl)

theorem taskError_eq (job : Job) (e : Err) : ∃ retried, taskError job e = .raised job retried := by
  cases e with
  | db e => cases e <;> exact ⟨_, rfl⟩
  | _ => exact ⟨_, rfl⟩

section

variable [PyLib] {settings : Settings} {d d' : Db} {env : Draws} {p q : Process} {o : OutboxEvent}
  {job : Job}

/-- A task that raises keeps its message. -/
theorem job_abort {body : Env → Tx Process} {abort : Err → Process}
    (code : p.act settings = .txn body abort) (e : Err) :
    (abort e).job? = p.job? ∧ ∀ d o, (abort e).Knows d o := by
  cases p <;> cases code
  case webhook => exact ⟨rfl, fun _ _ => trivial⟩
  all_goals
    obtain ⟨retried, raised⟩ := taskError_eq _ e
    rw [raised]
    exact ⟨rfl, fun _ _ => trivial⟩

omit [PyLib] in
/-- After a claim its action is not `APPROVED`. -/
theorem ClaimEffect.leaves {actionId : Uuid} {result : ClaimResult} {us : List Row}
    {a : RecoveryAction} {c : RecoveryCase}
    (effect : ClaimEffect id World.Alone env actionId result us d)
    (ha : d.actions.get actionId = some a) (hc : d.cases.get a.recoveryCaseId = some c) :
    (∃ a' ∈ (view d us).actions, a'.id = actionId ∧ a'.status ≠ .approved) ∧
      ∀ claim, result = .claimed claim → claim.actionId = actionId := by
  cases effect with
  | refused policy missed =>
    obtain ⟨_, rfl, free⟩ := missed a c
    obtain ⟨mem, id⟩ := Table.get_eq_some.1 ha
    refine ⟨⟨a, ?_, id, fun approved => free ⟨ha, approved, hc⟩⟩, fun claim eq => by cases eq⟩
    rw [view_actions, policy.tables.2.2.1]
    exact mem
  | @cancelled _ _ b _ _ _ _ _ held stop =>
    refine ⟨⟨{ b with status := .cancelled }, ?_, (Table.get_eq_some.1 held.base).2,
      fun approved => by cases approved⟩, fun claim eq => by cases eq⟩
    simp [List.filterMap_cons, Row.action?, held.policy.tables, stop.tables]
  | @claimed claim _ b _ _ _ _ held _ from_ =>
    obtain ⟨_, found, -⟩ := held.alone
    refine ⟨⟨{ b with status := .executing }, ?_, (Table.get_eq_some.1 held.base).2,
      fun approved => by cases approved⟩, fun claim' eq => ?_⟩
    · simp [List.filterMap_cons, Row.action?, held.policy.tables]
    · cases eq
      obtain ⟨same, found, -⟩ := held.alone
      rw [from_.actionId, same]
      exact (Table.get_eq_some.1 found).2

/-- The transactions of a task pass on what is known of its event. -/
theorem knows_of_run {body : Env → Tx Process} {abort : Err → Process} {env : Env}
    (code : p.act settings = .txn body abort) (run : (body env).run d = .ok (q, d'))
    (sound : d.Sound) (led : d.Led) (works : p.job? = some job) (ho : o ∈ d.outbox)
    (names : job.outboxEventId = o.id.str) (knows : p.Knows d o) :
    q.job? = some job ∧ ∀ o' ∈ d'.outbox, o.Same o' → q.Knows d' o' := by
  have advances := World.advances_of_run code run sound
  have parsed : Uuid.parse job.outboxEventId = some o.id := names ▸ Uuid.parse_str o.id
  have found : d.outbox.get o.id = some o := Table.get_of_mem ho
  have spent : ∀ {q : Process}, q.Knows d' o → q.job? = some job →
      q.job? = some job ∧ ∀ o' ∈ d'.outbox, o.Same o' → q.Knows d' o' :=
    fun knows works => ⟨works, fun o' _ same => knows.advances (.refl d') same⟩
  cases p with
  | webhook | answered | returned | raised | external => cases code <;> cases works
  | task job' =>
    cases works
    cases code
    simp only [processOutboxEvent, parsed] at run
    rw [run_bind_ok (run_selectOutbox _),
      show d.outbox.find (·.id = o.id) = some o from found] at run
    simp only at run
    split at run
    next type =>
      cases run
      exact spent (q := .eligible job) type rfl
    next other =>
      split at run
      next type =>
        cases run
        exact spent (q := .claim job o.payload) ⟨type, rfl⟩ rfl
      next other' =>
        cases run
        exact spent (q := .returned job _) ⟨fun type => absurd type other,
          fun type => absurd type other'⟩ rfl
  | eligible job' =>
    cases works
    cases code
    obtain ⟨result, d₁, decided, done⟩ := run_bind_eq_ok.1 run
    cases done
    have type : o.eventType = eligibleEvent := knows
    have other : o.eventType ≠ scheduledEvent := type ▸ (by simp [eligibleEvent, scheduledEvent])
    obtain ⟨-, c, hc, named, -⟩ := (led.addressed o ho).eligible type
    refine spent (q := .returned job result) ⟨fun _ => ?_, fun type => absurd type other⟩ rfl
    cases processEligibleEvent_ok decided with
    | idle missed =>
      exact ⟨c, hc, named, fun eligible =>
        missed c ⟨o.id, o, parsed, found, named, Table.get_of_mem hc, eligible⟩⟩
    | acted source calls known records =>
      obtain ⟨id, outbox, parsed', found', named', -⟩ := calls
      obtain rfl := Option.some.inj (parsed.symm.trans parsed')
      obtain rfl := Option.some.inj (found.symm.trans found')
      obtain ⟨c', hc', id, left⟩ := records.leaves
      exact ⟨c', hc', named'.trans (congrArg some id.symm), left⟩
  | claim job' payload =>
    cases works
    obtain ⟨type, rfl⟩ := knows
    have other : o.eventType ≠ eligibleEvent := type ▸ (by simp [eligibleEvent, scheduledEvent])
    obtain ⟨a, ha, named, -, c, hc, own, -⟩ := (led.addressed o ho).scheduled type
    obtain ⟨us, rfl, commits⟩ := World.commits_of_run code run
    have leaves : ∀ {env result}, ClaimEffect id World.Alone env a.id result us d →
        Spent (view d us) o ∧ ∀ claim, result = .claimed claim → claim.actionId = a.id := by
      intro env result effect
      have hc : d.cases.get a.recoveryCaseId = some c := own ▸ Table.get_of_mem hc
      obtain ⟨⟨a', ha', id, left⟩, claims⟩ := effect.leaves (Table.get_of_mem ha) hc
      exact ⟨⟨fun type => absurd type other, fun _ => ⟨a', ha', id ▸ named, left⟩⟩, claims⟩
    cases commits with
    | unnamed none => cases named.symm.trans none
    | @claim _ _ actionId _ result _ _ id effect =>
      obtain rfl := Option.some.inj (named.symm.trans id)
      obtain ⟨gone, claims⟩ := leaves effect
      cases result with
      | refused fields => exact spent (q := .returned job fields) gone rfl
      | claimed claim =>
        have issued : o.actionId? = some claim.actionId :=
          named.trans (congrArg some (claims claim rfl).symm)
        exact spent (q := .external job claim) ⟨type, issued, gone⟩ rfl
  | success job' claim reference details =>
    cases works
    cases code
    obtain ⟨_, d₁, -, done⟩ := run_bind_eq_ok.1 run
    cases done
    exact spent (q := .returned job _) (knows.2.2.advances advances (.refl o)) rfl
  | failure job' claim error =>
    cases works
    cases code
    obtain ⟨_, d₁, -, done⟩ := run_bind_eq_ok.1 run
    cases done
    unfold afterFailure
    split
    · exact spent (q := .returned job _) (knows.2.2.advances advances (.refl o)) rfl
    · exact spent (q := .raised job false) trivial rfl

end

end RecoverAI
