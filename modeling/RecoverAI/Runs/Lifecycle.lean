import RecoverAI.System.World

/-!
# The life of a case

The joint invariant of cases, actions and outbox events when transactions are atomic: how the status
of a case fits its one action, and which events it has. A commit is about one case at most, so a
step has to restore the invariant of that case and leaves the others alone.
-/
namespace RecoverAI

open Store

def eligibleEvent : String := "recovery_case.eligible"

def recoveredEvent : String := "recovery_case.recovered"

/-- An event of a type about a case. -/
def OutboxEvent.About (type : String) (c : RecoveryCase) (o : OutboxEvent) : Prop :=
  o.eventType = type ∧ o.aggregateId = c.id.str

/-- The statuses of a case between transactions. -/
def restingStatuses : List RecoveryCaseStatus :=
  [.eligible, .actionScheduled, .waiting, .recovered, .stopped, .escalated]

/-- The statuses of a case that has an action of that type and status. -/
def caseStatuses : RecoveryActionType → RecoveryActionStatus → List RecoveryCaseStatus
  | .stop, _ => [.stopped]
  | .escalate, _ => [.escalated]
  | _, .approved => [.actionScheduled]
  | _, .executing | _, .failed => [.actionScheduled, .recovered]
  | _, .executed => [.waiting, .recovered]
  | _, .cancelled => [.stopped, .recovered]
  | _, .pending | _, .denied => []

structure Life (d : Db) (c : RecoveryCase) : Prop where
  status : c.status ∈ restingStatuses
  eligible : ∃ o ∈ d.outbox, o.About eligibleEvent c
  recovered : (∃ o ∈ d.outbox, o.About recoveredEvent c) ↔ c.status = .recovered
  scheduled : (∃ o ∈ d.outbox, o.About scheduledEvent c) ↔
    ∃ a ∈ d.actions, a.recoveryCaseId = c.id ∧ a.actionType.executable
  actions : ∀ a ∈ d.actions, a.recoveryCaseId = c.id → c.status ∈ caseStatuses a.actionType a.status

/-- The key of an event starts with its type and its case. -/
structure OutboxEvent.Named (o : OutboxEvent) : Prop where
  type : o.eventType ∈ [eligibleEvent, recoveredEvent, scheduledEvent]
  key : ∃ suffix, o.idempotencyKey = o.eventType ++ ":" ++ o.aggregateId ++ suffix ∧
    (o.eventType ≠ scheduledEvent → suffix = "")

structure Db.Lifecycle (d : Db) : Prop where
  life : ∀ c ∈ d.cases, Life d c
  named : ∀ o ∈ d.outbox, o.Named
  keys : ∀ o ∈ d.outbox, ∀ o' ∈ d.outbox, o.idempotencyKey = o'.idempotencyKey → o = o'
  attempts : ∀ a ∈ d.actions,
    a.idempotencyKey = recoveryActionIdempotencyKey a.recoveryCaseId a.actionType a.attemptNumber

/-! ## Keys -/

/-- The type of an event can be read off its key. -/
theorem eventType_of_key {type type' x y : String}
    (h : type ∈ [eligibleEvent, recoveredEvent, scheduledEvent])
    (h' : type' ∈ [eligibleEvent, recoveredEvent, scheduledEvent])
    (same : type ++ ":" ++ x = type' ++ ":" ++ y) : type = type' := by
  have separate : ∀ type ∈ [eligibleEvent, recoveredEvent, scheduledEvent],
      ':' ∉ type.toList := by decide
  have texts := congrArg String.toList same
  simp only [String.append_assoc, String.toList_append] at texts
  exact String.toList_inj.1 (Text.append_cons_inj (separate _ h) (separate _ h') texts).1

/-- An event of a case has one key, beside the events that schedule an action. -/
theorem OutboxEvent.Named.key_eq {o : OutboxEvent} (h : o.Named)
    (other : o.eventType ≠ scheduledEvent) :
    o.idempotencyKey = o.eventType ++ ":" ++ o.aggregateId := by
  obtain ⟨suffix, key, none⟩ := h.key
  rw [key, none other, String.append_empty]

/-- An event with the key of another type's event about a case is that event. -/
theorem OutboxEvent.Named.about {o : OutboxEvent} (h : o.Named) {type id : String}
    (known : type ∈ [eligibleEvent, recoveredEvent]) (key : o.idempotencyKey = type ++ ":" ++ id) :
    o.eventType = type ∧ o.aggregateId = id := by
  have type' : type ∈ [eligibleEvent, recoveredEvent, scheduledEvent] := by
    simp only [List.mem_cons, List.not_mem_nil, or_false] at known ⊢
    exact known.imp_right .inl
  have other : type ≠ scheduledEvent := by
    simp only [List.mem_cons, List.not_mem_nil, or_false] at known
    rcases known with rfl | rfl <;> simp [eligibleEvent, recoveredEvent, scheduledEvent]
  obtain ⟨suffix, own, -⟩ := h.key
  have same : o.eventType = type :=
    eventType_of_key h.type type' (x := o.aggregateId ++ suffix) (y := id)
      (by rw [← String.append_assoc, ← own, key])
  have key' := h.key_eq (same ▸ other)
  rw [key, same, String.append_right_inj] at key'
  exact ⟨same, key'.symm⟩

/-! ## Steps -/

section

variable {d d' : Db} {c : RecoveryCase} {cs : List RecoveryCase} {as : List RecoveryAction}
  {os : List OutboxEvent} {xs : List AuditEvent}

/-- Writes about another case leave the actions of a case alone. -/
theorem Db.Changes.actions_frame (changes : d.Changes d' cs as os xs) (grows : d.Grows d')
    (other : ∀ a ∈ as, a.recoveryCaseId ≠ c.id) (a : RecoveryAction)
    (own : a.recoveryCaseId = c.id) : a ∈ d'.actions ↔ a ∈ d.actions := by
  have old : ∀ {a}, a ∈ d'.actions → a.recoveryCaseId = c.id → a ∈ d.actions := fun ha own =>
    (Table.mem_or_of_mem_putAll (changes.actions ▸ ha)).resolve_left fun written =>
      other _ written own
  refine ⟨fun ha => old ha own, fun ha => ?_⟩
  obtain ⟨a', ha', same⟩ := grows.actions a ha
  have : a' = a := Table.eq_of_key (old ha' (same.recoveryCaseId.trans own)) ha same.id
  exact this ▸ ha'

theorem Db.Changes.outbox_frame (changes : d.Changes d' cs as os xs) (grows : d.Grows d')
    (other : ∀ o ∈ os, o.aggregateId ≠ c.id.str) (o : OutboxEvent)
    (own : o.aggregateId = c.id.str) : o ∈ d'.outbox ↔ o ∈ d.outbox := by
  have old : ∀ {o}, o ∈ d'.outbox → o.aggregateId = c.id.str → o ∈ d.outbox := fun ho own =>
    (Table.mem_or_of_mem_putAll (changes.outbox ▸ ho)).resolve_left fun written =>
      other _ written own
  refine ⟨fun ho => old ho own, fun ho => ?_⟩
  obtain ⟨o', ho', same⟩ := grows.outbox o ho
  have : o' = o := Table.eq_of_key (old ho' (same.aggregateId.trans own)) ho same.id
  exact this ▸ ho'

/-- The life of a case depends on its own rows only. -/
theorem Life.congr (h : Life d c)
    (actions : ∀ a, a.recoveryCaseId = c.id → (a ∈ d'.actions ↔ a ∈ d.actions))
    (outbox : ∀ o, o.aggregateId = c.id.str → (o ∈ d'.outbox ↔ o ∈ d.outbox)) : Life d' c where
  status := h.status
  eligible := let ⟨o, ho, about⟩ := h.eligible; ⟨o, (outbox o about.2).2 ho, about⟩
  recovered := by
    rw [← h.recovered]
    exact exists_congr fun o => and_congr_left fun about => outbox o about.2
  scheduled := by
    have events : (∃ o ∈ d'.outbox, o.About scheduledEvent c) ↔
        ∃ o ∈ d.outbox, o.About scheduledEvent c :=
      exists_congr fun o => and_congr_left fun about => outbox o about.2
    rw [events, h.scheduled]
    exact exists_congr fun a => and_congr_left fun own => (actions a own.1).symm
  actions a ha own := h.actions a ((actions a own).1 ha) own

/-- A commit about the case `id` has to restore the life of that case. -/
theorem Db.Lifecycle.step (h : d.Lifecycle) (changes : d.Changes d' cs as os xs)
    (grows : d.Grows d') (id : Uuid) (cases : ∀ c ∈ cs, c.id = id)
    (actions : ∀ a ∈ as, a.recoveryCaseId = id) (outbox : ∀ o ∈ os, o.aggregateId = id.str)
    (life : ∀ c ∈ d'.cases, c.id = id → Life d' c) (named : ∀ o ∈ os, o.Named)
    (fresh : ∀ o ∈ os, d.lacks (.outboxKey o.idempotencyKey)) (one : ∀ o ∈ os, ∀ o' ∈ os, o = o')
    (attempts : ∀ a ∈ as,
      a.idempotencyKey = recoveryActionIdempotencyKey a.recoveryCaseId a.actionType
    a.attemptNumber) :
    d'.Lifecycle where
  life c hc := by
    by_cases own : c.id = id
    · exact life c hc own
    · have old := (Table.mem_or_of_mem_putAll (changes.cases ▸ hc)).resolve_left fun written =>
        own (cases c written)
      refine (h.life c old).congr (changes.actions_frame grows fun a ha same => ?_)
        (changes.outbox_frame grows fun o ho same => ?_)
      · exact own (same.symm.trans (actions a ha))
      · exact own (Uuid.str_injective (same.symm.trans (outbox o ho)))
  named o ho := (Table.mem_or_of_mem_putAll (changes.outbox ▸ ho)).elim (named o) (h.named o)
  keys o ho o' ho' same := by
    rcases Table.mem_or_of_mem_putAll (changes.outbox ▸ ho) with new | old <;>
      rcases Table.mem_or_of_mem_putAll (changes.outbox ▸ ho') with new' | old'
    · exact one o new o' new'
    · exact absurd same.symm (fresh o new o' old')
    · exact absurd same (fresh o' new' o old)
    · exact h.keys o old o' old' same
  attempts a ha := (Table.mem_or_of_mem_putAll (changes.actions ▸ ha)).elim (attempts a)
    (h.attempts a)

/-- A commit that only moves the statuses of a case and its action on. -/
theorem Db.Lifecycle.move (h : d.Lifecycle) (sound : d.Sound) (changes : d.Changes d' cs as [] xs)
    (grows : d.Grows d') {a a' : RecoveryAction} {c c' : RecoveryCase} (ha : a ∈ d.actions)
    (hc : c ∈ d.cases) (own : a.recoveryCaseId = c.id) (actions : as = [a']) (same : a.Same a')
    (same' : c.Same c') (cases : cs = [] ∧ c' = c ∨ cs = [c'])
    (resting : c'.status ∈ restingStatuses)
    (recovered : c'.status = .recovered ↔ c.status = .recovered)
    (fits : c'.status ∈ caseStatuses a'.actionType a'.status) : d'.Lifecycle := by
  subst actions
  have noEvents : ∀ o, o ∈ d'.outbox ↔
      o ∈ d.outbox := fun o => by rw [changes.outbox]; exact Iff.rfl
  have written : a' ∈ d'.actions := changes.actions ▸ Table.mem_put.2 (.inl rfl)
  have here : c' ∈ d'.cases := by
    rw [changes.cases]
    rcases cases with ⟨rfl, rfl⟩ | rfl
    · exact hc
    · exact Table.mem_put.2 (.inl rfl)
  -- The action is the only one of its case, before and after.
  have only : ∀ b ∈ d'.actions, b.recoveryCaseId = c.id → b = a' := by
    intro b hb hown
    rcases Table.mem_or_of_mem_putAll (changes.actions ▸ hb) with new | old
    · exact List.mem_singleton.1 new
    · have : b = a := sound.oneAction b old a ha (hown.trans own.symm)
      exact Table.eq_of_key hb written (this ▸ same.id.symm)
  have life := h.life c hc
  refine h.step changes grows c.id (fun x hx => ?_)
    (fun x hx => List.mem_singleton.1 hx ▸ same.recoveryCaseId.trans own)
      (fun o ho => absurd ho List.not_mem_nil)
    (fun x hx id => ?_) (fun o ho => absurd ho List.not_mem_nil)
      (fun o ho => absurd ho List.not_mem_nil)
    (fun o ho => absurd ho List.not_mem_nil) (fun x hx => ?_)
  · rcases cases with ⟨rfl, -⟩ | rfl
    · cases hx
    · exact List.mem_singleton.1 hx ▸ same'.id
  · obtain rfl : x = c' := Table.eq_of_key hx here (id.trans same'.id.symm)
    have about : ∀ {type : String} {o : OutboxEvent}, o.About type x ↔ o.About type c := by
      simp [OutboxEvent.About, same'.id]
    refine ⟨resting, ?_, ?_, ?_, fun b hb hown => ?_⟩
    · obtain ⟨o, ho, hab⟩ := life.eligible
      exact ⟨o, (noEvents o).2 ho, about.2 hab⟩
    · rw [recovered, ← life.recovered]
      simp only [noEvents, about]
    · simp only [noEvents, about]
      rw [life.scheduled, same'.id]
      constructor
      · rintro ⟨b, hb, hown, executable⟩
        have : b = a := sound.oneAction b hb a ha (hown.trans own.symm)
        exact ⟨a', written, same.recoveryCaseId.trans own,
          by rw [same.actionType, ← this]; exact executable⟩
      · rintro ⟨b, hb, hown, executable⟩
        exact ⟨a, ha, own, by rw [← same.actionType, ← only b hb hown]; exact executable⟩
    · rw [only b hb (hown.trans same'.id)]
      exact fits
  · rw [List.mem_singleton.1 hx, same.idempotencyKey, same.recoveryCaseId, same.actionType,
      same.attemptNumber]
    exact h.attempts a ha

end

section

variable {type : RecoveryActionType} {status : RecoveryActionStatus} {s : RecoveryCaseStatus}

theorem caseStatuses_claimed (h : s ∈ caseStatuses type .approved) :
    s ∈ caseStatuses type .executing := by
  revert h
  cases type <;> cases s <;> decide

theorem caseStatuses_failed (h : s ∈ caseStatuses type .executing) :
    s ∈ caseStatuses type .failed := by
  revert h
  cases type <;> cases s <;> decide

/-- An action that is executed while its case does not wait for it leaves the case alone. -/
theorem caseStatuses_executed (h : s ∈ caseStatuses type .executing)
    (other : s ≠ .actionScheduled) : s ∈ caseStatuses type .executed := by
  revert h other
  cases type <;> cases s <;> decide

theorem caseStatuses_cancelled (h : s ∈ caseStatuses type .approved)
    (other : s ≠ .actionScheduled) : s ∈ caseStatuses type .cancelled := by
  revert h other
  cases type <;> cases s <;> decide

/-- Only an executable action is with a case that waits for it. -/
theorem executable_of_scheduled (h : .actionScheduled ∈ caseStatuses type status) :
    type.executable := by
  revert h
  cases type <;> cases status <;> decide

theorem caseStatuses_scheduled (h : .actionScheduled ∈ caseStatuses type status) :
    .stopped ∈ caseStatuses type .cancelled ∧ .waiting ∈ caseStatuses type .executed := by
  revert h
  cases type <;> cases status <;> decide

/-- A recovery cancels the actions that would not go with a recovered case. -/
theorem caseStatuses_recovered (h : s ∈ caseStatuses type status) (open_ : s.isTerminal = false) :
    .recovered ∈ caseStatuses type
      (if status = .pending ∨ status = .approved then .cancelled else status) := by
  revert h open_
  cases type <;> cases status <;> cases s <;> decide

end

theorem resting_finalStatus (s : Selection) : s.finalStatus ∈ restingStatuses := by
  rcases s.finalStatus_cases with ⟨-, h⟩ | ⟨-, h⟩ | ⟨-, h⟩ <;> rw [h] <;> decide

theorem caseStatuses_newAction (s : Selection) :
    s.finalStatus ∈ caseStatuses s.finalAction .approved := by
  unfold Selection.finalStatus
  cases s.finalAction <;> decide

section

variable {d d' : Db} {carried : Option Claim}

/-- An eligible case has no action that could stop its decision. -/
theorem Db.Lifecycle.unblocked (life : d.Lifecycle) (sound : d.Sound) {env : Draws}
    {case c : RecoveryCase} {ps : List Row} (taken : Taken id World.Alone env case c ps d)
    {type : RecoveryActionType} {a : RecoveryAction} (ha : a ∈ d.actions) :
    ¬ SameAttempt (newAction env case type) a := by
  obtain ⟨rfl, found, eligible⟩ := taken.alone
  intro same
  have own : a.recoveryCaseId = case.id := by
    rcases same with key | attempt
    · have key : a.idempotencyKey = recoveryActionIdempotencyKey case.id type 1 := key
      rw [life.attempts a ha] at key
      exact (recoveryActionIdempotencyKey_inj key).1
    · exact attempt.1
  exact sound.acted a ha _ (Table.get_eq_some.1 found).1 own.symm eligible

theorem Held.lifecycle {env : Draws} {actionId : Uuid} {action a : RecoveryAction}
    {case : RecoveryCase} {ps stops : List Row} {xs : List AuditEvent}
    (held : Held id World.Alone env actionId action a case ps d) (life : d.Lifecycle)
    (sound : d.Sound) (grows : d.Grows d') (stop : Moves id World.Alone .stopped case stops d)
    (changes : d.Changes d' (casesOf stops) [{ a with status := .cancelled }] [] xs) :
    d'.Lifecycle := by
  obtain ⟨rfl, -, ha, approved, found, own⟩ := held.alone
  have hc := (Table.get_eq_some.1 found).1
  have fits := (life.life case hc).actions action ha own.symm
  rw [approved] at fits
  have same : action.Same { action with status := .cancelled } := ⟨rfl, rfl, rfl, rfl, rfl, rfl⟩
  rcases stop.alone found with ⟨other, none⟩ | ⟨scheduled, moved⟩
  · exact life.move sound changes grows ha hc own.symm rfl same (.refl case) (.inl ⟨none, rfl⟩)
      (life.life case hc).status Iff.rfl (caseStatuses_cancelled fits other)
  · have sameCase : case.Same (case.become .stopped) := ⟨rfl, rfl, rfl, rfl, rfl⟩
    refine life.move sound changes grows ha hc own.symm rfl same sameCase (.inr moved)
      (show .stopped ∈ restingStatuses by decide) ?_
      (caseStatuses_scheduled (scheduled ▸ fits)).1
    simp [RecoveryCase.become, scheduled]

theorem patchAction_succeeded (a : RecoveryAction) (now : Time) (column : Option String) :
    Db.patchAction a (a.succeeded now column) a = a.succeeded now column := by
  simp [Db.patchAction, RecoveryAction.succeeded]

theorem patchAction_unsuccessful (a : RecoveryAction) (message : String) :
    Db.patchAction a (a.unsuccessful message) a = a.unsuccessful message := by
  simp [Db.patchAction, RecoveryAction.unsuccessful]

theorem Moves.lifecycle {action : RecoveryAction} {case : RecoveryCase} {rows : List Row}
    {xs : List AuditEvent} (moves : Moves id World.Alone .waiting case rows d) (life : d.Lifecycle)
    (sound : d.Sound) (grows : d.Grows d') (ha : action ∈ d.actions)
    (found : d.cases.get case.id = some case) (own : action.recoveryCaseId = case.id)
    (executing : action.status = .executing) {now : Time} {column : Option String}
    (changes : d.Changes d' (casesOf rows) [action.succeeded now column] [] xs) : d'.Lifecycle := by
  have hc := (Table.get_eq_some.1 found).1
  have fits := (life.life case hc).actions action ha own
  rw [executing] at fits
  have same : action.Same (action.succeeded now column) := ⟨rfl, rfl, rfl, rfl, rfl, rfl⟩
  rcases moves.alone found with ⟨other, none⟩ | ⟨scheduled, moved⟩
  · exact life.move sound changes grows ha hc own rfl same (.refl case) (.inl ⟨none, rfl⟩)
      (life.life case hc).status Iff.rfl (caseStatuses_executed fits other)
  · have sameCase : case.Same (case.become .waiting) := ⟨rfl, rfl, rfl, rfl, rfl⟩
    refine life.move sound changes grows ha hc own rfl same sameCase (.inr moved)
      (show .waiting ∈ restingStatuses by decide) ?_
      (caseStatuses_scheduled (scheduled ▸ fits)).2
    simp [RecoveryCase.become, scheduled]

/-- A commit adds one event, or none. -/
def Adds (d : Db) (event : OutboxEvent) (os : List OutboxEvent) : Prop :=
  os = [] ∨ os = [event] ∧ d.Absent (.outbox event)

theorem Adds.mem {event : OutboxEvent} {os : List OutboxEvent} {cs : List RecoveryCase}
    {as : List RecoveryAction} {xs : List AuditEvent} (h : Adds d event os)
    (changes : d.Changes d' cs as os xs) {o : OutboxEvent} :
    o ∈ d'.outbox ↔ o ∈ os ∨ o ∈ d.outbox := by
  rw [changes.outbox]
  rcases h with rfl | ⟨rfl, absent⟩
  · simp
  · simp only [Table.putAll_cons, Table.putAll_nil, Table.mem_put, List.mem_singleton]
    exact or_congr_right (and_iff_left_of_imp fun mem => Table.get_eq_none.1 absent.outbox o mem)

theorem Adds.eq {event : OutboxEvent} {os : List OutboxEvent} (h : Adds d event os) :
    ∀ o ∈ os, o = event := by
  rcases h with rfl | ⟨rfl, -⟩
  · exact fun o ho => absurd ho List.not_mem_nil
  · exact fun o ho => List.mem_singleton.1 ho

theorem Adds.fresh {event : OutboxEvent} {os : List OutboxEvent} (h : Adds d event os) :
    ∀ o ∈ os, d.lacks (.outboxKey o.idempotencyKey) := by
  rcases h with rfl | ⟨rfl, absent⟩
  · exact fun o ho => absurd ho List.not_mem_nil
  · exact fun o ho => List.mem_singleton.1 ho ▸ absent _ (by simp [Row.keys])

theorem adds_scheduled {env : Draws} {case : RecoveryCase} {s : Selection}
    (absent : ∀ r ∈ scheduledRows env case s, d.Absent r) :
    Adds d (actionScheduledOutbox env case (newAction env case s.finalAction)
      (s.nextActionAt env.now))
      (outboxOf (scheduledRows env case s)) ∧
      ((∃ o, o ∈ outboxOf (scheduledRows env case s)) ↔ s.finalAction.executable) := by
  cases executable : s.finalAction.executable with
  | true =>
    have rows : scheduledRows env case s = [.outbox (actionScheduledOutbox env case
        (newAction env case s.finalAction) (s.nextActionAt env.now))] := by
      simp [scheduledRows, executable]
    rw [rows] at absent ⊢
    exact ⟨.inr ⟨rfl, absent _ (List.mem_singleton.2 rfl)⟩,
      iff_of_true ⟨_, List.mem_singleton.2 rfl⟩ rfl⟩
  | false =>
    have rows : scheduledRows env case s = [] := by simp [scheduledRows, executable]
    rw [rows]
    exact ⟨.inl rfl, by simp⟩

theorem adds_ensured {event : OutboxEvent} {ors : List Row}
    (h : Ensures id World.Alone event ors d) : Adds d event (outboxOf ors) := by
  cases h with
  | present => exact .inl rfl
  | inserted absent => exact .inr ⟨rfl, absent⟩

/-- Afterwards there is an event with that key. -/
theorem Ensures.exists_mem {event : OutboxEvent} {ors : List Row} {cs : List RecoveryCase}
    {as : List RecoveryAction} {xs : List AuditEvent} (h : Ensures id World.Alone event ors d)
    (changes : d.Changes d' cs as (outboxOf ors) xs) :
    ∃ o ∈ d'.outbox, o.idempotencyKey = event.idempotencyKey := by
  have mem := fun o => (adds_ensured h).mem changes (o := o)
  cases h with
  | @present e _ found same =>
    obtain ⟨_, rfl, he⟩ := found
    exact ⟨e, (mem e).2 (.inr he), same⟩
  | inserted => exact ⟨event, (mem event).2 (.inl (List.mem_singleton.2 rfl)), rfl⟩

theorem named_actionScheduledOutbox (env : Draws) (case : RecoveryCase) (a : RecoveryAction)
    (at_ : Time) : (actionScheduledOutbox env case a at_).Named where
  type := by simp [actionScheduledOutbox, scheduledEvent]
  key := ⟨":" ++ a.id.str, by
    have text : "recovery_case.action_scheduled:" = "recovery_case.action_scheduled" ++ ":" := rfl
    simp only [actionScheduledOutbox, text, String.append_assoc], fun other => absurd rfl other⟩

theorem named_caseOutbox (env : Draws) (merchant : Merchant) (case : RecoveryCase)
    (payload : Fields) {type : String} (known : type ∈ [eligibleEvent, recoveredEvent]) :
    (caseOutbox env merchant case type payload).Named where
  type := by
    simp only [List.mem_cons, List.not_mem_nil, or_false] at known ⊢
    exact known.imp_right .inl
  key := ⟨"", by simp [caseOutbox], fun _ => rfl⟩

theorem Taken.lifecycle {env : Draws} {case c : RecoveryCase} {ps : List Row} {s : Selection}
    {xs : List AuditEvent} (taken : Taken id World.Alone env case c ps d) (life : d.Lifecycle)
    (sound : d.Sound) (grows : d.Grows d') (outbox : ∀ r ∈ scheduledRows env case s, d.Absent r)
    (changes : d.Changes d' [c.decided s env.now] [newAction env case s.finalAction]
      (outboxOf (scheduledRows env case s)) xs) : d'.Lifecycle := by
  obtain ⟨rfl, found, eligible⟩ := taken.alone
  have hc := (Table.get_eq_some.1 found).1
  obtain ⟨noActions, noEvents, -⟩ := sound.none_of_eligible hc eligible
  have old := life.life case hc
  obtain ⟨adds, nonempty⟩ := adds_scheduled outbox
  have events := fun {o} => adds.mem changes (o := o)
  have actions : ∀ a ∈ d'.actions, a.recoveryCaseId = case.id →
      a = newAction env case s.finalAction := by
    intro a ha own
    rcases Table.mem_or_of_mem_putAll (changes.actions ▸ ha) with new | before
    · exact List.mem_singleton.1 new
    · exact absurd own (noActions a before)
  have written : newAction env case s.finalAction ∈ d'.actions :=
    changes.actions ▸ Table.mem_put.2 (.inl rfl)
  have decided : Life d' (case.decided s env.now) := by
    refine ⟨resting_finalStatus s, ?_, iff_of_false ?_ ?_, ?_, fun a ha own => ?_⟩
    · obtain ⟨o, ho, about⟩ := old.eligible
      exact ⟨o, events.2 (.inr ho), about⟩
    · rintro ⟨o, ho, about⟩
      rcases events.1 ho with new | before
      · have type := about.1
        rw [adds.eq o new] at type
        simp [actionScheduledOutbox, recoveredEvent] at type
      · have recovered := old.recovered.1 ⟨o, before, about⟩
        rw [eligible] at recovered
        cases recovered
    · rcases s.finalStatus_cases with ⟨-, h⟩ | ⟨-, h⟩ | ⟨-, h⟩ <;> simp [RecoveryCase.decided, h]
    · constructor
      · rintro ⟨o, ho, about⟩
        rcases events.1 ho with new | before
        · exact ⟨_, written, rfl, nonempty.1 ⟨o, new⟩⟩
        · exact absurd about.2 (noEvents o before about.1)
      · rintro ⟨a, ha, own, executable⟩
        rw [actions a ha own] at executable
        obtain ⟨o, ho⟩ := nonempty.2 executable
        exact ⟨o, events.2 (.inl ho), mem_scheduledRows ho ▸ ⟨rfl, rfl⟩⟩
    · rw [actions a ha own]
      exact caseStatuses_newAction s
  refine life.step changes grows case.id (fun x hx => List.mem_singleton.1 hx ▸ rfl)
    (fun x hx => List.mem_singleton.1 hx ▸ rfl) (fun o ho => mem_scheduledRows ho ▸ rfl)
      (fun x hx own => ?_)
    (fun o ho => mem_scheduledRows ho ▸ named_actionScheduledOutbox ..) adds.fresh
    (fun o ho o' ho' => (adds.eq o ho).trans (adds.eq o' ho').symm) fun a ha =>
      List.mem_singleton.1 ha ▸ rfl
  have here : case.decided s env.now ∈ d'.cases := changes.cases ▸ Table.mem_put.2 (.inl rfl)
  exact Table.eq_of_key here hx (Eq.symm own) ▸ decided

/-- The event of an ensured key is about the case. -/
theorem Ensures.about {env : Draws} {merchant : Merchant} {case : RecoveryCase} {type : String}
    {payload : Fields} {ors : List Row} {cs : List RecoveryCase} {as : List RecoveryAction}
    {xs : List AuditEvent}
    (h : Ensures id World.Alone (caseOutbox env merchant case type payload) ors d)
    (life : d.Lifecycle) (known : type ∈ [eligibleEvent, recoveredEvent])
    (changes : d.Changes d' cs as (outboxOf ors) xs) : ∃ o ∈ d'.outbox, o.About type case := by
  obtain ⟨o, ho, key⟩ := h.exists_mem changes
  have named : o.Named := by
    rcases ((adds_ensured h).mem changes).1 ho with new | old
    · exact (adds_ensured h).eq o new ▸ named_caseOutbox env merchant case payload known
    · exact life.named o old
  exact ⟨o, ho, named.about known key⟩

theorem Ensures.created {env : Draws} {merchant : Merchant} {case : RecoveryCase} {payload : Fields}
    {ors : List Row} {xs : List AuditEvent}
    (event : Ensures id World.Alone (caseOutbox env merchant case eligibleEvent payload) ors d)
    (life : d.Lifecycle) (sound : d.Sound) (grows : d.Grows d')
    (absent : d.cases.get case.id = none)
    (changes : d.Changes d' [case.become .eligible] [] (outboxOf ors) xs) : d'.Lifecycle := by
  obtain ⟨noActions, noEvents, -⟩ := sound.none_of_absent absent
  have adds := adds_ensured event
  have actions : d'.actions = d.actions := changes.actions
  have other : ∀ type o, type ≠ eligibleEvent → o ∈ d'.outbox → ¬ o.About type case := by
    rintro type o ne ho ⟨kind, own⟩
    rcases (adds.mem changes).1 ho with new | old
    · exact ne (kind.symm.trans (congrArg OutboxEvent.eventType (adds.eq o new)))
    · exact noEvents o old own
  have made : Life d' (case.become .eligible) := by
    refine ⟨by simp [RecoveryCase.become, restingStatuses],
      event.about life (by simp) changes, iff_of_false ?_ ?_, iff_of_false ?_ ?_,
      fun a ha own => absurd own (noActions a (actions ▸ ha))⟩
    · rintro ⟨o, ho, about⟩
      exact other _ o (by simp [recoveredEvent, eligibleEvent]) ho about
    · simp [RecoveryCase.become]
    · rintro ⟨o, ho, about⟩
      exact other _ o (by simp [scheduledEvent, eligibleEvent]) ho about
    · rintro ⟨a, ha, own, -⟩
      exact noActions a (actions ▸ ha) own
  refine life.step changes grows case.id (fun x hx => List.mem_singleton.1 hx ▸ rfl)
    (fun x hx => absurd hx List.not_mem_nil) (fun o ho => adds.eq o ho ▸ rfl) (fun x hx own => ?_)
    (fun o ho => adds.eq o ho ▸ named_caseOutbox env merchant case payload (by simp)) adds.fresh
    (fun o ho o' ho' => (adds.eq o ho).trans (adds.eq o' ho').symm) fun a ha =>
      absurd ha List.not_mem_nil
  have here : case.become .eligible ∈ d'.cases := changes.cases ▸ Table.mem_put.2 (.inl rfl)
  exact Table.eq_of_key here hx (Eq.symm own) ▸ made

theorem Ensures.recovered {env : Draws} {merchant : Merchant} {case : RecoveryCase}
    {payload : Fields} {ors : List Row} {xs : List AuditEvent}
    (event : Ensures id World.Alone (caseOutbox env merchant case recoveredEvent payload) ors d)
    (life : d.Lifecycle) (grows : d.Grows d') (found : d.cases.get case.id = some case)
    (open_ : case.status.isTerminal = false)
    (changes : d.Changes d' [case.become .recovered] ((d.openActions case.id).map Db.cancelled)
      (outboxOf ors) xs) :
    d'.Lifecycle := by
  have hc := (Table.get_eq_some.1 found).1
  have old := life.life case hc
  have adds := adds_ensured event
  have cancels : ∀ {a}, a ∈ (d.openActions case.id).map Db.cancelled →
      ∃ a₀ ∈ d.actions, a = Db.cancelled a₀ ∧
      a₀.recoveryCaseId = case.id ∧ Db.cancellable a₀ := by
    intro a ha
    obtain ⟨a₀, ha₀, rfl⟩ := List.mem_map.1 ha
    obtain ⟨mem, own⟩ := Table.mem_filter.1 ha₀
    simp only [Bool.and_eq_true, decide_eq_true_eq] at own
    exact ⟨a₀, mem, rfl, own.1, own.2⟩
  have same : ∀ {a}, a ∈ d'.actions → ∃ a₀ ∈ d.actions, a₀.Same a ∧
      (a.recoveryCaseId = case.id → a.status = if a₀.status = .pending ∨
        a₀.status = .approved then .cancelled
        else a₀.status) := by
    intro a ha
    by_cases written : a ∈ (d.openActions case.id).map Db.cancelled
    · obtain ⟨a₀, mem, rfl, own, cancellable⟩ := cancels written
      have open₀ : a₀.status = .pending ∨ a₀.status = .approved := by
        simpa [Db.cancellable] using cancellable
      exact ⟨a₀, mem, ⟨rfl, rfl, rfl, rfl, rfl, rfl⟩, fun _ => by rw [if_pos open₀]; rfl⟩
    · obtain ⟨mem, free⟩ := Table.kept_of_mem_putAll (changes.actions ▸ ha) written
      refine ⟨a, mem, .refl a, fun own => (if_neg fun open₀ => ?_).symm⟩
      have opened : a ∈ d.openActions case.id :=
        Table.mem_filter.2 ⟨mem, by simp [own, Db.cancellable, open₀]⟩
      exact free _ (List.mem_map_of_mem opened) rfl
  have made : Life d' (case.become .recovered) := by
    have events : ∀ {type}, type ≠ recoveredEvent → ((∃ o ∈ d'.outbox, o.About type case) ↔
        ∃ o ∈ d.outbox, o.About type case) := by
      intro type ne
      refine exists_congr fun o => and_congr_left fun about => ?_
      rw [adds.mem changes]
      exact or_iff_right fun new =>
        ne (about.1.symm.trans (congrArg OutboxEvent.eventType (adds.eq o new)))
    refine ⟨by simp [RecoveryCase.become, restingStatuses], ?_,
      iff_of_true (event.about life (by simp) changes) rfl, ?_, fun a ha own => ?_⟩
    · exact (events (by simp [recoveredEvent, eligibleEvent])).2 old.eligible
    · refine (events (by simp [recoveredEvent, scheduledEvent])).trans (old.scheduled.trans ?_)
      constructor
      · rintro ⟨a, ha, own, executable⟩
        obtain ⟨a', ha', same⟩ := grows.actions a ha
        exact ⟨a', ha', same.recoveryCaseId.trans own, same.actionType ▸ executable⟩
      · rintro ⟨a, ha, own, executable⟩
        obtain ⟨a₀, ha₀, same₀, -⟩ := same ha
        exact ⟨a₀, ha₀, same₀.recoveryCaseId.symm.trans own, same₀.actionType ▸ executable⟩
    · obtain ⟨a₀, ha₀, same₀, status⟩ := same ha
      rw [same₀.actionType, status own]
      exact caseStatuses_recovered (old.actions a₀ ha₀ (same₀.recoveryCaseId.symm.trans own)) open_
  refine life.step changes grows case.id (fun x hx => List.mem_singleton.1 hx ▸ rfl)
    (fun x hx => ?_)
    (fun o ho => adds.eq o ho ▸ rfl) (fun x hx own => ?_)
    (fun o ho => adds.eq o ho ▸ named_caseOutbox env merchant case payload (by simp)) adds.fresh
    (fun o ho o' ho' => (adds.eq o ho).trans (adds.eq o' ho').symm) fun a ha => ?_
  · obtain ⟨a₀, -, rfl, own, -⟩ := cancels hx
    exact own
  · have here : case.become .recovered ∈ d'.cases := changes.cases ▸ Table.mem_put.2 (.inl rfl)
    exact Table.eq_of_key here hx (Eq.symm own) ▸ made
  · obtain ⟨a₀, mem, rfl, -, -⟩ := cancels ha
    exact life.attempts a₀ mem

theorem Db.Lifecycle.of_eq (life : d.Lifecycle) (cases : d'.cases = d.cases)
    (actions : d'.actions = d.actions) (outbox : d'.outbox = d.outbox) : d'.Lifecycle where
  life c hc := (life.life c (cases ▸ hc)).congr (fun a _ => by rw [actions]) fun o _ =>
    by rw [outbox]
  named o ho := life.named o (outbox ▸ ho)
  keys o ho o' ho' := life.keys o (outbox ▸ ho) o' (outbox ▸ ho')
  attempts a ha := life.attempts a (actions ▸ ha)

theorem Work.lifecycle [PyLib] {allows : Db → Stmt → Prop}
    (h : Work id World.Alone allows carried d' d) (life : d.Lifecycle) (sound : d.Sound)
    (grows : d.Grows d') (backs : World.Backs d carried) : d'.Lifecycle := by
  cases h with
  | quiet changes | noted _ _ _ _ changes =>
    exact life.of_eq changes.cases changes.actions changes.outbox
  | blocked taken existing changes =>
    obtain ⟨_, finalAction, a, rfl, ha, same⟩ := existing
    exact absurd same (life.unblocked sound taken ha)
  | decided taken action outbox audit changes =>
    exact taken.lifecycle life sound grows outbox changes
  | cancelled held stop audit changes => exact held.lifecycle life sound grows stop changes
  | @claimed env actionId action a case ps payload _ _ held open_ audit changes =>
    obtain ⟨rfl, -, ha, approved, found, own⟩ := held.alone
    have hc := (Table.get_eq_some.1 found).1
    have fits := (life.life case hc).actions action ha own.symm
    exact life.move sound changes grows ha hc own.symm rfl ⟨rfl, rfl, rfl, rfl, rfl,
      rfl⟩ (.refl case)
      (.inl ⟨rfl, rfl⟩) (life.life case hc).status Iff.rfl (caseStatuses_claimed (approved ▸ fits))
  | @executed env claim action r case rows column payload _ _ carries found executing moves base
    audit changes =>
    obtain ⟨read, ha, foundCase, own⟩ := found.alone carries backs
    obtain rfl := Option.some.inj (read.symm.trans base)
    rw [patchAction_succeeded] at changes
    exact moves.lifecycle life sound grows ha foundCase own executing changes
  | @failed env claim action r case message payload _ _ carries found executing base
    audit changes =>
    obtain ⟨read, ha, foundCase, own⟩ := found.alone carries backs
    obtain rfl := Option.some.inj (read.symm.trans base)
    rw [patchAction_unsuccessful] at changes
    have hc := (Table.get_eq_some.1 foundCase).1
    have fits := (life.life case hc).actions action ha own
    exact life.move sound changes grows ha hc own rfl ⟨rfl, rfl, rfl, rfl, rfl, rfl⟩ (.refl case)
      (.inl ⟨rfl, rfl⟩)
      (life.life case hc).status Iff.rfl (caseStatuses_failed (executing ▸ fits))
  | created pay absent audited event changes payments =>
    exact Ensures.created event life sound grows absent.case changes
  | activated found status base audited event changes =>
    obtain ⟨_, rfl, hc⟩ := found
    exact absurd status (sound.notFailed _ (Table.mem_of_find hc).1)
  | @recovered env merchant entity amountMinor currency inbox payment case r prs cancels payload ors
    correlationId _ _
      pay chosen recovers audited event changes =>
    obtain ⟨rfl, rfl, found⟩ := recovers.alone chosen
    rw [patchCase_become] at changes
    exact Ensures.recovered event life grows found recovers.nonterminal changes

/-- The dispatcher leaves what the lifecycle is about alone. -/
theorem Db.Lifecycle.redispatch (life : d.Lifecycle) {outbox : Table OutboxEvent}
    (grows : d.Grows { d with outbox }) (same : ∀ o' ∈ outbox, ∃ o ∈ d.outbox, o.Same o') :
    { d with outbox }.Lifecycle where
  life c hc := by
    have events : ∀ {type}, (∃ o ∈ outbox, o.About type c) ↔ ∃ o ∈ d.outbox, o.About type c := by
      intro type
      constructor
      · rintro ⟨o', ho', about⟩
        obtain ⟨o, ho, same⟩ := same o' ho'
        exact ⟨o, ho, same.eventType ▸ about.1, same.aggregateId ▸ about.2⟩
      · rintro ⟨o, ho, about⟩
        obtain ⟨o', ho', same⟩ := grows.outbox o ho
        exact ⟨o', ho', same.eventType.trans about.1, same.aggregateId.trans about.2⟩
    have old := life.life c hc
    exact ⟨old.status, events.2 old.eligible, events.trans old.recovered,
      events.trans old.scheduled, old.actions⟩
  named o' ho' := by
    obtain ⟨o, ho, same⟩ := same o' ho'
    have named := life.named o ho
    exact ⟨same.eventType ▸ named.type,
      by rw [same.idempotencyKey, same.eventType, same.aggregateId]; exact named.key⟩
  keys o' ho' p' hp' key := by
    obtain ⟨o, ho, sameO⟩ := same o' ho'
    obtain ⟨p, hp, sameP⟩ := same p' hp'
    have : o = p := life.keys o ho p hp (sameO.idempotencyKey ▸ sameP.idempotencyKey ▸ key)
    exact Table.eq_of_key ho' hp' (sameO.id.trans (this ▸ sameP.id.symm))
  attempts := life.attempts

end

/-! ## Runs -/

namespace World

variable [PyLib] {settings : Settings} {u v w : World} {turn : Turn}

theorem Does.lifecycle (does : Does settings w turn v) (sound : w.Sound) (life : w.db.Lifecycle) :
    v.db.Lifecycle := by
  cases does with
  | commit at_ code clock run =>
    have grows : w.db.Grows _ := (Does.commit at_ code clock run).grows
    exact (work_of_run code run).lifecycle life sound.db grows
      (sound.claims _ (List.mem_of_getElem? at_))
  | limits known own => exact life.of_eq rfl rfl rfl
  | dispatched picks offered =>
    exact life.redispatch (Does.dispatched picks offered).grows same_of_dispatch
  | _ => exact life

theorem Reaches.lifecycle (h : u.Reaches settings w) (sound : u.Sound) (life : u.db.Lifecycle) :
    w.db.Lifecycle := by
  induction h with
  | refl => exact life
  | step turn before move ih => exact (next_does move).lifecycle (before.sound sound) ih

omit [PyLib] in
theorem lifecycle_start (now : Time) (merchants : Table Merchant)
    (policies : Table MerchantPolicy) : (start now merchants policies).db.Lifecycle := by
  constructor <;> intro r hr <;> exact absurd hr List.not_mem_nil

end World

/-- What the rows of a case look like between transactions. -/
structure Lived (d : Db) (c : RecoveryCase) : Prop where
  status : c.status ∈ restingStatuses
  eligible : ∃! o, o ∈ d.outbox ∧ o.About eligibleEvent c
  recovered : (∃ o ∈ d.outbox, o.About recoveredEvent c) ↔ c.status = .recovered
  oneAction : ∀ a ∈ d.actions, ∀ b ∈ d.actions, a.recoveryCaseId = c.id →
    b.recoveryCaseId = c.id → a = b
  scheduled : (∃ o ∈ d.outbox, o.About scheduledEvent c) ↔
    ∃ a ∈ d.actions, a.recoveryCaseId = c.id ∧ a.actionType.executable
  unacted : c.status = .eligible → ∀ a ∈ d.actions, a.recoveryCaseId ≠ c.id
  actions : ∀ a ∈ d.actions, a.recoveryCaseId = c.id → c.status ∈ caseStatuses a.actionType a.status

theorem Db.Lifecycle.lived {d : Db} (life : d.Lifecycle) (sound : d.Sound) {c : RecoveryCase}
    (hc : c ∈ d.cases) : Lived d c where
  status := (life.life c hc).status
  eligible := by
    have other : eligibleEvent ≠ scheduledEvent := by simp [eligibleEvent, scheduledEvent]
    obtain ⟨o, ho, type, own⟩ := (life.life c hc).eligible
    refine ⟨o, ⟨ho, type, own⟩, ?_⟩
    rintro o' ⟨ho', type', own'⟩
    refine life.keys o' ho' o ho ?_
    rw [(life.named o' ho').key_eq (type' ▸ other), (life.named o ho).key_eq (type ▸ other), type,
      type', own, own']
  recovered := (life.life c hc).recovered
  oneAction a ha b hb own own' := sound.oneAction a ha b hb (own.trans own'.symm)
  scheduled := (life.life c hc).scheduled
  unacted eligible a ha own := sound.acted a ha c hc own.symm eligible
  actions := (life.life c hc).actions

section

variable [PyLib] {settings : Settings}

/-- Every case looks so in every reachable world. -/
theorem case_lifecycle {now : Time} {merchants : Table Merchant} {policies : Table MerchantPolicy}
    {w : World} (run : (World.start now merchants policies).Reaches settings w) :
    ∀ c ∈ w.db.cases, Lived w.db c := by
  have sound := World.Sound.start now merchants policies
  have life := run.lifecycle sound (World.lifecycle_start now merchants policies)
  exact fun c hc => life.lived (run.sound sound).db hc

end

theorem case_lifecycle_sample :
    ∃ w, @World.run (.recorded [expiredInstrument]) {} sampleWorld decideTurns = some w ∧
    w.db.cases.rows.map (·.status) = [.actionScheduled] ∧ ∀ c ∈ w.db.cases, Lived w.db c := by
  let _ : PyLib := .recorded [expiredInstrument]
  have statuses : (sampleWorld.run {} decideTurns).map (fun w => w.db.cases.rows.map (·.status)) =
      some [.actionScheduled] := by decide +kernel
  obtain ⟨w, run, statuses⟩ := Option.map_eq_some_iff.1 statuses
  exact ⟨w, run, statuses, case_lifecycle (.run .refl run)⟩

end RecoverAI
