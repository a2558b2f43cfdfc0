import RecoverAI.Runs.Accountable
import RecoverAI.Services.Dashboard

/-!
# What the details of a case explain

The audit events about a case tell its creation, its decision and its recovery, each once and in
this order. What happens to the action is told about the action only, so the details do not show it.
Still they determine the status of the case: its one action fills in what the events leave out.
-/
namespace RecoverAI

open Store

/-- The case has an action. -/
def Db.acted (d : Db) (caseId : Uuid) : Bool := d.actions.rows.any (·.recoveryCaseId = caseId)

/-- The types of the events about a case. -/
def story (acted recovered : Bool) : List String :=
  eligibleEvent :: (if acted then [decisionEvent] else []) ++
    if recovered then [recoveredEvent] else []

/-- What the events about a case tell. -/
structure Told (d : Db) (c : RecoveryCase) : Prop where
  types : (d.trail c.id).map (·.eventType) = story (d.acted c.id) (c.status = .recovered)
  final : ∀ x ∈ d.trail c.id, x.eventType = decisionEvent →
    ∀ a ∈ d.actions, a.recoveryCaseId = c.id →
    Json.item x.payload "final_action" = .str a.actionType.value
  unacted : d.acted c.id = false → c.status = .eligible ∨ c.status = .recovered

section

variable {d d' : Db} {c c' : RecoveryCase} {id : Uuid} {x : AuditEvent}

theorem acted_iff : d.acted id ↔ ∃ a ∈ d.actions, a.recoveryCaseId = id := by
  simp [Db.acted, Table.mem_rows]

theorem acted_eq_false : d.acted id = false ↔ ∀ a ∈ d.actions, a.recoveryCaseId ≠ id := by
  simp [Db.acted, Table.mem_rows]

theorem mem_trail :
    x ∈ d.trail id ↔ x ∈ d.audits ∧ x.entityType = "recovery_case" ∧ x.entityId = id.str := by
  simp [Db.trail, Table.mem_filter]

theorem trail_of_eq (audits : d'.audits = d.audits) : d'.trail id = d.trail id := by
  rw [Db.trail, audits, Db.trail]

theorem trail_put (absent : d.Absent (.audit x)) (audits : d'.audits = d.audits.put x) :
    d'.trail id = d.trail id ++ if x.entityType = "recovery_case" ∧
      x.entityId = id.str then [x] else [] := by
  rw [Db.trail, audits, Table.filter_put_of_free (Table.get_eq_none.1 absent.audit), Db.trail]
  simp only [Bool.and_eq_true, decide_eq_true_eq]

/-- An event about something else does not show. -/
theorem trail_other (absent : d.Absent (.audit x)) (audits : d'.audits = d.audits.put x)
    (other : x.entityType = "recovery_case" → x.entityId ≠ id.str) : d'.trail id = d.trail id := by
  rw [trail_put absent audits, if_neg fun about => other about.1 about.2, List.append_nil]

theorem acted_of_same (back : ∀ a' ∈ d'.actions, ∃ a ∈ d.actions, a.Same a') (grows : d.Grows d') :
    d'.acted id = d.acted id := by
  rw [Bool.eq_iff_iff, acted_iff, acted_iff]
  constructor
  · rintro ⟨a', ha', own⟩
    obtain ⟨a, ha, same⟩ := back a' ha'
    exact ⟨a, ha, same.recoveryCaseId.symm.trans own⟩
  · rintro ⟨a, ha, own⟩
    obtain ⟨a', ha', same⟩ := grows.actions a ha
    exact ⟨a', ha', same.recoveryCaseId.trans own⟩

/-- A commit that tells nothing about the case and gives it no action. -/
theorem Told.silent (h : Told d c) (same : c.Same c') (trail : d'.trail c.id = d.trail c.id)
    (back : ∀ a' ∈ d'.actions, a'.recoveryCaseId = c.id → ∃ a ∈ d.actions, a.Same a')
    (acted : d'.acted c.id = d.acted c.id)
    (recovered : c'.status = .recovered ↔ c.status = .recovered)
    (unacted : d.acted c.id = false → c'.status = c.status) : Told d' c' where
  types := by
    rw [same.id, trail, acted, h.types]
    exact congrArg (story _) (decide_eq_decide.2 recovered.symm)
  final x hx type a' ha' own := by
    rw [same.id] at own
    obtain ⟨a, ha, sameAction⟩ := back a' ha' own
    rw [sameAction.actionType]
    exact h.final x (trail ▸ same.id ▸ hx) type a ha (sameAction.recoveryCaseId.symm.trans own)
  unacted none := by
    rw [same.id, acted] at none
    rw [unacted none]
    exact h.unacted none

/-- What a case has been told of before its decision. -/
theorem Told.types_unacted (h : Told d c) (none : ∀ a ∈ d.actions, a.recoveryCaseId ≠ c.id)
    (eligible : c.status = .eligible) : (d.trail c.id).map (·.eventType) = [eligibleEvent] := by
  rw [h.types, acted_eq_false.2 none, eligible]
  rfl

end

/-- Every case is told of. -/
def Db.Told (d : Db) : Prop := ∀ c ∈ d.cases, RecoverAI.Told d c

theorem Db.Told.of_eq {d d' : Db} (h : d.Told) (cases : d'.cases = d.cases)
    (actions : d'.actions = d.actions) (audits : d'.audits = d.audits) : d'.Told := fun c hc =>
  (h c (cases ▸ hc)).silent (.refl c) (trail_of_eq audits)
    (fun a ha _ => ⟨a, actions ▸ ha, .refl a⟩)
    (by rw [Db.acted, actions, Db.acted]) Iff.rfl fun _ => rfl

section

variable {d d' : Db} {carried : Option Claim} {cs : List RecoveryCase} {as : List RecoveryAction}
  {os : List OutboxEvent} {xs : List AuditEvent} {case c' : RecoveryCase}

/-- A commit about an action moves a case that has it, and tells nothing about a case. -/
theorem Db.Told.move (h : d.Told) (changes : d.Changes d' cs as os xs) (grows : d.Grows d')
    (trail : ∀ id, d'.trail id = d.trail id) (back : ∀ a ∈ as, ∃ a₀ ∈ d.actions, a₀.Same a)
    (hc : case ∈ d.cases) (acted : d.acted case.id) (same : case.Same c')
    (cases : cs = [] ∨ cs = [c']) (recovered : c'.status = .recovered ↔ case.status = .recovered) :
    d'.Told := by
  intro c hc'
  have actions : ∀ a' ∈ d'.actions, ∃ a ∈ d.actions, a.Same a' := fun a' ha' =>
    (Table.mem_or_of_mem_putAll (changes.actions ▸ ha')).elim (back a') fun old =>
      ⟨a', old, .refl a'⟩
  have own : ∀ id, d'.acted id = d.acted id := fun _ => acted_of_same actions grows
  rcases Table.mem_or_of_mem_putAll (changes.cases ▸ hc') with new | old
  · obtain rfl : c = c' := by
      rcases cases with rfl | rfl
      · cases new
      · exact List.mem_singleton.1 new
    exact (h case hc).silent same (trail _) (fun a' ha' _ => actions a' ha') (own _) recovered
      fun none => absurd acted (Bool.eq_false_iff.1 none)
  · exact (h c old).silent (.refl c) (trail _) (fun a' ha' _ => actions a' ha')
      (own _) Iff.rfl fun _ => rfl

/-- A commit that tells about the case `id`. -/
theorem Db.Told.step (h : d.Told) (changes : d.Changes d' cs as os [x])
    (absent : d.Absent (.audit x)) (id : Uuid) (cases : ∀ c ∈ cs, c.id = id)
    (actions : ∀ a ∈ as, a.recoveryCaseId = id) (grows : d.Grows d') (about : x.entityId = id.str)
    (told : ∀ c ∈ d'.cases, c.id = id → RecoverAI.Told d' c) : d'.Told := by
  intro c hc
  by_cases own : c.id = id
  · exact told c hc own
  · have old := (Table.mem_or_of_mem_putAll (changes.cases ▸ hc)).resolve_left fun written =>
      own (cases c written)
    have frame := changes.actions_frame (c := c) grows fun a ha same =>
      own (same.symm.trans (actions a ha))
    refine (h c old).silent (.refl c) (trail_other absent changes.audits fun _ same => ?_)
      (fun a ha same => ⟨a, (frame a same).1 ha, .refl a⟩) ?_ Iff.rfl fun _ => rfl
    · exact own (Uuid.str_injective (same.symm.trans about))
    · rw [Bool.eq_iff_iff, acted_iff, acted_iff]
      exact exists_congr fun a => and_congr_left fun own => frame a own

theorem Taken.told {env : Draws} {c : RecoveryCase} {ps : List Row} {s : Selection}
    {source : String} (taken : Taken id World.Alone env case c ps d) (h : d.Told) (sound : d.Sound)
    (grows : d.Grows d') (audit : d.Absent (.audit (decisionAudit env case source s)))
    (changes : d.Changes d' [c.decided s env.now] [newAction env case s.finalAction]
      (outboxOf (scheduledRows env case s)) [decisionAudit env case source s]) : d'.Told := by
  obtain ⟨rfl, found, eligible⟩ := taken.alone
  have hc := (Table.get_eq_some.1 found).1
  have none := (sound.none_of_eligible hc eligible).1
  have before := (h case hc).types_unacted none eligible
  have trail : d'.trail case.id = d.trail case.id ++ [decisionAudit env case source s] := by
    rw [trail_put audit changes.audits, if_pos ⟨rfl, rfl⟩]
  have only : ∀ a ∈ d'.actions, a.recoveryCaseId = case.id → a = newAction env case s.finalAction :=
    fun a ha own => (Table.mem_or_of_mem_putAll (changes.actions ▸ ha)).elim List.mem_singleton.1
      fun old => absurd own (none a old)
  have acted : d'.acted case.id := acted_iff.2 ⟨_, changes.action_mem, rfl⟩
  have open_ : s.finalStatus ≠ .recovered := by
    rcases s.finalStatus_cases with ⟨-, h⟩ | ⟨-, h⟩ | ⟨-, h⟩ <;> simp [h]
  refine h.step changes audit case.id (fun x hx => List.mem_singleton.1 hx ▸ rfl)
    (fun x hx => List.mem_singleton.1 hx ▸ rfl) grows rfl fun x hx own => ?_
  obtain rfl : x = case.decided s env.now := Table.eq_of_key hx changes.case_mem own
  refine ⟨?_, fun x hx type a ha own => ?_, fun none => absurd acted (Bool.eq_false_iff.1 none)⟩
  · change (d'.trail case.id).map _ = story (d'.acted case.id) (s.finalStatus = .recovered)
    rw [trail, List.map_append, before, acted, decide_eq_false open_]
    rfl
  · rw [only a ha own]
    have hx : x ∈ d.trail case.id ++ [decisionAudit env case source s] := trail ▸ hx
    rcases List.mem_append.1 hx with old | new
    · have := before ▸ List.mem_map_of_mem (f := AuditEvent.eventType) old
      rw [type] at this
      simp [decisionEvent, eligibleEvent] at this
    · rw [List.mem_singleton.1 new]
      rfl

theorem told_of_created {env : Draws} {merchant : Merchant} {correlationId : Option String}
    {payload : Fields} (h : d.Told) (sound : d.Sound) (grows : d.Grows d')
    (absent : d.cases.get case.id = none)
    (audited : d.Absent (.audit (caseAudit env merchant case eligibleEvent correlationId payload)))
    (changes : d.Changes d' [case.become .eligible] [] os
      [caseAudit env merchant case eligibleEvent correlationId payload]) :
    d'.Told := by
  have none := (sound.none_of_absent absent).1
  -- An event about a case has its case in the table.
  have untold : d.trail case.id = [] := by
    refine List.eq_nil_iff_forall_not_mem.2 fun x hx => ?_
    obtain ⟨mem, entity, about⟩ := mem_trail.1 hx
    rcases sound.audit x mem with ⟨-, c, hc, id, -⟩ | ⟨other, -⟩
    · exact Table.get_eq_none.1 absent c hc (Uuid.str_injective (id.trans about))
    · rw [entity] at other
      simp at other
  have trail : d'.trail case.id =
      [caseAudit env merchant case eligibleEvent correlationId payload] := by
    rw [trail_put audited changes.audits, if_pos ⟨rfl, rfl⟩, untold]
    rfl
  have actions : d'.actions = d.actions := changes.actions
  refine h.step changes audited case.id (fun x hx => List.mem_singleton.1 hx ▸ rfl)
    (fun x hx => absurd hx List.not_mem_nil) grows rfl fun x hx own => ?_
  obtain rfl : x = case.become .eligible := Table.eq_of_key hx changes.case_mem own
  refine ⟨?_, fun x hx type => ?_, fun _ => .inl rfl⟩
  · change (d'.trail case.id).map _ = story (d'.acted case.id) _
    rw [trail, acted_eq_false.2 fun a ha => none a (actions ▸ ha)]
    rfl
  · have hx : x ∈ d'.trail case.id := hx
    rw [trail, List.mem_singleton] at hx
    subst hx
    simp [caseAudit, decisionEvent, eligibleEvent] at type

theorem told_of_recovered {env : Draws} {merchant : Merchant} {correlationId : Option String}
    {payload : Fields} (h : d.Told) (grows : d.Grows d') (hc : case ∈ d.cases)
    (open_ : case.status.isTerminal = false) (back : ∀ a ∈ as, ∃ a₀ ∈ d.actions, a₀.Same a)
    (own : ∀ a ∈ as, a.recoveryCaseId = case.id)
    (audited : d.Absent (.audit (caseAudit env merchant case recoveredEvent correlationId payload)))
    (changes : d.Changes d' [case.become .recovered] as os
      [caseAudit env merchant case recoveredEvent correlationId payload]) :
    d'.Told := by
  have old := h case hc
  have actions : ∀ a' ∈ d'.actions, ∃ a ∈ d.actions, a.Same a' := fun a' ha' =>
    (Table.mem_or_of_mem_putAll (changes.actions ▸ ha')).elim (back a') fun old =>
      ⟨a', old, .refl a'⟩
  have trail : d'.trail case.id = d.trail case.id ++
      [caseAudit env merchant case recoveredEvent correlationId payload] := by
    rw [trail_put audited changes.audits, if_pos ⟨rfl, rfl⟩]
  have unrecovered : case.status ≠ .recovered := by
    rintro recovered
    rw [recovered] at open_
    cases open_
  refine h.step changes audited case.id (fun x hx => List.mem_singleton.1 hx ▸ rfl) own grows rfl
    fun x hx same => ?_
  obtain rfl : x = case.become .recovered := Table.eq_of_key hx changes.case_mem same
  refine ⟨?_, fun x hx type a' ha' own => ?_, fun _ => .inr rfl⟩
  · change (d'.trail case.id).map _ = story (d'.acted case.id) _
    rw [trail, List.map_append, old.types, acted_of_same actions grows, decide_eq_false unrecovered]
    simp [story, RecoveryCase.become, caseAudit]
  · obtain ⟨a, ha, sameAction⟩ := actions a' ha'
    have hx : x ∈ d.trail case.id ++
        [caseAudit env merchant case recoveredEvent correlationId payload] := trail ▸ hx
    rcases List.mem_append.1 hx with before | new
    · rw [sameAction.actionType]
      exact old.final x before type a ha (sameAction.recoveryCaseId.symm.trans own)
    · rw [List.mem_singleton.1 new] at type
      simp [caseAudit, decisionEvent, recoveredEvent] at type

/-- The statuses a claim or a finalization moves a case to. -/
theorem Moves.unrecovered {new : RecoveryCaseStatus} {rows : List Row}
    (moves : Moves id World.Alone new case rows d) (found : d.cases.get case.id = some case)
    (other : new ≠ .recovered) :
    ∃ c', case.Same c' ∧ (casesOf rows = [] ∨ casesOf rows = [c']) ∧
      (c'.status = .recovered ↔ case.status = .recovered) := by
  rcases moves.alone found with ⟨-, none⟩ | ⟨scheduled, moved⟩
  · exact ⟨case, .refl case, .inl none, Iff.rfl⟩
  · refine ⟨case.become new, ⟨rfl, rfl, rfl, rfl, rfl⟩, .inr moved, iff_of_false other ?_⟩
    simp [scheduled]

theorem Work.told [PyLib] {allows : Db → Stmt → Prop} (h : Work id World.Alone allows carried d' d)
    (told : d.Told) (life : d.Lifecycle) (sound : d.Sound) (grows : d.Grows d')
    (backs : World.Backs d carried) : d'.Told := by
  -- The events about an action are not about a case.
  have other : ∀ {env : Draws} {case : RecoveryCase} {action : RecoveryAction} {type :
      String} {payload : Fields},
      d.Absent (.audit (actionAudit env case action type payload)) →
      d'.audits = d.audits.put (actionAudit env case action type payload) →
        ∀ id, d'.trail id = d.trail id :=
    fun absent audits _ => trail_other absent audits fun entity => by simp [actionAudit] at entity
  have back : ∀ {a a' : RecoveryAction}, a ∈ d.actions → a.Same a' →
      ∀ x ∈ [a'], ∃ a₀ ∈ d.actions, a₀.Same x :=
    fun ha same x hx => ⟨_, ha, List.mem_singleton.1 hx ▸ same⟩
  cases h with
  | quiet changes => exact told.of_eq changes.cases changes.actions changes.audits
  | noted carries found _ audit changes =>
    obtain ⟨-, ha, foundCase, own⟩ := found.alone carries backs
    exact told.move changes grows (other audit changes.audits)
      (fun a ha => absurd ha List.not_mem_nil)
      (Table.get_eq_some.1 foundCase).1 (acted_iff.2 ⟨_, ha, own⟩) (.refl _) (.inl rfl) Iff.rfl
  | blocked taken existing changes =>
    obtain ⟨_, finalAction, a, rfl, ha, same⟩ := existing
    exact absurd same (life.unblocked sound taken ha)
  | decided taken action outbox audit changes => exact taken.told told sound grows audit changes
  | cancelled held stop audit changes =>
    obtain ⟨rfl, -, ha, -, found, own⟩ := held.alone
    obtain ⟨c', same, cases, recovered⟩ := stop.unrecovered found (by decide)
    exact told.move changes grows (other audit changes.audits)
      (back ha ⟨rfl, rfl, rfl, rfl, rfl, rfl⟩)
      (Table.get_eq_some.1 found).1 (acted_iff.2 ⟨_, ha, own.symm⟩) same cases recovered
  | claimed held open_ audit changes =>
    obtain ⟨rfl, -, ha, -, found, own⟩ := held.alone
    exact told.move changes grows (other audit changes.audits)
      (back ha ⟨rfl, rfl, rfl, rfl, rfl, rfl⟩)
      (Table.get_eq_some.1 found).1 (acted_iff.2 ⟨_, ha, own.symm⟩) (.refl _) (.inl rfl) Iff.rfl
  | executed carries found executing moves base audit changes =>
    obtain ⟨read, ha, foundCase, own⟩ := found.alone carries backs
    obtain rfl := Option.some.inj (read.symm.trans base)
    obtain ⟨c', same, cases, recovered⟩ := moves.unrecovered foundCase (by decide)
    rw [patchAction_succeeded] at changes
    exact told.move changes grows (other audit changes.audits)
      (back ha ⟨rfl, rfl, rfl, rfl, rfl, rfl⟩)
      (Table.get_eq_some.1 foundCase).1 (acted_iff.2 ⟨_, ha, own⟩) same cases recovered
  | failed carries found executing base audit changes =>
    obtain ⟨read, ha, foundCase, own⟩ := found.alone carries backs
    obtain rfl := Option.some.inj (read.symm.trans base)
    rw [patchAction_unsuccessful] at changes
    exact told.move changes grows (other audit changes.audits)
      (back ha ⟨rfl, rfl, rfl, rfl, rfl, rfl⟩)
      (Table.get_eq_some.1 foundCase).1 (acted_iff.2 ⟨_, ha, own⟩) (.refl _) (.inl rfl) Iff.rfl
  | created pay absent audited event changes =>
    exact told_of_created told sound grows absent.case audited changes
  | activated found status =>
    obtain ⟨_, rfl, hc⟩ := found
    exact absurd status (sound.notFailed _ (Table.mem_of_find hc).1)
  | @recovered env merchant entity amountMinor currency inbox payment case r prs cancels payload ors
    correlationId _ _
      pay chosen recovers audited event changes =>
    obtain ⟨rfl, rfl, found⟩ := recovers.alone chosen
    rw [patchCase_become] at changes
    have cancels : ∀ a ∈ (d.openActions r.id).map Db.cancelled, (∃ a₀ ∈ d.actions, a₀.Same a) ∧
        a.recoveryCaseId = r.id := by
      intro a ha
      obtain ⟨a₀, ha₀, rfl⟩ := List.mem_map.1 ha
      obtain ⟨mem, own⟩ := Table.mem_filter.1 ha₀
      simp only [Bool.and_eq_true, decide_eq_true_eq] at own
      exact ⟨⟨a₀, mem, ⟨rfl, rfl, rfl, rfl, rfl, rfl⟩⟩, own.1⟩
    exact told_of_recovered told grows (Table.get_eq_some.1 found).1 recovers.nonterminal
      (fun a ha => (cancels a ha).1) (fun a ha => (cancels a ha).2) audited changes

/-! ## Times -/

/-- A commit adds one audit event at most, a new one. -/
theorem Work.adds_audit [PyLib] {allows : Db → Stmt → Prop}
    (h : Work id World.Alone allows carried d' d) :
    d'.audits = d.audits ∨ ∃ x, d.Absent (.audit x) ∧ d'.audits = d.audits.put x := by
  cases h with
  | quiet changes | blocked _ _ changes => exact .inl changes.audits
  | noted _ _ _ audit changes | decided _ _ _ audit changes | cancelled _ _ audit changes
  | claimed _ _ audit changes
  | executed _ _ _ _ _ audit changes | failed _ _ _ _ audit changes | created _ _ audit _ changes
  | activated _ _ _ audit _ changes | recovered _ _ _ audit _ changes =>
    exact .inr ⟨_, audit, changes.audits⟩

/-- The events about cases among the rows carry the time of their transaction. -/
def Timed (now : Time) (us : List Row) : Prop :=
  ∀ x ∈ auditsOf us, x.entityType = "recovery_case" → x.createdAt = now

section

variable {settings : Settings} {allows : Db → Stmt → Prop} {us : List Row} {env : Draws} {T : Type}
  {db : T → Db} {R : List Row → T → T → Prop} {t : T}

theorem timed_of_audits {now : Time} {x : AuditEvent} (audits : auditsOf us = [x])
    (time : x.entityType = "recovery_case" → x.createdAt = now) : Timed now us := fun y hy => by
  rw [audits, List.mem_singleton] at hy
  exact hy ▸ time

theorem timed_of_none {now : Time} (audits : auditsOf us = []) : Timed now us := fun y hy => by
  rw [audits] at hy
  cases hy

theorem WebhookEffect.timed [PyLib] {request : Request} {response : Response}
    (h : WebhookEffect db R env allows settings request response us t) : Timed env.began us := by
  cases h with
  | rejected reason => exact timed_of_none rfl
  | recorded admitted found active absent effect =>
    cases effect with
    | ignored unsupported => exact timed_of_none rfl
    | failed type valid effect =>
      cases effect with
      | captured => exact timed_of_none rfl
      | known pay => exact timed_of_none (by simp [List.filterMap_cons, Row.audit?, pay.tables])
      | created pay absent audited event | activated pay found status base audited event =>
        exact timed_of_audits
          (by simp [List.filterMap_cons, Row.audit?, pay.tables, event.tables]; rfl) fun _ => rfl
    | captured type valid effect =>
      cases effect with
      | noCase pay | terminal pay =>
        exact timed_of_none (by simp [List.filterMap_cons, Row.audit?, pay.tables])
      | recovered pay chosen recovers audited event =>
        exact timed_of_audits
          (by simp [List.filterMap_cons, Row.audit?, pay.tables, event.tables,
            Function.comp_def]; rfl)
          fun _ => rfl

theorem timed_decisionRows {case : RecoveryCase} {source : String} {s : Selection} :
    Timed env.began
      (decisionRows env case case source s (newPolicies d env.policyId case.merchantId)) := by
  refine timed_of_audits (x := decisionAudit env case source s) ?_ fun _ => rfl
  simp [decisionRows, List.filterMap_cons, Row.audit?, newPolicies_tables, scheduledRows_tables]

/-- The other transactions write events about actions only. -/
theorem Commits.timed [PyLib] {p q : Process} {now : Time}
    (h : Commits db R settings allows p us q t) (webhook : ∀ request, p ≠ .webhook request)
    (eligible : ∀ job, p ≠ .eligible job) : Timed now us := by
  have entity : ∀ {env : Draws} {case : RecoveryCase} {action : RecoveryAction} {type :
      String} {payload : Fields},
      auditsOf us = [actionAudit env case action type payload] → Timed now us :=
    fun audits => timed_of_audits audits fun entity => by simp [actionAudit] at entity
  cases h with
  | webhook => exact (webhook _ rfl).elim
  | eligible => exact (eligible _ rfl).elim
  | task | unnamed => exact timed_of_none rfl
  | claim id effect =>
    cases effect with
    | refused policy => exact timed_of_none policy.tables.2.2.2.2.2
    | cancelled held stop =>
      exact entity (by simp [List.filterMap_cons, Row.audit?, held.policy.tables, stop.tables]; rfl)
    | claimed held =>
      exact entity (by simp [List.filterMap_cons, Row.audit?, held.policy.tables]; rfl)
  | success effect =>
    cases effect with
    | idle => exact timed_of_none rfl
    | executed found executing moves =>
      exact entity (by simp [List.filterMap_cons, Row.audit?, moves.tables]; rfl)
  | failure effect =>
    cases effect with
    | idle => exact timed_of_none rfl
    | failed | noted => exact entity rfl

end

end

/-! ## Runs -/

namespace World

variable [PyLib] {settings : Settings} {u v w : World} {turn : Turn} {p q : Process}

theorem timed_of_run {d d' : Db} {body : Env → Tx Process} {abort : Err → Process} {env : Env}
    (code : p.act settings = .txn body abort) (run : (body env).run d = .ok (q, d')) :
    ∃ us, d' = view d us ∧ Timed env.draws.began us := by
  cases p with
  | webhook request =>
    cases code
    obtain ⟨response, d₁, received, done⟩ := run_bind_eq_ok.1 run
    cases done
    obtain ⟨us, eq, effect⟩ :=
      Txn.run_ok (wp_razorpayWebhook weakens_serial (fun _ _ _ effect => effect)
      fun _ _ _ raises => raises) received
    exact ⟨us, eq, effect.timed⟩
  | eligible job =>
    cases code
    obtain ⟨result, d₁, decided, done⟩ := run_bind_eq_ok.1 run
    cases done
    cases processEligibleEvent_ok decided with
    | idle => exact ⟨[], rfl, timed_of_none rfl⟩
    | acted source calls known records =>
      cases records with
      | blocked =>
        exact ⟨_, rfl,
          timed_of_none (by simp [openedRows, List.filterMap_cons, Row.audit?, newPolicies_tables])⟩
      | decided => exact ⟨_, rfl, timed_decisionRows⟩
  | _ =>
    obtain ⟨us, eq, commits⟩ := commits_of_run code run
    exact ⟨us, eq, commits.timed (fun _ same => by cases same) fun _ same => by cases same⟩

/-- The events about a case are in the order of their times. -/
def Timely (w : World) : Prop :=
  ∀ id, (w.db.trail id).Pairwise (fun x y => x.createdAt ≤ y.createdAt) ∧
  ∀ x ∈ w.db.trail id, x.createdAt ≤ w.now

theorem Does.timely (does : Does settings w turn v) (timely : w.Timely) : v.Timely := by
  cases does with
  | tick forward => exact fun id => ⟨(timely id).1, fun x hx => ((timely id).2 x hx).trans forward⟩
  | abort _ _ clock =>
    exact fun id => ⟨(timely id).1, fun x hx => ((timely id).2 x hx).trans clock.le⟩
  | @commit _ env _ _ _ _ _ at_ code clock run =>
    intro id
    obtain ⟨sorted, past⟩ := timely id
    have began : env.draws.began ≤ env.draws.handled := clock.began.trans clock.handled
    obtain ⟨us, eq, timed⟩ := timed_of_run code run
    rcases (work_of_run code run).adds_audit with same | ⟨x, absent, audits⟩
    · refine ⟨trail_of_eq same ▸ sorted, fun x hx => ?_⟩
      rw [trail_of_eq same] at hx
      exact (past x hx).trans clock.le
    · have now : x.entityType = "recovery_case" → x.createdAt = env.draws.began := by
        intro entity
        have here : x ∈ w.db.audits.put x := Table.mem_put.2 (.inl rfl)
        rw [← audits, eq, view_audits] at here
        exact timed x ((Table.mem_or_of_mem_putAll here).resolve_right absent.audit_not_mem) entity
      have trail : Db.trail _ id = w.db.trail id ++ _ := trail_put absent audits
      by_cases about : x.entityType = "recovery_case" ∧ x.entityId = id.str
      · rw [if_pos about] at trail
        rw [show _ = _ from trail]
        refine ⟨List.pairwise_append.2 ⟨sorted, List.pairwise_singleton .., fun y hy z hz => ?_⟩,
          fun y hy => ?_⟩
        · rw [List.mem_singleton.1 hz, now about.1]
          exact (past y hy).trans clock.started
        · rcases List.mem_append.1 hy with old | new
          · exact (past y old).trans clock.le
          · rw [List.mem_singleton.1 new, now about.1]
            exact began
      · rw [if_neg about, List.append_nil] at trail
        refine ⟨trail ▸ sorted, fun y hy => ?_⟩
        rw [trail] at hy
        exact (past y hy).trans clock.le
  | _ => exact timely

theorem Does.told (does : Does settings w turn v) (sound : w.Sound) (life : w.db.Lifecycle)
    (told : w.db.Told) : v.db.Told := by
  cases does with
  | commit at_ code clock run =>
    have grows : w.db.Grows _ := (Does.commit at_ code clock run).grows
    exact (work_of_run code run).told told life sound.db grows
      (sound.claims _ (List.mem_of_getElem? at_))
  | limits | dispatched => exact told.of_eq rfl rfl rfl
  | _ => exact told

theorem Reaches.told (h : u.Reaches settings w) (sound : u.Sound) (life : u.db.Lifecycle)
    (timely : u.Timely) (told : u.db.Told) : w.Timely ∧ w.db.Told := by
  induction h with
  | refl => exact ⟨timely, told⟩
  | step turn before move ih =>
    have does := next_does move
    exact ⟨does.timely ih.1, does.told (before.sound sound) (before.lifecycle sound life) ih.2⟩

theorem told_of_start {now : Time} {merchants : Table Merchant} {policies : Table MerchantPolicy}
    (run : (start now merchants policies).Reaches settings w) : w.Timely ∧ w.db.Told :=
  run.told (.start now merchants policies) (lifecycle_start now merchants policies)
    (fun _ => ⟨List.Pairwise.nil, fun _ hx => absurd hx List.not_mem_nil⟩) fun _ hc =>
      absurd hc List.not_mem_nil

end World

/-! ## The details of a case -/

/-- The status of a case that waits for nothing but its action. -/
def statusOf (a : RecoveryAction) : RecoveryCaseStatus :=
  match a.actionType, a.status with
  | .stop, _ => .stopped
  | .escalate, _ => .escalated
  | _, .cancelled => .stopped
  | _, .executed => .waiting
  | _, _ => .actionScheduled

/-- The status a reader infers from the details. -/
def inferredStatus (actions : List RecoveryAction) (trail : List AuditEvent) : RecoveryCaseStatus :=
  if recoveredEvent ∈ trail.map (·.eventType) then .recovered
  else match actions with
    | [] => .eligible
    | a :: _ => statusOf a

/-- What the details of a case say. -/
structure Explains (c : RecoveryCase) (actions : List RecoveryAction) (trail : List AuditEvent) :
    Prop where
  own : (∀ a ∈ actions, a.merchantId = c.merchantId) ∧ ∀ x ∈ trail, x.merchantId = c.merchantId
  one : actions.length ≤ 1
  status : inferredStatus actions trail = c.status
  types : (trail.map (·.eventType)).Perm (story (!actions.isEmpty) (c.status = .recovered))
  order : (trail.map (·.createdAt)).Nodup →
    trail.map (·.eventType) = story (!actions.isEmpty) (c.status = .recovered)
  decision : ∀ x ∈ trail, x.eventType = decisionEvent → ∃ a, actions = [a] ∧
    Json.item x.payload "final_action" = .str a.actionType.value

theorem statusOf_eq {a : RecoveryAction} {s : RecoveryCaseStatus}
    (h : s ∈ caseStatuses a.actionType a.status) (open_ : s ≠ .recovered) : statusOf a = s := by
  unfold statusOf
  generalize a.actionType = type at *
  generalize a.status = status at *
  revert h open_
  cases type <;> cases status <;> cases s <;> decide

/-- A list sorted by distinct times is the only one of its elements. -/
theorem eq_of_sorted {l order : List AuditEvent}
    (sorted : l.Pairwise fun x y => x.createdAt ≤ y.createdAt)
    (sorts : Sorts (fun x => OrderDual.toDual x.createdAt) l order)
    (distinct : (order.map (·.createdAt)).Nodup) : order = l := by
  refine List.Perm.eq_of_pairwise (fun x y hx hy le ge => ?_) sorts.sorted sorted sorts.perm
  exact List.inj_on_of_nodup_map distinct hx (sorts.perm.mem_iff.2 hy) (le_antisymm le ge)

theorem length_le_one {l : List RecoveryAction} (nodup : l.Nodup) (same : ∀ a ∈ l, ∀ b ∈ l, a = b) :
    l.length ≤ 1 := by
  match l with
  | [] | [_] => simp
  | a :: b :: l =>
    obtain rfl := same a (by simp) b (by simp)
    simp at nodup

section

variable [PyLib] {settings : Settings} {now : Time} {merchants : Table Merchant}
  {policies : Table MerchantPolicy} {w : World} {c : RecoveryCase}
  {actionOrder : List RecoveryAction → List RecoveryAction}
  {auditOrder : List AuditEvent → List AuditEvent}

theorem explains_of_run (run : (World.start now merchants policies).Reaches settings w)
    (hc : c ∈ w.db.cases) (orders : OrdersDetails w.db c.id actionOrder auditOrder) :
    Explains c (actionOrder (w.db.actionsOf c.id)) (auditOrder (w.db.trail c.id)) := by
  have sound := (run.sound (.start now merchants policies)).db
  obtain ⟨timely, told⟩ := World.told_of_start run
  have life := case_lifecycle run c hc
  have tells := told c hc
  have actions : ∀ a, a ∈ actionOrder (w.db.actionsOf c.id) ↔
      a ∈ w.db.actions ∧ a.recoveryCaseId = c.id := by
    intro a
    rw [orders.actions.mem_iff, Db.actionsOf, Table.mem_filter, decide_eq_true_eq]
  have audits : ∀ x, x ∈ auditOrder (w.db.trail c.id) ↔
      x ∈ w.db.trail c.id := fun x => orders.audits.perm.mem_iff
  have one : (actionOrder (w.db.actionsOf c.id)).length ≤ 1 := by
    refine length_le_one
      (orders.actions.nodup_iff.2 ((List.Nodup.of_map _ w.db.actions.nodup).filter _))
      fun a ha b hb => ?_
    obtain ⟨ha, own⟩ := (actions a).1 ha
    obtain ⟨hb, own'⟩ := (actions b).1 hb
    exact life.oneAction a ha b hb own own'
  have acted : (!(actionOrder (w.db.actionsOf c.id)).isEmpty) = w.db.acted c.id := by
    rw [Bool.eq_iff_iff, acted_iff, Bool.not_eq_true', List.isEmpty_eq_false_iff_exists_mem]
    exact exists_congr actions
  have types : ((auditOrder (w.db.trail c.id)).map (·.eventType)).Perm
      (story (w.db.acted c.id) (c.status = .recovered)) :=
    tells.types ▸ orders.audits.perm.map _
  constructor
  · refine ⟨fun a ha => ?_, fun x hx => ?_⟩
    · obtain ⟨ha, own⟩ := (actions a).1 ha
      obtain ⟨c', hc', id, merchant⟩ := sound.action a ha
      obtain rfl : c = c' := Table.eq_of_key hc hc' (own.symm.trans id.symm)
      exact merchant.symm
    · obtain ⟨mem, entity, about⟩ := mem_trail.1 ((audits x).1 hx)
      rcases sound.audit x mem with ⟨-, c', hc', id, merchant⟩ | ⟨other, -⟩
      · obtain rfl : c = c' :=
          Table.eq_of_key hc hc' (Uuid.str_injective (about.symm.trans id.symm))
        exact merchant.symm
      · rw [entity] at other
        simp at other
  · exact one
  · have recovered : recoveredEvent ∈ (auditOrder (w.db.trail c.id)).map (·.eventType) ↔
        c.status = .recovered := by
      rw [types.mem_iff]
      cases w.db.acted c.id <;> by_cases status : c.status = .recovered <;>
        simp [story, status, recoveredEvent, eligibleEvent, decisionEvent]
    unfold inferredStatus
    split
    next yes => exact (recovered.1 yes).symm
    next no =>
      have open_ : c.status ≠ .recovered := fun status => no (recovered.2 status)
      split
      next none =>
        rw [none] at acted
        exact ((tells.unacted acted.symm).resolve_right open_).symm
      next a rest some =>
        obtain ⟨ha, own⟩ := (actions a).1 (some ▸ List.mem_cons_self ..)
        exact statusOf_eq (life.actions a ha own) open_
  · rw [acted]
    exact types
  · intro distinct
    rw [acted, eq_of_sorted (timely c.id).1 orders.audits distinct]
    exact tells.types
  · intro x hx type
    have decided : decisionEvent ∈ story (w.db.acted c.id) (c.status = .recovered) :=
      types.mem_iff.1 (type ▸ List.mem_map_of_mem hx)
    cases acts : w.db.acted c.id with
    | false =>
      rw [acts] at decided
      by_cases status : c.status = .recovered <;>
        simp [story, status, decisionEvent, eligibleEvent, recoveredEvent] at decided
    | true =>
      obtain ⟨a, ha, own⟩ := acted_iff.1 acts
      obtain ⟨b, eq⟩ := List.length_eq_one_iff.1
        (le_antisymm one (List.length_pos_of_mem ((actions a).2 ⟨ha, own⟩)))
      obtain rfl := List.mem_singleton.1 (eq ▸ (actions a).2 ⟨ha, own⟩)
      exact ⟨a, eq, tells.final x ((audits x).1 hx) type a ha own⟩

/-- In every run the details of a case explain it, and nobody but its merchant is shown them. -/
theorem case_explained (run : (World.start now merchants policies).Reaches settings w)
    (caseId merchantId : Uuid) (orders : OrdersDetails w.db caseId actionOrder auditOrder) :
    (∃ c ∈ w.db.cases, c.id = caseId ∧ c.merchantId = merchantId ∧ ∃ actions trail,
      Explains c actions trail ∧
      getCaseExplainability w.db actionOrder auditOrder caseId merchantId =
        (some c, actions, trail)) ∨
    (∀ c ∈ w.db.cases, c.id = caseId → c.merchantId ≠ merchantId) ∧
      getCaseExplainability w.db actionOrder auditOrder caseId merchantId = (none, [], []) := by
  unfold getCaseExplainability
  cases found : w.db.cases.find fun c => c.id = caseId && c.merchantId = merchantId with
  | none =>
    refine .inr ⟨fun c hc id own => ?_, rfl⟩
    have missed := Table.find_eq_none.1 found c hc
    simp [id, own] at missed
  | some c =>
    obtain ⟨hc, named⟩ := Table.mem_of_find found
    simp only [Bool.and_eq_true, decide_eq_true_eq] at named
    obtain ⟨rfl, own⟩ := named
    exact .inl ⟨c, hc, rfl, own, _, _, explains_of_run run hc orders, rfl⟩

end

/-- The order of insertion is one that the query allows. -/
theorem World.Timely.orders {w : World} (timely : w.Timely) (caseId : Uuid) :
    OrdersDetails w.db caseId id id where
  actions := .refl _
  audits := ⟨.refl _, (timely caseId).1⟩

theorem case_explained_sample : ∃ w c actions trail,
    @World.Reaches (.recorded [expiredInstrument]) {} sampleWorld w ∧ c ∈ w.db.cases ∧
      c.status = .actionScheduled ∧
      Explains c actions trail ∧ getCaseExplainability w.db id id c.id c.merchantId =
        (some c, actions, trail) := by
  let _ : PyLib := .recorded [expiredInstrument]
  obtain ⟨scheduled, -, -, -, -, -, run, -, -, -, -, -, status, -⟩ := linkRun
  have reached := World.Reaches.run .refl run
  obtain ⟨timely, -⟩ := World.told_of_start reached
  simp only [List.any_eq_true, decide_eq_true_eq] at status
  obtain ⟨c, hc, status⟩ := status
  rcases case_explained reached c.id c.merchantId (timely.orders c.id) with
    ⟨c', hc', id, -, actions, trail, explains, shown⟩ | ⟨missing, -⟩
  · obtain rfl : c' = c := Table.eq_of_key hc' hc id
    exact ⟨scheduled, c', actions, trail, reached, hc, status, explains, shown⟩
  · exact absurd rfl (missing c hc rfl)

end RecoverAI
